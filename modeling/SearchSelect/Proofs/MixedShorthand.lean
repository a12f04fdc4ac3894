import SearchSelect.Proofs.PhraseShorthand

/-! Conditions that mix the two spellings of an equality. The scan for shorthand meets each
equality at its first character, whatever the values before it hold, and what it writes is read as
the same equalities, with AND before OR. -/

namespace SearchSelect.Sql

open Text
open Shorthand (stringRest? value? isBare doubleQuotes)
open SearchSelect.Filter (Joint phraseBody phrase filtered)

/-! ## Fragments -/

/-- An equality is written in full, or in shorthand with a bare token, a phrase or a string. -/
inductive Spelling where
  | full
  | token
  | phrase
  | string
  deriving DecidableEq, Repr

structure Fragment where
  spelling : Spelling
  equality : Equality
  deriving DecidableEq, Repr

namespace Fragment

def text (f : Fragment) : List Char :=
  match f.spelling with
  | .full => f.equality.text
  | .token => f.equality.column.toList ++ ':' :: f.equality.value.toList
  | .phrase => f.equality.column.toList ++ ':' :: '\x22' :: (f.equality.value.toList ++ ['\x22'])
  | .string =>
    f.equality.column.toList ++ ':' :: '\x27' :: (doubleQuotes f.equality.value.toList ++ ['\x27'])

/-- What a value has to be for its spelling. -/
def Spells : Spelling → List Char → Prop
  | .token, v => v ≠ [] ∧ ∀ c ∈ v, isBare c
  | .phrase, v => '\x5c' ∉ v ∧ '\x22' ∉ v
  | _, _ => True

structure Fits (f : Fragment) : Prop where
  bare : IsBareName f.equality.column
  spells : Spells f.spelling f.equality.value.toList

end Fragment

/-- Where a fragment ends: at the end of the text or at a blank. -/
def Spaced (r : List Char) : Prop :=
  ∀ c ∈ r.head?, c = ' '

theorem Spaced.single {r : List Char} (spaced : Spaced r) : '\x27' ∉ r.head? :=
  fun quote => absurd (spaced _ quote) (by decide)

section Values

variable {v r : List Char}

theorem doubleQuotes_eq_self (plain : '\x27' ∉ v) : doubleQuotes v = v :=
  flatMap_eq_self fun c hc => if_neg fun quote : c = '\x27' => plain (quote ▸ hc)

theorem phraseBody_eq_self (slash : '\x5c' ∉ v) (quote : '\x22' ∉ v) : phraseBody v = v := by
  refine flatMap_eq_self fun c hc => if_neg ?_
  simp only [Bool.or_eq_true, decide_eq_true_eq, not_or]
  exact ⟨fun same => slash (same ▸ hc), fun same => quote (same ▸ hc)⟩

theorem value?_token (some : v ≠ []) (bare : ∀ c ∈ v, isBare c) (spaced : Spaced r) :
    value? (v ++ r) = .some (doubleQuotes v, r) := by
  have quote : '\x27' ∉ v := fun mem => absurd (bare _ mem) (by decide)
  have stop : ∀ c ∈ r.head?, isBare c = false := by
    intro c hc
    rw [spaced c hc]
    decide
  have unquoted : ∀ q, isBare q = false → ∀ t, v ++ r ≠ q :: t := by
    rintro q quote t heads
    obtain ⟨c, cs, rfl⟩ := List.exists_cons_of_ne_nil some
    obtain rfl := (List.cons.inj heads).1
    rw [bare c (by simp)] at quote
    cases quote
  rw [doubleQuotes_eq_self quote, value?, takeWhile_append_stop bare stop,
    dropWhile_append_stop bare stop, if_neg (by simpa using some)]
  · exact unquoted _ (by decide)
  · exact unquoted _ (by decide)

theorem value?_unescaped (slash : '\x5c' ∉ v) (quote : '\x22' ∉ v) (r : List Char) :
    value? ('\x22' :: (v ++ '\x22' :: r)) = .some (doubleQuotes v, r) := by
  have read := value?_phrase v r
  have same : phrase v ++ r = '\x22' :: (v ++ '\x22' :: r) := by
    simp [phrase, phraseBody_eq_self slash quote]
  rwa [same, backslashesDoubled_eq_iff.mpr slash] at read

end Values

/-! ## The scan -/

theorem expand_equality {e : Equality} {r : List Char} (bare : IsBareName e.column)
    (spaced : Spaced r) : Shorthand.expand (e.text ++ r) = e.text ++ Shorthand.expand r := by
  have shape : ∀ t, e.text ++ t = (e.column.toList ++ [' ', '=']) ++
      ' ' :: '\x27' :: (doubleQuotes e.value.toList ++ '\x27' :: t) := by
    simp [Equality.text]
  have quiet : IsQuiet (e.column.toList ++ [' ', '=']) := by
    simpa [IsQuiet] using bare.isQuiet
  rw [shape, expand_word quiet, expand_string (stringRest?_doubleQuotes _ spaced.single), shape]

theorem expand_fragment {f : Fragment} {r : List Char} (fits : f.Fits) (spaced : Spaced r) :
    Shorthand.expand (f.text ++ r) = f.equality.text ++ Shorthand.expand r := by
  obtain ⟨spelling, e⟩ := f
  obtain ⟨bare, spells⟩ := fits
  cases spelling with
  | full => exact expand_equality bare spaced
  | token =>
    rw [Fragment.text, List.append_assoc]
    exact expand_shorthand bare (value?_token spells.1 spells.2 spaced)
  | phrase =>
    have read := value?_unescaped spells.1 spells.2 r
    have shape : (⟨.phrase, e⟩ : Fragment).text ++ r =
        e.column.toList ++ ':' :: '\x22' :: (e.value.toList ++ '\x22' :: r) := by
      simp [Fragment.text]
    rw [shape]
    exact expand_shorthand bare read
  | string =>
    have shape : (⟨.string, e⟩ : Fragment).text ++ r =
        e.column.toList ++ ':' :: '\x27' :: (doubleQuotes e.value.toList ++ '\x27' :: r) := by
      simp [Fragment.text]
    rw [shape]
    exact expand_shorthand bare (stringRest?_doubleQuotes _ spaced.single)

/-! ## Chains -/

/-- Fragments with AND or OR between each two. -/
structure Chain where
  first : Fragment
  rest : List (Joint × Fragment)

namespace Chain

def fragments (c : Chain) : List Fragment :=
  c.first :: c.rest.map Prod.snd

/-- The chain with every fragment written as `text` says. -/
def writtenWith (text : Fragment → List Char) (c : Chain) : List Char :=
  text c.first ++ c.rest.flatMap fun p => p.1.text ++ text p.2

def text : Chain → List Char :=
  writtenWith Fragment.text

/-- The chain with every fragment written in full. -/
def expanded : Chain → List Char :=
  writtenWith fun f => f.equality.text

/-- A run of equalities goes on until the next OR. -/
def groupsFrom (run : List Equality) : List (Joint × Fragment) → List (List Equality)
  | [] => [run]
  | (.and, f) :: rest => groupsFrom (run ++ [f.equality]) rest
  | (.or, f) :: rest => run :: groupsFrom [f.equality] rest

/-- The runs of equalities that AND holds together. -/
def groups (c : Chain) : List (List Equality) :=
  groupsFrom [c.first.equality] c.rest

def condition (c : Chain) : Condition :=
  disjunctionOf c.groups

end Chain

theorem expand_joint (j : Joint) (s : List Char) :
    Shorthand.expand (j.text ++ s) = j.text ++ Shorthand.expand s := by
  cases j with
  | and => exact expand_word (w := " AND".toList) (by decide) s
  | or => exact expand_word (w := " OR".toList) (by decide) s

theorem spaced_rest (text : Fragment → List Char) (rest : List (Joint × Fragment)) :
    Spaced (rest.flatMap fun p => p.1.text ++ text p.2) := by
  cases rest with
  | nil => simp [Spaced]
  | cons p rest =>
    obtain ⟨j, f⟩ := p
    cases j <;> simp [Spaced, Joint.text]

theorem expand_rest {rest : List (Joint × Fragment)} (fits : ∀ p ∈ rest, p.2.Fits) :
    Shorthand.expand (rest.flatMap fun p => p.1.text ++ p.2.text) =
      rest.flatMap fun p => p.1.text ++ p.2.equality.text := by
  induction rest with
  | nil => rw [List.flatMap_nil, Shorthand.expand, List.flatMap_nil]
  | cons p rest ih =>
    obtain ⟨first, others⟩ := List.forall_mem_cons.mp fits
    rw [List.flatMap_cons, List.flatMap_cons, List.append_assoc, expand_joint,
      expand_fragment first (spaced_rest Fragment.text rest), ih others, List.append_assoc]

theorem expand_text {c : Chain} (fits : ∀ f ∈ c.fragments, f.Fits) :
    Shorthand.expand c.text = c.expanded := by
  obtain ⟨first, others⟩ := List.forall_mem_cons.mp fits
  have rest : ∀ p ∈ c.rest, p.2.Fits := fun p hp => others _ (List.mem_map_of_mem hp)
  rw [Chain.text, Chain.writtenWith, expand_fragment first (spaced_rest Fragment.text c.rest),
    expand_rest rest]
  rfl

/-! ## The condition of a chain -/

theorem intercalate_concat (w : List Char) {xs : List (List Char)} (some : xs ≠ [])
    (x : List Char) : w.intercalate (xs ++ [x]) = w.intercalate xs ++ (w ++ x) := by
  induction xs with
  | nil => exact absurd rfl some
  | cons y ys ih =>
    cases ys with
    | nil => simp
    | cons z zs =>
      have rest : w.intercalate (z :: (zs ++ [x])) = w.intercalate (z :: zs) ++ (w ++ x) :=
        ih (by simp)
      rw [List.cons_append, List.cons_append, List.intercalate_cons_cons, rest,
        List.intercalate_cons_cons]
      simp only [List.append_assoc]

section Groups

variable {run : List Equality} {rest : List (Joint × Fragment)}

theorem groupsFrom_ne_nil : Chain.groupsFrom run rest ≠ [] := by
  fun_induction Chain.groupsFrom run rest with
  | case1 => simp
  | case2 _ _ _ ih => exact ih
  | case3 => simp

theorem ne_nil_of_mem_groupsFrom (some : run ≠ []) :
    ∀ g ∈ Chain.groupsFrom run rest, g ≠ [] := by
  fun_induction Chain.groupsFrom run rest with
  | case1 run => simpa using some
  | case2 _ _ _ ih => exact ih (by simp)
  | case3 _ _ _ ih => exact List.forall_mem_cons.mpr ⟨some, ih (by simp)⟩

theorem flatten_groupsFrom :
    (Chain.groupsFrom run rest).flatten = run ++ rest.map fun p => p.2.equality := by
  fun_induction Chain.groupsFrom run rest with
  | case1 => simp
  | case2 _ _ _ ih => simp [ih]
  | case3 _ _ _ ih => simp [ih]

theorem disjunctionText_groupsFrom (some : run ≠ []) :
    disjunctionText (Chain.groupsFrom run rest) =
      conjunctionText run ++ rest.flatMap fun p => p.1.text ++ p.2.equality.text := by
  fun_induction Chain.groupsFrom run rest with
  | case1 run => simp [disjunctionText]
  | case2 run f rest ih =>
    have longer : conjunctionText (run ++ [f.equality]) =
        conjunctionText run ++ (Joint.and.text ++ f.equality.text) := by
      rw [conjunctionText, List.map_append, List.map_singleton,
        intercalate_concat _ (by simpa using some)]
      rfl
    rw [ih (by simp), longer, List.flatMap_cons, List.append_assoc]
  | case3 run f rest ih =>
    have others : (Chain.groupsFrom [f.equality] rest).map conjunctionText ≠ [] := by
      simpa using groupsFrom_ne_nil
    have tail := ih (by simp)
    rw [disjunctionText] at tail
    rw [disjunctionText, List.map_cons, List.intercalate_cons_of_ne_nil others, tail]
    simp [conjunctionText]

end Groups

theorem predicatesAll_eq_flatMap (cs : List Condition) :
    Condition.predicatesAll cs = cs.flatMap Condition.predicates := by
  induction cs with
  | nil => rfl
  | cons c cs ih => rw [Condition.predicatesAll, ih, List.flatMap_cons]

/-- Leaving out a join of one part changes nothing about the predicates. -/
theorem predicates_joinOf {join : List Condition → Condition}
    (joins : ∀ cs, (join cs).predicates = Condition.predicatesAll cs) (cs : List Condition) :
    (joinOf join cs).predicates = cs.flatMap Condition.predicates := by
  rw [← predicatesAll_eq_flatMap]
  match cs with
  | [] => exact joins []
  | [c] => exact (List.append_nil _).symm
  | c :: d :: cs => exact joins (c :: d :: cs)

theorem predicates_disjunctionOf (gs : List (List Equality)) :
    (disjunctionOf gs).predicates = gs.flatten.map Equality.condition := by
  have each : ∀ g : List Equality, (conjunctionOf g).predicates = g.map Equality.condition := by
    intro g
    rw [conjunctionOf, predicates_joinOf fun _ => rfl, List.flatMap_map]
    exact List.map_eq_flatMap.symm
  rw [disjunctionOf, predicates_joinOf fun _ => rfl, List.flatMap_map, List.map_flatten,
    List.flatMap_def]
  simp only [each]

/-! ## Main statement -/

/-- In a chain the scan writes every shorthand out and leaves everything else as it is. What it
writes is read as the runs that AND holds together, joined by OR; the predicates are the equalities
of the fragments, in their order. -/
theorem ofText_chain (c : Chain) (fits : ∀ f ∈ c.fragments, f.Fits) :
    expandShorthand (whereText c.text) = whereText c.expanded ∧
      Select.ofText? (whereText c.expanded) = .ok (filtered c.condition) ∧
      Query.ofText (whereText c.text) = .ok ⟨filtered c.condition, "docs"⟩ ∧
      c.condition.predicates = c.fragments.map fun f => f.equality.condition := by
  have equalities : c.groups.flatten = c.fragments.map Fragment.equality := by
    simp [Chain.groups, flatten_groupsFrom, Chain.fragments, Function.comp_def]
  have written : c.expanded = disjunctionText c.groups := by
    rw [Chain.groups, disjunctionText_groupsFrom (by simp)]
    simp [Chain.expanded, Chain.writtenWith, conjunctionText]
  have bare : ∀ g ∈ c.groups, g ≠ [] ∧ ∀ e ∈ g, IsBareName e.column := by
    refine fun g hg => ⟨ne_nil_of_mem_groupsFrom (by simp) g hg, fun e he => ?_⟩
    have mem : e ∈ c.fragments.map Fragment.equality :=
      equalities ▸ List.mem_flatten.mpr ⟨g, hg, he⟩
    obtain ⟨f, hf, rfl⟩ := List.mem_map.mp mem
    exact (fits f hf).bare
  have read : anyCondition (' ' :: c.expanded) = some (.ok c.condition, []) := by
    rw [written]
    exact anyCondition_reads groupsFrom_ne_nil bare
  obtain ⟨expands, query⟩ := ofText_where (expand_text fits) read
  refine ⟨expands, ofText?_where read, query, ?_⟩
  rw [Chain.condition, predicates_disjunctionOf, equalities, List.map_map]
  rfl

/-- Look-alikes of shorthand in a value, and quotes of both kinds. -/
def mixedChain : Chain where
  first := ⟨.token, ⟨"a", "b-c"⟩⟩
  rest := [(.and, ⟨.full, ⟨"d", "x:y OR 'z:"⟩⟩), (.or, ⟨.phrase, ⟨"e.f", "it's"⟩⟩),
    (.and, ⟨.string, ⟨"g", "\"h'i"⟩⟩)]

def mixedText : String :=
  "SELECT * FROM docs WHERE a:b-c AND d = 'x:y OR ''z:' OR e.f:\"it's\" AND g:'\"h''i'"

theorem ofText_mixedText :
    (∀ f ∈ mixedChain.fragments, f.Fits) ∧ whereText mixedChain.text = mixedText ∧
      expandShorthand mixedText = "SELECT * FROM docs WHERE a = 'b-c' AND d = 'x:y OR ''z:' OR " ++
        "e.f = 'it''s' AND g = '\"h''i'" ∧
      Query.ofText mixedText = .ok ⟨filtered (.any
        [.all [.equals "a" "b-c", .equals "d" "x:y OR 'z:"],
          .all [.equals "e.f" "it's", .equals "g" "\"h'i"]]), "docs"⟩ := by
  have fits : ∀ f ∈ mixedChain.fragments, f.Fits := by
    simp only [mixedChain, Chain.fragments, List.map_cons, List.map_nil, List.forall_mem_cons]
    have token : ∀ c ∈ "b-c".toList, isBare c := List.all_eq_true.mp (by decide)
    exact ⟨⟨by decide, by decide, token⟩, ⟨by decide, trivial⟩, ⟨by decide, by decide, by decide⟩,
      ⟨by decide, trivial⟩, by simp⟩
  have text : whereText mixedChain.text = mixedText := by decide +kernel
  have expanded : whereText mixedChain.expanded = "SELECT * FROM docs WHERE a = 'b-c' AND " ++
      "d = 'x:y OR ''z:' OR e.f = 'it''s' AND g = '\"h''i'" := by decide +kernel
  obtain ⟨expands, -, query, -⟩ := ofText_chain mixedChain fits
  rw [text] at expands query
  exact ⟨fits, text, expands.trans expanded, query⟩

end SearchSelect.Sql
