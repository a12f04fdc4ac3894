import SearchSelect.Proofs.PhraseShorthand

/-! Membership in a list, and the equalities with its members joined by OR. Both texts are read,
and both filters mean the same for every document, if no member begins with a minus and none is
NULL. In a group of values a minus excludes and a star finds every value, so there a negative
number and NULL are not what they are in an equality. -/

namespace SearchSelect.Sql

open Text
open SearchSelect.Filter (Joint)

variable {c : String} {ls : List Literal} {r : List Char}

/-- Neither NULL nor a number with a minus. -/
def Literal.isPlain : Literal → Bool
  | .number spelling => spelling.toList.head? ≠ some '-'
  | .null => false
  | _ => true

/-! ## Reading -/

def inListText (c : String) (ls : List Literal) : List Char :=
  c.toList ++ (" IN (".toList ++ (", ".toList.intercalate (ls.map Literal.written) ++ [')']))

def equalitiesText (c : String) (ls : List Literal) : List Char :=
  Joint.or.text.intercalate (ls.map fun l => c.toList ++ ' ' :: '=' :: ' ' :: l.written)

/-- The equalities of a column with each of the literals. -/
def equalToAny (c : String) (ls : List Literal) : Condition :=
  joinOf .any (ls.map (equalTo c))

theorem literals_read (some : ls ≠ []) (ok : ∀ l ∈ ls, l.WellFormed) (r : List Char) :
    sepBy1 (symbol ",") literalValue
        (", ".toList.intercalate (ls.map Literal.written) ++ ')' :: r) =
      .some (ls, ')' :: r) := by
  obtain ⟨l, ls, rfl⟩ := List.exists_cons_of_ne_nil some
  obtain ⟨first, others⟩ := List.forall_mem_cons.mp ok
  have follow : ∀ l' ∈ ls, ∀ t, EndsLiteral (", ".toList ++ l'.written ++ t) := fun _ _ _ => by
    simp [EndsLiteral, isWordChar]
  have ends : EndsLiteral (')' :: r) := by simp [EndsLiteral, isWordChar]
  have each : ∀ l' ∈ ls, ∀ t, EndsLiteral t →
      (symbol "," *> literalValue) (", ".toList ++ l'.written ++ t) = .some (id l', t) :=
    fun l' hl t next => literalValue_reads (others l' hl) next
  have rest := many_reads each (by simp) follow ends (bind_refuses rfl)
  have shape : ", ".toList.intercalate ((l :: ls).map Literal.written) ++ ')' :: r =
      l.written ++ (ls.flatMap (fun l' => ", ".toList ++ l'.written) ++ ')' :: r) := by
    rw [List.map_cons, intercalate_eq_flatMap, List.flatMap_map, List.append_assoc]
  rw [shape, sepBy1, bind_reads (literalValue_reads first (follow_flatMap follow ends)),
    bind_reads rest, List.map_id]
  rfl

theorem factor_inList (bare : IsBareName c) (some : ls ≠ []) (ok : ∀ l ∈ ls, l.WellFormed)
    (inner : Reader (Meaning Condition)) (r : List Char) :
    factor inner (' ' :: (inListText c ls ++ r)) = .some (.ok (.oneOf c ls false), r) := by
  let tail := ", ".toList.intercalate (ls.map Literal.written) ++ ')' :: r
  have shape : inListText c ls ++ r = c.toList ++ (" IN (".toList ++ tail) := by
    simp [inListText, tail]
  have ends : EndsName (" IN (".toList ++ tail) := by simp [EndsName, isNameChar, isWordChar]
  have named := bare.name_reads ends
  have word (k : String) : keyword k (" IN (".toList ++ tail) =
      if "in" = k then .some ((), " (".toList ++ tail) else none := by
    have spelled : (Token.word "in").Spells "IN".toList := rfl
    exact keyword_word k (r := " (".toList ++ tail) (by decide) spelled (by simp [isWordChar])
  -- the test of a range comes first in the grammar, and needs another keyword
  have range : rangeTest (c.toList ++ (" IN (".toList ++ tail)) = none :=
    test_refuses named (word "not") (word "between")
  have positive : negation (" IN (".toList ++ tail) = .some (false, " IN (".toList ++ tail) :=
    (orElse_refuses (bind_refuses (word "not"))).trans rfl
  have opening : symbol "(" (" (".toList ++ tail) = .some ((), tail) := rfl
  have closing : symbol ")" (')' :: r) = .some ((), r) := rfl
  have member : membership (c.toList ++ (" IN (".toList ++ tail)) =
      .some (.oneOf c ls false, r) := by
    rw [membership, bind_reads named, bind_reads positive, bind_reads (word "in"),
      bind_reads opening, bind_reads (literals_read some ok r), bind_reads closing]
    rfl
  rw [shape]
  refine bare.factor_reads ends inner ?_
  rw [predicate, orElse_refuses (map_refuses range), orElse_reads (map_reads member)]

theorem anyCondition_inList (bare : IsBareName c) (some : ls ≠ []) (ok : ∀ l ∈ ls, l.WellFormed) :
    anyCondition (' ' :: inListText c ls) = .some (.ok (.oneOf c ls false), []) := by
  have read (inner : Reader (Meaning Condition)) :
      disjunction inner (' ' :: Joint.or.text.intercalate ([ls].map (inListText c))) =
        .some (.ok (joinOf .any ([ls].map fun ls => .oneOf c ls false)), []) :=
    alternatives_reads (by simp) (by simpa using fun t _ => factor_inList bare some ok inner t)
  rw [List.map_singleton, List.intercalate_singleton] at read
  exact read (condition _)

theorem anyCondition_equalities (bare : IsBareName c) (some : ls ≠ [])
    (ok : ∀ l ∈ ls, l.WellFormed) :
    anyCondition (' ' :: equalitiesText c ls) = .some (.ok (equalToAny c ls), []) :=
  alternatives_reads some fun l hl t apart => by
    simpa using factor_equalTo bare (ok l hl) _ (.of_apart apart)

/-- A literal is a string as a whole, or has nothing in it that the scan for shorthand sees. -/
theorem Literal.inert {l : Literal} (ok : l.WellFormed) (single : '\x27' ∉ r.head?)
    (rest : Inert r) : Inert (l.written ++ r) := by
  cases l with
  | text v =>
    rw [Literal.written, List.cons_append, List.append_assoc]
    exact .text (stringRest?_doubleQuotes v.toList single) rest
  | number spelling =>
    have plain : ∀ c ∈ spelling.toList, c ≠ '\x27' ∧ c ≠ ':' := by
      refine IsNumber.forall_mem ok (fun c digit => ?_) (by simp)
      constructor <;> rintro rfl <;> cases digit
    exact .append ⟨fun mem => (plain _ mem).1 rfl, fun mem => (plain _ mem).2 rfl⟩ rest
  | flag b => cases b <;> exact .append (by decide) rest
  | null => exact .append (by decide) rest

/-- Texts that are inert in front of anything inert are so when they are joined. -/
theorem inert_joined {β : Type} {u : β → List Char} {w : List Char} {bs : List β}
    (quiet : IsQuiet w) (starts : ∀ t, '\x27' ∉ (w ++ t).head?)
    (each : ∀ b ∈ bs, ∀ t, '\x27' ∉ t.head? → Inert t → Inert (u b ++ t))
    (single : '\x27' ∉ r.head?) (h : Inert r) : Inert (w.intercalate (bs.map u) ++ r) := by
  cases bs with
  | nil => exact h
  | cons b bs =>
    obtain ⟨first, others⟩ := List.forall_mem_cons.mp each
    have rest : '\x27' ∉ (bs.flatMap (fun b => w ++ u b) ++ r).head? ∧
        Inert (bs.flatMap (fun b => w ++ u b) ++ r) := by
      clear first each
      induction bs with
      | nil => exact ⟨single, h⟩
      | cons b bs ih =>
        obtain ⟨next, others⟩ := List.forall_mem_cons.mp others
        obtain ⟨stop, inert⟩ := ih others
        rw [List.flatMap_cons, List.append_assoc, List.append_assoc]
        exact ⟨starts _, .append quiet (next _ stop inert)⟩
    rw [List.map_cons, intercalate_eq_flatMap, List.flatMap_map, List.append_assoc]
    exact first _ rest.1 rest.2

theorem inert_inList (bare : IsBareName c) (ok : ∀ l ∈ ls, l.WellFormed) :
    Inert (inListText c ls) := by
  have closing : Inert [')'] := .char (by decide) (by decide) .nil
  have values := inert_joined (w := ", ".toList) (by decide) (by simp)
    (fun l hl t => Literal.inert (ok l hl)) (by decide) closing
  exact .append bare.isQuiet (.append (by decide) values)

theorem inert_equalities (bare : IsBareName c) (ok : ∀ l ∈ ls, l.WellFormed) :
    Inert (equalitiesText c ls) := by
  have each : ∀ l ∈ ls, ∀ t, '\x27' ∉ t.head? → Inert t →
      Inert (c.toList ++ ' ' :: '=' :: ' ' :: l.written ++ t) := by
    intro l hl t single rest
    have value : Inert (" = ".toList ++ (l.written ++ t)) :=
      .append (by decide) (l.inert (ok l hl) single rest)
    rw [List.append_assoc]
    exact .append bare.isQuiet value
  have whole := inert_joined (w := Joint.or.text) (by decide) (by simp [Joint.text]) each
    (by simp) .nil
  rwa [List.append_nil] at whole

/-- Both texts are read as they are meant. -/
theorem ofText_inList (bare : IsBareName c) (some : ls ≠ []) (ok : ∀ l ∈ ls, l.WellFormed) :
    Query.ofText (whereText (inListText c ls)) =
        .ok ⟨Filter.filtered (.oneOf c ls false), "docs"⟩ ∧
      Query.ofText (whereText (equalitiesText c ls)) =
        .ok ⟨Filter.filtered (equalToAny c ls), "docs"⟩ :=
  ⟨(ofText_where (expand_eq_self (inert_inList bare ok)) (anyCondition_inList bare some ok)).2,
    (ofText_where (expand_eq_self (inert_equalities bare ok))
      (anyCondition_equalities bare some ok)).2⟩

end SearchSelect.Sql

namespace SearchSelect.Filter

open Sql

/-! ## Documents -/

/-- The values of a group, cut at the ORs between them. In a phrase there is no OR, and a backslash
takes the next character with it. -/
def groupValues : Bool → List Char → List (List Char)
  | _, [] => [[]]
  | quoted, '\x5c' :: c :: s => (groupValues quoted s).modifyHead (['\x5c', c] ++ ·)
  | false, ' ' :: 'O' :: 'R' :: ' ' :: s => [] :: groupValues false s
  | quoted, c :: s => (groupValues (quoted ^^ c = '\x22') s).modifyHead (c :: ·)

/-- What the index knows of a document: the values a column of it is found by, and whether the
column has a value at all. -/
structure Indexed where
  finds : List Char → List Char → Bool
  filled : List Char → Bool
  filled_of_finds : ∀ c v, finds c v → filled c

namespace Indexed

variable (d : Indexed) (c : List Char)

/-- A star finds every value. -/
def value (v : List Char) : Bool :=
  if v = ['*'] then d.filled c else d.finds c v

/-- A value of a group, with the minus that stands before it. -/
def signed : List Char → Bool × Bool
  | '-' :: v => (true, d.value c v)
  | v => (false, d.value c v)

/-- What stands behind a column: a group of values, the range of all values, or one value. -/
def column (v : List Char) : Bool :=
  match v with
  | '(' :: s => found false .or ((groupValues false s.dropLast).map (d.signed c))
  | v => if v = "[* TO *]".toList then d.filled c else d.value c v

def atom (text : List Char) : Bool :=
  d.column (text.takeWhile (· ≠ ':')) ((text.dropWhile (· ≠ ':')).drop 1)

end Indexed

/-! ## Groups -/

section Cut

variable {s : List Char} {c : Char}

theorem groupValues_backslash (quoted : Bool) (c : Char) (s : List Char) :
    groupValues quoted ('\x5c' :: c :: s) =
      (groupValues quoted s).modifyHead (['\x5c', c] ++ ·) := by
  rw [groupValues]

theorem groupValues_or (s : List Char) :
    groupValues false (Joint.or.text ++ s) = [] :: groupValues false s := by
  change groupValues false (' ' :: 'O' :: 'R' :: ' ' :: s) = _
  rw [groupValues]

theorem groupValues_char {quoted : Bool} (slash : c ≠ '\x5c') (joint : quoted = false → c ≠ ' ')
    (s : List Char) :
    groupValues quoted (c :: s) = (groupValues (quoted ^^ c = '\x22') s).modifyHead (c :: ·) := by
  rw [groupValues]
  · rintro _ _ rfl
    exact absurd rfl slash
  · rintro _ open_ rfl
    exact absurd rfl (joint open_)

theorem groupValues_plain {w : List Char} (plain : ∀ c ∈ w, mark c = .plain) (s : List Char) :
    groupValues false (w ++ s) = (groupValues false s).modifyHead (w ++ ·) := by
  induction w with
  | nil => exact (congrFun List.modifyHead_id _).symm
  | cons c w ih =>
    obtain ⟨hc, hw⟩ := List.forall_mem_cons.mp plain
    have slash : c ≠ '\x5c' := by rintro rfl; cases hc
    have blank : c ≠ ' ' := by rintro rfl; cases hc
    have quote : c ≠ '\x22' := by rintro rfl; cases hc
    have outside : (false ^^ decide (c = '\x22')) = false := by simpa using quote
    rw [List.cons_append, groupValues_char slash fun _ => blank, outside, ih hw,
      List.modifyHead_modifyHead]
    rfl

theorem groupValues_phraseBody (v s : List Char) :
    groupValues true (phraseBody v ++ '\x22' :: s) =
      (groupValues false s).modifyHead (phraseBody v ++ '\x22' :: ·) := by
  induction v with
  | nil => exact groupValues_char (by decide) (by simp) s
  | cons c v ih =>
    by_cases marked : c = '\x5c' ∨ c = '\x22'
    · rw [phraseBody_escaped marked, List.cons_append, List.cons_append, groupValues_backslash, ih,
        List.modifyHead_modifyHead]
      rfl
    · obtain ⟨slash, quote⟩ := not_or.mp marked
      have inside : (true ^^ decide (c = '\x22')) = true := by simpa using quote
      rw [phraseBody_plain slash quote, List.cons_append, groupValues_char slash (by simp), inside,
        ih, List.modifyHead_modifyHead]
      rfl

theorem groupValues_valueText {l : Literal} (ok : l.WellFormed) (s : List Char) :
    groupValues false (valueText l ++ s) = (groupValues false s).modifyHead (valueText l ++ ·) := by
  obtain plain | ⟨v, quoted⟩ := valueText_cases ok
  · exact groupValues_plain plain s
  · have opening : groupValues false ('\x22' :: (phraseBody v ++ '\x22' :: s)) =
        (groupValues true (phraseBody v ++ '\x22' :: s)).modifyHead ('\x22' :: ·) :=
      groupValues_char (by decide) (by decide) _
    rw [quoted, phrase, List.cons_append, List.append_assoc, List.singleton_append, opening,
      groupValues_phraseBody, List.modifyHead_modifyHead]
    simp [Function.comp_def]

/-- The values of a group are read as they were written. -/
theorem groupValues_joined {ls : List Literal} (some : ls ≠ []) (ok : ∀ l ∈ ls, l.WellFormed) :
    groupValues false (Joint.or.text.intercalate (ls.map valueText)) = ls.map valueText := by
  induction ls with
  | nil => exact absurd rfl some
  | cons l ls ih =>
    obtain ⟨first, others⟩ := List.forall_mem_cons.mp ok
    by_cases last : ls = []
    · have alone := groupValues_valueText first []
      rw [List.append_nil] at alone
      simp [last, alone, groupValues]
    · have more : ls.map valueText ≠ [] := by simpa using last
      rw [List.map_cons, List.intercalate_cons_of_ne_nil more, List.append_assoc,
        groupValues_valueText first, groupValues_or, ih last others]
      simp

end Cut

/-! ## Membership and equality in a document -/

namespace Indexed

variable {d : Indexed} {c : String} {l : Literal} {ls : List Literal}

theorem atom_eq (bare : IsBareName c) (v : List Char) :
    d.atom (c.toList ++ ':' :: v) = d.column c.toList v := by
  have name : ∀ a ∈ c.toList, decide (a ≠ ':') := fun a ha =>
    decide_eq_true fun colon => bare.isQuiet.2 (colon ▸ ha)
  have stop : ∀ a ∈ (':' :: v).head?, decide (a ≠ ':') = false := by simp
  rw [atom, takeWhile_append_stop name stop, dropWhile_append_stop name stop]
  rfl

theorem head_valueText (ok : l.WellFormed) (some : l ≠ .null) :
    ∀ a ∈ (valueText l).head?, a ∉ "*([".toList := by
  cases l with
  | text v => simp [valueText, phrase]
  | number spelling =>
    have chars : ∀ a ∈ spelling.toList, a ∉ "*([".toList := by
      refine IsNumber.forall_mem ok (fun a digit => ?_) (by simp)
      rintro mem
      obtain rfl | rfl | rfl : a = '*' ∨ a = '(' ∨ a = '[' := by simpa using mem
      all_goals cases digit
    exact fun a ha => chars a (List.mem_of_mem_head? ha)
  | flag b => cases b <;> simp [valueText]
  | null => exact absurd rfl some

theorem value_valueText (ok : l.WellFormed) (some : l ≠ .null) (c : List Char) :
    d.value c (valueText l) = d.finds c (valueText l) := by
  refine if_neg fun star => ?_
  exact absurd (head_valueText ok some '*' (by simp [star])) (by decide)

theorem column_valueText (ok : l.WellFormed) (c : List Char) :
    d.column c (valueText l) = if l = .null then d.filled c else d.finds c (valueText l) := by
  by_cases none : l = .null
  · rw [none]
    rfl
  · have heads := head_valueText ok none
    have single : valueText l ≠ "[* TO *]".toList := fun range =>
      absurd (heads '[' (by simp [range])) (by decide)
    rw [if_neg none, ← value_valueText ok none, column, if_neg single]
    rintro s group
    exact absurd (heads '(' (by simp [group])) (by decide)

theorem truth_equalTo (bare : IsBareName c) (ok : l.WellFormed) :
    truth d.atom (equalTo c l) =
      if l = .null then !d.filled c.toList else d.finds c.toList (valueText l) := by
  by_cases none : l = .null
  · have absent : truth d.atom (.isNull c false) =
        (true ^^ d.atom (c.toList ++ ':' :: "[* TO *]".toList)) := rfl
    rw [if_pos none, none, equalTo, absent, atom_eq bare, Bool.true_xor]
    rfl
  · have equal : equalTo c l = .compare c .eq l := by
      cases l with
      | null => exact absurd rfl none
      | _ => rfl
    have found : truth d.atom (.compare c .eq l) =
        (false ^^ d.atom (c.toList ++ ':' :: valueText l)) := rfl
    rw [equal, found, atom_eq bare, column_valueText ok, Bool.false_xor, if_neg none, if_neg none]

theorem truth_equalToAny (some : ls ≠ []) (bare : IsBareName c) (ok : ∀ l ∈ ls, l.WellFormed) :
    truth d.atom (equalToAny c ls) = ls.any fun l =>
      if l = .null then !d.filled c.toList else d.finds c.toList (valueText l) := by
  have each : truth d.atom (equalToAny c ls) = ls.any fun l => truth d.atom (equalTo c l) := by
    match ls, some with
    | [l], _ => simp [equalToAny, joinOf]
    | l :: l' :: ls, _ =>
      rw [equalToAny, List.map_cons, List.map_cons, joinOf, truth, truths_eq_map]
      · simp [Function.comp_def]
      · simp
  rw [each, Bool.eq_iff_iff, List.any_eq_true, List.any_eq_true]
  exact exists_congr fun l => and_congr_right fun hl => by rw [truth_equalTo bare (ok l hl)]

theorem truth_oneOf (some : ls ≠ []) (bare : IsBareName c) (ok : ∀ l ∈ ls, l.WellFormed) :
    truth d.atom (.oneOf c ls false) =
      found false .or (ls.map fun l => d.signed c.toList (valueText l)) := by
  have group : truth d.atom (.oneOf c ls false) = (false ^^ d.atom (c.toList ++ ':' ::
      '(' :: (Joint.or.text.intercalate (ls.map valueText) ++ [')']))) := rfl
  rw [group, atom_eq bare, Bool.false_xor, column, List.dropLast_concat, groupValues_joined some ok,
    List.map_map]
  rfl

/-! ## Main statement -/

theorem signed_valueText (plain : l.isPlain) (ok : l.WellFormed) (c : List Char) :
    d.signed c (valueText l) = (false, d.finds c (valueText l)) := by
  have some : l ≠ .null := by
    rintro rfl
    cases plain
  rw [← value_valueText ok some, signed]
  intro v minus
  cases l with
  | text v => simp [valueText, phrase] at minus
  | number spelling =>
    have head : spelling.toList.head? = Option.some '-' := congrArg List.head? minus
    simp [Literal.isPlain, head] at plain
  | flag b => cases b <;> cases minus
  | null => cases plain

/-- The document that has no value at all. -/
def empty : Indexed where
  finds _ _ := false
  filled _ := false
  filled_of_finds _ _ found := found

/-- The document that has one value in every column. -/
def only (v : List Char) : Indexed where
  finds _ w := w = v
  filled _ := true
  filled_of_finds _ _ _ := rfl

/-- A group finds nothing without a value that is wanted and there. -/
theorem found_or_eq_false {values : List (Bool × Bool)} (none : (false, true) ∉ values) :
    found false .or values = false := by
  simpa [found] using fun _ => none

/-- Without any value NULL is equal, and nothing is a member. -/
theorem null_not_mem (some : ls ≠ []) (bare : IsBareName c) (ok : ∀ l ∈ ls, l.WellFormed)
    (agrees : truth empty.atom (.oneOf c ls false) = truth empty.atom (equalToAny c ls)) :
    .null ∉ ls := by
  intro null
  have equal : truth empty.atom (equalToAny c ls) = true := by
    rw [truth_equalToAny some bare ok]
    exact List.any_eq_true.mpr ⟨.null, null, rfl⟩
  have signed : ∀ v, (empty.signed c.toList v).2 = false := by
    intro v
    unfold Indexed.signed
    split <;> simp [value, empty]
  have none : (false, true) ∉ ls.map fun l => empty.signed c.toList (valueText l) := by
    simp [Prod.ext_iff, signed]
  rw [equal, truth_oneOf some bare ok, found_or_eq_false none] at agrees
  cases agrees

/-- Where a negative number is the one value, only values without a minus are wanted. -/
theorem not_minus {spelling : String} (bare : IsBareName c) (ok : ∀ l ∈ ls, l.WellFormed)
    (null : .null ∉ ls) (mem : .number spelling ∈ ls)
    (agrees : truth (only spelling.toList).atom (.oneOf c ls false) =
      truth (only spelling.toList).atom (equalToAny c ls)) :
    spelling.toList.head? ≠ some '-' := by
  intro minus
  have some : ls ≠ [] := List.ne_nil_of_mem mem
  have equal : truth (only spelling.toList).atom (equalToAny c ls) = true := by
    rw [truth_equalToAny some bare ok]
    exact List.any_eq_true.mpr ⟨.number spelling, mem, decide_eq_true rfl⟩
  have none : (false, true) ∉
      ls.map fun l => (only spelling.toList).signed c.toList (valueText l) := by
    intro wanted
    obtain ⟨l, hl, signed⟩ := List.mem_map.mp wanted
    have given : l ≠ .null := fun h => null (h ▸ hl)
    unfold Indexed.signed at signed
    split at signed
    · cases signed
    · next v unsigned =>
      have found : (only spelling.toList).value c.toList (valueText l) = true :=
        congrArg Prod.snd signed
      rw [value_valueText (ok l hl) given] at found
      obtain ⟨w, hw⟩ := List.head?_eq_some_iff.mp minus
      exact unsigned w ((of_decide_eq_true found).trans hw)
  rw [equal, truth_oneOf some bare ok, found_or_eq_false none] at agrees
  cases agrees

theorem agrees_iff (some : ls ≠ []) (bare : IsBareName c) (ok : ∀ l ∈ ls, l.WellFormed) :
    (∀ d : Indexed, truth d.atom (.oneOf c ls false) = truth d.atom (equalToAny c ls)) ↔
      ∀ l ∈ ls, l.isPlain := by
  constructor
  · intro agrees l hl
    have null := null_not_mem some bare ok (agrees empty)
    cases l with
    | null => exact absurd hl null
    | number spelling =>
      exact decide_eq_true (not_minus bare ok null hl (agrees (only spelling.toList)))
    | _ => rfl
  · intro plain d
    have wanted : (ls.map fun l => d.signed c.toList (valueText l)) =
        ls.map fun l => (false, d.finds c.toList (valueText l)) :=
      List.map_congr_left fun l hl => signed_valueText (plain l hl) (ok l hl) _
    have given : ∀ l ∈ ls, l ≠ .null := by
      rintro _ hl rfl
      cases plain _ hl
    have one : found false .or (ls.map fun l => (false, d.finds c.toList (valueText l))) =
        ls.any fun l => d.finds c.toList (valueText l) := by
      simp [found, Function.comp_def]
    rw [truth_oneOf some bare ok, truth_equalToAny some bare ok, wanted, one, Bool.eq_iff_iff,
      List.any_eq_true, List.any_eq_true]
    exact exists_congr fun l => and_congr_right fun hl => by rw [if_neg (given l hl)]

end Indexed

theorem branching_equalToAny {c : String} {ls : List Literal} (some : ls ≠ []) :
    (equalToAny c ls).Branching := by
  have each : ∀ l, (equalTo c l).Branching := by
    intro l
    cases l <;> trivial
  match ls, some with
  | [l], _ => exact each l
  | l :: l' :: ls, _ =>
    have parts : ∀ p ∈ (l :: l' :: ls).map (equalTo c), p.Branching := by
      simp [each]
    exact ⟨by simp, formedAll_iff.mpr parts⟩

/-- Membership in a list finds the documents that one of the equalities finds, exactly if no member
is NULL or a negative number. -/
theorem membership_agrees {c : String} {ls : List Literal} (bare : IsBareName c) (some : ls ≠ [])
    (ok : ∀ l ∈ ls, l.WellFormed) :
    Query.ofText (whereText (inListText c ls)) = .ok ⟨filtered (.oneOf c ls false), "docs"⟩ ∧
      Query.ofText (whereText (equalitiesText c ls)) = .ok ⟨filtered (equalToAny c ls), "docs"⟩ ∧
      ∃ member equal,
        Reads (ofCondition (.oneOf c ls false)).toList (atoms (.oneOf c ls false)) member ∧
        Reads (ofCondition (equalToAny c ls)).toList (atoms (equalToAny c ls)) equal ∧
        ((∀ d : Indexed, member.holds d.atom = equal.holds d.atom) ↔ ∀ l ∈ ls, l.isPlain) := by
  have member : (Condition.oneOf c ls false).Branching := trivial
  have equal := branching_equalToAny (c := c) some
  obtain ⟨read, read'⟩ := ofText_inList bare some ok
  refine ⟨read, read', _, _, row_reads member, row_reads equal, ?_⟩
  simpa only [row_holds _ _ member, row_holds _ _ equal] using Indexed.agrees_iff some bare ok

/-- A text that holds a joint and both quotes, a number and a truth value. -/
def mixedMembers : List Literal :=
  [.text "it's \" OR \"", .number "1.5e3", .flag true]

theorem membership_mixedMembers :
    IsBareName "a.b" ∧ mixedMembers ≠ [] ∧ (∀ l ∈ mixedMembers, l.WellFormed) ∧
      Query.ofText "SELECT * FROM docs WHERE a.b IN ('it''s \" OR \"', 1.5e3, TRUE)" =
        .ok ⟨filtered (.oneOf "a.b" mixedMembers false), "docs"⟩ ∧
      ofCondition (.oneOf "a.b" mixedMembers false) =
        "a.b:(\"it's \\\" OR \\\"\" OR 1.5e3 OR true)" ∧
      ∃ member equal,
        Reads (ofCondition (.oneOf "a.b" mixedMembers false)).toList
          (atoms (.oneOf "a.b" mixedMembers false)) member ∧
        Reads (ofCondition (equalToAny "a.b" mixedMembers)).toList
          (atoms (equalToAny "a.b" mixedMembers)) equal ∧
        ∀ d : Indexed, member.holds d.atom = equal.holds d.atom := by
  have bare : IsBareName "a.b" := by decide
  have number : IsNumber "1.5e3".toList :=
    ⟨[], ['1'], ['.', '5'], ['e', '3'], .inl rfl, by simp [IsDigits],
      .inr ⟨['5'], by simp [IsDigits], rfl⟩,
      .inr ⟨'e', [], ['3'], .inl rfl, .inl rfl, by simp [IsDigits], rfl⟩, rfl⟩
  have ok : ∀ l ∈ mixedMembers, l.WellFormed := by
    simp only [mixedMembers, List.forall_mem_cons]
    exact ⟨trivial, number, trivial, by simp⟩
  have some : mixedMembers ≠ [] := by decide
  have text : whereText (inListText "a.b" mixedMembers) =
      "SELECT * FROM docs WHERE a.b IN ('it''s \" OR \"', 1.5e3, TRUE)" := by decide +kernel
  obtain ⟨read, -, member, equal, reads, reads', agrees⟩ := membership_agrees bare some ok
  exact ⟨bare, some, ok, text ▸ read, by decide +kernel, member, equal, reads, reads',
    agrees.mpr (by decide)⟩

/-- In a list a minus excludes, and NULL finds every value. -/
theorem membership_differs :
    Query.ofText "SELECT * FROM docs WHERE a IN (-1)" =
        .ok ⟨filtered (.oneOf "a" [.number "-1"] false), "docs"⟩ ∧
      ofCondition (.oneOf "a" [.number "-1"] false) = "a:(-1)" ∧
      ofCondition (equalToAny "a" [.number "-1"]) = "a:-1" ∧
      (∃ member equal d, Reads "a:(-1)".toList ["a:(-1)".toList] member ∧
        Reads "a:-1".toList ["a:-1".toList] equal ∧ member.holds (Indexed.atom d) = false ∧
        equal.holds d.atom = true) ∧
      Query.ofText "SELECT * FROM docs WHERE a IN (NULL)" =
        .ok ⟨filtered (.oneOf "a" [.null] false), "docs"⟩ ∧
      ofCondition (.oneOf "a" [.null] false) = "a:(*)" ∧
      ofCondition (equalToAny "a" [.null]) = "-a:[* TO *]" ∧
      ∃ member equal d, Reads "a:(*)".toList ["a:(*)".toList] member ∧
        Reads "-a:[* TO *]".toList ["a:[* TO *]".toList] equal ∧
        member.holds (Indexed.atom d) = false ∧ equal.holds d.atom = true := by
  have bare : IsBareName "a" := by decide
  have number : (Literal.number "-1").WellFormed :=
    ⟨['-'], ['1'], [], [], .inr rfl, by simp [IsDigits], .inl rfl, .inl rfl, rfl⟩
  have negative : Query.ofText (whereText (inListText "a" [.number "-1"])) =
      .ok ⟨filtered (.oneOf "a" [.number "-1"] false), "docs"⟩ :=
    (ofText_inList bare (by simp) (by simpa using number)).1
  have null : Query.ofText (whereText (inListText "a" [.null])) =
      .ok ⟨filtered (.oneOf "a" [.null] false), "docs"⟩ :=
    (ofText_inList bare (by simp) (by simp [Literal.WellFormed])).1
  have text : whereText (inListText "a" [.number "-1"]) =
      "SELECT * FROM docs WHERE a IN (-1)" := by decide +kernel
  have text' : whereText (inListText "a" [.null]) =
      "SELECT * FROM docs WHERE a IN (NULL)" := by decide +kernel
  exact ⟨text ▸ negative, by decide +kernel, by decide +kernel,
    ⟨row (.oneOf "a" [.number "-1"] false), row (.compare "a" .eq (.number "-1")),
      .only "-1".toList, ⟨[.atom _], by decide, rfl, rfl⟩, ⟨[.atom _], by decide, rfl, rfl⟩,
      by decide, by decide⟩,
    text' ▸ null, by decide +kernel, by decide +kernel,
    ⟨row (.oneOf "a" [.null] false), row (.isNull "a" false), .empty,
      ⟨[.atom _], by decide, rfl, rfl⟩, ⟨[.minus, .atom _], by decide, rfl, rfl⟩,
      by decide, by decide⟩⟩

end SearchSelect.Filter
