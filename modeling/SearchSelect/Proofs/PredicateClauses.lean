import SearchSelect.Proofs.Accepted
import SearchSelect.Proofs.FilterMeaning
import SearchSelect.Proofs.RoundTrip

/-! The clauses a search engine finds in the text of a predicate. Values are quoted and stay inside
the clause they are written for. Patterns are escaped, but for blanks other than the space, which
end the clause. Columns are written as they are, so a column that holds a character of the syntax is
read as something else. -/

namespace SearchSelect.Filter

open Sql Text

/-! ## Reading clauses -/

inductive Delimiter where
  | phrase
  | group
  | range
  deriving DecidableEq, Repr

/-- What a character means where nothing makes it stand for itself. -/
inductive Mark where
  | backslash
  | quote
  | opens (d : Delimiter)
  | closes (d : Delimiter)
  | colon
  | blank
  | plain
  deriving DecidableEq, Repr

def mark (c : Char) : Mark :=
  if c = '\x5c' then .backslash
  else if c = '\x22' then .quote
  else if c = '(' then .opens .group
  else if c = ')' then .closes .group
  else if c = '[' || c = '\x7b' then .opens .range
  else if c = ']' || c = '\x7d' then .closes .range
  else if c = ':' then .colon
  else if isBlank c then .blank
  else .plain

/-- A clause as it is found: the name in front of its colon, if there is one, and the rest. -/
structure Found where
  field : Option (List Char)
  value : List Char
  deriving DecidableEq, Repr

/-- The clauses that have ended, the clause being read, the delimiters open in it, innermost first,
and whether the next character stands for itself. -/
structure Scan where
  done : List Found
  field : Option (List Char)
  read : List Char
  inside : List Delimiter
  literal : Bool
  deriving DecidableEq, Repr

namespace Scan

def start : Scan := ⟨[], none, [], [], false⟩

def add (s : Scan) (w : List Char) : Scan :=
  { s with read := s.read ++ w, literal := false }

def within (s : Scan) (inside : List Delimiter) : Scan :=
  { s with inside }

def endField (s : Scan) : Option Scan :=
  match s.field with
  | none => some { s with field := some s.read, read := [] }
  | some _ => none

/-- Between clauses there is nothing to end. -/
def endClause (s : Scan) : Scan :=
  if s.field = none ∧ s.read = [] then s
  else { s with done := s.done ++ [⟨s.field, s.read⟩], field := none, read := [] }

/-- Only in the value of a field can anything be delimited. -/
def opening (s : Scan) (d : Delimiter) (c : Char) : Option Scan :=
  if s.field = none then none else some ((s.add [c]).within (d :: s.inside))

def closing (s : Scan) (d : Delimiter) (c : Char) : Option Scan :=
  if s.inside.head? = some d then some ((s.add [c]).within s.inside.tail) else none

def step (s : Scan) (c : Char) : Option Scan :=
  if s.literal then some (s.add [c])
  else if s.inside.head? = some .phrase then
    match mark c with
    | .backslash => some { s with literal := true }
    | .quote => s.closing .phrase c
    | _ => some (s.add [c])
  else
    match mark c with
    | .backslash => some { s with literal := true }
    | .quote => s.opening .phrase c
    | .opens d => s.opening d c
    | .closes d => s.closing d c
    | .colon => if s.inside = [] then s.endField else some (s.add [c])
    | .blank => if s.inside = [] then some s.endClause else some (s.add [c])
    | .plain => some (s.add [c])

def run : List Char → Scan → Option Scan
  | [], s => some s
  | c :: t, s => (s.step c).bind (run t)

end Scan

/-- The clauses of a text, unless something in it is left open or out of place. -/
def found? (text : List Char) : Option (List Found) :=
  match Scan.run text .start with
  | some s => if s.inside = [] ∧ s.literal = false then some s.endClause.done else none
  | none => none

/-- A clause without the minus that may stand in front of it. -/
def unsigned : List Char → List Char
  | '-' :: text => text
  | text => text

/-! ## Characters -/

theorem mark_eq_backslash {c : Char} : mark c = .backslash ↔ c = '\x5c' := by
  grind [mark]

theorem mark_eq_quote {c : Char} : mark c = .quote ↔ c = '\x22' := by
  grind [mark]

theorem mark_of_not_isSpecial {c : Char} (ordinary : isSpecial c = false) :
    mark c = if isBlank c then .blank else .plain := by
  simp only [isSpecial, specials, List.contains_eq_mem, List.mem_cons, List.not_mem_nil, or_false,
    decide_eq_false_iff_not, not_or] at ordinary
  simp [mark, ordinary]

theorem plain_of_all {t : List Char} (h : t.all fun c => mark c = .plain) :
    ∀ c ∈ t, mark c = .plain := by
  simpa using h

theorem mark_of_isDigit {c : Char} (h : c.isDigit) : mark c = .plain := by
  have digits : ∀ n : Fin 58, 48 ≤ n.val → mark (Char.ofNat n) = .plain := by decide
  have low : 48 ≤ c.toNat := (Char.isDigit_iff_toNat.mp h).1
  have high : c.toNat ≤ 57 := (Char.isDigit_iff_toNat.mp h).2
  have this := digits ⟨c.toNat, by omega⟩ low
  rwa [Char.ofNat_toNat] at this

theorem mark_of_isNumber {s : List Char} (h : IsNumber s) : ∀ c ∈ s, mark c = .plain :=
  h.forall_mem (fun _ digit => mark_of_isDigit digit) (plain_of_all (by decide))

/-! ## Texts within a clause -/

namespace Scan

variable {s s' : Scan} {c : Char} {t u v w : List Char} {named : Bool} {inside : List Delimiter}

theorem add_add (s : Scan) (u w : List Char) : (s.add u).add w = s.add (u ++ w) := by
  simp [add]

theorem run_append (a b : List Char) (s : Scan) : run (a ++ b) s = (run a s).bind (run b) := by
  induction a generalizing s with
  | nil => rfl
  | cons c t ih =>
    rw [List.cons_append, run, run]
    cases s.step c with
    | none => rfl
    | some u => exact ih u

theorem step_literal (h : s.literal = true) (c : Char) : s.step c = some (s.add [c]) :=
  if_pos h

theorem step_backslash (free : s.literal = false) :
    s.step '\x5c' = some { s with literal := true } := by
  have this : mark '\x5c' = .backslash := by decide
  simp [step, free, this]

theorem step_plain (free : s.literal = false) (h : mark c = .plain) :
    s.step c = some (s.add [c]) := by
  simp [step, free, h]

theorem step_phrase (free : s.literal = false) (open_ : s.inside.head? = some .phrase)
    (backslash : c ≠ '\x5c') (quote : c ≠ '\x22') : s.step c = some (s.add [c]) := by
  have h₁ := mt mark_eq_backslash.mp backslash
  have h₂ := mt mark_eq_quote.mp quote
  unfold step
  rw [if_neg (by simp [free]), if_pos open_]
  split <;> first | contradiction | rfl

/-- With these delimiters open, the text adds just `w` to what has been read. Some texts do so only
in the value of a field. -/
def Adds (named : Bool) (inside : List Delimiter) (t w : List Char) : Prop :=
  ∀ s : Scan, s.inside = inside → s.literal = false → (named → s.field ≠ none) →
    run t s = some (s.add w)

namespace Adds

theorem nil : Adds named inside [] [] := by
  intro s _ free _
  simp [run, add, ← free]

theorem append (ht : Adds named inside t w) (hu : Adds named inside u v) :
    Adds named inside (t ++ u) (w ++ v) := by
  intro s hi free field
  rw [run_append, ht s hi free field, Option.bind_some, hu (s.add w) hi rfl field, add_add]

theorem char (h : ∀ s : Scan, s.inside = inside → s.literal = false → (named → s.field ≠ none) →
    s.step c = some (s.add [c])) : Adds named inside [c] [c] := by
  intro s hi free field
  rw [run, h s hi free field]
  rfl

theorem each {f : Char → List Char} {g : Char → Char}
    (h : ∀ c ∈ t, Adds named inside (f c) [g c]) :
    Adds named inside (t.flatMap f) (t.map g) := by
  induction t with
  | nil => exact .nil
  | cons c t ih =>
    obtain ⟨hc, ht⟩ := List.forall_mem_cons.mp h
    rw [List.flatMap_cons, List.map_cons, ← List.singleton_append]
    exact hc.append (ih ht)

theorem escaped (c : Char) : Adds named inside ['\x5c', c] [c] := by
  intro s _ free _
  rw [run, step_backslash free, Option.bind_some, run, step_literal rfl]
  rfl

theorem plain (h : mark c = .plain) : Adds named inside [c] [c] :=
  .char fun _ _ free _ => step_plain free h

/-- What is delimited may be set off by blanks. -/
theorem unmarked (h : ∀ c ∈ t, mark c = .plain ∨ inside ≠ [] ∧ mark c = .blank) :
    Adds named inside t t := by
  have each : ∀ c ∈ t, Adds named inside [c] [c] := by
    intro c hc
    refine .char fun s hi free _ => ?_
    obtain plain | ⟨open_, blank⟩ := h c hc
    · exact step_plain free plain
    · simp [step, free, blank, hi, open_]
  simpa using Adds.each (g := id) each

theorem spaced (open_ : inside ≠ []) (h : t.all fun c => mark c = .plain || mark c = .blank) :
    Adds named inside t t :=
  .unmarked fun c hc => by simpa [open_] using List.all_eq_true.mp h c hc

theorem delimited {d : Delimiter} {a b : Char} (opens : ∀ s : Scan, s.inside = inside →
      s.literal = false → s.step a = s.opening d a)
    (closes : ∀ s : Scan, s.inside = d :: inside → s.literal = false → s.step b = s.closing d b)
    (h : Adds true (d :: inside) t w) : Adds true inside (a :: (t ++ [b])) (a :: (w ++ [b])) := by
  intro s hi free field
  have opened : s.step a = some ((s.add [a]).within (d :: inside)) := by
    rw [opens s hi free, opening, hi]
    exact if_neg (field rfl)
  have body := h ((s.add [a]).within (d :: inside)) rfl rfl field
  have closed : (((s.add [a]).within (d :: inside)).add w).step b =
      some (s.add (a :: (w ++ [b]))) := by
    rw [closes _ rfl rfl, closing]
    simp [within, add, hi]
  rw [run, opened, Option.bind_some, run_append, body, Option.bind_some, run, closed]
  rfl

theorem enclosed {d : Delimiter} {a b : Char} (ha : mark a = .opens d) (hb : mark b = .closes d)
    (other : d ≠ .phrase) (outer : inside.head? ≠ some .phrase)
    (h : Adds true (d :: inside) t w) : Adds true inside (a :: (t ++ [b])) (a :: (w ++ [b])) := by
  refine delimited (fun s hi free => ?_) (fun s hi free => ?_) h
  · simp [step, free, hi, outer, ha]
  · simp [step, free, hi, other, hb]

theorem phrase (outer : inside.head? ≠ some .phrase) (s : List Char) :
    Adds true inside (Filter.phrase s) ('\x22' :: (s ++ ['\x22'])) := by
  have quote : mark '\x22' = .quote := by decide
  refine delimited (d := .phrase) (fun s hi free => ?_) (fun s hi free => ?_) ?_
  · simp [step, free, hi, outer, quote]
  · simp [step, free, hi, quote]
  · unfold phraseBody
    rw [← List.map_id s, List.flatMap_map]
    refine each fun c _ => ?_
    dsimp only [id]
    split
    · exact .escaped c
    · next h =>
      obtain ⟨backslash, quote⟩ : c ≠ '\x5c' ∧ c ≠ '\x22' := by simpa using h
      exact .char fun s hi free _ => step_phrase free (by rw [hi]; rfl) backslash quote

theorem weaken (h : Adds false inside t w) : Adds named inside t w :=
  fun s hi free _ => h s hi free nofun

end Adds

/-! ## One step -/

/-- The clause that is being read goes on. -/
structure ReadsOn (s s' : Scan) : Prop where
  done : s'.done = s.done
  field : s'.field = s.field
  read : s.read <+: s'.read

theorem readsOn_literal (s : Scan) : ReadsOn s { s with literal := true } :=
  ⟨rfl, rfl, List.prefix_rfl⟩

theorem readsOn_of_add (h : some (s.add w) = some s') : ReadsOn s s' := by
  cases h
  exact ⟨rfl, rfl, List.prefix_append _ _⟩

theorem readsOn_of_opening {d : Delimiter} (h : s.opening d c = some s') : ReadsOn s s' := by
  unfold opening at h
  split at h
  · cases h
  · cases h
    exact ⟨rfl, rfl, List.prefix_append _ _⟩

theorem readsOn_of_closing {d : Delimiter} (h : s.closing d c = some s') : ReadsOn s s' := by
  unfold closing at h
  split at h
  · cases h
    exact ⟨rfl, rfl, List.prefix_append _ _⟩
  · cases h

/-- A step goes on with a clause, or ends it, or ends its field. -/
theorem step_cases (h : s.step c = some s') :
    ReadsOn s s' ∨ s' = s.endClause ∨ s.field = none ∧ s'.done = s.done ∧ s'.field ≠ none := by
  unfold step at h
  split at h
  · exact .inl (readsOn_of_add h)
  · split at h
    · split at h
      · cases h
        exact .inl (readsOn_literal s)
      · exact .inl (readsOn_of_closing h)
      · exact .inl (readsOn_of_add h)
    · split at h
      · cases h
        exact .inl (readsOn_literal s)
      · exact .inl (readsOn_of_opening h)
      · exact .inl (readsOn_of_opening h)
      · exact .inl (readsOn_of_closing h)
      · split at h
        · unfold endField at h
          split at h
          · next none =>
            cases h
            exact .inr (.inr ⟨none, rfl, nofun⟩)
          · cases h
        · exact .inl (readsOn_of_add h)
      · split at h
        · cases h
          exact .inr (.inl rfl)
        · exact .inl (readsOn_of_add h)
      · exact .inl (readsOn_of_add h)

/-! ## The first clause -/

variable {g : Option (List Char)} {f : Found}

/-- The first clause has begun, and what its field is will not change any more. -/
def Settled (g : Option (List Char)) (s : Scan) : Prop :=
  s.done.head?.map Found.field = some g ∨ s.done = [] ∧ s.field = g ∧ g ≠ none

theorem Settled.endClause (h : Settled g s) : Settled g s.endClause := by
  unfold Scan.endClause
  split
  · exact h
  · obtain first | ⟨none, field, -⟩ := h
    · refine .inl ?_
      obtain ⟨d, hd, rfl⟩ := Option.map_eq_some_iff.mp first
      simp [List.head?_append, hd]
    · refine .inl ?_
      simp [none, field]

theorem Settled.step (h : Settled g s) (step : s.step c = some s') : Settled g s' := by
  obtain on | rfl | ⟨none, done, -⟩ := step_cases step
  · rwa [Settled, on.done, on.field]
  · exact h.endClause
  · obtain first | ⟨-, field, some⟩ := h
    · exact .inl (done ▸ first)
    · exact absurd (field.symm.trans none) some

theorem Settled.run (h : Settled g s) (run : Scan.run t s = some s') : Settled g s' := by
  induction t generalizing s with
  | nil =>
    cases run
    exact h
  | cons c t ih =>
    obtain ⟨u, step, rest⟩ := Option.bind_eq_some_iff.mp run
    exact ih (h.step step) rest

theorem Settled.field_eq (h : Settled g s) (one : s.endClause.done = [f]) : f.field = g := by
  obtain first | ⟨none, -⟩ := h.endClause
  · simpa [one] using first
  · rw [one] at none
    cases none

/-! ## The number of clauses -/

theorem endClause_endClause (s : Scan) : s.endClause.endClause = s.endClause := by
  by_cases between : s.field = none ∧ s.read = [] <;> simp [endClause, between]

theorem length_done_endClause (s : Scan) :
    s.endClause.done.length = s.done.length + if s.field = none ∧ s.read = [] then 0 else 1 := by
  unfold endClause
  split
  · rfl
  · simp

/-- No clause is taken back. -/
theorem length_step_le (step : s.step c = some s') :
    s.endClause.done.length ≤ s'.endClause.done.length := by
  rw [length_done_endClause]
  obtain on | rfl | ⟨-, done, named⟩ := step_cases step
  · have still (nothing : s'.field = none ∧ s'.read = []) : s.field = none ∧ s.read = [] :=
      ⟨on.field ▸ nothing.1, List.prefix_nil.mp (nothing.2 ▸ on.read)⟩
    rw [length_done_endClause, on.done]
    by_cases between : s'.field = none ∧ s'.read = []
    · rw [if_pos between, if_pos (still between)]
    · rw [if_neg between]
      split <;> omega
  · rw [endClause_endClause, length_done_endClause]
  · have begun : ¬ (s'.field = none ∧ s'.read = []) := fun nothing => named nothing.1
    rw [length_done_endClause, done, if_neg begun]
    split <;> omega

theorem length_run_le (run : Scan.run t s = some s') :
    s.endClause.done.length ≤ s'.endClause.done.length := by
  induction t generalizing s with
  | nil =>
    cases run
    exact le_rfl
  | cons c t ih =>
    obtain ⟨u, step, rest⟩ := Option.bind_eq_some_iff.mp run
    exact (length_step_le step).trans (ih rest)

end Scan

/-! ## Values -/

section Values

open Scan

variable {inside : List Delimiter} {c : Char} {t v w : List Char}

/-- The text cannot stand in a name. -/
def Refused (v : List Char) : Prop :=
  ∀ s : Scan, s.inside = [] → s.literal = false → s.field = none → Scan.run v s = none

theorem refused_of_opening (h : mark c = .quote ∨ ∃ d, mark c = .opens d) : Refused (c :: t) := by
  intro s hi free unnamed
  have closed : s.step c = none := by
    obtain quote | ⟨d, opens⟩ := h
    · simp [Scan.step, free, hi, quote, opening, unnamed]
    · simp [Scan.step, free, hi, opens, opening, unnamed]
  rw [Scan.run, closed]
  rfl

/-- Behind the colon of a field the text is a value; behind a colon that stands for itself it is a
part of the name, or refused. -/
structure IsValue (v : List Char) : Prop where
  adds : ∃ w, (v ≠ [] → w ≠ []) ∧ Adds true [] v w
  unnamed : Refused v ∨ ∃ w, Adds false [] v w

theorem isValue_of_adds (some : v ≠ [] → w ≠ []) (h : Adds false [] v w) : IsValue v :=
  ⟨⟨w, some, h.weaken⟩, .inr ⟨w, h⟩⟩

theorem isValue_of_plain (h : ∀ c ∈ v, mark c = .plain) : IsValue v :=
  isValue_of_adds id (.unmarked fun c hc => .inl (h c hc))

theorem isValue_phrase (s : List Char) : IsValue (phrase s) where
  adds := ⟨_, fun _ => List.cons_ne_nil _ _, .phrase (by simp) s⟩
  unnamed := .inl (refused_of_opening (.inl (by decide)))

theorem isValue_enclosed {d : Delimiter} {a b : Char} (ha : mark a = .opens d)
    (hb : mark b = .closes d) (other : d ≠ .phrase) (h : Adds true [d] t w) :
    IsValue (a :: (t ++ [b])) where
  adds := ⟨_, fun _ => List.cons_ne_nil _ _, .enclosed ha hb other (by simp) h⟩
  unnamed := .inl (refused_of_opening (.inr ⟨d, ha⟩))

/-- A literal is written in plain characters or as a phrase. -/
theorem valueText_cases {l : Literal} (ok : l.WellFormed) :
    (∀ c ∈ valueText l, mark c = .plain) ∨ ∃ s, valueText l = phrase s := by
  cases l with
  | text s => exact .inr ⟨s.toList, rfl⟩
  | number spelling => exact .inl (mark_of_isNumber ok)
  | flag b => cases b <;> exact .inl (plain_of_all (by decide))
  | null => exact .inl (plain_of_all (by decide))

theorem isValue_literal {l : Literal} (ok : l.WellFormed) : IsValue (valueText l) := by
  obtain plain | ⟨s, quoted⟩ := valueText_cases ok
  · exact isValue_of_plain plain
  · rw [quoted]
    exact isValue_phrase s

theorem adds_literal {l : Literal} (ok : l.WellFormed) (outer : inside.head? ≠ some .phrase) :
    ∃ w, Adds true inside (valueText l) w := by
  obtain plain | ⟨s, quoted⟩ := valueText_cases ok
  · exact ⟨_, .unmarked fun c hc => .inl (plain c hc)⟩
  · rw [quoted]
    exact ⟨_, .phrase outer s⟩

theorem isValue_range {opening closing : Char} {low high : List Char}
    (ho : mark opening = .opens .range) (hc : mark closing = .closes .range)
    (hlow : ∃ w, Adds true [.range] low w) (hhigh : ∃ w, Adds true [.range] high w) :
    IsValue (opening :: (low ++ " TO ".toList ++ high ++ [closing])) := by
  obtain ⟨_, hlow⟩ := hlow
  obtain ⟨_, hhigh⟩ := hhigh
  have word : Adds true [.range] " TO ".toList " TO ".toList := .spaced (by simp) (by decide)
  exact isValue_enclosed ho hc (by decide) ((hlow.append word).append hhigh)

theorem isValue_grouped {values : List Literal} (ok : ∀ l ∈ values, l.WellFormed) :
    IsValue (grouped ((" OR ".toList).intercalate (values.map valueText))) := by
  have word : Adds true [.group] " OR ".toList " OR ".toList := .spaced (by simp) (by decide)
  have each : ∃ w, Adds true [.group] ((" OR ".toList).intercalate (values.map valueText)) w := by
    induction values with
    | nil => exact ⟨[], .nil⟩
    | cons l ls ih =>
      obtain ⟨hl, hls⟩ := List.forall_mem_cons.mp ok
      obtain ⟨_, first⟩ : ∃ w, Adds true [.group] (valueText l) w := adds_literal hl (by simp)
      by_cases last : ls.map valueText = []
      · exact ⟨_, by simpa [last] using first⟩
      · obtain ⟨_, rest⟩ := ih hls
        rw [List.map_cons, List.intercalate_cons_of_ne_nil last]
        exact ⟨_, (first.append word).append rest⟩
  obtain ⟨_, each⟩ := each
  exact isValue_enclosed (by decide) (by decide) (by decide) each

theorem wildcard_eq_nil {pattern : List Char} : wildcard pattern = [] ↔ pattern = [] := by
  cases pattern with
  | nil => simp [wildcard]
  | cons c pattern =>
    simp only [wildcard, List.flatMap_cons, List.append_eq_nil_iff, List.cons_ne_nil, iff_false]
    grind

end Values

/-! ## Fields -/

section Fields

open Scan

variable {n v w : List Char}

/-- Behind a plain name and its colon the value of a field is read. -/
theorem run_field (plain : ∀ c ∈ n, mark c = .plain) (v : List Char) :
    Scan.run (n ++ ':' :: v) .start = Scan.run v ⟨[], some n, [], [], false⟩ := by
  have adds : Adds false [] n n := .unmarked fun c hc => .inl (plain c hc)
  have name : Scan.run n .start = some (Scan.start.add n) := adds .start rfl rfl nofun
  have colon : (Scan.start.add n).step ':' = some ⟨[], some n, [], [], false⟩ := by
    have this : mark ':' = .colon := by decide
    simp [Scan.step, this, endField, start, add]
  rw [Scan.run_append, name, Option.bind_some, Scan.run, colon, Option.bind_some]

/-- A plain name and a value are read as they are. -/
theorem found?_plain (plain : ∀ c ∈ n, mark c = .plain) (value : Adds true [] v w) :
    found? (n ++ ':' :: v) = some [⟨some n, w⟩] := by
  have run : Scan.run v ⟨[], some n, [], [], false⟩ = some ⟨[], some n, w, [], false⟩ :=
    value _ rfl rfl (by simp)
  unfold found?
  rw [run_field plain, run]
  simp [endClause]

theorem run_of_found? {text : List Char} {fs : List Found} (h : found? text = some fs) :
    ∃ s, Scan.run text .start = some s ∧ s.endClause.done = fs := by
  unfold found? at h
  split at h
  · next s run =>
    split at h
    · exact ⟨s, run, Option.some.inj h⟩
    · cases h
  · cases h

/-- Behind a colon that stands for itself the text ends no field. -/
def Unfound (v : List Char) : Prop :=
  ∀ (f w read : List Char) (s : Scan), read ≠ [] →
    Scan.run v ⟨[], none, read, [], false⟩ = some s → s.endClause.done ≠ [⟨some f, w⟩]

theorem IsValue.unfound (value : IsValue v) : Unfound v := by
  intro f w read s some_ run one
  obtain refused | ⟨u, adds⟩ := value.unnamed
  · rw [refused _ rfl rfl rfl] at run
    cases run
  · rw [adds _ rfl rfl nofun] at run
    cases run
    simp [endClause, add, some_] at one

/-- What is found as the field is never longer than the name, since it ends at a colon, loses a
backslash, or begins behind a blank. It is as long only if the name is plain. -/
theorem field_of_run {name f read : List Char} {literal : Bool} {s : Scan} (unfound : Unfound v)
    (run : Scan.run (name ++ ':' :: v) ⟨[], none, read, [], literal⟩ = some s)
    (one : s.endClause.done = [⟨some f, w⟩]) :
    f.length ≤ read.length + name.length ∧
      (literal = false → f.length = read.length + name.length → ∀ c ∈ name, mark c = .plain) := by
  have settled {g : Option (List Char)} {t : List Char} {u : Scan} (first : Settled g u)
      (rest : Scan.run t u = some s) : some f = g := (first.run rest).field_eq one
  induction name generalizing read literal with
  | nil =>
    obtain ⟨u, step, rest⟩ := Option.bind_eq_some_iff.mp run
    cases literal with
    | true =>
      -- the colon behind the name stands for itself, so the name goes on into the value
      cases step
      exact absurd one (unfound _ _ _ _ (by simp) rest)
    | false =>
      cases step
      obtain rfl := Option.some.inj (settled (.inr ⟨rfl, rfl, nofun⟩) rest)
      simp
  | cons c name ih =>
    obtain ⟨u, step, rest⟩ := Option.bind_eq_some_iff.mp run
    cases literal with
    | true =>
      cases step
      have bound := (ih rest).1
      simp only [List.length_append, List.length_cons, List.length_nil] at bound ⊢
      exact ⟨by omega, nofun⟩
    | false =>
      cases m : mark c with
      | plain =>
        rw [step_plain rfl m] at step
        cases step
        obtain ⟨bound, tight⟩ := ih rest
        have tight := tight rfl
        simp only [List.length_append, List.length_cons, List.length_nil] at bound tight ⊢
        exact ⟨by omega, fun _ same => List.forall_mem_cons.mpr ⟨m, tight (by omega)⟩⟩
      | backslash =>
        obtain rfl := mark_eq_backslash.mp m
        rw [step_backslash rfl] at step
        cases step
        have bound := (ih rest).1
        simp only [List.length_cons] at bound ⊢
        exact ⟨by omega, fun _ same => absurd same (by omega)⟩
      | quote | opens | closes =>
        simp [Scan.step, m, opening, closing] at step
      | colon =>
        have ends : Scan.step ⟨[], none, read, [], false⟩ c =
            some ⟨[], some read, [], [], false⟩ := by
          simp [Scan.step, m, endField]
        cases ends.symm.trans step
        obtain rfl := Option.some.inj (settled (.inr ⟨rfl, rfl, nofun⟩) rest)
        simp only [List.length_cons]
        exact ⟨by omega, fun _ same => absurd same (by omega)⟩
      | blank =>
        have ends : Scan.step ⟨[], none, read, [], false⟩ c =
            some (endClause ⟨[], none, read, [], false⟩) := by
          simp [Scan.step, m]
        cases ends.symm.trans step
        -- behind nothing the blank is skipped; behind a word it ends a clause without a field
        cases read with
        | nil =>
          have bound := (ih rest).1
          simp only [List.length_cons] at bound ⊢
          exact ⟨by omega, fun _ same => absurd same (by omega)⟩
        | cons d read =>
          have unnamed : Settled none (endClause ⟨[], none, d :: read, [], false⟩) := by
            simp [Settled, endClause]
          cases settled unnamed rest

theorem length_of_found? {name f : List Char} (unfound : Unfound v)
    (h : found? (name ++ ':' :: v) = some [⟨some f, w⟩]) :
    f.length ≤ name.length ∧ (f.length = name.length → ∀ c ∈ name, mark c = .plain) := by
  obtain ⟨s, run, one⟩ := run_of_found? h
  simpa using field_of_run unfound run one

end Fields

/-! ## Operands -/

/-- A text that ends no field behind a colon that stands for itself, and that is read as the one
value of any plain name exactly if it is whole. -/
structure IsOperand (v : List Char) (whole : Prop) : Prop where
  unfound : Unfound v
  reads : ∀ n, (∀ c ∈ n, mark c = .plain) →
    ((∃ w, w ≠ [] ∧ found? (n ++ ':' :: v) = some [⟨some n, w⟩]) ↔ whole)

theorem IsValue.isOperand {v : List Char} {whole : Prop} (value : IsValue v) (same : v ≠ [] ↔ whole) :
    IsOperand v whole where
  unfound := value.unfound
  reads n plain := by
    rw [← same]
    constructor
    · rintro ⟨w, some, found⟩ rfl
      have nothing := (found?_plain plain .nil).symm.trans found
      simp [some.symm] at nothing
    · intro some
      obtain ⟨w, filled, adds⟩ := value.adds
      exact ⟨w, filled some, found?_plain plain adds⟩

/-- A blank that no backslash is put in front of. -/
def isBreak (c : Char) : Bool :=
  isBlank c && c != ' '

/-- There is something in front of the first break, and nothing but breaks behind it. -/
def Unbroken (pattern : List Char) : Prop :=
  ∃ core breaks, pattern = core ++ breaks ∧ core ≠ [] ∧ (∀ c ∈ core, isBreak c = false) ∧
    ∀ c ∈ breaks, isBreak c

section Patterns

open Scan

variable {core more t w : List Char} {c : Char}

theorem isSpecial_of_isBreak (h : isBreak c) : isSpecial c = false := by
  have kinds : specials.all fun d => !isBreak d := by decide
  refine Bool.eq_false_iff.mpr fun special => ?_
  have unbroken := List.all_eq_true.mp kinds c (by simpa [isSpecial] using special)
  simp [h] at unbroken

theorem mark_of_isBreak (h : isBreak c) : mark c = .blank := by
  have blank : isBlank c := (Bool.and_eq_true_iff.mp h).1
  rw [mark_of_not_isSpecial (isSpecial_of_isBreak h), if_pos blank]

theorem wildcard_append (a b : List Char) : wildcard (a ++ b) = wildcard a ++ wildcard b :=
  List.flatMap_append

theorem wildcard_of_isBreak (h : ∀ c ∈ t, isBreak c) : wildcard t = t := by
  have alone (c : Char) (hc : c ∈ t) : (if c = '%' then ['*'] else if c = '_' then ['?']
      else if isSpecial c then ['\x5c', c] else [c]) = [c] := by
    have percent : c ≠ '%' := fun same => absurd (same ▸ h c hc) (by decide)
    have underscore : c ≠ '_' := fun same => absurd (same ▸ h c hc) (by decide)
    simp [percent, underscore, isSpecial_of_isBreak (h c hc)]
  rw [wildcard, List.flatMap_def, List.map_congr_left alone, ← List.flatMap_def,
    List.flatMap_singleton']

/-- Without a break a pattern is a run of plain and escaped characters. -/
theorem adds_wildcard (solid : ∀ c ∈ core, isBreak c = false) :
    ∃ w, (w = [] ↔ core = []) ∧ Adds false [] (wildcard core) w := by
  refine ⟨core.map fun c => if c = '%' then '*' else if c = '_' then '?' else c, by simp,
    .each fun c hc => ?_⟩
  split
  · exact .plain (by decide)
  · split
    · exact .plain (by decide)
    · split
      · exact .escaped c
      · next ordinary =>
        have visible : isBlank c = false := by
          refine Bool.eq_false_iff.mpr fun blank => ?_
          have space : c = ' ' := by simpa [isBreak, blank] using solid c hc
          exact ordinary (space ▸ by decide)
        have mark := mark_of_not_isSpecial (by simpa using ordinary)
        rw [visible] at mark
        exact .plain mark

/-- Between clauses breaks are skipped. -/
theorem run_breaks {done : List Found} (breaks : ∀ c ∈ t, isBreak c) :
    Scan.run t ⟨done, none, [], [], false⟩ = some ⟨done, none, [], [], false⟩ := by
  induction t with
  | nil => rfl
  | cons c t ih =>
    obtain ⟨first, rest⟩ := List.forall_mem_cons.mp breaks
    have skipped : Scan.step ⟨done, none, [], [], false⟩ c = some ⟨done, none, [], [], false⟩ := by
      simp [Scan.step, mark_of_isBreak first, endClause]
    rw [Scan.run, skipped]
    exact ih rest

/-- What is no break begins another clause. -/
theorem all_breaks_of_run {f : Found} {s : Scan}
    (run : Scan.run (wildcard more) ⟨[f], none, [], [], false⟩ = some s)
    (one : s.endClause.done.length = 1) : ∀ c ∈ more, isBreak c := by
  cases found : more.find? fun c => !isBreak c with
  | none => simpa using List.find?_eq_none.mp found
  | some c =>
    obtain ⟨visible, breaks, rest, rfl, skipped⟩ := List.find?_eq_some_iff_append.mp found
    have skipped : ∀ d ∈ breaks, isBreak d := by simpa using skipped
    have solid : ∀ d ∈ [c], isBreak d = false := by simpa using visible
    obtain ⟨w, filled, adds⟩ := adds_wildcard solid
    rw [wildcard_append, wildcard_of_isBreak skipped, Scan.run_append, run_breaks skipped,
      Option.bind_some, ← List.singleton_append, wildcard_append, Scan.run_append,
      adds _ rfl rfl nofun, Option.bind_some] at run
    have fewer := length_run_le run
    rw [one, length_done_endClause] at fewer
    simp [add, filled] at fewer

theorem unbroken_append (solid : ∀ d ∈ core, isBreak d = false) (broken : isBreak c) :
    Unbroken (core ++ c :: more) ↔ core ≠ [] ∧ ∀ d ∈ more, isBreak d := by
  constructor
  · rintro ⟨core', breaks, same, some, solid', all⟩
    obtain ⟨a, rfl, behind⟩ | ⟨a, rfl, rfl⟩ := List.append_eq_append_iff.mp same
    · cases a with
      | nil =>
        subst behind
        exact ⟨by simpa using some, (List.forall_mem_cons.mp all).2⟩
      | cons d a =>
        obtain ⟨rfl, -⟩ := List.cons.inj behind
        rw [solid' c (by simp)] at broken
        cases broken
    · exact ⟨List.append_ne_nil_of_left_ne_nil some _, fun d hd => all d (by simp [hd])⟩
  · rintro ⟨some, all⟩
    exact ⟨core, c :: more, rfl, some, solid, List.forall_mem_cons.mpr ⟨broken, all⟩⟩

/-- The first break ends the clause. -/
theorem run_broken (adds : Adds false [] (wildcard core) w) (broken : isBreak c) {s : Scan}
    (outer : s.inside = []) (free : s.literal = false) :
    Scan.run (wildcard (core ++ c :: more)) s = Scan.run (wildcard more) (s.add w).endClause := by
  have alone : wildcard [c] = [c] := wildcard_of_isBreak (by simpa using broken)
  have ends : (s.add w).step c = some (s.add w).endClause := by
    simp [Scan.step, mark_of_isBreak broken, add, outer]
  rw [wildcard_append, ← List.singleton_append, wildcard_append, alone, Scan.run_append,
    adds s outer free nofun, Option.bind_some, List.singleton_append, Scan.run, ends]
  rfl

theorem isOperand_solid (solid : ∀ c ∈ core, isBreak c = false) :
    IsOperand (wildcard core) (Unbroken core) := by
  obtain ⟨w, filled, adds⟩ := adds_wildcard solid
  have value : IsValue (wildcard core) :=
    isValue_of_adds (by rw [ne_eq, ne_eq, filled, wildcard_eq_nil]; exact id) adds
  refine value.isOperand ?_
  rw [ne_eq, wildcard_eq_nil]
  constructor
  · intro some
    exact ⟨core, [], (List.append_nil core).symm, some, solid, by simp⟩
  · rintro ⟨front, _, rfl, some, -⟩
    exact List.append_ne_nil_of_left_ne_nil some _

theorem isOperand_broken (solid : ∀ d ∈ core, isBreak d = false) (broken : isBreak c) :
    IsOperand (wildcard (core ++ c :: more)) (Unbroken (core ++ c :: more)) := by
  obtain ⟨w, filled, adds⟩ := adds_wildcard solid
  refine ⟨fun f v read s some run one => ?_, fun n plain => ?_⟩
  · rw [run_broken adds broken rfl rfl] at run
    have unnamed : Settled none (endClause (add ⟨[], none, read, [], false⟩ w)) := by
      simp [Settled, endClause, add, some]
    cases (unnamed.run run).field_eq one
  · have first : endClause (add ⟨[], Option.some n, [], [], false⟩ w) =
        ⟨[⟨Option.some n, w⟩], none, [], [], false⟩ := by
      simp [endClause, add]
    have behind : Scan.run (n ++ ':' :: wildcard (core ++ c :: more)) .start =
        Scan.run (wildcard more) ⟨[⟨Option.some n, w⟩], none, [], [], false⟩ := by
      rw [run_field plain, run_broken adds broken rfl rfl, first]
    rw [unbroken_append solid broken]
    constructor
    · rintro ⟨v, some, found⟩
      obtain ⟨s, run, one⟩ := run_of_found? found
      rw [behind] at run
      have all := all_breaks_of_run run (by rw [one]; rfl)
      rw [wildcard_of_isBreak all, run_breaks all] at run
      cases run
      obtain rfl : w = v := by simpa [endClause] using one
      exact ⟨mt filled.mpr some, all⟩
    · rintro ⟨some, all⟩
      refine ⟨w, mt filled.mp some, ?_⟩
      unfold found?
      rw [behind, wildcard_of_isBreak all, run_breaks all]
      rfl

/-- A pattern is read as one value exactly if it is not broken. -/
theorem isOperand_wildcard (pattern : List Char) :
    IsOperand (wildcard pattern) (Unbroken pattern) := by
  cases found : pattern.find? isBreak with
  | none => exact isOperand_solid (by simpa using List.find?_eq_none.mp found)
  | some c =>
    obtain ⟨broken, core, more, rfl, solid⟩ := List.find?_eq_some_iff_append.mp found
    exact isOperand_broken (by simpa using solid) broken

end Patterns

end SearchSelect.Filter

/-! ## Predicates -/

namespace SearchSelect.Sql.Condition

mutual

/-- The predicates of a condition, left to right. -/
def predicates : Condition → List Condition
  | all parts => predicatesAll parts
  | any parts => predicatesAll parts
  | not part => predicates part
  | c => [c]

def predicatesAll : List Condition → List Condition
  | [] => []
  | p :: ps => predicates p ++ predicatesAll ps

end

mutual

theorem formed_predicates {ok : Condition → Prop} : (c : Condition) → c.Formed ok →
    ∀ p ∈ c.predicates, p.isPredicate ∧ ok p
  | all ps, h => formed_predicatesAll ps h.2
  | any ps, h => formed_predicatesAll ps h.2
  | not c, h => formed_predicates c h
  | compare .., h => List.forall_mem_singleton.mpr ⟨rfl, h⟩
  | oneOf .., h => List.forall_mem_singleton.mpr ⟨rfl, h⟩
  | isNull .., h => List.forall_mem_singleton.mpr ⟨rfl, h⟩
  | like .., h => List.forall_mem_singleton.mpr ⟨rfl, h⟩
  | between .., h => List.forall_mem_singleton.mpr ⟨rfl, h⟩

theorem formed_predicatesAll {ok : Condition → Prop} : (ps : List Condition) →
    FormedAll ok ps → ∀ p ∈ predicatesAll ps, p.isPredicate ∧ ok p
  | [], _ => by simp [predicatesAll]
  | p :: ps, h => List.forall_mem_append.mpr
      ⟨formed_predicates p h.1, formed_predicatesAll ps h.2⟩

end

def pattern? : Condition → Option String
  | like _ pattern _ => some pattern
  | _ => none

end SearchSelect.Sql.Condition

namespace SearchSelect.Filter

open Sql Text

theorem valueText_ne_nil {l : Literal} (ok : l.WellFormed) : valueText l ≠ [] := by
  cases l with
  | text s => exact List.cons_ne_nil _ _
  | number spelling =>
    obtain ⟨sign, whole, places, power, -, digits, -, -, h⟩ := ok
    simp [valueText, h, digits.1]
  | flag b => cases b <;> decide
  | null => decide

/-- A predicate is written as its column, a colon and a value, which only a broken pattern is not. -/
theorem atomOf_eq {p : Condition} (h : p.isPredicate) (ok : p.Spelled) :
    ∃ column v, p.mentioned = [column] ∧
      IsOperand v (∀ pattern ∈ p.pattern?, Unbroken pattern.toList) ∧
      atomOf p = column.toList ++ ':' :: v := by
  have star : ∃ w, Scan.Adds true [.range] ['*'] w := ⟨_, .plain (by decide)⟩
  have whole {v : List Char} (value : IsValue v) (some : v ≠ []) (none : p.pattern? = none) :
      IsOperand v (∀ pattern ∈ p.pattern?, Unbroken pattern.toList) :=
    value.isOperand (iff_of_true some (by simp [none]))
  cases p with
  | all | any | not => simp [Condition.isPredicate] at h
  | compare column op value =>
    obtain ⟨-, formed, -⟩ := ok
    have bound : ∃ w, Scan.Adds true [.range] (valueText value) w := adds_literal formed (by simp)
    refine ⟨column, ?_⟩
    cases op with
    | eq | ne =>
      exact ⟨_, rfl, whole (isValue_literal formed) (valueText_ne_nil formed) rfl, rfl⟩
    | gt | ge =>
      exact ⟨_, rfl,
        whole (isValue_range (by decide) (by decide) bound star) (List.cons_ne_nil _ _) rfl, rfl⟩
    | lt | le =>
      exact ⟨_, rfl,
        whole (isValue_range (by decide) (by decide) star bound) (List.cons_ne_nil _ _) rfl, rfl⟩
  | oneOf column values negated =>
    exact ⟨column, _, rfl, whole (isValue_grouped ok.2.2) (List.cons_ne_nil _ _) rfl, rfl⟩
  | isNull column negated =>
    exact ⟨column, _, rfl,
      whole (isValue_range (by decide) (by decide) star star) (List.cons_ne_nil _ _) rfl, rfl⟩
  | like column pattern negated =>
    refine ⟨column, _, rfl, ?_, rfl⟩
    simpa [Condition.pattern?] using isOperand_wildcard pattern.toList
  | between column low high negated =>
    have bound {l : Literal} (formed : l.WellFormed) :
        ∃ w, Scan.Adds true [.range] (valueText l) w := adds_literal formed (by simp)
    refine ⟨column, _, rfl, whole ?_ (List.cons_ne_nil _ _) rfl, rfl⟩
    exact isValue_range (by decide) (by decide) (bound ok.2.1) (bound ok.2.2)

theorem unsigned_of_head? {t : List Char} (h : t.head? ≠ some '-') : unsigned t = t := by
  unfold unsigned
  split
  · exact absurd rfl h
  · rfl

/-- A predicate that is not denied loses a minus that its column begins with. -/
theorem found?_predicate {p : Condition} {column : String} {v : List Char} {whole : Prop}
    (h : p.isPredicate) (operand : IsOperand v whole) (atom : atomOf p = column.toList ++ ':' :: v) :
    (∃ w, w ≠ [] ∧ found? (unsigned (clause p).text) = some [⟨some column.toList, w⟩]) ↔
      (∀ c ∈ column.toList, mark c = .plain) ∧ whole ∧
        ((clause p).negative = false → column.toList.head? ≠ some '-') := by
  have read : (∃ w, w ≠ [] ∧ found? (atomOf p) = some [⟨some column.toList, w⟩]) ↔
      (∀ c ∈ column.toList, mark c = .plain) ∧ whole := by
    rw [atom]
    constructor
    · rintro ⟨w, some, found⟩
      have plain := (length_of_found? operand.unfound found).2 rfl
      exact ⟨plain, (operand.reads _ plain).mp ⟨w, some, found⟩⟩
    · rintro ⟨plain, ok⟩
      exact (operand.reads _ plain).mpr ok
  rw [clause_predicate h]
  cases denied : denies p with
  | true => simpa [Clause.negativeIf, unsigned] using read
  | false =>
    simp only [Clause.negativeIf, Bool.false_eq_true, if_false, forall_const]
    by_cases minus : column.toList.head? = some '-'
    · obtain ⟨rest, hc⟩ : ∃ rest, column.toList = '-' :: rest := List.head?_eq_some_iff.mp minus
      simp only [minus, ne_eq, not_true_eq_false, and_false, iff_false, not_exists, not_and]
      rintro w - found
      rw [atom, hc, List.cons_append, unsigned] at found
      have bound := (length_of_found? operand.unfound found).1
      simp only [List.length_cons] at bound
      omega
    · have same : unsigned (atomOf p) = atomOf p := by
        refine unsigned_of_head? ?_
        cases hc : column.toList with
        | nil => simp [atom, hc]
        | cons c cs => simpa [atom, hc] using minus
      simpa [same, minus] using read

/-- Every predicate of an accepted statement is read as one clause on its column exactly if no
character of the column means anything to the engine and its pattern, if it has one, is neither
empty nor broken by a blank that is no space. -/
theorem found?_of_ofText? {text : String} {s : Select} {c p : Condition} {column : String}
    (accepted : Select.ofText? text = .ok s) (filtered : s.condition = some c)
    (mem : p ∈ c.predicates) (mentions : column ∈ p.mentioned) :
    (∃ w, w ≠ [] ∧ found? (unsigned (clause p).text) = some [⟨some column.toList, w⟩]) ↔
      (∀ c ∈ column.toList, mark c = .plain) ∧
        (∀ pattern ∈ p.pattern?, Unbroken pattern.toList) ∧
        ((clause p).negative = false → column.toList.head? ≠ some '-') := by
  have formed := (wellFormed_of_ofText? accepted).condition c filtered
  obtain ⟨predicate, ok⟩ := Condition.formed_predicates c formed p mem
  obtain ⟨column', v, only, operand, atom⟩ := atomOf_eq predicate ok
  obtain rfl : column = column' := by simpa [only] using mentions
  exact found?_predicate predicate operand atom

/-! ### Blanks in a column and in a pattern -/

def filtered (c : Condition) : Select :=
  ⟨.everything, some "docs", some c, [], none, none⟩

theorem ofText?_filtered {c : Condition} {text : String} (ok : c.WellFormed)
    (plain : text = String.ofList (plainText (filtered c).tokens)) :
    Select.ofText? text = .ok (filtered c) := by
  refine ofText?_plainText ⟨trivial, ?_, by simp [filtered]⟩ plain
  simpa [filtered] using ok

def quotedCondition : Condition :=
  .compare "a" .ne (.text "x\" OR b:\"y")

theorem found?_quotedCondition :
    Select.ofText? " select * from 'docs' where `a` <> 'x\" OR b:\"y'" =
        .ok (filtered quotedCondition) ∧
      quotedCondition ∈ quotedCondition.predicates ∧ "a" ∈ quotedCondition.mentioned ∧
      ∃ w, w ≠ [] ∧ found? (unsigned (clause quotedCondition).text) = some [⟨some ['a'], w⟩] := by
  have accepted : Select.ofText? " select * from 'docs' where `a` <> 'x\" OR b:\"y'" =
      .ok (filtered quotedCondition) := by
    refine ofText?_filtered ?_ (by decide +kernel)
    simp [quotedCondition, Condition.WellFormed, Condition.Formed, Condition.Spelled, IsName,
      backtick, Literal.WellFormed]
  have mem : quotedCondition ∈ quotedCondition.predicates := by
    simp [quotedCondition, Condition.predicates]
  have mentions : "a" ∈ quotedCondition.mentioned := by
    simp [quotedCondition, Condition.mentioned]
  have pattern : ∀ pattern ∈ quotedCondition.pattern?, Unbroken pattern.toList := by rintro _ ⟨⟩
  have negative : (clause quotedCondition).negative = true := rfl
  refine ⟨accepted, mem, mentions, ?_⟩
  exact (found?_of_ofText? accepted rfl mem mentions).mpr
    ⟨plain_of_all (by decide), pattern, by simp [negative]⟩

/-- A blank in the column ends the clause before its colon, an empty pattern leaves nothing to look
for, and what stands behind a tab in a pattern is a clause without a field. -/
theorem found?_splits :
    Select.ofText? " select * from 'docs' where `a b` = 'x'" =
        .ok (filtered (.compare "a b" .eq (.text "x"))) ∧
      found? (unsigned (clause (.compare "a b" .eq (.text "x"))).text) =
        some [⟨none, ['a']⟩, ⟨some ['b'], phrase ['x']⟩] ∧
      Select.ofText? " select * from 'docs' where `a` like ''" =
        .ok (filtered (.like "a" "" false)) ∧
      found? (unsigned (clause (.like "a" "" false)).text) = some [⟨some ['a'], []⟩] ∧
      Select.ofText? " select * from 'docs' where `a` like 'x\ty'" =
        .ok (filtered (.like "a" "x\ty" false)) ∧
      found? (unsigned (clause (.like "a" "x\ty" false)).text) =
        some [⟨some ['a'], ['x']⟩, ⟨none, ['y']⟩] := by
  have blank : (Condition.compare "a b" .eq (.text "x")).WellFormed := by
    simp [Condition.WellFormed, Condition.Formed, Condition.Spelled, IsName, backtick,
      Literal.WellFormed]
  have like (pattern : String) : (Condition.like "a" pattern false).WellFormed := by
    simp [Condition.WellFormed, Condition.Formed, Condition.Spelled, IsName, backtick]
  exact ⟨ofText?_filtered blank (by decide +kernel), by decide +kernel,
    ofText?_filtered (like "") (by decide +kernel), by decide +kernel,
    ofText?_filtered (like "x\ty") (by decide +kernel), by decide +kernel⟩

end SearchSelect.Filter
