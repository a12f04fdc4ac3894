import SearchSelect.Sql.Lexeme

/-! Well-formed conditions and statements: what a statement read from a text can be, said without
the reader. -/

namespace SearchSelect.Sql

open Text

def IsDigits (ds : List Char) : Prop :=
  ds ≠ [] ∧ ∀ d ∈ ds, d.isDigit

/-- A fraction, or nothing. -/
def IsFraction (s : List Char) : Prop :=
  s = [] ∨ ∃ ds, IsDigits ds ∧ s = '.' :: ds

/-- An exponent, or nothing. -/
def IsExponent (s : List Char) : Prop :=
  s = [] ∨ ∃ e sign ds, (e = 'e' ∨ e = 'E') ∧ (sign = [] ∨ sign = ['+'] ∨ sign = ['-']) ∧
    IsDigits ds ∧ s = e :: (sign ++ ds)

/-- An optional minus, digits, an optional fraction and an optional exponent. -/
def IsNumber (s : List Char) : Prop :=
  ∃ sign whole places power, (sign = [] ∨ sign = ['-']) ∧ IsDigits whole ∧ IsFraction places ∧
    IsExponent power ∧ s = sign ++ whole ++ places ++ power

/-- Of what a number is written with. -/
theorem IsNumber.forall_mem {p : Char → Prop} {s : List Char} (h : IsNumber s)
    (digit : ∀ c, c.isDigit → p c) (other : ∀ c ∈ "-+.eE".toList, p c) : ∀ c ∈ s, p c := by
  have digits {ds : List Char} (h : IsDigits ds) : ∀ c ∈ ds, p c := fun c hc => digit c (h.2 c hc)
  obtain ⟨sign, whole, places, power, hsign, hwhole, hplaces, hpower, rfl⟩ := h
  have signs : ∀ c ∈ sign, p c := by
    obtain rfl | rfl := hsign
    · simp
    · simpa using other '-' (by decide)
  have fractions : ∀ c ∈ places, p c := by
    obtain rfl | ⟨ds, hds, rfl⟩ := hplaces
    · simp
    · exact List.forall_mem_cons.mpr ⟨other '.' (by decide), digits hds⟩
  have exponents : ∀ c ∈ power, p c := by
    obtain rfl | ⟨e, plus, ds, he, hplus, hds, rfl⟩ := hpower
    · simp
    · have mark : p e := by obtain rfl | rfl := he <;> exact other _ (by decide)
      have sign : ∀ c ∈ plus, p c := by
        obtain rfl | rfl | rfl := hplus
        · simp
        · simpa using other '+' (by decide)
        · simpa using other '-' (by decide)
      exact List.forall_mem_cons.mpr ⟨mark, List.forall_mem_append.mpr ⟨sign, digits hds⟩⟩
  exact List.forall_mem_append.mpr ⟨List.forall_mem_append.mpr
    ⟨List.forall_mem_append.mpr ⟨signs, digits hwhole⟩, fractions⟩, exponents⟩

def IsName (s : String) : Prop :=
  s ≠ "" ∧ backtick ∉ s.toList

instance : DecidablePred IsName := fun s =>
  inferInstanceAs (Decidable (s ≠ "" ∧ backtick ∉ s.toList))

def Literal.WellFormed : Literal → Prop
  | number spelling => IsNumber spelling.toList
  | _ => True

namespace Condition

def isPredicate : Condition → Bool
  | all _ => false
  | any _ => false
  | not _ => false
  | _ => true

mutual

/-- Every join has at least two parts, and every predicate satisfies `ok`. -/
def Formed (ok : Condition → Prop) : Condition → Prop
  | all parts => 2 ≤ parts.length ∧ FormedAll ok parts
  | any parts => 2 ≤ parts.length ∧ FormedAll ok parts
  | not part => Formed ok part
  | c => ok c

def FormedAll (ok : Condition → Prop) : List Condition → Prop
  | [] => True
  | p :: ps => Formed ok p ∧ FormedAll ok ps

end

/-- The joins have at least two parts; the predicates are whatever they are. -/
abbrev Branching : Condition → Prop :=
  Formed fun _ => True

mutual

theorem Formed.branching {ok : Condition → Prop} : (c : Condition) → c.Formed ok → c.Branching
  | all parts, h => ⟨h.1, FormedAll.branching parts h.2⟩
  | any parts, h => ⟨h.1, FormedAll.branching parts h.2⟩
  | not part, h => Formed.branching part h
  | compare .., _ => trivial
  | oneOf .., _ => trivial
  | isNull .., _ => trivial
  | like .., _ => trivial
  | between .., _ => trivial

theorem FormedAll.branching {ok : Condition → Prop} : (ps : List Condition) → FormedAll ok ps →
    FormedAll (fun _ => True) ps
  | [], _ => trivial
  | p :: ps, h => ⟨Formed.branching p h.1, FormedAll.branching ps h.2⟩

end

/-- What is asked of a predicate by itself. Joins pass. -/
def Spelled : Condition → Prop
  | compare column _ value => IsName column ∧ value.WellFormed ∧ value ≠ .null
  | oneOf column values _ => IsName column ∧ values ≠ [] ∧ ∀ l ∈ values, l.WellFormed
  | isNull column _ => IsName column
  | like column _ _ => IsName column
  | between column low high _ => IsName column ∧ low.WellFormed ∧ high.WellFormed
  | _ => True

abbrev WellFormed : Condition → Prop :=
  Formed Spelled

end Condition

def Column.WellFormed (c : Column) : Prop :=
  IsName c.source ∧ ∀ label ∈ c.label, IsName label

def Projection.WellFormed : Projection → Prop
  | everything => True
  | columns items => items ≠ [] ∧ ∀ c ∈ items, c.WellFormed

structure Select.WellFormed (s : Select) : Prop where
  projection : s.projection.WellFormed
  condition : ∀ c ∈ s.condition, c.WellFormed
  order : ∀ k ∈ s.order, IsName k.column

end SearchSelect.Sql
