import SearchSelect.Proofs.FilterSyntax
import SearchSelect.Proofs.WellFormed

/-! A condition and its filter query say the same of every document.
Beside each clause that is written for a condition stands a row of the filter syntax: `Stands`
is what the two keep to each other, and it is enough to put the clause into any place where it is
written (among conjuncts, among alternatives, behind a minus) without its meaning changing. -/

namespace SearchSelect.Filter

open Sql Text

/-! ## Truth of a condition -/

/-- What a predicate asserts or denies, as a clause without its minus. -/
def atomOf : Condition → List Char
  | .compare column .eq value => column.toList ++ ':' :: valueText value
  | .compare column .ne value => column.toList ++ ':' :: valueText value
  | .compare column .gt value => rangeText column '\x7b' (valueText value) ['*'] ']'
  | .compare column .ge value => rangeText column '[' (valueText value) ['*'] ']'
  | .compare column .lt value => rangeText column '[' ['*'] (valueText value) '\x7d'
  | .compare column .le value => rangeText column '[' ['*'] (valueText value) ']'
  | .oneOf column values _ => membershipText column values
  | .isNull column _ => rangeText column '[' ['*'] ['*'] ']'
  | .like column pattern _ => column.toList ++ ':' :: wildcard pattern.toList
  | .between column low high _ => rangeText column '[' (valueText low) (valueText high) ']'
  | _ => []

def denies : Condition → Bool
  | .compare _ op _ => op = .ne
  | .oneOf _ _ negated => negated
  | .isNull _ negated => !negated
  | .like _ _ negated => negated
  | .between _ _ _ negated => negated
  | _ => false

theorem clause_predicate {c : Condition} (h : c.isPredicate) :
    clause c = .negativeIf (denies c) (atomOf c) := by
  cases c with
  | compare column op value => cases op <;> rfl
  | all | any | not => simp [Condition.isPredicate] at h
  | _ => rfl

mutual

/-- Two-valued truth, given which atoms hold. -/
def truth (v : List Char → Bool) : Condition → Bool
  | .all ps => (truths v ps).all id
  | .any ps => (truths v ps).any id
  | .not p => !truth v p
  | c => denies c ^^ v (atomOf c)

def truths (v : List Char → Bool) : List Condition → List Bool
  | [] => []
  | p :: ps => truth v p :: truths v ps

end

mutual

/-- The atoms of a condition, from left to right. -/
def atoms : Condition → List (List Char)
  | .all ps => atomsAll ps
  | .any ps => atomsAll ps
  | .not p => atoms p
  | c => [atomOf c]

def atomsAll : List Condition → List (List Char)
  | [] => []
  | p :: ps => atoms p ++ atomsAll ps

end

theorem truth_predicate {c : Condition} (h : c.isPredicate) (v : List Char → Bool) :
    truth v c = (denies c ^^ v (atomOf c)) := by
  cases c with
  | all | any | not => simp [Condition.isPredicate] at h
  | _ => rfl

theorem atoms_predicate {c : Condition} (h : c.isPredicate) : atoms c = [atomOf c] := by
  cases c with
  | all | any | not => simp [Condition.isPredicate] at h
  | _ => rfl

theorem truths_eq_map (v : List Char → Bool) (ps : List Condition) :
    truths v ps = ps.map (truth v) := by
  induction ps with
  | nil => rfl
  | cons p ps ih => rw [truths, ih, List.map_cons]

theorem atomsAll_eq_flatMap (ps : List Condition) : atomsAll ps = ps.flatMap atoms := by
  induction ps with
  | nil => rfl
  | cons p ps ih => rw [atomsAll, ih, List.flatMap_cons]

theorem clauses_eq_map (ps : List Condition) : clauses ps = ps.map clause := by
  induction ps with
  | nil => rfl
  | cons p ps ih => rw [clauses, ih, List.map_cons]

theorem alternatives_eq_map (ps : List Condition) :
    alternatives ps = ps.map fun p => alternative (isConjunction p) (clause p) := by
  induction ps with
  | nil => rfl
  | cons p ps ih => rw [alternatives, ih, List.map_cons]

/-! ## The row of a condition -/

/-- The operand behind the minus of a negation. -/
def negand (c : Clause) (r : Row) : Operand :=
  if c.negative then r.grouped true
  else if c.text.contains ' ' then r.grouped false
  else .atom c.text

def conjunctRow (c : Clause) (r : Row) : List (Bool × Operand) :=
  if occursIn " OR ".toList c.text && !c.negative then [(false, r.grouped false)] else r.clauses

def alternativeRow (isConjunction : Bool) (c : Clause) (r : Row) : List (Bool × Operand) :=
  if !c.negative && isConjunction then [(false, r.grouped false)]
  else if c.negative then [(false, r.grouped true)]
  else r.clauses

mutual

def row : Condition → Row
  | .all ps => ⟨.and, conjunctRows ps⟩
  | .any ps => ⟨.or, alternativeRows ps⟩
  | .not p => ⟨.and, [(true, negand (clause p) (row p))]⟩
  | c => ⟨.and, [(denies c, .atom (atomOf c))]⟩

def conjunctRows : List Condition → List (Bool × Operand)
  | [] => []
  | p :: ps => conjunctRow (clause p) (row p) ++ conjunctRows ps

def alternativeRows : List Condition → List (Bool × Operand)
  | [] => []
  | p :: ps => alternativeRow (isConjunction p) (clause p) (row p) ++ alternativeRows ps

end

theorem row_predicate {c : Condition} (h : c.isPredicate) :
    row c = ⟨.and, [(denies c, .atom (atomOf c))]⟩ := by
  cases c with
  | all | any | not => simp [Condition.isPredicate] at h
  | _ => rfl

theorem conjunctRows_eq_flatMap (ps : List Condition) :
    conjunctRows ps = ps.flatMap fun p => conjunctRow (clause p) (row p) := by
  induction ps with
  | nil => rfl
  | cons p ps ih => rw [conjunctRows, ih, List.flatMap_cons]

theorem alternativeRows_eq_flatMap (ps : List Condition) :
    alternativeRows ps =
      ps.flatMap fun p => alternativeRow (isConjunction p) (clause p) (row p) := by
  induction ps with
  | nil => rfl
  | cons p ps ih => rw [alternativeRows, ih, List.flatMap_cons]

/-! ## What a clause and its row keep to each other -/

/-- The row reads the clause's text, and is negative when the clause is. Alternatives are never
excluded, and a wanted clause that stands alone is an atom. -/
structure Stands (c : Clause) (r : Row) : Prop where
  text : spelled r.tokens = c.text
  sound : r.Sound
  sign : c.negative = r.clauses.all Prod.fst
  wanted : r.joint = .or → ∀ d ∈ r.clauses, d.1 = false
  alone : ∀ o, r.clauses = [(false, o)] → ∃ text, o = .atom text

theorem tokens_singleton (j : Joint) (minus : Bool) (o : Operand) :
    (⟨j, [(minus, o)]⟩ : Row).tokens = minusIf minus ++ o.tokens := by
  simp [Row.tokens, clauseTokens]

theorem tokens_cons {j : Joint} {cs : List (Bool × Operand)} (minus : Bool) (o : Operand)
    (more : cs ≠ []) :
    (⟨j, (minus, o) :: cs⟩ : Row).tokens =
      minusIf minus ++ o.tokens ++ Token.joint j :: (⟨j, cs⟩ : Row).tokens := by
  have rest : clauseTokens cs ≠ [] := by simpa [clauseTokens_eq_nil] using more
  simp [Row.tokens, clauseTokens, List.intercalate_cons_of_ne_nil rest]

theorem tokens_append {j : Joint} {a b : List (Bool × Operand)} (ha : a ≠ []) (hb : b ≠ []) :
    (⟨j, a ++ b⟩ : Row).tokens =
      (⟨j, a⟩ : Row).tokens ++ Token.joint j :: (⟨j, b⟩ : Row).tokens := by
  induction a with
  | nil => exact absurd rfl ha
  | cons c a ih =>
    obtain ⟨minus, o⟩ := c
    cases a with
    | nil => simp [tokens_singleton, tokens_cons minus o hb]
    | cons d a =>
      rw [List.cons_append, tokens_cons minus o (by simp), ih (by simp),
        tokens_cons minus o (by simp)]
      simp

theorem spelled_cons (t : Token) (ts : List Token) : spelled (t :: ts) = t.text ++ spelled ts :=
  List.flatMap_cons

theorem spelled_grouped (r : Row) :
    spelled (r.grouped false).tokens = grouped (spelled r.tokens) := by
  simp [Row.grouped, Operand.tokens, baseIf, spelled_cons, spelled_append, grouped, Row.tokens,
    Token.text]
  rfl

theorem spelled_based (r : Row) :
    spelled (r.grouped true).tokens = grouped ("*:* ".toList ++ spelled r.tokens) := by
  simp [Row.grouped, Operand.tokens, baseIf, spelled_cons, spelled_append, grouped, Row.tokens,
    Token.text]
  rfl

namespace Stands

variable {c : Clause} {r : Row}

/-- Two clauses or more have their joint between them. -/
theorem joint_mem (several : 2 ≤ r.clauses.length) :
    ∃ a b, spelled r.tokens = a ++ r.joint.text ++ b := by
  obtain ⟨joint, clauses⟩ := r
  match clauses, several with
  | (minus, o) :: d :: ds, _ =>
    refine ⟨spelled (minusIf minus ++ o.tokens), spelled (⟨joint, d :: ds⟩ : Row).tokens, ?_⟩
    rw [tokens_cons minus o (by simp), spelled_append, spelled_cons, List.append_assoc]
    rfl

theorem positive_of_or (h : Stands c r) (hj : r.joint = .or) : c.negative = false := by
  rw [h.sign]
  obtain ⟨d, ds, hd⟩ := List.exists_cons_of_ne_nil h.sound.nonempty
  have := h.wanted hj d (by simp [hd])
  simp [hd, this]

theorem or_occurs (h : Stands c r) (hj : r.joint = .or) : occursIn " OR ".toList c.text := by
  obtain ⟨a, b, hab⟩ := joint_mem (h.sound.joined hj)
  rw [← h.text, hab, hj]
  exact occursIn_iff.mpr ⟨a, b, rfl⟩

theorem blank_of_several (h : Stands c r) (several : 2 ≤ r.clauses.length) :
    c.text.contains ' ' := by
  obtain ⟨a, b, hab⟩ := joint_mem several
  rw [← h.text, hab]
  cases r.joint <;> simp [Joint.text]

/-- A positive text without a blank is one atom. -/
theorem atom_of_plain (h : Stands c r) (positive : c.negative = false)
    (plain : c.text.contains ' ' = false) : r = ⟨r.joint, [(false, .atom c.text)]⟩ := by
  obtain ⟨joint, clauses⟩ := r
  match clauses, h with
  | [], h => exact absurd rfl h.sound.nonempty
  | [(true, o)], h => simp [h.sign] at positive
  | [(false, o)], h =>
    obtain ⟨text, rfl⟩ := h.alone o rfl
    have := h.text
    rw [tokens_singleton] at this
    simp only [minusIf, Operand.tokens, spelled] at this
    simp [← this, Token.text]
  | d :: e :: ds, h =>
    have := h.blank_of_several (by simp)
    rw [plain] at this
    exact absurd this (by simp)

end Stands

/-! ## Meaning in each place -/

section Meaning

variable (v : List Char → Bool)

theorem holds_conjunction (cs : List (Bool × Operand)) :
    (⟨.and, cs⟩ : Row).holds v = cs.all fun d => d.1 ^^ d.2.holds v := by
  have h := found_and (valuesOf v cs)
  simpa [Row.holds, valuesOf_eq_map, Function.comp_def] using h

theorem holds_alternatives {cs : List (Bool × Operand)} (nonempty : cs ≠ [])
    (wanted : ∀ d ∈ cs, d.1 = false) :
    (⟨.or, cs⟩ : Row).holds v = cs.any fun d => d.2.holds v := by
  have some : valuesOf v cs ≠ [] := by simpa [valuesOf_eq_map] using nonempty
  have h := found_or some (by
    rw [valuesOf_eq_map]
    intro d hd
    obtain ⟨c, hc, rfl⟩ := List.mem_map.1 hd
    exact wanted c hc)
  simpa [Row.holds, valuesOf_eq_map, Function.comp_def] using h

/-- In parentheses a row means what it means alone, if it has a wanted clause. -/
theorem holds_grouped {r : Row} (positive : r.clauses.all Prod.fst = false) :
    (r.grouped false).holds v = r.holds v := by
  rw [Row.grouped, Operand.holds, Row.holds, positive]

/-- A row that only excludes needs the base for that. -/
theorem holds_based {r : Row} (negative : r.clauses.all Prod.fst = true) :
    (r.grouped true).holds v = r.holds v := by
  rw [Row.grouped, Operand.holds, Row.holds, negative]

namespace Stands

variable {c : Clause} {r : Row}

theorem grouped_sound (h : Stands c r) : (r.grouped false).Sound :=
  ⟨h.sound.nonempty, h.sound.joined, by simp, h.sound.parts⟩

theorem based_sound (h : Stands c r) (negative : c.negative = true) : (r.grouped true).Sound := by
  refine ⟨h.sound.nonempty, h.sound.joined, fun _ => ⟨h.sign ▸ negative, ?_⟩, h.sound.parts⟩
  cases hj : r.joint with
  | and => rfl
  | or => exact absurd (h.positive_of_or hj) (by simp [negative])

/-- The three forms of a negation: on the base, in parentheses, or bare before one atom. -/
theorem negand_cases (h : Stands c r) :
    (c.negative = true ∧ negand c r = r.grouped true ∧
      excluding c = .negativeIf true (grouped ("*:* ".toList ++ c.text))) ∨
    (c.negative = false ∧ negand c r = r.grouped false ∧
      excluding c = .negativeIf true (grouped c.text)) ∨
    (negand c r = .atom c.text ∧ excluding c = .negativeIf true c.text ∧
      r = ⟨r.joint, [(false, .atom c.text)]⟩) := by
  cases hn : c.negative with
  | true => exact .inl ⟨rfl, by simp [negand, hn], by simp [excluding, Clause.standalone, hn]⟩
  | false =>
    cases hb : c.text.contains ' ' with
    | true => exact .inr (.inl ⟨rfl, by simp_all [negand], by simp_all [excluding]⟩)
    | false =>
      exact .inr (.inr ⟨by simp_all [negand], by simp_all [excluding], h.atom_of_plain hn hb⟩)

theorem negand_sound (h : Stands c r) : (negand c r).Sound := by
  obtain ⟨negative, hn, -⟩ | ⟨-, hn, -⟩ | ⟨hn, -, -⟩ := h.negand_cases
  · rw [hn]
    exact h.based_sound negative
  · rw [hn]
    exact h.grouped_sound
  · rw [hn]
    trivial

theorem negand_text (h : Stands c r) :
    (excluding c).text = '-' :: spelled (negand c r).tokens := by
  obtain ⟨-, hn, ht⟩ | ⟨-, hn, ht⟩ | ⟨hn, ht, -⟩ := h.negand_cases
  · rw [hn, ht, spelled_based, h.text]
    rfl
  · rw [hn, ht, spelled_grouped, h.text]
    rfl
  · rw [hn, ht, Operand.tokens, spelled_cons]
    simp [Clause.negativeIf, Token.text, spelled]

theorem negand_holds (h : Stands c r) : (negand c r).holds v = r.holds v := by
  obtain ⟨negative, hn, -⟩ | ⟨positive, hn, -⟩ | ⟨hn, -, alone⟩ := h.negand_cases
  · rw [hn, holds_based v (h.sign ▸ negative)]
  · rw [hn, holds_grouped v (h.sign ▸ positive)]
  · rw [hn, alone]
    cases r.joint <;> simp [Row.holds, valuesOf, found, Operand.holds]

theorem excluding_stands (h : Stands c r) :
    Stands (excluding c) ⟨.and, [(true, negand c r)]⟩ where
  text := by
    rw [h.negand_text, tokens_singleton]
    simp [minusIf, spelled_cons, Token.text]
  sound := ⟨by simp, by simp, h.negand_sound, trivial⟩
  sign := rfl
  wanted := by simp
  alone := by simp

/-- Among conjuncts, alternatives stand in parentheses and anything else is written in line. -/
theorem conjunct_cases (h : Stands c r) :
    (c.negative = false ∧ conjunctRow c r = [(false, r.grouped false)] ∧
      conjunct c = grouped c.text) ∨
    (conjunctRow c r = r.clauses ∧ conjunct c = c.text ∧ r = ⟨.and, r.clauses⟩) := by
  cases hw : occursIn " OR ".toList c.text && !c.negative with
  | true =>
    have positive : c.negative = false := by simp_all
    exact .inl ⟨positive, by rw [conjunctRow, if_pos hw], by rw [conjunct, if_pos hw]⟩
  | false =>
    have plain : r.joint ≠ .or := by
      intro hj
      rw [h.or_occurs hj, h.positive_of_or hj] at hw
      exact absurd hw (by decide)
    have joined : r = ⟨.and, r.clauses⟩ := by
      obtain ⟨joint, clauses⟩ := r
      cases joint <;> simp_all
    exact .inr ⟨by rw [conjunctRow, hw]; rfl, by rw [conjunct, hw]; rfl, joined⟩

theorem conjunct_text (h : Stands c r) :
    spelled (⟨.and, conjunctRow c r⟩ : Row).tokens = conjunct c := by
  obtain ⟨-, hr, ht⟩ | ⟨hr, ht, joined⟩ := h.conjunct_cases
  · rw [hr, ht, tokens_singleton, ← h.text, ← spelled_grouped]
    rfl
  · rw [hr, ht, ← joined, h.text]

theorem conjunct_nonempty (h : Stands c r) : conjunctRow c r ≠ [] := by
  obtain ⟨-, hr, -⟩ | ⟨hr, -, -⟩ := h.conjunct_cases
  · simp [hr]
  · rw [hr]
    exact h.sound.nonempty

theorem conjunct_sound (h : Stands c r) : ClausesSound (conjunctRow c r) := by
  obtain ⟨-, hr, -⟩ | ⟨hr, -, -⟩ := h.conjunct_cases
  · rw [hr]
    exact ⟨h.grouped_sound, trivial⟩
  · rw [hr]
    exact h.sound.parts

theorem conjunct_sign (h : Stands c r) : (conjunctRow c r).all Prod.fst = c.negative := by
  obtain ⟨positive, hr, -⟩ | ⟨hr, -, -⟩ := h.conjunct_cases
  · simp [hr, positive]
  · rw [hr, h.sign]

theorem conjunct_holds (h : Stands c r) :
    ((conjunctRow c r).all fun d => d.1 ^^ d.2.holds v) = r.holds v := by
  obtain ⟨positive, hr, -⟩ | ⟨hr, -, joined⟩ := h.conjunct_cases
  · simp [hr, holds_grouped v (h.sign ▸ positive)]
  · rw [hr, ← holds_conjunction, ← joined]

/-- Among alternatives, what only excludes goes on the base and a conjunction into parentheses.
What is left can be written in line: alternatives again, or a single clause. -/
theorem alternative_cases {isConjunction : Bool} (h : Stands c r)
    (shape : isConjunction = false → r.joint = .or ∨ r.clauses.length = 1) :
    (c.negative = true ∧ alternativeRow isConjunction c r = [(false, r.grouped true)] ∧
      alternative isConjunction c = grouped ("*:* ".toList ++ c.text)) ∨
    (c.negative = false ∧ alternativeRow isConjunction c r = [(false, r.grouped false)] ∧
      alternative isConjunction c = grouped c.text) ∨
    (alternativeRow isConjunction c r = r.clauses ∧ alternative isConjunction c = c.text ∧
      (∀ d ∈ r.clauses, d.1 = false) ∧ (r.joint = .or ∨ r.clauses.length = 1)) := by
  cases hn : c.negative with
  | true =>
    exact .inl ⟨rfl, by simp [alternativeRow, hn], by simp [alternative, Clause.standalone, hn]⟩
  | false =>
    cases hc : isConjunction with
    | true => exact .inr (.inl ⟨rfl, by simp [alternativeRow, hn], by simp [alternative, hn]⟩)
    | false =>
      have wanted : ∀ d ∈ r.clauses, d.1 = false := by
        obtain hj | one := shape hc
        · exact h.wanted hj
        · obtain ⟨d, hd⟩ := List.length_eq_one_iff.1 one
          have := h.sign
          simp_all
      exact .inr (.inr ⟨by simp [alternativeRow, hn],
        by simp [alternative, Clause.standalone, hn], wanted, shape hc⟩)

/-- A single clause reads the same whatever joint it is said to have. -/
theorem tokens_of_shape {r : Row} (shape : r.joint = .or ∨ r.clauses.length = 1) :
    (⟨.or, r.clauses⟩ : Row).tokens = r.tokens := by
  obtain ⟨joint, clauses⟩ := r
  obtain rfl | one := shape
  · rfl
  · obtain ⟨⟨minus, o⟩, rfl⟩ := List.length_eq_one_iff.1 one
    rw [tokens_singleton, tokens_singleton]

theorem holds_of_shape {r : Row} (shape : r.joint = .or ∨ r.clauses.length = 1) :
    (⟨.or, r.clauses⟩ : Row).holds v = r.holds v := by
  obtain ⟨joint, clauses⟩ := r
  obtain rfl | one := shape
  · rfl
  · obtain ⟨⟨minus, o⟩, rfl⟩ := List.length_eq_one_iff.1 one
    cases joint <;> cases minus <;> simp [Row.holds, valuesOf, found]

section Alternative

variable {isConjunction : Bool} (h : Stands c r)
  (shape : isConjunction = false → r.joint = .or ∨ r.clauses.length = 1)
include h shape

theorem alternative_text :
    spelled (⟨.or, alternativeRow isConjunction c r⟩ : Row).tokens =
      alternative isConjunction c := by
  obtain ⟨-, hr, ht⟩ | ⟨-, hr, ht⟩ | ⟨hr, ht, -, inline⟩ := h.alternative_cases shape
  · rw [hr, ht, tokens_singleton, ← h.text, ← spelled_based]
    rfl
  · rw [hr, ht, tokens_singleton, ← h.text, ← spelled_grouped]
    rfl
  · rw [hr, ht, tokens_of_shape inline, h.text]

theorem alternative_nonempty : alternativeRow isConjunction c r ≠ [] := by
  obtain ⟨-, hr, -⟩ | ⟨-, hr, -⟩ | ⟨hr, -⟩ := h.alternative_cases shape
  · simp [hr]
  · simp [hr]
  · rw [hr]
    exact h.sound.nonempty

theorem alternative_sound : ClausesSound (alternativeRow isConjunction c r) := by
  obtain ⟨negative, hr, -⟩ | ⟨-, hr, -⟩ | ⟨hr, -⟩ := h.alternative_cases shape
  · rw [hr]
    exact ⟨h.based_sound negative, trivial⟩
  · rw [hr]
    exact ⟨h.grouped_sound, trivial⟩
  · rw [hr]
    exact h.sound.parts

theorem alternative_wanted : ∀ d ∈ alternativeRow isConjunction c r, d.1 = false := by
  obtain ⟨-, hr, -⟩ | ⟨-, hr, -⟩ | ⟨hr, -, wanted, -⟩ := h.alternative_cases shape
  · simp [hr]
  · simp [hr]
  · rw [hr]
    exact wanted

theorem alternative_holds :
    ((alternativeRow isConjunction c r).any fun d => d.2.holds v) = r.holds v := by
  obtain ⟨negative, hr, -⟩ | ⟨positive, hr, -⟩ | ⟨hr, -, wanted, inline⟩ :=
    h.alternative_cases shape
  · simp [hr, holds_based v (h.sign ▸ negative)]
  · simp [hr, holds_grouped v (h.sign ▸ positive)]
  · rw [hr, ← holds_alternatives v h.sound.nonempty wanted, holds_of_shape v inline]

end Alternative

end Stands

end Meaning

/-! ## Atoms in each place -/

theorem atomsIn_tokens (r : Row) :
    atomsIn r.tokens = r.clauses.flatMap fun d => atomsIn d.2.tokens := by
  obtain ⟨j, cs⟩ := r
  have unsigned : ∀ minus : Bool, atomsIn (minusIf minus) = [] := by
    intro minus
    cases minus <;> rfl
  induction cs with
  | nil => rfl
  | cons d cs ih =>
    obtain ⟨minus, o⟩ := d
    cases cs with
    | nil => simp [tokens_singleton, atomsIn_append, unsigned]
    | cons e cs =>
      rw [tokens_cons minus o (by simp), atomsIn_append, atomsIn_append, unsigned,
        List.flatMap_cons, ← ih]
      rfl

theorem atomsIn_grouped (r : Row) (based : Bool) :
    atomsIn (r.grouped based).tokens = atomsIn r.tokens := by
  have opened : atomsIn (.opening :: baseIf based) = [] := by cases based <;> rfl
  have closed : atomsIn [.closing] = [] := rfl
  rw [Row.grouped, Operand.tokens, ← List.cons_append, atomsIn_append, atomsIn_append, opened,
    closed, List.append_nil, List.nil_append]
  rfl

namespace Stands

variable {c : Clause} {r : Row}

theorem negand_atoms (h : Stands c r) : atomsIn (negand c r).tokens = atomsIn r.tokens := by
  obtain ⟨-, hn, -⟩ | ⟨-, hn, -⟩ | ⟨hn, -, alone⟩ := h.negand_cases
  · rw [hn, atomsIn_grouped]
  · rw [hn, atomsIn_grouped]
  · rw [hn, alone, tokens_singleton]
    rfl

theorem conjunct_atoms (h : Stands c r) :
    ((conjunctRow c r).flatMap fun d => atomsIn d.2.tokens) = atomsIn r.tokens := by
  obtain ⟨-, hr, -⟩ | ⟨hr, -, -⟩ := h.conjunct_cases
  · simp [hr, atomsIn_grouped]
  · rw [hr, atomsIn_tokens]

theorem alternative_atoms {isConjunction : Bool} (h : Stands c r)
    (shape : isConjunction = false → r.joint = .or ∨ r.clauses.length = 1) :
    ((alternativeRow isConjunction c r).flatMap fun d => atomsIn d.2.tokens) =
      atomsIn r.tokens := by
  obtain ⟨-, hr, -⟩ | ⟨-, hr, -⟩ | ⟨hr, -⟩ := h.alternative_cases shape
  · simp [hr, atomsIn_grouped]
  · simp [hr, atomsIn_grouped]
  · rw [hr, atomsIn_tokens]

end Stands

/-! ## Joining the rows of the parts -/

theorem clausesSound_iff {cs : List (Bool × Operand)} :
    ClausesSound cs ↔ ∀ d ∈ cs, d.2.Sound := by
  induction cs with
  | nil => simp [ClausesSound]
  | cons d cs ih => simp [ClausesSound, ih]

section Join

variable {α : Type} {f : α → List (Bool × Operand)} {ps : List α}

theorem length_le_flatMap (some : ∀ p ∈ ps, f p ≠ []) : ps.length ≤ (ps.flatMap f).length := by
  induction ps with
  | nil => exact Nat.zero_le _
  | cons p ps ih =>
    have first := List.length_pos_iff.2 (some p (by simp))
    have rest := ih fun q hq => some q (List.mem_cons_of_mem p hq)
    simp only [List.flatMap_cons, List.length_append, List.length_cons]
    omega

theorem spelled_flatMap {j : Joint} {g : α → List Char} (some : ∀ p ∈ ps, f p ≠ [])
    (each : ∀ p ∈ ps, spelled (⟨j, f p⟩ : Row).tokens = g p) :
    spelled (⟨j, ps.flatMap f⟩ : Row).tokens = j.text.intercalate (ps.map g) := by
  induction ps with
  | nil => rfl
  | cons p ps ih =>
    have here := each p (by simp)
    cases ps with
    | nil => simpa using here
    | cons q ps =>
      have rest := ih (fun r hr => some r (List.mem_cons_of_mem p hr))
        (fun r hr => each r (List.mem_cons_of_mem p hr))
      have more : (q :: ps).flatMap f ≠ [] := by
        simp [some q]
      have tail : (q :: ps).map g ≠ [] := by simp
      rw [List.flatMap_cons, tokens_append (some p (by simp)) more, spelled_append, spelled_cons,
        List.map_cons, List.intercalate_cons_of_ne_nil tail, here, rest, List.append_assoc]
      rfl

theorem row_sound {j : Joint} (several : 2 ≤ ps.length) (some : ∀ p ∈ ps, f p ≠ [])
    (each : ∀ p ∈ ps, ClausesSound (f p)) : (⟨j, ps.flatMap f⟩ : Row).Sound := by
  have long : 2 ≤ (ps.flatMap f).length := Nat.le_trans several (length_le_flatMap some)
  refine ⟨List.length_pos_iff.1 (by dsimp only; omega), fun _ => long, ?_⟩
  rw [clausesSound_iff]
  intro d hd
  obtain ⟨p, hp, hd⟩ := List.mem_flatMap.1 hd
  exact clausesSound_iff.1 (each p hp) d hd

theorem not_alone (several : 2 ≤ ps.length) (some : ∀ p ∈ ps, f p ≠ [])
    (d : Bool × Operand) : ps.flatMap f ≠ [d] := by
  intro h
  have long := Nat.le_trans several (length_le_flatMap some)
  rw [h] at long
  exact absurd long (by simp)

end Join

theorem isConjunction_eq_false {c : Condition} (h : isConjunction c = false) :
    (row c).joint = .or ∨ (row c).clauses.length = 1 := by
  cases c with
  | all => exact absurd h (by simp [isConjunction])
  | any => exact .inl rfl
  | _ => exact .inr rfl

section Parts

variable {ps : List Condition} (several : 2 ≤ ps.length)
  (each : ∀ p ∈ ps, Stands (clause p) (row p))
include several each

theorem conjunction_stands : Stands (clause (.all ps)) (row (.all ps)) := by
  have some : ∀ p ∈ ps, conjunctRow (clause p) (row p) ≠ [] :=
    fun p hp => (each p hp).conjunct_nonempty
  rw [clause, row, conjunctRows_eq_flatMap, clauses_eq_map]
  constructor
  · rw [spelled_flatMap some fun p hp => (each p hp).conjunct_text, allOf, List.map_map]
    rfl
  · exact row_sound several some fun p hp => (each p hp).conjunct_sound
  · rw [allOf, List.all_map, List.all_flatMap]
    rw [Bool.eq_iff_iff, List.all_eq_true, List.all_eq_true]
    exact forall₂_congr fun p hp => by rw [(each p hp).conjunct_sign]; rfl
  · simp
  · intro o h
    exact absurd h (not_alone several some _)

theorem disjunction_stands : Stands (clause (.any ps)) (row (.any ps)) := by
  have some : ∀ p ∈ ps, alternativeRow (isConjunction p) (clause p) (row p) ≠ [] :=
    fun p hp => (each p hp).alternative_nonempty isConjunction_eq_false
  rw [clause, row, alternativeRows_eq_flatMap, alternatives_eq_map]
  have wanted : ∀ d ∈ ps.flatMap fun p => alternativeRow (isConjunction p) (clause p) (row p),
      d.1 = false := by
    intro d hd
    obtain ⟨p, hp, hd⟩ := List.mem_flatMap.1 hd
    exact (each p hp).alternative_wanted isConjunction_eq_false d hd
  have sound := row_sound (j := .or) several some fun p hp =>
    (each p hp).alternative_sound isConjunction_eq_false
  constructor
  · rw [spelled_flatMap some fun p hp => (each p hp).alternative_text isConjunction_eq_false]
    rfl
  · exact sound
  · obtain ⟨d, ds, hd⟩ := List.exists_cons_of_ne_nil sound.nonempty
    dsimp only at hd
    simp [hd, wanted d, Clause.positive]
  · exact fun _ => wanted
  · intro o h
    exact absurd h (not_alone several some _)

end Parts

theorem predicate_stands {c : Condition} (h : c.isPredicate) : Stands (clause c) (row c) := by
  rw [clause_predicate h, row_predicate h]
  constructor
  · cases denies c <;>
      simp [tokens_singleton, minusIf, Operand.tokens, spelled, Token.text, Clause.negativeIf]
  · exact ⟨by simp, by simp, trivial, trivial⟩
  · cases denies c <;> rfl
  · simp
  · simp

mutual

theorem row_stands : (c : Condition) → c.Branching → Stands (clause c) (row c)
  | .all ps, h => conjunction_stands h.1 (rows_stand ps h.2)
  | .any ps, h => disjunction_stands h.1 (rows_stand ps h.2)
  | .not p, h => (row_stands p h).excluding_stands
  | .compare .., _ => predicate_stands rfl
  | .oneOf .., _ => predicate_stands rfl
  | .isNull .., _ => predicate_stands rfl
  | .like .., _ => predicate_stands rfl
  | .between .., _ => predicate_stands rfl

theorem rows_stand : (ps : List Condition) → Condition.FormedAll (fun _ => True) ps →
    ∀ p ∈ ps, Stands (clause p) (row p)
  | [], _ => by simp
  | p :: ps, h => List.forall_mem_cons.2 ⟨row_stands p h.1, rows_stand ps h.2⟩

end

/-! ## Main statement -/

section Main

variable (v : List Char → Bool)

theorem row_holds_predicate {c : Condition} (h : c.isPredicate) :
    (row c).holds v = truth v c := by
  rw [row_predicate h, truth_predicate h, holds_conjunction]
  simp [Operand.holds]

mutual

theorem row_holds : (c : Condition) → c.Branching → (row c).holds v = truth v c
  | .all ps, h => by
    have each := rows_stand ps h.2
    have values := rows_hold ps h.2
    rw [row, conjunctRows_eq_flatMap, holds_conjunction, List.all_flatMap, truth, truths_eq_map,
      List.all_map, Bool.eq_iff_iff, List.all_eq_true, List.all_eq_true]
    exact forall₂_congr fun p hp => by rw [(each p hp).conjunct_holds, values p hp]; rfl
  | .any ps, h => by
    have each := rows_stand ps h.2
    have values := rows_hold ps h.2
    have whole := row_stands (.any ps) h
    have inLine : (row (.any ps)).holds v = (row (.any ps)).clauses.any fun d => d.2.holds v :=
      holds_alternatives v whole.sound.nonempty (whole.wanted rfl)
    rw [inLine, row, alternativeRows_eq_flatMap, List.any_flatMap, truth, truths_eq_map,
      List.any_map, Bool.eq_iff_iff, List.any_eq_true, List.any_eq_true]
    refine exists_congr fun p => and_congr_right fun hp => ?_
    rw [(each p hp).alternative_holds v isConjunction_eq_false, values p hp]
    rfl
  | .not p, h => by
    rw [row, holds_conjunction, truth, ← row_holds p h]
    simp [(row_stands p h).negand_holds]
  | .compare .., _ => row_holds_predicate v rfl
  | .oneOf .., _ => row_holds_predicate v rfl
  | .isNull .., _ => row_holds_predicate v rfl
  | .like .., _ => row_holds_predicate v rfl
  | .between .., _ => row_holds_predicate v rfl

theorem rows_hold : (ps : List Condition) → Condition.FormedAll (fun _ => True) ps →
    ∀ p ∈ ps, (row p).holds v = truth v p
  | [], _ => by simp
  | p :: ps, h => List.forall_mem_cons.2 ⟨row_holds p h.1, rows_hold ps h.2⟩

end

end Main

theorem row_atoms_predicate {c : Condition} (h : c.isPredicate) :
    atomsIn (row c).tokens = atoms c := by
  rw [row_predicate h, atoms_predicate h, atomsIn_tokens]
  rfl

mutual

theorem row_atoms : (c : Condition) → c.Branching → atomsIn (row c).tokens = atoms c
  | .all ps, h => by
    have each := rows_stand ps h.2
    have parts := rows_atoms ps h.2
    rw [atomsIn_tokens, row, conjunctRows_eq_flatMap, List.flatMap_assoc, atoms,
      atomsAll_eq_flatMap, List.flatMap_def, List.flatMap_def]
    refine congrArg List.flatten (List.map_congr_left fun p hp => ?_)
    rw [(each p hp).conjunct_atoms, parts p hp]
  | .any ps, h => by
    have each := rows_stand ps h.2
    have parts := rows_atoms ps h.2
    rw [atomsIn_tokens, row, alternativeRows_eq_flatMap, List.flatMap_assoc, atoms,
      atomsAll_eq_flatMap, List.flatMap_def, List.flatMap_def]
    refine congrArg List.flatten (List.map_congr_left fun p hp => ?_)
    rw [(each p hp).alternative_atoms isConjunction_eq_false, parts p hp]
  | .not p, h => by
    rw [row, tokens_singleton, atomsIn_append, (row_stands p h).negand_atoms, row_atoms p h]
    rfl
  | .compare .., _ => row_atoms_predicate rfl
  | .oneOf .., _ => row_atoms_predicate rfl
  | .isNull .., _ => row_atoms_predicate rfl
  | .like .., _ => row_atoms_predicate rfl
  | .between .., _ => row_atoms_predicate rfl

theorem rows_atoms : (ps : List Condition) → Condition.FormedAll (fun _ => True) ps →
    ∀ p ∈ ps, atomsIn (row p).tokens = atoms p
  | [], _ => by simp
  | p :: ps, h => List.forall_mem_cons.2 ⟨row_atoms p h.1, rows_atoms ps h.2⟩

end

/-- The row of a condition reads its filter query. -/
theorem row_reads {c : Condition} (h : c.Branching) :
    Reads (ofCondition c).toList (atoms c) (row c) := by
  have stands := row_stands c h
  refine ⟨(row c).tokens, ?_, row_atoms c h, read_tokens stands.sound⟩
  rw [stands.text, ofCondition, String.toList_ofList]

/-- The filter query of a condition reads, with the condition's predicates as its terms, as a row
that matches a document exactly when the condition is true of it. -/
theorem ofCondition_means {c : Condition} (h : c.Branching) :
    ∃ r, Reads (ofCondition c).toList (atoms c) r ∧ ∀ v, r.holds v = truth v c := by
  have stands := row_stands c h
  refine ⟨row c, ⟨(row c).tokens, ?_, row_atoms c h, read_tokens stands.sound⟩, ?_⟩
  · rw [stands.text, ofCondition, String.toList_ofList]
  · intro v
    exact row_holds v c h

/-- `NOT (a <> 1 AND NOT (b = 2 OR c <> 3)) OR d IN (4, 5)`: negative groups behind a minus, on the
base and among alternatives. -/
def nestedNegations : Condition :=
  .any [.not (.all [.compare "a" .ne (.number "1"),
      .not (.any [.compare "b" .eq (.number "2"), .compare "c" .ne (.number "3")])]),
    .oneOf "d" [.number "4", .number "5"] false]

theorem nestedNegations_means : nestedNegations.Branching ∧
    ∃ r, Reads (ofCondition nestedNegations).toList (atoms nestedNegations) r ∧
      ∀ v, r.holds v = truth v nestedNegations := by
  have branching : nestedNegations.Branching := by
    simp [nestedNegations, Condition.Formed, Condition.FormedAll]
  exact ⟨branching, ofCondition_means branching⟩

end SearchSelect.Filter
