import Mathlib.Logic.Basic
import SearchSelect.Proofs.Accepted
import SearchSelect.Proofs.PredicateClauses
import SearchSelect.Request

/-! The filters of a request as one clause. Each filter is put in parentheses there, and in
parentheses a filter that only excludes finds nothing: it is missing the base of all documents
that such a clause is given among alternatives and under a negation. -/

namespace SearchSelect.Filter

open Sql Text

/-- A filter of a request: the condition of a statement, or a restriction to given documents. -/
inductive Part where
  | condition (c : Condition)
  | docIds (ids : List String)

namespace Part

def text : Part → String
  | condition c => ofCondition c
  | docIds ids => ofDocIds ids

/-- A restriction to given documents is a single term. -/
def atoms : Part → List (List Char)
  | condition c => Filter.atoms c
  | docIds ids => [(ofDocIds ids).toList]

def clause : Part → Clause
  | condition c => Filter.clause c
  | docIds ids => .positive (ofDocIds ids).toList

def row : Part → Row
  | condition c => Filter.row c
  | docIds ids => ⟨.and, [(false, .atom (ofDocIds ids).toList)]⟩

def Parsed : Part → Prop
  | condition c => ∃ sql s, Select.ofText? sql = .ok s ∧ s.condition = some c
  | docIds _ => True

variable {p : Part}

theorem text_toList (p : Part) : p.text.toList = p.clause.text := by
  cases p with
  | condition c => exact String.toList_ofList
  | docIds ids => rfl

theorem branching {c : Condition} (h : (condition c).Parsed) : c.Branching := by
  obtain ⟨sql, s, accepted, filtered⟩ := h
  exact Condition.Formed.branching c ((wellFormed_of_ofText? accepted).condition c filtered)

theorem stands (h : p.Parsed) : Stands p.clause p.row := by
  cases p with
  | condition c => exact row_stands c (branching h)
  | docIds ids =>
    constructor
    · simp [row, clause, tokens_singleton, minusIf, Operand.tokens, spelled, Token.text,
        Clause.positive]
    · exact ⟨by simp [row], by simp [row], trivial, trivial⟩
    · rfl
    · simp [row]
    · intro o alone
      obtain ⟨-, rfl⟩ : false = false ∧ Operand.atom (ofDocIds ids).toList = o := by
        simpa [row] using alone
      exact ⟨_, rfl⟩

theorem atomsIn_row (h : p.Parsed) : atomsIn p.row.tokens = p.atoms := by
  cases p with
  | condition c => exact row_atoms c (branching h)
  | docIds ids => rw [row, tokens_singleton]; rfl

theorem reads (h : p.Parsed) : Reads p.text.toList p.atoms p.row :=
  ⟨p.row.tokens, by rw [(stands h).text, text_toList], atomsIn_row h, read_tokens (stands h).sound⟩

end Part

/-! ## In parentheses -/

/-- In parentheses, a row without a wanted clause finds nothing. -/
theorem holds_grouped_eq (v : List Char → Bool) (r : Row) :
    (r.grouped false).holds v = (r.holds v && !r.clauses.all Prod.fst) := by
  cases only : r.clauses.all Prod.fst with
  | false => rw [holds_grouped v only, Bool.not_false, Bool.and_true]
  | true =>
    have wanted : (valuesOf v r.clauses).filter (fun d => !d.1) = [] := by
      rw [List.filter_eq_nil_iff, valuesOf_eq_map]
      intro d hd
      obtain ⟨c, hc, rfl⟩ := List.mem_map.1 hd
      simpa using List.all_eq_true.1 only c hc
    cases hj : r.joint <;> simp [Row.grouped, Operand.holds, found, hj, wanted]

/-- The filters in parentheses, joined by AND. -/
def together (parts : List Part) : Row :=
  ⟨.and, parts.flatMap fun p => [(false, p.row.grouped false)]⟩

section Together

variable {parts : List Part} (parsed : ∀ p ∈ parts, p.Parsed)
include parsed

theorem spelled_together :
    spelled (together parts).tokens =
      (" AND ".toList).intercalate (parts.map fun p => grouped p.text.toList) := by
  refine spelled_flatMap (fun _ _ => by simp) fun p hp => ?_
  rw [tokens_singleton, Part.text_toList, ← (Part.stands (parsed p hp)).text, ← spelled_grouped]
  rfl

theorem atomsIn_together : atomsIn (together parts).tokens = parts.flatMap Part.atoms := by
  rw [atomsIn_tokens, together, List.flatMap_assoc, List.flatMap_def, List.flatMap_def]
  refine congrArg List.flatten (List.map_congr_left fun p hp => ?_)
  rw [List.flatMap_singleton, atomsIn_grouped, Part.atomsIn_row (parsed p hp)]

theorem together_sound (several : 2 ≤ parts.length) : (together parts).Sound :=
  row_sound several (fun _ _ => by simp) fun p hp =>
    ⟨(Part.stands (parsed p hp)).grouped_sound, trivial⟩

theorem holds_together (v : List Char → Bool) :
    (together parts).holds v ↔
      (∀ p ∈ parts, p.row.holds v) ∧ ∀ p ∈ parts, p.clause.negative = false := by
  have each : ∀ p ∈ parts, (p.row.grouped false).holds v =
      (p.row.holds v && !p.clause.negative) := by
    intro p hp
    rw [holds_grouped_eq, (Part.stands (parsed p hp)).sign]
  rw [together, holds_conjunction, List.all_flatMap, List.all_eq_true]
  refine (forall₂_congr fun p hp => ?_).trans forall₂_and
  simp [each p hp]

end Together

/-! ## Main statement -/

theorem filterClause_toList {r : Request} {first second : Part} {parts : List Part}
    (made : r.filters = (first :: second :: parts).map Part.text) :
    ∃ text, r.filterClause = some text ∧ text.toList =
      (" AND ".toList).intercalate
        ((first :: second :: parts).map fun p => grouped p.text.toList) := by
  refine ⟨_, by rw [Request.filterClause, made]; rfl, ?_⟩
  rw [String.toList_intercalate]
  simp [grouped, Function.comp_def]

/-- Each filter reads as a row by itself. The one clause for all of them reads as a row that
matches what every filter matches, so long as no filter that only excludes is combined with
another. -/
theorem filterClause_means (r : Request) {parts : List Part}
    (made : r.filters = parts.map Part.text) (parsed : ∀ p ∈ parts, p.Parsed) :
    (∀ p ∈ parts, Reads p.text.toList p.atoms p.row) ∧
      ((parts = [] ∧ r.filterClause = none) ∨
        ∃ text whole, r.filterClause = some text ∧
          Reads text.toList (parts.flatMap Part.atoms) whole ∧
          ∀ v, whole.holds v ↔ (∀ p ∈ parts, p.row.holds v) ∧
            (parts.length = 1 ∨ ∀ p ∈ parts, p.clause.negative = false)) := by
  refine ⟨fun p hp => Part.reads (parsed p hp), ?_⟩
  match parts with
  | [] => exact .inl ⟨rfl, by rw [Request.filterClause, made]; rfl⟩
  | [p] =>
    have reads : Reads p.text.toList p.atoms p.row := Part.reads (parsed p (by simp))
    refine .inr ⟨p.text, p.row, by rw [Request.filterClause, made]; rfl, by simpa using reads, ?_⟩
    simp
  | first :: second :: parts =>
    obtain ⟨text, written, spelling⟩ := filterClause_toList made
    refine .inr ⟨text, together (first :: second :: parts), written, ?_, fun v => ?_⟩
    · exact ⟨_, by rw [spelling, spelled_together parsed], atomsIn_together parsed,
        read_tokens (together_sound parsed (by simp))⟩
    · rw [holds_together parsed v]
      simp

/-! ### A restriction to one document -/

/-- The statement over document 7, and the filters of that request. -/
def ofSeven (c : Condition) : Request :=
  .ofHits (filtered c) ["7"]

def partsOfSeven (c : Condition) : List Part :=
  [.condition c, .docIds ["7"]]

/-- `a <> 'x' OR NOT b LIKE 'y%'` -/
def eitherDenied : Condition :=
  .any [.compare "a" .ne (.text "x"), .not (.like "b" "y%" false)]

theorem filterClause_eitherDenied :
    (ofSeven eitherDenied).filters = (partsOfSeven eitherDenied).map Part.text ∧
      (∀ p ∈ partsOfSeven eitherDenied, p.Parsed) ∧
      ∃ text whole, (ofSeven eitherDenied).filterClause = some text ∧
        Reads text.toList ((partsOfSeven eitherDenied).flatMap Part.atoms) whole ∧
        ∀ v, whole.holds v ↔ ∀ p ∈ partsOfSeven eitherDenied, p.row.holds v := by
  have formed : eitherDenied.WellFormed := by
    simp [eitherDenied, Condition.WellFormed, Condition.Formed, Condition.FormedAll,
      Condition.Spelled, IsName, backtick, Literal.WellFormed]
  have accepted : Select.ofText? " select * from 'docs' where `a` <> 'x' or not `b` like 'y%'" =
      .ok (filtered eitherDenied) := ofText?_filtered formed (by decide +kernel)
  have parsed : ∀ p ∈ partsOfSeven eitherDenied, p.Parsed := by
    simp only [partsOfSeven, List.forall_mem_cons]
    exact ⟨⟨_, _, accepted, rfl⟩, trivial, by simp⟩
  have wanted : ∀ p ∈ partsOfSeven eitherDenied, p.clause.negative = false := by
    simp only [partsOfSeven, List.forall_mem_cons]
    exact ⟨rfl, rfl, by simp⟩
  refine ⟨rfl, parsed, ?_⟩
  obtain ⟨-, ⟨none, -⟩ | ⟨text, whole, written, reads, means⟩⟩ :=
    filterClause_means (ofSeven eitherDenied) rfl parsed
  · exact absurd none (by simp [partsOfSeven])
  · exact ⟨text, whole, written, reads, fun v => (means v).trans (and_iff_left (.inr wanted))⟩

/-- `a <> 'x'` -/
def oneDenied : Condition :=
  .compare "a" .ne (.text "x")

/-- Document 7 has another value in its field, so both filters match it; their clause does not. -/
theorem filterClause_misses :
    Select.ofText? " select * from 'docs' where `a` <> 'x'" = .ok (filtered oneDenied) ∧
      (ofSeven oneDenied).filterClause = some "(-a:\"x\") AND (_docid_:(7))" ∧
      ∃ whole v, Reads "(-a:\"x\") AND (_docid_:(7))".toList
          ((partsOfSeven oneDenied).flatMap Part.atoms) whole ∧
        (∀ p ∈ partsOfSeven oneDenied, Reads p.text.toList p.atoms p.row ∧ p.row.holds v) ∧
        whole.holds v = false := by
  have formed : oneDenied.WellFormed := by
    simp [oneDenied, Condition.WellFormed, Condition.Formed, Condition.Spelled, IsName, backtick,
      Literal.WellFormed]
  have accepted : Select.ofText? " select * from 'docs' where `a` <> 'x'" =
      .ok (filtered oneDenied) := ofText?_filtered formed (by decide +kernel)
  have parsed : ∀ p ∈ partsOfSeven oneDenied, p.Parsed := by
    simp only [partsOfSeven, List.forall_mem_cons]
    exact ⟨⟨_, _, accepted, rfl⟩, trivial, by simp⟩
  have matched : ∀ p ∈ partsOfSeven oneDenied, p.row.holds fun a => a ≠ "a:\"x\"".toList := by
    simp only [partsOfSeven, List.forall_mem_cons]
    exact ⟨by decide, by decide, by simp⟩
  refine ⟨accepted, by decide +kernel, together (partsOfSeven oneDenied),
    fun a => a ≠ "a:\"x\"".toList, ?_, fun p hp => ⟨Part.reads (parsed p hp), matched p hp⟩,
    by decide⟩
  exact ⟨_, by decide +kernel, atomsIn_together parsed,
    read_tokens (together_sound parsed (by decide))⟩

end SearchSelect.Filter
