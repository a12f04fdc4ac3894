import SearchSelect.Keyed
import SearchSelect.Number.Binary

/-! JSON values. A number written without fraction or exponent that fits 64 bits is an integer,
any other number is a double. The members of an object have distinct names. -/

namespace SearchSelect

open Number

inductive Numeral where
  | int (n : Int)
  | double (x : Binary)
  deriving DecidableEq, Repr

inductive Json where
  | null
  | bool (b : Bool)
  | num (n : Numeral)
  | str (s : String)
  | arr (items : List Json)
  | obj (members : List (String × Json))
  deriving Inhabited, Repr

/-- The members of one object. -/
abbrev Doc := Keyed Json

namespace Json

def get? : Json → String → Option Json
  | obj members, k => Keyed.get? members k
  | _, _ => none

def text? : Json → Option String
  | str s => some s
  | _ => none

def items? : Json → Option (List Json)
  | arr items => some items
  | _ => none

def doc? : Json → Option Doc
  | obj members => some members
  | _ => none

/-- Non-negative integers of 64 bits; a double is never a count. -/
def count? : Json → Option Nat
  | num (.int n) => if 0 ≤ n ∧ n.toNat < UInt64.size then some n.toNat else none
  | _ => none

def double? : Json → Option Binary
  | num (.int n) => some (binary64.ofInt n)
  | num (.double x) => some x
  | _ => none

def ofNat (n : Nat) : Json :=
  num (.int n)

def ofBinary (x : Binary) : Json :=
  num (.double x)

def ofTexts (texts : List String) : Json :=
  arr (texts.map str)

theorem text?_eq_some {j : Json} {s : String} : j.text? = some s ↔ j = str s := by
  cases j <;> simp [text?]

theorem items?_eq_some {j : Json} {items : List Json} : j.items? = some items ↔ j = arr items := by
  cases j <;> simp [items?]

theorem count?_ofNat (n : Nat) : count? (ofNat n) = if n < UInt64.size then some n else none := by
  simp [count?, ofNat]

theorem count?_lt {j : Json} {n : Nat} (h : j.count? = some n) : n < UInt64.size := by
  unfold count? at h
  split at h
  · split at h
    · next fits =>
      cases h
      exact fits.2
    · cases h
  · cases h

theorem doc?_eq_some {j : Json} {d : Doc} : j.doc? = some d ↔ j = obj d := by
  cases j <;> simp [doc?]

end Json

end SearchSelect
