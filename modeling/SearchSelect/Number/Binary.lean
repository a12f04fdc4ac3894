/-! Binary floating point numbers as a sign, a significand and an exponent, and rounding of a
quotient to the nearest of them. A half goes to the even neighbour, and what rounds past the
largest finite number is infinite. -/

namespace SearchSelect.Number

/-- A format with `precision` significant bits and exponents from `lowest` to `highest`. -/
structure Format where
  precision : Nat
  lowest : Int
  highest : Int
  deriving DecidableEq, Repr

def binary64 : Format := ⟨53, -1074, 971⟩

def binary32 : Format := ⟨24, -149, 104⟩

/-- A finite number has the magnitude `significand * 2 ^ exponent`. -/
inductive Binary where
  | finite (negative : Bool) (significand : Nat) (exponent : Int)
  | infinite (negative : Bool)
  | nan
  deriving DecidableEq, Repr

/-- The magnitude `significand * 2 ^ exponent` as a quotient. -/
def quotient (significand : Nat) (exponent : Int) : Nat × Nat :=
  (significand * Nat.pow 2 exponent.toNat, Nat.pow 2 (-exponent).toNat)

def divEven (num den : Nat) : Nat :=
  let whole := num / den
  let rest := num % den
  if den < 2 * rest ∨ (2 * rest = den ∧ whole % 2 = 1) then whole + 1 else whole

/-- The exponent of the largest power of two that is at most `num / den`. -/
def floorLog2 (num den : Nat) : Int :=
  let e : Int := num.log2 - den.log2
  if num * Nat.pow 2 (-e).toNat < den * Nat.pow 2 e.toNat then e - 1 else e

def Format.round (f : Format) (negative : Bool) (num den : Nat) : Binary :=
  if num = 0 then
    .finite negative 0 f.lowest
  else
    let e := max f.lowest (floorLog2 num den - (f.precision - 1))
    let m := divEven (num * Nat.pow 2 (-e).toNat) (den * Nat.pow 2 e.toNat)
    if m < Nat.pow 2 f.precision then
      if f.highest < e then .infinite negative else .finite negative m e
    else
      if f.highest < e + 1 then .infinite negative else .finite negative (m / 2) (e + 1)

/-- The nearest number of another format. -/
def Binary.convert (f : Format) : Binary → Binary
  | .finite negative m e =>
    let (num, den) := quotient m e
    f.round negative num den
  | .infinite negative => .infinite negative
  | .nan => .nan

def Format.ofInt (f : Format) (n : Int) : Binary :=
  f.round (n < 0) n.natAbs 1

/-- The number nearest to `digits * 10 ^ exponent`. Powers far outside the format are decided
by the number of digits, so that no huge power is ever formed. -/
def Format.ofDecimal (f : Format) (negative : Bool) (digits : Nat) (exponent : Int) : Binary :=
  let places : Int := (Nat.toDigits 10 digits).length + exponent
  if digits = 0 ∨ places < f.lowest then
    f.round negative 0 1
  else if f.highest + f.precision < places then
    .infinite negative
  else
    f.round negative (digits * Nat.pow 10 exponent.toNat) (Nat.pow 10 (-exponent).toNat)

end SearchSelect.Number
