import SearchSelect.Number.Binary

/-! The shortest decimal that reads back as a given binary number.
Decimals with `k` places after the point form a grid. On the coarsest grid that has a point
among the reals that round to the number, the point nearest to the number is taken. -/

namespace SearchSelect.Number

/-- Which of two equally near decimals is taken. -/
inductive Tie where
  | even
  | larger
  deriving DecidableEq, Repr

/-- The reals that round to `mid / den` lie between `low / den` and `high / den`; the ends count
if `closed`. -/
structure Interval where
  low : Nat
  mid : Nat
  high : Nat
  den : Nat
  closed : Bool

/-- Below a power of two the neighbours stand half as far apart as above it. -/
def Format.interval (f : Format) (significand : Nat) (exponent : Int) : Interval :=
  let gap := if significand = Nat.pow 2 (f.precision - 1) ∧ f.lowest < exponent then 1 else 2
  let up := Nat.pow 2 exponent.toNat
  ⟨(4 * significand - gap) * up, 4 * significand * up, (4 * significand + 2) * up,
    4 * Nat.pow 2 (-exponent).toNat, significand % 2 = 0⟩

def Interval.scale (i : Interval) (up down : Nat) : Interval :=
  ⟨i.low * up, i.mid * up, i.high * up, i.den * down, i.closed⟩

def Interval.holds (i : Interval) (n : Nat) : Bool :=
  if i.closed then i.low ≤ n * i.den && n * i.den ≤ i.high
  else i.low < n * i.den && n * i.den < i.high

/-- The whole number in the interval that is nearest to its middle, if there is one. -/
def Interval.nearest? (i : Interval) (tie : Tie) : Option Nat :=
  let below := i.mid / i.den
  let above := below + 1
  let past := i.mid % i.den
  match i.holds below, i.holds above with
  | false, false => none
  | true, false => some below
  | false, true => some above
  | true, true =>
    if 2 * past < i.den then some below
    else if i.den < 2 * past then some above
    else
      match tie with
      | .even => some (if below % 2 = 0 then below else above)
      | .larger => some above

/-- Searches the grids of spacing `10 ^ place`, from coarse to fine. -/
def Interval.search (i : Interval) (tie : Tie) : Nat → Int → Option (Nat × Int)
  | 0, _ => none
  | steps + 1, place =>
    match (i.scale (Nat.pow 10 (-place).toNat) (Nat.pow 10 place.toNat)).nearest? tie with
    | some digits => some (digits, place)
    | none => i.search tie steps (place - 1)

/-- Digits and the place of the last of them: the decimal is `digits * 10 ^ place`. -/
def Format.shortest (f : Format) (tie : Tie) (significand : Nat) (exponent : Int) : Nat × Int :=
  if significand = 0 then
    (0, 0)
  else
    let i := f.interval significand exponent
    let start : Int :=
      (Nat.toDigits 10 i.mid).length - (Nat.toDigits 10 i.den).length + 1
    (i.search tie (f.precision + 2) start).getD (0, 0)

end SearchSelect.Number
