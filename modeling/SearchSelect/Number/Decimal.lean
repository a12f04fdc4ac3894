import SearchSelect.Number.Shortest

/-! Numbers as text. A layout says which decimal exponents are written without an exponent mark
and how a tie between two shortest decimals is settled. -/

namespace SearchSelect.Number

structure Layout where
  tie : Tie
  plain : Int → Bool

/-- Digits with the point after the first `lead` of them; at least one digit stands on each side. -/
def pointed (digits : List Char) (lead : Int) : List Char :=
  if lead ≤ 0 then
    '0' :: '.' :: (List.replicate (-lead).toNat '0' ++ digits)
  else
    let whole := digits.take lead.toNat ++ List.replicate (lead.toNat - digits.length) '0'
    let rest := digits.drop lead.toNat
    whole ++ '.' :: (if rest.isEmpty then ['0'] else rest)

/-- One digit, the others after a point, and the exponent with its sign. -/
def scientific (digits : List Char) (exponent : Int) : List Char :=
  let sign := if exponent < 0 then '-' else '+'
  let lead := digits.take 1
  let rest := digits.drop 1
  lead ++ (if rest.isEmpty then [] else '.' :: rest) ++
    'e' :: sign :: Nat.toDigits 10 exponent.natAbs

def Layout.magnitude (l : Layout) (f : Format) (significand : Nat) (exponent : Int) : List Char :=
  let (n, place) := f.shortest l.tie significand exponent
  let digits := Nat.toDigits 10 n
  let lead : Int := digits.length + place
  if l.plain (lead - 1) then pointed digits lead else scientific digits (lead - 1)

def signed (negative : Bool) (s : List Char) : List Char :=
  if negative then '-' :: s else s

def Layout.text (l : Layout) (f : Format) : Binary → List Char
  | .finite negative m e => signed negative (l.magnitude f m e)
  | .infinite negative => signed negative ['i', 'n', 'f']
  | .nan => ['N', 'a', 'N']

def intText (n : Int) : List Char :=
  signed (n < 0) (Nat.toDigits 10 n.natAbs)

/-- Numbers of a document are written plainly for exponents from -5 to 15. -/
def documentLayout : Layout := ⟨.even, fun e => -5 ≤ e && e ≤ 15⟩

/-- Vector components never carry an exponent. -/
def componentLayout : Layout := ⟨.larger, fun _ => true⟩

def Binary.isWhole : Binary → Bool
  | .finite _ m e => 0 ≤ e || m % Nat.pow 2 (-e).toNat = 0
  | _ => false

/-- A whole component is written in full with one place, any other by its shortest digits. -/
def componentText (x : Binary) : List Char :=
  match x with
  | .finite negative m e =>
    if x.isWhole then
      let (num, den) := quotient m e
      signed negative (Nat.toDigits 10 (num / den) ++ ['.', '0'])
    else
      componentLayout.text binary32 x
  | _ => componentLayout.text binary32 x

end SearchSelect.Number
