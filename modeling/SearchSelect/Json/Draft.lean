import SearchSelect.Json.Value
import SearchSelect.Text.Reader

/-! JSON text as read, before it is settled what the values mean. Members stand in their order
with repeated names kept, and a number or string that has no value (a number out of range, half
of a surrogate pair) stays in the draft as `none`. A draft becomes a `Json` when all of it has a
value. -/

namespace SearchSelect

open Text Number

inductive Draft where
  | null
  | bool (b : Bool)
  | num (n : Option Numeral)
  | str (s : Option String)
  | arr (items : List Draft)
  | obj (members : List (Option String × Draft))
  deriving Inhabited, Repr

namespace Draft

/-- A character, or one 16-bit unit written as an escape. -/
inductive Piece where
  | char (c : Char)
  | unit (n : Nat)

def hexValue? (c : Char) : Option Nat :=
  if '0' ≤ c ∧ c ≤ '9' then some (c.toNat - 48)
  else if 'a' ≤ c ∧ c ≤ 'f' then some (c.toNat - 87)
  else if 'A' ≤ c ∧ c ≤ 'F' then some (c.toNat - 55)
  else none

def hexUnit? (a b c d : Char) : Option Nat := do
  let a ← hexValue? a
  let b ← hexValue? b
  let c ← hexValue? c
  let d ← hexValue? d
  return ((a * 16 + b) * 16 + c) * 16 + d

def escaped? : Char → Option Char
  | '\x22' => some '\x22'
  | '\x5c' => some '\x5c'
  | '/' => some '/'
  | 'b' => some '\x08'
  | 'f' => some '\x0c'
  | 'n' => some '\n'
  | 'r' => some '\r'
  | 't' => some '\t'
  | _ => none

/-- The rest of a string after its opening quote. -/
def pieces : Reader (List Piece)
  | '\x22' :: r => some ([], r)
  | '\x5c' :: 'u' :: a :: b :: c :: d :: r => do
    let u ← hexUnit? a b c d
    let (ps, t) ← pieces r
    return (.unit u :: ps, t)
  | '\x5c' :: e :: r => do
    let c ← escaped? e
    let (ps, t) ← pieces r
    return (.char c :: ps, t)
  | c :: r => do
    guard (' ' ≤ c)
    let (ps, t) ← pieces r
    return (.char c :: ps, t)
  | [] => none

def isHigh (u : Nat) : Bool := 0xD800 ≤ u && u < 0xDC00

def isLow (u : Nat) : Bool := 0xDC00 ≤ u && u < 0xE000

/-- Two units of a surrogate pair are one character; a unit of a pair alone is none. -/
def characters? : List Piece → Option (List Char)
  | [] => some []
  | .char c :: ps => (c :: ·) <$> characters? ps
  | .unit u :: ps =>
    if isHigh u then
      match ps with
      | .unit v :: qs =>
        if isLow v then
          (Char.ofNat (0x10000 + (u - 0xD800) * 0x400 + (v - 0xDC00)) :: ·) <$> characters? qs
        else
          none
      | _ => none
    else if isLow u then none
    else (Char.ofNat u :: ·) <$> characters? ps

def string : Reader (Option String) := do
  let _ ← char '\x22'
  let ps ← pieces
  return (characters? ps).map String.ofList

def digitsValue (ds : List Char) : Nat :=
  ds.foldl (fun n d => n * 10 + (d.toNat - 48)) 0

def fraction : Reader (List Char) := do
  let _ ← char '.'
  run1 Char.isDigit

def power : Reader Int := do
  let _ ← charIf fun c => c = 'e' || c = 'E'
  let sign ← optional (charIf fun c => c = '+' || c = '-')
  let ds ← run1 Char.isDigit
  let n : Int := digitsValue ds
  return if sign = some '-' then -n else n

def wholePart : Reader (List Char) :=
  (fun _ => ['0']) <$> char '0' <|> run1 Char.isDigit

def double? (negative : Bool) (digits : Nat) (exponent : Int) : Option Numeral :=
  match binary64.ofDecimal negative digits exponent with
  | .finite s m e => some (.double (.finite s m e))
  | _ => none

/-- Minus zero and integers of more than 64 bits are doubles. -/
def integral? (negative : Bool) (n : Nat) : Option Numeral :=
  if negative then
    if 0 < n ∧ 2 * n ≤ UInt64.size then some (.int (-n)) else double? true n 0
  else
    if n < UInt64.size then some (.int n) else double? false n 0

def number : Reader (Option Numeral) := do
  let minus ← optional (char '-')
  let whole ← wholePart
  let places ← optional fraction
  let scale ← optional power
  let negative := minus.isSome
  match places, scale with
  | none, none => return integral? negative (digitsValue whole)
  | _, _ =>
    let places := places.getD []
    return double? negative (digitsValue (whole ++ places)) (scale.getD 0 - places.length)

def blanks : Reader Unit := fun s =>
  some ((), s.dropWhile fun c => c = ' ' || c = '\t' || c = '\n' || c = '\r')

def punct (c : Char) : Reader Unit := do
  let _ ← char c
  blanks

/-- A value nested at most `depth` deep, with the blanks after it. -/
def value : Nat → Reader Draft
  | 0 => failure
  | depth + 1 => do
    let member : Reader (Option String × Draft) := do
      let name ← string <* blanks
      punct ':'
      let d ← value depth
      return (name, d)
    let list : Reader Draft := do
      punct '['
      (punct ']' *> pure (arr [])) <|> (arr <$> (sepBy1 (punct ',') (value depth) <* punct ']'))
    let record : Reader Draft := do
      punct '\x7b'
      (punct '\x7d' *> pure (obj [])) <|> (obj <$> (sepBy1 (punct ',') member <* punct '\x7d'))
    let word (w : String) (d : Draft) : Reader Draft :=
      literal w.toList *> pure d
    (word "null" null <|> word "true" (bool true) <|> word "false" (bool false) <|>
      str <$> string <|> num <$> number <|> list <|> record) <* blanks

def ofText? (s : List Char) : Option Draft :=
  readAll? (blanks *> value (s.length + 1)) s

mutual

/-- Of two members with one name the later one stays. -/
def value? : Draft → Option Json
  | null => some .null
  | bool b => some (.bool b)
  | num n => Json.num <$> n
  | str s => Json.str <$> s
  | arr items => Json.arr <$> values? items
  | obj members => Json.obj <$> Keyed.ofList <$> members? members

def values? : List Draft → Option (List Json)
  | [] => some []
  | d :: ds => do
    let j ← value? d
    let js ← values? ds
    return j :: js

def members? : List (Option String × Draft) → Option (List (String × Json))
  | [] => some []
  | (k, d) :: ms => do
    let k ← k
    let j ← value? d
    let js ← members? ms
    return (k, j) :: js

end

end Draft

namespace Json

def ofText? (s : String) : Option Json :=
  (Draft.ofText? s.toList).bind Draft.value?

mutual

/-- A value as the draft that means it. -/
def draft : Json → Draft
  | null => .null
  | bool b => .bool b
  | num n => .num (some n)
  | str s => .str (some s)
  | arr items => .arr (drafts items)
  | obj members => .obj (memberDrafts members)

def drafts : List Json → List Draft
  | [] => []
  | j :: js => draft j :: drafts js

def memberDrafts : List (String × Json) → List (Option String × Draft)
  | [] => []
  | (k, j) :: ms => (some k, draft j) :: memberDrafts ms

end

end Json

end SearchSelect
