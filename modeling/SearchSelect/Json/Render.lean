import SearchSelect.Json.Value
import SearchSelect.Number.Decimal

/-! JSON values as text, without blanks. -/

namespace SearchSelect

open Number

def Numeral.text : Numeral → String
  | .int n => String.ofList (intText n)
  | .double x => String.ofList (documentLayout.text binary64 x)

namespace Json

def hexDigits4 (n : Nat) : List Char :=
  let ds := Nat.toDigits 16 n
  List.replicate (4 - ds.length) '0' ++ ds

/-- Control characters and the separators of lines and paragraphs are written as units. -/
def escapedChar (c : Char) : List Char :=
  if c = '\x22' then ['\x5c', '\x22']
  else if c = '\x5c' then ['\x5c', '\x5c']
  else if c < ' ' || c = '\u0085' || c = '\u2028' || c = '\u2029' then
    '\x5c' :: 'u' :: hexDigits4 c.toNat
  else [c]

def quoted (s : String) : String :=
  "\x22" ++ String.ofList (s.toList.flatMap escapedChar) ++ "\x22"

mutual

def render : Json → String
  | null => "null"
  | bool b => if b then "true" else "false"
  | num n => n.text
  | str s => quoted s
  | arr items => "[" ++ String.intercalate "," (renderItems items) ++ "]"
  | obj members => "\x7b" ++ String.intercalate "," (renderMembers members) ++ "\x7d"

def renderItems : List Json → List String
  | [] => []
  | j :: js => render j :: renderItems js

def renderMembers : List (String × Json) → List String
  | [] => []
  | (k, j) :: ms => (quoted k ++ ":" ++ render j) :: renderMembers ms

end

end Json

end SearchSelect
