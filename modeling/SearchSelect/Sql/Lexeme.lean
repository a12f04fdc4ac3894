import SearchSelect.Sql.Select
import SearchSelect.Text.Reader

/-! The words, names, numbers and strings a statement is made of. Each reader takes the blanks
in front of its lexeme. A word ends where the run of letters, digits and underscores ends, so a
keyword never ends inside a longer word, but it may be followed by a dot or a sign. -/

namespace SearchSelect.Sql

open Text

def isSpace (c : Char) : Bool :=
  c = ' ' || c = '\t' || c = '\r' || c = '\n'

def isWordChar (c : Char) : Bool :=
  c.isAlphanum || c = '_'

def keywords : List String :=
  ["select", "from", "where", "order", "by", "limit", "offset", "as", "and", "or", "not", "in",
    "is", "null", "like", "between", "asc", "desc", "true", "false"]

/-- The word at the head of a text, in lower case. -/
def headWord (s : List Char) : String :=
  String.ofList ((s.takeWhile isWordChar).map Char.toLower)

def startsWithKeyword (s : List Char) : Bool :=
  keywords.contains (headWord s)

variable {α : Type}

def skipSpace : Reader Unit := fun s =>
  some ((), s.dropWhile isSpace)

def lexeme (p : Reader α) : Reader α :=
  skipSpace *> p

def keyword (w : String) : Reader Unit := lexeme fun s =>
  if headWord s = w then some ((), s.dropWhile isWordChar) else none

def symbol (w : String) : Reader Unit :=
  lexeme (literal w.toList)

def notKeyword : Reader Unit := fun s =>
  if startsWithKeyword s then none else some ((), s)

def isNameStart (c : Char) : Bool :=
  c.isAlpha || c = '_'

def isNameChar (c : Char) : Bool :=
  isWordChar c || c = '.'

def isTableChar (c : Char) : Bool :=
  isWordChar c || c = '-' || c = '.'

def bareName : Reader String := do
  notKeyword
  let c ← charIf isNameStart
  let cs ← run isNameChar
  return String.ofList (c :: cs)

def backtick : Char := '\x60'

/-- Anything but a backtick may stand between backticks, and something must. -/
def quotedName : Reader String := do
  let _ ← char backtick
  let cs ← run1 fun c => c != backtick
  let _ ← char backtick
  return String.ofList cs

def name : Reader String :=
  lexeme (quotedName <|> bareName)

/-- The rest of a string after its opening quote. A doubled quote stands for one; two quotes are
taken together whenever they stand together, also at the end of the text. -/
def stringRest : Reader (List Char)
  | '\x27' :: '\x27' :: r => do
    let (cs, t) ← stringRest r
    return ('\x27' :: cs, t)
  | '\x27' :: r => some ([], r)
  | c :: r => do
    let (cs, t) ← stringRest r
    return (c :: cs, t)
  | [] => none

def string : Reader String := lexeme do
  let _ ← char '\x27'
  let cs ← stringRest
  return String.ofList cs

def digits : Reader (List Char) :=
  run1 Char.isDigit

def signIf (p : Char → Bool) : Reader (List Char) := fun
  | [] => some ([], [])
  | c :: r => if p c then some ([c], r) else some ([], c :: r)

def fraction : Reader (List Char) :=
  (do
    let _ ← char '.'
    let ds ← digits
    return '.' :: ds) <|> pure []

def exponent : Reader (List Char) :=
  (do
    let e ← charIf fun c => c = 'e' || c = 'E'
    let sign ← signIf fun c => c = '+' || c = '-'
    let ds ← digits
    return e :: (sign ++ ds)) <|> pure []

/-- A fraction or an exponent that is not complete is left to what follows. -/
def number : Reader String := lexeme do
  let sign ← signIf (· = '-')
  let whole ← digits
  let places ← fraction
  let power ← exponent
  return String.ofList (sign ++ whole ++ places ++ power)

def integer : Reader (List Char) :=
  lexeme digits

def tableName : Reader String :=
  lexeme quotedName <|> string <|> lexeme do
    notKeyword
    let cs ← run1 isTableChar
    return String.ofList cs

end SearchSelect.Sql
