/-! Readers consume a text from the left. Sequencing is `do`, ordered choice is `<|>`, and a
reader that fails consumes nothing. `many` repeats a reader for as long as it succeeds and
moves on, and never gives back what it has read. -/

namespace SearchSelect.Text

abbrev Reader (α : Type) := StateT (List Char) Option α

variable {α β : Type}

def charIf (p : Char → Bool) : Reader Char
  | [] => none
  | c :: r => if p c then some (c, r) else none

def char (c : Char) : Reader Char :=
  charIf (· = c)

/-- The longest run of characters that satisfy `p`. -/
def run (p : Char → Bool) : Reader (List Char) := fun s =>
  some (s.takeWhile p, s.dropWhile p)

def run1 (p : Char → Bool) : Reader (List Char) := do
  let c ← charIf p
  let cs ← run p
  return c :: cs

def literal (w : List Char) : Reader Unit := fun s =>
  if w.isPrefixOf s then some ((), s.drop w.length) else none

def manyFrom (p : Reader α) (s : List Char) : List α × List Char :=
  match p s with
  | none => ([], s)
  | some (a, r) =>
    if r.length < s.length then
      let (as, t) := manyFrom p r
      (a :: as, t)
    else
      ([], s)
termination_by s.length

def many (p : Reader α) : Reader (List α) := fun s =>
  some (manyFrom p s)

/-- One or more items with `sep` between them. -/
def sepBy1 (sep : Reader β) (item : Reader α) : Reader (List α) := do
  let a ← item
  let as ← many (sep *> item)
  return a :: as

/-- What `p` reads, together with the text it consumed. -/
def withText (p : Reader α) : Reader (α × List Char) := fun s =>
  match p s with
  | none => none
  | some (a, r) => some ((a, s.take (s.length - r.length)), r)

def atEnd : Reader Unit
  | [] => some ((), [])
  | _ :: _ => none

def readAll? (p : Reader α) (s : List Char) : Option α :=
  ((p <* atEnd) s).map Prod.fst

end SearchSelect.Text
