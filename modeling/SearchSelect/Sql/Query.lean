import SearchSelect.Sql.Shorthand
import SearchSelect.Sql.Statement

/-! A query is a statement that names the collection it searches. Its text may use the shorthand
for equalities. -/

namespace SearchSelect.Sql

open Text

def expandShorthand (sql : String) : String :=
  String.ofList (Shorthand.expand sql.toList)

structure Query where
  statement : Select
  collection : String
  deriving Repr

namespace Query

def fields (q : Query) : List String :=
  q.statement.projection.shown

def sources (q : Query) : List String :=
  q.statement.projection.sources

def sortFields (q : Query) : List (String × Direction) :=
  q.statement.sortFields

def sortNames (q : Query) : List String :=
  q.sortFields.map Prod.fst

/-- Whether the first word, after any blanks, is `select`. -/
def startsWithSelect (s : List Char) : Bool :=
  let t := trimStart s
  (t.take 6).map Char.toLower = "select".toList && !(t.drop 6).head?.any isWordChar

def ofStatement (s : Select) : Except Fault Query :=
  match s.collection.map trimmed with
  | none => .error .fromMissing
  | some c => if c = "" then .error .fromBlank else .ok ⟨s, c⟩

def ofText (sql : String) : Except Fault Query := do
  let text := expandShorthand sql
  if startsWithSelect text.toList then
    ofStatement (← Select.ofText? text)
  else
    throw .notSelect

end Query

/-- The field names of a list such as `title asc, score`. -/
def sortNamesOf (sort : String) : List String :=
  (cutAt ',' sort).filterMap fun entry => (wordsOf entry).head?

end SearchSelect.Sql
