import SearchSelect.Fault
import SearchSelect.Keyed

/-! What can be sorted by: the simple types that fields are sorted as, the descriptor of a sortable
field, and the two pseudo-fields `score` and `_docid_`, which every collection can sort by. -/

namespace SearchSelect.Schema

def scoreField : String := "score"

def docIdField : String := "_docid_"

/-- The field that collects the text of other fields. -/
def textField : String := "_text_"

inductive SortType where
  | text
  | numeric
  | date
  | flag
  deriving DecidableEq, Repr

namespace SortType

def textNames : List String := ["string", "pstring"]

def numericNames : List String :=
  ["pint", "plong", "pfloat", "pdouble", "int", "long", "float", "double", "tint", "tlong",
    "tfloat", "tdouble"]

def dateNames : List String := ["pdate", "date", "tdate"]

/-- Types that are analysed, vectors and the like cannot be sorted by. -/
def ofTypeName? (typeName : String) : Option SortType :=
  if textNames.contains typeName then some text
  else if numericNames.contains typeName then some numeric
  else if dateNames.contains typeName then some date
  else if typeName = "boolean" then some flag
  else none

def defaultDirection : SortType → Direction
  | flag => .desc
  | text | numeric | date => .asc

end SortType

structure FieldInfo where
  type : SortType
  directions : List Direction
  default : Direction
  searchable : Bool
  warning : Option String
  deriving DecidableEq, Repr

namespace FieldInfo

/-- A descriptor allows some direction, and its default is one of those. -/
def make (type : SortType) (directions : List Direction) (default : Direction)
    (searchable : Bool) : Except Fault FieldInfo :=
  if directions = [] then .error .noDirections
  else if default ∈ directions then
    .ok ⟨type, directions.eraseDups, default, searchable, none⟩
  else .error (.defaultNotAllowed default)

def bothWays (type : SortType) (default : Direction) (searchable : Bool) : FieldInfo :=
  ⟨type, [.asc, .desc], default, searchable, none⟩

def withWarning (i : FieldInfo) (warning : String) : FieldInfo :=
  { i with warning := some warning }

def supports (i : FieldInfo) (d : Direction) : Bool :=
  i.directions.contains d

theorem supports_bothWays (type : SortType) (default : Direction) (searchable : Bool)
    (d : Direction) : (bothWays type default searchable).supports d := by
  cases d <;> rfl

def score : FieldInfo := bothWays .numeric .desc true

def docId : FieldInfo :=
  (bothWays .numeric .asc false).withWarning
    "_docid_ is an internal Lucene document ordinal, not a stable identifier"

end FieldInfo

def isPseudo (name : String) : Bool :=
  name = scoreField || name = docIdField

/-- The pseudo-fields stand in for fields of the same name. -/
def addPseudo (fields : Keyed FieldInfo) : Keyed FieldInfo :=
  (fields.insert scoreField .score).insert docIdField .docId

def startsUnderscore (name : String) : Bool :=
  name.toList.head? = some '_'

/-- Names with an underscore in front are internal, a few known ones apart. -/
def isHidden (name : String) : Bool :=
  startsUnderscore name && name != textField && !isPseudo name

end SearchSelect.Schema
