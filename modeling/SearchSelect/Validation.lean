import SearchSelect.Schema.Catalog
import SearchSelect.Sql.Query

/-! Checking queries and sort specifications against a catalog. Whatever goes wrong is a fault of
the query. -/

namespace SearchSelect.Validation

open Schema Sql Text

variable {σ : Type}

/-- A name that may be projected whatever the collection is. -/
def isUniversal (field : String) : Bool :=
  field = "*" || isPseudo field

def checkFields (cat : Catalog σ) (collection : String) (fields : List String) :
    Action σ Unit := do
  let types ← (cat.fieldTypes collection).mapFault .fieldsRefused
  match fields.find? fun f => !isUniversal f && !Keyed.contains types f with
  | some field => throw (.invalidField field)
  | none => return ()

def checkSortFields (cat : Catalog σ) (collection : String) (fields : List String) :
    Action σ Unit :=
  if fields = [] then return () else (cat.checkSort collection fields).mapFault .sortRefused

/-- A direction that is written must be one the field allows. -/
def sortDirection (info : FieldInfo) (field : String) : Option String → Except Fault Direction
  | none => .ok info.default
  | some word =>
    match Direction.ofText? word with
    | some d => if info.supports d then .ok d else .error (.badDirection word field)
    | none => .error (.badDirection word field)

def sortBy (cat : Catalog σ) (collection field : String) (word : Option String) :
    Action σ String := do
  let sortable ← (cat.sortable collection).mapFault .sortRefused
  match Keyed.get? sortable field with
  | none => throw (.notSortable field)
  | some info =>
    let direction ← Action.of (sortDirection info field word)
    return field ++ " " ++ direction.name

/-- A specification is a field and possibly a direction; in the normal form the direction is always
written. A blank specification is none. -/
def normalSort (cat : Catalog σ) (sort : Option String) (collection : String) :
    Action σ (Option String) := do
  match sort with
  | none => return none
  | some sort =>
    match wordsOf sort with
    | [] => return none
    | [field] => some <$> sortBy cat collection field none
    | [field, word] => some <$> sortBy cat collection field (some word)
    | _ => throw (.sortShape (trimmed sort))

/-- The query a text stands for, if the collection, the projected fields and the sort fields are
all known. -/
def checkedQuery (cat : Catalog σ) (sql : String) : Action σ Query := do
  let q ← Action.of (Query.ofText sql)
  (cat.checkCollection q.collection).mapFault .collectionRefused
  checkFields cat q.collection q.sources
  checkSortFields cat q.collection q.sortNames
  return q

end SearchSelect.Validation
