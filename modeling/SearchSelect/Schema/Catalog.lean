import SearchSelect.Schema.Store

/-! What statements are checked against, without asking anyone: whether a collection is known, the
types of its fields, and what it can be sorted by. -/

namespace SearchSelect.Schema

structure Catalog (σ : Type) where
  checkCollection : String → Action σ Unit
  fieldTypes : String → Action σ (Keyed String)
  sortable : String → Action σ (Keyed FieldInfo)
  checkSort : String → List String → Action σ Unit

namespace Store

def knownCollection (collection : String) : Action Store Unit := do
  match Keyed.get? (← get).documents collection with
  | some _ => return ()
  | none => throw (.collectionUnknown collection)

def loadedDocument (collection : String) : Action Store Document := do
  match Keyed.get? (← get).documents collection with
  | some doc => return doc
  | none => throw (.schemaNotLoaded collection)

def knownTypes (collection : String) : Action Store (Keyed String) := do
  match Keyed.get? (← get).typeMaps collection with
  | some types => return types
  | none =>
    let doc ← loadedDocument collection
    keepTypeMap collection doc

def knownSortable (collection : String) : Action Store (Keyed FieldInfo) := do
  let doc ← loadedDocument collection
  return doc.fieldSet.sortable

def knownSort (collection : String) (fields : List String) : Action Store Unit := do
  Action.of (((← get).fieldSets.fieldSetD collection).checkSortable collection fields)

/-- What has been loaded so far. -/
def catalog : Catalog Store where
  checkCollection := knownCollection
  fieldTypes := knownTypes
  sortable := knownSortable
  checkSort := knownSort

end Store

end SearchSelect.Schema
