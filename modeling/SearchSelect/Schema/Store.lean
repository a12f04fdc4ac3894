import SearchSelect.Action
import SearchSelect.Schema.Discovery

/-! What is known of the collections: schema documents and type maps, kept until they are cleared,
and field sets, kept for a limited time. What is missing is asked of a source, whose answers may
depend on how often it has been asked before. -/

namespace SearchSelect.Schema

/-- The answer to the n-th question about a collection, for each kind of question: its schema, the
listing of its fields, and a probing request that echoes its parameters. -/
structure Source where
  schema : Nat → String → Except Fault Json
  listing : Nat → String → Except Fault Json
  probe : Nat → String → Except Fault Json

/-- How many questions of each kind have been asked. -/
structure Asked where
  schema : Nat
  listing : Nat
  probe : Nat
  deriving DecidableEq, Repr

structure Store where
  documents : Keyed Document
  typeMaps : Keyed (Keyed String)
  fieldSets : FieldCache
  asked : Asked
  /-- The age beyond which a field set is discovered anew. -/
  maxAge : Nat

namespace Store

/-- Five minutes in nanoseconds. -/
def defaultMaxAge : Nat := 300000000000

def empty (maxAge : Nat) : Store :=
  ⟨[], [], [], ⟨0, 0, 0⟩, maxAge⟩

def askSchema (src : Source) (collection : String) : Action Store Json := do
  let s ← get
  set { s with asked.schema := s.asked.schema + 1 }
  Action.of (src.schema s.asked.schema collection)

def askListing (src : Source) (collection : String) : Action Store Json := do
  let s ← get
  set { s with asked.listing := s.asked.listing + 1 }
  Action.of (src.listing s.asked.listing collection)

def askProbe (src : Source) (collection : String) : Action Store Json := do
  let s ← get
  set { s with asked.probe := s.asked.probe + 1 }
  Action.of (src.probe s.asked.probe collection)

def fetchDocument (src : Source) (collection : String) : Action Store Document := do
  let answer ← askSchema src collection
  Action.of (Document.ofAnswer answer collection)

/-- The schema of a collection. Only a schema that could be read is kept. -/
def document (src : Source) (collection : String) : Action Store Document := do
  match Keyed.get? (← get).documents collection with
  | some doc => return doc
  | none =>
    let doc ← (fetchDocument src collection).mapFault (.schemaUnavailable collection)
    modify fun s => { s with documents := Keyed.insert s.documents collection doc }
    return doc

def keepTypeMap (collection : String) (doc : Document) : Action Store (Keyed String) := do
  modify fun s => { s with typeMaps := Keyed.insert s.typeMaps collection doc.typeMap }
  return doc.typeMap

def typeMap (src : Source) (collection : String) : Action Store (Keyed String) := do
  match Keyed.get? (← get).typeMaps collection with
  | some types => return types
  | none =>
    let doc ← document src collection
    keepTypeMap collection doc

def fieldType (src : Source) (collection field : String) : Action Store String := do
  let types ← typeMap src collection
  match Keyed.get? types field with
  | some type => return type
  | none => throw (.fieldUntyped field)

/-- The field set that the schema itself declares. -/
def declared (src : Source) (collection : String) : Action Store FieldSet := do
  let doc ← (document src collection).mapFault .fieldsUnavailable
  return doc.fieldSet

def sortInfo (src : Source) (collection field : String) : Action Store FieldInfo := do
  let fields ← declared src collection
  match Keyed.get? fields.sortable field with
  | some info => return info
  | none => throw (.fieldUnknown field collection)

def checkField (src : Source) (field collection : String) : Action Store Unit := do
  if field = "*" then
    return ()
  let fields ← declared src collection
  if fields.searchable.contains field then return () else throw (.fieldUnknown field collection)

def checkSortField (src : Source) (field collection : String) : Action Store Unit := do
  let fields ← declared src collection
  if fields.isSortable field then return () else throw (.sortUnknown field collection)

def checkCollection (src : Source) (collection : String) : Action Store Unit := do
  let _ ← (document src collection).mapFault fun _ => .collectionUnknown collection
  return ()

def listFields (src : Source) (collection : String) : Action Store (List Document.Listed) := do
  let doc ← document src collection
  return doc.listed

/-- Forgets schemas and type maps, of one collection or of all. Field sets stay. -/
def forget (s : Store) : Option String → Store
  | some collection =>
    { s with
      documents := Keyed.erase s.documents collection
      typeMaps := Keyed.erase s.typeMaps collection }
  | none => { s with documents := [], typeMaps := [] }

def listing (src : Source) (collection : String) : Action Store (List Field) := do
  let answer ← askListing src collection
  Action.of (Field.listing answer)

/-- From the listing; failing that, from a probe; failing that, the usual fields. -/
def discoverSearchable (src : Source) (collection : String) : Action Store (List String) := do
  match ← (listing src collection).attempt with
  | .ok fields => return searchableOfListing fields
  | .error _ =>
    match ← (askProbe src collection).attempt with
    | .ok answer => return withUsual (echoedFields answer)
    | .error _ => return usualFields

/-- From the listing; failing that, the pseudo-fields if a probe is answered, else `score`. -/
def discoverSortable (src : Source) (collection : String) : Action Store (Keyed FieldInfo) := do
  match ← (listing src collection).attempt with
  | .ok fields => return sortableOfListing fields
  | .error _ =>
    match ← (askProbe src collection).attempt with
    | .ok _ => return addPseudo []
    | .error _ => return [(scoreField, .score)]

/-- The field set of a collection, discovered anew once the kept one is too old. -/
def fieldSet (src : Source) (now : Nat) (collection : String) : Action Store FieldSet := do
  let s ← get
  match s.fieldSets.fieldSet? collection, s.fieldSets.isStale collection s.maxAge now with
  | some fields, false => return fields
  | _, _ =>
    let searchable ← discoverSearchable src collection
    let sortable ← discoverSortable src collection
    let fields := FieldSet.make searchable sortable
    modify fun s => { s with fieldSets := s.fieldSets.store collection fields now }
    return fields

/-- Gets everything ready that statements over a collection are checked against. The field set is
brought up to date even if the schema cannot be had. -/
def load (src : Source) (now : Nat) (collection : String) : Action Store Unit := do
  let _ ← fieldSet src now collection
  let _ ← typeMap src collection
  return ()

def checkFields (src : Source) (now : Nat) (collection : String) (fields : List String) :
    Action Store Unit := do
  let known ← fieldSet src now collection
  Action.of (known.checkKnown collection fields)

def checkSortFields (src : Source) (now : Nat) (collection : String) (fields : List String) :
    Action Store Unit := do
  let known ← fieldSet src now collection
  Action.of (known.checkSortable collection fields)

end Store

end SearchSelect.Schema
