import SearchSelect.Fault
import SearchSelect.Json.Record

/-! The schema of a collection as the search engine reports it. -/

namespace SearchSelect.Schema

open Draft

structure Field where
  name : String
  type : Option String
  indexed : Option Bool
  stored : Option Bool
  docValues : Option Bool
  multiValued : Option Bool
  deriving DecidableEq, Repr

namespace Field

/-- Fields are indexed unless the schema says otherwise. -/
def isIndexed (f : Field) : Bool := f.indexed.getD true

def isStored (f : Field) : Bool := f.stored.getD false

def hasDocValues (f : Field) : Bool := f.docValues.getD false

def isMultiValued (f : Field) : Bool := f.multiValued.getD false

def typeName (f : Field) : String := f.type.getD ""

def ofDraft? (d : Draft) : Option Field := do
  match ← d.slots? ["name", "type", "indexed", "stored", "docValues", "multiValued"] with
  | [name, type, indexed, stored, docValues, multiValued] =>
    return {
      name := ← orElse "" text? name
      type := ← orElse none (nullable? text?) type
      indexed := ← orElse none (nullable? flag?) indexed
      stored := ← orElse none (nullable? flag?) stored
      docValues := ← orElse none (nullable? flag?) docValues
      multiValued := ← orElse none (nullable? flag?) multiValued }
  | _ => none

/-- An answer that lists no fields has none. -/
def listing (answer : Json) : Except Fault (List Field) :=
  match answer.get? "fields" with
  | none => .ok []
  | some fields =>
    match list? ofDraft? fields.draft with
    | some fields => .ok fields
    | none => .error .listingMalformed

end Field

structure TypeDef where
  name : String
  className : Option String
  deriving DecidableEq, Repr

def TypeDef.ofDraft? (d : Draft) : Option TypeDef := do
  match ← d.slots? ["name", "class"] with
  | [name, className] =>
    return ⟨← orElse "" text? name, ← orElse none (nullable? text?) className⟩
  | _ => none

/-- The text of `source` is copied into `dest`. -/
structure CopyRule where
  source : String
  dest : String
  deriving DecidableEq, Repr

def CopyRule.ofDraft? (d : Draft) : Option CopyRule := do
  match ← d.slots? ["source", "dest"] with
  | [source, dest] => return ⟨← required text? source, ← required text? dest⟩
  | _ => none

structure Document where
  name : Option String
  uniqueKey : Option String
  fields : List Field
  types : List TypeDef
  copies : List CopyRule
  deriving DecidableEq, Repr

namespace Document

def ofDraft? (d : Draft) : Option Document := do
  match ← d.slots? ["name", "uniqueKey", "fields", "fieldTypes", "copyFields"] with
  | [name, uniqueKey, fields, types, copies] =>
    return {
      name := ← orElse none (nullable? text?) name
      uniqueKey := ← orElse none (nullable? text?) uniqueKey
      fields := ← orElse [] (list? Field.ofDraft?) fields
      types := ← orElse [] (list? TypeDef.ofDraft?) types
      copies := ← orElse [] (list? CopyRule.ofDraft?) copies }
  | _ => none

def ofAnswer (answer : Json) (collection : String) : Except Fault Document :=
  match answer.get? "schema" with
  | none => .error (.schemaMissing collection)
  | some schema =>
    match ofDraft? schema.draft with
    | some doc => .ok doc
    | none => .error (.schemaMalformed collection)

/-- The type name of every field. A type name stands for itself unless a field has that name. -/
def typeMap (s : Document) : Keyed String :=
  let ofTypes := s.types.foldl
    (fun m t => if t.name = "" then m else Keyed.insert m t.name t.name) []
  s.fields.foldl
    (fun m f =>
      match f.type with
      | some type => if f.name = "" then m else Keyed.insert m f.name type
      | none => m)
    ofTypes

def field? (s : Document) (name : String) : Option Field :=
  s.fields.find? fun f => f.name = name

/-- The fields whose text is copied into `dest`, in the order of the rules. -/
def copySources (s : Document) (dest : String) : List String :=
  (s.copies.filter fun c => c.dest = dest).map CopyRule.source

/-- A named field together with the fields copied into it. -/
structure Listed where
  field : Field
  copiesFrom : List String
  deriving DecidableEq, Repr

def listed (s : Document) : List Listed :=
  (s.fields.filter fun f => f.name != "").map fun f => ⟨f, s.copySources f.name⟩

end Document

end SearchSelect.Schema
