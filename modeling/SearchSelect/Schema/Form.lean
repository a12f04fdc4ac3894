import SearchSelect.Schema.Document
import SearchSelect.Schema.FieldSet

/-! Field descriptors and schemas as JSON values. Attributes that a schema does not give are left
out. -/

namespace SearchSelect.Schema

def present (name : String) (j : Option Json) : Doc :=
  (j.map fun j => (name, j)).toList

def SortType.name : SortType → String
  | text => "string"
  | numeric => "numeric"
  | date => "date"
  | flag => "boolean"

def SortType.ofName? (s : String) : Option SortType :=
  [text, numeric, date, flag].find? fun t => t.name = s

namespace FieldInfo

def toJson (i : FieldInfo) : Json :=
  .obj ([("type", .str i.type.name), ("directions", .ofTexts (i.directions.map Direction.name)),
    ("default_direction", .str i.default.name), ("searchable", .bool i.searchable)] ++
    present "warning" (i.warning.map Json.str))

def sortType? (d : Draft) : Option SortType := d.tag? SortType.ofName?

def direction? (d : Draft) : Option Direction :=
  d.tag? fun s => [Direction.asc, .desc].find? fun e => e.name = s

open Draft in
def ofDraft? (d : Draft) : Option FieldInfo := do
  match ← d.slots? ["type", "directions", "default_direction", "searchable", "warning"] with
  | [type, directions, default, searchable, warning] =>
    return {
      type := ← required sortType? type
      directions := ← required (list? direction?) directions
      default := ← required direction? default
      searchable := ← required flag? searchable
      warning := ← orElse none (nullable? text?) warning }
  | _ => none

end FieldInfo

def sortableJson (m : Keyed FieldInfo) : Json :=
  .obj (m.map fun e => (e.1, e.2.toJson))

def FieldSet.toJson (s : FieldSet) : Json :=
  .obj [("searchable_fields", .ofTexts s.searchable), ("sortable_fields", sortableJson s.sortable)]

def typesJson (m : Keyed String) : Json :=
  .obj (m.map fun e => (e.1, .str e.2))

def Field.members (f : Field) : Doc :=
  [("name", .str f.name), ("type", (f.type.map Json.str).getD .null)] ++
    present "indexed" (f.indexed.map Json.bool) ++ present "stored" (f.stored.map Json.bool) ++
    present "docValues" (f.docValues.map Json.bool) ++
    present "multiValued" (f.multiValued.map Json.bool)

def Field.toJson (f : Field) : Json := .obj f.members

def TypeDef.toJson (t : TypeDef) : Json :=
  .obj ([("name", .str t.name)] ++ present "class" (t.className.map Json.str))

def CopyRule.toJson (c : CopyRule) : Json :=
  .obj [("source", .str c.source), ("dest", .str c.dest)]

namespace Document

def toJson (d : Document) : Json :=
  .obj (present "name" (d.name.map Json.str) ++ present "uniqueKey" (d.uniqueKey.map Json.str) ++
    [("fields", .arr (d.fields.map Field.toJson)), ("fieldTypes", .arr (d.types.map TypeDef.toJson)),
      ("copyFields", .arr (d.copies.map CopyRule.toJson))])

/-- A field with no sources is written like the field itself. -/
def Listed.toJson (l : Listed) : Json :=
  .obj (l.field.members ++
    if l.copiesFrom = [] then [] else [("copies_from", .ofTexts l.copiesFrom)])

def listedJson (ls : List Listed) : Json := .arr (ls.map Listed.toJson)

end Document

end SearchSelect.Schema
