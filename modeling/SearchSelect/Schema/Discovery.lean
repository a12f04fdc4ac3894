import SearchSelect.Schema.Document
import SearchSelect.Schema.FieldSet
import SearchSelect.Text.Blank

/-! What the answers of the search engine say about the fields of a collection: from the whole
schema, from the listing of the fields, or from the field list that a probing request echoes. -/

namespace SearchSelect.Schema

open Text

/-- The searchable fields of a collection about which nothing is known. -/
def usualFields : List String := ["content", "title", textField]

/-- The fields that the schema itself declares indexed, and those it can sort by. -/
def Document.fieldSet (s : Document) : FieldSet :=
  let named := s.fields.filter fun f => f.name != ""
  let sortable := named.foldl
    (fun m f =>
      if f.hasDocValues || f.isStored then
        Keyed.insert m f.name
          (.bothWays ((SortType.ofTypeName? f.typeName).getD .text) .asc f.isIndexed)
      else m)
    []
  ⟨(named.filter Field.isIndexed).map Field.name, addPseudo sortable⟩

def Field.isTextual (f : Field) : Bool :=
  f.typeName = "text_general" || f.typeName = "string" || mentions f.typeName "text"

def Field.isSearchCandidate (f : Field) : Bool :=
  f.name != "" && (!startsUnderscore f.name || f.name = textField) && f.isTextual

/-- The given names, followed by the usual ones that are not among them. -/
def withUsual (names : List String) : List String :=
  names ++ usualFields.filter fun n => !names.contains n

def searchableOfListing (fields : List Field) : List String :=
  withUsual ((fields.filter Field.isSearchCandidate).map Field.name)

/-- How a listed field is sorted by, if it can be. -/
def Field.sortInfo? (f : Field) : Option FieldInfo :=
  if f.name = "" || isHidden f.name || f.isMultiValued then none
  else
    (SortType.ofTypeName? f.typeName).map fun type =>
      .bothWays type type.defaultDirection true

def sortableOfListing (fields : List Field) : Keyed FieldInfo :=
  addPseudo <| fields.foldl
    (fun m f =>
      match f.sortInfo? with
      | some info => Keyed.insert m f.name info
      | none => m)
    []

/-- The entries of the echoed field list, which is one text or a list of texts. -/
def echoedFields (answer : Json) : List String :=
  let echoed := do
    let header ← answer.get? "responseHeader"
    let params ← header.get? "params"
    params.get? "fl"
  let lists :=
    match echoed with
    | some (.str s) => [s]
    | some (.arr items) => items.filterMap Json.text?
    | _ => []
  ((lists.flatMap fun l => (cutAt ',' l).map trimmed).filter fun n => n != "").eraseDups

end SearchSelect.Schema
