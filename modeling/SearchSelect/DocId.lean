import SearchSelect.Json.Render

/-! The ids of a document: the internal one, under any of its names, and the stored field `id`.
Only texts and numbers are ids. -/

namespace SearchSelect.DocId

/-- The names of the internal id, the most specific first. -/
def internalNames : List String := ["_docid_", "[docid]", "docid"]

def text? : Json → Option String
  | .str s => some s
  | .num n => some n.text
  | _ => none

/-- The id under the first of the names that has one. -/
def first? (names : List String) (doc : Doc) : Option String :=
  names.findSome? fun name => (Keyed.get? doc name).bind text?

def internal? (doc : Doc) : Option String :=
  first? internalNames doc

/-- The internal id, or else the stored one. -/
def any? (doc : Doc) : Option String :=
  (internal? doc).or (first? ["id"] doc)

/-- The stored id, or else the internal one. -/
def stored? (doc : Doc) : Option String :=
  first? ("id" :: internalNames) doc

end SearchSelect.DocId
