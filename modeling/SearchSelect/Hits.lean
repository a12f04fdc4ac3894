import SearchSelect.DocId

/-! The hits of a vector search, nearest first. -/

namespace SearchSelect

open Number

def distanceField : String := "_vector_distance_"

/-- `rest` holds what is neither the internal id nor the score nor the distance. -/
structure Hit where
  id : String
  score : Binary
  distance : Binary
  rest : Doc

namespace Hit

def zero : Binary := binary64.round false 0 1

def measure (doc : Doc) (name : String) : Binary :=
  ((Keyed.get? doc name).bind Json.double?).getD zero

def isOwn (name : String) : Bool :=
  DocId.internalNames.contains name || name = "score" || name = distanceField

/-- A hit without any id has the id `0`. -/
def ofDoc (doc : Doc) : Hit :=
  ⟨(DocId.any? doc).getD "0", measure doc "score", measure doc distanceField,
    doc.filter fun m => !isOwn m.1⟩

def toJson (h : Hit) : Json :=
  .obj [("doc_id", .str h.id), ("score", .ofBinary h.score), ("distance", .ofBinary h.distance),
    ("metadata", .obj h.rest)]

end Hit

structure Hits where
  hits : List Hit
  total : Nat
  topK : UInt64
  millis : Option Nat

namespace Hits

/-- The documents of an answer as they stand; entries that are no objects are passed over. -/
def docsOf (answer : Json) : List Doc :=
  let docs := do
    let body ← answer.get? "response"
    let docs ← body.get? "docs"
    docs.items?
  (docs.getD []).filterMap Json.doc?

/-- Sections that are missing count as empty. -/
def ofAnswer (answer : Json) (topK : UInt64) : Hits :=
  let total := do
    let body ← answer.get? "response"
    let found ← body.get? "numFound"
    found.count?
  let millis := do
    let header ← answer.get? "responseHeader"
    let time ← header.get? "QTime"
    time.count?
  ⟨(docsOf answer).map Hit.ofDoc, total.getD 0, topK, millis⟩

def ids (h : Hits) : List String :=
  h.hits.map Hit.id

def toJson (h : Hits) : Json :=
  .obj [("results", .arr (h.hits.map Hit.toJson)),
    ("metadata", .obj
      [("total_found", .ofNat h.total), ("top_k", .ofNat h.topK.toNat),
        ("query_time_ms", (h.millis.map Json.ofNat).getD .null)])]

/-- The stored ids of the documents of an answer; documents without one are passed over. -/
def storedIds (answer : Json) : List String :=
  (docsOf answer).filterMap DocId.stored?

end Hits

end SearchSelect
