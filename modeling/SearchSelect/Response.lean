import SearchSelect.Fault
import SearchSelect.Json.Value
import SearchSelect.Text.Blank

/-! Answers of the search engine in one form. A select answers under `response`; the SQL handler
answers under `result-set`, where a document `EOF` marks the end and a document `EXCEPTION`
reports a failure. -/

namespace SearchSelect

open Number Text

/-- A text field holds one text or a list of texts. -/
inductive TextValue where
  | scalar (s : String)
  | repeated (ss : List String)
  deriving DecidableEq, Repr

namespace TextValue

def ofJson? : Json → Option TextValue
  | .str s => some (scalar s)
  | .arr items => repeated <$> items.mapM Json.text?
  | _ => none

/-- Of several texts the first. -/
def text? : TextValue → Option String
  | scalar s => some s
  | repeated ss => ss.head?

end TextValue

/-- The fields that are always returned as one text. -/
def displayFields : List String := ["title", "content"]

structure Response where
  numFound : Nat
  start : Nat
  maxScore : Option Binary
  docs : List Doc

namespace Response

def empty : Response := ⟨0, 0, none, []⟩

def flattenField (doc : Doc) (name : String) : Doc :=
  match ((Keyed.get? doc name).bind TextValue.ofJson?).bind TextValue.text? with
  | some text => Keyed.insert doc name (.str text)
  | none => doc

def flatten (doc : Doc) : Doc :=
  displayFields.foldl flattenField doc

/-- The documents of a body; entries that are no objects are passed over. -/
def docsOf (body : Json) : List Doc :=
  (((body.get? "docs").bind Json.items?).getD []).filterMap Json.doc? |>.map flatten

/-- The count of a body, or else the number of its documents. -/
def ofBody (body : Json) (docs : List Doc) : Response :=
  ⟨((body.get? "numFound").bind Json.count?).getD docs.length,
    ((body.get? "start").bind Json.count?).getD 0,
    (body.get? "maxScore").bind Json.double?,
    docs⟩

def exception? (doc : Doc) : Option String :=
  (Keyed.get? doc "EXCEPTION").bind Json.text?

/-- A report on missing DocValues is about the fields, one on parsing about the statement. -/
def faultOf (report : String) : Fault :=
  if mentions report "must have DocValues" then .docValuesNeeded report
  else if mentions report "parse failed:" then .statementRefused report
  else .executionFailed report

def ofResultSet (body : Json) : Except Fault Response :=
  let docs := docsOf body
  match docs.findSome? exception? with
  | some report => .error (faultOf report)
  | none => .ok (ofBody body (docs.filter fun d => !Keyed.contains d "EOF"))

def ofAnswer (answer : Json) : Except Fault Response :=
  match answer.get? "response" with
  | some body => .ok (ofBody body (docsOf body))
  | none =>
    match answer.get? "result-set" with
    | some body => ofResultSet body
    | none => .error .answerUnrecognized

/-- The place of a document in a ranking of keys; documents that are not ranked come last. -/
def place (ranking : List String) (key : Doc → Option String) (doc : Doc) : Nat :=
  match key doc with
  | some k => ranking.idxOf k
  | none => ranking.length

/-- Ranked documents come first, in the order of the ranking. Otherwise documents keep their
order. -/
def reorder (r : Response) (ranking : List String) (key : Doc → Option String) : Response :=
  { r with
    docs := r.docs.mergeSort fun a b => place ranking key a ≤ place ranking key b }

def toJson (r : Response) : Json :=
  .obj [("result-set", .obj
    ([("numFound", .ofNat r.numFound), ("start", .ofNat r.start),
      ("docs", .arr (r.docs.map .obj))] ++
      (r.maxScore.map fun x => ("maxScore", Json.ofBinary x)).toList))]

end Response

end SearchSelect
