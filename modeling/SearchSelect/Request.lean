import SearchSelect.Filter.Clause
import SearchSelect.Json.Record
import SearchSelect.Sql.Form

/-! Requests to the search engine, and the request that answers a statement. -/

namespace SearchSelect

open Sql Text

/-- A main query, filters that all have to hold, the fields to return (all stored ones when
absent), the order, and the window of hits. -/
@[ext]
structure Request where
  query : String
  filters : List String
  fields : Option String
  sort : Option String
  rows : Option UInt64
  start : Option UInt64
  deriving DecidableEq, Repr

namespace Request

def everything : String := "*:*"

/-- All documents, unfiltered and unordered. -/
def all : Request := ⟨everything, [], none, none, none, none⟩

def addFilter (r : Request) (filter : String) : Request :=
  { r with filters := r.filters ++ [filter] }

/-- The filters as one clause. -/
def filterClause (r : Request) : Option String :=
  match r.filters with
  | [] => none
  | [f] => some f
  | fs => some (String.intercalate " AND " (fs.map fun f => "(" ++ f ++ ")"))

/-- Whether a name is among the entries of a field list. -/
def lists (fields name : String) : Bool :=
  (cutAt ',' fields).any fun entry => trimmed entry = name

/-- Pseudo-fields are only returned when they are named, so a name has to be added to the list of
all stored fields too. -/
def withName (fields : Option String) (name : String) : String :=
  match fields with
  | none => "*," ++ name
  | some fields =>
    if lists fields name then fields
    else if fields = "" then name
    else fields ++ "," ++ name

def ensureField (r : Request) (name : String) : Request :=
  { r with fields := some (withName r.fields name) }

def wordText (n : UInt64) : String :=
  String.ofList (Nat.toDigits 10 n.toNat)

def named (name : String) (value : Option String) : List (String × String) :=
  value.toList.map fun v => (name, v)

/-- Parameter names and values as they are sent; `fq` may be repeated. -/
def params (r : Request) : List (String × String) :=
  [("q", r.query)] ++ r.filters.map (fun f => ("fq", f)) ++ named "fl" r.fields ++
    named "sort" r.sort ++ named "rows" (r.rows.map wordText) ++
    named "start" (r.start.map wordText) ++ [("wt", "json")]

def param? (r : Request) (name : String) : Option String :=
  r.params.lookup name

def fieldEntry (c : Column) : String :=
  match c.label with
  | some label => label ++ ":" ++ c.source
  | none => c.source

def fieldList : Projection → Option String
  | .everything => none
  | .columns items => some (String.intercalate "," (items.map fieldEntry))

def sortEntry (k : SortKey) : String :=
  k.column ++ " " ++ k.effective.keyword

def sortClause : List SortKey → Option String
  | [] => none
  | keys => some (String.intercalate "," (keys.map sortEntry))

def ofSelect (s : Select) : Request :=
  ⟨everything, (s.condition.map Filter.ofCondition).toList, fieldList s.projection,
    sortClause s.order, s.limit, s.offset⟩

/-- The statement over the documents of a vector search. Without any document there is nothing to
restrict, and the offset is dropped. -/
def ofHits (s : Select) (ids : List String) : Request :=
  match ids with
  | [] => { ofSelect s with start := none }
  | ids => (ofSelect s).addFilter (Filter.ofDocIds ids)

def overHits (sql : String) (ids : List String) : Except Fault Request := do
  let q ← Query.ofText sql
  return ofHits q.statement ids

def toJson (r : Request) : Json :=
  .obj [("query", .str r.query), ("filter_queries", .ofTexts r.filters),
    ("field_list", .ofTextOption r.fields), ("sort", .ofTextOption r.sort),
    ("rows", .ofOption (r.rows.map Json.ofWord)), ("start", .ofOption (r.start.map Json.ofWord))]

open Draft in
def ofDraft? (d : Draft) : Option Request := do
  match ← d.slots? ["query", "filter_queries", "field_list", "sort", "rows", "start"] with
  | [query, filters, fields, sort, rows, start] =>
    return {
      query := ← orElse everything text? query
      filters := ← orElse [] (list? text?) filters
      fields := ← orElse none (nullable? text?) fields
      sort := ← orElse none (nullable? text?) sort
      rows := ← orElse none (nullable? word64?) rows
      start := ← orElse none (nullable? word64?) start }
  | _ => none

end Request

end SearchSelect
