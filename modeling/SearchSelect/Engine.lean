import SearchSelect.Response
import SearchSelect.Validation
import SearchSelect.VectorSearch

/-! Statements run against a search engine: by keywords alone, or over the nearest neighbours of a
vector. A statement over neighbours first searches for as many as the window reaches, then is
restricted to them; without an order of its own it keeps theirs, and the window is cut last. -/

namespace SearchSelect

open Schema Sql

/-- What an engine talks to, and the time at which it does. -/
structure World where
  source : Source
  client : Client
  now : Nat

structure Session where
  store : Store
  traffic : Traffic

namespace Session

variable {α : Type}

def onStore (a : Action Store α) : Action Session α :=
  a.onPart Session.store fun store s => { s with store }

def onTraffic (a : Action Traffic α) : Action Session α :=
  a.onPart Session.traffic fun traffic s => { s with traffic }

end Session

structure Engine where
  config : Config
  vectors : VectorSearch

namespace Engine

open Session

def make (config : Config) (vectors : VectorSearch) : Except Fault Engine := do
  config.check
  return ⟨config, vectors⟩

/-- A session in which nothing is known and nothing has been sent. -/
def start (e : Engine) : Session :=
  ⟨.empty (e.config.fieldSetAge.toNat * 1000000000), .none⟩

/-- Loads what the query of a text is checked against, and checks it. -/
def prepare (w : World) (sql : String) : Action Session Query := do
  let q ← Action.of (Query.ofText sql)
  onStore (Store.load w.source w.now q.collection)
  onStore (Validation.checkedQuery Store.catalog sql)

def ask (w : World) (collection : String) (request : Request) : Action Session Response := do
  let answer ← onTraffic (Traffic.send w.client collection request)
  Action.of (Response.ofAnswer answer)

def select (w : World) (sql : String) : Action Session Response := do
  let q ← prepare w sql
  ask w q.collection (Request.ofSelect q.statement)

def limit (e : Engine) (s : Select) : UInt64 :=
  s.limit.getD e.vectors.defaultTopK

def offset (s : Select) : UInt64 :=
  s.offset.getD 0

/-- The number of neighbours that the window reaches over. -/
def reach (e : Engine) (s : Select) : Except Fault UInt64 :=
  let n := (e.limit s).toNat + (offset s).toNat
  if n < UInt64.size then .ok (.ofNat n) else .error .windowTooLarge

/-- The statement over the neighbours found, with their ids returned, and without a window. -/
def neighbourRequest (s : Select) (ids : List String) : Request :=
  { (Request.ofHits s ids).ensureField docIdField with
    start := none
    rows := some (.ofNat ids.length) }

/-- The documents in the order they are returned in. -/
def ordered (s : Select) (ids : List String) (r : Response) : Response :=
  if s.order = [] then r.reorder ids DocId.internal? else r

/-- The part of a response that the window shows. -/
def window (e : Engine) (s : Select) (r : Response) : Response :=
  { r with
    numFound := r.docs.length
    start := (offset s).toNat
    docs := (r.docs.drop (offset s).toNat).take (e.limit s).toNat }

def vectorSelect (e : Engine) (w : World) (sql : String) (vector : QueryVector) :
    Action Session Response := do
  let q ← prepare w sql
  let topK ← Action.of (e.reach q.statement)
  let answer ← onTraffic (e.vectors.search w.client q.collection vector none (some topK) none)
  match (Hits.ofAnswer answer topK).ids with
  | [] => return .empty
  | ids =>
    let r ← ask w q.collection (neighbourRequest q.statement ids)
    return e.window q.statement (ordered q.statement ids r)

def semanticSelect (e : Engine) (w : World) (sql text : String) (overrides : EmbeddingOverrides) :
    Action Session Response := do
  let vector ← onTraffic (e.vectors.vectorOf text overrides)
  e.vectorSelect w sql vector

def listFields (e : Engine) (w : World) (collection : Option String) :
    Action Session (List Document.Listed) := do
  let collection ← Action.of (e.config.collectionFor collection)
  onStore (Store.listFields w.source collection)

def fieldSet (e : Engine) (w : World) (collection : Option String) : Action Session FieldSet := do
  let collection ← Action.of (e.config.collectionFor collection)
  onStore (Store.declared w.source collection)

end Engine

end SearchSelect
