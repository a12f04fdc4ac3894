import SearchSelect.Action
import SearchSelect.Embedding
import SearchSelect.Hits
import SearchSelect.Request
import SearchSelect.Schema.Field

/-! Getting vectors for texts and searching for their nearest neighbours. -/

namespace SearchSelect

/-- The answer to the n-th request, sent to a collection. -/
abbrev Client := Nat → String → Request → Except Fault Json

/-- The requests sent so far and the settings that providers have been made for. -/
structure Traffic where
  requests : List (String × Request)
  made : List EmbeddingConfig

namespace Traffic

def none : Traffic := ⟨[], []⟩

def send (client : Client) (collection : String) (request : Request) : Action Traffic Json := do
  let t ← get
  set { t with requests := t.requests ++ [(collection, request)] }
  Action.of (client t.requests.length collection request)

def make (factory : ProviderFactory) (config : EmbeddingConfig) :
    Action Traffic (Except EmbeddingFault Provider) := do
  modify fun t => { t with made := t.made ++ [config] }
  return factory config

end Traffic

structure VectorSearch where
  provider : Option Provider
  factory : Option ProviderFactory
  embedding : EmbeddingConfig
  field : String
  defaultTopK : UInt64

namespace VectorSearch

def onField (field : String) : VectorSearch :=
  ⟨none, none, .default, field, 10⟩

def ofConfig (c : Config) : VectorSearch :=
  ⟨none, none, c.embedding, c.vectorField, c.defaultTopK⟩

/-- Overrides call for a provider of their own, which serves this one call. -/
def providerFor (v : VectorSearch) (overrides : EmbeddingOverrides) : Action Traffic Provider := do
  if overrides.isEmpty then
    match v.provider with
    | some p => return p
    | none => throw .noProvider
  else
    match v.factory with
    | none => throw .overridesNeedFactory
    | some factory =>
      match ← Traffic.make factory (v.embedding.merged overrides) with
      | .ok p => return p
      | .error e => throw (.embeddingFailed e)

def vectorOf (v : VectorSearch) (text : String) (overrides : EmbeddingOverrides) :
    Action Traffic QueryVector := do
  let p ← v.providerFor overrides
  match p.embed text with
  | .ok vector => return vector
  | .error e => throw (.embeddingFailed e)

def query (v : VectorSearch) (vector : QueryVector) (field : Option String)
    (topK : Option UInt64) : String :=
  knnQuery (field.getD v.field) topK vector

def fieldNames : String :=
  Schema.docIdField ++ "," ++ Schema.scoreField ++ "," ++ distanceField

def request (v : VectorSearch) (vector : QueryVector) (field : Option String)
    (topK : Option UInt64) (filter : Option String) : Request :=
  ⟨v.query vector field topK, filter.toList, some fieldNames, none, topK, none⟩

def search (v : VectorSearch) (client : Client) (collection : String) (vector : QueryVector)
    (field : Option String) (topK : Option UInt64) (filter : Option String) :
    Action Traffic Json :=
  (Traffic.send client collection (v.request vector field topK filter)).mapFault .searchFailed

end VectorSearch

end SearchSelect
