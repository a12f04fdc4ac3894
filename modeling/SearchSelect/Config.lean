import SearchSelect.Fault
import SearchSelect.Json.Record
import SearchSelect.Text.Blank

/-! Settings: where the search engine and the embedding service are, which vector field is
searched, and the limits. Times are in seconds. -/

namespace SearchSelect

open Draft Text

structure EmbeddingConfig where
  model : String
  baseUrl : String
  timeout : UInt64
  retries : UInt32
  deriving DecidableEq, Repr

/-- Settings for one call; what is absent stays as it is. -/
structure EmbeddingOverrides where
  model : Option String
  baseUrl : Option String
  timeout : Option UInt64
  retries : Option UInt32
  deriving DecidableEq, Repr

namespace EmbeddingOverrides

def none : EmbeddingOverrides := ⟨.none, .none, .none, .none⟩

def isEmpty (o : EmbeddingOverrides) : Bool :=
  o.model.isNone && o.baseUrl.isNone && o.timeout.isNone && o.retries.isNone

def ofDraft? (d : Draft) : Option EmbeddingOverrides := do
  match ← d.slots? ["model", "base_url", "timeout_secs", "retries"] with
  | [model, baseUrl, timeout, retries] =>
    return {
      model := ← orElse .none (nullable? text?) model
      baseUrl := ← orElse .none (nullable? text?) baseUrl
      timeout := ← orElse .none (nullable? word64?) timeout
      retries := ← orElse .none (nullable? word32?) retries }
  | _ => .none

end EmbeddingOverrides

namespace EmbeddingConfig

def default : EmbeddingConfig :=
  ⟨"nomic-embed-text", "http://localhost:11434", 30, 3⟩

def merged (c : EmbeddingConfig) (o : EmbeddingOverrides) : EmbeddingConfig :=
  ⟨o.model.getD c.model, o.baseUrl.getD c.baseUrl, o.timeout.getD c.timeout,
    o.retries.getD c.retries⟩

/-- The number of components of the vectors a model makes. -/
def dimensions : Keyed Nat := [("nomic-embed-text", 768)]

def dimension (c : EmbeddingConfig) : Except EmbeddingFault Nat :=
  match dimensions.get? c.model with
  | some n => .ok n
  | none => .error (.unknownModel c.model)

def ofDraft? (d : Draft) : Option EmbeddingConfig := do
  match ← d.slots? ["model", "base_url", "timeout_secs", "retries"] with
  | [model, baseUrl, timeout, retries] =>
    return {
      model := ← orElse default.model text? model
      baseUrl := ← orElse default.baseUrl text? baseUrl
      timeout := ← orElse default.timeout word64? timeout
      retries := ← orElse default.retries word32? retries }
  | _ => none

def toJson (c : EmbeddingConfig) : Json :=
  .obj [("model", .str c.model), ("base_url", .str c.baseUrl),
    ("timeout_secs", .ofNat c.timeout.toNat), ("retries", .ofNat c.retries.toNat)]

theorem merged_none (c : EmbeddingConfig) : c.merged .none = c := rfl

end EmbeddingConfig

structure Config where
  baseUrl : String
  defaultCollection : Option String
  vectorField : String
  defaultTopK : UInt64
  connectionTimeout : UInt64
  fieldSetAge : UInt64
  embedding : EmbeddingConfig
  deriving DecidableEq, Repr

namespace Config

def default : Config :=
  ⟨"http://localhost:8983/solr", none, "embedding", 10, 10, 300, .default⟩

def check (c : Config) : Except Fault Unit :=
  if isBlankText c.baseUrl then .error .blankBaseUrl
  else if isBlankText c.vectorField then .error .blankVectorField
  else if c.defaultTopK = 0 then .error .zeroTopK
  else .ok ()

def checked (c : Config) : Except Fault Config := do
  c.check
  return c

def ofDraft? (d : Draft) : Option Config := do
  match ← d.slots? ["solr_base_url", "default_collection", "embedding_field", "default_top_k",
    "connection_timeout_secs", "field_cache_max_age_secs", "embedding"] with
  | [baseUrl, defaultCollection, vectorField, defaultTopK, connectionTimeout, fieldSetAge,
      embedding] =>
    return {
      baseUrl := ← orElse default.baseUrl text? baseUrl
      defaultCollection := ← orElse none (nullable? text?) defaultCollection
      vectorField := ← orElse default.vectorField text? vectorField
      defaultTopK := ← orElse default.defaultTopK word64? defaultTopK
      connectionTimeout := ← orElse default.connectionTimeout word64? connectionTimeout
      fieldSetAge := ← orElse default.fieldSetAge word64? fieldSetAge
      embedding := ← orElse .default EmbeddingConfig.ofDraft? embedding }
  | _ => none

/-- Settings that are not given take their defaults. -/
def ofText (json : String) : Except Fault Config :=
  match (Draft.ofText? json.toList).bind ofDraft? with
  | none => .error .json
  | some c => c.checked

/-- The base address without slashes at its end. -/
def address (c : Config) : String :=
  String.ofList (c.baseUrl.toList.reverse.dropWhile (· = '/')).reverse

/-- A collection that is named, if only blanks do not name one; otherwise the default one. -/
def collectionFor (c : Config) (named : Option String) : Except Fault String :=
  match (named.map trimmed).filter fun n => n != "" with
  | some n => .ok n
  | none =>
    match c.defaultCollection with
    | some n => .ok n
    | none => .error .noCollection

def toJson (c : Config) : Json :=
  .obj [("solr_base_url", .str c.baseUrl),
    ("default_collection", (c.defaultCollection.map Json.str).getD .null),
    ("embedding_field", .str c.vectorField), ("default_top_k", .ofNat c.defaultTopK.toNat),
    ("connection_timeout_secs", .ofNat c.connectionTimeout.toNat),
    ("field_cache_max_age_secs", .ofNat c.fieldSetAge.toNat),
    ("embedding", c.embedding.toJson)]

end Config

end SearchSelect
