import SearchSelect.Direction

/-! What can go wrong, as causes. A fault that another operation reports further on keeps the
fault it wraps. `kind` groups the causes, `message` gives the wording. -/

namespace SearchSelect

/-- Why text could not be embedded. -/
inductive EmbeddingFault where
  | generation (detail : String)
  | connection (detail : String)
  | settings (detail : String)
  | unknownModel (model : String)
  deriving DecidableEq, Repr

def EmbeddingFault.message : EmbeddingFault → String
  | generation detail => "embedding generation failed: " ++ detail
  | connection detail => "embedding service connection failed: " ++ detail
  | settings detail => "embedding configuration error: " ++ detail
  | unknownModel model =>
    "embedding configuration error: Unknown vector dimension for model '" ++ model ++ "'"

inductive Fault.Kind where
  | configuration
  | schema
  | query
  | engine
  | vectorOperation
  | transport
  | embedding
  | json
  deriving DecidableEq, Repr

inductive Fault where
  | blankBaseUrl
  | blankVectorField
  | zeroTopK
  | noCollection
  | noDirections
  | defaultNotAllowed (direction : Direction)
  | schemaMissing (collection : String)
  | schemaMalformed (collection : String)
  | listingMalformed
  | schemaUnavailable (collection : String) (cause : Fault)
  | fieldsUnavailable (cause : Fault)
  | fieldUntyped (field : String)
  | fieldUnknown (field collection : String)
  | sortUnknown (field collection : String)
  | collectionUnknown (collection : String)
  | schemaNotLoaded (collection : String)
  | fieldsUnknown (collection : String) (fields : List String)
  | fieldsUnsortable (collection : String) (fields : List String)
  | notSelect
  | badStatement
  | fromMissing
  | fromBlank
  | countTooLarge (clause digits : String)
  | nullComparison (text : String)
  | collectionRefused (cause : Fault)
  | fieldsRefused (cause : Fault)
  | sortRefused (cause : Fault)
  | invalidField (field : String)
  | sortShape (sort : String)
  | notSortable (field : String)
  | badDirection (word field : String)
  | windowTooLarge
  | answerUnrecognized
  | docValuesNeeded (report : String)
  | statementRefused (report : String)
  | executionFailed (report : String)
  | overridesNeedFactory
  | noProvider
  | embeddingFailed (cause : EmbeddingFault)
  | searchFailed (cause : Fault)
  | embedding (cause : EmbeddingFault)
  | json
  | reported (kind : Fault.Kind) (message : String)
  deriving DecidableEq, Repr

namespace Fault

def kind : Fault → Kind
  | blankBaseUrl | blankVectorField | zeroTopK | noCollection => .configuration
  | noDirections | defaultNotAllowed _ | schemaMissing _ | schemaMalformed _ | listingMalformed
  | schemaUnavailable .. | fieldsUnavailable _ | fieldUntyped _ | fieldUnknown .. | sortUnknown ..
  | collectionUnknown _ | schemaNotLoaded _ | fieldsUnknown .. | fieldsUnsortable .. => .schema
  | notSelect | badStatement | fromMissing | fromBlank | countTooLarge .. | nullComparison _
  | collectionRefused _ | fieldsRefused _ | sortRefused _ | invalidField _ | sortShape _
  | notSortable _ | badDirection .. | windowTooLarge | statementRefused _ => .query
  | answerUnrecognized | docValuesNeeded _ | executionFailed _ => .engine
  | overridesNeedFactory | noProvider | embeddingFailed _ | searchFailed _ => .vectorOperation
  | embedding _ => .embedding
  | json => .json
  | reported kind _ => kind

def message : Fault → String
  | blankBaseUrl => "solr_base_url must not be empty"
  | blankVectorField => "embedding_field must not be empty"
  | zeroTopK => "default_top_k must be > 0"
  | noCollection => "No collection specified and no default collection configured"
  | noDirections => "Sort directions must not be empty"
  | defaultNotAllowed direction =>
    "Default direction '" ++ direction.name ++ "' is not one of the allowed directions"
  | schemaMissing collection => "Invalid schema response for collection " ++ collection
  | schemaMalformed collection => "Malformed schema for collection " ++ collection
  | listingMalformed => "Malformed schema fields"
  | schemaUnavailable collection cause =>
    "Failed to get schema for collection " ++ collection ++ ": " ++ cause.message
  | fieldsUnavailable cause => "Failed to get field info: " ++ cause.message
  | fieldUntyped field => "Field not found: " ++ field
  | fieldUnknown field collection =>
    "Field " ++ field ++ " not found in collection " ++ collection
  | sortUnknown field collection =>
    "Field " ++ field ++ " is not sortable in collection " ++ collection
  | collectionUnknown collection => "Collection " ++ collection ++ " does not exist"
  | schemaNotLoaded collection => "Schema for collection " ++ collection ++ " is not loaded"
  | fieldsUnknown collection fields =>
    "Invalid fields for collection " ++ collection ++ ": " ++ String.intercalate ", " fields
  | fieldsUnsortable collection fields =>
    "Fields not sortable in collection " ++ collection ++ ": " ++ String.intercalate ", " fields
  | notSelect => "Only SELECT statements are supported"
  | badStatement => "Invalid SQL syntax"
  | fromMissing => "FROM clause is required"
  | fromBlank => "FROM clause must name a collection"
  | countTooLarge clause digits => "Invalid " ++ clause ++ " value '" ++ digits ++ "'"
  | nullComparison text => "Unsupported comparison with NULL in '" ++ text ++ "'"
  | collectionRefused cause => cause.message
  | fieldsRefused cause => "Field validation error: " ++ cause.message
  | sortRefused cause => "Sort field validation error: " ++ cause.message
  | invalidField field => "Invalid field '" ++ field ++ "'"
  | sortShape sort =>
    "Invalid sort format '" ++ sort ++ "'. Must be 'field' or 'field direction'"
  | notSortable field => "Field '" ++ field ++ "' is not sortable"
  | badDirection word field =>
    "Invalid sort direction '" ++ word ++ "' for field '" ++ field ++ "'"
  | windowTooLarge => "LIMIT + OFFSET too large"
  | answerUnrecognized => "Unrecognized response: expected 'response' or 'result-set'"
  | docValuesNeeded report =>
    "Field must have DocValues to be sorted or aggregated: " ++ report
  | statementRefused report => "SQL parse error: " ++ report
  | executionFailed report => "SQL execution error: " ++ report
  | overridesNeedFactory => "Error getting vector: overrides require a provider factory"
  | noProvider => "Error getting vector: no embedding provider configured"
  | embeddingFailed cause => "Error getting vector: " ++ cause.message
  | searchFailed cause => "Vector search failed: " ++ cause.message
  | embedding cause => cause.message
  | json => "the text is not the JSON that was expected"
  | reported _ message => message

/-- The message with its kind in front. -/
def display (f : Fault) : String :=
  match f.kind with
  | .configuration => "Configuration error: " ++ f.message
  | .schema => "Schema error: " ++ f.message
  | .query => "Query error: " ++ f.message
  | .engine => "Solr error: " ++ f.message
  | .vectorOperation => "Vector operation error: " ++ f.message
  | .transport => "HTTP error: " ++ f.message
  | .embedding => f.message
  | .json => "JSON error: " ++ f.message

/-- The code under which a caller finds the fault. -/
def code (f : Fault) : String :=
  match f.kind with
  | .configuration => "CONFIGURATION_ERROR"
  | .schema => "SCHEMA_ERROR"
  | .query => "QUERY_ERROR"
  | .engine | .vectorOperation | .transport => "SOLR_ERROR"
  | .embedding | .json => "INTERNAL_ERROR"

/-- Faults of the search engine, transport and vector search included. -/
def isEngine (f : Fault) : Bool :=
  f.kind = .engine || f.kind = .vectorOperation || f.kind = .transport

end Fault

end SearchSelect
