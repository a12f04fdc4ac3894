import SearchSelect.Json.Render
import SearchSelect.Schema.Form
import SearchSelect.Engine
import SearchSelect.Proofs.CombinedFilters
import SearchSelect.Proofs.DistinctFields
import SearchSelect.Proofs.EngineReports
import SearchSelect.Proofs.InternalNames
import SearchSelect.Proofs.LegalQueries
import SearchSelect.Proofs.Membership
import SearchSelect.Proofs.NamedHits
import SearchSelect.Proofs.RequestReading
import SearchSelect.Proofs.ReservedWords
import SearchSelect.Proofs.RetryAttempts
import SearchSelect.Proofs.SortForms
import SearchSelect.Proofs.Terms
import SearchSelect.Proofs.TextPhrases
import SearchSelect.Proofs.TrailingSemicolon
import SearchSelect.Proofs.TreeReading
import SearchSelect.Proofs.VectorPages
