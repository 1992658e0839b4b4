import Discovery.Catalog.Interleaving
import Discovery.Catalog.Session
import Discovery.Lookup.Script
import Discovery.Main
import Discovery.Query.Live
import Discovery.Proofs.Catalog.Content
import Discovery.Proofs.Catalog.Directory
import Discovery.Proofs.Catalog.Interleaving
import Discovery.Proofs.Catalog.Removal
import Discovery.Proofs.Catalog.Schedule
import Discovery.Proofs.Catalog.Sessions
import Discovery.Proofs.Catalog.Tokens
import Discovery.Proofs.Catalog.Wakeups
import Discovery.Proofs.Http.Answers
import Discovery.Proofs.Http.Precedence
import Discovery.Proofs.Http.Status
import Discovery.Proofs.Http.Timeout
import Discovery.Proofs.Lookup.Cancellation
import Discovery.Proofs.Lookup.Scope
import Discovery.Proofs.Query.Canonical
import Discovery.Proofs.Query.Faults
import Discovery.Proofs.Query.Grammar
import Discovery.Proofs.Query.Identity
import Discovery.Proofs.Query.Messages
import Discovery.Proofs.Service.Arrangement
import Discovery.Proofs.Service.Fingerprint
import Discovery.Proofs.Service.Tolerance
import Discovery.Proofs.Service.Wire
