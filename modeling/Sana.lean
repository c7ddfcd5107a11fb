import Sana.Orchestration.Proof.FanIn
import Sana.Orchestration.Proof.Fence
import Sana.Orchestration.Proof.Events
import Sana.Orchestration.Proof.Settle
import Sana.Orchestration.Proof.Limits
import Sana.Orchestration.Proof.Usage
import Sana.Orchestration.Proof.Submission
import Sana.Orchestration.Proof.Stream
import Sana.Orchestration.Proof.Seal
import Sana.Orchestration.Proof.Recover
import Sana.Orchestration.Proof.Isolation
import Sana.Orchestration.Proof.LockOrder
import Sana.Orchestration.Proof.Confluence
import Sana.Orchestration.Proof.Aggregate
import Sana.Orchestration.Proof.Advance
import Sana.Orchestration.Proof.ReserveSubmissions
import Sana.Answer.Proof.Citations
import Sana.Answer.Proof.Conflict
import Sana.Answer.Proof.Complete
import Sana.Answer.Proof.Registry
import Sana.Answer.Proof.ClaimText
import Sana.Evidence.Proof.Offsets
import Sana.Planning.Proof.Queries
import Sana.Planning.Proof.Fallback
import Sana.Search.Proof.Merge
import Sana.Shadow.Proof.Ledger
import Sana.Shadow.Proof.Spend
import Sana.Shadow.Proof.Ceiling
import Sana.Shadow.Proof.Once
import Sana.Shadow.Proof.Lifecycle
import Sana.Shadow.Proof.Report
import Sana.Shadow.Proof.Settlement
import Sana.Shadow.Proof.Gate
import Sana.Shadow.Proof.Lease
import Sana.Shadow.Proof.Concurrency
import Sana.Shadow.Proof.Drain
import Sana.Shadow.Proof.Schedule
import Sana.Shadow.Proof.Builder
import Sana.Shadow.Proof.ManifestFile
import Sana.Shadow.Proof.Policy
import Sana.Shadow.Proof.Decision
import Sana.Shadow.Proof.Revalidation
import Sana.ModelGateway.Proof.Errors
import Sana.Shared.Proof.Limiters
import Sana.Discovery.Proof.Breaker
import Sana.Discovery.Proof.Providers
import Sana.Fetch.Proof.Redirects
import Sana.Migration.Proof.Idempotency
import Sana.Content.Proof.Chunker
import Sana.Content.Proof.Extractor
import Sana.Telemetry.Proof.Redaction
import Sana.Telemetry.Proof.PrivacyGuard
import Sana.Migration.Proof.UserProfile
import Sana.Storage.Proof.LocalArtifacts
import Sana.Evidence.Proof.VerifyArtifact
import Sana.Storage.Proof.Reports
