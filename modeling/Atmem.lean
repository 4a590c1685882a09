import Atmem.Common.Program
import Atmem.Common.Interleaving
import Atmem.Common.Checked
import Atmem.Common.Table
import Atmem.Contracts.Json
import Atmem.Contracts.Vocabulary
import Atmem.Contracts.Records
import Atmem.Contracts.Codec
import Atmem.Common.Rounding
import Atmem.Core.Time
import Atmem.TaskState.Model.Items
import Atmem.TaskState.Model.Policy
import Atmem.Store.Schema
import Atmem.Store.Statements
import Atmem.TaskState.Model.Service
import Atmem.TaskState.Model.Calls
import Atmem.TaskState.Model.HostBoundary
import Atmem.TaskState.Helpers.Apply
import Atmem.TaskState.Properties.Policy
import Atmem.TaskState.Helpers.Cells
import Atmem.Common.Transaction
import Atmem.TaskState.Helpers.Statements
import Atmem.TaskState.Helpers.Transactions
import Atmem.TaskState.Helpers.Runs
import Atmem.TaskState.Helpers.Rules
import Atmem.TaskState.Helpers.Methods
import Atmem.TaskState.Helpers.Discipline
import Atmem.TaskState.Properties.Chain
import Atmem.TaskState.Properties.Terminal
import Atmem.TaskState.Properties.Gate
import Atmem.Common.Stopwatch
import Atmem.TaskState.Properties.NoProgress
import Atmem.TaskState.Helpers.Ledger
import Atmem.TaskState.Helpers.LedgerCalls
import Atmem.TaskState.Properties.IdleActions
import Atmem.TaskState.Helpers.Footprint
import Atmem.TaskState.Helpers.Recording
import Atmem.TaskState.Properties.Replay
import Atmem.Common.Occurrence
import Atmem.TaskState.Model.Context
import Atmem.TaskState.Properties.Fence
import Atmem.TaskState.Helpers.Ownership
import Atmem.TaskState.Properties.Isolation
import Atmem.Common.UnitOfWork
import Atmem.Store.WriteMethods
import Atmem.Store.Bindings
import Atmem.Common.HashChain
import Atmem.Contracts.CanonicalJson
import Atmem.Store.AuditLog
import Atmem.Store.AuditChain
import Atmem.Store.AuditVerification
import Atmem.Common.DerivedTable
import Atmem.Core.Policy
import Atmem.Extract.Models
import Atmem.Contracts.Memory
import Atmem.Memory.Model.Schema
import Atmem.Memory.Model.Statements
import Atmem.Memory.Model.Proposals
import Atmem.Memory.Model.Remember
import Atmem.Memory.Model.Extraction
import Atmem.Memory.Model.Proposers
import Atmem.Memory.Model.Review
import Atmem.Memory.Model.Calls
import Atmem.Memory.Helpers.Statements
import Atmem.Memory.Properties.Workspaces
import Atmem.Common.History
import Atmem.Memory.Model.Contexts
import Atmem.Memory.Properties.Exposure
import Atmem.Memory.Properties.Evidence
import Atmem.Control.Model.Store
import Atmem.Control.Model.Blackbox
import Atmem.Control.Helpers.Statements
import Atmem.Control.Properties.Chain
import Atmem.Control.Properties.Delivery
import Atmem.Control.Helpers.Acceptance
import Atmem.Control.Properties.Envelopes
import Atmem.Control.Model.FlightTools
import Atmem.Control.Model.FlightReport
import Atmem.Control.Model.Flight
import Atmem.Control.Helpers.Closure
import Atmem.Control.Properties.Verdicts
import Atmem.Memory.Helpers.Growth
import Atmem.Memory.Helpers.Preconditions
import Atmem.Memory.Properties.Replays
import Atmem.Memory.Properties.Submissions
import Atmem.Memory.Properties.Reviews
import Atmem.Contracts.CanonicalUnicode
import Atmem.Delegated.Model.Envelope
import Atmem.Delegated.Model.Turns
import Atmem.Delegated.Helpers.Authority
import Atmem.Delegated.Properties.Authority
import Atmem.Delegated.Model.Transport
import Atmem.Delegated.Properties.Requests
import Atmem.Evidence.Model.Vault
import Atmem.Evidence.Helpers.Sealed
import Atmem.Evidence.Helpers.Turning
import Atmem.Evidence.Properties.OneKey
import Atmem.Evidence.Properties.Rotation
import Atmem.Evidence.Model.Service
import Atmem.Evidence.Model.Transitions
import Atmem.Evidence.Helpers.Effects
import Atmem.Evidence.Properties.Scopes
import Atmem.Common.Constrained
import Atmem.Common.Pointers
import Atmem.Graph.Model.Tables
import Atmem.Graph.Model.Identity
import Atmem.Graph.Helpers.Constraints
import Atmem.Graph.Helpers.Identity
import Atmem.Graph.Helpers.Rollback
import Atmem.Graph.Properties.Repairs
import Atmem.Graph.Model.Index
import Atmem.Graph.Model.Merges
import Atmem.Graph.Helpers.Forest
import Atmem.Graph.Helpers.Tombstones
import Atmem.Graph.Helpers.Merges
import Atmem.Graph.Properties.Forest
import Atmem.Common.Lasting
import Atmem.Identity.Model.Service
import Atmem.Identity.Helpers.Documents
import Atmem.Identity.Helpers.Changes
import Atmem.Identity.Helpers.Alone
import Atmem.Identity.Properties.Sessions
import Atmem.TaskState.Model.Binding
import Atmem.TaskState.Helpers.Bindings
import Atmem.TaskState.Helpers.BindingCalls
import Atmem.TaskState.Properties.Bindings
import Atmem.ActionGuard.Model.Tools
import Atmem.ActionGuard.Model.Guard
import Atmem.ActionGuard.Helpers.Turns
import Atmem.ActionGuard.Properties.Verdict
import Atmem.Common.Leases
import Atmem.Continuity.Model.Workflows
import Atmem.Continuity.Model.Service
import Atmem.Continuity.Model.Calls
import Atmem.Continuity.Model.Events
import Atmem.Continuity.Helpers.Scans
import Atmem.Continuity.Helpers.Ledger
import Atmem.Continuity.Helpers.Steps
import Atmem.Continuity.Helpers.Effects
import Atmem.Continuity.Properties.Dispatch
import Atmem.TaskState.Helpers.Delta
import Atmem.TaskState.Helpers.Writes
import Atmem.TaskState.Properties.Frame
import Atmem.TaskState.Properties.Progress
import Atmem.TaskState.Properties.PhaseGate
import Atmem.TaskState.Helpers.Alone
import Atmem.TaskState.Model.Observability
import Atmem.TaskState.Properties.Audits
import Atmem.TaskState.Properties.Budget
import Atmem.Common.Paging
import Atmem.TaskState.Properties.Listing
import Atmem.TaskState.Properties.Conflicts
import Atmem.Contracts.Snapshots
import Atmem.TaskState.Properties.Snapshots
import Atmem.TaskState.Helpers.Retiring
import Atmem.TaskState.Properties.Expiry
import Atmem.TaskState.Properties.HostRequests
import Atmem.Contracts.SameValue
import Atmem.Delegated.Helpers.Closing
import Atmem.Delegated.Properties.Answers
import Atmem.Common.LookAhead
import Atmem.Store.AuditQuery
import Atmem.Common.Grouping
import Atmem.Common.Gaps
import Atmem.Execution.Model.Projection
import Atmem.Execution.Properties.RealGaps
import Atmem.Memory.Properties.Correction
import Atmem.Memory.Helpers.Consolidating
import Atmem.Memory.Properties.Consolidation
import Atmem.Common.Base64
import Atmem.Home.Model.Artifacts
import Atmem.Home.Helpers.Codec
import Atmem.Home.Properties.RoundTrips
import Atmem.Home.Model.Rotation
import Atmem.Home.Helpers.Swapping
import Atmem.Home.Properties.Rotation
import Atmem.Common.EditDistance
import Atmem.Retrieve.Model.Decision
import Atmem.Retrieve.Properties.TypoBudget
import Atmem.Retrieve.Properties.Priors
import Atmem.Common.Backtracking
import Atmem.ContextEngine.Model.Sentences
import Atmem.Common.Splitting
import Atmem.ContextEngine.Helpers.Sentences
import Atmem.ContextEngine.Properties.SentenceRanges
import Atmem.Code.Model.BundleTransport
import Atmem.Code.Helpers.Transport
import Atmem.Code.Properties.Splicing
import Atmem.Retrieve.Model.Sufficiency
import Atmem.Retrieve.Helpers.Tallying
import Atmem.Retrieve.Properties.Sufficiency
import Atmem.Core.IsoTime
import Atmem.Extract.Decoding
import Atmem.Extract.Identity
import Atmem.Common.FirstFit
import Atmem.Retrieve.Model.Assembly
import Atmem.Retrieve.Helpers.Choosing
import Atmem.Retrieve.Properties.Assembly
