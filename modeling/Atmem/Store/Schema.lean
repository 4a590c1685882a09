import Atmem.Common.Table
import Atmem.Contracts.Codec
import Atmem.Core.Time
/-!
# The tables of governed task state

The rows of the tables task state lives in, with the constraints the
schema puts on them: the primary keys and unique indexes are the `clash`
of a table, and a row of a child table is refused where its task is not
there. A snapshot column holds the snapshot itself, a timestamp column
the instant it was written from; a random identifier nothing reads is
left out.
-/

namespace Atmem

open Relational

/-- A row of `governed_tasks`. -/
structure TaskRow where
  taskId : String
  subjectId : String
  agentId : String
  workspaceId : String
  profileId : String
  profileVersion : String
  goal : String
  lifecycle : TaskLifecycle
  headRevision : ℕ
  policyGeneration : ℕ := 1
  createdAtUtc : Instant
  updatedAtUtc : Instant
  lastProgressAtUtc : Instant
  pausedAtUtc : Option Instant := none
  noProgressPausedMs : ℕ := 0
  expiryRule : ExpiryPolicy
  clockSource : String
  terminalReason : Option String := none
  continuesTaskId : Option String
  idempotencyKey : String
deriving DecidableEq

/-- A row of `governed_task_revisions`. -/
structure RevisionRow where
  taskId : String
  revision : ℕ
  parentRevision : Option ℕ
  state : TaskState
  stateSha256 : String
  semanticSha256 : String
  actor : String
  actorRole : ActorRole
  reasonCodes : List ReasonCode
  evidence : List Json
  createdAtUtc : Instant
  isProgress : Bool
deriving DecidableEq

/-- A row of `governed_task_provenance`. -/
structure ProvenanceRow where
  taskId : String
  revision : ℕ
  targetKind : String
  targetId : String
  actor : String
  actorRole : ActorRole
  method : String
  assurance : Assurance
  interpreter : Option String := none
  evidence : List Json := []
  observedAtUtc : Instant
  supersededRevision : Option ℕ := none
deriving DecidableEq

/-- A row of `governed_task_proposals`. -/
structure ProposalRow where
  proposalId : String
  taskId : String
  subjectId : String
  agentId : String
  workspaceId : String
  idempotencyKey : String
  payloadSha256 : String
  baseRevision : ℕ
  actor : String
  actorRole : ActorRole
  proposal : Json
  decision : Json
  outcome : StepOutcome
  resultingRevision : Option ℕ
  createdAtUtc : Instant
deriving DecidableEq

/-- A row of `governed_task_steps`. -/
structure StepRow where
  taskId : String
  stepKind : String
  outcome : StepOutcome
  proposalId : Option String := none
  baseRevision : ℕ
  resultingRevision : Option ℕ := none
  reasonCodes : List ReasonCode := []
  actionFingerprint : Option String := none
  actor : String
  durationMs : ℕ := 0
  recordedAtUtc : Instant
  sequence : ℕ
deriving DecidableEq

/-- A row of `governed_task_profiles`: `version` and `profile_id` are
columns of the profile that is stored. -/
structure ProfileRow where
  digest : String
  profile : TaskProfile
  actor : String
  registeredAt : Instant
deriving DecidableEq

/-- The primary key of the profiles. -/
def ProfileRow.version (r : ProfileRow) : String := r.profile.val.version

/-- A row of `governed_task_session_bindings`. -/
structure SessionBindingRow where
  bindingId : String
  subjectId : String
  agentId : String
  workspaceId : String
  hostType : String
  sessionKey : String
  sessionEpoch : String
  taskId : String
  actor : String
  reason : String
  source : String
  evidence : List Json
  registeredAtUtc : Instant
  expiresAtUtc : Option Instant
  revokedAtUtc : Option Instant := none
  revokedBy : Option String := none
  revokedReason : Option String := none
deriving DecidableEq

/-- An event of `audit_log`, as `list_audit_events` reads it. -/
structure AuditEvent where
  subjectId : String
  eventType : String
  actor : String
  payload : Json
deriving DecidableEq

/-! ## Keys -/

/-- The keyed columns of a task: the primary key, and the scope with the
idempotency key. -/
def TaskRow.key (r : TaskRow) : String × String × String × String × String :=
  (r.taskId, r.subjectId, r.agentId, r.workspaceId, r.idempotencyKey)

/-- `PRIMARY KEY (task_id)`, `UNIQUE (scope, idempotency_key)`. -/
def taskClash (a b : String × String × String × String × String) : Bool := eitherClash a b

/-- The columns that the unique constraints of the revisions are about. -/
def RevisionRow.key (r : RevisionRow) : String × ℕ × Option ℕ :=
  (r.taskId, r.revision, r.parentRevision)

/-- `PRIMARY KEY (task_id, revision)`, and one successor to each parent
that is there. -/
def revisionClash (a b : String × ℕ × Option ℕ) : Bool :=
  a.1 = b.1 && (a.2.1 = b.2.1 || (a.2.2 = b.2.2 && a.2.2.isSome))

/-- The columns that the unique constraints of the proposals are about. -/
def ProposalRow.key (r : ProposalRow) : String × String × String :=
  (r.proposalId, r.taskId, r.idempotencyKey)

/-- `PRIMARY KEY (proposal_id)`, `UNIQUE (task_id, idempotency_key)`. -/
def proposalClash (a b : String × String × String) : Bool := eitherClash a b

/-- `tasks`. -/
abbrev TaskTable := Table TaskRow TaskRow.key taskClash

/-- `task_revisions`. -/
abbrev RevisionTable := Table RevisionRow RevisionRow.key revisionClash

/-- `task_proposals`. -/
abbrev ProposalTable := Table ProposalRow ProposalRow.key proposalClash

/-- The store, as far as task state reaches. -/
structure Store where
  tasks : TaskTable := .empty
  revisions : RevisionTable := .empty
  provenance : List ProvenanceRow := []
  proposals : ProposalTable := .empty
  steps : List StepRow := []
  profiles : List ProfileRow := []
  sessionBindings : List SessionBindingRow := []
  auditEvents : List AuditEvent := []

/-! ## Reads -/

namespace Store

variable (s : Store)

/-- `get_task`: one task, and only within its exact authority scope. -/
def getTask (scope : AuthorityScope) (taskId : String) : Option TaskRow :=
  s.tasks.rows.find? fun r => r.taskId = taskId ∧ r.subjectId = scope.val.subjectId ∧
    r.agentId = scope.val.agentId ∧ r.workspaceId = scope.val.workspaceId

/-- `find_task_by_idempotency_key`. -/
def findTaskByIdempotencyKey (scope : AuthorityScope) (idempotencyKey : String) :
    Option TaskRow :=
  s.tasks.rows.find? fun r => r.subjectId = scope.val.subjectId ∧
    r.agentId = scope.val.agentId ∧ r.workspaceId = scope.val.workspaceId ∧
    r.idempotencyKey = idempotencyKey

/-- `get_task_revision`. -/
def getTaskRevision (taskId : String) (revision : ℕ) : Option RevisionRow :=
  s.revisions.rows.find? fun r => r.taskId = taskId ∧ r.revision = revision

/-- `list_task_revisions`, in the order they were committed. -/
def listTaskRevisions (taskId : String) (limit : Int) : List RevisionRow :=
  ((s.revisions.rows.filter fun r => r.taskId = taskId).mergeSort
    fun a b => a.revision ≤ b.revision).take (max 1 (min limit 1000)).toNat

/-- `find_task_proposal`. -/
def findTaskProposal (taskId idempotencyKey : String) : Option ProposalRow :=
  s.proposals.rows.find? fun r => r.taskId = taskId ∧ r.idempotencyKey = idempotencyKey

/-- `get_task_profile`. -/
def getTaskProfile (version : String) : Option ProfileRow :=
  s.profiles.find? fun r => r.version = version

/-- `ORDER BY created_at_utc ASC, task_id ASC`, on the text of the
columns. -/
def listingLe (a b : TaskRow) : Bool :=
  toIso a.createdAtUtc < toIso b.createdAtUtc ||
    (toIso a.createdAtUtc = toIso b.createdAtUtc && a.taskId ≤ b.taskId)

/-- `cursor.split("|", 1)`, of a cursor that has no bar the cursor and
nothing. -/
def splitCursor (cursor : String) : String × String :=
  let cs := cursor.toList
  (String.ofList (cs.takeWhile (· ≠ '|')), String.ofList ((cs.dropWhile (· ≠ '|')).drop 1))

/-- `(created_at_utc, task_id) > (?, ?)`. -/
def afterCursor (cursor : String) (r : TaskRow) : Bool :=
  let c := splitCursor cursor
  c.1 < toIso r.createdAtUtc || (c.1 = toIso r.createdAtUtc && c.2 < r.taskId)

/-- `list_tasks`: deterministically ordered, cursor-paginated. -/
def listTasks (scope : Option AuthorityScope) (lifecycles : Option (List String))
    (cursor : Option String) (limit : Int) : List TaskRow :=
  ((s.tasks.rows.filter fun r =>
    (scope.all fun scope => r.subjectId = scope.val.subjectId && r.agentId = scope.val.agentId &&
      r.workspaceId = scope.val.workspaceId) &&
    (lifecycles.all fun values => values.isEmpty || value r.lifecycle ∈ values) &&
    (!truthy cursor || cursor.all fun c => afterCursor c r)).mergeSort listingLe).take
      (max 1 (min limit 500)).toNat

/-- `tasks_due_for_expiry_scan`: non-terminal tasks, oldest first. -/
def tasksDueForExpiryScan (limit : Int) : List TaskRow :=
  ((s.tasks.rows.filter fun r => r.lifecycle = .open || r.lifecycle = .paused).mergeSort
    listingLe).take (max 1 (min limit 1000)).toNat

/-- The next `sequence` of a task's steps. -/
def nextStepSequence (taskId : String) : ℕ :=
  ((s.steps.filter fun r => r.taskId = taskId).map (·.sequence)).foldl max 0 + 1

/-- `find_active_session_binding`: the exact-key lookup. -/
def findActiveSessionBinding (scope : AuthorityScope) (identity : HostSessionIdentity) :
    Option SessionBindingRow :=
  s.sessionBindings.find? fun r => r.subjectId = scope.val.subjectId ∧
    r.agentId = scope.val.agentId ∧ r.workspaceId = scope.val.workspaceId ∧
    r.hostType = identity.val.hostType ∧ r.sessionKey = identity.val.sessionKey ∧
    r.sessionEpoch = identity.val.sessionEpoch ∧ r.revokedAtUtc = none

/-- `find_active_bindings_for_session_key`, newest first. -/
def findActiveBindingsForSessionKey (scope : AuthorityScope) (identity : HostSessionIdentity) :
    List SessionBindingRow :=
  (s.sessionBindings.filter fun r => r.subjectId = scope.val.subjectId ∧
    r.agentId = scope.val.agentId ∧ r.workspaceId = scope.val.workspaceId ∧
    r.hostType = identity.val.hostType ∧ r.sessionKey = identity.val.sessionKey ∧
    r.revokedAtUtc = none).mergeSort fun a b => b.registeredAtUtc ≤ a.registeredAtUtc

/-- `list_audit_events`. -/
def listAuditEvents (subjectId : String) : List AuditEvent :=
  s.auditEvents.filter fun e => e.subjectId = subjectId

end Store

end Atmem
