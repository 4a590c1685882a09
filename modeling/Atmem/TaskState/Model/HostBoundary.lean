import Atmem.TaskState.Model.Service
/-!
# The host boundary

A typed delta submitted by a host passes four gates in a fixed order:
the scope is enabled, the conversation is bound to the task it names,
nothing operator-only is asked for, and only then the ordinary policy
runs. The proposal's identifiers are derived here from the adapter and
the key of the request. A request to pause, resume or complete the task
passes the same gates, and is then handed to the service under the host's
role.
-/

namespace Atmem

open Interleaving Checked

/-! ## Enablement -/

/-- Whether task state runs for a scope, and how far it may go. -/
structure ScopeMode where
  enabled : Bool
  shadow : Bool
deriving DecidableEq

/-- The event that turns a scope on. -/
def enabledEvent : String := "task_state.scope_enabled"

/-- The event that turns a scope off. -/
def disabledEvent : String := "task_state.scope_disabled"

/-- An event that sets the mode of a scope. -/
def setsMode (scope : AuthorityScope) (event : AuditEvent) : Bool :=
  (event.eventType = enabledEvent || event.eventType = disabledEvent) &&
    event.payload.get? "agent_id" = some (.str scope.val.agentId) &&
    event.payload.get? "workspace_id" = some (.str scope.val.workspaceId)

/-- The mode the latest event sets; absence means disabled. -/
def modeOf (scope : AuthorityScope) (events : List AuditEvent) : ScopeMode :=
  match (events.filter (setsMode scope)).getLast? with
  | none => ⟨false, false⟩
  | some latest =>
    if latest.eventType = disabledEvent then ⟨false, false⟩
    else ⟨true, (latest.payload.getOr "shadow" .null).truthy⟩

/-- `ScopeEnablement.mode`. -/
def scopeMode (scope : AuthorityScope) : Svc ScopeMode := do
  let events ← query .listAuditEvents (·.listAuditEvents scope.val.subjectId)
  pure (modeOf scope events)

/-! ## Session binding -/

/-- How the task of a call was arrived at. -/
inductive BindingResolution
  | explicit | bound | none | conflict | staleSession | ineligible
deriving DecidableEq

/-- The resolution names a task. -/
def BindingResolution.delivers : BindingResolution → Bool
  | .explicit | .bound => true
  | _ => false

/-- How a session was resolved to a task, or why not. -/
structure ResolvedTaskFields where
  resolution : BindingResolution
  taskId : Option String := none
  reasonCode : Option ReasonCode := none
  bindingId : Option String := none
deriving DecidableEq

/-- `ResolvedTask.__post_init__`. -/
def ResolvedTaskFields.postInit (f : ResolvedTaskFields) : Except String Unit := do
  ensure (f.resolution.delivers = true → truthy f.taskId = true)
    "a delivering resolution must name exactly one task"
  ensure (f.resolution.delivers = false → truthy f.taskId = false)
    "a withholding resolution must name no task"

/-- One task, or one reason there is none. -/
abbrev ResolvedTask := {f : ResolvedTaskFields // f.postInit = .ok ()}

/-- `_expired`: the supplemental lifetime of a binding. -/
def bindingExpired (row : SessionBindingRow) : Svc Bool :=
  match row.expiresAtUtc with
  | none => pure false
  | some expiresAt => do
    let now ← now
    pure (decide (expiresAt ≤ now))

/-- `_active_binding`. -/
def activeBinding (scope : AuthorityScope) (identity : HostSessionIdentity) :
    Svc (Option SessionBindingRow) := do
  match ← query .findActiveSessionBinding (·.findActiveSessionBinding scope identity) with
  | none => pure none
  | some row =>
    let expired ← bindingExpired row
    pure (if expired then none else some row)

/-- Some binding of the session is of another generation, or expired. -/
def anyStale (identity : HostSessionIdentity) : List SessionBindingRow → Svc Bool
  | [] => pure false
  | row :: rows =>
    if row.sessionEpoch ≠ identity.val.sessionEpoch then pure true
    else do
      let expired ← bindingExpired row
      if expired then pure true else anyStale identity rows

/-- `resolve` of a call that names no task itself. -/
def resolveBinding (scope : AuthorityScope) (identity : HostSessionIdentity) :
    Svc ResolvedTask := do
  match ← activeBinding scope identity with
  | some bound =>
    lift (Checked.make ResolvedTaskFields.postInit
      { resolution := .bound, taskId := some bound.taskId, bindingId := some bound.bindingId })
  | none =>
    let rows ← query .findActiveBindingsForSessionKey
      (·.findActiveBindingsForSessionKey scope identity)
    let stale ← anyStale identity rows
    lift (Checked.make ResolvedTaskFields.postInit
      (if stale then
        { resolution := .staleSession, reasonCode := some .taskBindingStaleSession }
      else { resolution := .none, reasonCode := some .taskContextSelectionRequired }))

/-! ## Refusals -/

/-- A refusal carrying one stable reason code and no task content. -/
structure HostRefusal where
  reasonCode : ReasonCode
  message : String
deriving DecidableEq

/-- The answer that refuses. -/
def HostRefusal.toDict (refusal : HostRefusal) : Json :=
  .obj [("format", .str "atmem-task-unavailable-v1"), ("reason_code", .str (value refusal.reasonCode)),
    ("message", .str refusal.message)]

/-- Operations a host agent may never request. -/
def operatorOnlyOperations : List OperationKind := [.lockSchema, .addConstraint]

/-- `_enablement`: refuse when disabled, report shadow. -/
def enablement (scope : AuthorityScope) : Svc (Option HostRefusal × Bool) := do
  let mode ← scopeMode scope
  pure (if mode.enabled then (none, mode.shadow)
    else (some ⟨.taskStateDisabled, "Governed task state is disabled for this scope."⟩, false))

/-- `_bound_task`: the submitted task id is checked, never trusted. -/
def boundTask (scope : AuthorityScope) (identity : HostSessionIdentity) (taskId : String) :
    Svc (Option HostRefusal) := do
  let resolved ← resolveBinding scope identity
  pure (if !resolved.val.resolution.delivers then
      some ⟨resolved.val.reasonCode.getD .taskContextSelectionRequired,
        "This conversation is not bound to a governed task."⟩
    else if resolved.val.taskId ≠ some taskId then
      some ⟨.hostTaskNotBoundToSession, "This conversation is not bound to that task."⟩
    else none)

/-- `_ceiling`: capability first, content second. -/
def ceiling (operations : List TaskOperation) : Option HostRefusal :=
  let forbidden := ((operations.filter fun operation =>
    operation.val.kind ∈ operatorOnlyOperations).map fun operation =>
      value operation.val.kind).dedup.mergeSort (· ≤ ·)
  if !permits .hostAgent .proposeDelta then
    some ⟨.capabilityDenied, "This actor may not propose task changes."⟩
  else if forbidden ≠ [] then
    some ⟨.capabilityDenied, "A host agent may not request " ++ ", ".intercalate forbidden ++
      "; that is an operator action."⟩
  else none

/-- `_shadow`: evaluated, recorded as a decision, committed nowhere. -/
def shadowAnswer (taskId message : String) : Json :=
  .obj [("format", .str "atmem-task-decision-v1"), ("task_id", .str taskId),
    ("outcome", .str (value StepOutcome.noChange)),
    ("reason_codes", .strings [value ReasonCode.taskStateShadowMode]),
    ("resulting_revision", .null), ("message", .str message)]

/-! ## Propose -/

/-- The proposal id derived from a request's key: its first 96
characters, under a prefix. -/
def hostProposalId (idempotencyKey : String) : String :=
  "proposal_host_" ++ String.ofList (idempotencyKey.toList.take 96)

/-- The idempotency key derived from a request: namespaced by the
adapter. -/
def hostIdempotencyKey (adapter idempotencyKey : String) : String :=
  "host:" ++ adapter ++ ":" ++ idempotencyKey

/-- `text or None`. -/
def orNone (text : String) : Option String := if text = "" then none else some text

/-- The proposal a host request is submitted as. -/
def hostProposal (scope : AuthorityScope) (request : HostTaskProposalRequest) :
    TaskStateProposalFields where
  proposalId := hostProposalId request.val.idempotencyKey
  taskId := request.val.taskId
  scope
  baseRevision := request.val.baseRevision
  idempotencyKey := hostIdempotencyKey request.val.adapter request.val.idempotencyKey
  actor := request.val.adapter
  actorRole := .hostAgent
  operations := request.val.operations
  evidence := request.val.evidence
  interpreter := orNone request.val.adapterVersion
  assurance := .asserted
  reason := orNone request.val.reason

/-- `TaskStateError`, answered as a refusal; anything else is raised. -/
def refusalOf : Raised → Except Raised HostRefusal
  | .taskStateError code message => .ok ⟨code, message⟩
  | .taskCompletionDenied code guard => .ok ⟨code, guard.val.message⟩
  | e => .error e

/-- `propose`: admit one typed delta already in delta form. -/
def propose (H : Hashing) (scope : AuthorityScope) (request : HostTaskProposalRequest) :
    Svc Json := do
  let (refusal, shadow) ← enablement scope
  match refusal with
  | some refusal => pure refusal.toDict
  | none =>
    match ← boundTask scope request.val.identity request.val.taskId with
    | some refusal => pure refusal.toDict
    | none =>
      match ceiling request.val.operations with
      | some refusal => pure refusal.toDict
      | none =>
        -- in shadow mode nothing is submitted
        if shadow then
          pure (shadowAnswer request.val.taskId "proposal evaluated, not committed")
        else
          let proposal ← lift (TaskStateProposal.make (hostProposal scope request))
          tryCatch
            (do
              let decision ← submit H proposal false "host_proposal"
              pure decision.toDict)
            fun e => match refusalOf e with
              | .ok refusal => pure refusal.toDict
              | .error e => throw e

/-! ## A host's lifecycle request -/

open Interleaving Checked

/-- The fields of a lifecycle request from a host. -/
structure HostTaskLifecycleRequestFields where
  identity : HostSessionIdentity
  taskId : String
  action : String
  expectedRevision : ℕ
  idempotencyKey : String
  adapter : String
  adapterVersion : String := ""
  reason : String := ""
deriving DecidableEq

/-- `PERMITTED_ACTIONS`, sorted: `cancel` is an operator's. -/
def permittedActions : List String := ["complete", "pause", "resume"]

/-- `HostTaskLifecycleRequest.__post_init__`. -/
def HostTaskLifecycleRequestFields.postInit (f : HostTaskLifecycleRequestFields) :
    Except String Unit := do
  identifier "task_id" f.taskId
  text "idempotency_key" f.idempotencyKey 256
  text "adapter" f.adapter 200
  ensure (f.action ∈ permittedActions)
    "host lifecycle action must be one of ['complete', 'pause', 'resume']"
  ensure (1 ≤ f.expectedRevision) "expected_revision starts at 1"

/-- A host request to change lifecycle. -/
abbrev HostTaskLifecycleRequest := {f : HostTaskLifecycleRequestFields // f.postInit = .ok ()}

/-! ## Answers -/

/-- `TaskSummary.to_dict`. -/
def TaskSummary.toDict (summary : TaskSummary) : Json :=
  .obj [("goal", .str summary.goal), ("lifecycle", .str (value summary.lifecycle)),
    ("phase", .str summary.phase), ("revision", .int summary.revision),
    ("total_items", .int summary.totalItems), ("completed_items", .int summary.completedItems),
    ("skipped_items", .int summary.skippedItems), ("failed_items", .int summary.failedItems),
    ("blocked_items", .strings summary.blockedItems), ("ready_items", .strings summary.readyItems),
    ("remaining_items", .strings summary.remainingItems),
    ("unsatisfied_constraints", .strings summary.unsatisfiedConstraints),
    ("completion_allowed", .bool summary.completionAllowed),
    ("completion_blockers", .strings summary.completionBlockers),
    ("last_progress_at", .str summary.lastProgressAt)]

/-- The fields of `TaskView.to_dict` after its `format`. -/
def TaskView.fields (view : TaskView) : List (String × Json) :=
  [("task_id", .str view.task.taskId), ("lifecycle", .str (value view.task.lifecycle)),
    ("revision", .int view.state.val.revision),
    ("profile_version", .str view.task.profileVersion), ("summary", view.summary.toDict),
    ("state", view.state.toDict), ("created_at_utc", .str (toIso view.task.createdAtUtc)),
    ("updated_at_utc", .str (toIso view.task.updatedAtUtc)),
    ("last_progress_at_utc", .str (toIso view.task.lastProgressAtUtc)),
    ("terminal_reason", .ofOption .str view.task.terminalReason),
    ("continues_task_id", .ofOption .str view.task.continuesTaskId)]

/-- What a lifecycle request is answered with. -/
inductive LifecycleAnswer
  | refused (refusal : HostRefusal)
  | shadowed (taskId : String)
  | conflict (taskId : String) (expected current : ℕ)
  | denied (taskId : String) (reasonCode : ReasonCode) (guard : GuardSignal)
  | changed (view : TaskView)

/-- The lifecycle was changed as it was asked to be. -/
def LifecycleAnswer.accepted : LifecycleAnswer → Bool
  | .changed _ => true
  | _ => false

/-- Each answer, as the host receives it. -/
def LifecycleAnswer.toDict : LifecycleAnswer → Json
  | .refused refusal => refusal.toDict
  | .shadowed taskId => shadowAnswer taskId "lifecycle request evaluated, not committed"
  | .conflict taskId expected current =>
    .obj [("format", .str "atmem-task-conflict-v1"), ("task_id", .str taskId),
      ("reason_code", .str (value ReasonCode.staleBaseRevision)),
      ("expected_revision", .int expected), ("current_revision", .int current),
      ("message", .str ("This task is at revision " ++ toString current ++ ", not " ++
        toString expected ++ ". Re-read it and submit a fresh request."))]
  | .denied taskId reasonCode guard =>
    .obj [("format", .str "atmem-task-unavailable-v1"), ("task_id", .str taskId),
      ("reason_code", .str (value reasonCode)), ("message", .str guard.val.message),
      ("guard", guard.toDict)]
  -- the view's own `format` replaces the one before it
  | .changed view => .obj (("format", .str "atmem-task-view-v1") :: view.fields)

/-! ## The request -/

/-- `getattr(service, action)`, under the host's role. -/
def requestedAction (H : Hashing) (scope : AuthorityScope) (request : HostTaskLifecycleRequest) :
    Svc TaskView :=
  let reason := if request.val.reason = "" then request.val.action else request.val.reason
  if request.val.action = "pause" then
    pause H scope request.val.taskId request.val.adapter .hostAgent reason
  else if request.val.action = "resume" then
    resume H scope request.val.taskId request.val.adapter .hostAgent reason
  else complete H scope request.val.taskId request.val.adapter .hostAgent reason

/-- The two handlers of `request_lifecycle`: any other exception is raised. -/
def lifecycleRefusal (taskId : String) : Raised → Svc LifecycleAnswer
  | .taskCompletionDenied code guard => pure (.denied taskId code guard)
  | .taskStateError code message => pure (.refused ⟨code, message⟩)
  | e => throw e

/-- What the service makes of a request that has passed the gates. -/
def decideLifecycle (H : Hashing) (scope : AuthorityScope) (request : HostTaskLifecycleRequest) :
    Svc LifecycleAnswer := do
  let current ← TaskStateService.get H scope request.val.taskId true
  if request.val.expectedRevision ≠ current.state.val.revision then
    pure (.conflict request.val.taskId request.val.expectedRevision current.state.val.revision)
  else
    let view ← requestedAction H scope request
    pure (.changed view)

/-- `request_lifecycle`: a request, never a command. -/
def requestLifecycle (H : Hashing) (scope : AuthorityScope) (request : HostTaskLifecycleRequest) :
    Svc LifecycleAnswer := do
  let (refusal, shadow) ← enablement scope
  match refusal with
  | some refusal => pure (.refused refusal)
  | none =>
    match ← boundTask scope request.val.identity request.val.taskId with
    | some refusal => pure (.refused refusal)
    | none =>
      if shadow then pure (.shadowed request.val.taskId)
      else tryCatch (decideLifecycle H scope request) (lifecycleRefusal request.val.taskId)

end Atmem
