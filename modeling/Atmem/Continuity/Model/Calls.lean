import Atmem.Continuity.Model.Service
/-!
# The calls of the continuity service

Creating, reading, pausing and stopping a workflow, and the three calls by
which work is attempted: `begin` decides, `renew` keeps an attempt alive, and
`outcome` records what came of it. Deleting a workflow and changing what is
captured are calls of the evidence service on the same vault.
-/

namespace Atmem.Continuity

open Evidence
open Json (field)

variable {α : Type} [LinearOrder α] (E : Engine α)

/-! ## Creating -/

/-- `value.get(name, default)`. -/
def fieldOr (value : Json) (name : String) (default : Json) : Json :=
  (value.get? name).getD default

/-- `isinstance(value, (int, float)) and not isinstance(value, bool)`. -/
def isNumber : Json → Bool
  | .int _ | .float _ => true
  | .null | .bool _ | .str _ | .arr _ | .obj _ => false

/-- `capability in {"none", "query", "idempotent"}`: a value that is no text
is none of them, and one that has no hash raises. -/
def readCapability : Json → Except Raised (Option Capability)
  | .str s => .ok (if s = "none" then some .none else if s = "query" then some .query
      else if s = "idempotent" then some .idempotent else none)
  | .null | .bool _ | .int _ | .float _ => .ok none
  | .arr _ | .obj _ => .error .typeError

/-- The name of an operation that is given. -/
def readName (raw : Json) : Except Raised String := do
  match raw with
  | .obj _ =>
    match raw.get? "name" with
    | some (.str name) => identifier name; pure name
    | some (.null) | some (.bool _) | some (.int _) | some (.float _) | some (.arr _)
    | some (.obj _) => throw (.valueError
        "use an opaque identifier of 1–128 letters, digits, underscores or hyphens")
    | none => throw (.valueError "each operation requires a name and tool")
  | .null | .bool _ | .int _ | .float _ | .str _ | .arr _ =>
    throw (.valueError "each operation requires a name and tool")

/-- A tool that is named, and arguments that are an object. -/
def readTool (raw : Json) : Except Raised (String × Json) :=
  match fieldOr raw "arguments" (.obj []), raw.get? "tool" with
  | .obj kvs, some (.str tool) =>
    if tool = "" then .error (.valueError "tool name and argument object required")
    else .ok (tool, .obj kvs)
  | _, _ => .error (.valueError "tool name and argument object required")

/-- One operation that is given. -/
def readDefinition (names : List String) (raw : Json) : Except Raised (Definition α) := do
  let name ← readName raw
  raiseIf (name ∈ names) (.valueError "duplicate operation name")
  let timeout := fieldOr raw "timeout_seconds" (.int 30)
  let retention := fieldOr raw "retention_seconds" (.int 0)
  raiseIf (!isNumber timeout || !isNumber retention)
    (.valueError "timeout and retention must be numbers, not booleans or null")
  let timeout ← E.float timeout
  let retention ← E.float retention
  match ← readCapability (fieldOr raw "capability" (.str "none")) with
  | none => throw (.valueError "invalid tool capability or timeout")
  | some capability =>
    raiseIf (¬ ((zero E).Lt timeout ∧ timeout.Le (.finite (E.seconds 90))))
      (.valueError "invalid tool capability or timeout")
    raiseIf (!retention.isFinite || decide (retention.Lt (zero E)))
      (.valueError "invalid retention")
    raiseIf (capability = .idempotent ∧ retention.Le (E.plus timeout (.finite (E.seconds 30))))
      (.valueError "idempotency retention must exceed timeout plus safety margin")
    let call ← readTool raw
    pure { name, tool := call.1, arguments := call.2, capability, timeoutSeconds := timeout
           retentionSeconds := retention }

/-- The definitions in turn, each with the names of those before it. -/
def readDefinitions : List (Definition α) → List Json → Except Raised (List (Definition α))
  | done, [] => .ok done
  | done, raw :: rest => do
    let definition ← readDefinition E (done.map (·.name)) raw
    readDefinitions (done ++ [definition]) rest

/-- `_key_namespace`. -/
def keyNamespace (creatorId creatorRole : Option String) : Option String :=
  if creatorRole = some coordinatorRole then creatorId else none

/-- The namespace of the keys of a principal. -/
def namespaceOf (p : EvidencePrincipal) : Option String :=
  if p.role = .continuityCoordinator then some p.principalId else none

/-- What is asked of a caller and its operations before the vault is opened. -/
def checkCreate (p : EvidencePrincipal) (workflowKey : String) (operations : Json)
    (activate : Bool) : Except Raised (List (Definition α)) := do
  identifier workflowKey
  p.authorize .continuity p.scope
  raiseIf (p.role = .continuityHost ∨ p.scope.runId ≠ none)
    (.permissionError "a workflow operator credential is required")
  raiseIf (p.role = .continuityCoordinator ∧ (p.scope.workspaceId = none ∨ activate = false))
    (.permissionError "coordinator creation requires explicit workspace and activation")
  match operations with
  | .arr raws =>
    raiseIf (¬ (1 ≤ raws.length ∧ raws.length ≤ 200))
      (.valueError "provide between 1 and 200 operations")
    raiseIf (p.role = .continuityCoordinator ∧ raws.length ≠ 1)
      (.valueError "coordinator workflows contain exactly one governed tool call")
    let size ← E.dumpedBytes operations
    raiseIf (262144 < size)
      (.valueError "workflow definition exceeds 256 KiB")
    readDefinitions E [] raws
  | .null | .bool _ | .int _ | .float _ | .str _ | .obj _ =>
    throw (.valueError "provide between 1 and 200 operations")

/-- The latest documents of the caller's own workflows, by workflow. -/
abbrev Owned (α : Type) := List (String × Workflow α)

/-- `workflows[workflow_id] = workflow`, a new one last. -/
def Owned.set (owned : Owned α) (w : Workflow α) : Owned α :=
  owned.filter (fun o => o.1 ≠ w.workflowId) ++ [(w.workflowId, w)]

/-- `canonical_json(definitions)`. -/
def definitionsText (definitions : List (Definition α)) : String :=
  (Json.arr (definitions.map fun d => .obj (d.fields E))).canonicalJson

/-- Whether a document takes a key, for a caller. -/
def takesKey (p : EvidencePrincipal) (workflowKey : String) : Document α → Bool
  | .continuity w => decide (w.workflowKey = workflowKey ∧ w.scope = p.scope ∧
      keyNamespace w.creatorId w.creatorRole = namespaceOf p)
  | .tombstone t => decide (t.workflowKey = workflowKey ∧ t.scope = p.scope) &&
      (match t.creatorRole with
        | none => true
        | some role => decide (keyNamespace t.creatorId role = namespaceOf p))
  | .event _ _ | .settings _ | .evidence _ | .access _ _ _ => false

/-- What a caller owns, after one more document. -/
def own (p : EvidencePrincipal) (owned : Owned α) : Document α → Owned α
  | .continuity w =>
    if w.scope = p.scope ∧ w.creatorId = some p.principalId ∧ w.creatorRole = some p.role.value then
      owned.set w
    else owned
  | .tombstone t => owned.filter fun o => o.1 ≠ t.workflowId
  | .event _ _ | .settings _ | .evidence _ | .access _ _ _ => owned

/-- What `create` answers where a workflow has the key. -/
def reuse (p : EvidencePrincipal) (definitions : List (Definition α)) (v : Vault α)
    (w : Workflow α) : Except Raised (Workflow α) := do
  authorize p w false
  raiseIf (definitionsText E w.definitions ≠ definitionsText E definitions)
    (.valueError "workflow key conflicts with existing definition")
  latest v w.workflowId

/-- What `create` finds under a key: nothing, and then what the caller owns;
or the workflow that has the key. -/
def findKey (p : EvidencePrincipal) (workflowKey : String) (definitions : List (Definition α))
    (v : Vault α) : Owned α → List (Document α) → Except Raised (Owned α ⊕ Workflow α)
  | owned, [] => .ok (.inl owned)
  | owned, d :: ds =>
    if takesKey p workflowKey d then
      match d with
      | .continuity w => .inr <$> reuse E p definitions v w
      | .tombstone _ | .event _ _ | .settings _ | .evidence _ | .access _ _ _ =>
        .error (.valueError "workflow key was deleted; choose new work explicitly")
    else findKey p workflowKey definitions v (own p owned d) ds

/-- Whether work of a workflow is left to do. -/
def Workflow.isOpen (w : Workflow α) : Bool :=
  w.operations.any fun op => decide (op.status ∉ [Status.completed, .abandoned])

/-- A new workflow. -/
def newWorkflow (p : EvidencePrincipal) (x : Surroundings α) (workflowKey : String)
    (activate : Bool) (definitions : List (Definition α)) : Workflow α where
  workflowId := "wf_" ++ x.uuid 0
  workflowKey := workflowKey
  scope := p.scope
  enabled := activate
  creatorId := some p.principalId
  creatorRole := some p.role.value
  definitions := definitions
  operations := definitions.zipIdx.map fun d =>
    { d.1 with
      operationId := "op_" ++ x.uuid (2 * d.2 + 1)
      idempotencyKey := some ("ik_" ++ x.uuid (2 * d.2 + 2))
      status := .pending }

/-- A new workflow, unless the caller has too many open. -/
def admitStart (p : EvidencePrincipal) (workflowKey : String) (activate : Bool)
    (definitions : List (Definition α)) (owned : Owned α) (x : Surroundings α) (v : Vault α) :
    Except Raised (Workflow α × Vault α) := do
  raiseIf (p.role = .continuityCoordinator ∧
      maxOpenCoordinatorWorkflows ≤ owned.countP (fun o => o.2.isOpen))
    (.valueError ("coordinator open workflow limit reached; finish or ask the operator " ++
      "to resolve existing work"))
  let saved ← save E p x (newWorkflow p x workflowKey activate definitions)
    (if activate then .createdEnabled else .createdDisabled) { v with formatVersion := 3 }
  pure (view saved.1, saved.2)

/-- `create`. -/
def create (p : EvidencePrincipal) (workflowKey : String) (operations : Json) (activate : Bool)
    (x : Surroundings α) (v : Vault α) : Except Raised (Workflow α × Vault α) := do
  let definitions ← checkCreate E p workflowKey operations activate
  raiseIf (v.captureMode ≠ .full)
    (.permissionError "full encrypted evidence capture is required for continuity")
  match ← findKey E p workflowKey definitions v [] v.contents with
  | .inr w => pure (view w, v)
  | .inl owned => admitStart E p workflowKey activate definitions owned x v

/-! ## Reading and pausing -/

/-- `get`: the workflow, and its history. -/
def get (p : EvidencePrincipal) (workflowId : String) (x : Surroundings α) (v : Vault α) :
    Except Raised ((Workflow α × List (Entry α)) × Vault α) := do
  identifier workflowId
  let w ← latest v workflowId
  authorize p w false
  let v' := v.append x (.access "continuity_view" p.principalId true)
  pure ((view w, v'.contents.filterMap fun d => match d with
    | .event owner entry => if owner = workflowId then some entry else none
    | .continuity _ | .tombstone _ | .settings _ | .evidence _ | .access _ _ _ => none), v')

/-- `configure`. -/
def configure (p : EvidencePrincipal) (workflowId : String) (enabled : Bool) (x : Surroundings α)
    (v : Vault α) : Except Raised (Workflow α × Vault α) := do
  identifier workflowId
  let w ← latest v workflowId
  authorize p w true
  if w.enabled = enabled then pure (view w, v)
  else do
    raiseIf (enabled ∧ v.captureMode ≠ .full)
      (.permissionError "full encrypted evidence capture is required")
    let saved ← save E p x { w with enabled } (if enabled then .enabled else .disabled) v
    pure (view saved.1, saved.2)

/-! ## Attempts -/

/-- Why an attempt is not granted. -/
inductive Reason
  | needsConfirmation | disabledOrUnavailable | abandoned | earlierWorkUnfinished
  | attemptAlreadyIssued | attemptInProgress | attemptLimitReached | revisionLimitReached
  | windowExpired
deriving DecidableEq

/-- The text of each reason. -/
def Reason.value : Reason → String
  | .needsConfirmation => "needs_confirmation"
  | .disabledOrUnavailable => "workflow_disabled_or_capture_unavailable"
  | .abandoned => "abandoned"
  | .earlierWorkUnfinished => "earlier_work_unfinished"
  | .attemptAlreadyIssued => "attempt_already_issued"
  | .attemptInProgress => "attempt_in_progress"
  | .attemptLimitReached => "attempt_limit_reached"
  | .revisionLimitReached => "workflow_revision_limit_reached"
  | .windowExpired => "idempotency_window_expired"

/-- What `begin` decides. -/
inductive Decision
  | blocked (reason : Reason)
  | completed
  | grant (mode : Mode)
deriving DecidableEq

/-- `now + timeout + 30 < first_dispatch + retention`. -/
def withinWindow (op : Operation α) (now first : Reading α) : Prop :=
  (E.plus (E.plus now op.timeoutSeconds) (.finite (E.seconds 30))).Lt
    (E.plus first op.retentionSeconds)

instance decidableWithinWindow (op : Operation α) (now first : Reading α) :
    Decidable (withinWindow E op now first) :=
  inferInstanceAs (Decidable (Reading.Lt _ _))

/-- What may be done with an operation that has not been refused yet. -/
def actionFor (op : Operation α) (now : Reading α) : Decision :=
  match op.status with
  | .pending => .grant .execute
  | .uncertain =>
    match op.capability with
    | .query => .grant .query
    | .idempotent =>
      if withinWindow E op now (op.firstDispatch.getD (zero E)) then .grant .execute
      else .blocked .windowExpired
    | .none => .blocked .needsConfirmation
  | .completed | .abandoned => .blocked .needsConfirmation

/-- The decision of `begin`. -/
def decision (w : Workflow α) (op : Operation α) (captured : Bool) (now : Reading α)
    (attemptId : String) : Decision :=
  if !w.enabled || !captured then .blocked .disabledOrUnavailable
  else if op.status = .completed then .completed
  else if op.status = .abandoned then .blocked .abandoned
  else if (w.earlier op.name).any (fun previous => decide (previous.status ≠ .completed)) then
    .blocked .earlierWorkUnfinished
  else if op.attempts.any (fun a => decide (a.attemptId = attemptId)) then
    .blocked .attemptAlreadyIssued
  else if now.Lt (op.leaseUntil.getD (zero E)) then .blocked .attemptInProgress
  else if 100 ≤ op.attempts.length then .blocked .attemptLimitReached
  else if maxRevisions - 2 ≤ w.revision then .blocked .revisionLimitReached
  else actionFor E op now

/-- What is handed to an attempt. -/
structure Grant (α : Type) where
  action : Mode
  leaseToken : String
  idempotencyKey : Option String
  arguments : Json
  tool : String
  timeoutSeconds : Reading α
  leaseUntil : Reading α
  runId : String
  attemptId : String
deriving DecidableEq

/-- What `begin` says. -/
inductive Reply (α : Type)
  | blocked (reason : Reason)
  | completed (receipt : Option Json)
  | granted (g : Grant α)
deriving DecidableEq

/-- What `begin` answers. -/
structure BeginReply (α : Type) where
  operationId : String
  reply : Reply α
  revision : ℕ
deriving DecidableEq

/-- How long a lease that starts now lasts. -/
def leaseEnd (now : Reading α) : Reading α := E.plus now (.finite (E.seconds 120))

/-- The operation once an attempt is granted. -/
def grantedOperation (op : Operation α) (mode : Mode) (now : Reading α)
    (token runId attemptId : String) : Operation α :=
  { op with
    firstDispatch := some (op.firstDispatch.getD now)
    status := .uncertain
    leaseHash := some (E.sha256 token)
    leaseUntil := some (leaseEnd E now)
    attempts := op.attempts ++ [{ attemptId, runId, mode, started := now }] }

/-- What is handed out of an operation. -/
def grantOf (op : Operation α) (mode : Mode) (runId attemptId : String) (x : Surroundings α) :
    Grant α where
  action := mode
  leaseToken := x.leaseToken
  idempotencyKey := op.idempotencyKey
  arguments := op.arguments
  tool := op.tool
  timeoutSeconds := op.timeoutSeconds
  leaseUntil := leaseEnd E x.now
  runId := runId
  attemptId := attemptId

/-- The decision, carried out. -/
def carryOut (p : EvidencePrincipal) (w : Workflow α) (op : Operation α) (runId attemptId : String)
    (x : Surroundings α) (v : Vault α) : Except Raised (BeginReply α × Vault α) :=
  match decision E w op (v.captureMode = .full) x.now attemptId with
  | .blocked reason => .ok (⟨op.operationId, .blocked reason, w.revision⟩, v)
  | .completed => .ok (⟨op.operationId, .completed op.receipt, w.revision⟩, v)
  | .grant mode => do
    let saved ← save E p x
      (w.put op.name (grantedOperation E op mode x.now x.leaseToken runId attemptId)) .begun v
    pure (⟨op.operationId, .granted (grantOf E op mode runId attemptId x), saved.1.revision⟩,
      saved.2)

/-- An operation that is asked for. -/
def operationOf (w : Workflow α) (name message : String) : Except Raised (Operation α) :=
  match w.operation name with
  | some op => .ok op
  | none => .error (.valueError message)

/-- `begin`. -/
def begin (p : EvidencePrincipal) (workflowId name runId attemptId : String) (x : Surroundings α)
    (v : Vault α) : Except Raised (BeginReply α × Vault α) := do
  identifier runId
  identifier attemptId
  identifier workflowId
  let w ← latest v workflowId
  authorize p w (byOperator p)
  let op ← operationOf w name "operation not found"
  raiseIf (movedBack E w x.now) (.valueError "controller clock moved backwards")
  carryOut E p w op runId attemptId x v

/-- Whether a token is the one whose digest is kept, and a run and an attempt
are those of the last attempt. -/
def isCurrent (op : Operation α) (leaseToken runId attemptId : String) : Bool :=
  (match op.leaseHash with
    | some hash => hash ≠ "" && E.sha256 leaseToken = hash
    | none => false) &&
  (match op.attempts.getLast? with
    | some a => a.runId = runId && a.attemptId = attemptId
    | none => false)

/-- The last attempt, changed. -/
def Operation.changeLast (op : Operation α) (f : Attempt α → Attempt α) : List (Attempt α) :=
  op.attempts.modify (op.attempts.length - 1) f

/-- Whether a receipt confirms that the operation was done. -/
def isConfirmed (op : Operation α) (receipt : Json) : Bool :=
  decide (receipt.get? "outcome" = some (.str "confirmed_succeeded") ∧
    receipt.get? "operation_id" = some (.str op.operationId)) &&
  (field receipt "effect_id").truthy && (receipt.get? "result").isSome

/-- The operation once an outcome is recorded. -/
def recordedOperation (op : Operation α) (receipt : Json) (confirmed : Bool) (ended : Reading α) :
    Operation α :=
  { op with
    attempts := op.changeLast fun a => { a with
      ended := some ended, outcome := some (if confirmed then "completed" else "unknown") }
    leaseUntil := some (zero E)
    leaseHash := some ""
    status := if confirmed then .completed else op.status
    receipt := if confirmed then some (receipt.set "assurance" (.str "host_reported"))
      else op.receipt }

/-- A receipt that comes too late is kept as an event. -/
def lateReceipt (p : EvidencePrincipal) (w : Workflow α) (op : Operation α) (receipt : Json)
    (runId attemptId : String) (x : Surroundings α) (v : Vault α) :
    Except Raised (Vault α) := do
  raiseIf (10 ≤ op.lateReceipts.getD 0) (.valueError "late receipt limit reached")
  raiseIf (movedBack E w x.now) (.valueError "controller clock moved backwards; recovery paused")
  raiseIf (v.captureMode ≠ .full)
    (.permissionError "continuity writes require full encrypted capture")
  let v' := v.append x (.event w.workflowId
    (.lateReceipt receipt p.principalId op.operationId runId attemptId x.now))
  checkStorageBudget E w v'
  pure v'

/-- `isinstance(value, dict)`. -/
def isObject : Json → Bool
  | .obj _ => true
  | .null | .bool _ | .int _ | .float _ | .str _ | .arr _ => false

/-- A receipt of the current attempt. -/
def record (p : EvidencePrincipal) (w : Workflow α) (op : Operation α) (receipt : Json)
    (runId attemptId : String) (x : Surroundings α) (v : Vault α) :
    Except Raised ((Bool × Status) × Vault α) := do
  let confirmed := isConfirmed op receipt
  let op' := recordedOperation E op receipt confirmed x.now
  let saved ← save E p x
    { w.put op.name op' with
      history := w.history ++ [.receipt receipt attemptId runId op.operationId] }
    (if confirmed then .completed else .needsConfirmation) v
  pure ((true, op'.status), saved.2)

/-- `outcome`: whether it was accepted, and the status after it. -/
def outcome (p : EvidencePrincipal) (workflowId name leaseToken : String) (receipt : Json)
    (runId attemptId : String) (x : Surroundings α) (v : Vault α) :
    Except Raised ((Bool × Status) × Vault α) := do
  let size ← E.dumpedBytes receipt
  raiseIf (65536 < size) (.valueError "receipt exceeds 64 KiB")
  identifier workflowId
  let w ← latest v workflowId
  authorize p w (byOperator p)
  let op ← operationOf w name "operation and receipt object required"
  raiseIf (isObject receipt = false) (.valueError "operation and receipt object required")
  if isCurrent E op leaseToken runId attemptId ∧ op.status = .uncertain then
    record E p w op receipt runId attemptId x v
  else do
    let v' ← lateReceipt E p w op receipt runId attemptId x v
    pure ((false, op.status), v')

/-- An operation that is stopped. -/
def abandonedOperation (op : Operation α) : Operation α :=
  { op with status := .abandoned, leaseHash := some "", leaseUntil := some (zero E) }

/-- `abandon`. -/
def abandon (p : EvidencePrincipal) (workflowId name reason : String) (x : Surroundings α)
    (v : Vault α) : Except Raised (Workflow α × Vault α) := do
  raiseIf (strip reason = []) (.valueError "explain why this work is being stopped")
  identifier workflowId
  let w ← latest v workflowId
  authorize p w true
  let op ← operationOf w name "only unfinished work can be abandoned"
  raiseIf (op.status = .completed) (.valueError "only unfinished work can be abandoned")
  if op.status = .abandoned then pure (view w, v)
  else do
    raiseIf (x.now.Lt (op.leaseUntil.getD (zero E)))
      (.valueError "attempt is still in progress; wait before abandoning")
    let saved ← save E p x
      { w.put op.name (abandonedOperation E op) with
        history := w.history ++ [.operatorAttestation reason p.principalId op.operationId] }
      .abandoned v
    pure (view saved.1, saved.2)

/-- How often the last attempt was renewed. -/
def Operation.renewals (op : Operation α) : ℕ :=
  ((op.attempts.getLast?.bind (·.renewals)).getD 0)

/-- The operation once its lease is renewed. -/
def renewedOperation (op : Operation α) (now : Reading α) : Operation α :=
  { op with
    attempts := op.changeLast fun a => { a with renewals := some (op.renewals + 1) }
    leaseUntil := some (leaseEnd E now) }

/-- `renew`: until when. -/
def renew (p : EvidencePrincipal) (workflowId name leaseToken runId attemptId : String)
    (x : Surroundings α) (v : Vault α) : Except Raised (Reading α × Vault α) := do
  identifier workflowId
  let w ← latest v workflowId
  authorize p w (byOperator p)
  let op ← operationOf w name "no active attempt to renew"
  raiseIf (w.enabled = false ∨ op.leaseHash.getD "" = "" ∨ op.status ≠ .uncertain)
    (.valueError "no active attempt to renew")
  raiseIf (isCurrent E op leaseToken runId attemptId = false ∨
      (op.leaseUntil.getD (zero E)).Lt x.now)
    (.valueError "stale lease")
  raiseIf (10 ≤ op.renewals) (.valueError "lease renewal limit reached")
  raiseIf (maxRevisions - 1 ≤ w.revision)
    (.valueError "revision capacity reserved for the attempt receipt")
  let saved ← save E p x (w.put op.name (renewedOperation E op x.now)) .leaseRenewed v
  pure (leaseEnd E x.now, saved.2)

/-! ## Calls of the evidence service -/

/-- What happened of a run is deleted, the rest stays. -/
def Document.isOfRun (runId : String) : Document α → Bool
  | .continuity w => w.workflowId = runId
  | .event workflowId _ => workflowId = runId
  | .evidence owner => owner = runId
  | .tombstone _ | .settings _ | .access _ _ _ => false

/-- The tombstone of the last document of a workflow. -/
def tombstoneOf (runId : String) (documents : List (Document α)) : Option Tombstone :=
  (lastOf runId documents).map fun w =>
    { workflowId := runId, workflowKey := w.workflowKey, scope := w.scope
      creatorId := w.creatorId, creatorRole := some w.creatorRole }

/-- `_delete_run`: the tombstone is appended before anything goes. -/
def Vault.deleteRun (x : Surroundings α) (v : Vault α) (runId : String) : ℕ × Vault α :=
  let v' := v.appendAll x ((tombstoneOf runId v.contents).toList.map .tombstone)
  ((v.documents.filter fun s => s.document.isOfRun runId).length,
    { v' with documents := v'.documents.filter fun s => !s.document.isOfRun runId })

/-- Whether a principal may delete every document of a workflow. -/
def mayDelete (p : EvidencePrincipal) (runId : String) :
    List (Document α) → Except Raised Unit
  | [] => .ok ()
  | .continuity w :: ds => do
    if w.workflowId = runId then
      p.authorize .delete { w.scope with runId := some runId }
    mayDelete p runId ds
  | .event _ _ :: ds | .tombstone _ :: ds | .settings _ :: ds | .evidence _ :: ds
  | .access _ _ _ :: ds => mayDelete p runId ds

/-- `delete_run`: a refusal is recorded. -/
def deleteRun (p : EvidencePrincipal) (runId confirmation : String) (x : Surroundings α)
    (v : Vault α) : Except Raised ℕ × Vault α :=
  match EvidenceScope.make p.scope.tenantId p.scope.subjectId p.scope.workspaceId (some runId) with
  | .error e => (.error e, v)
  | .ok target =>
    let refuse (e : Raised) := (Except.error e, v.append x (.access "delete" p.principalId false))
    match p.authorize .delete target with
    | .error e => refuse e
    | .ok () =>
      if confirmation ≠ "DELETE " ++ runId then
        refuse (.permissionError "evidence deletion requires exact confirmation")
      else
        match mayDelete p runId v.contents with
        | .error e => refuse e
        | .ok () =>
          let (n, v') := v.deleteRun x runId
          (.ok n, v'.append x (.access "delete" p.principalId true))

/-- The workflows that are there, by their last documents. -/
def currentWorkflows (documents : List (Document α)) : List (Workflow α) :=
  (documents.foldl (fun (held : Owned α) d => match d with
    | .continuity w => held.set w
    | .tombstone t => held.filter fun o => o.1 ≠ t.workflowId
    | .event _ _ | .settings _ | .evidence _ | .access _ _ _ => held) []).map (·.2)

/-- `set_capture_mode`. -/
def setCaptureMode (p : EvidencePrincipal) (mode : CaptureMode) (x : Surroundings α)
    (v : Vault α) : Except Raised (CaptureMode × Vault α) := do
  p.authorize .retention ⟨p.scope.tenantId, p.scope.subjectId, none, none⟩
  raiseIf (mode ≠ .full ∧ (currentWorkflows v.contents).any fun w =>
      w.enabled || w.operations.any fun op => op.status = .uncertain)
    (.valueError
      "disable continuity workflows and resolve or abandon uncertain work before reducing capture")
  pure (mode, v.appendAll x [.settings mode, .access "capture_mode" p.principalId true])

/-- `capture`, of what belongs to no workflow's record. -/
def capture (runId : String) (x : Surroundings α) (v : Vault α) : Vault α :=
  if v.captureMode = .off then v else v.append x (.evidence runId)

/-! ## One call after another -/

/-- The calls on the workflows of a vault. -/
inductive Call
  | create (p : EvidencePrincipal) (workflowKey : String) (operations : Json) (activate : Bool)
  | get (p : EvidencePrincipal) (workflowId : String)
  | configure (p : EvidencePrincipal) (workflowId : String) (enabled : Bool)
  | begin (p : EvidencePrincipal) (workflowId name runId attemptId : String)
  | outcome (p : EvidencePrincipal) (workflowId name leaseToken : String) (receipt : Json)
      (runId attemptId : String)
  | abandon (p : EvidencePrincipal) (workflowId name reason : String)
  | renew (p : EvidencePrincipal) (workflowId name leaseToken runId attemptId : String)
  | deleteRun (p : EvidencePrincipal) (runId confirmation : String)
  | setCaptureMode (p : EvidencePrincipal) (mode : CaptureMode)
  | capture (runId : String)

/-- A call, where it is made. -/
structure Request (α : Type) where
  call : Call
  around : Surroundings α

/-- What a call returns. -/
inductive Answer (α : Type)
  | workflow (w : Workflow α)
  | progress (w : Workflow α) (history : List (Entry α))
  | begun (r : BeginReply α)
  | recorded (accepted : Bool) (status : Status)
  | renewed (leaseUntil : Reading α)
  | deleted (objects : ℕ)
  | mode (m : CaptureMode)
  | captured
deriving DecidableEq

/-- A transaction: what raises leaves the vault as it was. -/
def transact {β : Type} (answer : β → Answer α) (v : Vault α) :
    Except Raised (β × Vault α) → Except Raised (Answer α) × Vault α
  | .ok (b, v') => (.ok (answer b), v')
  | .error e => (.error e, v)

/-- What a call does. -/
def perform (k : Request α) (v : Vault α) : Except Raised (Answer α) × Vault α :=
  let x := k.around
  match k.call with
  | .create p workflowKey operations activate =>
    transact .workflow v (create E p workflowKey operations activate x v)
  | .get p workflowId => transact (fun r => .progress r.1 r.2) v (get p workflowId x v)
  | .configure p workflowId enabled =>
    transact .workflow v (configure E p workflowId enabled x v)
  | .begin p workflowId name runId attemptId =>
    transact .begun v (begin E p workflowId name runId attemptId x v)
  | .outcome p workflowId name leaseToken receipt runId attemptId =>
    transact (fun r => .recorded r.1 r.2) v
      (outcome E p workflowId name leaseToken receipt runId attemptId x v)
  | .abandon p workflowId name reason =>
    transact .workflow v (abandon E p workflowId name reason x v)
  | .renew p workflowId name leaseToken runId attemptId =>
    transact .renewed v (renew E p workflowId name leaseToken runId attemptId x v)
  | .deleteRun p runId confirmation =>
    ((deleteRun p runId confirmation x v).1.map .deleted, (deleteRun p runId confirmation x v).2)
  | .setCaptureMode p mode => transact .mode v (setCaptureMode p mode x v)
  | .capture runId => (.ok .captured, capture runId x v)

end Atmem.Continuity
