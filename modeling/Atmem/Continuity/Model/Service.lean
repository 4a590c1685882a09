import Atmem.Continuity.Model.Workflows
/-!
# The continuity service

Who may attempt a governed operation. A call takes the vault for itself, reads
its documents, and either appends what it decided or raises, and then nothing
of it is kept. What a call is given besides its arguments, the clock and what
is drawn at random, is its surroundings: a call that reads the clock twice may
read two different times.
-/

namespace Atmem.Continuity

open Evidence

variable {α : Type} [LinearOrder α]

/-- What a call finds around it. -/
structure Surroundings (α : Type) where
  /-- What the clock reads. -/
  now : Reading α
  /-- What the clock reads when the workflow is saved. -/
  saved : Reading α
  uuid : ℕ → String
  leaseToken : String
  objectId : ℕ → String
  recordedAt : ℕ → String

/-- `if c: raise e`. -/
def raiseIf (c : Prop) [Decidable c] (e : Raised) : Except Raised Unit :=
  if c then .error e else .ok ()

/-- `re.fullmatch(r"[A-Za-z0-9_-]{1,128}", value)`. -/
def isIdentifier (value : String) : Bool :=
  value.toList.all (fun c => c.isAlphanum || c = '_' || c = '-') &&
    decide (1 ≤ value.length ∧ value.length ≤ 128)

/-- The check of an identifier that a caller chose. -/
def identifier (value : String) : Except Raised Unit :=
  if isIdentifier value then .ok ()
  else .error (.valueError
    "use an opaque identifier of 1–128 letters, digits, underscores or hyphens")

/-! ## The store -/

namespace Vault

/-- The number of the last document. -/
def head (v : Vault α) : ℕ := v.documents.foldl (fun n d => max n d.sequence) 0

/-- `append`. -/
def append (x : Surroundings α) (v : Vault α) (d : Document α) : Vault α :=
  { v with documents := v.documents ++
      [⟨x.objectId (v.head + 1), v.head + 1, x.recordedAt (v.head + 1), d⟩] }

/-- The documents are appended in turn. -/
def appendAll (x : Surroundings α) (v : Vault α) (ds : List (Document α)) : Vault α :=
  ds.foldl (append x) v

/-- The documents, without what the store puts beside them. -/
def contents (v : Vault α) : List (Document α) := v.documents.map (·.document)

/-- `capture_mode`. -/
def captureMode (v : Vault α) : CaptureMode :=
  v.contents.foldl (fun mode d => match d with
    | .settings mode => mode
    | .continuity _ | .event _ _ | .tombstone _ | .evidence _ | .access _ _ _ => mode) .full

end Vault

/-- The workflow a document of the service belongs to. -/
def Document.workflowId : Document α → Option String
  | .continuity w => some w.workflowId
  | .event workflowId _ => some workflowId
  | .tombstone t => some t.workflowId
  | .settings _ | .evidence _ | .access _ _ _ => none

/-! ## Authority -/

/-- The role that coordinates without owning. -/
def coordinatorRole : String := EvidenceRole.continuityCoordinator.value

/-- `_authorize`. -/
def authorize (p : EvidencePrincipal) (w : Workflow α) (control : Bool) : Except Raised Unit :=
  let target := { w.scope with runId := some w.workflowId }
  match p.role with
  | .continuityCoordinator =>
    if control ∨ w.creatorRole ≠ some p.role.value ∨ w.creatorId ≠ some p.principalId then
      .error (.permissionError
        "coordinator may use only its own workflows and cannot change operator controls")
    else p.authorize .continuity target
  | .continuityHost =>
    if control ∨ p.scope.runId ≠ some w.workflowId then
      .error (.permissionError "host credential is limited to its bound workflow")
    else p.authorize .continuity target
  | .viewer | .investigator | .evidenceCollector | .administrator =>
    p.authorize (if control then .continuity else .view) target

/-- Whether a call that attempts work counts as an operator's. -/
def byOperator (p : EvidencePrincipal) : Bool :=
  decide (p.role ∉ [EvidenceRole.continuityHost, .continuityCoordinator])

/-! ## The state of a workflow -/

/-- One document, in the scan of `_latest`. -/
def scanDocument (workflowId : String) (found : Option (Workflow α)) :
    Document α → Except Raised (Option (Workflow α))
  | .tombstone t =>
    if t.workflowId = workflowId then
      .error (.valueError "workflow deleted; it cannot be resumed")
    else .ok found
  | .continuity w =>
    if w.workflowId = workflowId then
      if w.revision = (found.map (·.revision)).getD 0 + 1 then .ok (some w)
      else .error (.valueError "workflow revision history is inconsistent")
    else .ok found
  | .event _ _ | .settings _ | .evidence _ | .access _ _ _ => .ok found

/-- The last revision of a workflow. -/
def scan (workflowId : String) (documents : List (Document α)) :
    Except Raised (Option (Workflow α)) :=
  documents.foldlM (scanDocument workflowId) none

/-- Whether a document is a late receipt for an operation. -/
def isLateReceipt (workflowId operationId : String) : Document α → Bool
  | .event owner (.lateReceipt _ _ operation _ _ _) =>
    decide (owner = workflowId ∧ operation = operationId ∧ operation ≠ "")
  | .event _ (.saved _ _ _) | .event _ (.receipt _ _ _ _) | .event _ (.operatorAttestation _ _ _)
  | .continuity _ | .tombstone _ | .settings _ | .evidence _ | .access _ _ _ => false

/-- The late receipts of an operation, counted anew. -/
def countLate (workflowId : String) (documents : List (Document α)) (op : Operation α) :
    Operation α :=
  { op with lateReceipts := some (max (op.lateReceipts.getD 0)
      (documents.countP (isLateReceipt workflowId op.operationId))) }

/-- A workflow, with its late receipts counted. -/
def counted (workflowId : String) (documents : List (Document α)) (w : Workflow α) : Workflow α :=
  { w with operations := w.operations.map (countLate workflowId documents) }

/-- `_latest`. -/
def latest (v : Vault α) (workflowId : String) : Except Raised (Workflow α) := do
  match ← scan workflowId v.contents with
  | none => throw (.valueError "workflow not found")
  | some w =>
    if w.format = "atmem-workflow-v1" then pure (counted workflowId v.contents w)
    else throw (.valueError "unsupported workflow version")

/-- `_view`. -/
def view (w : Workflow α) : Workflow α :=
  { w with operations := w.operations.map fun op =>
      { op with leaseHash := none, idempotencyKey := none } }

/-- `_operation`. -/
def Workflow.operation (w : Workflow α) (name : String) : Option (Operation α) :=
  w.operations.find? fun op => op.name = name

/-- The operations before the first of a name. -/
def Workflow.earlier (w : Workflow α) (name : String) : List (Operation α) :=
  w.operations.takeWhile fun op => op.name ≠ name

/-- The first operation of a name, replaced. -/
def replaceFirst (name : String) (op : Operation α) : List (Operation α) → List (Operation α)
  | [] => []
  | o :: os => if o.name = name then op :: os else o :: replaceFirst name op os

/-- The first operation of a name is replaced. -/
def Workflow.put (w : Workflow α) (name : String) (op : Operation α) : Workflow α :=
  { w with operations := replaceFirst name op w.operations }

variable (E : Engine α)

/-- `0.0`. -/
def zero : Reading α := .finite (E.seconds 0)

/-- `workflow.get("clock_high_water", 0)`. -/
def Workflow.highWater (w : Workflow α) : Reading α := w.clockHighWater.getD (zero E)

/-- `not math.isfinite(now) or now < workflow.get("clock_high_water", 0)`. -/
def movedBack (w : Workflow α) (now : Reading α) : Bool :=
  !now.isFinite || decide (now.Lt (w.highWater E))

/-! ## Saving -/

/-- `MAX_OPEN_COORDINATOR_WORKFLOWS`. -/
def maxOpenCoordinatorWorkflows : ℕ := 500

/-- `MAX_COORDINATOR_RETAINED_BYTES`. -/
def maxCoordinatorRetainedBytes : ℕ := 64 * 1024 * 1024

/-- `MAX_REVISIONS`. -/
def maxRevisions : ℕ := 2000

/-- Whether an attempt of the workflow may still report. -/
def Workflow.reserves (w : Workflow α) : Bool :=
  w.operations.any fun op =>
    (match op.leaseHash with
      | some hash => hash ≠ ""
      | none => false) && op.status = .uncertain

/-- The workflows with the creator, the role and the scope of a workflow. -/
def ownedIds (w : Workflow α) (documents : List (Document α)) : List String :=
  (documents.filterMap fun d => match d with
    | .continuity u =>
      if u.creatorId = w.creatorId ∧ u.creatorRole = w.creatorRole ∧ u.scope = w.scope then
        some u.workflowId
      else none
    | .event _ _ | .tombstone _ | .settings _ | .evidence _ | .access _ _ _ => none).dedup

/-- The last document of a workflow. -/
def lastOf (workflowId : String) (documents : List (Document α)) : Option (Workflow α) :=
  documents.foldl (fun found d => match d with
    | .continuity u => if u.workflowId = workflowId then some u else found
    | .event _ _ | .tombstone _ | .settings _ | .evidence _ | .access _ _ _ => found) none

/-- The bytes of a creator's workflows. -/
def usedBytes (w : Workflow α) (v : Vault α) : ℕ :=
  ((v.documents.filter fun s => match s.document.workflowId with
    | some id => decide (id ∈ ownedIds w v.contents)
    | none => false).map (Stored.bytes E)).sum

/-- The bytes kept free for the outcomes of a creator's attempts. -/
def reservedBytes (w : Workflow α) (v : Vault α) : ℕ :=
  ((((ownedIds w v.contents).filterMap fun id => lastOf id v.contents).filter (·.reserves)).map
    fun u => canonicalBytes (u.toJson E) + 2 * 65536 + 4096).sum

/-- `_check_storage_budget`. -/
def checkStorageBudget (w : Workflow α) (v : Vault α) : Except Raised Unit :=
  if w.creatorRole ≠ some coordinatorRole then .ok ()
  else if maxCoordinatorRetainedBytes < usedBytes E w v + reservedBytes E w v then
    .error (.valueError ("coordinator retained history limit reached; operator must export and " ++
      "delete finished workflows before admitting more work"))
  else .ok ()

/-- The revision turns work off, so it is never refused for space. -/
def Happening.isSafetyControl (event : Happening) : Bool :=
  decide (event ∈ [Happening.disabled, .abandoned])

/-- The revision records the end of an attempt. -/
def Happening.isFinishing (event : Happening) : Bool :=
  decide (event ∈ [Happening.completed, .needsConfirmation])

/-- How many revisions a workflow may have before another is saved. -/
def revisionLimit (w : Workflow α) (event : Happening) : ℕ :=
  let limit := if event.isSafetyControl || event.isFinishing then
    maxRevisions + w.operations.length + 2 else maxRevisions
  if event = .enabled then limit - 1 else limit

/-- The entries that are written when a workflow is saved. -/
def savedEntries (p : EvidencePrincipal) (x : Surroundings α) (w : Workflow α)
    (event : Happening) : List (Entry α) :=
  w.history ++ [.saved event p.principalId x.saved]

/-- The workflow that is written after them. -/
def savedWorkflow (x : Surroundings α) (w : Workflow α) : Workflow α :=
  { w with clockHighWater := some x.saved, revision := w.revision + 1, history := [] }

/-- `_save`: the entries of the history, and the workflow after them. -/
def save (p : EvidencePrincipal) (x : Surroundings α) (w : Workflow α) (event : Happening)
    (v : Vault α) : Except Raised (Workflow α × Vault α) := do
  raiseIf (v.captureMode ≠ .full)
    (.permissionError "continuity writes require full encrypted capture")
  raiseIf (movedBack E w x.saved) (.valueError "controller clock moved backwards; recovery paused")
  raiseIf (revisionLimit w event ≤ w.revision)
    (.valueError "workflow revision limit reached; no further changes admitted")
  let w' := savedWorkflow x w
  let v' := v.appendAll x
    ((savedEntries p x w event).map (.event w.workflowId) ++ [.continuity w'])
  if event.isSafetyControl || event.isFinishing then pure (w', v')
  else
    checkStorageBudget E w' v'
    pure (w', v')

end Atmem.Continuity
