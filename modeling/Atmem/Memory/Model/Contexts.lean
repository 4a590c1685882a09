import Atmem.Common.History
import Atmem.Memory.Model.Calls
/-!
# Contexts

A host asks for a context of records that were found for it, is handed the
text and its digest, and confirms that it showed it. A preparation is
confirmed once; a confirmation that comes again is answered with the receipt
it got the first time. Other operations may do to the rest of the store what
they will.
-/

namespace Atmem.Memory

open Relational

/-! ## Contracts -/

/-- A request for a context of some records. -/
structure ContextRequest where
  contextId : String
  candidateSetId : String
  scope : AuthorityScope
  recordIds : List String
  budgetChars : ℤ := 1800
deriving DecidableEq

/-- A context that was prepared, and its digest. -/
structure ContextPackage where
  contextId : String
  scope : AuthorityScope
  recordIds : List String
  context : String
  contextSha256 : String
  serializerVersion : String
  generation : ℕ
  expiresAt : Instant
  preparationId : String
deriving DecidableEq

/-- The host says that a context was shown. -/
structure ExposureConfirmation where
  confirmationId : String
  preparationId : String
  scope : AuthorityScope
  contextSha256 : String
  hostRunId : String
deriving DecidableEq

/-- What is kept of a context that was shown. -/
structure ExposureReceipt where
  receiptId : String
  preparationId : String
  scope : AuthorityScope
  contextSha256 : String
  exposedAt : Instant
  auditEventId : String
  replayed : Bool := false
deriving DecidableEq

/-! ## Tables -/

/-- A row of `protocol_candidate_sets`, with the records it makes eligible. -/
structure CandidateSetRow where
  candidateSetId : String
  subjectId : String
  agentId : String
  workspaceId : String
  generation : ℕ
  expiresAt : Instant
  candidates : List String
deriving DecidableEq

/-- A row of `protocol_preparations`. -/
structure PreparationRow where
  preparationId : String
  subjectId : String
  agentId : String
  workspaceId : String
  contextSha256 : String
  generation : ℕ
  expiresAt : Instant
  value : ContextPackage
deriving DecidableEq

/-- A row of `protocol_exposures`. -/
structure ExposureRow where
  confirmationId : String
  preparationId : String
  receipt : ExposureReceipt
deriving DecidableEq

/-- A primary key, and a unique column. -/
def exposureClash (a b : String × String) : Bool := eitherClash a b

/-- The columns that the unique constraints of the exposures are about. -/
def ExposureRow.key (r : ExposureRow) : String × String := (r.confirmationId, r.preparationId)

/-- The memory, the counters of its records' changes, and the tables of the
contexts. -/
structure ContextWorld where
  memory : MemoryWorld
  /-- `record_generations`. -/
  generations : String → ℕ := fun _ => 0
  candidateSets : Table CandidateSetRow (·.candidateSetId) idClash := .empty
  preparations : Table PreparationRow (·.preparationId) idClash := .empty
  exposures : Table ExposureRow ExposureRow.key exposureClash := .empty

namespace ContextWorld

/-- `get_protocol_candidate_set`. -/
def getProtocolCandidateSet (w : ContextWorld) (candidateSetId : String) :
    Option CandidateSetRow :=
  w.candidateSets.rows.find? fun r => r.candidateSetId = candidateSetId

/-- `get_protocol_preparation`. -/
def getProtocolPreparation (w : ContextWorld) (preparationId : String) : Option PreparationRow :=
  w.preparations.rows.find? fun r => r.preparationId = preparationId

/-- `get_protocol_exposure`. -/
def getProtocolExposure (w : ContextWorld) (confirmationId : String) : Option ExposureRow :=
  w.exposures.rows.find? fun r => r.confirmationId = confirmationId

/-- `get_protocol_exposure_for_preparation`. -/
def getProtocolExposureForPreparation (w : ContextWorld) (preparationId : String) :
    Option ExposureRow :=
  w.exposures.rows.find? fun r => r.preparationId = preparationId

/-- The record, where it may still be shown. -/
def eligibleRecord (w : ContextWorld) (subjectId recordId : String) : Option RecordRow :=
  (w.memory.store.getRecord subjectId recordId).filter fun r =>
    r.status = .active ∧ (subjectId, recordId) ∉ w.memory.store.exclusions

end ContextWorld

/-! ## Statements -/

/-- A computation over the records and the contexts. -/
abbrev Ctx (α : Type) : Type := ExceptT MemoryError (StateM ContextWorld) α

/-- A statement of the memory. -/
def onMemory {α : Type} (x : Mem α) : Ctx α := do
  let w ← get
  match x.run.run w.memory with
  | (.ok a, memory) => set { w with memory }; pure a
  | (.error e, memory) => set { w with memory }; throw e

/-- `if not condition: raise ValueError(message)`. -/
def require (condition : Bool) (message : String) : Ctx Unit :=
  if condition then pure () else throw (.valueError message)

/-! ## Preparing -/

/-- The first line of a context. -/
def contextHeader : String := "<atmem-context format=\"v1\">\n"

/-- The last line of a context. -/
def contextFooter : String := "</atmem-context>\n"

/-- A record, as a context holds it. -/
def memoryBlock (r : RecordRow) : String :=
  "<memory id=\"" ++ r.id ++ "\">\n" ++ String.ofList (strip r.content) ++ "\n</memory>\n"

/-- The records that fit, the first that does not ending the context. -/
def fitting (budgetChars : ℤ) (used : ℕ) : List RecordRow → List RecordRow
  | [] => []
  | r :: rest =>
    let block := memoryBlock r
    if (used + block.length : ℤ) > budgetChars then []
    else r :: fitting budgetChars (used + block.length) rest

/-- The version of the text's format. -/
def serializerVersion : String := "atmem-context-utf8-v1"

/-- Two minutes, in microseconds. -/
def preparationLifetime : ℕ := 120000000

/-- `prepare_context_v1`. -/
def prepareContextV1 (E : Engine) (request : ContextRequest) : Ctx ContextPackage := do
  let scope := request.scope.val
  match (← get).getProtocolCandidateSet request.candidateSetId with
  | none => throw (.valueError "candidate set was not found")
  | some candidateSet =>
    require ((candidateSet.subjectId, candidateSet.agentId, candidateSet.workspaceId) =
      (scope.subjectId, scope.agentId, scope.workspaceId))
      "candidate set is outside the authority scope"
    let now ← onMemory utcNow
    require (now ≤ candidateSet.expiresAt) "candidate set has expired"
    let generation := (← get).generations scope.subjectId
    require (candidateSet.generation = generation)
      "candidate set was invalidated by a memory change"
    -- each record once, as it was first asked for
    let requested := request.recordIds.eraseDups
    require (requested.all (· ∈ candidateSet.candidates))
      "context contains a record outside the eligible candidate set"
    match requested.mapM ((← get).eligibleRecord scope.subjectId) with
    | none => throw (.valueError "context record is no longer eligible")
    | some ordered =>
      let accepted := fitting request.budgetChars (contextHeader.length + contextFooter.length)
        ordered
      let context := contextHeader ++ String.join (accepted.map memoryBlock) ++ contextFooter
      let contextSha256 := "sha256:" ++ E.hashing.sha256Hex context
      let preparationId ← onMemory (newId E "prep")
      let expiresAt := (← onMemory utcNow) + preparationLifetime
      let result : ContextPackage :=
        { contextId := request.contextId, scope := request.scope
          recordIds := accepted.map (·.id), context, contextSha256, serializerVersion
          generation, expiresAt, preparationId }
      let row : PreparationRow :=
        { preparationId, subjectId := scope.subjectId, agentId := scope.agentId
          workspaceId := scope.workspaceId, contextSha256, generation, expiresAt
          value := result }
      match (← get).preparations.insert row with
      | none => throw .integrityError
      | some preparations =>
        modify fun w => { w with preparations }
        pure result

/-! ## Confirming -/

/-- What is checked of a preparation before it counts as shown. -/
def checkPreparation (confirmation : ExposureConfirmation) (prepared : PreparationRow) :
    Ctx Unit := do
  let scope := confirmation.scope.val
  require ((← get).getProtocolExposureForPreparation confirmation.preparationId).isNone
    "context preparation was already exposed"
  require ((prepared.subjectId, prepared.agentId, prepared.workspaceId) =
    (scope.subjectId, scope.agentId, scope.workspaceId))
    "context preparation is outside the authority scope"
  let now ← onMemory utcNow
  require (now ≤ prepared.expiresAt) "context preparation has expired"
  require (prepared.contextSha256 = confirmation.contextSha256)
    "exposed context digest does not match the preparation"
  require (prepared.generation = (← get).generations scope.subjectId)
    "context preparation was invalidated by a memory change"

/-- `confirm_exposure_v1`: a confirmation whose identifier is known is
answered with the receipt there is, before anything else is looked at. -/
def confirmExposureV1 (E : Engine) (confirmation : ExposureConfirmation) :
    Ctx ExposureReceipt := do
  match (← get).getProtocolExposure confirmation.confirmationId with
  | some replay =>
    let saved := replay.receipt
    pure { saved with scope := confirmation.scope, replayed := true }
  | none =>
    match (← get).getProtocolPreparation confirmation.preparationId with
    | none => throw (.valueError "context preparation was not found")
    | some prepared =>
      checkPreparation confirmation prepared
      let exposedAt ← onMemory utcNow
      let auditEventId ← onMemory (newId E "aud")
      let receiptId ← onMemory (newId E "ctxr")
      let receipt : ExposureReceipt :=
        { receiptId, preparationId := confirmation.preparationId, scope := confirmation.scope
          contextSha256 := confirmation.contextSha256, exposedAt, auditEventId }
      match (← get).exposures.insert
          ⟨confirmation.confirmationId, confirmation.preparationId, receipt⟩ with
      | none => throw .integrityError
      | some exposures =>
        modify fun w => { w with exposures }
        pure receipt

/-! ## Calls -/

/-- A call on the contexts, or what some other operation does to everything
but the receipts. -/
inductive ContextCall
  | prepare (request : ContextRequest)
  | confirm (confirmation : ExposureConfirmation)
  | other (change : ContextWorld → ContextWorld)

/-- What the calls return. -/
inductive ContextAnswer
  | prepared (package : ContextPackage)
  | confirmed (receipt : ExposureReceipt)
  | done
deriving DecidableEq

/-- The operation's transaction, rolled back where it raises. -/
def atomically {α : Type} (body : Ctx α) (w : ContextWorld) :
    Except MemoryError α × ContextWorld :=
  match body.run.run w with
  | (.ok a, w') => (.ok a, w')
  | (.error e, w') =>
    (.error e, { w with memory := { w'.memory with store := w.memory.store } })

/-- Each call is one transaction; other code leaves the exposures alone. -/
def ContextCall.body (E : Engine) :
    ContextCall → ContextWorld → Except MemoryError ContextAnswer × ContextWorld
  | .prepare request => atomically (.prepared <$> prepareContextV1 E request)
  | .confirm confirmation => atomically (.confirmed <$> confirmExposureV1 E confirmation)
  | .other change => fun w => (.ok .done, { change w with exposures := w.exposures })

end Atmem.Memory
