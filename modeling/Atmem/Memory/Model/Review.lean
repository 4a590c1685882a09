import Atmem.Memory.Model.Extraction
/-!
# Review

A proposal that waits is decided once by a person: refused, or approved, as
it is or with its text edited. What it was made against is checked again
before anything is committed.
-/

namespace Atmem.Memory

open Relational

/-- What a reviewer decides. -/
inductive ReviewDecision
  | approve
  | editAndApprove (editedFact : String)
  | reject
deriving DecidableEq

/-- An authority to review that a principal presents, and whether its token
was issued to it here and not used yet. -/
structure ReviewAuthorization where
  issued : Bool
  subjectId : String
  agentId : String
  workspaceId : String
  scopes : List String
deriving DecidableEq

/-- `verify_review_authorization`. -/
def ReviewAuthorization.verify (a : ReviewAuthorization) (stored : MemoryProposalRow)
    (required : List String) : Except MemoryError Unit := do
  if ¬ a.issued then
    throw (.permissionError "procedure review authorization was not issued by AtMem")
  for scope in required do
    let aliases := scope :: if scope = "procedure:review" then ["procedure"] else []
    if ¬ aliases.any (· ∈ a.scopes) then
      throw (.permissionError ("review authorization requires the " ++ scope ++ " scope"))
  if a.subjectId ≠ stored.subjectId then
    throw (.permissionError "procedure review authority is outside the subject scope")
  if a.agentId ≠ stored.agentId then
    throw (.permissionError "procedure review authority is outside the agent scope")
  if a.workspaceId ≠ stored.workspaceId then
    throw (.permissionError "procedure review authority is outside the workspace scope")

/-- A proposal whose approval lets an agent act. -/
def needsAuthorization (stored : MemoryProposalRow) : Bool :=
  stored.memoryClass = .procedure || (stored.proposal.bind (·.val.unit)).any actionBearing

/-- The authorization a decision needs, or offers. -/
def checkAuthorization (stored : MemoryProposalRow) (authorization : Option ReviewAuthorization) :
    Except MemoryError Unit :=
  match authorization with
  | none =>
    if needsAuthorization stored then
      .error (.permissionError "procedure review requires authenticated scoped authorization")
    else .ok ()
  | some a =>
    let required := (if needsAuthorization stored then ["procedure:review"] else []) ++
      if "history_import:review" ∈ a.scopes then ["history_import:review"] else []
    if required = [] then
      .error (.permissionError
        "non-procedural automated review requires history_import:review")
    else a.verify stored required

/-- `_precondition_drift`: what moved in the store since the proposal was
submitted. -/
def preconditionDrift (E : Engine) (s : MemoryStore) (subjectId : String)
    (p : ExtractionProposal) : List String :=
  ((p.val.preconditions.flatMap fun c =>
    preconditionReasons E c (s.getRecord subjectId c.val.recordId)) ++
    p.val.affectedRecordIds.flatMap fun id =>
      reasonIf ((s.getRecord subjectId id).all (·.status ≠ .active))
        "affected_record_not_eligible").eraseDups

/-- What moved since, the evidence of a typed proposal included. -/
def drift (E : Engine) (s : MemoryStore) (subjectId : String) (p : ExtractionProposal)
    (context : ResolutionContext) : List String :=
  preconditionDrift E s subjectId p ++
    match p.val.unit, verifiedTypedSources E s p with
    | none, _ => []
    | some _, .error _ => ["typed_evidence_no_longer_valid"]
    | some _, .ok [] => []
    | some _, .ok (body :: bodies) =>
      (validateProposal E p body.2 (body :: bodies) context p.val.scope 0).reasonCodes

/-- The text that is approved. -/
def ReviewDecision.fact (decision : ReviewDecision) (p : ExtractionProposal) : Option String :=
  match decision with
  | .editAndApprove editedFact => some (String.ofList (strip editedFact))
  | _ => p.val.fact

/-- The reason a decision leaves. -/
def ReviewDecision.reason : ReviewDecision → String
  | .editAndApprove _ => "edited_and_approved_by_reviewer"
  | .approve => "approved_by_reviewer"
  | .reject => "rejected_by_reviewer"

/-- What a decision comes to. -/
def reviewOutcome (E : Engine) (stored : MemoryProposalRow) (p : ExtractionProposal)
    (decision : ReviewDecision) (sessionId : Option String) : Mem ExtractionOutcome := do
  let settled (state : ReviewState) (reasons : List String) : ExtractionOutcome :=
    { state, reasonCodes := (stored.reasonCodes ++ reasons).eraseDups }
  if decision = .reject then pure (settled .rejected [decision.reason])
  else
    let fact := decision.fact p
    let screening := E.screen true (Json.obj [("fact", .ofOption .str fact),
      ("fact_key", .ofOption .str p.val.factKey)]).canonicalJson
    let context ← readStore fun s => buildResolutionContext s p.val.scope
    let drifted ← readStore fun s => drift E s stored.subjectId p context
    if screening ≠ [] then pure (settled .rejected screening)
    else if drifted ≠ [] then pure (settled .stale drifted)
    else if ¬ p.val.action.mutates then pure (settled .noop ["approved_without_mutation"])
    else
      match ← liftMem (← readStore fun s => s.liveDuplicate E p) with
      | some _ => pure (settled .noop ["duplicate_semantic_identity"])
      | none =>
        let commit ← commitExtraction E p context sessionId none fact
        pure { settled .committed [decision.reason] with
          recordIds := commit.recordIds
          supersededRecordIds := commit.supersededIds
          lineageIds := commit.lineageIds }

/-- `settle_memory_proposal`, under the pending-only guard; what is typed is
redacted first. -/
def settleMemoryProposal (p : ExtractionProposal) (proposalId : String)
    (outcome : ExtractionOutcome) : Mem Unit := do
  if p.val.unit.isSome then
    writeStore fun s => { s with
      memoryProposals := s.memoryProposals.update (·.proposalId = proposalId)
        (fun r => { r with proposal := none, factKey := none }) fun _ => rfl }
  let now ← utcNow
  let pending : Bool ← readStore fun s =>
    (s.getMemoryProposal proposalId).any (·.reviewState = .pendingReview)
  if ¬ pending then
    throw (.valueError ("proposal " ++ proposalId ++ " was decided concurrently"))
  writeStore fun s => { s with
    memoryProposals := s.memoryProposals.update (·.proposalId = proposalId)
      (fun r => { r with reviewState := outcome.state, outcome, decidedAt := some now })
      fun _ => rfl }

/-- `ReviewService.decide`. -/
def decideReview (E : Engine) (proposalId : String) (decision : ReviewDecision)
    (sessionId : Option String) (authorization : Option ReviewAuthorization) :
    Mem ExtractionOutcome := do
  match decision with
  | .editAndApprove editedFact =>
    if strip editedFact = [] then
      throw (.valueError "edit_and_approve requires the edited fact text")
  | _ => pure ()
  match ← readStore fun s => s.getMemoryProposal proposalId with
  | none => throw (.valueError ("unknown proposal: " ++ proposalId))
  | some stored =>
    if stored.reviewState ≠ .pendingReview then
      throw (.valueError ("proposal " ++ proposalId ++ " was already decided"))
    let edited : Bool := match decision with
      | .editAndApprove _ => true
      | _ => false
    -- another text would leave the payload behind
    if edited ∧ (stored.proposal.bind (·.val.unit)).isSome then
      throw (.valueError "typed proposals cannot be text-edited")
    match checkAuthorization stored authorization with
    | .error e => throw e
    | .ok () =>
      match stored.proposal with
      | none => throw (.keyError "idempotency_key")
      | some p =>
        let outcome ← reviewOutcome E stored p decision sessionId
        settleMemoryProposal p proposalId outcome
        pure outcome

end Atmem.Memory
