import Atmem.Memory.Model.Statements
/-!
# Memory proposals

A host captures a source message, a model proposes a fact from it, and the
policy decides what becomes of the fact: it is admitted, set aside for
review as uncertain or as a conflict, taken for a duplicate, or refused
where it holds what no memory may hold.
-/

namespace Atmem.Memory

open Relational

/-! ## Sources -/

/-- `capture_source`: a source that was captured before is answered again,
but not once it is redacted. -/
def captureSource (E : Engine) (request : SourceCaptureRequest) : Mem SourceCaptureResult := do
  let scope := request.val.scope.val
  let payloadSha256 := "sha256:" ++ E.hashing.sha256Hex request.toDict.canonicalJson
  match ← readStore fun s =>
      s.getProtocolSource scope.workspaceId scope.agentId request.val.idempotencyKey with
  | some existing =>
    if existing.payloadSha256 ≠ payloadSha256 then
      throw (.valueError "source idempotency key was reused with a different payload")
    -- a source that is redacted has no audit event to answer with
    if existing.request = none then throw (.keyError "audit_event_id")
    pure
      { sourceId := existing.sourceId, episodeId := existing.episodeId
        sourceSha256 := existing.sourceSha256, replayed := true, retained := existing.retained }
  | none =>
    if ← readStore fun s => (s.getProtocolSourceById request.val.sourceId).isSome then
      throw (.valueError "source_id already belongs to another capture")
    let sourceSha256 := request.sourceSha256 E.hashing
    let message := if request.val.retainBody then request.val.message else "[body not retained]"
    let episodeId ← insertEpisode E scope.subjectId message request.val.sourceType
    let row : ProtocolSourceRow :=
      { sourceId := request.val.sourceId, idempotencyKey := request.val.idempotencyKey
        payloadSha256, subjectId := scope.subjectId, agentId := scope.agentId
        workspaceId := scope.workspaceId, episodeId, sourceSha256
        request := some
          { sourceType := request.val.sourceType
            bindingAssurance := request.val.bindingAssurance }
        retained := request.val.retainBody }
    -- the time of the row, which nothing reads
    let _ ← utcNow
    match (← get).store.sources.insert row with
    | none => throw .integrityError
    | some sources =>
      writeStore fun s => { s with sources }
      pure
        { sourceId := request.val.sourceId, episodeId, sourceSha256, replayed := false
          retained := request.val.retainBody }

/-! ## Checks -/

/-- The sources a proposal cites, all captured within its authority, one of
them with the digest it is bound to. -/
def MemoryStore.citedSources (s : MemoryStore) (p : MemoryProposal) :
    Except String (List ProtocolSourceRow) :=
  let scope := p.val.scope.val
  let sources := p.val.sourceIds.filterMap s.getProtocolSourceById
  if p.val.sourceIds.any fun id => (s.getProtocolSourceById id).isNone then
    .error "proposal references an unknown source_id"
  else if sources.any fun r =>
      (r.subjectId, r.agentId, r.workspaceId) ≠
        (scope.subjectId, scope.agentId, scope.workspaceId) then
    .error "proposal source is outside the authority scope"
  else if p.val.sourceBinding.val.sourceSha256 ∉ sources.map (·.sourceSha256) then
    .error "proposal source binding does not match a captured source"
  else .ok sources

/-- A record the proposal says it is related to, of its own authority. -/
def MemoryStore.relatedRecord (s : MemoryStore) (scope : AuthorityScope) (recordId : String) :
    Except String RecordRow :=
  match s.getRecord scope.val.subjectId recordId with
  | none => .error "proposal references an unknown related record"
  | some related =>
    if related.raw.authorityScope = some scope then .ok related
    else .error "related record is outside the authority scope"

/-- The records a proposal says it is related to. -/
def MemoryStore.relatedRecords (s : MemoryStore) (p : MemoryProposal) :
    Except String (List RecordRow) :=
  p.val.relatedRecordIds.mapM (s.relatedRecord p.val.scope)

/-- The reasons no memory may hold a text for. -/
def refusals (reasons : List String) : List String :=
  reasons.filter (· ∈ ["secret_material_detected", "explicit_exclusion_signal"])

/-- The text that is screened of a proposal. -/
def screenedPayload (p : MemoryProposal) : String :=
  (Json.obj [("fact", .str p.val.fact), ("fact_key", .ofOption .str p.val.factKey),
    ("entities", .arr (p.val.entities.map fun e => .obj (e.map fun kv =>
      (kv.1, .str kv.2))))]).canonicalJson

/-- Why a proposal is refused, if it is. -/
def refusalReasons (E : Engine) (p : MemoryProposal) : List String :=
  refusals (E.screen true (screenedPayload p))

/-- The slot a proposal is for, once nothing is refused of it. -/
def proposedKey (E : Engine) (p : MemoryProposal) : Except String (Option String) :=
  if refusalReasons E p ≠ [] then .ok none else canonicalizeFactKey E.unicode p.val.factKey

/-! ## The verdict -/

/-- What the policy weighs of a proposal's sources and related records. -/
structure Provenance where
  sources : List ProtocolSourceRow
  related : List RecordRow

/-- Every source is a message of a turn the host or the memory vouches for. -/
def Provenance.trustedSource (v : Provenance) : Bool :=
  v.sources ≠ [] ∧ ∀ r ∈ v.sources, r.request.any fun q =>
    q.sourceType ∈ ["user_message", "agent_message"] ∧
      q.bindingAssurance ∈ ["host_authenticated", "verified_by_atmem"]

/-- The taint of the related records. -/
def Provenance.parentTaintLabels (v : Provenance) : List String :=
  v.related.flatMap (·.raw.taintLabels)

/-- A record it is derived from is tainted, untrusted or not in force. -/
def Provenance.parentTainted (v : Provenance) : Bool :=
  v.parentTaintLabels ≠ [] ∨ ∃ r ∈ v.related, r.trustTier = .untrustedContent ∨ r.status ≠ .active

/-- The labels of the new record, in order and once each. -/
def Provenance.taintLabels (v : Provenance) : List String :=
  (v.parentTaintLabels ++ (if v.trustedSource then [] else ["UNTRUSTED_CONTENT"]) ++
    if v.parentTainted then ["UNTRUSTED_CONTENT", "DERIVED_FROM_TAINTED"]
    else []).eraseDups.insertionSort (· ≤ ·)

/-- Whether a proposal is admitted without review. -/
def safeAdd (p : MemoryProposal) (v : Provenance) (conflicts : List RecordRow) : Bool :=
  p.val.suggestedAction ∈ [Relationship.add, .supports, .extends] ∧
    p.val.sensitivity ∉ [Sensitivity.sensitive, .restricted] ∧ conflicts = [] ∧
    v.trustedSource ∧ ¬ v.parentTainted

/-- What becomes of a proposal that was not refused. -/
def admissionDecision (p : MemoryProposal) (v : Provenance) (conflicts : List RecordRow) :
    AdmissionDecision :=
  if safeAdd p v conflicts then .active else if conflicts ≠ [] then .conflict else .quarantined

/-- And why. -/
def admissionReason (p : MemoryProposal) (v : Provenance) (conflicts : List RecordRow) : String :=
  if safeAdd p v conflicts then "trusted_source_policy_admitted"
  else if conflicts ≠ [] then "conflicts_with_active_record"
  else if v.parentTainted then "derived_from_tainted_memory"
  else "model_proposal_requires_review"

/-- The record that is made of a proposal. -/
def proposedRecord (p : MemoryProposal) (v : Provenance) (factKey : Option String)
    (conflicts : List RecordRow) : NewRecord :=
  let trusted : Bool := v.trustedSource && !v.parentTainted
  let first := v.sources.head?
  { subjectId := p.val.scope.val.subjectId
    content := p.val.fact
    sourceType := if trusted then str ((first.bind (·.request)).map (·.sourceType))
      else "external_content"
    trustTier := if trusted then .trustedUser else .untrustedContent
    sourceSessionId := p.val.sessionId
    sourceTurnId := p.val.turnId
    episodeId := first.map (·.episodeId)
    confidence := some p.val.confidence.value
    scope := "atbot_model_proposal"
    status := if safeAdd p v conflicts then .active else .quarantined
    factKey
    raw :=
      { authorityScope := some p.val.scope
        proposalId := some p.val.proposalId
        sourceIds := p.val.sourceIds
        sensitivity := some (value p.val.sensitivity)
        taintLabels := v.taintLabels } }

/-! ## Submission -/

/-- Where a duplicate is looked for. -/
def duplicateStatuses : List RecordStatus := [.active, .quarantined]

/-- What the policy makes of a proposal that is neither a replay nor out of
its authority. -/
def admissionOf (E : Engine) (p : MemoryProposal) (v : Provenance) (factKey : Option String) :
    Mem MemoryAdmission := do
  let subjectId := p.val.scope.val.subjectId
  let admission : MemoryAdmission :=
    { proposalId := p.val.proposalId, decision := .rejected, reasonCodes := refusalReasons E p
      relatedRecordIds := p.val.relatedRecordIds }
  if refusalReasons E p ≠ [] then pure admission
  else
    match ← readStore fun s => s.findDuplicateRecord E.unicode subjectId p.val.fact
        duplicateStatuses with
    | some duplicate =>
      pure { admission with
        decision := .duplicate
        reasonCodes := ["semantic_record_already_exists"]
        recordIds := [duplicate.id] }
    | none =>
      let conflicts ← readStore fun s => s.activeRecordsForFactKey subjectId factKey
      let recordId ← insertRecord E (proposedRecord p v factKey conflicts)
      let active := safeAdd p v conflicts
      pure { admission with
        decision := admissionDecision p v conflicts
        reasonCodes := [admissionReason p v conflicts]
        recordIds := if active then [recordId] else []
        candidateIds := if active then [] else [recordId]
        reviewRequired := !active }

/-- `submit_proposal`. -/
def submitProposal (E : Engine) (p : MemoryProposal) : Mem MemoryAdmission := do
  let scope := p.val.scope.val
  let payloadSha256 := p.payloadDigest E.hashing
  -- a key that looks like a digest has to be this payload's
  if "sha256:".toList.isPrefixOf p.val.idempotencyKey.toList ∧
      p.val.idempotencyKey ≠ payloadSha256 then
    throw (.valueError "sha256 idempotency key does not match proposal payload")
  match ← readStore fun s =>
      s.getProtocolProposal scope.workspaceId scope.agentId p.val.idempotencyKey with
  | some existing =>
    if existing.payloadSha256 ≠ payloadSha256 then
      throw (.valueError "proposal idempotency key was reused with a different payload")
    pure { existing.admission with replayed := true }
  | none =>
    let sources ← liftMem (← readStore fun s => s.citedSources p)
    let related ← liftMem (← readStore fun s => s.relatedRecords p)
    let factKey ← liftMem (proposedKey E p)
    let admission ← admissionOf E p ⟨sources, related⟩ factKey
    let _ ← utcNow
    let row : ProtocolProposalRow :=
      { proposalId := p.val.proposalId, idempotencyKey := p.val.idempotencyKey, payloadSha256
        subjectId := scope.subjectId, agentId := scope.agentId, workspaceId := scope.workspaceId
        proposal := if admission.decision = .rejected then none else some p
        admission }
    match (← get).store.protocolProposals.insert row with
    | none => throw .integrityError
    | some protocolProposals =>
      writeStore fun s => { s with protocolProposals }
      pure admission

end Atmem.Memory
