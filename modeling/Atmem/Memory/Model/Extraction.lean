import Atmem.Common.DerivedTable
import Atmem.Memory.Model.Proposals
/-!
# Governed extraction

A typed proposal is reconciled with the slot it is for, checked against the
evidence and the records it names, and then refused, kept for review, or
committed: the commit writes the new record, retires the records it
replaces, and keeps the lineage between them.
-/

namespace Atmem.Memory

open Relational

/-- `f"sha256:{sha256_hex(text)}"`. -/
def Engine.sha256 (E : Engine) (text : String) : String := "sha256:" ++ E.hashing.sha256Hex text

/-! ## Resolution context -/

/-- How many messages are read when nothing is said. -/
def defaultWindow : ℕ := 8

/-- The most messages that are read. -/
def maxWindow : ℕ := 64

/-- The records a proposal may be resolved against, each once. -/
structure ResolutionContext where
  subjectId : String
  scope : AuthorityScope
  records : List RecordRow
  distinct : records.Pairwise fun a b => a.id ≠ b.id

/-- No two records have one identifier. -/
theorem MemoryStore.records_distinct (s : MemoryStore) :
    s.records.rows.Pairwise fun a b => a.id ≠ b.id :=
  s.records.distinct.imp fun h => by simpa [idClash] using h

/-- So in a window of them. -/
theorem MemoryStore.boundedRecords_distinct (s : MemoryStore) (subjectId : String)
    (workspaceId : Option String) (limit : ℕ) :
    (s.boundedRecords subjectId workspaceId limit).Pairwise fun a b => a.id ≠ b.id := by
  have hrows := s.records_distinct.filter (p := fun r : RecordRow =>
    r.subjectId = subjectId ∧ r.status = .active ∧
      (workspaceId.all fun w => r.authorityWorkspaceId = none ∨ r.authorityWorkspaceId = some w) ∧
      (r.subjectId, r.id) ∉ s.exclusions)
  exact (((List.perm_insertionSort _ _).pairwise_iff fun h => h.symm).mpr hrows).sublist
    (List.take_sublist _ _)

/-- A record of the scope's workspace, or of none. -/
def inScope (scope : AuthorityScope) (r : RecordRow) : Bool :=
  r.raw.authorityScope.all fun recorded => recorded.val.workspaceId = scope.val.workspaceId

/-- `build_resolution_context`. -/
def buildResolutionContext (s : MemoryStore) (scope : AuthorityScope)
    (window : ℕ := defaultWindow) : ResolutionContext where
  subjectId := scope.val.subjectId
  scope
  records := (s.boundedRecords scope.val.subjectId (some scope.val.workspaceId)
    (min window maxWindow)).filter (inScope scope)
  distinct := (s.boundedRecords_distinct _ _ _).filter _

/-- A record without authority, or of the authority given. -/
def authorized (scope : AuthorityScope) (r : RecordRow) : Bool :=
  r.raw.authorityScope.all (· = scope)

/-! ## Preconditions -/

/-- The precondition that pins a record as it stands. -/
def pin (E : Engine) (r : RecordRow) : Except String ProposalPrecondition :=
  ProposalPrecondition.make
    { recordId := r.id, generation := r.generation, status := value r.status
      contentSha256 := E.sha256 r.content }

/-- A proposal made to replace the records given, whatever it said before. -/
def retarget (E : Engine) (p : ExtractionProposal) (action : ProposalAction)
    (rows : List RecordRow) (reason : String) (reviewRequired : Bool) :
    Except String ExtractionProposal := do
  let preconditions ← rows.mapM (pin E)
  ExtractionProposal.make { p.val with
    action
    affectedRecordIds := rows.map (·.id)
    preconditions
    reasonCodes := (p.val.reasonCodes ++ [reason]).eraseDups
    reviewRequired }

/-! ## Reconciliation -/

/-- A source whose word may replace what is known. -/
def trustedObservation (request : Option SourceRequest) : Bool :=
  request.any fun q => q.sourceType ∈ ["user_message", "agent_message"] ||
    (q.sourceType = "tool_output" && q.bindingAssurance ∈
      ["host_asserted", "host_authenticated", "verified_by_atmem"])

/-- The requests of the sources a proposal cites. -/
def MemoryStore.sourceRequests (s : MemoryStore) (evidence : List ProposalEvidence) :
    List (Option SourceRequest) :=
  evidence.filterMap fun e => (s.getProtocolSourceById e.val.sourceId).map (·.request)

/-- The names a speaker goes by. -/
def isSpeaker (U : UnicodeTables) (subject : String) : Bool :=
  U.casefold subject ∈ ["user", "self", "speaker"]

/-- Whether a proposal is one that may take the place of a typed value. -/
def replacesSlot (p : ExtractionProposal) (unit : MemoryUnit) : Bool :=
  p.val.action = .add && truthy p.val.factKey &&
    (unit.val.kind = .atomicFact || unit.val.kind = .stateTransition ||
      (unit.val.kind = .environmentState && unit.val.payload.entity = unit.val.payload.relation &&
        unit.val.payload.entity ≠ some "episode"))

/-- The records of the slot: of the fact key, of the typed slot, and of the
relation, which was a speaker's fact key once. -/
def MemoryStore.slotCandidates (s : MemoryStore) (U : UnicodeTables) (p : ExtractionProposal)
    (payload : UnitPayload) : List RecordRow :=
  let scope := p.val.scope.val
  s.activeRecordsForFactKey scope.subjectId p.val.factKey ++
    match payload.subject, payload.relation with
    | some subject, some relation =>
      if subject = "" ∨ relation = "" then []
      else s.activeRecordsForTypedSlot scope.subjectId scope.workspaceId subject relation ++
        if isSpeaker U subject then
          s.activeRecordsForFactKey scope.subjectId (some (U.casefold relation))
        else []
    | _, _ => []

/-- Whether what a record holds is of the slot. -/
def slotCompatible (U : UnicodeTables) (payload : UnitPayload) (r : RecordRow) : Bool :=
  let subject := payload.subject.getD ""
  let relation := payload.relation.getD ""
  match r.raw.typedUnit with
  | none => isSpeaker U subject
  | some unit =>
    let existingSubject := MemoryStore.slotSubject unit
    let existingRelation := unit.payload.relation
    truthy existingSubject && truthy existingRelation &&
      U.casefold (str existingSubject) = U.casefold subject &&
      U.casefold (str existingRelation) = U.casefold relation

/-- The first record of each identifier. -/
def distinctById : List RecordRow → List RecordRow
  | [] => []
  | r :: rs => r :: (distinctById rs).filter (·.id ≠ r.id)

/-- The records a typed value would take the place of. -/
def MemoryStore.slotMatches (s : MemoryStore) (U : UnicodeTables) (p : ExtractionProposal)
    (payload : UnitPayload) : List RecordRow :=
  distinctById ((s.slotCandidates U p payload).filter fun r =>
    slotCompatible U payload r && authorized p.val.scope r)

/-- When a unit's claim was so: when it happened, or was observed. -/
def MemoryUnitFields.at (unit : MemoryUnitFields) : Option Timestamp :=
  unit.eventAt.or unit.observedAt

/-- An observation older than what is known. -/
def historicalObservation (unit : MemoryUnitFields) (rows : List RecordRow) : Bool :=
  (MemoryUnitFields.at unit).any fun proposed =>
    (rows.filterMap fun r => r.raw.typedUnit.bind MemoryUnitFields.at).any fun existing =>
      proposed.moment < existing.moment

/-- `_reconcile_typed_proposal`. -/
def reconcileTypedProposal (E : Engine) (s : MemoryStore) (p : ExtractionProposal) :
    Except String ExtractionProposal :=
  let requests := s.sourceRequests p.val.evidence
  -- what a source that is not trusted would change, a reviewer decides
  if p.val.action.mutates ∧ requests ≠ [] ∧ ¬ requests.all trustedObservation then
    ExtractionProposal.make { p.val with
      reviewRequired := true
      reasonCodes :=
        (p.val.reasonCodes ++ ["untrusted_observation_cannot_supersede"]).eraseDups }
  else match p.val.unit with
  | none => .ok p
  | some unit =>
    if ¬ replacesSlot p unit then .ok p
    else do
      let live := s.findLiveTypedIdentity p.val.scope.val.subjectId p.val.scope.val.workspaceId
        (← unit.semanticIdentity E.hashing)
      let rows := s.slotMatches E.unicode p unit.val.payload
      if live.isSome then pure p
      else if rows = [] then pure p
      else
        -- an observation of the past is added beside the value there is
        let historical := historicalObservation unit.val rows
        let shapeConflict := rows.any fun r =>
          r.raw.typedUnit.any fun u => u.kind ≠ unit.val.kind
        retarget E p (if historical then .add else .supersede) rows
          (if historical then "historical_observation"
            else if shapeConflict then "typed_shape_conflict"
            else "typed_compatible_update")
          (p.val.reviewRequired || shapeConflict)

/-- The active records of the slot an untyped fact is added to. -/
def MemoryStore.fullSlot (s : MemoryStore) (p : ExtractionProposal) : List RecordRow :=
  (s.activeRecordsForFactKey p.val.scope.val.subjectId p.val.factKey).filter
    (authorized p.val.scope)

/-- An untyped fact replaces the whole of its slot. -/
def reconcileFullSlot (E : Engine) (s : MemoryStore) (p : ExtractionProposal) :
    Except String ExtractionProposal :=
  if p.val.unit = none ∧ p.val.action = .add ∧ truthy p.val.factKey ∧ s.fullSlot p ≠ [] then
    retarget E p .supersede (s.fullSlot p) "full_slot_reconciliation" p.val.reviewRequired
  else .ok p

/-! ## Evidence -/

/-- `_verified_typed_sources`: the bodies of the evidence, by source. -/
def verifiedTypedSources (E : Engine) (s : MemoryStore) (p : ExtractionProposal) :
    Except String (List (String × String)) :=
  let scope := p.val.scope.val
  if p.val.unit = none then .ok []
  else p.val.evidence.mapM fun e =>
    match s.getProtocolSourceById e.val.sourceId with
    | none => .error "typed proposal evidence is not available in this authority scope"
    | some source =>
      if (source.subjectId, source.agentId, source.workspaceId) ≠
          (scope.subjectId, scope.agentId, scope.workspaceId) then
        .error "typed proposal evidence is not available in this authority scope"
      else if source.sourceSha256 ≠ e.val.sourceSha256 then
        .error "typed proposal evidence digest does not match captured source"
      else match s.getEpisode scope.subjectId source.episodeId with
      | none => .error "typed proposal evidence body is no longer retained"
      | some episode =>
        if episode.message = "[purged]" ∨ ¬ source.retained then
          .error "typed proposal evidence body is no longer retained"
        else if E.sha256 episode.message ≠ e.val.sourceSha256 then
          .error "typed proposal evidence body failed digest verification"
        else .ok (e.val.sourceId, episode.message)

/-- `body[start:end]`. -/
def excerptOf (body : String) (e : ProposalEvidence) : String :=
  String.ofList ((body.toList.drop e.val.startOffset).take (e.val.endOffset - e.val.startOffset))

/-- `_verified_excerpt`: the span, and what is wrong with it. -/
def verifiedExcerpt (E : Engine) (body : String) (e : ProposalEvidence) : String × List String :=
  let excerpt := excerptOf body e
  let digested := if excerpt ≠ "" then excerpt else if body ≠ "" then body else " "
  if max body.length 1 < e.val.endOffset then ("", ["evidence_span_out_of_range"])
  else if e.val.excerptSha256 ≠ E.sha256 digested then ("", ["evidence_excerpt_digest_mismatch"])
  else (excerpt, [])

/-! ## Validation -/

/-- What the validator says of a proposal. -/
structure Validation where
  reviewRequired : Bool
  reasonCodes : List String

/-- The classes a unit of a kind may be proposed under. -/
def expectedClasses : MemoryUnitKind → List MemoryClass
  | .atomicFact => [.durableFact]
  | .durableRule => [.durableFact, .procedure]
  | .environmentState => [.temporaryState]
  | .stateTransition => [.episode, .temporaryState]
  | .procedure => [.procedure]
  | .failureGotcha => [.durableFact, .procedure]
  | .premiseConstraint => [.durableFact]

/-- A reason, where the condition holds. -/
def reasonIf (condition : Bool) (reason : String) : List String :=
  if condition then [reason] else []

/-- The body an evidence span is cut from. -/
def bodyOf (bodies : List (String × String)) (sourceText : String) (e : ProposalEvidence) :
    String :=
  (bodies.lookup e.val.sourceId).getD sourceText

/-- What is wrong with the unit of a proposal. -/
def unitReasons (E : Engine) (p : ExtractionProposal) (unit : MemoryUnit) (sourceText : String)
    (bodies : List (String × String)) : List String :=
  let cited := unit.val.evidence.map fun e =>
    verifiedExcerpt E (bodyOf bodies sourceText e) e
  reasonIf (unit.val.confidence.value ≠ p.val.confidence.value)
      "typed_unit_confidence_mismatch" ++
    reasonIf (p.val.memoryClass ∉ expectedClasses unit.val.kind)
      "typed_unit_memory_class_mismatch" ++
    E.screen false unit.toDict.canonicalJson ++
    reasonIf (¬ ∀ e ∈ unit.val.evidence, e ∈ p.val.evidence)
      "typed_unit_evidence_not_declared_by_proposal" ++
    cited.flatMap (·.2) ++
    E.grounding unit.val (" ".intercalate (cited.map (·.1)))
      (unit.val.evidence.map (bodyOf bodies sourceText))

/-- What is wrong with the evidence of a proposal. -/
def evidenceReasons (E : Engine) (p : ExtractionProposal) (sourceText : String)
    (bodies : List (String × String)) : List String :=
  p.val.evidence.flatMap fun e =>
    if e.val.sourceSha256 ≠ E.sha256 (bodyOf bodies sourceText e) then
      ["evidence_source_digest_mismatch"]
    else (verifiedExcerpt E (bodyOf bodies sourceText e) e).2

/-- What moved of a record since a precondition was pinned. -/
def preconditionReasons (E : Engine) (c : ProposalPrecondition) (row : Option RecordRow) :
    List String :=
  match row with
  | none => ["precondition_record_not_eligible"]
  | some r =>
    reasonIf (r.generation ≠ c.val.generation) "stale_proposal_generation" ++
      reasonIf (value r.status ≠ c.val.status) "precondition_status_changed" ++
      reasonIf (E.sha256 r.content ≠ c.val.contentSha256) "precondition_content_changed"

/-- What is wrong with the records a proposal names. -/
def targetReasons (E : Engine) (p : ExtractionProposal) (context : ResolutionContext) :
    List String :=
  (p.val.preconditions.flatMap fun c =>
    preconditionReasons E c (context.records.find? (·.id = c.val.recordId))) ++
    p.val.affectedRecordIds.flatMap fun id =>
      reasonIf (context.records.all (·.id ≠ id)) "affected_record_not_eligible"

/-- `validate_proposal`. -/
def validateProposal (E : Engine) (p : ExtractionProposal) (sourceText : String)
    (bodies : List (String × String)) (context : ResolutionContext) (scope : AuthorityScope)
    (reviewConfidence : Rat) : Validation where
  reviewRequired := p.val.reviewRequired ||
    (p.val.action.mutates && p.val.confidence.value < reviewConfidence) ||
    "ambiguous_referent" ∈ p.val.reasonCodes
  reasonCodes :=
    (reasonIf (p.val.scope ≠ scope) "scope_mismatch" ++
      reasonIf (context.subjectId ≠ scope.val.subjectId) "resolution_context_outside_scope" ++
      (p.val.unit.toList.flatMap fun unit => unitReasons E p unit sourceText bodies) ++
      evidenceReasons E p sourceText bodies ++
      E.screen false sourceText ++
      (if truthy p.val.fact then E.screen false (str p.val.fact) else []) ++
      if p.val.action.mutates then targetReasons E p context else []).eraseDups

/-! ## Review policy -/

/-- The floating-point number `0.6`. -/
def defaultConfidence : Rat := 5404319552844595 / 9007199254740992

/-- What must wait for a person. -/
structure ReviewPolicy where
  minConfidence : Rat := defaultConfidence
  quarantineSensitive : Bool := true
  quarantineDestructive : Bool := true
  quarantineAmbiguous : Bool := true
  quarantineNonDurable : Bool := true

/-- A unit that says what an agent is to do. -/
def actionBearing (unit : MemoryUnit) : Bool :=
  unit.val.kind ∈ [MemoryUnitKind.durableRule, .failureGotcha, .procedure]

/-- `typed_content_is_sensitive`. -/
def typedContentIsSensitive (E : Engine) (p : ExtractionProposal) : Bool :=
  p.val.unit.any fun unit => E.sensitive unit.toDict.canonicalJson

/-- `requires_review`. -/
def ReviewPolicy.requiresReview (E : Engine) (policy : ReviewPolicy) (p : ExtractionProposal) :
    List String :=
  (reasonIf (p.val.confidence.value < policy.minConfidence && p.val.action.mutates)
      "low_confidence" ++
    reasonIf (policy.quarantineSensitive && E.sensitive (p.val.fact.getD "")) "sensitive_content" ++
    reasonIf (policy.quarantineSensitive && typedContentIsSensitive E p)
      "sensitive_typed_content" ++
    reasonIf (policy.quarantineDestructive && p.val.action = .supersede &&
      decide (1 < p.val.affectedRecordIds.length)) "destructive_multi_record_change" ++
    reasonIf (policy.quarantineAmbiguous && "ambiguous_referent" ∈ p.val.reasonCodes)
      "ambiguous_referent" ++
    reasonIf (policy.quarantineNonDurable && p.val.memoryClass ≠ .durableFact)
      "non_durable_class" ++
    reasonIf (p.val.unit.any actionBearing)
      "typed_action_requires_authorized_review").eraseDups

/-! ## Commit -/

/-- Where a committed fact comes from, and the tier that gives it. -/
structure Origin where
  episodeId : String
  sourceType : String
  trustTier : TrustTier

/-- `request.get("source_type") or "external_content"`. -/
def sourceTypeOf (request : Option SourceRequest) : String :=
  let sourceType := request.map (·.sourceType)
  if truthy sourceType then str sourceType else "external_content"

/-- The origin of a typed unit: its captured sources. -/
def MemoryStore.typedOrigin (s : MemoryStore) (unit : MemoryUnit) : Except String Origin :=
  match unit.val.evidence.map fun e => s.getProtocolSourceById e.val.sourceId with
  | some first :: rest =>
    if rest.any Option.isNone then .error "typed proposal source was not durably captured"
    else
      let rows := first :: rest.filterMap id
      let types := rows.map fun r => sourceTypeOf r.request
      let assurances := rows.map fun r => (r.request.map (·.bindingAssurance)).getD ""
      let within (values allowed : List String) : Bool := values.all (· ∈ allowed)
      .ok
        { episodeId := first.episodeId
          sourceType := match types.eraseDups with
            | [sourceType] => sourceType
            | _ => "external_content"
          trustTier :=
            if within types ["user_message", "agent_message"] && within assurances
                ["caller_asserted", "host_asserted", "host_authenticated", "verified_by_atmem"] then
              .trustedUser
            else if within types ["tool_output"] && within assurances
                ["host_asserted", "host_authenticated", "verified_by_atmem"] then
              .hostAssertedObservation
            else .untrustedContent }
  | _ => .error "typed proposal source was not durably captured"

/-- The origin of what is committed; a fact without a unit is an episode of
its own. -/
def originOf (E : Engine) (p : ExtractionProposal) (content : String) : Mem Origin :=
  match p.val.unit with
  | some unit => do liftMem (← readStore fun s => s.typedOrigin unit)
  | none => do
    let episodeId ← insertEpisode E p.val.scope.val.subjectId content "proposal"
    pure { episodeId, sourceType := "user_message", trustTier := .trustedUser }

/-- The records of the context a proposal names. -/
def targetsOf (p : ExtractionProposal) (context : ResolutionContext) : List RecordRow :=
  context.records.filter fun r => r.id ∈ p.val.affectedRecordIds

/-- A fact of an untrusted origin, or that replaces a tainted, untrusted or
inactive record, is quarantined. -/
def tainted (origin : Origin) (targets : List RecordRow) : Bool :=
  origin.trustTier = .untrustedContent || targets.any fun r =>
    r.raw.taintLabels ≠ [] || r.trustTier = .untrustedContent || r.status ≠ .active

/-- The text that is committed. -/
def committedContent (p : ExtractionProposal) (fact : Option String) : String :=
  match p.val.unit with
  | some unit => unit.val.payload.canonicalText
  | none => (fact.or p.val.fact).getD ""

/-- The late observation of a value that is no longer current. -/
def historical (p : ExtractionProposal) : Bool := "historical_observation" ∈ p.val.reasonCodes

/-- The record that is committed. -/
def committedRecord (E : Engine) (p : ExtractionProposal) (origin : Origin)
    (targets : List RecordRow) (content : String) (sessionId turnId : Option String) : NewRecord :=
  -- what rests on tainted evidence waits in quarantine
  let quarantine := tainted origin targets
  { subjectId := p.val.scope.val.subjectId
    content
    sourceType := origin.sourceType
    trustTier := if quarantine then .untrustedContent else origin.trustTier
    sourceSessionId := sessionId
    sourceTurnId := turnId
    episodeId := some origin.episodeId
    confidence := some p.val.confidence.value
    scope := "user_private"
    status := if quarantine then .quarantined else .active
    supersedesId := if historical p then none else targets.head?.map (·.id)
    factKey := p.val.factKey
    raw :=
      { authorityScope := some p.val.scope
        proposalId := some p.val.proposalId
        taintLabels := (targets.flatMap (·.raw.taintLabels) ++
          if quarantine then ["UNTRUSTED_CONTENT", "DERIVED_FROM_TAINTED"]
          else []).eraseDups.insertionSort (· ≤ ·)
        sensitivity := some (if typedContentIsSensitive E p then "sensitive" else "personal")
        typedUnit := p.val.unit.map fun unit => { unit.val with
          lifecycle := if quarantine then .quarantined else .active } } }

/-- What a commit reports. -/
structure Commit where
  recordIds : List String := []
  supersededIds : List String := []
  lineageIds : List String := []

/-- The relation a commit records to what it replaces. -/
def lineageRelation (p : ExtractionProposal) : String :=
  if "explicit_correction" ∈ p.val.reasonCodes then "corrects"
  else if p.val.action = .update then "refines"
  else "supersedes"

/-- The lineage of each record a proposal replaces. -/
def recordLineage (E : Engine) (p : ExtractionProposal) (recordId : String) :
    List RecordRow → Mem (List String)
  | [] => pure []
  | r :: rs => do
    let lineageId ← insertMemoryLineage E p.val.scope.val.subjectId (lineageRelation p) r.id
      recordId (E.sha256 r.content) r.generation (some p.val.proposalId)
    let others ← recordLineage E p recordId rs
    pure (lineageId :: others)

/-- Keep the late observation as history: it is superseded at once by what
is current. -/
def retireHistorical (E : Engine) (p : ExtractionProposal) (recordId currentId content : String) :
    Mem Commit := do
  let subjectId := p.val.scope.val.subjectId
  supersedeRecords subjectId [recordId] currentId
  let lineageId ← insertMemoryLineage E subjectId "precedes" recordId currentId
    (E.sha256 content) 0 (some p.val.proposalId)
  pure { recordIds := [recordId], supersededIds := [recordId], lineageIds := [lineageId] }

/-- Retire what the new record replaces. -/
def retireTargets (E : Engine) (p : ExtractionProposal) (recordId : String)
    (targets : List RecordRow) : Mem Commit := do
  supersedeRecords p.val.scope.val.subjectId (targets.map (·.id)) recordId
  let lineageIds ← recordLineage E p recordId targets
  pure { recordIds := [recordId], supersededIds := targets.map (·.id), lineageIds }

/-- A unit whose claim is live already is not committed again. -/
def checkCommit (E : Engine) (s : MemoryStore) (p : ExtractionProposal) : Except String Unit :=
  match p.val.unit with
  | none => .ok ()
  | some unit => do
    let _ ← verifiedTypedSources E s p
    if (s.findLiveTypedIdentity p.val.scope.val.subjectId p.val.scope.val.workspaceId
        (← unit.semanticIdentity E.hashing)).isSome then
      .error "typed semantic identity already has a live unit"

/-- The typed unit of a committed record, in the record's lifecycle, which
its identity leaves out. -/
def commitUnit (E : Engine) (p : ExtractionProposal) (recordId : String) (quarantine : Bool) :
    Mem Unit :=
  match p.val.unit with
  | none => pure ()
  | some unit => do
    insertTypedMemoryUnit
      { unit.val with lifecycle := if quarantine then .quarantined else .active }
      recordId (← liftMem (unit.semanticIdentity E.hashing))

/-- `_commit_extraction`. -/
def commitExtraction (E : Engine) (p : ExtractionProposal) (context : ResolutionContext)
    (sessionId turnId fact : Option String) : Mem Commit := do
  liftMem (← readStore fun s => checkCommit E s p)
  let content := committedContent p fact
  let origin ← originOf E p content
  let targets := targetsOf p context
  let recordId ← insertRecord E (committedRecord E p origin targets content sessionId turnId)
  commitUnit E p recordId (tainted origin targets)
  match historical p, targets with
  | true, current :: _ => retireHistorical E p recordId current.id content
  | _, _ => retireTargets E p recordId targets

/-! ## Submission -/

/-- What `submit_extraction_proposal` is given beside the proposal. -/
structure SubmitOptions where
  sourceText : String
  sessionId : Option String := none
  turnId : Option String := none
  window : ℕ := 64
  reviewConfidence : Rat := defaultConfidence
  reviewPolicy : Option ReviewPolicy := none
  resolutionContext : Option ResolutionContext := none

/-- The records a proposal names that fell out of the window, where they
are eligible. -/
def missingTargets (s : MemoryStore) (p : ExtractionProposal) (base : ResolutionContext) :
    List RecordRow :=
  let scope := p.val.scope
  let missing := (p.val.affectedRecordIds.eraseDups.filter fun id =>
    base.records.all (·.id ≠ id)).insertionSort (· ≤ ·)
  (missing.filterMap (s.getRecord scope.val.subjectId)).filter fun r =>
    r.status = .active ∧ r.id ∉ s.excludedRecordIds scope.val.subjectId ∧ authorized scope r

/-- A record is found by its identifier. -/
theorem MemoryStore.getRecord_id {s : MemoryStore} {subjectId recordId : String} {r : RecordRow}
    (h : s.getRecord subjectId recordId = some r) :
    r ∈ s.records.rows ∧ r.subjectId = subjectId ∧ r.id = recordId := by
  have hp := List.find?_some h
  exact ⟨List.mem_of_find?_eq_some h, by simpa using hp⟩

/-- So with the targets that are added to it. -/
theorem missingTargets_distinct (s : MemoryStore) (p : ExtractionProposal)
    (base : ResolutionContext) :
    (base.records ++ missingTargets s p base).Pairwise fun a b => a.id ≠ b.id := by
  have hnodup : ((p.val.affectedRecordIds.eraseDups.filter fun id =>
      base.records.all (·.id ≠ id)).insertionSort (· ≤ ·)).Nodup :=
    ((List.perm_insertionSort _ _).nodup_iff).mpr (List.Nodup.filter _ Derived.nodup_eraseDups)
  refine List.pairwise_append.mpr ⟨base.distinct, ?_, ?_⟩
  · refine List.Pairwise.filter _ (List.Pairwise.filterMap _ ?_ hnodup)
    intro a b hab r hr r' hr'
    rw [(s.getRecord_id hr).2.2, (s.getRecord_id hr').2.2]
    exact hab
  · intro r hr t ht heq
    obtain ⟨id, hid, hget⟩ := List.mem_filterMap.mp (List.mem_of_mem_filter ht)
    have hmissing := (List.mem_filter.mp ((List.perm_insertionSort _ _).mem_iff.mp hid)).2
    have hne := List.all_eq_true.mp hmissing r hr
    rw [heq, (s.getRecord_id hget).2.2] at hne
    simp at hne

/-- The context a proposal is checked against: those records included. -/
def submissionContext (s : MemoryStore) (p : ExtractionProposal) (base : ResolutionContext) :
    ResolutionContext :=
  { base with
    records := base.records ++ missingTargets s p base
    distinct := missingTargets_distinct s p base }

/-- The reasons a proposal must wait for review. -/
def quarantineReasons (E : Engine) (options : SubmitOptions) (p : ExtractionProposal) :
    List String :=
  let policy := options.reviewPolicy.getD { minConfidence := options.reviewConfidence }
  let reasons := policy.requiresReview E p
  if p.val.unit.any actionBearing then
    (reasons ++ ["typed_action_requires_authorized_review"]).eraseDups
  else reasons

/-- The refusals of the text a proposal would keep. -/
def semanticRefusals (E : Engine) (p : ExtractionProposal) : List String :=
  refusals (E.screen true (Json.obj [("fact", .ofOption .str p.val.fact),
    ("fact_key", .ofOption .str p.val.factKey),
    ("unit", .ofOption MemoryUnit.toDict p.val.unit)]).canonicalJson)

/-- Whether a household may hold a proposal at all: typed memory is for
encrypted ones. -/
def MemoryWorld.admitsTyped (w : MemoryWorld) : Bool := w.encrypted || w.allowInsecureTyped

/-- The claim of the unit was excluded by the user. -/
def MemoryStore.excludesUnit (s : MemoryStore) (E : Engine) (p : ExtractionProposal) :
    Except String Bool :=
  match p.val.unit with
  | none => .ok false
  | some unit => do
    pure (s.hasTypedExclusionIdentity p.val.scope.val.subjectId p.val.scope.val.workspaceId
      (← unit.exclusionIdentity E.hashing))

/-- What becomes of a proposal, before duplicates of a unit are looked for. -/
def disposition (E : Engine) (w : MemoryWorld) (options : SubmitOptions) (p : ExtractionProposal)
    (validation : Validation) : Except String (ReviewState × List String) :=
  let typed := p.val.unit.isSome
  let quarantine := quarantineReasons E options p
  if validation.reasonCodes ≠ [] ∨ semanticRefusals E p ≠ [] then
    .ok (.rejected, (validation.reasonCodes ++ semanticRefusals E p).eraseDups)
  else if typed ∧ ¬ w.admitsTyped then
    .ok (.rejected, p.val.reasonCodes ++ ["typed_memory_requires_encrypted_household"])
  else if p.val.action = .reject then .ok (.rejected, p.val.reasonCodes)
  else if p.val.action = .noop then .ok (.noop, p.val.reasonCodes)
  else do
    if ← w.store.excludesUnit E p then
      pure (.rejected, p.val.reasonCodes ++ ["typed_occurrence_previously_excluded"])
    else if validation.reviewRequired ∨ quarantine ≠ [] then
      pure (.pendingReview, p.val.reasonCodes ++ quarantine)
    else
      pure (.committed, p.val.reasonCodes ++
        reasonIf (typed && !w.encrypted) "insecure_typed_development_override")

/-- The live unit that makes the same claim. -/
def MemoryStore.liveDuplicate (s : MemoryStore) (E : Engine) (p : ExtractionProposal) :
    Except String (Option TypedUnitRow) :=
  match p.val.unit with
  | none => .ok none
  | some unit => do
    pure (s.findLiveTypedIdentity p.val.scope.val.subjectId p.val.scope.val.workspaceId
      (← unit.semanticIdentity E.hashing))

/-- `link_typed_occurrence_evidence`: `INSERT OR IGNORE`. -/
def linkOccurrence (row : TypedUnitRow) (evidence : List ProposalEvidence) (s : MemoryStore) :
    MemoryStore :=
  { s with
    unitEvidence := evidence.foldl (fun rows e =>
      let added : UnitEvidenceRow :=
        { subjectId := row.subjectId, workspaceId := row.workspaceId, unitId := row.unitId
          sourceId := e.val.sourceId, startOffset := e.val.startOffset
          endOffset := e.val.endOffset, excerptSha256 := e.val.excerptSha256 }
      if rows.any fun r => r.subjectId = added.subjectId ∧ r.workspaceId = added.workspaceId ∧
          r.unitId = added.unitId ∧ r.sourceId = added.sourceId ∧
          r.startOffset = added.startOffset ∧ r.endOffset = added.endOffset then rows
      else rows ++ [added]) s.unitEvidence }

/-- `insert_memory_proposal`, and `link_memory_proposal_sources` for what
is typed; what was settled is kept redacted. -/
def insertMemoryProposal (E : Engine) (p : ExtractionProposal) (submittedDigest : String)
    (outcome : ExtractionOutcome) : Mem MemoryProposalRow := do
  let scope := p.val.scope.val
  let pending : Bool := outcome.state = .pendingReview
  let decidedAt ← if pending then pure none else some <$> utcNow
  let createdAt ← utcNow
  let typed := p.val.unit.isSome
  let row : MemoryProposalRow :=
    { proposalId := p.val.proposalId, subjectId := scope.subjectId, agentId := scope.agentId
      workspaceId := scope.workspaceId, idempotencyKey := p.val.idempotencyKey
      proposalSha256 := submittedDigest, action := p.val.action, memoryClass := p.val.memoryClass
      -- a row that is settled keeps no text
      factKey := if outcome.state = .rejected ∨ (typed ∧ ¬ pending) then none else p.val.factKey
      reviewState := outcome.state, reasonCodes := outcome.reasonCodes
      proposal := if semanticRefusals E p ≠ [] ∨ (typed ∧ ¬ pending) then none else some p
      outcome, createdAt, decidedAt }
  match (← get).store.memoryProposals.insert row with
  | none => throw .integrityError
  | some memoryProposals =>
    writeStore fun s => { s with
      memoryProposals
      proposalSources := s.proposalSources ++
        if typed then
          ((p.val.evidence.map fun e => (⟨p.val.proposalId, e.val.sourceId⟩ : ProposalSourceRow)).eraseDups).filter
            (· ∉ s.proposalSources)
        else [] }
    pure row

/-- What a proposal that is not settled before comes to: the duplicate it
repeats, the commit, or nothing. -/
def carryOut (E : Engine) (options : SubmitOptions) (p : ExtractionProposal)
    (context : ResolutionContext) (verdict : ReviewState × List String) :
    Mem ExtractionOutcome := do
  if verdict.1 = .committed then
    match ← liftMem (← readStore fun s => s.liveDuplicate E p) with
    | some duplicate =>
      writeStore (linkOccurrence duplicate (p.val.unit.toList.flatMap (·.val.evidence)))
      pure { state := .noop
             reasonCodes := (verdict.2 ++ ["duplicate_semantic_identity"]).eraseDups
             recordIds := [duplicate.recordId] }
    | none =>
      let commit ← commitExtraction E p context options.sessionId options.turnId none
      pure { state := .committed, reasonCodes := verdict.2.eraseDups
             recordIds := commit.recordIds, supersededRecordIds := commit.supersededIds
             lineageIds := commit.lineageIds }
  else pure { state := verdict.1, reasonCodes := verdict.2.eraseDups }

/-- The proposal as it is decided on, with its evidence and its context. -/
structure Prepared where
  proposal : ExtractionProposal
  bodies : List (String × String)
  context : ResolutionContext

/-- What happens to a proposal before it is validated. -/
def prepare (E : Engine) (s : MemoryStore) (options : SubmitOptions) (p : ExtractionProposal) :
    Except String Prepared := do
  let p ← reconcileTypedProposal E s p
  let bodies ← verifiedTypedSources E s p
  let base := options.resolutionContext.getD
    (buildResolutionContext s p.val.scope options.window)
  if base.subjectId ≠ p.val.scope.val.subjectId ∨ base.scope ≠ p.val.scope then
    .error "resolution context does not match proposal authority"
  let p ← reconcileFullSlot E s p
  pure ⟨p, bodies, submissionContext s p base⟩

/-- `submit_extraction_proposal`. -/
def submitExtractionProposal (E : Engine) (p : ExtractionProposal) (options : SubmitOptions) :
    Mem MemoryProposalRow := do
  let submittedDigest := p.digest E.hashing
  let scope := p.val.scope.val
  match ← readStore fun s =>
      s.findMemoryProposal scope.subjectId scope.agentId scope.workspaceId p.val.idempotencyKey with
  | some existing =>
    if existing.proposalSha256 ≠ submittedDigest then
      throw (.valueError "proposal idempotency key was reused with a different payload")
    pure existing
  | none =>
    let prepared ← liftMem (← readStore fun s => prepare E s options p)
    let validation := validateProposal E prepared.proposal options.sourceText prepared.bodies
      prepared.context p.val.scope options.reviewConfidence
    let verdict ← liftMem (disposition E (← get) options prepared.proposal validation)
    let outcome ← carryOut E options prepared.proposal prepared.context verdict
    insertMemoryProposal E prepared.proposal submittedDigest outcome

end Atmem.Memory
