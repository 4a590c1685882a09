import Atmem.Common.History
import Atmem.Memory.Model.Remember
import Atmem.Memory.Model.Review
/-!
# Runs of the memory

One constructor per operation, with the arguments it takes, and what it
runs. A store that is reached begins empty and takes operations one after
the other, each in its transaction; it may also take in what another store
that is reached has exported. What is called by any number of connections
comes one after the other too, for each call is one transaction, or one read
outside of any: what takes more than one takes more than one call.
-/

namespace Atmem.Memory

open Relational

/-! ## Opening a store -/

/-- `SEARCH_INDEX_VERSION`. -/
def searchIndexVersion : String := "scoped-postings-v3-fact-only"

/-- `_migrate_fts`: the full text is built anew where it is missing, or its
map is. -/
def MemoryStore.migrateFts (s : MemoryStore) (missing : Bool) : MemoryStore :=
  if s.ftsEnabled ∧ (missing ∨ (s.ftsRows ≠ [] ∧ s.ftsMap = [])) then s.rebuildFts else s

/-- The columns of authority, taken from `raw` again. -/
def RecordRow.materialized (r : RecordRow) : RecordRow :=
  let scope := r.raw.authorityScope.map (·.val)
  { r with
    authoritySubjectId := scope.map (·.subjectId)
    authorityWorkspaceId := scope.map (·.workspaceId)
    sensitivityClass := if truthy r.raw.sensitivity then str r.raw.sensitivity else "personal"
    authorityMaterialized := true }

/-- The row with these columns: it is written only where they differ. -/
def RecordRow.rematerialize (r : RecordRow) : RecordRow :=
  if r.materialized = r then r else { r.materialized with generation := r.generation + 1 }

theorem RecordRow.rematerialize_id (r : RecordRow) : r.rematerialize.id = r.id := by
  unfold rematerialize
  split <;> rfl

/-- `_backfill_search_terms_if_needed`. -/
def MemoryStore.backfillSearchTerms (s : MemoryStore) (U : UnicodeTables) : MemoryStore :=
  if s.postingsVersion = some searchIndexVersion then s
  else
    { s with
      records := s.records.update (·.status = .active) RecordRow.rematerialize
        RecordRow.rematerialize_id
      searchTerms := (s.records.rows.filter (·.status = .active)).flatMap fun r =>
        MemoryStore.postings U r.id r.subjectId (MemoryStore.postingsWorkspace r.raw) r.factKey
      postingsVersion := some searchIndexVersion }

/-- Open the store again; the full text may have been dropped before. -/
def reopen (E : Engine) (ftsMissing : Bool) : Mem Unit :=
  writeStore fun s => (s.migrateFts ftsMissing).backfillSearchTerms E.unicode

/-! ## Bundles -/

/-- The rows of a project that are carried to another store. -/
structure Bundle where
  episodes : List EpisodeRow
  records : List RecordRow
  memoryProposals : List MemoryProposalRow
  lineage : List LineageRow
  exclusions : List (String × String)
  sources : List ProtocolSourceRow
  protocolProposals : List ProtocolProposalRow
  typedUnits : List TypedUnitRow
  unitEvidence : List UnitEvidenceRow
  proposalSources : List ProposalSourceRow
  exclusionIdentities : List ExclusionIdentityRow

/-- `export`, of the subjects of a project; a bundle of the first format
has no typed rows. -/
def MemoryStore.exportProject (s : MemoryStore) (subjects : List String) (extended : Bool) :
    Bundle where
  episodes := s.episodes.filter (·.subjectId ∈ subjects)
  records := s.records.rows.filter (·.subjectId ∈ subjects)
  memoryProposals := s.memoryProposals.rows.filter (·.subjectId ∈ subjects)
  lineage := s.lineage.filter (·.subjectId ∈ subjects)
  exclusions := s.exclusions.filter (·.1 ∈ subjects)
  sources := s.sources.rows.filter fun r => extended && r.subjectId ∈ subjects
  protocolProposals := s.protocolProposals.rows.filter fun r => extended && r.subjectId ∈ subjects
  typedUnits := s.typedUnits.filter fun r => extended && r.subjectId ∈ subjects
  unitEvidence := s.unitEvidence.filter fun r => extended && r.subjectId ∈ subjects
  proposalSources := s.proposalSources.filter fun r => extended &&
    s.memoryProposals.rows.any fun p => p.proposalId = r.proposalId ∧ p.subjectId ∈ subjects
  exclusionIdentities := s.exclusionIdentities.filter fun r => extended && r.subjectId ∈ subjects

/-- The unique columns of two typed units. -/
def unitClash (u v : TypedUnitRow) : Bool :=
  u.recordId = v.recordId || (u.subjectId = v.subjectId && u.workspaceId = v.workspaceId &&
    (u.unitId = v.unitId || (u.live && v.live && u.semanticIdentity = v.semanticIdentity)))

/-- Two lineages cannot both be stored. -/
def lineageClash (a b : LineageRow) : Bool :=
  a.lineageId = b.lineageId || (a.predecessorRecordId = b.predecessorRecordId &&
    a.successorRecordId = b.successorRecordId && a.relation = b.relation)

/-- The rows of a bundle, inserted as they are; refused where one breaks a
constraint. -/
def MemoryStore.insertBundle (s : MemoryStore) (b : Bundle) : Option MemoryStore := do
  let records ← b.records.foldlM Table.insert s.records
  let memoryProposals ← b.memoryProposals.foldlM Table.insert s.memoryProposals
  let sources ← b.sources.foldlM Table.insert s.sources
  let protocolProposals ← b.protocolProposals.foldlM Table.insert s.protocolProposals
  if (s.typedUnits.any fun u => b.typedUnits.any (unitClash u)) ||
      (s.lineage.any fun r => b.lineage.any (lineageClash r)) ||
      (s.episodes.any fun e => b.episodes.any (·.id = e.id)) ||
      (s.exclusions.any (· ∈ b.exclusions)) then none
  else some { s with
    records
    memoryProposals
    sources
    protocolProposals
    episodes := s.episodes ++ b.episodes
    lineage := s.lineage ++ b.lineage
    exclusions := s.exclusions ++ b.exclusions
    typedUnits := s.typedUnits ++ b.typedUnits
    unitEvidence := s.unitEvidence ++ b.unitEvidence
    proposalSources := s.proposalSources ++ b.proposalSources
    exclusionIdentities := s.exclusionIdentities ++ b.exclusionIdentities }

/-- How `restore` indexes a record: whatever its status, if only it is not
tombstoned, and under no workspace. -/
def indexRestored (U : UnicodeTables) (s : MemoryStore) (r : RecordRow) : MemoryStore :=
  if r.status = .tombstoned then s
  else (s.upsertFts r.id r.subjectId r.content).upsertSearchTerms U r.id r.subjectId "" r.factKey

/-- `restore`. -/
def restore (E : Engine) (subjects : List String) (b : Bundle) : Mem Unit := do
  if ← readStore fun s => s.records.rows.any (·.subjectId ∈ subjects) then
    throw (.valueError "import preview conflicts or no longer matches")
  match (← get).store.insertBundle b with
  | none => throw .integrityError
  | some s => writeStore fun _ => b.records.foldl (indexRestored E.unicode) s

/-! ## Operations -/

/-- An operation and its arguments. -/
inductive Operation
  | captureSource (request : SourceCaptureRequest)
  | submitProposal (proposal : MemoryProposal)
  | submitExtractionProposal (proposal : ExtractionProposal) (options : SubmitOptions)
  | decideReview (proposalId : String) (decision : ReviewDecision) (sessionId : Option String)
      (authorization : Option ReviewAuthorization)
  | remember (request : RememberRequest)
  | correctRecord (subjectId recordId correctedText : String)
  | forgetRecord (subjectId recordId : String)
  | forget (subjectId contains : String)
  | reject (subjectId recordId : String)
  | promote (subjectId recordId : String)
  | consolidate (subjectId : String)
  | proposeFacts (subjectId : String) (facts : List DerivedFact) (sessionId : Option String)
  | setRetrievalExcluded (subjectId recordId : String) (excluded : Bool)
  | rememberObservation (subjectId : String) (observation : MediaObservation)
      (sessionId turnId : Option String)
  | reopen (ftsMissing : Bool)

/-- What an operation runs. -/
def Operation.body (E : Engine) : Operation → Mem Unit
  | .captureSource request => do let _ ← Memory.captureSource E request
  | .submitProposal proposal => do let _ ← Memory.submitProposal E proposal
  | .submitExtractionProposal proposal options => do
    let _ ← Memory.submitExtractionProposal E proposal options
  | .decideReview proposalId decision sessionId authorization => do
    let _ ← Memory.decideReview E proposalId decision sessionId authorization
  | .remember request => do let _ ← Memory.remember E request
  | .correctRecord subjectId recordId correctedText => do
    let _ ← Memory.correctRecord E subjectId recordId correctedText
  | .forgetRecord subjectId recordId => do let _ ← Memory.forgetRecord subjectId recordId
  | .forget subjectId contains => do let _ ← Memory.forget E subjectId contains
  | .reject subjectId recordId => do let _ ← Memory.reject subjectId recordId
  | .promote subjectId recordId => do let _ ← Memory.promote E subjectId recordId
  | .consolidate subjectId => do let _ ← Memory.consolidate E subjectId
  | .proposeFacts subjectId facts sessionId => do
    let _ ← Memory.proposeFacts E subjectId facts sessionId
  | .setRetrievalExcluded subjectId recordId excluded =>
    Memory.setRetrievalExcluded E subjectId recordId excluded
  | .rememberObservation subjectId observation sessionId turnId => do
    let _ ← Memory.rememberObservation E subjectId observation sessionId turnId
  | .reopen ftsMissing => Memory.reopen E ftsMissing

/-- The process after an operation, whether it raised or not. -/
def Operation.run (E : Engine) (op : Operation) (w : MemoryWorld) : MemoryWorld :=
  (atomic (op.body E) w).2

/-! ## Runs -/

/-- A store with nothing in it, and whether it searches full text. -/
def MemoryWorld.Empty (w : MemoryWorld) : Prop := w.store = { ftsEnabled := w.store.ftsEnabled }

/-- No identifier this process is still to draw occurs in a bundle: an
identifier is drawn once, wherever it is drawn. -/
def Bundle.Elsewhere (E : Engine) (w : MemoryWorld) (b : Bundle) : Prop :=
  ∀ n, w.draws ≤ n → (∀ r ∈ b.records, r.id ≠ E.newId "rec" n) ∧
    ∀ r ∈ b.lineage, r.lineageId ≠ E.newId "lin" n

/-- The worlds that are reached by operations that meet a condition. -/
inductive Reached (E : Engine) (ok : MemoryWorld → Operation → Prop)
    (restorable : Bundle → Prop) : MemoryWorld → Prop
  | empty {w : MemoryWorld} (h : w.Empty) : Reached E ok restorable w
  | operation {w : MemoryWorld} (op : Operation) (h : Reached E ok restorable w) (hok : ok w op) :
      Reached E ok restorable (op.run E w)
  | restored {w other : MemoryWorld} (subjects : List String) (extended : Bool)
      (h : Reached E ok restorable w) (hother : Reached E ok restorable other)
      (helsewhere : (other.store.exportProject subjects extended).Elsewhere E w)
      (hok : restorable (other.store.exportProject subjects extended)) :
      Reached E ok restorable (atomic (restore E subjects
        (other.store.exportProject subjects extended)) w).2

/-- The worlds that are reached at all. -/
abbrev Reachable (E : Engine) : MemoryWorld → Prop :=
  Reached E (fun _ _ => True) fun _ => True

/-! ## Connections -/

open Relational

/-! ## Reviews -/

/-- A row of `memory_reviews`, which is written with the audit event of the
decision. -/
structure ReviewRow where
  proposalId : String
  subjectId : String
  decision : String
  recordIds : List String
deriving DecidableEq

/-- The store with its process, and the decisions that are on record. -/
structure Session where
  world : MemoryWorld
  reviews : List ReviewRow := []

/-- The reviewer changed the text. -/
def ReviewDecision.edits : ReviewDecision → Bool
  | .editAndApprove _ => true
  | _ => false

/-- The decision as it is recorded. -/
def ReviewDecision.recorded : ReviewDecision → String
  | .reject => "rejected"
  | .editAndApprove _ => "edited_approved"
  | .approve => "approved"

/-- What `decide` checks of the row it reads, before its transaction. -/
def Reviewable (stored : MemoryProposalRow) (proposal : ExtractionProposal)
    (decision : ReviewDecision) (authorization : Option ReviewAuthorization) : Prop :=
  stored.reviewState = .pendingReview ∧ stored.proposal = some proposal ∧
    (∀ editedFact, decision = .editAndApprove editedFact → strip editedFact ≠ []) ∧
    ¬ (decision.edits ∧ proposal.val.unit.isSome) ∧ checkAuthorization stored authorization = .ok ()

/-- `_settle`, up to the decision that is put on record. -/
def settle (E : Engine) (stored : MemoryProposalRow) (proposal : ExtractionProposal)
    (decision : ReviewDecision) (sessionId : Option String) : Mem ExtractionOutcome := do
  let outcome ← reviewOutcome E stored proposal decision sessionId
  settleMemoryProposal proposal stored.proposalId outcome
  pure outcome

/-! ## Calls -/

/-- A call and its arguments. -/
inductive Call
  | captureSource (request : SourceCaptureRequest)
  | submitProposal (proposal : MemoryProposal)
  | buildContext (scope : AuthorityScope) (window : ℕ)
  | submitExtractionProposal (proposal : ExtractionProposal) (options : SubmitOptions)
  | getMemoryProposal (proposalId : String)
  | settle (stored : MemoryProposalRow) (proposal : ExtractionProposal) (decision : ReviewDecision)
      (sessionId : Option String) (authorization : Option ReviewAuthorization)
  | operation (op : Operation)
  | restore (subjects : List String) (bundle : Bundle)

/-- What a call is answered. -/
inductive Answer
  | captured (result : Except MemoryError SourceCaptureResult)
  | admitted (result : Except MemoryError MemoryAdmission)
  | context (result : ResolutionContext)
  | submitted (result : Except MemoryError MemoryProposalRow)
  | stored (result : Option MemoryProposalRow)
  | settled (result : Except MemoryError ExtractionOutcome)
  | done (result : Except MemoryError Unit)

/-- What a call does, and what it is answered. -/
def Call.body (E : Engine) : Call → Session → Answer × Session
  | .captureSource request, s =>
    let (result, world) := atomic (Memory.captureSource E request) s.world
    (.captured result, { s with world })
  | .submitProposal proposal, s =>
    let (result, world) := atomic (Memory.submitProposal E proposal) s.world
    (.admitted result, { s with world })
  | .buildContext scope window, s => (.context (buildResolutionContext s.world.store scope window), s)
  | .submitExtractionProposal proposal options, s =>
    let (result, world) := atomic (Memory.submitExtractionProposal E proposal options) s.world
    (.submitted result, { s with world })
  | .getMemoryProposal proposalId, s =>
    (.stored (s.world.store.getMemoryProposal proposalId), s)
  | .settle stored proposal decision sessionId _, s =>
    match atomic (Memory.settle E stored proposal decision sessionId) s.world with
    | (.error e, world) => (.settled (.error e), { s with world })
    | (.ok outcome, world) =>
      let row : ReviewRow :=
        { proposalId := stored.proposalId, subjectId := stored.subjectId
          decision := decision.recorded, recordIds := outcome.recordIds }
      (.settled (.ok outcome), { world, reviews := s.reviews ++ [row] })
  | .operation op, s =>
    let (result, world) := atomic (op.body E) s.world
    (.done result, { s with world })
  | .restore subjects bundle, s =>
    let (result, world) := atomic (Memory.restore E subjects bundle) s.world
    (.done result, { s with world })

/-- An operation that is no call of its own. -/
def Operation.other : Operation → Bool
  | .captureSource _ => false
  | .submitProposal _ => false
  | .submitExtractionProposal _ _ => false
  | .decideReview _ _ _ _ => false
  | _ => true

/-- Where a call is made: a decision, of a row that was read and passes the
checks; a context that was built before, with a proposal that was formed: a
unit that is added and names no record. -/
def Call.Allowed (made : List (Call × Answer)) (_ : Session) : Call → Prop
  | .submitExtractionProposal proposal options =>
    ∀ context, options.resolutionContext = some context →
      (∃ scope window, (.buildContext scope window, .context context) ∈ made) ∧
        proposal.val.unit.isSome ∧ proposal.val.action = .add ∧
        proposal.val.affectedRecordIds = [] ∧ proposal.val.preconditions = []
  | .settle stored proposal decision _ authorization =>
    (.getMemoryProposal stored.proposalId, .stored (some stored)) ∈ made ∧
      Reviewable stored proposal decision authorization
  | .operation op => op.other = true
  | _ => True

/-- Nothing is stored yet. -/
def Session.Empty (s : Session) : Prop := s.world.Empty ∧ s.reviews = []

/-- The runs of any number of connections. -/
abbrev Session.Run (E : Engine) : List (Call × Answer) → Session → Prop :=
  History.Run (Call.body E) Call.Allowed Session.Empty

/-- The runs from a given session. -/
abbrev Session.RunFrom (E : Engine) (s₀ : Session) : List (Call × Answer) → Session → Prop :=
  History.Run (Call.body E) Call.Allowed (· = s₀)

/-- The session the calls lead to. -/
abbrev Session.after (E : Engine) (s₀ : Session) (made : List (Call × Answer)) : Session :=
  History.stateAfter (Call.body E) s₀ made

end Atmem.Memory
