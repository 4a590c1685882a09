import Atmem.Common.Table
import Atmem.Common.Transaction
import Atmem.Contracts.Memory
import Atmem.Core.Policy
/-!
# The memory store

The tables of the memory core, as far as the operations of this model read
and write them, the process that works on them, and what an operation is: a
sequence of statements in one transaction. The graph tables, the vectors
and the audit log are derived from these and are left out, and with them
the columns nothing here reads.
-/

namespace Atmem.Memory

open Relational

scoped instance lawfulBEqPair : LawfulBEq (String × String) := inferInstance

/-! ## Records -/

/-- The keys of a record's `raw` that some operation reads. -/
structure RecordRaw where
  authorityScope : Option AuthorityScope := none
  proposalId : Option String := none
  sourceIds : List String := []
  sensitivity : Option String := none
  taintLabels : List String := []
  typedUnit : Option MemoryUnitFields := none
  supersededById : Option String := none
  supersededByObservationId : Option String := none
  purged : Bool := false
deriving DecidableEq

/-- A row of `records`. -/
structure RecordRow where
  id : String
  subjectId : String
  content : String
  contentNormalized : Option String
  sourceType : String
  trustTier : TrustTier
  sourceSessionId : Option String := none
  sourceTurnId : Option String := none
  episodeId : Option String := none
  createdAt : Instant
  updatedAt : Option Instant := none
  deletedAt : Option Instant := none
  confidence : Option Rat := none
  scope : String
  status : RecordStatus
  supersedesId : Option String := none
  factKey : Option String := none
  raw : RecordRaw := {}
  authoritySubjectId : Option String := none
  authorityWorkspaceId : Option String := none
  sensitivityClass : String := "personal"
  authorityMaterialized : Bool := true
  generation : ℕ := 0
deriving DecidableEq

/-- The primary key. -/
def idClash (a b : String) : Bool := a = b

/-! ## Indexes of the records -/

/-- A row of `records_fts`. -/
structure FtsRow where
  rowid : ℕ
  recordId : String
  subjectId : String
  content : String
deriving DecidableEq

/-- A row of `records_fts_map`. -/
structure FtsMapRow where
  recordId : String
  subjectId : String
  ftsRowid : ℕ
deriving DecidableEq

/-- A row of `record_search_terms`. -/
structure SearchTermRow where
  recordId : String
  subjectId : String
  workspaceId : String
  field : String
  term : String
  termFrequency : ℕ
deriving DecidableEq

/-! ## Typed units, lineage, sources and proposals -/

/-- A row of `typed_memory_units`. -/
structure TypedUnitRow where
  unitId : String
  subjectId : String
  agentId : String
  workspaceId : String
  recordId : String
  formationId : String
  kind : MemoryUnitKind
  semanticIdentity : Option String
  lifecycle : UnitLifecycle
  generation : ℕ := 1
deriving DecidableEq

/-- A unit that takes its identity: the partial unique index. -/
def TypedUnitRow.live (u : TypedUnitRow) : Bool := u.lifecycle = .active ∨ u.lifecycle = .quarantined

/-- A row of `typed_unit_evidence`. -/
structure UnitEvidenceRow where
  subjectId : String
  workspaceId : String
  unitId : String
  sourceId : String
  startOffset : ℕ
  endOffset : ℕ
  excerptSha256 : String
deriving DecidableEq

/-- A row of `memory_lineage`. -/
structure LineageRow where
  lineageId : String
  subjectId : String
  relation : String
  predecessorRecordId : String
  successorRecordId : String
  predecessorContentSha256 : String
  predecessorGeneration : ℕ
  proposalId : Option String
deriving DecidableEq

/-- What `CHECK` admits as a relation. -/
def lineageRelations : List String := ["corrects", "supersedes", "refines"]

/-- A message that was remembered. -/
structure EpisodeRow where
  id : String
  subjectId : String
  message : String
  sourceType : String
deriving DecidableEq

/-- The request of a source that is kept, as far as it is read. -/
structure SourceRequest where
  sourceType : String
  bindingAssurance : String
deriving DecidableEq

/-- A row of `protocol_sources`; a purged one keeps no request. -/
structure ProtocolSourceRow where
  sourceId : String
  idempotencyKey : String
  payloadSha256 : String
  subjectId : String
  agentId : String
  workspaceId : String
  episodeId : String
  sourceSha256 : String
  request : Option SourceRequest
  retained : Bool
deriving DecidableEq

/-- A primary key, and a key unique within a workspace and agent. -/
def protocolClash (a b : String × String × String × String) : Bool := eitherClash a b

/-- The columns that the unique constraints of the sources are about. -/
def ProtocolSourceRow.key (r : ProtocolSourceRow) : String × String × String × String :=
  (r.sourceId, r.workspaceId, r.agentId, r.idempotencyKey)

/-- A row of `protocol_proposals`; what was refused keeps no proposal. -/
structure ProtocolProposalRow where
  proposalId : String
  idempotencyKey : String
  payloadSha256 : String
  subjectId : String
  agentId : String
  workspaceId : String
  proposal : Option MemoryProposal
  admission : MemoryAdmission
deriving DecidableEq

/-- The columns that the unique constraints of the proposals are about. -/
def ProtocolProposalRow.key (r : ProtocolProposalRow) : String × String × String × String :=
  (r.proposalId, r.workspaceId, r.agentId, r.idempotencyKey)

/-- Where an extraction proposal stands. -/
inductive ReviewState
  | committed | pendingReview | rejected | noop | stale
deriving DecidableEq

/-- `outcome` of an extraction proposal. -/
structure ExtractionOutcome where
  state : ReviewState
  reasonCodes : List String
  recordIds : List String := []
  supersededRecordIds : List String := []
  lineageIds : List String := []
deriving DecidableEq

/-- A row of `memory_proposals`; a redacted one keeps no proposal. -/
structure MemoryProposalRow where
  proposalId : String
  subjectId : String
  agentId : String
  workspaceId : String
  idempotencyKey : String
  proposalSha256 : String
  action : ProposalAction
  memoryClass : MemoryClass
  factKey : Option String
  reviewState : ReviewState
  reasonCodes : List String
  proposal : Option ExtractionProposal
  outcome : ExtractionOutcome
  createdAt : Instant
  decidedAt : Option Instant
deriving DecidableEq

/-- The columns that the constraints of the typed proposals are about. -/
def MemoryProposalRow.key (r : MemoryProposalRow) :
    String × String × String × String × String :=
  (r.proposalId, r.subjectId, r.agentId, r.workspaceId, r.idempotencyKey)

/-- Two typed proposals cannot both be stored. -/
def memoryProposalClash (a b : String × String × String × String × String) : Bool :=
  eitherClash a b

/-- A row of `memory_proposal_sources`. -/
structure ProposalSourceRow where
  proposalId : String
  sourceId : String
deriving DecidableEq

/-- A row of `typed_exclusion_identities`. -/
structure ExclusionIdentityRow where
  subjectId : String
  workspaceId : String
  recordId : String
  exclusionIdentity : String
deriving DecidableEq

/-- The statuses of an observation. -/
inductive ObservationStatus
  | current | superseded | tombstoned
deriving DecidableEq

/-- A row of `media_observations`. -/
structure MediaObservationRow where
  id : String
  subjectId : String
  recordId : String
  lineageSha256 : String
  envelopeSha256 : String
  status : ObservationStatus
  createdAt : Instant
deriving DecidableEq

/-- The tables. -/
structure MemoryStore where
  records : Table RecordRow (·.id) idClash := .empty
  ftsEnabled : Bool := true
  ftsRows : List FtsRow := []
  ftsMap : List FtsMapRow := []
  searchTerms : List SearchTermRow := []
  postingsVersion : Option String := none
  typedUnits : List TypedUnitRow := []
  unitEvidence : List UnitEvidenceRow := []
  /-- `retrieval_exclusions`: the subject and the record. -/
  exclusions : List (String × String) := []
  exclusionIdentities : List ExclusionIdentityRow := []
  lineage : List LineageRow := []
  episodes : List EpisodeRow := []
  sources : Table ProtocolSourceRow ProtocolSourceRow.key protocolClash := .empty
  protocolProposals : Table ProtocolProposalRow ProtocolProposalRow.key protocolClash := .empty
  memoryProposals : Table MemoryProposalRow MemoryProposalRow.key memoryProposalClash := .empty
  proposalSources : List ProposalSourceRow := []
  observations : List MediaObservationRow := []

/-! ## The process -/

/-- The store, the clock that is read and the identifiers that are drawn;
whether the household is encrypted, and whether typed memory is let into one
that is not. -/
structure MemoryWorld where
  store : MemoryStore := {}
  clock : ℕ → Instant
  ticks : ℕ := 0
  draws : ℕ := 0
  encrypted : Bool := false
  allowInsecureTyped : Bool := false

/-- A fact the extraction rules find in a message. -/
structure CandidateFact where
  content : String
  confidence : Rat
  sourceType : String
  trustTier : TrustTier
  factKey : Option String
  scope : String
deriving DecidableEq

/-- What the engine computes with and this model takes as it is given:
Unicode's tables, the hash, the screens, which are patterns over text, the
extraction rules, how a payload is grounded in its evidence, and the source
of identifiers, which draws none twice. -/
structure Engine where
  unicode : UnicodeTables
  hashing : Hashing
  /-- `screen_content(text, trusted=trusted).reason_codes`. -/
  screen : (trusted : Bool) → String → List String
  /-- `_SENSITIVE_RE.search`. -/
  sensitive : String → Bool
  /-- `classify_source`. -/
  classifySource : String → String
  /-- `extract_facts(text, source_type=source)`. -/
  extractFacts : String → String → List CandidateFact
  /-- `_explicit_note`. -/
  explicitNote : String → String
  /-- The reasons why a unit's payload is not what its excerpts say, given
  the excerpts and the bodies they are cut from. -/
  grounding : MemoryUnitFields → String → List String → List String
  newId : String → ℕ → String
  newId_inj : ∀ kind m n, newId kind m = newId kind n → m = n

/-- What an operation can raise. -/
inductive MemoryError
  | valueError (message : String)
  | permissionError (message : String)
  | keyError (key : String)
  | integrityError
  | assertionError
deriving DecidableEq

/-- Statements of one transaction. -/
abbrev Mem (α : Type) : Type := ExceptT MemoryError (StateM MemoryWorld) α

/-- A constructor of a contract raises `ValueError`. -/
def liftMem {α : Type} : Except String α → Mem α
  | .ok a => pure a
  | .error message => throw (.valueError message)

/-- What a statement reads. -/
def readStore {α : Type} (f : MemoryStore → α) : Mem α := do
  pure (f (← get).store)

/-- What a statement writes. -/
def writeStore (f : MemoryStore → MemoryStore) : Mem Unit :=
  modify fun w => { w with store := f w.store }

/-- `utc_now()`. -/
def utcNow : Mem Instant :=
  Transactional.readOff (fun w => w.clock w.ticks) fun w => { w with ticks := w.ticks + 1 }

/-- `_new_id(kind)`. -/
def newId (E : Engine) (kind : String) : Mem String :=
  Transactional.readOff (fun w => E.newId kind w.draws) fun w => { w with draws := w.draws + 1 }

/-- `_atomic`: the operation's transaction, rolled back where it raises. -/
def atomic {α : Type} (body : Mem α) (w : MemoryWorld) : Except MemoryError α × MemoryWorld :=
  match body.run.run w with
  | (.ok a, w') => (.ok a, w')
  | (.error e, w') => (.error e, { w' with store := w.store })

end Atmem.Memory
