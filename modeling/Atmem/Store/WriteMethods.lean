import Atmem.Common.UnitOfWork
/-!
# The write methods of the store

Every method of `SQLiteStore` that writes, and what its body does on the
connection: the statements that write, the methods it calls, the
transactions it enters and the commits of its own, in the order of the
source. A `SELECT` is left out, and so are the migrations, which run where
a store is opened or restored and no block is entered. The caches that
`reset_subject` purges first are other databases.
-/

namespace Atmem

open UnitOfWork

/-- The tables the methods write. -/
inductive TableName
  | codeScopeSubjects | codeObservations | codeProjectBindings | codeInstallations
  | codeDocuments | contextViewGenerations | contextBackfillState | contextSourceEpisodes
  | protocolExposures | protocolPreparations | protocolCandidateSets | protocolProposals
  | protectedFormationMedia | formationReceipts | typedIdentityMappings | protocolSources
  | actionTransactions | retrievalExclusions | graphMergeProposals | graphArchiveMembers
  | graphArchivePartitions | mediaObservations | mediaArtifacts | edges | entityAliases
  | entities | records | episodes | retrievalEvents | investigationAccessLog
  | auditVerificationState | auditLog | recordGenerations | pendingUserMessages | memoryLineage
  | memoryReviews | memoryProposals | governedTaskDeliveries | governedTaskSteps
  | governedTaskProposals | governedTaskProvenance | governedTaskRevisions
  | governedTaskSessionBindings | governedTasks | typedMemoryUnits | typedUnitEvidence
  | memoryProposalSources | formationMediaReferences | retrievalIndexState | sourceAdjacency
  | governedTaskProfiles | semanticIndexRegistry | contextRangesFts | contextRangeFtsMap
  | contextUnitsFts | contextUnitsFtsMap | typedExclusionIdentities | recordsFts
  | recordsFtsMap | recordSearchTerms | graphFts | graphFtsMap

/-- The methods that write, and the private ones they call. -/
inductive WriteMethod
  | restoreFrom | resetSubject | stageUserMessage | resolveUserMessage | clearUserMessage
  | insertEpisode | putCodeObservation | putCodeInstallation | setCodeInstallationEnabled
  | deleteCodeInstallation | bindCodeProject | putCodeDocument | deleteCodeDocuments
  | registerCodeScopeSubject | confirmCodeRemoteChange | setCodeObservationState | insertRecord
  | insertTypedMemoryUnit | linkTypedOccurrenceEvidence | insertProtocolSource
  | insertProtocolProposal | putProtocolCandidateSet | putProtocolPreparation
  | putProtocolExposure | setRetrievalExcluded | insertMemoryProposal
  | linkMemoryProposalSources | settleMemoryProposal | redactMemoryProposal
  | purgeProtocolSource | insertMemoryReview | insertFormationReceipt
  | insertProtectedFormationMedia | setRetrievalActivation | linkSourceSequence
  | insertMemoryLineage | insertTaskProfile | insertTask | insertSessionBinding
  | revokeSessionBinding | revokeSessionBindingsForTask | deleteSessionBindingsForTask
  | insertTaskRevision | advanceTaskHead | insertTaskProvenance | insertTaskProposal
  | insertTaskStep | insertTaskDelivery | markTaskDeliveryExposed | deleteTask
  | deleteSubjectTasks | insertMediaArtifact | insertMediaObservation
  | supersedeMediaObservations | tombstoneMediaArtifact | tombstoneMediaObservationsForRecords
  | promoteRecord | supersedeRecords | tombstoneRecords | insertRetrievalEvent
  | appendAuditEvent | verifyAuditChainIncremental | registerSemanticIndex
  | appendInvestigationAccess | optimize | indexContextRange | removeContextRangeIndex
  | indexContextUnit | optimizeContextFts | deleteContextFtsGeneration
  | setTypedExclusionIdentity | upsertFts | deleteFts | deleteSearchTerms | upsertSearchTerms
  | deleteRecordsFtsSubject | upsertGraphFts | deleteGraphFts | deleteGraphFtsSubject

/-- What a body does in one place. -/
inductive Effect
  | insert (table : TableName)
  | update (table : TableName)
  | delete (table : TableName)
  /-- `PRAGMA optimize`. -/
  | optimize
  | call (method : WriteMethod)
  /-- `self._conn.commit()`. -/
  | commit

/-- The effect is a statement, not a call and not the COMMIT. -/
def Effect.isStatement : Effect → Bool
  | .call _ | .commit => false
  | _ => true

/-- A place of a body: under no transaction of the method's own, or in a
`with self.transaction()`. -/
inductive BodyPart
  | bare (effect : Effect)
  | transaction (effects : List Effect)

/-- A body that enters no transaction. -/
def bare (effects : List Effect) : List BodyPart := effects.map .bare

/-- The body of each method. `restore_from` refuses to run in a block. -/
def WriteMethod.parts : WriteMethod → List BodyPart
  | .restoreFrom => []
  | .resetSubject =>
    [.transaction [.call .resetSubject, .delete .codeScopeSubjects, .delete .codeObservations,
      .delete .codeProjectBindings, .delete .codeInstallations, .delete .codeDocuments,
      .call .deleteContextFtsGeneration, .delete .contextViewGenerations,
      .delete .contextBackfillState, .delete .contextSourceEpisodes, .delete .protocolExposures,
      .delete .protocolPreparations, .delete .protocolCandidateSets, .delete .protocolProposals,
      .delete .protectedFormationMedia, .delete .formationReceipts, .delete .typedIdentityMappings,
      .delete .protocolSources, .delete .actionTransactions, .call .deleteRecordsFtsSubject,
      .call .deleteGraphFtsSubject, .delete .retrievalExclusions, .delete .graphMergeProposals,
      .delete .graphArchiveMembers, .delete .graphArchivePartitions, .delete .mediaObservations,
      .delete .mediaArtifacts, .delete .edges, .delete .entityAliases, .delete .entities,
      .delete .records, .delete .episodes, .delete .retrievalEvents,
      .delete .investigationAccessLog, .delete .auditVerificationState, .delete .auditLog,
      .delete .recordGenerations, .delete .pendingUserMessages, .delete .memoryLineage,
      .delete .memoryReviews, .delete .memoryProposals, .delete .governedTaskDeliveries,
      .delete .governedTaskSteps, .delete .governedTaskProposals, .delete .governedTaskProvenance,
      .delete .governedTaskRevisions, .delete .governedTaskSessionBindings,
      .delete .governedTaskSessionBindings, .delete .governedTasks]]
  | .stageUserMessage =>
    [.transaction [.delete .pendingUserMessages, .delete .pendingUserMessages,
      .insert .pendingUserMessages]]
  | .resolveUserMessage => [.transaction [.delete .pendingUserMessages]]
  | .clearUserMessage => [.transaction [.delete .pendingUserMessages]]
  | .insertEpisode => [.transaction [.insert .episodes]]
  | .putCodeObservation => [.transaction [.insert .codeObservations]]
  | .putCodeInstallation => [.transaction [.insert .codeInstallations]]
  | .setCodeInstallationEnabled => [.transaction [.update .codeInstallations]]
  | .deleteCodeInstallation => [.transaction [.delete .codeInstallations]]
  | .bindCodeProject => [.transaction [.insert .codeProjectBindings]]
  | .putCodeDocument => [.transaction [.insert .codeDocuments]]
  | .deleteCodeDocuments => [.transaction [.delete .codeDocuments]]
  | .registerCodeScopeSubject => [.transaction [.insert .codeScopeSubjects]]
  | .confirmCodeRemoteChange => [.transaction [.update .codeProjectBindings]]
  | .setCodeObservationState => [.transaction [.update .codeObservations]]
  | .insertRecord => [.transaction [.insert .records, .call .upsertFts, .call .upsertSearchTerms]]
  | .insertTypedMemoryUnit => bare [.insert .typedMemoryUnits, .insert .typedUnitEvidence]
  | .linkTypedOccurrenceEvidence => bare [.insert .typedUnitEvidence]
  | .insertProtocolSource => bare [.insert .protocolSources]
  | .insertProtocolProposal => bare [.insert .protocolProposals]
  | .putProtocolCandidateSet => bare [.insert .protocolCandidateSets]
  | .putProtocolPreparation => bare [.insert .protocolPreparations]
  | .putProtocolExposure => bare [.insert .protocolExposures]
  | .setRetrievalExcluded => bare [.insert .retrievalExclusions, .delete .retrievalExclusions]
  | .insertMemoryProposal => [.transaction [.insert .memoryProposals]]
  | .linkMemoryProposalSources => bare [.insert .memoryProposalSources]
  | .settleMemoryProposal => [.transaction [.update .memoryProposals]]
  | .redactMemoryProposal => bare [.update .memoryProposals]
  | .purgeProtocolSource =>
    bare [.call .redactMemoryProposal, .update .memoryProposals, .update .protocolSources]
  | .insertMemoryReview => [.transaction [.insert .memoryReviews]]
  | .insertFormationReceipt =>
    bare [.insert .formationReceipts, .delete .formationMediaReferences,
      .insert .formationMediaReferences]
  | .insertProtectedFormationMedia => bare [.insert .protectedFormationMedia]
  | .setRetrievalActivation =>
    [.transaction [.insert .retrievalIndexState, .call .appendAuditEvent]]
  | .linkSourceSequence => bare [.insert .sourceAdjacency]
  | .insertMemoryLineage => [.transaction [.insert .memoryLineage]]
  | .insertTaskProfile => [.transaction [.insert .governedTaskProfiles]]
  | .insertTask => [.transaction [.insert .governedTasks]]
  | .insertSessionBinding => bare [.insert .governedTaskSessionBindings, .commit]
  | .revokeSessionBinding => bare [.update .governedTaskSessionBindings, .commit]
  | .revokeSessionBindingsForTask => bare [.update .governedTaskSessionBindings, .commit]
  | .deleteSessionBindingsForTask => bare [.delete .governedTaskSessionBindings, .commit]
  | .insertTaskRevision => bare [.insert .governedTaskRevisions]
  | .advanceTaskHead => bare [.update .governedTasks]
  | .insertTaskProvenance => bare [.insert .governedTaskProvenance]
  | .insertTaskProposal => bare [.insert .governedTaskProposals]
  | .insertTaskStep => bare [.insert .governedTaskSteps]
  | .insertTaskDelivery => bare [.insert .governedTaskDeliveries]
  | .markTaskDeliveryExposed => bare [.update .governedTaskDeliveries]
  | .deleteTask =>
    [.transaction [.delete .governedTaskDeliveries, .delete .governedTaskSteps,
      .delete .governedTaskProposals,
      .delete .governedTaskProvenance, .delete .governedTaskSessionBindings,
      .delete .governedTaskRevisions, .delete .governedTasks]]
  | .deleteSubjectTasks => bare [.call .deleteTask]
  | .insertMediaArtifact => [.transaction [.insert .mediaArtifacts]]
  | .insertMediaObservation => [.transaction [.insert .mediaObservations]]
  | .supersedeMediaObservations => [.transaction [.update .mediaObservations, .update .records]]
  | .tombstoneMediaArtifact => [.transaction [.update .mediaObservations, .update .mediaArtifacts]]
  | .tombstoneMediaObservationsForRecords =>
    [.transaction [.update .mediaObservations, .update .mediaArtifacts]]
  | .promoteRecord =>
    [.transaction [.update .records, .call .upsertFts, .call .upsertSearchTerms,
      .update .typedMemoryUnits]]
  | .supersedeRecords =>
    [.transaction [.update .records, .call .deleteFts, .call .deleteSearchTerms,
      .update .typedMemoryUnits]]
  | .tombstoneRecords =>
    [.transaction [.update .records, .call .deleteFts, .call .deleteSearchTerms,
      .update .typedMemoryUnits,
      .delete .typedUnitEvidence, .update .memoryProposals, .delete .protectedFormationMedia,
      .delete .formationMediaReferences, .call .purgeProtocolSource, .call .purgeProtocolSource,
      .update .episodes]]
  | .insertRetrievalEvent => [.transaction [.insert .retrievalEvents]]
  | .appendAuditEvent => [.transaction [.insert .auditLog]]
  | .verifyAuditChainIncremental =>
    [.transaction [.delete .auditVerificationState], .transaction [.insert .auditVerificationState]]
  | .registerSemanticIndex => [.transaction [.insert .semanticIndexRegistry]]
  | .appendInvestigationAccess => [.transaction [.insert .investigationAccessLog]]
  | .optimize => bare [.optimize]
  | .indexContextRange => bare [.insert .contextRangesFts, .insert .contextRangeFtsMap]
  | .removeContextRangeIndex => bare [.insert .contextRangesFts, .delete .contextRangeFtsMap]
  | .indexContextUnit =>
    bare [.insert .contextUnitsFts, .delete .contextUnitsFtsMap, .insert .contextUnitsFts,
      .insert .contextUnitsFtsMap]
  | .optimizeContextFts => bare [.insert .contextUnitsFts, .insert .contextRangesFts]
  | .deleteContextFtsGeneration =>
    bare [.insert .contextUnitsFts, .delete .contextUnitsFtsMap, .insert .contextRangesFts,
      .delete .contextRangeFtsMap]
  | .setTypedExclusionIdentity =>
    bare [.insert .typedExclusionIdentities, .delete .typedExclusionIdentities]
  | .upsertFts =>
    bare [.insert .recordsFts, .insert .recordsFtsMap, .delete .recordsFts, .insert .recordsFts,
      .update .recordsFtsMap]
  | .deleteFts => bare [.delete .recordsFts, .delete .recordsFtsMap]
  | .deleteSearchTerms => bare [.delete .recordSearchTerms]
  | .upsertSearchTerms => bare [.delete .recordSearchTerms, .insert .recordSearchTerms]
  | .deleteRecordsFtsSubject => bare [.delete .recordsFts, .delete .recordsFtsMap]
  | .upsertGraphFts =>
    bare [.insert .graphFts, .insert .graphFtsMap, .delete .graphFts, .insert .graphFts,
      .update .graphFtsMap]
  | .deleteGraphFts => bare [.delete .graphFts, .delete .graphFtsMap]
  | .deleteGraphFtsSubject => bare [.call .deleteGraphFts]

/-! ## Who commits -/

/-- The methods that write session bindings commit on the connection. -/
def WriteMethod.commits : WriteMethod → Bool
  | .insertSessionBinding | .revokeSessionBinding | .revokeSessionBindingsForTask
  | .deleteSessionBindingsForTask => true
  | _ => false

/-- The effect leaves committing to the block it is in. -/
def Effect.joins : Effect → Bool
  | .commit => false
  | .call method => !method.commits
  | _ => true

/-- Nothing of the part commits by itself. -/
def BodyPart.joins : BodyPart → Bool
  | .bare effect => effect.joins
  | .transaction effects => effects.all Effect.joins

/-- **No other method commits**, nor calls one that does. -/
theorem WriteMethod.joins_of_parts (method : WriteMethod) (h : method.commits = false) :
    ∀ part ∈ method.parts, part.joins = true := by
  have hall : (method.commits || method.parts.all BodyPart.joins) = true := by
    cases method <;> rfl
  rw [h, Bool.false_or] at hall
  exact List.all_eq_true.mp hall

/-! ## The work of a body -/

variable {ε σ : Type}

/-- The work does nothing on the connection but what the parts of a body
say, any part any number of times and in any order: which it does, and on
which rows, is up to its arguments and to what it reads. -/
inductive Performs : {α : Type} → List BodyPart → Work ε σ α → Prop
  | done {α : Type} {parts : List BodyPart} (r : Except ε α) : Performs parts (.done r)
  | select {α β : Type} {parts : List BodyPart} {run : σ → Except ε (β × σ)}
      {next : Except ε β → Work ε σ α} (hreads : ∀ db b db', run db = .ok (b, db') → db' = db)
      (hnext : ∀ r, Performs parts (next r)) : Performs parts (.execute run next)
  | execute {α β : Type} {parts : List BodyPart} {effect : Effect} {run : σ → Except ε (β × σ)}
      {next : Except ε β → Work ε σ α} (hpart : .bare effect ∈ parts)
      (heffect : effect.isStatement = true) (hnext : ∀ r, Performs parts (next r)) :
      Performs parts (.execute run next)
  | commit {α : Type} {parts : List BodyPart} {next : Except ε Unit → Work ε σ α}
      (hpart : .bare .commit ∈ parts) (hnext : ∀ r, Performs parts (next r)) :
      Performs parts (.commit next)
  | call {α β : Type} {parts : List BodyPart} {method : WriteMethod} {body : Work ε σ β}
      {next : Except ε β → Work ε σ α} (hpart : .bare (.call method) ∈ parts)
      (hbody : Performs method.parts body) (hnext : ∀ r, Performs parts (next r)) :
      Performs parts (body.bind next)
  | transaction {α β : Type} {parts : List BodyPart} {effects : List Effect} {body : Work ε σ β}
      {next : Except ε β → Work ε σ α} (hpart : .transaction effects ∈ parts)
      (hbody : Performs (bare effects) body) (hnext : ∀ r, Performs parts (next r)) :
      Performs parts (.block body next)

/-- **Work that performs parts which join never commits by itself.** -/
theorem Performs.joins {α : Type} {parts : List BodyPart} {w : Work ε σ α} (hw : Performs parts w)
    (hparts : ∀ part ∈ parts, part.joins = true) : w.Joins := by
  induction hw with
  | done r => exact trivial
  | select hreads hnext ih => exact fun r => ih r hparts
  | execute hpart heffect hnext ih => exact fun r => ih r hparts
  | commit hpart hnext ih => cases hparts _ hpart
  | @call _ _ _ method _ _ hpart hbody hnext ihbody ihnext =>
    have hcalled : (!method.commits) = true := hparts _ hpart
    have hjoins := method.joins_of_parts (Bool.not_eq_true' _ ▸ hcalled)
    exact (ihbody hjoins).bind fun r => ihnext r hparts
  | transaction hpart hbody hnext ihbody ihnext =>
    have hjoins := List.all_eq_true.mp (hparts _ hpart)
    refine ⟨ihbody fun part hmem => ?_, fun r => ihnext r hparts⟩
    obtain ⟨effect, heffect, rfl⟩ := List.mem_map.mp hmem
    exact hjoins effect heffect

end Atmem
