import Atmem.Memory.Helpers.Statements
import Atmem.Memory.Model.Calls
/-!
# What a store keeps

No operation takes a row of a ledger away. A record only moves on, from
quarantined over active and superseded to tombstoned, and keeps what it says
until it is tombstoned; a captured source may lose its request; a proposal
that was decided stays as it was decided.
-/

namespace Atmem.Memory

open Relational Transactional

variable {E : Engine} {w w' : MemoryWorld} {s s' s₁ s₂ : MemoryStore} {α β : Type}
variable {subjectId recordId : String}

/-! ## Rows -/

/-- How far a record is on its way out. -/
def rankOf : RecordStatus → ℕ
  | .quarantined => 0
  | .active => 1
  | .superseded => 2
  | .tombstoned => 3

/-- The statuses have different ranks. -/
theorem rankOf_inj {a b : RecordStatus} (h : rankOf a = rankOf b) : a = b := by
  cases a <;> cases b <;> first | rfl | cases h

/-- What a record says and where that is from. -/
structure SameClaim (r r' : RecordRow) : Prop where
  content : r'.content = r.content
  factKey : r'.factKey = r.factKey
  sourceType : r'.sourceType = r.sourceType
  supersedesId : r'.supersedesId = r.supersedesId
  episodeId : r'.episodeId = r.episodeId
  taintLabels : r'.raw.taintLabels = r.raw.taintLabels
  authorityScope : r'.raw.authorityScope = r.raw.authorityScope

theorem SameClaim.refl (r : RecordRow) : SameClaim r r := ⟨rfl, rfl, rfl, rfl, rfl, rfl, rfl⟩

/-- Making the same claim is transitive. -/
theorem SameClaim.trans {r₁ r₂ r₃ : RecordRow} (h : SameClaim r₁ r₂) (h' : SameClaim r₂ r₃) :
    SameClaim r₁ r₃ :=
  ⟨h'.content.trans h.content, h'.factKey.trans h.factKey, h'.sourceType.trans h.sourceType,
    h'.supersedesId.trans h.supersedesId, h'.episodeId.trans h.episodeId,
    h'.taintLabels.trans h.taintLabels, h'.authorityScope.trans h.authorityScope⟩

/-- A record, later. The trigger advances the generation with every change. -/
structure RecordMoves (r r' : RecordRow) : Prop where
  id : r'.id = r.id
  subjectId : r'.subjectId = r.subjectId
  rank : rankOf r.status ≤ rankOf r'.status
  claim : r'.status ≠ .tombstoned → SameClaim r r'
  trust : r'.status = r.status → r'.trustTier = r.trustTier
  generation : r.generation ≤ r'.generation
  same : r'.generation = r.generation → r' = r

theorem RecordMoves.refl (r : RecordRow) : RecordMoves r r :=
  ⟨rfl, rfl, Nat.le_refl _, fun _ => .refl r, fun _ => rfl, Nat.le_refl _, fun _ => rfl⟩

/-- Two moves of a record are one. -/
theorem RecordMoves.trans {r₁ r₂ r₃ : RecordRow} (h : RecordMoves r₁ r₂) (h' : RecordMoves r₂ r₃) :
    RecordMoves r₁ r₃ := by
  have hrank := h.rank
  have hrank' := h'.rank
  refine ⟨h'.id.trans h.id, h'.subjectId.trans h.subjectId, hrank.trans hrank', ?_, ?_,
    h.generation.trans h'.generation, ?_⟩
  · intro hlive
    have hmid : r₂.status ≠ .tombstoned := by
      intro htomb
      rw [htomb] at hrank'
      refine hlive (rankOf_inj (Nat.le_antisymm ?_ hrank'))
      cases r₃.status <;> decide
    exact (h.claim hmid).trans (h'.claim hlive)
  · intro hsame
    have hmid : r₂.status = r₁.status := by
      rw [hsame] at hrank'
      exact rankOf_inj (Nat.le_antisymm hrank' hrank)
    rw [h'.trust (hsame.trans hmid.symm), h.trust hmid]
  · intro hsame
    have hle := h.generation
    have hle' := h'.generation
    have h₂ : r₂ = r₁ := h.same (by omega)
    rw [h'.same (by omega), h₂]

/-- A captured source, later: it is redacted, or as it was. -/
def SourceMoves (r r' : ProtocolSourceRow) : Prop :=
  r' = r ∨ r' = { r with request := none, retained := false }

theorem SourceMoves.trans {r₁ r₂ r₃ : ProtocolSourceRow} (h : SourceMoves r₁ r₂)
    (h' : SourceMoves r₂ r₃) : SourceMoves r₁ r₃ := by
  rcases h with rfl | rfl <;> rcases h' with rfl | rfl
  · exact .inl rfl
  · exact .inr rfl
  · exact .inr rfl
  · exact .inr rfl

/-- A proposal, later: one that was decided stays so. -/
structure ReviewMoves (r r' : MemoryProposalRow) : Prop where
  key : r'.key = r.key
  decided : r.reviewState ≠ .pendingReview → r'.reviewState = r.reviewState ∧ r'.outcome = r.outcome
  proposal : r'.proposal = r.proposal ∨ r'.proposal = none

theorem ReviewMoves.refl (r : MemoryProposalRow) : ReviewMoves r r :=
  ⟨rfl, fun _ => ⟨rfl, rfl⟩, .inl rfl⟩

/-- Two moves of a review are one. -/
theorem ReviewMoves.trans {r₁ r₂ r₃ : MemoryProposalRow} (h : ReviewMoves r₁ r₂)
    (h' : ReviewMoves r₂ r₃) : ReviewMoves r₁ r₃ := by
  refine ⟨h'.key.trans h.key, fun hdecided => ?_, ?_⟩
  · obtain ⟨hstate, houtcome⟩ := h.decided hdecided
    obtain ⟨hstate', houtcome'⟩ := h'.decided (hstate ▸ hdecided)
    exact ⟨hstate'.trans hstate, houtcome'.trans houtcome⟩
  · rcases h'.proposal with hsame | hredacted
    · rw [hsame]
      exact h.proposal
    · exact .inr hredacted

/-- Every row of the first list is found, moved on, in the second. -/
def RowsMove {ρ : Type} (moves : ρ → ρ → Prop) (rows rows' : List ρ) : Prop :=
  ∀ r ∈ rows, ∃ r' ∈ rows', moves r r'

section RowsMove

variable {ρ : Type} {moves : ρ → ρ → Prop} {rows rows₁ rows₂ : List ρ}

/-- Rows that stay move. -/
theorem RowsMove.of_subset (hrefl : ∀ r, moves r r) (h : rows ⊆ rows₁) :
    RowsMove moves rows rows₁ :=
  fun r hr => ⟨r, h hr, hrefl r⟩

theorem RowsMove.trans (htrans : ∀ {a b c}, moves a b → moves b c → moves a c)
    (h : RowsMove moves rows rows₁) (h' : RowsMove moves rows₁ rows₂) :
    RowsMove moves rows rows₂ := by
  intro r hr
  obtain ⟨r₁, hr₁, hm₁⟩ := h r hr
  obtain ⟨r₂, hr₂, hm₂⟩ := h' r₁ hr₁
  exact ⟨r₂, hr₂, htrans hm₁ hm₂⟩

/-- Rows that are rewritten where they stand. -/
theorem RowsMove.map {f : ρ → ρ} (h : ∀ r ∈ rows, moves r (f r)) :
    RowsMove moves rows (rows.map f) :=
  fun r hr => ⟨f r, List.mem_map_of_mem hr, h r hr⟩

end RowsMove

/-! ## Stores -/

/-- What every operation keeps of a store. -/
structure Grows (s s' : MemoryStore) : Prop where
  records : RowsMove RecordMoves s.records.rows s'.records.rows
  sources : RowsMove SourceMoves s.sources.rows s'.sources.rows
  proposals : s.protocolProposals.rows ⊆ s'.protocolProposals.rows
  reviews : RowsMove ReviewMoves s.memoryProposals.rows s'.memoryProposals.rows

/-- Growing twice is growing. -/
theorem Grows.trans (h : Grows s s₁) (h' : Grows s₁ s₂) : Grows s s₂ :=
  ⟨h.records.trans RecordMoves.trans h'.records, h.sources.trans SourceMoves.trans h'.sources,
    fun _ hr => h'.proposals (h.proposals hr), h.reviews.trans ReviewMoves.trans h'.reviews⟩

/-- Rows that are added to these tables, or other tables that change. -/
theorem Grows.of_subset (hrecords : s.records.rows ⊆ s'.records.rows)
    (hsources : s.sources.rows ⊆ s'.sources.rows)
    (hproposals : s.protocolProposals.rows ⊆ s'.protocolProposals.rows)
    (hreviews : s.memoryProposals.rows ⊆ s'.memoryProposals.rows) : Grows s s' :=
  ⟨.of_subset RecordMoves.refl hrecords, .of_subset (fun _ => .inl rfl) hsources, hproposals,
    .of_subset ReviewMoves.refl hreviews⟩

/-- Other tables change. -/
theorem Grows.of_eq (hrecords : s'.records = s.records) (hsources : s'.sources = s.sources)
    (hproposals : s'.protocolProposals = s.protocolProposals)
    (hreviews : s'.memoryProposals = s.memoryProposals) : Grows s s' := by
  refine .of_subset ?_ ?_ ?_ ?_
  · rw [hrecords]
    exact List.Subset.refl _
  · rw [hsources]
    exact List.Subset.refl _
  · rw [hproposals]
    exact List.Subset.refl _
  · rw [hreviews]
    exact List.Subset.refl _

theorem Grows.refl (s : MemoryStore) : Grows s s := .of_eq rfl rfl rfl rfl

/-- Only the records change. -/
theorem Grows.of_records (hrecords : RowsMove RecordMoves s.records.rows s'.records.rows)
    (hsources : s'.sources = s.sources) (hproposals : s'.protocolProposals = s.protocolProposals)
    (hreviews : s'.memoryProposals = s.memoryProposals) : Grows s s' := by
  have hothers : Grows s { s' with records := s.records } := .of_eq rfl hsources hproposals hreviews
  exact ⟨hrecords, hothers.sources, hothers.proposals, hothers.reviews⟩

/-- The text index is no part of the rows. -/
theorem Grows.of_reindexed (h : Reindexed s s') : Grows s s' := by
  rw [h]
  exact .of_eq rfl rfl rfl rfl

theorem Grows.of_deleteFts (recordId : String) (hrecords : s'.records = (s.deleteFts recordId).records)
    (hsources : s'.sources = (s.deleteFts recordId).sources)
    (hproposals : s'.protocolProposals = (s.deleteFts recordId).protocolProposals)
    (hreviews : s'.memoryProposals = (s.deleteFts recordId).memoryProposals) : Grows s s' :=
  (Grows.of_reindexed reindexed_deleteFts).trans (.of_eq hrecords hsources hproposals hreviews)

/-- Stores after each of a list of changes. -/
theorem Grows.foldl {ι : Type} {f : MemoryStore → ι → MemoryStore} (h : ∀ s i, Grows s (f s i))
    (is : List ι) : Grows s (is.foldl f s) := by
  induction is generalizing s with
  | nil => exact .refl s
  | cons i is ih => exact (h s i).trans ih

/-! ## Records -/

/-- A record is rewritten: only the row of the identifier changes. -/
theorem grows_updateRecord {f : RecordRow → RecordRow} {hf : ∀ r, (f r).id = r.id}
    (h : ∀ r ∈ s.records.rows, r.subjectId = subjectId → r.id = recordId →
      RecordMoves r { f r with generation := r.generation + 1 }) :
    Grows s (s.updateRecord subjectId recordId f hf) := by
  refine .of_records (.map fun r hr => ?_) rfl rfl rfl
  split
  · rename_i hp
    rw [decide_eq_true_eq] at hp
    exact h r hr hp.1 hp.2
  · exact .refl r

/-- A row that goes from one status to a later one. -/
theorem RecordMoves.of_status {r r' : RecordRow} (a b : RecordStatus) (hfrom : r.status = a)
    (hto : r'.status = b) (hrank : rankOf a < rankOf b) (hid : r'.id = r.id)
    (hsubject : r'.subjectId = r.subjectId) (hclaim : b ≠ .tombstoned → SameClaim r r')
    (hgeneration : r'.generation = r.generation + 1) : RecordMoves r r' := by
  subst hfrom hto
  refine ⟨hid, hsubject, Nat.le_of_lt hrank, hclaim, fun hsame => ?_, by omega, fun hsame => ?_⟩
  · rw [hsame] at hrank
    exact absurd hrank (Nat.lt_irrefl _)
  · omega

theorem grows_supersedeRecord {supersededById : String} {now : Instant} :
    Grows s (s.supersedeRecord subjectId supersededById now recordId) := by
  unfold MemoryStore.supersedeRecord
  split
  · exact .refl s
  · rename_i row hrow
    split
    · rename_i hactive
      obtain ⟨hmem, -, hid⟩ := getRecord_eq_some.mp hrow
      refine (grows_updateRecord fun r hr _ hrid => ?_).trans
        (.of_deleteFts recordId rfl rfl rfl rfl)
      have hsame : r = row := eq_of_record_id hr hmem (hrid.trans hid.symm)
      have hstatus : r.status = .active := hsame ▸ hactive
      exact .of_status .active .superseded hstatus rfl (by decide) rfl rfl
        (fun _ => ⟨rfl, rfl, rfl, rfl, rfl, rfl, rfl⟩) rfl
    · exact .refl s

/-- A promotion moves a record out of quarantine. -/
theorem grows_promote {row : RecordRow} {trustTier : TrustTier} {now : Instant}
    {U : UnicodeTables} (hrow : row ∈ s.records.rows) (hstatus : row.status = .quarantined) :
    Grows s (s.promote U row trustTier now) := by
  unfold MemoryStore.promote
  refine (grows_updateRecord fun r hr _ hrid => ?_).trans
    ((Grows.of_reindexed reindexed_upsertFts).trans (.of_eq rfl rfl rfl rfl))
  have hsame : r = row := eq_of_record_id hr hrow hrid
  have hstatus : r.status = .quarantined := hsame ▸ hstatus
  exact .of_status .quarantined .active hstatus rfl (by decide) rfl rfl
    (fun _ => ⟨rfl, rfl, rfl, rfl, rfl, rfl, rfl⟩) rfl

/-- Proposals are rewritten: one that was decided stays so. -/
theorem grows_updateReviews {p : MemoryProposalRow → Bool} {f : MemoryProposalRow → MemoryProposalRow}
    {hf : ∀ r, (f r).key = r.key} (h : ∀ r ∈ s.memoryProposals.rows, p r = true →
      ReviewMoves r (f r)) :
    Grows s { s with memoryProposals := s.memoryProposals.update p f hf } := by
  refine ⟨.of_subset RecordMoves.refl (List.Subset.refl _),
    .of_subset (fun _ => .inl rfl) (List.Subset.refl _), List.Subset.refl _, .map fun r hr => ?_⟩
  split
  · exact h r hr ‹_›
  · exact .refl r

theorem grows_redactProposal {proposalId : String} : Grows s (s.redactProposal proposalId) :=
  grows_updateReviews fun _ _ _ => ⟨rfl, fun _ => ⟨rfl, rfl⟩, .inr rfl⟩

/-- A row whose text is erased. -/
theorem grows_erase (now : Instant) {row : RecordRow}
    (hrow : s.getRecord subjectId recordId = some row) (hlive : row.status ≠ .tombstoned) :
    Grows s (s.updateRecord subjectId recordId (fun r => { r with
      status := .tombstoned
      content := ""
      contentNormalized := none
      factKey := none
      updatedAt := some now
      deletedAt := some now
      raw := { purged := true } }) fun _ => rfl) := by
  obtain ⟨hmem, -, hid⟩ := getRecord_eq_some.mp hrow
  refine grows_updateRecord fun r hr _ hrid => ?_
  have hsame : r = row := eq_of_record_id hr hmem (hrid.trans hid.symm)
  have hstatus : r.status ≠ .tombstoned := hsame ▸ hlive
  refine .of_status r.status .tombstoned rfl rfl ?_ rfl rfl (fun hne => absurd rfl hne) rfl
  cases hr : r.status <;> first | decide | exact absurd hr hstatus

/-- A tombstone is the last status. -/
theorem grows_tombstoneRecord {now : Instant} :
    Grows s (s.tombstoneRecord subjectId now recordId) := by
  unfold MemoryStore.tombstoneRecord
  split
  · exact .refl s
  · rename_i row hrow
    split
    · exact .refl s
    · rename_i hlive
      refine (grows_erase now hrow hlive).trans ?_
      split
      · refine Grows.trans ?_ grows_redactProposal
        exact .of_deleteFts recordId rfl rfl rfl rfl
      · exact .of_deleteFts recordId rfl rfl rfl rfl

/-! ## Purging -/

theorem grows_purgeProtocolSource {now : Instant} {sourceId : String} :
    Grows s (s.purgeProtocolSource now sourceId).1 := by
  unfold MemoryStore.purgeProtocolSource
  split
  · exact .refl s
  · split
    · exact .refl s
    · refine ⟨.of_subset RecordMoves.refl (List.Subset.refl _), .map fun r _ => ?_,
        List.Subset.refl _, .map fun r _ => ?_⟩
      · split
        · exact .inr rfl
        · exact .inl rfl
      · split
        · exact ⟨rfl, fun hdecided => ⟨if_neg hdecided, rfl⟩, .inr rfl⟩
        · exact .refl r

theorem grows_purgeSources {now : Instant} (sourceIds : List String) :
    Grows s (MemoryStore.purgeSources now sourceIds s).1 := by
  induction sourceIds generalizing s with
  | nil => exact .refl s
  | cons sourceId rest ih => exact grows_purgeProtocolSource.trans ih

theorem grows_purgeOrigins {now : Instant} {changed typedRecordIds typedSourceIds : List String} :
    Grows s (s.purgeOrigins subjectId now changed typedRecordIds typedSourceIds).1 := by
  unfold MemoryStore.purgeOrigins
  exact (grows_purgeSources _).trans ((grows_purgeSources _).trans (.of_eq rfl rfl rfl rfl))

theorem grows_supersedeObservation {newObservationId observationId : String} {now : Instant} :
    Grows s (s.supersedeObservation subjectId newObservationId now observationId) := by
  unfold MemoryStore.supersedeObservation
  split
  · exact .refl s
  · rename_i observation hobservation
    have hmarked : Grows s { s with
        observations := s.observations.map fun o =>
          if o.subjectId = subjectId ∧ o.id = observationId then { o with status := .superseded }
          else o } := .of_eq rfl rfl rfl rfl
    refine hmarked.trans ?_
    dsimp only
    split
    · exact .refl _
    · rename_i record hrecord
      obtain ⟨hmem, -, hid⟩ := getRecord_eq_some.mp hrecord
      split
      · rename_i hquarantined
        refine grows_updateRecord fun r hr _ hrid => ?_
        have hsame : r = record := eq_of_record_id hr hmem (hrid.trans hid.symm)
        have hstatus : r.status = .quarantined := hsame ▸ hquarantined
        exact .of_status .quarantined .superseded hstatus rfl (by decide) rfl rfl
          (fun _ => ⟨rfl, rfl, rfl, rfl, rfl, rfl, rfl⟩) rfl
      · exact .refl _

/-! ## Statements -/

/-- Whatever comes of the statement, it takes no row away. -/
abbrev KeepsRows (x : Mem α) : Prop := Within (fun w w' : MemoryWorld => Grows w.store w'.store) x

/-- The rule of sequence. -/
theorem KeepsRows.bind {x : Mem α} {f : α → Mem β} (hx : KeepsRows x) (hf : ∀ a, KeepsRows (f a)) :
    KeepsRows (x >>= f) :=
  Within.bind (P := fun w w' : MemoryWorld => Grows w.store w'.store) (fun _ _ _ => Grows.trans) hx hf

theorem KeepsRows.pure {a : α} : KeepsRows (Pure.pure a : Mem α) := fun w => .refl w.store

theorem KeepsRows.throw {e : MemoryError} : KeepsRows (MonadExcept.throw e : Mem α) :=
  fun w => .refl w.store

/-- What would follow is not run. -/
theorem KeepsRows.throw_bind {e : MemoryError} {f : α → Mem β} :
    KeepsRows ((MonadExcept.throw e : Mem α) >>= f) := fun w => .refl w.store

theorem KeepsRows.read {f : MemoryStore → α} : KeepsRows (readStore f) := fun w => .refl w.store

/-- A write keeps the rows if it lets them grow. -/
theorem KeepsRows.write {f : MemoryStore → MemoryStore} (hf : ∀ s, Grows s (f s)) :
    KeepsRows (writeStore f) :=
  fun w => hf w.store

theorem KeepsRows.now : KeepsRows utcNow := fun w => .refl w.store

theorem KeepsRows.draw {kind : String} : KeepsRows (newId E kind) := fun w => .refl w.store

theorem KeepsRows.lift {x : Except String α} : KeepsRows (liftMem x) := by
  rcases x with message | a
  · exact .throw
  · exact .pure

/-- A statement that reads the world it works on. -/
theorem KeepsRows.of_get {f : MemoryWorld → Mem α}
    (h : ∀ w, Grows w.store (exec (f w) w).2.store) : KeepsRows (get >>= f) := by
  intro w
  rw [exec_bind, exec_get]
  exact h w

/-- What is done depends on what was read. -/
theorem KeepsRows.of_read {f : MemoryStore → β} {g : β → Mem α}
    (h : ∀ w : MemoryWorld, Grows w.store (exec (g (f w.store)) w).2.store) :
    KeepsRows (readStore f >>= g) := by
  intro w
  rw [exec_bind, exec_readStore]
  exact h w

theorem keepsRows_insertRecord (r : NewRecord) : KeepsRows (insertRecord E r) := by
  intro w
  rw [exec_insertRecord]
  rcases hi : w.store.records.insert (rowOf E w r) with - | records
  · exact .refl w.store
  · refine Grows.trans ?_ (.of_reindexed reindexed_stored)
    refine .of_subset ?_ (List.Subset.refl _) (List.Subset.refl _) (List.Subset.refl _)
    rw [(Table.insert_eq_some.mp hi).2]
    exact List.subset_append_left _ _

theorem keepsRows_insertEpisode (subjectId message sourceType : String) :
    KeepsRows (insertEpisode E subjectId message sourceType) :=
  .bind .draw fun _ => .bind .now fun _ => .bind (.write fun _ => .of_eq rfl rfl rfl rfl) fun _ => .pure

theorem keepsRows_supersedeRecords (subjectId : String) (ids : List String) (byId : String) :
    KeepsRows (supersedeRecords subjectId ids byId) := by
  unfold supersedeRecords
  split
  · exact .bind .now fun _ => .write fun s => .foldl (fun _ _ => grows_supersedeRecord) ids
  · exact .pure

theorem keepsRows_promoteRecord (subjectId recordId : String) :
    KeepsRows (promoteRecord E subjectId recordId) := by
  unfold promoteRecord
  refine .bind .now fun now => .of_get fun w => ?_
  split
  · exact .refl _
  · rename_i row hrow
    obtain ⟨hmem, -, -⟩ := getRecord_eq_some.mp hrow
    split
    · rename_i hstatus
      rw [exec_bind, exec_writeStore]
      exact grows_promote hmem hstatus
    · exact .refl _

theorem keepsRows_tombstoneRecords (subjectId : String) (ids : List String) :
    KeepsRows (tombstoneRecords subjectId ids) := by
  unfold tombstoneRecords
  split
  · exact .pure
  · refine .bind .now fun now => .bind .read fun before => .bind
      (.write fun s => .foldl (fun _ _ => grows_tombstoneRecord) _) fun _ => .of_read fun w => ?_
    rw [exec_bind, exec_writeStore]
    dsimp only [exec_pure, id]
    exact grows_purgeOrigins

theorem keepsRows_insertMemoryLineage (subjectId relation predecessorId successorId sha : String)
    (generation : ℕ) (proposalId : Option String) : KeepsRows (insertMemoryLineage E subjectId
      relation predecessorId successorId sha generation proposalId) := by
  refine .bind .draw fun _ => .bind .now fun _ => .bind (.write fun s => ?_) fun _ => .pure
  split <;> exact .of_eq rfl rfl rfl rfl

theorem keepsRows_insertTypedMemoryUnit (unit : MemoryUnitFields) (recordId identity : String) :
    KeepsRows (insertTypedMemoryUnit unit recordId identity) := by
  unfold insertTypedMemoryUnit
  refine .bind .read fun linked => ?_
  dsimp only
  split
  · exact .throw_bind
  · refine .bind .read fun clash => ?_
    split
    · exact .throw_bind
    · exact .write fun _ => .of_eq rfl rfl rfl rfl

/-! ## Sources and proposals -/

/-- **`capture_source`** keeps the rows. -/
theorem keepsRows_captureSource (request : SourceCaptureRequest) :
    KeepsRows (captureSource E request) := by
  unfold captureSource
  refine .bind .read fun existing => ?_
  dsimp only
  split
  · split
    · exact .throw_bind
    · split
      · exact .throw_bind
      · exact .pure
  · refine .bind .read fun taken => ?_
    split
    · exact .throw_bind
    · refine .bind (keepsRows_insertEpisode _ _ _) fun episodeId => .bind .now fun _ =>
        .of_get fun w => ?_
      split
      · exact .refl _
      · rename_i sources hsources
        refine .of_subset (List.Subset.refl _) ?_ (List.Subset.refl _) (List.Subset.refl _)
        rw [exec_bind, exec_writeStore]
        have hrows := (Table.insert_eq_some.mp hsources).2
        exact hrows ▸ List.subset_append_left _ _

theorem keepsRows_admissionOf (p : MemoryProposal) (v : Provenance) (factKey : Option String) :
    KeepsRows (admissionOf E p v factKey) := by
  unfold admissionOf
  dsimp only
  split
  · exact .pure
  · refine .bind .read fun duplicate => ?_
    split
    · exact .pure
    · exact .bind .read fun _ => .bind (keepsRows_insertRecord _) fun _ => .pure

/-- So does **`submit_proposal`**. -/
theorem keepsRows_submitProposal (p : MemoryProposal) : KeepsRows (submitProposal E p) := by
  unfold submitProposal
  dsimp only
  split
  · exact .throw_bind
  · refine .bind .read fun existing => ?_
    split
    · split
      · exact .throw_bind
      · exact .pure
    · refine .bind .read fun _ => .bind .lift fun _ => .bind .read fun _ => .bind .lift fun _ =>
        .bind .lift fun _ => .bind (keepsRows_admissionOf _ _ _) fun _ => .bind .now fun _ =>
          .of_get fun w => ?_
      split
      · exact .refl _
      · rename_i protocolProposals hproposals
        refine .of_subset (List.Subset.refl _) (List.Subset.refl _) ?_ (List.Subset.refl _)
        rw [exec_bind, exec_writeStore]
        have hrows := (Table.insert_eq_some.mp hproposals).2
        exact hrows ▸ List.subset_append_left _ _

/-! ## Remembering, correcting and forgetting -/

theorem keepsRows_rememberCandidates (q : RememberRequest) (episodeId : String)
    (cs : List CandidateFact) : KeepsRows (rememberCandidates E q episodeId cs) := by
  induction cs with
  | nil => exact .pure
  | cons c cs ih =>
    refine .bind ?_ fun _ => .bind ih fun _ => .pure
    unfold rememberCandidate
    refine .bind .read fun duplicate => ?_
    split
    · exact .pure
    · exact .bind .read fun _ => .bind (keepsRows_insertRecord _) fun _ =>
        .bind (keepsRows_supersedeRecords _ _ _) fun _ => .pure

theorem keepsRows_interpretedDuplicate (q : RememberRequest) :
    KeepsRows (interpretedDuplicate E q) := by
  unfold interpretedDuplicate
  split
  · exact .pure
  · dsimp only
    split
    · exact .throw_bind
    · exact .read

/-- So does **`remember`**. -/
theorem keepsRows_remember (q : RememberRequest) : KeepsRows (remember E q) := by
  unfold remember
  dsimp only
  split
  · exact .throw_bind
  · split
    · exact .pure
    · refine .bind (keepsRows_interpretedDuplicate q) fun duplicate => ?_
      split
      · exact .pure
      · exact .bind (keepsRows_insertEpisode _ _ _) fun _ => keepsRows_rememberCandidates _ _ _

/-- So does **`correct_record`**. -/
theorem keepsRows_correctRecord (subjectId recordId correctedText : String) :
    KeepsRows (correctRecord E subjectId recordId correctedText) := by
  unfold correctRecord
  refine .bind .read fun old => ?_
  split
  · exact .throw
  · dsimp only
    split
    · exact .throw_bind
    · split
      · exact .throw_bind
      · refine .bind (keepsRows_remember _) fun result => ?_
        split
        · exact .throw
        · exact .bind (keepsRows_supersedeRecords _ _ _) fun _ => .pure

theorem keepsRows_purgeRecordIds (subjectId : String) (recordIds : List String) :
    KeepsRows (purgeRecordIds subjectId recordIds) :=
  .bind (keepsRows_tombstoneRecords _ _) fun _ =>
    .bind (.write fun _ => .of_eq rfl rfl rfl rfl) fun _ => .pure

/-- So does **`forget_record`**. -/
theorem keepsRows_forgetRecord (subjectId recordId : String) :
    KeepsRows (forgetRecord subjectId recordId) := by
  unfold forgetRecord
  refine .bind .read fun record => ?_
  dsimp only
  split
  · exact .throw_bind
  · exact keepsRows_purgeRecordIds _ _

theorem keepsRows_forget (subjectId contains : String) :
    KeepsRows (forget E subjectId contains) := by
  unfold forget
  split
  · exact .pure
  · exact .bind .read fun _ => keepsRows_purgeRecordIds _ _

theorem keepsRows_reject (subjectId recordId : String) : KeepsRows (reject subjectId recordId) := by
  unfold reject
  refine .bind .read fun record => ?_
  dsimp only
  split
  · exact .throw_bind
  · exact keepsRows_purgeRecordIds _ _

theorem keepsRows_promote (subjectId recordId : String) :
    KeepsRows (promote E subjectId recordId) := by
  unfold promote
  refine .bind .read fun _ => .bind (keepsRows_promoteRecord _ _) fun promoted => ?_
  split
  · exact .throw
  · exact .bind .read fun _ => .bind (keepsRows_supersedeRecords _ _ _) fun _ => .pure

theorem keepsRows_consolidateGroups (subjectId : String) (groups : List (List RecordRow)) :
    KeepsRows (consolidateGroups subjectId groups) := by
  induction groups with
  | nil => exact .pure
  | cons group groups ih =>
    refine .bind ?_ fun _ => .bind ih fun _ => .pure
    unfold consolidateGroup
    split
    · exact .pure
    · exact .bind (keepsRows_supersedeRecords _ _ _) fun _ => .pure

/-- So does **`consolidate`**. -/
theorem keepsRows_consolidate (subjectId : String) : KeepsRows (consolidate E subjectId) :=
  .bind .read fun _ => .bind (keepsRows_consolidateGroups _ _) fun _ =>
    .bind (keepsRows_consolidateGroups _ _) fun _ => .pure

theorem keepsRows_proposeEach (subjectId : String) (sessionId : Option String)
    (known : List String) (visible : List RecordRow) (facts : List DerivedFact) :
    KeepsRows (proposeEach E subjectId sessionId known visible facts) := by
  induction facts generalizing visible with
  | nil => exact .pure
  | cons fact facts ih =>
    refine .bind ?_ fun _ => .bind (ih _) fun _ => .pure
    unfold proposeFact
    dsimp only
    split
    · exact .pure
    · exact .bind (keepsRows_insertRecord _) fun _ => .read

theorem keepsRows_proposeFacts (subjectId : String) (facts : List DerivedFact)
    (sessionId : Option String) : KeepsRows (proposeFacts E subjectId facts sessionId) :=
  .bind .read fun _ => .bind .read fun _ => keepsRows_proposeEach _ _ _ _ _

theorem keepsRows_setRetrievalExcluded (subjectId recordId : String) (excluded : Bool) :
    KeepsRows (setRetrievalExcluded E subjectId recordId excluded) := by
  unfold setRetrievalExcluded
  refine .bind .read fun record => ?_
  split
  · exact .throw
  · dsimp only
    split
    · exact .throw_bind
    · refine .bind (.write fun _ => .of_eq rfl rfl rfl rfl) fun _ => ?_
      split
      · exact .pure
      · exact .bind .lift fun _ => .bind .lift fun _ => .write fun _ => .of_eq rfl rfl rfl rfl

theorem keepsRows_rememberObservation (subjectId : String) (observation : MediaObservation)
    (sessionId turnId : Option String) :
    KeepsRows (rememberObservation E subjectId observation sessionId turnId) := by
  unfold rememberObservation
  refine .bind .read fun duplicate => ?_
  split
  · exact .pure
  · refine .bind .read fun previous => .bind (keepsRows_insertEpisode _ _ _) fun _ =>
      .bind (keepsRows_insertRecord _) fun _ => .bind ?_ fun _ => ?_
    · refine .bind .draw fun _ => .bind .now fun _ => .bind .read fun clash => ?_
      dsimp only
      split
      · exact .throw_bind
      · exact .bind (.write fun _ => .of_eq rfl rfl rfl rfl) fun _ => .pure
    · dsimp only
      split
      · refine .bind .now fun _ => .bind (.write fun s => ?_) fun _ => .pure
        exact .foldl (fun _ _ => grows_supersedeObservation) _
      · exact .pure

/-! ## Opening -/

theorem grows_migrateFts {missing : Bool} : Grows s (s.migrateFts missing) := by
  unfold MemoryStore.migrateFts
  split
  · exact .of_eq rfl rfl rfl rfl
  · exact .refl s

/-- Materializing a record again moves nothing. -/
theorem moves_rematerialize (r : RecordRow) : RecordMoves r r.rematerialize := by
  unfold RecordRow.rematerialize
  split
  · exact .refl r
  · exact ⟨rfl, rfl, Nat.le_refl _, fun _ => ⟨rfl, rfl, rfl, rfl, rfl, rfl, rfl⟩, fun _ => rfl,
      Nat.le_succ _, fun hsame => absurd hsame (Nat.succ_ne_self _)⟩

theorem grows_backfillSearchTerms {U : UnicodeTables} : Grows s (s.backfillSearchTerms U) := by
  unfold MemoryStore.backfillSearchTerms
  split
  · exact .refl s
  · refine .of_records (.map fun r _ => ?_) rfl rfl rfl
    split
    · exact moves_rematerialize r
    · exact .refl r

/-- So does the opening of a store. -/
theorem keepsRows_reopen (ftsMissing : Bool) : KeepsRows (reopen E ftsMissing) :=
  .write fun _ => grows_migrateFts.trans grows_backfillSearchTerms

/-! ## Extraction -/

theorem keepsRows_originOf (p : ExtractionProposal) (content : String) :
    KeepsRows (originOf E p content) := by
  unfold originOf
  split
  · exact .bind .read fun _ => .lift
  · exact .bind (keepsRows_insertEpisode _ _ _) fun _ => .pure

theorem keepsRows_commitUnit (p : ExtractionProposal) (recordId : String) (quarantine : Bool) :
    KeepsRows (commitUnit E p recordId quarantine) := by
  unfold commitUnit
  split
  · exact .pure
  · exact .bind .lift fun _ => keepsRows_insertTypedMemoryUnit _ _ _

theorem keepsRows_recordLineage (p : ExtractionProposal) (recordId : String)
    (targets : List RecordRow) : KeepsRows (recordLineage E p recordId targets) := by
  induction targets with
  | nil => exact .pure
  | cons r rs ih =>
    exact .bind (keepsRows_insertMemoryLineage _ _ _ _ _ _ _) fun _ => .bind ih fun _ => .pure

theorem keepsRows_commitExtraction (p : ExtractionProposal) (context : ResolutionContext)
    (sessionId turnId fact : Option String) :
    KeepsRows (commitExtraction E p context sessionId turnId fact) := by
  unfold commitExtraction
  refine .bind .read fun _ => .bind .lift fun _ => .bind (keepsRows_originOf _ _) fun origin =>
    .bind (keepsRows_insertRecord _) fun _ => .bind (keepsRows_commitUnit _ _ _) fun _ => ?_
  split
  · exact .bind (keepsRows_supersedeRecords _ _ _) fun _ =>
      .bind (keepsRows_insertMemoryLineage _ _ _ _ _ _ _) fun _ => .pure
  · exact .bind (keepsRows_supersedeRecords _ _ _) fun _ =>
      .bind (keepsRows_recordLineage _ _ _) fun _ => .pure

theorem keepsRows_carryOut (options : SubmitOptions) (p : ExtractionProposal)
    (context : ResolutionContext) (verdict : ReviewState × List String) :
    KeepsRows (carryOut E options p context verdict) := by
  unfold carryOut
  split
  · refine .bind .read fun _ => .bind .lift fun duplicate => ?_
    split
    · exact .bind (.write fun _ => .of_eq rfl rfl rfl rfl) fun _ => .pure
    · exact .bind (keepsRows_commitExtraction _ _ _ _ _) fun _ => .pure
  · exact .pure

theorem grows_insertReview {row : MemoryProposalRow} {memoryProposals} {links : List ProposalSourceRow}
    (h : s.memoryProposals.insert row = some memoryProposals) :
    Grows s { s with memoryProposals, proposalSources := links } := by
  refine .of_subset (List.Subset.refl _) (List.Subset.refl _) (List.Subset.refl _) ?_
  rw [(Table.insert_eq_some.mp h).2]
  exact List.subset_append_left _ _

theorem keepsRows_insertMemoryProposal (p : ExtractionProposal) (submittedDigest : String)
    (outcome : ExtractionOutcome) : KeepsRows (insertMemoryProposal E p submittedDigest outcome) := by
  unfold insertMemoryProposal
  dsimp only
  split
  · refine .bind .pure fun _ => .bind .now fun _ => .of_get fun w => ?_
    split
    · exact .refl _
    · rename_i hinsert
      exact grows_insertReview hinsert
  · refine .bind (.bind .now fun _ => .pure) fun _ => .bind .now fun _ => .of_get fun w => ?_
    split
    · exact .refl _
    · rename_i hinsert
      exact grows_insertReview hinsert

/-- So does **`submit_extraction_proposal`**. -/
theorem keepsRows_submitExtractionProposal (p : ExtractionProposal) (options : SubmitOptions) :
    KeepsRows (submitExtractionProposal E p options) := by
  unfold submitExtractionProposal
  refine .bind .read fun existing => ?_
  split
  · dsimp only
    split
    · exact .throw_bind
    · exact .pure
  · refine .bind .read fun _ => .bind .lift fun prepared => .of_get fun w => ?_
    have hrest (verdict : Except String (ReviewState × List String)) :
        KeepsRows (liftMem verdict >>= fun verdict =>
          carryOut E options prepared.proposal prepared.context verdict >>= fun outcome =>
            insertMemoryProposal E prepared.proposal (p.digest E.hashing) outcome) :=
      .bind .lift fun _ => .bind (keepsRows_carryOut _ _ _ _) fun _ =>
        keepsRows_insertMemoryProposal _ _ _
    exact hrest _ w

/-! ## Review -/

theorem keepsRows_reviewOutcome (stored : MemoryProposalRow) (p : ExtractionProposal)
    (decision : ReviewDecision) (sessionId : Option String) :
    KeepsRows (reviewOutcome E stored p decision sessionId) := by
  unfold reviewOutcome
  dsimp only
  split
  · exact .pure
  · refine .bind .read fun _ => .bind .read fun drifted => ?_
    split
    · exact .pure
    · split
      · exact .pure
      · split
        · exact .pure
        · refine .bind .read fun _ => .bind .lift fun duplicate => ?_
          split
          · exact .pure
          · exact .bind (keepsRows_commitExtraction _ _ _ _ _) fun _ => .pure

/-- Two proposals of one identifier are one proposal. -/
theorem eq_of_proposalId {a b : MemoryProposalRow} (ha : a ∈ s.memoryProposals.rows)
    (hb : b ∈ s.memoryProposals.rows) (h : a.proposalId = b.proposalId) : a = b :=
  Table.eq_of_id_eq (fun a b hab => by simp [memoryProposalClash, MemoryProposalRow.key, hab])
    ha hb h

/-- A proposal is found by its identifier. -/
theorem getMemoryProposal_eq_some {proposalId : String} {row : MemoryProposalRow} :
    s.getMemoryProposal proposalId = some row ↔
      row ∈ s.memoryProposals.rows ∧ row.proposalId = proposalId :=
  Table.find?_id_eq_some fun a b hab => by simp [memoryProposalClash, MemoryProposalRow.key, hab]

/-- Settling a row leaves the columns of its keys alone. -/
theorem key_settled (outcome : ExtractionOutcome) (now : Instant) (r : MemoryProposalRow) :
    ({ r with reviewState := outcome.state, outcome, decidedAt := some now } :
      MemoryProposalRow).key = r.key := rfl

/-- What `settleMemoryProposal` does under its guard. -/
def guardedSettle (proposalId : String) (outcome : ExtractionOutcome) : Mem Unit := do
  let now ← utcNow
  let pending : Bool ← readStore fun s =>
    (s.getMemoryProposal proposalId).any (·.reviewState = .pendingReview)
  if ¬ pending then
    throw (.valueError ("proposal " ++ proposalId ++ " was decided concurrently"))
  writeStore fun s => { s with
    memoryProposals := s.memoryProposals.update (·.proposalId = proposalId)
      (fun r => { r with reviewState := outcome.state, outcome, decidedAt := some now })
      (key_settled outcome now) }

/-- The settled row was pending. -/
theorem keepsRows_settleMemoryProposal (p : ExtractionProposal) (proposalId : String)
    (outcome : ExtractionOutcome) : KeepsRows (settleMemoryProposal p proposalId outcome) := by
  have hguarded : KeepsRows (guardedSettle proposalId outcome) := by
    refine .bind .now fun now => .of_read fun w => ?_
    dsimp only
    split
    · exact .refl _
    · rename_i hpending
      rw [exec_writeStore]
      refine grows_updateReviews fun r hr hrid => ?_
      rw [decide_eq_true_eq] at hrid
      rw [Decidable.not_not, Option.any_eq_true] at hpending
      obtain ⟨row, hrow, hstate⟩ := hpending
      obtain ⟨hmem, hfound⟩ := getMemoryProposal_eq_some.mp hrow
      rw [decide_eq_true_eq] at hstate
      have hsame : r = row := eq_of_proposalId hr hmem (hrid.trans hfound.symm)
      exact ⟨rfl, fun hdecided => absurd (hsame ▸ hstate) hdecided, .inl rfl⟩
  unfold settleMemoryProposal
  dsimp only
  split
  · refine .bind (.write fun s => ?_) fun _ => hguarded
    exact grows_updateReviews fun _ _ _ => ⟨rfl, fun _ => ⟨rfl, rfl⟩, .inr rfl⟩
  · exact hguarded

/-- What `decideReview` does with the row it reads. -/
def decideStored (E : Engine) (proposalId : String) (decision : ReviewDecision)
    (sessionId : Option String) (authorization : Option ReviewAuthorization)
    (stored : MemoryProposalRow) : Mem ExtractionOutcome := do
  if stored.reviewState ≠ .pendingReview then
    throw (.valueError ("proposal " ++ proposalId ++ " was already decided"))
  if decision.edits ∧ (stored.proposal.bind (·.val.unit)).isSome then
    throw (.valueError "typed proposals cannot be text-edited")
  match checkAuthorization stored authorization with
  | .error e => throw e
  | .ok () =>
    match stored.proposal with
    | none => throw (.keyError "idempotency_key")
    | some p =>
      let outcome ← reviewOutcome E stored p decision sessionId
      settleMemoryProposal p proposalId outcome
      pure outcome

/-- What `decideReview` does once the edited text is accepted. -/
def decideFound (E : Engine) (proposalId : String) (decision : ReviewDecision)
    (sessionId : Option String) (authorization : Option ReviewAuthorization) :
    Mem ExtractionOutcome := do
  match ← readStore fun s => s.getMemoryProposal proposalId with
  | none => throw (.valueError ("unknown proposal: " ++ proposalId))
  | some stored => decideStored E proposalId decision sessionId authorization stored

/-- So does the decision of a review. -/
theorem keepsRows_decideReview (proposalId : String) (decision : ReviewDecision)
    (sessionId : Option String) (authorization : Option ReviewAuthorization) :
    KeepsRows (decideReview E proposalId decision sessionId authorization) := by
  have hrest : KeepsRows (decideFound E proposalId decision sessionId authorization) := by
    refine .bind .read fun stored => ?_
    split
    · exact .throw
    · unfold decideStored
      dsimp only
      split
      · exact .throw_bind
      · split
        · exact .throw_bind
        · split
          · exact .throw
          · split
            · exact .throw
            · exact .bind (keepsRows_reviewOutcome _ _ _ _) fun _ =>
                .bind (keepsRows_settleMemoryProposal _ _ _) fun _ => .pure
  unfold decideReview
  dsimp only
  split
  · split
    · exact .throw_bind
    · exact hrest
  · exact hrest

/-! ## Bundles -/

/-- What a bundle that is taken in adds. -/
theorem insertBundle_eq_some {b : Bundle} (h : s.insertBundle b = some s') :
    s'.records.rows = s.records.rows ++ b.records ∧
      s'.memoryProposals.rows = s.memoryProposals.rows ++ b.memoryProposals ∧
      s'.sources.rows = s.sources.rows ++ b.sources ∧
      s'.protocolProposals.rows = s.protocolProposals.rows ++ b.protocolProposals := by
  unfold MemoryStore.insertBundle at h
  obtain ⟨records, hrecords, h⟩ := Option.bind_eq_some_iff.mp h
  obtain ⟨memoryProposals, hreviews, h⟩ := Option.bind_eq_some_iff.mp h
  obtain ⟨sources, hsources, h⟩ := Option.bind_eq_some_iff.mp h
  obtain ⟨protocolProposals, hproposals, h⟩ := Option.bind_eq_some_iff.mp h
  split at h
  · cases h
  · cases h
    exact ⟨Table.rows_of_foldlM_insert hrecords, Table.rows_of_foldlM_insert hreviews,
      Table.rows_of_foldlM_insert hsources, Table.rows_of_foldlM_insert hproposals⟩

theorem grows_insertBundle {b : Bundle} (h : s.insertBundle b = some s') : Grows s s' := by
  obtain ⟨hrecords, hreviews, hsources, hproposals⟩ := insertBundle_eq_some h
  refine .of_subset ?_ ?_ ?_ ?_
  · exact hrecords ▸ List.subset_append_left _ _
  · exact hsources ▸ List.subset_append_left _ _
  · exact hproposals ▸ List.subset_append_left _ _
  · exact hreviews ▸ List.subset_append_left _ _

theorem grows_indexRestored {U : UnicodeTables} {r : RecordRow} :
    Grows s (indexRestored U s r) := by
  unfold indexRestored
  split
  · exact .refl s
  · exact (Grows.of_reindexed reindexed_upsertFts).trans (.of_eq rfl rfl rfl rfl)

/-- So does a restore. -/
theorem keepsRows_restore (subjects : List String) (b : Bundle) :
    KeepsRows (restore E subjects b) := by
  unfold restore
  refine .bind .read fun taken => ?_
  dsimp only
  split
  · exact .throw_bind
  · refine .of_get fun w => ?_
    split
    · exact .refl _
    · rename_i s' hinsert
      rw [exec_writeStore]
      exact (grows_insertBundle hinsert).trans (.foldl (fun _ _ => grows_indexRestored) _)

/-! ## Operations -/

/-- What an operation runs takes no row away. -/
theorem keepsRows_body (op : Operation) : KeepsRows (op.body E) := by
  cases op with
  | captureSource request => exact .bind (keepsRows_captureSource _) fun _ => .pure
  | submitProposal proposal => exact .bind (keepsRows_submitProposal _) fun _ => .pure
  | submitExtractionProposal proposal options =>
    exact .bind (keepsRows_submitExtractionProposal _ _) fun _ => .pure
  | decideReview proposalId decision sessionId authorization =>
    exact .bind (keepsRows_decideReview _ _ _ _) fun _ => .pure
  | remember request => exact .bind (keepsRows_remember _) fun _ => .pure
  | correctRecord subjectId recordId correctedText =>
    exact .bind (keepsRows_correctRecord _ _ _) fun _ => .pure
  | forgetRecord subjectId recordId => exact .bind (keepsRows_forgetRecord _ _) fun _ => .pure
  | forget subjectId contains => exact .bind (keepsRows_forget _ _) fun _ => .pure
  | reject subjectId recordId => exact .bind (keepsRows_reject _ _) fun _ => .pure
  | promote subjectId recordId => exact .bind (keepsRows_promote _ _) fun _ => .pure
  | consolidate subjectId => exact .bind (keepsRows_consolidate _) fun _ => .pure
  | proposeFacts subjectId facts sessionId =>
    exact .bind (keepsRows_proposeFacts _ _ _) fun _ => .pure
  | setRetrievalExcluded subjectId recordId excluded =>
    exact keepsRows_setRetrievalExcluded _ _ _
  | rememberObservation subjectId observation sessionId turnId =>
    exact .bind (keepsRows_rememberObservation _ _ _ _) fun _ => .pure
  | reopen ftsMissing => exact keepsRows_reopen _

/-- What a statement keeps, it keeps in its transaction. -/
theorem KeepsRows.atomic {body : Mem α} (h : KeepsRows body) :
    Grows w.store (atomic body w).2.store :=
  Within.atomic Grows.refl h

/-- **No operation takes a row away.** -/
theorem grows_operation (op : Operation) : Grows w.store (op.run E w).store :=
  (keepsRows_body op).atomic

theorem keepsRows_settle (stored : MemoryProposalRow) (p : ExtractionProposal)
    (decision : ReviewDecision) (sessionId : Option String) :
    KeepsRows (settle E stored p decision sessionId) :=
  .bind (keepsRows_reviewOutcome _ _ _ _) fun _ =>
    .bind (keepsRows_settleMemoryProposal _ _ _) fun _ => .pure

/-- **No call takes a row away.** -/
theorem grows_call (k : Call) (s : Session) :
    Grows s.world.store (k.body E s).2.world.store := by
  cases k with
  | captureSource request => exact (keepsRows_captureSource request).atomic
  | submitProposal proposal => exact (keepsRows_submitProposal proposal).atomic
  | buildContext scope window => exact .refl _
  | submitExtractionProposal proposal options =>
    exact (keepsRows_submitExtractionProposal proposal options).atomic
  | getMemoryProposal proposalId => exact .refl _
  | settle stored proposal decision sessionId authorization =>
    have hgrows := (keepsRows_settle (E := E) stored proposal decision sessionId).atomic (w := s.world)
    unfold Call.body
    dsimp only
    split
    · rename_i hrun
      rwa [hrun] at hgrows
    · rename_i hrun
      rwa [hrun] at hgrows
  | operation op => exact grows_operation op
  | restore subjects bundle => exact (keepsRows_restore subjects bundle).atomic

/-- **A call of a run was answered of a state the run had reached, and the
store has grown since.** -/
theorem exists_grows {made before after : List (Call × Answer)} {t : Session} {k : Call} {a : Answer}
    {start : Session → Prop} (hr : History.Run (Call.body E) Call.Allowed start made t)
    (h : made = before ++ (k, a) :: after) :
    ∃ u, History.Run (Call.body E) Call.Allowed start before u ∧ k.Allowed before u ∧
      (k.body E u).1 = a ∧ Grows (k.body E u).2.world.store t.world.store :=
  hr.later (P := fun s s' : Session => Grows s.world.store s'.world.store) (fun _ => .refl _)
    (fun _ _ _ => Grows.trans) grows_call h

end Atmem.Memory
