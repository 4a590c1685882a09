import Atmem.Memory.Helpers.Growth
/-!
# What a proposal was made against

A proposal pins records as they stood and names records it replaces. They
are as pinned, and in force, where it is validated against what the store
holds, where reconciliation has pinned them itself, and where a review finds
no drift.
-/

namespace Atmem.Memory

open Relational Transactional Checked

variable {E : Engine} {w w' : MemoryWorld} {s s' : MemoryStore} {subjectId : String}
variable {p p' q : ExtractionProposal} {c : ProposalPrecondition} {context : ResolutionContext}
variable {options : SubmitOptions}

/-! ## Pinned records -/

/-- A record stands as it was pinned. -/
def Pinned (E : Engine) (s : MemoryStore) (subjectId : String) (c : ProposalPrecondition) : Prop :=
  ∃ r, s.getRecord subjectId c.val.recordId = some r ∧ r.generation = c.val.generation ∧
    value r.status = c.val.status ∧ E.sha256 r.content = c.val.contentSha256

/-- A record is in force. -/
def InForce (s : MemoryStore) (subjectId recordId : String) : Prop :=
  ∃ r, s.getRecord subjectId recordId = some r ∧ r.status = .active

/-- Every record a proposal was made against is as it was pinned, and every
record it names is in force. -/
structure Unmoved (E : Engine) (s : MemoryStore) (subjectId : String) (p : ExtractionProposal) :
    Prop where
  pinned : ∀ c ∈ p.val.preconditions, Pinned E s subjectId c
  affected : ∀ recordId ∈ p.val.affectedRecordIds, InForce s subjectId recordId

/-- No reason exactly if the condition fails. -/
theorem reasonIf_eq_nil {condition : Bool} {reason : String} :
    reasonIf condition reason = [] ↔ condition = false := by
  cases condition <;> simp [reasonIf]

/-- A precondition holds of the record as it is. -/
theorem preconditionReasons_eq_nil {row : Option RecordRow} :
    preconditionReasons E c row = [] ↔ ∃ r, row = some r ∧ r.generation = c.val.generation ∧
      value r.status = c.val.status ∧ E.sha256 r.content = c.val.contentSha256 := by
  rcases row with - | r
  · simp [preconditionReasons]
  · simp [preconditionReasons, reasonIf_eq_nil]

theorem eraseDups_eq_nil {l : List String} : l.eraseDups = [] ↔ l = [] := by
  constructor
  · intro h
    refine List.eq_nil_iff_forall_not_mem.mpr fun a ha => ?_
    have hmem : a ∈ l.eraseDups := List.mem_eraseDups.mpr ha
    rw [h] at hmem
    cases hmem
  · rintro rfl
    rfl

/-- A review finds no drift exactly where nothing moved. -/
theorem preconditionDrift_eq_nil : preconditionDrift E s subjectId p = [] ↔ Unmoved E s subjectId p := by
  unfold preconditionDrift
  rw [eraseDups_eq_nil, List.append_eq_nil_iff, List.flatMap_eq_nil_iff, List.flatMap_eq_nil_iff]
  constructor
  · rintro ⟨hpinned, haffected⟩
    refine ⟨fun c hc => preconditionReasons_eq_nil.mp (hpinned c hc), fun recordId hid => ?_⟩
    have hreason := reasonIf_eq_nil.mp (haffected recordId hid)
    rcases hr : s.getRecord subjectId recordId with - | r
    · rw [hr] at hreason
      cases hreason
    · rw [hr] at hreason
      exact ⟨r, hr, by simpa using hreason⟩
  · rintro ⟨hpinned, haffected⟩
    refine ⟨fun c hc => preconditionReasons_eq_nil.mpr (hpinned c hc), fun recordId hid => ?_⟩
    obtain ⟨r, hr, hactive⟩ := haffected recordId hid
    exact reasonIf_eq_nil.mpr (by simp [hr, hactive])

/-! ## Contexts of the store -/

/-- The records of a context are the store's, in force. -/
def Current (s : MemoryStore) (subjectId : String) (context : ResolutionContext) : Prop :=
  ∀ r ∈ context.records, s.getRecord subjectId r.id = some r ∧ r.status = .active

/-- A context that was just built is current. -/
theorem current_buildResolutionContext {scope : AuthorityScope} {window : ℕ} :
    Current s scope.val.subjectId (buildResolutionContext s scope window) := by
  intro r hr
  have hbounded := List.mem_of_mem_filter hr
  have hsorted := List.mem_of_mem_take hbounded
  have hmem := List.mem_filter.mp ((List.perm_insertionSort _ _).mem_iff.mp hsorted)
  have hp := of_decide_eq_true hmem.2
  exact ⟨getRecord_eq_some.mpr ⟨hmem.1, hp.1, rfl⟩, hp.2.1⟩

/-- So is the one a submission uses. -/
theorem current_submissionContext (h : Current s p.val.scope.val.subjectId context) :
    Current s p.val.scope.val.subjectId (submissionContext s p context) := by
  intro r hr
  rcases List.mem_append.mp hr with hr | hr
  · exact h r hr
  · obtain ⟨hget, hp⟩ := List.mem_filter.mp hr
    obtain ⟨recordId, -, hfound⟩ := List.mem_filterMap.mp hget
    have hid := (getRecord_eq_some.mp hfound).2.2
    exact ⟨hid ▸ hfound, (of_decide_eq_true hp).1⟩

/-- A proposal that is valid against what the store holds. -/
theorem unmoved_of_targetReasons (hcurrent : Current s subjectId context)
    (h : targetReasons E p context = []) : Unmoved E s subjectId p := by
  unfold targetReasons at h
  rw [List.append_eq_nil_iff, List.flatMap_eq_nil_iff, List.flatMap_eq_nil_iff] at h
  obtain ⟨hpinned, haffected⟩ := h
  refine ⟨fun c hc => ?_, fun recordId hid => ?_⟩
  · obtain ⟨r, hfound, hrest⟩ := preconditionReasons_eq_nil.mp (hpinned c hc)
    have hid : r.id = c.val.recordId := by simpa using List.find?_some hfound
    exact ⟨r, hid ▸ (hcurrent r (List.mem_of_find?_eq_some hfound)).1, hrest⟩
  · have hany := reasonIf_eq_nil.mp (haffected recordId hid)
    rw [List.all_eq_false] at hany
    obtain ⟨r, hr, heq⟩ := hany
    have hid : r.id = recordId := by simpa using heq
    exact ⟨r, hid ▸ (hcurrent r hr).1, (hcurrent r hr).2⟩

/-! ## Reconciliation -/

/-- Rows that are pinned as they stand. -/
theorem unmoved_of_retarget {action : ProposalAction} {rows : List RecordRow} {reason : String}
    {required : Bool} (hrows : ∀ r ∈ rows, s.getRecord subjectId r.id = some r ∧ r.status = .active)
    (h : retarget E p action rows reason required = .ok p') : Unmoved E s subjectId p' := by
  unfold retarget at h
  obtain ⟨preconditions, hpins, hmake⟩ := bind_eq_ok_iff.mp h
  have hval := make_eq_ok.mp hmake
  have hpinned : ∀ c ∈ preconditions, Pinned E s subjectId c := by
    refine (forall_mem_mapM (Q := fun _ => True) (fun r hr c hc => ?_) hpins).mpr fun _ _ => trivial
    have hfields := make_eq_ok.mp hc
    refine iff_of_true ⟨r, ?_, ?_⟩ trivial
    · rw [hfields]
      exact (hrows r hr).1
    · rw [hfields]
      exact ⟨rfl, rfl, rfl⟩
  constructor
  · rw [hval]
    exact hpinned
  · rw [hval]
    intro recordId hid
    obtain ⟨r, hr, rfl⟩ := List.mem_map.mp hid
    exact ⟨r, hrows r hr⟩

/-- Another target leaves the scope and the identifier. -/
theorem retarget_scope {action : ProposalAction} {rows : List RecordRow} {reason : String}
    {required : Bool} (h : retarget E p action rows reason required = .ok p') :
    p'.val.scope = p.val.scope ∧ p'.val.proposalId = p.val.proposalId := by
  obtain ⟨preconditions, hpins, hmake⟩ := bind_eq_ok_iff.mp h
  rw [make_eq_ok.mp hmake]
  exact ⟨rfl, rfl⟩

/-- A record under a fact key is active. -/
theorem mem_activeRecordsForFactKey {factKey excludeId : Option String} {r : RecordRow}
    (hr : r ∈ s.activeRecordsForFactKey subjectId factKey excludeId) :
    s.getRecord subjectId r.id = some r ∧ r.status = .active := by
  unfold MemoryStore.activeRecordsForFactKey at hr
  split at hr
  · have hmem := List.mem_filter.mp ((List.perm_insertionSort _ _).mem_iff.mp hr)
    have hp := of_decide_eq_true hmem.2
    exact ⟨getRecord_eq_some.mpr ⟨hmem.1, hp.1, rfl⟩, hp.2.2.1⟩
  · cases hr

/-- A candidate of a slot is active. -/
theorem mem_slotCandidates {payload : UnitPayload} {r : RecordRow} {U : UnicodeTables}
    (hr : r ∈ s.slotCandidates U p payload) :
    s.getRecord p.val.scope.val.subjectId r.id = some r ∧ r.status = .active := by
  unfold MemoryStore.slotCandidates at hr
  rcases List.mem_append.mp hr with hr | hr
  · exact mem_activeRecordsForFactKey hr
  · split at hr
    · split at hr
      · cases hr
      · rcases List.mem_append.mp hr with hr | hr
        · unfold MemoryStore.activeRecordsForTypedSlot at hr
          have hmem := List.mem_filter.mp ((List.perm_insertionSort _ _).mem_iff.mp hr)
          have hp := of_decide_eq_true hmem.2
          exact ⟨getRecord_eq_some.mpr ⟨hmem.1, hp.1, rfl⟩, hp.2.1⟩
        · split at hr
          · exact mem_activeRecordsForFactKey hr
          · cases hr
    · cases hr

theorem mem_of_mem_distinctById {rows : List RecordRow} {r : RecordRow}
    (hr : r ∈ distinctById rows) : r ∈ rows := by
  induction rows with
  | nil => cases hr
  | cons a rows ih =>
    rcases List.mem_cons.mp hr with rfl | hr
    · exact List.mem_cons_self
    · exact List.mem_cons_of_mem _ (ih (List.mem_of_mem_filter hr))

/-- A proposal that says what another does of the records it names. -/
structure NamesAlike (p q : ExtractionProposal) : Prop where
  affected : p.val.affectedRecordIds = q.val.affectedRecordIds
  preconditions : p.val.preconditions = q.val.preconditions

/-- Pins to the same records are unmoved together. -/
theorem NamesAlike.unmoved (h : NamesAlike p q) (hp : Unmoved E s subjectId p) :
    Unmoved E s subjectId q :=
  ⟨h.preconditions ▸ hp.pinned, h.affected ▸ hp.affected⟩

/-- Whether reconciliation pins the records of an occupied slot in the place
of those a proposal names. -/
def Retargets (E : Engine) (s : MemoryStore) (p : ExtractionProposal) : Prop :=
  match p.val.unit with
  | some unit =>
    replacesSlot p unit = true ∧ s.slotMatches E.unicode p unit.val.payload ≠ [] ∧
      ∃ identity, unit.semanticIdentity E.hashing = .ok identity ∧
        (s.findLiveTypedIdentity p.val.scope.val.subjectId p.val.scope.val.workspaceId
          identity).isNone
  | none => p.val.action = .add ∧ truthy p.val.factKey ∧ s.fullSlot p ≠ []

/-- What reconciliation makes of a proposal: it names what it named, or the
records of the slot as they stand. -/
theorem reconcileTypedProposal_cases (h : reconcileTypedProposal E s p = .ok p') :
    p'.val.scope = p.val.scope ∧ p'.val.proposalId = p.val.proposalId ∧
      ((NamesAlike p' p ∧ p'.val.unit = p.val.unit ∧ p'.val.action = p.val.action ∧
          p'.val.factKey = p.val.factKey) ∨
        (Unmoved E s p.val.scope.val.subjectId p' ∧ Retargets E s p ∧ p.val.unit.isSome ∧
          p'.val.unit = p.val.unit)) := by
  unfold reconcileTypedProposal at h
  dsimp only at h
  split at h
  · have hval := make_eq_ok.mp h
    have hnames : NamesAlike p' p := ⟨by rw [hval], by rw [hval]⟩
    rw [hval]
    exact ⟨rfl, rfl, .inl ⟨hnames, rfl, rfl, rfl⟩⟩
  · split at h
    · cases h
      exact ⟨rfl, rfl, .inl ⟨⟨rfl, rfl⟩, rfl, rfl, rfl⟩⟩
    · rename_i unit hunit
      split at h
      · cases h
        exact ⟨rfl, rfl, .inl ⟨⟨rfl, rfl⟩, rfl, rfl, rfl⟩⟩
      · rename_i hreplaces
        obtain ⟨identity, hidentity, h⟩ := bind_eq_ok_iff.mp h
        split at h
        · cases h
          exact ⟨rfl, rfl, .inl ⟨⟨rfl, rfl⟩, rfl, rfl, rfl⟩⟩
        · rename_i hfresh
          split at h
          · cases h
            exact ⟨rfl, rfl, .inl ⟨⟨rfl, rfl⟩, rfl, rfl, rfl⟩⟩
          · rename_i hrows
            -- only a value that replaces another is aimed anew
            obtain ⟨hscope, hid⟩ := retarget_scope h
            refine ⟨hscope, hid, .inr ⟨unmoved_of_retarget (fun r hr => ?_) h, ?_, ?_, ?_⟩⟩
            · exact mem_slotCandidates (List.mem_of_mem_filter (mem_of_mem_distinctById hr))
            · unfold Retargets
              rw [hunit]
              exact ⟨not_not.mp hreplaces, hrows, identity, hidentity, by simpa using hfresh⟩
            · rw [hunit]
              rfl
            · obtain ⟨preconditions, -, hmake⟩ := bind_eq_ok_iff.mp h
              rw [make_eq_ok.mp hmake]

/-- A full slot gives an untyped addition new pins, and changes nothing else. -/
theorem reconcileFullSlot_cases (h : reconcileFullSlot E s p = .ok p') :
    p'.val.scope = p.val.scope ∧ p'.val.proposalId = p.val.proposalId ∧
      (p' = p ∨ (Unmoved E s p.val.scope.val.subjectId p' ∧ p.val.unit = none ∧
        p.val.action = .add ∧ truthy p.val.factKey ∧ s.fullSlot p ≠ [])) := by
  unfold reconcileFullSlot at h
  split at h
  · rename_i hslot
    obtain ⟨hscope, hid⟩ := retarget_scope h
    refine ⟨hscope, hid, .inr ⟨unmoved_of_retarget (fun r hr => ?_) h, hslot⟩⟩
    exact mem_activeRecordsForFactKey (List.mem_of_mem_filter hr)
  · cases h
    exact ⟨rfl, rfl, .inl rfl⟩

/-- Reconciliation leaves the evidence as it is. -/
theorem reconcileTypedProposal_evidence (h : reconcileTypedProposal E s p = .ok p') :
    p'.val.evidence = p.val.evidence ∧ p'.val.unit = p.val.unit := by
  unfold reconcileTypedProposal at h
  dsimp only at h
  split at h
  · rw [make_eq_ok.mp h]
    exact ⟨rfl, rfl⟩
  · split at h
    · cases h
      exact ⟨rfl, rfl⟩
    · rename_i unit hunit
      split at h
      · cases h
        exact ⟨rfl, rfl⟩
      · obtain ⟨identity, -, h⟩ := bind_eq_ok_iff.mp h
        split at h
        · cases h
          exact ⟨rfl, rfl⟩
        · split at h
          · cases h
            exact ⟨rfl, rfl⟩
          · obtain ⟨preconditions, -, hmake⟩ := bind_eq_ok_iff.mp h
            rw [make_eq_ok.mp hmake]
            exact ⟨rfl, rfl⟩

/-- The sources of a proposal that is prepared are as they were captured. -/
theorem sources_of_prepare {prepared : Prepared} (h : prepare E s options p = .ok prepared) :
    ∃ bodies, verifiedTypedSources E s p = .ok bodies := by
  obtain ⟨p₁, htyped, h⟩ := bind_eq_ok_iff.mp h
  obtain ⟨bodies, hbodies, -⟩ := bind_eq_ok_iff.mp h
  obtain ⟨hevidence, hunit⟩ := reconcileTypedProposal_evidence htyped
  obtain ⟨hscope, -, -⟩ := reconcileTypedProposal_cases htyped
  refine ⟨bodies, ?_⟩
  unfold verifiedTypedSources at hbodies ⊢
  rwa [hevidence, hunit, hscope] at hbodies

/-- The slot is of a proposal's scope and key. -/
theorem fullSlot_congr (hscope : p'.val.scope = p.val.scope) (hkey : p'.val.factKey = p.val.factKey) :
    s.fullSlot p' = s.fullSlot p := by
  unfold MemoryStore.fullSlot
  rw [hscope, hkey]

/-- **What a proposal is prepared to name**: what it named, or records in
force that are pinned as they stand. -/
theorem prepare_cases {prepared : Prepared} (h : prepare E s options p = .ok prepared) :
    prepared.proposal.val.scope = p.val.scope ∧ prepared.proposal.val.proposalId = p.val.proposalId ∧
      (NamesAlike prepared.proposal p ∨
        (Unmoved E s p.val.scope.val.subjectId prepared.proposal ∧ Retargets E s p)) ∧
      (options.resolutionContext = none →
        Current s p.val.scope.val.subjectId prepared.context) := by
  unfold prepare at h
  obtain ⟨p₁, htyped, h⟩ := bind_eq_ok_iff.mp h
  obtain ⟨bodies, -, h⟩ := bind_eq_ok_iff.mp h
  dsimp only at h
  split at h
  · cases h
  · obtain ⟨p₂, hslot, h⟩ := bind_eq_ok_iff.mp h
    cases h
    obtain ⟨hscope₁, hid₁, hcases₁⟩ := reconcileTypedProposal_cases htyped
    obtain ⟨hscope₂, hid₂, hcases₂⟩ := reconcileFullSlot_cases hslot
    refine ⟨hscope₂.trans hscope₁, hid₂.trans hid₁, ?_, fun hnone => ?_⟩
    · rcases hcases₁ with ⟨hnames, hunit, haction, hkey⟩ | ⟨hunmoved, hretargets, htyped, hunit⟩
      · rcases hcases₂ with rfl | ⟨hunmoved, hnone, hadd, htruthy, hfull⟩
        · exact .inl hnames
        · refine .inr ⟨hscope₁ ▸ hunmoved, ?_⟩
          unfold Retargets
          rw [← hunit, hnone]
          exact ⟨haction ▸ hadd, hkey ▸ htruthy, fullSlot_congr hscope₁ hkey ▸ hfull⟩
      · rcases hcases₂ with rfl | ⟨-, hnone, -⟩
        · exact .inr ⟨hunmoved, hretargets⟩
        · rw [← hunit, hnone] at htyped
          cases htyped
    · rw [hnone, ← hscope₁, ← hscope₂]
      exact current_submissionContext current_buildResolutionContext

/-! ## Submission -/

/-- What keeps a proposal from being committed or set aside for review. -/
theorem disposition_of_live {validation : Validation} {verdict : ReviewState × List String}
    (h : disposition E w options p validation = .ok verdict)
    (hlive : verdict.1 = .committed ∨ verdict.1 = .pendingReview) :
    validation.reasonCodes = [] ∧ p.val.action.mutates = true := by
  unfold disposition at h
  dsimp only at h
  split at h
  · cases h
    simp at hlive
  · rename_i hvalid
    rw [not_or, not_not, not_not] at hvalid
    split at h
    · cases h
      simp at hlive
    · split at h
      · cases h
        simp at hlive
      · rename_i hreject
        split at h
        · cases h
          simp at hlive
        · rename_i hnoop
          refine ⟨hvalid.1, ?_⟩
          cases ha : p.val.action <;> first | rfl | exact absurd ha hreject | exact absurd ha hnoop

/-- What is carried out is what the verdict is, but for a duplicate. -/
theorem carryOut_eq_ok {verdict : ReviewState × List String} {outcome : ExtractionOutcome}
    (h : exec (carryOut E options p context verdict) w = (.ok outcome, w')) :
    (outcome.state = verdict.1 ∨ outcome.state = .noop) ∧
      (outcome.state ≠ .committed → w'.store.records = w.store.records) := by
  unfold carryOut at h
  split at h
  · rename_i hverdict
    rw [exec_bind, exec_readStore] at h
    dsimp only at h
    obtain ⟨duplicate, w₁, hlift, hrest⟩ := exec_bind_eq_ok.mp h
    obtain ⟨-, rfl⟩ := exec_liftMem_eq_ok.mp hlift
    split at hrest
    · simp only [exec_bind, exec_writeStore, exec_pure] at hrest
      cases hrest
      exact ⟨.inr rfl, fun _ => rfl⟩
    · obtain ⟨commit, w₁, -, hpure⟩ := exec_bind_eq_ok.mp hrest
      rw [exec_pure] at hpure
      cases hpure
      exact ⟨.inl hverdict.symm, fun hne => absurd rfl hne⟩
  · rw [exec_pure] at h
    cases h
    exact ⟨.inl rfl, fun _ => rfl⟩

/-- The row a proposal is kept in. -/
def reviewRow (E : Engine) (p : ExtractionProposal) (digest : String) (outcome : ExtractionOutcome)
    (createdAt : Instant) (decidedAt : Option Instant) : MemoryProposalRow :=
  let pending : Bool := outcome.state = .pendingReview
  { proposalId := p.val.proposalId, subjectId := p.val.scope.val.subjectId
    agentId := p.val.scope.val.agentId, workspaceId := p.val.scope.val.workspaceId
    idempotencyKey := p.val.idempotencyKey, proposalSha256 := digest, action := p.val.action
    memoryClass := p.val.memoryClass
    factKey := if outcome.state = .rejected ∨ (p.val.unit.isSome ∧ ¬ pending) then none
      else p.val.factKey
    reviewState := outcome.state, reasonCodes := outcome.reasonCodes
    proposal := if semanticRefusals E p ≠ [] ∨ (p.val.unit.isSome ∧ ¬ pending) then none else some p
    outcome, createdAt, decidedAt }

/-- The row, written with its sources once the clock is read. -/
def insertReviewRow (E : Engine) (p : ExtractionProposal) (digest : String)
    (outcome : ExtractionOutcome) (decidedAt : Option Instant) : Mem MemoryProposalRow := do
  let createdAt ← utcNow
  match (← get).store.memoryProposals.insert (reviewRow E p digest outcome createdAt decidedAt) with
  | none => throw .integrityError
  | some memoryProposals =>
    writeStore fun s => { s with
      memoryProposals
      proposalSources := s.proposalSources ++
        if p.val.unit.isSome then
          ((p.val.evidence.map fun e =>
            (⟨p.val.proposalId, e.val.sourceId⟩ : ProposalSourceRow)).eraseDups).filter
              (· ∉ s.proposalSources)
        else [] }
    pure (reviewRow E p digest outcome createdAt decidedAt)

/-- A proposal is stored beside the records. -/
theorem insertMemoryProposal_eq_ok {digest : String} {outcome : ExtractionOutcome}
    {row : MemoryProposalRow}
    (h : exec (insertMemoryProposal E p digest outcome) w = (.ok row, w')) :
    row ∈ w'.store.memoryProposals.rows ∧ w'.store.records = w.store.records ∧
      row.proposalId = p.val.proposalId ∧ row.subjectId = p.val.scope.val.subjectId ∧
      row.reviewState = outcome.state ∧ row.outcome = outcome ∧
      (row.proposal = some p ∨ row.proposal = none) ∧
      ∀ a ∈ w.store.memoryProposals.rows, a.proposalId ≠ p.val.proposalId := by
  -- the row is settled or pending, with the clock read once more where it is settled
  have hstored (decidedAt : Option Instant) (w : MemoryWorld)
      (h : exec (insertReviewRow E p digest outcome decidedAt) w = (.ok row, w')) :
      row ∈ w'.store.memoryProposals.rows ∧ w'.store.records = w.store.records ∧
        (∀ a ∈ w.store.memoryProposals.rows, a.proposalId ≠ p.val.proposalId) ∧
        ∃ createdAt, row = reviewRow E p digest outcome createdAt decidedAt := by
    unfold insertReviewRow at h
    simp only [exec_bind, utcNow, exec_readOff, exec_get] at h
    split at h
    · cases h
    · rename_i memoryProposals hinsert
      simp only [exec_bind, exec_writeStore, exec_pure] at h
      cases h
      obtain ⟨hfresh, hrows⟩ := Table.insert_eq_some.mp hinsert
      refine ⟨?_, rfl, fun a ha heq => ?_, _, rfl⟩
      · rw [hrows]
        exact List.mem_append_right _ (List.mem_singleton_self _)
      · have hclash := hfresh a ha
        simp [memoryProposalClash, MemoryProposalRow.key, reviewRow, heq] at hclash
  have hrow : row ∈ w'.store.memoryProposals.rows ∧ w'.store.records = w.store.records ∧
      (∀ a ∈ w.store.memoryProposals.rows, a.proposalId ≠ p.val.proposalId) ∧
      ∃ createdAt decidedAt, row = reviewRow E p digest outcome createdAt decidedAt := by
    unfold insertMemoryProposal at h
    dsimp only at h
    split at h
    · obtain ⟨hmem, hrecords, hfresh, createdAt, heq⟩ := hstored none w h
      exact ⟨hmem, hrecords, hfresh, createdAt, none, heq⟩
    · obtain ⟨hmem, hrecords, hfresh, createdAt, heq⟩ := hstored (some (w.clock w.ticks)) _ h
      exact ⟨hmem, hrecords, hfresh, createdAt, _, heq⟩
  obtain ⟨hmem, hrecords, hfresh, createdAt, decidedAt, rfl⟩ := hrow
  refine ⟨hmem, hrecords, rfl, rfl, rfl, rfl, ?_, hfresh⟩
  unfold reviewRow
  dsimp only
  split
  · exact .inr rfl
  · exact .inl rfl

/-- A proposal is not stored yet under its key. -/
def Unsubmitted (s : MemoryStore) (p : ExtractionProposal) : Prop :=
  s.findMemoryProposal p.val.scope.val.subjectId p.val.scope.val.agentId
    p.val.scope.val.workspaceId p.val.idempotencyKey = none

/-- What a submission was decided on. -/
structure Submitted (E : Engine) (options : SubmitOptions) (p : ExtractionProposal)
    (w w' : MemoryWorld) (row : MemoryProposalRow) (prepared : Prepared) : Prop where
  prepares : prepare E w.store options p = .ok prepared
  stored : row ∈ w'.store.memoryProposals.rows
  fresh : ∀ a ∈ w.store.memoryProposals.rows, a.proposalId ≠ row.proposalId
  proposalId : row.proposalId = prepared.proposal.val.proposalId
  subjectId : row.subjectId = prepared.proposal.val.scope.val.subjectId
  proposal : row.proposal = some prepared.proposal ∨ row.proposal = none
  /-- What is committed or waits for review is valid. -/
  live : row.reviewState = .committed ∨ row.reviewState = .pendingReview →
    (validateProposal E prepared.proposal options.sourceText prepared.bodies prepared.context
      p.val.scope options.reviewConfidence).reasonCodes = [] ∧
        prepared.proposal.val.action.mutates = true
  records : row.reviewState ≠ .committed → w'.store.records = w.store.records

/-- A submission under a new key. -/
theorem exists_submitted {row : MemoryProposalRow} (hnew : Unsubmitted w.store p)
    (h : exec (submitExtractionProposal E p options) w = (.ok row, w')) :
    ∃ prepared, Submitted E options p w w' row prepared := by
  unfold submitExtractionProposal at h
  dsimp only at h
  rw [exec_bind, exec_readStore] at h
  dsimp only at h
  rw [hnew] at h
  rw [exec_bind, exec_readStore] at h
  dsimp only at h
  -- prepared and decided without a write; then carried out and inserted
  obtain ⟨prepared, w₁, hprepare, hdispose⟩ := exec_bind_eq_ok.mp h
  obtain ⟨hprepared, rfl⟩ := exec_liftMem_eq_ok.mp hprepare
  rw [exec_bind, exec_get] at hdispose
  dsimp only at hdispose
  obtain ⟨verdict, w₂, hlift, hcarried⟩ := exec_bind_eq_ok.mp hdispose
  obtain ⟨hdisposed, rfl⟩ := exec_liftMem_eq_ok.mp hlift
  obtain ⟨outcome, w₁, hcarry, hinsert⟩ := exec_bind_eq_ok.mp hcarried
  obtain ⟨hmem, hrecords, hid, hsubject, hstate, -, hproposal, hfresh⟩ :=
    insertMemoryProposal_eq_ok hinsert
  obtain ⟨hverdict, hkept⟩ := carryOut_eq_ok hcarry
  -- no row of the identifier was there before, since none is at the insertion
  have hunused : ∀ a ∈ w₂.store.memoryProposals.rows, a.proposalId ≠ row.proposalId := by
    intro a ha
    have hgrows := keepsRows_carryOut (E := E) options prepared.proposal prepared.context verdict w₂
    rw [hcarry] at hgrows
    obtain ⟨a', ha', hmoves⟩ := hgrows.reviews a ha
    have hsame : a'.proposalId = a.proposalId := congrArg Prod.fst hmoves.key
    rw [← hsame, hid]
    exact hfresh a' ha'
  refine ⟨prepared, hprepared, hmem, hunused, hid, hsubject, hproposal, fun hlive => ?_,
    fun hne => ?_⟩
  · rw [hstate] at hlive
    -- what is stored is what was decided, or a commit that found nothing to do
    rcases hverdict with hverdict | hnoop
    · rw [hverdict] at hlive
      exact disposition_of_live hdisposed hlive
    · rw [hnoop] at hlive
      simp at hlive
  · rw [hrecords]
    exact hkept (hstate ▸ hne)

/-- A proposal that is valid names nothing that moved, in what the store
holds. -/
theorem unmoved_of_validateProposal {sourceText : String} {bodies : List (String × String)}
    {scope : AuthorityScope} {confidence : Rat} (hmutates : p.val.action.mutates = true)
    (hcurrent : Current s subjectId context)
    (h : (validateProposal E p sourceText bodies context scope confidence).reasonCodes = []) :
    Unmoved E s subjectId p := by
  unfold validateProposal at h
  dsimp only at h
  rw [eraseDups_eq_nil, if_pos hmutates] at h
  exact unmoved_of_targetReasons hcurrent (List.append_eq_nil_iff.mp h).2

/-- The context a proposal is submitted with is the store's, or the proposal
names no record. -/
def WellPosed (options : SubmitOptions) (p : ExtractionProposal) : Prop :=
  options.resolutionContext = none ∨
    (p.val.affectedRecordIds = [] ∧ p.val.preconditions = [])

/-- What may be submitted is well posed. -/
theorem wellPosed_of_allowed {made : List (Call × Answer)} {t : Session}
    (h : (Call.submitExtractionProposal p options).Allowed made t) :
    WellPosed options p := by
  rcases hcontext : options.resolutionContext with - | context
  · exact .inl hcontext
  · obtain ⟨-, -, -, haffected, hpreconditions⟩ := h context hcontext
    exact .inr ⟨haffected, hpreconditions⟩

/-- **What is committed or waits for review names nothing that moved**; and
neither did the proposal as it was submitted, unless the records it named
were exchanged for those of the slot. -/
theorem Submitted.unmoved {row : MemoryProposalRow} {prepared : Prepared}
    (h : Submitted E options p w w' row prepared) (hposed : WellPosed options p)
    (hlive : row.reviewState = .committed ∨ row.reviewState = .pendingReview) :
    Unmoved E w.store p.val.scope.val.subjectId prepared.proposal ∧
      (Unmoved E w.store p.val.scope.val.subjectId p ∨ Retargets E w.store p) := by
  obtain ⟨-, -, hcases, hcurrent⟩ := prepare_cases h.prepares
  obtain ⟨hvalid, hmutates⟩ := h.live hlive
  rcases hcases with hnames | ⟨hunmoved, hretargets⟩
  · have hunmoved : Unmoved E w.store p.val.scope.val.subjectId prepared.proposal := by
      rcases hposed with hnone | ⟨haffected, hpreconditions⟩
      · exact unmoved_of_validateProposal hmutates (hcurrent hnone) hvalid
      · constructor
        · rw [hnames.preconditions, hpreconditions]
          exact fun _ hc => absurd hc List.not_mem_nil
        · rw [hnames.affected, haffected]
          exact fun _ hid => absurd hid List.not_mem_nil
    exact ⟨hunmoved, .inl (hnames.unmoved hunmoved)⟩
  · exact ⟨hunmoved, .inr hretargets⟩

end Atmem.Memory
