import Atmem.Memory.Helpers.Statements
/-!
# Workspaces

A proposal of one workspace is weighed against every record of its subject,
whatever workspace the record is bound to: the lookups of duplicates and of
conflicts ask for the subject alone. What follows says exactly when records
bound elsewhere leave a proposal's outcome, and what its workspace sees, as
they are.
-/

namespace Atmem.Memory

open Relational Transactional Checked

variable {E : Engine} {p : MemoryProposal} {w w₁ w₂ : MemoryWorld} {s : MemoryStore}

/-! ## What a workspace sees -/

/-- A record of a subject that is bound to another workspace. -/
def boundElsewhere (subjectId workspaceId : String) (r : RecordRow) : Bool :=
  r.subjectId = subjectId ∧ r.authorityWorkspaceId.any (· ≠ workspaceId)

/-- The records but those of the subject that are bound elsewhere. -/
def MemoryStore.visibleTo (s : MemoryStore) (subjectId workspaceId : String) : List RecordRow :=
  s.records.rows.filter fun r => !boundElsewhere subjectId workspaceId r

/-- Two worlds that differ in records of a subject bound elsewhere, and in
nothing else a proposal is weighed by. -/
structure AgreesWithin (subjectId workspaceId : String) (w₁ w₂ : MemoryWorld) : Prop where
  records : w₁.store.visibleTo subjectId workspaceId = w₂.store.visibleTo subjectId workspaceId
  sources : w₁.store.sources = w₂.store.sources
  protocolProposals : w₁.store.protocolProposals = w₂.store.protocolProposals
  clock : w₁.clock w₁.ticks = w₂.clock w₂.ticks
  draws : w₁.draws = w₂.draws

/-- The columns of authority say what `raw` says, and the identifier that is
drawn next is not taken. -/
structure Orderly (E : Engine) (w : MemoryWorld) : Prop where
  materialized : ∀ r ∈ w.store.records.rows, ∀ scope : AuthorityScope,
    r.raw.authorityScope = some scope → r.authorityWorkspaceId = some scope.val.workspaceId
  unused : ∀ r ∈ w.store.records.rows, r.id ≠ E.newId "rec" w.draws

/-- How a submission came out: what was decided, where it did not raise. -/
def statusOf (outcome : Except MemoryError MemoryAdmission) : Option AdmissionDecision :=
  outcome.toOption.map (·.decision)

/-- A record the proposal repeats. -/
def Repeats (E : Engine) (p : MemoryProposal) (r : RecordRow) : Prop :=
  r.subjectId = p.val.scope.val.subjectId ∧ normalizeContent E.unicode p.val.fact ≠ "" ∧
    r.contentNormalized = some (normalizeContent E.unicode p.val.fact) ∧
    r.status ∈ duplicateStatuses

instance : DecidablePred (Repeats E p) := fun _ => inferInstanceAs (Decidable (_ ∧ _ ∧ _ ∧ _))

/-- An active record of the slot the proposal is for. -/
def Contests (factKey : Option String) (p : MemoryProposal) (r : RecordRow) : Prop :=
  r.subjectId = p.val.scope.val.subjectId ∧ truthy factKey ∧ r.factKey = factKey ∧
    r.status = .active

/-! ## The lookups -/

theorem head?_sorted_isSome {rows : List RecordRow} :
    ((rows.insertionSort MemoryStore.older).head?).isSome ↔ ∃ r, r ∈ rows := by
  constructor
  · intro h
    obtain ⟨r, hr⟩ := Option.isSome_iff_exists.mp h
    exact ⟨r, (List.mem_insertionSort _).mp (List.mem_of_head? hr)⟩
  · rintro ⟨r, hr⟩
    have hmem : r ∈ rows.insertionSort MemoryStore.older :=
      (List.mem_insertionSort _).mpr hr
    rcases hs : rows.insertionSort MemoryStore.older with - | ⟨first, rest⟩
    · rw [hs] at hmem
      cases hmem
    · rfl

/-- A duplicate is found where there is one, in any workspace. -/
theorem findDuplicateRecord_isSome :
    (s.findDuplicateRecord E.unicode p.val.scope.val.subjectId p.val.fact
      duplicateStatuses).isSome ↔ ∃ r ∈ s.records.rows, Repeats E p r := by
  unfold MemoryStore.findDuplicateRecord
  by_cases hn : normalizeContent E.unicode p.val.fact = ""
  · simp [hn, Repeats]
  · simp only [hn, if_false, head?_sorted_isSome, List.mem_filter, decide_eq_true_eq, Repeats,
      ne_eq, not_false_eq_true, true_and]

/-- A conflict is found where there is one, in any workspace. -/
theorem activeRecordsForFactKey_ne_nil {factKey : Option String} :
    s.activeRecordsForFactKey p.val.scope.val.subjectId factKey ≠ [] ↔
      ∃ r ∈ s.records.rows, Contests factKey p r := by
  unfold MemoryStore.activeRecordsForFactKey
  by_cases ht : truthy factKey = true
  · simp only [ht, if_true, ne_eq, List.eq_nil_iff_forall_not_mem, List.mem_insertionSort,
      List.mem_filter, decide_eq_true_eq, Contests, true_and, reduceCtorEq, not_false_eq_true, and_true, not_forall,
      not_not]
  · simp [ht, Contests]

/-- A record is visible, or bound to another workspace. -/
theorem mem_rows_iff {subjectId workspaceId : String} {r : RecordRow} :
    r ∈ s.records.rows ↔ r ∈ s.visibleTo subjectId workspaceId ∨
      (r ∈ s.records.rows ∧ boundElsewhere subjectId workspaceId r = true) := by
  unfold MemoryStore.visibleTo
  rw [List.mem_filter]
  by_cases h : boundElsewhere subjectId workspaceId r = true <;> simp [h]

/-! ## The way to the lookups -/

/-- A proposal that is neither a replay nor refused gets to the lookups, with
what its sources and related records say of it. -/
structure Weighed (E : Engine) (p : MemoryProposal) (s : MemoryStore) (v : Provenance)
    (factKey : Option String) : Prop where
  digest : ¬ ("sha256:".toList.isPrefixOf p.val.idempotencyKey.toList ∧
    p.val.idempotencyKey ≠ p.payloadDigest E.hashing)
  fresh : s.getProtocolProposal p.val.scope.val.workspaceId p.val.scope.val.agentId
    p.val.idempotencyKey = none
  sources : s.citedSources p = .ok v.sources
  related : s.relatedRecords p = .ok v.related
  slot : proposedKey E p = .ok factKey

/-- The row a proposal leaves. -/
def proposalRow (E : Engine) (p : MemoryProposal) (admission : MemoryAdmission) :
    ProtocolProposalRow where
  proposalId := p.val.proposalId
  idempotencyKey := p.val.idempotencyKey
  payloadSha256 := p.payloadDigest E.hashing
  subjectId := p.val.scope.val.subjectId
  agentId := p.val.scope.val.agentId
  workspaceId := p.val.scope.val.workspaceId
  proposal := if admission.decision = .rejected then none else some p
  admission

/-- What is left to do of a proposal that was weighed. -/
def conclude (E : Engine) (p : MemoryProposal) (admission : MemoryAdmission) :
    Mem MemoryAdmission := do
  let _ ← utcNow
  match (← get).store.protocolProposals.insert (proposalRow E p admission) with
  | none => throw .integrityError
  | some protocolProposals =>
    writeStore fun s => { s with protocolProposals }
    pure admission

/-- A proposal that is weighed is admitted and recorded. -/
theorem exec_submitProposal_of_weighed {v : Provenance} {factKey : Option String}
    (h : Weighed E p w.store v factKey) :
    exec (submitProposal E p) w = exec (admissionOf E p v factKey >>= conclude E p) w := by
  unfold submitProposal
  rw [if_neg h.digest]
  simp only [exec_bind, exec_readStore, h.fresh, h.sources, h.related, h.slot, exec_liftMem_ok]
  rfl

/-- The status of a proposal that is not weighed: that of its replay. -/
def unweighedStatus (E : Engine) (p : MemoryProposal) (s : MemoryStore) :
    Option AdmissionDecision :=
  if "sha256:".toList.isPrefixOf p.val.idempotencyKey.toList ∧
      p.val.idempotencyKey ≠ p.payloadDigest E.hashing then none
  else match s.getProtocolProposal p.val.scope.val.workspaceId p.val.scope.val.agentId
      p.val.idempotencyKey with
  | some existing =>
    if existing.payloadSha256 ≠ p.payloadDigest E.hashing then none
    else some existing.admission.decision
  | none => none

/-- One that is not is answered without a change. -/
theorem exec_submitProposal_of_not_weighed (h : ¬ ∃ v factKey, Weighed E p w.store v factKey) :
    ∃ outcome, exec (submitProposal E p) w = (outcome, w) ∧
      statusOf outcome = unweighedStatus E p w.store ∧
      ∀ a, outcome = .ok a → a.replayed = true := by
  unfold submitProposal unweighedStatus
  by_cases hd : "sha256:".toList.isPrefixOf p.val.idempotencyKey.toList ∧
      p.val.idempotencyKey ≠ p.payloadDigest E.hashing
  · rw [if_pos hd, if_pos hd]
    exact ⟨_, rfl, rfl, fun a ha => by cases ha⟩
  rw [if_neg hd, if_neg hd]
  simp only [exec_bind, exec_readStore]
  rcases hf : w.store.getProtocolProposal p.val.scope.val.workspaceId p.val.scope.val.agentId
      p.val.idempotencyKey with - | existing
  · have hraised (e : String) : ∀ a, (.error (.valueError e) : Except MemoryError MemoryAdmission) =
        .ok a → a.replayed = true := fun a ha => by cases ha
    simp only [exec_bind, exec_readStore]
    rcases hs : w.store.citedSources p with e | sources
    · exact ⟨.error (.valueError e), by simp, rfl, hraised e⟩
    rcases hr : w.store.relatedRecords p with e | related
    · exact ⟨.error (.valueError e), by simp [hr], rfl, hraised e⟩
    rcases hk : proposedKey E p with e | factKey
    · exact ⟨.error (.valueError e), by simp [hr], rfl, hraised e⟩
    exact absurd ⟨⟨sources, related⟩, factKey, hd, hf, hs, hr, hk⟩ h
  · by_cases hp : existing.payloadSha256 ≠ p.payloadDigest E.hashing
    · simp only [if_pos hp]
      exact ⟨_, rfl, rfl, fun a ha => by cases ha⟩
    · simp only [if_neg hp]
      exact ⟨_, rfl, rfl, fun a ha => by cases ha; rfl⟩

/-! ## What both worlds see -/

/-- A related record is one of the authority, which its workspace sees. -/
theorem relatedRecord_eq_ok (ho : Orderly E w) {scope : AuthorityScope} {recordId : String}
    {r : RecordRow} : w.store.relatedRecord scope recordId = .ok r ↔
      r ∈ w.store.visibleTo scope.val.subjectId scope.val.workspaceId ∧
        r.subjectId = scope.val.subjectId ∧ r.id = recordId ∧
        r.raw.authorityScope = some scope := by
  unfold MemoryStore.relatedRecord
  constructor
  · intro h
    rcases hg : w.store.getRecord scope.val.subjectId recordId with - | t
    · rw [hg] at h
      cases h
    · rw [hg] at h
      simp only at h
      split at h
      · rename_i hscope
        cases h
        obtain ⟨hmem, hsub, hid⟩ := getRecord_eq_some.mp hg
        refine ⟨List.mem_filter.mpr ⟨hmem, ?_⟩, hsub, hid, hscope⟩
        simp [boundElsewhere, ho.materialized _ hmem _ hscope]
      · cases h
  · rintro ⟨hmem, hsub, hid, hscope⟩
    rw [getRecord_eq_some.mpr ⟨List.mem_of_mem_filter hmem, hsub, hid⟩]
    simp only [hscope, if_true]

/-- Worlds that agree weigh a proposal alike. -/
theorem AgreesWithin.weighed_iff
    (ha : AgreesWithin p.val.scope.val.subjectId p.val.scope.val.workspaceId w₁ w₂)
    (h₁ : Orderly E w₁) (h₂ : Orderly E w₂) {v : Provenance} {factKey : Option String} :
    Weighed E p w₁.store v factKey ↔ Weighed E p w₂.store v factKey := by
  have hget : ∀ key, w₁.store.getProtocolProposal p.val.scope.val.workspaceId
      p.val.scope.val.agentId key = w₂.store.getProtocolProposal p.val.scope.val.workspaceId
        p.val.scope.val.agentId key := by
    intro key
    rw [MemoryStore.getProtocolProposal, MemoryStore.getProtocolProposal, ha.protocolProposals]
  have hsources : w₁.store.citedSources p = w₂.store.citedSources p := by
    unfold MemoryStore.citedSources MemoryStore.getProtocolSourceById
    rw [ha.sources]
  have hrelated : w₁.store.relatedRecords p = .ok v.related ↔
      w₂.store.relatedRecords p = .ok v.related := by
    refine mapM_eq_ok_congr fun recordId r => ?_
    rw [relatedRecord_eq_ok h₁, relatedRecord_eq_ok h₂, ha.records]
  constructor
  · rintro ⟨hd, hf, hs, hr, hk⟩
    exact ⟨hd, (hget _).symm.trans hf, hsources.symm.trans hs, hrelated.mp hr, hk⟩
  · rintro ⟨hd, hf, hs, hr, hk⟩
    exact ⟨hd, (hget _).trans hf, hsources.trans hs, hrelated.mpr hr, hk⟩

/-! ## What is concluded -/

/-- The identifier of the proposal is another's. -/
def Taken (p : MemoryProposal) (s : MemoryStore) : Prop :=
  ∃ r ∈ s.protocolProposals.rows, r.proposalId = p.val.proposalId

/-- What recording the admission does. -/
theorem exec_conclude (a : MemoryAdmission) :
    exec (conclude E p a) w = match w.store.protocolProposals.insert (proposalRow E p a) with
      | none => (.error .integrityError, { w with ticks := w.ticks + 1 })
      | some protocolProposals => (.ok a,
          { w with ticks := w.ticks + 1, store := { w.store with protocolProposals } }) := by
  simp only [conclude, exec_bind, utcNow, exec_readOff, exec_get]
  rcases w.store.protocolProposals.insert (proposalRow E p a) with - | protocolProposals <;> rfl

/-- An identifier that is taken cannot be stored. -/
theorem insert_of_taken {t : Table ProtocolProposalRow ProtocolProposalRow.key protocolClash}
    (h : ∃ r ∈ t.rows, r.proposalId = p.val.proposalId) (a : MemoryAdmission) :
    t.insert (proposalRow E p a) = none := by
  obtain ⟨r, hr, hid⟩ := h
  refine Table.insert_eq_none.mpr ⟨r, hr, ?_⟩
  simp [protocolClash, ProtocolProposalRow.key, proposalRow, hid]

/-- One that is free can. -/
theorem insert_of_free {v : Provenance} {factKey : Option String}
    (hw : Weighed E p s v factKey) (h : ¬ Taken p s) (a : MemoryAdmission) :
    ∃ t, s.protocolProposals.insert (proposalRow E p a) = some t := by
  have hfresh : ∀ r ∈ s.protocolProposals.rows,
      protocolClash r.key (proposalRow E p a).key = false := by
    intro r hr
    have hid : r.proposalId ≠ p.val.proposalId := fun hid => h ⟨r, hr, hid⟩
    have hkey := List.find?_eq_none.mp hw.fresh r hr
    simp only [decide_eq_true_eq] at hkey
    simp only [protocolClash, eitherClash, ProtocolProposalRow.key, proposalRow,
      Bool.or_eq_false_iff]
    exact ⟨decide_eq_false hid, by simpa using hkey⟩
  obtain ⟨t, ht, -⟩ := Table.insert_of_fresh hfresh
  exact ⟨t, ht⟩

/-- A proposal that is refused is rejected. -/
theorem exec_admission_refused {v : Provenance} {factKey : Option String}
    (h : refusalReasons E p ≠ []) :
    exec (admissionOf E p v factKey) w =
      (.ok { proposalId := p.val.proposalId, decision := .rejected
             reasonCodes := refusalReasons E p
             relatedRecordIds := p.val.relatedRecordIds }, w) := by
  unfold admissionOf
  rw [if_pos h]
  rfl

/-- One whose fact is there is a duplicate. -/
theorem exec_admission_duplicate (v : Provenance) (factKey : Option String) {d : RecordRow}
    (h : refusalReasons E p = []) (hd : w.store.findDuplicateRecord E.unicode
      p.val.scope.val.subjectId p.val.fact duplicateStatuses = some d) :
    ∃ a, exec (admissionOf E p v factKey) w = (.ok a, w) ∧ a.decision = .duplicate ∧
      a.replayed = false := by
  unfold admissionOf
  rw [if_neg (by simp [h])]
  simp only [exec_bind, exec_readStore, hd]
  exact ⟨_, rfl, rfl, rfl⟩

/-- The conflicts a proposal is weighed against. -/
def conflictsOf (p : MemoryProposal) (s : MemoryStore) (factKey : Option String) :
    List RecordRow :=
  s.activeRecordsForFactKey p.val.scope.val.subjectId factKey

/-- Any other is recorded. -/
theorem exec_admission_recorded {v : Provenance} {factKey : Option String}
    {records : Table RecordRow (·.id) idClash}
    (h : refusalReasons E p = []) (hd : w.store.findDuplicateRecord E.unicode
      p.val.scope.val.subjectId p.val.fact duplicateStatuses = none)
    (hi : w.store.records.insert
      (rowOf E w (proposedRecord p v factKey (conflictsOf p w.store factKey))) = some records) :
    ∃ a w', exec (admissionOf E p v factKey) w = (.ok a, w') ∧
      a.decision = admissionDecision p v (conflictsOf p w.store factKey) ∧
      a.replayed = false ∧ w'.store.records = records ∧
      w'.store.protocolProposals = w.store.protocolProposals := by
  unfold admissionOf
  rw [if_neg (by simp [h])]
  simp only [exec_bind, exec_readStore, hd]
  rw [show w.store.activeRecordsForFactKey p.val.scope.val.subjectId factKey =
    conflictsOf p w.store factKey from rfl, exec_insertRecord, hi]
  exact ⟨_, _, rfl, rfl, rfl, records_stored, protocolProposals_stored⟩

/-- A proposal that is admitted is concluded, where its identifier is free. -/
theorem submit_of_admit {v : Provenance} {factKey : Option String} {a : MemoryAdmission}
    {w' : MemoryWorld} (hw : Weighed E p w.store v factKey) (hfree : ¬ Taken p w.store)
    (ha : exec (admissionOf E p v factKey) w = (.ok a, w'))
    (hkeep : w'.store.protocolProposals = w.store.protocolProposals) :
    (atomic (submitProposal E p) w).1 = .ok a ∧
      (atomic (submitProposal E p) w).2.store.records = w'.store.records := by
  obtain ⟨t, ht⟩ := insert_of_free hw hfree a
  have hrun : exec (submitProposal E p) w = (.ok a,
      { w' with ticks := w'.ticks + 1, store := { w'.store with protocolProposals := t } }) := by
    rw [exec_submitProposal_of_weighed hw, exec_bind_ok ha, exec_conclude, hkeep, ht]
  rw [atomic_of_ok hrun]
  exact ⟨rfl, rfl⟩

/-- Where it is not, the submission raises, and nothing is left of it. -/
theorem submit_of_taken {v : Provenance} {factKey : Option String}
    (hw : Weighed E p w.store v factKey) (htaken : Taken p w.store) :
    statusOf (atomic (submitProposal E p) w).1 = none ∧
      (atomic (submitProposal E p) w).2.store = w.store ∧
      ∀ a, (atomic (submitProposal E p) w).1 ≠ .ok a := by
  -- the admission leaves the proposals alone
  have hkeep : (exec (admissionOf E p v factKey) w).2.store.protocolProposals =
      w.store.protocolProposals := by
    by_cases hr : refusalReasons E p = []
    · rcases hd : w.store.findDuplicateRecord E.unicode p.val.scope.val.subjectId p.val.fact
        duplicateStatuses with - | d
      · rcases hi : w.store.records.insert
          (rowOf E w (proposedRecord p v factKey (conflictsOf p w.store factKey))) with - | records
        · unfold admissionOf
          rw [if_neg (by simp [hr])]
          simp only [exec_bind, exec_readStore, hd]
          rw [show w.store.activeRecordsForFactKey p.val.scope.val.subjectId factKey =
            conflictsOf p w.store factKey from rfl, exec_insertRecord, hi]
          rfl
        · obtain ⟨a, w', ha, -, -, -, hkeep⟩ := exec_admission_recorded hr hd hi
          rw [ha]
          exact hkeep
      · obtain ⟨a, ha, -⟩ := exec_admission_duplicate v factKey hr hd
        rw [ha]
    · rw [exec_admission_refused hr]
  -- so the row of this one is refused
  have herror : ∃ e w', exec (submitProposal E p) w = (.error e, w') := by
    rw [exec_submitProposal_of_weighed hw, exec_bind]
    rcases ha : exec (admissionOf E p v factKey) w with ⟨e | a, w'⟩
    · exact ⟨e, w', rfl⟩
    · rw [ha] at hkeep
      have hnone : w'.store.protocolProposals.insert (proposalRow E p a) = none :=
        insert_of_taken (by rw [show w'.store.protocolProposals = _ from hkeep]; exact htaken) a
      have hrun : exec (conclude E p a) w' =
          (.error .integrityError, { w' with ticks := w'.ticks + 1 }) := by
        rw [exec_conclude, hnone]
      exact ⟨_, _, hrun⟩
  obtain ⟨e, w', hrun⟩ := herror
  rw [atomic_of_error hrun]
  exact ⟨rfl, rfl, fun a ha => by cases ha⟩

/-! ## The decision, from what there is -/

/-- What a weighed proposal that is not refused comes to, where its
identifier is free: a duplicate, or a record of the status the conflicts
leave it. -/
theorem submit_of_weighed {v : Provenance} {factKey : Option String}
    (hw : Weighed E p w.store v factKey) (hfree : ¬ Taken p w.store)
    (hclean : refusalReasons E p = []) (ho : Orderly E w) :
    ((∃ r ∈ w.store.records.rows, Repeats E p r) ∧
      (∃ a, (atomic (submitProposal E p) w).1 = .ok a ∧ a.decision = .duplicate ∧
        a.replayed = false) ∧
      (atomic (submitProposal E p) w).2.store.records = w.store.records) ∨
    ((¬ ∃ r ∈ w.store.records.rows, Repeats E p r) ∧
      statusOf (atomic (submitProposal E p) w).1 =
        some (admissionDecision p v (conflictsOf p w.store factKey)) ∧
      (atomic (submitProposal E p) w).2.store.records.rows = w.store.records.rows ++
        [rowOf E w (proposedRecord p v factKey (conflictsOf p w.store factKey))]) := by
  rcases hd : w.store.findDuplicateRecord E.unicode p.val.scope.val.subjectId p.val.fact
    duplicateStatuses with - | d
  · right
    have hnone : ¬ ∃ r ∈ w.store.records.rows, Repeats E p r := by
      rw [← findDuplicateRecord_isSome, hd]
      simp
    -- the identifier is fresh, so the record is inserted
    have hunused : ∀ a ∈ w.store.records.rows, idClash a.id
        (rowOf E w (proposedRecord p v factKey (conflictsOf p w.store factKey))).id = false := by
      intro a hmem
      exact decide_eq_false (ho.unused a hmem)
    obtain ⟨records, hi, hrows⟩ := Table.insert_of_fresh hunused
    obtain ⟨a, w', ha, hdecision, -, hrecords, hkeep⟩ := exec_admission_recorded hclean hd hi
    obtain ⟨hok, hstore⟩ := submit_of_admit hw hfree ha hkeep
    refine ⟨hnone, ?_, ?_⟩
    · rw [hok, ← hdecision]
      rfl
    · rw [hstore, hrecords, hrows]
  · left
    have hsome : ∃ r ∈ w.store.records.rows, Repeats E p r := by
      rw [← findDuplicateRecord_isSome, hd]
      rfl
    obtain ⟨a, ha, hdecision, hreplayed⟩ :=
      exec_admission_duplicate v factKey hclean hd
    obtain ⟨hok, hstore⟩ := submit_of_admit hw hfree ha rfl
    exact ⟨hsome, ⟨a, hok, hdecision, hreplayed⟩, hstore⟩

/-- A proposal that is refused leaves no record, and is rejected. -/
theorem submit_of_refused {v : Provenance} {factKey : Option String}
    (hw : Weighed E p w.store v factKey) (hfree : ¬ Taken p w.store)
    (hrefused : refusalReasons E p ≠ []) :
    statusOf (atomic (submitProposal E p) w).1 = some .rejected ∧
      (atomic (submitProposal E p) w).2.store.records = w.store.records := by
  obtain ⟨hok, hstore⟩ := submit_of_admit hw hfree (exec_admission_refused hrefused) rfl
  exact ⟨by rw [hok]; rfl, hstore⟩

/-- The conflicts weigh by whether there are any. -/
theorem safeAdd_congr {v : Provenance} {xs ys : List RecordRow} (h : xs = [] ↔ ys = []) :
    safeAdd p v xs = safeAdd p v ys := by
  simp [safeAdd, h]

/-- Only whether there are conflicts matters to the decision. -/
theorem admissionDecision_congr {v : Provenance} {xs ys : List RecordRow} (h : xs = [] ↔ ys = []) :
    admissionDecision p v xs = admissionDecision p v ys := by
  simp [admissionDecision, safeAdd_congr h, h]

/-- And to the record. -/
theorem proposedRecord_congr {v : Provenance} {factKey : Option String} {xs ys : List RecordRow}
    (h : xs = [] ↔ ys = []) : proposedRecord p v factKey xs = proposedRecord p v factKey ys := by
  simp [proposedRecord, safeAdd_congr h]

/-- A proposal conflicts exactly where there are conflicts. -/
theorem admissionDecision_eq_conflict {v : Provenance} {xs : List RecordRow} :
    admissionDecision p v xs = .conflict ↔ xs ≠ [] := by
  unfold admissionDecision
  constructor
  · intro h
    split at h
    · cases h
    · split at h
      · assumption
      · cases h
  · intro h
    have hsafe : safeAdd p v xs = false := by simp [safeAdd, h]
    simp [hsafe, h]

theorem admissionDecision_ne_duplicate {v : Provenance} {xs : List RecordRow} :
    admissionDecision p v xs ≠ .duplicate := by
  unfold admissionDecision
  split
  · simp
  · split <;> simp

/-! ## When other workspaces are left out -/

/-- A submission goes alike in both worlds: the same comes of it, its
workspace sees the same records after it, and where it is taken for a
duplicate, it is one of a record its workspace sees. -/
structure Isolated (E : Engine) (p : MemoryProposal) (w₁ w₂ : MemoryWorld) : Prop where
  status : statusOf (atomic (submitProposal E p) w₁).1 = statusOf (atomic (submitProposal E p) w₂).1
  visible :
    (atomic (submitProposal E p) w₁).2.store.visibleTo p.val.scope.val.subjectId
        p.val.scope.val.workspaceId =
      (atomic (submitProposal E p) w₂).2.store.visibleTo p.val.scope.val.subjectId
        p.val.scope.val.workspaceId
  duplicate : ∀ w ∈ [w₁, w₂], ∀ a, (atomic (submitProposal E p) w).1 = .ok a →
    a.replayed = false → a.decision = .duplicate →
      ∃ r ∈ w.store.visibleTo p.val.scope.val.subjectId p.val.scope.val.workspaceId, Repeats E p r

/-- A record bound elsewhere that the proposal repeats, or whose slot it is
for. -/
def Elsewhere (p : MemoryProposal) (s : MemoryStore) (P : RecordRow → Prop) : Prop :=
  ∃ r ∈ s.records.rows, boundElsewhere p.val.scope.val.subjectId p.val.scope.val.workspaceId r ∧ P r

instance {P : RecordRow → Prop} [DecidablePred P] : Decidable (Elsewhere p s P) :=
  inferInstanceAs (Decidable (∃ r ∈ s.records.rows, _))

/-- A record the workspace sees. -/
def Here (p : MemoryProposal) (s : MemoryStore) (P : RecordRow → Prop) : Prop :=
  ∃ r ∈ s.visibleTo p.val.scope.val.subjectId p.val.scope.val.workspaceId, P r

/-- A record is here or elsewhere. -/
theorem exists_iff_here_or_elsewhere {P : RecordRow → Prop} :
    (∃ r ∈ s.records.rows, P r) ↔ Here p s P ∨ Elsewhere p s P := by
  constructor
  · rintro ⟨r, hr, hp⟩
    rcases mem_rows_iff.mp hr with hr | ⟨hr, hb⟩
    · exact .inl ⟨r, hr, hp⟩
    · exact .inr ⟨r, hr, hb, hp⟩
  · rintro (⟨r, hr, hp⟩ | ⟨r, hr, -, hp⟩)
    · exact ⟨r, List.mem_of_mem_filter hr, hp⟩
    · exact ⟨r, hr, hp⟩

/-- What comes of a proposal does not hang on records bound elsewhere: it is
settled before the lookups, or refused, or its identifier is another's; or
its workspace has a duplicate itself; or there is none elsewhere, and the
conflicts elsewhere are alike or beside one of its own. -/
def Undisturbed (E : Engine) (p : MemoryProposal) (w₁ w₂ : MemoryWorld) : Prop :=
  ∀ v factKey, Weighed E p w₁.store v factKey → ¬ Taken p w₁.store → refusalReasons E p = [] →
    Here p w₁.store (Repeats E p) ∨
      (¬ Elsewhere p w₁.store (Repeats E p) ∧ ¬ Elsewhere p w₂.store (Repeats E p) ∧
        (Here p w₁.store (Contests factKey p) ∨
          (Elsewhere p w₁.store (Contests factKey p) ↔
            Elsewhere p w₂.store (Contests factKey p))))

/-- Stores that agree have the same records here. -/
theorem AgreesWithin.here_iff
    (ha : AgreesWithin p.val.scope.val.subjectId p.val.scope.val.workspaceId w₁ w₂)
    {P : RecordRow → Prop} : Here p w₁.store P ↔ Here p w₂.store P := by
  unfold Here
  rw [ha.records]

/-- A conflict is here or elsewhere. -/
theorem conflictsOf_ne_nil {factKey : Option String} :
    conflictsOf p s factKey ≠ [] ↔
      Here p s (Contests factKey p) ∨ Elsewhere p s (Contests factKey p) := by
  rw [← exists_iff_here_or_elsewhere]
  exact activeRecordsForFactKey_ne_nil

/-- The status of a duplicate. -/
theorem statusOf_of_ok {outcome : Except MemoryError MemoryAdmission} {a : MemoryAdmission}
    {d : AdmissionDecision} (h : outcome = .ok a) (hd : a.decision = d) :
    statusOf outcome = some d := by
  rw [h, ← hd]
  rfl

theorem visibleTo_congr {s s' : MemoryStore} {subjectId workspaceId : String}
    (h : s.records = s'.records) : s.visibleTo subjectId workspaceId =
      s'.visibleTo subjectId workspaceId := by
  rw [MemoryStore.visibleTo, MemoryStore.visibleTo, h]

/-- An outcome that is no fresh duplicate owes nothing to a duplicate. -/
theorem duplicate_of_status {d : AdmissionDecision} {P : Prop}
    (h : statusOf (atomic (submitProposal E p) w).1 = some d) (hd : d ≠ .duplicate) :
    ∀ a, (atomic (submitProposal E p) w).1 = .ok a → a.replayed = false →
      a.decision = .duplicate → P := by
  intro a hok _ hdup
  rw [statusOf_of_ok hok hdup] at h
  exact absurd (Option.some.inj h).symm hd

section Two

variable (ha : AgreesWithin p.val.scope.val.subjectId p.val.scope.val.workspaceId w₁ w₂)
variable (h₁ : Orderly E w₁) (h₂ : Orderly E w₂)
include ha h₁ h₂

/-- A proposal that is not weighed goes alike in both. -/
theorem isolated_of_not_weighed (h : ¬ ∃ v factKey, Weighed E p w₁.store v factKey) :
    Isolated E p w₁ w₂ := by
  have h' : ¬ ∃ v factKey, Weighed E p w₂.store v factKey := by
    simpa only [← ha.weighed_iff h₁ h₂] using h
  have hgo (w : MemoryWorld) (hn : ¬ ∃ v factKey, Weighed E p w.store v factKey) :
      statusOf (atomic (submitProposal E p) w).1 = unweighedStatus E p w.store ∧
        (atomic (submitProposal E p) w).2.store = w.store ∧
        ∀ a, (atomic (submitProposal E p) w).1 = .ok a → a.replayed = true := by
    obtain ⟨outcome, hrun, hstatus, hreplayed⟩ := exec_submitProposal_of_not_weighed hn
    rcases outcome with e | a
    · rw [atomic_of_error hrun]
      exact ⟨hstatus, rfl, fun a ha => by cases ha⟩
    · rw [atomic_of_ok hrun]
      exact ⟨hstatus, rfl, hreplayed⟩
  obtain ⟨hs₁, hw₁, hr₁⟩ := hgo w₁ h
  obtain ⟨hs₂, hw₂, hr₂⟩ := hgo w₂ h'
  refine ⟨?_, ?_, ?_⟩
  · rw [hs₁, hs₂]
    unfold unweighedStatus MemoryStore.getProtocolProposal
    rw [ha.protocolProposals]
  · rw [hw₁, hw₂, ha.records]
  · intro w hw a hok hfresh _
    rcases List.mem_pair.mp hw with rfl | rfl
    · rw [hr₁ a hok] at hfresh
      cases hfresh
    · rw [hr₂ a hok] at hfresh
      cases hfresh

/-- A proposal under an identifier that is taken raises in both. -/
theorem isolated_of_taken {v : Provenance} {factKey : Option String}
    (hw : Weighed E p w₁.store v factKey) (ht : Taken p w₁.store) : Isolated E p w₁ w₂ := by
  have ht₂ : Taken p w₂.store := by
    unfold Taken at *
    rwa [← ha.protocolProposals]
  obtain ⟨hs₁, hw₁, hn₁⟩ := submit_of_taken hw ht
  obtain ⟨hs₂, hw₂, hn₂⟩ := submit_of_taken ((ha.weighed_iff h₁ h₂).mp hw) ht₂
  refine ⟨hs₁.trans hs₂.symm, ?_, ?_⟩
  · rw [hw₁, hw₂, ha.records]
  · intro w hw a hok _ _
    rcases List.mem_pair.mp hw with rfl | rfl
    · exact absurd hok (hn₁ a)
    · exact absurd hok (hn₂ a)

/-- A proposal that is refused is rejected in both. -/
theorem isolated_of_refused {v : Provenance} {factKey : Option String}
    (hw : Weighed E p w₁.store v factKey) (hfree : ¬ Taken p w₁.store)
    (hrefused : refusalReasons E p ≠ []) : Isolated E p w₁ w₂ := by
  have hfree₂ : ¬ Taken p w₂.store := by
    unfold Taken at *
    rwa [← ha.protocolProposals]
  obtain ⟨hs₁, hr₁⟩ := submit_of_refused hw hfree hrefused
  obtain ⟨hs₂, hr₂⟩ := submit_of_refused ((ha.weighed_iff h₁ h₂).mp hw) hfree₂ hrefused
  refine ⟨hs₁.trans hs₂.symm, ?_, ?_⟩
  · rw [visibleTo_congr hr₁, visibleTo_congr hr₂, ha.records]
  · intro w hw
    rcases List.mem_pair.mp hw with rfl | rfl
    · exact duplicate_of_status hs₁ (by simp)
    · exact duplicate_of_status hs₂ (by simp)

/-- A proposal its own workspace holds a duplicate of is one in both. -/
theorem isolated_of_here {v : Provenance} {factKey : Option String}
    (hw : Weighed E p w₁.store v factKey) (hfree : ¬ Taken p w₁.store)
    (hclean : refusalReasons E p = []) (hhere : Here p w₁.store (Repeats E p)) :
    Isolated E p w₁ w₂ := by
  have hw₂ := (ha.weighed_iff h₁ h₂).mp hw
  have hfree₂ : ¬ Taken p w₂.store := by
    unfold Taken at *
    rwa [← ha.protocolProposals]
  have hhere₂ : Here p w₂.store (Repeats E p) := ha.here_iff.mp hhere
  obtain ⟨-, ⟨a₁, hok₁, hd₁, -⟩, hr₁⟩ | ⟨hno, -⟩ := submit_of_weighed hw hfree hclean h₁
  swap
  · exact absurd (exists_iff_here_or_elsewhere.mpr (.inl hhere)) hno
  obtain ⟨-, ⟨a₂, hok₂, hd₂, -⟩, hr₂⟩ | ⟨hno, -⟩ := submit_of_weighed hw₂ hfree₂ hclean h₂
  swap
  · exact absurd (exists_iff_here_or_elsewhere.mpr (.inl hhere₂)) hno
  refine ⟨by rw [statusOf_of_ok hok₁ hd₁, statusOf_of_ok hok₂ hd₂], ?_, ?_⟩
  · rw [visibleTo_congr hr₁, visibleTo_congr hr₂, ha.records]
  · intro w hmem _ _ _ _
    rcases List.mem_pair.mp hmem with rfl | rfl
    · exact hhere
    · exact hhere₂

/-- A proposal no record repeats, and whose slot is contested in both or in
neither, is recorded alike. -/
theorem isolated_of_recorded {v : Provenance} {factKey : Option String}
    (hw : Weighed E p w₁.store v factKey) (hfree : ¬ Taken p w₁.store)
    (hclean : refusalReasons E p = []) (hno₁ : ¬ ∃ r ∈ w₁.store.records.rows, Repeats E p r)
    (hno₂ : ¬ ∃ r ∈ w₂.store.records.rows, Repeats E p r)
    (hconflict : conflictsOf p w₁.store factKey = [] ↔ conflictsOf p w₂.store factKey = []) :
    Isolated E p w₁ w₂ := by
  have hw₂ := (ha.weighed_iff h₁ h₂).mp hw
  have hfree₂ : ¬ Taken p w₂.store := by
    unfold Taken at *
    rwa [← ha.protocolProposals]
  obtain ⟨hyes, -⟩ | ⟨-, hs₁, hr₁⟩ := submit_of_weighed hw hfree hclean h₁
  · exact absurd hyes hno₁
  obtain ⟨hyes, -⟩ | ⟨-, hs₂, hr₂⟩ := submit_of_weighed hw₂ hfree₂ hclean h₂
  · exact absurd hyes hno₂
  refine ⟨by rw [hs₁, hs₂, admissionDecision_congr hconflict], ?_, ?_⟩
  · have hrow : rowOf E w₁ (proposedRecord p v factKey (conflictsOf p w₁.store factKey)) =
        rowOf E w₂ (proposedRecord p v factKey (conflictsOf p w₂.store factKey)) := by
      rw [rowOf, rowOf, ha.clock, ha.draws, proposedRecord_congr hconflict]
    have hrecords := ha.records
    unfold MemoryStore.visibleTo at *
    rw [hr₁, hr₂, List.filter_append, List.filter_append, hrecords, hrow]
  · intro w hmem
    rcases List.mem_pair.mp hmem with rfl | rfl
    · exact duplicate_of_status hs₁ admissionDecision_ne_duplicate
    · exact duplicate_of_status hs₂ admissionDecision_ne_duplicate

/-- Where a submission goes alike, nothing hung on records bound
elsewhere. -/
theorem undisturbed_of_isolated (hiso : Isolated E p w₁ w₂) : Undisturbed E p w₁ w₂ := by
  intro v factKey hw hfree hclean
  have hw₂ := (ha.weighed_iff h₁ h₂).mp hw
  have hfree₂ : ¬ Taken p w₂.store := by
    unfold Taken at *
    rwa [← ha.protocolProposals]
  by_cases hhere : Here p w₁.store (Repeats E p)
  · exact .inl hhere
  right
  -- a duplicate elsewhere would be what the proposal is taken for
  have hnone (w : MemoryWorld) (hmem : w ∈ [w₁, w₂]) (hw : Weighed E p w.store v factKey)
      (hfree : ¬ Taken p w.store) (ho : Orderly E w) (hhere : ¬ Here p w.store (Repeats E p)) :
      ¬ ∃ r ∈ w.store.records.rows, Repeats E p r := by
    rcases submit_of_weighed hw hfree hclean ho with ⟨-, ⟨a, hok, hdup, hfresh⟩, -⟩ | ⟨hno, -⟩
    · exact absurd (hiso.duplicate w hmem a hok hfresh hdup) hhere
    · exact hno
  have hno₁ := hnone w₁ (by simp) hw hfree h₁ hhere
  have hno₂ := hnone w₂ (by simp) hw₂ hfree₂ h₂ (by rwa [← ha.here_iff])
  refine ⟨fun h => hno₁ (exists_iff_here_or_elsewhere.mpr (.inr h)),
    fun h => hno₂ (exists_iff_here_or_elsewhere.mpr (.inr h)), ?_⟩
  by_cases hown : Here p w₁.store (Contests factKey p)
  · exact .inl hown
  right
  have hown₂ : ¬ Here p w₂.store (Contests factKey p) := by rwa [← ha.here_iff]
  obtain ⟨hyes, -⟩ | ⟨-, hs₁, -⟩ := submit_of_weighed hw hfree hclean h₁
  · exact absurd hyes hno₁
  obtain ⟨hyes, -⟩ | ⟨-, hs₂, -⟩ := submit_of_weighed hw₂ hfree₂ hclean h₂
  · exact absurd hyes hno₂
  have hsame := hiso.status
  rw [hs₁, hs₂, Option.some.injEq] at hsame
  have hc (s : MemoryStore) (hown : ¬ Here p s (Contests factKey p)) :
      admissionDecision p v (conflictsOf p s factKey) = .conflict ↔
        Elsewhere p s (Contests factKey p) := by
    rw [admissionDecision_eq_conflict, conflictsOf_ne_nil, or_iff_right hown]
  rw [← hc w₁.store hown, ← hc w₂.store hown₂, hsame]

/-- **Records bound elsewhere are left out exactly where nothing hangs on
them.** -/
theorem submitProposal_isolated_iff : Isolated E p w₁ w₂ ↔ Undisturbed E p w₁ w₂ := by
  refine ⟨undisturbed_of_isolated ha h₁ h₂, fun hund => ?_⟩
  by_cases hweighed : ∃ v factKey, Weighed E p w₁.store v factKey
  swap
  · exact isolated_of_not_weighed ha h₁ h₂ hweighed
  obtain ⟨v, factKey, hw⟩ := hweighed
  by_cases hfree : Taken p w₁.store
  · exact isolated_of_taken ha h₁ h₂ hw hfree
  by_cases hclean : refusalReasons E p = []
  swap
  · exact isolated_of_refused ha h₁ h₂ hw hfree hclean
  by_cases hhere : Here p w₁.store (Repeats E p)
  · exact isolated_of_here ha h₁ h₂ hw hfree hclean hhere
  obtain ⟨hne₁, hne₂, hconflict⟩ := (hund v factKey hw hfree hclean).resolve_left hhere
  have hhere₂ : ¬ Here p w₂.store (Repeats E p) := by rwa [← ha.here_iff]
  have hnone (s : MemoryStore) (hh : ¬ Here p s (Repeats E p))
      (he : ¬ Elsewhere p s (Repeats E p)) : ¬ ∃ r ∈ s.records.rows, Repeats E p r := by
    rw [exists_iff_here_or_elsewhere]
    exact not_or.mpr ⟨hh, he⟩
  refine isolated_of_recorded ha h₁ h₂ hw hfree hclean (hnone _ hhere hne₁) (hnone _ hhere₂ hne₂)
    (not_iff_not.mp ?_)
  rw [← ne_eq, ← ne_eq, conflictsOf_ne_nil, conflictsOf_ne_nil, ← ha.here_iff]
  rcases hconflict with hown | hsame
  · simp only [hown, true_or]
  · rw [hsame]

end Two

/-! ## A fact two workspaces share -/

/-- The other workspace has the fact given; this one has its message. -/
def sharedWorld (fact : MemoryProposal) : MemoryWorld :=
  [Operation.captureSource thereMessage, .submitProposal fact, .captureSource hereMessage].foldl
    (fun w op => op.run plainEngine w) plainWorld

/-- The world without the records bound elsewhere. -/
def withoutElsewhere (w : MemoryWorld) : MemoryWorld :=
  { w with
    store := { w.store with records := w.store.records.delete (boundElsewhere "user-1" "here") } }

/-- Without the other workspaces a store agrees with itself. -/
theorem agreesWithin_withoutElsewhere : AgreesWithin "user-1" "here" w (withoutElsewhere w) where
  records := by
    simp [MemoryStore.visibleTo, withoutElsewhere, List.filter_filter]
  sources := rfl
  protocolProposals := rfl
  clock := rfl
  draws := rfl

/-- What the tests of the example show. -/
theorem orderly_of_all (hall : w.store.records.rows.all fun r =>
      (r.raw.authorityScope.all fun scope =>
        r.authorityWorkspaceId = some scope.val.workspaceId) &&
      r.id ≠ E.newId "rec" w.draws) : Orderly E w := by
  have h := fun r hr => (Bool.and_eq_true_iff.mp (List.all_eq_true.mp hall r hr))
  refine ⟨fun r hr scope hscope => ?_, fun r hr => by simpa using (h r hr).2⟩
  have := (h r hr).1
  rw [hscope] at this
  simpa using this

theorem Orderly.withoutElsewhere (ho : Orderly E w) : Orderly E (withoutElsewhere w) := by
  have hmem : ∀ r ∈ (Memory.withoutElsewhere w).store.records.rows, r ∈ w.store.records.rows :=
    fun r hr => List.mem_of_mem_filter hr
  exact ⟨fun r hr => ho.materialized r (hmem r hr), fun r hr => ho.unused r (hmem r hr)⟩

/-- The fact another workspace holds is a duplicate here, though nothing
this workspace sees repeats it. -/
theorem submitProposal_shows_elsewhere :
    AgreesWithin hereFact.val.scope.val.subjectId hereFact.val.scope.val.workspaceId
        (sharedWorld thereFact) (withoutElsewhere (sharedWorld thereFact)) ∧
      Orderly plainEngine (sharedWorld thereFact) ∧
      Orderly plainEngine (withoutElsewhere (sharedWorld thereFact)) ∧
      statusOf (atomic (submitProposal plainEngine hereFact) (sharedWorld thereFact)).1 =
        some .duplicate ∧
      statusOf (atomic (submitProposal plainEngine hereFact)
        (withoutElsewhere (sharedWorld thereFact))).1 = some .active ∧
      ¬ Isolated plainEngine hereFact (sharedWorld thereFact)
        (withoutElsewhere (sharedWorld thereFact)) := by
  have ho : Orderly plainEngine (sharedWorld thereFact) := orderly_of_all (by decide +kernel)
  have hs₁ : statusOf (atomic (submitProposal plainEngine hereFact) (sharedWorld thereFact)).1 =
      some .duplicate := by decide +kernel
  have hs₂ : statusOf (atomic (submitProposal plainEngine hereFact)
      (withoutElsewhere (sharedWorld thereFact))).1 = some .active := by decide +kernel
  refine ⟨agreesWithin_withoutElsewhere, ho, ho.withoutElsewhere, hs₁, hs₂, fun hiso => ?_⟩
  have hsame := hiso.status
  rw [hs₁, hs₂] at hsame
  cases hsame

/-- Another fact there leaves this one as it would be without it. -/
theorem submitProposal_isolated_of_other :
    Isolated plainEngine hereFact (sharedWorld thereOther)
        (withoutElsewhere (sharedWorld thereOther)) ∧
      statusOf (atomic (submitProposal plainEngine hereFact) (sharedWorld thereOther)).1 =
        some .active ∧
      (sharedWorld thereOther).store.records.rows ≠ [] := by
  have ho : Orderly plainEngine (sharedWorld thereOther) := orderly_of_all (by decide +kernel)
  refine ⟨(submitProposal_isolated_iff agreesWithin_withoutElsewhere ho ho.withoutElsewhere).mpr ?_,
    by decide +kernel, by decide +kernel⟩
  intro v factKey hw _ _
  have hslot : factKey = none := by
    have hnone : proposedKey plainEngine hereFact = .ok none := by decide +kernel
    rw [hw.slot] at hnone
    exact Except.ok.inj hnone
  have huncontested (s : MemoryStore) : ¬ Elsewhere hereFact s (Contests factKey hereFact) := by
    rintro ⟨r, -, -, -, ht, -⟩
    rw [hslot] at ht
    cases ht
  refine .inr ⟨by decide +kernel, by decide +kernel, .inr ?_⟩
  exact iff_of_false (huncontested _) (huncontested _)

end Atmem.Memory
