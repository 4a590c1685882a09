import Atmem.TaskState.Helpers.Ledger
/-!
# Every call keeps the ledger

A transaction that goes through records one step. Which it is, and that the
head moves with it, needs no more of the store than that the invariant holds:
what was read before is of the task it was read for.
-/

namespace Atmem

open Transactional Relational Checked Interleaving

variable {s s' s₁ : Store} {H : Hashing} {now : Instant} {step : StepRow}
variable {proposal : TaskStateProposal} {decision : PolicyDecision}

/-! ## Transactions -/

/-- The rows are ready for the step: it progressed exactly where its stamp is
the progress of its row. -/
structure Headed (s s₁ : Store) (step : StepRow) : Prop where
  numbered : ∀ r ∈ s₁.revisions.rows, r.Numbered
  revisions : s.revisions.rows ⊆ s₁.revisions.rows
  steps : s₁.steps = s.steps
  resulted : step.outcome = .accepted → ∃ r ∈ s₁.revisions.rows,
    r.taskId = step.taskId ∧ step.resultingRevision = some r.revision
  stays : ∀ t ∈ s.tasks.rows, ∃ t' ∈ s₁.tasks.rows, t'.taskId = t.taskId
  tasks : ∀ t' ∈ s₁.tasks.rows, ∃ t ∈ s.tasks.rows, t'.taskId = t.taskId ∧
    t'.lastProgressAtUtc = if t.taskId = step.taskId ∧ s₁.progressed step = true
      then step.recordedAtUtc else t.lastProgressAtUtc

/-- The same rows, beside other tables. -/
theorem Headed.sameLedger {s₂ : Store} (hh : Headed s s₁ step) (h : SameLedger s₁ s₂) :
    Headed s s₂ step := by
  obtain ⟨htasks, hrevs, hsteps⟩ := h
  have hprogressed : s₂.progressed step = s₁.progressed step := by
    unfold Store.progressed
    rw [hrevs]
  constructor
  · rw [hrevs]
    exact hh.numbered
  · rw [hrevs]
    exact hh.revisions
  · exact hsteps.trans hh.steps
  · rw [hrevs]
    exact hh.resulted
  · rw [htasks]
    exact hh.stays
  · rw [htasks, hprogressed]
    exact hh.tasks

/-- **The step is recorded where the rows are ready.** -/
theorem Headed.record (hh : Headed s s₁ step) (hl : Ledgered s)
    (hhas : s₁.hasTask step.taskId = true)
    (h : SameLedger { s₁ with steps := s₁.steps ++ [step] } s') : Ledgered s' := by
  obtain ⟨htasks, hrevs, hsteps⟩ := h
  have hprogressed : s'.progressed step = s₁.progressed step := by
    unfold Store.progressed
    rw [hrevs]
  have hlist : s'.steps = s.steps ++ [step] := by
    rw [hsteps, ← hh.steps]
  refine hl.record ?_ ?_ hlist ?_ ?_ ?_ ?_
  · rw [hrevs]
    exact hh.numbered
  · rw [hrevs]
    exact hh.revisions
  · rw [hrevs]
    exact hh.resulted
  · rw [htasks]
    exact hh.stays
  · rw [htasks]
    exact exists_of_hasTask hhas
  · rw [htasks, hprogressed]
    exact hh.tasks

/-- A revision that went in is numbered with the others. -/
theorem numbered_insert (hn : ∀ r ∈ s.revisions.rows, r.Numbered) {row : RevisionRow}
    {revisions : RevisionTable} (hrow : row.Numbered)
    (hi : s.revisions.insert row = some revisions) :
    (∀ r ∈ revisions.rows, r.Numbered) ∧ s.revisions.rows ⊆ revisions.rows ∧
      row ∈ revisions.rows := by
  rw [(Table.insert_eq_some.mp hi).2]
  refine ⟨fun r hr => ?_, List.subset_append_left _ _, ?_⟩
  · rcases List.mem_append.mp hr with hr | hr
    · exact hn r hr
    · rwa [List.mem_singleton.mp hr]
  · exact List.mem_append_right _ (List.mem_singleton_self _)

/-- Nothing is accepted, and no row is touched. -/
theorem Headed.refused (hn : ∀ r ∈ s₁.revisions.rows, r.Numbered)
    (hrevs : s.revisions.rows ⊆ s₁.revisions.rows) (hsteps : s₁.steps = s.steps)
    (hstays : ∀ t ∈ s.tasks.rows, ∃ t' ∈ s₁.tasks.rows, t'.taskId = t.taskId)
    (htasks : ∀ t ∈ s₁.tasks.rows, t ∈ s.tasks.rows) (ha : step.outcome ≠ .accepted) :
    Headed s s₁ step := by
  refine ⟨hn, hrevs, hsteps, fun h => absurd h ha, hstays, fun t ht => ⟨t, htasks t ht, rfl, ?_⟩⟩
  rw [progressed_of_not_accepted ha, if_neg fun h => Bool.false_ne_true h.2]

/-- **The head moves to a revision of the task.** -/
theorem Headed.advance (hn : ∀ r ∈ s.revisions.rows, r.Numbered) {row : RevisionRow}
    {revisions : RevisionTable} {change : HeadChange} {expectedHead newHead : ℕ}
    (hrow : row.Numbered) (hi : s.revisions.insert row = some revisions)
    (hone : s.tasks.rows.countP (guarded step.taskId expectedHead) = 1)
    (ha : step.outcome = .accepted) (htask : row.taskId = step.taskId)
    (hrevision : step.resultingRevision = some row.revision)
    (hchange : change.lastProgressAtUtc =
      if row.isProgress then some step.recordedAtUtc else none) :
    Headed s (({ s with revisions } : Store).advanced step.taskId expectedHead newHead change)
      step := by
  obtain ⟨hnumbered, hsub, hmem⟩ := numbered_insert hn hrow hi
  refine ⟨hnumbered, hsub, rfl, fun _ => ⟨row, hmem, htask, hrevision⟩,
    fun t ht => advanced_stays (s := { s with revisions }) ht, fun t' ht' => ?_⟩
  obtain ⟨t, ht, hid, hlast⟩ := advanced_rows (s := { s with revisions }) hone ht'
  refine ⟨t, ht, hid, hlast.trans ?_⟩
  have hprogressed : (({ s with revisions } : Store).advanced step.taskId expectedHead newHead
      change).progressed step = row.isProgress := progressed_eq ha hmem htask hrevision
  rw [hprogressed, hchange]
  by_cases hown : t.taskId = step.taskId
  · rcases row.isProgress with - | - <;> simp [hown]
  · rw [if_neg hown, if_neg fun h => hown h.1]

/-- What an accepted decision makes is of the task. -/
def PolicyDecision.Fits (decision : PolicyDecision) (taskId : String) : Prop :=
  ∀ next, decision.accepted = true → decision.nextState = some next → next.val.taskId = taskId

/-- **An evaluation accepts only what is of the proposal's task.** -/
theorem fits_of_evaluate {state : TaskState} {profile : TaskProfile} {nowIso : String}
    {known : Option (List String)} {allowPrivileged : Bool}
    (he : evaluate H state profile proposal nowIso known allowPrivileged = .ok decision) :
    decision.Fits proposal.val.taskId := by
  intro next ha hnext
  obtain ⟨next', hacc⟩ := acceptance_of_evaluate he ha
  obtain rfl : next' = next := Option.some.inj (hacc.nextState.symm.trans hnext)
  have hstate : next'.val.taskId = state.val.taskId :=
    (congrArg TaskStateFields.taskId (applyOperations_eq_ok hacc.applied).2 :)
  exact hstate.trans (eligible_of_preconditions hacc.eligible).taskId.symm

/-- **The head part of a commit** readies the rows for its step. -/
theorem headed_of_resolve (hn : ∀ r ∈ s.revisions.rows, r.Numbered) {view : TaskView}
    {resolution : Resolution} (hfits : decision.Fits proposal.val.taskId)
    (he : exec (resolve H proposal view decision now) s = (.ok resolution, s₁))
    (htask : step.taskId = proposal.val.taskId) (houtcome : step.outcome = resolution.outcome)
    (hresulting : step.resultingRevision = resolution.resultingRevision)
    (hstamp : step.recordedAtUtc = now) : Headed s s₁ step := by
  unfold resolve at he
  split at he
  · rename_i ha
    split at he
    · cases he
    rename_i next hnext
    obtain ⟨advanced, s₂, hadvance, hrest⟩ := exec_bind_eq_ok.mp he
    rw [exec_tryCatch] at hadvance
    let row := revisionRow H next proposal.val.actor proposal.val.actorRole decision.reasonCodes
      (proposal.val.evidence.map EvidenceRef.toDict) now decision.isProgress
    rcases hinsert : exec (insertTaskRevision row) s with ⟨e | ⟨⟩, s₃⟩
    · -- the number is taken: another writer was first
      have hs₃ : s₃ = s ∧ e = .integrityError := by
        rw [exec_insertTaskRevision] at hinsert
        split at hinsert
        · cases hinsert
        · cases hinsert
          exact ⟨rfl, rfl⟩
      obtain ⟨rfl, rfl⟩ := hs₃
      rw [exec_bind_error hinsert] at hadvance
      cases hadvance
      cases hrest
      exact .refused hn (List.Subset.refl _) rfl (fun t ht => ⟨t, ht, rfl⟩) (fun _ ht => ht)
        (by rw [houtcome]; decide)
    · obtain ⟨-, revisions, hi, rfl⟩ := exec_insertTaskRevision_eq_ok hinsert
      rw [exec_bind_ok hinsert, exec_advanceTaskHead] at hadvance
      cases hadvance
      by_cases hone : ({ s with revisions } : Store).tasks.rows.countP
          (guarded proposal.val.taskId view.state.val.revision) = 1
      · rw [decide_eq_true hone] at hrest
        obtain ⟨⟨⟩, s₄, hprovenance, hresolved⟩ := exec_bind_eq_ok.mp hrest
        cases hresolved
        have hsame := sameLedger_of_exec (sameLedger_provenance _ id) hprovenance
        refine Headed.sameLedger ?_ hsame
        rw [← htask] at hone ⊢
        refine .advance hn ⟨rfl, rfl⟩ hi hone ?_ ?_ hresulting ?_
        · rw [houtcome]
          exact of_decide_eq_true ha
        · exact (hfits next ha hnext).trans htask.symm
        · rw [hstamp]
          rfl
      · -- the head has moved: the revision stays, unclaimed
        rw [decide_eq_false hone] at hrest
        cases hrest
        obtain ⟨hnumbered, hsub, -⟩ := numbered_insert hn ⟨rfl, rfl⟩ hi
        exact .refused hnumbered hsub rfl
          (fun t ht => advanced_stays (s := { s with revisions }) ht)
          (fun t ht => mem_of_not_advanced (s := { s with revisions }) hone ht)
          (by rw [houtcome]; decide)
  · -- not accepted: tasks and revisions stay
    rename_i ha
    cases he
    refine .refused hn (List.Subset.refl _) rfl (fun t ht => ⟨t, ht, rfl⟩) (fun _ ht => ht) ?_
    rw [houtcome]
    exact of_decide_eq_false (Bool.eq_false_iff.mpr ha)

/-- **A commit keeps the ledger.** -/
theorem ledgered_commitTx (hl : Ledgered s) {view : TaskView} {stepKind : String}
    {started : Instant} {typed : TransitionDecision} (hfits : decision.Fits proposal.val.taskId)
    (he : exec (commitTx H proposal view decision stepKind started now) s = (.ok typed, s')) :
    Ledgered s' := by
  unfold commitTx at he
  obtain ⟨resolution, s₁, hresolve, he⟩ := exec_bind_eq_ok.mp he
  obtain ⟨typed', s₂, hmake, he⟩ := exec_bind_eq_ok.mp he
  obtain ⟨⟨⟩, s₃, hproposal, he⟩ := exec_bind_eq_ok.mp he
  obtain ⟨⟨⟩, s₄, hstep, he⟩ := exec_bind_eq_ok.mp he
  cases he
  have hlift : Transactional.Within SameLedger
      (liftTx (TransitionDecision.make (typedDecision H proposal resolution now))) := by
    rcases TransitionDecision.make (typedDecision H proposal resolution now) with m | t
    · exact .throw SameLedger.refl
    · exact .pure SameLedger.refl
  have hinsert : Transactional.Within SameLedger (tryCatch
      (insertTaskProposal (proposalRow H proposal typed resolution.outcome
        resolution.resultingRevision now))
      fun e => throw (if e = .integrityError then proposalIdTaken proposal else e)) :=
    .tryCatch SameLedger.trans (sameLedger_insertTaskProposal _) fun _ => .throw SameLedger.refl
  have hsame : SameLedger s₁ s₃ := SameLedger.trans _ _ _ (sameLedger_of_exec hlift hmake)
    (sameLedger_of_exec hinsert hproposal)
  obtain ⟨hhas, rfl⟩ := exec_insertTaskStep_eq_ok hstep
  have hheaded : Headed s s₁ (commitStep proposal resolution stepKind started now
      (s₃.nextStepSequence proposal.val.taskId)) :=
    headed_of_resolve hl.numbered hfits hresolve rfl rfl rfl rfl
  exact (hheaded.sameLedger hsame).record hl hhas (SameLedger.refl _)

/-- **So does a lifecycle change.** -/
theorem ledgered_lifecycleTx (hl : Ledgered s) {taskId actor reason : String} {row : TaskRow}
    {state next : TaskState} {target : TaskLifecycle} {actorRole : ActorRole}
    {expiryRule : Option String} (htask : next.val.taskId = taskId)
    (he : exec (lifecycleTx H taskId row state next target actor actorRole reason expiryRule now) s =
      (.ok (), s')) : Ledgered s' := by
  unfold lifecycleTx at he
  obtain ⟨⟨⟩, s₁, hinsert, he⟩ := exec_bind_eq_ok.mp he
  obtain ⟨-, revisions, hi, rfl⟩ := exec_insertTaskRevision_eq_ok hinsert
  obtain ⟨advanced, s₂, hadvance, he⟩ := exec_bind_eq_ok.mp he
  rw [exec_advanceTaskHead] at hadvance
  cases hadvance
  -- the guarded update hit one row, or the call raised
  by_cases hone : ({ s with revisions } : Store).tasks.rows.countP
      (guarded taskId state.val.revision) = 1
  · rw [decide_eq_true hone] at he
    obtain ⟨⟨⟩, s₃, hprovenance, hstep⟩ := exec_bind_eq_ok.mp he
    have hsame := sameLedger_of_exec (sameLedger_insertTaskProvenance _) hprovenance
    obtain ⟨hhas, rfl⟩ := exec_insertTaskStep_eq_ok hstep
    -- a lifecycle change is no progress
    have hchange : (lifecycleChange row target reason now).lastProgressAtUtc = none := by
      unfold lifecycleChange
      dsimp only
      split
      · rfl
      · split <;> rfl
    let step : StepRow :=
      { taskId
        stepKind := "lifecycle_" ++ value target
        outcome := .accepted
        baseRevision := state.val.revision
        resultingRevision := some next.val.revision
        reasonCodes := [.lifecycleChangeAccepted]
        actor
        recordedAtUtc := now
        sequence := s₃.nextStepSequence taskId }
    have hheaded : Headed s (({ s with revisions } : Store).advanced step.taskId
        state.val.revision next.val.revision (lifecycleChange row target reason now)) step :=
      .advance hl.numbered ⟨rfl, rfl⟩ hi hone rfl htask rfl hchange
    exact (hheaded.sameLedger hsame).record hl hhas (SameLedger.refl _)
  · rw [decide_eq_false hone] at he
    cases he

/-- **A start opens the ledger of a new task.** -/
theorem ledgered_startTx (hl : Ledgered s) {request : TaskStartRequest} {items : List TaskItem}
    {row task : TaskRow} {state : TaskState} (hid : row.taskId = request.val.taskId)
    (hlast : row.lastProgressAtUtc = now) (htask : state.val.taskId = request.val.taskId)
    (hrevision : state.val.revision = 1)
    (he : exec (startTx H request items row state now) s = (.ok task, s')) : Ledgered s' := by
  unfold startTx at he
  obtain ⟨stored, s₁, hinsert, he⟩ := exec_bind_eq_ok.mp he
  obtain ⟨tasks, hi, rfl, -⟩ := exec_insertTask_ok.mp hinsert
  obtain ⟨hclash, hrows⟩ := Table.insert_eq_some.mp hi
  obtain ⟨⟨⟩, s₂, hrevs, he⟩ := exec_bind_eq_ok.mp he
  obtain ⟨-, revisions, hr, rfl⟩ := exec_insertTaskRevision_eq_ok hrevs
  obtain ⟨⟨⟩, s₃, hprovenance, he⟩ := exec_bind_eq_ok.mp he
  obtain ⟨⟨⟩, s₄, hitems, he⟩ := exec_bind_eq_ok.mp he
  obtain ⟨⟨⟩, s₅, hstep, he⟩ := exec_bind_eq_ok.mp he
  cases he
  have hsame : SameLedger { s with tasks, revisions } s₄ := SameLedger.trans _ _ _
    (sameLedger_of_exec (sameLedger_insertTaskProvenance _) hprovenance)
    (sameLedger_of_exec (sameLedger_provenance _ _) hitems)
  obtain ⟨htasks, hrevisions, hsteps⟩ := hsame
  obtain ⟨-, rfl⟩ := exec_insertTaskStep_eq_ok hstep
  obtain ⟨hnumbered, hsub, hmem⟩ := numbered_insert hl.numbered ⟨rfl, rfl⟩ hr
  -- no step was recorded for the task before it was there
  have hnew : ∀ t ∈ s.tasks.rows, t.taskId ≠ row.taskId := fun t ht heq => by
    have hapart := hclash t ht
    rw [taskClash_of_taskId t row heq] at hapart
    cases hapart
  have hnone : s.stepsOf row.taskId = [] := List.filter_eq_nil_iff.mpr fun q hq => by
    obtain ⟨t, ht, hown⟩ := hl.owned q hq
    have hne := hnew t ht
    rw [hown] at hne
    simpa using hne
  constructor
  · rw [hrevisions]
    exact hnumbered
  · intro q hq
    rw [htasks, hrows]
    rcases List.mem_append.mp hq with hq | hq
    · obtain ⟨t, ht, hown⟩ := hl.owned q (hsteps ▸ hq)
      exact ⟨t, List.mem_append_left _ ht, hown⟩
    · rw [List.mem_singleton.mp hq]
      exact ⟨row, List.mem_append_right _ (List.mem_singleton_self _), hid⟩
  · intro q hq ha
    rw [hrevisions]
    rcases List.mem_append.mp hq with hq | hq
    · obtain ⟨r, hr, hrest⟩ := hl.resulted q (hsteps ▸ hq) ha
      exact ⟨r, hsub hr, hrest⟩
    · rw [List.mem_singleton.mp hq]
      exact ⟨_, hmem, htask, congrArg some hrevision.symm⟩
  · intro t ht
    rw [htasks, hrows] at ht
    rcases List.mem_append.mp ht with ht | ht
    · obtain ⟨p, hp, hsince⟩ := hl.since t ht
      have hother : ¬ request.val.taskId = t.taskId := fun heq => hnew t ht (heq.symm.trans hid.symm)
      refine ⟨p, ?_, hsince⟩
      rw [sinceProgressStep_congr (s := s)]
      · exact hp
      · unfold Store.stepsOf
        rw [List.filter_append, hsteps, List.filter_singleton, decide_eq_false hother, cond_false,
          List.append_nil]
      · intro q hq
        refine hl.progressed ?_ (mem_stepsOf.mp hq).1
        rw [hrevisions]
        exact hsub
    · obtain rfl := List.mem_singleton.mp ht
      have hown : decide (request.val.taskId = t.taskId) = true := decide_eq_true hid.symm
      have hsteps' : s.steps.filter (fun r => decide (r.taskId = t.taskId)) = [] := hnone
      unfold Store.sinceProgressStep Store.stepsOf
      rw [List.filter_append, hsteps, hsteps', List.filter_singleton, hown]
      exact ⟨_, rfl, hlast⟩

/-- **And a deletion closes one.** -/
theorem ledgered_deleteTask (hl : Ledgered s) (taskId : String)
    (he : exec (deleteTask taskId) s = (.ok (), s')) : Ledgered s' := by
  cases he
  have hrevision : ∀ r ∈ s.revisions.rows, r.taskId ≠ taskId →
      r ∈ (s.revisions.delete fun r => r.taskId = taskId).rows := fun r hr hne => by
    rw [Table.rows_delete]
    exact List.mem_filter.mpr ⟨hr, by simpa using hne⟩
  have hstep : ∀ q, q ∈ s.steps.filter (fun r => r.taskId ≠ taskId) ↔
      q ∈ s.steps ∧ q.taskId ≠ taskId := fun q => by simp
  have htask : ∀ t, t ∈ (s.tasks.delete fun r => r.taskId = taskId).rows ↔
      t ∈ s.tasks.rows ∧ t.taskId ≠ taskId := fun t => by simp
  constructor
  · intro r hr
    rw [Table.rows_delete] at hr
    exact hl.numbered r (List.mem_filter.mp hr).1
  · intro q hq
    obtain ⟨hq, hne⟩ := (hstep q).mp hq
    obtain ⟨t, ht, hown⟩ := hl.owned q hq
    exact ⟨t, (htask t).mpr ⟨ht, by rwa [hown]⟩, hown⟩
  · intro q hq ha
    obtain ⟨hq, hne⟩ := (hstep q).mp hq
    obtain ⟨r, hr, hid, hrest⟩ := hl.resulted q hq ha
    exact ⟨r, hrevision r hr (by rwa [hid]), hid, hrest⟩
  · intro t ht
    obtain ⟨ht, hne⟩ := (htask t).mp ht
    obtain ⟨p, hp, hsince⟩ := hl.since t ht
    refine ⟨p, ?_, hsince⟩
    -- the other tasks keep their steps, and what these resulted in
    rw [sinceProgressStep_congr (s := s)]
    · exact hp
    · unfold Store.stepsOf
      rw [List.filter_filter]
      refine List.filter_congr fun q _ => ?_
      by_cases hown : q.taskId = t.taskId
      · simp [hown, hne]
      · simp [hown]
    · intro q hq
      obtain ⟨hq, hown⟩ := mem_stepsOf.mp hq
      by_cases ha : q.outcome = .accepted
      · obtain ⟨r, hr, hid, hrest⟩ := hl.resulted q hq ha
        have hother : r.taskId ≠ taskId := by rwa [hid, hown]
        rw [progressed_eq ha hr hid hrest]
        exact progressed_eq ha (hrevision r hr hother) hid hrest
      · rw [progressed_of_not_accepted ha, progressed_of_not_accepted ha]

/-! ## Methods -/

section Methods

variable {α : Type} {scope : AuthorityScope} {taskId actor reason : String} {actorRole : ActorRole}
variable {expire : AuthorityScope → TaskRow → Svc (Option TaskRow)}

/-- Every action keeps the ledger, and what is returned is as `Q` says. -/
abbrev Records (Q : α → Prop) (x : Svc α) : Prop :=
  x.Keeps (fun _ _ => True) (fun w => Ledgered w.store) (fun _ w' => Ledgered w'.store) Q

/-- A reading keeps the ledger. -/
theorem records_read {Q : α → Prop} {label : Label} {f : World → α}
    (hf : ∀ w, Ledgered w.store → Q (f w)) : Records Q (Eff.read label f) := by
  refine .action fun w hl => ⟨fun _ => hl, fun a ha => ?_⟩
  cases ha
  exact hf w hl

theorem records_now : Records (fun _ => True) Atmem.now :=
  .action fun _ hl => ⟨fun _ => hl, fun _ _ => trivial⟩

theorem records_query {label : Label} {f : Store → α} :
    Records (fun _ => True) (query label f) :=
  records_read fun _ _ => trivial

/-- So does a transaction that does. -/
theorem records_transaction {body : Tx α}
    (hbody : ∀ s a s', Ledgered s → exec body s = (.ok a, s') → Ledgered s') :
    Records (fun _ => True) (transaction body) := by
  refine .action fun w hl => ⟨fun _ => ?_, fun _ _ => trivial⟩
  change Ledgered (match exec body w.store with
    | (.ok a, store) => ((.ok a, { w with store }) : Except Raised α × World)
    | (.error e, _) => (.error e, w)).2.store
  rcases hrun : exec body w.store with ⟨e | a, s'⟩
  · exact hl
  · exact hbody w.store a s' hl hrun

theorem records_require {action : GovernanceAction} :
    Records (fun _ => True) (require actorRole action) := by
  unfold require
  split
  · exact .pure trivial
  · exact .throw

theorem records_lift {r : Except String α} : Records (fun a => r = .ok a) (lift r) :=
  .ofExcept fun _ h => h

theorem records_profileOf {version : String} :
    Records (fun _ => True) (profileOf version) := by
  unfold profileOf
  split
  · exact .pure trivial
  · exact records_query

/-- What is viewed is of the task of the row. -/
theorem records_view {row : TaskRow} :
    Records (fun v => v.state.val.taskId = row.taskId) (view row) := by
  unfold view requireProfile
  refine .bind (records_read (Q := fun r => ∀ revision, r = some revision →
    revision.state.val.taskId = row.taskId) fun w hl revision hr => ?_) fun r hr => ?_
  · have hid := List.find?_some hr
    simp only [decide_eq_true_eq] at hid
    exact (hl.numbered revision (List.mem_of_find?_eq_some hr)).task.trans hid.1
  · split
    · exact .throw
    · refine .bind (Q := fun _ => True) (.bind records_profileOf fun profile _ => ?_)
        fun profile _ => .pure (hr _ rfl)
      split
      · exact .pure trivial
      · exact .throw

theorem taskId_of_getTask {row : TaskRow} (h : s.getTask scope taskId = some row) :
    row.taskId = taskId := by
  have hid := List.find?_some h
  simp only [decide_eq_true_eq] at hid
  exact hid.1

/-- The task that is found is the one asked for. -/
theorem records_requireTask : Records (fun row => row.taskId = taskId) (requireTask scope taskId) := by
  unfold requireTask
  refine .bind (records_read (Q := fun r => ∀ row, r = some row → row.taskId = taskId)
    fun w _ row hr => taskId_of_getTask hr) fun r hr => ?_
  split
  · exact .pure (hr _ rfl)
  · exact .throw

/-- A lazy expiry that keeps the ledger, and reads back the row of the task. -/
def Retires (expire : AuthorityScope → TaskRow → Svc (Option TaskRow)) : Prop :=
  ∀ scope row, Records (fun r => ∀ row', r = some row' → row'.taskId = row.taskId)
    (expire scope row)

theorem records_refresh (hx : Retires expire) {row : TaskRow} :
    Records (fun row' => row'.taskId = row.taskId) (refresh expire scope row) := by
  refine .bind (hx scope row) fun expired hexpired => .pure ?_
  rcases expired with - | row'
  · rfl
  · exact hexpired row' rfl

/-- A lifecycle change keeps it, however expiry is handled. -/
theorem records_lifecycleVia (hx : Retires expire) {target : TaskLifecycle}
    {expiryRule : Option String} : Records (fun _ => True)
      (lifecycleVia expire H scope taskId target actor actorRole reason expiryRule) := by
  unfold lifecycleVia
  refine .bind records_require fun _ _ => .bind records_requireTask fun found hfound => ?_
  refine .bind (Q := fun row : TaskRow => row.taskId = taskId) ?_ fun row hrow => ?_
  · split
    · refine Prog.Keeps.mono (fun r hr row hrow => ?_) (records_refresh hx)
      exact (hr row hrow).trans hfound
    · exact .pure hfound
  · split
    · exact .throw
    · split
      · exact Prog.Keeps.mono (fun _ _ _ _ => trivial) records_view
      · refine .bind records_now fun t _ => .bind records_view fun v hv => ?_
        refine .bind records_lift fun next hnext => ?_
        have htask : next.val.taskId = taskId :=
          (congrArg TaskStateFields.taskId (lifecycleState_eq_ok hnext)).trans (hv.trans hrow)
        refine .bind (records_transaction fun s _ s' hl he => ledgered_lifecycleTx hl htask he)
          fun _ _ => .bind records_requireTask fun row' _ => ?_
        exact Prog.Keeps.mono (fun _ _ _ _ => trivial) records_view

/-- Expiry retires the task only. -/
theorem retires_expireIfDue : Retires (expireIfDue H) := by
  intro scope row
  unfold expireIfDue expiryStatus
  have hnone : Retires fun _ _ => pure none := fun _ _ => .pure fun _ hr => by cases hr
  refine .bind (.bind records_now fun t _ => .pure (Q := fun _ => True) trivial)
    fun status _ => ?_
  split
  · exact .pure fun _ hr => by cases hr
  · refine .bind (Q := fun _ => True) (.tryCatch (.bind (records_lifecycleVia hnone)
      fun _ _ => .pure trivial) fun e => ?_) fun _ _ => records_read fun w _ row' hr =>
        taskId_of_getTask hr
    split
    · exact .pure trivial
    · exact .throw

theorem records_lifecycle {target : TaskLifecycle} {expiryRule : Option String} :
    Records (fun _ => True)
      (lifecycle H scope taskId target actor actorRole reason expiryRule) :=
  records_lifecycleVia retires_expireIfDue

theorem records_complete :
    Records (fun _ => True) (complete H scope taskId actor actorRole reason) := by
  unfold complete
  refine .bind records_requireTask fun _ _ => .bind records_view fun _ _ => ?_
  refine .bind records_lift fun verdict _ => ?_
  split
  · exact records_lifecycle
  · exact .throw
  · exact .throw

theorem records_cancel : Records (fun _ => True) (cancel H scope taskId actor actorRole reason) := by
  unfold cancel
  split
  · exact .throw
  · exact records_lifecycle

/-- **`start`** keeps the ledger. -/
theorem records_start {request : TaskStartRequest} {items : List TaskItem} :
    Records (fun _ => True) (start H request items) := by
  have hview : ∀ row, Records (fun _ => True) (view row) := fun row =>
    Prog.Keeps.mono (fun _ _ _ _ => trivial) records_view
  unfold start
  refine .bind records_require fun _ _ => .bind records_query fun existing _ => ?_
  split
  · exact hview _
  · refine .bind records_profileOf fun profile _ => ?_
    split
    · exact .throw
    · refine .bind records_now fun t _ => .bind records_lift fun constraints _ => ?_
      refine .bind records_lift fun state hstate => ?_
      have hfields := make_eq_ok.mp hstate
      refine .bind (records_read (Q := fun _ => True) fun _ _ => trivial) fun clockSource _ => ?_
      refine .bind (records_transaction fun s task s' hl he => ?_) fun _ _ => hview _
      exact ledgered_startTx hl rfl rfl (congrArg TaskStateFields.taskId hfields)
        (congrArg TaskStateFields.revision hfields) he

/-- So does **`submit`**. -/
theorem records_submit {allowPrivileged : Bool} {stepKind : String} :
    Records (fun _ => True) (submit H proposal allowPrivileged stepKind) := by
  unfold submit
  refine .bind records_now fun started _ => .bind records_query fun found _ => ?_
  split
  · exact .throw
  · refine .bind records_query fun replayed _ => ?_
    split
    · unfold replay
      split
      · exact .throw
      · exact .ofExcept fun _ _ => trivial
    · refine .bind (Q := fun _ => True) ?_ fun row _ => .bind records_view fun v _ => ?_
      · split
        · exact .pure trivial
        · exact Prog.Keeps.mono (fun _ _ _ _ => trivial) (records_refresh retires_expireIfDue)
      · refine .bind records_now fun evaluatedAt _ => .bind records_lift fun decision he => ?_
        exact .bind records_now fun t _ => records_transaction fun s typed s' hl hrun =>
          ledgered_commitTx hl (fits_of_evaluate he) hrun

theorem records_correct : Records (fun _ => True) (correct H proposal reason) := by
  unfold correct
  refine .bind records_require fun _ _ => ?_
  split
  · exact .throw
  · exact .bind records_lift fun _ _ => records_submit

theorem records_get {expiring : Bool} :
    Records (fun _ => True) (TaskStateService.get H scope taskId expiring) := by
  unfold TaskStateService.get
  refine .bind records_requireTask fun found _ => .bind (Q := fun _ => True) ?_ fun row _ => ?_
  · split
    · exact Prog.Keeps.mono (fun _ _ _ _ => trivial) (records_refresh retires_expireIfDue)
    · exact .pure trivial
  · exact Prog.Keeps.mono (fun _ _ _ _ => trivial) records_view

theorem records_scopeOf {row : TaskRow} : Records (fun _ => True) (scopeOf row) :=
  .ofExcept fun _ _ => trivial

theorem records_refreshAll {rows : List TaskRow} :
    Records (fun _ => True) (refreshAll H rows) := by
  induction rows with
  | nil => exact .pure trivial
  | cons found rows ih =>
    unfold refreshAll
    refine .bind (Q := fun _ => True) ?_ fun _ _ => .bind ih fun _ _ => .pure trivial
    split
    · exact .pure trivial
    · refine .bind records_scopeOf fun _ _ => ?_
      exact Prog.Keeps.mono (fun _ _ _ _ => trivial) (records_refresh retires_expireIfDue)

theorem records_list {found : Option AuthorityScope} {lifecycles : Option (List String)}
    {cursor : Option String} {limit : Int} {expiring : Bool} :
    Records (fun _ => True)
      (TaskStateService.list H found lifecycles cursor limit expiring) := by
  unfold TaskStateService.list
  refine .bind records_query fun rows _ => .bind (Q := fun _ => True) ?_ fun rows' _ => ?_
  · split
    · exact records_refreshAll
    · exact .pure trivial
  · refine .bind (Q := fun _ => True) ?_ fun _ _ => .pure trivial
    unfold nextCursor
    split
    · split
      · exact .pure trivial
      · exact .throw
    · exact .pure trivial

theorem records_expireIfDue {row : TaskRow} : Records (fun _ => True) (expireIfDue H scope row) :=
  Prog.Keeps.mono (fun _ _ _ _ => trivial) (retires_expireIfDue scope row)

theorem records_evaluateExpiry : Records (fun _ => True) (evaluateExpiry H scope taskId) := by
  unfold evaluateExpiry
  refine .bind records_query fun row _ => ?_
  split
  · exact .pure trivial
  · exact records_expireIfDue

theorem records_expireAll {rows : List TaskRow} : Records (fun _ => True) (expireAll H rows) := by
  induction rows with
  | nil => exact .pure trivial
  | cons row rows ih =>
    unfold expireAll
    refine .bind records_scopeOf fun _ _ => .bind records_expireIfDue fun _ _ => ?_
    exact .bind ih fun _ _ => .pure trivial

theorem records_scanForExpiry {limit : Int} :
    Records (fun _ => True) (scanForExpiry H limit) := by
  unfold scanForExpiry
  refine .bind records_query fun _ _ => .bind records_expireAll fun _ _ => ?_
  exact .bind records_now fun _ _ => .pure trivial

/-- So does **`forget`**. -/
theorem records_forget : Records (fun _ => True) (forget H scope taskId actor actorRole) := by
  unfold forget
  refine .bind records_require fun _ _ => .bind records_requireTask fun row _ => ?_
  refine .bind records_query fun revisions _ => .bind records_query fun found _ => ?_
  refine .bind (Q := fun _ => True) ?_ fun _ _ => .bind records_now fun _ _ => .pure trivial
  split
  · exact records_transaction fun s _ s' hl he => ledgered_deleteTask hl taskId he
  · exact .pure trivial

/-- **Every call keeps the ledger.** -/
theorem records_body (k : Call) : Records (fun _ => True) (k.body H) := by
  have hanswer : ∀ {β : Type} {f : β → Answer} {x : Svc β}, Records (fun _ => True) x →
      Records (fun _ => True) (answer f x) := fun hx => .bind hx fun _ _ => .pure trivial
  cases k with
  | start request items => exact hanswer records_start
  | submit proposal allowPrivileged stepKind => exact hanswer records_submit
  | correct proposal reason => exact hanswer records_correct
  | pause | resume => exact hanswer records_lifecycle
  | complete => exact hanswer records_complete
  | cancel => exact hanswer records_cancel
  | get => exact hanswer records_get
  | list => exact hanswer records_list
  | evaluateExpiry => exact hanswer records_evaluateExpiry
  | scanForExpiry => exact hanswer records_scanForExpiry
  | forget => exact hanswer records_forget

end Methods

/-- A fresh store has a ledger. -/
theorem Fresh.ledgered {w : World} (hw : Fresh w) : Ledgered w.store := by
  constructor
  · rw [hw.revisions]
    exact fun _ hr => absurd hr List.not_mem_nil
  · rw [hw.steps]
    exact fun _ hr => absurd hr List.not_mem_nil
  · rw [hw.steps]
    exact fun _ hr => absurd hr List.not_mem_nil
  · rw [hw.tasks]
    exact fun _ hr => absurd hr List.not_mem_nil

/-- **The ledger accounts for the last progress**, over any run of any
calls. -/
theorem Visits.ledgered {allowed : Call → Prop} {w : World} {c : System}
    (hv : Visits H allowed w c) : Ledgered c.time.now.store := by
  have hgood : Keeping (fun _ _ _ => True) (fun w : World => Ledgered w.store)
      (fun _ _ w' => Ledgered w'.store) (fun _ => True) (Config.initial w : System) :=
    keeping_initial hv.1.ledgered
  have hbody : ∀ k, allowed k → (k.body H).Keeps (fun _ _ => True)
      (fun w : World => Ledgered w.store) (fun _ w' => Ledgered w'.store) fun _ => True :=
    fun k _ => records_body k
  have hrun : Keeping (fun _ _ _ => True) (fun w : World => Ledgered w.store)
      (fun _ _ w' => Ledgered w'.store) (fun _ => True) c :=
    hgood.run (fun _ _ _ _ h => h) (fun k hk => Prog.Keeps.mono (fun _ _ => trivial) (hbody k hk))
      (hv.2.lift id fun _ _ hs => hs.granted)
  exact hrun.1

end Atmem
