import Atmem.TaskState.Helpers.Statements
/-!
# The three transactions, taken apart

A start, a lifecycle change and a committed step, each run against a
store that may have moved since the call read it. A lifecycle change or
an accepted step goes through exactly where the cell is still the one
that was read; otherwise the first raises and the second is recorded as a
conflict.
-/

namespace Atmem

open Transactional Relational Checked Interleaving

variable {s s' : Store} {E : Setting} {h : Timeline World} {c cNow : Cell} {taskId : String}
variable {base : RevisionRow} {next : TaskState} {now : Instant}

theorem hasTask_of_cell (hc : s.cell taskId = some c) : s.hasTask taskId = true :=
  hasTask_iff.mpr ⟨c, hc⟩

/-- The head a reader saw numbers the snapshot it computed from. -/
theorem head_state_revision (hc : c.Chained E h) (hbase : c.head? = some base) :
    base.state.val.revision = c.row.headRevision ∧ base.state.val.taskId = c.row.taskId ∧
      base.state.val.lifecycle = c.row.lifecycle ∧
      base.state.val.scope.val = c.row.scopeFields := by
  obtain ⟨base', hb, hrev, hlife, htask, hscope⟩ := hc.head
  obtain rfl := Option.some.inj (hbase.symm.trans hb)
  exact ⟨(hc.stored _ (List.mem_of_getLast? hb)).trans hrev, htask, hlife, hscope⟩

/-- **The compare-and-swap.** A successor of the head that was read is
inserted exactly where the cell has not moved. -/
theorem insertTaskRevision_successor (hc : c.Chained E h) (hadv : Advances E h c cNow)
    (hcell : s.cell taskId = some cNow) (row : RevisionRow) (hid : row.taskId = taskId)
    (hrev : row.revision = c.row.headRevision + 1)
    (hparent : row.parentRevision = some c.row.headRevision) :
    (cNow = c ∧ ∃ revisions, s.revisions.insert row = some revisions ∧
      exec (insertTaskRevision row) s = (.ok (), { s with revisions })) ∨
    (cNow ≠ c ∧ exec (insertTaskRevision row) s = (.error .integrityError, s)) := by
  have hiff := insert_successor (hadv.chained hc) hcell hid hrev hparent hadv.headRevision_le
  have hexec := exec_insertTaskRevision (s := s) row
  rw [hid, hasTask_of_cell hcell, if_pos rfl] at hexec
  rcases hi : s.revisions.insert row with - | revisions
  · rw [hi] at hexec
    refine Or.inr ⟨?_, hexec⟩
    rintro rfl
    obtain ⟨revisions, hsome⟩ := hiff.mpr rfl
    rw [hi] at hsome
    cases hsome
  · rw [hi] at hexec
    exact Or.inl ⟨hadv.eq_of_headRevision_eq (hiff.mp ⟨revisions, hi⟩), revisions, rfl, hexec⟩

/-- The guarded update, where the head is the expected one. -/
theorem advanceTaskHead_true (revisions : RevisionTable) (change : HeadChange) (newHead : ℕ)
    (hcell : s.cell taskId = some c) :
    exec (advanceTaskHead taskId c.row.headRevision newHead change) { s with revisions } =
      (.ok true, ({ s with revisions } : Store).advanced taskId c.row.headRevision newHead
        change) := by
  rw [exec_advanceTaskHead]
  have hcount : ({ s with revisions } : Store).tasks.rows.countP
      (guarded taskId c.row.headRevision) = 1 := (countP_guarded hcell :)
  rw [hcount]
  rfl

/-! ## Lifecycle -/

/-- **A lifecycle change goes through exactly where the cell has not
moved.** -/
theorem exec_lifecycleTx (hc : c.Chained E h) (hadv : Advances E h c cNow)
    (hcell : s.cell taskId = some cNow) (hid : c.row.taskId = taskId)
    (hbase : c.head? = some base) {target : TaskLifecycle} {actor reason : String}
    {actorRole : ActorRole} {expiryRule : Option String}
    (hnext : lifecycleState base.state target now = .ok next)
    (hm : Moves E h c
      ⟨(lifecycleChange c.row target reason now).assign next.val.revision c.row,
        c.revisions ++ [revisionRow E.hashing next actor actorRole [.lifecycleChangeAccepted]
          (policyRule expiryRule) now false]⟩) :
    (cNow = c ∧ ∃ s₁, exec (lifecycleTx E.hashing taskId c.row base.state next target actor
        actorRole reason expiryRule now) s = (.ok (), s₁) ∧ StoreStep E h s s₁ ∧
      s₁.cell taskId = some
        ⟨(lifecycleChange c.row target reason now).assign next.val.revision c.row,
          c.revisions ++ [revisionRow E.hashing next actor actorRole [.lifecycleChangeAccepted]
            (policyRule expiryRule) now false]⟩ ∧
      s₁.proposals = s.proposals) ∨
    (cNow ≠ c ∧ exec (lifecycleTx E.hashing taskId c.row base.state next target actor actorRole
      reason expiryRule now) s = (.error .integrityError, s)) := by
  obtain ⟨hrev, htask, -, -⟩ := head_state_revision hc hbase
  have hv := lifecycleState_eq_ok hnext
  have hnid : next.val.taskId = taskId :=
    (congrArg TaskStateFields.taskId hv).trans (htask.trans hid)
  have hnrev : next.val.revision = c.row.headRevision + 1 :=
    (congrArg TaskStateFields.revision hv).trans (congrArg (· + 1) hrev)
  have hnparent : next.val.parentRevision = some c.row.headRevision :=
    (congrArg TaskStateFields.parentRevision hv).trans (congrArg some hrev)
  rcases insertTaskRevision_successor hc hadv hcell
    (revisionRow E.hashing next actor actorRole [.lifecycleChangeAccepted]
      (policyRule expiryRule) now false) hnid hnrev hnparent with
    ⟨rfl, revisions, hi, hexec⟩ | ⟨hne, hexec⟩
  · -- the cell has not moved: the revision is its successor
    refine Or.inl ⟨rfl, ?_⟩
    have hstep := StoreStep.advance (lifecycleChange cNow.row target reason now)
      next.val.revision hcell hnid hi hm
    have hcells := cell_advanced (lifecycleChange cNow.row target reason now) next.val.revision
      hcell hnid hi taskId
    rw [if_pos rfl] at hcells
    have hhas : (({ s with revisions } : Store).advanced taskId cNow.row.headRevision
        next.val.revision (lifecycleChange cNow.row target reason now)).hasTask taskId = true :=
      hasTask_of_cell hcells
    unfold lifecycleTx
    rw [exec_bind_ok hexec, hrev,
      exec_bind_ok (advanceTaskHead_true _ _ _ hcell)]
    simp only [Bool.not_true, Bool.false_eq_true, if_false]
    rw [exec_bind, exec_insertTaskProvenance, if_pos hhas]
    exact ⟨_, (exec_insertTaskStep ..).trans (if_pos hhas), hstep.append rfl rfl (List.prefix_refl _) (List.prefix_append _ _)
      (List.prefix_append _ _) rfl rfl rfl, hcells, rfl⟩
  · -- it has, and the number is taken
    refine Or.inr ⟨hne, ?_⟩
    unfold lifecycleTx
    rw [exec_bind_error hexec]

/-! ## Start -/

/-- **A start that goes through leaves one new cell.** -/
theorem startTx_ok {request : TaskStartRequest} {items : List TaskItem} {row task : TaskRow}
    {state : TaskState} (howned : ∀ r ∈ s.revisions.rows, ∃ c, s.cell r.taskId = some c)
    (hid : row.taskId = request.val.taskId) (htask : state.val.taskId = request.val.taskId)
    (hs : Started E h ⟨row, [revisionRow E.hashing state request.val.actor request.val.actorRole
      [.lifecycleChangeAccepted] (request.val.evidence.map EvidenceRef.toDict) now false]⟩)
    (he : exec (startTx E.hashing request items row state now) s = (.ok task, s')) :
    StoreStep E h s s' ∧ task ∈ s'.tasks.rows := by
  unfold startTx at he
  obtain ⟨stored, s₁, h₁, he⟩ := exec_bind_eq_ok.mp he
  obtain ⟨tasks, hi, rfl, hget⟩ := exec_insertTask_ok.mp h₁
  obtain ⟨stored', hcell, rfl, -⟩ := getTask_eq_some.mp hget
  obtain ⟨⟨⟩, s₂, h₂, he⟩ := exec_bind_eq_ok.mp he
  -- the task is new: no revision names it
  have hfresh : ∀ r ∈ s.revisions.rows, r.taskId ≠ row.taskId := fun r hr heq => by
    obtain ⟨c, hc⟩ := howned r hr
    obtain ⟨hm, hct, -⟩ := cell_eq_some.mp hc
    have := (Table.insert_eq_some.mp hi).1 c.row hm
    simp [taskClash, TaskRow.key, hct, heq] at this
  have hnew : s.cell row.taskId = none := cell_eq_none.mpr fun r hr heq => by
    have := (Table.insert_eq_some.mp hi).1 r hr
    simp [taskClash, TaskRow.key, heq] at this
  rw [exec_insertTaskRevision] at h₂
  split at h₂
  · rename_i revisions hrevs
    cases h₂
    split at hrevs
    · have hcells := cell_started hi hrevs (htask.trans hid.symm) hfresh
      have hstep : StoreStep E h s { s with tasks, revisions } := by
        refine ⟨fun id => ?_, fun r hr => ?_, List.prefix_refl _, List.prefix_refl _,
          List.prefix_refl _, rfl, rfl, rfl⟩
        · rw [hcells id]
          split
          · rename_i heq
            rw [heq, hnew]
            exact .start hs
          · exact .same _
        · rcases List.mem_append.mp
            ((congrArg (r ∈ ·) (Table.insert_eq_some.mp hrevs).2).mp hr) with hr | hr
          · exact Or.inl hr
          · refine Or.inr ⟨_, (hcells r.taskId).trans (if_pos ?_)⟩
            rw [List.mem_singleton.mp hr]
            exact htask.trans hid.symm
      have hhas : ({ s with tasks, revisions } : Store).hasTask request.val.taskId = true :=
        hasTask_of_cell ((hcells _).trans (if_pos hid.symm))
      obtain ⟨⟨⟩, s₃, h₃, he⟩ := exec_bind_eq_ok.mp he
      rw [exec_insertTaskProvenance, if_pos hhas] at h₃
      cases h₃
      obtain ⟨⟨⟩, s₄, h₄, he⟩ := exec_bind_eq_ok.mp he
      rw [exec_forM_provenance fun _ _ => hhas] at h₄
      cases h₄
      obtain ⟨⟨⟩, s₅, h₅, he⟩ := exec_bind_eq_ok.mp he
      rw [(exec_insertTaskStep _).trans (if_pos hhas)] at h₅
      cases h₅
      cases he
      exact ⟨hstep.append rfl rfl (List.prefix_refl _) (List.prefix_append _ _)
        ((List.prefix_append _ _).trans (List.prefix_append _ _)) rfl rfl rfl,
        (cell_eq_some.mp hcell).1⟩
    · cases hrevs
  · cases h₂

/-! ## Commit -/

/-- What the head part of a commit comes to: nothing was accepted; another
writer was first; or the cell advanced. -/
inductive Resolved (E : Setting) (h : Timeline World) (c cNow : Cell) (s : Store)
    (proposal : TaskStateProposal) (base : RevisionRow) (decision : PolicyDecision)
    (now : Instant) : Resolution → Store → Prop
  | refused (ha : decision.accepted = false) :
      Resolved E h c cNow s proposal base decision now
        { outcome := decision.outcome
          decision
          resultingRevision :=
            if decision.outcome = .noChange then some base.state.val.revision else none } s
  | conflict (ha : decision.accepted = true) (hne : cNow ≠ c) :
      Resolved E h c cNow s proposal base decision now
        { outcome := .conflict
          decision := { outcome := .conflict, reasonCodes := [.concurrentSuccessorCommitted] }
          resultingRevision := none } s
  | committed {next : TaskState} {s₁ : Store} (ha : decision.accepted = true)
      (hn : decision.nextState = some next) (heq : cNow = c) (hstep : StoreStep E h s s₁)
      (hproposals : s₁.proposals = s.proposals) (hsteps : s₁.steps = s.steps) :
      Resolved E h c cNow s proposal base decision now
        { outcome := decision.outcome, decision, resultingRevision := some next.val.revision } s₁

/-- However it came out, it was one step of the store, which left the
ledgers of proposals and steps alone. -/
theorem Resolved.storeStep {proposal : TaskStateProposal} {decision : PolicyDecision}
    {resolution : Resolution} {s₁ : Store}
    (hr : Resolved E h c cNow s proposal base decision now resolution s₁) :
    StoreStep E h s s₁ ∧ s₁.proposals = s.proposals ∧ s₁.steps = s.steps := by
  cases hr with
  | refused => exact ⟨.refl E h s, rfl, rfl⟩
  | conflict => exact ⟨.refl E h s, rfl, rfl⟩
  | committed _ _ _ hstep hproposals hsteps => exact ⟨hstep, hproposals, hsteps⟩

/-- The advance an accepted proposal makes of the cell it was evaluated
on. -/
theorem Advance.of_commit {profile : TaskProfile} {proposal : TaskStateProposal}
    {nowIso : String} {allowPrivileged : Bool} {decision : PolicyDecision}
    (hbase : c.head? = some base) (hprofile : E.profile c.row.profileVersion = some profile)
    (he : evaluate E.hashing base.state profile proposal nowIso none allowPrivileged = .ok decision)
    (ha : decision.accepted = true) (hn : decision.nextState = some next) (hread : Reading h now)
    (hnow : Monotone E.clock → base.createdAtUtc ≤ now) :
    Advance E h c ⟨HeadChange.assign
      { updatedAtUtc := now, lastProgressAtUtc := if decision.isProgress then some now else none }
      next.val.revision c.row, c.revisions ++ [revisionRow E.hashing next proposal.val.actor
        proposal.val.actorRole decision.reasonCodes
        (proposal.val.evidence.map EvidenceRef.toDict) now decision.isProgress]⟩ :=
  .commit hbase hprofile he ha hn hread hnow rfl rfl

/-- The values a transition's provenance names are of the proposal's
task. -/
theorem taskId_of_transitionProvenance {proposal : TaskStateProposal} {revision : ℕ}
    {previous current : TaskState} {row : ProvenanceRow}
    (hr : row ∈ transitionProvenance proposal revision previous current now) :
    row.taskId = proposal.val.taskId := by
  simp only [transitionProvenance, List.mem_cons, List.mem_append, List.mem_filterMap] at hr
  rcases hr with rfl | (hr | ⟨item, -, hr⟩) | ⟨constraint, -, hr⟩
  · rfl
  · split at hr
    · rw [List.mem_singleton.mp hr]
      rfl
    · cases hr
  · split at hr
    · cases hr
      rfl
    · cases hr
  · split at hr
    · cases hr
      rfl
    · cases hr

/-- **The head part of a commit never raises**, and an accepted proposal
goes through exactly where the cell has not moved. -/
theorem exec_resolve (hc : c.Chained E h) (hadv : Advances E h c cNow)
    (hcell : s.cell taskId = some cNow) (hid : c.row.taskId = taskId)
    (hbase : c.head? = some base) {profile : TaskProfile}
    (hprofile : E.profile c.row.profileVersion = some profile) {proposal : TaskStateProposal}
    {nowIso : String} {allowPrivileged : Bool} {decision : PolicyDecision}
    (he : evaluate E.hashing base.state profile proposal nowIso none allowPrivileged = .ok decision)
    (htask : proposal.val.taskId = taskId) (hread : Reading h now)
    (hnow : Monotone E.clock → base.createdAtUtc ≤ now) {view : TaskView}
    (hview : view.state = base.state) :
    ∃ resolution s₁, exec (resolve E.hashing proposal view decision now) s =
        (.ok resolution, s₁) ∧
      Resolved E h c cNow s proposal base decision now resolution s₁ := by
  unfold resolve
  rw [hview]
  split
  · rename_i ha
    obtain ⟨next, hacc⟩ := acceptance_of_evaluate he ha
    obtain ⟨hrev, hbtask, -, -⟩ := head_state_revision hc hbase
    have hv := (applyOperations_eq_ok hacc.applied).2
    have hnid : next.val.taskId = taskId :=
      (congrArg TaskStateFields.taskId hv :).trans (hbtask.trans hid)
    have hnrev : next.val.revision = c.row.headRevision + 1 :=
      (congrArg TaskStateFields.revision hv :).trans (congrArg (· + 1) hrev)
    have hnparent : next.val.parentRevision = some c.row.headRevision :=
      (congrArg TaskStateFields.parentRevision hv :).trans (congrArg some hrev)
    have hm : Moves E h c _ :=
      ⟨hc, .of_commit hbase hprofile he ha hacc.nextState hread hnow⟩
    rw [hacc.nextState]
    simp only
    rcases insertTaskRevision_successor hc hadv hcell
      (revisionRow E.hashing next proposal.val.actor proposal.val.actorRole
        decision.reasonCodes (proposal.val.evidence.map EvidenceRef.toDict) now
        decision.isProgress) hnid hnrev hnparent with
      ⟨rfl, revisions, hi, hexec⟩ | ⟨hne, hexec⟩
    · -- the cell has not moved
      let change : HeadChange :=
        { updatedAtUtc := now
          lastProgressAtUtc := if decision.isProgress then some now else none }
      have hcells := cell_advanced change next.val.revision hcell hnid hi taskId
      rw [if_pos rfl] at hcells
      have hhas : (({ s with revisions } : Store).advanced taskId cNow.row.headRevision
          next.val.revision change).hasTask taskId = true := hasTask_of_cell hcells
      have hadvanced := advanceTaskHead_true revisions change next.val.revision hcell
      rw [exec_bind, exec_tryCatch, hrev, htask, (exec_bind_ok hexec).trans hadvanced]
      simp only [Bool.not_true, Bool.false_eq_true, if_false]
      refine ⟨_, _, exec_bind_ok (exec_forM_provenance (f := id) fun row hr => ?_),
        .committed ha hacc.nextState rfl ((StoreStep.advance change _ hcell hnid hi hm).append rfl rfl
          (List.prefix_refl _) (List.prefix_refl _) (List.prefix_append _ _) rfl rfl rfl) rfl rfl⟩
      rw [id, taskId_of_transitionProvenance hr, htask]
      exact hhas
    · -- it has: the commit meets a conflict
      refine ⟨_, _, ?_, .conflict ha hne⟩
      rw [exec_bind, exec_tryCatch, exec_bind_error hexec]
      rfl
  · rename_i ha
    exact ⟨_, _, rfl, .refused (Bool.eq_false_iff.mpr ha)⟩

/-- **A commit, once resolved**: the decision is built, and the proposal
and its step are recorded together. -/
theorem exec_commitTx {proposal : TaskStateProposal} {view : TaskView} {decision : PolicyDecision}
    {stepKind : String} {started : Instant} {resolution : Resolution} {s₁ : Store}
    (hr : exec (resolve E.hashing proposal view decision now) s = (.ok resolution, s₁))
    (hhas : s₁.hasTask proposal.val.taskId = true) :
    exec (commitTx E.hashing proposal view decision stepKind started now) s =
      match TransitionDecision.make (typedDecision E.hashing proposal resolution now) with
      | .error message => (.error (.valueError message), s₁)
      | .ok typed =>
        match s₁.proposals.insert (proposalRow E.hashing proposal typed resolution.outcome
          resolution.resultingRevision now) with
        | none => (.error (proposalIdTaken proposal), s₁)
        | some proposals => (.ok typed, { s₁ with
            proposals
            steps := s₁.steps ++ [commitStep proposal resolution stepKind started now
              (s₁.nextStepSequence proposal.val.taskId)] }) := by
  unfold commitTx
  rw [exec_bind_ok hr]
  rcases TransitionDecision.make (typedDecision E.hashing proposal resolution now) with
    message | typed
  · rfl
  · have hmade : exec (liftTx (.ok typed)) s₁ = (.ok typed, s₁) := rfl
    rw [exec_bind_ok hmade, exec_bind, exec_tryCatch, exec_insertTaskProposal]
    dsimp only
    rcases s₁.proposals.insert (proposalRow E.hashing proposal typed resolution.outcome
      resolution.resultingRevision now) with - | proposals
    · rfl
    · have hhas' : ({ s₁ with proposals } : Store).hasTask proposal.val.taskId = true := hhas
      exact exec_bind_ok ((exec_insertTaskStep _).trans (if_pos hhas'))

end Atmem
