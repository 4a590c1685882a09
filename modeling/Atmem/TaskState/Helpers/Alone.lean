import Atmem.TaskState.Helpers.Apply
import Atmem.TaskState.Helpers.Runs
/-!
# A call with nobody in between

What the reads of a call find, what its transaction makes of the cell it has
read, and from the two what a lifecycle change and a lazy expiry leave behind
that run to their end alone.
-/

namespace Atmem

open Transactional Relational Checked Interleaving

variable {H : Hashing} {E : Setting} {h : Timeline World} {s s' : Store} {w w' : World} {c : Cell}
variable {taskId : String} {base : RevisionRow} {next : TaskState} {target : TaskLifecycle}
variable {scope : AuthorityScope} {now : Instant}

/-! ## Reads -/

/-- `ProfileRegistry.get`, of a store. -/
def Store.profileOf (s : Store) (version : String) : Option TaskProfile :=
  (builtInProfile version).or ((s.getTaskProfile version).map (·.profile))

/-- The profile is read. -/
theorem exec_profileOf (version : String) :
    (Atmem.profileOf version).exec w = (.ok (w.store.profileOf version), w) := by
  unfold Atmem.profileOf Store.profileOf
  rcases builtInProfile version with - | profile <;> rfl

/-- The view of a row, as far as the store decides it. -/
def Store.viewOf (s : Store) (row : TaskRow) : Except Raised TaskView :=
  match s.getTaskRevision row.taskId row.headRevision with
  | none => .error (.assertionError "a task always has its head revision stored")
  | some revision =>
    match s.profileOf row.profileVersion with
    | none => .error (.valueError ("unknown task profile version: " ++ repr row.profileVersion))
    | some profile => .ok
      { task := row, state := revision.state, profile, summary := summarize revision.state profile }

/-- The view is read. -/
theorem exec_view (row : TaskRow) : (view row).exec w = (w.store.viewOf row, w) := by
  unfold view Store.viewOf requireProfile query
  rw [Eff.exec_bind, Eff.exec_read]
  dsimp only
  rcases w.store.getTaskRevision row.taskId row.headRevision with - | revision
  · rfl
  · dsimp only
    rw [Eff.exec_bind, Eff.exec_bind, exec_profileOf]
    dsimp only
    rcases w.store.profileOf row.profileVersion with - | profile <;> rfl

/-- The clock was read once. -/
def World.ticked (w : World) : World := { w with ticks := w.ticks + 1 }

theorem exec_now : Atmem.now.exec w = (.ok (w.clock w.ticks), w.ticked) := rfl

/-- A cell that stands in a store, under a profile the store knows. -/
structure Stands (E : Setting) (h : Timeline World) (s : Store) (taskId : String) (c : Cell) :
    Prop where
  chained : c.Chained E h
  cell : s.cell taskId = some c
  profile : ∃ profile, s.profileOf c.row.profileVersion = some profile

theorem Stands.named (hst : Stands E h s taskId c) : c.row.taskId = taskId :=
  (cell_eq_some.mp hst.cell).2.1

theorem profileOf_eq (version : String) : s.profileOf version = s.profile version := by
  unfold Store.profileOf Store.profile
  rcases builtInProfile version with - | profile <;> rfl

/-- What a run holds stands in its store. -/
theorem Kept.stands (hk : Kept E h) (hc : h.now.store.cell taskId = some c) :
    Stands E h h.now.store taskId c := by
  have hchained := (hk.grown taskId c hc).chained
  obtain ⟨profile, hp⟩ := hchained.profile
  exact ⟨hchained, hc, profile, by rw [profileOf_eq, hk.profile, hp]⟩

/-- A cell that may be advanced: the snapshot at its head is stored, under a
profile the store knows, and no successor of it. -/
structure Ready (s : Store) (taskId : String) (c : Cell) (base : RevisionRow) : Prop where
  cell : s.cell taskId = some c
  head : s.getTaskRevision taskId c.row.headRevision = some base
  task : base.state.val.taskId = taskId
  revision : base.state.val.revision = c.row.headRevision
  free : ∀ r ∈ c.revisions, r.revision ≠ c.row.headRevision + 1 ∧
    r.parentRevision ≠ some c.row.headRevision
  profile : ∃ profile, s.profileOf c.row.profileVersion = some profile

theorem Ready.named (hr : Ready s taskId c base) : c.row.taskId = taskId :=
  (cell_eq_some.mp hr.cell).2.1

/-- What stands in a store may be advanced. -/
theorem Stands.ready (hst : Stands E h s taskId c) : ∃ base, Ready s taskId c base := by
  obtain ⟨base, hb, hget⟩ := getTaskRevision_head hst.chained .refl hst.cell
  obtain ⟨hrev, htask, -, -⟩ := head_state_revision hst.chained hb
  refine ⟨base, hst.cell, hget, htask.trans hst.named, hrev, fun r hr => ⟨fun heq => ?_,
    hst.chained.parent_ne hr⟩, hst.profile⟩
  have hle := (hst.chained.mem_revision.mp ⟨r, hr, rfl⟩).2
  omega

/-- The view of a cell is the snapshot at its head. -/
theorem Ready.viewOf (hr : Ready s taskId c base) :
    ∃ v, s.viewOf c.row = .ok v ∧ v.state = base.state := by
  obtain ⟨profile, hp⟩ := hr.profile
  have hget := hr.head
  rw [← hr.named] at hget
  refine ⟨⟨c.row, base.state, profile, summarize base.state profile⟩, ?_, rfl⟩
  simp only [Store.viewOf, hget, hp]

/-- Its successor is inserted. -/
theorem Ready.insert (hr : Ready s taskId c base) (row : RevisionRow) (hid : row.taskId = taskId)
    (hrev : row.revision = c.row.headRevision + 1)
    (hparent : row.parentRevision = some c.row.headRevision) :
    ∃ revisions, s.revisions.insert row = some revisions ∧
      exec (insertTaskRevision row) s = (.ok (), { s with revisions }) := by
  have hfresh : ∀ r ∈ s.revisions.rows, revisionClash r.key row.key = false := fun r hmem => by
    by_cases ht : r.taskId = taskId
    · have hmine : r ∈ c.revisions := by
        rw [(cell_eq_some.mp hr.cell).2.2]
        exact List.mem_filter.mpr ⟨hmem, decide_eq_true ht⟩
      obtain ⟨hnumber, hsuccessor⟩ := hr.free r hmine
      simp [revisionClash, RevisionRow.key, hrev, hparent, hnumber, hsuccessor]
    · simp [revisionClash, RevisionRow.key, hid, ht]
  obtain ⟨revisions, hi, -⟩ := Table.insert_of_fresh hfresh
  refine ⟨revisions, hi, ?_⟩
  rw [exec_insertTaskRevision, hid, hasTask_of_cell hr.cell, if_pos rfl, hi]

/-- A task of the scope is found. -/
theorem exec_requireTask (hc : w.store.cell taskId = some c)
    (hscope : c.row.scopeFields = scope.val) :
    (requireTask scope taskId).exec w = (.ok c.row, w) := by
  have hget : w.store.getTask scope taskId = some c.row := getTask_eq_some.mpr ⟨c, hc, rfl, hscope⟩
  unfold requireTask query
  rw [Eff.exec_bind, Eff.exec_read]
  simp only [hget, Eff.exec_pure]

/-- A scope that can be named is made. -/
theorem exec_scopeOf {row : TaskRow} (hrow : row.scopeFields.postInit = .ok ()) :
    (scopeOf row).exec w = (.ok ⟨row.scopeFields, hrow⟩, w) := by
  have hmake : AuthorityScope.make row.scopeFields = .ok ⟨row.scopeFields, hrow⟩ := make_of_ok hrow
  change (lift (AuthorityScope.make row.scopeFields)).exec w = _
  rw [hmake]
  rfl

/-! ## The transaction -/

/-- A transaction that raises, alone. -/
theorem exec_transaction_error {α : Type} {body : Tx α} {e : Raised}
    (h : (exec body w.store).1 = .error e) : (transaction body).exec w = (.error e, w) := by
  rw [transaction, Eff.exec_action]
  unfold exec at h
  rcases hrun : body.run.run w.store with ⟨e' | a, s₁⟩
  · rw [hrun] at h
    cases h
    rfl
  · rw [hrun] at h
    cases h

/-- A transaction that commits, alone. -/
theorem exec_transaction_ok {α : Type} {body : Tx α} {a : α}
    (h : exec body w.store = (.ok a, s')) :
    (transaction body).exec w = (.ok a, { w with store := s' }) := by
  rw [transaction, Eff.exec_action]
  unfold exec at h
  rw [h]

/-- The cell a lifecycle change leaves. -/
def Cell.changed (H : Hashing) (c : Cell) (next : TaskState) (target : TaskLifecycle)
    (actor : String) (actorRole : ActorRole) (reason : String) (expiryRule : Option String)
    (now : Instant) : Cell :=
  ⟨(lifecycleChange c.row target reason now).assign next.val.revision c.row,
    c.revisions ++ [revisionRow H next actor actorRole [.lifecycleChangeAccepted]
      (policyRule expiryRule) now false]⟩

/-- **The transaction of a lifecycle change**, on the cell that was read. -/
theorem exec_lifecycleTx_alone (actor : String) (actorRole : ActorRole) (reason : String)
    (expiryRule : Option String) (hr : Ready s taskId c base)
    (hnext : lifecycleState base.state target now = .ok next) :
    ∃ s', exec (lifecycleTx H taskId c.row base.state next target actor actorRole reason
        expiryRule now) s = (.ok (), s') ∧
      s'.cell taskId =
        some (c.changed H next target actor actorRole reason expiryRule now) ∧
      (∀ id, id ≠ taskId → s'.cell id = s.cell id) ∧ s'.profiles = s.profiles := by
  have hv := lifecycleState_eq_ok hnext
  have hnid : next.val.taskId = taskId := (congrArg TaskStateFields.taskId hv).trans hr.task
  have hnrev : next.val.revision = c.row.headRevision + 1 :=
    (congrArg TaskStateFields.revision hv).trans (congrArg (· + 1) hr.revision)
  have hnparent : next.val.parentRevision = some c.row.headRevision :=
    (congrArg TaskStateFields.parentRevision hv).trans (congrArg some hr.revision)
  obtain ⟨revisions, hi, hexec⟩ := hr.insert (revisionRow H next actor actorRole
    [.lifecycleChangeAccepted] (policyRule expiryRule) now false) hnid hnrev hnparent
  have hcells := cell_advanced (lifecycleChange c.row target reason now) next.val.revision
    hr.cell hnid hi
  have hself := hcells taskId
  rw [if_pos rfl] at hself
  have hhas : (({ s with revisions } : Store).advanced taskId c.row.headRevision
      next.val.revision (lifecycleChange c.row target reason now)).hasTask taskId = true :=
    hasTask_of_cell hself
  unfold lifecycleTx
  rw [exec_bind_ok hexec, hr.revision, exec_bind_ok (advanceTaskHead_true _ _ _ hr.cell)]
  simp only [Bool.not_true, Bool.false_eq_true, if_false]
  rw [exec_bind, exec_insertTaskProvenance, if_pos hhas]
  refine ⟨_, (exec_insertTaskStep ..).trans (if_pos hhas), hself, fun id hne => ?_, rfl⟩
  exact (hcells id).trans (if_neg hne)

/-- A snapshot changes its lifecycle. -/
theorem exists_lifecycleState (state : TaskState) (target : TaskLifecycle) (now : Instant) :
    ∃ next, lifecycleState state target now = .ok next := by
  obtain ⟨hid, -, hfit⟩ := taskState_postInit_eq_ok.mp state.2
  have hcheck : ({ state.val with
      revision := state.val.revision + 1
      parentRevision := some state.val.revision
      lifecycle := target
      updatedAt := toIso now } : TaskStateFields).postInit = .ok () :=
    taskState_postInit_eq_ok.mpr ⟨hid, Nat.le_add_left 1 _, hfit⟩
  exact ⟨_, make_of_ok hcheck⟩

/-! ## A lifecycle change -/

/-- A row whose head is stored can be viewed. -/
theorem exists_viewOf (hc : s.cell taskId = some c)
    (hr : ∃ r ∈ c.revisions, r.revision = c.row.headRevision)
    (hp : ∃ profile, s.profileOf c.row.profileVersion = some profile) :
    ∃ v, s.viewOf c.row = .ok v := by
  obtain ⟨-, hid, hrevs⟩ := cell_eq_some.mp hc
  obtain ⟨r, hr, hnumber⟩ := hr
  obtain ⟨profile, hp⟩ := hp
  rw [hrevs] at hr
  obtain ⟨hmem, htask⟩ := List.mem_filter.mp hr
  have hfound : (s.getTaskRevision c.row.taskId c.row.headRevision).isSome = true := by
    rw [Store.getTaskRevision, List.find?_isSome]
    exact ⟨r, hmem, by simpa [hid] using ⟨of_decide_eq_true htask, hnumber⟩⟩
  obtain ⟨found, hfound⟩ := Option.isSome_iff_exists.mp hfound
  refine ⟨⟨c.row, found.state, profile, summarize found.state profile⟩, ?_⟩
  simp only [Store.viewOf, hfound, hp]

/-- **A lifecycle change that runs alone** goes through, and changes this
task only. Before it the clock was read as often as the lazy expiry reads
it. -/
theorem exec_lifecycleVia_alone (expire : AuthorityScope → TaskRow → Svc (Option TaskRow))
    (target : TaskLifecycle) (actor : String) (actorRole : ActorRole) (reason : String)
    (expiryRule : Option String)
    (hr : Ready w.store taskId c base) (hscope : c.row.scopeFields = scope.val)
    (hpermit : permits actorRole
      (if target = .expired then .expireTask else .changeLifecycle) = true)
    (hlive : c.row.lifecycle.terminal = false) (hne : c.row.lifecycle ≠ target)
    (hexpire : target ≠ .expired → (expire scope c.row).exec w = (.ok none, w'))
    (hskip : target = .expired → w' = w) (hstore : w'.store = w.store) :
    ∃ v s' next, (lifecycleVia expire H scope taskId target actor actorRole reason
        expiryRule).exec w = (.ok v, { w'.ticked with store := s' }) ∧
      s'.cell taskId = some (c.changed H next target actor actorRole reason expiryRule
        (w'.clock w'.ticks)) ∧
      next.val.revision = c.row.headRevision + 1 ∧
      (∀ id, id ≠ taskId → s'.cell id = w.store.cell id) ∧ s'.profiles = w.store.profiles := by
  obtain ⟨v, hview, hstate⟩ := hr.viewOf
  obtain ⟨next, hnext⟩ := exists_lifecycleState base.state target (w'.clock w'.ticks)
  obtain ⟨s', hexec, hcell, hothers, hprofiles⟩ := exec_lifecycleTx_alone (H := H) actor
    actorRole reason expiryRule hr hnext
  have hnrev : next.val.revision = c.row.headRevision + 1 :=
    (congrArg TaskStateFields.revision (lifecycleState_eq_ok hnext)).trans
      (congrArg (· + 1) hr.revision)
  have hprofile : ∃ profile, s'.profileOf c.row.profileVersion = some profile := by
    obtain ⟨profile, hp⟩ := hr.profile
    refine ⟨profile, ?_⟩
    rw [← hp, Store.profileOf, Store.profileOf, Store.getTaskProfile, Store.getTaskProfile,
      hprofiles]
  obtain ⟨v', hview'⟩ := exists_viewOf hcell
    ⟨_, List.mem_append_right _ List.mem_cons_self, rfl⟩ hprofile
  refine ⟨v', s', next, ?_, hcell, hnrev, hothers, hprofiles⟩
  -- the lazy expiry finds nothing due
  have hrefresh : (if target ≠ .expired ∧ !c.row.lifecycle.terminal then
      refresh expire scope c.row else pure c.row : Svc TaskRow).exec w = (.ok c.row, w') := by
    by_cases ht : target = .expired
    · rw [if_neg fun hand => hand.1 ht, hskip ht, Eff.exec_pure]
    · rw [if_pos ⟨ht, by rw [hlive]; rfl⟩, refresh, Eff.exec_bind_ok (hexpire ht)]
      rfl
  unfold lifecycleVia
  rw [require, if_pos hpermit, Eff.exec_bind_ok (Eff.exec_pure _ _),
    Eff.exec_bind_ok (exec_requireTask hr.cell hscope), Eff.exec_bind_ok hrefresh,
    if_neg (by rw [hlive]; decide), if_neg hne, Eff.exec_bind_ok exec_now]
  have hview₁ : (view c.row).exec w'.ticked = (.ok v, w'.ticked) := by
    rw [exec_view]
    exact congrArg (·, _) ((congrArg (fun s => Store.viewOf s c.row) hstore).trans hview)
  rw [Eff.exec_bind_ok hview₁, hstate, hnext, lift, Eff.exec_bind_ok (Eff.exec_ofExcept_ok _ _ _)]
  have htx : (transaction (lifecycleTx H taskId c.row base.state next target actor actorRole reason
      expiryRule (w'.clock w'.ticks))).exec w'.ticked = (.ok (), { w'.ticked with store := s' }) :=
    exec_transaction_ok (by rw [World.ticked, hstore]; exact hexec)
  rw [Eff.exec_bind_ok htx,
    Eff.exec_bind_ok (exec_requireTask (c := c.changed H next target actor actorRole reason expiryRule
      (w'.clock w'.ticks)) hcell hscope), exec_view]
  exact congrArg (·, _) hview'

/-! ## A lazy expiry -/

/-- A task that is not due is left as it is. -/
theorem exec_expireIfDue_live {row : TaskRow}
    (hdue : (expiryStatusAt row (w.clock w.ticks)).dueReason = none) :
    (expireIfDue H scope row).exec w = (.ok none, w.ticked) := by
  have hstatus : (expiryStatus row).exec w =
      (.ok (expiryStatusAt row (w.clock w.ticks)), w.ticked) := rfl
  unfold expireIfDue
  rw [Eff.exec_bind_ok hstatus, hdue]
  rfl

/-- **A task that is due is retired**, and no other is touched. -/
theorem exec_expireIfDue_due (hr : Ready w.store taskId c base)
    (hscope : c.row.scopeFields = scope.val) (hlive : c.row.lifecycle.terminal = false)
    {code : ReasonCode} (hdue : (expiryStatusAt c.row (w.clock w.ticks)).dueReason = some code) :
    ∃ s' c', (expireIfDue H scope c.row).exec w =
        (.ok (some c'.row), { w.ticked.ticked with store := s' }) ∧
      s'.cell taskId = some c' ∧ c'.row.lifecycle = .expired ∧
      (∀ id, id ≠ taskId → s'.cell id = w.store.cell id) ∧ s'.profiles = w.store.profiles := by
  have hstatus : (expiryStatus c.row).exec w =
      (.ok (expiryStatusAt c.row (w.clock w.ticks)), w.ticked) := rfl
  obtain ⟨v, s', next, hexec, hcell, -, hothers, hprofiles⟩ :=
    exec_lifecycleVia_alone (H := H) (w := w.ticked) (fun _ _ => pure none) .expired
      "atmem-policy-evaluator" .policyEvaluator (value code) (some (value code))
      hr hscope (by decide) hlive (fun heq => by rw [heq] at hlive; cases hlive)
      (fun hne => absurd rfl hne) (fun _ => rfl) rfl
  refine ⟨s', _, ?_, hcell, ?_, hothers, hprofiles⟩
  · unfold expireIfDue
    rw [Eff.exec_bind_ok hstatus, hdue]
    dsimp only
    rw [hr.named]
    have hretired : (tryCatch
        (do
          let _ ← lifecycleVia (fun _ _ => pure none) H scope taskId .expired
            "atmem-policy-evaluator" .policyEvaluator (value code) (some (value code)))
        fun e => if lostRace e then pure () else throw e : Svc Unit).exec w.ticked =
        (.ok (), { w.ticked.ticked with store := s' }) := by
      rw [Eff.exec_tryCatch, Eff.exec_bind_ok hexec]
      rfl
    rw [Eff.exec_bind_ok hretired, query, Eff.exec_read]
    exact congrArg (fun row => (Except.ok row, _))
      (getTask_eq_some.mpr ⟨_, hcell, rfl, hscope⟩)
  · exact congrArg (Option.getD · c.row.lifecycle) (lifecycleChange_lifecycle c.row .expired _ _)

end Atmem
