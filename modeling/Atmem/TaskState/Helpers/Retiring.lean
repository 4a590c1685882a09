import Atmem.TaskState.Helpers.Alone
import Atmem.TaskState.Helpers.Ownership
/-!
# Retiring the tasks that are due

What the lazy expiry does to the tasks of a list one after the other, alone
and at one instant: those that are due are retired, and nothing else is
touched, where each of them can be; where one cannot be, the rest are not
looked at.
-/

namespace Atmem

open Transactional Relational Checked Interleaving

variable {H : Hashing} {s s' : Store} {w w' w'' : World} {c : Cell} {r row : TaskRow}
variable {rows : List TaskRow} {scope : AuthorityScope} {t : Instant}

/-- The task's rule is due. -/
def isDue (t : Instant) (r : TaskRow) : Bool := (expiryStatusAt r t).dueReason.isSome

/-- The task is one the scan looks at. -/
def isLive (r : TaskRow) : Bool := r.lifecycle = .open || r.lifecycle = .paused

/-- A task is live while its lifecycle is not terminal. -/
theorem isLive_iff : isLive r = true ↔ r.lifecycle.terminal = false := by
  unfold isLive
  cases r.lifecycle <;> decide

/-- The task can be retired: the snapshot at its head is stored, under a
profile the store knows, and no successor of it is. -/
structure Retirable (s : Store) (r : TaskRow) : Prop where
  head : ∃ base, s.getTaskRevision r.taskId r.headRevision = some base
  profile : ∃ profile, s.profileOf r.profileVersion = some profile
  free : ∀ revision ∈ s.revisions.rows, revision.taskId = r.taskId →
    revision.revision ≠ r.headRevision + 1 ∧ revision.parentRevision ≠ some r.headRevision

/-- A task that can be retired is ready for it. -/
theorem Retirable.ready (hr : Retirable s c.row) (hn : Numbered s)
    (hc : s.cell c.row.taskId = some c) : ∃ base, Ready s c.row.taskId c base := by
  obtain ⟨base, hb⟩ := hr.head
  have hfound := List.find?_some hb
  simp only [decide_eq_true_eq] at hfound
  obtain ⟨htask, hrev⟩ := hfound
  have hnumbered := hn base (List.mem_of_find?_eq_some hb)
  refine ⟨base, hc, hb, hnumbered.task.trans htask, hnumbered.revision.trans hrev,
    fun r hmem => ?_, hr.profile⟩
  rw [(cell_eq_some.mp hc).2.2] at hmem
  obtain ⟨hmem, hid⟩ := List.mem_filter.mp hmem
  exact hr.free r hmem (of_decide_eq_true hid)

/-- What can be retired is seen in the task's cell. -/
theorem getTaskRevision_of_cell {taskId : String} (hc : s.cell taskId = some c) (revision : ℕ) :
    s.getTaskRevision taskId revision = c.revisions.find? fun r => r.revision = revision := by
  rw [(cell_eq_some.mp hc).2.2, List.find?_filter, Store.getTaskRevision]
  simp

theorem Retirable.of_cell (hr : Retirable s r) (hc : s.cell r.taskId = some c)
    (hc' : s'.cell r.taskId = some c) (hprofiles : s'.profiles = s.profiles) : Retirable s' r where
  head := by
    rw [getTaskRevision_of_cell hc', ← getTaskRevision_of_cell hc]
    exact hr.head
  profile := by
    obtain ⟨profile, hp⟩ := hr.profile
    refine ⟨profile, ?_⟩
    rw [← hp, Store.profileOf, Store.profileOf, Store.getTaskProfile, Store.getTaskProfile,
      hprofiles]
  free revision hmem hid := by
    have hmine : revision ∈ c.revisions := by
      rw [(cell_eq_some.mp hc').2.2]
      exact List.mem_filter.mpr ⟨hmem, decide_eq_true hid⟩
    rw [(cell_eq_some.mp hc).2.2] at hmine
    exact hr.free revision (List.mem_filter.mp hmine).1 hid

/-! ## One task -/

/-- The lifecycle change of an expiry, up to its view. -/
theorem exec_lifecycleVia_expired {taskId actor reason : String} {expiryRule : Option String}
    (hc : w.store.cell taskId = some c) (hscope : c.row.scopeFields = scope.val)
    (hlive : isLive c.row = true) :
    (lifecycleVia (fun _ _ => pure none) H scope taskId .expired actor .policyEvaluator reason
      expiryRule).exec w =
    (do
      let current ← view c.row
      let next ← lift (lifecycleState current.state .expired (w.clock w.ticks))
      transaction (lifecycleTx H taskId c.row current.state next .expired actor .policyEvaluator
        reason expiryRule (w.clock w.ticks))
      view (← requireTask scope taskId) : Svc TaskView).exec w.ticked := by
  have hterminal := isLive_iff.mp hlive
  have hne : c.row.lifecycle ≠ .expired := fun heq => by rw [heq] at hterminal; cases hterminal
  unfold lifecycleVia
  rw [require, if_pos (by decide), Eff.exec_bind_ok (Eff.exec_pure _ _),
    Eff.exec_bind_ok (exec_requireTask hc hscope), if_neg (by simp),
    Eff.exec_bind_ok (Eff.exec_pure _ _), if_neg (by rw [hterminal]; decide), if_neg hne,
    Eff.exec_bind_ok exec_now]

/-- Where a task can be viewed but not retired, a revision stands in its
way. -/
theorem exists_clash {v : TaskView} {next : TaskState} {target : TaskLifecycle} {now : Instant}
    (hn : Numbered s) (hview : s.viewOf r = .ok v)
    (hnext : lifecycleState v.state target now = .ok next) (hblocked : ¬ Retirable s r) :
    ∃ revision ∈ s.revisions.rows, revision.taskId = next.val.taskId ∧
      (revision.revision = next.val.revision ∨
        ∃ parent, revision.parentRevision = some parent ∧ next.val.parentRevision = some parent) := by
  have hv := lifecycleState_eq_ok hnext
  unfold Store.viewOf at hview
  split at hview
  · cases hview
  · rename_i base hb
    split at hview
    · cases hview
    · rename_i profile hp
      cases hview
      have hfound := List.find?_some hb
      simp only [decide_eq_true_eq] at hfound
      have hnumbered := hn base (List.mem_of_find?_eq_some hb)
      have htask : next.val.taskId = r.taskId :=
        (congrArg TaskStateFields.taskId hv).trans (hnumbered.task.trans hfound.1)
      have hrev : next.val.revision = r.headRevision + 1 :=
        (congrArg TaskStateFields.revision hv).trans
          (congrArg (· + 1) (hnumbered.revision.trans hfound.2))
      have hparent : next.val.parentRevision = some r.headRevision :=
        (congrArg TaskStateFields.parentRevision hv).trans
          (congrArg some (hnumbered.revision.trans hfound.2))
      by_contra hnone
      refine hblocked ⟨⟨base, hb⟩, ⟨profile, hp⟩, fun revision hmem hid => ⟨fun heq => ?_,
        fun heq => ?_⟩⟩
      · exact hnone ⟨revision, hmem, hid.trans htask.symm, .inl (heq.trans hrev.symm)⟩
      · exact hnone ⟨revision, hmem, hid.trans htask.symm, .inr ⟨_, heq, hparent⟩⟩

/-- A revision that clashes with one that is there is refused. -/
theorem exec_lifecycleTx_clash {taskId actor reason : String} {actorRole : ActorRole}
    {expiryRule : Option String} {state next : TaskState} {target : TaskLifecycle} {now : Instant}
    (hclash : ∃ r ∈ s.revisions.rows, r.taskId = next.val.taskId ∧
      (r.revision = next.val.revision ∨
        ∃ parent, r.parentRevision = some parent ∧ next.val.parentRevision = some parent)) :
    exec (lifecycleTx H taskId row state next target actor actorRole reason expiryRule now) s =
      (.error .integrityError, s) := by
  have hinsert : exec (insertTaskRevision (revisionRow H next actor actorRole
      [.lifecycleChangeAccepted] (policyRule expiryRule) now false)) s =
      (.error .integrityError, s) := by
    obtain ⟨r, hr, hid, hsame⟩ := hclash
    have hnone : s.revisions.insert (revisionRow H next actor actorRole
        [.lifecycleChangeAccepted] (policyRule expiryRule) now false) = none := by
      refine Table.insert_eq_none.mpr ⟨r, hr, ?_⟩
      rcases hsame with hsame | ⟨parent, hparent, hsame⟩
      · simp [revisionClash, RevisionRow.key, revisionRow, hid, hsame]
      · simp [revisionClash, RevisionRow.key, revisionRow, hid, hsame, hparent]
    rw [exec_insertTaskRevision, hnone, ite_self]
  unfold lifecycleTx
  rw [exec_bind_error hinsert]

/-- **A task that cannot be retired is not looked past.** -/
theorem exec_expireIfDue_blocked (hc : w.store.cell c.row.taskId = some c) (hn : Numbered w.store)
    (hscope : c.row.scopeFields = scope.val) (hlive : isLive c.row = true)
    (hdue : isDue (w.clock w.ticks) c.row = true) (hblocked : ¬ Retirable w.store c.row) :
    ∃ e w', (expireIfDue H scope c.row).exec w = (.error e, w') ∧
      (e = .integrityError ∨ w.store.viewOf c.row = .error e) := by
  obtain ⟨code, hcode⟩ := Option.isSome_iff_exists.mp hdue
  have hstatus : (expiryStatus c.row).exec w =
      (.ok (expiryStatusAt c.row (w.clock w.ticks)), w.ticked) := rfl
  -- it is enough that the change fails otherwise than by a lost race
  suffices hfails : ∃ e w', (lifecycleVia (fun _ _ => pure none) H scope c.row.taskId .expired
      "atmem-policy-evaluator" .policyEvaluator (value code) (some (value code))).exec w.ticked =
      (.error e, w') ∧ lostRace e = false ∧
      (e = .integrityError ∨ w.store.viewOf c.row = .error e) by
    obtain ⟨e, w', hexec, hlost, hwhy⟩ := hfails
    refine ⟨e, w', ?_, hwhy⟩
    unfold expireIfDue
    rw [Eff.exec_bind_ok hstatus, hcode]
    dsimp only
    refine Eff.exec_bind_error ?_
    rw [Eff.exec_tryCatch, Eff.exec_bind_error hexec]
    dsimp only
    rw [hlost]
    rfl
  rw [exec_lifecycleVia_expired (w := w.ticked) hc hscope hlive]
  rcases hview : w.store.viewOf c.row with e | v
  · -- nothing to view: the head's snapshot, or the profile, is not there
    refine ⟨e, w.ticked.ticked, Eff.exec_bind_error ?_, ?_, .inr rfl⟩
    · rw [exec_view]
      exact congrArg (·, _) hview
    · unfold Store.viewOf at hview
      split at hview
      · cases hview
        rfl
      · split at hview
        · cases hview
          rfl
        · cases hview
  · -- so a revision stands where the successor would
    have hexec : (view c.row).exec w.ticked.ticked = (.ok v, w.ticked.ticked) := by
      rw [exec_view]
      exact congrArg (·, _) hview
    obtain ⟨next, hnext⟩ := exists_lifecycleState v.state .expired (w.ticked.clock w.ticked.ticks)
    refine ⟨.integrityError, w.ticked.ticked, ?_, rfl, .inl rfl⟩
    rw [Eff.exec_bind_ok hexec, hnext, lift, Eff.exec_bind_ok (Eff.exec_ofExcept_ok _ _ _)]
    refine Eff.exec_bind_error ?_
    have hclash := exists_clash hn hview hnext hblocked
    exact exec_transaction_error (congrArg Prod.fst (exec_lifecycleTx_clash hclash))

/-! ## One task after the other -/

/-- The tasks of a list were retired, and nothing else was touched. -/
structure Swept (gone : List TaskRow) (w w' : World) : Prop where
  clock : w'.clock = w.clock
  ticks : w.ticks ≤ w'.ticks
  expired : ∀ r ∈ gone, ∃ c, w'.store.cell r.taskId = some c ∧ c.row.lifecycle = .expired
  others : ∀ id, (∀ r ∈ gone, r.taskId ≠ id) → w'.store.cell id = w.store.cell id
  profiles : w'.store.profiles = w.store.profiles

/-- Nothing was swept. -/
theorem Swept.none (hclock : w'.clock = w.clock) (hticks : w.ticks ≤ w'.ticks)
    (hstore : w'.store = w.store) : Swept [] w w' :=
  ⟨hclock, hticks, fun _ hr => absurd hr List.not_mem_nil, fun _ _ => by rw [hstore],
    by rw [hstore]⟩

/-- What was retired first is left alone by what comes after, of other
tasks. -/
theorem Swept.append {gone gone' : List TaskRow} (h : Swept gone w w')
    (h' : Swept gone' w' w'') (hapart : ∀ a ∈ gone, ∀ b ∈ gone', a.taskId ≠ b.taskId) :
    Swept (gone ++ gone') w w'' where
  clock := h'.clock.trans h.clock
  ticks := h.ticks.trans h'.ticks
  expired r hr := by
    rcases List.mem_append.mp hr with hr | hr
    · obtain ⟨c, hc, hlife⟩ := h.expired r hr
      exact ⟨c, (h'.others r.taskId fun b hb heq => hapart r hr b hb heq.symm).trans hc, hlife⟩
    · exact h'.expired r hr
  others id hid :=
    (h'.others id fun b hb => hid b (List.mem_append_right _ hb)).trans
      (h.others id fun a ha => hid a (List.mem_append_left _ ha))
  profiles := h'.profiles.trans h.profiles

/-- The store is one the calls leave, and from now on the clock reads `t`. -/
structure Still (t : Instant) (w : World) : Prop where
  clock : ∀ n, w.ticks ≤ n → w.clock n = t
  scopes : Scoped w.store
  numbers : Numbered w.store

/-- The rows are tasks of the store that are not terminal, each of another
task. -/
structure Standing (t : Instant) (w : World) (rows : List TaskRow) : Prop extends Still t w where
  there : ∀ r ∈ rows, r ∈ w.store.tasks.rows
  live : ∀ r ∈ rows, isLive r = true
  apart : rows.Pairwise fun a b => a.taskId ≠ b.taskId

/-- A row that is there is that of its task's cell. -/
theorem exists_cell_of_mem (hr : r ∈ s.tasks.rows) :
    ∃ revisions, s.cell r.taskId = some ⟨r, revisions⟩ := by
  obtain ⟨c, hc, rfl⟩ := cell_of_mem hr
  exact ⟨c.revisions, hc⟩

theorem mem_of_cell_eq (hcell : s'.cell r.taskId = s.cell r.taskId) (hr : r ∈ s.tasks.rows) :
    r ∈ s'.tasks.rows := by
  obtain ⟨revisions, hc⟩ := exists_cell_of_mem hr
  exact (cell_eq_some.mp (hcell.trans hc)).1

/-- What is known of the rest is known after the first. -/
theorem Standing.rest {gone : List TaskRow} (h : Standing t w (row :: rows))
    (hgone : ∀ r ∈ gone, r = row) (hretired : Swept gone w w') (hscoped : Scoped w'.store)
    (hnumbered : Numbered w'.store) : Standing t w' rows where
  clock n hn := by
    rw [hretired.clock]
    exact h.clock n (hretired.ticks.trans hn)
  scopes := hscoped
  numbers := hnumbered
  there r hr := by
    have hapart := (List.pairwise_cons.mp h.apart).1 r hr
    refine mem_of_cell_eq (hretired.others r.taskId fun a ha heq => ?_)
      (h.there r (List.mem_cons_of_mem _ hr))
    rw [hgone a ha] at heq
    exact hapart heq
  live r hr := h.live r (List.mem_cons_of_mem _ hr)
  apart := (List.pairwise_cons.mp h.apart).2

/-- Whether a task can be retired is for itself. -/
theorem Swept.retirable_iff {gone : List TaskRow} (h : Swept gone w w')
    (hr : r ∈ w.store.tasks.rows) (hapart : ∀ a ∈ gone, a.taskId ≠ r.taskId) :
    Retirable w'.store r ↔ Retirable w.store r := by
  obtain ⟨revisions, hc⟩ := exists_cell_of_mem hr
  have hc' := (h.others r.taskId hapart).trans hc
  exact ⟨fun hret => hret.of_cell hc' hc h.profiles.symm, fun hret => hret.of_cell hc hc' h.profiles⟩

/-- The first batch is the row, or nothing. -/
theorem eq_of_mem_first (hr : r ∈ if isDue t row then [row] else []) : r = row := by
  split at hr
  · exact List.mem_singleton.mp hr
  · exact absurd hr List.not_mem_nil

/-- The lazy expiry of the first row. -/
theorem exec_expireIfDue_first (h : Standing t w (row :: rows))
    (hret : isDue t row = true → Retirable w.store row) :
    ∃ (expired : Option TaskRow) (w' : World),
      (expireIfDue H ⟨row.scopeFields, h.scopes row (h.there row List.mem_cons_self)⟩ row).exec w =
        (.ok expired, w') ∧ expired.isSome = isDue t row ∧
      Swept (if isDue t row then [row] else []) w w' ∧ Scoped w'.store ∧ Numbered w'.store := by
  have hmem := h.there row List.mem_cons_self
  have hnow := h.clock w.ticks (Nat.le_refl _)
  obtain ⟨revisions, hc⟩ := exists_cell_of_mem hmem
  -- due: the row is retired, and nothing else is touched; else nothing is
  by_cases hdue : isDue t row = true
  · obtain ⟨base, hready⟩ := (hret hdue).ready (c := ⟨row, revisions⟩) h.numbers hc
    obtain ⟨code, hcode⟩ := Option.isSome_iff_exists.mp hdue
    rw [← hnow] at hcode
    have hscope : row.scopeFields = (⟨row.scopeFields, h.scopes row hmem⟩ : AuthorityScope).val :=
      rfl
    obtain ⟨s', c', hexec, hc', hlife, hothers, hprofiles⟩ := exec_expireIfDue_due (H := H)
      hready hscope (isLive_iff.mp (h.live row List.mem_cons_self)) hcode
    have hkeeps := exec_touches (touches_expireIfDue (P := KeepsScoped) (H := H)
      ⟨row.scopeFields, h.scopes row hmem⟩ row) w
    have hnumbers := exec_touches (touches_expireIfDue (P := KeepsNumbered) (H := H)
      ⟨row.scopeFields, h.scopes row hmem⟩ row) w
    rw [hexec] at hkeeps hnumbers
    refine ⟨_, _, hexec, hdue.symm, ?_, hkeeps h.scopes, hnumbers h.numbers⟩
    rw [if_pos hdue]
    refine ⟨rfl, by simp only [World.ticked]; omega, fun r hr => ?_, fun id hid => ?_, hprofiles⟩
    · rw [List.mem_singleton.mp hr]
      exact ⟨c', hc', hlife⟩
    · exact hothers id fun heq => hid row List.mem_cons_self heq.symm
  · have hnone : (expiryStatusAt row (w.clock w.ticks)).dueReason = none := by
      rw [hnow]
      exact Option.not_isSome_iff_eq_none.mp hdue
    refine ⟨none, w.ticked, exec_expireIfDue_live hnone, ?_, ?_, h.scopes, h.numbers⟩
    · rw [Bool.not_eq_true] at hdue
      exact hdue.symm
    · rw [if_neg hdue]
      exact .none rfl (Nat.le_succ _) rfl

/-- **The scan retires what is due**, where all of it can be. -/
theorem exec_expireAll (h : Standing t w rows)
    (hret : ∀ r ∈ rows, isDue t r = true → Retirable w.store r) :
    ∃ w', (expireAll H rows).exec w = (.ok ((rows.filter (isDue t)).map (·.taskId)), w') ∧
      Swept (rows.filter (isDue t)) w w' := by
  induction rows generalizing w with
  | nil => exact ⟨w, rfl, .none rfl (Nat.le_refl _) rfl⟩
  | cons row rows ih =>
    obtain ⟨expired, w₁, hexec, hsome, hretired, hscoped, hnumbered⟩ :=
      exec_expireIfDue_first (H := H) h (hret row List.mem_cons_self)
    have hgone : ∀ r ∈ if isDue t row then [row] else [], r = row := fun _ => eq_of_mem_first
    have hapart := (List.pairwise_cons.mp h.apart).1
    obtain ⟨w₂, hrest, hretired'⟩ := ih (h.rest hgone hretired hscoped hnumbered)
      fun r hr hdue => (hretired.retirable_iff (h.there r (List.mem_cons_of_mem _ hr))
        fun a ha => by rw [hgone a ha]; exact hapart r hr).mpr
          (hret r (List.mem_cons_of_mem _ hr) hdue)
    refine ⟨w₂, ?_, ?_⟩
    · unfold expireAll
      rw [Eff.exec_bind_ok (exec_scopeOf (h.scopes row (h.there row List.mem_cons_self))),
        Eff.exec_bind_ok hexec, Eff.exec_bind_ok hrest, hsome, List.filter_cons]
      cases isDue t row <;> rfl
    · have hall := hretired.append hretired' fun a ha b hb => by
        rw [hgone a ha]
        exact hapart b (List.mem_filter.mp hb).1
      rw [List.filter_cons]
      cases hdue : isDue t row <;> simpa [hdue] using hall

/-- **And raises where some of it cannot be.** -/
theorem exec_expireAll_blocked (h : Standing t w rows)
    (hblocked : ∃ r ∈ rows, isDue t r = true ∧ ¬ Retirable w.store r) :
    ∃ e w', (expireAll H rows).exec w = (.error e, w') := by
  induction rows generalizing w with
  | nil =>
    obtain ⟨r, hr, -⟩ := hblocked
    exact absurd hr List.not_mem_nil
  | cons row rows ih =>
    have hmem := h.there row List.mem_cons_self
    by_cases hfirst : isDue t row = true → Retirable w.store row
    · -- the first can be retired: the failure is in the rest
      obtain ⟨expired, w₁, hexec, hsome, hretired, hscoped, hnumbered⟩ :=
        exec_expireIfDue_first (H := H) h hfirst
      have hgone : ∀ r ∈ if isDue t row then [row] else [], r = row := fun _ => eq_of_mem_first
      have hapart := (List.pairwise_cons.mp h.apart).1
      obtain ⟨r, hr, hdue, hstuck⟩ := hblocked
      have hr : r ∈ rows := by
        rcases List.mem_cons.mp hr with rfl | hr
        · exact absurd (hfirst hdue) hstuck
        · exact hr
      obtain ⟨e, w₂, hrest⟩ := ih (h.rest hgone hretired hscoped hnumbered)
        ⟨r, hr, hdue, fun hret => hstuck ((hretired.retirable_iff
          (h.there r (List.mem_cons_of_mem _ hr))
          fun a ha => by rw [hgone a ha]; exact hapart r hr).mp hret)⟩
      refine ⟨e, w₂, ?_⟩
      unfold expireAll
      rw [Eff.exec_bind_ok (exec_scopeOf (h.scopes row hmem)), Eff.exec_bind_ok hexec,
        Eff.exec_bind_error hrest]
    · -- it cannot, and the sweep stops here
      rw [Classical.not_imp] at hfirst
      obtain ⟨revisions, hc⟩ := exists_cell_of_mem hmem
      have hdue := hfirst.1
      rw [← h.clock w.ticks (Nat.le_refl _)] at hdue
      have hscope : row.scopeFields = (⟨row.scopeFields, h.scopes row hmem⟩ : AuthorityScope).val :=
        rfl
      obtain ⟨e, w', hexec, -⟩ := exec_expireIfDue_blocked (H := H) (c := ⟨row, revisions⟩)
        hc h.numbers hscope
        (h.live row List.mem_cons_self) hdue hfirst.2
      refine ⟨e, w', ?_⟩
      unfold expireAll
      rw [Eff.exec_bind_ok (exec_scopeOf (h.scopes row hmem)), Eff.exec_bind_error hexec]

end Atmem
