import Atmem.TaskState.Helpers.Transactions
/-!
# What a run keeps

The invariant of a timeline, what one action of any call may do, and how
the store evolves over any number of them. `Held` is what a call knows of
a row it has read: the cell the row was part of, and that the task has
only advanced since.
-/

namespace Atmem

open Relation Interleaving

/-- The profile a version names: built in, or registered. -/
def Store.profile (s : Store) (version : String) : Option TaskProfile :=
  match builtInProfile version with
  | some selected => some selected
  | none => (s.getTaskProfile version).map (·.profile)

/-- What a version names has that version. -/
theorem Store.profile_version {s : Store} {version : String} {profile : TaskProfile}
    (hp : s.profile version = some profile) : profile.val.version = version := by
  unfold Store.profile at hp
  split at hp
  · rename_i selected hb
    unfold builtInProfile at hb
    split at hb
    · rename_i heq
      cases hb
      cases hp
      exact heq.symm
    · cases hb
  · obtain ⟨row, hr, rfl⟩ := Option.map_eq_some_iff.mp hp
    exact of_decide_eq_true (List.find?_some hr :)

variable {E : Setting} {h h' h'' : Timeline World} {w : World} {c cNow : Cell} {taskId : String}

/-- The invariant of a timeline. -/
structure Kept (E : Setting) (h : Timeline World) : Prop where
  clock : h.now.clock = E.clock
  profile : ∀ version, h.now.store.profile version = E.profile version
  /-- Every cell was left by a start and brought here by advances. -/
  grown : ∀ id c, h.now.store.cell id = some c → Grown E h c
  /-- Every revision is of a task that is there. -/
  owned : ∀ r ∈ h.now.store.revisions.rows, ∃ c, h.now.store.cell r.taskId = some c

/-- What one action of any call may do. -/
structure Acts (E : Setting) (h : Timeline World) (w : World) : Prop where
  store : StoreStep E h h.now.store w.store
  clock : w.clock = h.now.clock
  ticks : h.now.ticks ≤ w.ticks

/-- How the shared state evolves: cells only advance, and what is
recorded stays. -/
structure Evolves (E : Setting) (h h' : Timeline World) : Prop where
  later : Later h h'
  cells : ∀ id c, h.now.store.cell id = some c →
    ∃ c', h'.now.store.cell id = some c' ∧ Advances E h' c c'
  proposals : h.now.store.proposals.rows <+: h'.now.store.proposals.rows

theorem Evolves.refl (E : Setting) (h : Timeline World) : Evolves E h h :=
  ⟨.refl h, fun _ c hc => ⟨c, hc, .refl⟩, List.prefix_refl _⟩

/-- Evolution is transitive. -/
theorem Evolves.trans (h₁ : Evolves E h h') (h₂ : Evolves E h' h'') : Evolves E h h'' where
  later := h₁.later.trans h₂.later
  cells id c hc := by
    obtain ⟨c', hc', ha⟩ := h₁.cells id c hc
    obtain ⟨c'', hc'', ha'⟩ := h₂.cells id c' hc'
    exact ⟨c'', hc'', (Advances.later h₂.later ha).trans ha'⟩
  proposals := h₁.proposals.trans h₂.proposals

/-- Doing nothing to the store is permitted. -/
theorem Acts.idle (E : Setting) (h : Timeline World) : Acts E h h.now :=
  ⟨.refl E h _, rfl, Nat.le_refl _⟩

theorem Acts.later (ha : Acts E h w) : Later h (h.push w) :=
  ⟨h.extends_push w, ha.clock, ha.ticks⟩

/-- **One action keeps the invariant**, and the store evolves. -/
theorem Kept.acts (hk : Kept E h) (ha : Acts E h w) :
    Kept E (h.push w) ∧ Evolves E h (h.push w) := by
  have hl := ha.later
  refine ⟨⟨ha.clock.trans hk.clock, fun version => ?_, fun id c hc => ?_, fun r hr => ?_⟩,
    hl, fun id c hc => ?_, ha.store.proposals⟩
  · rw [← hk.profile version]
    simp only [Store.profile, Store.getTaskProfile, Timeline.push_now, ha.store.profiles]
  · have hstep := ha.store.cells id
    rw [Timeline.push_now] at hc
    rw [hc] at hstep
    generalize hb : h.now.store.cell id = before at hstep
    cases hstep with
    | same => exact (hk.grown id c hb).later hl
    | start hs => exact ⟨c, hs.later hl, .refl⟩
    | @move c₀ _ hm =>
      obtain ⟨first, hs, hadv⟩ := hk.grown id c₀ hb
      exact ⟨first, hs.later hl, Advances.later hl (hadv.tail hm)⟩
  · rcases ha.store.owned r hr with hr | hr
    · obtain ⟨c, hc⟩ := hk.owned r hr
      obtain ⟨c', hc', -⟩ := ha.store.cell_some hc
      exact ⟨c', hc'⟩
    · exact hr
  · obtain ⟨c', hc', hm⟩ := ha.store.cell_some hc
    refine ⟨c', hc', ?_⟩
    rcases hm with rfl | hm
    · exact .refl
    · exact .single (hm.later hl)

/-! ## What a reader knows -/

/-- The task's cell was `c` when its row was read, and it has only
advanced since. -/
structure Held (E : Setting) (h : Timeline World) (taskId : String) (c : Cell) : Prop where
  chained : c.Chained E h
  named : c.row.taskId = taskId
  seen : SeenRow h c.row
  now : ∃ cNow, h.now.store.cell taskId = some cNow ∧ Advances E h c cNow

/-- A task that is held stays so. -/
theorem Held.evolves (hh : Held E h taskId c) (he : Evolves E h h') : Held E h' taskId c where
  chained := hh.chained.later he.later
  named := hh.named
  seen := hh.seen.later he.later
  now := by
    obtain ⟨cNow, hc, ha⟩ := hh.now
    obtain ⟨c', hc', ha'⟩ := he.cells _ _ hc
    exact ⟨c', hc', (Advances.later he.later ha).trans ha'⟩

/-- What a query has found is held. -/
theorem Kept.held (hk : Kept E h) (hc : h.now.store.cell taskId = some c) :
    Held E h taskId c :=
  ⟨(hk.grown taskId c hc).chained, (cell_eq_some.mp hc).2.1,
    ⟨h.now, h.seen_now, (cell_eq_some.mp hc).1⟩, c, hc, .refl⟩

/-- **A terminal task is read the same ever after.** -/
theorem Held.eq_of_terminal (hh : Held E h taskId c) (ht : c.row.lifecycle.terminal = true) :
    h.now.store.cell taskId = some c := by
  obtain ⟨cNow, hc, ha⟩ := hh.now
  rw [hc, ha.eq_of_terminal ht]

/-- What a reader held before is an ancestor of what is there. -/
theorem Held.advances (hh : Held E h taskId c) (hc : h.now.store.cell taskId = some cNow) :
    Advances E h c cNow := by
  obtain ⟨cell, hcell, ha⟩ := hh.now
  rwa [Option.some.inj (hc.symm.trans hcell)]

/-- **The cause of a retirement**: a status that was due, of a row that
was read, under the rule the task is still bound by. -/
theorem Held.expiryCause (hh : Held E h taskId c) (hc : h.now.store.cell taskId = some cNow)
    {t : Instant} (ht : Reading h t) {code : ReasonCode}
    (hdue : (expiryStatusAt c.row t).dueReason = some code) :
    ExpiryCause h cNow.row (value code) := by
  have hid := (hh.advances hc).identity
  simp only [TaskRow.identity, Prod.mk.injEq] at hid
  exact ⟨c.row, t, code, hh.seen, hid.1.symm, hid.2.2.2.2.2.1.symm, ht, hdue, rfl⟩

/-- The gate of a completion, on a cell's snapshot. -/
def Cell.Met (E : Setting) (c : Cell) : Prop :=
  ∀ base profile, c.head? = some base → E.profile c.row.profileVersion = some profile →
    E.gate base.state profile

/-- The task is there, and terminal. -/
def Retired (h : Timeline World) (taskId : String) : Prop :=
  ∃ c, h.now.store.cell taskId = some c ∧ c.row.lifecycle.terminal = true

/-- One that is terminal is retired. -/
theorem Held.retired (hh : Held E h taskId c) (ht : c.row.lifecycle.terminal = true) :
    Retired h taskId :=
  ⟨c, hh.eq_of_terminal ht, ht⟩

/-- And stays retired. -/
theorem Retired.evolves (hk : Kept E h) (he : Evolves E h h') (hr : Retired h taskId) :
    Retired h' taskId := by
  obtain ⟨c, hc, ht⟩ := hr
  exact ((hk.held hc).evolves he).retired ht

/-- What a view of a held row shows. -/
structure Viewed (E : Setting) (c : Cell) (v : TaskView) : Prop where
  task : v.task = c.row
  head : ∃ base, c.head? = some base ∧ v.state = base.state
  profile : E.profile c.row.profileVersion = some v.profile

/-! ## The start of a run -/

/-- The setting a run from a world has. -/
def World.setting (w : World) (H : Hashing) (gate : TaskState → TaskProfile → Prop) : Setting where
  hashing := H
  clock := w.clock
  profile := w.store.profile
  gate

/-- **A fresh store keeps the invariant.** -/
theorem Fresh.kept (hw : Fresh w) (H : Hashing) (gate : TaskState → TaskProfile → Prop) :
    Kept (w.setting H gate) ⟨[], w⟩ where
  clock := rfl
  profile _ := rfl
  grown id c hc := by
    have hm := (cell_eq_some.mp hc).1
    rw [hw.tasks] at hm
    cases hm
  owned r hr := by
    rw [hw.revisions] at hr
    cases hr

end Atmem
