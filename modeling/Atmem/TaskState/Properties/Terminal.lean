import Atmem.TaskState.Properties.Chain
/-!
# Terminal absorption

A task that is completed, cancelled or expired never changes again,
whatever was in flight; and only the policy evaluator expires one, for a
reason that was due under the rule the task was bound by when it began.
-/

namespace Atmem

open Relation Interleaving

variable {H : Hashing} {w : World} {c c' : System} {E : Setting} {h : Timeline World}
variable {cell cell' : Cell}

/-- What stands behind the expiry of a task. -/
structure Retirement (w : World) (h : Timeline World) (row : TaskRow) (r : RevisionRow) :
    Prop where
  evaluator : r.actorRole = .policyEvaluator
  /-- The reason on the row was due. -/
  cause : ∃ reason, row.terminalReason = some reason ∧ ExpiryCause h row reason
  /-- The rule is the one of the profile the task was started under. -/
  bound : ∃ profile, w.store.profile row.profileVersion = some profile ∧
    row.expiryRule = profile.val.expiry

/-- A retired cell: who retired it, and why. -/
def Cell.Retired (h : Timeline World) (cell : Cell) : Prop :=
  cell.row.lifecycle = .expired → ∃ r reason, cell.head? = some r ∧
    r.actorRole = .policyEvaluator ∧ cell.row.terminalReason = some reason ∧
    ExpiryCause h cell.row reason

/-- A change to a terminal lifecycle writes its reason. -/
theorem lifecycleChange_terminalReason {row : TaskRow} {target : TaskLifecycle} {reason : String}
    {now : Instant} (ht : target.terminal = true) :
    (lifecycleChange row target reason now).terminalReason = some reason := by
  have hne : target ≠ .paused := by
    rintro rfl
    cases ht
  unfold lifecycleChange
  rw [if_neg hne]
  split <;> exact if_pos ht

/-- **Only the evaluator retires**: one move. -/
theorem Moves.retired (hm : Moves E h cell cell') : cell'.Retired h := by
  intro hexpired
  obtain ⟨base, next, S⟩ := hm.2.successor hm.1
  have hid := S.identity
  simp only [TaskRow.identity, Prod.mk.injEq] at hid
  have hlive := S.live
  cases hm.2 with
  | commit _ _ _ _ _ _ _ hrow _ =>
    -- a commit leaves the lifecycle, which was not terminal
    have hsame : cell'.row.lifecycle = cell.row.lifecycle := by
      rw [hrow]
      rfl
    rw [← hsame, hexpired] at hlive
    cases hlive
  | @lifecycle _ next' target actor actorRole reason expiryRule now _ _ _ _ _ hexpiry _ _ hrow hrevs =>
    have htarget : target = .expired := by
      rw [hrow, HeadChange.assign, lifecycleChange_lifecycle] at hexpired
      exact hexpired
    obtain ⟨hrole, before, t, code, hseen, htask, hrule, hread, hdue, hreason⟩ := hexpiry htarget
    have hterminal : target.terminal = true := by
      rw [htarget]
      rfl
    refine ⟨_, reason, by rw [Cell.head?, hrevs, List.getLast?_concat], hrole, ?_, ?_⟩
    · rw [hrow, HeadChange.assign, lifecycleChange_terminalReason hterminal]
      rfl
    · refine ⟨before, t, code, hseen, ?_, ?_, hread, hdue, hreason⟩
      · rw [htask, hid.1]
      · rw [hrule, hid.2.2.2.2.2.1]

/-- **Only the evaluator retires**: over any run. -/
theorem Grown.retired (hg : Grown E h cell) : cell.Retired h := by
  obtain ⟨first, hs, ha⟩ := hg
  refine Versioned.invariant (fun _ _ hm _ => hm.retired) ha ?_
  intro hexpired
  obtain ⟨-, -, -, -, -, -, -, hrow, -⟩ := hs
  rw [hrow] at hexpired
  cases hexpired

/-- The rule a task is bound by is that of its profile, ever since it was
started. -/
theorem Grown.expiryRule (hg : Grown E h cell) :
    ∃ profile, E.profile cell.row.profileVersion = some profile ∧
      cell.row.expiryRule = profile.val.expiry := by
  obtain ⟨first, hs, ha⟩ := hg
  have hid := ha.identity
  simp only [TaskRow.identity, Prod.mk.injEq] at hid
  obtain ⟨hprofile, -, -, -, -, -, -, hrow, -⟩ := hs
  rw [hrow] at hid
  refine ⟨_, ?_, hid.2.2.2.2.2.1⟩
  rw [hid.2.2.2.2.1]
  exact hprofile

/-- A terminal revision is the head. -/
theorem Cell.Chained.head_of_terminal (hc : cell.Chained E h) {r : RevisionRow}
    (hr : r ∈ cell.revisions) (ht : r.state.val.lifecycle.terminal = true) :
    cell.head? = some r ∧ cell.row.lifecycle = r.state.val.lifecycle := by
  obtain ⟨base, hb, -, hlife, -⟩ := hc.head
  have hsplit := List.dropLast_append_getLast? base hb
  rw [← hsplit] at hr
  rcases List.mem_append.mp hr with hr | hr
  · rw [hc.live r hr] at ht
    cases ht
  · obtain rfl := List.mem_singleton.mp hr
    exact ⟨hb, hlife.symm⟩

/-- **At most one terminal revision.** -/
theorem Cell.Chained.terminal_le_one (hc : cell.Chained E h) :
    (cell.revisions.filter fun r => r.state.val.lifecycle.terminal).length ≤ 1 := by
  obtain ⟨base, hb, -⟩ := hc.head
  have hnone : cell.revisions.dropLast.filter (fun r => r.state.val.lifecycle.terminal) = [] := by
    refine List.filter_eq_nil_iff.mpr fun r hr => ?_
    rw [hc.live r hr]
    exact Bool.false_ne_true
  rw [← List.dropLast_append_getLast? base hb, List.filter_append, hnone, List.nil_append]
  exact List.length_filter_le _ _

/-- **Terminal absorption.** In every run of calls, a task that is
terminal keeps its row and its revisions ever after; it has at most one
terminal revision; and a revision that expires it was written by the
policy evaluator, for a reason that was due under the rule bound at the
start. -/
theorem terminal_absorption (hv : Visits H Call.keepsTasks w c) :
    (∀ c', Reaches (Call.body H) Call.keepsTasks c c' →
      ∀ row ∈ c.time.now.store.tasks.rows, row.lifecycle.terminal = true →
        row ∈ c'.time.now.store.tasks.rows ∧
        c'.time.now.store.chain row.taskId = c.time.now.store.chain row.taskId) ∧
    (∀ row ∈ c.time.now.store.tasks.rows, ((c.time.now.store.chain row.taskId).filter
      fun r => r.state.val.lifecycle.terminal).length ≤ 1) ∧
    ∀ row ∈ c.time.now.store.tasks.rows, ∀ r ∈ c.time.now.store.chain row.taskId,
      r.state.val.lifecycle = .expired → Retirement w c.time row r := by
  refine ⟨fun c' hr row hmem ht => ?_, fun row hmem => ?_, fun row hmem r hr hexpired => ?_⟩
  · obtain ⟨cell, hc, rfl, hg⟩ := hv.cell hmem
    obtain ⟨cell', hc', ha⟩ := (hv.evolves hr).cells _ _ hc
    obtain rfl := ha.eq_of_terminal ht
    refine ⟨(cell_eq_some.mp hc').1, ?_⟩
    rw [Store.chain_of_cell hc', Store.chain_of_cell hc]
  · obtain ⟨cell, hc, rfl, hg⟩ := hv.cell hmem
    rw [Store.chain_of_cell hc]
    exact hg.chained.terminal_le_one
  · obtain ⟨cell, hc, rfl, hg⟩ := hv.cell hmem
    rw [Store.chain_of_cell hc] at hr
    have hterminal : r.state.val.lifecycle.terminal = true := by
      rw [hexpired]
      rfl
    obtain ⟨hhead, hlife⟩ := hg.chained.head_of_terminal hr hterminal
    obtain ⟨r', reason, hr', hrole, hreason, hcause⟩ := hg.retired (hlife.trans hexpired)
    obtain rfl := Option.some.inj (hhead.symm.trans hr')
    exact ⟨hrole, ⟨reason, hreason, hcause⟩, hg.expiryRule⟩

/-- The law, where a task was cancelled, and a submit came after. -/
theorem terminal_absorption_of_cancel :
    ∃ c row, Visits itemHashing Call.keepsTasks exampleWorld c ∧
      row ∈ c.time.now.store.tasks.rows ∧ row.lifecycle = .cancelled ∧
      ∀ c', Reaches (Call.body itemHashing) Call.keepsTasks c c' →
        row ∈ c'.time.now.store.tasks.rows := by
  have hcalls : ∀ k ∈ [Call.start exampleStart [], .cancel exampleScope "t" "a" .operator "r",
      .submit addProposal false "step"], k.keepsTasks := by decide
  obtain ⟨c, hv, hnow⟩ := visits_runAll (H := itemHashing) fresh_exampleWorld hcalls
  have hcancelled : ∃ row ∈ c.time.now.store.tasks.rows, row.lifecycle = .cancelled := by
    rw [hnow]
    decide +kernel
  obtain ⟨row, hr, hrow⟩ := hcancelled
  have hterminal : row.lifecycle.terminal = true := by
    rw [hrow]
    rfl
  exact ⟨c, row, hv, hr, hrow, fun c' hc' =>
    ((terminal_absorption hv).1 c' hc' row hr hterminal).1⟩

end Atmem
