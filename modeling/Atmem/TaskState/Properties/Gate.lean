import Atmem.TaskState.Properties.Terminal
/-!
# The gate of a completion

A completion reads its gate on one lookup of the task and commits what
it finds on the next. Where nobody takes the task from a snapshot that
meets the gate to one that does not in between, whatever is completed
meets it; one submit in that window is enough to complete what does not.
-/

namespace Atmem

open Relation Interleaving

variable {H : Hashing} {w : World} {c c' : System} {E : Setting} {h : Timeline World}
variable {cell cell' : Cell} {taskId : String}

/-- Nothing stands between the task's snapshot and completion. -/
def GateMet (s : Store) (taskId : String) : Prop :=
  ∀ row ∈ s.tasks.rows, row.taskId = taskId →
    ∀ r ∈ s.getTaskRevision taskId row.headRevision,
      ∀ profile ∈ s.profile row.profileVersion, completionBlockers r.state profile = []

instance (s : Store) (taskId : String) : Decidable (GateMet s taskId) := by
  unfold GateMet
  infer_instance

/-- Every stored completion of a task is a snapshot nothing blocks. -/
def CompletionsMet (s : Store) : Prop :=
  ∀ row ∈ s.tasks.rows, ∀ r ∈ s.chain row.taskId, r.state.val.lifecycle = .completed →
    ∃ profile ∈ s.profile row.profileVersion, completionBlockers r.state profile = []

instance (s : Store) : Decidable (CompletionsMet s) := by
  unfold CompletionsMet
  infer_instance

/-- The task a call completes. -/
def Call.completes : Call → Option String
  | .complete _ taskId _ _ _ => some taskId
  | _ => none

/-- Where a completion has looked its task up once and not yet again, the
step does not take the task from a snapshot that meets the gate to one
that does not. -/
def GateQuiet (c c' : System) : Prop :=
  ∀ p ∈ c.procs, p.Live → p.log.count .getTask = 1 → ∀ taskId ∈ p.call.completes,
    GateMet c.time.now.store taskId → GateMet c'.time.now.store taskId

instance (c c' : System) : Decidable (GateQuiet c c') := by
  unfold GateQuiet
  infer_instance

/-- The setting of a run whose completions are to meet their gate. -/
def World.gated (w : World) (H : Hashing) : Setting :=
  w.setting H fun state profile => completionBlockers state profile = []

/-- The gate, read off the cell. -/
theorem gateMet_iff (hk : Kept (w.free H) h) :
    GateMet h.now.store taskId ↔
      ∀ cell, h.now.store.cell taskId = some cell → cell.Met (w.gated H) := by
  constructor
  · intro hm cell hc base profile hb hp
    obtain ⟨hmem, hid, -⟩ := cell_eq_some.mp hc
    obtain ⟨base', hb', hget⟩ := (hk.grown _ _ hc).chained.getTaskRevision hc
    obtain rfl := Option.some.inj (hb.symm.trans hb')
    exact hm cell.row hmem hid base hget profile ((hk.profile _).trans hp)
  · intro hm row hmem hid r hget profile hp
    obtain ⟨cell, hc, rfl⟩ := cell_of_mem hmem
    rw [hid] at hc
    obtain ⟨base, hb, hget'⟩ := (hk.grown _ _ hc).chained.getTaskRevision hc
    obtain rfl := Option.some.inj (hget.symm.trans hget')
    exact hm cell hc r profile hb ((hk.profile _).symm.trans hp)

/-- The blockers are read off the items and the constraints alone. -/
theorem completionBlockers_congr {state next : TaskState} {profile : TaskProfile}
    (hitems : next.val.items = state.val.items)
    (hconstraints : next.val.constraints = state.val.constraints) :
    completionBlockers next profile = completionBlockers state profile := by
  unfold completionBlockers kindSettled
  rw [hitems, hconstraints]

/-- What was completed, of a cell. -/
def Cell.Completed (E : Setting) (cell : Cell) : Prop :=
  cell.row.lifecycle = .completed → ∃ r profile, cell.head? = some r ∧
    E.profile cell.row.profileVersion = some profile ∧ completionBlockers r.state profile = []

/-- **A completion commits what meets its gate**: one move. -/
theorem Moves.completed (hm : Moves (w.gated H) h cell cell') : cell'.Completed (w.gated H) := by
  intro hcompleted
  obtain ⟨base, next, S⟩ := hm.2.successor hm.1
  have hid := S.identity
  simp only [TaskRow.identity, Prod.mk.injEq] at hid
  have hlive := S.live
  cases hm.2 with
  | commit _ _ _ _ _ _ _ hrow _ =>
    have hsame : cell'.row.lifecycle = cell.row.lifecycle := by
      rw [hrow]
      rfl
    rw [← hsame, hcompleted] at hlive
    cases hlive
  | @lifecycle base' next' target _ _ _ _ _ _ _ _ hnext hgate _ _ _ hrow hrevs =>
    have htarget : target = .completed := by
      rw [hrow, HeadChange.assign, lifecycleChange_lifecycle] at hcompleted
      exact hcompleted
    obtain ⟨profile, hp⟩ := hm.1.profile
    have hmet : completionBlockers base'.state profile = [] := hgate htarget profile hp
    have hv := lifecycleState_eq_ok hnext
    -- the snapshot that is completed has the items and constraints of the one that was read
    have hsame : completionBlockers next' profile = completionBlockers base'.state profile :=
      completionBlockers_congr (congrArg TaskStateFields.items hv :)
        (congrArg TaskStateFields.constraints hv :)
    refine ⟨_, profile, by rw [Cell.head?, hrevs, List.getLast?_concat], ?_, hsame.trans hmet⟩
    rw [hid.2.2.2.2.1, hp]

/-- **A completion commits what meets its gate**: over any run. -/
theorem Grown.completed (hg : Grown (w.gated H) h cell) : cell.Completed (w.gated H) := by
  obtain ⟨first, hs, ha⟩ := hg
  refine Versioned.invariant (fun _ _ hm _ => hm.completed) ha ?_
  intro hcompleted
  obtain ⟨-, -, -, -, -, -, -, hrow, -⟩ := hs
  rw [hrow] at hcompleted
  cases hcompleted

/-- A step that is quiet leaves the window of every completion alone. -/
theorem GateQuiet.quiet (hv : Visits H Call.keepsTasks w c)
    (hs : Step (Call.body H) Call.keepsTasks c c') (hq : GateQuiet c c') :
    (discipline (w.gated H) fun _ _ hb => hb).Quiet c c' := by
  intro p hp hlive
  rcases hcall : p.call with _ | _ | _ | _ | _ | ⟨scope, taskId, actor, actorRole, reason⟩ | _ | _ |
    _ | _ | _ | _
  case complete =>
    intro hcount hmet
    have htask : taskId ∈ p.call.completes := by
      rw [hcall]
      rfl
    have hbefore := (gateMet_iff hv.kept).mpr hmet
    have hafter := hq p hp hlive hcount taskId htask hbefore
    exact (gateMet_iff (hv.step hs).kept).mp hafter
  all_goals exact trivial

/-- **The completion gate.** In every run whose steps are quiet, every
revision that completes a task is a snapshot nothing blocks. -/
theorem completion_gate (hw : Fresh w)
    (hr : ReflTransGen (fun a b => Step (Call.body H) Call.keepsTasks a b ∧ GateQuiet a b)
      (Config.initial w) c) : CompletionsMet c.time.now.store := by
  have hgood : (discipline (w.gated H) fun _ _ hb => hb).Good c ∧
      Visits H Call.keepsTasks w c := by
    induction hr with
    | refl => exact ⟨Discipline.good_initial _ (hw.kept H _), hw, .refl⟩
    | tail _ hs ih =>
      obtain ⟨hg, hv⟩ := ih
      exact ⟨(Discipline.good_step _ hg hs.1 (hs.2.quiet hv hs.1)).1, hv.step hs.1⟩
  have hk : Kept (w.gated H) c.time := hgood.1.1
  intro row hmem r hr hcompleted
  obtain ⟨cell, hc, rfl⟩ := cell_of_mem hmem
  have hg := hk.grown _ _ hc
  rw [Store.chain_of_cell hc] at hr
  have hterminal : r.state.val.lifecycle.terminal = true := by
    rw [hcompleted]
    rfl
  obtain ⟨hhead, hlife⟩ := hg.chained.head_of_terminal hr hterminal
  obtain ⟨r', profile, hr', hp, hblockers⟩ := hg.completed (hlife.trans hcompleted)
  obtain rfl := Option.some.inj (hhead.symm.trans hr')
  exact ⟨profile, (hk.profile _).trans hp, hblockers⟩

/-! ## The window, and a run that keeps to it -/

/-- The task is completed. -/
def exampleComplete : Call := .complete exampleScope "t" "a" .operator "r"

/-- A schedule, played from the example's store under a test of its
steps. -/
def played (passes : System → System → Bool) (choices : List (Choice Call)) : Option System :=
  Config.play (Call.body itemHashing) (fun k => decide k.keepsTasks) passes choices
    (Config.initial exampleWorld)

/-- What is played is a run. -/
theorem run_of_played (passes : System → System → Bool) (choices : List (Choice Call))
    (check : System → Bool) (hp : (played passes choices).any check = true) :
    ∃ c, ReflTransGen (fun a b => Step (Call.body itemHashing) Call.keepsTasks a b ∧
      passes a b = true) (Config.initial exampleWorld) c ∧ check c = true := by
  rcases hc : played passes choices with - | c
  · rw [hc] at hp
    cases hp
  · rw [hc] at hp
    have hrun := reaches_of_play hc
    simp only [decide_eq_true_eq] at hrun
    exact ⟨c, hrun, hp⟩

/-- A completion that nobody comes between. -/
def aloneSchedule : List (Choice Call) :=
  [Choice.begin (Call.start exampleStart [])] ++ List.replicate 5 (Choice.act 0) ++
    [Choice.begin exampleComplete] ++ List.replicate 9 (Choice.act 1)

/-- A completion that a submit comes between, after its gate read. -/
def racedSchedule : List (Choice Call) :=
  [Choice.begin (Call.start exampleStart [])] ++ List.replicate 5 (Choice.act 0) ++
    [Choice.begin exampleComplete] ++ List.replicate 2 (Choice.act 1) ++ [Choice.begin (Call.submit addProposal false "step")] ++
    List.replicate 8 (Choice.act 2) ++ List.replicate 7 (Choice.act 1)

/-- A required item is added between the gate read of a completion and
its second lookup: the task is completed with the item pending. -/
theorem completed_while_blocked :
    ¬ ∀ (H : Hashing) (w : World) (c : System), Visits H Call.keepsTasks w c →
      CompletionsMet c.time.now.store := by
  intro hall
  obtain ⟨c, hr, hc⟩ := run_of_played (fun _ _ => true) racedSchedule
    (fun c => !decide (CompletionsMet c.time.now.store)) (by decide +kernel)
  have hmet := hall itemHashing exampleWorld c
    ⟨fresh_exampleWorld, hr.lift id fun _ _ hs => hs.1⟩
  simp [hmet] at hc

/-- The gate at a completion nobody comes between. -/
theorem completion_gate_alone :
    ∃ c, ReflTransGen (fun a b => Step (Call.body itemHashing) Call.keepsTasks a b ∧
        GateQuiet a b) (Config.initial exampleWorld) c ∧
      (∃ row ∈ c.time.now.store.tasks.rows, row.lifecycle = .completed) ∧
      CompletionsMet c.time.now.store := by
  obtain ⟨c, hr, hc⟩ := run_of_played (fun a b => decide (GateQuiet a b)) aloneSchedule
    (fun c => c.time.now.store.tasks.rows.any fun row => row.lifecycle = .completed)
    (by decide +kernel)
  simp only [decide_eq_true_eq] at hr
  obtain ⟨row, hrow, hcompleted⟩ := List.any_eq_true.mp hc
  exact ⟨c, hr, ⟨row, hrow, of_decide_eq_true hcompleted⟩, completion_gate fresh_exampleWorld hr⟩

end Atmem
