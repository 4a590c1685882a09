import Mathlib.Data.String.Basic
import Atmem.TaskState.Helpers.LedgerCalls
import Atmem.TaskState.Properties.NoProgress
/-!
# What the guard against no progress counts

The guard counts by the stamp of the last progress, and only what is
equivalent to the action it is asked about. Where the stamps of the steps
are in order, that is the number of equivalent steps after the last accepted
progress, save for those that share its stamp without having come after it.
-/

namespace Atmem

open Interleaving

variable {H : Hashing} {w : World} {c : System} {allowed : Call → Prop}
variable {taskId fingerprint : String}

/-- The steps up to the one of the last accepted progress, or the first. -/
def Store.untilProgressStep (s : Store) (taskId : String) : List StepRow :=
  Stopwatch.beforeLast s.progressed (s.stepsOf taskId) ++
    (s.sinceProgressStep taskId).head?.toList

/-- The steps recorded after it. -/
def Store.idleSteps (s : Store) (taskId : String) : List StepRow :=
  (s.sinceProgressStep taskId).tail

/-- The step was of an equivalent action. -/
def StepRow.equivalent (fingerprint : String) (step : StepRow) : Bool :=
  step.actionFingerprint = some fingerprint

/-- The stamp of a step, as it is stored. -/
def StepRow.stamp (step : StepRow) : String := toIso step.recordedAtUtc

/-- The stamps of the steps do not go back. -/
def Store.StampsInOrder (s : Store) (taskId : String) : Prop :=
  (s.stepsOf taskId).Pairwise fun a b => a.stamp ≤ b.stamp

/-- No equivalent step up to the last progress shares its stamp. -/
def Store.NoTie (s : Store) (row : TaskRow) (fingerprint : String) : Prop :=
  ∀ step ∈ s.untilProgressStep row.taskId, step.equivalent fingerprint = true →
    step.stamp ≠ toIso row.lastProgressAtUtc

instance (s : Store) (taskId : String) : Decidable (s.StampsInOrder taskId) := by
  unfold Store.StampsInOrder
  infer_instance

instance (s : Store) (row : TaskRow) (fingerprint : String) :
    Decidable (s.NoTie row fingerprint) := by
  unfold Store.NoTie
  infer_instance

/-- The guard goes by `n` repeats: it is silent below the threshold, and what
it says is that there were `n`. -/
structure GoesBy (s : Store) (state : TaskState) (profile : TaskProfile)
    (fingerprint sinceUtc : String) (n : ℕ) : Prop where
  counted : s.countRecentEquivalentActions state.val.taskId fingerprint sinceUtc = n
  silent : evaluateNoProgress s state profile fingerprint sinceUtc = .ok none ↔
    n < profile.val.noProgressActionThreshold
  signalled : ∀ signal, evaluateNoProgress s state profile fingerprint sinceUtc = .ok (some signal) →
    signal.val.guardType = .noProgress ∧ signal.val.repeatedActionCount = n ∧
      signal.val.enforced = false

/-- The guard goes by what it counts. -/
theorem goesBy_count (s : Store) (state : TaskState) (profile : TaskProfile)
    (fingerprint sinceUtc : String) : GoesBy s state profile fingerprint sinceUtc
      (s.countRecentEquivalentActions state.val.taskId fingerprint sinceUtc) := by
  refine ⟨rfl, ?_, fun signal hsignal => ?_⟩
  · unfold evaluateNoProgress
    dsimp only
    split
    · rename_i hbelow
      exact iff_of_true rfl hbelow
    · rename_i hnot
      refine iff_of_false (fun hsilent => ?_) hnot
      obtain ⟨signal, -, hsome⟩ := Checked.bind_eq_ok_iff.mp hsilent
      cases hsome
  · unfold evaluateNoProgress at hsignal
    dsimp only at hsignal
    split at hsignal
    · cases hsignal
    · obtain ⟨signal', hmake, hsome⟩ := Checked.bind_eq_ok_iff.mp hsignal
      cases hsome
      have hfields := Checked.make_eq_ok.mp hmake
      rw [hfields]
      exact ⟨rfl, rfl, rfl⟩

/-- **What the guard counts.** In every run of any calls, where the stamps of
a task's steps do not go back, and no equivalent step up to the last accepted
progress shares its stamp, the guard goes by the number of equivalent steps
that were recorded after it. -/
theorem noProgress_goesBy_idleSteps (hv : Visits H allowed w c) {row : TaskRow}
    (hr : row ∈ c.time.now.store.tasks.rows) {state : TaskState} (profile : TaskProfile)
    (hstate : state.val.taskId = row.taskId)
    (hordered : c.time.now.store.StampsInOrder row.taskId)
    (hties : c.time.now.store.NoTie row fingerprint) :
    GoesBy c.time.now.store state profile fingerprint (toIso row.lastProgressAtUtc)
      ((c.time.now.store.idleSteps row.taskId).countP (StepRow.equivalent fingerprint)) := by
  obtain ⟨p, hp, hlast⟩ := hv.ledgered.since row hr
  generalize c.time.now.store = s at hordered hties hp ⊢
  have hstamp : toIso row.lastProgressAtUtc = p.stamp := congrArg toIso hlast
  -- the steps up to the last progress end with it
  have huntil : s.untilProgressStep row.taskId =
      Stopwatch.beforeLast s.progressed (s.stepsOf row.taskId) ++ [p] := by
    unfold Store.untilProgressStep
    rw [Option.mem_def.mp hp]
    rfl
  unfold Store.NoTie at hties
  rw [hstamp, huntil] at hties
  have hsince := Stopwatch.countP_since s.progressed StepRow.stamp (StepRow.equivalent fingerprint)
    hp hordered hties
  -- the query counts by stamp, which is in the order of the steps
  have hcounted : s.countRecentEquivalentActions state.val.taskId fingerprint
      (toIso row.lastProgressAtUtc) =
        (s.idleSteps row.taskId).countP (StepRow.equivalent fingerprint) := by
    refine Eq.trans ?_ hsince
    rw [Store.stepsOf, List.countP_filter, Store.countRecentEquivalentActions, hstate, hstamp]
    refine List.countP_congr fun step _ => ?_
    simp only [Bool.and_eq_true, decide_eq_true_eq]
    constructor
    · rintro ⟨htask, hequivalent, hle⟩
      exact ⟨⟨decide_eq_true hequivalent, hle⟩, htask⟩
    · rintro ⟨⟨hequivalent, hle⟩, htask⟩
      exact ⟨htask, of_decide_eq_true hequivalent, hle⟩
  rw [← hcounted]
  exact goesBy_count s state profile fingerprint _

/-! ## Two idle actions after a progress -/

/-- Two different actions that come too late for the revision they name. -/
def idleProposals : List TaskStateProposal :=
  [⟨{ exampleProposal runningOperation with
      proposalId := "q", idempotencyKey := "q", actionFingerprint := some "f" }, by decide +kernel⟩,
    ⟨{ exampleProposal runningOperation with
      proposalId := "r", idempotencyKey := "r", actionFingerprint := some "h" }, by decide +kernel⟩]

/-- A task starts, its item is set running, and then nothing moves. -/
def idleCalls : List Call :=
  [.start exampleStart [pendingItem], .submit runningProposal false "step"] ++
    idleProposals.map fun proposal => .submit proposal false "step"

/-- The example is a run. -/
theorem visits_idleCalls : ∃ c, Visits itemHashing Call.keepsTasks exampleWorld c ∧
    c.time.now = runAll (Call.body itemHashing) idleCalls exampleWorld :=
  visits_runAll fresh_exampleWorld (by decide)

/-- The guard, asked about one of two actions after a progress. -/
theorem goesBy_one_of_two : ∃ c row, Visits itemHashing Call.keepsTasks exampleWorld c ∧
    row ∈ c.time.now.store.tasks.rows ∧ (c.time.now.store.idleSteps row.taskId).length = 2 ∧
      GoesBy c.time.now.store pendingState generalV1 "f" (toIso row.lastProgressAtUtc) 1 := by
  obtain ⟨c, hv, hnow⟩ := visits_idleCalls
  have hfound : ∃ row ∈ c.time.now.store.tasks.rows, pendingState.val.taskId = row.taskId ∧
      c.time.now.store.StampsInOrder row.taskId ∧ c.time.now.store.NoTie row "f" ∧
        (c.time.now.store.idleSteps row.taskId).length = 2 ∧
          (c.time.now.store.idleSteps row.taskId).countP (StepRow.equivalent "f") = 1 := by
    rw [hnow]
    decide +kernel
  obtain ⟨row, hr, hstate, hordered, hties, hidle, hone⟩ := hfound
  refine ⟨c, row, hv, hr, hidle, ?_⟩
  rw [← hone]
  exact noProgress_goesBy_idleSteps hv hr generalV1 hstate hordered hties

/-- Different actions do not add up, though none of them progressed. -/
theorem different_actions_do_not_add_up :
    ¬ ∀ (H : Hashing) (w : World) (c : System), Visits H Call.keepsTasks w c →
      ∀ row ∈ c.time.now.store.tasks.rows, c.time.now.store.StampsInOrder row.taskId →
        ∀ (state : TaskState) (profile : TaskProfile) (fingerprint : String),
          state.val.taskId = row.taskId →
            GoesBy c.time.now.store state profile fingerprint (toIso row.lastProgressAtUtc)
              (c.time.now.store.idleSteps row.taskId).length := by
  intro hall
  obtain ⟨c, hv, hnow⟩ := visits_idleCalls
  have hfound : ∃ row ∈ c.time.now.store.tasks.rows, pendingState.val.taskId = row.taskId ∧
      c.time.now.store.StampsInOrder row.taskId ∧
        c.time.now.store.countRecentEquivalentActions "t" "f" (toIso row.lastProgressAtUtc) ≠
          (c.time.now.store.idleSteps row.taskId).length := by
    rw [hnow]
    decide +kernel
  obtain ⟨row, hr, hstate, hordered, hne⟩ := hfound
  exact hne (hall itemHashing exampleWorld c hv row hr hordered pendingState generalV1 "f"
    hstate).counted

end Atmem
