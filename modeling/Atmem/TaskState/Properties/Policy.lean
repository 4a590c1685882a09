import Atmem.TaskState.Helpers.Apply
import Atmem.TaskState.Model.Policy
import Mathlib.Logic.Relation
/-!
# What an accepted proposal may do to the items of a task

Three laws of the policy, each over every snapshot, profile and proposal:
settled work stays settled, no item carries more assurance than its
proposer may claim, and what is newly completed is backed and unblocked.
The first two fail at one kind of operation each; the condition under
which they hold is exact.
-/

namespace Atmem

open Relation

variable {H : Hashing} {state next w w' last : TaskState} {profile : TaskProfile}
variable {proposal : TaskStateProposal} {operation : TaskOperation}
variable {operations : List TaskOperation} {nowIso : String} {known : Option (List String)}
variable {allowPrivileged : Bool} {decision : PolicyDecision}

/-! ## An example -/

theorem postInit_exampleScope :
    AuthorityScopeFields.postInit ⟨"s", "a", "w"⟩ = .ok () := by decide +kernel

/-- The scope of the examples. -/
def exampleScope : AuthorityScope := ⟨⟨"s", "a", "w"⟩, postInit_exampleScope⟩

/-- One item, in a status that needs no reason. -/
def exampleItem (status : ItemStatus) : TaskItemFields :=
  { itemId := "i", kind := "k", title := "t", status }

/-- An open task of the built-in profile that holds one item. -/
def exampleFields (item : TaskItem) : TaskStateFields where
  taskId := "t"
  scope := exampleScope
  revision := 1
  lifecycle := .open
  phase := "plan"
  goal := "g"
  profileId := "general"
  profileVersion := "general-v1"
  items := [item]

/-- An item that is settled. -/
def completedItem : TaskItem := ⟨exampleItem .completed, by decide +kernel⟩

/-- An item that waits. -/
def pendingItem : TaskItem := ⟨exampleItem .pending, by decide +kernel⟩

/-- A task with the settled item. -/
def completedState : TaskState := ⟨exampleFields completedItem, by decide +kernel⟩

/-- A task with the waiting item. -/
def pendingState : TaskState := ⟨exampleFields pendingItem, by decide +kernel⟩

/-- A hash that tells two snapshots from every other. -/
def exampleHashing : Hashing where
  digest j :=
    if j = completedState.semanticDict then "sha256:0"
    else if j = pendingState.semanticDict then "sha256:1" else "sha256:2"
  sha256Hex s := s

/-- A host's proposal of one operation. -/
def exampleProposal (operation : TaskOperation) : TaskStateProposalFields where
  proposalId := "p"
  taskId := "t"
  scope := exampleScope
  baseRevision := 1
  idempotencyKey := "k"
  actor := "a"
  actorRole := .hostAgent
  operations := [operation]

/-- What an evaluation commits, where it accepts. -/
def committed : Except String PolicyDecision → Option TaskState
  | .ok decision => if decision.accepted then decision.nextState else none
  | .error _ => none

/-- An evaluation that commits something accepts. -/
theorem committed_any {result : Except String PolicyDecision} {p : TaskState → Bool}
    (h : (committed result).any p = true) :
    ∃ decision next, result = .ok decision ∧ decision.accepted = true ∧
      decision.nextState = some next ∧ p next = true := by
  rcases hc : committed result with - | next
  · rw [hc] at h
    cases h
  · rw [hc] at h
    unfold committed at hc
    split at hc
    · rename_i decision
      split at hc
      · exact ⟨decision, next, rfl, ‹_›, hc, h⟩
      · cases hc
    · cases hc

/-! ## Settled work -/

/-- Reachable through the table of transitions. -/
def Reachable : ItemStatus → ItemStatus → Prop :=
  ReflTransGen fun current target => target ∈ legalStatusTransitions current

/-- Whatever is not settled reaches every status: all of it can be
blocked, what is blocked can be put back to pending, and pending work can
go anywhere. -/
theorem reachable_of_not_settled {current target : ItemStatus} (h : current.settled = false) :
    Reachable current target := by
  have hblocked : Reachable current .blocked := by
    cases current with
    | pending | ready | running => exact .single (by decide)
    | blocked => exact .refl
    | failed => exact .head (b := .ready) (by decide) (.single (by decide))
    | completed | skipped => cases h
  have hpending : Reachable current .pending := hblocked.tail (by decide)
  cases target with
  | pending => exact hpending
  | _ => exact hpending.tail (by decide)

/-- Nothing leaves a settled status. -/
theorem reachable_iff_of_settled {current target : ItemStatus} (h : current.settled = true) :
    Reachable current target ↔ target = current := by
  constructor
  · intro hr
    rcases ReflTransGen.cases_head hr with rfl | ⟨next, hn, -⟩
    · rfl
    · cases current with
      | completed | skipped => simp [legalStatusTransitions] at hn
      | _ => cases h
  · rintro rfl
    exact .refl

/-- Every item of the base is where the table can take it, and settled
items are as they were. -/
def StatusesFollow (state next : TaskState) : Prop :=
  ∀ item ∈ state.val.items, ∃ after, next.item item.val.itemId = some after ∧
    Reachable item.val.status after.val.status ∧
    (item.val.status.settled = true → after.val.status = item.val.status)

/-- The status an operation writes to an item. -/
def statusWrite (operation : TaskOperation) (itemId : String) : Option ItemStatus :=
  if itemId = str operation.val.itemId then
    match operation.val.kind with
    | .setItemStatus => operation.val.status
    | .setItemBlocker => some .blocked
    | _ => none
  else none

/-- The last status a list of operations writes to an item. -/
def lastStatusWrite (itemId : String) : List TaskOperation → Option ItemStatus
  | [] => none
  | operation :: operations =>
    (lastStatusWrite itemId operations).or (statusWrite operation itemId)

/-- No settled item's status is last written by a blocker, or to another
status. -/
def SettledWorkKept (state : TaskState) (proposal : TaskStateProposal) : Prop :=
  ∀ item ∈ state.val.items, item.val.status.settled = true →
    ∀ status, lastStatusWrite item.val.itemId proposal.val.operations = some status →
      status = item.val.status

/-- An operation writes the status, or leaves it. -/
theorem onItem_status (item : TaskItemFields) :
    (operation.onItem item).status = (statusWrite operation item.itemId).getD item.status := by
  unfold TaskOperation.onItem statusWrite
  split
  · rcases hk : operation.val.kind <;> rfl
  · rfl

/-- The last write of the status counts. -/
theorem onItems_status (item : TaskItemFields) :
    (onItems operations item).status =
      (lastStatusWrite item.itemId operations).getD item.status := by
  induction operations generalizing item with
  | nil => rfl
  | cons operation operations ih =>
    have h := ih (operation.onItem item)
    rw [onItem_itemId, onItem_status] at h
    refine h.trans ?_
    rw [lastStatusWrite]
    rcases lastStatusWrite item.itemId operations with - | status <;> rfl

/-- **Settled work stays settled exactly where no blocker has the last
word on it.** An accepted proposal keeps every item to the transition
table if and only if, for every settled item of the base, the last
operation that writes its status, if there is one, writes the status it
had. -/
theorem statusesFollow_iff_settledWorkKept
    (h : evaluate H state profile proposal nowIso known allowPrivileged = .ok decision)
    (ha : decision.accepted = true) (hn : decision.nextState = some next) :
    StatusesFollow state next ↔ SettledWorkKept state proposal := by
  obtain ⟨next', hacc⟩ := acceptance_of_evaluate h ha
  obtain rfl : next' = next := Option.some.inj (hacc.nextState.symm.trans hn)
  constructor
  · intro hf item hi hs status hw
    obtain ⟨after, hafter, -, hkeep⟩ := hf item hi
    obtain ⟨after', hafter', hv⟩ := hacc.item_next hi
    obtain rfl : after' = after := Option.some.inj (hafter'.symm.trans hafter)
    rw [← hkeep hs, hv, onItems_status, hw]
    rfl
  · intro hk item hi
    obtain ⟨after, hafter, hv⟩ := hacc.item_next hi
    refine ⟨after, hafter, ?_, fun hs => ?_⟩
    · rcases hs : item.val.status.settled
      · exact reachable_of_not_settled hs
      · rw [reachable_iff_of_settled hs, hv, onItems_status]
        rcases hw : lastStatusWrite item.val.itemId proposal.val.operations with - | status
        · rfl
        · exact hk item hi hs status hw
    · rw [hv, onItems_status]
      rcases hw : lastStatusWrite item.val.itemId proposal.val.operations with - | status
      · rfl
      · exact hk item hi hs status hw

/-- A blocker put on a completed item. -/
def blockerOperation : TaskOperation :=
  ⟨{ kind := .setItemBlocker, itemId := some "i" }, by decide +kernel⟩

/-- The settled item is blocked. -/
def blockerProposal : TaskStateProposal := ⟨exampleProposal blockerOperation, by decide +kernel⟩

/-- A change of the content of a completed item. -/
def contentOperation : TaskOperation :=
  ⟨{ kind := .setItemContent, itemId := some "i", content := some [("c", .int 1)] },
    by decide +kernel⟩

/-- The content of the settled item is set. -/
def contentProposal : TaskStateProposal := ⟨exampleProposal contentOperation, by decide +kernel⟩

/-- A blocker is no transition: it takes a completed item out of its
status. -/
theorem completed_item_blocked :
    ¬ ∀ (H : Hashing) (state next : TaskState) (profile : TaskProfile)
      (proposal : TaskStateProposal) (nowIso : String) (known : Option (List String))
      (decision : PolicyDecision),
      evaluate H state profile proposal nowIso known false = .ok decision →
      decision.accepted = true → decision.nextState = some next → StatusesFollow state next := by
  intro hall
  have hc : ((committed (evaluate exampleHashing completedState generalV1 blockerProposal "n" none
      false)).any fun next => next.item "i" |>.all (·.val.status = .blocked)) = true := by
    decide +kernel
  obtain ⟨decision, next, he, ha, hn, hb⟩ := committed_any hc
  obtain ⟨after, hafter, -, hkeep⟩ :=
    hall _ _ _ _ _ _ _ _ he ha hn completedItem List.mem_cons_self
  have hstatus : after.val.status = .completed := hkeep rfl
  have hblocked : next.item "i" = some after := hafter
  simp [hblocked, hstatus] at hb

/-- The law at a change of a completed item's content. -/
theorem statusesFollow_of_content :
    ∃ decision next, evaluate exampleHashing completedState generalV1 contentProposal "n" none
      false = .ok decision ∧ StatusesFollow completedState next := by
  have hc : ((committed (evaluate exampleHashing completedState generalV1 contentProposal "n" none
      false)).any fun _ => true) = true := by decide +kernel
  obtain ⟨decision, next, he, ha, hn, -⟩ := committed_any hc
  refine ⟨decision, next, he, (statusesFollow_iff_settledWorkKept he ha hn).mpr ?_⟩
  intro item hi _ status hw
  obtain rfl := List.mem_singleton.mp hi
  cases hw

/-! ## Assurance -/

/-- The strongest assurance an item may carry after a proposal: what it
carried, or what the proposer may claim. -/
def assuranceBound (state : TaskState) (proposal : TaskStateProposal) (itemId : String) : ℕ :=
  max (((state.item itemId).map fun item => item.val.assurance.rank).getD 0)
    (assuranceCeiling proposal.val.actorRole).rank

/-- No item of the next state is assured further than its bound. -/
def WithinCeiling (state next : TaskState) (proposal : TaskStateProposal) : Prop :=
  ∀ item ∈ next.val.items,
    item.val.assurance.rank ≤ assuranceBound state proposal item.val.itemId

/-- The kinds of operation that carry their assurance to an item. -/
def OperationKind.carriesAssurance : OperationKind → Bool
  | .addItem | .setItemStatus => true
  | _ => false

/-- Every operation that carries its assurance to an item claims what the
item may carry. -/
def OperationsWithinCeiling (state : TaskState) (proposal : TaskStateProposal) : Prop :=
  ∀ operation ∈ proposal.val.operations, operation.val.kind.carriesAssurance = true →
    operation.val.assurance.rank ≤ assuranceBound state proposal (str operation.val.itemId)

/-- The stronger one has the higher rank. -/
theorem stronger_rank (current proposed : Assurance) :
    (stronger current proposed).rank = max current.rank proposed.rank := by
  unfold stronger
  split <;> omega

/-- An operation raises the assurance of its item at most to its own. -/
theorem onItem_assurance_rank (item : TaskItemFields) :
    (operation.onItem item).assurance.rank =
      if item.itemId = str operation.val.itemId ∧ operation.val.kind = .setItemStatus then
        max item.assurance.rank operation.val.assurance.rank
      else item.assurance.rank := by
  unfold TaskOperation.onItem
  rcases hid : decide (item.itemId = str operation.val.itemId) with - | -
  · simp at hid
    simp [hid]
  · simp at hid
    rw [if_pos hid]
    rcases hk : operation.val.kind <;> simp [hid, TaskOperation.setStatus, TaskOperation.setBlocker,
      stronger_rank]

/-- One operation that passed: the items keep to a bound exactly where
they did and the operation does. -/
theorem assurance_step {bound : String → ℕ}
    (hv : validateOperation operation w profile proposal allowPrivileged = none)
    (ha : applyOperation w.draft operation = .ok w'.draft) :
    (∀ item ∈ fieldsOf w'.val.items, item.assurance.rank ≤ bound item.itemId) ↔
      (∀ item ∈ fieldsOf w.val.items, item.assurance.rank ≤ bound item.itemId) ∧
      (operation.val.kind.carriesAssurance = true →
        operation.val.assurance.rank ≤ bound (str operation.val.itemId)) := by
  have hf : fieldsOf w'.val.items = (fieldsOf w.val.items).map operation.onItem ++ operation.added :=
    fieldsOf_applyOperation ha
  have hpass := validateOperation_eq_none hv
  rw [hf]
  simp only [List.forall_mem_append, List.forall_mem_map, onItem_itemId, onItem_assurance_rank]
  -- only a new item and a new status carry an assurance
  rcases hk : operation.val.kind <;> rw [hk] at hpass
  case addItem =>
    simp [TaskOperation.added, hk, OperationKind.carriesAssurance, TaskOperation.newItem]
  case setItemStatus =>
    obtain ⟨named, hn, -⟩ := hpass
    obtain ⟨hmem, hid⟩ := mem_of_item_eq_some hn
    simp only [TaskOperation.added, hk, OperationKind.carriesAssurance, reduceCtorEq, if_false,
      List.not_mem_nil, false_imp_iff, implies_true, and_true, true_imp_iff]
    constructor
    · intro h
      refine ⟨fun item hi => ?_, ?_⟩
      · have := h item hi
        -- the named item takes the larger of the two, so the bound holds of both
        split at this <;> omega
      · have := h named.val (List.mem_map_of_mem hmem)
        rw [if_pos hid] at this
        rw [← hid]
        omega
    · rintro ⟨hb, hop⟩ item hi
      have := hb item hi
      split
      · rename_i hid
        rw [← hid] at hop
        omega
      · exact this
  all_goals simp [TaskOperation.added, hk, OperationKind.carriesAssurance]

/-- Any number of operations that passed. -/
theorem assurance_run (bound : String → ℕ)
    (h : Accepted profile proposal allowPrivileged w operations last) :
    (∀ item ∈ fieldsOf last.val.items, item.assurance.rank ≤ bound item.itemId) ↔
      (∀ item ∈ fieldsOf w.val.items, item.assurance.rank ≤ bound item.itemId) ∧
      ∀ operation ∈ operations, operation.val.kind.carriesAssurance = true →
        operation.val.assurance.rank ≤ bound (str operation.val.itemId) := by
  induction h with
  | nil w => simp
  | cons hv ha _ ih =>
    rw [ih, assurance_step hv ha, List.forall_mem_cons, and_assoc]

/-- An accepted proposal keeps every item within the bound exactly where
each of its operations does. -/
theorem withinCeiling_iff
    (h : evaluate H state profile proposal nowIso known allowPrivileged = .ok decision)
    (ha : decision.accepted = true) (hn : decision.nextState = some next) :
    WithinCeiling state next proposal ↔ OperationsWithinCeiling state proposal := by
  obtain ⟨next', hacc⟩ := acceptance_of_evaluate h ha
  obtain rfl : next' = next := Option.some.inj (hacc.nextState.symm.trans hn)
  obtain ⟨last, hrun, hd⟩ := hacc.accepted
  have hitems : next'.val.items = last.val.items := congrArg Draft.items hd
  have hbase : ∀ item ∈ fieldsOf state.val.items,
      item.assurance.rank ≤ assuranceBound state proposal item.itemId := by
    intro item hi
    obtain ⟨held, hm, rfl⟩ := List.mem_map.mp hi
    rw [assuranceBound, item_eq_some_iff.mpr ⟨hm, rfl⟩]
    exact Nat.le_max_left _ _
  have hrank := assurance_run (assuranceBound state proposal) hrun
  rw [and_iff_right hbase] at hrank
  rw [OperationsWithinCeiling, ← hrank, ← hitems, WithinCeiling]
  simp [fieldsOf]

/-- A proposal of a host agent or of the model companion, accepted, whose
operations keep to the bound. -/
def CompanionStep (state next : TaskState) : Prop :=
  ∃ (H : Hashing) (profile : TaskProfile) (proposal : TaskStateProposal) (nowIso : String)
    (known : Option (List String)) (allowPrivileged : Bool) (decision : PolicyDecision),
    evaluate H state profile proposal nowIso known allowPrivileged = .ok decision ∧
    decision.accepted = true ∧ decision.nextState = some next ∧
    (proposal.val.actorRole = .hostAgent ∨ proposal.val.actorRole = .atbotIntelligence) ∧
    OperationsWithinCeiling state proposal

/-- **The assurance ceiling holds exactly of operations that keep to
it.** An accepted proposal leaves every item within what it carried or
its proposer may claim if and only if every operation that carries its
assurance to an item does; and over any number of such proposals of hosts
and companions, an item that ends up confirmed by an operator or
independently verified was so at the start. -/
theorem assurance_ceiling {H : Hashing} {state next first last : TaskState}
    {profile : TaskProfile} {proposal : TaskStateProposal} {nowIso : String}
    {known : Option (List String)} {allowPrivileged : Bool} {decision : PolicyDecision} :
    (evaluate H state profile proposal nowIso known allowPrivileged = .ok decision →
      decision.accepted = true → decision.nextState = some next →
      (WithinCeiling state next proposal ↔ OperationsWithinCeiling state proposal)) ∧
    (ReflTransGen CompanionStep first last →
      ∀ item ∈ last.val.items, Assurance.operatorConfirmed.rank ≤ item.val.assurance.rank →
        ∃ before ∈ first.val.items, before.val.itemId = item.val.itemId ∧
          item.val.assurance.rank ≤ before.val.assurance.rank) := by
  refine ⟨fun h ha hn => withinCeiling_iff h ha hn, fun hr => ?_⟩
  induction hr with
  | refl => exact fun item hi _ => ⟨item, hi, rfl, Nat.le_refl _⟩
  | tail _ hs ih =>
    obtain ⟨H, profile, proposal, nowIso, known, allowPrivileged, decision, he, ha, hn, hrole,
      hops⟩ := hs
    intro item hi hrank
    have hb := (withinCeiling_iff he ha hn).mpr hops item hi
    have hceiling : (assuranceCeiling proposal.val.actorRole).rank < item.val.assurance.rank := by
      refine Nat.lt_of_lt_of_le ?_ hrank
      rcases hrole with hrole | hrole <;> rw [hrole] <;> decide
    rw [assuranceBound] at hb
    rcases hm : (TaskState.item _ item.val.itemId) with - | middle
    · rw [hm] at hb
      simp at hb
      omega
    · rw [hm] at hb
      obtain ⟨hmem, hid⟩ := mem_of_item_eq_some hm
      simp only [Option.map_some, Option.getD_some] at hb
      obtain ⟨before, hbefore, hid', hle⟩ := ih middle hmem (by omega)
      exact ⟨before, hbefore, hid'.trans hid, by omega⟩

/-- A host's operation that marks the item, claiming an assurance. -/
def statusOperation (target : ItemStatus) (assurance : Assurance) : TaskOperationFields :=
  { kind := .setItemStatus, itemId := some "i", status := some target, assurance }

/-- The item is set running, verified independently. -/
def verifiedOperation : TaskOperation :=
  ⟨statusOperation .running .independentlyVerified, by decide +kernel⟩

/-- The proposal of it. -/
def verifiedProposal : TaskStateProposal := ⟨exampleProposal verifiedOperation, by decide +kernel⟩

/-- Only the proposal's own assurance is compared with the ceiling: a
host's operation carries independent verification to an item. -/
theorem host_item_verified :
    ¬ ((∀ (H : Hashing) (state next : TaskState) (profile : TaskProfile)
      (proposal : TaskStateProposal) (nowIso : String) (known : Option (List String))
      (decision : PolicyDecision),
      evaluate H state profile proposal nowIso known false = .ok decision →
      decision.accepted = true → decision.nextState = some next →
      WithinCeiling state next proposal)) := by
  intro hall
  have hc : ((committed (evaluate exampleHashing pendingState generalV1 verifiedProposal "n" none
      false)).any fun next => next.val.items.any fun item =>
        item.val.itemId = "i" ∧ item.val.assurance = .independentlyVerified) = true := by
    decide +kernel
  obtain ⟨decision, next, he, ha, hn, hb⟩ := committed_any hc
  obtain ⟨item, hi, hitem⟩ := List.any_eq_true.mp hb
  obtain ⟨hid, hrank⟩ : item.val.itemId = "i" ∧ item.val.assurance = .independentlyVerified := by
    simpa using hitem
  have hw := hall _ _ _ _ _ _ _ _ he ha hn item hi
  rw [hid, hrank] at hw
  exact absurd hw (by decide +kernel)

/-- The item is set running, as the host reports. -/
def runningOperation : TaskOperation :=
  ⟨statusOperation .running .hostReported, by decide +kernel⟩

/-- The proposal of it. -/
def runningProposal : TaskStateProposal := ⟨exampleProposal runningOperation, by decide +kernel⟩

/-- The ceiling at a host's operation that keeps to it. -/
theorem assurance_ceiling_of_running :
    ∃ decision next, evaluate exampleHashing pendingState generalV1 runningProposal "n" none
      false = .ok decision ∧ WithinCeiling pendingState next runningProposal := by
  have hc : ((committed (evaluate exampleHashing pendingState generalV1 runningProposal "n" none
      false)).any fun _ => true) = true := by decide +kernel
  obtain ⟨decision, next, he, ha, hn, -⟩ := committed_any hc
  have hceiling := (@assurance_ceiling _ _ next pendingState pendingState _ _ _ _ _ _).1 he ha hn
  refine ⟨decision, next, he, hceiling.mpr ?_⟩
  intro operation hop _
  obtain rfl := List.mem_singleton.mp hop
  decide +kernel

/-! ## Completion -/

/-- A status operation that completes the item of the identity. -/
def Completes (operation : TaskOperation) (itemId : String) : Prop :=
  operation.val.kind = .setItemStatus ∧ str operation.val.itemId = itemId ∧
    operation.val.status = some .completed

/-- The operations add the item of the identity as completed. -/
def AddedCompleted (operations : List TaskOperation) (itemId : String) : Prop :=
  ∃ operation ∈ operations, operation.val.kind = .addItem ∧
    str operation.val.itemId = itemId ∧ operation.val.status = some .completed

/-- The operations put a blocker on an item, and do not settle it again: the
last status they write to it is none of work that is done. -/
def Reopened (operations : List TaskOperation) (itemId : String) : Prop :=
  (∃ operation ∈ operations, operation.val.kind = .setItemBlocker ∧
    str operation.val.itemId = itemId) ∧
  ∃ status, lastStatusWrite itemId operations = some status ∧ status.settled = false

/-- A completion is backed: by the evidence of the proposal, by the
assurance of the proposal, or by that of the operation that completes. -/
def Backed (proposal : TaskStateProposal) (operations : List TaskOperation) (itemId : String) :
    Prop :=
  proposal.val.evidence ≠ [] ∨ Assurance.hostReported.rank ≤ proposal.val.assurance.rank ∨
    ∃ operation ∈ operations, Completes operation itemId ∧
      Assurance.hostReported.rank ≤ operation.val.assurance.rank

/-- An item waited for is settled. -/
def DependencySettled (state : TaskState) (dependencyId : String) : Prop :=
  (state.item dependencyId).any (fun item => item.val.status.settled) = true

/-- A dependency is settled exactly if its item is. -/
theorem dependencySettled_iff {itemId : String} :
    DependencySettled state itemId ↔
      ∃ item ∈ state.val.items, item.val.itemId = itemId ∧ item.val.status.settled = true := by
  rw [DependencySettled, Option.any_eq_true]
  constructor
  · rintro ⟨item, hi, hs⟩
    obtain ⟨hm, hid⟩ := mem_of_item_eq_some hi
    exact ⟨item, hm, hid, hs⟩
  · rintro ⟨item, hm, hid, hs⟩
    exact ⟨item, item_eq_some_iff.mpr ⟨hm, hid⟩, hs⟩

/-- What a status operation that passed found. -/
theorem validateStatus_of_passed {item : TaskItem} {target : ItemStatus}
    (hv : validateOperation operation w profile proposal allowPrivileged = none)
    (hk : operation.val.kind = .setItemStatus) (ht : operation.val.status = some target)
    (hi : item ∈ w.val.items) (hid : item.val.itemId = str operation.val.itemId) :
    validateStatus operation item target w proposal allowPrivileged = none := by
  have hpass := validateOperation_eq_none hv
  rw [hk] at hpass
  obtain ⟨named, hn, hs⟩ := hpass
  obtain rfl : item = named :=
    Option.some.inj ((item_eq_some_iff.mpr ⟨hi, hid⟩).symm.trans hn)
  exact hs target ht

/-- A status that passed is one the table allows. -/
theorem allowed_of_validateStatus {item : TaskItem} {target : ItemStatus}
    (h : validateStatus operation item target w proposal allowPrivileged = none) :
    allowsStatusTransition item.val.status target = true := by
  unfold validateStatus at h
  dsimp only at h
  split at h
  · cases h
  · rename_i hallow
    simpa using hallow

/-- A completion that passed is unblocked and backed. -/
theorem backed_of_validateStatus {item : TaskItem}
    (h : validateStatus operation item .completed w proposal allowPrivileged = none) :
    dependenciesSatisfied w item = true ∧ (proposal.val.evidence ≠ [] ∨
      Assurance.hostReported.rank ≤ proposal.val.assurance.rank ∨
      Assurance.hostReported.rank ≤ operation.val.assurance.rank) := by
  unfold validateStatus at h
  dsimp only at h
  iterate 5
    split at h
    · cases h
  rename_i hdeps _ _ hback
  refine ⟨by simpa using hdeps, ?_⟩
  rcases not_not.mp fun hne => hback ⟨rfl, hne⟩ with he | hr
  · exact Or.inl he
  · rcases Nat.le_total operation.val.assurance.rank proposal.val.assurance.rank with hle | hle
    · exact Or.inr (Or.inl (by omega))
    · exact Or.inr (Or.inr (by omega))

/-- **What is settled stays settled** while no blocker names it. -/
theorem dependencySettled_run {itemId : String}
    (h : Accepted profile proposal allowPrivileged w operations last)
    (hs : DependencySettled w itemId)
    (hb : ∀ operation ∈ operations, operation.val.kind = .setItemBlocker →
      str operation.val.itemId ≠ itemId) : DependencySettled last itemId := by
  induction h with
  | nil => exact hs
  | @cons w w' last operation operations hv ha _ ih =>
    refine ih ?_ fun op hop => hb op (List.mem_cons_of_mem _ hop)
    obtain ⟨item, hi, hid, hset⟩ := dependencySettled_iff.mp hs
    obtain ⟨after, hafter, hval⟩ := exists_onItem ha hi
    refine dependencySettled_iff.mpr ⟨after, hafter, by rw [hval, onItem_itemId, hid], ?_⟩
    rw [hval, onItem_status, hid, statusWrite]
    split
    · rename_i hnamed
      rcases hk : operation.val.kind <;> try exact hset
      case setItemStatus =>
        rcases ht : operation.val.status with - | target
        · exact hset
        · have hallow := allowed_of_validateStatus
            (validateStatus_of_passed hv hk ht hi (hid.trans hnamed))
          -- the table lets a settled item only be what it is
          revert hset hallow
          rcases item.val.status <;> rcases target <;> decide
      case setItemBlocker =>
        exact absurd hnamed.symm (hb operation List.mem_cons_self hk)
    · exact hset

/-- An item that was there, after the operations. -/
theorem exists_onItems (h : Accepted profile proposal allowPrivileged w operations last)
    {item : TaskItem} (hi : item ∈ w.val.items) :
    ∃ after ∈ last.val.items, after.val = onItems operations item.val := by
  induction h generalizing item with
  | nil => exact ⟨item, hi, rfl⟩
  | cons _ ha _ ih =>
    obtain ⟨middle, hmiddle, hval⟩ := exists_onItem ha hi
    obtain ⟨after, hafter, hval'⟩ := ih hmiddle
    exact ⟨after, hafter, by rw [hval', hval]; rfl⟩

/-- So does what a blocker names, where it is settled again. -/
theorem dependencySettled_of_not_reopened {itemId : String}
    (h : Accepted profile proposal allowPrivileged w operations last)
    (hs : DependencySettled w itemId) (hr : ¬ Reopened operations itemId) :
    DependencySettled last itemId := by
  by_cases hblocked : ∃ operation ∈ operations, operation.val.kind = .setItemBlocker ∧
      str operation.val.itemId = itemId
  · obtain ⟨item, hi, hid, hset⟩ := dependencySettled_iff.mp hs
    obtain ⟨after, hafter, hval⟩ := exists_onItems h hi
    refine dependencySettled_iff.mpr ⟨after, hafter, by rw [hval, onItems_itemId, hid], ?_⟩
    rw [hval, onItems_status, hid]
    rcases hw : lastStatusWrite itemId operations with - | status
    · exact hset
    · exact eq_true_of_ne_false fun hopen => hr ⟨hblocked, status, hw, hopen⟩
  · exact dependencySettled_run h hs fun op hop hk hne => hblocked ⟨op, hop, hk, hne⟩

/-- What is reopened by the end of a list is by the end of a longer one. -/
theorem Reopened.cons {itemId : String} (h : Reopened operations itemId) :
    Reopened (operation :: operations) itemId := by
  obtain ⟨⟨op, hop, hblocks⟩, status, hw, hopen⟩ := h
  refine ⟨⟨op, List.mem_cons_of_mem _ hop, hblocks⟩, status, ?_, hopen⟩
  rw [lastStatusWrite, hw]
  rfl

/-- **What is completed was completed, was added so, or was completed by
an operation that passed.** -/
theorem completed_run (h : Accepted profile proposal allowPrivileged w operations last)
    {item : TaskItem} (hi : item ∈ last.val.items) (hc : item.val.status = .completed)
    (hadd : ¬ AddedCompleted operations item.val.itemId) :
    (∃ before ∈ w.val.items, before.val.itemId = item.val.itemId ∧
      before.val.status = .completed ∧ before.val.dependsOn = item.val.dependsOn) ∨
    Backed proposal operations item.val.itemId ∧
      ∀ dependencyId ∈ item.val.dependsOn, ¬ Reopened operations dependencyId →
        DependencySettled last dependencyId := by
  induction h with
  | nil => exact Or.inl ⟨item, hi, rfl, hc, rfl⟩
  | @cons w w' last operation operations hv ha hrun ih =>
    have hmem {op : TaskOperation} (hop : op ∈ operations) : op ∈ operation :: operations :=
      List.mem_cons_of_mem _ hop
    rcases ih hi fun ⟨op, hop, h⟩ => hadd ⟨op, hmem hop, h⟩ with
      ⟨middle, hm, hid, hcomp, hdep⟩ | ⟨hback, hdeps⟩
    · -- it was completed when the later operations began
      rcases onItem_or_added ha hm with ⟨before, hbefore, hval⟩ | ⟨hk, hval⟩
      · rw [hval, onItem_itemId] at hid
        rw [hval, onItem_dependsOn] at hdep
        rw [hval, onItem_status, statusWrite] at hcomp
        split at hcomp
        · rename_i hnamed
          rcases hk : operation.val.kind <;> rw [hk] at hcomp
          case setItemStatus =>
            rcases ht : operation.val.status with - | target
            · rw [ht] at hcomp
              exact Or.inl ⟨before, hbefore, hid, hcomp, hdep⟩
            · rw [ht] at hcomp
              obtain rfl : target = .completed := hcomp
              obtain ⟨hd, hb⟩ := backed_of_validateStatus
                (validateStatus_of_passed hv hk ht hbefore hnamed)
              refine Or.inr ⟨?_, fun d hd' hnot => ?_⟩
              · refine hb.imp_right (Or.imp_right fun hr => ?_)
                exact ⟨operation, List.mem_cons_self, ⟨hk, by rw [← hnamed, hid], ht⟩, hr⟩
              · have hset : DependencySettled w d :=
                  List.all_eq_true.mp hd d (by rw [hdep]; exact hd')
                exact dependencySettled_of_not_reopened (.cons hv ha hrun) hset hnot
          case setItemBlocker => cases hcomp
          all_goals exact Or.inl ⟨before, hbefore, hid, hcomp, hdep⟩
        · exact Or.inl ⟨before, hbefore, hid, hcomp, hdep⟩
      · rw [hval] at hid hcomp
        refine absurd ⟨operation, List.mem_cons_self, hk, hid, ?_⟩ hadd
        rcases hs : operation.val.status with - | status
        · simp [TaskOperation.newItem, hs] at hcomp
        · simpa [TaskOperation.newItem, hs] using hcomp
    · -- a later operation completed it
      refine Or.inr ⟨?_, fun d hd hnot => hdeps d hd fun hr => hnot hr.cons⟩
      exact hback.imp_right (Or.imp_right fun ⟨op, hop, h⟩ => ⟨op, hmem hop, h⟩)

/-- **Completed items are backed and unblocked.** In the snapshot an
accepted proposal commits, an item that is completed, was not so in the
base and is not added as completed is backed by the proposal's evidence,
by its assurance or by that of the operation that completes the item; and
every item it waits for is settled, but for one that a blocker of the
proposal has reopened. -/
theorem completed_backed_and_unblocked
    (h : evaluate H state profile proposal nowIso known allowPrivileged = .ok decision)
    (ha : decision.accepted = true) (hn : decision.nextState = some next) :
    ∀ item ∈ next.val.items, item.val.status = .completed →
      (∀ before, state.item item.val.itemId = some before → before.val.status ≠ .completed) →
      ¬ AddedCompleted proposal.val.operations item.val.itemId →
      Backed proposal proposal.val.operations item.val.itemId ∧
      ∀ dependencyId ∈ item.val.dependsOn, ¬ Reopened proposal.val.operations dependencyId →
        DependencySettled next dependencyId := by
  obtain ⟨next', hacc⟩ := acceptance_of_evaluate h ha
  obtain rfl : next' = next := Option.some.inj (hacc.nextState.symm.trans hn)
  obtain ⟨last, hrun, hd⟩ := hacc.accepted
  have hitems : next'.val.items = last.val.items := congrArg Draft.items hd
  have hsat (dependencyId : String) :
      DependencySettled next' dependencyId ↔ DependencySettled last dependencyId := by
    rw [dependencySettled_iff, dependencySettled_iff, hitems]
  intro item hi hc hbase hadd
  rw [hitems] at hi
  simp only [hsat]
  rcases completed_run hrun hi hc hadd with ⟨before, hb, hid, hcomp, -⟩ | hright
  · exact absurd hcomp (hbase before (item_eq_some_iff.mpr ⟨hb, hid⟩))
  · exact hright

/-- A host's completion of the pending item, reported on the operation
alone. -/
def reportedOperation : TaskOperation :=
  ⟨statusOperation .completed .hostReported, by decide +kernel⟩

/-- The proposal of what the host reports. -/
def reportedProposal : TaskStateProposal := ⟨exampleProposal reportedOperation, by decide +kernel⟩

/-- The operation's own assurance carries a completion: neither evidence
nor an assurance of the proposal stands behind it. -/
theorem completion_reported_by_operation :
    ¬ ∀ (H : Hashing) (state next : TaskState) (profile : TaskProfile)
      (proposal : TaskStateProposal) (nowIso : String) (known : Option (List String))
      (decision : PolicyDecision),
      evaluate H state profile proposal nowIso known false = .ok decision →
      decision.accepted = true → decision.nextState = some next →
      ∀ item ∈ next.val.items, item.val.status = .completed →
        (∀ before, state.item item.val.itemId = some before → before.val.status ≠ .completed) →
        (proposal.val.evidence ≠ [] ∨
          Assurance.hostReported.rank ≤ proposal.val.assurance.rank) ∧
        dependenciesSatisfied next item = true := by
  intro hall
  have hc : ((committed (evaluate exampleHashing pendingState generalV1 reportedProposal "n" none
      false)).any fun next => next.val.items.any fun item =>
        item.val.itemId = "i" ∧ item.val.status = .completed) = true := by
    decide +kernel
  obtain ⟨decision, next, he, ha, hn, hb⟩ := committed_any hc
  obtain ⟨item, hi, hitem⟩ := List.any_eq_true.mp hb
  obtain ⟨hid, hcomp⟩ : item.val.itemId = "i" ∧ item.val.status = .completed := by
    simpa using hitem
  have hbase : ∀ before, pendingState.item item.val.itemId = some before →
      before.val.status ≠ .completed := by
    rw [hid]
    intro before hbefore
    obtain rfl : pendingItem = before :=
      Option.some.inj (hbefore.symm.trans (by rfl : pendingState.item "i" = _)).symm
    decide
  obtain ⟨hback, -⟩ := hall _ _ _ _ _ _ _ _ he ha hn item hi hcomp hbase
  exact absurd hback (by decide +kernel)

/-- The law at that completion: the operation's assurance backs it. -/
theorem completed_backed_of_reported :
    ∃ decision next, evaluate exampleHashing pendingState generalV1 reportedProposal "n" none
      false = .ok decision ∧ decision.nextState = some next ∧
      ∀ item ∈ next.val.items, item.val.status = .completed →
        (∀ before, pendingState.item item.val.itemId = some before →
          before.val.status ≠ .completed) →
        ¬ AddedCompleted reportedProposal.val.operations item.val.itemId →
        Backed reportedProposal reportedProposal.val.operations item.val.itemId ∧
        ∀ dependencyId ∈ item.val.dependsOn,
          ¬ Reopened reportedProposal.val.operations dependencyId →
            DependencySettled next dependencyId := by
  have hc : ((committed (evaluate exampleHashing pendingState generalV1 reportedProposal "n" none
      false)).any fun _ => true) = true := by decide +kernel
  obtain ⟨decision, next, he, ha, hn, -⟩ := committed_any hc
  exact ⟨decision, next, he, hn, completed_backed_and_unblocked he ha hn⟩

end Atmem
