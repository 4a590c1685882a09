import Atmem.TaskState.Helpers.Writes
import Atmem.TaskState.Properties.Policy
/-!
# What stands behind a terminal phase

The terminal phase is let through where nothing blocks the task at the moment
it is set. The operations after it in the same proposal are not held to that:
the task that is committed meets its gate exactly where they leave settled
what completion waits for, and satisfy what they add to it.
-/

namespace Atmem

variable {H : Hashing} {state next w w' last : TaskState} {profile : TaskProfile}
variable {proposal : TaskStateProposal} {operation : TaskOperation}
variable {operations before after : List TaskOperation} {nowIso : String}
variable {known : Option (List String)} {allowPrivileged : Bool} {decision : PolicyDecision}

/-! ## The gate, read off -/

/-- Completion waits for an item in this role. -/
def ItemRole.Gating (role : ItemRole) (profile : TaskProfile) : Prop :=
  role.required = true ∨ role.kind ∈ profile.val.requiredItemKinds

/-- What meets the gate: every item completion waits for is settled, there is
one of every required kind, and every required constraint is satisfied. -/
structure MeetsGate (profile : TaskProfile) (state : TaskState) : Prop where
  settled : ∀ itemId role status, state.roleOf itemId = some role → role.Gating profile →
    state.statusOf itemId = some status → status.settled = true
  kinds : ∀ kind ∈ profile.val.requiredItemKinds,
    ∃ itemId role, state.roleOf itemId = some role ∧ role.kind = kind
  constraints : ∀ row ∈ rowsOf state.val.constraints, row.requiredForCompletion = true →
    row.satisfied = true

theorem eraseDups_eq_nil {α : Type} [BEq α] {l : List α} : l.eraseDups = [] ↔ l = [] := by
  cases l with
  | nil => rfl
  | cons a l => simp [List.eraseDups_cons]

/-- The role and the status of an item. -/
theorem roleOf_of_mem {item : TaskItem} (hi : item ∈ state.val.items) :
    state.roleOf item.val.itemId = some ⟨item.val.kind, item.val.required⟩ ∧
      state.statusOf item.val.itemId = some item.val.status := by
  unfold TaskState.roleOf TaskState.statusOf
  rw [item_eq_some_iff.mpr ⟨hi, rfl⟩]
  exact ⟨rfl, rfl⟩

/-- The item of an identity that has a role. -/
theorem exists_of_roleOf {itemId : String} {role : ItemRole}
    (hr : state.roleOf itemId = some role) :
    ∃ item ∈ state.val.items, item.val.itemId = itemId ∧ item.val.kind = role.kind ∧
      item.val.required = role.required ∧ state.statusOf itemId = some item.val.status := by
  obtain ⟨item, hitem, rfl⟩ := Option.map_eq_some_iff.mp hr
  obtain ⟨hmem, rfl⟩ := mem_of_item_eq_some hitem
  exact ⟨item, hmem, rfl, rfl, rfl, (roleOf_of_mem hmem).2⟩

/-- **Nothing blocks what meets the gate**, and what nothing blocks meets
it. -/
theorem completionBlockers_eq_nil : completionBlockers state profile = [] ↔
    MeetsGate profile state := by
  unfold completionBlockers
  dsimp only
  rw [eraseDups_eq_nil, List.append_eq_nil_iff, List.append_eq_nil_iff, List.map_eq_nil_iff,
    itemIds, List.map_eq_nil_iff, List.map_eq_nil_iff, List.filter_eq_nil_iff,
    List.filter_eq_nil_iff, List.filter_eq_nil_iff]
  simp only [Bool.and_eq_true, Bool.not_eq_true', Bool.not_eq_false, not_and]
  constructor
  · rintro ⟨⟨hitems, hkinds⟩, hconstraints⟩
    -- a kind is settled where an item has it, and every item that has it is
    have hkind (kind : String) (hk : kind ∈ profile.val.requiredItemKinds) :
        (∃ item ∈ state.val.items, item.val.kind = kind) ∧
          ∀ item ∈ state.val.items, item.val.kind = kind → item.val.status.settled = true := by
      have hs := hkinds kind hk
      unfold kindSettled at hs
      simp only [Bool.and_eq_true, Bool.not_eq_true', List.isEmpty_eq_false_iff, List.all_eq_true,
        List.mem_filter, decide_eq_true_eq, ne_eq, List.filter_eq_nil_iff, not_forall,
        not_not] at hs
      obtain ⟨⟨item, hi, hk⟩, hall⟩ := hs
      exact ⟨⟨item, hi, hk⟩, fun item hi hk => hall item ⟨hi, hk⟩⟩
    refine ⟨?_, ?_, ?_⟩
    · intro itemId role status hr hg hs
      obtain ⟨item, hi, rfl, hk, hreq, hs'⟩ := exists_of_roleOf hr
      obtain rfl : status = item.val.status := Option.some.inj (hs.symm.trans hs')
      rcases hg with hg | hg
      · exact hitems item hi (hreq.trans hg)
      · exact (hkind role.kind hg).2 item hi hk
    · intro kind hk
      obtain ⟨item, hi, rfl⟩ := (hkind kind hk).1
      exact ⟨item.val.itemId, _, (roleOf_of_mem hi).1, rfl⟩
    · intro row hrow hreq
      obtain ⟨held, hheld, rfl⟩ := List.mem_map.mp hrow
      exact hconstraints held hheld hreq
  · rintro ⟨hsettled, hkinds, hconstraints⟩
    -- items required by themselves or by their kind, and the constraints
    refine ⟨⟨fun item hi hreq => ?_, fun kind hk => ?_⟩, fun row hrow hreq => ?_⟩
    · exact hsettled _ _ _ (roleOf_of_mem hi).1 (.inl hreq) (roleOf_of_mem hi).2
    · obtain ⟨itemId, role, hr, rfl⟩ := hkinds kind hk
      obtain ⟨found, hf, -, hkf, -⟩ := exists_of_roleOf hr
      unfold kindSettled
      simp only [Bool.and_eq_true, Bool.not_eq_true', List.isEmpty_eq_false_iff, List.all_eq_true,
        List.mem_filter, decide_eq_true_eq, ne_eq, List.filter_eq_nil_iff, not_forall, not_not]
      refine ⟨⟨found, hf, hkf⟩, fun item hi => ?_⟩
      refine hsettled _ _ _ (roleOf_of_mem hi.1).1 (.inr ?_) (roleOf_of_mem hi.1).2
      rw [hi.2]
      exact hk
    · exact hconstraints row.val (List.mem_map_of_mem hrow) hreq

/-! ## The last phase -/

/-- The last write of the phase is the first from behind. -/
theorem lastPhaseWrite_eq_findSome? :
    lastPhaseWrite operations = operations.reverse.findSome? phaseWrite := by
  induction operations with
  | nil => rfl
  | cons operation operations ih =>
    rw [lastPhaseWrite, ih, List.reverse_cons, List.findSome?_append, List.findSome?_singleton]

/-- The operations end on a phase: after it no other is set. -/
theorem lastPhaseWrite_eq_some {phase : String} :
    lastPhaseWrite operations = some phase ↔ ∃ before operation after,
      operations = before ++ operation :: after ∧ phaseWrite operation = some phase ∧
        ∀ later ∈ after, phaseWrite later = none := by
  rw [lastPhaseWrite_eq_findSome?, List.findSome?_eq_some_iff]
  constructor
  · rintro ⟨after, op, before, hsplit, hw, hlater⟩
    refine ⟨before.reverse, op, after.reverse, ?_, hw, fun later hl => ?_⟩
    · simpa using congrArg List.reverse hsplit
    · exact hlater later (List.mem_reverse.mp hl)
  · rintro ⟨before, op, after, rfl, hw, hlater⟩
    exact ⟨after.reverse, op, before.reverse, by simp, hw, fun later hl =>
      hlater later (List.mem_reverse.mp hl)⟩

/-! ## Runs, taken apart -/

/-- Operations that were accepted were so in two parts. -/
theorem Accepted.append_inv
    (h : Accepted profile proposal allowPrivileged w (before ++ after) last) :
    ∃ middle, Accepted profile proposal allowPrivileged w before middle ∧
      Accepted profile proposal allowPrivileged middle after last := by
  induction before generalizing w with
  | nil => exact ⟨w, .nil w, h⟩
  | cons operation before ih =>
    cases h with
    | cons hv ha h =>
      obtain ⟨middle, hm, hl⟩ := ih h
      exact ⟨middle, .cons hv ha hm, hl⟩

/-- What was accepted was applied. -/
theorem Accepted.foldlM (h : Accepted profile proposal allowPrivileged w operations last) :
    operations.foldlM applyOperation w.draft = .ok last.draft := by
  induction h with
  | nil => rfl
  | cons _ ha _ ih =>
    rw [List.foldlM_cons, ha]
    exact ih

/-! ## What comes after the phase -/

/-- Completion waits for the item of an identity, as it is in the base or as
the operations add it. -/
def GatingItem (state : TaskState) (profile : TaskProfile) (operations : List TaskOperation)
    (itemId : String) : Prop :=
  ∃ role, (state.roleOf itemId).or (operations.findSome? (addedRole itemId)) = some role ∧
    role.Gating profile

/-- The operations after the last phase leave settled what completion waits
for, and satisfy every constraint they add to it. -/
structure TailKeepsGate (state : TaskState) (profile : TaskProfile)
    (operations after : List TaskOperation) : Prop where
  settled : ∀ itemId status, lastItemWrite itemId after = some status →
    GatingItem state profile operations itemId → status.settled = true
  satisfied : ∀ earlier operation later, after = earlier ++ operation :: later →
    operation.val.kind = .addConstraint → operation.val.required.getD true = true →
    ∃ op ∈ later, op.satisfies (str operation.val.constraintId) = true

/-- Where the last phase a proposal sets is the terminal one, what comes
after it keeps to the gate. -/
def TerminalGateKept (state : TaskState) (profile : TaskProfile) (operations : List TaskOperation) : Prop :=
  ∀ before operation after, operations = before ++ operation :: after →
    phaseWrite operation = some profile.terminalPhase →
    (∀ later ∈ after, phaseWrite later = none) → TailKeepsGate state profile operations after

/-- The last words of the tail, from a snapshot that meets the gate. -/
theorem MeetsGate.run (hm : MeetsGate profile w)
    (hrun : Accepted profile proposal allowPrivileged w after last)
    (hrole : ∀ itemId, last.roleOf itemId =
      (state.roleOf itemId).or (operations.findSome? (addedRole itemId)))
    (ht : TailKeepsGate state profile operations after) : MeetsGate profile last := by
  have hstays {itemId : String} {role : ItemRole} (hr : w.roleOf itemId = some role) :
      last.roleOf itemId = some role := by
    rw [roleOf_run hrun, hr]
    rfl
  refine ⟨fun itemId role status hr hg hs => ?_, fun kind hk => ?_, fun row hrow hreq => ?_⟩
  · rw [statusOf_run hrun] at hs
    -- an item's last word is the tail's, or that of the snapshot before
    rcases hl : lastItemWrite itemId after with - | written
    · rw [hl] at hs
      obtain ⟨item, hitem, rfl⟩ := Option.map_eq_some_iff.mp hs
      obtain ⟨hmem, rfl⟩ := mem_of_item_eq_some hitem
      obtain ⟨hr', hs'⟩ := roleOf_of_mem hmem
      obtain rfl := Option.some.inj (hr.symm.trans (hstays hr'))
      exact hm.settled _ _ _ hr' hg hs'
    · rw [hl] at hs
      obtain rfl := Option.some.inj hs
      exact ht.settled itemId _ hl ⟨role, by rw [← hrole]; exact hr, hg⟩
  · obtain ⟨itemId, role, hr, hk⟩ := hm.kinds kind hk
    exact ⟨itemId, role, hstays hr, hk⟩
  · have hrows : rowsOf last.val.constraints = _ := rowsOf_foldlM hrun.foldlM
    rw [hrows] at hrow
    -- a constraint was there before the tail, or the tail added it
    rcases List.mem_append.mp hrow with hrow | hrow
    · obtain ⟨base, hbase, rfl⟩ := List.mem_map.mp hrow
      rw [onConstraints_eq] at hreq ⊢
      have hsat := hm.constraints base hbase hreq
      simp [hsat]
    · obtain ⟨earlier, op, later, hsplit, hk, rfl⟩ := mem_addedRows.mp hrow
      rw [onConstraints_eq] at hreq ⊢
      obtain ⟨op', hop', hs⟩ := ht.satisfied earlier op later hsplit hk hreq
      simp only [Bool.or_eq_true, List.any_eq_true]
      exact .inr ⟨op', hop', hs⟩

/-- What meets the gate at the end leaves nothing to say against the tail. -/
theorem MeetsGate.tailKeepsGate (hm : MeetsGate profile last)
    (hrun : Accepted profile proposal allowPrivileged w after last)
    (hrole : ∀ itemId, last.roleOf itemId =
      (state.roleOf itemId).or (operations.findSome? (addedRole itemId))) :
    TailKeepsGate state profile operations after := by
  refine ⟨fun itemId status hl ⟨role, hr, hg⟩ => ?_, fun earlier op later hsplit hk hreq => ?_⟩
  · refine hm.settled itemId role status ((hrole itemId).trans hr) hg ?_
    rw [statusOf_run hrun, hl]
    rfl
  · have hrows : rowsOf last.val.constraints = _ := rowsOf_foldlM hrun.foldlM
    have hrow : onConstraints later op.newConstraint ∈ rowsOf last.val.constraints := by
      rw [hrows]
      exact List.mem_append_right _ (mem_addedRows.mpr ⟨earlier, op, later, hsplit, hk, rfl⟩)
    have hsat := hm.constraints _ hrow (by rw [onConstraints_eq]; exact hreq)
    rw [onConstraints_eq] at hsat
    simpa [TaskOperation.newConstraint] using hsat

/-- A terminal phase that passed was set on a snapshot that meets the gate,
and left its items and constraints alone. -/
theorem meetsGate_of_terminalPhase
    (hv : validateOperation operation w profile proposal allowPrivileged = none)
    (ha : applyOperation w.draft operation = .ok w'.draft)
    (hp : phaseWrite operation = some profile.terminalPhase) : MeetsGate profile w' := by
  obtain ⟨hk, hphase⟩ : operation.val.kind = .setPhase ∧
      str operation.val.phase = profile.terminalPhase := by
    unfold phaseWrite at hp
    split at hp
    · exact ⟨‹_›, Option.some.inj hp⟩
    · cases hp
  have hpassed := validateOperation_eq_none hv
  rw [hk] at hpassed
  have hvalid : validatePhase (str operation.val.phase) w profile = none := hpassed
  unfold validatePhase at hvalid
  split_ifs at hvalid with _ _ hgate
  have hblockers : completionBlockers w profile = [] :=
    not_not.mp fun hne => hgate ⟨hphase, hne⟩
  have hdraft : w'.draft = { w.draft with phase := str operation.val.phase } := by
    unfold applyOperation at ha
    rw [hk] at ha
    exact (Except.ok.inj ha).symm
  have hitems : w'.val.items = w.val.items := congrArg Draft.items hdraft
  have hconstraints : w'.val.constraints = w.val.constraints := congrArg Draft.constraints hdraft
  refine completionBlockers_eq_nil.mp (Eq.trans ?_ hblockers)
  unfold completionBlockers kindSettled
  rw [hitems, hconstraints]

/-- **A terminal phase has its gate behind it exactly where the operations
after it keep to the gate.** Of an accepted proposal for a task whose phase is
not the terminal one: nothing blocks what is committed in the terminal phase,
if and only if, where the last phase the proposal sets is the terminal one,
every item completion waits for whose status an operation after it writes is
last written as settled, and every required constraint that is added after it
is satisfied by a still later operation. -/
theorem terminal_phase_gate_iff
    (h : evaluate H state profile proposal nowIso known allowPrivileged = .ok decision)
    (ha : decision.accepted = true) (hn : decision.nextState = some next)
    (hphase : state.val.phase ≠ profile.terminalPhase) :
    (next.val.phase = profile.terminalPhase → completionBlockers next profile = []) ↔
      TerminalGateKept state profile proposal.val.operations := by
  obtain ⟨next', hacc⟩ := acceptance_of_evaluate h ha
  obtain rfl : next' = next := Option.some.inj (hacc.nextState.symm.trans hn)
  obtain ⟨last, hrun, hdraft⟩ := hacc.accepted
  have hitems : next'.val.items = last.val.items := congrArg Draft.items hdraft
  have hconstraints : next'.val.constraints = last.val.constraints :=
    congrArg Draft.constraints hdraft
  have hsame : completionBlockers next' profile = completionBlockers last profile := by
    unfold completionBlockers kindSettled
    rw [hitems, hconstraints]
  -- the task is not in the terminal phase, so an operation brought it there
  have hset : next'.val.phase = profile.terminalPhase ↔
      lastPhaseWrite proposal.val.operations = some profile.terminalPhase := by
    have hlast : next'.val.phase = _ := phase_foldlM (applyOperations_eq_ok hacc.applied).1
    rw [hlast]
    rcases lastPhaseWrite proposal.val.operations with - | phase
    · simpa [TaskState.draft] using hphase
    · simp
  have hrole := roleOf_run hrun
  rw [hset, hsame, completionBlockers_eq_nil]
  constructor
  · intro hmet before op after hsplit hp hlater
    -- the gate is met in the end, so nothing after the phase write broke it
    have hm := hmet (lastPhaseWrite_eq_some.mpr ⟨before, op, after, hsplit, hp, hlater⟩)
    rw [hsplit] at hrun
    obtain ⟨middle, -, hrest⟩ := hrun.append_inv
    cases hrest with
    | cons _ _ htail => exact hm.tailKeepsGate htail hrole
  · intro hkept hw
    obtain ⟨before, op, after, hsplit, hp, hlater⟩ := lastPhaseWrite_eq_some.mp hw
    have htail := hkept before op after hsplit hp hlater
    rw [hsplit] at hrun
    obtain ⟨middle, -, hrest⟩ := hrun.append_inv
    -- the phase write was let through by the gate, and the rest keeps it
    cases hrest with
    | cons hv ha hafter => exact (meetsGate_of_terminalPhase hv ha hp).run hafter hrole htail

/-! ## A gate that is opened again -/

/-- A completed item that completion waits for. -/
def requiredItem : TaskItem := ⟨{ exampleItem .completed with required := true }, by decide +kernel⟩

/-- The last phase but one, with nothing left to do. -/
def verifiedState : TaskState :=
  ⟨{ exampleFields requiredItem with phase := "verify" }, by decide +kernel⟩

/-- The phase is set to the last one. -/
def completeOperation : TaskOperation :=
  ⟨{ kind := .setPhase, phase := some "complete" }, by decide +kernel⟩

/-- The terminal phase, and then a blocker on the required item. -/
def reopenedProposal : TaskStateProposal :=
  ⟨{ exampleProposal completeOperation with operations := [completeOperation, blockerOperation] },
    by decide +kernel⟩

/-- The terminal phase alone. -/
def closingProposal : TaskStateProposal := ⟨exampleProposal completeOperation, by decide +kernel⟩

/-- A hash that tells the verified snapshot from every other. -/
def verifiedHashing : Hashing where
  digest j := if j = verifiedState.semanticDict then "sha256:0" else "sha256:1"
  sha256Hex s := s

/-- A blocker that comes after the terminal phase is let through: the task is
committed in its terminal phase with a required item blocked. -/
theorem terminal_phase_blocked :
    ¬ ∀ (H : Hashing) (state next : TaskState) (profile : TaskProfile)
      (proposal : TaskStateProposal) (nowIso : String) (known : Option (List String))
      (decision : PolicyDecision),
      evaluate H state profile proposal nowIso known false = .ok decision →
      decision.accepted = true → decision.nextState = some next →
      state.val.phase ≠ profile.terminalPhase → next.val.phase = profile.terminalPhase →
      completionBlockers next profile = [] := by
  intro hall
  have hc : ((committed (evaluate verifiedHashing verifiedState generalV1 reopenedProposal "n" none
      false)).any fun next => next.val.phase = generalV1.terminalPhase &&
        !(completionBlockers next generalV1).isEmpty) = true := by decide +kernel
  obtain ⟨decision, next, he, ha, hn, hb⟩ := committed_any hc
  simp only [Bool.and_eq_true, decide_eq_true_eq, Bool.not_eq_true', List.isEmpty_eq_false_iff]
    at hb
  exact hb.2 (hall _ _ _ _ _ _ _ _ he ha hn (by decide +kernel) hb.1)

/-- The law at a proposal that sets the terminal phase last. -/
theorem terminal_phase_gate_of_closing :
    ∃ decision next, evaluate verifiedHashing verifiedState generalV1 closingProposal "n" none
      false = .ok decision ∧ next.val.phase = generalV1.terminalPhase ∧
      (next.val.phase = generalV1.terminalPhase → completionBlockers next generalV1 = []) := by
  have hc : ((committed (evaluate verifiedHashing verifiedState generalV1 closingProposal "n" none
      false)).any fun next => next.val.phase = generalV1.terminalPhase) = true := by
    decide +kernel
  obtain ⟨decision, next, he, ha, hn, hb⟩ := committed_any hc
  refine ⟨decision, next, he, of_decide_eq_true hb,
    (terminal_phase_gate_iff he ha hn (by decide +kernel)).mpr ?_⟩
  intro before op after hsplit _ _
  have hsplit' : [completeOperation] = before ++ op :: after := hsplit
  obtain rfl : after = [] := by
    rcases before with - | ⟨first, before⟩
    · exact ((List.cons.inj hsplit').2).symm
    · have hnil := (List.cons.inj hsplit').2
      simp at hnil
  exact ⟨fun _ _ hl => (nomatch hl), fun earlier _ _ he => by simp at he⟩

end Atmem
