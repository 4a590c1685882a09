import Atmem.Common.Table
import Atmem.TaskState.Helpers.Apply
import Atmem.TaskState.Model.Calls
import Mathlib.Order.Monotone.Defs
import Mathlib.Order.Nat
/-!
# The cell of a task, and how it advances

A task's row and its revisions, taken together, move by advances: the
head goes up by one, one revision is appended, and its snapshot was
computed from the head that is there, by an accepted proposal or by a
lifecycle change. `Cell.Chained` is what every advance preserves. Nothing
here looks at how a transaction comes to make an advance.
-/

namespace Atmem

open Checked Relation Interleaving

/-- What is fixed over a run: the hash, the clock, the profiles, and what
a completion is gated by. -/
structure Setting where
  hashing : Hashing
  clock : ℕ → Instant
  profile : String → Option TaskProfile
  gate : TaskState → TaskProfile → Prop

/-- A task's row and its revisions, oldest first. -/
structure Cell where
  row : TaskRow
  revisions : List RevisionRow

/-- The stored revision at the head. -/
def Cell.head? (c : Cell) : Option RevisionRow := c.revisions.getLast?

/-- The cell of a task. -/
def Store.cell (s : Store) (taskId : String) : Option Cell :=
  (s.tasks.rows.find? fun r => r.taskId = taskId).map fun row =>
    ⟨row, s.revisions.rows.filter fun r => r.taskId = taskId⟩

/-! ## What the past holds -/

/-- The row stood in the store at some moment. -/
def SeenRow (h : Timeline World) (row : TaskRow) : Prop :=
  ∃ w, h.Seen w ∧ row ∈ w.store.tasks.rows

/-- The clock has read the instant. -/
def Reading (h : Timeline World) (t : Instant) : Prop :=
  ∃ n < h.now.ticks, t = h.now.clock n

/-- A task is retired for a reason that was due: under the rule it is
bound by, of a row it once had, at an instant the clock read. -/
def ExpiryCause (h : Timeline World) (row : TaskRow) (reason : String) : Prop :=
  ∃ before t code, SeenRow h before ∧ before.taskId = row.taskId ∧
    before.expiryRule = row.expiryRule ∧ Reading h t ∧
    (expiryStatusAt before t).dueReason = some code ∧ reason = value code

/-- A later timeline: it has seen what the earlier one has, and its clock
has gone on from where it was. -/
structure Later (h h' : Timeline World) : Prop where
  seen : h.Extends h'
  clock : h'.now.clock = h.now.clock
  ticks : h.now.ticks ≤ h'.now.ticks

theorem Later.refl (h : Timeline World) : Later h h := ⟨.refl h, rfl, Nat.le_refl _⟩

/-- Later is transitive. -/
theorem Later.trans {h₁ h₂ h₃ : Timeline World} (h₁₂ : Later h₁ h₂) (h₂₃ : Later h₂ h₃) :
    Later h₁ h₃ :=
  ⟨h₁₂.seen.trans h₂₃.seen, h₂₃.clock.trans h₁₂.clock, Nat.le_trans h₁₂.ticks h₂₃.ticks⟩

section Later

variable {h h' : Timeline World} (hl : Later h h')
include hl

/-- A row that was seen stays seen. -/
theorem SeenRow.later {row : TaskRow} (hs : SeenRow h row) : SeenRow h' row :=
  hs.imp fun w hw => ⟨hl.seen w hw.1, hw.2⟩

theorem Reading.later {t : Instant} (hr : Reading h t) : Reading h' t := by
  obtain ⟨n, hn, rfl⟩ := hr
  exact ⟨n, Nat.lt_of_lt_of_le hn hl.ticks, by rw [hl.clock]⟩

theorem ExpiryCause.later {row : TaskRow} {reason : String} (hc : ExpiryCause h row reason) :
    ExpiryCause h' row reason := by
  obtain ⟨before, t, code, hs, hid, hrule, hr, hd, hv⟩ := hc
  exact ⟨before, t, code, hs.later hl, hid, hrule, hr.later hl, hd, hv⟩

end Later

/-! ## Advances -/

/-- The cell a start leaves. -/
inductive Started (E : Setting) (h : Timeline World) (c : Cell) : Prop
  | intro {request : TaskStartRequest} {profile : TaskProfile} {state : TaskState}
      {clockSource : String} {evidence : List Json} {now : Instant}
      (hprofile : E.profile profile.val.version = some profile)
      (hread : Reading h now)
      (htask : state.val.taskId = request.val.taskId)
      (hscope : state.val.scope = request.val.scope)
      (hrevision : state.val.revision = 1)
      (hparent : state.val.parentRevision = none)
      (hlifecycle : state.val.lifecycle = .open)
      (hrow : c.row = startRow request profile now clockSource)
      (hrevs : c.revisions = [revisionRow E.hashing state request.val.actor
        request.val.actorRole [.lifecycleChangeAccepted] evidence now false])

/-- One advance of a cell. -/
inductive Advance (E : Setting) (h : Timeline World) (c c' : Cell) : Prop
  /-- An accepted proposal, evaluated against the head. -/
  | commit {base : RevisionRow} {next : TaskState} {profile : TaskProfile}
      {proposal : TaskStateProposal} {nowIso : String} {allowPrivileged : Bool}
      {decision : PolicyDecision} {now : Instant}
      (hbase : c.head? = some base)
      (hprofile : E.profile c.row.profileVersion = some profile)
      (he : evaluate E.hashing base.state profile proposal nowIso none allowPrivileged =
        .ok decision)
      (ha : decision.accepted = true)
      (hn : decision.nextState = some next)
      (hread : Reading h now)
      (hnow : Monotone E.clock → base.createdAtUtc ≤ now)
      (hrow : c'.row = HeadChange.assign
        { updatedAtUtc := now, lastProgressAtUtc := if decision.isProgress then some now else none }
        next.val.revision c.row)
      (hrevs : c'.revisions = c.revisions ++ [revisionRow E.hashing next proposal.val.actor
        proposal.val.actorRole decision.reasonCodes
        (proposal.val.evidence.map EvidenceRef.toDict) now decision.isProgress])
  /-- A lifecycle change, computed from the head. -/
  | lifecycle {base : RevisionRow} {next : TaskState} {target : TaskLifecycle}
      {actor : String} {actorRole : ActorRole} {reason : String} {expiryRule : Option String}
      {now : Instant}
      (hbase : c.head? = some base)
      (hlive : c.row.lifecycle.terminal = false)
      (hne : c.row.lifecycle ≠ target)
      (hnext : lifecycleState base.state target now = .ok next)
      (hgate : target = .completed → ∀ profile, E.profile c.row.profileVersion = some profile →
        E.gate base.state profile)
      (hexpiry : target = .expired → actorRole = .policyEvaluator ∧ ExpiryCause h c.row reason)
      (hread : Reading h now)
      (hnow : Monotone E.clock → base.createdAtUtc ≤ now)
      (hrow : c'.row = (lifecycleChange c.row target reason now).assign next.val.revision c.row)
      (hrevs : c'.revisions = c.revisions ++ [revisionRow E.hashing next actor actorRole
        [.lifecycleChangeAccepted] (policyRule expiryRule) now false])

variable {E : Setting} {h h' : Timeline World} {c c' : Cell}

/-- A start stays one. -/
theorem Started.later (hl : Later h h') (hs : Started E h c) : Started E h' c := by
  obtain ⟨hprofile, hread, htask, hscope, hrevision, hparent, hlifecycle, hrow, hrevs⟩ := hs
  exact ⟨hprofile, hread.later hl, htask, hscope, hrevision, hparent, hlifecycle, hrow, hrevs⟩

/-- So does an advance. -/
theorem Advance.later (hl : Later h h') (ha : Advance E h c c') : Advance E h' c c' := by
  cases ha with
  | commit hbase hprofile he ha hn hread hnow hrow hrevs =>
    exact .commit hbase hprofile he ha hn (hread.later hl) hnow hrow hrevs
  | lifecycle hbase hlive hne hnext hgate hexpiry hread hnow hrow hrevs =>
    exact .lifecycle hbase hlive hne hnext hgate (fun ht => (hexpiry ht).imp_right (·.later hl))
      (hread.later hl) hnow hrow hrevs

/-! ## The chain -/

/-- The scope a row's columns spell. -/
def TaskRow.scopeFields (r : TaskRow) : AuthorityScopeFields :=
  ⟨r.subjectId, r.agentId, r.workspaceId⟩

/-- The invariant of a cell. -/
structure Cell.Chained (E : Setting) (h : Timeline World) (c : Cell) : Prop where
  /-- The revision numbers are exactly `1..head`. -/
  numbers : c.revisions.map (·.revision) = List.range' 1 c.row.headRevision
  /-- Every revision after the first has its predecessor as parent. -/
  parents : c.revisions.map (·.parentRevision) =
    (List.range c.row.headRevision).map fun i => if i = 0 then none else some i
  taskIds : ∀ r ∈ c.revisions, r.taskId = c.row.taskId
  stored : ∀ r ∈ c.revisions, r.state.val.revision = r.revision
  readings : ∀ r ∈ c.revisions, Reading h r.createdAtUtc
  /-- Only the head can be terminal. -/
  live : ∀ r ∈ c.revisions.dropLast, r.state.val.lifecycle.terminal = false
  /-- The snapshot at the head is the row's. -/
  head : ∃ base, c.head? = some base ∧ base.revision = c.row.headRevision ∧
    base.state.val.lifecycle = c.row.lifecycle ∧ base.state.val.taskId = c.row.taskId ∧
    base.state.val.scope.val = c.row.scopeFields
  profile : ∃ profile, E.profile c.row.profileVersion = some profile

/-- So does a chain. -/
theorem Cell.Chained.later (hl : Later h h') (hc : c.Chained E h) : c.Chained E h' :=
  { hc with readings := fun r hr => (hc.readings r hr).later hl }

/-- The columns no advance touches. -/
def TaskRow.identity (r : TaskRow) :
    String × String × String × String × String × ExpiryPolicy × Instant × String :=
  (r.taskId, r.subjectId, r.agentId, r.workspaceId, r.profileVersion, r.expiryRule,
    r.createdAtUtc, r.idempotencyKey)

/-- The one snapshot was computed from the other: by a lifecycle change,
or as what an accepted proposal makes of it. -/
def ComputedFrom (H : Hashing) (base next : TaskState) : Prop :=
  (∃ target now, lifecycleState base target now = .ok next) ∨
  ∃ profile proposal nowIso allowPrivileged decision,
    evaluate H base profile proposal nowIso none allowPrivileged = .ok decision ∧
      decision.accepted = true ∧ decision.nextState = some next

/-- What every advance does, whatever its cause. -/
structure Successor (E : Setting) (h : Timeline World) (c c' : Cell) (base next : RevisionRow) :
    Prop where
  headRow : c.head? = some base
  live : c.row.lifecycle.terminal = false
  identity : c'.row.identity = c.row.identity
  headRevision : c'.row.headRevision = base.state.val.revision + 1
  lifecycle : next.state.val.lifecycle = c'.row.lifecycle
  revisions : c'.revisions = c.revisions ++ [next]
  taskId : next.taskId = base.state.val.taskId
  stateTaskId : next.state.val.taskId = base.state.val.taskId
  scope : next.state.val.scope = base.state.val.scope
  revision : next.revision = base.state.val.revision + 1
  stateRevision : next.state.val.revision = next.revision
  parentRevision : next.parentRevision = some base.state.val.revision
  createdAtUtc : c'.row.updatedAtUtc = next.createdAtUtc
  read : Reading h next.createdAtUtc
  monotone : Monotone E.clock → base.createdAtUtc ≤ next.createdAtUtc
  computed : ComputedFrom E.hashing base.state next.state

/-- The snapshot a lifecycle change commits, taken apart. -/
theorem lifecycleState_eq_ok {state next : TaskState} {target : TaskLifecycle} {now : Instant}
    (hn : lifecycleState state target now = .ok next) :
    next.val = { state.val with
      revision := state.val.revision + 1
      parentRevision := some state.val.revision
      lifecycle := target
      updatedAt := toIso now } := make_eq_ok.mp hn

theorem lifecycleChange_lifecycle (row : TaskRow) (target : TaskLifecycle) (reason : String)
    (now : Instant) : (lifecycleChange row target reason now).lifecycle = some target := by
  unfold lifecycleChange
  dsimp only
  split
  · rfl
  · split <;> rfl

theorem lifecycleChange_updatedAtUtc (row : TaskRow) (target : TaskLifecycle) (reason : String)
    (now : Instant) : (lifecycleChange row target reason now).updatedAtUtc = now := by
  unfold lifecycleChange
  dsimp only
  split
  · rfl
  · split <;> rfl

/-- An accepted proposal meets an open task. -/
theorem open_of_preconditions {state : TaskState} {proposal : TaskStateProposal}
    {known : Option (List String)} (hp : preconditions state proposal known = none) :
    state.val.lifecycle = .open := by
  obtain ⟨-, -, -, hlive, hrunning, -⟩ := eligible_of_preconditions hp
  revert hlive hrunning
  cases state.val.lifecycle <;> simp [TaskLifecycle.terminal]

/-- **Every advance is one step of the chain.** -/
theorem Advance.successor (hc : c.Chained E h) (ha : Advance E h c c') :
    ∃ base next, Successor E h c c' base next := by
  obtain ⟨base, hb, hrev, hlife, -⟩ := hc.head
  cases ha with
  | @commit base' next profile proposal nowIso allowPrivileged decision now hbase hprofile he ha hn
      hread hnow hrow hrevs =>
    obtain rfl := Option.some.inj (hbase.symm.trans hb)
    obtain ⟨next', hacc⟩ := acceptance_of_evaluate he ha
    obtain rfl : next' = next := Option.some.inj (hacc.nextState.symm.trans hn)
    have hv := (applyOperations_eq_ok hacc.applied).2
    -- a commit leaves the lifecycle, which its preconditions found open
    have hopen := open_of_preconditions hacc.eligible
    have hlifecycle : next'.val.lifecycle = c.row.lifecycle :=
      (congrArg TaskStateFields.lifecycle hv).trans hlife
    exact ⟨_, _, hb, by rw [← hlife, hopen]; rfl, by rw [hrow]; rfl,
      by rw [hrow]; exact (congrArg TaskStateFields.revision hv :),
      by rw [hrow]; exact hlifecycle, hrevs, (congrArg TaskStateFields.taskId hv :),
      (congrArg TaskStateFields.taskId hv :), (congrArg TaskStateFields.scope hv :),
      (congrArg TaskStateFields.revision hv :), rfl, (congrArg TaskStateFields.parentRevision hv :),
      by rw [hrow]; rfl, hread, hnow, Or.inr ⟨_, _, _, _, _, he, ha, hn⟩⟩
  | @lifecycle base' next target actor actorRole reason expiryRule now hbase hlive hne hnext hgate
      hexpiry hread hnow hrow hrevs =>
    obtain rfl := Option.some.inj (hbase.symm.trans hb)
    have hv := lifecycleState_eq_ok hnext
    have hlifecycle : c'.row.lifecycle = target := by
      rw [hrow, HeadChange.assign, lifecycleChange_lifecycle]
      rfl
    exact ⟨_, _, hb, hlive, by rw [hrow]; rfl,
      by rw [hrow]; exact (congrArg TaskStateFields.revision hv :),
      by rw [hlifecycle]; exact (congrArg TaskStateFields.lifecycle hv :), hrevs,
      (congrArg TaskStateFields.taskId hv :), (congrArg TaskStateFields.taskId hv :),
      (congrArg TaskStateFields.scope hv :), (congrArg TaskStateFields.revision hv :), rfl,
      (congrArg TaskStateFields.parentRevision hv :), by rw [hrow, HeadChange.assign, lifecycleChange_updatedAtUtc]; rfl,
      hread, hnow, Or.inl ⟨_, _, hnext⟩⟩

/-! ## Every cell is chained -/

/-- A task that started is a chain. -/
theorem Started.chained (hs : Started E h c) : c.Chained E h := by
  obtain ⟨hprofile, hread, htask, hscope, hrevision, hparent, hlifecycle, hrow, hrevs⟩ := hs
  constructor
  · simp [hrow, hrevs, startRow, revisionRow, hrevision]
  · simp [hrow, hrevs, startRow, revisionRow, hparent]
  · simp [hrow, hrevs, startRow, revisionRow, htask]
  · simp [hrevs, revisionRow]
  · simpa [hrevs, revisionRow] using hread
  · simp [hrevs]
  · exact ⟨_, by rw [Cell.head?, hrevs]; rfl, by simp [hrow, startRow, revisionRow, hrevision],
      by simp [hrow, startRow, revisionRow, hlifecycle],
      by simp [hrow, startRow, revisionRow, htask],
      by simp [hrow, startRow, revisionRow, hscope, TaskRow.scopeFields]⟩
  · exact ⟨_, by rw [hrow]; exact hprofile⟩

/-- **One advance keeps the chain.** -/
theorem Cell.Chained.advance (hc : c.Chained E h) (ha : Advance E h c c') : c'.Chained E h := by
  obtain ⟨base, next, S⟩ := ha.successor hc
  obtain ⟨base', hb, hrev, hlife, htask, hscope⟩ := hc.head
  obtain rfl := Option.some.inj (S.headRow.symm.trans hb)
  have hmem : base ∈ c.revisions := List.mem_of_getLast? hb
  have hhead : base.state.val.revision = c.row.headRevision := (hc.stored _ hmem).trans hrev
  have hid := S.identity
  simp only [TaskRow.identity, Prod.mk.injEq] at hid
  have hhead' : c'.row.headRevision = c.row.headRevision + 1 := by rw [S.headRevision, hhead]
  constructor
  · rw [S.revisions, hhead', List.map_append, hc.numbers, List.range'_concat]
    simp [S.revision, hhead, Nat.add_comm]
  · have hpos : c.row.headRevision ≠ 0 := by
      intro h0
      have := hc.numbers
      rw [h0] at this
      simp at this
      rw [this] at hmem
      cases hmem
    rw [S.revisions, hhead', List.map_append, hc.parents, List.range_succ, List.map_append]
    simp [S.parentRevision, hhead, hpos]
  · rw [S.revisions]
    intro r hr
    rcases List.mem_append.mp hr with hr | hr
    · rw [hc.taskIds r hr, hid.1]
    · rw [List.mem_singleton.mp hr, S.taskId, htask, hid.1]
  · rw [S.revisions]
    intro r hr
    rcases List.mem_append.mp hr with hr | hr
    · exact hc.stored r hr
    · rw [List.mem_singleton.mp hr, S.stateRevision]
  · rw [S.revisions]
    intro r hr
    rcases List.mem_append.mp hr with hr | hr
    · exact hc.readings r hr
    · rw [List.mem_singleton.mp hr]
      exact S.read
  · -- the old head is live, and so are all rows before the new one
    rw [S.revisions, List.dropLast_concat]
    intro r hr
    rw [← List.dropLast_append_getLast? base hb] at hr
    rcases List.mem_append.mp hr with hr | hr
    · exact hc.live r hr
    · rw [List.mem_singleton.mp hr, hlife, S.live]
  · refine ⟨next, by rw [Cell.head?, S.revisions, List.getLast?_concat], ?_, S.lifecycle, ?_, ?_⟩
    · rw [S.revision, S.headRevision]
    · rw [S.stateTaskId, htask, hid.1]
    · rw [S.scope, hscope]
      simp only [TaskRow.scopeFields, AuthorityScopeFields.mk.injEq]
      exact ⟨hid.2.1.symm, hid.2.2.1.symm, hid.2.2.2.1.symm⟩
  · obtain ⟨profile, hp⟩ := hc.profile
    exact ⟨profile, by rw [hid.2.2.2.2.1, hp]⟩

/-! ## Any number of advances -/

/-- An advance of a chained cell. -/
def Moves (E : Setting) (h : Timeline World) (c c' : Cell) : Prop :=
  c.Chained E h ∧ Advance E h c c'

/-- Any number of advances. -/
abbrev Advances (E : Setting) (h : Timeline World) : Cell → Cell → Prop :=
  ReflTransGen (Moves E h)

theorem Moves.later (hl : Later h h') (hm : Moves E h c c') : Moves E h' c c' :=
  ⟨hm.1.later hl, hm.2.later hl⟩

theorem Advances.later (hl : Later h h') (ha : Advances E h c c') : Advances E h' c c' :=
  ha.lift id fun _ _ hm => hm.later hl

/-- A move is one revision. -/
theorem Moves.headRevision (hm : Moves E h c c') :
    c'.row.headRevision = c.row.headRevision + 1 := by
  obtain ⟨base, next, S⟩ := hm.2.successor hm.1
  obtain ⟨base', hb, hrev, -⟩ := hm.1.head
  obtain rfl := Option.some.inj (S.headRow.symm.trans hb)
  rw [S.headRevision, hm.1.stored _ (List.mem_of_getLast? hb), hrev]

/-- Only a live task moves. -/
theorem Moves.live (hm : Moves E h c c') : c.row.lifecycle.terminal = false := by
  obtain ⟨_, _, S⟩ := hm.2.successor hm.1
  exact S.live

/-- The chain is kept over any number of advances. -/
theorem Advances.chained (hc : c.Chained E h) (ha : Advances E h c c') : c'.Chained E h :=
  Versioned.invariant (fun _ _ hm _ => hm.1.advance hm.2) ha hc

/-- The identity of a task is the one it started with. -/
theorem Advances.identity (ha : Advances E h c c') : c'.row.identity = c.row.identity :=
  Versioned.eq_of_advances (f := fun c : Cell => c.row.identity) (fun _ _ hm => by
    obtain ⟨_, _, S⟩ := hm.2.successor hm.1
    exact S.identity) ha

/-- An advance is of one task. -/
theorem Advances.taskId (ha : Advances E h c c') : c'.row.taskId = c.row.taskId :=
  congrArg Prod.fst ha.identity

/-- And keeps its scope. -/
theorem Advances.scopeFields (ha : Advances E h c c') :
    c'.row.scopeFields = c.row.scopeFields := by
  have hid := ha.identity
  simp only [TaskRow.identity, Prod.mk.injEq] at hid
  simp only [TaskRow.scopeFields, AuthorityScopeFields.mk.injEq]
  exact ⟨hid.2.1, hid.2.2.1, hid.2.2.2.1⟩

/-- Revisions are appended, never rewritten. -/
theorem Advances.revisions (ha : Advances E h c c') : c.revisions <+: c'.revisions := by
  induction ha with
  | refl => exact List.prefix_refl _
  | tail _ hm ih =>
    obtain ⟨_, _, S⟩ := hm.2.successor hm.1
    rw [S.revisions]
    exact ih.trans (List.prefix_append _ _)

/-- Heads never go back. -/
theorem Advances.headRevision_le (ha : Advances E h c c') :
    c.row.headRevision ≤ c'.row.headRevision :=
  Versioned.version_le (fun c : Cell => c.row.headRevision)
    (fun _ _ hm => hm.headRevision) ha

/-- **No lost update.** A cell whose head has not moved is the cell it
was. -/
theorem Advances.eq_of_headRevision_eq (ha : Advances E h c c')
    (he : c.row.headRevision = c'.row.headRevision) : c' = c :=
  Versioned.eq_of_version_eq (fun c : Cell => c.row.headRevision)
    (fun _ _ hm => hm.headRevision) ha he

/-- **Terminal absorption.** A terminal cell never moves again. -/
theorem Advances.eq_of_terminal (ha : Advances E h c c')
    (ht : c.row.lifecycle.terminal = true) : c' = c :=
  Versioned.eq_of_not_live (fun c : Cell => c.row.lifecycle.terminal = false)
    (fun _ _ hm => hm.live) ha (by simp [ht])

/-- A cell some start left and advances brought to where it is. -/
def Grown (E : Setting) (h : Timeline World) (c : Cell) : Prop :=
  ∃ first, Started E h first ∧ Advances E h first c

theorem Grown.later (hl : Later h h') (hg : Grown E h c) : Grown E h' c :=
  hg.imp fun _ hf => ⟨hf.1.later hl, Advances.later hl hf.2⟩

/-- **Every cell a run can hold is chained.** -/
theorem Grown.chained (hg : Grown E h c) : c.Chained E h := by
  obtain ⟨first, hs, ha⟩ := hg
  exact ha.chained hs.chained

/-- The revision a number names, in a chained cell. -/
theorem Cell.Chained.find_head (hc : c.Chained E h) :
    ∃ base, c.head? = some base ∧
      ∀ rest, (c.revisions ++ rest).find? (fun r => r.revision = c.row.headRevision) =
        some base := by
  obtain ⟨base, hb, hrev, -⟩ := hc.head
  refine ⟨base, hb, fun rest => ?_⟩
  have hsplit := List.dropLast_append_getLast? base hb
  have hlt : ∀ r ∈ c.revisions.dropLast, r.revision ≠ c.row.headRevision := by
    intro r hr heq
    have hnum := hc.numbers
    rw [← hsplit, List.map_append] at hnum
    have hnodup : (c.revisions.dropLast.map (·.revision) ++ [base.revision]).Nodup := by
      rw [show [base.revision] = [base].map (·.revision) from rfl, hnum]
      exact List.nodup_range'
    exact (List.nodup_append.mp hnodup).2.2 r.revision (List.mem_map_of_mem hr) base.revision
      (List.mem_singleton_self _) (heq.trans hrev.symm)
  rw [← hsplit, List.append_assoc, List.find?_append, List.find?_eq_none.mpr fun r hr => by
    simpa using hlt r hr]
  simp [hrev]

end Atmem
