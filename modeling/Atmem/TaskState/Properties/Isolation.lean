import Atmem.TaskState.Helpers.Alone
import Atmem.TaskState.Helpers.Ownership
import Atmem.TaskState.Properties.Chain
/-!
# What a start shows of other scopes

`start` looks its idempotency key up within its own scope and then inserts
under an identifier that is unique across all of them. So it shows nothing
of another scope, but where it comes to insert: a task that holds the
identifier there makes the insertion fail with the store's own exception.
-/

namespace Atmem

open Transactional Relational Checked Interleaving

variable {H : Hashing} {w w' : World} {s s' : Store} {request : TaskStartRequest}
variable {items : List TaskItem}

/-! ## Two stores that agree on a scope -/

/-- The row is of the scope. -/
def inScope (scope : AuthorityScope) (r : TaskRow) : Bool :=
  r.subjectId = scope.val.subjectId && r.agentId = scope.val.agentId &&
    r.workspaceId = scope.val.workspaceId

/-- The stores hold the same of a scope: its tasks, all that belongs to
them, and its bindings; and the profiles, which belong to no scope. -/
structure AgreeOn (scope : AuthorityScope) (s s' : Store) : Prop where
  tasks : s.tasks.rows.filter (inScope scope) = s'.tasks.rows.filter (inScope scope)
  revisions : ∀ t ∈ s.tasks.rows, inScope scope t = true →
    (s.revisions.rows.filter fun r => r.taskId = t.taskId) =
      s'.revisions.rows.filter fun r => r.taskId = t.taskId
  provenance : ∀ t ∈ s.tasks.rows, inScope scope t = true →
    (s.provenance.filter fun r => r.taskId = t.taskId) =
      s'.provenance.filter fun r => r.taskId = t.taskId
  proposals : ∀ t ∈ s.tasks.rows, inScope scope t = true →
    (s.proposals.rows.filter fun r => r.taskId = t.taskId) =
      s'.proposals.rows.filter fun r => r.taskId = t.taskId
  steps : ∀ t ∈ s.tasks.rows, inScope scope t = true →
    (s.steps.filter fun r => r.taskId = t.taskId) = s'.steps.filter fun r => r.taskId = t.taskId
  bindings : (s.sessionBindings.filter fun r => r.subjectId = scope.val.subjectId ∧
      r.agentId = scope.val.agentId ∧ r.workspaceId = scope.val.workspaceId) =
    s'.sessionBindings.filter fun r => r.subjectId = scope.val.subjectId ∧
      r.agentId = scope.val.agentId ∧ r.workspaceId = scope.val.workspaceId
  profiles : s.profiles = s'.profiles

/-- And the clock stands at the same reading. -/
structure AgreeAt (scope : AuthorityScope) (w w' : World) : Prop where
  store : AgreeOn scope w.store w'.store
  clock : w.clock w.ticks = w'.clock w'.ticks
  clockSource : w.clockSource = w'.clockSource

/-- What a scope's lookup finds is of the scope. -/
theorem find?_filter_inScope {scope : AuthorityScope} {p q : TaskRow → Bool}
    (hpq : ∀ r, p r = (inScope scope r && q r)) (rows : List TaskRow) :
    rows.find? p = (rows.filter (inScope scope)).find? q := by
  rw [List.find?_filter]
  refine congrArg (fun f => rows.find? f) (funext fun r => ?_)
  simp [hpq]

/-- Stores that agree find the same task. -/
theorem AgreeOn.find_eq {scope : AuthorityScope} (ha : AgreeOn scope s s') (key : String) :
    s.findTaskByIdempotencyKey scope key = s'.findTaskByIdempotencyKey scope key := by
  have hpq : ∀ r : TaskRow, decide (r.subjectId = scope.val.subjectId ∧
      r.agentId = scope.val.agentId ∧ r.workspaceId = scope.val.workspaceId ∧
      r.idempotencyKey = key) = (inScope scope r && decide (r.idempotencyKey = key)) := by
    intro r
    simp [inScope, Bool.and_assoc, Bool.decide_and]
  unfold Store.findTaskByIdempotencyKey
  rw [find?_filter_inScope hpq, find?_filter_inScope hpq, ha.tasks]

/-! ## The run of a start -/

/-- A view raises no error of the database. -/
theorem viewOf_ne_integrityError (row : TaskRow) : s.viewOf row ≠ .error .integrityError := by
  unfold Store.viewOf
  split
  · exact fun h => nomatch h
  · split <;> exact fun h => nomatch h

/-- The first state of a task. -/
def startFields (request : TaskStartRequest) (items : List TaskItem) (profile : TaskProfile)
    (constraints : List TaskConstraint) (now : Instant) : TaskStateFields :=
  { taskId := request.val.taskId
    scope := request.val.scope
    revision := 1
    lifecycle := .open
    phase := profile.initialPhase
    goal := request.val.goal
    profileId := profile.val.profileId
    profileVersion := profile.val.version
    items
    constraints
    sourcesToInspect := request.val.sourcesToInspect
    createdAt := toIso now
    updatedAt := toIso now
    lastProgressAt := toIso now }

/-- A start that comes to insert: the role may, the key is new in its scope,
and what is inserted can be built. -/
def Inserts (s : Store) (request : TaskStartRequest) (items : List TaskItem) (now : Instant) :
    Prop :=
  permits request.val.actorRole .changeLifecycle = true ∧
    s.findTaskByIdempotencyKey request.val.scope request.val.idempotencyKey = none ∧
    ∃ profile constraints state, s.profileOf request.val.profileVersion = some profile ∧
      startConstraints 0 request.val.constraints = .ok constraints ∧
      TaskState.make (startFields request items profile constraints now) = .ok state

/-- The outcome of a start that is settled before it comes to insert. -/
def settled (s : Store) (request : TaskStartRequest) (items : List TaskItem) (now : Instant) :
    Option (Except Raised TaskView) :=
  if permits request.val.actorRole .changeLifecycle then
    match s.findTaskByIdempotencyKey request.val.scope request.val.idempotencyKey with
    | some existing => some (s.viewOf existing)
    | none =>
      match s.profileOf request.val.profileVersion with
      | none => some (.error (.taskStateError .taskNotEligible
          ("unknown task profile version: " ++ repr request.val.profileVersion)))
      | some profile =>
        match startConstraints 0 request.val.constraints with
        | .error message => some (.error (.valueError message))
        | .ok constraints =>
          match TaskState.make (startFields request items profile constraints now) with
          | .error message => some (.error (.valueError message))
          | .ok _ => none
  else some (.error (.capabilityDenied request.val.actorRole .changeLifecycle))

/-- A start is not settled exactly if it inserts. -/
theorem settled_eq_none {now : Instant} :
    settled s request items now = none ↔ Inserts s request items now := by
  unfold settled Inserts
  by_cases hp : permits request.val.actorRole .changeLifecycle = true
  · rw [if_pos hp]
    rcases s.findTaskByIdempotencyKey request.val.scope request.val.idempotencyKey with - | row
    · rcases s.profileOf request.val.profileVersion with - | profile
      · simp
      · rcases startConstraints 0 request.val.constraints with e | constraints
        · simp
        · dsimp only
          rcases hm : TaskState.make (startFields request items profile constraints now) with e | st
          · simp [hm]
          · exact ⟨fun _ => ⟨hp, rfl, profile, constraints, st, rfl, rfl, hm⟩, fun _ => rfl⟩
    · simp
  · rw [if_neg hp]
    simp [hp]

theorem settled_ne_integrityError {now : Instant} {outcome : Except Raised TaskView}
    (h : settled s request items now = some outcome) : outcome ≠ .error .integrityError := by
  unfold settled at h
  split at h
  · split at h
    · cases h
      exact viewOf_ne_integrityError _
    · repeat' split at h
      all_goals cases h
      all_goals exact fun he => nomatch he
  · cases h
    exact fun he => nomatch he

/-- **A start of a new key**, where the profile is known. -/
theorem exec_start_new {profile : TaskProfile}
    (hp : permits request.val.actorRole .changeLifecycle = true)
    (hf : w.store.findTaskByIdempotencyKey request.val.scope request.val.idempotencyKey = none)
    (hprofile : w.store.profileOf request.val.profileVersion = some profile) :
    (start H request items).exec w =
      match startConstraints 0 request.val.constraints with
      | .error message => (.error (.valueError message), w.ticked)
      | .ok constraints =>
        match TaskState.make (startFields request items profile constraints (w.clock w.ticks)) with
        | .error message => (.error (.valueError message), w.ticked)
        | .ok state => (transaction (startTx H request items
            (startRow request profile (w.clock w.ticks) w.clockSource) state (w.clock w.ticks)) >>=
              view).exec w.ticked := by
  simp only [start, require, hp, if_true, Eff.exec_bind, Eff.exec_pure, query, Eff.exec_read, hf,
    exec_profileOf, hprofile, now, Eff.exec_action, lift, World.ticked]
  rcases startConstraints 0 request.val.constraints with e | constraints
  · rfl
  · simp only [Eff.exec_ofExcept_ok]
    unfold startFields
    generalize TaskState.make _ = made
    rcases made with e | state <;> rfl

/-- **A start that is settled** before it comes to insert. -/
theorem start_settled {outcome : Except Raised TaskView}
    (h : settled w.store request items (w.clock w.ticks) = some outcome) :
    ((start H request items).exec w).1 = outcome := by
  unfold settled at h
  by_cases hp : permits request.val.actorRole .changeLifecycle = true
  · rw [if_pos hp] at h
    rcases hf : w.store.findTaskByIdempotencyKey request.val.scope request.val.idempotencyKey with
      - | existing
    · rcases hprofile : w.store.profileOf request.val.profileVersion with - | profile
      · simp only [hf, hprofile, Option.some.injEq] at h
        simp [start, require, hp, Eff.exec_bind, query, hf, exec_profileOf, hprofile, h]
      · rw [exec_start_new hp hf hprofile]
        simp only [hf, hprofile] at h
        rcases hc : startConstraints 0 request.val.constraints with e | constraints
        · simp only [hc, Option.some.injEq] at h
          exact h
        · simp only [hc] at h
          dsimp only
          rcases hm : TaskState.make
            (startFields request items profile constraints (w.clock w.ticks)) with e | state
          · simp only [hm, Option.some.injEq] at h
            exact h
          · simp [hm] at h
    · simp only [hf, Option.some.injEq] at h
      simp [start, require, hp, Eff.exec_bind, query, hf, exec_view, h]
  · rw [if_neg hp] at h
    cases h
    simp [start, require, hp, Eff.exec_bind]

/-! ## The transaction -/

section Transaction

variable {row : TaskRow} {state : TaskState} {now : Instant}

/-- **An identifier that is taken**, in whatever scope, makes the insertion
raise. -/
theorem startTx_taken (hid : row.taskId = request.val.taskId)
    (ht : s.hasTask request.val.taskId = true) :
    (exec (startTx H request items row state now) s).1 = .error .integrityError := by
  obtain ⟨r, hr, hrid⟩ := hasTask_iff_mem.mp ht
  have hclash : taskClash r.key row.key = true := taskClash_of_taskId r row (hrid.trans hid.symm)
  have hnone : s.tasks.insert row = none := Table.insert_eq_none.mpr ⟨r, hr, hclash⟩
  have hinsert : exec (insertTask request.val.scope row) s = (.error .integrityError, s) := by
    simp only [insertTask, exec_bind, exec_get, hnone, exec_throw]
  unfold startTx
  rw [exec_bind, hinsert]

/-- The row is inserted where neither its identifier nor its key is
there. -/
theorem exec_insertTask_free {scope : AuthorityScope} (hscope : inScope scope row = true)
    (hnew : s.hasTask row.taskId = false)
    (hkey : s.findTaskByIdempotencyKey scope row.idempotencyKey = none) :
    ∃ tasks, exec (insertTask scope row) s = (.ok row, { s with tasks }) ∧
      tasks.rows = s.tasks.rows ++ [row] := by
  have hids : ∀ r ∈ s.tasks.rows, r.taskId ≠ row.taskId := by
    intro r hr heq
    have hhas := hasTask_iff_mem.mpr ⟨r, hr, heq⟩
    rw [hnew] at hhas
    cases hhas
  have hkeys : ∀ r ∈ s.tasks.rows, taskClash r.key row.key = false := by
    intro r hr
    have hkeys := List.find?_eq_none.mp hkey r hr
    have hne := hids r hr
    simp only [inScope, Bool.and_eq_true, decide_eq_true_eq] at hscope hkeys
    obtain ⟨⟨hsubject, hagent⟩, hworkspace⟩ := hscope
    rw [← hsubject, ← hagent, ← hworkspace] at hkeys
    simp only [taskClash, eitherClash, TaskRow.key, hne, decide_false, Bool.false_or, Prod.mk.injEq]
    exact decide_eq_false hkeys
  rcases hi : s.tasks.insert row with - | tasks
  · obtain ⟨r, hr, hclash⟩ := Table.insert_eq_none.mp hi
    rw [hkeys r hr] at hclash
    cases hclash
  · have hrows := (Table.insert_eq_some.mp hi).2
    -- the row is read back, as no other has its identifier
    have hget : ({ s with tasks } : Store).getTask scope row.taskId = some row := by
      have hnone : s.tasks.rows.find? (fun r => decide (r.taskId = row.taskId ∧
          r.subjectId = scope.val.subjectId ∧ r.agentId = scope.val.agentId ∧
            r.workspaceId = scope.val.workspaceId)) = none := by
        refine List.find?_eq_none.mpr fun r hr => ?_
        simp [hids r hr]
      simp only [inScope, Bool.and_eq_true, decide_eq_true_eq] at hscope
      obtain ⟨⟨hsubject, hagent⟩, hworkspace⟩ := hscope
      unfold Store.getTask
      rw [hrows, List.find?_append, hnone]
      simp [hsubject, hagent, hworkspace]
    exact ⟨tasks, exec_insertTask_ok.mpr ⟨tasks, hi, rfl, hget⟩, hrows⟩

/-- The first revision of a task is inserted. -/
theorem exec_insertTaskRevision_free {row : RevisionRow} (hhas : s.hasTask row.taskId = true)
    (hfresh : ∀ r ∈ s.revisions.rows, r.taskId ≠ row.taskId) :
    ∃ revisions, exec (insertTaskRevision row) s = (.ok (), { s with revisions }) ∧
      revisions.rows = s.revisions.rows ++ [row] := by
  rw [exec_insertTaskRevision, if_pos hhas]
  rcases hi : s.revisions.insert row with - | revisions
  · obtain ⟨r, hr, hclash⟩ := Table.insert_eq_none.mp hi
    simp [revisionClash, RevisionRow.key, hfresh r hr] at hclash
  · exact ⟨revisions, rfl, (Table.insert_eq_some.mp hi).2⟩

theorem exec_insertTaskProvenance_ok {row : ProvenanceRow} (hhas : s.hasTask row.taskId = true) :
    exec (insertTaskProvenance row) s =
      (.ok (), { s with provenance := s.provenance ++ [row] }) := by
  rw [exec_insertTaskProvenance, if_pos hhas]

theorem exec_insertTaskStep_ok {row : ℕ → StepRow} (hhas : s.hasTask (row 0).taskId = true) :
    exec (insertTaskStep row) s =
      (.ok (), { s with steps := s.steps ++ [row (s.nextStepSequence (row 0).taskId)] }) := by
  rw [exec_insertTaskStep, if_pos hhas]

/-- **An identifier that is free**, in every scope, is taken, and its first
revision is there. -/
theorem startTx_free (howned : Owned s) (hscope : inScope request.val.scope row = true)
    (hid : row.taskId = request.val.taskId) (hstate : state.val.taskId = request.val.taskId)
    (hnew : s.hasTask request.val.taskId = false)
    (hkey : s.findTaskByIdempotencyKey request.val.scope row.idempotencyKey = none) :
    ∃ s', exec (startTx H request items row state now) s = (.ok row, s') ∧
      s'.profiles = s.profiles ∧ s'.getTaskRevision request.val.taskId state.val.revision =
        some (revisionRow H state request.val.actor request.val.actorRole
          [.lifecycleChangeAccepted] (request.val.evidence.map EvidenceRef.toDict) now false) := by
  obtain ⟨tasks, hinsert, hrows⟩ := exec_insertTask_free hscope (hid ▸ hnew) hkey
  have hhas : ({ s with tasks } : Store).hasTask request.val.taskId = true :=
    hasTask_iff_mem.mpr ⟨row, by rw [hrows]; simp, hid⟩
  have hfresh : ∀ r ∈ s.revisions.rows, r.taskId ≠ request.val.taskId := by
    intro r hr heq
    have hhas := howned r hr
    rw [heq, hnew] at hhas
    cases hhas
  let revision := revisionRow H state request.val.actor request.val.actorRole
    [.lifecycleChangeAccepted] (request.val.evidence.map EvidenceRef.toDict) now false
  have hknown : ({ s with tasks } : Store).hasTask revision.taskId = true := by
    rw [← hhas]
    exact congrArg _ hstate
  obtain ⟨revisions, hrevision, hrevisions⟩ := exec_insertTaskRevision_free hknown
    fun r hr heq => hfresh r hr (heq.trans hstate)
  have hnone : s.revisions.rows.find? (fun r => decide (r.taskId = request.val.taskId ∧
      r.revision = state.val.revision)) = none := by
    refine List.find?_eq_none.mpr fun r hr => ?_
    simp [hfresh r hr]
  -- what is left of the transaction finds the task there
  unfold startTx
  refine ⟨_, (exec_bind_ok hinsert).trans ((exec_bind_ok hrevision).trans
    ((exec_bind_ok (exec_insertTaskProvenance_ok hhas)).trans
      ((exec_bind_ok (exec_forM_provenance fun _ _ => hhas)).trans
        (exec_bind_ok (exec_insertTaskStep_ok hhas))))), rfl, ?_⟩
  show revisions.rows.find? _ = _
  rw [hrevisions, List.find?_append, hnone]
  simp [revision, revisionRow, hstate]

end Transaction

/-! ## Two runs -/

/-- The view of a row of the scope is the same in both stores. -/
theorem AgreeOn.viewOf_eq {scope : AuthorityScope} {row : TaskRow} (ha : AgreeOn scope s s')
    (hr : row ∈ s.tasks.rows) (hscope : inScope scope row = true) :
    s.viewOf row = s'.viewOf row := by
  have hrevision : s.getTaskRevision row.taskId row.headRevision =
      s'.getTaskRevision row.taskId row.headRevision := by
    have hfiltered : ∀ rows : List RevisionRow,
        rows.find? (fun r => decide (r.taskId = row.taskId ∧ r.revision = row.headRevision)) =
          (rows.filter fun r => r.taskId = row.taskId).find? fun r =>
            decide (r.revision = row.headRevision) := by
      intro rows
      rw [List.find?_filter]
      refine congrArg (fun f => rows.find? f) (funext fun r => ?_)
      simp
    show s.revisions.rows.find? _ = s'.revisions.rows.find? _
    rw [hfiltered, hfiltered, ha.revisions row hr hscope]
  have hprofile : s.profileOf row.profileVersion = s'.profileOf row.profileVersion := by
    simp only [Store.profileOf, Store.getTaskProfile, ha.profiles]
  simp only [Store.viewOf, hrevision, hprofile]

/-- Stores that agree have the same profiles. -/
theorem AgreeOn.profileOf_eq {scope : AuthorityScope} (ha : AgreeOn scope s s')
    (version : String) : s.profileOf version = s'.profileOf version := by
  simp only [Store.profileOf, Store.getTaskProfile, ha.profiles]

/-- What the lookup of a key finds is of its scope. -/
theorem inScope_of_find {scope : AuthorityScope} {key : String} {row : TaskRow}
    (hf : s.findTaskByIdempotencyKey scope key = some row) :
    row ∈ s.tasks.rows ∧ inScope scope row = true := by
  refine ⟨List.mem_of_find?_eq_some hf, ?_⟩
  have hkey := List.find?_some hf
  simp only [decide_eq_true_eq] at hkey
  obtain ⟨hsubject, hagent, hworkspace, -⟩ := hkey
  simp [inScope, hsubject, hagent, hworkspace]

/-- **What settles a start is of its own scope.** -/
theorem AgreeOn.settled_eq (ha : AgreeOn request.val.scope s s') (now : Instant) :
    settled s request items now = settled s' request items now := by
  unfold settled
  rw [ha.find_eq, ha.profileOf_eq]
  rcases hf : s'.findTaskByIdempotencyKey request.val.scope request.val.idempotencyKey with
    - | existing
  · rfl
  · rw [← ha.find_eq] at hf
    obtain ⟨hmem, hscope⟩ := inScope_of_find hf
    simp only [ha.viewOf_eq hmem hscope]

/-- The start inserts, and its identifier is taken. -/
theorem start_taken (hi : Inserts w.store request items (w.clock w.ticks))
    (ht : w.store.hasTask request.val.taskId = true) :
    ((start H request items).exec w).1 = .error .integrityError := by
  obtain ⟨hp, hf, profile, constraints, state, hprofile, hc, hm⟩ := hi
  rw [exec_start_new hp hf hprofile, hc]
  dsimp only
  rw [hm]
  dsimp only
  have hrun : (exec (startTx H request items
      (startRow request profile (w.clock w.ticks) w.clockSource) state (w.clock w.ticks))
      w.ticked.store).1 = .error .integrityError := startTx_taken rfl ht
  rw [Eff.exec_bind, exec_transaction_error hrun]

/-- What a start that inserts answers, where its identifier is free: what it
inserted, read back. -/
def inserted (H : Hashing) (s : Store) (request : TaskStartRequest) (row : TaskRow)
    (state : TaskState) (now : Instant) : Except Raised TaskView :=
  match s.profileOf row.profileVersion with
  | none => .error (.valueError ("unknown task profile version: " ++ repr row.profileVersion))
  | some profile =>
    let revision := revisionRow H state request.val.actor request.val.actorRole
      [.lifecycleChangeAccepted] (request.val.evidence.map EvidenceRef.toDict) now false
    .ok { task := row, state := revision.state, profile
          summary := summarize revision.state profile }

/-- What is inserted raises no error of the database. -/
theorem inserted_ne_integrityError {row : TaskRow} {state : TaskState} {now : Instant} :
    inserted H s request row state now ≠ .error .integrityError := by
  unfold inserted
  split <;> exact fun h => nomatch h

/-- The start inserts, and its identifier is free. -/
theorem start_free (howned : Owned w.store) {profile : TaskProfile} {state : TaskState}
    {constraints : List TaskConstraint}
    (hp : permits request.val.actorRole .changeLifecycle = true)
    (hf : w.store.findTaskByIdempotencyKey request.val.scope request.val.idempotencyKey = none)
    (hprofile : w.store.profileOf request.val.profileVersion = some profile)
    (hc : startConstraints 0 request.val.constraints = .ok constraints)
    (hm : TaskState.make (startFields request items profile constraints (w.clock w.ticks)) =
      .ok state)
    (ht : w.store.hasTask request.val.taskId = false) :
    ((start H request items).exec w).1 = inserted H w.store request
      (startRow request profile (w.clock w.ticks) w.clockSource) state (w.clock w.ticks) := by
  have hfields := make_eq_ok.mp hm
  have hscope : inScope request.val.scope
      (startRow request profile (w.clock w.ticks) w.clockSource) = true := by
    simp [inScope, startRow]
  have htask : state.val.taskId = request.val.taskId :=
    congrArg TaskStateFields.taskId hfields
  have hone : state.val.revision = 1 := congrArg TaskStateFields.revision hfields
  obtain ⟨s', hrun, hprofiles, hget⟩ : ∃ s', exec (startTx H request items _ state
      (w.clock w.ticks)) w.ticked.store = (.ok _, s') ∧ _ ∧ _ :=
    startTx_free howned hscope rfl htask ht hf
  rw [exec_start_new hp hf hprofile, hc]
  dsimp only
  rw [hm]
  dsimp only
  rw [Eff.exec_bind, exec_transaction_ok hrun]
  dsimp only
  rw [exec_view]
  dsimp only
  have hhead : s'.getTaskRevision (startRow request profile (w.clock w.ticks) w.clockSource).taskId
      (startRow request profile (w.clock w.ticks) w.clockSource).headRevision = _ := hone ▸ hget
  simp only [Store.viewOf, hhead, inserted, Store.profileOf, Store.getTaskProfile, hprofiles]
  rfl

/-- The same is inserted in both stores. -/
theorem AgreeOn.inserted_eq {scope : AuthorityScope} (ha : AgreeOn scope s s') (row : TaskRow)
    (state : TaskState) (now : Instant) :
    inserted H s request row state now = inserted H s' request row state now := by
  simp only [inserted, ha.profileOf_eq]

/-- **When a start shows nothing of other scopes.** Of two worlds that calls
reached and that agree on the request's scope, the start answers the same in
both, and no exception of the store, just when it comes to no insertion, or
when no task of either, in whatever scope, has the identifier. -/
theorem start_isolated {H : Hashing} {w₀ w₀' : World} {c c' : System} {request : TaskStartRequest}
    {items : List TaskItem} (hv : Visits H (fun _ => True) w₀ c)
    (hv' : Visits H (fun _ => True) w₀' c')
    (ha : AgreeAt request.val.scope c.time.now c'.time.now) :
    (((start H request items).exec c.time.now).1 = ((start H request items).exec c'.time.now).1 ∧
        ((start H request items).exec c.time.now).1 ≠ .error .integrityError) ↔
      (¬ Inserts c.time.now.store request items (c.time.now.clock c.time.now.ticks) ∨
        (c.time.now.store.hasTask request.val.taskId = false ∧
          c'.time.now.store.hasTask request.val.taskId = false)) := by
  have howned := owned_of_visits hv
  have howned' := owned_of_visits hv'
  generalize c.time.now = w at ha howned ⊢
  generalize c'.time.now = w' at ha howned' ⊢
  have hsettled : settled w.store request items (w.clock w.ticks) =
      settled w'.store request items (w'.clock w'.ticks) := by
    rw [← ha.clock]
    exact ha.store.settled_eq _
  by_cases hi : Inserts w.store request items (w.clock w.ticks)
  · have hi' : Inserts w'.store request items (w'.clock w'.ticks) :=
      settled_eq_none.mp (hsettled ▸ settled_eq_none.mpr hi)
    rcases ht : w.store.hasTask request.val.taskId with - | -
    · rcases ht' : w'.store.hasTask request.val.taskId with - | -
      · -- free in both
        obtain ⟨hp, hf, profile, constraints, state, hprofile, hc, hm⟩ := hi
        have hrun := start_free (H := H) howned hp hf hprofile hc hm ht
        have hrun' := start_free (H := H) howned' hp (ha.store.find_eq _ ▸ hf)
          (ha.store.profileOf_eq _ ▸ hprofile) hc (ha.clock ▸ hm) ht'
        rw [← ha.clock, ← ha.clockSource, ← ha.store.inserted_eq, ← hrun] at hrun'
        refine ⟨fun _ => Or.inr ⟨rfl, rfl⟩, fun _ => ⟨hrun'.symm, ?_⟩⟩
        rw [hrun]
        exact inserted_ne_integrityError
      · -- taken in the second alone: its run shows it
        refine ⟨fun ⟨heq, hne⟩ => absurd (heq.trans (start_taken hi' ht')) hne, ?_⟩
        rintro (h | ⟨-, h⟩)
        · exact absurd hi h
        · cases h
    · refine ⟨fun ⟨_, hne⟩ => absurd (start_taken hi ht) hne, ?_⟩
      rintro (h | ⟨h, -⟩)
      · exact absurd hi h
      · cases h
  · obtain ⟨outcome, ho⟩ := Option.ne_none_iff_exists'.mp (mt settled_eq_none.mp hi)
    have hrun := start_settled (H := H) ho
    have hrun' := start_settled (H := H) (hsettled ▸ ho)
    refine ⟨fun _ => Or.inl hi, fun _ => ⟨hrun.trans hrun'.symm, ?_⟩⟩
    rw [hrun]
    exact settled_ne_integrityError ho


/-! ## Runs -/

/-- An empty store, and a clock that stands still. -/
def stillWorld : World where
  store := {}
  clock _ := 0

theorem fresh_stillWorld : Fresh stillWorld := ⟨rfl, rfl, rfl, rfl, rfl⟩

/-- Whatever is called in turn is a run. -/
theorem visits_always (calls : List Call) : ∃ c, Visits itemHashing (fun _ => True) stillWorld c ∧
    c.time.now = runAll (Call.body itemHashing) calls stillWorld :=
  visits_runAll fresh_stillWorld fun _ _ => trivial

/-- Another workspace. -/
def otherScope : AuthorityScope := ⟨⟨"s", "a", "v"⟩, by decide +kernel⟩

/-- A start there, under the same identifier. -/
def sameIdStart : TaskStartRequest :=
  ⟨{ exampleStart.val with scope := otherScope }, by decide +kernel⟩

/-- A start there, under another. -/
def otherIdStart : TaskStartRequest :=
  ⟨{ exampleStart.val with scope := otherScope, taskId := "u" }, by decide +kernel⟩

/-- After one start elsewhere, the stores agree on the scope as if there had
been none. -/
theorem agreeAt_still {request : TaskStartRequest}
    (hnone : ∀ r ∈ (runAll (Call.body itemHashing) [.start request []] stillWorld).store.tasks.rows,
      inScope exampleScope r = false)
    (hbindings : (runAll (Call.body itemHashing) [.start request []]
      stillWorld).store.sessionBindings = [])
    (hprofiles : (runAll (Call.body itemHashing) [.start request []]
      stillWorld).store.profiles = stillWorld.store.profiles)
    (hclock : (runAll (Call.body itemHashing) [.start request []] stillWorld).clock
      (runAll (Call.body itemHashing) [.start request []] stillWorld).ticks = 0)
    (hsource : (runAll (Call.body itemHashing) [.start request []] stillWorld).clockSource =
      stillWorld.clockSource) :
    AgreeAt exampleScope stillWorld
      (runAll (Call.body itemHashing) [.start request []] stillWorld) := by
  refine ⟨⟨?_, ?_, ?_, ?_, ?_, ?_, hprofiles.symm⟩, hclock.symm, hsource.symm⟩
  · refine (List.filter_eq_nil_iff.mpr fun r hr => ?_).symm
    rw [hnone r hr]
    decide
  · exact fun t ht => absurd ht List.not_mem_nil
  · exact fun t ht => absurd ht List.not_mem_nil
  · exact fun t ht => absurd ht List.not_mem_nil
  · exact fun t ht => absurd ht List.not_mem_nil
  · rw [hbindings]
    rfl

/-- The worlds of the example agree. -/
theorem agreeAt_sameId : AgreeAt exampleScope stillWorld
    (runAll (Call.body itemHashing) [.start sameIdStart []] stillWorld) :=
  agreeAt_still (by decide +kernel) (by decide +kernel) (by decide +kernel) (by decide +kernel)
    (by decide +kernel)

/-- So do the other ones. -/
theorem agreeAt_otherId : AgreeAt exampleScope stillWorld
    (runAll (Call.body itemHashing) [.start otherIdStart []] stillWorld) :=
  agreeAt_still (by decide +kernel) (by decide +kernel) (by decide +kernel) (by decide +kernel)
    (by decide +kernel)

/-- A task of another workspace makes the start raise what an empty store
grants. -/
theorem start_shows_other_scope :
    ∃ c c', Visits itemHashing (fun _ => True) stillWorld c ∧
      Visits itemHashing (fun _ => True) stillWorld c' ∧
      AgreeAt exampleStart.val.scope c.time.now c'.time.now ∧
      ((start itemHashing exampleStart []).exec c.time.now).1.isOk = true ∧
      ((start itemHashing exampleStart []).exec c'.time.now).1 = .error .integrityError := by
  obtain ⟨c, hv, hnow⟩ := visits_always []
  obtain ⟨c', hv', hnow'⟩ := visits_always [.start sameIdStart []]
  refine ⟨c, c', hv, hv', ?_, ?_, ?_⟩
  · rw [hnow, hnow']
    exact agreeAt_sameId
  · rw [hnow]
    decide +kernel
  · rw [hnow']
    refine start_taken ?_ (by decide +kernel)
    exact settled_eq_none.mp (by rw [← agreeAt_sameId.clock, ← agreeAt_sameId.store.settled_eq]; rfl)

/-- The two answers are one, where the other workspace's task has another
identifier. -/
theorem start_isolated_of_otherId :
    ∃ c c' : System, ((start itemHashing exampleStart []).exec c.time.now).1 =
        ((start itemHashing exampleStart []).exec c'.time.now).1 ∧
      ((start itemHashing exampleStart []).exec c.time.now).1 ≠ .error .integrityError ∧
      c'.time.now.store.hasTask "u" = true := by
  obtain ⟨c, hv, hnow⟩ := visits_always []
  obtain ⟨c', hv', hnow'⟩ := visits_always [.start otherIdStart []]
  have ha : AgreeAt exampleStart.val.scope c.time.now c'.time.now := by
    rw [hnow, hnow']
    exact agreeAt_otherId
  have hfree : c.time.now.store.hasTask exampleStart.val.taskId = false := by
    rw [hnow]
    rfl
  have hfree' : c'.time.now.store.hasTask exampleStart.val.taskId = false := by
    rw [hnow']
    decide +kernel
  obtain ⟨heq, hne⟩ := (start_isolated (H := itemHashing) hv hv' ha).mpr (Or.inr ⟨hfree, hfree'⟩)
  refine ⟨c, c', heq, hne, ?_⟩
  rw [hnow']
  decide +kernel

end Atmem
