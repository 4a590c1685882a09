import Atmem.TaskState.Helpers.Bindings
import Atmem.TaskState.Helpers.Retiring
import Atmem.TaskState.Properties.Chain
/-!
# Which lifecycle requests of a host are answered

A host may not change a task's lifecycle, and what the service raises for its
role is no error the boundary knows. So a request is answered as long as
something else decides it first: the scope, the session, the revision it was
made for, or the gates of a completion.
-/

namespace Atmem

open Transactional Relational Checked Interleaving

variable {H : Hashing} {w w' : World} {s : Store} {scope : AuthorityScope} {row : TaskRow}
variable {request : HostTaskLifecycleRequest} {v : TaskView}

/-! ## The role -/

/-- A request names a task, and one of the three actions. -/
theorem admitted (request : HostTaskLifecycleRequest) :
    request.val.taskId ≠ "" ∧ request.val.action ∈ permittedActions := by
  have hpassed := request.2
  unfold HostTaskLifecycleRequestFields.postInit at hpassed
  simp only [bind_eq_ok, identifier_eq_ok, ensure_eq_ok] at hpassed
  obtain ⟨hid, -, -, haction, -⟩ := hpassed
  refine ⟨fun hnone => ?_, haction⟩
  rw [hnone] at hid
  exact absurd hid (by decide)

/-- What the boundary answers to. -/
def Raised.isTaskStateError : Raised → Bool
  | .taskStateError .. | .taskCompletionDenied .. => true
  | _ => false

/-- A view that cannot be read is no refusal. -/
theorem isTaskStateError_of_viewOf {e : Raised} (hview : s.viewOf row = .error e) :
    e.isTaskStateError = false := by
  unfold Store.viewOf at hview
  split at hview
  · cases hview
    rfl
  · split at hview
    · cases hview
      rfl
    · cases hview

/-- **A host may not change a lifecycle.** -/
theorem exec_lifecycle_hostAgent {taskId actor reason : String} {target : TaskLifecycle}
    (hne : target ≠ .expired) :
    (lifecycle H scope taskId target actor .hostAgent reason none).exec w =
      (.error (.capabilityDenied .hostAgent .changeLifecycle), w) := by
  unfold lifecycle lifecycleVia
  rw [if_neg hne, require, if_neg (by decide)]
  exact Eff.exec_bind_error (Eff.exec_throw _ _)

/-- The action is not one that is answered, unless the task's own gates refuse
to complete it. -/
theorem exec_complete_hostAgent {taskId : String} (actor reason : String)
    (hget : w.store.getTask scope taskId = some row) (hview : w.store.viewOf row = .ok v) :
    ∃ e, (complete H scope taskId actor .hostAgent reason).exec w = (.error e, w) ∧
      (e.isTaskStateError = true ↔
        ∃ codes guard, evaluateCompletion v.state v.profile = .ok (false, codes, some guard)) := by
  obtain ⟨c, hc, rfl, hscope⟩ := getTask_eq_some.mp hget
  have hexec : (view c.row).exec w = (.ok v, w) := by rw [exec_view, hview]
  unfold complete
  rw [Eff.exec_bind_ok (exec_requireTask hc hscope), Eff.exec_bind_ok hexec]
  rcases hgates : evaluateCompletion v.state v.profile with message | ⟨allowed, codes, guard⟩
  · refine ⟨.valueError message, Eff.exec_bind_error (by rw [lift, Eff.exec_ofExcept_error]), ?_⟩
    simp [Raised.isTaskStateError]
  · rw [lift, Eff.exec_bind_ok (Eff.exec_ofExcept_ok _ _ _)]
    cases allowed with
    | true =>
      refine ⟨_, exec_lifecycle_hostAgent (by decide), ?_⟩
      simp [Raised.isTaskStateError]
    | false =>
      cases guard with
      | none => exact ⟨_, rfl, by simp [Raised.isTaskStateError]⟩
      | some guard => exact ⟨_, rfl, by simp [Raised.isTaskStateError]⟩

/-- The action never goes through, and writes nothing. -/
theorem exists_requestedAction (scope : AuthorityScope) (request : HostTaskLifecycleRequest)
    (w : World) :
    ∃ e, (requestedAction H scope request).exec w = (.error e, w) := by
  unfold requestedAction
  dsimp only
  split
  · exact ⟨_, exec_lifecycle_hostAgent (by decide)⟩
  · split
    · exact ⟨_, exec_lifecycle_hostAgent (by decide)⟩
    · rcases hget : w.store.getTask scope request.val.taskId with - | row
      · refine ⟨noEligibleTask, ?_⟩
        unfold complete requireTask query
        refine Eff.exec_bind_error ?_
        rw [Eff.exec_bind, Eff.exec_read]
        simp only [hget, Eff.exec_throw]
      · rcases hview : w.store.viewOf row with e | v
        · refine ⟨e, ?_⟩
          obtain ⟨c, hc, rfl, hscope⟩ := getTask_eq_some.mp hget
          unfold complete
          rw [Eff.exec_bind_ok (exec_requireTask hc hscope)]
          exact Eff.exec_bind_error (by rw [exec_view, hview])
        · obtain ⟨e, hexec, -⟩ := exec_complete_hostAgent (H := H) request.val.adapter
            (if request.val.reason = "" then request.val.action else request.val.reason) hget hview
          exact ⟨e, hexec⟩

/-- What the action raises, of a task that can be viewed. -/
theorem exec_requestedAction (hget : w.store.getTask scope request.val.taskId = some row)
    (hview : w.store.viewOf row = .ok v) :
    ∃ e, (requestedAction H scope request).exec w = (.error e, w) ∧
      (e.isTaskStateError = true ↔ request.val.action = "complete" ∧
        ∃ codes guard, evaluateCompletion v.state v.profile = .ok (false, codes, some guard)) := by
  have hadmitted := (admitted request).2
  unfold requestedAction
  dsimp only
  split
  · rename_i hpause
    exact ⟨_, exec_lifecycle_hostAgent (by decide), by simp [Raised.isTaskStateError, hpause]⟩
  · split
    · rename_i hresume
      exact ⟨_, exec_lifecycle_hostAgent (by decide), by simp [Raised.isTaskStateError, hresume]⟩
    · rename_i hpause hresume
      have hcomplete : request.val.action = "complete" := by
        simpa [permittedActions, hpause, hresume] using hadmitted
      obtain ⟨e, hexec, hwhy⟩ := exec_complete_hostAgent (H := H) request.val.adapter
        (if request.val.reason = "" then request.val.action else request.val.reason) hget hview
      exact ⟨e, hexec, hwhy.trans (by simp [hcomplete])⟩

/-! ## The decision -/

/-- The request is answered, and where it is not accepted no task has
changed. -/
def Answered (x : Svc LifecycleAnswer) (w : World) : Prop :=
  ∃ answer w', x.exec w = (.ok answer, w') ∧
    (answer.accepted = false → w'.store.tasks.rows = w.store.tasks.rows)

/-- A refusal is answered, other errors are raised. -/
theorem exec_lifecycleRefusal (taskId : String) (e : Raised) :
    if e.isTaskStateError then
      ∃ answer, (lifecycleRefusal taskId e).exec w = (.ok answer, w) ∧ answer.accepted = false
    else (lifecycleRefusal taskId e).exec w = (.error e, w) := by
  cases e <;> first | exact ⟨_, rfl, rfl⟩ | rfl

/-- A decision that raises is answered as far as the boundary knows what it
raised. -/
theorem answered_error_iff {x : Svc LifecycleAnswer} {taskId : String} {e : Raised}
    (hexec : x.exec w = (.error e, w')) :
    Answered (tryCatch x (lifecycleRefusal taskId)) w ↔
      e.isTaskStateError = true ∧ w'.store.tasks.rows = w.store.tasks.rows := by
  have hcaught : (tryCatch x (lifecycleRefusal taskId)).exec w =
      (lifecycleRefusal taskId e).exec w' := by
    rw [Eff.exec_tryCatch, hexec]
  have hrefusal := exec_lifecycleRefusal (w := w') taskId e
  unfold Answered
  rw [hcaught]
  by_cases herror : e.isTaskStateError = true
  · rw [if_pos herror] at hrefusal
    obtain ⟨answer, hanswer, hdenied⟩ := hrefusal
    rw [hanswer]
    simp [herror, hdenied]
  · rw [if_neg herror] at hrefusal
    rw [hrefusal]
    simp [herror]

/-- A request that is denied must change nothing. -/
theorem answered_ok_iff {x : Svc LifecycleAnswer} {taskId : String} {answer : LifecycleAnswer}
    (hexec : x.exec w = (.ok answer, w')) (hdenied : answer.accepted = false) :
    Answered (tryCatch x (lifecycleRefusal taskId)) w ↔
      w'.store.tasks.rows = w.store.tasks.rows := by
  unfold Answered
  rw [Eff.exec_tryCatch, hexec]
  simp [hdenied]

/-! ## The read before it -/

/-- A task that is not there is not eligible. -/
theorem exec_get_none (hget : w.store.getTask scope request.val.taskId = none) :
    (TaskStateService.get H scope request.val.taskId true).exec w = (.error noEligibleTask, w) := by
  unfold TaskStateService.get requireTask query
  refine Eff.exec_bind_error ?_
  rw [Eff.exec_bind, Eff.exec_read]
  simp only [hget, Eff.exec_throw]

/-- Where the task is not due, the read is a view of what is stored. -/
theorem exec_get_quiet (hget : w.store.getTask scope request.val.taskId = some row)
    (hquiet : ¬ (isLive row = true ∧ isDue (w.clock w.ticks) row = true)) :
    ∃ w', (TaskStateService.get H scope request.val.taskId true).exec w =
      (w.store.viewOf row, w') ∧ w'.store = w.store := by
  obtain ⟨c, hc, rfl, hscope⟩ := getTask_eq_some.mp hget
  unfold TaskStateService.get
  rw [Eff.exec_bind_ok (exec_requireTask hc hscope)]
  cases hlife : c.row.lifecycle.terminal with
  | true =>
    refine ⟨w, ?_, rfl⟩
    simp only [Bool.not_true, Bool.false_eq_true, and_false, if_false]
    rw [Eff.exec_bind_ok (Eff.exec_pure _ _), exec_view]
  | false =>
    have hnone : (expiryStatusAt c.row (w.clock w.ticks)).dueReason = none :=
      Option.not_isSome_iff_eq_none.mp fun hdue => hquiet ⟨isLive_iff.mpr hlife, hdue⟩
    have hrefresh : (refresh (expireIfDue H) scope c.row).exec w = (.ok c.row, w.ticked) := by
      rw [refresh, Eff.exec_bind_ok (exec_expireIfDue_live hnone)]
      rfl
    refine ⟨w.ticked, ?_, rfl⟩
    simp only [Bool.not_false, and_true, if_true]
    rw [Eff.exec_bind_ok hrefresh, exec_view]
    rfl

/-- Where it is due and cannot be retired, the read raises what the boundary
does not know. -/
theorem exec_get_blocked (hn : Numbered w.store)
    (hget : w.store.getTask scope request.val.taskId = some row) (hlive : isLive row = true)
    (hdue : isDue (w.clock w.ticks) row = true) (hblocked : ¬ Retirable w.store row) :
    ∃ e w', (TaskStateService.get H scope request.val.taskId true).exec w = (.error e, w') ∧
      e.isTaskStateError = false := by
  obtain ⟨c, hc, rfl, hscope⟩ := getTask_eq_some.mp hget
  have hid := (cell_eq_some.mp hc).2.1
  obtain ⟨e, w', hexec, hwhy⟩ := exec_expireIfDue_blocked (H := H) (by rw [hid]; exact hc) hn hscope
    hlive hdue hblocked
  refine ⟨e, w', ?_, ?_⟩
  · unfold TaskStateService.get
    rw [Eff.exec_bind_ok (exec_requireTask hc hscope), isLive_iff.mp hlive]
    simp only [Bool.not_false, and_true, if_true]
    refine Eff.exec_bind_error ?_
    rw [refresh, Eff.exec_bind_error hexec]
  · rcases hwhy with rfl | hview
    · rfl
    · exact isTaskStateError_of_viewOf hview

/-- Where it is due and can be retired, the read has changed it. -/
theorem exec_get_retired (hn : Numbered w.store)
    (hget : w.store.getTask scope request.val.taskId = some row) (hlive : isLive row = true)
    (hdue : isDue (w.clock w.ticks) row = true) (hret : Retirable w.store row) :
    ∃ r w', (TaskStateService.get H scope request.val.taskId true).exec w = (r, w') ∧
      w'.store.tasks.rows ≠ w.store.tasks.rows := by
  obtain ⟨c, hc, rfl, hscope⟩ := getTask_eq_some.mp hget
  have hid := (cell_eq_some.mp hc).2.1
  obtain ⟨base, hready⟩ := hret.ready hn (by rw [hid]; exact hc)
  obtain ⟨code, hcode⟩ := Option.isSome_iff_exists.mp hdue
  obtain ⟨s', c', hexec, hc', hlife, -, -⟩ := exec_expireIfDue_due (H := H) hready hscope
    (isLive_iff.mp hlive) hcode
  have hrefresh : (refresh (expireIfDue H) scope c.row).exec w =
      (.ok c'.row, { w.ticked.ticked with store := s' }) := by
    rw [refresh, Eff.exec_bind_ok hexec]
    rfl
  refine ⟨s'.viewOf c'.row, { w.ticked.ticked with store := s' }, ?_, fun hsame => ?_⟩
  · unfold TaskStateService.get
    rw [Eff.exec_bind_ok (exec_requireTask hc hscope), isLive_iff.mp hlive]
    simp only [Bool.not_false, and_true, if_true]
    rw [Eff.exec_bind_ok hrefresh, exec_view]
  · -- the row that is there now is expired, and the one before was not
    obtain ⟨hmem', hid', -⟩ := cell_eq_some.mp hc'
    dsimp only at hsame
    rw [hsame] at hmem'
    have heq : c'.row = c.row :=
      Table.eq_of_id_eq taskClash_of_taskId hmem' (cell_eq_some.mp hc).1 hid'
    have hterminal := isLive_iff.mp hlive
    rw [← heq, hlife] at hterminal
    cases hterminal

/-! ## The request -/

/-- What the service has of the task decides the request before the role is
asked for: it has none in the scope; or the task is not due, and the request is
for another revision, or is to complete it and its gates are not met. -/
def Unasked (s : Store) (t : Instant) (scope : AuthorityScope)
    (request : HostTaskLifecycleRequest) : Prop :=
  s.getTask scope request.val.taskId = none ∨
    ∃ row v, s.getTask scope request.val.taskId = some row ∧ s.viewOf row = .ok v ∧
      ¬ (isLive row = true ∧ isDue t row = true) ∧
      (request.val.expectedRevision ≠ v.state.val.revision ∨ request.val.action = "complete" ∧
        ∃ codes guard, evaluateCompletion v.state v.profile = .ok (false, codes, some guard))

/-- The decision on a task that is in the scope. -/
theorem exec_decideLifecycle {r : Except Raised TaskView}
    (hget : (TaskStateService.get H scope request.val.taskId true).exec w = (r, w')) :
    ∃ r', (decideLifecycle H scope request).exec w = (r', w') ∧
      ∀ answer, r' = .ok answer → answer.accepted = false := by
  unfold decideLifecycle
  rcases r with e | v
  · exact ⟨.error e, Eff.exec_bind_error hget, fun _ h => by cases h⟩
  · rw [Eff.exec_bind_ok hget]
    split
    · exact ⟨_, rfl, fun _ h => by cases h; rfl⟩
    · obtain ⟨e, hexec⟩ := exists_requestedAction (H := H) scope request w'
      exact ⟨.error e, Eff.exec_bind_error hexec, fun _ h => by cases h⟩

/-- A task that is due is retired by the read, or the read raises. -/
theorem not_answered_of_due (hn : Numbered w.store)
    (hget : w.store.getTask scope request.val.taskId = some row) (hlive : isLive row = true)
    (hdue : isDue (w.clock w.ticks) row = true) :
    ¬ Answered (tryCatch (decideLifecycle H scope request)
      (lifecycleRefusal request.val.taskId)) w := by
  by_cases hret : Retirable w.store row
  · obtain ⟨r, w', hread, hchanged⟩ := exec_get_retired (H := H) hn hget hlive hdue hret
    obtain ⟨r', hexec, hdenied⟩ := exec_decideLifecycle hread
    rcases r' with e | answer
    · rw [answered_error_iff hexec]
      exact fun h => hchanged h.2
    · rw [answered_ok_iff hexec (hdenied answer rfl)]
      exact hchanged
  · obtain ⟨e, w', hread, hunknown⟩ := exec_get_blocked (H := H) hn hget hlive hdue hret
    have hexec : (decideLifecycle H scope request).exec w = (.error e, w') := by
      unfold decideLifecycle
      exact Eff.exec_bind_error hread
    rw [answered_error_iff hexec, hunknown]
    exact fun h => Bool.false_ne_true h.1

/-- One that is not is left as it is, and the request is answered where its
revision or its gates decide it. -/
theorem answered_of_quiet_iff (hget : w.store.getTask scope request.val.taskId = some row)
    (hquiet : ¬ (isLive row = true ∧ isDue (w.clock w.ticks) row = true)) :
    Answered (tryCatch (decideLifecycle H scope request)
      (lifecycleRefusal request.val.taskId)) w ↔
      ∃ v, w.store.viewOf row = .ok v ∧ (request.val.expectedRevision ≠ v.state.val.revision ∨
        request.val.action = "complete" ∧
          ∃ codes guard, evaluateCompletion v.state v.profile = .ok (false, codes, some guard)) := by
  obtain ⟨w', hread, hstore⟩ := exec_get_quiet (H := H) hget hquiet
  rcases hview : w.store.viewOf row with e | v
  · -- no snapshot, or no profile: an assertion, or a `ValueError`
    have hunknown : e.isTaskStateError = false := isTaskStateError_of_viewOf hview
    rw [hview] at hread
    have hexec : (decideLifecycle H scope request).exec w = (.error e, w') := by
      unfold decideLifecycle
      exact Eff.exec_bind_error hread
    rw [answered_error_iff hexec, hunknown]
    simp
  · rw [hview] at hread
    by_cases hrev : request.val.expectedRevision = v.state.val.revision
    · rw [← hstore] at hget hview
      obtain ⟨e, hrequested, hwhy⟩ := exec_requestedAction (H := H) hget hview
      have hexec : (decideLifecycle H scope request).exec w = (.error e, w') := by
        unfold decideLifecycle
        rw [Eff.exec_bind_ok hread, if_neg (not_not.mpr hrev)]
        exact Eff.exec_bind_error hrequested
      rw [answered_error_iff hexec, hwhy, hstore]
      simp [hrev]
    · have hexec : (decideLifecycle H scope request).exec w =
          (.ok (.conflict request.val.taskId request.val.expectedRevision v.state.val.revision),
            w') := by
        unfold decideLifecycle
        rw [Eff.exec_bind_ok hread, if_pos hrev]
        rfl
      rw [answered_ok_iff hexec rfl, hstore]
      simp [hrev]

/-- **The decision is answered where the role is not asked for.** -/
theorem answered_decideLifecycle_iff (hn : Numbered w.store) :
    Answered (tryCatch (decideLifecycle H scope request) (lifecycleRefusal request.val.taskId)) w ↔
      Unasked w.store (w.clock w.ticks) scope request := by
  unfold Unasked
  rcases hget : w.store.getTask scope request.val.taskId with - | row
  · have hexec : (decideLifecycle H scope request).exec w = (.error noEligibleTask, w) := by
      unfold decideLifecycle
      exact Eff.exec_bind_error (exec_get_none hget)
    rw [answered_error_iff hexec]
    simp [noEligibleTask, Raised.isTaskStateError]
  · by_cases hquiet : isLive row = true ∧ isDue (w.clock w.ticks) row = true
    · refine iff_of_false (not_answered_of_due hn hget hquiet.1 hquiet.2) ?_
      rintro (hnone | ⟨row', v, hrow, -, hnot, -⟩)
      · cases hnone
      · cases hrow
        exact hnot hquiet
    · rw [answered_of_quiet_iff hget hquiet]
      constructor
      · rintro ⟨v, hview, hdecides⟩
        exact .inr ⟨row, v, rfl, hview, hquiet, hdecides⟩
      · rintro (hnone | ⟨row', v, hrow, hview, -, hdecides⟩)
        · cases hnone
        · cases hrow
          exact ⟨v, hview, hdecides⟩

/-- The request is decided by the scope, by the session, or by what the service
has of the task. -/
def Answerable (w : World) (scope : AuthorityScope) (request : HostTaskLifecycleRequest) : Prop :=
  let mode := modeOf scope (w.store.listAuditEvents scope.val.subjectId)
  mode.enabled = false ∨
    w.store.boundAt (w.clock w.ticks) scope request.val.identity = none ∨
    ∃ bound, w.store.boundAt (w.clock w.ticks) scope request.val.identity = some bound ∧
      (bound.taskId ≠ "" ∧ bound.taskId ≠ request.val.taskId ∨
        bound.taskId = request.val.taskId ∧ (mode.shadow = true ∨
          Unasked w.store (w.clock (w.ticks + bound.readings)) scope request))

/-- An answer that a gate gives. -/
theorem answered_of_ok {x : Svc LifecycleAnswer} {answer : LifecycleAnswer} {readings : ℕ}
    (hexec : x.exec w = (.ok answer, w.after readings)) : Answered x w :=
  ⟨answer, _, hexec, fun _ => rfl⟩

/-- Behind the first gate, the session's binding decides. -/
theorem answered_bound_iff (hn : Numbered w.store) {shadow : Bool}
    (hgate : (enablement scope).exec w = (.ok (none, shadow), w)) :
    Answered (requestLifecycle H scope request) w ↔
      (w.store.boundAt (w.clock w.ticks) scope request.val.identity = none ∨
        ∃ bound, w.store.boundAt (w.clock w.ticks) scope request.val.identity = some bound ∧
          (bound.taskId ≠ "" ∧ bound.taskId ≠ request.val.taskId ∨
            bound.taskId = request.val.taskId ∧ (shadow = true ∨
              Unasked w.store (w.clock (w.ticks + bound.readings)) scope request))) := by
  rcases hbound : w.store.boundAt (w.clock w.ticks) scope request.val.identity with - | bound
  · -- no binding in force: refused
    obtain ⟨refusal, readings, hexec⟩ := exec_boundTask_none request.val.taskId hbound
    have hrefused : (requestLifecycle H scope request).exec w =
        (.ok (.refused refusal), w.after readings) := by
      unfold requestLifecycle
      rw [Eff.exec_bind_ok hgate]
      dsimp only
      rw [Eff.exec_bind_ok hexec]
      rfl
    exact iff_of_true (answered_of_ok hrefused) (.inl rfl)
  · by_cases hempty : bound.taskId = ""
    · -- such a binding is not resolved, and no request names its task
      obtain ⟨e, w', hexec⟩ := exec_boundTask_empty request.val.taskId hbound hempty
      refine iff_of_false ?_ ?_
      · rintro ⟨answer, w'', hanswer, -⟩
        unfold requestLifecycle at hanswer
        rw [Eff.exec_bind_ok hgate] at hanswer
        dsimp only at hanswer
        rw [Eff.exec_bind_error hexec] at hanswer
        cases hanswer
      · rintro (hnone | ⟨bound', hfound, hother | hmine⟩)
        · cases hnone
        · cases hfound
          exact hother.1 hempty
        · cases hfound
          exact (admitted request).1 (hmine.1.symm.trans hempty)
    · have hexec := exec_boundTask_some request.val.taskId hbound hempty
      by_cases hmine : bound.taskId = request.val.taskId
      · -- bound to its task: told in shadow mode, otherwise decided
        rw [if_pos hmine] at hexec
        have hpassed : (requestLifecycle H scope request).exec w =
            (if shadow then pure (.shadowed request.val.taskId)
              else tryCatch (decideLifecycle H scope request)
                (lifecycleRefusal request.val.taskId) : Svc LifecycleAnswer).exec
              (w.after bound.readings) := by
          unfold requestLifecycle
          rw [Eff.exec_bind_ok hgate]
          dsimp only
          rw [Eff.exec_bind_ok hexec]
        cases shadow with
        | true =>
          exact iff_of_true (answered_of_ok hpassed) (.inr ⟨bound, rfl, .inr ⟨hmine, .inl rfl⟩⟩)
        | false =>
          have hdecided : Answered (tryCatch (decideLifecycle H scope request)
              (lifecycleRefusal request.val.taskId)) (w.after bound.readings) ↔
              Unasked w.store (w.clock (w.ticks + bound.readings)) scope request :=
            answered_decideLifecycle_iff hn
          unfold Answered at hdecided ⊢
          rw [hpassed]
          exact hdecided.trans (by simp [hmine])
      · -- bound to another task: refused
        rw [if_neg hmine] at hexec
        have hrefused : (requestLifecycle H scope request).exec w = (.ok (.refused
            ⟨.hostTaskNotBoundToSession, "This conversation is not bound to that task."⟩),
            w.after bound.readings) := by
          unfold requestLifecycle
          rw [Eff.exec_bind_ok hgate]
          dsimp only
          rw [Eff.exec_bind_ok hexec]
          rfl
        exact iff_of_true (answered_of_ok hrefused) (.inr ⟨bound, rfl, .inl ⟨hempty, hmine⟩⟩)

/-- **Which requests are answered**, in any store whose revisions are
numbered. -/
theorem answered_iff (hn : Numbered w.store) :
    Answered (requestLifecycle H scope request) w ↔ Answerable w scope request := by
  unfold Answerable
  have hgate := exec_enablement w scope
  set mode := modeOf scope (w.store.listAuditEvents scope.val.subjectId)
  cases henabled : mode.enabled with
  | false =>
    rw [henabled] at hgate
    have hrefused : (requestLifecycle H scope request).exec w = (.ok (.refused
        ⟨.taskStateDisabled, "Governed task state is disabled for this scope."⟩), w.after 0) := by
      unfold requestLifecycle
      rw [Eff.exec_bind_ok hgate]
      rfl
    exact iff_of_true (answered_of_ok hrefused) (.inl henabled)
  | true =>
    rw [henabled, if_pos rfl] at hgate
    have hnot : ¬ mode.enabled = false := by rw [henabled]; exact Bool.false_ne_true.symm
    exact (answered_bound_iff hn hgate).trans (or_iff_right hnot).symm

section Run

variable {allowed : Call → Prop} {w₀ : World} {c : System}

/-- **Which lifecycle requests of a host are answered.** In a store that any
calls have left, of any scope and for any request, what the boundary answers is
a result, and one that is not accepted has changed no task, if and only if
something other than the host's role decides it. -/
theorem host_lifecycle_answered_iff (hv : Visits H allowed w₀ c) (scope : AuthorityScope)
    (request : HostTaskLifecycleRequest) :
    Answered (requestLifecycle H scope request) c.time.now ↔
      Answerable c.time.now scope request :=
  answered_iff (numbered_of_visits hv)

end Run

/-! ## A session that is bound -/

/-- The session of the host. -/
def hostIdentity : HostSessionIdentity := ⟨⟨"h", "k", "e"⟩, by decide +kernel⟩

/-- A store whose scope is enabled, and where the session is bound to the task
that will be started. -/
def hostWorld : World where
  store :=
    { sessionBindings := [
        { bindingId := "b", subjectId := "s", agentId := "a", workspaceId := "w"
          hostType := "h", sessionKey := "k", sessionEpoch := "e", taskId := "t"
          actor := "o", reason := "r", source := "", evidence := []
          registeredAtUtc := 0, expiresAtUtc := none }]
      auditEvents := [
        { subjectId := "s", eventType := enabledEvent, actor := "o"
          payload := .obj [("agent_id", .str "a"), ("workspace_id", .str "w")] }] }
  clock n := n * 1000000

theorem fresh_hostWorld : Fresh hostWorld := ⟨rfl, rfl, rfl, rfl, rfl⟩

/-- The task was started. -/
def hostRun : World := runAll (Call.body itemHashing) [.start exampleStart []] hostWorld

/-- The example is a run. -/
theorem exists_hostRun : ∃ c, Visits itemHashing (fun _ => True) hostWorld c ∧
    c.time.now = hostRun := by
  have hcalls : ∀ k ∈ [Call.start exampleStart []], True := fun _ _ => trivial
  exact visits_runAll (H := itemHashing) fresh_hostWorld hcalls

/-- To pause the task, for a revision the host has read. -/
def pauseFields (expectedRevision : ℕ) : HostTaskLifecycleRequestFields :=
  { identity := hostIdentity, taskId := "t", action := "pause", expectedRevision
    idempotencyKey := "i", adapter := "d" }

/-- A pause of the revision that is current. -/
def pauseRequest : HostTaskLifecycleRequest := ⟨pauseFields 1, by decide +kernel⟩

/-- A pause of one that is not. -/
def stalePauseRequest : HostTaskLifecycleRequest := ⟨pauseFields 2, by decide +kernel⟩

/-- Its task is at the first revision, and not due. -/
theorem view_hostRun :
    ((hostRun.store.getTask exampleScope "t").map fun row =>
      ((hostRun.store.viewOf row).toOption.map (·.state.val.revision),
        isDue (hostRun.clock hostRun.ticks) row)) = some (some 1, false) := by
  decide +kernel

/-- Its session is bound. -/
theorem bound_hostRun :
    (hostRun.store.boundAt (hostRun.clock hostRun.ticks) exampleScope hostIdentity).map
      (fun bound => (bound.taskId, bound.readings)) = some ("t", 0) := by
  decide +kernel

/-- The law, for a request that was made for another revision. -/
theorem host_lifecycle_answered_stale :
    ∃ c, Visits itemHashing (fun _ => True) hostWorld c ∧
      Answered (requestLifecycle itemHashing exampleScope stalePauseRequest) c.time.now := by
  obtain ⟨c, hv, hnow⟩ := exists_hostRun
  refine ⟨c, hv, (host_lifecycle_answered_iff hv exampleScope stalePauseRequest).mpr ?_⟩
  rw [hnow]
  obtain ⟨bound, hbound, hkey⟩ := Option.map_eq_some_iff.mp bound_hostRun
  obtain ⟨row, hget, hrow⟩ := Option.map_eq_some_iff.mp view_hostRun
  obtain ⟨htask, hreadings⟩ := Prod.mk.inj hkey
  obtain ⟨hview, hdue⟩ := Prod.mk.inj hrow
  obtain ⟨v, hview, hrevision⟩ := Option.map_eq_some_iff.mp hview
  refine .inr (.inr ⟨bound, hbound, .inr ⟨htask, .inr (.inr ⟨row, v, hget, ?_, ?_, .inl ?_⟩)⟩⟩)
  · rcases hexec : hostRun.store.viewOf row with e | v'
    · rw [hexec] at hview
      cases hview
    · rw [hexec] at hview
      cases hview
      rfl
  · rw [hreadings, Nat.add_zero, hdue]
    exact fun h => Bool.false_ne_true h.2
  · rw [hrevision]
    decide

/-- **A host's pause is not answered**, of the task its session is bound to, for
the revision it is at. -/
theorem host_pause_raises :
    ¬ ∀ (H : Hashing) (w₀ : World) (c : System) (scope : AuthorityScope)
      (request : HostTaskLifecycleRequest), Visits H (fun _ => True) w₀ c →
      Answered (requestLifecycle H scope request) c.time.now := by
  intro h
  obtain ⟨c, hv, hnow⟩ := exists_hostRun
  obtain ⟨answer, w', hexec, -⟩ := h itemHashing hostWorld c exampleScope pauseRequest hv
  rw [hnow] at hexec
  have hraises : ((requestLifecycle itemHashing exampleScope pauseRequest).exec hostRun).1.isOk =
      false := by decide +kernel
  rw [hexec] at hraises
  cases hraises

end Atmem
