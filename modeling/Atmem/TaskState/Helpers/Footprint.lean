import Atmem.TaskState.Helpers.Transactions
import Atmem.TaskState.Model.Calls
/-!
# What the statements touch

A relation between stores that every statement but a deletion keeps to is
one that every method but the deletion of a task keeps to, action by
action. This needs no invariant of the store, so it holds of any calls, in
any order, from any store.
-/

namespace Atmem

open Transactional Relational Interleaving

/-- The row has the task and the number of its snapshot. -/
structure RevisionRow.Numbered (row : RevisionRow) : Prop where
  task : row.state.val.taskId = row.taskId
  revision : row.state.val.revision = row.revision

/-- A relation every statement but a deletion keeps to. -/
class Footprint (P : Store → Store → Prop) : Prop where
  refl : ∀ s, P s s
  trans : ∀ s s' s'', P s s' → P s' s'' → P s s''
  insertTask : ∀ scope row, row.scopeFields = scope.val →
    Transactional.Within P (insertTask scope row)
  insertTaskRevision : ∀ row, row.Numbered → Transactional.Within P (insertTaskRevision row)
  insertTaskProvenance : ∀ row, Transactional.Within P (insertTaskProvenance row)
  insertTaskProposal : ∀ row, Transactional.Within P (insertTaskProposal row)
  insertTaskStep : ∀ row, Transactional.Within P (insertTaskStep row)
  advanceTaskHead : ∀ id expectedHead newHead change,
    Transactional.Within P (advanceTaskHead id expectedHead newHead change)

variable {P : Store → Store → Prop} [Footprint P] {α : Type}

/-- The statements keep to the relation. -/
abbrev TouchesTx (P : Store → Store → Prop) (x : Tx α) : Prop := Transactional.Within P x

/-- The rule of sequence. -/
theorem touches_bind {β : Type} {x : Tx α} {f : α → Tx β} (hx : TouchesTx P x)
    (hf : ∀ a, TouchesTx P (f a)) : TouchesTx P (x >>= f) :=
  .bind Footprint.trans hx hf

theorem touches_pure {a : α} : TouchesTx P (pure a) := .pure Footprint.refl

theorem touches_throw {e : Raised} : TouchesTx P (throw e : Tx α) := .throw Footprint.refl

theorem touches_liftTx {r : Except String α} : TouchesTx P (liftTx r) := by
  cases r
  · exact touches_throw
  · exact touches_pure

/-! ## Transactions -/

/-- The transaction that starts a task. -/
theorem touches_startTx {H : Hashing} {request : TaskStartRequest} {items : List TaskItem}
    {row : TaskRow} {state : TaskState} {now : Instant}
    (hrow : row.scopeFields = request.val.scope.val) :
    TouchesTx P (startTx H request items row state now) := by
  unfold startTx
  refine touches_bind (Footprint.insertTask _ _ hrow) fun _ => ?_
  refine touches_bind (Footprint.insertTaskRevision _ ⟨rfl, rfl⟩) fun _ => ?_
  refine touches_bind (Footprint.insertTaskProvenance _) fun _ => ?_
  refine touches_bind (.forM Footprint.refl Footprint.trans
    fun _ => (Footprint.insertTaskProvenance _)) fun _ => ?_
  exact touches_bind (Footprint.insertTaskStep _) fun _ => touches_pure

/-- The one that changes its lifecycle. -/
theorem touches_lifecycleTx {H : Hashing} {id : String} {row : TaskRow} {state next : TaskState}
    {target : TaskLifecycle} {actor reason : String} {actorRole : ActorRole}
    {expiryRule : Option String} {now : Instant} :
    TouchesTx P
      (lifecycleTx H id row state next target actor actorRole reason expiryRule now) := by
  unfold lifecycleTx
  refine touches_bind (Footprint.insertTaskRevision _ ⟨rfl, rfl⟩) fun _ => ?_
  refine touches_bind (Footprint.advanceTaskHead _ _ _ _) fun _ => ?_
  split
  · exact touches_throw
  · exact touches_bind (Footprint.insertTaskProvenance _) fun _ => (Footprint.insertTaskStep _)

/-- The one that records a conflict. -/
theorem touches_resolve {H : Hashing} {proposal : TaskStateProposal} {view : TaskView}
    {decision : PolicyDecision} {now : Instant} :
    TouchesTx P (resolve H proposal view decision now) := by
  unfold resolve
  split
  · split
    · exact touches_throw
    · refine touches_bind (.tryCatch Footprint.trans ?_ fun e => ?_) fun advanced => ?_
      · exact touches_bind (Footprint.insertTaskRevision _ ⟨rfl, rfl⟩) fun _ => (Footprint.advanceTaskHead _ _ _ _)
      · split
        · exact touches_pure
        · exact touches_throw
      · split
        · exact touches_pure
        · exact touches_bind (.forM Footprint.refl Footprint.trans
            fun _ => (Footprint.insertTaskProvenance _)) fun _ => touches_pure
  · exact touches_pure

/-- The one that commits a proposal. -/
theorem touches_commitTx {H : Hashing} {proposal : TaskStateProposal} {view : TaskView}
    {decision : PolicyDecision} {stepKind : String} {started now : Instant} :
    TouchesTx P (commitTx H proposal view decision stepKind started now) := by
  unfold commitTx
  refine touches_bind touches_resolve fun _ => ?_
  refine touches_bind touches_liftTx fun _ => ?_
  refine touches_bind (.tryCatch Footprint.trans (Footprint.insertTaskProposal _)
    fun _ => touches_throw) fun _ => ?_
  exact touches_bind (Footprint.insertTaskStep _) fun _ => touches_pure

/-! ## Methods -/

/-- Every action of the method keeps to the relation. -/
abbrev Touches (P : Store → Store → Prop) (x : Svc α) : Prop :=
  Eff.Within (fun w w' => P w.store w'.store) x

/-- And so does the method run alone. -/
theorem exec_touches {x : Svc α} (hx : Touches P x) (w : World) :
    P w.store (x.exec w).2.store :=
  Eff.Within.exec (P := fun w w' : World => P w.store w'.store) (fun _ => Footprint.refl _)
    (fun _ _ _ => Footprint.trans _ _ _) hx w

theorem touches_now : Touches P now := .action fun w => Footprint.refl w.store

theorem touches_query {label : Label} {f : Store → α} : Touches P (query label f) :=
  .action fun w => Footprint.refl w.store

/-- A transaction, as one action. -/
theorem touches_transaction {body : Tx α} (hb : TouchesTx P body) :
    Touches P (transaction body) := by
  refine .action fun w => ?_
  have hkept := hb w.store
  change P w.store (match exec body w.store with
    | (.ok a, store) => ((.ok a, { w with store }) : Except Raised α × World)
    | (.error e, _) => (.error e, w)).2.store
  rcases hrun : exec body w.store with ⟨e | a, s₁⟩ <;> rw [hrun] at hkept
  · exact Footprint.refl w.store
  · exact hkept

omit [Footprint P] in
theorem touches_require {actorRole : ActorRole} {action : GovernanceAction} :
    Touches P (require actorRole action) := by
  unfold require
  split
  · exact .pure
  · exact .throw

theorem touches_profileOf {version : String} : Touches P (profileOf version) := by
  unfold profileOf
  split
  · exact .pure
  · exact touches_query

theorem touches_view {row : TaskRow} : Touches P (view row) := by
  unfold view requireProfile
  refine .bind touches_query fun revision => ?_
  split
  · exact .throw
  · refine .bind (.bind touches_profileOf fun profile => ?_) fun _ => .pure
    split
    · exact .pure
    · exact .throw

theorem touches_requireTask {scope : AuthorityScope} {id : String} :
    Touches P (requireTask scope id) := by
  unfold requireTask
  refine .bind touches_query fun row => ?_
  split
  · exact .pure
  · exact .throw

omit [Footprint P] in
theorem touches_scopeOf {row : TaskRow} : Touches P (scopeOf row) := .ofExcept

variable {H : Hashing} {scope : AuthorityScope} {id actor reason : String} {actorRole : ActorRole}
variable {expire : AuthorityScope → TaskRow → Svc (Option TaskRow)}

omit [Footprint P] in
theorem touches_refresh (hx : ∀ scope row, Touches P (expire scope row)) {row : TaskRow} :
    Touches P (refresh expire scope row) :=
  .bind (hx scope row) fun _ => .pure

/-- A lifecycle change, however expiry is handled. -/
theorem touches_lifecycleVia (hx : ∀ scope row, Touches P (expire scope row))
    {target : TaskLifecycle} {expiryRule : Option String} :
    Touches P (lifecycleVia expire H scope id target actor actorRole reason expiryRule) := by
  unfold lifecycleVia
  refine .bind touches_require fun _ => .bind touches_requireTask fun found => ?_
  refine .bind ?_ fun row => ?_
  · split
    · exact touches_refresh hx
    · exact .pure
  · split
    · exact .throw
    · split
      · exact touches_view
      · refine .bind touches_now fun _ => .bind touches_view fun _ => .bind .ofExcept fun _ => ?_
        refine .bind (touches_transaction touches_lifecycleTx) fun _ => ?_
        exact .bind touches_requireTask fun _ => touches_view

theorem touches_expireIfDue (scope : AuthorityScope) (row : TaskRow) :
    Touches P (expireIfDue H scope row) := by
  unfold expireIfDue expiryStatus
  refine .bind (.bind touches_now fun _ => .pure) fun status => ?_
  split
  · exact .pure
  · refine .bind (.tryCatch (.bind (touches_lifecycleVia fun _ _ => .pure) fun _ => .pure)
      fun e => ?_) fun _ => touches_query
    split
    · exact .pure
    · exact .throw

theorem touches_lifecycle {target : TaskLifecycle} {expiryRule : Option String} :
    Touches P (lifecycle H scope id target actor actorRole reason expiryRule) :=
  touches_lifecycleVia touches_expireIfDue

theorem touches_complete : Touches P (complete H scope id actor actorRole reason) := by
  unfold complete
  refine .bind touches_requireTask fun _ => .bind touches_view fun _ => .bind .ofExcept fun v => ?_
  split
  · exact touches_lifecycle
  · exact .throw
  · exact .throw

theorem touches_cancel : Touches P (cancel H scope id actor actorRole reason) := by
  unfold cancel
  split
  · exact .throw
  · exact touches_lifecycle

theorem touches_start {request : TaskStartRequest} {items : List TaskItem} :
    Touches P (start H request items) := by
  unfold start
  refine .bind touches_require fun _ => .bind touches_query fun existing => ?_
  split
  · exact touches_view
  · refine .bind touches_profileOf fun profile => ?_
    split
    · exact .throw
    · refine .bind touches_now fun _ => .bind .ofExcept fun _ => .bind .ofExcept fun _ => ?_
      refine .bind (.action fun w => Footprint.refl w.store) fun _ => ?_
      exact .bind (touches_transaction (touches_startTx rfl)) fun _ => touches_view

variable {proposal : TaskStateProposal}

omit [Footprint P] in
theorem touches_replay {replayed : ProposalRow} : Touches P (replay H proposal replayed) := by
  unfold replay
  split
  · exact .throw
  · exact .ofExcept

theorem touches_commit {view : TaskView} {decision : PolicyDecision} {stepKind : String}
    {started : Instant} : Touches P (commit H proposal view decision stepKind started) :=
  .bind touches_now fun _ => touches_transaction touches_commitTx

theorem touches_submit {allowPrivileged : Bool} {stepKind : String} :
    Touches P (submit H proposal allowPrivileged stepKind) := by
  unfold submit
  refine .bind touches_now fun _ => .bind touches_query fun found => ?_
  split
  · exact .throw
  · refine .bind touches_query fun replayed => ?_
    split
    · exact touches_replay
    · refine .bind ?_ fun _ => .bind touches_view fun _ => .bind touches_now fun _ => ?_
      · split
        · exact .pure
        · exact touches_refresh touches_expireIfDue
      · exact .bind .ofExcept fun _ => touches_commit

theorem touches_correct : Touches P (correct H proposal reason) := by
  unfold correct
  refine .bind touches_require fun _ => ?_
  split
  · exact .throw
  · exact .bind .ofExcept fun _ => touches_submit

theorem touches_get {expiring : Bool} :
    Touches P (TaskStateService.get H scope id expiring) := by
  unfold TaskStateService.get
  refine .bind touches_requireTask fun found => .bind ?_ fun _ => touches_view
  split
  · exact touches_refresh touches_expireIfDue
  · exact .pure

theorem touches_refreshAll {rows : List TaskRow} : Touches P (refreshAll H rows) := by
  induction rows with
  | nil => exact .pure
  | cons found rows ih =>
    unfold refreshAll
    refine .bind ?_ fun _ => .bind ih fun _ => .pure
    split
    · exact .pure
    · exact .bind touches_scopeOf fun _ => touches_refresh touches_expireIfDue

omit [Footprint P] in
theorem touches_nextCursor {rows : List TaskRow} {limit : Int} :
    Touches P (nextCursor rows limit) := by
  unfold nextCursor
  split
  · split
    · exact .pure
    · exact .throw
  · exact .pure

theorem touches_list {scope : Option AuthorityScope} {lifecycles : Option (List String)}
    {cursor : Option String} {limit : Int} {expiring : Bool} :
    Touches P (TaskStateService.list H scope lifecycles cursor limit expiring) := by
  unfold TaskStateService.list
  refine .bind touches_query fun found => .bind ?_ fun rows => .bind touches_nextCursor fun _ => .pure
  split
  · exact touches_refreshAll
  · exact .pure

theorem touches_evaluateExpiry : Touches P (evaluateExpiry H scope id) := by
  unfold evaluateExpiry
  refine .bind touches_query fun row => ?_
  split
  · exact .pure
  · exact touches_expireIfDue _ _

theorem touches_expireAll {rows : List TaskRow} : Touches P (expireAll H rows) := by
  induction rows with
  | nil => exact .pure
  | cons row rows ih =>
    unfold expireAll
    refine .bind touches_scopeOf fun _ => .bind (touches_expireIfDue _ _) fun _ => ?_
    exact .bind ih fun _ => .pure

theorem touches_scanForExpiry {limit : Int} : Touches P (scanForExpiry H limit) := by
  unfold scanForExpiry
  exact .bind touches_query fun _ => .bind touches_expireAll fun _ => .bind touches_now fun _ => .pure

/-! ## Runs, deletions included -/

/-- Forgetting, if deletion is within the footprint. -/
theorem touches_forget {actor : String} {actorRole : ActorRole}
    (hdelete : ∀ id, TouchesTx P (deleteTask id)) :
    Touches P (forget H scope id actor actorRole) := by
  unfold forget
  refine .bind touches_require fun _ => .bind touches_requireTask fun row => ?_
  refine .bind touches_query fun revisions => .bind touches_query fun found => ?_
  refine .bind ?_ fun _ => .bind touches_now fun _ => .pure
  split
  · exact touches_transaction (hdelete id)
  · exact .pure

omit [Footprint P] in
theorem touches_answer {f : α → Answer} {x : Svc α} (hx : Touches P x) :
    Touches P (answer f x) :=
  .bind hx fun _ => .pure

/-- **Every call keeps to a relation** that a deletion keeps to as well. -/
theorem touches_body (hdelete : ∀ id, TouchesTx P (deleteTask id)) (k : Call) :
    Touches P (k.body H) := by
  cases k with
  | start request items => exact touches_answer touches_start
  | submit proposal allowPrivileged stepKind => exact touches_answer touches_submit
  | correct proposal reason => exact touches_answer touches_correct
  | pause | resume => exact touches_answer touches_lifecycle
  | complete => exact touches_answer touches_complete
  | cancel => exact touches_answer touches_cancel
  | get => exact touches_answer touches_get
  | list => exact touches_answer touches_list
  | evaluateExpiry => exact touches_answer touches_evaluateExpiry
  | scanForExpiry => exact touches_answer touches_scanForExpiry
  | forget => exact touches_answer (touches_forget hdelete)

/-- **And so does every run of any calls.** -/
theorem touches_of_visits (hdelete : ∀ id, TouchesTx P (deleteTask id)) {allowed : Call → Prop}
    {w : World} {c : System} (hv : Visits H allowed w c) : P w.store c.time.now.store := by
  refine reaches_within (P := fun w w' => P w.store w'.store) (fun _ => Footprint.refl _)
    (fun _ _ _ => Footprint.trans _ _ _) (fun k _ => ?_) hv.2
  exact touches_body hdelete k

end Atmem
