import Atmem.Common.Interleaving
import Atmem.Store.Schema
import Atmem.TaskState.Model.Policy
import Atmem.TaskState.Model.Service
/-!
# The calls of any number of connections

One constructor per method of the service, with the arguments it takes,
and the program it runs. A run of the system is a run of these programs
against one store, interleaved at every action. The guard against no
progress reads what such a run has recorded, and blocks nothing.
-/

namespace Atmem

open Interleaving

/-- What a method returns. -/
inductive Answer
  | view (view : TaskView)
  | decision (decision : TransitionDecision)
  | listing (listing : TaskListing)
  | row (row : Option TaskRow)
  | scan (expired : List String) (scannedAt : Instant)
  | receipt (receipt : DeletionReceipt)

/-- A method of the service and its arguments. -/
inductive Call
  | start (request : TaskStartRequest) (items : List TaskItem)
  | submit (proposal : TaskStateProposal) (allowPrivileged : Bool) (stepKind : String)
  | correct (proposal : TaskStateProposal) (reason : String)
  | pause (scope : AuthorityScope) (taskId actor : String) (actorRole : ActorRole)
      (reason : String)
  | resume (scope : AuthorityScope) (taskId actor : String) (actorRole : ActorRole)
      (reason : String)
  | complete (scope : AuthorityScope) (taskId actor : String) (actorRole : ActorRole)
      (reason : String)
  | cancel (scope : AuthorityScope) (taskId actor : String) (actorRole : ActorRole)
      (reason : String)
  | get (scope : AuthorityScope) (taskId : String) (expiring : Bool)
  | list (scope : Option AuthorityScope) (lifecycles : Option (List String))
      (cursor : Option String) (limit : Int) (expiring : Bool)
  | evaluateExpiry (scope : AuthorityScope) (taskId : String)
  | scanForExpiry (limit : Int)
  | forget (scope : AuthorityScope) (taskId actor : String) (actorRole : ActorRole)

/-- Mark what a method returns. -/
def answer {α : Type} (f : α → Answer) (x : Svc α) : Svc Answer := do
  let a ← x
  pure (f a)

/-- The program of a call. -/
def Call.body (H : Hashing) : Call → Svc Answer
  | .start request items => answer .view (Atmem.start H request items)
  | .submit proposal allowPrivileged stepKind =>
    answer .decision (Atmem.submit H proposal allowPrivileged stepKind)
  | .correct proposal reason => answer .decision (Atmem.correct H proposal reason)
  | .pause scope taskId actor actorRole reason =>
    answer .view (Atmem.pause H scope taskId actor actorRole reason)
  | .resume scope taskId actor actorRole reason =>
    answer .view (Atmem.resume H scope taskId actor actorRole reason)
  | .complete scope taskId actor actorRole reason =>
    answer .view (Atmem.complete H scope taskId actor actorRole reason)
  | .cancel scope taskId actor actorRole reason =>
    answer .view (Atmem.cancel H scope taskId actor actorRole reason)
  | .get scope taskId expiring => answer .view (TaskStateService.get H scope taskId expiring)
  | .list scope lifecycles cursor limit expiring =>
    answer .listing (TaskStateService.list H scope lifecycles cursor limit expiring)
  | .evaluateExpiry scope taskId => answer .row (Atmem.evaluateExpiry H scope taskId)
  | .scanForExpiry limit => answer (fun r => .scan r.1 r.2) (Atmem.scanForExpiry H limit)
  | .forget scope taskId actor actorRole =>
    answer .receipt (Atmem.forget H scope taskId actor actorRole)

/-- Every call but the deletion of a task. -/
def Call.keepsTasks : Call → Prop
  | .forget .. => False
  | _ => True

instance : DecidablePred Call.keepsTasks := fun call => by
  cases call <;> first | exact instDecidableTrue | exact instDecidableFalse

/-- A configuration of the system: the store as it stands and as it was,
and every call begun so far. -/
abbrev System := Config Call Label World (Except Raised Answer)

/-- The store before anything was started: no task, and the profiles,
bindings and audit events the operator put there. -/
structure Fresh (w : World) : Prop where
  tasks : w.store.tasks.rows = []
  revisions : w.store.revisions.rows = []
  provenance : w.store.provenance = []
  proposals : w.store.proposals.rows = []
  steps : w.store.steps = []

/-- The configurations a run of calls from a fresh store visits. -/
def Visits (H : Hashing) (allowed : Call → Prop) (w : World) (c : System) : Prop :=
  Fresh w ∧ Reaches (Call.body H) allowed (Config.initial w) c

/-! ## The guard against no progress -/

/-- `count_recent_equivalent_actions`: the stamps are compared as the text
they are stored as. -/
def Store.countRecentEquivalentActions (s : Store)
    (taskId actionFingerprint sinceUtc : String) : ℕ :=
  s.steps.countP fun r => r.taskId = taskId ∧ r.actionFingerprint = some actionFingerprint ∧
    sinceUtc ≤ toIso r.recordedAtUtc

/-- `evaluate_no_progress`: `since_utc` is the last accepted progress. -/
def evaluateNoProgress (s : Store) (state : TaskState) (profile : TaskProfile)
    (fingerprint sinceUtc : String) : Except String (Option GuardSignal) := do
  let threshold := profile.val.noProgressActionThreshold
  let repeats := s.countRecentEquivalentActions state.val.taskId fingerprint sinceUtc
  if repeats < threshold then .ok none
  else
    let signal ← GuardSignal.make
      { guardType := .noProgress
        taskId := state.val.taskId
        revision := state.val.revision
        message := "The same action has run " ++ toString repeats ++
          " times since the last accepted progress at " ++ sinceUtc ++
          ". Nothing has advanced."
        repeatedActionCount := repeats
        enforced := false }
    .ok (some signal)

end Atmem
