import Atmem.Common.History
import Atmem.Common.Leases
import Atmem.Continuity.Model.Calls
/-!
# What callers are told

The calls on one operation that came to something, read off what was asked and
what was answered: an attempt was granted, a lease renewed, an outcome
accepted, the operation abandoned. Nothing here looks into the vault.
-/

namespace Atmem.Continuity

open Evidence Leases

variable {α : Type}

/-- What came of a call on an operation. -/
inductive Event (α : Type)
  | granted (g : Grant α) (now : Reading α)
  | renewed (attemptId leaseToken : String) (leaseUntil : Reading α)
  | recorded (attemptId leaseToken : String) (status : Status)
  | abandoned

/-- The attempt that was granted. -/
def Reply.grant? : Reply α → Option (Grant α)
  | .granted g => some g
  | .blocked _ | .completed _ => none

/-- What came of a call on an operation, by what was answered. -/
def eventOf (workflowId name : String) (c : Request α × Except Raised (Answer α)) :
    Option (Event α) :=
  match c.1.call, c.2 with
  | .begin _ w n _ _, .ok (.begun r) =>
    if w = workflowId ∧ n = name then r.reply.grant?.map fun g => .granted g c.1.around.now
    else none
  | .renew _ w n token _ attemptId, .ok (.renewed leaseUntil) =>
    if w = workflowId ∧ n = name then some (.renewed attemptId token leaseUntil) else none
  | .outcome _ w n token _ _ attemptId, .ok (.recorded true status) =>
    if w = workflowId ∧ n = name then some (.recorded attemptId token status) else none
  | .abandon _ w n _, .ok (.workflow _) =>
    if w = workflowId ∧ n = name then some .abandoned else none
  | _, _ => none

/-- What came of the calls of a run on an operation. -/
def events (workflowId name : String) (made : List (Request α × Except Raised (Answer α))) :
    List (Event α) :=
  made.filterMap (eventOf workflowId name)

/-- The attempts that were granted, and when. -/
def grants (evs : List (Event α)) : List (Grant α × Reading α) :=
  evs.filterMap fun e => match e with
    | .granted g now => some (g, now)
    | .renewed _ _ _ | .recorded _ _ _ | .abandoned => none

/-- Whether an event is the end of an operation. -/
def Event.finishes : Event α → Bool
  | .recorded _ _ status => decide (status = .completed)
  | .abandoned => true
  | .granted _ _ | .renewed _ _ _ => false

/-- The leases on an operation, after one more event. -/
def enter (book : List (Lease String String α)) : Event α → List (Lease String String α)
  | .granted g now => grant book g.attemptId g.leaseToken now g.leaseUntil
  | .renewed attemptId _ leaseUntil => Leases.renew book attemptId leaseUntil
  | .recorded attemptId _ _ => giveUp book fun holder => decide (holder = attemptId)
  | .abandoned => giveUp book fun _ => true

/-- The leases on an operation: of each attempt, until when its caller was
last told it runs. -/
def leases (evs : List (Event α)) : List (Lease String String α) := evs.foldl enter []

@[simp] theorem leases_concat (evs : List (Event α)) (e : Event α) :
    leases (evs ++ [e]) = enter (leases evs) e := by
  simp [leases]

@[simp] theorem grants_concat (evs : List (Event α)) (e : Event α) :
    grants (evs ++ [e]) = grants evs ++ grants [e] := by
  simp [grants]

end Atmem.Continuity
