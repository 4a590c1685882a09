import Atmem.Store.Bindings
import Atmem.TaskState.Model.HostBoundary
/-!
# Session-to-task bindings

Registration, revocation and resolution against one store. A binding is
looked up, never chosen: resolving answers one task or one refusal. The
identifier a registration draws is an argument of the call, and what
`uuid4` draws twice the primary key refuses.
-/

namespace Atmem.Bindings

open Interleaving Checked

/-- What a method raises: a refusal with its reason code, a date past the
last there is, or anything else. -/
inductive BindingRaised
  | bindingError (reasonCode : ReasonCode) (message : String)
  | overflowError
  | raised (e : Raised)
deriving DecidableEq

/-- A method of the boundary: statements and readings, one at a time. -/
abbrev Method (α : Type) : Type 1 := Eff BindingRaised Label World α

/-- What the service raises passes through. -/
def raising {α : Type} (x : Svc α) : Method α :=
  Prog.bind x fun a => .ret (a.mapError .raised)

/-! ## The record -/

/-- The fields of a binding of a session to a task. -/
structure SessionBindingFields where
  bindingId : String
  scope : AuthorityScope
  identity : HostSessionIdentity
  taskId : String
  actor : String
  reason : String
  registeredAtUtc : Instant
  source : String := ""
  evidence : List EvidenceRef := []
deriving DecidableEq

/-- `SessionBinding.__post_init__`. -/
def SessionBindingFields.postInit (f : SessionBindingFields) : Except String Unit := do
  identifier "binding_id" f.bindingId
  identifier "task_id" f.taskId
  text "actor" f.actor maxTextChars
  text "reason" f.reason maxTextChars
  text "registered_at_utc" (toIso f.registeredAtUtc) maxTextChars

/-- An operator-registered mapping from one conversation to one task. -/
abbrev SessionBinding := {f : SessionBindingFields // f.postInit = .ok ()}

/-- The exact uniqueness key. The task is not part of it. -/
def bindingKey (scope : AuthorityScope) (identity : HostSessionIdentity) : List String :=
  [scope.val.subjectId, scope.val.agentId, scope.val.workspaceId, identity.val.hostType,
    identity.val.sessionKey, identity.val.sessionEpoch]

/-! ## Statements -/

/-- `insert_session_binding`: the partial unique index does the enforcing. -/
def insertSessionBinding (row : SessionBindingRow) : Tx Unit := do
  if (← get).sessionBindings.any (·.clash row) then throw .integrityError
  else modify fun s => { s with sessionBindings := s.sessionBindings ++ [row] }

/-- The rows the `UPDATE` of `revoke_session_binding` selects. -/
def selectedBy (scope : AuthorityScope) (bindingId : String) (row : SessionBindingRow) : Bool :=
  decide (row.bindingId = bindingId) && decide (row.subjectId = scope.val.subjectId) &&
    decide (row.agentId = scope.val.agentId) && decide (row.workspaceId = scope.val.workspaceId) &&
    row.revokedAtUtc.isNone

/-- A row after that `UPDATE`. -/
def revokedRow (scope : AuthorityScope) (bindingId : String) (revokedAtUtc : Instant)
    (revokedBy revokedReason : String) (row : SessionBindingRow) : SessionBindingRow :=
  if selectedBy scope bindingId row then row.revoke revokedAtUtc revokedBy revokedReason else row

/-- `revoke_session_binding`: the row is retained. -/
def revokeSessionBinding (scope : AuthorityScope) (bindingId : String) (revokedAtUtc : Instant)
    (revokedBy revokedReason : String) : Tx Bool := do
  let rows := (← get).sessionBindings
  let revoked := rows.map (revokedRow scope bindingId revokedAtUtc revokedBy revokedReason)
  modify fun s => { s with sessionBindings := revoked }
  pure (rows.any (selectedBy scope bindingId))

/-! ## Registration -/

/-- What the operator registers, with what the call draws. -/
structure Registration where
  scope : AuthorityScope
  identity : HostSessionIdentity
  taskId : String
  actor : String
  reason : String
  source : String := ""
  profile : Option TaskProfile := none
  evidence : List EvidenceRef := []
  drawn : String

/-- `datetime.max`. -/
def latest : Instant := 315537897599999999

/-- The supplemental lifetime the profile declares, from a reading on. -/
def expiresAt (profile : Option TaskProfile) (now : Instant) :
    Except BindingRaised (Option Instant) :=
  match profile.bind (·.val.bindingLifetimeMs) with
  | none | some 0 => .ok none
  | some lifetime =>
    if now + lifetime * 1000 ≤ latest then .ok (some (now + lifetime * 1000))
    else .error .overflowError

/-- The binding that a registration makes. -/
def Registration.fields (r : Registration) (now : Instant) : SessionBindingFields where
  bindingId := "binding-" ++ r.drawn
  scope := r.scope
  identity := r.identity
  taskId := r.taskId
  actor := r.actor
  reason := r.reason
  registeredAtUtc := now
  source := r.source
  evidence := r.evidence

/-- The row of a binding. -/
def rowOf (binding : SessionBindingFields) (expiresAtUtc : Option Instant) :
    SessionBindingRow where
  bindingId := binding.bindingId
  subjectId := binding.scope.val.subjectId
  agentId := binding.scope.val.agentId
  workspaceId := binding.scope.val.workspaceId
  hostType := binding.identity.val.hostType
  sessionKey := binding.identity.val.sessionKey
  sessionEpoch := binding.identity.val.sessionEpoch
  taskId := binding.taskId
  actor := binding.actor
  reason := binding.reason
  source := binding.source
  evidence := binding.evidence.map EvidenceRef.toDict
  registeredAtUtc := binding.registeredAtUtc
  expiresAtUtc

/-- The refusal of a conversation that is bound already: retargeting is a
revoke and a register. -/
def alreadyActive : BindingRaised :=
  .bindingError .bindingAlreadyActive ("this conversation already has an active binding; revoke it " ++
    "before binding it to a different task")

/-- `register`: bind one conversation to one task. -/
def register (r : Registration) : Method SessionBinding := do
  let now ← raising now
  let expiresAtUtc ← Eff.ofExcept id (expiresAt r.profile now)
  let binding ← raising (lift (Checked.make SessionBindingFields.postInit (r.fields now)))
  tryCatch (raising (transaction (insertSessionBinding (rowOf binding.val expiresAtUtc))))
    fun e => if e = .raised .integrityError then throw alreadyActive else throw e
  pure binding

/-- `revoke`: a binding of another scope and one that never existed are
answered alike. -/
def revoke (scope : AuthorityScope) (bindingId actor reason : String) : Method Unit := do
  let now ← raising now
  let revoked ← raising (transaction (revokeSessionBinding scope bindingId now actor reason))
  if revoked then pure ()
  else throw (.bindingError .bindingNotFound "no active binding matches that identifier")

/-! ## Resolution -/

/-- `(explicit_task_id or "").strip() or None`. -/
def given (explicitTaskId : Option String) : Option String :=
  orNone (String.ofList (strip (explicitTaskId.getD "")))

/-- `_active_binding(scope, identity) if identity else None`. -/
def boundTo (scope : AuthorityScope) : Option HostSessionIdentity → Svc (Option SessionBindingRow)
  | none => pure none
  | some identity => activeBinding scope identity

/-- `identity and _stale_generation(scope, identity)`. -/
def staleGeneration (scope : AuthorityScope) : Option HostSessionIdentity → Svc Bool
  | none => pure false
  | some identity => do
    let rows ← query .findActiveBindingsForSessionKey
      (·.findActiveBindingsForSessionKey scope identity)
    anyStale identity rows

/-- What the explicit id and the binding decide between them. -/
def decided : Option String → Option SessionBindingRow → Option ResolvedTaskFields
  | some explicit, some bound =>
    some (if bound.taskId ≠ explicit then
        { resolution := .conflict, reasonCode := some .taskBindingConflict }
      else
        { resolution := .explicit, taskId := some explicit, bindingId := some bound.bindingId })
  | some explicit, none => some { resolution := .explicit, taskId := some explicit }
  | none, some bound =>
    some { resolution := .bound, taskId := some bound.taskId, bindingId := some bound.bindingId }
  | none, none => none

/-- The refusal where neither does. -/
def withheld (stale : Bool) : ResolvedTaskFields :=
  if stale then { resolution := .staleSession, reasonCode := some .taskBindingStaleSession }
  else { resolution := .none, reasonCode := some .taskContextSelectionRequired }

/-- `resolve`: which task this call is for, in one fixed total order. -/
def resolve (scope : AuthorityScope) (identity : Option HostSessionIdentity)
    (explicitTaskId : Option String) : Svc ResolvedTask := do
  let bound ← boundTo scope identity
  match decided (given explicitTaskId) bound with
  | some answer => lift (Checked.make ResolvedTaskFields.postInit answer)
  | none =>
    let stale ← staleGeneration scope identity
    lift (Checked.make ResolvedTaskFields.postInit (withheld stale))

/-! ## The calls of any number of connections -/

/-- The calls on the bindings. -/
inductive BindingCall
  | register (r : Registration)
  | revoke (scope : AuthorityScope) (bindingId actor reason : String)
  | resolve (scope : AuthorityScope) (identity : Option HostSessionIdentity)
      (explicitTaskId : Option String)

/-- What a method returns or raises. -/
inductive BindingAnswer
  | registered (answer : Except BindingRaised SessionBinding)
  | revoked (answer : Except BindingRaised Unit)
  | resolved (answer : Except Raised ResolvedTask)

/-- The program of a call. -/
def BindingCall.body : BindingCall → Prog Label World BindingAnswer
  | .register r => Prog.bind (Bindings.register r) fun a => .ret (.registered a)
  | .revoke scope bindingId actor reason =>
    Prog.bind (Bindings.revoke scope bindingId actor reason) fun a => .ret (.revoked a)
  | .resolve scope identity explicitTaskId =>
    Prog.bind (Bindings.resolve scope identity explicitTaskId) fun a => .ret (.resolved a)

end Atmem.Bindings
