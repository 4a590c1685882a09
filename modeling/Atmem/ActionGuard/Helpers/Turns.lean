import Atmem.ActionGuard.Model.Guard
/-!
# What the state of a turn says

The state of a turn, read off the events of the turn so far: the request it
was begun with, the calls that were blocked and those whose writes were
attempted, and what the results reported of each write.
-/

namespace Atmem.ActionGuard

variable {E : Engine} {g : Guard} {t : TurnState} {session name : String} {arguments : Json}

/-- The events of a turn, with their answers. -/
abbrev TurnLog := List (Event × Except Raised Answer)

/-- The event starts a turn. -/
def Event.begins : Event → Bool
  | .beginTurn .. => true
  | _ => false

/-- The request a turn was begun with; a turn that was not begun has none. -/
def requestOf (log : TurnLog) : String :=
  match log.head? with
  | some (.beginTurn _ request _, _) => request
  | _ => ""

/-- The answer blocks a call. -/
def isBlocked : Except Raised Answer → Bool
  | .ok (.decision d) => d.blocks
  | _ => false

/-- How many calls were blocked. -/
def blockedIn (log : TurnLog) : ℕ := log.countP fun x => isBlocked x.2

/-- The calls of a result, up to a name that is no text. -/
def named : List ((Json × Json) × Status) → List (String × Json × Status)
  | ((.str name, arguments), status) :: calls => (name, arguments, status) :: named calls
  | _ => []

variable (E) in

/-- What an event reports of each call. -/
def reportedBy (x : Event × Except Raised Answer) : List (String × Json × Status) :=
  match x.1 with
  | .afterCall _ name arguments result _ => named (statuses E name arguments result)
  | _ => []

variable (E) in

/-- What the results of a turn report, call by call. -/
def reportsIn (log : TurnLog) : List (String × Json × Status) := log.flatMap (reportedBy E)

/-- The writes among calls, each as often as it is called. -/
def writesOf (calls : List (Json × Json)) : List String :=
  calls.filterMap fun call => match call.1 with
    | .str name => if isMemoryTool name = false ∧ isWrite name = true then some name else none
    | _ => none

/-- The writes an event may count as attempted: those of a call that is not
blocked. -/
def attemptedBy (x : Event × Except Raised Answer) : List String :=
  match x.1 with
  | .beforeCall _ name arguments => if isBlocked x.2 then [] else writesOf (unwrap name arguments)
  | _ => []

/-- The writes of the calls of a turn that were not blocked, in their order. -/
def attemptedIn (log : TurnLog) : List String := log.flatMap attemptedBy

/-- No event of a turn raised. -/
def Unraised (log : TurnLog) : Prop := ∀ x ∈ log, ∀ raised, x.2 ≠ .error raised

/-- What a report of one call adds to the accepted writes. -/
def acceptedOf (r : String × Json × Status) : List String :=
  if isWrite r.1 ∧ r.2.2 = Status.accepted then [r.1] else []

variable (E) in

/-- The outcome of one write among the others: what was accepted stays so. -/
def noteOutcome (outcomes : List (String × String × Status)) (r : String × Json × Status) :
    List (String × String × Status) :=
  if ((outcomes.lookup (operationKey E r.1 r.2.1)).map (·.2)) = some .accepted then outcomes
  else assign outcomes (operationKey E r.1 r.2.1) (r.1, r.2.2)

variable (E) in

/-- What a report of one call makes of the outcomes. -/
def outcomesOf (outcomes : List (String × String × Status)) (r : String × Json × Status) :
    List (String × String × Status) :=
  if isWrite r.1 ∧ r.2.2 ≠ .undispatched then noteOutcome E outcomes r else outcomes

variable (E) in

/-- The state of a turn is what its events say. -/
structure Tracks (maxBlocks : ℕ) (log : TurnLog) (t : TurnState) : Prop where
  intent : t.intent = classify E (requestOf log)
  blocked : t.decisions.countP Decision.blocks = blockedIn log
  bounded : blockedIn log ≤ maxBlocks
  attempts : t.attempts.Sublist (attemptedIn log)
  attempted : Unraised log → t.attempts = attemptedIn log
  accepted : t.accepted = (reportsIn E log).flatMap acceptedOf
  outcomes : t.outcomes = (reportsIn E log).foldl (outcomesOf E) []

/-! ## One more event -/

/-- Only the start of a turn has a request. -/
theorem requestOf_concat {log : TurnLog} {e : Event} {a : Except Raised Answer}
    (he : e.begins = false) : requestOf (log ++ [(e, a)]) = requestOf log := by
  cases log with
  | nil =>
    cases e
    case beginTurn => cases he
    all_goals rfl
  | cons x log => rfl

/-- A call more is a block more, or none. -/
theorem blockedIn_concat {log : TurnLog} {e : Event} {a : Except Raised Answer} :
    blockedIn (log ++ [(e, a)]) = blockedIn log + if isBlocked a then 1 else 0 := by
  unfold blockedIn
  rw [List.countP_append]
  simp [List.countP_cons]

/-- A call more adds what it reported. -/
theorem reportsIn_concat {log : TurnLog} {e : Event} {a : Except Raised Answer} :
    reportsIn E (log ++ [(e, a)]) = reportsIn E log ++ reportedBy E (e, a) := by
  unfold reportsIn
  simp

/-- A call more adds what it attempted. -/
theorem attemptedIn_concat {log : TurnLog} {e : Event} {a : Except Raised Answer} :
    attemptedIn (log ++ [(e, a)]) = attemptedIn log ++ attemptedBy (e, a) := by
  unfold attemptedIn
  simp

theorem unraised_concat {log : TurnLog} {e : Event} {a : Except Raised Answer} :
    Unraised (log ++ [(e, a)]) ↔ Unraised log ∧ ∀ raised, a ≠ .error raised := by
  unfold Unraised
  rw [List.forall_mem_append]
  simp only [List.mem_singleton, forall_eq]

/-- Attempts that an event adds to those of the events before it. -/
theorem Tracks.attempts_concat {log : TurnLog} {e : Event} {a : Except Raised Answer} {n : ℕ}
    {attempts added : List String} (hk : Tracks E n log t) (ht : attempts = t.attempts ++ added)
    (hadded : added.Sublist (attemptedBy (e, a)))
    (hall : (∀ raised, a ≠ .error raised) → added = attemptedBy (e, a)) :
    attempts.Sublist (attemptedIn (log ++ [(e, a)])) ∧
      (Unraised (log ++ [(e, a)]) → attempts = attemptedIn (log ++ [(e, a)])) := by
  rw [attemptedIn_concat, unraised_concat, ht]
  refine ⟨hk.attempts.append hadded, fun ⟨hlog, ha⟩ => ?_⟩
  rw [hk.attempted hlog, hall ha]

/-- Attempts that are as they were, after an event that counts none. -/
theorem Tracks.attempts_quiet {log : TurnLog} {e : Event} {a : Except Raised Answer} {n : ℕ}
    {attempts : List String} (hk : Tracks E n log t) (ht : attempts = t.attempts)
    (he : attemptedBy (e, a) = []) :
    attempts.Sublist (attemptedIn (log ++ [(e, a)])) ∧
      (Unraised (log ++ [(e, a)]) → attempts = attemptedIn (log ++ [(e, a)])) :=
  hk.attempts_concat (ht.trans (List.append_nil _).symm) (List.nil_sublist _) fun _ => he.symm

/-! ## Before a call -/

/-- Two states of a turn that differ in what a decision may change only. -/
structure Spares (t t' : TurnState) : Prop where
  intent : t'.intent = t.intent
  accepted : t'.accepted = t.accepted
  outcomes : t'.outcomes = t.outcomes

/-- An event that says nothing of any call. -/
theorem Tracks.quiet {log : TurnLog} {maxBlocks : ℕ} {e : Event} {a : Except Raised Answer}
    {t' : TurnState} (hk : Tracks E maxBlocks log t) (he : e.begins = false)
    (hr : reportedBy E (e, a) = []) (hn : attemptedBy (e, a) = []) (ha : isBlocked a = false)
    (ht : t' = { t with visible := t'.visible }) : Tracks E maxBlocks (log ++ [(e, a)]) t' := by
  rw [ht]
  obtain ⟨hattempts, hattempted⟩ := hk.attempts_quiet rfl hn
  refine ⟨?_, ?_, ?_, hattempts, hattempted, ?_, ?_⟩
  · rw [requestOf_concat he]
    exact hk.intent
  · rw [blockedIn_concat, ha]
    exact hk.blocked
  · rw [blockedIn_concat, ha]
    exact hk.bounded
  · rw [reportsIn_concat, hr, List.append_nil]
    exact hk.accepted
  · rw [reportsIn_concat, hr, List.append_nil]
    exact hk.outcomes

end Atmem.ActionGuard
