import Mathlib.Data.List.Induction
import Atmem.ActionGuard.Helpers.Turns
/-!
# Verdicts of a run

Events of any sessions, in any order. What is said of a session's turn is
read off the events since the turn was begun: by `begin_turn`, or by the
first event of a session that had none or whose turn was evicted.
-/

namespace Atmem.ActionGuard

variable (E : Engine)

/-- The session has a turn. -/
def Guard.holds (g : Guard) (session : String) : Bool := (g.turns.lookup session).isSome

/-- The events of a session's turn, with one more event. -/
def follow (session : String) (g : Guard) (log : TurnLog) (e : Event) : TurnLog :=
  if e.session ≠ session then log
  else if e.begins || !g.holds session then [(e, (g.handle E e).1)]
  else log ++ [(e, (g.handle E e).1)]

/-- The guard after the events, and the events of a session's turn. -/
def played (session : String) (g : Guard) (events : List Event) : Guard × TurnLog :=
  events.foldl (fun s e => ((s.1.handle E e).2, follow E session s.1 s.2 e)) (g, [])

variable {E}

section Turns

variable {g g' : Guard} {t t' : TurnState} {session other : String} {e : Event}

end Turns

/-! ## Runs -/

section Runs

variable {g : Guard} {t : TurnState} {session : String} {e : Event} {log : TurnLog} {n : ℕ}

end Runs

/-! ## The verdict -/

section Outcomes

variable {r : String × Json × Status} {reports : List (String × Json × Status)} {key : String}

theorem lookup_replace {α : Type} {entries : List (String × α)} {key other : String} {value : α} :
    (entries.map fun kv => if kv.1 = key then (key, value) else kv).lookup other =
      if other = key then (entries.lookup key).map fun _ => value else entries.lookup other := by
  induction entries with
  | nil => simp
  | cons x entries ih =>
    obtain ⟨k, v⟩ := x
    rw [List.map_cons]
    by_cases hk : k = key
    · subst hk
      by_cases ho : other = k
      · subst ho
        simp
      · have hne : (other == k) = false := beq_eq_false_iff_ne.mpr ho
        simp only [if_true, List.lookup_cons, hne, if_neg ho] at ih ⊢
        exact ih
    · have hne : (key == k) = false := beq_eq_false_iff_ne.mpr (Ne.symm hk)
      simp only [if_neg hk, List.lookup_cons, hne]
      by_cases hok : other = k
      · subst hok
        simp [hk]
      · have hne' : (other == k) = false := beq_eq_false_iff_ne.mpr hok
        simp only [hne']
        exact ih

end Outcomes

variable (E) in

/-- A result of the turn reports a write of the operation, dispatched. -/
def DispatchedIn (log : TurnLog) (key : String) : Prop :=
  ∃ r ∈ reportsIn E log, isWrite r.1 = true ∧ operationKey E r.1 r.2.1 = key ∧
    r.2.2 ≠ .undispatched

variable (E) in

/-- A result of the turn reports a write of the operation, accepted. -/
def AcceptedIn (log : TurnLog) (key : String) : Prop :=
  ∃ r ∈ reportsIn E log, isWrite r.1 = true ∧ operationKey E r.1 r.2.1 = key ∧ r.2.2 = .accepted

variable (E) in

/-- What a completed verdict says of the events of the turn. -/
structure Honest (log : TurnLog) : Prop where
  action : (classify E (requestOf log)).action = true
  matched : ∃ r ∈ reportsIn E log, isWrite r.1 = true ∧ r.2.2 = .accepted ∧
    requested (classify E (requestOf log)) r.1 = true
  confirmed : ∀ key, DispatchedIn E log key → AcceptedIn E log key

/-- The arguments of the tool. -/
def titled (title : String) : Json := .obj [("title", .str title)]

/-- What the host says of a call it does not dispatch. -/
def rejection : Json :=
  .obj [("error", .str "tool_call takes exactly one entry for local tools; you sent 2.")]

end Atmem.ActionGuard
