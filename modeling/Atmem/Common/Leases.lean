import Mathlib.Data.List.Nodup
import Mathlib.Order.Defs.LinearOrder
import Mathlib.Order.Lattice
/-!
# Leases

A book of the leases on one thing, in the order they were granted. A lease is
granted until a time, may be renewed by its holder, and ends when it is given
up or when another is granted in its place. The book is well kept when nobody
was replaced before the lease had run out; then at any instant one lease at
most is held. Of the clock nothing is known: it reads a number, or one of the
values a floating-point number has besides, and a comparison with what is not
a number is false, so neither of `t < u` and `u ≤ t` need hold.
-/

/-- A number, an infinity, or no number at all. -/
inductive Reading (α : Type*)
  | finite (x : α)
  | posInf
  | negInf
  | nan
deriving DecidableEq

namespace Reading

variable {α : Type*} [LinearOrder α]

/-- The reading is a number. -/
def isFinite : Reading α → Bool
  | .finite _ => true
  | .posInf | .negInf | .nan => false

/-- `a < b`. -/
def Lt : Reading α → Reading α → Prop
  | .finite x, .finite y => x < y
  | .finite _, .posInf | .negInf, .finite _ | .negInf, .posInf => True
  | .finite _, .negInf | .finite _, .nan | .posInf, _ | .negInf, .negInf | .negInf, .nan
  | .nan, _ => False

instance decidableLt : ∀ a b : Reading α, Decidable (Lt a b)
  | .finite x, .finite y => inferInstanceAs (Decidable (x < y))
  | .finite _, .posInf | .negInf, .finite _ | .negInf, .posInf => .isTrue trivial
  | .finite _, .negInf | .finite _, .nan | .posInf, _ | .negInf, .negInf | .negInf, .nan
  | .nan, _ => .isFalse id

/-- `a <= b`. -/
def Le (a b : Reading α) : Prop := Lt a b ∨ a = b ∧ a ≠ .nan

instance decidableLe (a b : Reading α) : Decidable (Le a b) :=
  inferInstanceAs (Decidable (Lt a b ∨ a = b ∧ a ≠ .nan))

end Reading

namespace Leases

/-- How a lease ended. -/
inductive End (α : Type*)
  | givenUp
  /-- Another was granted, when the clock read this. -/
  | replaced (now : Reading α)

/-- A lease, its holder, and what the holder proves itself by. -/
structure Lease (κ β α : Type*) where
  holder : κ
  secret : β
  runsUntil : Reading α
  ended : Option (End α) := none

variable {κ β α : Type*}

/-- A lease that has not ended ends. -/
def Lease.close (e : End α) (l : Lease κ β α) : Lease κ β α :=
  match l.ended with
  | none => { l with ended := some e }
  | some _ => l

/-- A lease that has not ended runs until another time. -/
def Lease.extend (runsUntil : Reading α) (l : Lease κ β α) : Lease κ β α :=
  match l.ended with
  | none => { l with runsUntil }
  | some _ => l

/-- Another lease, in the place of those that had not ended. -/
def grant (book : List (Lease κ β α)) (holder : κ) (secret : β) (now runsUntil : Reading α) :
    List (Lease κ β α) :=
  book.map (Lease.close (.replaced now)) ++ [⟨holder, secret, runsUntil, none⟩]

/-- The leases of a holder run until a later time. -/
def renew [DecidableEq κ] (book : List (Lease κ β α)) (holder : κ) (runsUntil : Reading α) :
    List (Lease κ β α) :=
  book.map fun l => if l.holder = holder then l.extend runsUntil else l

/-- The leases of some holders are given up. -/
def giveUp (book : List (Lease κ β α)) (who : κ → Bool) : List (Lease κ β α) :=
  book.map fun l => if who l.holder then l.close .givenUp else l

/-- The lease is held at an instant: it has not ended, and has not run out. -/
def HeldAt [LinearOrder α] (t : Reading α) (l : Lease κ β α) : Prop :=
  l.ended = none ∧ t.Lt l.runsUntil

/-- Nobody was replaced before the lease had run out, and only the last may
not have ended. -/
structure WellKept [LinearOrder α] (book : List (Lease κ β α)) : Prop where
  replaced : ∀ l ∈ book, ∀ now, l.ended = some (.replaced now) → ¬ now.Lt l.runsUntil
  onlyLast : book.Pairwise fun earlier _ => earlier.ended ≠ none

section Close

variable (e : End α) (l : Lease κ β α)

@[simp] theorem close_holder : (l.close e).holder = l.holder := by
  unfold Lease.close
  split <;> rfl

@[simp] theorem close_runsUntil : (l.close e).runsUntil = l.runsUntil := by
  unfold Lease.close
  split <;> rfl

/-- A lease that is closed has ended, once. -/
theorem close_ended : (l.close e).ended = some (l.ended.getD e) := by
  unfold Lease.close
  split
  · rename_i h
    rw [h]
    rfl
  · rename_i h
    rw [h]
    rfl

@[simp] theorem extend_holder (runsUntil : Reading α) :
    (l.extend runsUntil).holder = l.holder := by
  unfold Lease.extend
  split <;> rfl

@[simp] theorem extend_ended (runsUntil : Reading α) : (l.extend runsUntil).ended = l.ended := by
  unfold Lease.extend
  split <;> rfl

/-- A lease that has ended is not extended. -/
theorem extend_of_ended {runsUntil : Reading α} (h : l.ended ≠ none) : l.extend runsUntil = l := by
  unfold Lease.extend
  split
  · exact absurd ‹_› h
  · rfl

end Close

variable {book : List (Lease κ β α)} {holder : κ} {secret : β} {now runsUntil : Reading α}

/-- A grant adds its holder. -/
@[simp] theorem holders_grant : (grant book holder secret now runsUntil).map (·.holder) =
    book.map (·.holder) ++ [holder] := by
  simp [grant, Function.comp_def]

/-- A renewal changes no holder. -/
@[simp] theorem holders_renew [DecidableEq κ] : (renew book holder runsUntil).map (·.holder) =
    book.map (·.holder) := by
  unfold renew
  rw [List.map_map]
  refine List.map_congr_left fun l _ => ?_
  simp only [Function.comp_apply]
  split
  · exact extend_holder l runsUntil
  · rfl

/-- Nor does giving up. -/
@[simp] theorem holders_giveUp (who : κ → Bool) : (giveUp book who).map (·.holder) =
    book.map (·.holder) := by
  unfold giveUp
  rw [List.map_map]
  refine List.map_congr_left fun l _ => ?_
  simp only [Function.comp_apply]
  split
  · exact close_holder _ l
  · rfl

variable [LinearOrder α]

/-- The lease was given up, or had run out when another was granted. -/
def IsOver (l : Lease κ β α) : Prop :=
  l.ended = some .givenUp ∨ ∃ now, l.ended = some (.replaced now) ∧ ¬ now.Lt l.runsUntil

/-- **At any instant one lease at most is held**: those before it are over. -/
theorem WellKept.held_once (h : WellKept book) :
    book.Pairwise fun l l' => IsOver l ∧ ∀ t, ¬ (HeldAt t l ∧ HeldAt t l') := by
  refine h.onlyLast.imp_of_mem fun {l l'} hl _ hne => ⟨?_, fun t hheld => hne hheld.1.1⟩
  rcases he : l.ended with - | end'
  · exact absurd he hne
  · cases end' with
    | givenUp => exact .inl he
    | replaced now => exact .inr ⟨now, he, h.replaced l hl now he⟩

/-- A lease that has not ended is the last of the book. -/
theorem WellKept.eq_last (h : WellKept book) {l l' : Lease κ β α} (hl : l ∈ book)
    (hopen : l.ended = none) (hlast : book.getLast? = some l') : l = l' := by
  obtain ⟨before, rfl⟩ := List.getLast?_eq_some_iff.mp hlast
  rcases List.mem_append.mp hl with hl | hl
  · exact absurd hopen ((List.pairwise_append.mp h.onlyLast).2.2 l hl l' List.mem_cons_self)
  · exact List.mem_singleton.mp hl

/-- The empty book is well kept. -/
theorem wellKept_nil : WellKept ([] : List (Lease κ β α)) :=
  ⟨(fun _ h => nomatch h), .nil⟩

/-- A lease may be granted once those that have not ended have run out. -/
theorem WellKept.grant (h : WellKept book)
    (hout : ∀ l ∈ book, l.ended = none → ¬ now.Lt l.runsUntil) :
    WellKept (grant book holder secret now runsUntil) where
  replaced := by
    intro l hl n hn
    rcases List.mem_append.mp hl with hl | hl
    · obtain ⟨l₀, hl₀, rfl⟩ := List.mem_map.mp hl
      rw [close_ended] at hn
      rw [close_runsUntil]
      cases he : l₀.ended with
      | none =>
        rw [he] at hn
        cases hn
        exact hout l₀ hl₀ he
      | some e =>
        rw [he] at hn
        exact h.replaced l₀ hl₀ n (he.trans hn)
    · rw [List.mem_singleton.mp hl] at hn
      cases hn
  onlyLast := by
    refine List.pairwise_append.mpr ⟨?_, List.pairwise_singleton _ _, ?_⟩
    · refine List.pairwise_map.mpr (h.onlyLast.imp fun _ => ?_)
      rw [close_ended]
      exact Option.some_ne_none _
    · intro l hl _ _
      obtain ⟨l, -, rfl⟩ := List.mem_map.mp hl
      rw [close_ended]
      exact Option.some_ne_none _

/-- A renewal ends nothing and replaces nobody. -/
theorem WellKept.renew [DecidableEq κ] (h : WellKept book) :
    WellKept (renew book holder runsUntil) where
  replaced := by
    intro l hl n hn
    obtain ⟨l₀, hl₀, rfl⟩ := List.mem_map.mp hl
    split at hn
    · rename_i hhold
      rw [extend_ended] at hn
      rw [if_pos hhold, extend_of_ended l₀ (by rw [hn]; exact Option.some_ne_none _)]
      exact h.replaced l₀ hl₀ n hn
    · rename_i hhold
      rw [if_neg hhold]
      exact h.replaced l₀ hl₀ n hn
  onlyLast := by
    refine List.pairwise_map.mpr (h.onlyLast.imp fun hne => ?_)
    split
    · rw [extend_ended]
      exact hne
    · exact hne

/-- Giving up keeps the book well. -/
theorem WellKept.giveUp (h : WellKept book) (who : κ → Bool) : WellKept (giveUp book who) where
  replaced := by
    intro l hl n hn
    obtain ⟨l₀, hl₀, rfl⟩ := List.mem_map.mp hl
    split at hn
    · rename_i hwho
      rw [if_pos hwho, close_runsUntil]
      rw [close_ended] at hn
      cases he : l₀.ended with
      | none =>
        rw [he] at hn
        cases hn
      | some e =>
        rw [he] at hn
        exact h.replaced l₀ hl₀ n (he.trans hn)
    · rename_i hwho
      rw [if_neg hwho]
      exact h.replaced l₀ hl₀ n hn
  onlyLast := by
    refine List.pairwise_map.mpr (h.onlyLast.imp fun hne => ?_)
    split
    · rw [close_ended]
      exact Option.some_ne_none _
    · exact hne

end Leases
