import Atmem.Common.Interleaving
import Atmem.TaskState.Helpers.Runs
/-!
# The rules for a method among other calls

`Secure E R x log h Q`: the method `x`, begun at `h` where the invariant
holds, keeps to what an action may do whatever the others do within `R`,
and returns at a moment the store has evolved to, where `Q` holds. One
rule for each way a method is put together.
-/

namespace Atmem

open Relation Interleaving Transactional

/-- The rely of a call: the others keep the invariant, and the store
evolves. -/
def Relies (E : Setting) (R : List Label → Timeline World → Timeline World → Prop) : Prop :=
  ∀ log h h', R log h h' → Kept E h' ∧ Evolves E h h'

/-- What a method is proved to do among other calls. -/
def Secure (E : Setting) (R : List Label → Timeline World → Timeline World → Prop) {α : Type}
    (x : Svc α) (log : List Label) (h : Timeline World)
    (Q : List Label → Except Raised α → Timeline World → Prop) : Prop :=
  Kept E h → Safe R (Acts E) (fun log' r h' => Kept E h' ∧ Evolves E h h' ∧ Q log' r h') x log h

variable {E : Setting} {R : List Label → Timeline World → Timeline World → Prop} {α β : Type}
variable {log : List Label} {h : Timeline World}

namespace Secure

variable {Q Q' : List Label → Except Raised α → Timeline World → Prop}
variable {P : List Label → Except Raised β → Timeline World → Prop}

theorem pure {a : α} (hq : Q log (.ok a) h) : Secure E R (Pure.pure a) log h Q :=
  fun hk => ⟨hk, .refl E h, hq⟩

theorem throw {e : Raised} (hq : Q log (.error e) h) :
    Secure E R (MonadExcept.throw e : Svc α) log h Q :=
  fun hk => ⟨hk, .refl E h, hq⟩

/-- A constructor of a contract. -/
theorem lift {r : Except String α} (hok : ∀ a, r = .ok a → Q log (.ok a) h)
    (herr : ∀ m, r = .error m → Q log (.error (.valueError m)) h) :
    Secure E R (Atmem.lift r) log h Q := by
  rcases r with m | a
  · exact .throw (herr m rfl)
  · exact .pure (hok a rfl)

/-- The conclusion may be weakened. -/
theorem mono {x : Svc α} (hx : Secure E R x log h Q)
    (hq : ∀ log' r h', Evolves E h h' → Q log' r h' → Q' log' r h') :
    Secure E R x log h Q' :=
  fun hk => (hx hk).mono fun _ _ _ ⟨hk', he, hp⟩ => ⟨hk', he, hq _ _ _ he hp⟩

/-- A sequence: what the first part established is what the second part
starts from. -/
theorem bind {x : Svc α} {f : α → Svc β} (hx : Secure E R x log h Q)
    (hok : ∀ log' a h', Kept E h' → Evolves E h h' → Q log' (.ok a) h' →
      Secure E R (f a) log' h' P)
    (herr : ∀ log' e h', Evolves E h h' → Q log' (.error e) h' → P log' (.error e) h') :
    Secure E R (x >>= f) log h P := by
  intro hk
  refine Safe.eff_bind ((hx hk).mono fun log' r h' ⟨hk', he, hq⟩ => ⟨?_, ?_⟩)
  · rintro a rfl
    exact (hok log' a h' hk' he hq hk').mono fun _ _ _ ⟨hk'', he', hp⟩ => ⟨hk'', he.trans he', hp⟩
  · rintro e rfl
    exact ⟨hk', he, herr log' e h' he hq⟩

/-- A handler starts from what the failure established. -/
theorem tryCatch {x : Svc α} {handle : Raised → Svc α} (hx : Secure E R x log h Q)
    (hok : ∀ log' a h', Evolves E h h' → Q log' (.ok a) h' → Q' log' (.ok a) h')
    (herr : ∀ log' e h', Kept E h' → Evolves E h h' → Q log' (.error e) h' →
      Secure E R (handle e) log' h' Q') :
    Secure E R (tryCatchThe Raised x handle) log h Q' := by
  intro hk
  refine Safe.eff_tryCatch ((hx hk).mono fun log' r h' ⟨hk', he, hq⟩ => ⟨?_, ?_⟩)
  · rintro a rfl
    exact ⟨hk', he, hok log' a h' he hq⟩
  · rintro e rfl
    exact (herr log' e h' hk' he hq hk').mono fun _ _ _ ⟨hk'', he', hp⟩ =>
      ⟨hk'', he.trans he', hp⟩

/-- One action, taken at a moment the store has evolved to. -/
theorem action (hR : Relies E R) {label : Label} {run : World → Except Raised α × World}
    (hx : ∀ h', R log h h' → Kept E h' → Evolves E h h' → Acts E h' (run h'.now).2 ∧
      Q (log ++ [label]) (run h'.now).1 (h'.push (run h'.now).2)) :
    Secure E R (Eff.action label run) log h Q := by
  intro _
  refine Safe.eff_action fun h' hr => ?_
  obtain ⟨hk, he⟩ := hR log h h' hr
  obtain ⟨hact, hq⟩ := hx h' hr hk he
  obtain ⟨hk', he'⟩ := hk.acts hact
  exact ⟨hact, hk', he.trans he', hq⟩

/-- One query. -/
theorem query (hR : Relies E R) {label : Label} {f : Store → α}
    (hx : ∀ h', R log h h' → Kept E h' → Evolves E h h' →
      Q (log ++ [label]) (.ok (f h'.now.store)) (h'.push h'.now)) :
    Secure E R (Atmem.query label f) log h Q :=
  .action hR fun h' hr hk he => ⟨.idle E h', hx h' hr hk he⟩

/-- One reading of the clock, which no earlier reading is after. -/
theorem now {Q : List Label → Except Raised Instant → Timeline World → Prop} (hR : Relies E R)
    (hx : ∀ log' t h', Evolves E h h' → Reading h' t →
      (∀ t₀, Reading h t₀ → Monotone E.clock → t₀ ≤ t) → Q log' (.ok t) h') :
    Secure E R Atmem.now log h Q := by
  refine .action hR fun h' _ hk he => ?_
  have hact : Acts E h' { h'.now with ticks := h'.now.ticks + 1 } :=
    ⟨.refl E h' _, rfl, Nat.le_succ _⟩
  refine ⟨hact, hx _ _ _ (he.trans (hk.acts hact).2) ⟨h'.now.ticks, Nat.lt_succ_self _, rfl⟩ ?_⟩
  intro t₀ ht₀ hmono
  obtain ⟨n, hn, rfl⟩ := ht₀.later he.later
  rw [hk.clock]
  exact hmono (Nat.le_of_lt hn)

/-- One transaction: what it commits is a step of the store, and where it
raises the store is as it was. -/
theorem transaction (hR : Relies E R) {body : Tx α}
    (hok : ∀ h' a s', R log h h' → Kept E h' → Evolves E h h' →
      exec body h'.now.store = (.ok a, s') → StoreStep E h' h'.now.store s' ∧
        Q (log ++ [.transaction]) (.ok a) (h'.push { h'.now with store := s' }))
    (herr : ∀ h' e s', R log h h' → Kept E h' → Evolves E h h' →
      exec body h'.now.store = (.error e, s') →
        Q (log ++ [.transaction]) (.error e) (h'.push h'.now)) :
    Secure E R (Atmem.transaction body) log h Q := by
  refine .action hR fun h' hr hk he => ?_
  show Acts E h' (match exec body h'.now.store with
      | (.ok a, store) => ((.ok a, { h'.now with store }) : Except Raised α × World)
      | (.error e, _) => (.error e, h'.now)).2 ∧ _
  rcases hb : exec body h'.now.store with ⟨e | a, s'⟩
  · have hrun : body.run.run h'.now.store = (.error e, s') := hb
    rw [hrun]
    exact ⟨.idle E h', herr h' e s' hr hk he hb⟩
  · have hrun : body.run.run h'.now.store = (.ok a, s') := hb
    rw [hrun]
    obtain ⟨hstep, hq⟩ := hok h' a s' hr hk he hb
    exact ⟨⟨hstep, rfl, Nat.le_refl _⟩, hq⟩

end Secure

end Atmem
