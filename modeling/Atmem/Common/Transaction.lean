import Mathlib.Data.Nat.Notation
/-!
# Statements over a state that may raise

The run of a sequence of statements, each of which reads and writes the
state and may raise. What a handler catches has kept the state the
failing part left; only the transaction around the whole rolls back.
-/

namespace Transactional

variable {ε σ α β : Type} {s s' : σ}

/-- The outcome and the state of a run. -/
def exec (x : ExceptT ε (StateM σ) α) (s : σ) : Except ε α × σ := x.run.run s

@[simp] theorem exec_pure (a : α) : exec (pure a : ExceptT ε (StateM σ) α) s = (.ok a, s) := rfl

@[simp] theorem exec_throw (e : ε) :
    exec (throw e : ExceptT ε (StateM σ) α) s = (.error e, s) := rfl

@[simp] theorem exec_get : exec (get : ExceptT ε (StateM σ) σ) s = (.ok s, s) := rfl

@[simp] theorem exec_modify (f : σ → σ) :
    exec (modify f : ExceptT ε (StateM σ) PUnit) s = (.ok ⟨⟩, f s) := rfl

/-- A value of the state, which moves on as the value is read. -/
def readOff (value : σ → α) (next : σ → σ) : ExceptT ε (StateM σ) α := do
  let s ← get
  set (next s)
  pure (value s)

@[simp] theorem exec_readOff (value : σ → α) (next : σ → σ) :
    exec (readOff value next : ExceptT ε (StateM σ) α) s = (.ok (value s), next s) := rfl

/-- A sequence stops at the first error. -/
theorem exec_bind (x : ExceptT ε (StateM σ) α) (f : α → ExceptT ε (StateM σ) β) :
    exec (x >>= f) s = match exec x s with
      | (.ok a, s₁) => exec (f a) s₁
      | (.error e, s₁) => (.error e, s₁) := by
  have h : exec (x >>= f) s =
      (ExceptT.bindCont f (exec x s).1).run (exec x s).2 := rfl
  rw [h]
  rcases exec x s with ⟨e | a, s₁⟩ <;> rfl

/-- A handler starts from what was written before the error. -/
theorem exec_tryCatch (x : ExceptT ε (StateM σ) α) (handle : ε → ExceptT ε (StateM σ) α) :
    exec (tryCatch x handle) s = match exec x s with
      | (.ok a, s₁) => (.ok a, s₁)
      | (.error e, s₁) => exec (handle e) s₁ := by
  simp only [exec, tryCatch, tryCatchThe, MonadExceptOf.tryCatch, ExceptT.tryCatch, ExceptT.run_mk,
    StateT.run_bind]
  rcases h : StateT.run x.run s with ⟨e | a, s₁⟩
  · change StateT.run x s = (.error e, s₁) at h
    rw [h]
    rfl
  · change StateT.run x s = (.ok a, s₁) at h
    rw [h]
    rfl

/-- The sequence, where the first part succeeds. -/
theorem exec_bind_ok {x : ExceptT ε (StateM σ) α} {f : α → ExceptT ε (StateM σ) β} {a : α}
    (h : exec x s = (.ok a, s')) : exec (x >>= f) s = exec (f a) s' := by
  rw [exec_bind, h]

/-- The sequence, where the first part raises. -/
theorem exec_bind_error {x : ExceptT ε (StateM σ) α} {f : α → ExceptT ε (StateM σ) β} {e : ε}
    (h : exec x s = (.error e, s')) : exec (x >>= f) s = (.error e, s') := by
  rw [exec_bind, h]

/-- A sequence that succeeds, taken apart. -/
theorem exec_bind_eq_ok {x : ExceptT ε (StateM σ) α} {f : α → ExceptT ε (StateM σ) β} {b : β} :
    exec (x >>= f) s = (.ok b, s') ↔
      ∃ a s₁, exec x s = (.ok a, s₁) ∧ exec (f a) s₁ = (.ok b, s') := by
  rw [exec_bind]
  rcases exec x s with ⟨e | a, s₁⟩
  · constructor
    · intro h
      cases h
    · rintro ⟨a, s₂, h, -⟩
      cases h
  · constructor
    · exact fun h => ⟨a, s₁, rfl, h⟩
    · rintro ⟨a', s₂, h, hf⟩
      cases h
      exact hf

/-! ## What statements do to the state -/

/-- Whatever state it runs on, and whether or not it raises, the run
changes the state within `P`. -/
def Within (P : σ → σ → Prop) (x : ExceptT ε (StateM σ) α) : Prop := ∀ s, P s (exec x s).2

section Within

variable {P : σ → σ → Prop} (hrefl : ∀ s, P s s)
variable (htrans : ∀ s₁ s₂ s₃, P s₁ s₂ → P s₂ s₃ → P s₁ s₃)

include hrefl in
theorem Within.pure {a : α} : Within P (Pure.pure a : ExceptT ε (StateM σ) α) := hrefl

include hrefl in
theorem Within.throw {e : ε} : Within P (MonadExcept.throw e : ExceptT ε (StateM σ) α) := hrefl

include htrans in
/-- The rule of sequence. -/
theorem Within.bind {x : ExceptT ε (StateM σ) α} {f : α → ExceptT ε (StateM σ) β}
    (hx : Within P x) (hf : ∀ a, Within P (f a)) : Within P (x >>= f) := by
  intro s
  have hs := hx s
  rw [exec_bind]
  rcases hr : exec x s with ⟨e | a, s₁⟩ <;> rw [hr] at hs
  · exact hs
  · exact htrans _ _ _ hs (hf a s₁)

include htrans in
/-- The rule of handlers. -/
theorem Within.tryCatch {x : ExceptT ε (StateM σ) α} {handle : ε → ExceptT ε (StateM σ) α}
    (hx : Within P x) (hh : ∀ e, Within P (handle e)) : Within P (tryCatchThe ε x handle) := by
  intro s
  have hs := hx s
  have h := exec_tryCatch (s := s) x handle
  rcases hr : exec x s with ⟨e | a, s₁⟩ <;> rw [hr] at hs h
  · have hrun : exec (tryCatchThe ε x handle) s = exec (handle e) s₁ := h
    rw [hrun]
    exact htrans _ _ _ hs (hh e s₁)
  · have hrun : exec (tryCatchThe ε x handle) s = (.ok a, s₁) := h
    rw [hrun]
    exact hs

include hrefl htrans in
/-- The rule of loops. -/
theorem Within.forM {as : List α} {f : α → ExceptT ε (StateM σ) PUnit}
    (hf : ∀ a, Within P (f a)) : Within P (as.forM f) := by
  induction as with
  | nil => exact Within.pure hrefl
  | cons a as ih =>
    have hrest : Within P (as.forM f) := ih
    exact Within.bind htrans (hf a) fun _ => hrest

end Within

end Transactional
