import Mathlib.Data.Nat.Notation
import Mathlib.Logic.Relation
/-!
# Programs of atomic actions

A program is a tree of labelled atomic actions on a shared state: an
action reads the state, may replace it, and hands what it read to the
rest of the program. `Prog.exec` runs a program alone. Failing programs
are `ExceptT` over `Prog`, and the `exec` equations below are the ones a
caller computes with.
-/

namespace Interleaving

/-- A program over shared state `σ`, every action of which carries a
label of `ι`. -/
inductive Prog (ι σ : Type) (α : Type) : Type 1
  | ret (a : α)
  | act {β : Type} (label : ι) (run : σ → β × σ) (next : β → Prog ι σ α)

namespace Prog

variable {ι σ α β γ ε : Type}

/-- Sequencing: the second program is grafted onto every leaf. -/
def bind : Prog ι σ α → (α → Prog ι σ β) → Prog ι σ β
  | .ret a, f => f a
  | .act label run next, f => .act label run fun b => (next b).bind f

instance : Monad (Prog ι σ) where
  pure := .ret
  bind := bind

/-- The run of a program nobody interferes with. -/
def exec : Prog ι σ α → σ → α × σ
  | .ret a, s => (a, s)
  | .act _ run next, s => (next (run s).1).exec (run s).2

@[simp] theorem exec_ret (a : α) (s : σ) : (Prog.ret a : Prog ι σ α).exec s = (a, s) := rfl

@[simp] theorem exec_act (label : ι) (run : σ → β × σ) (next : β → Prog ι σ α) (s : σ) :
    (Prog.act label run next).exec s = (next (run s).1).exec (run s).2 := rfl

/-- A sequence is executed part by part. -/
theorem exec_bind (p : Prog ι σ α) (f : α → Prog ι σ β) (s : σ) :
    (p.bind f).exec s = (f (p.exec s).1).exec (p.exec s).2 := by
  induction p generalizing s with
  | ret a => rfl
  | act label run next ih => exact ih (run s).1 (run s).2

/-- At most so many actions of a program, and what is left of it. -/
def steps : ℕ → Prog ι σ α → σ → Prog ι σ α × σ
  | 0, p, s => (p, s)
  | _ + 1, .ret a, s => (.ret a, s)
  | n + 1, .act _ run next, s => (next (run s).1).steps n (run s).2

/-- Enough steps run a program to its end. -/
theorem exists_steps (p : Prog ι σ α) (s : σ) :
    ∃ n, p.steps n s = (.ret (p.exec s).1, (p.exec s).2) := by
  induction p generalizing s with
  | ret a => exact ⟨0, rfl⟩
  | act label run next ih =>
    obtain ⟨n, hn⟩ := ih (run s).1 (run s).2
    exact ⟨n + 1, hn⟩

/-- A program over a part of a larger state. -/
def zoom {ι' τ : Type} (view : τ → σ) (put : τ → σ → τ) (relabel : ι → ι') :
    Prog ι σ α → Prog ι' τ α
  | .ret a => .ret a
  | .act label run next =>
    .act (relabel label) (fun t => ((run (view t)).1, put t (run (view t)).2)) fun b =>
      (next b).zoom view put relabel

/-- It runs as it does over the part. -/
theorem exec_zoom {ι' τ : Type} {view : τ → σ} {put : τ → σ → τ} {relabel : ι → ι'}
    (hview : ∀ t s, view (put t s) = s) (hself : ∀ t, put t (view t) = t)
    (htwice : ∀ t s s', put (put t s) s' = put t s') (p : Prog ι σ α) (t : τ) :
    (p.zoom view put relabel).exec t = ((p.exec (view t)).1, put t (p.exec (view t)).2) := by
  induction p generalizing t with
  | ret a =>
    show (a, t) = (a, put t (view t))
    rw [hself]
  | act label run next ih =>
    show Prog.exec (zoom view put relabel (next (run (view t)).1)) (put t (run (view t)).2) = _
    rw [ih, hview, htwice]
    rfl

/-- Every action, on whatever state it is taken, changes the state within
`P`. -/
def Within (P : σ → σ → Prop) : Prog ι σ α → Prop
  | .ret _ => True
  | .act _ run next => (∀ s, P s (run s).2) ∧ ∀ b, (next b).Within P

/-- The rule of sequence. -/
theorem Within.bind {P : σ → σ → Prop} {p : Prog ι σ α} {f : α → Prog ι σ β} (hp : p.Within P)
    (hf : ∀ a, (f a).Within P) : (p.bind f).Within P := by
  induction p with
  | ret a => exact hf a
  | act label run next ih => exact ⟨hp.1, fun b => ih b (hp.2 b)⟩

/-- A program on a part of the state. -/
theorem Within.zoom {ι' τ : Type} {view : τ → σ} {put : τ → σ → τ} {relabel : ι → ι'}
    {P : σ → σ → Prop} {P' : τ → τ → Prop} (hP : ∀ t s, P (view t) s → P' t (put t s))
    {p : Prog ι σ α} (hp : p.Within P) : (p.zoom view put relabel).Within P' := by
  induction p with
  | ret a => trivial
  | act label run next ih => exact ⟨fun t => hP t _ (hp.1 (view t)), fun b => ih b (hp.2 b)⟩

/-- The relation may be weakened. -/
theorem Within.mono {P P' : σ → σ → Prop} (hP : ∀ s s', P s s' → P' s s') {p : Prog ι σ α}
    (hp : p.Within P) : p.Within P' := by
  induction p with
  | ret a => trivial
  | act label run next ih => exact ⟨fun s => hP _ _ (hp.1 s), fun b => ih b (hp.2 b)⟩

end Prog

/-- A program that may fail with an exception of `ε`. -/
abbrev Eff (ε ι σ : Type) (α : Type) : Type 1 := ExceptT ε (Prog ι σ) α

namespace Eff

variable {ε ι σ α β : Type}

/-- One atomic action that may fail. -/
def action (label : ι) (run : σ → Except ε α × σ) : Eff ε ι σ α :=
  ExceptT.mk (.act label run .ret)

/-- An atomic read. -/
def read (label : ι) (f : σ → α) : Eff ε ι σ α :=
  action label fun s => (.ok (f s), s)

/-- Lift a pure result, whose error becomes an exception. -/
def ofExcept {δ : Type} (raise : δ → ε) : Except δ α → Eff ε ι σ α
  | .ok a => pure a
  | .error d => throw (raise d)

/-! ### What the actions of a program do -/

/-- Every action of the program changes the state within `P`. -/
def Within (P : σ → σ → Prop) (x : Eff ε ι σ α) : Prop := Prog.Within P x

section Within

variable {P : σ → σ → Prop}

theorem Within.pure {a : α} : Within P (Pure.pure a : Eff ε ι σ α) := trivial

theorem Within.throw {e : ε} : Within P (MonadExcept.throw e : Eff ε ι σ α) := trivial

/-- A result changes nothing. -/
theorem Within.ofExcept {δ : Type} {raise : δ → ε} {r : Except δ α} :
    Within P (Eff.ofExcept raise r : Eff ε ι σ α) := by
  cases r <;> trivial

/-- The rule of sequence, with exceptions. -/
theorem Within.bind {x : Eff ε ι σ α} {f : α → Eff ε ι σ β} (hx : Within P x)
    (hf : ∀ a, Within P (f a)) : Within P (x >>= f) :=
  Prog.Within.bind hx fun r => match r with
    | .ok a => hf a
    | .error _ => trivial

/-- The rule of handlers. -/
theorem Within.tryCatch {x : Eff ε ι σ α} {handle : ε → Eff ε ι σ α} (hx : Within P x)
    (hh : ∀ e, Within P (handle e)) : Within P (tryCatchThe ε x handle) :=
  Prog.Within.bind hx fun r => match r with
    | .ok _ => trivial
    | .error e => hh e

/-- The rule of one action. -/
theorem Within.action {label : ι} {run : σ → Except ε α × σ} (hx : ∀ s, P s (run s).2) :
    Within P (Eff.action label run) :=
  ⟨hx, fun _ => trivial⟩

end Within

/-! ### Running alone -/

/-- The run of a failing program nobody interferes with. -/
def exec (x : Eff ε ι σ α) (s : σ) : Except ε α × σ :=
  Prog.exec x s

@[simp] theorem exec_pure (a : α) (s : σ) : (pure a : Eff ε ι σ α).exec s = (.ok a, s) := rfl

@[simp] theorem exec_throw (e : ε) (s : σ) : (throw e : Eff ε ι σ α).exec s = (.error e, s) := rfl

@[simp] theorem exec_action (label : ι) (run : σ → Except ε α × σ) (s : σ) :
    (action label run).exec s = run s := rfl

@[simp] theorem exec_read (label : ι) (f : σ → α) (s : σ) :
    (read label f : Eff ε ι σ α).exec s = (.ok (f s), s) := rfl

@[simp] theorem exec_ofExcept_ok {δ : Type} (raise : δ → ε) (a : α) (s : σ) :
    (ofExcept raise (.ok a) : Eff ε ι σ α).exec s = (.ok a, s) := rfl

@[simp] theorem exec_ofExcept_error {δ : Type} (raise : δ → ε) (d : δ) (s : σ) :
    (ofExcept raise (.error d) : Eff ε ι σ α).exec s = (.error (raise d), s) := rfl

/-- What a sequence does with the first program's outcome. -/
theorem exec_bind (x : Eff ε ι σ α) (f : α → Eff ε ι σ β) (s : σ) :
    (x >>= f).exec s = match x.exec s with
      | (.ok a, s') => (f a).exec s'
      | (.error e, s') => (.error e, s') := by
  have h : (x >>= f).exec s = Prog.exec (ExceptT.bindCont f (Prog.exec x s).1) (Prog.exec x s).2 :=
    Prog.exec_bind x _ s
  rw [h]
  unfold exec
  rcases Prog.exec x s with ⟨e | a, s'⟩ <;> rfl

/-- What a map goes on with. -/
def mapCont (f : α → β) : Except ε α → Prog ι σ (Except ε β)
  | .ok a => pure (.ok (f a))
  | .error e => pure (.error e)

/-- A function of what a program returns. -/
theorem exec_map (f : α → β) (x : Eff ε ι σ α) (s : σ) :
    (f <$> x).exec s = (f <$> (x.exec s).1, (x.exec s).2) := by
  have h : (f <$> x).exec s =
      Prog.exec (mapCont f (Prog.exec x s).1 : Prog ι σ (Except ε β)) (Prog.exec x s).2 := by
    refine Eq.trans (congrFun (congrArg Prog.exec ?_) s) (Prog.exec_bind x (mapCont f) s)
    exact congrArg (Prog.bind x) (funext fun r => by cases r <;> rfl)
  rw [h]
  unfold exec
  rcases Prog.exec x s with ⟨e | a, s'⟩ <;> rfl

/-- The sequence, where the first program succeeds. -/
theorem exec_bind_ok {x : Eff ε ι σ α} {f : α → Eff ε ι σ β} {s s' : σ} {a : α}
    (h : x.exec s = (.ok a, s')) : (x >>= f).exec s = (f a).exec s' := by
  rw [exec_bind, h]

/-- The sequence, where the first program fails. -/
theorem exec_bind_error {x : Eff ε ι σ α} {f : α → Eff ε ι σ β} {s s' : σ} {e : ε}
    (h : x.exec s = (.error e, s')) : (x >>= f).exec s = (.error e, s') := by
  rw [exec_bind, h]

/-- What is done within `P` by every action is done within `P` by the run. -/
theorem Within.exec {P : σ → σ → Prop} (hrefl : ∀ s, P s s)
    (htrans : ∀ s₁ s₂ s₃, P s₁ s₂ → P s₂ s₃ → P s₁ s₃) {x : Eff ε ι σ α} (hx : Within P x)
    (s : σ) : P s (x.exec s).2 := by
  have hprog : ∀ {β : Type} {p : Prog ι σ β} (s : σ), p.Within P → P s (p.exec s).2 := by
    intro β p
    induction p with
    | ret a => exact fun s _ => hrefl s
    | act label run next ih =>
      exact fun s hp => htrans _ _ _ (hp.1 s) (ih _ _ (hp.2 _))
  exact hprog s hx

/-- What a handler goes on with. -/
def catchCont (handle : ε → Eff ε ι σ α) : Except ε α → Prog ι σ (Except ε α)
  | .ok a => pure (.ok a)
  | .error e => handle e

/-- A handler sees the state the failing program left. -/
theorem exec_tryCatch (x : Eff ε ι σ α) (handle : ε → Eff ε ι σ α) (s : σ) :
    (tryCatch x handle : Eff ε ι σ α).exec s = match x.exec s with
      | (.ok a, s') => (.ok a, s')
      | (.error e, s') => (handle e).exec s' := by
  have h : (tryCatch x handle : Eff ε ι σ α).exec s =
      Prog.exec (catchCont handle (Prog.exec x s).1) (Prog.exec x s).2 := by
    refine Eq.trans (congrFun (congrArg Prog.exec ?_) s) (Prog.exec_bind x (catchCont handle) s)
    exact congrArg (Prog.bind x) (funext fun r => by cases r <;> rfl)
  rw [h]
  unfold exec
  rcases Prog.exec x s with ⟨e | a, s'⟩ <;> rfl

end Eff

end Interleaving
