import Atmem.Common.Interleaving
/-!
# Granted runs, and what lasts of what a call has seen

A call that is granted what its actions ask for may also rely on what the
others leave standing: whatever they do, the state evolves by `V`. Between
two actions a call knows of a state it left or found, and that the state it
acts on has come of that one.
-/

namespace Interleaving

open Relation

variable {κ ι σ α β ε : Type}
variable {Pre : ι → σ → Prop} {I : σ → Prop} {V : σ → σ → Prop} {P : ι → σ → σ → Prop}

/-- Every action of the program that is taken where `I` holds, of a state
that has come of the last one known, and where what it asks for is granted,
changes the state within `P`; `Q` holds of what the program returns and of
the last state it knew. -/
def Prog.Lasts (Pre : ι → σ → Prop) (I : σ → Prop) (V : σ → σ → Prop) (P : ι → σ → σ → Prop)
    (Q : α → σ → Prop) : Prog ι σ α → σ → Prop
  | .ret a, s₀ => Q a s₀
  | .act label run next, s₀ => ∀ s, I s → V s₀ s → Pre label s →
      P label s (run s).2 ∧ Prog.Lasts Pre I V P Q (next (run s).1) (run s).2

/-- What is kept to: an action that is granted keeps the invariant and is
part of the evolution. -/
structure Evolution (I : σ → Prop) (V : σ → σ → Prop) (P : ι → σ → σ → Prop) : Prop where
  refl : ∀ s, V s s
  trans : ∀ {s₁ s₂ s₃}, V s₁ s₂ → V s₂ s₃ → V s₁ s₃
  keeps : ∀ {label s s'}, I s → P label s s' → I s' ∧ V s s'

section Rules

/-- The conclusion may be weakened. -/
theorem Prog.Lasts.mono {Q Q' : α → σ → Prop} (hQ : ∀ a s, Q a s → Q' a s) {p : Prog ι σ α}
    {s₀ : σ} (hp : p.Lasts Pre I V P Q s₀) : p.Lasts Pre I V P Q' s₀ := by
  induction p generalizing s₀ with
  | ret a => exact hQ _ _ hp
  | act label run next ih =>
    intro s hI hV hpre
    obtain ⟨hP, hnext⟩ := hp s hI hV hpre
    exact ⟨hP, ih _ hnext⟩

/-- The continuation runs on from a state that has come of the first. -/
theorem Prog.Lasts.bind (hE : Evolution I V P) {Q : α → σ → Prop} {Q' : β → σ → Prop}
    {p : Prog ι σ α} {f : α → Prog ι σ β} {s₀ : σ} (hp : p.Lasts Pre I V P Q s₀)
    (hf : ∀ a s, Q a s → V s₀ s → (f a).Lasts Pre I V P Q' s) :
    (p.bind f).Lasts Pre I V P Q' s₀ := by
  induction p generalizing s₀ with
  | ret a => exact hf a s₀ hp (hE.refl s₀)
  | act label run next ih =>
    intro s hI hV hpre
    obtain ⟨hP, hnext⟩ := hp s hI hV hpre
    refine ⟨hP, ih _ hnext fun a s' hQ hV' => hf a s' hQ ?_⟩
    exact hE.trans hV (hE.trans (hE.keeps hI hP).2 hV')

/-- A program that may fail: `Q` of what it returns. -/
def Eff.Lasts (Pre : ι → σ → Prop) (I : σ → Prop) (V : σ → σ → Prop) (P : ι → σ → σ → Prop)
    (Q : α → σ → Prop) (x : Eff ε ι σ α) (s₀ : σ) : Prop :=
  Prog.Lasts Pre I V P (fun (r : Except ε α) s => ∀ a, r = .ok a → Q a s) x s₀

variable {Q : α → σ → Prop} {Q' : β → σ → Prop} {s₀ : σ}

theorem Eff.Lasts.pure {a : α} (ha : Q a s₀) :
    (Pure.pure a : Eff ε ι σ α).Lasts Pre I V P Q s₀ := by
  intro b hb
  cases hb
  exact ha

theorem Eff.Lasts.throw {e : ε} : (MonadExcept.throw e : Eff ε ι σ α).Lasts Pre I V P Q s₀ := by
  intro b hb
  cases hb

theorem Eff.Lasts.ofExcept {δ : Type} {raise : δ → ε} {r : Except δ α}
    (hr : ∀ a, r = .ok a → Q a s₀) : (Eff.ofExcept raise r : Eff ε ι σ α).Lasts Pre I V P Q s₀ := by
  cases r with
  | error d => exact Eff.Lasts.throw
  | ok b => exact Eff.Lasts.pure (hr b rfl)

theorem Eff.Lasts.mono {Q' : α → σ → Prop} {x : Eff ε ι σ α} (hx : x.Lasts Pre I V P Q s₀)
    (hQ : ∀ a s, Q a s → Q' a s) : x.Lasts Pre I V P Q' s₀ :=
  Prog.Lasts.mono (fun _ s hr a ha => hQ a s (hr a ha)) hx

/-- The rule of sequence. -/
theorem Eff.Lasts.bind (hE : Evolution I V P) {x : Eff ε ι σ α} {f : α → Eff ε ι σ β}
    (hx : x.Lasts Pre I V P Q s₀)
    (hf : ∀ a s, Q a s → V s₀ s → (f a).Lasts Pre I V P Q' s) :
    (x >>= f : Eff ε ι σ β).Lasts Pre I V P Q' s₀ := by
  refine Prog.Lasts.bind hE hx fun r s hr hV => ?_
  rcases r with e | a
  · intro b hb
    cases hb
  · exact hf a s (hr a rfl) hV

/-- The rule of a function of the result. -/
theorem Eff.Lasts.map (hE : Evolution I V P) {x : Eff ε ι σ α} {f : α → β}
    (hx : x.Lasts Pre I V P Q s₀) (hf : ∀ a s, Q a s → Q' (f a) s) :
    (f <$> x : Eff ε ι σ β).Lasts Pre I V P Q' s₀ := by
  refine Prog.Lasts.bind hE hx fun r s hr _ => ?_
  rcases r with e | a
  · intro b hb
    cases hb
  · intro b hb
    cases hb
    exact hf a s (hr a rfl)

/-- The rule of one action. -/
theorem Eff.Lasts.action {label : ι} {run : σ → Except ε α × σ}
    (hx : ∀ s, I s → V s₀ s → Pre label s →
      P label s (run s).2 ∧ ∀ a, (run s).1 = .ok a → Q a (run s).2) :
    (Eff.action label run).Lasts Pre I V P Q s₀ := hx

end Rules

/-! ## Runs -/

section Runs

variable {body : κ → Prog ι σ α} {allowed : κ → Prop} {c c' : Config κ ι σ α}

/-- Every state seen kept the invariant and has come to the present one, and
what is left of every call lasts from a state that has. -/
def Lasting (Pre : ι → σ → Prop) (I : σ → Prop) (V : σ → σ → Prop) (P : ι → σ → σ → Prop)
    (c : Config κ ι σ α) : Prop :=
  (∀ s, c.time.Seen s → I s ∧ V s c.time.now) ∧
    ∀ p ∈ c.procs, ∃ s₀, V s₀ c.time.now ∧ p.prog.Lasts Pre I V P (fun _ _ => True) s₀

/-- Nothing has been done at the start. -/
theorem lasting_initial (hE : Evolution I V P) {s : σ} (hI : I s) :
    Lasting Pre I V P (Config.initial s : Config κ ι σ α) := by
  refine ⟨fun s' hs => ?_, fun _ hp => absurd hp List.not_mem_nil⟩
  rcases hs with rfl | hs
  · exact ⟨hI, hE.refl _⟩
  · cases hs

/-- The action that is taken is within `P`. -/
theorem Lasting.act (hc : Lasting Pre I V P c) {i : ℕ} {k : κ} {log : List ι} {β : Type}
    {label : ι} {run : σ → β × σ} {next : β → Prog ι σ α}
    (hi : c.procs[i]? = some ⟨k, log, .act label run next⟩) (hpre : Pre label c.time.now) :
    P label c.time.now (run c.time.now).2 ∧
      (next (run c.time.now).1).Lasts Pre I V P (fun _ _ => True) (run c.time.now).2 := by
  obtain ⟨s₀, hV, hlasts⟩ := hc.2 _ (List.mem_of_getElem? hi)
  exact hlasts _ (hc.1 _ Timeline.seen_now).1 hV hpre

/-- **A step that grants keeps it**, and changes the state within `P`. -/
theorem Lasting.step (hE : Evolution I V P)
    (hbody : ∀ k, allowed k → ∀ s, I s → (body k).Lasts Pre I V P (fun _ _ => True) s)
    (hc : Lasting Pre I V P c) (hs : GrantedStep body allowed (fun _ => Pre) c c') :
    Lasting Pre I V P c' := by
  cases hs with
  | call hk =>
    refine ⟨hc.1, fun p hp => ?_⟩
    rcases List.mem_append.mp hp with hp | hp
    · exact hc.2 p hp
    · rw [List.mem_singleton.mp hp]
      exact ⟨_, hE.refl _, hbody _ hk _ (hc.1 _ Timeline.seen_now).1⟩
  | @act i k log β label run next hi hpre =>
    obtain ⟨hP, hnext⟩ := hc.act hi hpre
    obtain ⟨hI', hV'⟩ := hE.keeps (hc.1 _ Timeline.seen_now).1 hP
    refine ⟨fun s hs => ?_, fun p hp => ?_⟩
    · rcases hs with rfl | hs
      · exact ⟨hI', hE.refl _⟩
      · have hseen : c.time.Seen s := List.mem_cons.mp hs
        exact ⟨(hc.1 s hseen).1, hE.trans (hc.1 s hseen).2 hV'⟩
    · rcases List.mem_or_eq_of_mem_set hp with hp | rfl
      · obtain ⟨s₀, hV, hlasts⟩ := hc.2 p hp
        exact ⟨s₀, hE.trans hV hV', hlasts⟩
      · exact ⟨_, hE.refl _, hnext⟩

/-- **So does a run whose steps all grant.** -/
theorem Lasting.run (hE : Evolution I V P)
    (hbody : ∀ k, allowed k → ∀ s, I s → (body k).Lasts Pre I V P (fun _ _ => True) s)
    (hc : Lasting Pre I V P c) (hr : ReflTransGen (GrantedStep body allowed fun _ => Pre) c c') :
    Lasting Pre I V P c' := by
  induction hr with
  | refl => exact hc
  | tail _ hs ih => exact ih.step hE hbody hs

/-- **What every quiet action does, a run of quiet actions does.** -/
theorem Lasting.quiet (hE : Evolution I V P)
    (hbody : ∀ k, allowed k → ∀ s, I s → (body k).Lasts Pre I V P (fun _ _ => True) s)
    {Quiet : ι → Prop} {R : σ → σ → Prop} (hrefl : ∀ s, R s s)
    (htrans : ∀ {s₁ s₂ s₃}, R s₁ s₂ → R s₂ s₃ → R s₁ s₃)
    (hquiet : ∀ {label s s'}, I s → Quiet label → P label s s' → R s s')
    (hc : Lasting Pre I V P c)
    (hr : ReflTransGen (GrantedStep body allowed fun _ label s => Pre label s ∧ Quiet label) c c') :
    Lasting Pre I V P c' ∧ R c.time.now c'.time.now := by
  induction hr with
  | refl => exact ⟨hc, hrefl _⟩
  | @tail c₁ c₂ _ hs ih =>
    obtain ⟨hc₁, hR⟩ := ih
    have hgrants := hs.mono (fun _ _ _ h => h.1) fun _ h => h
    refine ⟨hc₁.step hE hbody hgrants, ?_⟩
    cases hs with
    | call hk => exact hR
    | act hi hpre =>
      exact htrans hR (hquiet (hc₁.1 _ Timeline.seen_now).1 hpre.2 (hc₁.act hi hpre.1).1)

end Runs

end Interleaving
