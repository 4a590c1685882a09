import Mathlib.Data.List.Infix
/-!
# Histories of calls

Calls that each take effect at once. However callers interleave, the calls
come one after the other, and a run is what was called, in order, with what
each call was answered. An invariant may speak of the calls made so far; the
rule is `Run.invariant`, and `Run.exists_before` goes back to the moment of
any call of a run.
-/

namespace History

variable {κ σ α : Type*}

/-- The calls made, with their answers, and the state they lead to. A call
is made where it is allowed, given what was called before. -/
inductive Run (body : κ → σ → α × σ) (allowed : List (κ × α) → σ → κ → Prop)
    (start : σ → Prop) : List (κ × α) → σ → Prop
  /-- Nothing called yet. -/
  | start {s : σ} (hs : start s) : Run body allowed start [] s
  /-- One more call. -/
  | call {made : List (κ × α)} {s : σ} (k : κ) (hr : Run body allowed start made s)
      (hk : allowed made s k) :
      Run body allowed start (made ++ [(k, (body k s).1)]) (body k s).2

namespace Run

variable {body : κ → σ → α × σ} {allowed allowed' : List (κ × α) → σ → κ → Prop}
variable {start start' : σ → Prop} {made : List (κ × α)} {s : σ}

/-- A run under stronger assumptions is a run under weaker ones. -/
theorem mono (hs : ∀ s, start s → start' s) (ha : ∀ made s k, allowed made s k → allowed' made s k)
    (hr : Run body allowed start made s) : Run body allowed' start' made s := by
  induction hr with
  | start h => exact .start (hs _ h)
  | call k _ hk ih => exact .call k ih (ha _ _ k hk)

/-- **What holds at the start and is kept by every call that is allowed
holds throughout.** -/
theorem invariant {I : List (κ × α) → σ → Prop} (hstart : ∀ s, start s → I [] s)
    (hcall : ∀ made s k, Run body allowed start made s → allowed made s k → I made s →
      I (made ++ [(k, (body k s).1)]) (body k s).2)
    (hr : Run body allowed start made s) : I made s := by
  induction hr with
  | start hs => exact hstart _ hs
  | call k hr hk ih => exact hcall _ _ k hr hk ih

/-- **A call of a run was made of a state the run had reached**, where it was
allowed, and was answered there. -/
theorem exists_before (hr : Run body allowed start made s) {before after : List (κ × α)}
    {k : κ} {a : α} (h : made = before ++ (k, a) :: after) :
    ∃ t, Run body allowed start before t ∧ allowed before t k ∧ (body k t).1 = a ∧
      Run body allowed start (before ++ [(k, a)]) (body k t).2 := by
  induction hr generalizing after with
  | start hs => simp at h
  | @call made s k' hr hk ih =>
    rcases List.eq_nil_or_concat after with rfl | ⟨rest, last, rfl⟩
    · obtain ⟨rfl, heq⟩ := List.append_inj' h rfl
      obtain ⟨rfl, rfl⟩ := Prod.mk.inj (List.cons.inj heq).1
      exact ⟨s, hr, hk, rfl, .call k' hr hk⟩
    · have h' : made ++ [(k', (body k' s).1)] = (before ++ (k, a) :: rest) ++ [last] := by
        rw [h]
        simp
      exact ih (List.append_inj' h' rfl).1

/-- A call that was made, wherever in the run. -/
theorem exists_of_mem (hr : Run body allowed start made s) {k : κ} {a : α} (h : (k, a) ∈ made) :
    ∃ before after t, made = before ++ (k, a) :: after ∧ Run body allowed start before t ∧
      allowed before t k ∧ (body k t).1 = a := by
  obtain ⟨before, after, hsplit⟩ := List.append_of_mem h
  obtain ⟨t, ht, hallowed, ha, -⟩ := hr.exists_before hsplit
  exact ⟨before, after, t, hsplit, ht, hallowed, ha⟩

/-- **What every call keeps, a run keeps from each of its calls on.** -/
theorem later {P : σ → σ → Prop} (hrefl : ∀ s, P s s)
    (htrans : ∀ s₁ s₂ s₃, P s₁ s₂ → P s₂ s₃ → P s₁ s₃) (hbody : ∀ k s, P s (body k s).2)
    (hr : Run body allowed start made s) {before after : List (κ × α)} {k : κ} {a : α}
    (h : made = before ++ (k, a) :: after) :
    ∃ t, Run body allowed start before t ∧ allowed before t k ∧ (body k t).1 = a ∧
      P (body k t).2 s := by
  induction hr generalizing after with
  | start hs => simp at h
  | @call made s k' hr hk ih =>
    rcases List.eq_nil_or_concat after with rfl | ⟨rest, last, rfl⟩
    · obtain ⟨rfl, heq⟩ := List.append_inj' h rfl
      obtain ⟨rfl, rfl⟩ := Prod.mk.inj (List.cons.inj heq).1
      exact ⟨s, hr, hk, rfl, hrefl _⟩
    · have h' : made ++ [(k', (body k' s).1)] = (before ++ (k, a) :: rest) ++ [last] := by
        rw [h]
        simp
      obtain ⟨t, ht, hallowed, ha, hlater⟩ := ih (List.append_inj' h' rfl).1
      exact ⟨t, ht, hallowed, ha, htrans _ _ _ hlater (hbody k' s)⟩

end Run

/-! ## From a given state -/

/-- Where the calls lead to. -/
def stateAfter (body : κ → σ → α × σ) (s₀ : σ) (made : List (κ × α)) : σ :=
  made.foldl (fun s c => (body c.1 s).2) s₀

/-- A run from a state leads where its calls do. -/
theorem Run.eq_stateAfter {body : κ → σ → α × σ} {allowed : List (κ × α) → σ → κ → Prop}
    {made : List (κ × α)} {s₀ s : σ} (hr : Run body allowed (· = s₀) made s) :
    s = stateAfter body s₀ made := by
  induction hr with
  | start hs => exact hs
  | call k _ _ ih =>
    unfold stateAfter at ih ⊢
    rw [List.foldl_append, ← ih]
    rfl

/-- The state after one call more. -/
theorem stateAfter_append (body : κ → σ → α × σ) (s₀ : σ) (made : List (κ × α)) (c : κ × α) :
    stateAfter body s₀ (made ++ [c]) = (body c.1 (stateAfter body s₀ made)).2 := by
  unfold stateAfter
  rw [List.foldl_append]
  rfl

/-- A call of a run from a state, at its moment. -/
theorem Run.at_split {body : κ → σ → α × σ} {allowed : List (κ × α) → σ → κ → Prop} {s₀ s : σ}
    {before after : List (κ × α)} {k : κ} {a : α}
    (hr : Run body allowed (· = s₀) (before ++ (k, a) :: after) s) :
    Run body allowed (· = s₀) before (stateAfter body s₀ before) ∧
      allowed before (stateAfter body s₀ before) k ∧ (body k (stateAfter body s₀ before)).1 = a := by
  obtain ⟨t, ht, hallowed, ha, -⟩ := hr.exists_before rfl
  have heq := ht.eq_stateAfter
  subst heq
  exact ⟨ht, hallowed, ha⟩

/-! ## A given order of calls -/

/-- The calls, made in turn from a state, and the state they lead to. -/
def play (body : κ → σ → α × σ) : List κ → σ → List (κ × α) × σ
  | [], s => ([], s)
  | k :: ks, s =>
    ((k, (body k s).1) :: (play body ks (body k s).2).1, (play body ks (body k s).2).2)

section Play

variable {body : κ → σ → α × σ} {allowed : List (κ × α) → σ → κ → Prop} {start : σ → Prop}
variable {made : List (κ × α)} {s : σ}

/-- Each of the calls is allowed where it is made. -/
def AllowedInTurn (body : κ → σ → α × σ) (allowed : List (κ × α) → σ → κ → Prop) :
    List (κ × α) → σ → List κ → Prop
  | _, _, [] => True
  | made, s, k :: ks =>
    allowed made s k ∧ AllowedInTurn body allowed (made ++ [(k, (body k s).1)]) (body k s).2 ks

instance decidableAllowedInTurn [∀ made s k, Decidable (allowed made s k)] :
    ∀ made s ks, Decidable (AllowedInTurn body allowed made s ks)
  | _, _, [] => isTrue trivial
  | made, s, k :: ks =>
    have := decidableAllowedInTurn (made ++ [(k, (body k s).1)]) (body k s).2 ks
    inferInstanceAs (Decidable (allowed made s k ∧
      AllowedInTurn body allowed (made ++ [(k, (body k s).1)]) (body k s).2 ks))

/-- **Calls that are made in turn are a run** where each is allowed. -/
theorem Run.inTurn (hr : Run body allowed start made s) {ks : List κ}
    (h : AllowedInTurn body allowed made s ks) :
    Run body allowed start (made ++ (play body ks s).1) (play body ks s).2 := by
  induction ks generalizing made s with
  | nil =>
    rw [play, List.append_nil]
    exact hr
  | cons k ks ih =>
    obtain ⟨hk, hks⟩ := h
    have hrest := ih (.call k hr hk) hks
    rwa [List.append_assoc, List.singleton_append] at hrest

/-- A run goes on with the calls that are played. -/
theorem Run.play (hr : Run body (fun _ _ _ => True) start made s) (ks : List κ) :
    Run body (fun _ _ _ => True) start (made ++ (play body ks s).1) (play body ks s).2 := by
  refine hr.inTurn ?_
  clear hr
  induction ks generalizing made s with
  | nil => trivial
  | cons k ks ih => exact ⟨trivial, ih⟩

/-- What was played was asked for. -/
theorem mem_of_mem_play {ks : List κ} {k : κ} {a : α} (h : (k, a) ∈ (play body ks s).1) :
    k ∈ ks := by
  induction ks generalizing s with
  | nil => cases h
  | cons k' ks ih =>
    rcases List.mem_cons.mp h with heq | h
    · rw [(Prod.mk.inj heq).1]
      exact List.mem_cons_self
    · exact List.mem_cons_of_mem _ (ih h)

end Play

end History
