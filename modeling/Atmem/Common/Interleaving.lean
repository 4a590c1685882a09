import Atmem.Common.Program
import Mathlib.Data.List.Basic
/-!
# Interleaved programs, and the rely–guarantee rule

Any number of calls run against one shared state, one atomic action at a
time, in any order; a call may begin at any moment. A `Timeline` keeps
the states the shared state went through, so that what a call read
earlier stays available to a later step of the argument.

`Safe R G Q p log h` reads: whatever the others do within `R` between
two actions of `p`, every action of `p` keeps to `G`, and `Q` holds of
what `p` returns. The rule (`Discipline.good_step`) turns one `Safe` per
kind of call into an invariant of every run.
-/

namespace Interleaving

open Relation

/-- The states the shared state has gone through, newest first. -/
structure Timeline (σ : Type) where
  past : List σ
  now : σ

namespace Timeline

variable {σ : Type} {h : Timeline σ} {s s' : σ}

/-- One more state. -/
def push (h : Timeline σ) (s : σ) : Timeline σ := ⟨h.now :: h.past, s⟩

/-- The shared state was `s` at some moment. -/
def Seen (h : Timeline σ) (s : σ) : Prop := s = h.now ∨ s ∈ h.past

@[simp] theorem push_now : (h.push s).now = s := rfl

@[simp] theorem push_past : (h.push s).past = h.now :: h.past := rfl

/-- The present state is seen. -/
theorem seen_now : h.Seen h.now := Or.inl rfl

/-- A moment, once seen, stays seen. -/
theorem Seen.push (hs : h.Seen s) (s' : σ) : (h.push s').Seen s :=
  Or.inr (hs.elim (fun e => e ▸ List.mem_cons_self) (List.mem_cons_of_mem _))

/-- A later timeline has seen everything an earlier one has. -/
def Extends (h h' : Timeline σ) : Prop := ∀ s, h.Seen s → h'.Seen s

theorem Extends.refl (h : Timeline σ) : h.Extends h := fun _ hs => hs

theorem Extends.trans {h₁ h₂ h₃ : Timeline σ} (h₁₂ : h₁.Extends h₂) (h₂₃ : h₂.Extends h₃) :
    h₁.Extends h₃ := fun s hs => h₂₃ s (h₁₂ s hs)

/-- A step more extends the timeline. -/
theorem extends_push (h : Timeline σ) (s : σ) : h.Extends (h.push s) := fun _ hs => hs.push s

end Timeline

/-! ## The system -/

/-- A call in flight: what was called, the labels of the actions it has
taken, and what is left of it. -/
structure Proc (κ ι σ α : Type) where
  call : κ
  log : List ι
  prog : Prog ι σ α

variable {κ ι σ α β ε : Type}

/-- The call has not returned. -/
def Proc.Live (p : Proc κ ι σ α) : Prop := ∀ a, p.prog ≠ .ret a

instance (p : Proc κ ι σ α) : Decidable p.Live :=
  match hp : p.prog with
  | .ret a => .isFalse fun hl => hl a hp
  | .act .. => .isTrue fun a ha => by rw [hp] at ha; cases ha

/-- The shared state with its past, and the calls in flight or returned. -/
structure Config (κ ι σ α : Type) where
  time : Timeline σ
  procs : List (Proc κ ι σ α)

/-- One step of the system: a permitted call begins, or some call takes
its next action. -/
inductive Step (body : κ → Prog ι σ α) (allowed : κ → Prop) :
    Config κ ι σ α → Config κ ι σ α → Prop
  /-- A call begins. -/
  | call {c : Config κ ι σ α} {k : κ} (hk : allowed k) :
      Step body allowed c { c with procs := c.procs ++ [⟨k, [], body k⟩] }
  /-- Call `i` takes its next action. -/
  | act {c : Config κ ι σ α} {i : ℕ} {k : κ} {log : List ι} {β : Type} {label : ι}
      {run : σ → β × σ} {next : β → Prog ι σ α}
      (hi : c.procs[i]? = some ⟨k, log, .act label run next⟩) :
      Step body allowed c
        { time := c.time.push (run c.time.now).2
          procs := c.procs.set i ⟨k, log ++ [label], next (run c.time.now).1⟩ }

/-- A step stays one when more calls are allowed. -/
theorem Step.mono {body : κ → Prog ι σ α} {allowed allowed' : κ → Prop}
    (ha : ∀ k, allowed k → allowed' k) {c c' : Config κ ι σ α} (hs : Step body allowed c c') :
    Step body allowed' c c' := by
  cases hs with
  | call hk => exact .call (ha _ hk)
  | act hi => exact .act hi

/-- The configurations a run visits. -/
abbrev Reaches (body : κ → Prog ι σ α) (allowed : κ → Prop) :
    Config κ ι σ α → Config κ ι σ α → Prop :=
  ReflTransGen (Step body allowed)

/-- Nothing called yet. -/
def Config.initial (s : σ) : Config κ ι σ α := ⟨⟨[], s⟩, []⟩

/-! ## Safety of one program -/

/-- Every action of the program, taken at any later moment the rely
`R` allows, keeps to the guarantee `G`; `Q` holds where it returns. -/
def Safe (R : List ι → Timeline σ → Timeline σ → Prop) (G : Timeline σ → σ → Prop)
    (Q : List ι → α → Timeline σ → Prop) : Prog ι σ α → List ι → Timeline σ → Prop
  | .ret a, log, h => Q log a h
  | .act label run next, log, h => ∀ h', R log h h' → G h' (run h'.now).2 ∧
      Safe R G Q (next (run h'.now).1) (log ++ [label]) (h'.push (run h'.now).2)

section Safe

variable {R : List ι → Timeline σ → Timeline σ → Prop} {G : Timeline σ → σ → Prop}

/-- A program stays safe for a weaker conclusion. -/
theorem Safe.mono {Q Q' : List ι → α → Timeline σ → Prop} (hQ : ∀ log a h, Q log a h → Q' log a h)
    {p : Prog ι σ α} {log : List ι} {h : Timeline σ} (hp : Safe R G Q p log h) :
    Safe R G Q' p log h := by
  induction p generalizing log h with
  | ret a => exact hQ _ _ _ hp
  | act label run next ih => exact fun h' hR => ⟨(hp h' hR).1, ih _ (hp h' hR).2⟩

/-- Sequencing: the continuation is safe from wherever the first program
leaves off. -/
theorem Safe.bind {Q : List ι → β → Timeline σ → Prop} {p : Prog ι σ α} {f : α → Prog ι σ β}
    {log : List ι} {h : Timeline σ}
    (hp : Safe R G (fun log' a h' => Safe R G Q (f a) log' h') p log h) :
    Safe R G Q (p.bind f) log h := by
  induction p generalizing log h with
  | ret a => exact hp
  | act label run next ih => exact fun h' hR => ⟨(hp h' hR).1, ih _ (hp h' hR).2⟩

/-- Sequencing of programs that may fail: a failure skips the rest. -/
theorem Safe.eff_bind {Q : List ι → Except ε β → Timeline σ → Prop} {x : Eff ε ι σ α}
    {f : α → Eff ε ι σ β} {log : List ι} {h : Timeline σ}
    (hx : Safe R G (fun log' r h' => (∀ a, r = .ok a → Safe R G Q (f a) log' h') ∧
      ∀ e, r = .error e → Q log' (.error e) h') x log h) :
    Safe R G Q (x >>= f : Eff ε ι σ β) log h :=
  Safe.bind (hx.mono fun _ r _ hr => match r, hr with
    | .ok a, hr => hr.1 a rfl
    | .error e, hr => hr.2 e rfl)

/-- A function of what a program returns. -/
theorem Safe.eff_map {Q : List ι → Except ε β → Timeline σ → Prop} {x : Eff ε ι σ α} {f : α → β}
    {log : List ι} {h : Timeline σ}
    (hx : Safe R G (fun log' r h' => Q log' (f <$> r) h') x log h) :
    Safe R G Q (f <$> x : Eff ε ι σ β) log h :=
  Safe.bind (hx.mono fun _ r _ hr => match r, hr with
    | .ok _, hr => hr
    | .error _, hr => hr)

/-- A handler runs from wherever the failure left off. -/
theorem Safe.eff_tryCatch {Q : List ι → Except ε α → Timeline σ → Prop} {x : Eff ε ι σ α}
    {handle : ε → Eff ε ι σ α} {log : List ι} {h : Timeline σ}
    (hx : Safe R G (fun log' r h' => (∀ a, r = .ok a → Q log' (.ok a) h') ∧
      ∀ e, r = .error e → Safe R G Q (handle e) log' h') x log h) :
    Safe R G Q (tryCatch x handle : Eff ε ι σ α) log h :=
  Safe.bind (hx.mono fun _ r _ hr => match r, hr with
    | .ok a, hr => hr.1 a rfl
    | .error e, hr => hr.2 e rfl)

/-- A single action. -/
theorem Safe.eff_action {Q : List ι → Except ε α → Timeline σ → Prop} {label : ι}
    {run : σ → Except ε α × σ} {log : List ι} {h : Timeline σ}
    (hx : ∀ h', R log h h' → G h' (run h'.now).2 ∧
      Q (log ++ [label]) (run h'.now).1 (h'.push (run h'.now).2)) :
    Safe R G Q (Eff.action label run) log h := hx

/-- A read: it keeps to a guarantee that allows doing nothing. -/
theorem Safe.eff_read {Q : List ι → Except ε α → Timeline σ → Prop} {label : ι} {f : σ → α}
    {log : List ι} {h : Timeline σ} (hG : ∀ h' : Timeline σ, G h' h'.now)
    (hx : ∀ h', R log h h' → Q (log ++ [label]) (.ok (f h'.now)) (h'.push h'.now)) :
    Safe R G Q (Eff.read label f) log h := fun h' hR => ⟨hG h', hx h' hR⟩

/-- A program whose actions all keep to the guarantee is safe. -/
theorem Safe.of_within {P : σ → σ → Prop} (hG : ∀ h s, P h.now s → G h s) {p : Prog ι σ α}
    (hp : p.Within P) {log : List ι} {h : Timeline σ} :
    Safe R G (fun _ _ _ => True) p log h := by
  induction p generalizing log h with
  | ret a => trivial
  | act label run next ih => exact fun h' _ => ⟨hG _ _ (hp.1 _), ih _ (hp.2 _)⟩

/-- Where the others change the state within the same `P`, so does the
whole run, up to its end. -/
theorem Safe.of_within_rely {P : σ → σ → Prop} (hrefl : ∀ s, P s s)
    (htrans : ∀ s₁ s₂ s₃, P s₁ s₂ → P s₂ s₃ → P s₁ s₃)
    (hR : ∀ log h h', R log h h' → P h.now h'.now) (hG : ∀ h s, P h.now s → G h s)
    {p : Prog ι σ α} (hp : p.Within P) (log : List ι) (h : Timeline σ) :
    Safe R G (fun _ _ h' => P h.now h'.now) p log h := by
  induction p generalizing log h with
  | ret a => exact hrefl _
  | act label run next ih =>
    intro h' hr
    have hown := hp.1 h'.now
    have hall := htrans _ _ _ (hR log h h' hr) hown
    have hrest := ih _ (hp.2 (run h'.now).1) (log ++ [label]) (h'.push (run h'.now).2)
    exact ⟨hG _ _ hown, hrest.mono fun _ _ _ hq => htrans _ _ _ hall hq⟩

/-- Nothing is asked of any program. -/
theorem Safe.unconstrained {p : Prog ι σ α} {log : List ι} {h : Timeline σ} :
    Safe R (fun _ _ => True) (fun _ _ _ => True) p log h := by
  induction p generalizing log h with
  | ret a => trivial
  | act label run next ih => exact fun _ _ => ⟨trivial, ih _⟩

/-- A program run with nobody interfering meets its postcondition, where
the rely allows nothing to have happened. -/
theorem Safe.exec {Q : List ι → α → Timeline σ → Prop} {I : Timeline σ → Prop}
    (hR : ∀ log h, I h → R log h h) (hG : ∀ h s, I h → G h s → I (h.push s))
    {p : Prog ι σ α} {log : List ι} {h : Timeline σ} (hI : I h) (hp : Safe R G Q p log h) :
    ∃ log' h', h'.now = (p.exec h.now).2 ∧ I h' ∧ Q log' (p.exec h.now).1 h' := by
  induction p generalizing log h with
  | ret a => exact ⟨log, h, rfl, hI, hp⟩
  | act label run next ih =>
    obtain ⟨hg, hs⟩ := hp h (hR log h hI)
    exact ih _ (hG _ _ hI hg) hs

end Safe

/-! ## The rule -/

/-- What a system keeps to: an invariant `I` of the timeline, the way `V`
it evolves, what `W` the others leave alone for a call at a point of its
log, the guarantee `G` of one action and the outcome `Q` of each call. -/
structure Discipline (body : κ → Prog ι σ α) (allowed : κ → Prop) where
  /-- The calls whose window is to be kept: at least those in flight. -/
  Watch : Proc κ ι σ α → Prop
  watch_live : ∀ p, p.Live → Watch p
  I : Timeline σ → Prop
  V : Timeline σ → Timeline σ → Prop
  W : κ → List ι → σ → σ → Prop
  G : Timeline σ → σ → Prop
  Q : κ → List ι → α → Timeline σ → Prop
  evolves_refl : ∀ h, V h h
  evolves_trans : ∀ {h₁ h₂ h₃}, V h₁ h₂ → V h₂ h₃ → V h₁ h₃
  window_refl : ∀ k log s, W k log s s
  window_trans : ∀ {k log s₁ s₂ s₃}, W k log s₁ s₂ → W k log s₂ s₃ → W k log s₁ s₃
  keeps : ∀ {h s}, I h → G h s → I (h.push s) ∧ V h (h.push s)
  body_safe : ∀ k, allowed k → ∀ h, I h →
    Safe (fun log h h' => I h' ∧ V h h' ∧ W k log h.now h'.now) G (Q k) (body k) [] h

namespace Discipline

variable {body : κ → Prog ι σ α} {allowed : κ → Prop} (D : Discipline body allowed)

/-- What a call may rely on between two of its actions. -/
def Rely (k : κ) (log : List ι) (h h' : Timeline σ) : Prop :=
  D.I h' ∧ D.V h h' ∧ D.W k log h.now h'.now

/-- The invariant of a run: the timeline's, and for every call a moment
since when only what it relies on has happened. -/
def Good (c : Config κ ι σ α) : Prop :=
  D.I c.time ∧ ∀ p ∈ c.procs, ∃ h, D.V h c.time ∧
    (D.Watch p → D.W p.call p.log h.now c.time.now) ∧
      Safe (D.Rely p.call) D.G (D.Q p.call) p.prog p.log h

/-- A step leaves the window of every call that is watched alone. -/
def Quiet (c c' : Config κ ι σ α) : Prop :=
  ∀ p ∈ c.procs, D.Watch p → D.W p.call p.log c.time.now c'.time.now

/-- The discipline holds at the start. -/
theorem good_initial {s : σ} (hI : D.I ⟨[], s⟩) : D.Good (Config.initial s) :=
  ⟨hI, fun _ hp => absurd hp (by simp [Config.initial])⟩

/-- **One step changes the shared state within the guarantee.** -/
theorem good_guarantee {c c' : Config κ ι σ α} (hg : D.Good c) (hs : Step body allowed c c') :
    c'.time = c.time ∨ D.G c.time c'.time.now := by
  cases hs with
  | call hk => exact Or.inl rfl
  | act hi =>
    obtain ⟨h, hV, hW, hsafe⟩ := hg.2 _ (List.mem_of_getElem? hi)
    exact Or.inr (hsafe c.time ⟨hg.1, hV, hW (D.watch_live _ fun _ h => nomatch h)⟩).1

/-- **One step keeps the invariant**, where it leaves the windows alone. -/
theorem good_step {c c' : Config κ ι σ α} (hg : D.Good c) (hs : Step body allowed c c')
    (hq : D.Quiet c c') :
    D.Good c' ∧ D.V c.time c'.time := by
  obtain ⟨hI, hp⟩ := hg
  cases hs with
  | call hk =>
    refine ⟨⟨hI, fun p hmem => ?_⟩, D.evolves_refl _⟩
    rcases List.mem_append.mp hmem with hmem | hmem
    · exact hp p hmem
    · obtain rfl := List.mem_singleton.mp hmem
      exact ⟨c.time, D.evolves_refl _, fun _ => D.window_refl _ _ _, D.body_safe _ hk _ hI⟩
  | @act i k log β label run next hi =>
    obtain ⟨h, hV, hW, hsafe⟩ := hp _ (List.mem_of_getElem? hi)
    obtain ⟨hG, hnext⟩ := hsafe c.time ⟨hI, hV, hW (D.watch_live _ fun _ h => nomatch h)⟩
    obtain ⟨hI', hV'⟩ := D.keeps hI hG
    refine ⟨⟨hI', fun p hmem => ?_⟩, hV'⟩
    rcases List.mem_or_eq_of_mem_set hmem with hmem | rfl
    · obtain ⟨h₀, hV₀, hW₀, hs₀⟩ := hp p hmem
      refine ⟨h₀, D.evolves_trans hV₀ hV', fun hl => ?_, hs₀⟩
      exact D.window_trans (hW₀ hl) (hq p hmem hl)
    · exact ⟨_, D.evolves_refl _, fun _ => D.window_refl _ _ _, hnext⟩

/-- **Every run whose steps leave the windows alone keeps the
invariant.** -/
theorem good_run {c c' : Config κ ι σ α} (hg : D.Good c)
    (hr : ReflTransGen (fun a b => Step body allowed a b ∧ D.Quiet a b) c c') :
    D.Good c' ∧ D.V c.time c'.time := by
  induction hr with
  | refl => exact ⟨hg, D.evolves_refl _⟩
  | tail _ hs ih =>
    obtain ⟨hg', hV⟩ := D.good_step ih.1 hs.1 hs.2
    exact ⟨hg', D.evolves_trans ih.2 hV⟩

/-- With no window to keep, every run does. -/
theorem good_reaches (hW : ∀ k log s s', D.W k log s s') {c c' : Config κ ι σ α} (hg : D.Good c)
    (hr : Reaches body allowed c c') : D.Good c' ∧ D.V c.time c'.time :=
  D.good_run hg (hr.lift id fun _ _ hs => ⟨hs, fun _ _ _ => hW _ _ _ _⟩)

/-- What a returned call's outcome says, at the moment it returned. -/
theorem Good.outcome {D : Discipline body allowed} {c : Config κ ι σ α} (hg : D.Good c)
    {p : Proc κ ι σ α} (hp : p ∈ c.procs) {a : α} (ha : p.prog = .ret a) :
    ∃ h, D.V h c.time ∧ (D.Watch p → D.W p.call p.log h.now c.time.now) ∧
      D.Q p.call p.log a h := by
  obtain ⟨h, hV, hW, hs⟩ := hg.2 p hp
  rw [ha] at hs
  exact ⟨h, hV, hW, hs⟩

end Discipline

/-- **What a call returns from its last action**, whatever the others do: the
moment it was taken at, and what it left. -/
theorem outcome_of_last_action {body : κ → Prog ι σ α} {allowed : κ → Prop}
    {Q : κ → List ι → α → Timeline σ → Prop}
    (hbody : ∀ k R h, allowed k → Safe R (fun _ _ => True) (Q k) (body k) [] h) {s : σ}
    {c : Config κ ι σ α} (hr : Reaches body allowed (Config.initial s) c) {i : ℕ} {k : κ}
    {log : List ι} {label : ι} {run : σ → β × σ} {next : β → Prog ι σ α} {a : α}
    (hi : c.procs[i]? = some ⟨k, log, .act label run next⟩)
    (hret : next (run c.time.now).1 = .ret a) :
    Q k (log ++ [label]) a (c.time.push (run c.time.now).2) := by
  let D : Discipline body allowed :=
    { Watch := fun _ => True
      watch_live := fun _ _ => trivial
      I := fun _ => True
      V := fun _ _ => True
      W := fun _ _ _ _ => True
      G := fun _ _ => True
      Q
      evolves_refl := fun _ => trivial
      evolves_trans := fun _ _ => trivial
      window_refl := fun _ _ _ => trivial
      window_trans := fun _ _ => trivial
      keeps := fun _ _ => ⟨trivial, trivial⟩
      body_safe := fun k hk h _ => hbody k _ h hk }
  have hgood : D.Good c :=
    (D.good_reaches (fun _ _ _ _ => trivial) (D.good_initial trivial) hr).1
  obtain ⟨h, -, -, hsafe⟩ := hgood.2 _ (List.mem_of_getElem? hi)
  have hlast := (hsafe c.time ⟨trivial, trivial, trivial⟩).2
  rw [hret] at hlast
  exact hlast

/-- **What every action does, every run does**, where the programs keep to
a reflexive and transitive relation. -/
theorem reaches_within {body : κ → Prog ι σ α} {allowed : κ → Prop} {P : σ → σ → Prop}
    (hrefl : ∀ s, P s s) (htrans : ∀ s₁ s₂ s₃, P s₁ s₂ → P s₂ s₃ → P s₁ s₃)
    (hbody : ∀ k, allowed k → (body k).Within P) {s : σ} {c : Config κ ι σ α}
    (hr : Reaches body allowed (Config.initial s) c) : P s c.time.now := by
  have hrun : P s c.time.now ∧ ∀ p ∈ c.procs, p.prog.Within P := by
    induction hr with
    | refl => exact ⟨hrefl s, fun p hp => absurd hp List.not_mem_nil⟩
    | tail _ hs ih =>
      obtain ⟨hP, hprocs⟩ := ih
      cases hs with
      | call hk =>
        refine ⟨hP, fun p hp => ?_⟩
        rcases List.mem_append.mp hp with hp | hp
        · exact hprocs p hp
        · rw [List.mem_singleton.mp hp]
          exact hbody _ hk
      | act hi =>
        obtain ⟨hact, hnext⟩ := hprocs _ (List.mem_of_getElem? hi)
        refine ⟨htrans _ _ _ hP (hact _), fun p hp => ?_⟩
        rcases List.mem_or_eq_of_mem_set hp with hp | rfl
        · exact hprocs p hp
        · exact hnext _
  exact hrun.1

/-! ## Runs that are given -/

section Runs

variable {body : κ → Prog ι σ α} {allowed : κ → Prop} {c : Config κ ι σ α} {k : κ} {log : List ι}

/-- A call that is where it is. -/
theorem set_of_getElem? {ps : List (Proc κ ι σ α)} {i : ℕ} {q : Proc κ ι σ α}
    (hi : ps[i]? = some q) : ps.set i q = ps := by
  obtain ⟨_, hget⟩ := List.getElem?_eq_some_iff.mp hi
  rw [← hget, List.set_getElem_self]

/-- A call in flight may take any number of actions with nobody in
between. -/
theorem reaches_steps {p : Prog ι σ α} {i : ℕ} (hi : c.procs[i]? = some ⟨k, log, p⟩) (n : ℕ) :
    ∃ log' past, Reaches body allowed c ⟨⟨past, (p.steps n c.time.now).2⟩,
      c.procs.set i ⟨k, log', (p.steps n c.time.now).1⟩⟩ := by
  induction n generalizing c log p with
  | zero => exact ⟨log, c.time.past, by rw [Prog.steps, set_of_getElem? hi]⟩
  | succ n ih =>
    cases p with
    | ret a => exact ⟨log, c.time.past, by rw [Prog.steps, set_of_getElem? hi]⟩
    | act label run next =>
      obtain ⟨hlt, -⟩ := List.getElem?_eq_some_iff.mp hi
      have hnext : (c.procs.set i ⟨k, log ++ [label], next (run c.time.now).1⟩)[i]? =
          some ⟨k, log ++ [label], next (run c.time.now).1⟩ := by
        rw [List.getElem?_set_self hlt]
      obtain ⟨log', past, hr⟩ := ih
        (c := ⟨c.time.push (run c.time.now).2, c.procs.set i ⟨k, log ++ [label], _⟩⟩) hnext
      rw [List.set_set] at hr
      exact ⟨log', past, ReflTransGen.head (Step.act hi) hr⟩

/-- A call in flight may run to its end with nobody in between. -/
theorem reaches_exec {p : Prog ι σ α} {i : ℕ} (hi : c.procs[i]? = some ⟨k, log, p⟩) :
    ∃ log' past, Reaches body allowed c ⟨⟨past, (p.exec c.time.now).2⟩,
      c.procs.set i ⟨k, log', .ret (p.exec c.time.now).1⟩⟩ := by
  obtain ⟨n, hn⟩ := p.exists_steps c.time.now
  obtain ⟨log', past, hr⟩ := reaches_steps hi n
  rw [hn] at hr
  exact ⟨log', past, hr⟩

/-- A permitted call may begin. -/
theorem reaches_begin (hk : allowed k) :
    Reaches body allowed c { c with procs := c.procs ++ [⟨k, [], body k⟩] } :=
  .single (.call hk)

/-- **A permitted call may begin and run to its end alone.** -/
theorem reaches_call (hk : allowed k) :
    ∃ log past, Reaches body allowed c ⟨⟨past, ((body k).exec c.time.now).2⟩,
      c.procs ++ [⟨k, log, .ret ((body k).exec c.time.now).1⟩]⟩ := by
  have hi : (c.procs ++ [⟨k, [], body k⟩])[c.procs.length]? =
      some (⟨k, [], body k⟩ : Proc κ ι σ α) := by simp
  obtain ⟨log, past, hr⟩ := reaches_exec
    (c := { c with procs := c.procs ++ [⟨k, [], body k⟩] }) hi
  rw [List.set_append_right _ _ (Nat.le_refl _), Nat.sub_self, List.set_cons_zero] at hr
  exact ⟨log, past, (reaches_begin hk).trans hr⟩

/-- The state after calls that run one after the other. -/
def runAll (body : κ → Prog ι σ α) : List κ → σ → σ
  | [], s => s
  | k :: ks, s => runAll body ks ((body k).exec s).2

variable (body) in

/-- **Permitted calls may run one after the other.** -/
theorem reaches_runAll {ks : List κ} (hks : ∀ k ∈ ks, allowed k) :
    ∃ c', Reaches body allowed c c' ∧ c'.time.now = runAll body ks c.time.now ∧
      c.procs <+: c'.procs := by
  induction ks generalizing c with
  | nil => exact ⟨c, .refl, rfl, List.prefix_refl _⟩
  | cons k ks ih =>
    obtain ⟨log, past, hr⟩ := reaches_call (c := c) (hks k List.mem_cons_self)
    obtain ⟨c', hr', hnow, hprocs⟩ := ih fun k hk => hks k (List.mem_cons_of_mem _ hk)
    exact ⟨c', hr.trans hr', hnow, (List.prefix_append _ _).trans hprocs⟩

variable (body) in

/-- The last of them has returned what it returns alone. -/
theorem reaches_runAll_call {ks : List κ} (hks : ∀ k ∈ ks, allowed k) (hk : allowed k) :
    ∃ c', Reaches body allowed c c' ∧
      c'.time.now = ((body k).exec (runAll body ks c.time.now)).2 ∧
      ∃ p ∈ c'.procs, p.call = k ∧ p.prog = .ret ((body k).exec (runAll body ks c.time.now)).1 := by
  obtain ⟨c₁, hr₁, hnow, -⟩ := reaches_runAll body (c := c) hks
  obtain ⟨log, past, hr₂⟩ := reaches_call (c := c₁) hk
  rw [hnow] at hr₂
  exact ⟨_, hr₁.trans hr₂, rfl, _, List.mem_append_right _ (List.mem_singleton_self _), rfl, rfl⟩

/-! ## Schedules -/

/-- A scheduler's choice: a call begins, or a call in flight acts. -/
inductive Choice (κ : Type)
  | begin (k : κ)
  | act (i : ℕ)

/-- A choice, carried out where it can be. -/
def Config.choose (body : κ → Prog ι σ α) (allowed : κ → Bool) (c : Config κ ι σ α) :
    Choice κ → Option (Config κ ι σ α)
  | .begin k => if allowed k then some { c with procs := c.procs ++ [⟨k, [], body k⟩] } else none
  | .act i =>
    match c.procs[i]? with
    | some ⟨k, log, .act label run next⟩ => some
        { time := c.time.push (run c.time.now).2
          procs := c.procs.set i ⟨k, log ++ [label], next (run c.time.now).1⟩ }
    | _ => none

/-- A choice that can be made is a step. -/
theorem step_of_choose {test : κ → Bool} {choice : Choice κ} {c' : Config κ ι σ α}
    (hc : c.choose body test choice = some c') : Step body (fun k => test k = true) c c' := by
  cases choice with
  | begin k =>
    simp only [Config.choose] at hc
    split at hc
    · cases hc
      exact .call ‹_›
    · cases hc
  | act i =>
    simp only [Config.choose] at hc
    split at hc
    · rename_i hi
      cases hc
      exact .act hi
    · cases hc

/-- A schedule, carried out as long as every step passes a test. -/
def Config.play (body : κ → Prog ι σ α) (allowed : κ → Bool)
    (passes : Config κ ι σ α → Config κ ι σ α → Bool) :
    List (Choice κ) → Config κ ι σ α → Option (Config κ ι σ α)
  | [], c => some c
  | choice :: rest, c =>
    match c.choose body allowed choice with
    | some c' => if passes c c' then Config.play body allowed passes rest c' else none
    | none => none

/-- **A schedule that was carried out is a run** each step of which
passed. -/
theorem reaches_of_play {test : κ → Bool} {passes : Config κ ι σ α → Config κ ι σ α → Bool}
    {choices : List (Choice κ)} {c' : Config κ ι σ α}
    (hp : c.play body test passes choices = some c') :
    ReflTransGen (fun a b => Step body (fun k => test k = true) a b ∧ passes a b = true) c c' := by
  induction choices generalizing c with
  | nil =>
    cases hp
    exact .refl
  | cons choice rest ih =>
    unfold Config.play at hp
    split at hp
    · rename_i c₁ hc
      split at hp
      · exact .head ⟨step_of_choose hc, ‹_›⟩ (ih hp)
      · cases hp
    · cases hp

end Runs

/-! ## Runs that grant what actions ask for

An action may need something of the moment it is taken at: a condition `Pre`
on its label and the state. A run that grants it at every action keeps
whatever every action keeps where it is granted. -/

/-- Every action of the program that is taken where `I` holds, and where what
it asks for is granted, changes the state within `P`; `Q` holds of what the
program returns. -/
def Prog.Keeps (Pre : ι → σ → Prop) (I : σ → Prop) (P : σ → σ → Prop) (Q : α → Prop) :
    Prog ι σ α → Prop
  | .ret a => Q a
  | .act label run next => ∀ s, I s → (Pre label s → P s (run s).2) ∧
      Prog.Keeps Pre I P Q (next (run s).1)

section Keeps

variable {Pre : ι → σ → Prop} {I : σ → Prop} {P : σ → σ → Prop}

/-- The conclusion may be weakened. -/
theorem Prog.Keeps.mono {Q Q' : α → Prop} (hQ : ∀ a, Q a → Q' a) {p : Prog ι σ α}
    (hp : p.Keeps Pre I P Q) : p.Keeps Pre I P Q' := by
  induction p with
  | ret a => exact hQ a hp
  | act label run next ih => exact fun s hI => ⟨(hp s hI).1, ih _ (hp s hI).2⟩

/-- The rule of sequence. -/
theorem Prog.Keeps.bind {Q : α → Prop} {Q' : β → Prop} {p : Prog ι σ α} {f : α → Prog ι σ β}
    (hp : p.Keeps Pre I P Q) (hf : ∀ a, Q a → (f a).Keeps Pre I P Q') :
    (p.bind f).Keeps Pre I P Q' := by
  induction p with
  | ret a => exact hf a hp
  | act label run next ih => exact fun s hI => ⟨(hp s hI).1, ih _ (hp s hI).2⟩

/-- A part that may fail: `Q` of what it returns. -/
def Eff.Keeps (Pre : ι → σ → Prop) (I : σ → Prop) (P : σ → σ → Prop) (Q : α → Prop)
    (x : Eff ε ι σ α) : Prop :=
  Prog.Keeps Pre I P (fun r : Except ε α => ∀ a, r = .ok a → Q a) x

theorem Eff.Keeps.pure {Q : α → Prop} {a : α} (ha : Q a) :
    (Pure.pure a : Eff ε ι σ α).Keeps Pre I P Q := by
  intro b hb
  cases hb
  exact ha

theorem Eff.Keeps.ofExcept {Q : α → Prop} {δ : Type} {raise : δ → ε} {r : Except δ α}
    (hr : ∀ a, r = .ok a → Q a) : (Eff.ofExcept raise r : Eff ε ι σ α).Keeps Pre I P Q := by
  cases r with
  | error d => exact fun a ha => nomatch ha
  | ok b => exact Eff.Keeps.pure (hr b rfl)

/-- The rule of sequence, with exceptions. -/
theorem Eff.Keeps.bind {Q : α → Prop} {Q' : β → Prop} {x : Eff ε ι σ α} {f : α → Eff ε ι σ β}
    (hx : x.Keeps Pre I P Q) (hf : ∀ a, Q a → (f a).Keeps Pre I P Q') :
    (x >>= f : Eff ε ι σ β).Keeps Pre I P Q' := by
  refine Prog.Keeps.bind hx fun r hr => ?_
  rcases r with e | a
  · intro b hb
    cases hb
  · exact hf a (hr a rfl)

theorem Eff.Keeps.throw {Q : α → Prop} {e : ε} :
    (MonadExcept.throw e : Eff ε ι σ α).Keeps Pre I P Q := fun _ ha => nomatch ha

/-- The rule of handlers. -/
theorem Eff.Keeps.tryCatch {Q : α → Prop} {x : Eff ε ι σ α} {handle : ε → Eff ε ι σ α}
    (hx : x.Keeps Pre I P Q) (hhandle : ∀ e, (handle e).Keeps Pre I P Q) :
    (MonadExcept.tryCatch x handle : Eff ε ι σ α).Keeps Pre I P Q := by
  refine Prog.Keeps.bind hx fun r hr => ?_
  rcases r with e | a
  · exact hhandle e
  · exact Eff.Keeps.pure (hr a rfl)

theorem Eff.Keeps.map {Q : α → Prop} {Q' : β → Prop} {x : Eff ε ι σ α} {f : α → β}
    (hx : x.Keeps Pre I P Q) (hf : ∀ a, Q a → Q' (f a)) :
    (f <$> x : Eff ε ι σ β).Keeps Pre I P Q' := by
  refine Prog.Keeps.bind hx fun r hr => ?_
  rcases r with e | a
  · intro b hb
    cases hb
  · intro b hb
    cases hb
    exact hf a (hr a rfl)

/-- The rule of one action. -/
theorem Eff.Keeps.action {Q : α → Prop} {label : ι} {run : σ → Except ε α × σ}
    (hx : ∀ s, I s → (Pre label s → P s (run s).2) ∧ ∀ a, (run s).1 = .ok a → Q a) :
    (Eff.action label run).Keeps Pre I P Q := hx

end Keeps

/-- A step in which the call that acts is granted what its action asks
for. -/
inductive GrantedStep (body : κ → Prog ι σ α) (allowed : κ → Prop) (Pre : κ → ι → σ → Prop) :
    Config κ ι σ α → Config κ ι σ α → Prop
  | call {c : Config κ ι σ α} {k : κ} (hk : allowed k) :
      GrantedStep body allowed Pre c { c with procs := c.procs ++ [⟨k, [], body k⟩] }
  | act {c : Config κ ι σ α} {i : ℕ} {k : κ} {log : List ι} {β : Type} {label : ι}
      {run : σ → β × σ} {next : β → Prog ι σ α}
      (hi : c.procs[i]? = some ⟨k, log, .act label run next⟩) (hpre : Pre k label c.time.now) :
      GrantedStep body allowed Pre c
        { time := c.time.push (run c.time.now).2
          procs := c.procs.set i ⟨k, log ++ [label], next (run c.time.now).1⟩ }

/-- Where nothing is asked for, every step grants. -/
theorem Step.granted {body : κ → Prog ι σ α} {allowed : κ → Prop} {c c' : Config κ ι σ α}
    (hs : Step body allowed c c') : GrantedStep body allowed (fun _ _ _ => True) c c' := by
  cases hs with
  | call hk => exact .call hk
  | act hi => exact .act hi trivial

section Granted

variable {body : κ → Prog ι σ α} {allowed : κ → Prop} {Pre : κ → ι → σ → Prop}
variable {I : σ → Prop} {P : κ → σ → σ → Prop} {Q : α → Prop} {c c' : Config κ ι σ α}

/-- A granted step stays one when more is granted. -/
theorem GrantedStep.mono {Pre' : κ → ι → σ → Prop} (ha : ∀ k l s, Pre k l s → Pre' k l s)
    {allowed' : κ → Prop} (hk : ∀ k, allowed k → allowed' k)
    (hs : GrantedStep body allowed Pre c c') : GrantedStep body allowed' Pre' c c' := by
  cases hs with
  | call h => exact .call (hk _ h)
  | act hi hpre => exact .act hi (ha _ _ _ hpre)

/-- The invariant, and what is left of every call keeps it. -/
def Keeping (Pre : κ → ι → σ → Prop) (I : σ → Prop) (P : κ → σ → σ → Prop) (Q : α → Prop)
    (c : Config κ ι σ α) : Prop :=
  I c.time.now ∧ ∀ p ∈ c.procs, p.prog.Keeps (Pre p.call) I (P p.call) Q

/-- An action that is granted changes the state as its call does. -/
theorem Keeping.act {i : ℕ} {k : κ} {log : List ι} {β : Type} {label : ι} {run : σ → β × σ}
    {next : β → Prog ι σ α} (hc : Keeping Pre I P Q c)
    (hi : c.procs[i]? = some ⟨k, log, .act label run next⟩) (hpre : Pre k label c.time.now) :
    P k c.time.now (run c.time.now).2 :=
  (hc.2 _ (List.mem_of_getElem? hi) c.time.now hc.1).1 hpre

/-- **A step that grants keeps the invariant.** -/
theorem Keeping.step (hP : ∀ k s s', I s → P k s s' → I s')
    (hbody : ∀ k, allowed k → (body k).Keeps (Pre k) I (P k) Q) (hc : Keeping Pre I P Q c)
    (hs : GrantedStep body allowed Pre c c') : Keeping Pre I P Q c' := by
  cases hs with
  | call hk =>
    refine ⟨hc.1, fun p hp => ?_⟩
    rcases List.mem_append.mp hp with hp | hp
    · exact hc.2 p hp
    · rw [List.mem_singleton.mp hp]
      exact hbody _ hk
  | @act i k log β label run next hi hpre =>
    refine ⟨hP k _ _ hc.1 (hc.act hi hpre), fun p hp => ?_⟩
    rcases List.mem_or_eq_of_mem_set hp with hp | rfl
    · exact hc.2 p hp
    · exact (hc.2 _ (List.mem_of_getElem? hi) c.time.now hc.1).2

/-- **So does a run whose steps all grant.** -/
theorem Keeping.run (hP : ∀ k s s', I s → P k s s' → I s')
    (hbody : ∀ k, allowed k → (body k).Keeps (Pre k) I (P k) Q) (hc : Keeping Pre I P Q c)
    (hr : ReflTransGen (GrantedStep body allowed Pre) c c') : Keeping Pre I P Q c' := by
  induction hr with
  | refl => exact hc
  | tail _ hs ih => exact ih.step hP hbody hs

/-- Nothing has been done at the start. -/
theorem keeping_initial {s : σ} (hI : I s) :
    Keeping Pre I P Q (Config.initial s : Config κ ι σ α) :=
  ⟨hI, fun _ hp => absurd hp List.not_mem_nil⟩

/-- A choice whose action is granted what it asks for. -/
def Config.grants (test : κ → ι → σ → Bool) (c : Config κ ι σ α) : Choice κ → Bool
  | .begin _ => true
  | .act i =>
    match c.procs[i]? with
    | some ⟨k, _, .act label _ _⟩ => test k label c.time.now
    | _ => false

/-- A schedule, carried out as long as every action is granted. -/
def Config.playGranted (body : κ → Prog ι σ α) (allowed : κ → Bool) (test : κ → ι → σ → Bool) :
    List (Choice κ) → Config κ ι σ α → Option (Config κ ι σ α)
  | [], c => some c
  | choice :: rest, c =>
    if c.grants test choice then
      (c.choose body allowed choice).bind (Config.playGranted body allowed test rest)
    else none

/-- **A schedule that was granted is such a run.** -/
theorem granted_of_play {allow : κ → Bool} {test : κ → ι → σ → Bool} {choices : List (Choice κ)}
    (hp : c.playGranted body allow test choices = some c') :
    ReflTransGen (GrantedStep body (fun k => allow k = true) fun k l s => test k l s = true)
      c c' := by
  induction choices generalizing c with
  | nil =>
    cases hp
    exact .refl
  | cons choice rest ih =>
    unfold Config.playGranted at hp
    split at hp
    · rename_i hgrants
      obtain ⟨c₁, hc, hrest⟩ := Option.bind_eq_some_iff.mp hp
      refine .head ?_ (ih hrest)
      cases choice with
      | begin k =>
        simp only [Config.choose] at hc
        split at hc
        · cases hc
          exact .call ‹_›
        · cases hc
      | act i =>
        simp only [Config.choose] at hc
        simp only [Config.grants] at hgrants
        split at hc
        · rename_i hi
          cases hc
          rw [hi] at hgrants
          exact .act hi hgrants
        · cases hc
    · cases hp

end Granted

end Interleaving
