import Mathlib.Data.List.Basic
/-!
# States under constraints

A database that checks its constraints as each statement ends: a state that
satisfies them, statements that are refused where they would not be satisfied,
and transactions, which leave everything as it was where they raise.
-/

namespace Relational

/-- A state all of whose constraints hold. -/
abbrev Constrained {τ : Type} (Sound : τ → Prop) : Type := {t : τ // Sound t}

variable {τ ε α β : Type} {Sound : τ → Prop}

/-- A sequence of statements, which may raise. -/
abbrev Statement (ε : Type) (Sound : τ → Prop) (α : Type) : Type :=
  StateT (Constrained Sound) (Except ε) α

namespace Statement

/-- One statement: refused where a constraint would not hold after it. -/
def execute [DecidablePred Sound] (refusal : ε) (f : τ → τ) : Statement ε Sound Unit :=
  fun d => if h : Sound (f d.val) then .ok ((), ⟨f d.val, h⟩) else .error refusal

/-- A query. -/
def query (f : τ → α) : Statement ε Sound α := fun d => .ok (f d.val, d)

/-- A check. -/
def check (r : Except ε α) : Statement ε Sound α := fun d =>
  match r with
  | .ok a => .ok (a, d)
  | .error e => .error e

/-- A transaction: what it answers, and the state it leaves. -/
def transaction (x : Statement ε Sound α) (d : Constrained Sound) :
    Except ε α × Constrained Sound :=
  match x d with
  | .ok (a, d') => (.ok a, d')
  | .error e => (.error e, d)

/-- **A transaction that raises changes nothing.** -/
theorem transaction_error {x : Statement ε Sound α} {d : Constrained Sound} {e : ε}
    (h : (x.transaction d).1 = .error e) : (x.transaction d).2 = d := by
  unfold transaction at h ⊢
  split
  · rename_i hx
    rw [hx] at h
    cases h
  · rfl

/-- A transaction that commits is its statement. -/
theorem transaction_eq_ok {x : Statement ε Sound α} {d d' : Constrained Sound} {a : α} :
    x.transaction d = (.ok a, d') ↔ x d = .ok (a, d') := by
  unfold transaction
  split
  · rename_i hx
    rw [hx]
    constructor
    · intro h
      cases h
      rfl
    · intro h
      cases h
      rfl
  · rename_i hx
    rw [hx]
    exact ⟨fun h => (by cases h), fun h => (by cases h)⟩

/-! ## Running -/

variable [DecidablePred Sound] {refusal e : ε} {f : τ → τ} {d d' d'' : Constrained Sound}

/-- An execution that succeeds applied its change. -/
@[simp] theorem execute_eq_ok {u : Unit} :
    (execute refusal f : Statement ε Sound Unit) d = .ok (u, d') ↔ d'.val = f d.val := by
  unfold execute
  split
  · constructor
    · intro h
      cases h
      rfl
    · intro h
      congr 2
      exact Subtype.ext h.symm
  · rename_i hnot
    constructor
    · intro h
      cases h
    · intro h
      exact absurd (h ▸ d'.property) hnot

/-- A statement that keeps the constraints is carried out. -/
theorem execute_of_sound (h : Sound (f d.val)) :
    (execute refusal f : Statement ε Sound Unit) d = .ok ((), ⟨f d.val, h⟩) := dif_pos h

omit [DecidablePred Sound] in
/-- A query changes nothing. -/
@[simp] theorem query_eq_ok {g : τ → α} {a : α} :
    (query g : Statement ε Sound α) d = .ok (a, d') ↔ g d.val = a ∧ d = d' := by
  unfold query
  constructor
  · intro h
    cases h
    exact ⟨rfl, rfl⟩
  · rintro ⟨rfl, rfl⟩
    rfl

omit [DecidablePred Sound] in
@[simp] theorem check_eq_ok {r : Except ε α} {a : α} :
    (check r : Statement ε Sound α) d = .ok (a, d') ↔ r = .ok a ∧ d = d' := by
  unfold check
  split
  · constructor
    · intro h
      cases h
      exact ⟨rfl, rfl⟩
    · rintro ⟨h, rfl⟩
      cases h
      rfl
  · exact ⟨fun h => (by cases h), fun h => (by cases h.1)⟩

omit [DecidablePred Sound] in
@[simp] theorem pure_eq_ok {a b : α} :
    (pure a : Statement ε Sound α) d = .ok (b, d') ↔ a = b ∧ d = d' := by
  constructor
  · intro h
    cases h
    exact ⟨rfl, rfl⟩
  · rintro ⟨rfl, rfl⟩
    rfl

omit [DecidablePred Sound] in
@[simp] theorem throw_ne_ok {b : α} :
    (throw e : Statement ε Sound α) d ≠ .ok (b, d') := by
  intro h
  cases h

omit [DecidablePred Sound] in
/-- A sequence that succeeds, taken apart. -/
theorem bind_eq_ok {x : Statement ε Sound α} {g : α → Statement ε Sound β} {b : β} :
    (x >>= g) d = .ok (b, d'') ↔ ∃ a d', x d = .ok (a, d') ∧ g a d' = .ok (b, d'') := by
  show (x d >>= fun p => g p.1 p.2) = .ok (b, d'') ↔ _
  rcases x d with e | ⟨a, d'⟩
  · constructor
    · intro h
      cases h
    · rintro ⟨a, d', h, -⟩
      cases h
  · constructor
    · intro h
      exact ⟨a, d', rfl, h⟩
    · rintro ⟨a', d₁, h, hg⟩
      cases h
      exact hg

/-- **A loop of statements** goes through where every state on the way keeps
the constraints. -/
theorem forM_execute_eq_ok {γ : Type} {xs : List γ} {f : γ → τ → τ} {u : Unit} :
    (xs.forM fun x => (execute refusal (f x) : Statement ε Sound Unit)) d = .ok (u, d') ↔
      (∀ pre, pre <+: xs → Sound (pre.foldl (fun t x => f x t) d.val)) ∧
        d'.val = xs.foldl (fun t x => f x t) d.val := by
  induction xs generalizing d with
  | nil =>
    have hnil : ∀ pre : List γ, pre <+: [] → Sound (pre.foldl (fun t x => f x t) d.val) := by
      intro pre hpre
      rw [List.prefix_nil.mp hpre]
      exact d.property
    show (pure () : Statement ε Sound Unit) d = .ok (u, d') ↔ _
    rw [pure_eq_ok]
    constructor
    · rintro ⟨-, rfl⟩
      exact ⟨hnil, rfl⟩
    · rintro ⟨-, h⟩
      exact ⟨rfl, Subtype.ext h.symm⟩
  | cons x xs ih =>
    show (execute refusal (f x) >>= fun _ => xs.forM fun x => execute refusal (f x)) d = _ ↔ _
    rw [bind_eq_ok]
    constructor
    · rintro ⟨a, d₁, hx, hxs⟩
      obtain ⟨hpre, hfold⟩ := ih.mp hxs
      have h₁ := execute_eq_ok.mp hx
      refine ⟨?_, by rw [hfold, h₁]; rfl⟩
      intro pre hp
      -- a prefix is empty, or starts with the statement that went through
      rcases pre with - | ⟨y, pre⟩
      · exact d.property
      · obtain ⟨rfl, hp'⟩ := List.cons_prefix_cons.mp hp
        have := hpre pre hp'
        rwa [h₁] at this
    · rintro ⟨hpre, hfold⟩
      have hx : Sound (f x d.val) := hpre [x] (by simp)
      refine ⟨(), ⟨f x d.val, hx⟩, execute_of_sound hx, ih.mpr ⟨?_, hfold⟩⟩
      intro pre hp
      exact hpre (x :: pre) (List.cons_prefix_cons.mpr ⟨rfl, hp⟩)

/-! ## What a sequence may do

A relation between the state a sequence is run on and the state it leaves,
step by step. -/

section Within

variable {R : τ → τ → Prop}

/-- Run on `d`, the sequence keeps to the relation. -/
def WithinAt (R : τ → τ → Prop) (x : Statement ε Sound α) (d : Constrained Sound) : Prop :=
  ∀ a d', x d = .ok (a, d') → R d.val d'.val

/-- It keeps to the relation wherever it is run. -/
def Within (R : τ → τ → Prop) (x : Statement ε Sound α) : Prop := ∀ d, WithinAt R x d

omit [DecidablePred Sound] in
theorem withinAt_pure (hrefl : ∀ t, R t t) {a : α} :
    WithinAt R (pure a : Statement ε Sound α) d := by
  intro b d' h
  obtain ⟨-, rfl⟩ := pure_eq_ok.mp h
  exact hrefl _

/-- An execution stays within a relation if its change does. -/
theorem withinAt_execute (h : R d.val (f d.val)) :
    WithinAt R (execute refusal f : Statement ε Sound Unit) d := by
  intro u d' hx
  rw [execute_eq_ok.mp hx]
  exact h

omit [DecidablePred Sound] in
/-- One sequence after the other. -/
theorem WithinAt.bind (htrans : ∀ a b c, R a b → R b c → R a c)
    {x : Statement ε Sound α} {k : α → Statement ε Sound β} (hx : WithinAt R x d)
    (hk : ∀ a d', x d = .ok (a, d') → WithinAt R (k a) d') : WithinAt R (x >>= k) d := by
  intro b d' h
  obtain ⟨a, d₁, h₁, h₂⟩ := bind_eq_ok.mp h
  exact htrans _ _ _ (hx a d₁ h₁) (hk a d₁ h₁ b d' h₂)

omit [DecidablePred Sound] in
/-- A query before the rest. -/
theorem withinAt_query {g : τ → α} {k : α → Statement ε Sound β}
    (hk : WithinAt R (k (g d.val)) d) :
    WithinAt R ((query g : Statement ε Sound α) >>= k) d := by
  intro b d' h
  obtain ⟨a, d₁, h₁, h₂⟩ := bind_eq_ok.mp h
  obtain ⟨rfl, rfl⟩ := query_eq_ok.mp h₁
  exact hk b d' h₂

omit [DecidablePred Sound] in
/-- A loop stays within a relation if its body does. -/
theorem within_forM (hrefl : ∀ t, R t t) (htrans : ∀ a b c, R a b → R b c → R a c)
    {γ : Type} {xs : List γ} {k : γ → Statement ε Sound Unit} (hk : ∀ x ∈ xs, Within R (k x)) :
    Within R (xs.forM k) := by
  induction xs with
  | nil => exact fun d => withinAt_pure hrefl
  | cons x xs ih =>
    intro d
    show WithinAt R (k x >>= fun _ => xs.forM k) d
    exact (hk x List.mem_cons_self d).bind htrans fun _ d' _ =>
      ih (fun y hy => hk y (List.mem_cons_of_mem _ hy)) d'

omit [DecidablePred Sound] in
/-- So does a loop that collects. -/
theorem within_mapM (hrefl : ∀ t, R t t) (htrans : ∀ a b c, R a b → R b c → R a c)
    {γ : Type} {xs : List γ} {k : γ → Statement ε Sound β} (hk : ∀ x ∈ xs, Within R (k x)) :
    Within R (xs.mapM k) := by
  induction xs with
  | nil =>
    rw [List.mapM_nil]
    exact fun d => withinAt_pure hrefl
  | cons x xs ih =>
    intro d
    rw [List.mapM_cons]
    exact (hk x List.mem_cons_self d).bind htrans fun b d' _ =>
      (ih (fun y hy => hk y (List.mem_cons_of_mem _ hy)) d').bind htrans fun _ _ _ =>
        withinAt_pure hrefl

omit [DecidablePred Sound] in
/-- What a call leaves: everything as it was, where it raises. -/
theorem WithinAt.transaction {x : Statement ε Sound α} (hrefl : ∀ t, R t t)
    (hx : WithinAt R x d) : R d.val (x.transaction d).2.val := by
  rcases h : x.transaction d with ⟨e | a, d'⟩
  · have := transaction_error (congrArg Prod.fst h)
    rw [h] at this
    rw [show d' = d from this]
    exact hrefl _
  · exact hx a d' (transaction_eq_ok.mp h)

end Within

end Statement

/-! ## Rows written back

Saved rows are written back one by one, each into the row of its
identifier. -/

section WrittenBack

variable {ρ ν : Type} [DecidableEq ν] (id : ρ → ν) (restore : ρ → ρ → ρ)

/-- What became of a row when the saved rows were written back. -/
def writtenBack (saved : List ρ) (r : ρ) : ρ :=
  saved.foldl (fun r s => if id r = id s then restore s r else r) r

variable {id : ρ → ν} {restore : ρ → ρ → ρ} {saved : List ρ} {r r' : ρ}
variable (hid : ∀ s r, id (restore s r) = id r) (hself : restore r r = r)
variable (hsaved : ∀ s ∈ saved, id s = id r → s = r)
include hself hsaved

/-- A row that stands as it was saved stays. -/
theorem writtenBack_self : writtenBack id restore saved r = r := by
  induction saved with
  | nil => rfl
  | cons s saved ih =>
    have hstep : (if id r = id s then restore s r else r) = r := by
      split
      · rename_i hs
        rw [hsaved s List.mem_cons_self hs.symm, hself]
      · rfl
    show writtenBack id restore saved (if id r = id s then restore s r else r) = r
    rw [hstep]
    exact ih fun s hs => hsaved s (List.mem_cons_of_mem _ hs)

include hid

/-- A changed row is as it was saved, or not yet written back. -/
theorem writtenBack_changed (hback : restore r r' = r) :
    (r ∈ saved → writtenBack id restore saved r' = r) ∧
      (r ∉ saved → writtenBack id restore saved r' = r') := by
  have hr' : id r' = id r := by rw [← hid r r', hback]
  induction saved with
  | nil => exact ⟨fun h => absurd h List.not_mem_nil, fun _ => rfl⟩
  | cons s saved ih =>
    have hrest : ∀ s ∈ saved, id s = id r → s = r :=
      fun s hs => hsaved s (List.mem_cons_of_mem _ hs)
    show (_ → writtenBack id restore saved (if id r' = id s then restore s r' else r') = r) ∧
      (_ → writtenBack id restore saved (if id r' = id s then restore s r' else r') = r')
    by_cases hs : s = r
    · rw [hs, if_pos hr', hback]
      refine ⟨fun _ => writtenBack_self hself hrest, fun h => absurd List.mem_cons_self h⟩
    · have hne : ¬ id r' = id s := by
        intro h
        exact hs (hsaved s List.mem_cons_self (h.symm.trans hr'))
      rw [if_neg hne]
      refine ⟨fun h => (ih hrest).1 ?_, fun h => (ih hrest).2 ?_⟩
      · exact (List.mem_cons.mp h).resolve_left (Ne.symm hs)
      · exact fun hmem => h (List.mem_cons_of_mem _ hmem)

end WrittenBack

end Relational
