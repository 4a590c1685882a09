import Mathlib.Data.List.Forall2
/-!
# Checked records

A frozen record whose constructor refuses some values: the fields, and
the fact that the check passed. A value of the subtype cannot be built
without it, so a proof about a record may read its check off the record.
-/

namespace Checked

variable {α β γ ε : Type} {check : α → Except ε Unit} {a : α} {e : ε}

/-- The constructor: the check's verdict, with the value where it
passes. -/
def make (check : α → Except ε Unit) (a : α) : Except ε {a : α // check a = .ok ()} :=
  match h : check a with
  | .ok () => .ok ⟨a, h⟩
  | .error e => .error e

/-- What passes its check is made. -/
theorem make_of_ok (h : check a = .ok ()) : make check a = .ok ⟨a, h⟩ := by
  unfold make
  split
  · rfl
  · rename_i e he
    rw [h] at he
    cases he

/-- What fails it is not. -/
theorem make_of_error (h : check a = .error e) : make check a = .error e := by
  unfold make
  split
  · rename_i he
    rw [h] at he
    cases he
  · rename_i e' he
    rw [h] at he
    cases he
    rfl

/-- What is built is what was asked for. -/
theorem make_eq_ok {x : {a : α // check a = .ok ()}} : make check a = .ok x ↔ x.val = a := by
  constructor
  · intro hm
    rcases hc : check a with e | ⟨⟩
    · rw [make_of_error hc] at hm
      cases hm
    · rw [make_of_ok hc] at hm
      cases hm
      rfl
  · rintro rfl
    rw [make_of_ok x.2]

/-- The check of a sequence passes where each of its parts does. -/
theorem bind_eq_ok {x y : Except ε Unit} :
    (x >>= fun _ => y) = .ok () ↔ x = .ok () ∧ y = .ok () := by
  rcases x with e | ⟨⟩
  · constructor
    · intro h
      cases h
    · rintro ⟨h, -⟩
      cases h
  · exact ⟨fun h => ⟨rfl, h⟩, fun h => h.2⟩

/-- A sequence that succeeds, taken apart. -/
theorem bind_eq_ok_iff {x : Except ε α} {f : α → Except ε β} {b : β} :
    (x >>= f) = .ok b ↔ ∃ a, x = .ok a ∧ f a = .ok b := by
  rcases x with e | a
  · constructor
    · intro h
      cases h
    · rintro ⟨a, h, -⟩
      cases h
  · exact ⟨fun h => ⟨a, rfl, h⟩, fun ⟨_, h, hf⟩ => by cases h; exact hf⟩

theorem toOption_eq_some {x : Except ε α} : x.toOption = some a ↔ x = .ok a := by
  rcases x with e | b
  · constructor <;> intro h <;> cases h
  · exact ⟨fun h => by cases h; rfl, fun h => by cases h; rfl⟩

/-- A sequence whose first part is known to succeed. -/
theorem bind_of_eq_ok {x : Except ε α} {f : α → Except ε β} {a : α} {b : β} (hx : x = .ok a)
    (hf : f a = .ok b) : (x >>= f) = .ok b :=
  bind_eq_ok_iff.mpr ⟨a, hx, hf⟩

/-- A result is bound to a result. -/
theorem exists_bind_eq_ok {x : Except ε α} {f : α → Except ε β} (hx : ∃ a, x = .ok a)
    (hf : ∀ a, ∃ b, f a = .ok b) : ∃ b, (x >>= f) = .ok b := by
  obtain ⟨a, ha⟩ := hx
  obtain ⟨b, hb⟩ := hf a
  exact ⟨b, bind_of_eq_ok ha hb⟩

/-- A traversal that succeeds, read through a view of its results. -/
theorem map_of_mapM_eq_ok {f : α → Except ε β} {v : β → γ} {g : α → γ}
    (hfg : ∀ a b, f a = .ok b → v b = g a) {as : List α} {bs : List β}
    (h : as.mapM f = .ok bs) : bs.map v = as.map g := by
  induction as generalizing bs with
  | nil =>
    cases h
    rfl
  | cons a as ih =>
    rw [List.mapM_cons] at h
    obtain ⟨b, hb, h⟩ := bind_eq_ok_iff.mp h
    obtain ⟨bs', hbs, h⟩ := bind_eq_ok_iff.mp h
    cases h
    rw [List.map_cons, List.map_cons, hfg a b hb, ih hbs]

/-- What holds of every result of a traversal is what its elements decide. -/
theorem forall_mem_mapM {f : α → Except ε β} {Q : α → Prop} {R : β → Prop} {as : List α}
    (hf : ∀ a ∈ as, ∀ b, f a = .ok b → (R b ↔ Q a)) {bs : List β} (h : as.mapM f = .ok bs) :
    (∀ b ∈ bs, R b) ↔ ∀ a ∈ as, Q a := by
  induction as generalizing bs with
  | nil =>
    cases h
    simp
  | cons a as ih =>
    rw [List.mapM_cons] at h
    obtain ⟨b, hb, h⟩ := bind_eq_ok_iff.mp h
    obtain ⟨rest, hrest, h⟩ := bind_eq_ok_iff.mp h
    cases h
    rw [List.forall_mem_cons, List.forall_mem_cons, hf a List.mem_cons_self b hb,
      ih (fun a' ha' => hf a' (List.mem_cons_of_mem a ha')) hrest]

/-- A result of a traversal is the result of an element. -/
theorem exists_of_mem_mapM {f : α → Except ε β} {as : List α} {bs : List β}
    (h : as.mapM f = .ok bs) {b : β} (hb : b ∈ bs) : ∃ a ∈ as, f a = .ok b := by
  induction as generalizing bs with
  | nil =>
    cases h
    cases hb
  | cons a as ih =>
    rw [List.mapM_cons] at h
    obtain ⟨b', hb', h⟩ := bind_eq_ok_iff.mp h
    obtain ⟨rest, hrest, h⟩ := bind_eq_ok_iff.mp h
    cases h
    rcases List.mem_cons.mp hb with rfl | hb
    · exact ⟨a, List.mem_cons_self, hb'⟩
    · obtain ⟨a', ha', hfa⟩ := ih hrest hb
      exact ⟨a', List.mem_cons_of_mem _ ha', hfa⟩

/-- Traversals whose steps succeed alike succeed alike. -/
theorem mapM_eq_ok_congr {f g : α → Except ε β} (h : ∀ a b, f a = .ok b ↔ g a = .ok b)
    {as : List α} {bs : List β} : as.mapM f = .ok bs ↔ as.mapM g = .ok bs := by
  induction as generalizing bs with
  | nil => rfl
  | cons a as ih =>
    rw [List.mapM_cons, List.mapM_cons]
    simp only [bind_eq_ok_iff, h, ih]

/-- A traversal that undoes a map. -/
theorem mapM_map_eq_ok {f : β → Except ε α} {g : α → β} (h : ∀ a, f (g a) = .ok a)
    (as : List α) : (as.map g).mapM f = .ok as := by
  induction as with
  | nil => rfl
  | cons a as ih =>
    rw [List.map_cons, List.mapM_cons, h, ih]
    rfl

/-- A traversal each step of which is known. -/
theorem mapM_eq_ok_map {f : α → Except ε β} {g : α → β} {as : List α}
    (h : ∀ a ∈ as, f a = .ok (g a)) : as.mapM f = .ok (as.map g) := by
  induction as with
  | nil => rfl
  | cons a as ih =>
    rw [List.mapM_cons, h a List.mem_cons_self, ih fun b hb => h b (List.mem_cons_of_mem _ hb)]
    rfl

/-- A traversal, seen through a view of its results. -/
theorem map_mapM (f : α → Except ε β) (v : β → γ) (as : List α) :
    (as.mapM f).map (List.map v) = as.mapM fun a => (f a).map v := by
  induction as with
  | nil => rfl
  | cons a as ih =>
    rw [List.mapM_cons, List.mapM_cons, ← ih]
    cases f a with
    | error e => rfl
    | ok b => cases as.mapM f <;> rfl

/-- Two lists that are traversed alike, element by element. -/
theorem mapM_congr_forall₂ {f : α → Except ε β} {as as' : List α}
    (h : List.Forall₂ (fun a a' => f a = f a') as as') : as.mapM f = as'.mapM f := by
  induction h with
  | nil => rfl
  | cons ha _ ih => rw [List.mapM_cons, List.mapM_cons, ha, ih]

/-- A traversal of values each read off one of a list. -/
theorem exists_mapM_of_forall₂ {f : α → Except ε β} {R : α → γ → Prop} {Q : β → γ → Prop}
    {as : List α} {cs : List γ} (hf : ∀ a c, R a c → ∃ b, f a = .ok b ∧ Q b c)
    (h : List.Forall₂ R as cs) : ∃ bs, as.mapM f = .ok bs ∧ List.Forall₂ Q bs cs := by
  induction h with
  | nil => exact ⟨[], rfl, .nil⟩
  | cons hac _ ih =>
    obtain ⟨b, hb, hq⟩ := hf _ _ hac
    obtain ⟨bs, hbs, hall⟩ := ih
    refine ⟨b :: bs, ?_, .cons hq hall⟩
    rw [List.mapM_cons]
    exact bind_of_eq_ok hb (bind_of_eq_ok hbs rfl)

/-- Where each is read back as it was. -/
theorem mapM_eq_ok_of_forall₂ {f : α → Except ε β} {R : α → β → Prop} {as : List α} {bs : List β}
    (hf : ∀ a b, R a b → f a = .ok b) (h : List.Forall₂ R as bs) : as.mapM f = .ok bs := by
  induction h with
  | nil => rfl
  | cons hab _ ih =>
    rw [List.mapM_cons]
    exact bind_of_eq_ok (hf _ _ hab) (bind_of_eq_ok ih rfl)

theorem mapError_eq_ok {ε' : Type} {f : ε → ε'} {x : Except ε α} {a : α} :
    x.mapError f = .ok a ↔ x = .ok a := by
  cases x with
  | error e => exact iff_of_false (fun h => by cases h) fun h => by cases h
  | ok b =>
    exact ⟨fun h => congrArg Except.ok (Except.ok.inj h),
      fun h => congrArg Except.ok (Except.ok.inj h)⟩

/-- One clause of a check. -/
def ensure (p : Prop) [Decidable p] (e : ε) : Except ε Unit := if p then .ok () else .error e

/-- A condition is ensured exactly if it holds. -/
@[simp] theorem ensure_eq_ok {p : Prop} [Decidable p] : ensure p e = .ok () ↔ p := by
  unfold ensure
  split <;> simp_all

/-- A check of every element of a list, first to last. -/
def ensureAll (check : α → Except ε Unit) : List α → Except ε Unit
  | [] => .ok ()
  | a :: as => check a >>= fun _ => ensureAll check as

/-- A check of all is one of each. -/
@[simp] theorem ensureAll_eq_ok {as : List α} :
    ensureAll check as = .ok () ↔ ∀ a ∈ as, check a = .ok () := by
  induction as with
  | nil => simp [ensureAll]
  | cons a as ih => rw [ensureAll, bind_eq_ok, ih, List.forall_mem_cons]

end Checked
