import Mathlib.Data.List.Forall2
import Mathlib.Data.List.Pairwise
import Mathlib.Data.Nat.Notation
import Mathlib.Logic.Relation
/-!
# Tables with uniqueness constraints

A table is its rows in insertion order. The constraints, a primary key
together with any unique index, are one relation `clash` on the keyed
columns: two rows that clash may not stand in one table, and that no two
do is a field of the table, so no operation can break it. Two changes of a
table correspond row by row. A row with a version moves by advances, each of
which raises it by one: a write applied only where the version has not moved
is a write to the very row that was read.
-/

namespace Relational

/-- The constraint of a primary key and of one more key: rows clash on either. -/
@[simp] def eitherClash {α β : Type} [DecidableEq α] [DecidableEq β] (a b : α × β) : Bool :=
  a.1 = b.1 || a.2 = b.2

/-- Rows in insertion order, no two of which clash. -/
structure Table (ρ : Type) {κ : Type} (key : ρ → κ) (clash : κ → κ → Bool) where
  rows : List ρ
  distinct : rows.Pairwise fun a b => clash (key a) (key b) = false

namespace Table

variable {ρ κ ν : Type} {key : ρ → κ} {clash : κ → κ → Bool}

/-- No rows. -/
def empty : Table ρ key clash := ⟨[], .nil⟩

/-- Append a row; refused where it clashes with one that is there. -/
def insert (t : Table ρ key clash) (r : ρ) : Option (Table ρ key clash) :=
  if h : ∀ a ∈ t.rows, clash (key a) (key r) = false then
    some ⟨t.rows ++ [r], List.pairwise_append.mpr
      ⟨t.distinct, List.pairwise_singleton _ _, fun a ha b hb => by
        rw [List.mem_singleton.mp hb]
        exact h a ha⟩⟩
  else none

/-- Rewrite the rows `p` selects, leaving the keyed columns alone. -/
def update (t : Table ρ key clash) (p : ρ → Bool) (f : ρ → ρ) (hf : ∀ r, key (f r) = key r) :
    Table ρ key clash :=
  ⟨t.rows.map fun r => if p r then f r else r, by
    have hk : ∀ r, key (if p r then f r else r) = key r := fun r => by split <;> simp [hf]
    exact List.pairwise_map.mpr (t.distinct.imp fun h => by rw [hk, hk]; exact h)⟩

/-- Rewrite the rows `p` selects; refused where two rows would clash. -/
def rewrite (t : Table ρ key clash) (p : ρ → Bool) (f : ρ → ρ) : Option (Table ρ key clash) :=
  let rows := t.rows.map fun r => if p r then f r else r
  if h : rows.Pairwise fun a b => clash (key a) (key b) = false then some ⟨rows, h⟩ else none

/-- Drop the rows `p` selects. -/
def delete (t : Table ρ key clash) (p : ρ → Bool) : Table ρ key clash :=
  ⟨t.rows.filter fun r => !p r, t.distinct.filter _⟩

@[simp] theorem rows_empty : (empty : Table ρ key clash).rows = [] := rfl

@[simp] theorem rows_update (t : Table ρ key clash) (p : ρ → Bool) (f : ρ → ρ)
    (hf : ∀ r, key (f r) = key r) :
    (t.update p f hf).rows = t.rows.map fun r => if p r then f r else r := rfl

@[simp] theorem rows_delete (t : Table ρ key clash) (p : ρ → Bool) :
    (t.delete p).rows = t.rows.filter fun r => !p r := rfl

/-- The rows after an update that broke no constraint. -/
theorem rows_of_rewrite {t t' : Table ρ key clash} {p : ρ → Bool} {f : ρ → ρ}
    (h : t.rewrite p f = some t') : t'.rows = t.rows.map fun r => if p r then f r else r := by
  unfold rewrite at h
  dsimp only at h
  split at h
  · cases h
    rfl
  · cases h

/-- A rewriting of one row that clashes with none of the others is
accepted. -/
theorem exists_rewrite {t : Table ρ key clash} {p : ρ → Bool} {f : ρ → ρ}
    (hone : t.rows.Pairwise fun a b => ¬(p a = true ∧ p b = true))
    (hfresh : ∀ a ∈ t.rows, ∀ b ∈ t.rows, p a = true → p b = false →
      clash (key (f a)) (key b) = false ∧ clash (key b) (key (f a)) = false) :
    ∃ t', t.rewrite p f = some t' := by
  have hrows : (t.rows.map fun r => if p r then f r else r).Pairwise
      fun a b => clash (key a) (key b) = false := by
    refine List.pairwise_map.mpr ((t.distinct.and hone).imp_of_mem fun ha hb hab => ?_)
    rename_i a b
    rcases hpa : p a with - | - <;> rcases hpb : p b with - | -
    · simpa using hab.1
    · simpa using (hfresh b hb a ha hpb hpa).2
    · simpa using (hfresh a ha b hb hpa hpb).1
    · exact absurd ⟨hpa, hpb⟩ hab.2
  unfold Table.rewrite
  exact ⟨_, dif_pos hrows⟩

/-- What an accepted insertion did, and why it was accepted. -/
theorem insert_eq_some {t t' : Table ρ key clash} {r : ρ} :
    t.insert r = some t' ↔
      (∀ a ∈ t.rows, clash (key a) (key r) = false) ∧ t'.rows = t.rows ++ [r] := by
  unfold insert
  constructor
  · intro h
    split at h
    · rename_i hc
      cases h
      exact ⟨hc, rfl⟩
    · cases h
  · rintro ⟨hc, hr⟩
    rw [dif_pos hc]
    cases t'
    cases hr
    rfl

/-- A refused insertion clashed with a row that is there. -/
theorem insert_eq_none {t : Table ρ key clash} {r : ρ} :
    t.insert r = none ↔ ∃ a ∈ t.rows, clash (key a) (key r) = true := by
  unfold insert
  split
  · rename_i h
    simp only [reduceCtorEq, false_iff]
    rintro ⟨a, ha, hc⟩
    rw [h a ha] at hc
    cases hc
  · rename_i h
    simpa using h

/-- An insertion nothing clashes with is accepted. -/
theorem insert_of_fresh {t : Table ρ key clash} {r : ρ}
    (h : ∀ a ∈ t.rows, clash (key a) (key r) = false) :
    ∃ t', t.insert r = some t' ∧ t'.rows = t.rows ++ [r] := by
  rcases hi : t.insert r with - | t'
  · obtain ⟨a, ha, hc⟩ := insert_eq_none.mp hi
    rw [h a ha] at hc
    cases hc
  · exact ⟨t', rfl, (insert_eq_some.mp hi).2⟩

/-- Rows inserted one after the other stand at the end. -/
theorem rows_of_foldlM_insert {t t' : Table ρ key clash} {rs : List ρ}
    (h : rs.foldlM Table.insert t = some t') : t'.rows = t.rows ++ rs := by
  induction rs generalizing t with
  | nil =>
    cases h
    simp
  | cons r rs ih =>
    rw [List.foldlM_cons] at h
    obtain ⟨t₁, hinsert, hrest⟩ := Option.bind_eq_some_iff.mp h
    rw [ih hrest, (insert_eq_some.mp hinsert).2, List.append_assoc, List.singleton_append]

/-! ## Lookup by an identifier

An identifier is a column two rows of one value of which clash: a
primary key, or a column of one. -/

section Lookup

variable {id : ρ → ν} (hid : ∀ a b, id a = id b → clash (key a) (key b) = true)
include hid

/-- Two rows of one identifier are one row. -/
theorem eq_of_id_eq {t : Table ρ key clash} {a b : ρ} (ha : a ∈ t.rows) (hb : b ∈ t.rows)
    (h : id a = id b) : a = b := by
  by_contra hne
  let R : ρ → ρ → Prop := fun a b => clash (key a) (key b) = false ∨ clash (key b) (key a) = false
  have : Std.Symm R := ⟨fun _ _ h => h.symm⟩
  have hor : R a b := (t.distinct.imp Or.inl : t.rows.Pairwise R).forall ha hb hne
  rcases hor with hc | hc
  · rw [hid a b h] at hc
    cases hc
  · rw [hid b a h.symm] at hc
    cases hc

/-- A selection by the identifier of a row that is there selects that row
alone. -/
theorem countP_eq_one {t : Table ρ key clash} {p : ρ → Bool} {r : ρ} (hr : r ∈ t.rows)
    (hp : p r = true) (hpid : ∀ a, p a = true → id a = id r) : t.rows.countP p = 1 := by
  obtain ⟨before, after, hsplit⟩ := List.append_of_mem hr
  have hd := t.distinct
  rw [hsplit, List.pairwise_append, List.pairwise_cons] at hd
  obtain ⟨-, ⟨hafter, -⟩, hbefore⟩ := hd
  have hnone (l : List ρ) (hl : ∀ a ∈ l, clash (key a) (key r) = false ∨
      clash (key r) (key a) = false) : l.countP p = 0 := by
    refine List.countP_eq_zero.mpr fun a ha hpa => ?_
    rcases hl a ha with hc | hc
    · rw [hid a r (hpid a hpa)] at hc
      cases hc
    · rw [hid r a (hpid a hpa).symm] at hc
      cases hc
  rw [hsplit, List.countP_append, List.countP_cons_of_pos hp,
    hnone before fun a ha => Or.inl (hbefore a ha r List.mem_cons_self),
    hnone after fun a ha => Or.inr (hafter a ha)]

variable [DecidableEq ν]

/-- **A lookup finds the row of the identifier**, wherever in the table
it stands. -/
theorem find?_id_eq_some {t : Table ρ key clash} {k : ν} {r : ρ} :
    t.rows.find? (fun r => id r = k) = some r ↔ r ∈ t.rows ∧ id r = k := by
  constructor
  · intro h
    exact ⟨List.mem_of_find?_eq_some h, by simpa using List.find?_some h⟩
  · rintro ⟨hr, rfl⟩
    rcases hf : t.rows.find? (fun a => id a = id r) with - | a
    · have := List.find?_eq_none.mp hf r hr
      simp at this
    · have ha : id a = id r := by simpa using List.find?_some hf
      rw [eq_of_id_eq hid (List.mem_of_find?_eq_some hf) hr ha]

end Lookup

end Table

end Relational

/-! ## Row by row -/

namespace Rowwise

variable {α β γ : Type*} {R : α → β → Prop} {S : β → γ → Prop} {as : List α} {bs : List β}
variable {cs : List γ}

/-- **One change after the other**, row by row. -/
theorem forall₂_comp (h : List.Forall₂ R as bs) (h' : List.Forall₂ S bs cs) :
    List.Forall₂ (fun a c => ∃ b, R a b ∧ S b c) as cs := by
  induction h generalizing cs with
  | nil =>
    cases h'
    exact .nil
  | cons hab _ ih =>
    cases h' with
    | cons hbc hrest => exact .cons ⟨_, hab, hbc⟩ (ih hrest)

/-- Every row stands in the place of one. -/
theorem exists_before (h : List.Forall₂ R as bs) {b : β} (hb : b ∈ bs) : ∃ a ∈ as, R a b := by
  induction h with
  | nil => cases hb
  | cons hab _ ih =>
    rcases List.mem_cons.mp hb with rfl | hb
    · exact ⟨_, List.mem_cons_self, hab⟩
    · obtain ⟨a, ha, hr⟩ := ih hb
      exact ⟨a, List.mem_cons_of_mem _ ha, hr⟩

/-- In the place of every row stands one. -/
theorem exists_after (h : List.Forall₂ R as bs) {a : α} (ha : a ∈ as) : ∃ b ∈ bs, R a b := by
  induction h with
  | nil => cases ha
  | cons hab _ ih =>
    rcases List.mem_cons.mp ha with rfl | ha
    · exact ⟨_, List.mem_cons_self, hab⟩
    · obtain ⟨b, hb, hr⟩ := ih ha
      exact ⟨b, List.mem_cons_of_mem _ hb, hr⟩

end Rowwise

/-! ## Versions -/

namespace Versioned

open Relation

variable {S : Type*} {Adv : S → S → Prop} {s s' : S}

section Version

variable (version : S → ℕ) (hv : ∀ s s', Adv s s' → version s' = version s + 1)
include hv

/-- Versions never go back. -/
theorem version_le (h : ReflTransGen Adv s s') : version s ≤ version s' := by
  induction h with
  | refl => exact Nat.le_refl _
  | tail _ hadv ih =>
    rw [hv _ _ hadv]
    omega

/-- **No lost update.** A cell whose version has not moved has not
moved. -/
theorem eq_of_version_eq (h : ReflTransGen Adv s s') (he : version s = version s') : s' = s := by
  rcases ReflTransGen.cases_tail h with heq | ⟨m, hm, hadv⟩
  · exact heq
  · have := version_le version hv hm
    rw [hv _ _ hadv] at he
    omega

end Version

/-- **Absorption.** A cell that is not live never moves again. -/
theorem eq_of_not_live (live : S → Prop) (hl : ∀ s s', Adv s s' → live s) (h : ReflTransGen Adv s s')
    (hs : ¬ live s) : s' = s := by
  rcases ReflTransGen.cases_head h with heq | ⟨m, hadv, -⟩
  · exact heq.symm
  · exact absurd (hl _ _ hadv) hs

/-- What one advance preserves, any number of them do. -/
theorem invariant {P : S → Prop} (hP : ∀ s s', Adv s s' → P s → P s')
    (h : ReflTransGen Adv s s') (hs : P s) : P s' := by
  induction h with
  | refl => exact hs
  | tail _ hadv ih => exact hP _ _ hadv ih

/-- What one advance leaves equal, any number of them do. -/
theorem eq_of_advances {T : Type*} {f : S → T} (hf : ∀ s s', Adv s s' → f s' = f s)
    (h : ReflTransGen Adv s s') : f s' = f s := by
  induction h with
  | refl => rfl
  | tail _ hadv ih => rw [hf _ _ hadv, ih]

end Versioned
