import Mathlib.Data.List.Perm.Subperm
import Mathlib.Data.List.Chain
import Mathlib.Data.List.Nodup
import Mathlib.Logic.Relation
/-!
# Pointers to roots

Nodes that may each point at another one, and some of which are roots: when
the pointers lead to a root, which they then reach without repetition; what
following them finds, and which nodes lead to one root. `Leads.of_changed` is
the rule for what a change of some of the pointers leaves of it.
-/

namespace Pointers

variable {ν : Type} {next next' : ν → Option ν} {root root' : ν → Prop} {S : ν → Prop}

/-- The pointers lead to a root, past none of the nodes `S`. -/
inductive LeadsAround (next : ν → Option ν) (root S : ν → Prop) : ν → Prop
  | root {x : ν} (hx : root x) (hS : ¬ S x) : LeadsAround next root S x
  | next {x y : ν} (hx : next x = some y) (hS : ¬ S x) (hy : LeadsAround next root S y) :
    LeadsAround next root S x

/-- The pointers lead to a root. -/
abbrev Leads (next : ν → Option ν) (root : ν → Prop) : ν → Prop :=
  LeadsAround next root fun _ => False

theorem Leads.root_of {x : ν} (hx : root x) : Leads next root x := .root hx id

theorem Leads.next_of {x y : ν} (hx : next x = some y) (hy : Leads next root y) :
    Leads next root x := .next hx id hy

/-- Where the pointers outside `S` are kept, what leads past `S` still leads to
a root. -/
theorem LeadsAround.leads {x : ν} (h : LeadsAround next root S x)
    (hnext : ∀ x y, ¬ S x → next x = some y → next' x = some y)
    (hroot : ∀ x, ¬ S x → root x → root' x) : Leads next' root' x := by
  induction h with
  | root hx hS => exact .root_of (hroot _ hS hx)
  | next hx hS _ ih => exact .next_of (hnext _ _ hS hx) ih

/-- **What a change leaves**: the pointers outside `S` are kept; an unchanged
node leads to a root as long as none points at a changed one that does not. -/
theorem Leads.of_changed {x : ν} (h : Leads next root x)
    (hnext : ∀ x y, ¬ S x → next x = some y → next' x = some y)
    (hroot : ∀ x, ¬ S x → root x → root' x)
    (hchanged : ∀ x y, ¬ S x → next x = some y → S y → Leads next' root' y) (hx : ¬ S x) :
    Leads next' root' x := by
  induction h with
  | root hr _ => exact .root_of (hroot _ hx hr)
  | @next x y hxy _ _ ih =>
    refine .next_of (hnext _ _ hx hxy) ?_
    by_cases hy : S y
    · exact hchanged _ _ hx hxy hy
    · exact ih hy

/-! ## The way -/

/-- The way from a node to its root, so many pointers long. -/
inductive Way (next : ν → Option ν) (root : ν → Prop) : ν → ℕ → ν → Prop
  | here {x : ν} (hx : root x) : Way next root x 0 x
  | next {x y r : ν} {n : ℕ} (hx : next x = some y) (hy : Way next root y n r) :
    Way next root x (n + 1) r

/-- What leads to a root leads there in some number of steps. -/
theorem Leads.exists_way {x : ν} (h : Leads next root x) : ∃ n r, Way next root x n r := by
  induction h with
  | root hx _ => exact ⟨0, _, .here hx⟩
  | next hx _ _ ih =>
    obtain ⟨n, r, hw⟩ := ih
    exact ⟨n + 1, r, .next hx hw⟩

/-- A way ends at a root. -/
theorem Way.root_of {x r : ν} {n : ℕ} (h : Way next root x n r) : root r := by
  induction h with
  | here hx => exact hx
  | next _ _ ih => exact ih

/-- What has a way leads to a root. -/
theorem Way.leads {x r : ν} {n : ℕ} (h : Way next root x n r) : Leads next root x := by
  induction h with
  | here hx => exact .root_of hx
  | next hx _ ih => exact .next_of hx ih

section Unique

variable (hend : ∀ x, root x → next x = none)
include hend

/-- A node has one way. -/
theorem Way.unique {x r s : ν} {n m : ℕ} (h : Way next root x n r) (h' : Way next root x m s) :
    n = m ∧ r = s := by
  induction h generalizing m s with
  | here hx =>
    cases h' with
    | here _ => exact ⟨rfl, rfl⟩
    | next hxy _ => exact absurd hxy (by simp [hend _ hx])
  | next hxy _ ih =>
    cases h' with
    | here hx => exact absurd hxy (by simp [hend _ hx])
    | next hxy' hy =>
      obtain rfl := Option.some.inj (hxy.symm.trans hxy')
      obtain ⟨rfl, rfl⟩ := ih hy
      exact ⟨rfl, rfl⟩

/-- **The way does not repeat itself.** -/
theorem Way.exists_path {x r : ν} {n : ℕ} (h : Way next root x n r) :
    ∃ path : List ν, path.length = n ∧ (path ++ [r]).head? = some x ∧ (path ++ [r]).Nodup ∧
      (path ++ [r]).IsChain (fun x y => next x = some y) ∧
      ∀ y ∈ path ++ [r], ∃ m ≤ n, Way next root y m r := by
  induction h with
  | here hx => exact ⟨[], rfl, rfl, by simp, by simp, by simpa using .here hx⟩
  | @next x y r n hxy hy ih =>
    obtain ⟨path, hlength, hhead, hnodup, hchain, hways⟩ := ih
    refine ⟨x :: path, by simp [hlength], rfl, ?_, ?_, ?_⟩
    · refine List.nodup_cons.mpr ⟨fun hx => ?_, hnodup⟩
      obtain ⟨m, hm, hw⟩ := hways x hx
      have := (hw.unique hend (.next hxy hy)).1
      omega
    · rcases hp : path ++ [r] with - | ⟨z, rest⟩
      · simp at hp
      · rw [hp] at hhead hchain
        obtain rfl : z = y := by simpa using hhead
        show (x :: (path ++ [r])).IsChain _
        rw [hp]
        exact .cons_cons hxy hchain
    · intro z hz
      rcases List.mem_cons.mp hz with rfl | hz
      · exact ⟨n + 1, le_refl _, .next hxy hy⟩
      · obtain ⟨m, hm, hw⟩ := hways z hz
        exact ⟨m, by omega, hw⟩

/-- A way passes each node that points once. -/
theorem Way.length_le {x r : ν} {n : ℕ} (h : Way next root x n r) {nodes : List ν}
    (hnodes : ∀ x, (next x).isSome → x ∈ nodes) : n ≤ nodes.length := by
  obtain ⟨path, hlength, -, hnodup, hchain, -⟩ := h.exists_path hend
  rw [← hlength]
  have hsub : path ⊆ nodes := by
    intro z hz
    obtain ⟨before, after, rfl⟩ := List.append_of_mem hz
    rcases hafter : after ++ [r] with - | ⟨w, rest⟩
    · simp at hafter
    · rw [List.append_assoc, List.cons_append, hafter] at hchain
      have hzw := (List.isChain_append.mp hchain).2.1
      exact hnodes z (by rw [(List.isChain_cons_cons.mp hzw).1]; rfl)
  exact (List.subperm_of_subset hnodup.of_append_left hsub).length_le

end Unique

/-! ## Following the pointers -/

section Chase

variable [DecidableEq ν]

/-- The pointers are followed from `x`, until one comes to a node that points
nowhere, or to one that was seen; then `start` is answered. -/
def chase (next : ν → Option ν) : ℕ → List ν → ν → ν → ν
  | 0, _, start, _ => start
  | fuel + 1, seen, start, x =>
    if x ∈ seen then start
    else match next x with
      | none => x
      | some y => chase next fuel (x :: seen) start y

/-- **Following the pointers finds the root.** -/
theorem chase_eq (hend : ∀ x, root x → next x = none) {x r start : ν} {n fuel : ℕ}
    {seen : List ν} (h : Way next root x n r) (hfuel : n < fuel)
    (hseen : ∀ z ∈ seen, ∃ m s, Way next root z m s ∧ n < m) :
    chase next fuel seen start x = r := by
  induction h generalizing fuel seen with
  | @here x hx =>
    obtain ⟨fuel, rfl⟩ := Nat.exists_eq_add_of_lt hfuel
    have hnot : x ∉ seen := by
      intro hmem
      obtain ⟨m, s, hw, hlt⟩ := hseen x hmem
      have := (hw.unique hend (.here hx)).1
      omega
    rw [chase, if_neg hnot, hend x hx]
  | @next x y r n hxy hy ih =>
    obtain ⟨fuel, rfl⟩ := Nat.exists_eq_add_of_lt hfuel
    have hnot : x ∉ seen := by
      intro hmem
      obtain ⟨m, s, hw, hlt⟩ := hseen x hmem
      have := (hw.unique hend (.next hxy hy)).1
      omega
    rw [chase, if_neg hnot, hxy]
    refine ih (by omega) ?_
    intro z hz
    rcases List.mem_cons.mp hz with rfl | hz
    · exact ⟨n + 1, r, .next hxy hy, by omega⟩
    · obtain ⟨m, s, hw, hlt⟩ := hseen z hz
      exact ⟨m, s, hw, by omega⟩

/-! ## All that point to one -/

/-- One more node, unless it is there: of the family, and of those to visit. -/
def visit (state : List ν × List ν) (child : ν) : List ν × List ν :=
  if child ∈ state.1 then state else (state.1 ++ [child], child :: state.2)

/-- Everything that is reached from the nodes to visit; `fuel` of them. -/
def reach (children : ν → List ν) : ℕ → List ν → List ν → List ν
  | 0, family, _ => family
  | _ + 1, family, [] => family
  | fuel + 1, family, x :: rest =>
    let state := (children x).foldl visit (family, rest)
    reach children fuel state.1 state.2

/-- What visiting children does: each of them is in the family, the new ones
are to be visited. -/
theorem foldl_visit {family : List ν} (children rest : List ν) (hfamily : family.Nodup) :
    ∃ new : List ν, (children.foldl visit (family, rest)).1 = family ++ new ∧
      (children.foldl visit (family, rest)).2 = new.reverse ++ rest ∧
      (family ++ new).Nodup ∧ (∀ y ∈ new, y ∈ children) ∧ ∀ y ∈ children, y ∈ family ++ new := by
  induction children generalizing family rest with
  | nil => exact ⟨[], by simp, by simp, by simpa using hfamily, by simp, by simp⟩
  | cons child children ih =>
    rw [List.foldl_cons]
    by_cases hmem : child ∈ family
    · have hvisit : visit (family, rest) child = (family, rest) := if_pos hmem
      rw [hvisit]
      obtain ⟨new, h₁, h₂, h₃, h₄, h₅⟩ := ih rest hfamily
      refine ⟨new, h₁, h₂, h₃, fun y hy => List.mem_cons_of_mem _ (h₄ y hy), ?_⟩
      intro y hy
      rcases List.mem_cons.mp hy with rfl | hy
      · exact List.mem_append_left _ hmem
      · exact h₅ y hy
    · have hvisit : visit (family, rest) child = (family ++ [child], child :: rest) :=
        if_neg hmem
      rw [hvisit]
      have hnodup : (family ++ [child]).Nodup :=
        List.nodup_append'.mpr ⟨hfamily, List.nodup_singleton _, by simpa using hmem⟩
      obtain ⟨new, h₁, h₂, h₃, h₄, h₅⟩ := ih (child :: rest) hnodup
      refine ⟨child :: new, by rw [h₁]; simp, by rw [h₂]; simp, by simpa using h₃, ?_, ?_⟩
      · intro y hy
        rcases List.mem_cons.mp hy with rfl | hy
        · exact List.mem_cons_self
        · exact List.mem_cons_of_mem _ (h₄ y hy)
      · intro y hy
        rcases List.mem_cons.mp hy with rfl | hy
        · simp
        · simpa using h₅ y hy

/-- The node is reached from `x` through children. -/
abbrev Reached (children : ν → List ν) (x y : ν) : Prop :=
  Relation.ReflTransGen (fun a b => b ∈ children a) x y

/-- **Everything reached is found, and nothing else**, where there is fuel for
every node that can be. -/
theorem mem_reach {children : ν → List ν} (nodes : List ν) {x : ν} :
    ∀ (fuel : ℕ) (family rest : List ν), family.Nodup → x ∈ family → rest ⊆ family →
      (∀ y ∈ family, Reached children x y) →
      (∀ y ∈ family, y ∉ rest → ∀ z ∈ children y, z ∈ family) →
      (∀ y, ∀ z ∈ children y, z ∈ nodes) →
      (∀ y ∈ family, y = x ∨ y ∈ nodes) →
      nodes.length + 1 + rest.length ≤ fuel + family.length →
      ∀ y, y ∈ reach children fuel family rest ↔ Reached children x y := by
  intro fuel
  have hclosed : ∀ family : List ν, x ∈ family → (∀ y ∈ family, Reached children x y) →
      (∀ y ∈ family, ∀ z ∈ children y, z ∈ family) →
      ∀ y, y ∈ family ↔ Reached children x y := by
    intro family hx hreached hchildren y
    refine ⟨hreached y, fun h => ?_⟩
    induction h with
    | refl => exact hx
    | tail _ hz ih => exact hchildren _ ih _ hz
  induction fuel with
  | zero =>
    intro family rest hnodup hx hrest hreached hchildren hnodes hfamily hfuel
    -- the family is no larger than the nodes and the first, so nothing is left to visit
    have hlength : family.length ≤ nodes.length + 1 := by
      have hsub : family ⊆ x :: nodes := fun y hy => List.mem_cons.mpr (hfamily y hy)
      exact (List.subperm_of_subset hnodup hsub).length_le
    obtain rfl : rest = [] := List.length_eq_zero_iff.mp (by omega)
    exact hclosed family hx hreached fun y hy => hchildren y hy List.not_mem_nil
  | succ fuel ih =>
    intro family rest hnodup hx hrest hreached hchildren hnodes hfamily hfuel
    rcases rest with - | ⟨z, rest⟩
    · exact hclosed family hx hreached fun y hy => hchildren y hy List.not_mem_nil
    · obtain ⟨new, h₁, h₂, h₃, h₄, h₅⟩ :=
        foldl_visit (children z) rest hnodup
      show ∀ y, y ∈ reach children fuel ((children z).foldl visit (family, rest)).1
        ((children z).foldl visit (family, rest)).2 ↔ _
      rw [h₁, h₂]
      have hz : z ∈ family := hrest List.mem_cons_self
      refine ih (family ++ new) (new.reverse ++ rest) h₃ (List.mem_append_left _ hx) ?_ ?_ ?_
        hnodes ?_ ?_
      · intro y hy
        rcases List.mem_append.mp hy with hy | hy
        · exact List.mem_append_right _ (List.mem_reverse.mp hy)
        · exact List.mem_append_left _ (hrest (List.mem_cons_of_mem _ hy))
      · intro y hy
        rcases List.mem_append.mp hy with hy | hy
        · exact hreached y hy
        · exact (hreached z hz).tail (h₄ y hy)
      · intro y hy hnot w hw
        have hnew : y ∉ new := fun h => hnot (List.mem_append_left _ (List.mem_reverse.mpr h))
        have hy' : y ∈ family := (List.mem_append.mp hy).resolve_right hnew
        by_cases hyz : y = z
        · exact h₅ w (hyz ▸ hw)
        · refine List.mem_append_left _ (hchildren y hy' ?_ w hw)
          intro hmem
          rcases List.mem_cons.mp hmem with h | h
          · exact hyz h
          · exact hnot (List.mem_append_right _ h)
      · intro y hy
        rcases List.mem_append.mp hy with hy | hy
        · exact hfamily y hy
        · exact .inr (hnodes z y (h₄ y hy))
      · simp only [List.length_append, List.length_reverse, List.length_cons] at hfuel ⊢
        omega

end Chase

/-- What reaches a root by its pointers has a way to it. -/
theorem way_of_reached {children : ν → List ν} {x y : ν}
    (hchildren : ∀ a b, b ∈ children a → next b = some a) (hx : root x)
    (h : Relation.ReflTransGen (fun a b => b ∈ children a) x y) : ∃ n, Way next root y n x := by
  induction h with
  | refl => exact ⟨0, .here hx⟩
  | tail _ hb ih =>
    obtain ⟨n, hw⟩ := ih
    exact ⟨n + 1, .next (hchildren _ _ hb) hw⟩

/-- Whoever follows the children finds the start of every way. -/
theorem reached_of_way {children : ν → List ν} {x y : ν} {n : ℕ}
    (hchildren : ∀ a b, next b = some a → b ∈ children a) (h : Way next root y n x) :
    Relation.ReflTransGen (fun a b => b ∈ children a) x y := by
  induction h with
  | here _ => exact .refl
  | next hxy _ ih => exact ih.tail (hchildren _ _ hxy)

end Pointers
