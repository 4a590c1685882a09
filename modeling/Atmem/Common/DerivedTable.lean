import Mathlib.Data.List.Nodup
/-!
# Derived tables

A derived table holds, for each row of a base table, the entries computed
from that row, and nothing else: a full-text index, a table of postings.
Code keeps it by hand, replacing a row's entries whenever it changes the
row. Each rule here says that one such pair of changes keeps the table
derived.
-/

namespace Derived

variable {ρ κ ε : Type} [DecidableEq κ]

/-- What is left of a list when repetitions are dropped has none. -/
theorem nodup_eraseDups : ∀ {xs : List κ}, xs.eraseDups.Nodup
  | [] => by simp
  | x :: xs => by
    rw [List.eraseDups_cons, List.nodup_cons]
    refine ⟨?_, nodup_eraseDups⟩
    simp
  termination_by xs => xs.length
  decreasing_by exact Nat.lt_succ_of_le (List.length_filter_le _ _)

/-- Replace the entries of one owner. -/
def reindex (owner : ε → κ) (k : κ) (new entries : List ε) : List ε :=
  entries.filter (owner · ≠ k) ++ new

/-- The entries are those of the base's rows. -/
structure Mirrors (key : ρ → κ) (owner : ε → κ) (index : ρ → List ε) (base : List ρ)
    (entries : List ε) : Prop where
  rows : ∀ r ∈ base, entries.filter (owner · = key r) = index r
  owned : ∀ e ∈ entries, ∃ r ∈ base, key r = owner e

variable {key : ρ → κ} {owner : ε → κ} {index : ρ → List ε} {base : List ρ} {entries new : List ε}
variable {k : κ}

/-- The entries of the owner are the new ones. -/
theorem filter_reindex_self (hnew : ∀ e ∈ new, owner e = k) :
    (reindex owner k new entries).filter (owner · = k) = new := by
  rw [reindex, List.filter_append, List.filter_filter]
  have hnone : entries.filter (fun e => decide (owner e = k) && decide (owner e ≠ k)) = [] := by
    refine List.filter_eq_nil_iff.mpr fun e _ => ?_
    simp
  have hall : new.filter (owner · = k) = new :=
    List.filter_eq_self.mpr fun e he => decide_eq_true (hnew e he)
  rw [hnone, hall, List.nil_append]

/-- Those of another owner stay. -/
theorem filter_reindex_ne (hnew : ∀ e ∈ new, owner e = k) {j : κ} (hj : j ≠ k) :
    (reindex owner k new entries).filter (owner · = j) = entries.filter (owner · = j) := by
  rw [reindex, List.filter_append, List.filter_filter]
  have hnone : new.filter (owner · = j) = [] := by
    refine List.filter_eq_nil_iff.mpr fun e he => ?_
    simp [hnew e he, hj.symm]
  rw [hnone, List.append_nil]
  refine List.filter_congr fun e _ => ?_
  by_cases he : owner e = j
  · simp [he, hj]
  · simp [he]

/-- An entry is new, or another owner's. -/
theorem mem_reindex {e : ε} :
    e ∈ reindex owner k new entries ↔ (e ∈ entries ∧ owner e ≠ k) ∨ e ∈ new := by
  simp [reindex]

namespace Mirrors

/-- An empty table is derived from no rows. -/
theorem nil : Mirrors key owner index [] [] := ⟨by simp, by simp⟩

/-- A row is added, and its entries. -/
theorem append (hm : Mirrors key owner index base entries) {r : ρ}
    (hfresh : ∀ a ∈ base, key a ≠ key r) (howner : ∀ e ∈ index r, owner e = key r) :
    Mirrors key owner index (base ++ [r]) (reindex owner (key r) (index r) entries) := by
  constructor
  · intro a ha
    rcases List.mem_append.mp ha with ha | ha
    · rw [filter_reindex_ne howner (hfresh a ha)]
      exact hm.rows a ha
    · rw [List.mem_singleton.mp ha]
      exact filter_reindex_self howner
  · intro e he
    rcases mem_reindex.mp he with ⟨he, -⟩ | he
    · obtain ⟨a, ha, hk⟩ := hm.owned e he
      exact ⟨a, List.mem_append_left _ ha, hk⟩
    · exact ⟨r, by simp, (howner e he).symm⟩

/-- The rows of one key are rewritten, and its entries replaced. -/
theorem update (hm : Mirrors key owner index base entries) {p : ρ → Bool} {f : ρ → ρ}
    (hp : ∀ r ∈ base, p r = true → key r = k) (hkey : ∀ r, key (f r) = key r)
    (hnew : ∀ e ∈ new, owner e = k)
    (hindex : ∀ r ∈ base, key r = k → index (if p r then f r else r) = new)
    (hsome : new ≠ [] → ∃ r ∈ base, key r = k) :
    Mirrors key owner index (base.map fun r => if p r then f r else r)
      (reindex owner k new entries) := by
  have hkeys : ∀ r, key (if p r then f r else r) = key r := by
    intro r
    split
    · exact hkey r
    · rfl
  constructor
  · intro a ha
    obtain ⟨r, hr, rfl⟩ := List.mem_map.mp ha
    rw [hkeys]
    by_cases hk : key r = k
    · rw [hk, filter_reindex_self hnew, hindex r hr hk]
    · have hnp : p r = false := by
        by_contra hne
        exact hk (hp r hr (by simpa using hne))
      rw [filter_reindex_ne hnew hk, hm.rows r hr, hnp]
      rfl
  · intro e he
    rcases mem_reindex.mp he with ⟨he, -⟩ | he
    · obtain ⟨r, hr, hk⟩ := hm.owned e he
      exact ⟨_, List.mem_map_of_mem hr, (hkeys r).trans hk⟩
    · obtain ⟨r, hr, hk⟩ := hsome (List.ne_nil_of_mem he)
      exact ⟨_, List.mem_map_of_mem hr, (hkeys r).trans (hk.trans (hnew e he).symm)⟩

/-- Rows are rewritten to rows of the same entries. -/
theorem map (hm : Mirrors key owner index base entries) {f : ρ → ρ}
    (hkey : ∀ r ∈ base, key (f r) = key r) (hindex : ∀ r ∈ base, index (f r) = index r) :
    Mirrors key owner index (base.map f) entries := by
  constructor
  · intro a ha
    obtain ⟨r, hr, rfl⟩ := List.mem_map.mp ha
    rw [hkey r hr, hindex r hr]
    exact hm.rows r hr
  · intro e he
    obtain ⟨r, hr, hk⟩ := hm.owned e he
    exact ⟨_, List.mem_map_of_mem hr, (hkey r hr).trans hk⟩

end Mirrors

end Derived
