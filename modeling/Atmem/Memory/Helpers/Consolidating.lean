import Atmem.Memory.Helpers.Statements
import Mathlib.Data.Prod.Lex
import Mathlib.Data.String.Basic
/-!
# What a consolidation does to the records

A consolidation puts the active records of a subject in groups, first by what
they say and then by their fact key, and lets the newest of each supersede the
rest. A row is superseded by the newest of its group, once (`Collapses`).
-/

namespace Atmem.Memory

open Relational Transactional

variable {E : Engine} {s : MemoryStore} {w w' : MemoryWorld} {subjectId : String}
variable {κ : Type} [BEq κ] [LawfulBEq κ] {key : RecordRow → κ} {l g : List RecordRow}
variable {groups : List (List RecordRow)} {a b r r' : RecordRow}

/-! ## Groups -/

/-- The group of a row. -/
def groupOf (key : RecordRow → κ) (l : List RecordRow) (r : RecordRow) : List RecordRow :=
  (l.filter fun a => key a == key r).insertionSort MemoryStore.older

omit [LawfulBEq κ] in
theorem groupOf_congr (h : key a = key b) : groupOf key l a = groupOf key l b := by
  rw [groupOf, groupOf, h]

/-- A group has the rows of one key. -/
theorem mem_groupOf : a ∈ groupOf key l r ↔ a ∈ l ∧ key a = key r := by
  rw [groupOf, List.mem_insertionSort, List.mem_filter, beq_iff_eq]

/-- Every group is that of a row. -/
theorem mem_groupsBy : g ∈ groupsBy key l ↔ ∃ r ∈ l, g = groupOf key l r := by
  unfold groupsBy groupOf
  simp only [List.mem_map, List.mem_eraseDups]
  constructor
  · rintro ⟨k, ⟨r, hr, rfl⟩, rfl⟩
    exact ⟨r, hr, rfl⟩
  · rintro ⟨r, hr, rfl⟩
    exact ⟨key r, ⟨r, hr, rfl⟩, rfl⟩

/-- A group that a row is in is its own. -/
theorem group_eq (hg : g ∈ groupsBy key l) (hr : r ∈ g) : r ∈ l ∧ g = groupOf key l r := by
  obtain ⟨a, -, rfl⟩ := mem_groupsBy.mp hg
  obtain ⟨hmem, hkey⟩ := mem_groupOf.mp hr
  exact ⟨hmem, groupOf_congr hkey.symm⟩

/-- The newest of its group. -/
def IsNewest (key : RecordRow → κ) (l : List RecordRow) (r : RecordRow) : Prop :=
  (groupOf key l r).getLast? = some r

omit [LawfulBEq κ] in
/-- A group has one newest row. -/
theorem IsNewest.unique (ha : IsNewest key l a) (hb : IsNewest key l b) (h : key a = key b) :
    a = b := by
  unfold IsNewest at ha hb
  rw [groupOf_congr h, hb] at ha
  exact (Option.some.inj ha).symm

/-- A row's place in the order of time. -/
def age (r : RecordRow) : Instant ×ₗ String := toLex (r.createdAt, r.id)

/-- Older means of less age. -/
theorem older_iff : MemoryStore.older a b ↔ age a ≤ age b := by
  rw [age, age, Prod.Lex.toLex_le_toLex]
  rfl

instance : Std.Total MemoryStore.older :=
  ⟨fun a b => by
    rw [older_iff, older_iff]
    exact le_total (age a) (age b)⟩

instance : IsTrans RecordRow MemoryStore.older :=
  ⟨fun a b c hab hbc => by
    rw [older_iff] at *
    exact hab.trans hbc⟩

/-- **The newest of a group** is newer than every other of its rows. -/
theorem exists_newest (key : RecordRow → κ) (hl : l.Nodup)
    (hids : ∀ a ∈ l, ∀ b ∈ l, a.id = b.id → a = b) (hr : r ∈ l) :
    ∃ keeper ∈ l, key keeper = key r ∧ IsNewest key l keeper ∧
      (groupOf key l r).getLast? = some keeper ∧
      (r = keeper ∧ r ∉ (groupOf key l r).dropLast ∨
        r ∈ (groupOf key l r).dropLast ∧ age r < age keeper) := by
  have hmem : r ∈ groupOf key l r := mem_groupOf.mpr ⟨hr, rfl⟩
  obtain ⟨keeper, hlast⟩ : ∃ keeper, (groupOf key l r).getLast? = some keeper :=
    ⟨_, List.getLast?_eq_some_getLast (List.ne_nil_of_mem hmem)⟩
  obtain ⟨front, hgroup⟩ := List.getLast?_eq_some_iff.mp hlast
  obtain ⟨hkeeper, hkey⟩ := mem_groupOf.mp (List.mem_of_getLast? hlast)
  refine ⟨keeper, hkeeper, hkey, (congrArg List.getLast? (groupOf_congr hkey)).trans hlast, hlast, ?_⟩
  have hnodup : (groupOf key l r).Nodup :=
    (List.perm_insertionSort _ _).nodup_iff.mpr (hl.filter _)
  rw [hgroup, List.nodup_append] at hnodup
  have hapart : keeper ∉ front := fun h =>
    hnodup.2.2 keeper h keeper (List.mem_singleton_self _) rfl
  rw [hgroup, List.dropLast_concat]
  rw [hgroup, List.mem_append, List.mem_singleton] at hmem
  rcases hmem with hfront | rfl
  · refine .inr ⟨hfront, ?_⟩
    have hsorted : (groupOf key l r).Pairwise MemoryStore.older := List.pairwise_insertionSort _ _
    rw [hgroup] at hsorted
    have hne : r ≠ keeper := by
      rintro rfl
      exact hapart hfront
    have hle := older_iff.mp ((List.pairwise_append.mp hsorted).2.2 r hfront keeper
      (List.mem_singleton_self _))
    refine lt_of_le_of_ne hle fun heq => hne (hids r hr keeper hkeeper ?_)
    exact congrArg (fun k => (ofLex k).2) heq
  · exact .inl ⟨rfl, hapart⟩

/-! ## Groups that collapse -/

/-- The identifier of the row that supersedes one, where a group has it before
its last. -/
def keeperIn (groups : List (List RecordRow)) (r : RecordRow) : Option String :=
  groups.findSome? fun g =>
    if r.id ∈ g.dropLast.map (·.id) then g.getLast?.map (·.id) else none

/-- What becomes of a row: an active one of the subject is superseded where a
group has a newer row for it. -/
inductive Collapses (subjectId : String) (groups : List (List RecordRow)) (r : RecordRow) :
    RecordRow → Prop
  | kept : (r.subjectId = subjectId → r.status = .active → keeperIn groups r = none) →
      Collapses subjectId groups r r
  | superseded {byId : String} {now : Instant} : r.subjectId = subjectId → r.status = .active →
      keeperIn groups r = some byId → Collapses subjectId groups r (supersededRow byId now r)

/-- One group before the others. -/
theorem collapses_cons {keeper : RecordRow} {now : Instant} (hlast : g.getLast? = some keeper)
    (h : Collapses subjectId groups (retired subjectId keeper.id now (g.dropLast.map (·.id)) r) r') :
    Collapses subjectId (g :: groups) r r' := by
  by_cases hnamed : r.id ∈ g.dropLast.map (·.id)
  · have hkeeper : keeperIn (g :: groups) r = some keeper.id := by
      rw [keeperIn, List.findSome?_cons, if_pos hnamed, hlast]
      rfl
    by_cases hactive : r.subjectId = subjectId ∧ r.status = .active
    · rw [retired_of_mem hactive.1 hnamed hactive.2] at h
      cases h with
      | kept => exact .superseded hactive.1 hactive.2 hkeeper
      | superseded _ hstatus => cases hstatus
    · have hsame : retired subjectId keeper.id now (g.dropLast.map (·.id)) r = r :=
        if_neg fun hr => hactive ⟨hr.1, hr.2.2⟩
      rw [hsame] at h
      cases h with
      | kept => exact .kept fun hsubject hstatus => absurd ⟨hsubject, hstatus⟩ hactive
      | superseded hsubject hstatus => exact absurd ⟨hsubject, hstatus⟩ hactive
  · have hkeeper : keeperIn (g :: groups) r = keeperIn groups r := by
      rw [keeperIn, List.findSome?_cons, if_neg hnamed]
      rfl
    rw [retired_of_not_mem hnamed] at h
    cases h with
    | kept hnone => exact .kept fun hsubject hstatus => hkeeper.trans (hnone hsubject hstatus)
    | superseded hsubject hstatus hsome =>
      exact .superseded hsubject hstatus (hkeeper.trans hsome)

/-- **A run over groups**: each row collapses; where no group has two rows,
nothing happens. -/
theorem exec_consolidateGroups (subjectId : String) (groups : List (List RecordRow))
    (w : MemoryWorld) :
    ∃ ids w', exec (consolidateGroups subjectId groups) w = (.ok ids, w') ∧
      List.Forall₂ (Collapses subjectId groups) w.store.records.rows w'.store.records.rows ∧
      ((∀ g ∈ groups, g.length ≤ 1) → ids = [] ∧ w' = w) := by
  induction groups generalizing w with
  | nil => exact ⟨[], w, rfl, List.forall₂_same.mpr fun r _ => .kept fun _ _ => rfl,
      fun _ => ⟨rfl, rfl⟩⟩
  | cons g groups ih =>
    rcases hlast : g.getLast? with - | keeper
    · -- a group of no rows does nothing
      obtain rfl := List.getLast?_eq_none_iff.mp hlast
      obtain ⟨ids, w', hexec, hrows, hsingle⟩ := ih w
      refine ⟨ids, w', ?_, hrows.imp fun r r' h => ?_, fun h => hsingle fun g hg =>
        h g (List.mem_cons_of_mem _ hg)⟩
      · rw [consolidateGroups, exec_bind_ok (show exec (consolidateGroup subjectId []) w =
          (.ok [], w) from rfl), exec_bind_ok hexec, List.nil_append, exec_pure]
      · cases h with
        | kept h => exact .kept h
        | superseded hsubject hstatus hsome => exact .superseded hsubject hstatus hsome
    · obtain ⟨w₁, hsupersede, hretired, hnone⟩ := exec_supersedeRecords subjectId
        (g.dropLast.map (·.id)) keeper.id w
      obtain ⟨ids, w', hexec, hrows, hsingle⟩ := ih w₁
      have hone : exec (consolidateGroup subjectId g) w = (.ok (g.dropLast.map (·.id)), w₁) := by
        rw [consolidateGroup, hlast]
        dsimp only
        rw [exec_bind_ok hsupersede, exec_pure]
      refine ⟨g.dropLast.map (·.id) ++ ids, w', ?_, ?_, fun h => ?_⟩
      · rw [consolidateGroups, exec_bind_ok hone, exec_bind_ok hexec, exec_pure]
      · -- the rest of the groups sees the rows that this group retired
        rw [hretired, List.forall₂_map_left_iff] at hrows
        exact hrows.imp fun r r' h => collapses_cons hlast h
      · have hempty : g.dropLast = [] := by
          have hlen := h g List.mem_cons_self
          refine List.eq_nil_of_length_eq_zero ?_
          rw [List.length_dropLast]
          omega
        obtain ⟨rfl, rfl⟩ := hsingle fun g hg => h g (List.mem_cons_of_mem _ hg)
        rw [hempty, List.map_nil] at hnone ⊢
        exact ⟨rfl, hnone rfl⟩

/-- **Which row supersedes one of a group**: the newest, where it is another. -/
theorem keeperIn_groupsBy (key : RecordRow → κ) (hl : l.Nodup)
    (hids : ∀ a ∈ l, ∀ b ∈ l, a.id = b.id → a = b) (hr : r ∈ l) :
    (IsNewest key l r ∧ keeperIn (groupsBy key l) r = none) ∨
      ∃ keeper ∈ l, key keeper = key r ∧ IsNewest key l keeper ∧ age r < age keeper ∧
        ¬ IsNewest key l r ∧ keeperIn (groupsBy key l) r = some keeper.id := by
  -- a group that names the row before its last is the row's own
  have hown : ∀ g ∈ groupsBy key l, r.id ∈ g.dropLast.map (·.id) →
      g = groupOf key l r ∧ r ∈ (groupOf key l r).dropLast := by
    intro g hg hid
    obtain ⟨a, ha, haid⟩ := List.mem_map.mp hid
    obtain ⟨hmem, -⟩ := group_eq hg (List.dropLast_subset _ ha)
    obtain rfl := hids a hmem r hr haid
    obtain ⟨-, heq⟩ := group_eq hg (List.dropLast_subset _ ha)
    exact ⟨heq, heq ▸ ha⟩
  obtain ⟨keeper, hkeeper, hkey, hnewest, hlast, hplace⟩ := exists_newest key hl hids hr
  have hgroup : groupOf key l r ∈ groupsBy key l := mem_groupsBy.mpr ⟨r, hr, rfl⟩
  rcases hplace with ⟨rfl, hnot⟩ | ⟨hbefore, hage⟩
  · refine .inl ⟨hnewest, List.findSome?_eq_none_iff.mpr fun g hg => ?_⟩
    rw [if_neg fun hid => hnot (hown g hg hid).2]
  · have hnamed : r.id ∈ (groupOf key l r).dropLast.map (·.id) :=
      List.mem_map.mpr ⟨r, hbefore, rfl⟩
    have hsome : (keeperIn (groupsBy key l) r).isSome := by
      rw [keeperIn, List.findSome?_isSome_iff]
      exact ⟨_, hgroup, by rw [if_pos hnamed, hlast]; rfl⟩
    obtain ⟨byId, hby⟩ := Option.isSome_iff_exists.mp hsome
    refine .inr ⟨keeper, hkeeper, hkey, hnewest, hage, fun hself => ?_, ?_⟩
    · rw [hself.unique hnewest hkey.symm] at hage
      exact lt_irrefl _ hage
    · obtain ⟨g, hg, hgby⟩ := List.exists_of_findSome?_eq_some hby
      split at hgby
      · rename_i hid
        rw [(hown g hg hid).1, hlast] at hgby
        rw [hby, ← hgby]
        rfl
      · cases hgby

/-- **A row of the list in one pass**: the newest of its group stays, and
supersedes it otherwise. -/
theorem Collapses.cases_of_mem (h : Collapses subjectId (groupsBy key l) r r') (hl : l.Nodup)
    (hids : ∀ a ∈ l, ∀ b ∈ l, a.id = b.id → a = b) (hr : r ∈ l) (hsubject : r.subjectId = subjectId)
    (hstatus : r.status = .active) :
    (IsNewest key l r ∧ r' = r) ∨ ∃ keeper now, keeper ∈ l ∧ key keeper = key r ∧
      IsNewest key l keeper ∧ ¬ IsNewest key l r ∧ age r < age keeper ∧
      r' = supersededRow keeper.id now r := by
  rcases keeperIn_groupsBy key hl hids hr with ⟨hnewest, hnone⟩ |
    ⟨keeper, hkeeper, hkey, hnewest, hage, hnot, hsome⟩
  · cases h with
    | kept => exact .inl ⟨hnewest, rfl⟩
    | superseded _ _ hby =>
      rw [hnone] at hby
      cases hby
  · cases h with
    | kept hnone =>
      rw [hnone hsubject hstatus] at hsome
      cases hsome
    | @superseded byId now _ _ hby =>
      rw [hsome] at hby
      cases hby
      exact .inr ⟨keeper, now, hkeeper, hkey, hnewest, hnot, hage, rfl⟩

/-- What is not active stays as it is. -/
theorem Collapses.eq_of_not_active (h : Collapses subjectId groups r r')
    (hr : ¬ (r.subjectId = subjectId ∧ r.status = .active)) : r' = r := by
  cases h with
  | kept => rfl
  | superseded hsubject hstatus => exact absurd ⟨hsubject, hstatus⟩ hr

/-- No group supersedes a row it does not have. -/
theorem Collapses.eq_of_fresh (h : Collapses subjectId (groupsBy key l) r r')
    (hfresh : ∀ a ∈ l, a.id ≠ r.id) : r' = r := by
  cases h with
  | kept => rfl
  | superseded _ _ hby =>
    obtain ⟨g, hg, hgby⟩ := List.exists_of_findSome?_eq_some hby
    split at hgby
    · rename_i hid
      obtain ⟨a, ha, haid⟩ := List.mem_map.mp hid
      exact absurd haid (hfresh a (group_eq hg (List.dropLast_subset _ ha)).1)
    · cases hgby

/-- Where every two rows of a list differ in their keys, each group has one. -/
theorem length_le_one_of_mem_groupsBy (hl : l.Nodup)
    (hkeys : ∀ a ∈ l, ∀ b ∈ l, key a = key b → a = b) (hg : g ∈ groupsBy key l) : g.length ≤ 1 := by
  obtain ⟨r, -, rfl⟩ := mem_groupsBy.mp hg
  have hnodup : (groupOf key l r).Nodup := (List.perm_insertionSort _ _).nodup_iff.mpr (hl.filter _)
  rcases hgroup : groupOf key l r with - | ⟨a, - | ⟨b, rest⟩⟩
  · exact Nat.zero_le _
  · exact le_refl _
  · obtain ⟨ha, hka⟩ := mem_groupOf.mp (hgroup ▸ List.mem_cons_self : a ∈ groupOf key l r)
    obtain ⟨hb, hkb⟩ := mem_groupOf.mp
      (hgroup ▸ List.mem_cons_of_mem _ List.mem_cons_self : b ∈ groupOf key l r)
    rw [hgroup, hkeys a ha b hb (hka.trans hkb.symm)] at hnodup
    simp at hnodup

end Atmem.Memory
