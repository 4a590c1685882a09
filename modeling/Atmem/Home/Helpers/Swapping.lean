import Atmem.Home.Helpers.Codec
import Atmem.Home.Model.Rotation
/-!
# The swap and its undoing

While blobs are swapped, what was set aside is what was there, and what was
not set aside is there; so what is caught before anything is removed can be
undone.
-/

namespace Atmem.Artifacts

open Checked

variable {Key : Type} {E : Engine Key} {raises : Site → Bool}
variable {digest name : String} {digests names : List String}

/-! ## Files -/

namespace Blobs

variable {files original staged : Blobs} {content : Bytes}

/-- An unlinked file is gone, the rest stays. -/
theorem lookup_unlink (files : Blobs) (digest name : String) :
    (Blobs.unlink files digest).lookup name = if name = digest then none else files.lookup name := by
  have hgone : (Blobs.unlink files digest).lookup digest = none := by
    refine List.lookup_eq_none_iff.mpr fun f hf => ?_
    have hne : f.1 ≠ digest := of_decide_eq_true (List.mem_filter.mp hf).2
    exact bne_iff_ne.mpr hne.symm
  split
  · next heq => rw [heq, hgone]
  · next hne =>
    have hstored := Vault.blob?_store_ne (v := { blobs := files }) [] hne
    have hlast : [(digest, ([] : Bytes))].lookup name = none := by
      simp [List.lookup, beq_eq_false_iff_ne.mpr hne]
    rw [Vault.blob?, Vault.store, List.lookup_append, hlast, Option.or_none] at hstored
    exact hstored

/-- A replaced file is the new one, the rest stays. -/
theorem lookup_replace (files : Blobs) (digest name : String) (content : Bytes) :
    (Blobs.replace files digest content).lookup name =
      if name = digest then some content else files.lookup name := by
  split
  · next heq =>
    rw [heq]
    exact Vault.blob?_store (v := { blobs := files }) digest content
  · next hne => exact Vault.blob?_store_ne (v := { blobs := files }) content hne

/-- The names are those of the files. -/
theorem mem_names : name ∈ Blobs.names files ↔ (files.lookup name).isSome := by
  rw [Blobs.names, List.mem_insertionSort, List.mem_eraseDups, Option.isSome_iff_ne_none, ne_eq,
    List.lookup_eq_none_iff, List.mem_map]
  constructor
  · rintro ⟨f, hf, rfl⟩ hnone
    exact absurd (hnone f hf) (by simp)
  · intro hsome
    by_contra hnone
    refine hsome fun f hf => bne_iff_ne.mpr fun heq => hnone ⟨f, hf, heq.symm⟩

theorem nodup_names (files : Blobs) : (Blobs.names files).Nodup :=
  (List.perm_insertionSort _ _).nodup_iff.mpr (Grouping.nodup_eraseDups _)

end Blobs

/-! ## Undoing -/

namespace Disk

variable {d d' : Disk} {original staged : Blobs} {content : Bytes} {i : ℕ}

/-- What is restored is the backup. -/
theorem lookup_restore (d : Disk) (digest name : String) :
    (d.restore digest).blobs.lookup name =
      if name = digest then d.backups.lookup digest else d.blobs.lookup name := by
  rw [restore]
  cases hbackup : d.backups.lookup digest with
  | none => exact Blobs.lookup_unlink d.blobs digest name
  | some content => exact Blobs.lookup_replace d.blobs digest name content

theorem lookup_backups_restore (d : Disk) (h : name ≠ digest) :
    (d.restore digest).backups.lookup name = d.backups.lookup name := by
  rw [restore]
  cases d.backups.lookup digest with
  | none => rfl
  | some content =>
    have hother := Blobs.lookup_unlink d.backups digest name
    rwa [if_neg h] at hother

/-- **What the handler leaves** of each blob is what was set aside, and the
others are left alone. -/
theorem lookup_restoreAll (hnodup : digests.Nodup) (d : Disk) (name : String) :
    (restoreAll digests d).blobs.lookup name =
      if name ∈ digests then d.backups.lookup name else d.blobs.lookup name := by
  induction digests generalizing d with
  | nil => rfl
  | cons digest digests ih =>
    obtain ⟨hfresh, hnodup⟩ := List.nodup_cons.mp hnodup
    rw [restoreAll, ih hnodup, lookup_restore]
    by_cases heq : name = digest
    · subst heq
      rw [if_neg hfresh, if_pos rfl, if_pos List.mem_cons_self]
    · rw [lookup_backups_restore d heq, if_neg heq]
      simp only [List.mem_cons, heq, false_or]

/-! ## Swapping -/

/-- A swap of some blobs under way. -/
structure Swapping (original staged : Blobs) (d : Disk) : Prop where
  nodup : d.moved.Nodup
  /-- What was set aside is what was there. -/
  setAside : ∀ name ∈ d.moved, d.backups.lookup name = original.lookup name
  /-- What was not set aside is there. -/
  untouched : ∀ name ∉ d.moved, d.blobs.lookup name = original.lookup name
  /-- Nothing was brought in but what was staged. -/
  waiting : ∀ name ∉ d.moved, d.staged.lookup name = staged.lookup name

/-- What is in the place of the blobs that were set aside was staged. -/
def Brought (staged : Blobs) (d : Disk) : Prop :=
  ∀ name ∈ d.moved, d.blobs.lookup name = staged.lookup name

/-- Nothing is moved at the start. -/
theorem Swapping.start (original staged backups : Blobs) :
    Swapping original staged { blobs := original, backups, staged } where
  nodup := List.nodup_nil
  setAside _ h := absurd h List.not_mem_nil
  untouched _ _ := rfl
  waiting _ _ := rfl

/-- **A swap under way is undone**: every blob is there again. -/
theorem Swapping.lookup_restoreAll (h : Swapping original staged d) (name : String) :
    (restoreAll d.moved.reverse d).blobs.lookup name = original.lookup name := by
  rw [Disk.lookup_restoreAll (List.nodup_reverse.mpr h.nodup)]
  split
  · next hmem => exact h.setAside name (List.mem_reverse.mp hmem)
  · next hmem => exact h.untouched name fun hmoved => hmem (List.mem_reverse.mpr hmoved)

/-- Setting an original aside. -/
theorem Swapping.aside (h : Swapping original staged d) (hfresh : digest ∉ d.moved)
    (haside : d.setAside digest = some d') :
    Swapping original staged d' ∧ d'.moved = d.moved ++ [digest] ∧
      d'.staged.lookup digest = staged.lookup digest ∧
      ∀ name ≠ digest, d'.blobs.lookup name = d.blobs.lookup name := by
  obtain ⟨content, hcontent, rfl⟩ := Option.map_eq_some_iff.mp haside
  refine ⟨⟨?_, fun name hname => ?_, fun name hname => ?_, fun name hname => ?_⟩, rfl,
    h.waiting digest hfresh, fun name hne => ?_⟩
  · exact List.nodup_append.mpr ⟨h.nodup, List.nodup_singleton _, fun a ha b hb => by
      rw [List.mem_singleton.mp hb]
      exact fun heq => hfresh (heq ▸ ha)⟩
  · rw [Blobs.lookup_replace]
    split
    · next heq => rw [heq, ← h.untouched digest hfresh, hcontent]
    · next hne =>
      rcases List.mem_append.mp hname with hmem | hmem
      · exact h.setAside name hmem
      · exact absurd (List.mem_singleton.mp hmem) hne
  · obtain ⟨hold, hne⟩ := not_or.mp (mt List.mem_append.mpr hname)
    rw [Blobs.lookup_unlink, if_neg (mt List.mem_singleton.mpr hne), h.untouched name hold]
  · exact h.waiting name fun hmem => hname (List.mem_append_left _ hmem)
  · rw [Blobs.lookup_unlink, if_neg hne]

/-- Bringing in what replaces it. -/
theorem Swapping.bring (h : Swapping original staged d) (hmoved : digest ∈ d.moved)
    (hbring : d.bringIn digest = some d') :
    Swapping original staged d' ∧ d'.moved = d.moved ∧
      d'.blobs.lookup digest = d.staged.lookup digest ∧
      ∀ name ≠ digest, d'.blobs.lookup name = d.blobs.lookup name := by
  obtain ⟨content, hcontent, rfl⟩ := Option.map_eq_some_iff.mp hbring
  refine ⟨⟨h.nodup, h.setAside, fun name hname => ?_, fun name hname => ?_⟩, rfl, ?_,
    fun name hne => ?_⟩
  · have hne : name ≠ digest := fun heq => hname (heq ▸ hmoved)
    rw [Blobs.lookup_replace, if_neg hne]
    exact h.untouched name hname
  · have hne : name ≠ digest := fun heq => hname (heq ▸ hmoved)
    rw [Blobs.lookup_unlink, if_neg hne]
    exact h.waiting name hname
  · rw [Blobs.lookup_replace, if_pos rfl, hcontent]
  · rw [Blobs.lookup_replace, if_neg hne]

/-- Where a blob is there and staged, nothing but a failure keeps it from being
swapped. -/
theorem Swapping.renames (h : Swapping original staged d) (hfresh : digest ∉ d.moved)
    (hthere : (original.lookup digest).isSome) (hstaged : (staged.lookup digest).isSome) :
    ∃ d₁ d₂, d.setAside digest = some d₁ ∧ d₁.bringIn digest = some d₂ := by
  obtain ⟨content, hcontent⟩ := Option.isSome_iff_exists.mp hthere
  obtain ⟨content', hcontent'⟩ := Option.isSome_iff_exists.mp hstaged
  obtain ⟨d₁, haside⟩ : ∃ d₁, d.setAside digest = some d₁ :=
    ⟨_, Option.map_eq_some_iff.mpr ⟨content, (h.untouched digest hfresh).trans hcontent, rfl⟩⟩
  obtain ⟨d₂, hbring⟩ : ∃ d₂, d₁.bringIn digest = some d₂ :=
    ⟨_, Option.map_eq_some_iff.mpr
      ⟨content', (h.aside hfresh haside).2.2.1.trans hcontent', rfl⟩⟩
  exact ⟨d₁, d₂, haside, hbring⟩

/-- One more blob is swapped. -/
theorem Swapping.step (h : Swapping original staged d) (hbrought : Brought staged d)
    (hfresh : digest ∉ d.moved) {d₁ d₂ : Disk} (haside : d.setAside digest = some d₁)
    (hbring : d₁.bringIn digest = some d₂) :
    Swapping original staged d₂ ∧ Brought staged d₂ ∧ d₂.moved = d.moved ++ [digest] := by
  obtain ⟨h₁, hmoved₁, hwaiting₁, hblobs₁⟩ := h.aside hfresh haside
  have hmem₁ : digest ∈ d₁.moved := by
    rw [hmoved₁]
    exact List.mem_append_right _ List.mem_cons_self
  obtain ⟨h₂, hmoved₂, hnew₂, hblobs₂⟩ := h₁.bring hmem₁ hbring
  refine ⟨h₂, fun name hname => ?_, hmoved₂.trans hmoved₁⟩
  by_cases heq : name = digest
  · rw [heq]
    exact hnew₂.trans hwaiting₁
  · rw [hmoved₂, hmoved₁] at hname
    have hold : name ∈ d.moved :=
      (List.mem_append.mp hname).resolve_right (mt List.mem_singleton.mp heq)
    rw [hblobs₂ name heq, hblobs₁ name heq]
    exact hbrought name hold

/-- The renames of some blobs go through. -/
def Renames (raises : Site → Bool) (i n : ℕ) : Prop :=
  ∀ j, i ≤ j → j < i + n → raises (.setAside j) = false ∧ raises (.bringIn j) = false

/-- One artifact after another. -/
theorem renames_succ {n : ℕ} (haside : ¬ raises (.setAside i) = true)
    (hbring : ¬ raises (.bringIn i) = true) :
    Renames raises i (n + 1) ↔ Renames raises (i + 1) n := by
  constructor
  · intro hall j hi hj
    exact hall j (by omega) (by omega)
  · intro hall j hi hj
    rcases Nat.eq_or_lt_of_le hi with rfl | hlt
    · exact ⟨Bool.eq_false_iff.mpr haside, Bool.eq_false_iff.mpr hbring⟩
    · exact hall j hlt (by omega)

/-- **The loop of the renames**: it keeps a swap under way, and brings in every
blob unless one of its renames fails. -/
theorem Swapping.swapAll (raises : Site → Bool) (i : ℕ) (h : Swapping original staged d)
    (hbrought : Brought staged d) (hnodup : digests.Nodup)
    (hfresh : ∀ name ∈ digests, name ∉ d.moved)
    (hthere : ∀ name ∈ digests, (original.lookup name).isSome)
    (hstaged : ∀ name ∈ digests, (staged.lookup name).isSome) :
    Swapping original staged (swapAll raises i digests d).2 ∧
      (((swapAll raises i digests d).1 = .ok () ∧ Renames raises i digests.length ∧
          Brought staged (swapAll raises i digests d).2 ∧
          (swapAll raises i digests d).2.moved = d.moved ++ digests) ∨
        ((∃ e, (swapAll raises i digests d).1 = .error e) ∧
          ¬ Renames raises i digests.length)) := by
  induction digests generalizing i d with
  | nil =>
    refine ⟨h, .inl ⟨rfl, fun j hi hj => absurd hj (by simp [hi]), hbrought, ?_⟩⟩
    exact (List.append_nil _).symm
  | cons digest digests ih =>
    obtain ⟨hnew, hnodup⟩ := List.nodup_cons.mp hnodup
    have hnotMoved := hfresh digest List.mem_cons_self
    obtain ⟨d₁, d₂, haside, hbring⟩ := h.renames hnotMoved (hthere digest List.mem_cons_self)
      (hstaged digest List.mem_cons_self)
    rw [Disk.swapAll]
    split
    · next hraise =>
      -- the blob is still in its place
      refine ⟨h, .inr ⟨⟨_, rfl⟩, fun hall => ?_⟩⟩
      have hfirst := (hall i le_rfl (by simp)).1
      rw [hraise] at hfirst
      cases hfirst
    · next hquiet =>
      rw [haside]
      dsimp only
      split
      · next hraise =>
        -- the blob is set aside, and no other brought in
        refine ⟨(h.aside hnotMoved haside).1, .inr ⟨⟨_, rfl⟩, fun hall => ?_⟩⟩
        have hfirst := (hall i le_rfl (by simp)).2
        rw [hraise] at hfirst
        cases hfirst
      · next hquiet' =>
        rw [hbring]
        dsimp only
        obtain ⟨h₂, hbrought₂, hmoved₂⟩ := h.step hbrought hnotMoved haside hbring
        have hfresh₂ : ∀ name ∈ digests, name ∉ d₂.moved := by
          intro name hname hmoved
          rw [hmoved₂] at hmoved
          rcases List.mem_append.mp hmoved with hmem | hmem
          · exact hfresh name (List.mem_cons_of_mem _ hname) hmem
          · exact hnew (List.mem_singleton.mp hmem ▸ hname)
        obtain ⟨hswapping, hend⟩ := ih (i := i + 1) h₂ hbrought₂ hnodup hfresh₂
          (fun name hname => hthere name (List.mem_cons_of_mem _ hname))
          (fun name hname => hstaged name (List.mem_cons_of_mem _ hname))
        rw [List.length_cons, renames_succ hquiet hquiet']
        refine ⟨hswapping, hend.imp_left ?_⟩
        rintro ⟨hok, hall, hin, hmoved⟩
        refine ⟨hok, hall, hin, ?_⟩
        rw [hmoved, hmoved₂, List.append_assoc]
        rfl

/-! ## Removing -/

/-- The loop of the removals touches what was set aside, and nothing else. -/
theorem removeAll_blobs (raises : Site → Bool) (i : ℕ) (digests : List String) (d : Disk) :
    (removeAll raises i digests d).2.blobs = d.blobs ∧
      (removeAll raises i digests d).2.moved = d.moved := by
  induction digests generalizing i d with
  | nil => exact ⟨rfl, rfl⟩
  | cons digest digests ih =>
    rw [removeAll]
    split
    · exact ⟨rfl, rfl⟩
    · exact ih (i + 1) _

/-- The removals go through up to one of them. -/
def FailsAt (raises : Site → Bool) (i k : ℕ) : Prop :=
  (∀ j, i ≤ j → j < k → raises (.removeBackup j) = false) ∧ raises (.removeBackup k) = true

/-- Every backup was removed, if the removal succeeded. -/
theorem removeAll_ok (h : (removeAll raises i digests d).1 = .ok ()) :
    ∀ j, i ≤ j → j < i + digests.length → raises (.removeBackup j) = false := by
  induction digests generalizing i d with
  | nil => exact fun j hi hj => absurd hj (by simp [hi])
  | cons digest digests ih =>
    rw [removeAll] at h
    split at h
    · cases h
    · next hquiet =>
      intro j hi hj
      rw [List.length_cons] at hj
      rcases Nat.eq_or_lt_of_le hi with rfl | hlt
      · exact Bool.eq_false_iff.mpr hquiet
      · exact ih h j hlt (by omega)

/-- **The loop of the removals** fails at one of them, and those before are
gone. -/
theorem removeAll_error {e : Raised} (h : (removeAll raises i digests d).1 = .error e) :
    ∃ k, i ≤ k ∧ k < i + digests.length ∧ FailsAt raises i k ∧
      ∀ name, (removeAll raises i digests d).2.backups.lookup name =
        if name ∈ digests.take (k - i) then none else d.backups.lookup name := by
  induction digests generalizing i d with
  | nil => cases h
  | cons digest digests ih =>
    rw [removeAll] at h ⊢
    split at h
    · next hraise =>
      refine ⟨i, le_rfl, by simp, ⟨fun j hi hj => absurd hj (by omega), hraise⟩, fun name => ?_⟩
      rw [if_pos hraise]
      simp
    · next hquiet =>
      obtain ⟨k, hik, hk, ⟨hbefore, hat⟩, hleft⟩ := ih h
      refine ⟨k, by omega, by rw [List.length_cons]; omega, ⟨fun j hi hj => ?_, hat⟩, fun name => ?_⟩
      · rcases Nat.eq_or_lt_of_le hi with rfl | hlt
        · exact Bool.eq_false_iff.mpr hquiet
        · exact hbefore j hlt hj
      · have hsucc : k - i = (k - (i + 1)) + 1 := by omega
        rw [if_neg hquiet, hleft, Blobs.lookup_unlink, hsucc, List.take_succ_cons]
        by_cases heq : name = digest
        · simp [heq]
        · simp [heq]

/-- **What the handler leaves** when a removal has failed: the blobs whose
copies were removed are gone. -/
theorem Swapping.lookup_restoreAll_removed (h : Swapping original staged d) {e : Raised}
    (hremove : removeAll raises 0 d.moved d = (.error e, d')) :
    ∃ k < d.moved.length, FailsAt raises 0 k ∧ ∀ name,
      (restoreAll d'.moved.reverse d').blobs.lookup name =
        if name ∈ d.moved.take k then none else original.lookup name := by
  obtain ⟨k, -, hk, hfails, hleft⟩ := removeAll_error (congrArg Prod.fst hremove)
  obtain ⟨hblobs, hmoved⟩ := removeAll_blobs raises 0 d.moved d
  rw [hremove] at hblobs hmoved hleft
  dsimp only at hblobs hmoved hleft
  refine ⟨k, by omega, hfails, fun name => ?_⟩
  rw [hmoved, Disk.lookup_restoreAll (List.nodup_reverse.mpr h.nodup)]
  simp only [List.mem_reverse]
  rw [hleft, Nat.sub_zero, hblobs]
  split
  · next hmem => rw [h.setAside name hmem]
  · next hmem =>
    rw [if_neg (fun htake => hmem (List.mem_of_mem_take htake)), h.untouched name hmem]

end Disk

end Atmem.Artifacts
