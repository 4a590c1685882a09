import Atmem.Retrieve.Model.Assembly
/-!
# What the choice of rows keeps

Each round takes one row off the rows that remain, and chooses it or drops
it. So what is chosen was nominated, each row once, there are no more of
them than the limit, and of one group no more than its limit allows, but
for the rows a known conflict needs.
-/

namespace Atmem.Assembly

open Checked Sufficiency

variable {L : Language} {H : Hashing} {clock : Reading → Instant} {need : InformationNeed}
variable {bearing conflicts : List String} {contextBytes : ℕ} {rows : List Nominee}
variable {s s' : Selection}

/-! ## One round -/

/-- The best is one of them. -/
theorem best_mem {ranked : List Ranked} {r : Ranked} (h : best ranked = some r) : r ∈ ranked := by
  have hfold : ∀ (rs : List Ranked) (top : Ranked),
      rs.foldl (fun top r => if top.key < r.key then r else top) top ∈ top :: rs := by
    intro rs
    induction rs with
    | nil => exact fun top => List.mem_cons_self
    | cons r rs ih =>
      intro top
      rw [List.foldl_cons]
      split
      · exact List.mem_cons_of_mem _ (ih r)
      · rcases List.mem_cons.mp (ih top) with heq | hmem
        · rw [heq]
          exact List.mem_cons_self
        · exact List.mem_cons_of_mem _ (List.mem_cons_of_mem _ hmem)
  cases ranked with
  | nil => cases h
  | cons r' rs =>
    cases h
    exact hfold rs r'

/-- A row that is ranked has room in its group, or a conflict needs it. -/
theorem rank_spec {index : ℕ} {row : Nominee} {r : Ranked}
    (h : s.rank L need bearing conflicts index row = .ok (some r)) :
    r.row = row ∧ r.index = index ∧ (row.recordId ∈ conflicts ∨
      s.groupCount L row.toTypedRow < evidenceGroupLimit L row.toTypedRow) := by
  unfold Selection.rank at h
  split at h
  · cases h
  · rename_i hroom
    obtain ⟨slots, -, h⟩ := bind_eq_ok_iff.mp h
    cases h
    refine ⟨rfl, rfl, ?_⟩
    by_cases hconflict : row.recordId ∈ conflicts
    · exact .inl hconflict
    · exact .inr (Nat.lt_of_not_le fun hfull => hroom ⟨hfull, hconflict⟩)

/-- **What a round does**: nothing, or one row goes, and may be chosen. -/
theorem round_spec {goesOn : Bool}
    (h : s.round L H clock need bearing conflicts contextBytes = .ok (s', goesOn)) :
    (s' = s ∧ goesOn = false) ∨ ∃ (i : ℕ) (row : Nominee), s.remaining[i]? = some row ∧
      s'.remaining = s.remaining.eraseIdx i ∧
      (s'.chosen = s.chosen ∨ s'.chosen = s.chosen ++ [row] ∧ (row.recordId ∈ conflicts ∨
        s.groupCount L row.toTypedRow < evidenceGroupLimit L row.toTypedRow)) := by
  unfold Selection.round at h
  obtain ⟨ranked, hranked, h⟩ := bind_eq_ok_iff.mp h
  split at h
  · -- no candidate is left
    cases h
    exact .inl ⟨rfl, rfl⟩
  · -- the best one is taken out
    rename_i top htop
    have hmem : some top ∈ ranked := List.reduceOption_mem_iff.mp (best_mem htop)
    obtain ⟨entry, hentry, hrank⟩ := exists_of_mem_mapM hranked hmem
    obtain ⟨hrow, hindex, hroom⟩ := rank_spec hrank
    have hat : s.remaining[top.index]? = some top.row := by
      rw [hrow, hindex]
      exact List.mk_mem_zipIdx_iff_getElem?.mp hentry
    have htake : (s.take need top contextBytes).1.remaining = s.remaining.eraseIdx top.index ∧
        ((s.take need top contextBytes).1.chosen = s.chosen ∨
          (s.take need top contextBytes).1.chosen = s.chosen ++ [top.row]) := by
      unfold Selection.take
      dsimp only
      split
      · exact ⟨rfl, .inl rfl⟩
      · exact ⟨rfl, .inr rfl⟩
    have hs' : s' = (s.take need top contextBytes).1 := by
      revert h
      dsimp only
      split
      · intro h
        obtain ⟨d, -, h⟩ := bind_eq_ok_iff.mp h
        cases h
        rfl
      · intro h
        cases h
        rfl
    rw [hs']
    refine .inr ⟨top.index, top.row, hat, htake.1, htake.2.imp id fun hchosen => ⟨hchosen, ?_⟩⟩
    rw [hrow]
    exact hroom

/-! ## The loop -/

/-- What the rounds keep. -/
structure Selected (L : Language) (conflicts : List String) (rows : List Nominee)
    (s : Selection) : Prop where
  nominated : (s.chosen ++ s.remaining).Subperm rows
  few : s.chosen.length ≤ maxContextUnits
  grouped : ∀ group, s.chosen.countP (fun row =>
    evidenceGroup L row.toTypedRow = group ∧ row.recordId ∉ conflicts) ≤ 4

/-- No group has more than four. -/
theorem evidenceGroupLimit_le (row : TypedRow) : evidenceGroupLimit L row ≤ 4 := by
  unfold evidenceGroupLimit
  dsimp only
  split_ifs <;> decide

/-- **A round keeps it**, where there is room for one more. -/
theorem Selected.round (hs : Selected L conflicts rows s)
    (hroom : s.chosen.length < maxContextUnits) {goesOn : Bool}
    (h : s.round L H clock need bearing conflicts contextBytes = .ok (s', goesOn)) :
    Selected L conflicts rows s' := by
  rcases round_spec h with ⟨rfl, -⟩ | ⟨i, row, hat, hremaining, hchosen⟩
  · exact hs
  · have hperm : (row :: s.remaining.eraseIdx i).Perm s.remaining := by
      obtain ⟨hi, rfl⟩ := List.getElem?_eq_some_iff.mp hat
      exact List.getElem_cons_eraseIdx_perm hi
    rcases hchosen with hchosen | ⟨hchosen, hgroup⟩
    · refine ⟨?_, hchosen ▸ hs.few, hchosen ▸ hs.grouped⟩
      rw [hchosen, hremaining]
      -- a row that is passed over is gone from what remains
      have hsub : (s.remaining.eraseIdx i).Subperm s.remaining :=
        (List.eraseIdx_sublist _ i).subperm
      exact ((List.subperm_append_left _).mpr hsub).trans hs.nominated
    · refine ⟨?_, ?_, fun group => ?_⟩
      · rw [hchosen, hremaining, List.append_assoc, List.singleton_append]
        exact (hperm.append_left _).subperm.trans hs.nominated
      · rw [hchosen, List.length_append]
        exact hroom
      · -- of its own group the row was counted before it was taken
        rw [hchosen, List.countP_append]
        have hlast : ∀ p : Nominee → Bool, [row].countP p = if p row then 1 else 0 := fun p => by
          simp [List.countP_cons]
        rw [hlast]
        split
        · rename_i hrow
          obtain ⟨rfl, hfree⟩ := of_decide_eq_true hrow
          rcases hgroup with hconflict | hbelow
          · exact absurd hconflict hfree
          · have hle : s.chosen.countP (fun other => evidenceGroup L other.toTypedRow =
                evidenceGroup L row.toTypedRow ∧ other.recordId ∉ conflicts) ≤
                s.groupCount L row.toTypedRow :=
              List.countP_mono_left fun other _ hother =>
                decide_eq_true (of_decide_eq_true hother).1
            have hlimit := evidenceGroupLimit_le (L := L) row.toTypedRow
            omega
        · exact hs.grouped group

/-- **Every run keeps it.** -/
theorem Selected.run (hs : Selected L conflicts rows s) {rounds : ℕ}
    (h : s.run L H clock need bearing conflicts contextBytes rounds = .ok s') :
    Selected L conflicts rows s' := by
  induction rounds generalizing s with
  | zero =>
    cases h
    exact hs
  | succ rounds ih =>
    rw [Selection.run] at h
    split at h
    · cases h
      exact hs
    · rename_i hmore
      obtain ⟨⟨s₁, goesOn⟩, hround, h⟩ := bind_eq_ok_iff.mp h
      have hs₁ := hs.round (Nat.lt_of_not_le fun hfull => hmore (.inr hfull)) hround
      revert h
      dsimp only
      split
      · exact ih hs₁
      · intro h
        cases h
        exact hs₁

/-- **The rounds suffice**: after as many as there are rows, one more does
nothing. -/
theorem run_succ {rounds : ℕ} (hrounds : s.remaining.length ≤ rounds) :
    s.run L H clock need bearing conflicts contextBytes (rounds + 1) =
      s.run L H clock need bearing conflicts contextBytes rounds := by
  induction rounds generalizing s with
  | zero =>
    have hnil : s.remaining = [] := List.eq_nil_of_length_eq_zero (Nat.le_zero.mp hrounds)
    exact if_pos (Or.inl hnil)
  | succ rounds ih =>
    unfold Selection.run
    split
    · rfl
    · cases hround : s.round L H clock need bearing conflicts contextBytes with
      | error e => rfl
      | ok result =>
        obtain ⟨s₁, goesOn⟩ := result
        cases goesOn with
        | false => rfl
        | true =>
          rcases round_spec hround with ⟨-, hstop⟩ | ⟨i, row, hat, hremaining, -⟩
          · cases hstop
          · obtain ⟨hi, -⟩ := List.getElem?_eq_some_iff.mp hat
            have hfewer : s₁.remaining.length ≤ rounds := by
              rw [hremaining, List.length_eraseIdx_of_lt hi]
              omega
            exact ih hfewer

/-- **What is chosen** is chosen of the nominees. -/
theorem complementaryRows_spec {chosen : List Nominee}
    (h : complementaryRows L H clock need rows contextBytes = .ok chosen) :
    ∃ full, decide L H (clock .nominees) need rows = .ok full ∧
      chosen.Subperm rows ∧ chosen.length ≤ maxContextUnits ∧
      ∀ group, chosen.countP (fun row => evidenceGroup L row.toTypedRow = group ∧
        row.recordId ∉ conflictEvidenceIds L rows full.val.contradictionIds) ≤ 4 := by
  obtain ⟨full, hfull, h⟩ := bind_eq_ok_iff.mp h
  obtain ⟨s, hrun, h⟩ := bind_eq_ok_iff.mp h
  cases h
  have hstart : Selected L (conflictEvidenceIds L rows full.val.contradictionIds) rows
      { remaining := rows.insertionSort fun a b =>
          comesFirst (full.val.evidenceIds ++ full.val.contradictionIds) rows.length a b = true } :=
    ⟨(List.perm_insertionSort _ rows).subperm, Nat.zero_le _, fun _ => Nat.zero_le _⟩
  have hs := hstart.run hrun
  exact ⟨full, hfull, (List.sublist_append_left _ _).subperm.trans hs.nominated, hs.few, hs.grouped⟩

end Atmem.Assembly
