import Atmem.Common.Checked
import Atmem.Continuity.Model.Calls
/-!
# What a scan finds

What the vault holds after an append, what the scan for a workflow finds then,
and what a call knows once the latest revision was read or a new one was
saved.
-/

namespace Atmem.Continuity

open Evidence Checked

variable {α : Type}

/-! ## Contents -/

@[simp] theorem contents_append (x : Surroundings α) (v : Vault α) (d : Document α) :
    (v.append x d).contents = v.contents ++ [d] := by
  simp [Vault.append, Vault.contents]

@[simp] theorem contents_appendAll (x : Surroundings α) (v : Vault α) (ds : List (Document α)) :
    (v.appendAll x ds).contents = v.contents ++ ds := by
  unfold Vault.appendAll
  induction ds generalizing v with
  | nil => simp
  | cons d ds ih => rw [List.foldl_cons, ih, contents_append, List.append_assoc]; rfl

/-! ## Scans -/

variable {wid : String}

/-- A scan goes on where it stopped. -/
theorem scan_append (ds es : List (Document α)) :
    scan wid (ds ++ es) = scan wid ds >>= fun found => es.foldlM (scanDocument wid) found := by
  unfold scan
  rw [List.foldlM_append]

/-- A document of another workflow is passed over. -/
theorem scanDocument_of_ne {d : Document α} (h : d.workflowId ≠ some wid)
    (found : Option (Workflow α)) : scanDocument wid found d = .ok found := by
  cases d with
  | tombstone t => exact if_neg fun heq => h (congrArg some heq)
  | continuity w => exact if_neg fun heq => h (congrArg some heq)
  | event _ _ | settings _ | evidence _ | access _ _ _ => rfl

/-- Documents of other workflows are passed over. -/
theorem foldlM_scanDocument_of_ne {ds : List (Document α)}
    (h : ∀ d ∈ ds, d.workflowId ≠ some wid) (found : Option (Workflow α)) :
    ds.foldlM (scanDocument wid) found = .ok found := by
  induction ds with
  | nil => rfl
  | cons d ds ih =>
    rw [List.foldlM_cons, scanDocument_of_ne (h d List.mem_cons_self)]
    exact ih fun e he => h e (List.mem_cons_of_mem _ he)

/-- So appending them changes no scan. -/
theorem scan_append_of_ne {ds es : List (Document α)} (h : ∀ d ∈ es, d.workflowId ≠ some wid) :
    scan wid (ds ++ es) = scan wid ds := by
  rw [scan_append]
  cases scan wid ds with
  | error e => rfl
  | ok found => exact foldlM_scanDocument_of_ne h found

/-- Events are passed over. -/
theorem foldlM_scanDocument_events (entries : List (Entry α)) (owner : String)
    (found : Option (Workflow α)) :
    (entries.map (Document.event owner)).foldlM (scanDocument wid) found = .ok found := by
  induction entries with
  | nil => rfl
  | cons e es ih => exact ih

/-- What one document does to what was found. -/
theorem scanDocument_ok {found found' : Option (Workflow α)} {d : Document α}
    (h : scanDocument wid found d = .ok found') :
    found' = found ∨ ∃ w, d = .continuity w ∧ w.workflowId = wid ∧
      w.revision = (found.map (·.revision)).getD 0 + 1 ∧ found' = some w := by
  cases d with
  | tombstone t =>
    simp only [scanDocument] at h
    split at h
    · cases h
    · exact .inl (Except.ok.inj h).symm
  | continuity w =>
    simp only [scanDocument] at h
    split at h
    · rename_i hid
      split at h
      · rename_i hrev
        exact .inr ⟨w, rfl, hid, hrev, (Except.ok.inj h).symm⟩
      · cases h
    · exact .inl (Except.ok.inj h).symm
  | event _ _ | settings _ | evidence _ | access _ _ _ => exact .inl (Except.ok.inj h).symm

/-- A scan that came to an end went through the documents before the last. -/
theorem scan_concat {ds : List (Document α)} {d : Document α} {found : Option (Workflow α)}
    (h : scan wid (ds ++ [d]) = .ok found) :
    ∃ before, scan wid ds = .ok before ∧ scanDocument wid before d = .ok found := by
  rw [scan_append] at h
  cases hs : scan wid ds with
  | error e => rw [hs] at h; cases h
  | ok before =>
    rw [hs] at h
    change [d].foldlM (scanDocument wid) before = .ok found at h
    rw [List.foldlM_cons] at h
    cases hd : scanDocument wid before d with
    | error e => rw [hd] at h; cases h
    | ok after =>
      rw [hd] at h
      exact ⟨before, rfl, hd.trans h⟩

/-- **What a scan finds is the workflow that was asked for.** -/
theorem workflowId_of_scan {ds : List (Document α)} {w : Workflow α}
    (h : scan wid ds = .ok (some w)) : w.workflowId = wid := by
  induction ds using List.reverseRecOn with
  | nil => cases h
  | append_singleton ds d ih =>
    obtain ⟨before, hs, hd⟩ := scan_concat h
    rcases scanDocument_ok hd with heq | ⟨u, -, hid, -, heq⟩
    · exact ih (heq ▸ hs)
    · rw [Option.some.inj heq]
      exact hid

/-! ## The latest revision -/

/-- **What `_latest` returns** is what the scan found, with the late receipts
counted. -/
theorem latest_ok {v : Vault α} {w : Workflow α} (h : latest v wid = .ok w) :
    ∃ u, scan wid v.contents = .ok (some u) ∧ u.format = "atmem-workflow-v1" ∧
      w = counted wid v.contents u := by
  unfold latest at h
  cases hs : scan wid v.contents with
  | error e => rw [hs] at h; cases h
  | ok found =>
    rw [hs] at h
    cases found with
    | none => cases h
    | some u =>
      change (if u.format = "atmem-workflow-v1" then _ else _) = _ at h
      split at h
      · rename_i hf
        exact ⟨u, rfl, hf, (Except.ok.inj h).symm⟩
      · cases h

/-! ## Saving -/

variable [LinearOrder α] {E : Engine α} {p : EvidencePrincipal} {x : Surroundings α} {w w' : Workflow α}
variable {event : Happening} {v v' : Vault α}

/-- What a save that was made has checked, and what it wrote. -/
structure Saved (E : Engine α) (p : EvidencePrincipal) (x : Surroundings α) (w : Workflow α)
    (event : Happening) (v : Vault α) (w' : Workflow α) (v' : Vault α) : Prop where
  captured : v.captureMode = .full
  forward : movedBack E w x.saved = false
  room : w.revision < revisionLimit w event
  budget : event.isSafetyControl = false → event.isFinishing = false →
    checkStorageBudget E w' v' = .ok ()
  workflow : w' = savedWorkflow x w
  vault : v' = v.appendAll x ((savedEntries p x w event).map (.event w.workflowId) ++
    [.continuity w'])

/-- It does not raise exactly if the condition fails. -/
theorem raiseIf_ok {c : Prop} [Decidable c] {e : Raised} {u : Unit} :
    raiseIf c e = .ok u ↔ ¬ c := by
  unfold raiseIf
  split
  · exact ⟨(fun h => nomatch h), fun h => absurd ‹_› h⟩
  · exact ⟨fun _ => ‹_›, fun _ => rfl⟩

/-- What a revision that was saved is. -/
theorem save_ok (h : save E p x w event v = .ok (w', v')) : Saved E p x w event v w' v' := by
  unfold save at h
  obtain ⟨_, hc, h⟩ := bind_eq_ok_iff.mp h
  obtain ⟨_, hm, h⟩ := bind_eq_ok_iff.mp h
  obtain ⟨_, hr, h⟩ := bind_eq_ok_iff.mp h
  rw [raiseIf_ok] at hc hm hr
  have hmade : (event.isSafetyControl = false → event.isFinishing = false →
      checkStorageBudget E w' v' = .ok ()) ∧ w' = savedWorkflow x w ∧
      v' = v.appendAll x ((savedEntries p x w event).map (.event w.workflowId) ++
        [.continuity w']) := by
    dsimp only at h
    split at h
    · rename_i hev
      cases h
      refine ⟨fun h1 h2 => ?_, rfl, rfl⟩
      rw [h1, h2] at hev
      cases hev
    · obtain ⟨_, hbudget, h⟩ := bind_eq_ok_iff.mp h
      cases h
      exact ⟨fun _ _ => hbudget, rfl, rfl⟩
  exact ⟨not_not.mp hc, Bool.not_eq_true _ ▸ hm, not_le.mp hr, hmade.1, hmade.2.1, hmade.2.2⟩

namespace Saved

variable (h : Saved E p x w event v w' v')
include h

@[simp] theorem operations : w'.operations = w.operations := by rw [h.workflow]; rfl

/-- Saving leaves the operations. -/
theorem operation (name : String) : w'.operation name = w.operation name := by
  rw [h.workflow]; rfl

theorem format : w'.format = w.format := by rw [h.workflow]; rfl

theorem workflowId : w'.workflowId = w.workflowId := by rw [h.workflow]; rfl

theorem revision : w'.revision = w.revision + 1 := by rw [h.workflow]; rfl

/-- Saving appends its events and the revision. -/
theorem contents : v'.contents = v.contents ++
    ((savedEntries p x w event).map (.event w.workflowId) ++ [.continuity w']) := by
  rw [h.vault]
  exact contents_appendAll x v _

/-- The scan for the workflow finds the revision that was saved, where it
found the one before. -/
theorem scan_self {u : Workflow α} (hs : scan w.workflowId v.contents = .ok (some u))
    (hrev : w.revision = u.revision) : scan w.workflowId v'.contents = .ok (some w') := by
  rw [h.contents, scan_append, hs]
  change List.foldlM _ _ _ = _
  rw [List.foldlM_append, foldlM_scanDocument_events]
  change [Document.continuity w'].foldlM (scanDocument w.workflowId) (some u) = _
  have hd : scanDocument w.workflowId (some u) (.continuity w') = .ok (some w') := by
    simp only [scanDocument]
    rw [if_pos h.workflowId, if_pos (by rw [h.revision, hrev]; rfl)]
  rw [List.foldlM_cons, hd]
  rfl

/-- The scan for another workflow finds what it did. -/
theorem scan_other (hne : wid ≠ w.workflowId) :
    scan wid v'.contents = scan wid v.contents := by
  rw [h.contents]
  refine scan_append_of_ne fun d hd => ?_
  rcases List.mem_append.mp hd with hd | hd
  · obtain ⟨e, -, rfl⟩ := List.mem_map.mp hd
    exact fun heq => hne (Option.some.inj heq).symm
  · rw [List.mem_singleton.mp hd]
    exact fun heq => hne ((Option.some.inj heq).symm.trans h.workflowId)

end Saved

end Atmem.Continuity
