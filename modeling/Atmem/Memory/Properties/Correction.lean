import Atmem.Memory.Helpers.Preconditions
import Atmem.Memory.Helpers.Statements
/-!
# What a correction leaves in the slot

A correction is remembered as an interpreted fact, whose key goes through the
normal form of content; a fact of the rules and a typed one keep theirs as it
is. So the corrected value stays in the slot of the record it replaces exactly
where the key is its own normal form (`correction_keeps_slot_iff`).
-/

namespace Atmem.Memory

open Relational Transactional

variable {E : Engine} {w w' : MemoryWorld} {subjectId recordId text key replacementId : String}
variable {old : RecordRow} {q : RememberRequest} {c : CandidateFact} {id episodeId : String}

/-! ## Remembering one fact -/

/-- **A trusted fact that is stored** is a new active record of its key, and
supersedes the active records of that key. -/
theorem rememberCandidate_eq_inr (htrust : initialStatus c.trustTier = .active)
    (h : exec (rememberCandidate E q episodeId c) w = (.ok (.inr id), w')) :
    ∃ (new : RecordRow) (now : Instant), new.id = id ∧ new.subjectId = q.subjectId ∧ new.factKey = c.factKey ∧
      new.status = .active ∧ (∀ r ∈ w.store.records.rows, r.id ≠ id) ∧
      w'.store.records.rows = (w.store.records.rows ++ [new]).map (retired q.subjectId id now
        ((w.store.activeRecordsForFactKey q.subjectId c.factKey).map (·.id))) := by
  unfold rememberCandidate at h
  rw [exec_bind_ok (exec_readStore _)] at h
  split at h
  · rw [exec_pure] at h
    cases h
  · rw [exec_bind_ok (exec_readStore _), if_pos htrust] at h
    obtain ⟨newId, w₁, hinsert, h⟩ := exec_bind_eq_ok.mp h
    obtain ⟨⟨⟩, w₂, hsupersede, h⟩ := exec_bind_eq_ok.mp h
    rw [exec_pure] at h
    cases h
    obtain ⟨records, hrecords, hid, hw₁⟩ := exec_insertRecord_eq_ok.mp hinsert
    obtain ⟨hfresh, hrows⟩ := Table.insert_eq_some.mp hrecords
    obtain ⟨w₃, hexec, hretired, -⟩ := exec_supersedeRecords q.subjectId
      ((w.store.activeRecordsForFactKey q.subjectId c.factKey).map (·.id)) id w₁
    rw [hsupersede] at hexec
    cases hexec
    rw [hw₁] at hretired
    dsimp only at hretired
    rw [records_stored, hrows] at hretired
    refine ⟨_, _, ?_, ?_, ?_, ?_, fun r hr hrid => ?_, hretired⟩
    · exact hid.symm
    · rfl
    · rfl
    · exact htrust
    · have hclash := hfresh r hr
      simp [idClash, rowOf, NewRecord.row, hrid, hid] at hclash

/-- Looking for a duplicate changes nothing. -/
theorem world_of_interpretedDuplicate {duplicate : Option RecordRow}
    (h : exec (interpretedDuplicate E q) w = (.ok duplicate, w')) : w' = w := by
  unfold interpretedDuplicate at h
  split at h
  · cases h
    rfl
  · dsimp only at h
    split at h
    · cases h
    · cases h
      rfl

/-! ## A correction -/

/-- The active records of a key. -/
def MemoryStore.slot (s : MemoryStore) (subjectId key : String) : List RecordRow :=
  s.records.rows.filter fun r => r.subjectId = subjectId ∧ r.status = .active ∧
    r.factKey = some key

/-- **The correction is alone in the slot**: one record of the key is active,
the replacement, and the record it replaces is superseded by it. -/
def KeepsSlot (s : MemoryStore) (subjectId recordId key replacementId : String) : Prop :=
  ∃ new old, s.slot subjectId key = [new] ∧ new.id = replacementId ∧ new.factKey = some key ∧
    s.getRecord subjectId recordId = some old ∧ old.status = .superseded ∧
    old.raw.supersededById = some replacementId

/-- The fact a correction is remembered as, and its key. -/
theorem remember_correction (hkey : old.factKey = some key) (hne : key ≠ "")
    {result : Remembered}
    (h : exec (remember E (correctionRequest subjectId recordId text old)) w = (.ok result, w'))
    (hid : replacementId ∈ result.recordIds) :
    ∃ (new : RecordRow) (now : Instant), new.id = replacementId ∧ new.subjectId = subjectId ∧
      new.factKey = some (normalizeContent E.unicode key) ∧ new.status = .active ∧
      (∀ r ∈ w.store.records.rows, r.id ≠ replacementId) ∧
      w'.store.records.rows = (w.store.records.rows ++ [new]).map
        (retired subjectId replacementId now ((w.store.activeRecordsForFactKey subjectId
          (some (normalizeContent E.unicode key))).map (·.id))) := by
  have hcandidates : (correctionRequest subjectId recordId text old).candidates E =
      [(correctionRequest subjectId recordId text old).interpreted E text] := rfl
  have hsource : (correctionRequest subjectId recordId text old).source E = "user_message" := rfl
  have hfactKey : ((correctionRequest subjectId recordId text old).interpreted E text).factKey =
      some (normalizeContent E.unicode key) := by
    have htruthy : truthy old.factKey = true := by
      rw [hkey]
      simpa [truthy] using hne
    simp only [RememberRequest.interpreted, correctionRequest, if_pos htruthy]
    rw [hkey]
    rfl
  unfold remember at h
  rw [if_neg fun hcond => hcond.2 hsource] at h
  split at h
  · rw [exec_pure] at h
    cases h
    cases hid
  · obtain ⟨duplicate, w₁, hduplicate, h⟩ := exec_bind_eq_ok.mp h
    obtain rfl := world_of_interpretedDuplicate hduplicate
    rcases duplicate with - | row
    · -- no duplicate: the one candidate is remembered
      obtain ⟨episodeId, w₂, hepisode, h⟩ := exec_bind_eq_ok.mp h
      cases hepisode
      rw [hcandidates] at h
      obtain ⟨one, w₃, hone, h⟩ := exec_bind_eq_ok.mp h
      cases h
      rcases one with duplicateId | newId
      · cases hid
      · obtain rfl := List.mem_singleton.mp hid
        obtain ⟨new, now, hnew, hsubject, hfact, hactive, hfresh, hrows⟩ :=
          rememberCandidate_eq_inr rfl hone
        rw [hfactKey] at hfact hrows
        exact ⟨new, now, hnew, hsubject, hfact, hactive, hfresh, hrows⟩
    · cases h
      cases hid

/-- **A correction that answers**: its record is stored, the active records of
its key are superseded by it, and the record that was corrected is. -/
theorem correctRecord_eq_ok (hold : w.store.getRecord subjectId recordId = some old)
    (hkey : old.factKey = some key) (hne : key ≠ "")
    (h : exec (correctRecord E subjectId recordId text) w = (.ok replacementId, w')) :
    old.status = .active ∧ ∃ (new : RecordRow) (now now' : Instant), new.id = replacementId ∧
      new.subjectId = subjectId ∧ new.factKey = some (normalizeContent E.unicode key) ∧
      new.status = .active ∧ (∀ r ∈ w.store.records.rows, r.id ≠ replacementId) ∧
      w'.store.records.rows = ((w.store.records.rows ++ [new]).map
        (retired subjectId replacementId now ((w.store.activeRecordsForFactKey subjectId
          (some (normalizeContent E.unicode key))).map (·.id)))).map
        (retired subjectId replacementId now' [recordId]) := by
  unfold correctRecord at h
  rw [exec_bind_ok (exec_readStore _), hold] at h
  dsimp only at h
  split at h
  · cases h
  · rename_i hactive
    split at h
    · cases h
    · obtain ⟨result, w₁, hremember, h⟩ := exec_bind_eq_ok.mp h
      rcases hids : result.recordIds with - | ⟨newId, rest⟩
      · rw [hids] at h
        cases h
      · rw [hids] at h
        obtain ⟨⟨⟩, w₂, hsupersede, h⟩ := exec_bind_eq_ok.mp h
        cases h
        obtain ⟨new, now, hnew, hsubject, hfact, hstatus, hfresh, hrows⟩ :=
          remember_correction hkey hne hremember (by rw [hids]; exact List.mem_cons_self)
        obtain ⟨w₃, hexec, hretired, -⟩ := exec_supersedeRecords subjectId [recordId]
          replacementId w₁
        rw [hsupersede] at hexec
        cases hexec
        refine ⟨not_not.mp hactive, new, now, w₁.clock w₁.ticks, hnew, hsubject, hfact, hstatus,
          hfresh, ?_⟩
        rw [hretired, hrows]

/-- An active record under a key is found by it. -/
theorem id_mem_activeRecords {s : MemoryStore} {r : RecordRow} (hr : r ∈ s.records.rows)
    (hsubject : r.subjectId = subjectId) (hactive : r.status = .active)
    (hkey : r.factKey = some key) (hne : key ≠ "") :
    r.id ∈ (s.activeRecordsForFactKey subjectId (some key)).map (·.id) := by
  refine List.mem_map.mpr ⟨r, ?_, rfl⟩
  rw [MemoryStore.activeRecordsForFactKey, if_pos (by simpa [truthy] using hne),
    List.mem_insertionSort, List.mem_filter]
  exact ⟨hr, by simp [hsubject, hkey, hactive]⟩

/-- **When a correction keeps the slot**: exactly when the fact key is its own
normal form. -/
theorem correction_keeps_slot_iff (hold : w.store.getRecord subjectId recordId = some old)
    (hkey : old.factKey = some key) (hne : key ≠ "")
    (h : atomic (correctRecord E subjectId recordId text) w = (.ok replacementId, w')) :
    KeepsSlot w'.store subjectId recordId key replacementId ↔
      normalizeContent E.unicode key = key := by
  obtain ⟨hactive, new, now, now', hid, hsubject, hfact, hstatus, hfresh, hrows⟩ :=
    correctRecord_eq_ok hold hkey hne (atomic_eq_ok.mp h)
  obtain ⟨hmem, holdSubject, holdId⟩ := getRecord_eq_some.mp hold
  have hapart : new.id ∉ [recordId] := by
    rw [List.mem_singleton, hid]
    exact fun heq => hfresh old hmem (holdId.trans heq.symm)
  have hother : new.id ∉ (w.store.activeRecordsForFactKey subjectId
      (some (normalizeContent E.unicode key))).map (·.id) := by
    intro hmemId
    obtain ⟨r, hr, hrid⟩ := List.mem_map.mp hmemId
    exact hfresh r (getRecord_eq_some.mp (mem_activeRecordsForFactKey hr).1).1 (hrid.trans hid)
  rw [List.map_append, List.map_append, List.map_singleton, List.map_singleton,
    retired_of_not_mem hother, retired_of_not_mem hapart] at hrows
  have hnew : new ∈ w'.store.records.rows := by
    rw [hrows]
    exact List.mem_append_right _ (List.mem_singleton_self _)
  constructor
  · rintro ⟨row, -, hslot, hrowId, hrowKey, -⟩
    have hrow : row ∈ w'.store.slot subjectId key := by
      rw [hslot]
      exact List.mem_singleton_self _
    have hsame := eq_of_record_id (List.mem_filter.mp hrow).1 hnew (hrowId.trans hid.symm)
    rw [hsame, hfact] at hrowKey
    exact Option.some.inj hrowKey
  · intro hnormal
    rw [hnormal] at hfact hrows
    have hslot : w'.store.slot subjectId key = [new] := by
      rw [MemoryStore.slot, hrows, List.filter_append]
      -- every record of the key that was active is among those superseded
      have hnone : (((w.store.records.rows.map (retired subjectId replacementId now
          ((w.store.activeRecordsForFactKey subjectId (some key)).map (·.id)))).map
          (retired subjectId replacementId now' [recordId])).filter fun r =>
            r.subjectId = subjectId ∧ r.status = .active ∧ r.factKey = some key) = [] := by
        refine List.filter_eq_nil_iff.mpr fun r hr => ?_
        obtain ⟨r₁, hr₁, rfl⟩ := List.mem_map.mp hr
        obtain ⟨r₀, hr₀, rfl⟩ := List.mem_map.mp hr₁
        rw [decide_eq_true_iff]
        rintro ⟨hsub, hact, hk⟩
        simp only [subjectId_retired, factKey_retired] at hsub hk
        obtain ⟨hact₀, hnot⟩ := active_retired.mp (active_retired.mp hact).1
        exact hnot ⟨hsub, id_mem_activeRecords hr₀ hsub hact₀ hk hne⟩
      rw [hnone, List.nil_append, List.filter_cons_of_pos, List.filter_nil]
      simp [hsubject, hstatus, hfact]
    refine ⟨new, supersededRow replacementId now old, hslot, hid, hfact, ?_, rfl, rfl⟩
    have hretired : retired subjectId replacementId now' [recordId]
        (retired subjectId replacementId now
          ((w.store.activeRecordsForFactKey subjectId (some key)).map (·.id)) old) =
        supersededRow replacementId now old := by
      rw [retired_of_mem holdSubject (id_mem_activeRecords hmem holdSubject hactive hkey hne)
        hactive, retired_of_not_active (by rw [status_supersededRow]; exact RecordStatus.noConfusion)]
    refine getRecord_eq_some.mpr ⟨?_, holdSubject, holdId⟩
    rw [hrows, ← hretired]
    exact List.mem_append_left _ (List.mem_map_of_mem (List.mem_map_of_mem hmem))

/-! ## Two corrections -/

/-- A fact, under a key. -/
def greySky (key : String) : RecordRow where
  id := "rec_1"
  subjectId := "user-1"
  content := "the sky is grey"
  contentNormalized := some "the sky is grey"
  sourceType := "user_message"
  trustTier := .trustedUser
  createdAt := 0
  scope := "user_note"
  status := .active
  factKey := some key

/-- A household that holds it. -/
def holding (key : String) : MemoryWorld where
  clock _ := 0
  store := { records := ⟨[greySky key], List.pairwise_singleton _ _⟩ }

/-- The run of its correction. -/
def blueSky (key : String) : Except MemoryError String × MemoryWorld :=
  atomic (correctRecord plainEngine "user-1" "rec_1" "the sky is blue") (holding key)

/-- A key of one word stays. -/
theorem correction_keeps_slot_sky :
    blueSky "sky" = (.ok "rec_0", (blueSky "sky").2) ∧
      KeepsSlot (blueSky "sky").2.store "user-1" "rec_1" "sky" "rec_0" := by
  have hrun : blueSky "sky" = (.ok "rec_0", (blueSky "sky").2) :=
    Prod.ext (by decide +kernel) rfl
  have hold : (holding "sky").store.getRecord "user-1" "rec_1" = some (greySky "sky") := by
    decide +kernel
  exact ⟨hrun, (correction_keeps_slot_iff hold rfl (by decide) hrun).mpr (by decide +kernel)⟩

/-- **A key of two parts is lost**: the correction goes to the slot of its
normal form. -/
theorem correction_leaves_slot :
    ¬ ∀ (E : Engine) (w w' : MemoryWorld) (subjectId recordId text key replacementId : String)
      (old : RecordRow), w.store.getRecord subjectId recordId = some old →
      old.factKey = some key → key ≠ "" →
      atomic (correctRecord E subjectId recordId text) w = (.ok replacementId, w') →
      KeepsSlot w'.store subjectId recordId key replacementId := by
  intro hall
  have hrun : blueSky "sky::colour" = (.ok "rec_0", (blueSky "sky::colour").2) :=
    Prod.ext (by decide +kernel) rfl
  have hold : (holding "sky::colour").store.getRecord "user-1" "rec_1" =
      some (greySky "sky::colour") := by decide +kernel
  obtain ⟨new, old, hslot, -⟩ := hall plainEngine (holding "sky::colour") _ "user-1" "rec_1"
    "the sky is blue" "sky::colour" "rec_0" _ hold rfl (by decide) hrun
  have hnone : (blueSky "sky::colour").2.store.slot "user-1" "sky::colour" = [] := by
    decide +kernel
  rw [hnone] at hslot
  cases hslot

end Atmem.Memory
