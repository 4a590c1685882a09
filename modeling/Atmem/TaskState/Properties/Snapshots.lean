import Atmem.Contracts.Snapshots
import Atmem.Store.AuditLog
import Atmem.TaskState.Helpers.Apply
import Atmem.TaskState.Properties.Policy
/-!
# The identity of a stored snapshot

A snapshot that is stored and read back serialises and hashes as it did
(`snapshot_reads_back`): what may differ is the order of the keys of its
items' contents, which canonical JSON does not show. So a delta that
leaves the snapshot as it was is answered `no_change`.
-/

namespace Atmem

open Checked Json

variable {read state : TaskState} {item : TaskItem}

/-- The hash of the store, of a given SHA-256. -/
def Hashing.ofSha256 (sha256Hex : String → String) : Hashing where
  digest j := "sha256:" ++ sha256Hex j.canonicalJson
  sha256Hex

/-- What `json.dumps` wrote of a value is read back: as a value that is
written the same. -/
def JsonReader.Reads (R : JsonReader) (j : Json) : Prop :=
  ∃ payload, R.loads j.canonicalJson = some payload ∧ payload.canonicalJson = j.canonicalJson

/-- The snapshot of a row of `governed_task_revisions`, whose text
`insert_task_revision` wrote. -/
def readSnapshot (R : JsonReader) (text : String) : Except String TaskState :=
  stateFromDict (loadJson R text)

/-! ## Items in another order of keys -/

/-- Items that are reordered keep their identifiers. -/
theorem itemIds_reordered {items rows : List TaskItem} (h : List.Forall₂ Reordered rows items) :
    itemIds rows = itemIds items := by
  induction h with
  | nil => rfl
  | cons hab _ ih =>
    obtain ⟨content, rfl, -⟩ := hab
    exact congrArg (List.cons _) ih

/-- And their dependencies. -/
theorem dependsOn_reordered {items rows : List TaskItem} (h : List.Forall₂ Reordered rows items) :
    rows.map (fun row => row.val.dependsOn) = items.map fun item => item.val.dependsOn := by
  induction h with
  | nil => rfl
  | cons hab _ ih =>
    obtain ⟨content, rfl, -⟩ := hab
    exact congrArg (List.cons _) ih

/-- **No check of a snapshot looks at the contents.** -/
theorem ItemsFit.reordered {items rows : List TaskItem} (h : List.Forall₂ Reordered rows items)
    (hfit : ItemsFit items) : ItemsFit rows := by
  have hids := itemIds_reordered h
  refine ⟨h.length_eq ▸ hfit.bound, hids ▸ hfit.unique, fun row hrow id hid => ?_⟩
  have hmem : row.val.dependsOn ∈ rows.map fun row => row.val.dependsOn :=
    List.mem_map_of_mem hrow
  rw [dependsOn_reordered h] at hmem
  obtain ⟨item, hitem, hsame⟩ := List.mem_map.mp hmem
  rw [hids]
  exact hfit.known item hitem id (hsame ▸ hid)

/-- With sorted keys they are the same. -/
theorem Reordered.sortKeys {row item : TaskItem} (h : Reordered row item) :
    row.toDict.sortKeys = item.toDict.sortKeys := by
  obtain ⟨content, rfl, hsame⟩ := h
  simp only [TaskItem.toDict, TaskItem.withContent, Json.sortKeys, sortKeysFields] at hsame ⊢
  rw [hsame]

/-- So are lists of them. -/
theorem sortKeysItems_reordered {items rows : List TaskItem}
    (h : List.Forall₂ Reordered rows items) :
    sortKeysItems (rows.map TaskItem.toDict) = sortKeysItems (items.map TaskItem.toDict) := by
  induction h with
  | nil => rfl
  | cons hab _ ih =>
    simp only [List.map_cons, sortKeysItems]
    rw [hab.sortKeys, ih]

/-! ## The snapshot -/

/-- The same snapshot, but for the order of the keys of its items'
contents. -/
def SnapshotReordered (read state : TaskState) : Prop :=
  ∃ items, read.val = { state.val with items } ∧ List.Forall₂ Reordered items state.val.items

/-- **A snapshot reads back as it was written.** -/
theorem stateFromDict_readsAs {j : Json} (h : ReadsAs j state.toDict) :
    ∃ read, stateFromDict j = .ok read ∧ SnapshotReordered read state := by
  have text {key s : String} (hk : state.toDict.get? key = some (.str s)) :
      j.get key = .ok (.str s) := get_of_get? (h.get_str hk)
  have htask : j.get "task_id" = .ok (.str state.val.taskId) :=
    text (by simp [TaskState.toDict, get?_cons])
  have hscope : state.toDict.get? "scope" = some state.val.scope.asdict := by
    simp [TaskState.toDict, get?_cons]
  obtain ⟨scope, hget, hasdict⟩ := h.get? hscope
  have hrevision : j.get "revision" = .ok (.int state.val.revision) :=
    get_of_get? (h.get_int (by simp [TaskState.toDict, get?_cons]))
  have hlifecycle : j.get "lifecycle" = .ok (.str (value state.val.lifecycle)) :=
    text (by simp [TaskState.toDict, get?_cons])
  have hphase : j.get "phase" = .ok (.str state.val.phase) :=
    text (by simp [TaskState.toDict, get?_cons])
  have hgoal : j.get "goal" = .ok (.str state.val.goal) :=
    text (by simp [TaskState.toDict, get?_cons])
  have hprofile : j.get "profile_id" = .ok (.str state.val.profileId) :=
    text (by simp [TaskState.toDict, get?_cons])
  have hversion : j.get "profile_version" = .ok (.str state.val.profileVersion) :=
    text (by simp [TaskState.toDict, get?_cons])
  -- the nested values are read back in their places, their keys in any order
  have hitems : state.toDict.get? "items" = some (.arr (state.val.items.map TaskItem.toDict)) := by
    simp [TaskState.toDict, get?_cons]
  obtain ⟨rows, hrows, hall⟩ := h.getOr_arr hitems
  obtain ⟨items, hread, hreordered⟩ := exists_mapM_of_forall₂
    (fun _ _ hr => itemFromDict_readsAs hr) (List.forall₂_map_right_iff.mp hall)
  have hconstraints : state.toDict.get? "constraints" =
      some (.arr (state.val.constraints.map TaskConstraint.asdict)) := by
    simp [TaskState.toDict, get?_cons]
  obtain ⟨rules, hrules, hsame⟩ := h.getOr_arr hconstraints
  have hruled : rules.mapM constraintFromDict = .ok state.val.constraints :=
    mapM_eq_ok_of_forall₂ (fun _ _ hr => constraintFromDict_readsAs hr)
      (List.forall₂_map_right_iff.mp hsame)
  have hinspect : state.toDict.get? "sources_to_inspect" =
      some (.arr (state.val.sourcesToInspect.map .str)) := by
    simp [TaskState.toDict, get?_cons, strings]
  obtain ⟨sources, hsources, hinspected⟩ := h.getOr_arr hinspect
  have hcompleted : state.toDict.get? "completed_sources" =
      some (.arr (state.val.completedSources.map .str)) := by
    simp [TaskState.toDict, get?_cons, strings]
  obtain ⟨done, hdone, hfinished⟩ := h.getOr_arr hcompleted
  have hlocked : (j.getOr "schema_locked" .null).truthy = state.val.schemaLocked :=
    truthy_getOr_bool (h.get_bool (by simp [TaskState.toDict, get?_cons]))
  have hcreated : j.getOr "created_at" (.str "") = .str state.val.createdAt :=
    getOr_str (h.get_str (by simp [TaskState.toDict, get?_cons]))
  have hupdated : j.getOr "updated_at" (.str "") = .str state.val.updatedAt :=
    getOr_str (h.get_str (by simp [TaskState.toDict, get?_cons]))
  have hprogress : j.getOr "last_progress_at" (.str "") = .str state.val.lastProgressAt :=
    getOr_str (h.get_str (by simp [TaskState.toDict, get?_cons]))
  have hparent : j.natAt? "parent_revision" = .ok state.val.parentRevision :=
    h.natAt? (by simp [TaskState.toDict, get?_cons])
  have hgeneration : j.get? "policy_generation" = some (.int state.val.policyGeneration) :=
    h.get_int (by simp [TaskState.toDict, get?_cons])
  -- an item keeps its identity and status, so the checks still pass
  have hchecked := taskState_postInit_eq_ok.mp state.2
  have hpost : ({ state.val with items } : TaskStateFields).postInit = .ok () :=
    taskState_postInit_eq_ok.mpr
      ⟨hchecked.1, hchecked.2.1, ItemsFit.reordered hreordered hchecked.2.2⟩
  refine ⟨⟨{ state.val with items }, hpost⟩, ?_, items, rfl, hreordered⟩
  -- one field after the other, as the source reads them
  unfold stateFromDict
  rw [hrows, hrules, hsources, hdone, hlocked, hcreated, hupdated, hprogress, hgeneration]
  refine bind_of_eq_ok (get_of_get? hget) ?_
  refine bind_of_eq_ok htask (bind_of_eq_ok rfl ?_)
  refine bind_of_eq_ok (scopeFromDict_readsAs hasdict) ?_
  refine bind_of_eq_ok hrevision (bind_of_eq_ok rfl ?_)
  refine bind_of_eq_ok hlifecycle (bind_of_eq_ok (member_value ..) ?_)
  refine bind_of_eq_ok hphase (bind_of_eq_ok rfl ?_)
  refine bind_of_eq_ok hgoal (bind_of_eq_ok rfl ?_)
  refine bind_of_eq_ok hprofile (bind_of_eq_ok rfl ?_)
  refine bind_of_eq_ok hversion (bind_of_eq_ok rfl ?_)
  refine bind_of_eq_ok rfl (bind_of_eq_ok hread ?_)
  refine bind_of_eq_ok rfl (bind_of_eq_ok hruled ?_)
  refine bind_of_eq_ok rfl (bind_of_eq_ok (mapM_asText hinspected) ?_)
  refine bind_of_eq_ok rfl (bind_of_eq_ok (mapM_asText hfinished) ?_)
  refine bind_of_eq_ok rfl (bind_of_eq_ok rfl (bind_of_eq_ok rfl ?_))
  refine bind_of_eq_ok hparent (bind_of_eq_ok rfl ?_)
  exact make_of_ok hpost

/-- The two are the same object field by field, once sorted. -/
theorem SnapshotReordered.exists_fields (h : SnapshotReordered read state) :
    ∃ kvs fields, read.toDict = .obj kvs ∧ state.toDict = .obj fields ∧
      sortKeysFields kvs = sortKeysFields fields := by
  obtain ⟨items, hval, hreordered⟩ := h
  refine ⟨_, _, rfl, rfl, ?_⟩
  simp only [hval, sortKeysFields, Json.sortKeys]
  rw [sortKeysItems_reordered hreordered]

/-- **It serialises as it did.** -/
theorem SnapshotReordered.sortKeys_toDict (h : SnapshotReordered read state) :
    read.toDict.sortKeys = state.toDict.sortKeys := by
  obtain ⟨kvs, fields, hread, hstate, hsame⟩ := h.exists_fields
  rw [hread, hstate, Json.sortKeys, Json.sortKeys, hsame]

/-- **And its meaning is written as it was.** -/
theorem SnapshotReordered.sortKeys_semanticDict (h : SnapshotReordered read state) :
    read.semanticDict.sortKeys = state.semanticDict.sortKeys := by
  obtain ⟨kvs, fields, hread, hstate, hsame⟩ := h.exists_fields
  rw [TaskState.semanticDict, TaskState.semanticDict, hread, hstate]
  simp only [without, Json.sortKeys]
  rw [sortKeysFields_filter, sortKeysFields_filter, hsame]

/-! ## What is stored -/

theorem proper_evidence (refs : List EvidenceRef) :
    (Json.arr (refs.map EvidenceRef.asdict)).Proper := by
  refine properItems_iff.mpr fun x hx => ?_
  obtain ⟨ref, -, rfl⟩ := List.mem_map.mp hx
  exact ⟨by simp, trivial, trivial, proper_ofOption _, trivial⟩

/-- An item whose content is proper is so. -/
theorem proper_item (hcontent : (Json.obj item.val.content).Proper) : item.toDict.Proper :=
  ⟨by simp, trivial, trivial, trivial, trivial, hcontent, proper_strings _, proper_ofOption _,
    proper_ofOption _, trivial, proper_evidence _, trivial, trivial, trivial⟩

theorem proper_constraints (rows : List TaskConstraint) :
    (Json.arr (rows.map TaskConstraint.asdict)).Proper := by
  refine properItems_iff.mpr fun x hx => ?_
  obtain ⟨row, -, rfl⟩ := List.mem_map.mp hx
  exact ⟨by simp, trivial, trivial, trivial, trivial, trivial⟩

/-- A snapshot is a value `json.dumps` writes where its contents are. -/
theorem proper_snapshot (hcontents : ∀ item ∈ state.val.items, (Json.obj item.val.content).Proper) :
    state.toDict.Proper := by
  have hitems : (Json.arr (state.val.items.map TaskItem.toDict)).Proper := by
    refine properItems_iff.mpr fun x hx => ?_
    obtain ⟨item, hitem, rfl⟩ := List.mem_map.mp hx
    exact proper_item (hcontents item hitem)
  have hscope : state.val.scope.asdict.Proper := ⟨by simp, trivial, trivial, trivial, trivial⟩
  have hparent : (Json.ofOption (fun n : ℕ => .int n) state.val.parentRevision).Proper := by
    cases state.val.parentRevision <;> trivial
  exact ⟨by simp, trivial, hscope, trivial, trivial, trivial, trivial, trivial, trivial, hitems,
    proper_constraints _, proper_strings _, proper_strings _, trivial, trivial, trivial, trivial,
    hparent, trivial, trivial, trivial⟩

/-- What a reader makes of the stored text. -/
theorem exists_readSnapshot {R : JsonReader}
    (hcontents : ∀ item ∈ state.val.items, (Json.obj item.val.content).Proper)
    (hreads : R.Reads state.toDict) :
    ∃ read, readSnapshot R state.toDict.canonicalJson = .ok read ∧
      SnapshotReordered read state := by
  have hproper := proper_snapshot hcontents
  obtain ⟨payload, hload, hwritten⟩ := hreads
  have hpayload := R.proper hload
  have hne : state.toDict.canonicalJson ≠ "" := canonicalJson_obj_ne _
  rw [readSnapshot, loadJson, if_neg hne, hload, Option.getD_some]
  exact stateFromDict_readsAs ⟨hpayload, hproper, canonicalJson_inj hpayload hproper hwritten⟩

/-! ## Deltas that change nothing -/

/-- The delta passes at the snapshot that was read, and makes one that
means what the stored one did. -/
def Restates (state read : TaskState) (profile : TaskProfile) (proposal : TaskStateProposal)
    (nowIso : String) (known : Option (List String)) (privileged : Bool) : Prop :=
  preconditions read proposal known = none ∧ ∃ progressed next,
    validateOperations profile proposal privileged read false proposal.val.operations =
      .ok (.ok progressed) ∧
    applyOperations read proposal.val.operations (read.val.revision + 1) nowIso
      (some (if progressed then nowIso else read.val.lastProgressAt)) = .ok next ∧
    next.semanticDict.sortKeys = state.semanticDict.sortKeys

/-- A proposal requests at least one operation. -/
theorem operations_ne_nil (proposal : TaskStateProposal) : proposal.val.operations ≠ [] := by
  have hpost := proposal.2
  unfold TaskStateProposalFields.postInit at hpost
  simp only [bind_eq_ok, ensure_eq_ok] at hpost
  exact hpost.2.2.2.2.2.1

/-- Values that read alike hash alike. -/
theorem digest_ofSha256 (sha256Hex : String → String) {a b : Json}
    (h : a.sortKeys = b.sortKeys) :
    (Hashing.ofSha256 sha256Hex).digest a = (Hashing.ofSha256 sha256Hex).digest b := by
  simp only [Hashing.ofSha256, canonicalJson, h]

/-- **A delta that changes nothing is answered so.** -/
theorem evaluate_restates {H : Hashing} {profile : TaskProfile} {proposal : TaskStateProposal}
    {nowIso : String} {known : Option (List String)} {privileged : Bool}
    (h : Restates state read profile proposal nowIso known privileged)
    (hdigest : ∀ next : TaskState, next.semanticDict.sortKeys = state.semanticDict.sortKeys →
      next.semanticDigest H = read.semanticDigest H) :
    evaluate H read profile proposal nowIso known privileged = .ok
      { outcome := .noChange
        reasonCodes := [.stateAlreadyMatches]
        effectiveAssurance := proposal.val.assurance } := by
  obtain ⟨hpass, progressed, next, hvalid, happly, hsame⟩ := h
  unfold evaluate
  rw [hpass]
  refine bind_of_eq_ok hvalid ?_
  dsimp only
  split
  · exact absurd ‹_› (operations_ne_nil proposal)
  · exact bind_of_eq_ok happly (if_pos (hdigest next hsame))

/-! ## The codec -/

/-- **The snapshot codec preserves identity.** Whatever snapshot is stored
as its canonical JSON, `_state_from_dict` rebuilds one that serialises as
it did, with both of its digests, so a delta that leaves it as it was is
judged `no_change`. -/
theorem snapshot_reads_back (sha256Hex : String → String) (R : JsonReader) (state : TaskState)
    (hcontents : ∀ item ∈ state.val.items, (Json.obj item.val.content).Proper)
    (hreads : R.Reads state.toDict) :
    ∃ read, readSnapshot R state.toDict.canonicalJson = .ok read ∧
      read.toDict.sortKeys = state.toDict.sortKeys ∧
      read.stateDigest (.ofSha256 sha256Hex) = state.stateDigest (.ofSha256 sha256Hex) ∧
      read.semanticDigest (.ofSha256 sha256Hex) = state.semanticDigest (.ofSha256 sha256Hex) ∧
      ∀ profile proposal nowIso known privileged,
        Restates state read profile proposal nowIso known privileged →
        evaluate (.ofSha256 sha256Hex) read profile proposal nowIso known privileged = .ok
          { outcome := .noChange
            reasonCodes := [.stateAlreadyMatches]
            effectiveAssurance := proposal.val.assurance } := by
  obtain ⟨read, hread, hsame⟩ := exists_readSnapshot hcontents hreads
  have hdict := hsame.sortKeys_toDict
  have hmeaning := hsame.sortKeys_semanticDict
  refine ⟨read, hread, hdict, digest_ofSha256 sha256Hex hdict, digest_ofSha256 sha256Hex hmeaning,
    fun profile proposal nowIso known privileged h => evaluate_restates h fun next hnext => ?_⟩
  exact digest_ofSha256 sha256Hex (hnext.trans hmeaning.symm)

/-- An item whose content is not in the order of its keys. -/
def notedItem : TaskItem :=
  ⟨{ exampleItem .pending with content := [("where", .str "b"), ("at", .int 2)] },
    by decide +kernel⟩

/-- A task whose item has a note. -/
def notedState : TaskState := ⟨exampleFields notedItem, by decide +kernel⟩

/-- The state of the example is proper. -/
theorem proper_noted : notedState.toDict.Proper := by
  refine proper_snapshot fun item hitem => ?_
  obtain rfl := List.mem_singleton.mp hitem
  exact ⟨by decide, trivial, trivial, trivial⟩

/-- `json.loads`, of the one text: the keys come as they stand in it. -/
def notedReader : JsonReader where
  loads text :=
    if text = notedState.toDict.canonicalJson then some notedState.toDict.sortKeys else none
  proper := by
    intro text j h
    split at h
    · cases h
      exact proper_sortKeys _ proper_noted
    · cases h

/-- The codec at a snapshot whose text is in another order than its
contents. -/
theorem noted_snapshot_reads_back :
    ∃ read, readSnapshot notedReader notedState.toDict.canonicalJson = .ok read ∧
      read.stateDigest (.ofSha256 id) = notedState.stateDigest (.ofSha256 id) := by
  have hsorted : notedState.toDict.sortKeys.sortKeys = notedState.toDict.sortKeys := by
    decide +kernel
  have hwritten : notedState.toDict.sortKeys.canonicalJson = notedState.toDict.canonicalJson := by
    rw [canonicalJson, canonicalJson, hsorted]
  have hreads : notedReader.Reads notedState.toDict := by
    refine ⟨notedState.toDict.sortKeys, ?_, hwritten⟩
    simp only [notedReader, if_true]
  obtain ⟨read, hread, -, hdigest, -⟩ := snapshot_reads_back id notedReader notedState
    (fun item hitem => by
      obtain rfl := List.mem_singleton.mp hitem
      exact ⟨by decide, trivial, trivial, trivial⟩) hreads
  exact ⟨read, hread, hdigest⟩

end Atmem
