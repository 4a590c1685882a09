import Atmem.Contracts.CanonicalJson
import Atmem.Contracts.Codec
/-!
# A snapshot, stored and read back

A snapshot is stored as its canonical JSON and rebuilt by
`_state_from_dict`, field by field. What is read is the value that was
written but for the order of the keys (`Json.ReadsAs`), so every field
comes back as it was, and of an item's content the order of its keys is
all that may change (`Reordered`).
-/

namespace Atmem

open Checked

/-! ## Reading a snapshot -/

namespace Json

/-- A value that has to be a text already. -/
def asText : Json → Except String String
  | .str s => .ok s
  | _ => .error "TypeError: expected a text"

/-- `payload.get(key)` of a text that may be missing. -/
def textAt? (j : Json) (key : String) : Except String (Option String) :=
  match j.get? key with
  | none | some .null => .ok none
  | some v => some <$> v.asText

/-- `payload.get(key)` of a number that may be missing. -/
def natAt? (j : Json) (key : String) : Except String (Option ℕ) :=
  match j.get? key with
  | none | some .null => .ok none
  | some v => some <$> v.asNat

/-- `dict(value)`. -/
def asFields : Json → Except String (List (String × Json))
  | .obj kvs => .ok kvs
  | _ => .error "TypeError: cannot convert to a dict"

end Json

/-- One evidence reference of `_item_from_dict`. -/
def evidenceFromDict (row : Json) : Except String EvidenceRef := do
  EvidenceRef.make
    { kind := ← (← row.get "kind").asStr
      referenceId := ← (← row.get "reference_id").asStr
      sha256 := ← row.textAt? "sha256" }

/-- `_item_from_dict`. -/
def itemFromDict (payload : Json) : Except String TaskItem := do
  TaskItem.make
    { itemId := ← (← payload.get "item_id").asStr
      kind := ← (← payload.get "kind").asStr
      title := ← (← payload.get "title").asStr
      status := ← member ItemStatus "ItemStatus" ((payload.get? "status").getD (.str "pending"))
      content := ← (payload.getOr "content" (.obj [])).asFields
      dependsOn := ← (← (payload.getOr "depends_on" (.arr [])).elements).mapM Json.asText
      blockerReason := ← payload.textAt? "blocker_reason"
      skipReason := ← payload.textAt? "skip_reason"
      assurance := ← member Assurance "Assurance"
        ((payload.get? "assurance").getD (.str "asserted"))
      evidence := ← (← (payload.getOr "evidence" (.arr [])).elements).mapM evidenceFromDict
      required := (payload.getOr "required" .null).truthy }

/-- One constraint of `_state_from_dict`. -/
def constraintFromDict (row : Json) : Except String TaskConstraint := do
  TaskConstraint.make
    { constraintId := ← (← row.get "constraint_id").asStr
      text := ← (← row.get "text").asStr
      satisfied := (row.getOr "satisfied" .null).truthy
      requiredForCompletion := ((row.get? "required_for_completion").getD (.bool true)).truthy }

/-- The scope of `_state_from_dict`. -/
def scopeFromDict (scope : Json) : Except String AuthorityScope := do
  AuthorityScope.make
    { subjectId := ← (← scope.get "subject_id").asText
      agentId := ← (← scope.get "agent_id").asText
      workspaceId := ← (← scope.get "workspace_id").asText }

/-- `_state_from_dict`. -/
def stateFromDict (payload : Json) : Except String TaskState := do
  let scope ← payload.get "scope"
  TaskState.make
    { taskId := ← (← payload.get "task_id").asStr
      scope := ← scopeFromDict scope
      revision := ← (← payload.get "revision").asNat
      lifecycle := ← member TaskLifecycle "TaskLifecycle" (← payload.get "lifecycle")
      phase := ← (← payload.get "phase").asStr
      goal := ← (← payload.get "goal").asStr
      profileId := ← (← payload.get "profile_id").asStr
      profileVersion := ← (← payload.get "profile_version").asStr
      items := ← (← (payload.getOr "items" (.arr [])).elements).mapM itemFromDict
      constraints := ← (← (payload.getOr "constraints" (.arr [])).elements).mapM
        constraintFromDict
      sourcesToInspect := ← (← (payload.getOr "sources_to_inspect" (.arr [])).elements).mapM
        Json.asText
      completedSources := ← (← (payload.getOr "completed_sources" (.arr [])).elements).mapM
        Json.asText
      schemaLocked := (payload.getOr "schema_locked" .null).truthy
      createdAt := ← (payload.getOr "created_at" (.str "")).asStr
      updatedAt := ← (payload.getOr "updated_at" (.str "")).asStr
      lastProgressAt := ← (payload.getOr "last_progress_at" (.str "")).asStr
      parentRevision := ← payload.natAt? "parent_revision"
      policyGeneration := ← ((payload.get? "policy_generation").getD (.int 1)).asNat }

/-! ## Values that read alike -/

namespace Json

variable {a b : Json} {key : String}

/-- The field of a well-formed object is well formed. -/
theorem proper_of_get? (hp : b.Proper) {v : Json} (h : b.get? key = some v) : v.Proper := by
  cases b with
  | obj kvs =>
    have hmem : (key, v) ∈ kvs := (lookup_eq_some_iff_mem hp.1).mp h
    exact properFields_iff.mp hp.2 _ hmem
  | null | bool | int | float | str | arr => cases h

/-- `a` is the value `b`, but for the order of the keys. -/
structure ReadsAs (a b : Json) : Prop where
  left : a.Proper
  right : b.Proper
  same : a.sortKeys = b.sortKeys

theorem ReadsAs.refl (hp : a.Proper) : ReadsAs a a := ⟨hp, hp, rfl⟩

theorem ReadsAs.null (h : ReadsAs a .null) : a = .null := by
  have hs := h.same
  cases a <;> simp_all [sortKeys]

theorem ReadsAs.bool {x : Bool} (h : ReadsAs a (.bool x)) : a = .bool x := by
  have hs := h.same
  cases a <;> simp_all [sortKeys]

theorem ReadsAs.int {n : Int} (h : ReadsAs a (.int n)) : a = .int n := by
  have hs := h.same
  cases a <;> simp_all [sortKeys]

theorem ReadsAs.str {s : String} (h : ReadsAs a (.str s)) : a = .str s := by
  have hs := h.same
  cases a <;> simp_all [sortKeys]

theorem ReadsAs.ofText {x : Option String} (h : ReadsAs a (.ofOption .str x)) :
    a = .ofOption .str x := by
  cases x with
  | none => exact h.null
  | some s => exact h.str

theorem ReadsAs.ofNat {x : Option ℕ} (h : ReadsAs a (.ofOption (fun n : ℕ => .int n) x)) :
    a = .ofOption (fun n : ℕ => .int n) x := by
  cases x with
  | none => exact h.null
  | some n => exact h.int

/-- Elements of one sorted array read alike. -/
theorem forall₂_readsAs : ∀ {xs ys : List Json}, ProperItems xs → ProperItems ys →
    sortKeysItems xs = sortKeysItems ys → List.Forall₂ ReadsAs xs ys
  | [], [], _, _, _ => .nil
  | [], _ :: _, _, _, h => by cases h
  | _ :: _, [], _, _, h => by cases h
  | x :: xs, y :: ys, hx, hy, h => by
    simp only [sortKeysItems, List.cons.injEq] at h
    exact .cons ⟨hx.1, hy.1, h.1⟩ (forall₂_readsAs hx.2 hy.2 h.2)

/-- An array reads as an array, element by element. -/
theorem ReadsAs.arr {ys : List Json} (h : ReadsAs a (.arr ys)) :
    ∃ xs, a = .arr xs ∧ List.Forall₂ ReadsAs xs ys := by
  have hs := h.same
  cases a with
  | arr xs => exact ⟨xs, rfl, forall₂_readsAs h.left h.right (Json.arr.inj hs)⟩
  | null | bool | int | float | str | obj => simp [sortKeys] at hs

/-- An object reads as an object. -/
theorem ReadsAs.obj {kvs : List (String × Json)} (h : ReadsAs a (.obj kvs)) :
    ∃ fields, a = .obj fields := by
  have hs := h.same
  cases a with
  | obj fields => exact ⟨fields, rfl⟩
  | null | bool | int | float | str | arr => simp [sortKeys] at hs

/-- **Each key reads alike.** -/
theorem ReadsAs.get? (h : ReadsAs a b) {v : Json} (hb : b.get? key = some v) :
    ∃ u, a.get? key = some u ∧ ReadsAs u v := by
  have hsame : (a.get? key).map sortKeys = some v.sortKeys := by
    rw [← get?_sortKeys h.left, h.same, get?_sortKeys h.right, hb, Option.map_some]
  obtain ⟨u, hu, hs⟩ := Option.map_eq_some_iff.mp hsame
  exact ⟨u, hu, proper_of_get? h.left hu, proper_of_get? h.right hb, hs⟩

/-! ### The fields of a value that reads alike -/

section Fields

variable (h : ReadsAs a b)

include h

theorem ReadsAs.get_str {s : String} (hb : b.get? key = some (.str s)) :
    a.get? key = some (.str s) := by
  obtain ⟨u, hu, hs⟩ := h.get? hb
  rw [hu, hs.str]

theorem ReadsAs.get_int {n : Int} (hb : b.get? key = some (.int n)) :
    a.get? key = some (.int n) := by
  obtain ⟨u, hu, hs⟩ := h.get? hb
  rw [hu, hs.int]

theorem ReadsAs.get_bool {x : Bool} (hb : b.get? key = some (.bool x)) :
    a.get? key = some (.bool x) := by
  obtain ⟨u, hu, hs⟩ := h.get? hb
  rw [hu, hs.bool]

/-- A text or nothing is read as it was written. -/
theorem ReadsAs.textAt? {x : Option String} (hb : b.get? key = some (.ofOption .str x)) :
    a.textAt? key = .ok x := by
  obtain ⟨u, hu, hs⟩ := h.get? hb
  rw [Json.textAt?, hu, hs.ofText]
  cases x <;> rfl

/-- So is a number or nothing. -/
theorem ReadsAs.natAt? {x : Option ℕ}
    (hb : b.get? key = some (.ofOption (fun n : ℕ => .int n) x)) : a.natAt? key = .ok x := by
  obtain ⟨u, hu, hs⟩ := h.get? hb
  rw [Json.natAt?, hu, hs.ofNat]
  cases x <;> rfl

/-- An array is read as it was written. -/
theorem ReadsAs.getOr_arr {ys : List Json} (hb : b.get? key = some (.arr ys)) :
    ∃ xs, a.getOr key (.arr []) = .arr xs ∧ List.Forall₂ ReadsAs xs ys := by
  obtain ⟨u, hu, hs⟩ := h.get? hb
  obtain ⟨xs, rfl, hxs⟩ := hs.arr
  exact ⟨xs, Json.getOr_arr hu, hxs⟩

end Fields

/-- Fields are dropped by their keys, sorted or not. -/
theorem sortKeysFields_filter (keys : List String) (kvs : List (String × Json)) :
    sortKeysFields (kvs.filter fun kv => kv.1 ∉ keys) =
      (sortKeysFields kvs).filter fun kv => kv.1 ∉ keys := by
  rw [sortKeysFields_eq_map, sortKeysFields_eq_map, List.filter_map]
  rfl

/-- A list of texts reads back. -/
theorem mapM_asText {xs : List Json} {texts : List String}
    (h : List.Forall₂ ReadsAs xs (texts.map .str)) : xs.mapM asText = .ok texts := by
  refine mapM_eq_ok_of_forall₂ (fun x s hr => ?_) (List.forall₂_map_right_iff.mp h)
  rw [hr.str]
  rfl

end Json

open Json

/-! ## Lists of values -/

/-- The elements of an array are proper one by one. -/
theorem properItems_iff {xs : List Json} : ProperItems xs ↔ ∀ x ∈ xs, x.Proper := by
  induction xs with
  | nil => simp [ProperItems]
  | cons x xs ih => rw [ProperItems, ih, List.forall_mem_cons]

theorem proper_strings (texts : List String) : (strings texts).Proper := by
  refine properItems_iff.mpr fun x hx => ?_
  obtain ⟨s, -, rfl⟩ := List.mem_map.mp hx
  trivial

/-! ## The records of a snapshot -/

variable {j : Json}

/-- A reference is read back. -/
theorem evidenceFromDict_readsAs {ref : EvidenceRef} (h : ReadsAs j ref.asdict) :
    evidenceFromDict j = .ok ref := by
  have hkind : j.get "kind" = .ok (.str ref.val.kind) :=
    get_of_get? (h.get_str (by simp [EvidenceRef.asdict, get?_cons]))
  have href : j.get "reference_id" = .ok (.str ref.val.referenceId) :=
    get_of_get? (h.get_str (by simp [EvidenceRef.asdict, get?_cons]))
  have hsha : j.textAt? "sha256" = .ok ref.val.sha256 :=
    h.textAt? (by simp [EvidenceRef.asdict, get?_cons])
  unfold evidenceFromDict
  refine bind_of_eq_ok hkind (bind_of_eq_ok rfl ?_)
  refine bind_of_eq_ok href (bind_of_eq_ok rfl (bind_of_eq_ok hsha ?_))
  exact make_val ref

/-- A constraint is read back. -/
theorem constraintFromDict_readsAs {row : TaskConstraint} (h : ReadsAs j row.asdict) :
    constraintFromDict j = .ok row := by
  have hid : j.get "constraint_id" = .ok (.str row.val.constraintId) :=
    get_of_get? (h.get_str (by simp [TaskConstraint.asdict, get?_cons]))
  have htext : j.get "text" = .ok (.str row.val.text) :=
    get_of_get? (h.get_str (by simp [TaskConstraint.asdict, get?_cons]))
  have hsatisfied : (j.getOr "satisfied" .null).truthy = row.val.satisfied :=
    truthy_getOr_bool (h.get_bool (by simp [TaskConstraint.asdict, get?_cons]))
  have hrequired : ((j.get? "required_for_completion").getD (.bool true)).truthy =
      row.val.requiredForCompletion := by
    rw [h.get_bool (x := row.val.requiredForCompletion)
      (by simp [TaskConstraint.asdict, get?_cons])]
    rfl
  unfold constraintFromDict
  rw [hsatisfied, hrequired]
  refine bind_of_eq_ok hid (bind_of_eq_ok rfl ?_)
  refine bind_of_eq_ok htext (bind_of_eq_ok rfl ?_)
  exact make_val row

/-- A scope is read back. -/
theorem scopeFromDict_readsAs {scope : AuthorityScope} (h : ReadsAs j scope.asdict) :
    scopeFromDict j = .ok scope := by
  have hsubject : j.get "subject_id" = .ok (.str scope.val.subjectId) :=
    get_of_get? (h.get_str (by simp [AuthorityScope.asdict, get?_cons]))
  have hagent : j.get "agent_id" = .ok (.str scope.val.agentId) :=
    get_of_get? (h.get_str (by simp [AuthorityScope.asdict, get?_cons]))
  have hworkspace : j.get "workspace_id" = .ok (.str scope.val.workspaceId) :=
    get_of_get? (h.get_str (by simp [AuthorityScope.asdict, get?_cons]))
  unfold scopeFromDict
  refine bind_of_eq_ok hsubject (bind_of_eq_ok rfl ?_)
  refine bind_of_eq_ok hagent (bind_of_eq_ok rfl ?_)
  refine bind_of_eq_ok hworkspace (bind_of_eq_ok rfl ?_)
  exact make_val scope

/-- The item with another content: no check looks at it. -/
def TaskItem.withContent (item : TaskItem) (content : List (String × Json)) : TaskItem :=
  ⟨{ item.val with content }, item.2⟩

/-- The same item, but for the order of the keys of its content. -/
def Reordered (read item : TaskItem) : Prop :=
  ∃ content, read = item.withContent content ∧
    (obj content).sortKeys = (obj item.val.content).sortKeys

/-- An item is read back, its content perhaps in another order. -/
theorem itemFromDict_readsAs {item : TaskItem} (h : ReadsAs j item.toDict) :
    ∃ read, itemFromDict j = .ok read ∧ Reordered read item := by
  have hid : j.get "item_id" = .ok (.str item.val.itemId) :=
    get_of_get? (h.get_str (by simp [TaskItem.toDict, get?_cons]))
  have hkind : j.get "kind" = .ok (.str item.val.kind) :=
    get_of_get? (h.get_str (by simp [TaskItem.toDict, get?_cons]))
  have htitle : j.get "title" = .ok (.str item.val.title) :=
    get_of_get? (h.get_str (by simp [TaskItem.toDict, get?_cons]))
  have hstatus : j.get? "status" = some (.str (value item.val.status)) :=
    h.get_str (by simp [TaskItem.toDict, get?_cons])
  have hfields : item.toDict.get? "content" = some (.obj item.val.content) := by
    simp [TaskItem.toDict, get?_cons]
  -- only the content may come in another order
  obtain ⟨u, hu, hsame⟩ := h.get? hfields
  obtain ⟨content, rfl⟩ := hsame.obj
  have hcontent : j.getOr "content" (.obj []) = .obj content := by
    rw [getOr, hu]
    rcases content with - | ⟨kv, kvs⟩ <;> rfl
  have hon : item.toDict.get? "depends_on" = some (.arr (item.val.dependsOn.map .str)) := by
    simp [TaskItem.toDict, get?_cons, strings]
  obtain ⟨ids, hids, hdepends⟩ := h.getOr_arr hon
  have hblocker : j.textAt? "blocker_reason" = .ok item.val.blockerReason :=
    h.textAt? (by simp [TaskItem.toDict, get?_cons])
  have hskip : j.textAt? "skip_reason" = .ok item.val.skipReason :=
    h.textAt? (by simp [TaskItem.toDict, get?_cons])
  have hassurance : j.get? "assurance" = some (.str (value item.val.assurance)) :=
    h.get_str (by simp [TaskItem.toDict, get?_cons])
  have hrefs : item.toDict.get? "evidence" =
      some (.arr (item.val.evidence.map EvidenceRef.asdict)) := by
    simp [TaskItem.toDict, get?_cons]
  obtain ⟨rows, hrows, hevidence⟩ := h.getOr_arr hrefs
  have hread : rows.mapM evidenceFromDict = .ok item.val.evidence :=
    mapM_eq_ok_of_forall₂ (fun _ _ hr => evidenceFromDict_readsAs hr)
      (List.forall₂_map_right_iff.mp hevidence)
  have hrequired : (j.getOr "required" .null).truthy = item.val.required :=
    truthy_getOr_bool (h.get_bool (by simp [TaskItem.toDict, get?_cons]))
  refine ⟨item.withContent content, ?_, content, rfl, hsame.same⟩
  unfold itemFromDict
  rw [hstatus, hcontent, hids, hassurance, hrows, hrequired]
  refine bind_of_eq_ok hid (bind_of_eq_ok rfl ?_)
  refine bind_of_eq_ok hkind (bind_of_eq_ok rfl ?_)
  refine bind_of_eq_ok htitle (bind_of_eq_ok rfl ?_)
  refine bind_of_eq_ok (member_value ..) (bind_of_eq_ok rfl ?_)
  refine bind_of_eq_ok rfl (bind_of_eq_ok (mapM_asText hdepends) ?_)
  refine bind_of_eq_ok hblocker (bind_of_eq_ok hskip ?_)
  refine bind_of_eq_ok (member_value ..) (bind_of_eq_ok rfl (bind_of_eq_ok hread ?_))
  exact make_val (item.withContent content)

end Atmem
