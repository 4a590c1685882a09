import Atmem.Contracts.Records
/-!
# What the contracts serialise to

`to_dict` of each contract that is stored or hashed: `asdict` with the
`format` last, a nested record without its `format` where the source
leaves it to `asdict`. The digests are taken of these values; the hash
itself is a parameter, of which nothing is assumed. The one decoder here,
`decisionFromDict`, is the one a stored decision is replayed through: what
it makes of a decision that was stored is that decision, except the
evidence, which it does not read.
-/

namespace Atmem

/-- The hash of the store: `sha256_hex(canonical_json(value))` under its
`sha256:` prefix, and `sha256_hex` of a text. -/
structure Hashing where
  digest : Json → String
  sha256Hex : String → String

namespace Json

/-- `bool(value)`. -/
def truthy : Json → Bool
  | .null => false
  | .bool b => b
  | .int n => n ≠ 0
  | .float repr => repr ≠ "0.0" && repr ≠ "-0.0"
  | .str s => s ≠ ""
  | .arr xs => !xs.isEmpty
  | .obj kvs => !kvs.isEmpty

/-- `str(value)`; no caller hands it an array or an object. -/
def asStr : Json → Except String String
  | .str s => .ok s
  | .null => .ok "None"
  | .bool b => .ok (if b then "True" else "False")
  | .int n => .ok (toString n)
  | .float repr => .ok repr
  | .arr _ | .obj _ => .error "TypeError: expected a text"

/-- `int(value)` of a value that is no negative integer. -/
def asNat : Json → Except String ℕ
  | .int (.ofNat n) => .ok n
  | _ => .error "invalid literal for int()"

/-- The elements of an array, as `for row in value` visits them. -/
def elements : Json → Except String (List Json)
  | .arr xs => .ok xs
  | _ => .error "TypeError: value is not iterable"

/-- `payload.get(key) or default`. -/
def getOr (j : Json) (key : String) (default : Json) : Json :=
  match j.get? key with
  | some v => if v.truthy then v else default
  | none => default

end Json

/-- `Enum(value)`. -/
def member (α : Type) [Vocabulary α] (name : String) (j : Json) : Except String α :=
  match j with
  | .str s =>
    match ofValue? s with
    | some a => .ok a
    | none => .error (repr s ++ " is not a valid " ++ name)
  | _ => .error ("value is not a valid " ++ name)

/-! ## Records as dictionaries -/

/-- `asdict` of a scope. -/
def AuthorityScope.asdict (scope : AuthorityScope) : Json :=
  .obj [("subject_id", .str scope.val.subjectId), ("agent_id", .str scope.val.agentId),
    ("workspace_id", .str scope.val.workspaceId)]

/-- `AuthorityScope.to_dict`: the fields and the format. -/
def AuthorityScope.toDict (scope : AuthorityScope) : Json :=
  scope.asdict.set "format" (.str "atmem-authority-scope-v1")

/-- `asdict` of an evidence reference. -/
def EvidenceRef.asdict (ref : EvidenceRef) : Json :=
  .obj [("kind", .str ref.val.kind), ("reference_id", .str ref.val.referenceId),
    ("sha256", .ofOption .str ref.val.sha256)]

/-- `EvidenceRef.to_dict`: the fields and the format. -/
def EvidenceRef.toDict (ref : EvidenceRef) : Json :=
  ref.asdict.set "format" (.str "atmem-task-evidence-ref-v1")

/-- `TaskItem.to_dict`. -/
def TaskItem.toDict (item : TaskItem) : Json :=
  .obj [("item_id", .str item.val.itemId), ("kind", .str item.val.kind),
    ("title", .str item.val.title), ("status", .str (value item.val.status)),
    ("content", .obj item.val.content), ("depends_on", .strings item.val.dependsOn),
    ("blocker_reason", .ofOption .str item.val.blockerReason),
    ("skip_reason", .ofOption .str item.val.skipReason),
    ("assurance", .str (value item.val.assurance)),
    ("evidence", .arr (item.val.evidence.map EvidenceRef.asdict)),
    ("required", .bool item.val.required), ("format", .str "atmem-task-item-v1")]

/-- `asdict` of a constraint. -/
def TaskConstraint.asdict (row : TaskConstraint) : Json :=
  .obj [("constraint_id", .str row.val.constraintId), ("text", .str row.val.text),
    ("satisfied", .bool row.val.satisfied),
    ("required_for_completion", .bool row.val.requiredForCompletion)]

/-- `TaskState.to_dict`. -/
def TaskState.toDict (state : TaskState) : Json :=
  .obj [("task_id", .str state.val.taskId), ("scope", state.val.scope.asdict),
    ("revision", .int state.val.revision), ("lifecycle", .str (value state.val.lifecycle)),
    ("phase", .str state.val.phase), ("goal", .str state.val.goal),
    ("profile_id", .str state.val.profileId), ("profile_version", .str state.val.profileVersion),
    ("items", .arr (state.val.items.map TaskItem.toDict)),
    ("constraints", .arr (state.val.constraints.map TaskConstraint.asdict)),
    ("sources_to_inspect", .strings state.val.sourcesToInspect),
    ("completed_sources", .strings state.val.completedSources),
    ("schema_locked", .bool state.val.schemaLocked), ("created_at", .str state.val.createdAt),
    ("updated_at", .str state.val.updatedAt),
    ("last_progress_at", .str state.val.lastProgressAt),
    ("parent_revision", .ofOption (fun n : ℕ => .int n) state.val.parentRevision),
    ("policy_generation", .int state.val.policyGeneration),
    ("format", .str "atmem-task-state-v1")]

/-- What `semantic_digest` hashes: the snapshot without its timestamps
and its place in the chain. -/
def TaskState.semanticDict (state : TaskState) : Json :=
  state.toDict.without
    ["revision", "parent_revision", "created_at", "updated_at", "last_progress_at"]

/-- `state_digest`: of the whole state. -/
def TaskState.stateDigest (H : Hashing) (state : TaskState) : String := H.digest state.toDict

/-- `semantic_digest`: of what the state means, without its times. -/
def TaskState.semanticDigest (H : Hashing) (state : TaskState) : String :=
  H.digest state.semanticDict

/-- `TaskOperation.to_dict`. -/
def TaskOperation.toDict (operation : TaskOperation) : Json :=
  .obj [("kind", .str (value operation.val.kind)),
    ("item_id", .ofOption .str operation.val.itemId),
    ("constraint_id", .ofOption .str operation.val.constraintId),
    ("source_id", .ofOption .str operation.val.sourceId),
    ("phase", .ofOption .str operation.val.phase),
    ("status", .ofOption (fun status => .str (value status)) operation.val.status),
    ("text", .ofOption .str operation.val.text),
    ("content", .ofOption .obj operation.val.content),
    ("depends_on", .ofOption .strings operation.val.dependsOn),
    ("kind_label", .ofOption .str operation.val.kindLabel),
    ("required", .ofOption .bool operation.val.required),
    ("reason", .ofOption .str operation.val.reason),
    ("assurance", .str (value operation.val.assurance)),
    ("format", .str "atmem-task-operation-v1")]

/-- `TaskStateProposal.to_dict`. -/
def TaskStateProposal.toDict (proposal : TaskStateProposal) : Json :=
  .obj [("proposal_id", .str proposal.val.proposalId), ("task_id", .str proposal.val.taskId),
    ("scope", proposal.val.scope.asdict), ("base_revision", .int proposal.val.baseRevision),
    ("idempotency_key", .str proposal.val.idempotencyKey), ("actor", .str proposal.val.actor),
    ("actor_role", .str (value proposal.val.actorRole)),
    ("operations", .arr (proposal.val.operations.map TaskOperation.toDict)),
    ("evidence", .arr (proposal.val.evidence.map EvidenceRef.asdict)),
    ("interpreter", .ofOption .str proposal.val.interpreter),
    ("assurance", .str (value proposal.val.assurance)),
    ("reason", .ofOption .str proposal.val.reason),
    ("action_fingerprint", .ofOption .str proposal.val.actionFingerprint),
    ("format", .str "atmem-task-state-proposal-v1")]

/-- What `payload_digest` hashes: the proposal without the two fields
that name it. -/
def TaskStateProposal.payload (proposal : TaskStateProposal) : Json :=
  proposal.toDict.without ["idempotency_key", "proposal_id"]

/-- `payload_digest`: two proposals with one key are the same if it is. -/
def TaskStateProposal.payloadDigest (H : Hashing) (proposal : TaskStateProposal) : String :=
  H.digest proposal.payload

/-- `GuardSignal.to_dict`. -/
def GuardSignal.toDict (guard : GuardSignal) : Json :=
  .obj [("guard_type", .str (value guard.val.guardType)), ("task_id", .str guard.val.taskId),
    ("revision", .int guard.val.revision), ("message", .str guard.val.message),
    ("blocking_item_ids", .strings guard.val.blockingItemIds),
    ("repeated_action_count", .int guard.val.repeatedActionCount),
    ("enforced", .bool guard.val.enforced), ("format", .str "atmem-task-guard-signal-v1")]

/-- `TransitionDecision.to_dict`. -/
def TransitionDecision.toDict (decision : TransitionDecision) : Json :=
  .obj [("decision_id", .str decision.val.decisionId),
    ("proposal_id", .str decision.val.proposalId), ("task_id", .str decision.val.taskId),
    ("scope", decision.val.scope.asdict), ("outcome", .str (value decision.val.outcome)),
    ("reason_codes", .arr (decision.val.reasonCodes.map fun code => .str (value code))),
    ("base_revision", .int decision.val.baseRevision),
    ("resulting_revision", .ofOption (fun n : ℕ => .int n) decision.val.resultingRevision),
    ("decided_at", .str decision.val.decidedAt), ("decided_by", .str decision.val.decidedBy),
    ("assurance", .str (value decision.val.assurance)),
    ("evidence", .arr (decision.val.evidence.map EvidenceRef.asdict)),
    ("guards", .arr (decision.val.guards.map GuardSignal.toDict)),
    ("replayed", .bool decision.val.replayed),
    ("format", .str "atmem-task-transition-decision-v1")]

/-! ## A stored decision, read back -/

/-- One guard of `_decision_from_dict`. -/
def guardFromDict (row : Json) : Except String GuardSignal := do
  GuardSignal.make
    { guardType := ← member GuardType "GuardType" (← row.get "guard_type")
      taskId := ← (← row.get "task_id").asStr
      revision := ← (← row.get "revision").asNat
      message := ← (← row.get "message").asStr
      blockingItemIds := ← (← (row.getOr "blocking_item_ids" (.arr [])).elements).mapM Json.asStr
      repeatedActionCount := ← ((row.get? "repeated_action_count").getD (.int 0)).asNat
      enforced := (row.getOr "enforced" .null).truthy }

/-- `payload.get("resulting_revision")`. -/
def resultingRevisionOf (payload : Json) : Except String (Option ℕ) :=
  match payload.get? "resulting_revision" with
  | none | some .null => .ok none
  | some j => some <$> j.asNat

/-- `_decision_from_dict`: it does not read the `evidence`. -/
def decisionFromDict (payload : Json) : Except String TransitionDecision := do
  let scope ← payload.get "scope"
  TransitionDecision.make
    { decisionId := ← (← payload.get "decision_id").asStr
      proposalId := ← (← payload.get "proposal_id").asStr
      taskId := ← (← payload.get "task_id").asStr
      scope := ← AuthorityScope.make
        { subjectId := ← (← scope.get "subject_id").asStr
          agentId := ← (← scope.get "agent_id").asStr
          workspaceId := ← (← scope.get "workspace_id").asStr }
      outcome := ← member StepOutcome "StepOutcome" (← payload.get "outcome")
      reasonCodes := ← (← (payload.getOr "reason_codes" (.arr [])).elements).mapM
        (member ReasonCode "reason code")
      baseRevision := ← (← payload.get "base_revision").asNat
      resultingRevision := ← resultingRevisionOf payload
      decidedAt := ← (payload.getOr "decided_at" (.str "")).asStr
      decidedBy := ← (payload.getOr "decided_by" (.str "atmem-authority")).asStr
      assurance := ← member Assurance "Assurance"
        ((payload.get? "assurance").getD (.str "asserted"))
      guards := ← (← (payload.getOr "guards" (.arr [])).elements).mapM guardFromDict
      replayed := (payload.getOr "replayed" .null).truthy }

/-! ## A decision, written and read back -/

open Checked

namespace Json

/-- A lookup, one field at a time. -/
theorem get?_cons {key k : String} {v : Json} {kvs : List (String × Json)} :
    (obj ((k, v) :: kvs)).get? key = if key = k then some v else (obj kvs).get? key := by
  simp only [get?, List.lookup_cons]
  by_cases hk : key = k
  · simp [hk]
  · have hne : (key == k) = false := by simpa using hk
    rw [hne, if_neg hk]

/-- A field that is there is read. -/
theorem get_of_get? {j v : Json} {key : String} (h : j.get? key = some v) :
    j.get key = .ok v := by
  rw [get, h]

/-- A field that is truthy needs no default. -/
theorem getOr_of_truthy {j v d : Json} {key : String} (h : j.get? key = some v)
    (ht : v.truthy = true) : j.getOr key d = v := by
  simp only [getOr, h, ht, if_true]

/-- A list that is empty is replaced by the empty list. -/
theorem getOr_arr {j : Json} {xs : List Json} {key : String}
    (h : j.get? key = some (.arr xs)) : j.getOr key (.arr []) = .arr xs := by
  rw [getOr, h]
  rcases xs with - | ⟨x, xs⟩ <;> rfl

/-- A text that is empty is replaced by the empty text. -/
theorem getOr_str {j : Json} {s : String} {key : String}
    (h : j.get? key = some (.str s)) : j.getOr key (.str "") = .str s := by
  rw [getOr, h]
  by_cases hs : s = ""
  · subst hs
    rfl
  · simp [truthy, hs]

theorem truthy_getOr_bool {j : Json} {b : Bool} {key : String}
    (h : j.get? key = some (.bool b)) : (j.getOr key .null).truthy = b := by
  rw [getOr, h]
  cases b <;> rfl

/-- A field that was set is read back. -/
theorem get?_set {kvs : List (String × Json)} {key : String} {v : Json} :
    ((obj kvs).set key v).get? key = some v := by
  simp only [set, get?]
  induction kvs with
  | nil => simp
  | cons kv kvs ih =>
    by_cases hk : kv.1 = key
    · simp [hk]
    · have hne : (kv.1 == key) = false := by simpa using hk
      have hne' : (key == kv.1) = false := by simpa using Ne.symm hk
      rw [List.any_cons, hne, Bool.false_or]
      split at ih <;> rename_i ha
      · rw [if_pos ha, List.map_cons, hne, if_neg Bool.false_ne_true, List.lookup_cons, hne']
        exact ih
      · rw [if_neg ha, List.cons_append, List.lookup_cons, hne']
        exact ih

end Json

open Json

@[simp] theorem member_value {α : Type} [Vocabulary α] (name : String) (a : α) :
    member α name (.str (value a)) = .ok a := by
  rw [member, ofValue?_value]

/-- A constructor given the fields of a value builds the value. -/
theorem make_val {α : Type} {check : α → Except String Unit} (x : {a : α // check a = .ok ()}) :
    make check x.val = .ok x := make_eq_ok.mpr rfl

/-- **A guard reads back as it was written.** -/
theorem guardFromDict_toDict (guard : GuardSignal) : guardFromDict guard.toDict = .ok guard := by
  have htype : guard.toDict.get "guard_type" = .ok (.str (value guard.val.guardType)) :=
    get_of_get? (by simp [GuardSignal.toDict, get?_cons])
  have htask : guard.toDict.get "task_id" = .ok (.str guard.val.taskId) :=
    get_of_get? (by simp [GuardSignal.toDict, get?_cons])
  have hrev : guard.toDict.get "revision" = .ok (.int guard.val.revision) :=
    get_of_get? (by simp [GuardSignal.toDict, get?_cons])
  have hmsg : guard.toDict.get "message" = .ok (.str guard.val.message) :=
    get_of_get? (by simp [GuardSignal.toDict, get?_cons])
  have hids : guard.toDict.getOr "blocking_item_ids" (.arr []) =
      .arr (guard.val.blockingItemIds.map .str) :=
    getOr_arr (by simp [GuardSignal.toDict, get?_cons, strings])
  have hcount : (guard.toDict.get? "repeated_action_count").getD (.int 0) =
      .int guard.val.repeatedActionCount := by simp [GuardSignal.toDict, get?_cons]
  have henforced : (guard.toDict.getOr "enforced" .null).truthy = guard.val.enforced :=
    truthy_getOr_bool (by simp [GuardSignal.toDict, get?_cons])
  unfold guardFromDict
  rw [hids, hcount, henforced]
  refine bind_of_eq_ok htype (bind_of_eq_ok (member_value ..) ?_)
  refine bind_of_eq_ok htask (bind_of_eq_ok rfl ?_)
  refine bind_of_eq_ok hrev (bind_of_eq_ok rfl ?_)
  refine bind_of_eq_ok hmsg (bind_of_eq_ok rfl ?_)
  refine bind_of_eq_ok rfl (bind_of_eq_ok (mapM_map_eq_ok (g := Json.str) (fun _ => rfl) _) ?_)
  refine bind_of_eq_ok rfl ?_
  exact make_val guard

/-- The decision, without its evidence and with the given mark. -/
def TransitionDecision.read (decision : TransitionDecision) (replayed : Bool) :
    TransitionDecision :=
  ⟨{ decision.val with evidence := [], replayed }, decision.2⟩

/-- **A decision reads back without its evidence.** -/
theorem decisionFromDict_toDict {decision : TransitionDecision}
    (hby : decision.val.decidedBy ≠ "") :
    decisionFromDict decision.toDict = .ok (decision.read decision.val.replayed) := by
  have field {key : String} {v : Json} (h : decision.toDict.get? key = some v) := get_of_get? h
  -- each field is read where it was written
  have hscope : decision.toDict.get "scope" = .ok decision.val.scope.asdict :=
    field (by simp [TransitionDecision.toDict, get?_cons])
  have hid : decision.toDict.get "decision_id" = .ok (.str decision.val.decisionId) :=
    field (by simp [TransitionDecision.toDict, get?_cons])
  have hproposal : decision.toDict.get "proposal_id" = .ok (.str decision.val.proposalId) :=
    field (by simp [TransitionDecision.toDict, get?_cons])
  have htask : decision.toDict.get "task_id" = .ok (.str decision.val.taskId) :=
    field (by simp [TransitionDecision.toDict, get?_cons])
  have hsubject : decision.val.scope.asdict.get "subject_id" =
      .ok (.str decision.val.scope.val.subjectId) :=
    get_of_get? (by simp [AuthorityScope.asdict, get?_cons])
  have hagent : decision.val.scope.asdict.get "agent_id" =
      .ok (.str decision.val.scope.val.agentId) :=
    get_of_get? (by simp [AuthorityScope.asdict, get?_cons])
  have hworkspace : decision.val.scope.asdict.get "workspace_id" =
      .ok (.str decision.val.scope.val.workspaceId) :=
    get_of_get? (by simp [AuthorityScope.asdict, get?_cons])
  have houtcome : decision.toDict.get "outcome" = .ok (.str (value decision.val.outcome)) :=
    field (by simp [TransitionDecision.toDict, get?_cons])
  have hcodes : decision.toDict.getOr "reason_codes" (.arr []) =
      .arr (decision.val.reasonCodes.map fun code => .str (value code)) :=
    getOr_arr (by simp [TransitionDecision.toDict, get?_cons])
  have hbase : decision.toDict.get "base_revision" = .ok (.int decision.val.baseRevision) :=
    field (by simp [TransitionDecision.toDict, get?_cons])
  have hresulting : resultingRevisionOf decision.toDict = .ok decision.val.resultingRevision := by
    have hget : decision.toDict.get? "resulting_revision" =
        some (.ofOption (fun n : ℕ => .int n) decision.val.resultingRevision) := by
      simp [TransitionDecision.toDict, get?_cons]
    rw [resultingRevisionOf, hget]
    rcases decision.val.resultingRevision with - | n <;> rfl
  have hat : decision.toDict.getOr "decided_at" (.str "") = .str decision.val.decidedAt :=
    getOr_str (by simp [TransitionDecision.toDict, get?_cons])
  have hdecider : decision.toDict.getOr "decided_by" (.str "atmem-authority") =
      .str decision.val.decidedBy := by
    refine getOr_of_truthy (by simp [TransitionDecision.toDict, get?_cons]) ?_
    simp [Json.truthy, hby]
  have hassurance : (decision.toDict.get? "assurance").getD (.str "asserted") =
      .str (value decision.val.assurance) := by
    simp [TransitionDecision.toDict, get?_cons]
  have hguards : decision.toDict.getOr "guards" (.arr []) =
      .arr (decision.val.guards.map GuardSignal.toDict) :=
    getOr_arr (by simp [TransitionDecision.toDict, get?_cons])
  have hreplayed : (decision.toDict.getOr "replayed" .null).truthy = decision.val.replayed :=
    truthy_getOr_bool (by simp [TransitionDecision.toDict, get?_cons])
  have hmake : AuthorityScope.make ⟨decision.val.scope.val.subjectId,
      decision.val.scope.val.agentId, decision.val.scope.val.workspaceId⟩ =
        .ok decision.val.scope := make_val _
  unfold decisionFromDict
  rw [hcodes, hat, hdecider, hassurance, hguards, hreplayed]
  refine bind_of_eq_ok hscope ?_
  refine bind_of_eq_ok hid (bind_of_eq_ok rfl ?_)
  refine bind_of_eq_ok hproposal (bind_of_eq_ok rfl ?_)
  refine bind_of_eq_ok htask (bind_of_eq_ok rfl ?_)
  refine bind_of_eq_ok hsubject (bind_of_eq_ok rfl ?_)
  refine bind_of_eq_ok hagent (bind_of_eq_ok rfl ?_)
  refine bind_of_eq_ok hworkspace (bind_of_eq_ok rfl (bind_of_eq_ok hmake ?_))
  refine bind_of_eq_ok houtcome (bind_of_eq_ok (member_value ..) ?_)
  refine bind_of_eq_ok rfl (bind_of_eq_ok (mapM_map_eq_ok (member_value _) _) ?_)
  refine bind_of_eq_ok hbase (bind_of_eq_ok rfl (bind_of_eq_ok hresulting ?_))
  refine bind_of_eq_ok rfl (bind_of_eq_ok rfl (bind_of_eq_ok (member_value ..) ?_))
  refine bind_of_eq_ok rfl (bind_of_eq_ok (mapM_map_eq_ok guardFromDict_toDict _) ?_)
  exact make_val (decision.read decision.val.replayed)

/-- **The replay of a stored decision.** -/
theorem decisionFromDict_replayed {decision : TransitionDecision}
    (hby : decision.val.decidedBy ≠ "") :
    decisionFromDict (decision.toDict.set "replayed" (.bool true)) =
      .ok (decision.read true) := by
  have hset : decision.toDict.set "replayed" (.bool true) =
      TransitionDecision.toDict ⟨{ decision.val with replayed := true }, decision.2⟩ := by
    simp [TransitionDecision.toDict, Json.set, -String.reduceBEq]
  rw [hset]
  exact decisionFromDict_toDict hby

/-- Whatever was stored, its replay is marked. -/
theorem replayed_of_decisionFromDict {j : Json} {decision : TransitionDecision}
    (h : decisionFromDict (j.set "replayed" (.bool true)) = .ok decision) :
    decision.val.replayed = true := by
  obtain ⟨scope, hscope, h⟩ := bind_eq_ok_iff.mp h
  have hmark : (j.set "replayed" (.bool true)).get? "replayed" = some (.bool true) := by
    cases j with
    | obj kvs => exact get?_set
    | null | bool | int | float | str | arr => cases hscope
  -- every field before the mark is read by a step of its own
  iterate 25 obtain ⟨_, _, h⟩ := bind_eq_ok_iff.mp h
  exact (congrArg TransitionDecisionFields.replayed (make_eq_ok.mp h)).trans
    (truthy_getOr_bool hmark)

end Atmem
