import Atmem.Control.Model.Store
/-!
# The events of a host

A host reports what it observes of a run. `normalize_event` checks the report
and makes the envelope of it that is stored: names are stripped and cut, what
is counted is not negative, and of a payload only known fields are taken. An
event that has a place in a producer's stream is then delivered under it.
-/

namespace Atmem.Control

/-- What the process reads of a value besides: `int` of a text or a float, and
whether `datetime.fromisoformat` takes a text. -/
structure Reader extends Engine where
  int : Json → Except ControlError ℤ
  isoformat : String → Bool

variable (R : Reader)

/-- `int(value)`. -/
def Reader.toInt : Json → Except ControlError ℤ
  | .int n => .ok n
  | .bool b => .ok (if b then 1 else 0)
  | .str s => R.int (.str s)
  | .float repr => R.int (.float repr)
  | .null | .arr _ | .obj _ => .error .typeError

/-! ## Payloads -/

/-- `_DIGEST_KEYS`. -/
def digestKeys : List String :=
  ["prompt_sha256", "system_sha256", "history_sha256", "context_sha256", "params_sha256",
    "result_sha256", "result_comparison_sha256", "error_sha256", "response_sha256",
    "messages_sha256", "assistant_visible_text_sha256", "model_output_bundle_sha256",
    "turn_messages_sha256", "context_block_sha256", "delivered_context_sha256",
    "context_envelope_sha256", "context_receipt_sha256", "query_sha256", "task_context_sha256",
    "task_state_sha256", "task_proposal_sha256", "task_decision_sha256"]

/-- `_TEXT_KEYS`. -/
def textKeys : List String :=
  ["context_selection_profile", "result_comparison_profile", "result_observation_shape", "provider",
    "model", "resolved_ref", "harness_id", "reasoning_effort", "mode", "exposure_id", "tool_name",
    "tool_kind", "outcome", "error_category", "error_reason", "failure_kind", "reason",
    "disposition", "digest_profile", "response_digest_profile", "context_location",
    "tool_canonical_name", "task_id", "task_disposition", "task_lifecycle", "task_outcome",
    "task_actor", "task_actor_role", "task_assurance", "retrieval_support_class",
    "retrieval_calibration_version"]

/-- `_COUNT_KEYS`. -/
def countKeys : List String :=
  ["persona_record_count", "recall_record_count", "prompt_chars", "system_chars", "history_count",
    "images_count", "tools_count", "context_chars", "context_byte_length", "response_chars",
    "response_count", "messages_count", "duration_ms", "request_payload_bytes",
    "response_stream_bytes", "time_to_first_byte_ms", "task_revision", "task_base_revision",
    "task_resulting_revision", "candidates_considered", "dropped_count", "first_sequence",
    "last_sequence"]

/-- `_BOOL_KEYS`. -/
def boolKeys : List String :=
  ["fast_mode", "cancelled", "success", "task_guard_enforced", "result_present"]

/-- `_LIST_KEYS`. -/
def listKeys : List String :=
  ["candidate_ids", "param_keys", "derived_path_sha256", "context_component_event_ids",
    "task_reason_codes", "task_evidence_ids", "task_affected_item_ids", "retrieval_reason_codes"]

/-- The counts of `usage`. -/
def usageKeys : List String := ["input", "output", "cacheRead", "cacheWrite", "total"]

/-- Every field a payload may have. -/
def payloadKeys : List String :=
  digestKeys ++ textKeys ++ countKeys ++ boolKeys ++ listKeys ++ ["usage"]

/-- `[0-9a-f]{64}`, of the text in lower case; no letter but those of the
digits becomes one of them. -/
def isSha256 (text : String) : Bool :=
  text.toList.length = 64 && text.toList.all fun c => c.isDigit || ('a' ≤ c && c ≤ 'f')

/-- `str(value).lower()`. -/
def Reader.lower (value : Json) : String := String.ofList ((R.text value).toList.map (·.toLower))

/-- `text[:n]`. -/
def cut (n : ℕ) (text : String) : String := String.ofList (text.toList.take n)

/-- `_TASK_REVISION_FIELDS`. -/
def taskRevisionFields : List String :=
  ["task_revision", "task_base_revision", "task_resulting_revision"]

/-- `_TASK_DIGEST_FIELDS`. -/
def taskDigestFields : List String :=
  ["task_context_sha256", "task_state_sha256", "task_proposal_sha256", "task_decision_sha256"]

/-- `_TASK_LIST_FIELDS`. -/
def taskListFields : List String :=
  ["task_reason_codes", "task_evidence_ids", "task_affected_item_ids"]

/-- A revision of a task, of at least one. -/
def checkTaskRevision (key : String) (value : Json) : Except ControlError Unit :=
  match R.toInt value with
  | .error (.valueError _) | .error .typeError =>
    .error (.valueError (key ++ " must be a task revision"))
  | .error e => .error e
  | .ok revision =>
    if revision < 1 then .error (.valueError (key ++ " must be at least 1")) else .ok ()

/-- A digest of a task's object. -/
def checkTaskDigest (key : String) (value : Json) : Except ControlError Unit :=
  if isSha256 (R.lower value) then .ok ()
  else .error (.valueError (key ++ " must bind a SHA-256 digest"))

/-- Identifiers, none of which is blank. -/
def checkTaskList (key : String) (value : Json) : Except ControlError Unit :=
  match value with
  | .arr items =>
    if items.all fun item => strip (R.text item) ≠ [] then .ok ()
    else .error (.valueError (key ++ " must be an array of non-empty identifiers"))
  | _ => .error (.valueError (key ++ " must be an array of non-empty identifiers"))

/-- `validate_task_evidence_payload`; the fields of a kind are taken as they
are listed. -/
def validateTaskEvidencePayload (payload : List (String × Json)) : Except ControlError Unit := do
  let taskFields := payload.filter fun kv => "task_".isPrefixOf kv.1
  if taskFields = [] then pure ()
  else do
    let taskId := strip (R.text (orElse ((taskFields.lookup "task_id").getD .null) (.str "")))
    if taskId = [] ∨ 512 < taskId.length then
      throw (.valueError "task evidence requires one bounded task_id")
    let each := fun (keys : List String) (check : String → Json → Except ControlError Unit) =>
      keys.forM fun key =>
        match taskFields.lookup key with
        | some value => check key value
        | none => pure ()
    each taskRevisionFields (checkTaskRevision R)
    each taskDigestFields (checkTaskDigest R)
    each taskListFields (checkTaskList R)

/-- `max(0, int(value))`. -/
def normalizeCount (value : Json) : Except ControlError Json := do
  pure (.int (max 0 (← R.toInt value)))

/-- The counts of `usage` that are known and there. -/
def normalizeUsage : List (String × Json) → Except ControlError (List (String × Json))
  | [] => .ok []
  | (name, amount) :: rest =>
    if name ∈ usageKeys ∧ amount ≠ .null then do
      let count ← normalizeCount R amount
      pure ((name, count) :: (← normalizeUsage rest))
    else normalizeUsage rest

/-- A field of a payload, by its kind. -/
def normalizeValue (key : String) (value : Json) : Except ControlError Json :=
  if key ∈ digestKeys then
    if isSha256 (R.lower value) then .ok (.str (R.lower value))
    else .error (.valueError (key ++ " must be a SHA-256 digest"))
  else if key ∈ textKeys then .ok (.str (cut 512 (R.text value)))
  else if key ∈ countKeys then normalizeCount R value
  else if key ∈ boolKeys then .ok (.bool value.truthy)
  else if key ∈ listKeys then
    match value with
    | .arr items => .ok (.arr ((items.take 100).map fun item => .str (cut 1024 (R.text item))))
    | _ => .error (.valueError (key ++ " must be an array"))
  else
    match value with
    | .obj usage => do pure (.obj (← normalizeUsage R usage))
    | _ => .error (.valueError "usage must be an object")

/-- The loop over the fields; one that is `None` is left out. -/
def normalizeFields : List (String × Json) → Except ControlError (List (String × Json))
  | [] => .ok []
  | (key, value) :: rest =>
    if value = .null then normalizeFields rest
    else do
      let normalized ← normalizeValue R key value
      pure ((key, normalized) :: (← normalizeFields rest))

/-- `_normalize_payload`. -/
def normalizePayload (payload : List (String × Json)) :
    Except ControlError (List (String × Json)) := do
  let unknown := ((payload.map (·.1)).filter (· ∉ payloadKeys)).insertionSort (· ≤ ·)
  if unknown ≠ [] then
    throw (.valueError ("unsupported blackbox payload field(s): " ++ ", ".intercalate unknown))
  validateTaskEvidencePayload R payload
  normalizeFields R payload

/-! ## Events -/

/-- What a host reports: the arguments of `normalize_event`. -/
structure EventArgs where
  migrationId : String
  host : String
  eventType : String
  runId : String
  sessionId : Option String := none
  toolCallId : Option String := none
  /-- A mapping, no key of which is there twice. -/
  payload : List (String × Json) := []
  nodup : (payload.map (·.1)).Nodup := by decide
  turnId : Option String := none
  retrievalId : Option String := none
  contextEventId : Option String := none
  contextReceiptId : Option String := none
  outcomeId : Option String := none
  agentId : Option String := none
  workspaceId : Option String := none
  subjectId : Option String := none
  eventId : Option String := none
  producerInstanceId : Option String := none
  producerEpoch : Option String := none
  producerSequence : Option ℤ := none
  eventTime : Option String := none
  executionId : Option String := none
  parentExecutionId : Option String := none
  attemptId : Option String := none
  retryOfAttemptId : Option String := none

/-- `_EVENT_TYPE`, matched in full. -/
def isEventType : List Char → Bool
  | [] => false
  | c :: cs => ('a' ≤ c && c ≤ 'z') && 1 ≤ cs.length && cs.length ≤ 63 && cs.all fun c =>
      ('a' ≤ c && c ≤ 'z') || c.isDigit || c = '_' || c = '.' || c = '-'

/-- `\d` where the pattern has a zero, and the pattern's own character
elsewhere. -/
def fits : List Char → List Char → Bool
  | [], [] => true
  | p :: ps, c :: cs => (if p = '0' then c.isDigit else c = p) && fits ps cs
  | [], _ :: _ | _ :: _, [] => false

/-- `_UTC_EVENT_TIME`, matched in full: `fromisoformat` takes no digits but
these. -/
def isUtcEventTime (timestamp : List Char) : Bool :=
  fits "0000-00-00T00:00:00.".toList (timestamp.take 20) &&
    3 ≤ (timestamp.drop 20).dropLast.length && (timestamp.drop 20).dropLast.all (·.isDigit) &&
    (timestamp.drop 20).getLast? = some 'Z'

/-- `_bounded_optional`. -/
def boundedOptional (value : Option String) (limit : ℕ) : Json :=
  match value with
  | none => .null
  | some text =>
    if strip text = [] then .null else .str (String.ofList ((strip text).take limit))

/-- A place in a producer's stream is named in full, or not at all. -/
def checkProducer (a : EventArgs) : Except ControlError Unit := do
  if a.producerSequence.any (· < 1) then
    throw (.valueError "producer_sequence must be a positive integer")
  if a.producerInstanceId.isSome || a.producerEpoch.isSome || a.producerSequence.isSome then
    if !(a.producerInstanceId.isSome && a.producerEpoch.isSome && a.producerSequence.isSome) then
      throw (.valueError "producer instance, epoch and sequence must be supplied together")
    if strip (a.eventId.getD "") = [] then
      throw (.valueError "event_id is required for producer-sequenced delivery")
    if a.eventTime = none then
      throw (.valueError "event_time is required for producer-sequenced delivery")

/-- The time of an event, stripped. -/
def checkEventTime (eventTime : Option String) : Except ControlError (Option String) :=
  match eventTime with
  | none => .ok none
  | some text =>
    let timestamp := strip text
    if isUtcEventTime timestamp && R.isoformat (String.ofList (timestamp.dropLast) ++ "+00:00") then
      .ok (some (String.ofList timestamp))
    else
      .error (.valueError "event_time must be ISO 8601 UTC with at least millisecond precision")

/-- `normalize_event`, at an instant. -/
def normalizeEvent (receivedAt : String) (a : EventArgs) :
    Except ControlError (List (String × Json)) := do
  let eventName := strip a.eventType
  if !isEventType eventName then throw (.valueError "blackbox event_type is invalid")
  let run := strip a.runId
  if run = [] ∨ 512 < run.length then
    throw (.valueError "blackbox run_id is required and must be at most 512 characters")
  checkProducer a
  let eventTime ← checkEventTime R a.eventTime
  if a.parentExecutionId.isSome && a.executionId.isNone then
    throw (.valueError "parent_execution_id requires execution_id")
  if a.retryOfAttemptId.isSome && a.attemptId.isNone then
    throw (.valueError "retry_of_attempt_id requires attempt_id")
  let payload ← normalizePayload R a.payload
  pure [("format", .str "atmem-agent-blackbox-event-v2"), ("migration_id", .str a.migrationId),
    ("host", .str a.host), ("event_type", .str (String.ofList eventName)),
    ("run_id", .str (String.ofList run)), ("agent_id", boundedOptional a.agentId 256),
    ("workspace_id", boundedOptional a.workspaceId 256),
    ("subject_id", boundedOptional a.subjectId 512), ("event_id", boundedOptional a.eventId 512),
    ("producer_instance_id", boundedOptional a.producerInstanceId 512),
    ("producer_epoch", boundedOptional a.producerEpoch 512),
    ("producer_sequence", Json.ofOption .int a.producerSequence),
    ("execution_id", boundedOptional a.executionId 512),
    ("parent_execution_id", boundedOptional a.parentExecutionId 512),
    ("attempt_id", boundedOptional a.attemptId 512),
    ("retry_of_attempt_id", boundedOptional a.retryOfAttemptId 512),
    ("session_id", boundedOptional a.sessionId 512),
    ("tool_call_id", boundedOptional a.toolCallId 512), ("turn_id", boundedOptional a.turnId 512),
    ("retrieval_id", boundedOptional a.retrievalId 512),
    ("context_event_id", boundedOptional a.contextEventId 512),
    ("context_receipt_id", boundedOptional a.contextReceiptId 512),
    ("outcome_id", boundedOptional a.outcomeId 512),
    ("recorded_at", orElse (boundedOptional eventTime 64) (.str receivedAt)),
    ("received_at", .str receivedAt), ("payload", .obj payload),
    ("content_storage", .str "digests-and-bounded-metadata-only")]

/-- The delivery of an envelope, under the place its arguments name. -/
def EventArgs.delivery (a : EventArgs) (body : List (String × Json)) : Delivery where
  migrationId := a.migrationId
  body := body
  producerInstanceId := a.producerInstanceId.getD "None"
  producerEpoch := a.producerEpoch.getD "None"
  producerSequence := a.producerSequence.getD 0
  eventId := a.eventId.getD ""

end Atmem.Control
