import Atmem.Contracts.Json
import Mathlib
/-!
# What a flight says of its tools

The events of one run, as they are retained: of a payload, the fields a flight
is verified by. Requests and completions of tools are gathered by the call
they name. What is seen twice of a call is a conflict where it differs, save
where a host shows one call at two of its hooks.
-/

namespace Atmem.Flight

/-! ## Entries -/

/-- The fields of a payload, as `_normalize_payload` leaves them. -/
structure Payload where
  toolName : Option String := none
  toolCanonicalName : Option String := none
  outcome : Option String := none
  errorCategory : Option String := none
  errorReason : Option String := none
  durationMs : Option ℕ := none
  paramKeys : Option (List String) := none
  paramsSha256 : Option String := none
  resultSha256 : Option String := none
  errorSha256 : Option String := none
  resultComparisonSha256 : Option String := none
  resultComparisonProfile : Option String := none
  resultObservationShape : Option String := none
  disposition : Option String := none
  mode : Option String := none
  contextEnvelopeSha256 : Option String := none
  contextBlockSha256 : Option String := none
  contextSha256 : Option String := none
  contextReceiptSha256 : Option String := none
  assistantVisibleTextSha256 : Option String := none
  responseSha256 : Option String := none
  provider : Option String := none
  model : Option String := none
  cancelled : Option Bool := none
  success : Option Bool := none
  failureKind : Option String := none
  reason : Option String := none
  droppedCount : Option ℕ := none
deriving DecidableEq

/-- The body of an entry, as `normalize_event` leaves it. -/
structure Event where
  format : Option String := some "atmem-agent-blackbox-event-v2"
  eventType : String
  runId : String
  host : Option String := none
  recordedAt : Option String := none
  toolCallId : Option String := none
  turnId : Option String := none
  sessionId : Option String := none
  agentId : Option String := none
  workspaceId : Option String := none
  subjectId : Option String := none
  retrievalId : Option String := none
  contextEventId : Option String := none
  contextReceiptId : Option String := none
  outcomeId : Option String := none
  payload : Payload := {}
deriving DecidableEq

/-- An entry of evidence. -/
structure Entry where
  sequence : ℤ
  entrySha256 : Option String := none
  body : Event
deriving DecidableEq

/-! ## Values -/

/-- `a or b`. -/
def orElse (a b : Option String) : Option String := if truthy a then a else b

/-- `str(a or b)`. -/
def textOr (a : Option String) (b : String) : String := if truthy a then a.getD b else b

/-- `sorted(set(texts))`. -/
def sortedSet (texts : List String) : List String := texts.eraseDups.insertionSort (· ≤ ·)

/-- A set of one value, where every value is that one. -/
def theOne {α : Type} [DecidableEq α] (values : List α) : Option α :=
  match values.eraseDups with
  | [value] => some value
  | _ => none

/-! ## Calls -/

/-- `tool_canonical_name`, or `tool_name`. -/
def Payload.tool (p : Payload) : Option String := orElse p.toolCanonicalName p.toolName

/-- The call an entry names, or no text. -/
def Entry.callId (e : Entry) : String := e.body.toolCallId.getD ""

/-- The entries of one type of event. -/
def observed (eventType : String) (entries : List Entry) : List Entry :=
  entries.filter fun e => e.body.eventType = eventType

/-- The entries of one type that name one call. -/
def grouped (eventType : String) (entries : List Entry) (callId : String) : List Entry :=
  (observed eventType entries).filter fun e => e.callId = callId

/-- The calls that are named, in the order they are first named. -/
def callIds (eventType : String) (entries : List Entry) : List String :=
  (((observed eventType entries).map Entry.callId).filter (· ≠ "")).eraseDups

/-- How many entries name none. -/
def uncorrelated (eventType : String) (entries : List Entry) : ℕ :=
  (observed eventType entries).countP fun e => e.callId = ""

/-- The requests of tools under a call identifier. -/
abbrev requested : List Entry → String → List Entry := grouped "tool.requested"

/-- The completions under a call identifier. -/
abbrev completed : List Entry → String → List Entry := grouped "tool.completed"

/-- The call identifiers that were requested. -/
abbrev requestedIds : List Entry → List String := callIds "tool.requested"

/-- The call identifiers that were completed. -/
abbrev completedIds : List Entry → List String := callIds "tool.completed"

/-- A tool that failed, with the request it is joined to. -/
structure ToolError where
  toolCallId : Option String
  toolName : Option String
  errorCategory : Option String
  errorReason : Option String
  durationMs : Option ℕ
  completionSequence : ℤ
  requestSequence : Option ℤ := none
  paramKeys : Option (List String) := none
  paramsSha256 : Option String := none
deriving DecidableEq

/-- The failure a completion reports. -/
def toolError (e : Entry) : ToolError where
  toolCallId := if truthy e.body.toolCallId then e.body.toolCallId else none
  toolName := e.body.payload.tool
  errorCategory := e.body.payload.errorCategory
  errorReason := e.body.payload.errorReason
  durationMs := e.body.payload.durationMs
  completionSequence := e.sequence

/-- A failure, joined to the first request of its call. -/
def joinRequest (entries : List Entry) (error : ToolError) : ToolError :=
  match error.toolCallId.bind fun callId => (requested entries callId).head? with
  | none => error
  | some request =>
    { error with
      toolName := orElse request.body.payload.tool error.toolName
      requestSequence := some request.sequence
      paramKeys := some (request.body.payload.paramKeys.getD [])
      paramsSha256 := request.body.payload.paramsSha256 }

/-- `tool_errors`. -/
def toolErrors (entries : List Entry) : List ToolError :=
  ((observed "tool.completed" entries).filter fun e => e.body.payload.outcome = some "error").map
    fun e => joinRequest entries (toolError e)

/-! ## Duplicates -/

/-- What two requests of a call have to agree on. -/
def requestSignature (e : Entry) : Option String × Option String :=
  (e.body.payload.tool, e.body.payload.paramsSha256)

/-- What two completions of a call have to agree on. -/
def completionSignature (e : Entry) : Option String × Option String × Option String :=
  (e.body.payload.tool, e.body.payload.resultSha256, e.body.payload.outcome)

/-- `_duplicate_tool_events`: the calls that are seen twice, and those of them
that are not seen alike. -/
def duplicateToolEvents {σ : Type} [DecidableEq σ] (signature : Entry → σ) (ids : List String)
    (group : String → List Entry) : List String × List String :=
  let duplicates := ids.filter fun callId => 2 ≤ (group callId).length
  let conflicts := duplicates.filter fun callId =>
    1 < ((group callId).map signature).eraseDups.length
  (duplicates.insertionSort (· ≤ ·), conflicts.insertionSort (· ≤ ·))

/-! ## Wrappers -/

/-- `equivalent_result_profile`. -/
def equivalentResultProfile (host canonicalName : String)
    (requestPayloads completionPayloads : List Payload) : Option String :=
  if host ≠ "openclaw" ∨ canonicalName ≠ "progress_card" then none
  else
    let names := fun payloads : List Payload =>
      (payloads.map fun p => textOr p.toolName canonicalName).eraseDups
    let comparison := theOne (completionPayloads.map (·.resultComparisonSha256))
    let shapes := completionPayloads.map (·.resultObservationShape)
    if (names requestPayloads = ["progress_card"] && names completionPayloads = ["progress_card"]) &&
        completionPayloads.length = 2 &&
        (theOne (requestPayloads.map (·.paramsSha256))).isSome &&
        (requestPayloads.all fun p => truthy p.paramsSha256) &&
        (completionPayloads.all fun p => p.outcome = some "completed" &&
          !truthy p.errorSha256 && !truthy p.errorCategory) &&
        (completionPayloads.all fun p =>
          p.resultComparisonProfile = some "openclaw-progress-card-v1") &&
        (comparison.join.any fun value => value.toList.length = 64 &&
          value.toList.all fun c => c.isDigit || ('a' ≤ c && c ≤ 'f')) &&
        (shapes.all fun shape => shape = some "native_input_text" ||
          shape = some "tool_content_details") &&
        shapes.contains (some "native_input_text") &&
        shapes.contains (some "tool_content_details") then
      some "openclaw-progress-card-v1"
    else none

/-- A call that two hooks of a host show. -/
structure CoalescedCall where
  toolCallId : String
  toolName : String
  observedNames : List String
  requestObservations : ℕ
  completionObservations : ℕ
  outcome : Option String
  comparisonProfile : Option String := none
deriving DecidableEq

/-- The profile by which the completions of a call are compared, of the one
host that shows it. -/
def comparisonProfile (canonicalName : String) (requests completions : List Entry) :
    Option String :=
  match theOne ((requests ++ completions).map fun e => e.body.host.getD "") with
  | none => none
  | some host => equivalentResultProfile host canonicalName (requests.map (·.body.payload))
      (completions.map (·.body.payload))

/-- The raw names agree with the canonical one, the parameters and the
outcomes with each other. -/
def coalesceNames (callId canonicalName : String) (requests completions : List Entry) :
    Option CoalescedCall :=
  let names := fun entries : List Entry =>
    (entries.map fun e => textOr e.body.payload.toolName canonicalName).eraseDups
  if (names requests).length < 2 ∨ (names completions).length < 2 ∨
      canonicalName ∉ names requests ∨ canonicalName ∉ names completions then none
  else if 1 < (requests.map (·.body.payload.paramsSha256)).eraseDups.length then none
  else
    match (completions.map fun e => e.body.payload.outcome.getD "").eraseDups with
    | [outcome] => some
      { toolCallId := callId
        toolName := canonicalName
        observedNames := sortedSet (names requests ++ names completions)
        requestObservations := requests.length
        completionObservations := completions.length
        outcome := if outcome = "" then none else some outcome }
    | _ => none

/-- `_coalesced_wrapper_calls`, for one call. -/
def coalesce (callId : String) (requests completions : List Entry) : Option CoalescedCall :=
  if requests.length < 2 ∨ completions.length < 2 then none
  else
    match theOne (((requests ++ completions).map
      (·.body.payload.toolCanonicalName)).filter truthy) with
    | some (some canonicalName) =>
      match comparisonProfile canonicalName requests completions with
      | some profile => some
        { toolCallId := callId
          toolName := canonicalName
          observedNames := [canonicalName]
          requestObservations := requests.length
          completionObservations := 2
          outcome := some "completed"
          comparisonProfile := some profile }
      | none => coalesceNames callId canonicalName requests completions
    | _ => none

/-- `_coalesced_wrapper_calls`. -/
def coalescedWrapperCalls (entries : List Entry) : List CoalescedCall :=
  (((requestedIds entries).filter (· ∈ completedIds entries)).insertionSort (· ≤ ·)).filterMap
    fun callId => coalesce callId (requested entries callId) (completed entries callId)

/-! ## Closure -/

/-- The host, turn and owner of an event. -/
def Event.scope (e : Event) :
    Option String × Option String × Option String × Option String × Option String :=
  (e.turnId, e.sessionId, e.agentId, e.workspaceId, e.subjectId)

/-- `same_invocation`. -/
def sameInvocation (request completion : Entry) : Bool :=
  request.body.scope = completion.body.scope &&
    request.body.payload.tool = completion.body.payload.tool &&
    request.sequence < completion.sequence

/-- A request or a completion of the call has no counterpart. -/
def unmatched (entries : List Entry) (callId : String) : Bool :=
  ((completed entries callId).any fun completion =>
    !(requested entries callId).any fun request => sameInvocation request completion) ||
  ((requested entries callId).any fun request =>
    !(completed entries callId).any fun completion => sameInvocation request completion)

/-- What is reported of the tools. -/
structure Tools where
  requested : ℕ
  completed : ℕ
  requestObservations : ℕ
  completionObservations : ℕ
  errors : List ToolError
  missingCompletions : List String
  orphanCompletions : List String
  uncorrelatedRequests : ℕ
  uncorrelatedCompletions : ℕ
  duplicateRequests : List String
  duplicateCompletions : List String
  conflictingRequests : List String
  conflictingCompletions : List String
  coalescedWrapperCalls : List CoalescedCall

/-- The part of `verify_flight` about the tools. -/
def toolsOf (entries : List Entry) : Tools :=
  let requestIds := requestedIds entries
  let completionIds := completedIds entries
  let requests := duplicateToolEvents requestSignature requestIds (Flight.requested entries)
  let completions := duplicateToolEvents completionSignature completionIds
    (Flight.completed entries)
  let coalesced := Flight.coalescedWrapperCalls entries
  let coalescedCallIds := coalesced.map (·.toolCallId)
  let conflictingCompletions := (completions.2.filter (· ∉ coalescedCallIds)) ++
    (requestIds.filter (· ∈ completionIds)).filter (unmatched entries)
  { requested := requestIds.length + uncorrelated "tool.requested" entries
    completed := completionIds.length + uncorrelated "tool.completed" entries
    requestObservations := (requestIds.map fun callId =>
      (Flight.requested entries callId).length).sum + uncorrelated "tool.requested" entries
    completionObservations := (completionIds.map fun callId =>
      (Flight.completed entries callId).length).sum + uncorrelated "tool.completed" entries
    errors := toolErrors entries
    missingCompletions := (requestIds.filter (· ∉ completionIds)).insertionSort (· ≤ ·)
    orphanCompletions := (completionIds.filter (· ∉ requestIds)).insertionSort (· ≤ ·)
    uncorrelatedRequests := uncorrelated "tool.requested" entries
    uncorrelatedCompletions := uncorrelated "tool.completed" entries
    duplicateRequests := requests.1
    duplicateCompletions := completions.1
    conflictingRequests := requests.2.filter (· ∉ coalescedCallIds)
    conflictingCompletions := sortedSet conflictingCompletions
    coalescedWrapperCalls := coalesced }

/-- `tool_evidence_conflict`. -/
def Tools.evidenceConflict (t : Tools) : Bool :=
  t.orphanCompletions ≠ [] || t.uncorrelatedRequests ≠ 0 || t.uncorrelatedCompletions ≠ 0 ||
    t.conflictingRequests ≠ [] || t.conflictingCompletions ≠ []

/-- `tool_closure`. -/
def Tools.closure (t : Tools) : Bool :=
  t.missingCompletions = [] && !t.evidenceConflict

end Atmem.Flight
