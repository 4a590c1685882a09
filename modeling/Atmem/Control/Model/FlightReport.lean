import Atmem.Control.Model.FlightTools
/-!
# The report of a flight, and what of it needs attention

The report of a verified flight: its verdict, what of it is covered, and the
evidence of both. The queue an operator works through is read off the report
alone.
-/

namespace Atmem.Flight

/-! ## The report -/

/-- The verdicts on a flight. -/
inductive Verdict
  | tamperedOrInvalidChain | cancelled | failed | inProgress | incompleteEvidence
  | completedWithToolErrors | completedSuccessfully
deriving DecidableEq

/-- How much of a component is covered. -/
inductive ComponentStatus
  | covered | failed | cancelled | missing | warning
deriving DecidableEq

/-- `component_status`. -/
structure Components where
  integrity : ComponentStatus
  lifecycle : ComponentStatus
  context : ComponentStatus
  model : ComponentStatus
  tools : ComponentStatus
  response : ComponentStatus

/-- The components by name, in order. -/
def Components.named (c : Components) : List (String × ComponentStatus) :=
  [("integrity", c.integrity), ("lifecycle", c.lifecycle), ("context", c.context),
    ("model", c.model), ("tools", c.tools), ("response", c.response)]

/-- The one status a flight is shown with. -/
inductive OverallStatus
  | cancelled | failed | inProgress | incomplete | warning | covered
deriving DecidableEq

/-- What was observed of a flight, and what not. -/
structure Coverage where
  turnInputObserved : Bool
  contextDispositionObserved : Bool
  contextDigestBound : Bool
  contextReceiptBound : Bool
  modelInputObserved : Bool
  modelOutputObserved : Bool
  responseDigestBound : Bool
  responseDigestConsistent : Bool
  terminalEventObserved : Bool

/-- Where the run of a flight stands. -/
inductive LifecycleState
  | completed | inProgress | awaitingTerminal
deriving DecidableEq

/-- The run of a flight, as its events tell it. -/
structure Lifecycle where
  state : LifecycleState
  /-- `seconds_since_last_event`, in microseconds. -/
  microsSinceLastEvent : Option ℕ
  staleAfterSeconds : Option ℕ
  success : Bool
  failed : Bool
  cancelled : Bool
  failureKind : Option String
  reason : Option String

/-- What was observed of the context that was prepared. -/
structure Context where
  disposition : Option String
  digestBound : Bool
  receiptBound : Bool

/-- The model of the flight and that of recent ones. -/
structure Model where
  provider : Option String
  model : Option String
  baselineProvider : Option String
  baselineModel : Option String
  changedFromRecentBaseline : Bool

/-- `_correlation_summary`. -/
structure Correlation where
  sessionIds : List String
  turnIds : List String
  retrievalIds : List String
  contextEventIds : List String
  contextReceiptIds : List String
  outcomeIds : List String

/-- The formats of the events. -/
structure Compatibility where
  eventFormats : List String
  currentEventFormat : String := "atmem-agent-blackbox-event-v2"
  currentContractObserved : Bool
  legacyFlight : Bool

/-- What the run was for. -/
inductive RunKind
  | agentRun | backgroundSkillReview
deriving DecidableEq

/-- The check a point belongs to. -/
inductive Check
  | completion | tools | contextModel
deriving DecidableEq

/-- How urgent it is that somebody looks. -/
inductive Severity
  | critical | high | medium
deriving DecidableEq

/-- What somebody should look at. -/
inductive AttentionCode
  | evidenceChainInvalid | captureLoss | legacyEvidenceContract | recordingStopped | flightFailed
  | flightIncomplete | toolLifecycleMismatch | toolErrors | memoryRecallFailed | contextUnknown
  | contextReceiptMissing | responseDigestMismatch | modelProviderChanged
deriving DecidableEq

/-- What an operator is to look at. -/
structure AttentionPoint where
  check : Check
  severity : Severity
  code : AttentionCode
  title : String
  detail : String
  action : String
deriving DecidableEq

/-- `report_body`, and the digest of it. -/
structure FlightReport where
  format : String := "atmem-agent-blackbox-report-v2"
  generatedAt : String
  runId : String
  sessionId : Option String
  agentId : Option String
  workspaceId : Option String
  subjectId : Option String
  verdict : Verdict
  timelineChainValid : Bool
  structurallyComplete : Bool
  coverage : Coverage
  overallStatus : OverallStatus
  components : Components
  lifecycle : Lifecycle
  context : Context
  model : Model
  correlation : Correlation
  tools : Tools
  events : ℕ
  firstSequence : ℤ
  lastSequence : ℤ
  timeline : List Entry
  compatibility : Compatibility
  claimBoundary : String :=
    "This report verifies retained timeline integrity and observed hook closure. " ++
    "It does not prove that an external real-world outcome occurred, and it does " ++
    "not semantically validate claims in the agent response."
  rawContentStored : Bool := false
  runKind : RunKind
  attentionPoints : List AttentionPoint := []
  reportSha256 : String := ""

/-! ## Texts -/

/-- `text.replace(c, by)`, of one character. -/
def replaceChar (c : Char) (new text : String) : String :=
  String.ofList (text.toList.flatMap fun d => if d = c then new.toList else [d])

/-- The number of an entry, or that it is unknown. -/
def sequenceText (entry : Option Entry) : String :=
  match entry with
  | some e => if e.sequence = 0 then "unknown" else toString e.sequence
  | none => "unknown"

/-- The name of the tool of an entry. -/
def toolText (entry : Option Entry) : String :=
  textOr (entry.bind fun e => e.body.payload.tool) "Unknown tool"

/-- The events of the timeline that name a call. -/
def byCall (timeline : List Entry) (callId : String) : List Entry :=
  timeline.filter fun e => e.callId ≠ "" ∧ e.callId = callId

/-- What is said of a call whose observations disagree. -/
def conflictDetail (timeline : List Entry) (callId : String) : String :=
  let events := byCall timeline callId
  let names := sortedSet (events.map fun e => toolText (some e))
  let sequences := (events.filter (·.sequence ≠ 0)).map fun e => toString e.sequence
  " / ".intercalate names ++ " (call " ++ callId ++
    ") has incompatible duplicate observations" ++
    (if sequences = [] then "." else " at events " ++ ", ".intercalate sequences ++ ".")

/-- `_tool_lifecycle_detail`. -/
def toolLifecycleDetail (timeline : List Entry) (tools : Tools) : String :=
  let missing := tools.missingCompletions.map fun callId =>
    let request := (byCall timeline callId).find? fun e => e.body.eventType = "tool.requested"
    toolText request ++ " (call " ++ callId ++ ") was requested at event " ++
      sequenceText request ++ ", but no completion was observed before the turn ended."
  let orphan := tools.orphanCompletions.map fun callId =>
    let completion := (byCall timeline callId).find? fun e => e.body.eventType = "tool.completed"
    toolText completion ++ " (call " ++ callId ++ ") completed at event " ++
      sequenceText completion ++ ", but AtMem never observed its request."
  let conflicting := (tools.conflictingRequests ++ tools.conflictingCompletions).eraseDups.map
    (conflictDetail timeline)
  let requests := if tools.uncorrelatedRequests = 0 then []
    else [toString tools.uncorrelatedRequests ++
      " tool request observation(s) had no call ID."]
  let completions := if tools.uncorrelatedCompletions = 0 then []
    else [toString tools.uncorrelatedCompletions ++
      " tool completion observation(s) had no call ID."]
  let details := (missing ++ orphan ++ conflicting ++ requests ++ completions).take 4
  if details = [] then
    "The retained tool events do not form a complete request/completion pair."
  else " ".intercalate details

/-! ## The queue -/

/-- A point, where it applies. -/
def add (applies : Bool) (point : AttentionPoint) : List AttentionPoint :=
  if applies then [point] else []

/-- `capture.gap`: what the adapter says it lost last. -/
def captureLoss (timeline : List Entry) : List AttentionPoint :=
  match (timeline.filter fun e => e.body.eventType = "capture.gap").getLast? with
  | none => []
  | some gap =>
    [{ check := .completion, severity := .high, code := .captureLoss
       title := "Execution evidence was lost before delivery"
       detail := "The adapter reported " ++
         (match gap.body.payload.droppedCount with
          | some (n + 1) => toString (n + 1)
          | _ => "some") ++ " dropped event(s) because " ++
         replaceChar '_' " " (textOr gap.body.payload.reason "capture was interrupted") ++ "."
       action := "Inspect host logs and the producer sequence range; missing historical events " ++
         "cannot be reconstructed by an upgrade." }]

/-- `recording_gap`: the record stops before the turn ends, and says nothing
against the tools. -/
def FlightReport.recordingGap (r : FlightReport) : Bool :=
  r.verdict = .incompleteEvidence && !r.compatibility.legacyFlight &&
    !r.coverage.terminalEventObserved && !r.tools.evidenceConflict

/-- The point of a record that stops. -/
def recordingStopped (r : FlightReport) : AttentionPoint :=
  let openToolCalls := r.tools.missingCompletions.length + r.tools.uncorrelatedRequests
  let review := r.runKind = .backgroundSkillReview
  let observed := if openToolCalls ≠ 0 then
      toString openToolCalls ++ " command" ++ (if openToolCalls ≠ 1 then "s were" else " was") ++
        " requested, but AtMem received neither the results nor a final response."
    else
      "The last evidence was '" ++ replaceChar '.' " "
        (textOr (r.timeline.getLast?.map (·.body.eventType)) "unknown event") ++
        "'; AtMem then received no final agent result."
  { check := .completion, severity := .medium, code := .recordingStopped
    title := if review then "Background review completion not recorded"
      else "Run completion not recorded"
    detail := observed ++
      (if review then " This is a separate OpenClaw background review, not the foreground " ++
        "conversation."
       else " Model output and run completion are separate observations.") ++
      " The run may still be active; no tool failure, ending, or external change is proven."
    action := "Check whether the host run is still active, then review this recording gap if it " ++
      "has stopped." }

/-- The components that are not there, or failed. -/
def Components.notVerified (c : Components) : List String :=
  (c.named.filter fun component => component.2 = .missing || component.2 = .failed).map (·.1)

/-- What is said of a flight that failed, or is not complete. -/
def flightPoints (r : FlightReport) : List AttentionPoint :=
  if r.verdict = .failed then
    [{ check := .completion, severity := .high, code := .flightFailed
       title := "Agent flight failed"
       detail := textOr (orElse r.lifecycle.reason r.lifecycle.failureKind)
         "The turn ended without a successful result."
       action := "Inspect the last reliable event and retry only when the cause is understood." }]
  else if r.verdict = .incompleteEvidence && !r.compatibility.legacyFlight && !r.recordingGap then
    -- a gap of the tools alone gets one point of its own
    add (r.components.notVerified ≠ ["tools"])
      { check := .completion, severity := .high, code := .flightIncomplete
        title := "Flight evidence is incomplete"
        detail := "AtMem could not verify: " ++ ", ".intercalate
          (if r.components.notVerified = [] then ["an unknown runtime boundary"]
           else r.components.notVerified) ++ "."
        action := "Open the timeline and inspect the first missing boundary named above." }
  else []

/-- `tool_gaps`. -/
def Tools.gaps (t : Tools) : ℕ :=
  t.missingCompletions.length + t.orphanCompletions.length + t.conflictingRequests.length +
    t.conflictingCompletions.length + t.uncorrelatedRequests + t.uncorrelatedCompletions

/-- A failed call, in a line. -/
def errorSummary (error : ToolError) : String :=
  let keys := error.paramKeys.getD []
  textOr error.toolName "unknown tool" ++ " · call " ++
    textOr error.toolCallId "unidentified call" ++ " · inputs: " ++
    (if keys = [] then "no input field names recorded" else ", ".intercalate keys) ++ " · " ++
    textOr (orElse error.errorReason error.errorCategory) "unknown reason"

/-- What is said of the tools. -/
def toolPoints (r : FlightReport) : List AttentionPoint :=
  let names := sortedSet (r.tools.errors.map fun error => textOr error.toolName "unknown tool")
  add (r.tools.gaps ≠ 0 && (r.verdict ≠ .inProgress || r.tools.evidenceConflict) &&
      !r.compatibility.legacyFlight && !r.recordingGap)
    { check := .tools, severity := .medium, code := .toolLifecycleMismatch
      title := if r.lifecycle.success then "Run completed · tool evidence needs review"
        else "Tool completion evidence needs review"
      detail := toolLifecycleDetail r.timeline r.tools
      action := "Open the named call below and compare its request with its completion. " ++
        "Acknowledge it only after deciding whether this was an agent failure or an " ++
        "observation gap." } ++
  add (r.tools.errors ≠ [])
    { check := .tools, severity := .medium, code := .toolErrors
      title := match names with
        | [name] => name ++ " failed"
        | _ => toString r.tools.errors.length ++ " tool calls failed"
      detail := "\n".intercalate ((r.tools.errors.take 3).map errorSummary)
      action := "Inspect the named call, its safe input-field summary, and the redacted error " ++
        "before deciding whether to retry." }

/-- What is said of the memory the model had. -/
def contextPoints (r : FlightReport) : List AttentionPoint :=
  let disposition := r.context.disposition.getD ""
  if disposition = "recall_failed" then
    [{ check := .contextModel, severity := .medium, code := .memoryRecallFailed
       title := "Memory recall failed"
       detail := "The model continued without the memory context AtMem attempted to prepare."
       action := "Check AtMem availability and the context-disposition event." }]
  else if !r.coverage.contextDispositionObserved && r.verdict ≠ .inProgress &&
      !r.compatibility.legacyFlight && !r.recordingGap then
    [{ check := .contextModel, severity := .high, code := .contextUnknown
       title := "Memory context is unknown"
       detail := "No event explains what memory reached the model."
       action := "Inspect the prompt hook and require one context disposition per turn." }]
  else
    add (disposition = "injected" && !r.context.receiptBound)
      { check := .contextModel, severity := .medium, code := .contextReceiptMissing
        title := "Injected memory has no receipt correlation"
        detail := "The context digest exists, but it is not linked to a context receipt."
        action := "Inspect the memory hook correlation envelope." }

/-- What is said of the model and its response. -/
def modelPoints (r : FlightReport) : List AttentionPoint :=
  let route := fun provider model : Option String =>
    " / ".intercalate (([provider, model].filter truthy).map fun value => value.getD "")
  add (r.coverage.responseDigestBound && !r.coverage.responseDigestConsistent)
    { check := .contextModel, severity := .high, code := .responseDigestMismatch
      title := "Response fingerprints disagree"
      detail := "The model output contains inconsistent visible-response digests."
      action := "Inspect response transformation and hook ordering." } ++
  add r.model.changedFromRecentBaseline
    { check := .contextModel, severity := .medium, code := .modelProviderChanged
      title := "Model or provider changed"
      detail := "Observed " ++ route r.model.provider r.model.model ++ "; recent baseline is " ++
        route r.model.baselineProvider r.model.baselineModel ++ "."
      action := "Confirm that this routing change was intentional." }

/-- `flight_attention`. -/
def flightAttention (r : FlightReport) : List AttentionPoint :=
  add (!r.timelineChainValid)
    { check := .completion, severity := .critical, code := .evidenceChainInvalid
      title := "Flight evidence failed integrity verification"
      detail := "The retained timeline may be incomplete or modified."
      action := "Inspect the evidence store before trusting this run." } ++
  captureLoss r.timeline ++
  add r.compatibility.legacyFlight
    { check := .completion, severity := .medium, code := .legacyEvidenceContract
      title := "Older flights need a bridge refresh"
      detail := "These flights predate the current evidence contract, so their apparent context " ++
        "and tool gaps are not reliable incidents."
      action := "Upgrade AtMem and its OpenClaw bridge, restart the gateway, then run one fresh " ++
        "test flight." } ++
  add r.recordingGap (recordingStopped r) ++ flightPoints r ++ toolPoints r ++ contextPoints r ++
  modelPoints r

end Atmem.Flight
