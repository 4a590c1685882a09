import Atmem.Control.Model.FlightReport
import Atmem.Control.Model.Store
/-!
# Verifying a flight

The verdict on one run is reached from its retained events. What is covered
of it is said component by component beside it, from the same observations
and not from the verdict.
-/

namespace Atmem.Flight

/-- `datetime.fromisoformat`, which gives the moment where the text names a
zone, and the digest of a report: the SHA-256 of its canonical JSON. -/
structure Verifier where
  fromIso : String → Option (Option ℤ)
  digest : FlightReport → String

/-- `OPEN_FLIGHT_GRACE_SECONDS`. -/
def openFlightGraceSeconds : ℕ := 15 * 60

/-! ## Observations -/

/-- The last entry of a kind. -/
def lastEntry (p : Entry → Bool) (entries : List Entry) : Option Entry := entries.reverse.find? p

/-- An event of the type is there. -/
def occurs (eventType : String) (entries : List Entry) : Bool :=
  entries.any fun e => e.body.eventType = eventType

/-- The event that says what context the turn had. -/
def isContext (e : Entry) : Bool :=
  ["context.disposition", "context.injected", "context.prepared"].contains e.body.eventType

/-- `_context_disposition`. -/
def contextDisposition (body : Option Event) : Option String :=
  match body with
  | none => none
  | some body =>
    let explicit := strip (body.payload.disposition.getD "")
    if explicit ≠ [] then some (String.ofList explicit)
    else if body.eventType = "context.injected" then some "injected"
    else if body.eventType = "context.prepared" then
      some (if body.payload.mode = some "shadow" then "withheld_by_policy" else "no_relevant_memory")
    else none

/-- `valid_dispositions`. -/
def validDispositions : List String :=
  ["injected", "no_relevant_memory", "withheld_by_policy", "recall_failed", "not_applicable"]

/-- A digest of the response is there. -/
def Payload.responseBound (p : Payload) : Bool :=
  truthy p.assistantVisibleTextSha256 || truthy p.responseSha256

/-- Where both digests of a response are there, they are one. -/
def Payload.responseConsistent (p : Payload) : Bool :=
  !truthy p.assistantVisibleTextSha256 || !truthy p.responseSha256 ||
    p.assistantVisibleTextSha256 = p.responseSha256

/-- The provider and the model an event names. -/
def Event.signature (e : Event) : String × String :=
  (e.payload.provider.getD "", e.payload.model.getD "")

/-- `recent_model_baseline`: what was named most often, and more than once. -/
def recentModelBaseline (entries : List Entry) : Option (String × String) :=
  let signatures := ((observed "model.output" entries).map fun e => e.body.signature).filter
    (· ≠ ("", ""))
  let counts := signatures.eraseDups.map fun signature => (signature, signatures.count signature)
  match counts.insertionSort fun a b => b.2 ≤ a.2 with
  | [] => none
  | [(signature, n)] => if 2 ≤ n then some signature else none
  | (signature, n) :: (_, m) :: _ => if 2 ≤ n ∧ m < n then some signature else none

/-- `open_age_seconds`, in microseconds: how long ago the last event was, where
both texts can be read and name a zone. -/
def openAge (V : Verifier) (recordedAt : Option String) (generatedAt : String) : Option ℕ :=
  match recordedAt.bind fun text => V.fromIso (replaceChar 'Z' "+00:00" text),
      V.fromIso (replaceChar 'Z' "+00:00" generatedAt) with
  | some (some recorded), some (some current) => some (current - recorded).toNat
  | _, _ => none

/-- `run_kind`. -/
def runKind (host runId : String) (sessionId : Option String) : RunKind :=
  if host = "openclaw" ∧ "skill-workshop-review:".isPrefixOf runId ∧
      "internal-session-effects-skill-workshop-review_".isPrefixOf (sessionId.getD "") then
    .backgroundSkillReview
  else .agentRun

/-- `_correlation_summary`. -/
def correlationSummary (entries : List Entry) : Correlation :=
  let texts := fun field : Event → Option String =>
    sortedSet ((entries.map fun e => field e.body).filter truthy |>.map fun value => value.getD "")
  { sessionIds := texts (·.sessionId)
    turnIds := texts (·.turnId)
    retrievalIds := texts (·.retrievalId)
    contextEventIds := texts (·.contextEventId)
    contextReceiptIds := texts (·.contextReceiptId)
    outcomeIds := texts (·.outcomeId) }

/-- The first value of a field that is there. -/
def firstOf (field : Event → Option String) (entries : List Entry) : Option String :=
  (entries.find? fun e => truthy (field e.body)).bind fun e => field e.body

/-! ## Verdicts -/

/-- What the verdict, the coverage and the lifecycle are told from. -/
structure Observations where
  chainValid : Bool
  turnInput : Bool
  terminal : Bool
  modelInput : Bool
  modelOutput : Bool
  inProgress : Bool
  openAge : Option ℕ
  disposition : Option String
  contextDigestBound : Bool
  contextReceiptBound : Bool
  responseBound : Bool
  responseDigestConsistent : Bool
  terminalPayload : Payload
  tools : Tools

namespace Observations

variable (o : Observations)

/-- `context_observed`. -/
def contextObserved : Bool := o.disposition.any validDispositions.contains

/-- The terminal event says that the run was cancelled. -/
def cancelled : Bool := o.terminalPayload.cancelled = some true

/-- It says that the run succeeded, and was not cancelled. -/
def succeeded : Bool := o.terminalPayload.success = some true && !o.cancelled

/-- There is a terminal event and it says neither. -/
def failed : Bool := o.terminal && !o.succeeded && !o.cancelled

/-- `required_evidence`. -/
def requiredEvidence : Bool :=
  o.turnInput && o.contextObserved && o.modelInput && o.modelOutput && o.responseBound &&
    o.responseDigestConsistent && o.terminal && o.tools.closure

/-- The chain is valid and the events that are required are there. -/
def structurallyComplete : Bool := o.chainValid && o.requiredEvidence

/-- `component_status`. -/
def components : Components where
  integrity := if o.chainValid then .covered else .failed
  lifecycle :=
    if o.cancelled then .cancelled
    else if o.failed then .failed
    else if o.turnInput && o.terminal then .covered
    else .missing
  context :=
    if !o.contextObserved then .missing
    else if o.disposition = some "recall_failed" || o.disposition = some "withheld_by_policy" ||
        (o.disposition = some "injected" && !o.contextDigestBound) then .warning
    else .covered
  model := if o.modelInput && o.modelOutput then .covered else .missing
  -- calls that are open where the turn has not ended are a gap, not a failure
  tools :=
    if o.tools.closure then .covered
    else if o.terminal || o.tools.evidenceConflict then .failed
    else .missing
  response :=
    if !o.responseDigestConsistent then .failed
    else if o.responseBound then .covered
    else .missing

/-- `overall_status`. -/
def overallStatus : OverallStatus :=
  let has := fun status => o.components.named.any fun component => component.2 = status
  if o.cancelled then .cancelled
  else if has .failed then .failed
  else if o.inProgress then .inProgress
  else if has .missing then .incomplete
  else if has .warning then .warning
  else .covered

/-- `verdict`. -/
def verdict : Verdict :=
  if !o.chainValid then .tamperedOrInvalidChain
  else if o.cancelled then .cancelled
  else if o.failed then .failed
  else if o.inProgress then .inProgress
  else if !o.structurallyComplete then .incompleteEvidence
  else if o.tools.errors ≠ [] then .completedWithToolErrors
  else .completedSuccessfully

end Observations

/-! ## One flight -/

/-- The entries of a run, by their sequence. -/
def selectRun (runId : String) (entries : List Entry) : List Entry :=
  (entries.filter fun e => e.body.runId = runId).insertionSort fun a b => a.sequence ≤ b.sequence

/-- What is observed of the entries of a run. -/
def observe (V : Verifier) (selected : List Entry) (chainValid : Bool) (generatedAt : String) :
    Observations :=
  let terminal := occurs "turn.ended" selected
  -- only a run that goes on has an age
  let openAge := if terminal then none
    else Flight.openAge V (selected.getLast?.bind fun e => e.body.recordedAt) generatedAt
  let contextEntry := lastEntry isContext selected
  let contextPayload := (contextEntry.map fun e => e.body.payload).getD {}
  let outputs := observed "model.output" selected
  { chainValid
    turnInput := occurs "turn.input" selected
    terminal
    modelInput := occurs "model.input" selected
    modelOutput := occurs "model.output" selected
    inProgress := !terminal && openAge.any (· < openFlightGraceSeconds * 1000000)
    openAge
    disposition := contextDisposition (contextEntry.map (·.body))
    contextDigestBound := truthy contextPayload.contextEnvelopeSha256 ||
      truthy contextPayload.contextBlockSha256 || truthy contextPayload.contextSha256
    contextReceiptBound := truthy (contextEntry.bind fun e => e.body.contextReceiptId) ||
      truthy contextPayload.contextReceiptSha256
    responseBound := outputs.any fun e => e.body.payload.responseBound
    responseDigestConsistent := outputs.all fun e => e.body.payload.responseConsistent
    terminalPayload := ((lastEntry (fun e => e.body.eventType = "turn.ended") selected).map
      fun e => e.body.payload).getD {}
    tools := toolsOf selected }

/-- `current_contract_observed`. -/
def currentContractObserved (selected : List Entry) : Bool :=
  selected.any fun e => e.body.eventType = "context.disposition" ||
    (e.body.eventType = "model.output" && truthy e.body.payload.assistantVisibleTextSha256)

/-- The model of a flight, beside the one that is usual. -/
def modelOf (selected : List Entry) (baseline : Option (String × String)) : Model :=
  let current := match (observed "model.output" selected).getLast? with
    | some e => e.body.signature
    | none => ("", "")
  { provider := if current.1 = "" then none else some current.1
    model := if current.2 = "" then none else some current.2
    baselineProvider := baseline.map (·.1)
    baselineModel := baseline.map (·.2)
    changedFromRecentBaseline := baseline.any fun usual =>
      current ≠ ("", "") && current ≠ usual }

/-- `report_body`, before its attention points. -/
def reportBody (o : Observations) (runId generatedAt : String) (first : Entry)
    (selected : List Entry) (baseline : Option (String × String)) : FlightReport where
  generatedAt
  runId
  sessionId := firstOf (·.sessionId) selected
  agentId := firstOf (·.agentId) selected
  workspaceId := firstOf (·.workspaceId) selected
  subjectId := firstOf (·.subjectId) selected
  verdict := o.verdict
  timelineChainValid := o.chainValid
  structurallyComplete := o.structurallyComplete
  coverage :=
    { turnInputObserved := o.turnInput
      contextDispositionObserved := o.contextObserved
      contextDigestBound := o.contextDigestBound
      contextReceiptBound := o.contextReceiptBound
      modelInputObserved := o.modelInput
      modelOutputObserved := o.modelOutput
      responseDigestBound := o.responseBound
      responseDigestConsistent := o.responseDigestConsistent
      terminalEventObserved := o.terminal }
  overallStatus := o.overallStatus
  components := o.components
  lifecycle :=
    { state := if o.terminal then .completed
        else if o.inProgress then .inProgress else .awaitingTerminal
      microsSinceLastEvent := o.openAge
      staleAfterSeconds := if o.terminal then none else some openFlightGraceSeconds
      success := o.succeeded
      failed := o.failed
      cancelled := o.cancelled
      failureKind := o.terminalPayload.failureKind
      reason := o.terminalPayload.reason }
  context :=
    { disposition := o.disposition
      digestBound := o.contextDigestBound
      receiptBound := o.contextReceiptBound }
  model := modelOf selected baseline
  correlation := correlationSummary selected
  tools := o.tools
  events := selected.length
  firstSequence := first.sequence
  lastSequence := (selected.getLast?.getD first).sequence
  timeline := selected
  compatibility :=
    { eventFormats := sortedSet (selected.map fun e => textOr e.body.format "unknown")
      currentContractObserved := currentContractObserved selected
      legacyFlight := !currentContractObserved selected }
  runKind := Flight.runKind (first.body.host.getD "") runId (firstOf (·.sessionId) selected)

/-- `verify_flight`, where the clock reads `now`. -/
def verifyFlight (V : Verifier) (runId : String) (entries : List Entry) (chainValid : Bool)
    (modelBaseline : Option (String × String)) (asOf : Option String) (now : String) :
    Except Control.ControlError FlightReport :=
  match selectRun runId entries with
  | [] => .error (.valueError ("no blackbox flight found for run " ++ runId))
  | first :: rest =>
    let selected := first :: rest
    let generatedAt := textOr asOf now
    let report := reportBody (observe V selected chainValid generatedAt) runId generatedAt first
      selected (modelBaseline <|> recentModelBaseline entries)
    let report := { report with attentionPoints := flightAttention report }
    .ok { report with reportSha256 := V.digest report }

end Atmem.Flight
