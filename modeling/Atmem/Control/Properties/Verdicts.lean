import Atmem.Control.Helpers.Closure
/-!
# The verdict on a flight

The verdict, the coverage and the queue of an operator are told apart from
each other. They agree: a flight is said to be completed just where all of it
was observed, what is covered is completed, and what is not has a point that
says so.
-/

namespace Atmem.Flight

variable {o : Observations} {V : Verifier} {entries selected : List Entry} {chainValid : Bool}
variable {runId generatedAt now : String} {asOf : Option String}
variable {baseline : Option (String × String)} {report : FlightReport} {first : Entry}

/-- The run completed, with or without errors of its tools. -/
def Verdict.Completed (v : Verdict) : Prop :=
  v = .completedSuccessfully ∨ v = .completedWithToolErrors

/-- What a completed run shows, its tools apart. -/
structure Observed (entries : List Entry) : Prop where
  turnInput : ∃ e ∈ entries, e.body.eventType = "turn.input"
  /-- The last event about the context says what it was. -/
  context : ∃ disposition ∈ validDispositions,
    contextDisposition ((lastEntry isContext entries).map (·.body)) = some disposition
  modelInput : ∃ e ∈ entries, e.body.eventType = "model.input"
  /-- Some output of the model has a digest of the response. -/
  bound : ∃ e ∈ observed "model.output" entries, e.body.payload.responseBound = true
  consistent : ∀ e ∈ observed "model.output" entries, e.body.payload.responseConsistent = true
  /-- The last end of the turn is a success, and no cancellation. -/
  ended : ∃ e, lastEntry (fun e => e.body.eventType = "turn.ended") entries = some e ∧
    e.body.payload.success = some true ∧ e.body.payload.cancelled ≠ some true

/-! ## The verdict -/

/-- A type occurs exactly if an event has it. -/
theorem occurs_iff {eventType : String} :
    occurs eventType entries = true ↔ ∃ e ∈ entries, e.body.eventType = eventType := by
  simp [occurs]

/-- The context was observed exactly if its disposition is a valid one. -/
theorem contextObserved_iff :
    o.contextObserved = true ↔ ∃ disposition ∈ validDispositions, o.disposition = some disposition := by
  rw [Observations.contextObserved]
  cases o.disposition with
  | none => simp
  | some disposition => simp

/-- What is not over has no last end. -/
theorem terminalPayload_of_open (h : (observe V selected chainValid generatedAt).terminal = false) :
    (observe V selected chainValid generatedAt).terminalPayload = {} := by
  have hnone : lastEntry (fun e => e.body.eventType = "turn.ended") selected = none := by
    refine List.find?_eq_none.mpr fun e he hended => ?_
    have hoccurs : occurs "turn.ended" selected = true :=
      occurs_iff.mpr ⟨e, List.mem_reverse.mp he, of_decide_eq_true hended⟩
    exact Bool.false_ne_true (h.symm.trans hoccurs)
  simp only [observe, hnone, Option.map_none, Option.getD_none]

/-- What success is. -/
theorem Observations.succeeded_iff : o.succeeded = true ↔
    o.terminalPayload.success = some true ∧ o.terminalPayload.cancelled ≠ some true := by
  simp [Observations.succeeded, Observations.cancelled]

/-- What success is, of the entries of a run. -/
theorem succeeded_iff : (observe V selected chainValid generatedAt).succeeded = true ↔
    ∃ e, lastEntry (fun e => e.body.eventType = "turn.ended") selected = some e ∧
      e.body.payload.success = some true ∧ e.body.payload.cancelled ≠ some true := by
  have hpayload : (observe V selected chainValid generatedAt).terminalPayload =
      ((lastEntry (fun e => e.body.eventType = "turn.ended") selected).map
        fun e => e.body.payload).getD {} := rfl
  rw [Observations.succeeded_iff, hpayload]
  cases lastEntry (fun e => e.body.eventType = "turn.ended") selected with
  | none => simp
  | some e => simp

/-- A success is an end. -/
theorem terminal_of_succeeded (h : (observe V selected chainValid generatedAt).succeeded = true) :
    (observe V selected chainValid generatedAt).terminal = true := by
  by_contra hopen
  have hnone := terminalPayload_of_open (Bool.eq_false_of_not_eq_true hopen)
  simp [Observations.succeeded, hnone] at h

/-- A run that ended is not in progress. -/
theorem inProgress_of_terminal (h : (observe V selected chainValid generatedAt).terminal = true) :
    (observe V selected chainValid generatedAt).inProgress = false := by
  have hterminal : occurs "turn.ended" selected = true := h
  simp [observe, hterminal]

/-- When the evidence of a run that succeeded is complete. -/
theorem requiredEvidence_iff (V : Verifier) (selected : List Entry) (chainValid : Bool)
    (generatedAt : String) :
    (observe V selected chainValid generatedAt).requiredEvidence = true ∧
        (observe V selected chainValid generatedAt).succeeded = true ↔
      Observed selected ∧ ToolsClosed selected := by
  rw [← closure_iff]
  constructor
  · rintro ⟨hrequired, hsucceeded⟩
    simp only [Observations.requiredEvidence, Bool.and_eq_true] at hrequired
    obtain ⟨⟨⟨⟨⟨⟨⟨hinput, hcontext⟩, hmodel⟩, -⟩, hbound⟩, hconsistent⟩, -⟩, hclosure⟩ := hrequired
    refine ⟨⟨occurs_iff.mp hinput, ?_, occurs_iff.mp hmodel, List.any_eq_true.mp hbound,
      List.all_eq_true.mp hconsistent, succeeded_iff.mp hsucceeded⟩, hclosure⟩
    exact contextObserved_iff.mp hcontext
  · rintro ⟨h, hclosure⟩
    have hsucceeded : (observe V selected chainValid generatedAt).succeeded = true :=
      succeeded_iff.mpr h.ended
    obtain ⟨output, ho, hbound⟩ := h.bound
    obtain ⟨hmem, htype⟩ := mem_observed.mp ho
    refine ⟨?_, hsucceeded⟩
    simp only [Observations.requiredEvidence, Bool.and_eq_true]
    exact ⟨⟨⟨⟨⟨⟨⟨occurs_iff.mpr h.turnInput,
      contextObserved_iff.mpr h.context⟩,
      occurs_iff.mpr h.modelInput⟩, occurs_iff.mpr ⟨output, hmem, htype⟩⟩,
      List.any_eq_true.mpr ⟨output, ho, hbound⟩⟩, List.all_eq_true.mpr h.consistent⟩,
      terminal_of_succeeded hsucceeded⟩, hclosure⟩

/-- When the verdict is one of completion. -/
theorem Observations.completed_iff : o.verdict.Completed ↔
    (o.chainValid = true ∧ o.requiredEvidence = true) ∧
      o.cancelled = false ∧ o.failed = false ∧ o.inProgress = false := by
  simp only [Verdict.Completed, Observations.verdict, Observations.structurallyComplete]
  split_ifs <;> simp_all
  exact em _

/-- The run is completed where the chain holds, all that is required was seen,
and the end of it was a success. -/
theorem completed_iff : (observe V selected chainValid generatedAt).verdict.Completed ↔
    chainValid = true ∧ Observed selected ∧ ToolsClosed selected := by
  rw [← requiredEvidence_iff V selected chainValid generatedAt, Observations.completed_iff]
  constructor
  · rintro ⟨⟨hvalid, hrequired⟩, hcancelled, hfailed, -⟩
    refine ⟨hvalid, hrequired, ?_⟩
    have hterminal : (observe V selected chainValid generatedAt).terminal = true := by
      simp only [Observations.requiredEvidence, Bool.and_eq_true] at hrequired
      exact hrequired.1.2
    simpa [Observations.failed, hterminal, hcancelled] using hfailed
  · rintro ⟨hvalid, hrequired, hsucceeded⟩
    refine ⟨⟨hvalid, hrequired⟩, ?_, ?_, inProgress_of_terminal (terminal_of_succeeded hsucceeded)⟩
    · simp only [Observations.succeeded, Bool.and_eq_true, Bool.not_eq_true'] at hsucceeded
      exact hsucceeded.2
    · simp [Observations.failed, hsucceeded]

/-- Where all is covered, no component failed or is missing. -/
theorem named_of_covered (h : o.overallStatus = .covered) :
    o.cancelled = false ∧ o.inProgress = false ∧
      ∀ component ∈ o.components.named, component.2 ≠ .failed ∧ component.2 ≠ .missing := by
  simp only [Observations.overallStatus] at h
  split_ifs at h with hcancelled hfailed hopen hmissing
  refine ⟨Bool.eq_false_of_not_eq_true hcancelled, Bool.eq_false_of_not_eq_true hopen,
    fun component hc => ⟨fun hstatus => hfailed ?_, fun hstatus => hmissing ?_⟩⟩
  · exact List.any_eq_true.mpr ⟨component, hc, decide_eq_true hstatus⟩
  · exact List.any_eq_true.mpr ⟨component, hc, decide_eq_true hstatus⟩

/-- What is covered in every part is complete, and is neither cancelled, nor
failed, nor open. -/
theorem completed_of_covered (h : o.overallStatus = .covered) : o.verdict.Completed := by
  obtain ⟨hcancelled, hopen, hnamed⟩ := named_of_covered h
  simp only [Components.named, List.forall_mem_cons, List.not_mem_nil, false_implies,
    forall_true_iff, and_true] at hnamed
  obtain ⟨hintegrity, hlifecycle, hcontext, hmodel, htools, hresponse⟩ := hnamed
  have hvalid : o.chainValid = true := by
    by_contra hnot
    simp [Observations.components, hnot] at hintegrity
  -- each component is only named covered where what it observes is there
  have hended : o.failed = false ∧ o.turnInput = true ∧ o.terminal = true := by
    simp only [Observations.components, hcancelled, Bool.false_eq_true, if_false] at hlifecycle
    split_ifs at hlifecycle with hfailed hboth
    · exact absurd rfl hlifecycle.1
    · exact ⟨Bool.eq_false_of_not_eq_true hfailed, Bool.and_eq_true_iff.mp hboth⟩
    · exact absurd rfl hlifecycle.2
  have hobserved : o.contextObserved = true := by
    by_contra hnot
    simp [Observations.components, hnot] at hcontext
  have hboth : o.modelInput = true ∧ o.modelOutput = true := by
    by_contra hnot
    simp [Observations.components, hnot] at hmodel
  have hclosure : o.tools.closure = true := by
    by_contra hnot
    simp only [Observations.components, if_neg hnot] at htools
    split_ifs at htools with hconflict
    · exact absurd rfl htools.1
    · exact absurd rfl htools.2
  have hbound : o.responseDigestConsistent = true ∧ o.responseBound = true := by
    simp only [Observations.components] at hresponse
    split_ifs at hresponse with hdiffer hbound
    · exact absurd rfl hresponse.1
    · exact ⟨by simpa using hdiffer, hbound⟩
    · exact absurd rfl hresponse.2
  refine Observations.completed_iff.mpr ⟨⟨hvalid, ?_⟩, hcancelled, hended.1, hopen⟩
  simp only [Observations.requiredEvidence, Bool.and_eq_true]
  exact ⟨⟨⟨⟨⟨⟨⟨hended.2.1, hobserved⟩, hboth.1⟩, hboth.2⟩, hbound.2⟩, hbound.1⟩, hended.2.2⟩,
    hclosure⟩

/-! ## The queue -/

theorem add_eq_nil {applies : Bool} {point : AttentionPoint} :
    add applies point = [] ↔ applies = false := by
  cases applies <;> simp [add]

/-- Tools that are not closed leave gaps. -/
theorem gaps_ne_zero {t : Tools} (h : t.closure = false) : t.gaps ≠ 0 := by
  intro hgaps
  simp only [Tools.gaps, Nat.add_eq_zero_iff, List.length_eq_zero_iff] at hgaps
  obtain ⟨⟨⟨⟨⟨hmissing, horphan⟩, hrequests⟩, hcompletions⟩, hreq⟩, hcomp⟩ := hgaps
  have hclosed : t.closure = true :=
    Tools.closure_eq_true.mpr ⟨⟨hreq, hcomp⟩, ⟨hmissing, horphan⟩, hrequests, hcompletions⟩
  exact Bool.false_ne_true (h.symm.trans hclosed)

/-- Where the tools are all that is not verified, they are not closed. -/
theorem closure_of_notVerified (h : o.components.notVerified = ["tools"]) :
    o.tools.closure = false := by
  have hmem : "tools" ∈ o.components.notVerified := by
    rw [h]
    exact List.mem_singleton.mpr rfl
  by_contra hclosed
  have hcovered : o.components.tools = .covered := by
    simp [Observations.components, hclosed]
  simp [Components.notVerified, Components.named, hcovered] at hmem

variable {r : FlightReport}

/-- Where nothing needs attention, no part of the queue has a point. -/
theorem no_points (h : flightAttention r = []) :
    r.timelineChainValid = true ∧ r.compatibility.legacyFlight = false ∧ r.recordingGap = false ∧
      flightPoints r = [] ∧ toolPoints r = [] := by
  simp only [flightAttention, List.append_eq_nil_iff, add_eq_nil, Bool.not_eq_false'] at h
  obtain ⟨⟨⟨⟨⟨⟨⟨hchain, -⟩, hlegacy⟩, hgap⟩, hflight⟩, htools⟩, -⟩, -⟩ := h
  exact ⟨hchain, hlegacy, hgap, hflight, htools⟩

/-- Nothing is said of the tools exactly if nothing is wrong. -/
theorem no_toolPoints (h : toolPoints r = []) :
    (r.tools.gaps ≠ 0 && (r.verdict ≠ .inProgress || r.tools.evidenceConflict) &&
      !r.compatibility.legacyFlight && !r.recordingGap) = false ∧ r.tools.errors = [] := by
  simp only [toolPoints, List.append_eq_nil_iff, add_eq_nil] at h
  exact ⟨h.1, by simpa using h.2⟩

/-- Errors of tools are pointed out. -/
theorem points_of_errors (h : r.tools.errors ≠ []) : flightAttention r ≠ [] :=
  fun hnone => h (no_toolPoints (no_points hnone).2.2.2.2).2

/-- So is a failure. -/
theorem points_of_failed (h : r.verdict = .failed) : flightAttention r ≠ [] := by
  intro hnone
  have hflight := (no_points hnone).2.2.2.1
  simp [flightPoints, h] at hflight

/-- What is not complete is named, and where only the tools are not, their
calls are. -/
theorem points_of_incomplete (h : r.verdict = .incompleteEvidence)
    (hgaps : r.components.notVerified = ["tools"] → r.tools.gaps ≠ 0) : flightAttention r ≠ [] := by
  intro hnone
  obtain ⟨-, hlegacy, hgap, hflight, htools⟩ := no_points hnone
  have honly : r.components.notVerified = ["tools"] := by
    simpa [flightPoints, h, hlegacy, hgap, add_eq_nil] using hflight
  simpa [h, hlegacy, hgap, hgaps honly] using (no_toolPoints htools).1

/-- The verdict of a report and its queue. -/
theorem points_of_verdict (hsuccess : o.verdict ≠ .completedSuccessfully)
    (hcancelled : o.verdict ≠ .cancelled) (hopen : o.verdict ≠ .inProgress) :
    flightAttention (reportBody o runId generatedAt first selected baseline) ≠ [] := by
  cases hverdict : o.verdict with
  | tamperedOrInvalidChain =>
    intro hnone
    have hvalid : o.chainValid = true := (no_points hnone).1
    simp only [Observations.verdict, hvalid] at hverdict
    split_ifs at hverdict
    simp_all
  | cancelled => exact absurd hverdict hcancelled
  | failed => exact points_of_failed hverdict
  | inProgress => exact absurd hverdict hopen
  | incompleteEvidence =>
    exact points_of_incomplete hverdict fun honly => gaps_ne_zero (closure_of_notVerified honly)
  | completedWithToolErrors =>
    refine points_of_errors fun hnone => ?_
    have hnone : o.tools.errors = [] := hnone
    simp only [Observations.verdict, hnone] at hverdict
    split_ifs at hverdict
    simp_all
  | completedSuccessfully => exact absurd hverdict hsuccess

/-! ## One flight -/

/-- A report is of the events of the run, and there are some. -/
theorem verifyFlight_ok (h : verifyFlight V runId entries chainValid baseline asOf now = .ok report) :
    ∃ o generatedAt first baseline, o = observe V (selectRun runId entries) chainValid generatedAt ∧
      report.verdict = o.verdict ∧ report.overallStatus = o.overallStatus ∧
      report.attentionPoints = flightAttention
        (reportBody o runId generatedAt first (selectRun runId entries) baseline) := by
  rw [verifyFlight] at h
  cases hselected : selectRun runId entries with
  | nil =>
    rw [hselected] at h
    cases h
  | cons first rest =>
    rw [hselected] at h
    cases h
    exact ⟨_, _, _, _, rfl, rfl, rfl, rfl⟩

/-- A run that has entries is reported on. -/
theorem exists_report (hselected : selectRun runId entries ≠ []) :
    ∃ report, verifyFlight V runId entries chainValid baseline asOf now = .ok report := by
  rw [verifyFlight]
  cases h : selectRun runId entries with
  | nil => exact absurd h hselected
  | cons first rest => exact ⟨_, rfl⟩

/-- **The verdict on a flight, its coverage and its queue agree.** A run is
completed just where its chain holds, all that a completed run shows was
observed, and its tools are closed. What is covered is completed, and every
other verdict but a cancellation or a run that goes on has a point. -/
theorem flight_verdicts (V : Verifier) (runId : String) (entries : List Entry) (chainValid : Bool)
    (baseline : Option (String × String)) (asOf : Option String) (now : String) :
    ((∃ report, verifyFlight V runId entries chainValid baseline asOf now = .ok report ∧
        report.verdict.Completed) ↔
      chainValid = true ∧ Observed (selectRun runId entries) ∧
        ToolsClosed (selectRun runId entries)) ∧
    ∀ report, verifyFlight V runId entries chainValid baseline asOf now = .ok report →
      (report.overallStatus = .covered → report.verdict.Completed) ∧
      (report.verdict ≠ .completedSuccessfully → report.verdict ≠ .cancelled →
        report.verdict ≠ .inProgress → report.attentionPoints ≠ []) := by
  refine ⟨⟨?_, fun h => ?_⟩, fun report hreport => ⟨fun hcovered => ?_, fun hs hc hp => ?_⟩⟩
  · rintro ⟨report, hreport, hcompleted⟩
    obtain ⟨o, generatedAt, first, baseline, rfl, hverdict, -, -⟩ := verifyFlight_ok hreport
    rw [hverdict] at hcompleted
    exact completed_iff.mp hcompleted
  · have hsome : selectRun runId entries ≠ [] := by
      obtain ⟨e, he, -⟩ := h.2.1.turnInput
      exact List.ne_nil_of_mem he
    obtain ⟨report, hreport⟩ : ∃ report,
        verifyFlight V runId entries chainValid baseline asOf now = .ok report :=
      exists_report hsome
    obtain ⟨o, generatedAt, first, baseline, rfl, hverdict, -, -⟩ := verifyFlight_ok hreport
    exact ⟨report, hreport, hverdict ▸ completed_iff.mpr h⟩
  · obtain ⟨o, generatedAt, first, baseline, rfl, hverdict, hoverall, -⟩ := verifyFlight_ok hreport
    rw [hverdict]
    exact completed_of_covered (hoverall ▸ hcovered)
  · obtain ⟨o, generatedAt, first, baseline, rfl, hverdict, -, hpoints⟩ := verifyFlight_ok hreport
    rw [hverdict] at hs hc hp
    rw [hpoints]
    exact points_of_verdict hs hc hp

end Atmem.Flight
