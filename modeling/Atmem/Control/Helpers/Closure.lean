import Atmem.Common.Grouping
import Atmem.Control.Model.Flight
/-!
# The closure of the tools of a run

Closure is computed call by call, from groups, from what is seen twice and
from what two hooks show of one call. Here it is what it stands for: every
request is answered, every completion was asked for, and nothing that is seen
of a call contradicts itself.
-/

namespace Atmem.Flight

variable {entries : List Entry} {eventType callId : String} {e : Entry}

/-! ## Groups -/

/-- The events of a type. -/
theorem mem_observed : e ∈ observed eventType entries ↔
    e ∈ entries ∧ e.body.eventType = eventType := by
  simp [observed]

/-- Those of one call. -/
theorem mem_grouped : e ∈ grouped eventType entries callId ↔
    e ∈ observed eventType entries ∧ e.callId = callId := by
  simp [grouped]

/-- The calls with such an event. -/
theorem mem_callIds : callId ∈ callIds eventType entries ↔
    callId ≠ "" ∧ ∃ e ∈ observed eventType entries, e.callId = callId := by
  simp [callIds, and_comm]

/-- Every event names its call. -/
theorem uncorrelated_eq_zero : uncorrelated eventType entries = 0 ↔
    ∀ e ∈ observed eventType entries, e.callId ≠ "" := by
  simp [uncorrelated, List.countP_eq_zero]

theorem insertionSort_eq_nil {l : List String} : l.insertionSort (· ≤ ·) = [] ↔ l = [] := by
  rw [← List.length_eq_zero_iff, List.length_insertionSort, List.length_eq_zero_iff]

theorem sortedSet_eq_nil {texts : List String} : sortedSet texts = [] ↔ texts = [] := by
  rw [sortedSet, insertionSort_eq_nil]
  cases texts with
  | nil => simp
  | cons t texts => simp [List.eraseDups_cons]

/-! ## Conflicts -/

section Conflicts

variable {σ : Type} [DecidableEq σ] {signature : Entry → σ} {ids : List String}
variable {group : String → List Entry}

/-- What is seen of a call is seen alike. -/
def Agree (signature : Entry → σ) (seen : List Entry) : Prop :=
  ∀ e ∈ seen, ∀ f ∈ seen, signature e = signature f

omit [DecidableEq σ] in
/-- One event agrees with itself. -/
theorem agree_of_length_lt {seen : List Entry} (h : seen.length < 2) : Agree signature seen := by
  intro e he f hf
  rcases seen with - | ⟨g, - | ⟨k, rest⟩⟩
  · cases he
  · rw [List.mem_singleton.mp he, List.mem_singleton.mp hf]
  · exact absurd h (by simp only [List.length_cons]; omega)

theorem one_lt_signatures {seen : List Entry} :
    1 < (seen.map signature).eraseDups.length ↔ ¬ Agree signature seen := by
  rw [Grouping.one_lt_length_eraseDups]
  simp [Agree]

/-- A call whose events disagree is a conflict. -/
theorem mem_conflicts : callId ∈ (duplicateToolEvents signature ids group).2 ↔
    callId ∈ ids ∧ ¬ Agree signature (group callId) := by
  simp only [duplicateToolEvents, List.mem_insertionSort, List.mem_filter, decide_eq_true_eq,
    one_lt_signatures]
  constructor
  · rintro ⟨⟨hid, -⟩, hdiffer⟩
    exact ⟨hid, hdiffer⟩
  · rintro ⟨hid, hdiffer⟩
    refine ⟨⟨hid, ?_⟩, hdiffer⟩
    by_contra hfew
    exact hdiffer (agree_of_length_lt (by omega))

end Conflicts

/-! ## Wrappers -/

section Wrappers

variable {canonicalName : String} {requests completions : List Entry} {call : CoalescedCall}

/-- A coalesced call keeps its identifier. -/
theorem coalesceNames_toolCallId
    (h : coalesceNames callId canonicalName requests completions = some call) :
    call.toolCallId = callId := by
  simp only [coalesceNames] at h
  split at h
  · cases h
  · split at h
    · cases h
    · split at h
      · cases h
        rfl
      · cases h

/-- A coalesced call keeps its id. -/
theorem coalesce_toolCallId (h : coalesce callId requests completions = some call) :
    call.toolCallId = callId := by
  rw [coalesce] at h
  split at h
  · cases h
  · split at h
    · split at h
      · cases h
        rfl
      · exact coalesceNames_toolCallId h
    · cases h

end Wrappers

/-- Two hooks of a host show the call as one. -/
def Wrapped (entries : List Entry) (callId : String) : Prop :=
  (coalesce callId (requested entries callId) (completed entries callId)).isSome

/-- Such a call is seen at both ends. -/
theorem Wrapped.seen (h : Wrapped entries callId) :
    requested entries callId ≠ [] ∧ completed entries callId ≠ [] := by
  by_contra hnone
  have hfew : (requested entries callId).length < 2 ∨ (completed entries callId).length < 2 := by
    by_cases hr : requested entries callId = []
    · exact .inl (by rw [hr]; decide)
    · exact .inr (by rw [not_not.mp fun hc => hnone ⟨hr, hc⟩]; decide)
  rw [Wrapped, coalesce, if_pos hfew] at h
  cases h

theorem mem_callIds_of_grouped (hc : callId ≠ "") (h : grouped eventType entries callId ≠ []) :
    callId ∈ callIds eventType entries := by
  obtain ⟨e, he⟩ := List.exists_mem_of_ne_nil _ h
  exact mem_callIds.mpr ⟨hc, e, mem_grouped.mp he⟩

/-- The calls that are coalesced are the wrapped ones. -/
theorem mem_coalescedCallIds :
    callId ∈ (coalescedWrapperCalls entries).map (·.toolCallId) ↔
      callId ≠ "" ∧ Wrapped entries callId := by
  simp only [coalescedWrapperCalls, List.mem_map, List.mem_filterMap, List.mem_insertionSort,
    List.mem_filter, decide_eq_true_eq]
  constructor
  · rintro ⟨call, ⟨c, hc, hcall⟩, rfl⟩
    obtain rfl := coalesce_toolCallId hcall
    exact ⟨(mem_callIds.mp hc.1).1, Option.isSome_of_eq_some hcall⟩
  · rintro ⟨hne, hwrapped⟩
    obtain ⟨call, hcall⟩ := Option.isSome_iff_exists.mp hwrapped
    exact ⟨call, ⟨callId, ⟨mem_callIds_of_grouped hne hwrapped.seen.1,
      mem_callIds_of_grouped hne hwrapped.seen.2⟩, hcall⟩, coalesce_toolCallId hcall⟩

/-! ## Closure -/

/-- A completion answers a request: of the same call and tool, in the same
scope, and later. -/
structure Answers (request completion : Entry) : Prop where
  call : request.callId = completion.callId
  scope : request.body.scope = completion.body.scope
  tool : request.body.payload.tool = completion.body.payload.tool
  later : request.sequence < completion.sequence

/-- The requests and the completions of a run belong together. -/
structure ToolsClosed (entries : List Entry) : Prop where
  /-- Every observation names its call. -/
  correlated : ∀ e ∈ observed "tool.requested" entries ++ observed "tool.completed" entries,
    e.callId ≠ ""
  answered : ∀ request ∈ observed "tool.requested" entries,
    ∃ completion ∈ observed "tool.completed" entries, Answers request completion
  asked : ∀ completion ∈ observed "tool.completed" entries,
    ∃ request ∈ observed "tool.requested" entries, Answers request completion
  /-- What is seen twice of a call is seen alike, save what two hooks show. -/
  agreed : ∀ callId, Wrapped entries callId ∨
    Agree requestSignature (requested entries callId) ∧
      Agree completionSignature (completed entries callId)

/-- When a completion answers a request. -/
theorem sameInvocation_iff {request completion : Entry}
    (hcall : request.callId = completion.callId) :
    sameInvocation request completion = true ↔ Answers request completion := by
  simp only [sameInvocation, Bool.and_eq_true, decide_eq_true_eq]
  constructor
  · rintro ⟨⟨hscope, htool⟩, hlater⟩
    exact ⟨hcall, hscope, htool, hlater⟩
  · rintro ⟨-, hscope, htool, hlater⟩
    exact ⟨⟨hscope, htool⟩, hlater⟩

/-- Every event of the call has its other half. -/
theorem unmatched_eq_false : unmatched entries callId = false ↔
    (∀ completion ∈ completed entries callId, ∃ request ∈ observed "tool.requested" entries,
      Answers request completion) ∧
    ∀ request ∈ requested entries callId, ∃ completion ∈ observed "tool.completed" entries,
      Answers request completion := by
  simp only [unmatched, Bool.or_eq_false_iff, List.any_eq_false, Bool.not_eq_true', not_forall,
    not_not, exists_prop]
  refine and_congr (forall₂_congr fun completion hc => ?_) (forall₂_congr fun request hr => ?_)
  · obtain ⟨-, hcall⟩ := mem_grouped.mp hc
    constructor
    · rintro ⟨request, hr, hsame⟩
      obtain ⟨hr, hcall'⟩ := mem_grouped.mp hr
      exact ⟨request, hr, (sameInvocation_iff (hcall'.trans hcall.symm)).mp hsame⟩
    · rintro ⟨request, hr, hanswers⟩
      exact ⟨request, mem_grouped.mpr ⟨hr, hanswers.call.trans hcall⟩,
        (sameInvocation_iff hanswers.call).mpr hanswers⟩
  · obtain ⟨-, hcall⟩ := mem_grouped.mp hr
    constructor
    · rintro ⟨completion, hc, hsame⟩
      obtain ⟨hc, hcall'⟩ := mem_grouped.mp hc
      exact ⟨completion, hc, (sameInvocation_iff (hcall.trans hcall'.symm)).mp hsame⟩
    · rintro ⟨completion, hc, hanswers⟩
      exact ⟨completion, mem_grouped.mpr ⟨hc, hanswers.call.symm.trans hcall⟩,
        (sameInvocation_iff hanswers.call).mpr hanswers⟩

/-- No conflict is left beside the coalesced calls. -/
theorem conflicts_eq_nil {σ : Type} [DecidableEq σ] {signature : Entry → σ}
    (hcorrelated : ∀ e ∈ observed eventType entries, e.callId ≠ "") :
    (duplicateToolEvents signature (callIds eventType entries) (grouped eventType entries)).2.filter
        (· ∉ (coalescedWrapperCalls entries).map (·.toolCallId)) = [] ↔
      ∀ callId, Wrapped entries callId ∨ Agree signature (grouped eventType entries callId) := by
  simp only [List.filter_eq_nil_iff, decide_eq_true_eq, not_not, mem_coalescedCallIds]
  refine ⟨fun h callId => ?_, fun h callId hconflict => ?_⟩
  · by_cases hagree : Agree signature (grouped eventType entries callId)
    · exact .inr hagree
    · refine .inl (h callId (mem_conflicts.mpr ⟨?_, hagree⟩)).2
      -- a call that disagrees is seen, and names itself
      obtain ⟨e, he⟩ : ∃ e, e ∈ grouped eventType entries callId := by
        by_contra hnone
        exact hagree fun e he => absurd ⟨e, he⟩ hnone
      obtain ⟨he, hcall⟩ := mem_grouped.mp he
      exact mem_callIds.mpr ⟨hcall ▸ hcorrelated e he, e, he, hcall⟩
  · obtain hwrapped | hagree := h callId
    · exact ⟨(mem_callIds.mp (mem_conflicts.mp hconflict).1).1, hwrapped⟩
    · exact absurd hagree (mem_conflicts.mp hconflict).2

/-- Nothing is missing exactly if every call is on the other side. -/
theorem missing_eq_nil {otherType : String}
    (hcorrelated : ∀ e ∈ observed eventType entries, e.callId ≠ "") :
    ((callIds eventType entries).filter (· ∉ callIds otherType entries)).insertionSort (· ≤ ·) = [] ↔
      ∀ e ∈ observed eventType entries, e.callId ∈ callIds otherType entries := by
  simp only [insertionSort_eq_nil, List.filter_eq_nil_iff, decide_eq_true_eq, not_not]
  constructor
  · intro h e he
    exact h e.callId (mem_callIds.mpr ⟨hcorrelated e he, e, he, rfl⟩)
  · intro h callId hc
    obtain ⟨-, e, he, rfl⟩ := mem_callIds.mp hc
    exact h e he

/-- What the closure of the tools is a conjunction of. -/
theorem Tools.closure_eq_true {t : Tools} : t.closure = true ↔
    (t.uncorrelatedRequests = 0 ∧ t.uncorrelatedCompletions = 0) ∧
      (t.missingCompletions = [] ∧ t.orphanCompletions = []) ∧
      t.conflictingRequests = [] ∧ t.conflictingCompletions = [] := by
  simp only [Tools.closure, Tools.evidenceConflict, Bool.and_eq_true, Bool.not_eq_true',
    Bool.or_eq_false_iff, decide_eq_true_eq, decide_eq_false_iff_not, ne_eq, not_not]
  tauto

/-- **The tools of a run are closed just where its requests and completions
belong together.** -/
theorem closure_iff : (toolsOf entries).closure = true ↔ ToolsClosed entries := by
  rw [Tools.closure_eq_true]
  simp only [toolsOf, sortedSet_eq_nil, List.append_eq_nil_iff, uncorrelated_eq_zero]
  constructor
  · rintro ⟨⟨hreq, hcomp⟩, ⟨hmissing, horphan⟩, hrequests, hcompletions, hmatched⟩
    rw [missing_eq_nil hreq] at hmissing
    rw [missing_eq_nil hcomp] at horphan
    rw [conflicts_eq_nil hreq] at hrequests
    rw [conflicts_eq_nil hcomp] at hcompletions
    -- a call that is both requested and completed is not among the unmatched
    have hboth : ∀ callId, callId ∈ requestedIds entries → callId ∈ completedIds entries →
        unmatched entries callId = false := by
      intro callId hr hc
      simpa [List.filter_eq_nil_iff, hr, hc] using List.filter_eq_nil_iff.mp hmatched callId
    refine ⟨?_, ?_, ?_, ?_⟩
    · intro e he
      exact (List.mem_append.mp he).elim (hreq e) (hcomp e)
    · intro request hr
      have hid : request.callId ∈ requestedIds entries :=
        mem_callIds.mpr ⟨hreq request hr, request, hr, rfl⟩
      exact (unmatched_eq_false.mp (hboth _ hid (hmissing request hr))).2 request
        (mem_grouped.mpr ⟨hr, rfl⟩)
    · intro completion hc
      have hid : completion.callId ∈ completedIds entries :=
        mem_callIds.mpr ⟨hcomp completion hc, completion, hc, rfl⟩
      exact (unmatched_eq_false.mp (hboth _ (horphan completion hc) hid)).1 completion
        (mem_grouped.mpr ⟨hc, rfl⟩)
    · intro callId
      obtain hwrapped | hr := hrequests callId
      · exact .inl hwrapped
      · exact (hcompletions callId).imp_right fun hc => ⟨hr, hc⟩
  · intro h
    have hreq : ∀ e ∈ observed "tool.requested" entries, e.callId ≠ "" :=
      fun e he => h.correlated e (List.mem_append_left _ he)
    have hcomp : ∀ e ∈ observed "tool.completed" entries, e.callId ≠ "" :=
      fun e he => h.correlated e (List.mem_append_right _ he)
    -- an answer names the call it answers
    have hmissing : ∀ e ∈ observed "tool.requested" entries, e.callId ∈ completedIds entries := by
      intro request hr
      obtain ⟨completion, hc, hanswers⟩ := h.answered request hr
      rw [hanswers.call]
      exact mem_callIds.mpr ⟨hcomp completion hc, completion, hc, rfl⟩
    have horphan : ∀ e ∈ observed "tool.completed" entries, e.callId ∈ requestedIds entries := by
      intro completion hc
      obtain ⟨request, hr, hanswers⟩ := h.asked completion hc
      rw [← hanswers.call]
      exact mem_callIds.mpr ⟨hreq request hr, request, hr, rfl⟩
    refine ⟨⟨hreq, hcomp⟩,
      ⟨(missing_eq_nil hreq).mpr hmissing, (missing_eq_nil hcomp).mpr horphan⟩,
      (conflicts_eq_nil hreq).mpr fun callId => (h.agreed callId).imp_right (·.1),
      (conflicts_eq_nil hcomp).mpr fun callId => (h.agreed callId).imp_right (·.2),
      List.filter_eq_nil_iff.mpr fun callId _ => ?_⟩
    rw [Bool.not_eq_true, unmatched_eq_false]
    exact ⟨fun completion hc => h.asked completion (mem_grouped.mp hc).1,
      fun request hr => h.answered request (mem_grouped.mp hr).1⟩

end Atmem.Flight
