import Atmem.Core.IsoTime
import Atmem.Extract.Decoding
/-!
# The identity of a claim

`semantic_identity` hashes what is left of a unit's encoding: its kind,
scope, payload and status, the moments of its times, and for an observed
state the spans it was observed in. Two units have one identity exactly
where these agree: nothing else counts, and nothing of these is lost. A unit
of a time past the last year of UTC has none.
-/

namespace Atmem

open Checked Json

variable {H : Hashing} {unit unit' : MemoryUnit}

/-! ## What is hashed -/

/-- A span an occurrence is named by. -/
structure SourceSpan where
  sourceId : String
  sourceSha256 : String
  startOffset : ℕ
  endOffset : ℕ
deriving DecidableEq

/-- The span of the source, without the digest of its text. -/
def ProposalEvidence.span (e : ProposalEvidence) : SourceSpan :=
  ⟨e.val.sourceId, e.val.sourceSha256, e.val.startOffset, e.val.endOffset⟩

/-- `asdict`: the fields in their order. -/
def SourceSpan.asdict (s : SourceSpan) : Json :=
  .obj [("source_id", .str s.sourceId), ("source_sha256", .str s.sourceSha256),
    ("start_offset", .int s.startOffset), ("end_offset", .int s.endOffset)]

/-- The kinds whose every observation is an occurrence of its own. -/
def MemoryUnitKind.occurs (kind : MemoryUnitKind) : Prop :=
  kind ∈ [MemoryUnitKind.environmentState, .stateTransition]

instance decidableOccurs (kind : MemoryUnitKind) : Decidable kind.occurs :=
  inferInstanceAs (Decidable (kind ∈ [MemoryUnitKind.environmentState, .stateTransition]))

/-- What a claim says, and where it was observed. -/
structure ClaimIdentity where
  scope : AuthorityScope
  payload : UnitPayload
  evidenceStatus : EvidenceStatus
  observedAt : Option Instant
  eventAt : Option Instant
  validFrom : Option Instant
  validUntil : Option Instant
  /-- The ordered spans, of the kinds that occur. -/
  spans : Option (List SourceSpan)
deriving DecidableEq

/-- The identity of a unit, before it is written and hashed. -/
def MemoryUnit.claimIdentity (unit : MemoryUnit) : Except String ClaimIdentity := do
  pure
    { scope := unit.val.scope, payload := unit.val.payload
      evidenceStatus := unit.val.evidenceStatus
      observedAt := ← utcOf unit.val.observedAt, eventAt := ← utcOf unit.val.eventAt
      validFrom := ← utcOf unit.val.validFrom, validUntil := ← utcOf unit.val.validUntil
      spans := if unit.val.kind.occurs then some (unit.val.evidence.map (·.span)) else none }

/-- As it is written. -/
def ClaimIdentity.asdict (c : ClaimIdentity) : Json :=
  .obj ([("kind", .str (value c.payload.kind)), ("scope", c.scope.asdict),
    ("payload", c.payload.asdict), ("evidence_status", .str (value c.evidenceStatus)),
    ("observed_at", .ofOption (fun t => .str (toIso t)) c.observedAt),
    ("event_at", .ofOption (fun t => .str (toIso t)) c.eventAt),
    ("valid_from", .ofOption (fun t => .str (toIso t)) c.validFrom),
    ("valid_until", .ofOption (fun t => .str (toIso t)) c.validUntil),
    ("format", .str "atmem-memory-unit-v2")] ++
    (match c.spans with
      | some spans => [("occurrence", .arr (spans.map SourceSpan.asdict))]
      | none => []))

/-- The claim, wherever it was observed. The moment it was observed at stays. -/
def ClaimIdentity.standing (c : ClaimIdentity) : ClaimIdentity := { c with spans := none }

/-- What a claim is hashed as. -/
def ClaimIdentity.digest (H : Hashing) (c : ClaimIdentity) : String :=
  "sha256:" ++ H.sha256Hex c.asdict.canonicalJson

/-- The claim is written once its moments are there. -/
theorem MemoryUnit.claim_eq (unit : MemoryUnit) :
    unit.claim = unit.claimIdentity.map fun c => c.standing.asdict := by
  unfold MemoryUnit.claim MemoryUnit.claimIdentity
  rcases utcOf unit.val.observedAt with e | observedAt
  · rfl
  rcases utcOf unit.val.eventAt with e | eventAt
  · rfl
  rcases utcOf unit.val.validFrom with e | validFrom
  · rfl
  rcases utcOf unit.val.validUntil with e | validUntil <;> rfl

/-- A claim is of its unit's spans, where these count. -/
theorem MemoryUnit.claimIdentity_spans {unit : MemoryUnit} {c : ClaimIdentity}
    (h : unit.claimIdentity = .ok c) : c.spans =
      if unit.val.kind.occurs then some (unit.val.evidence.map (·.span)) else none := by
  unfold MemoryUnit.claimIdentity at h
  obtain ⟨observedAt, -, h⟩ := bind_eq_ok_iff.mp h
  obtain ⟨eventAt, -, h⟩ := bind_eq_ok_iff.mp h
  obtain ⟨validFrom, -, h⟩ := bind_eq_ok_iff.mp h
  obtain ⟨validUntil, -, h⟩ := bind_eq_ok_iff.mp h
  cases h
  rfl

/-- The occurrence is the spans of an event, and nothing else. -/
theorem MemoryUnit.occurrence_eq {unit : MemoryUnit} {c : ClaimIdentity}
    (h : unit.claimIdentity = .ok c) :
    unit.occurrence = c.spans.map fun spans => .arr (spans.map SourceSpan.asdict) := by
  rw [MemoryUnit.claimIdentity_spans h]
  unfold MemoryUnit.occurrence
  by_cases hoccurs : unit.val.kind.occurs
  · rw [if_pos (show unit.val.kind ∈ [_, _] from hoccurs), if_pos hoccurs, Option.map_some,
      List.map_map]
    rfl
  · rw [if_neg (show unit.val.kind ∉ [_, _] from hoccurs), if_neg hoccurs, Option.map_none]

/-- A claim is what stands of it, with its occurrence. -/
theorem ClaimIdentity.asdict_eq (c : ClaimIdentity) :
    withOccurrence c.standing.asdict
      (c.spans.map fun spans => .arr (spans.map SourceSpan.asdict)) = c.asdict := by
  obtain ⟨scope, payload, status, observedAt, eventAt, validFrom, validUntil, _ | spans⟩ := c <;> rfl

/-- **The identity is of the claim**, spans and all. -/
theorem MemoryUnit.semanticIdentity_eq (unit : MemoryUnit) :
    unit.semanticIdentity H = unit.claimIdentity.map (·.digest H) := by
  unfold MemoryUnit.semanticIdentity
  rw [MemoryUnit.claim_eq]
  rcases hc : unit.claimIdentity with e | c
  · rfl
  · have hdigest : ClaimIdentity.digest H c = "sha256:" ++ H.sha256Hex (withOccurrence
        c.standing.asdict unit.occurrence).canonicalJson := by
      rw [MemoryUnit.occurrence_eq hc, ClaimIdentity.asdict_eq]
      rfl
    show Except.ok _ = Except.ok (ClaimIdentity.digest H c)
    rw [hdigest]

/-- **What is excluded is the claim**, wherever it was observed. -/
theorem MemoryUnit.exclusionIdentity_eq (unit : MemoryUnit) :
    unit.exclusionIdentity H = unit.claimIdentity.map fun c => c.standing.digest H := by
  unfold MemoryUnit.exclusionIdentity
  rw [MemoryUnit.claim_eq]
  rcases unit.claimIdentity with e | c <;> rfl

/-! ## What is hashed is one claim's -/

theorem SourceSpan.proper_asdict (s : SourceSpan) : s.asdict.Proper :=
  ⟨by simp, trivial, trivial, trivial, trivial, trivial⟩

theorem ClaimIdentity.proper_asdict (c : ClaimIdentity) : c.asdict.Proper := by
  have htime (time : Option Instant) : (Json.ofOption (fun t => .str (toIso t)) time).Proper := by
    cases time <;> trivial
  have hspans : ProperFields (match c.spans with
      | some spans => [("occurrence", Json.arr (spans.map SourceSpan.asdict))]
      | none => []) := by
    cases c.spans with
    | none => trivial
    | some spans => exact ⟨proper_arr SourceSpan.proper_asdict spans, trivial⟩
  refine ⟨?_, trivial, AuthorityScope.proper_asdict _, UnitPayload.proper_asdict _, trivial,
    htime _, htime _, htime _, htime _, trivial, hspans⟩
  cases c.spans <;> simp

/-- A moment is read off its text. -/
theorem instant_of_readsAs {time time' : Option Instant}
    (h : ReadsAs (.ofOption (fun t => .str (toIso t)) time)
      (.ofOption (fun t => .str (toIso t)) time')) : time = time' := by
  cases time' with
  | none =>
    have hnull := h.null
    cases time with
    | none => rfl
    | some t => cases hnull
  | some t' =>
    have htext := h.str
    cases time with
    | none => cases htext
    | some t => rw [toIso_injective (Json.str.inj htext)]

/-- Spans that read alike are equal. -/
theorem SourceSpan.eq_of_readsAs {s s' : SourceSpan} (h : ReadsAs s.asdict s'.asdict) : s = s' := by
  have hid : s.asdict.get? "source_id" = some (.str s'.sourceId) := h.get_str rfl
  have hsha : s.asdict.get? "source_sha256" = some (.str s'.sourceSha256) := h.get_str rfl
  have hstart : s.asdict.get? "start_offset" = some (.int s'.startOffset) := h.get_int rfl
  have hend : s.asdict.get? "end_offset" = some (.int s'.endOffset) := h.get_int rfl
  obtain ⟨sourceId, sourceSha256, startOffset, endOffset⟩ := s
  cases hid
  cases hsha
  cases hstart
  cases hend
  rfl

/-- One kind and one text of the payload: one payload. -/
theorem UnitPayload.eq_of_readsAs {payload payload' : UnitPayload}
    (hkind : payload.kind = payload'.kind) (h : ReadsAs payload.asdict payload'.asdict) :
    payload = payload' := by
  have hself := UnitPayload.fromKeywords_readsAs (.refl payload.proper_asdict)
  have hother := UnitPayload.fromKeywords_readsAs h
  rw [← hkind, hself] at hother
  exact Except.ok.inj hother

/-- Scopes that read alike are equal. -/
theorem AuthorityScope.eq_of_readsAs {scope scope' : AuthorityScope}
    (h : ReadsAs scope.asdict scope'.asdict) : scope = scope' := by
  have hself := AuthorityScope.fromKeywords_readsAs (.refl scope.proper_asdict)
  exact Except.ok.inj (hself.symm.trans (AuthorityScope.fromKeywords_readsAs h))

/-- Lists of spans that read alike are equal. -/
theorem spans_of_readsAs {spans spans' : List SourceSpan}
    (h : ReadsAs (.arr (spans.map SourceSpan.asdict)) (.arr (spans'.map SourceSpan.asdict))) :
    spans = spans' := by
  obtain ⟨rows, hrows, hall⟩ := h.arr
  cases hrows
  rw [List.forall₂_map_left_iff, List.forall₂_map_right_iff] at hall
  exact List.forall₂_eq_eq_eq ▸ hall.imp fun _ _ hread => SourceSpan.eq_of_readsAs hread

/-- **A claim's text is its own.** -/
theorem ClaimIdentity.eq_of_readsAs {c c' : ClaimIdentity} (h : ReadsAs c.asdict c'.asdict) :
    c = c' := by
  have hkind : c.payload.kind = c'.payload.kind := by
    have hread : memberAt MemoryUnitKind "MemoryUnitKind" c.asdict "kind" none =
        .ok c'.payload.kind := h.memberAt rfl
    exact Except.ok.inj ((member_value "MemoryUnitKind" c.payload.kind).symm.trans hread)
  have hstatus : c.evidenceStatus = c'.evidenceStatus := by
    have hread : memberAt EvidenceStatus "EvidenceStatus" c.asdict "evidence_status" none =
        .ok c'.evidenceStatus := h.memberAt rfl
    exact Except.ok.inj ((member_value "EvidenceStatus" c.evidenceStatus).symm.trans hread)
  have hscope : c.scope = c'.scope := AuthorityScope.eq_of_readsAs (h.field "scope" rfl rfl)
  have hobserved : c.observedAt = c'.observedAt :=
    instant_of_readsAs (h.field "observed_at" rfl rfl)
  have hevent : c.eventAt = c'.eventAt := instant_of_readsAs (h.field "event_at" rfl rfl)
  have hfrom : c.validFrom = c'.validFrom := instant_of_readsAs (h.field "valid_from" rfl rfl)
  have huntil : c.validUntil = c'.validUntil := instant_of_readsAs (h.field "valid_until" rfl rfl)
  have hpayload : c.payload = c'.payload :=
    UnitPayload.eq_of_readsAs hkind (h.field "payload" rfl rfl)
  -- the spans are left out of a claim that has none
  have hspans : c.spans = c'.spans := by
    have hwritten (c : ClaimIdentity) : c.asdict.get? "occurrence" =
        c.spans.map fun spans => .arr (spans.map SourceSpan.asdict) := by
      unfold ClaimIdentity.asdict
      cases c.spans <;> rfl
    cases hs : c'.spans with
    | none =>
      have hnone := h.get?_eq_none (by rw [hwritten, hs, Option.map_none])
      rw [hwritten, Option.map_eq_none_iff] at hnone
      exact hnone
    | some spans' =>
      obtain ⟨u, hu, hread⟩ := h.get? (by rw [hwritten, hs, Option.map_some])
      rw [hwritten, Option.map_eq_some_iff] at hu
      obtain ⟨spans, hspans, rfl⟩ := hu
      rw [hspans, spans_of_readsAs hread]
  obtain ⟨scope, payload, evidenceStatus, observedAt, eventAt, validFrom, validUntil, spans⟩ := c
  simp only at hstatus hscope hobserved hevent hfrom huntil hpayload hspans
  rw [hstatus, hscope, hobserved, hevent, hfrom, huntil, hpayload, hspans]

/-- Claims of one text, hashed without a collision. -/
theorem ClaimIdentity.digest_injective (hH : Function.Injective H.sha256Hex) :
    Function.Injective (ClaimIdentity.digest H) := fun _ _ h =>
  ClaimIdentity.eq_of_readsAs (.of_canonicalJson (ClaimIdentity.proper_asdict _)
    (ClaimIdentity.proper_asdict _) (hH ((String.append_right_inj _).mp h)))

/-- The moments of a unit are dates in UTC. -/
def MemoryUnit.Dated (unit : MemoryUnit) : Prop :=
  ∀ time ∈ [unit.val.observedAt, unit.val.eventAt, unit.val.validFrom, unit.val.validUntil],
    ∀ t ∈ time, t.moment < maxInstant

/-- A time has a UTC date up to the year 9999. -/
theorem utcOf_iff {time : Option Timestamp} :
    (∃ u, utcOf time = .ok u) ↔ ∀ t ∈ time, t.moment < maxInstant := by
  rcases time with - | t
  · exact iff_of_true ⟨none, rfl⟩ fun t ht => absurd ht (Option.not_mem_none t)
  · by_cases hdate : t.moment < maxInstant
    · exact iff_of_true ⟨_, if_pos hdate⟩ fun _ ht => Option.mem_some.mp ht ▸ hdate
    · refine iff_of_false (fun ⟨u, hu⟩ => ?_) fun h => hdate (h t rfl)
      rw [utcOf, if_neg hdate] at hu
      cases hu

/-- A claim exists exactly if its times have UTC dates. -/
theorem MemoryUnit.claimIdentity_iff {unit : MemoryUnit} :
    (∃ c, unit.claimIdentity = .ok c) ↔ unit.Dated := by
  unfold MemoryUnit.Dated
  simp only [List.forall_mem_cons, ← utcOf_iff, MemoryUnit.claimIdentity, bind_eq_ok_iff]
  constructor
  · rintro ⟨c, u₁, h₁, u₂, h₂, u₃, h₃, u₄, h₄, -⟩
    exact ⟨⟨u₁, h₁⟩, ⟨u₂, h₂⟩, ⟨u₃, h₃⟩, ⟨u₄, h₄⟩, fun _ hno => absurd hno List.not_mem_nil⟩
  · rintro ⟨⟨u₁, h₁⟩, ⟨u₂, h₂⟩, ⟨u₃, h₃⟩, ⟨u₄, h₄⟩, -⟩
    exact ⟨_, u₁, h₁, u₂, h₂, u₃, h₃, u₄, h₄, rfl⟩

/-- **Units of one identity make one claim.** A unit has its identities
exactly where its moments are dates in UTC. Two that have them have one
semantic identity exactly where they make one claim, and nothing else counts:
not the identifiers, the confidence, the lifecycle or, of a lasting fact, the
evidence. They have one exclusion identity exactly where their claims are one
but for the spans they were observed in. -/
theorem identities_of_claims (hH : Function.Injective H.sha256Hex) (unit unit' : MemoryUnit) :
    ((∃ s, unit.semanticIdentity H = .ok s) ↔ unit.Dated) ∧
    ((∃ s, unit.exclusionIdentity H = .ok s) ↔ unit.Dated) ∧
    ∀ c c', unit.claimIdentity = .ok c → unit'.claimIdentity = .ok c' →
      (unit.semanticIdentity H = unit'.semanticIdentity H ↔ c = c') ∧
      (unit.exclusionIdentity H = unit'.exclusionIdentity H ↔ c.standing = c'.standing) := by
  have hok {f : ClaimIdentity → String} :
      (∃ s, unit.claimIdentity.map f = .ok s) ↔ unit.Dated := by
    rw [← MemoryUnit.claimIdentity_iff]
    rcases unit.claimIdentity with e | c
    · exact iff_of_false (fun ⟨_, hs⟩ => by cases hs) fun ⟨_, hc⟩ => by cases hc
    · exact iff_of_true ⟨f c, rfl⟩ ⟨c, rfl⟩
  simp only [MemoryUnit.semanticIdentity_eq, MemoryUnit.exclusionIdentity_eq]
  refine ⟨hok, hok, fun c c' hc hc' => ?_⟩
  have hinj := ClaimIdentity.digest_injective hH
  simp only [hc, hc', Except.map, Except.ok.injEq]
  exact ⟨hinj.eq_iff, hinj.eq_iff⟩

/-- A procedure claimed twice, the second time for less certain and of
another day's evidence, but from the same moment on. -/
theorem boot_claimed_twice : let H : Hashing := ⟨fun _ => "", id⟩
    let later : ProposalEvidence :=
      ⟨{ bootEvidence.val with startOffset := 20, endOffset := 32 }, by decide +kernel⟩
    let unit' : MemoryUnit := ⟨{ bootUnit.val with
      unitId := "later", confidence := ⟨1 / 2, "0.5"⟩, evidence := [later],
      validFrom := some ⟨"2026-01-01T00:00:00Z", 63902822400000000⟩ }, by decide +kernel⟩
    bootUnit.semanticIdentity H = unit'.semanticIdentity H :=
  ((identities_of_claims Function.injective_id bootUnit _).2.2 _ _ rfl rfl).1.mpr rfl

end Atmem
