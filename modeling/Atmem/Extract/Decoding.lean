import Atmem.Contracts.Snapshots
import Atmem.Extract.Models
/-!
# Typed memory, read back

`from_dict` of a unit and of a proposal. The encoding is generic and the
decoding is written by hand, kind by kind: texts become members again, arrays
tuples, and the texts of times and of numbers are read. What is read of what
was written, its keys in whatever order, is what it was.
-/

namespace Atmem

open Checked Json

/-! ## Reading values -/

/-- How a text is read as a time with an offset, and as a number. -/
structure TextReader where
  time : String → Option Instant
  float : String → Option Rat

namespace Json

/-- `set(value)` of a dictionary. -/
def names : Json → List String
  | .obj kvs => kvs.map (·.1)
  | _ => []

/-- `f(**value)`: the names of the parameters, and those without a default. -/
def keywords (parameters required : List String) : Json → Except String Unit
  | .obj kvs => ensure ((∀ name ∈ (obj kvs).names, name ∈ parameters) ∧
        ∀ name ∈ required, name ∈ (obj kvs).names)
      "TypeError: unexpected or missing keyword arguments"
  | _ => .error "TypeError: argument after ** must be a mapping"

/-- `tuple(value)`. -/
def sequence : Json → Except String (List Json)
  | .arr xs => .ok xs
  | .str s => .ok (s.toList.map fun c => .str (String.ofList [c]))
  | .obj kvs => .ok (kvs.map fun kv => .str kv.1)
  | _ => .error "TypeError: object is not iterable"

/-- `value[name]`, a text. -/
def textAt (j : Json) (name : String) : Except String String := do (← j.get name).asText

/-- `tuple(value.get(name) or ())`. -/
def sequenceAt (j : Json) (name : String) : Except String (List Json) :=
  (j.getOr name (.arr [])).sequence

/-- The same, of texts. -/
def textsAt (j : Json) (name : String) : Except String (List String) := do
  (← j.sequenceAt name).mapM asText

/-- `value[name]`, an integer that is not negative. -/
def natAt (j : Json) (name : String) : Except String ℕ := do (← j.get name).asNat

end Json

/-- `Enum(value.get(name, default))`. -/
def memberAt (α : Type) [Vocabulary α] (typeName : String) (j : Json) (name : String)
    (default : Option α) : Except String α :=
  match j.get? name, default with
  | none, some a => .ok a
  | none, none => .error ("KeyError: " ++ name)
  | some value, _ => member α typeName value

/-- A number between zero and one is read with its text. -/
def Confidence.fromJson (R : TextReader) : Json → Except String Confidence
  | .float text => (R.float text).elim (.error "ValueError: not a number") fun value =>
      .ok ⟨value, text⟩
  | .int n => .ok ⟨n, toString n⟩
  | _ => .error "confidence must be between 0 and 1"

/-- `_parse_time` of a value that is there. -/
def Timestamp.fromJson (R : TextReader) (name : String) : Json → Except String (Option Timestamp)
  | .null => .ok none
  | .str text => (R.time text).elim (.error (name ++ " must be an ISO-8601 timestamp"))
      fun moment => .ok (some ⟨text, moment⟩)
  | _ => .error (name ++ " must be an ISO-8601 timestamp")

/-! ## Records -/

/-- `AuthorityScope(**scope)`. -/
def AuthorityScope.fromKeywords (j : Json) : Except String AuthorityScope := do
  let names := ["subject_id", "agent_id", "workspace_id"]
  j.keywords names names
  AuthorityScope.make ⟨← j.textAt "subject_id", ← j.textAt "agent_id", ← j.textAt "workspace_id"⟩

/-- `ProposalEvidence(**item)`. -/
def ProposalEvidence.fromKeywords (j : Json) : Except String ProposalEvidence := do
  let names := ["source_id", "source_sha256", "start_offset", "end_offset", "excerpt_sha256"]
  j.keywords names names
  ProposalEvidence.make ⟨← j.textAt "source_id", ← j.textAt "source_sha256",
    ← j.natAt "start_offset", ← j.natAt "end_offset", ← j.textAt "excerpt_sha256"⟩

/-- `ProcedureStep(**item)`. -/
def ProcedureStep.fromKeywords (j : Json) : Except String ProcedureStep := do
  j.keywords ["ordinal", "instruction", "condition"] ["ordinal", "instruction"]
  .ok ⟨← j.natAt "ordinal", ← j.textAt "instruction", ← j.textAt? "condition"⟩

/-- `ProposalPrecondition(**item)`. -/
def ProposalPrecondition.fromKeywords (j : Json) : Except String ProposalPrecondition := do
  let names := ["record_id", "generation", "status", "content_sha256"]
  j.keywords names names
  ProposalPrecondition.make ⟨← j.textAt "record_id", ← j.natAt "generation", ← j.textAt "status",
    ← j.textAt "content_sha256"⟩

/-- `payload_types[kind](**raw)`. -/
def UnitPayload.fromKeywords (raw : Json) : MemoryUnitKind → Except String UnitPayload
  | .atomicFact => do
    raw.keywords ["subject", "relation", "value", "polarity"] ["subject", "relation", "value"]
    .ok (.atomicFact (← raw.textAt "subject") (← raw.textAt "relation") (← raw.textAt "value")
      (← memberAt Polarity "Polarity" raw "polarity" (some .positive)))
  | .durableRule => do
    raw.keywords ["condition", "required_action", "prohibited_action", "exceptions"] ["condition"]
    .ok (.durableRule (← raw.textAt "condition") (← raw.textAt? "required_action")
      (← raw.textAt? "prohibited_action") (← raw.textsAt "exceptions"))
  | .environmentState => do
    raw.keywords ["entity", "relation", "value", "polarity"] ["entity", "relation", "value"]
    .ok (.environmentState (← raw.textAt "entity") (← raw.textAt "relation") (← raw.textAt "value")
      (← memberAt Polarity "Polarity" raw "polarity" (some .positive)))
  | .stateTransition => do
    raw.keywords ["entity", "relation", "before", "action", "after", "transition_basis"]
      ["entity", "relation", "before", "action", "after"]
    .ok (.stateTransition (← raw.textAt "entity") (← raw.textAt "relation") (← raw.textAt "before")
      (← raw.textAt "action") (← raw.textAt "after")
      (← memberAt EvidenceStatus "EvidenceStatus" raw "transition_basis" (some .observed)))
  | .procedure => do
    raw.keywords
      ["goal", "steps", "prerequisites", "completion_evidence", "failure_conditions"] ["goal"]
    .ok (.procedure (← raw.textAt "goal")
      (← (← raw.sequenceAt "steps").mapM ProcedureStep.fromKeywords)
      (← raw.textsAt "prerequisites") (← raw.textsAt "completion_evidence")
      (← raw.textsAt "failure_conditions"))
  | .failureGotcha => do
    raw.keywords ["trigger", "failure", "required_action", "prohibited_action"]
      ["trigger", "failure"]
    .ok (.failureGotcha (← raw.textAt "trigger") (← raw.textAt "failure")
      (← raw.textAt? "required_action") (← raw.textAt? "prohibited_action"))
  | .premiseConstraint => do
    raw.keywords ["proposition", "polarity", "applies_when", "excluded_when"]
      ["proposition", "polarity"]
    .ok (.premiseConstraint (← raw.textAt "proposition")
      (← memberAt Polarity "Polarity" raw "polarity" none)
      (← raw.textAt? "applies_when") (← raw.textAt? "excluded_when"))

/-! ## Units and proposals -/

/-- The fields a unit may have. -/
def MemoryUnit.allowedFields : List String :=
  ["format", "unit_id", "formation_id", "kind", "scope", "payload", "evidence", "confidence",
    "evidence_status", "formation_version", "observed_at", "event_at", "valid_from", "valid_until",
    "lifecycle"]

/-- `MemoryUnit.from_dict`. -/
def MemoryUnit.fromDict (R : TextReader) (data : Json) : Except String MemoryUnit := do
  ensure ((data.get? "format").all (· = .str "atmem-memory-unit-v2"))
    "memory unit format is unsupported"
  ensure (∀ name ∈ data.names, name ∈ MemoryUnit.allowedFields)
    ("memory unit contains unknown fields: " ++
      ", ".intercalate ((data.names.filter (· ∉ MemoryUnit.allowedFields)).mergeSort (· ≤ ·)))
  let kind ← memberAt MemoryUnitKind "MemoryUnitKind" data "kind" none
  let raw ← data.get "payload"
  let time (name : String) : Except String (Option Timestamp) :=
    Timestamp.fromJson R name ((data.get? name).getD .null)
  MemoryUnit.make {
    unitId := ← data.textAt "unit_id"
    formationId := ← data.textAt "formation_id"
    scope := ← AuthorityScope.fromKeywords (← data.get "scope")
    payload := ← UnitPayload.fromKeywords raw kind
    evidence := ← (← (← data.get "evidence").sequence).mapM ProposalEvidence.fromKeywords
    confidence := ← Confidence.fromJson R (← data.get "confidence")
    evidenceStatus := ←
      memberAt EvidenceStatus "EvidenceStatus" data "evidence_status" (some .observed)
    formationVersion := ←
      ((data.get? "formation_version").getD (.str "typed-formation-v1")).asText
    observedAt := ← time "observed_at"
    eventAt := ← time "event_at"
    validFrom := ← time "valid_from"
    validUntil := ← time "valid_until"
    lifecycle := ← memberAt UnitLifecycle "UnitLifecycle" data "lifecycle" (some .proposed) }

/-- A proposal's unit: `None` and no unit are the same. -/
def MemoryUnit.optionAt (R : TextReader) (data : Json) : Except String (Option MemoryUnit) :=
  match data.get? "unit" with
  | none | some .null => .ok none
  | some unit => (MemoryUnit.fromDict R unit).map some

/-- `ExtractionProposal.from_dict`. -/
def ExtractionProposal.fromDict (R : TextReader) (data : Json) :
    Except String ExtractionProposal := do
  ensure ((data.get? "format").all (· = .str "atmem-memory-proposal-v2"))
    "memory proposal format is unsupported"
  let unit ← MemoryUnit.optionAt R data
  ExtractionProposal.make {
    proposalId := ← data.textAt "proposal_id"
    idempotencyKey := ← data.textAt "idempotency_key"
    scope := ← AuthorityScope.fromKeywords (← data.get "scope")
    action := ← memberAt ProposalAction "ProposalAction" data "action" none
    memoryClass := ← memberAt MemoryClass "MemoryClass" data "memory_class" none
    confidence := ← Confidence.fromJson R (← data.get "confidence")
    reasonCodes := ← data.textsAt "reason_codes"
    evidence := ← (← data.sequenceAt "evidence").mapM ProposalEvidence.fromKeywords
    fact := ← data.textAt? "fact"
    factKey := ← data.textAt? "fact_key"
    affectedRecordIds := ← data.textsAt "affected_record_ids"
    preconditions := ← (← data.sequenceAt "preconditions").mapM ProposalPrecondition.fromKeywords
    reviewRequired := (data.getOr "review_required" .null).truthy
    unit := unit }

/-! ## Values that read alike -/

namespace Json

section Fields

variable {a b : Json} {name : String}

/-- What has the same canonical text reads alike. -/
theorem ReadsAs.of_canonicalJson (ha : a.Proper) (hb : b.Proper)
    (h : a.canonicalJson = b.canonicalJson) : ReadsAs a b :=
  ⟨ha, hb, canonicalJson_inj ha hb h⟩

theorem ReadsAs.float {text : String} (h : ReadsAs a (.float text)) : a = .float text := by
  have hs := h.same
  cases a <;> simp_all [sortKeys]

/-- One field of two values that read alike. -/
theorem ReadsAs.field {u v : Json} (h : ReadsAs a b) (name : String)
    (ha : a.get? name = some u) (hb : b.get? name = some v) : ReadsAs u v := by
  obtain ⟨w, hw, hread⟩ := h.get? hb
  rw [ha] at hw
  exact Option.some.inj hw ▸ hread

/-- A key that was not written is not read. -/
theorem ReadsAs.get?_eq_none (h : ReadsAs a b) (hb : b.get? name = none) : a.get? name = none := by
  have hsame : (a.get? name).map sortKeys = none := by
    rw [← get?_sortKeys h.left, h.same, get?_sortKeys h.right, hb, Option.map_none]
  exact Option.map_eq_none_iff.mp hsame

/-- Sorting the keys keeps them. -/
theorem names_sortKeys_perm (j : Json) : j.sortKeys.names.Perm j.names := by
  cases j with
  | obj kvs => exact keys_sorted_perm kvs
  | null | bool | int | float | str | arr => exact .refl []

/-- The names of the fields are the same. -/
theorem ReadsAs.mem_names (h : ReadsAs a b) : name ∈ a.names ↔ name ∈ b.names := by
  rw [← (names_sortKeys_perm a).mem_iff, h.same, (names_sortKeys_perm b).mem_iff]

variable (h : ReadsAs a b)

include h

theorem ReadsAs.get {v : Json} (hb : b.get? name = some v) :
    ∃ u, a.get name = .ok u ∧ ReadsAs u v := by
  obtain ⟨u, hu, hread⟩ := h.get? hb
  exact ⟨u, get_of_get? hu, hread⟩

theorem ReadsAs.textAt {s : String} (hb : b.get? name = some (.str s)) :
    a.textAt name = .ok s :=
  bind_of_eq_ok (get_of_get? (h.get_str hb)) rfl

theorem ReadsAs.natAt {n : ℕ} (hb : b.get? name = some (.int n)) : a.natAt name = .ok n :=
  bind_of_eq_ok (get_of_get? (h.get_int hb)) rfl

/-- An array is read as it was written. -/
theorem ReadsAs.sequenceAt {ys : List Json} (hb : b.get? name = some (.arr ys)) :
    ∃ xs, a.sequenceAt name = .ok xs ∧ List.Forall₂ ReadsAs xs ys := by
  obtain ⟨xs, hxs, hall⟩ := h.getOr_arr hb
  exact ⟨xs, by rw [Json.sequenceAt, hxs, sequence], hall⟩

/-- So are texts. -/
theorem ReadsAs.textsAt {texts : List String} (hb : b.get? name = some (.strings texts)) :
    a.textsAt name = .ok texts := by
  obtain ⟨xs, hxs, hall⟩ := h.sequenceAt hb
  exact bind_of_eq_ok hxs (mapM_asText hall)

/-- So is a member of an enumeration. -/
theorem ReadsAs.memberAt {α : Type} [Vocabulary α] {typeName : String} {member : α}
    {default : Option α} (hb : b.get? name = some (.str (value member))) :
    memberAt α typeName a name default = .ok member := by
  unfold Atmem.memberAt
  rw [h.get_str hb]
  cases default <;> exact member_value typeName member

end Fields

/-- **The keywords are accepted** where those written are. -/
theorem ReadsAs.keywords {j : Json} {parameters required : List String}
    {kvs : List (String × Json)} (h : ReadsAs j (.obj kvs)) (hnames : kvs.map (·.1) ⊆ parameters)
    (hrequired : required ⊆ kvs.map (·.1)) : j.keywords parameters required = .ok () := by
  obtain ⟨fields, rfl⟩ := h.obj
  exact ensure_eq_ok.mpr ⟨fun _ hname => hnames (h.mem_names.mp hname),
    fun _ hname => h.mem_names.mpr (hrequired hname)⟩

end Json

/-! ## Records, read back -/

section Records

variable {R : TextReader} {j : Json} {name : String}

/-- A scope is read back. -/
theorem AuthorityScope.fromKeywords_readsAs {scope : AuthorityScope} (h : ReadsAs j scope.asdict) :
    AuthorityScope.fromKeywords j = .ok scope := by
  refine bind_of_eq_ok (h.keywords (by simp) (by simp)) ?_
  refine bind_of_eq_ok (h.textAt rfl) (bind_of_eq_ok (h.textAt rfl) ?_)
  exact bind_of_eq_ok (h.textAt rfl) (make_of_ok scope.property)

/-- A span of evidence is read back. -/
theorem ProposalEvidence.fromKeywords_readsAs {e : ProposalEvidence} (h : ReadsAs j e.asdict) :
    ProposalEvidence.fromKeywords j = .ok e := by
  refine bind_of_eq_ok (h.keywords (by simp) (by simp)) ?_
  refine bind_of_eq_ok (h.textAt rfl) (bind_of_eq_ok (h.textAt rfl) ?_)
  refine bind_of_eq_ok (h.natAt rfl) (bind_of_eq_ok (h.natAt rfl) ?_)
  exact bind_of_eq_ok (h.textAt rfl) (make_of_ok e.property)

/-- A step as it is written. -/
def ProcedureStep.asdict (step : ProcedureStep) : Json :=
  .obj [("ordinal", .int step.ordinal), ("instruction", .str step.instruction),
    ("condition", .ofOption .str step.condition)]

/-- A step of a procedure is read back. -/
theorem ProcedureStep.fromKeywords_readsAs {step : ProcedureStep} (h : ReadsAs j step.asdict) :
    ProcedureStep.fromKeywords j = .ok step := by
  refine bind_of_eq_ok (h.keywords (by simp) (by simp)) ?_
  refine bind_of_eq_ok (h.natAt rfl) (bind_of_eq_ok (h.textAt rfl) ?_)
  exact bind_of_eq_ok (h.textAt? rfl) rfl

/-- A precondition as it is written. -/
def ProposalPrecondition.asdict (c : ProposalPrecondition) : Json :=
  .obj [("record_id", .str c.val.recordId), ("generation", .int c.val.generation),
    ("status", .str c.val.status), ("content_sha256", .str c.val.contentSha256)]

/-- A precondition is read back. -/
theorem ProposalPrecondition.fromKeywords_readsAs {c : ProposalPrecondition}
    (h : ReadsAs j c.asdict) : ProposalPrecondition.fromKeywords j = .ok c := by
  refine bind_of_eq_ok (h.keywords (by simp) (by simp)) ?_
  refine bind_of_eq_ok (h.textAt rfl) (bind_of_eq_ok (h.natAt rfl) ?_)
  refine bind_of_eq_ok (h.textAt rfl) (bind_of_eq_ok (h.textAt rfl) ?_)
  exact make_of_ok c.property

/-- Records read one by one. -/
theorem mapM_readsAs {α : Type} {fromKeywords : Json → Except String α} {asdict : α → Json}
    (hread : ∀ {j a}, ReadsAs j (asdict a) → fromKeywords j = .ok a) {xs : List Json} {as : List α}
    (h : List.Forall₂ ReadsAs xs (as.map asdict)) : xs.mapM fromKeywords = .ok as :=
  mapM_eq_ok_of_forall₂ (fun _ _ hr => hread hr) (List.forall₂_map_right_iff.mp h)

/-- **A payload is read back**, of every kind. -/
theorem UnitPayload.fromKeywords_readsAs {payload : UnitPayload} (h : ReadsAs j payload.asdict) :
    UnitPayload.fromKeywords j payload.kind = .ok payload := by
  cases payload with
  | atomicFact subject relation val polarity | environmentState subject relation val polarity =>
    refine bind_of_eq_ok (h.keywords (by simp) (by simp)) ?_
    refine bind_of_eq_ok (h.textAt rfl) (bind_of_eq_ok (h.textAt rfl) ?_)
    exact bind_of_eq_ok (h.textAt rfl) (bind_of_eq_ok (h.memberAt rfl) rfl)
  | durableRule condition requiredAction prohibitedAction exceptions =>
    refine bind_of_eq_ok (h.keywords (by simp) (by simp)) ?_
    refine bind_of_eq_ok (h.textAt rfl) (bind_of_eq_ok (h.textAt? rfl) ?_)
    exact bind_of_eq_ok (h.textAt? rfl) (bind_of_eq_ok (h.textsAt rfl) rfl)
  | stateTransition entity relation before action after transitionBasis =>
    refine bind_of_eq_ok (h.keywords (by simp) (by simp)) ?_
    refine bind_of_eq_ok (h.textAt rfl) (bind_of_eq_ok (h.textAt rfl) ?_)
    refine bind_of_eq_ok (h.textAt rfl) (bind_of_eq_ok (h.textAt rfl) ?_)
    exact bind_of_eq_ok (h.textAt rfl) (bind_of_eq_ok (h.memberAt rfl) rfl)
  | procedure goal steps prerequisites completionEvidence failureConditions =>
    obtain ⟨rows, hrows, hsteps⟩ : ∃ rows, j.sequenceAt "steps" = .ok rows ∧
        List.Forall₂ ReadsAs rows (steps.map ProcedureStep.asdict) := h.sequenceAt rfl
    refine bind_of_eq_ok (h.keywords (by simp) (by simp)) ?_
    refine bind_of_eq_ok (h.textAt rfl) (bind_of_eq_ok hrows ?_)
    refine bind_of_eq_ok (mapM_readsAs ProcedureStep.fromKeywords_readsAs hsteps) ?_
    refine bind_of_eq_ok (h.textsAt rfl) (bind_of_eq_ok (h.textsAt rfl) ?_)
    exact bind_of_eq_ok (h.textsAt rfl) rfl
  | failureGotcha trigger failure requiredAction prohibitedAction =>
    refine bind_of_eq_ok (h.keywords (by simp) (by simp)) ?_
    refine bind_of_eq_ok (h.textAt rfl) (bind_of_eq_ok (h.textAt rfl) ?_)
    exact bind_of_eq_ok (h.textAt? rfl) (bind_of_eq_ok (h.textAt? rfl) rfl)
  | premiseConstraint proposition polarity appliesWhen excludedWhen =>
    refine bind_of_eq_ok (h.keywords (by simp) (by simp)) ?_
    refine bind_of_eq_ok (h.textAt rfl) (bind_of_eq_ok (h.memberAt rfl) ?_)
    exact bind_of_eq_ok (h.textAt? rfl) (bind_of_eq_ok (h.textAt? rfl) rfl)

end Records

/-! ## What is written is a value of JSON -/

section Written

theorem AuthorityScope.proper_asdict (scope : AuthorityScope) : scope.asdict.Proper :=
  ⟨by simp, trivial, trivial, trivial, trivial⟩

/-- An array of records is one where each record is. -/
theorem proper_arr {α : Type} {asdict : α → Json} (h : ∀ a, (asdict a).Proper) (as : List α) :
    (Json.arr (as.map asdict)).Proper := by
  refine properItems_iff.mpr fun x hx => ?_
  obtain ⟨a, -, rfl⟩ := List.mem_map.mp hx
  exact h a

theorem ProposalEvidence.proper_asdict (e : ProposalEvidence) : e.asdict.Proper :=
  ⟨by simp, trivial, trivial, trivial, trivial, trivial, trivial⟩

theorem ProcedureStep.proper_asdict (step : ProcedureStep) : step.asdict.Proper :=
  ⟨by simp, trivial, trivial, proper_ofOption _, trivial⟩

theorem ProposalPrecondition.proper_asdict (c : ProposalPrecondition) : c.asdict.Proper :=
  ⟨by simp, trivial, trivial, trivial, trivial, trivial⟩

/-- No payload has a field twice. -/
theorem UnitPayload.proper_asdict (payload : UnitPayload) : payload.asdict.Proper := by
  cases payload with
  | atomicFact | environmentState => exact ⟨by simp, trivial, trivial, trivial, trivial, trivial⟩
  | durableRule =>
    exact ⟨by simp, trivial, proper_ofOption _, proper_ofOption _, proper_strings _, trivial⟩
  | stateTransition =>
    exact ⟨by simp, trivial, trivial, trivial, trivial, trivial, trivial, trivial⟩
  | procedure =>
    exact ⟨by simp, trivial, proper_arr ProcedureStep.proper_asdict _, proper_strings _,
      proper_strings _, proper_strings _, trivial⟩
  | failureGotcha =>
    exact ⟨by simp, trivial, trivial, proper_ofOption _, proper_ofOption _, trivial⟩
  | premiseConstraint =>
    exact ⟨by simp, trivial, trivial, proper_ofOption _, proper_ofOption _, trivial⟩

theorem proper_time (time : Option Timestamp) :
    (Json.ofOption (fun t : Timestamp => .str t.text) time).Proper := by
  cases time <;> trivial

/-- No unit has a field twice. -/
theorem MemoryUnit.proper_toDict {unit : MemoryUnit}
    (hfloat : isFloatText unit.val.confidence.text = true) : unit.toDict.Proper :=
  ⟨by simp, trivial, trivial, trivial, AuthorityScope.proper_asdict _, UnitPayload.proper_asdict _,
    proper_arr ProposalEvidence.proper_asdict _, hfloat, trivial, trivial, proper_time _,
    proper_time _, proper_time _, proper_time _, trivial, trivial, trivial⟩

/-- What a proposal is written as has each key once, with a unit or without. -/
theorem ExtractionProposal.proper_toDict {p : ExtractionProposal}
    (hfloat : isFloatText p.val.confidence.text = true)
    (hunit : ∀ unit ∈ p.val.unit, isFloatText unit.val.confidence.text = true) :
    p.toDict.Proper := by
  have hwritten : ∀ unit ∈ p.val.unit, unit.toDict.Proper :=
    fun unit h => MemoryUnit.proper_toDict (hunit unit h)
  refine ⟨?_, trivial, trivial, AuthorityScope.proper_asdict _, trivial, trivial, hfloat,
    proper_strings _, proper_arr ProposalEvidence.proper_asdict _, proper_ofOption _,
    proper_ofOption _, proper_strings _, proper_arr ProposalPrecondition.proper_asdict _, trivial,
    trivial, ?_⟩
  · cases p.val.unit <;> simp
  · cases hp : p.val.unit with
    | none => trivial
    | some unit => exact ⟨hwritten unit hp, trivial⟩

end Written

/-! ## Round trips -/

/-- The text of a number names its value, as `repr` writes it: with a point or
an exponent, as of a float. A confidence may also be the integer 0 or 1, which
is written without, and is left out here. -/
structure TextReader.ReadsNumber (R : TextReader) (c : Confidence) : Prop where
  float : isFloatText c.text = true
  reads : R.float c.text = some c.value

/-- The text of each time names its moment, and that of the number its
value. -/
structure TextReader.Reads (R : TextReader) (unit : MemoryUnitFields) : Prop where
  times : ∀ time ∈ [unit.observedAt, unit.eventAt, unit.validFrom, unit.validUntil],
    ∀ t ∈ time, R.time t.text = some t.moment
  confidence : R.ReadsNumber unit.confidence

/-- The same of a proposal, and of the unit it may have. -/
structure TextReader.ReadsProposal (R : TextReader) (p : ExtractionProposalFields) : Prop where
  confidence : R.ReadsNumber p.confidence
  unit : ∀ unit ∈ p.unit, R.Reads unit.val

section RoundTrips

variable {R : TextReader} {j : Json} {name : String}

/-- A confidence is read back. -/
theorem Confidence.fromJson_readsAs {c : Confidence} (hR : R.ReadsNumber c)
    (h : ReadsAs j (.float c.text)) : Confidence.fromJson R j = .ok c := by
  rw [h.float, Confidence.fromJson, hR.reads]
  rfl

/-- A time, or none, is read back. -/
theorem Timestamp.fromJson_readsAs {time : Option Timestamp}
    (hR : ∀ t ∈ time, R.time t.text = some t.moment) {data : Json}
    (hb : data.get? name = some (.ofOption (fun t => .str t.text) time)) (h : ReadsAs j data) :
    Timestamp.fromJson R name ((j.get? name).getD .null) = .ok time := by
  obtain ⟨u, hu, hread⟩ := h.get? hb
  rw [hu, Option.getD_some]
  cases time with
  | none =>
    rw [hread.null]
    rfl
  | some t =>
    rw [hread.str, Timestamp.fromJson, hR t rfl]
    rfl

/-- The format is the one a unit or a proposal is read under. -/
theorem all_format {data : Json} {format : String} (h : ReadsAs j data)
    (hb : data.get? "format" = some (.str format)) :
    (j.get? "format").all (· = .str format) = true := by
  rw [h.get_str hb]
  exact decide_eq_true rfl

/-- A unit writes no field it would not read. -/
theorem MemoryUnit.mem_allowedFields {unit : MemoryUnit} (h : name ∈ unit.toDict.names) :
    name ∈ MemoryUnit.allowedFields := by
  simp only [names, MemoryUnit.toDict, List.map_cons, List.map_nil, List.mem_cons,
    List.not_mem_nil, or_false] at h
  simp only [MemoryUnit.allowedFields, List.mem_cons, List.not_mem_nil, or_false]
  tauto

/-- **A unit is read back**, its keys in whatever order. -/
theorem MemoryUnit.fromDict_readsAs {unit : MemoryUnit} (hR : R.Reads unit.val)
    (h : ReadsAs j unit.toDict) : MemoryUnit.fromDict R j = .ok unit := by
  have htime (time : Option Timestamp) (hmem : time ∈ [unit.val.observedAt, unit.val.eventAt,
      unit.val.validFrom, unit.val.validUntil]) (name : String)
      (hb : unit.toDict.get? name = some (.ofOption (fun t => .str t.text) time)) :
      Timestamp.fromJson R name ((j.get? name).getD .null) = .ok time :=
    Timestamp.fromJson_readsAs (hR.times time hmem) hb h
  have hnames : ∀ name ∈ j.names, name ∈ MemoryUnit.allowedFields :=
    fun _ hname => MemoryUnit.mem_allowedFields (h.mem_names.mp hname)
  obtain ⟨raw, hraw, hpayload⟩ : ∃ u, j.get "payload" = .ok u ∧ ReadsAs u unit.val.payload.asdict :=
    h.get rfl
  obtain ⟨scope, hscope, hscopeRead⟩ : ∃ u, j.get "scope" = .ok u ∧
      ReadsAs u unit.val.scope.asdict := h.get rfl
  obtain ⟨u, hu, hread⟩ : ∃ u, j.get "evidence" = .ok u ∧
      ReadsAs u (.arr (unit.val.evidence.map ProposalEvidence.asdict)) := h.get rfl
  obtain ⟨rows, rfl, hrows⟩ := hread.arr
  obtain ⟨confidence, hconfidence, hnumber⟩ : ∃ u, j.get "confidence" = .ok u ∧
      ReadsAs u (.float unit.val.confidence.text) := h.get rfl
  have hversion : (j.get? "formation_version").getD (.str "typed-formation-v1") =
      .str unit.val.formationVersion := by
    rw [h.get_str rfl]
    rfl
  -- in the order of the checks of the source
  refine bind_of_eq_ok (ensure_eq_ok.mpr (all_format h rfl)) ?_
  refine bind_of_eq_ok (ensure_eq_ok.mpr hnames) ?_
  refine bind_of_eq_ok (h.memberAt rfl) (bind_of_eq_ok hraw ?_)
  refine bind_of_eq_ok (h.textAt rfl) (bind_of_eq_ok (h.textAt rfl) ?_)
  refine bind_of_eq_ok hscope ?_
  refine bind_of_eq_ok (AuthorityScope.fromKeywords_readsAs hscopeRead) ?_
  refine bind_of_eq_ok (UnitPayload.fromKeywords_readsAs hpayload) ?_
  refine bind_of_eq_ok hu (bind_of_eq_ok rfl ?_)
  refine bind_of_eq_ok (mapM_readsAs ProposalEvidence.fromKeywords_readsAs hrows) ?_
  refine bind_of_eq_ok hconfidence ?_
  refine bind_of_eq_ok (Confidence.fromJson_readsAs hR.confidence hnumber) ?_
  refine bind_of_eq_ok (h.memberAt rfl) ?_
  rw [hversion]
  refine bind_of_eq_ok rfl ?_
  refine bind_of_eq_ok (htime unit.val.observedAt (by simp) "observed_at" rfl) ?_
  refine bind_of_eq_ok (htime unit.val.eventAt (by simp) "event_at" rfl) ?_
  refine bind_of_eq_ok (htime unit.val.validFrom (by simp) "valid_from" rfl) ?_
  refine bind_of_eq_ok (htime unit.val.validUntil (by simp) "valid_until" rfl) ?_
  exact bind_of_eq_ok (h.memberAt rfl) (make_of_ok unit.property)

/-- The unit of a proposal, or that it has none. -/
theorem MemoryUnit.optionAt_readsAs {p : ExtractionProposal} (hR : R.ReadsProposal p.val)
    (h : ReadsAs j p.toDict) : MemoryUnit.optionAt R j = .ok p.val.unit := by
  have hwritten : p.toDict.get? "unit" = p.val.unit.map MemoryUnit.toDict := by
    rw [ExtractionProposal.toDict]
    cases p.val.unit <;> rfl
  unfold MemoryUnit.optionAt
  cases hunit : p.val.unit with
  | none =>
    rw [h.get?_eq_none (by rw [hwritten, hunit, Option.map_none])]
  | some unit =>
    obtain ⟨u, hu, hread⟩ := h.get? (by rw [hwritten, hunit, Option.map_some])
    have hdecoded := MemoryUnit.fromDict_readsAs (hR.unit unit hunit) hread
    obtain ⟨fields, rfl⟩ := hread.obj
    rw [hu]
    change (MemoryUnit.fromDict R (.obj fields)).map some = _
    rw [hdecoded]
    rfl

/-- **A proposal is read back**, with its unit. -/
theorem ExtractionProposal.fromDict_readsAs {p : ExtractionProposal} (hR : R.ReadsProposal p.val)
    (h : ReadsAs j p.toDict) : ExtractionProposal.fromDict R j = .ok p := by
  obtain ⟨scope, hscope, hscopeRead⟩ : ∃ u, j.get "scope" = .ok u ∧
      ReadsAs u p.val.scope.asdict := h.get rfl
  obtain ⟨confidence, hconfidence, hnumber⟩ : ∃ u, j.get "confidence" = .ok u ∧
      ReadsAs u (.float p.val.confidence.text) := h.get rfl
  obtain ⟨evidence, hevidence, hspans⟩ : ∃ rows, j.sequenceAt "evidence" = .ok rows ∧
      List.Forall₂ ReadsAs rows (p.val.evidence.map ProposalEvidence.asdict) := h.sequenceAt rfl
  obtain ⟨rows, hrows, hconditions⟩ : ∃ rows, j.sequenceAt "preconditions" = .ok rows ∧
      List.Forall₂ ReadsAs rows (p.val.preconditions.map ProposalPrecondition.asdict) :=
    h.sequenceAt rfl
  have hreview : (j.getOr "review_required" .null).truthy = p.val.reviewRequired :=
    truthy_getOr_bool (h.get_bool rfl)
  refine bind_of_eq_ok (ensure_eq_ok.mpr (all_format h rfl)) ?_
  refine bind_of_eq_ok (MemoryUnit.optionAt_readsAs hR h) ?_
  refine bind_of_eq_ok (h.textAt rfl) (bind_of_eq_ok (h.textAt rfl) ?_)
  refine bind_of_eq_ok hscope ?_
  refine bind_of_eq_ok (AuthorityScope.fromKeywords_readsAs hscopeRead) ?_
  refine bind_of_eq_ok (h.memberAt rfl) (bind_of_eq_ok (h.memberAt rfl) ?_)
  refine bind_of_eq_ok hconfidence ?_
  refine bind_of_eq_ok (Confidence.fromJson_readsAs hR.confidence hnumber) ?_
  refine bind_of_eq_ok (h.textsAt rfl) (bind_of_eq_ok hevidence ?_)
  refine bind_of_eq_ok (mapM_readsAs ProposalEvidence.fromKeywords_readsAs hspans) ?_
  refine bind_of_eq_ok (h.textAt? rfl) (bind_of_eq_ok (h.textAt? rfl) ?_)
  refine bind_of_eq_ok (h.textsAt rfl) (bind_of_eq_ok hrows ?_)
  refine bind_of_eq_ok (mapM_readsAs ProposalPrecondition.fromKeywords_readsAs hconditions) ?_
  rw [hreview]
  exact make_of_ok p.property

/-- **A unit survives its text**: whatever value has the canonical text of
what was written is read as the unit, if its confidence is a float. -/
theorem unit_reads_back (unit : MemoryUnit) (hR : R.Reads unit.val) {payload : Json}
    (hpayload : payload.Proper) (h : payload.canonicalJson = unit.toDict.canonicalJson) :
    MemoryUnit.fromDict R payload = .ok unit :=
  MemoryUnit.fromDict_readsAs hR
    (.of_canonicalJson hpayload (MemoryUnit.proper_toDict hR.confidence.float) h)

/-- **A proposal survives its text**, and the unit with it, if the confidences
are floats. -/
theorem proposal_reads_back (p : ExtractionProposal) (hR : R.ReadsProposal p.val) {payload : Json}
    (hpayload : payload.Proper) (h : payload.canonicalJson = p.toDict.canonicalJson) :
    ExtractionProposal.fromDict R payload = .ok p :=
  ExtractionProposal.fromDict_readsAs hR (.of_canonicalJson hpayload
    (ExtractionProposal.proper_toDict hR.confidence.float fun unit hunit =>
      (hR.unit unit hunit).confidence.float) h)

end RoundTrips

/-! ### A procedure, read back -/

/-- A reader of the two texts of the example. -/
def bootReader : TextReader where
  time text := if text = "2026-01-01T01:00:00+01:00" then some 63902822400000000 else none
  float text := if text = "0.9" then some (9 / 10) else none

/-- The scope of the example. -/
def bootScope : AuthorityScope := ⟨⟨"user", "agent", "w"⟩, by decide +kernel⟩

/-- The first twelve characters of a message. -/
def bootEvidence : ProposalEvidence :=
  ⟨⟨"message", "sha256:" ++ String.ofList (List.replicate 64 '0'), 0, 12,
    "sha256:" ++ String.ofList (List.replicate 64 '1')⟩, by decide +kernel⟩

/-- How the machine is started. -/
def bootUnit : MemoryUnit :=
  ⟨{ unitId := "unit", formationId := "formation", scope := bootScope,
     payload := .procedure "boot" [⟨1, "press the button", none⟩, ⟨2, "wait", some "it hums"⟩]
       [] ["the lamp is green"] [],
     evidence := [bootEvidence], confidence := ⟨9 / 10, "0.9"⟩,
     validFrom := some ⟨"2026-01-01T01:00:00+01:00", 63902822400000000⟩ }, by decide +kernel⟩

/-- The unit is proposed as a new memory. -/
def bootProposal : ExtractionProposal :=
  ⟨{ proposalId := "proposal", idempotencyKey := "key", scope := bootScope, action := .add,
     memoryClass := .procedure, confidence := ⟨9 / 10, "0.9"⟩, reasonCodes := ["explicit"],
     evidence := [bootEvidence], fact := some "boot", unit := some bootUnit }, by decide +kernel⟩

theorem bootReader_readsNumber : bootReader.ReadsNumber ⟨9 / 10, "0.9"⟩ :=
  ⟨by decide +kernel, rfl⟩

/-- The reader reads the texts of the example. -/
theorem bootReader_reads : bootReader.Reads bootUnit.val where
  times time htime t ht := by
    simp only [bootUnit, List.mem_cons, List.not_mem_nil, or_false] at htime
    obtain rfl | rfl | rfl | rfl := htime <;> cases ht
    rfl
  confidence := bootReader_readsNumber

/-- The procedure is read back. -/
theorem bootUnit_read : MemoryUnit.fromDict bootReader bootUnit.toDict = .ok bootUnit :=
  unit_reads_back bootUnit bootReader_reads
    (MemoryUnit.proper_toDict bootReader_readsNumber.float) rfl

/-- And so is its proposal. -/
theorem bootProposal_read :
    ExtractionProposal.fromDict bootReader bootProposal.toDict = .ok bootProposal := by
  have hunit : ∀ unit ∈ bootProposal.val.unit, unit = bootUnit :=
    fun unit h => (Option.some.inj h).symm
  refine proposal_reads_back bootProposal ⟨bootReader_readsNumber, fun unit h => ?_⟩
    (ExtractionProposal.proper_toDict bootReader_readsNumber.float fun unit h => ?_) rfl
  · rw [hunit unit h]
    exact bootReader_reads
  · rw [hunit unit h]
    exact bootReader_readsNumber.float

end Atmem
