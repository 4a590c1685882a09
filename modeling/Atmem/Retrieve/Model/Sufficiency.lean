import Mathlib.Data.Finset.Card
import Mathlib.Data.Finset.Dedup
import Mathlib.Data.Finset.Lattice.Basic
import Atmem.Core.Policy
import Atmem.Extract.Models
/-!
# When evidence is sufficient

The decision on the typed units that were nominated for a need: which of the
need's slots they cover, which of them contradict each other, and whether
all of them have expired. A unit's slots cover nothing unless the unit is
about what is asked.
-/

namespace Atmem.Sufficiency

open Checked Vocabulary

/-! ## Surroundings -/

/-- The exceptions of the decision. -/
inductive Raised
  | jsonDecodeError
  | valueError (message : String)
  | recursionError
  | overflowError
deriving DecidableEq

/-- What is a parameter: Unicode's tables, `json.loads`, and what `str`
makes of a value that is no text and of a tuple. -/
structure Language where
  unicode : UnicodeTables
  loads : String → Except Raised Json
  strValue : Json → String
  strTuple : List Json → String

/-- `str(value)`. -/
def Language.str (L : Language) : Json → String
  | .str s => s
  | value => L.strValue value

/-! ## Needs -/

/-- The kinds of needs. -/
inductive InformationNeedType
  | exactFact | currentState | stateChange | orderedTask | exceptionRisk | ruleApplication
  | assumptionCheck | relationalSynthesis
deriving DecidableEq

instance : Vocabulary InformationNeedType where
  all := [.exactFact, .currentState, .stateChange, .orderedTask, .exceptionRisk,
    .ruleApplication, .assumptionCheck, .relationalSynthesis]
  value
    | .exactFact => "exact_fact"
    | .currentState => "current_state"
    | .stateChange => "state_change"
    | .orderedTask => "ordered_task"
    | .exceptionRisk => "exception_risk"
    | .ruleApplication => "rule_application"
    | .assumptionCheck => "assumption_check"
    | .relationalSynthesis => "relational_synthesis"
  mem_all a := by cases a <;> decide
  nodup_value := by decide +kernel

/-- Which answer is looked for. -/
inductive NeedPolarity
  | positive | negative | unknown
deriving DecidableEq

instance : Vocabulary NeedPolarity where
  all := [.positive, .negative, .unknown]
  value
    | .positive => "positive"
    | .negative => "negative"
    | .unknown => "unknown"
  mem_all a := by cases a <;> decide
  nodup_value := by decide +kernel

/-- A dictionary of texts. -/
abbrev Obligation : Type := List (String × String)

/-- `obligation.get(name) or default`. -/
def Obligation.getOr (obligation : Obligation) (name default : String) : String :=
  ((obligation.lookup name).filter (· ≠ "")).getD default

/-- What an answer needs to be told. -/
structure InformationNeedFields where
  needId : String
  type : InformationNeedType
  entities : List String := []
  relationOrAction : Option String := none
  temporalTarget : Option String := none
  polarity : NeedPolarity := .unknown
  expectedForm : Option String := none
  requiredSlots : List String := []
  parentNeedId : Option String := none
  obligations : List Obligation := []
  evidenceTerms : List String := []

/-- `InformationNeed.__post_init__`. -/
def InformationNeedFields.postInit (f : InformationNeedFields) : Except String Unit := do
  identifier "need_id" f.needId
  ensure (f.requiredSlots ≠ []) "information need requires at least one evidence slot"
  ensure f.requiredSlots.Nodup "information need slots must be unique"
  ensure (∀ term ∈ f.evidenceTerms, strip term ≠ [])
    "information-need evidence terms must be non-empty strings"
  ensure (∀ obligation ∈ f.obligations, ∃ name ∈ ["entity", "relation", "action"],
      strip (obligation.getOr name "") ≠ [])
    "information-need obligations must identify a target"

/-- A need that passed its checks. -/
abbrev InformationNeed := {f : InformationNeedFields // f.postInit = .ok ()}

/-- `InformationNeed.to_dict`. -/
def InformationNeed.toDict (need : InformationNeed) : Json :=
  .obj [("need_id", .str need.val.needId), ("type", .str (value need.val.type)),
    ("entities", .strings need.val.entities),
    ("relation_or_action", .ofOption .str need.val.relationOrAction),
    ("temporal_target", .ofOption .str need.val.temporalTarget),
    ("polarity", .str (value need.val.polarity)),
    ("expected_form", .ofOption .str need.val.expectedForm),
    ("required_slots", .strings need.val.requiredSlots),
    ("parent_need_id", .ofOption .str need.val.parentNeedId),
    ("obligations", .arr (need.val.obligations.map fun obligation =>
      .obj (obligation.map fun entry => (entry.1, .str entry.2)))),
    ("evidence_terms", .strings need.val.evidenceTerms),
    ("format", .str "atmem-information-need-v1")]

/-! ## Decisions -/

/-- How far the rows meet a need. -/
inductive SufficiencyStatus
  | sufficient | partly | contradictory | stale | unsupported
deriving DecidableEq

instance : Vocabulary SufficiencyStatus where
  all := [.sufficient, .partly, .contradictory, .stale, .unsupported]
  value
    | .sufficient => "sufficient"
    | .partly => "partial"
    | .contradictory => "contradictory"
    | .stale => "stale"
    | .unsupported => "unsupported"
  mem_all a := by cases a <;> decide
  nodup_value := by decide +kernel

/-- The fields of a decision, as the rows made it. -/
structure SufficiencyDecisionFields where
  decisionId : String
  needId : String
  status : SufficiencyStatus
  requiredSlots : List String
  coveredSlots : List String
  missingSlots : List String
  evidenceIds : List String
  contradictionIds : List String := []
  reasonCodes : List String := []

/-- `SufficiencyDecision.__post_init__`. -/
def SufficiencyDecisionFields.postInit (f : SufficiencyDecisionFields) : Except String Unit := do
  identifier "decision_id" f.decisionId
  ensure (f.requiredSlots ≠ [] ∧ f.requiredSlots.Nodup)
    "required_slots must be non-empty and unique"
  ensure (∀ slot ∈ f.coveredSlots ++ f.missingSlots, slot ∈ f.requiredSlots)
    "covered and missing slots must belong to required_slots"
  ensure (∀ slot ∈ f.coveredSlots, slot ∉ f.missingSlots)
    "a sufficiency slot cannot be both covered and missing"
  ensure (∀ slot ∈ f.requiredSlots, slot ∈ f.coveredSlots ∨ slot ∈ f.missingSlots)
    "covered and missing slots must partition required_slots"
  ensure (f.status = .sufficient → f.missingSlots = [])
    "sufficient decisions cannot have missing slots"
  ensure (f.status = .sufficient → f.evidenceIds ≠ [])
    "sufficient decisions require supporting evidence"
  ensure (f.status = .sufficient → f.contradictionIds = [])
    "sufficient decisions cannot retain contradictions"
  ensure (f.status = .partly → f.missingSlots ≠ []) "partial decisions require missing slots"
  ensure (f.status = .contradictory → f.contradictionIds ≠ [])
    "contradictory decisions require contradiction evidence"
  ensure (f.status ∈ [SufficiencyStatus.contradictory, .stale] → f.evidenceIds ≠ [])
    (value f.status ++ " decisions require supporting evidence")
  ensure (∀ id ∈ f.evidenceIds, id ∉ f.contradictionIds)
    "supporting and contradiction evidence must be disjoint"
  ensure (f.status = .unsupported → f.evidenceIds = [])
    "unsupported decisions cannot claim supporting evidence"
  ensure (f.status = .unsupported → f.coveredSlots = [])
    "unsupported decisions cannot claim covered slots"

/-- A decision that passed its checks. -/
abbrev SufficiencyDecision := {f : SufficiencyDecisionFields // f.postInit = .ok ()}

/-! ## Terms -/

/-- `_ALIASES`. -/
def aliases : List (String × String) :=
  [("old", "age"), ("aged", "age"), ("years", "age"), ("where", "location"),
    ("deploying", "deploy"), ("deployment", "deploy")]

/-- `_RELATION_TERMS`. -/
def relationWords : Finset String :=
  {"age", "location", "food", "city", "status", "model", "configuration", "name", "email",
    "channel", "deploy", "procedure"}

/-- `_QUERY_NOISE`. -/
def queryNoise : Finset String :=
  {"what", "which", "how", "where", "when", "is", "are", "do", "does", "should", "use", "under",
    "our", "policy", "compare", "favorite", "together", "current", "selected", "value", "my", "me",
    "i", "user", "steps"}

/-- `_EPISODIC_PROJECTION_RELATIONS`. -/
def episodicProjectionRelations : List String :=
  ["accessibility_tree", "state summary", "ui control state index", "ui surface index"]

variable (L : Language)

/-- `_terms` of a text. -/
def terms (text : String) : Finset String :=
  (((runs L.unicode.isAlnum (L.unicode.casefold text).toList).map fun token =>
    (aliases.lookup (String.ofList token)).getD (String.ofList token)).filter
      (1 < ·.length)).toFinset

/-- `subject`, or else `entity`. -/
def subjectOf (payload : Json) : Json := payload.getOr "subject" (payload.getOr "entity" (.str ""))

/-- The values that count as absent: `None`, `""`, `[]` and `{}`. -/
def present (payload : Json) (name : String) : Bool :=
  (payload.get? name).any (· ∉ [.null, .str "", .arr [], .obj []])

/-- `json.loads(value)` of a text; one that is no JSON is nothing. -/
def structured (value : Json) : Except Raised Json :=
  match value with
  | .str s =>
    match L.loads s with
    | .error .jsonDecodeError => .ok .null
    | result => result
  | value => .ok value

/-- `unit.get("event_at") or unit.get("observed_at") or ""`. -/
def observed (unit : MemoryUnit) : String :=
  ((unit.val.eventAt.or unit.val.observedAt).map (·.text)).getD ""

/-! ## What a unit is about -/

/-- `value` is part of what a state is about. -/
def valueTerms (unit : MemoryUnit) : Finset String :=
  if unit.val.kind = .environmentState then
    terms L (L.str (unit.val.payload.asdict.getOr "value" (.str "")))
  else ∅

/-- `expected_action & target`, or one is the beginning of the other. -/
def actionsMeet (expected target : Finset String) : Bool :=
  (expected ∩ target).Nonempty || decide (∃ left ∈ expected, ∃ right ∈ target,
    4 ≤ left.length ∧ 4 ≤ right.length ∧
      (right.toList <+: left.toList ∨ left.toList <+: right.toList))

/-- `_matches_single_obligation`. -/
def matchesSingleObligation (obligation : Obligation) (unit : MemoryUnit) : Bool :=
  let payload := unit.val.payload.asdict
  let subjectTerms := terms L (L.str (subjectOf payload)) ∪ valueTerms L unit
  let relationTerms := terms L (L.str (payload.getOr "relation" (.str ""))) ∪ valueTerms L unit
  let entity := L.unicode.casefold (obligation.getOr "entity" "")
  let relation := L.unicode.casefold (obligation.getOr "relation" "")
  let action := L.unicode.casefold (obligation.getOr "action" "")
  let polarity := obligation.getOr "polarity" "unknown"
  let temporalTarget := obligation.getOr "temporal_target" ""
  -- the user goes by other names, and so does an age
  let entityTerms := terms L entity ∪ if entity = "user" then {"user", "self", "speaker"} else ∅
  let expected := terms L relation ∪ if relation = "age" then {"old", "years", "born"} else ∅
  let required := expected \ {"current"}
  let entityMatches := entity = "" || (entityTerms ∩ subjectTerms).Nonempty
  let relationMatches := relation = "" ||
    (required.Nonempty && decide (required ⊆ relationTerms)) ||
    (!required.Nonempty && decide (expected ∩ relationTerms).Nonempty) ||
    (relation = "age" && decide (expected ∩ relationTerms).Nonempty)
  let actionMatches := action = "" ||
    actionsMeet (terms L action) (terms L payload.canonicalJson)
  let polarityMatches := polarity = "unknown" ||
    L.str (payload.getOr "polarity" (.str "unknown")) = polarity
  let timeMatches := temporalTarget = "" ||
    (observed unit ≠ "" && decide (temporalTarget.toList <+: (observed unit).toList))
  entityMatches && relationMatches && actionMatches && polarityMatches && timeMatches &&
    (entity ≠ "" || relation ≠ "" || action ≠ "")

/-- `matching_obligation_indexes`. -/
def matchingObligationIndexes (need : InformationNeed) (unit : MemoryUnit) : Finset ℕ :=
  (Finset.range need.val.obligations.length).filter fun index =>
    (need.val.obligations[index]?).any fun obligation => matchesSingleObligation L obligation unit

/-- The fields of a structured state that say what it is about. -/
def structuredTerms (need : InformationNeed) (fields : Json) : Finset String :=
  terms L (L.strTuple
    (if need.val.type = .orderedTask then
      [fields.getOr "goal" (.str ""), fields.getOr "actions" (.arr []),
        fields.getOr "outcome" (.str "")]
    else
      [fields.getOr "url" (.str ""), fields.getOr "title" (.str ""),
        fields.getOr "name" (.str "")]))

/-- The terms of the subject and the relation that are asked for are those
of the unit. -/
def namesTarget (queryTerms : Finset String) (payload : Json) : Bool :=
  let subjectTerms := terms L (L.str (subjectOf payload))
  let relationTerms := terms L (L.str (payload.getOr "relation" (.str "")))
  let requestedRelations := queryTerms ∩ relationWords
  let requestedEntities := (queryTerms \ requestedRelations) \ queryNoise
  (!requestedRelations.Nonempty || (requestedRelations ∩ relationTerms).Nonempty) &&
    (!requestedEntities.Nonempty || (requestedEntities ∩ subjectTerms).Nonempty)

/-- Whether a unit is about the terms of a query. -/
def matchesQuery (need : InformationNeed) (queryTerms : Finset String) (unit : MemoryUnit) :
    Except Raised Bool :=
  let payload := unit.val.payload.asdict
  let orEmpty (name : String) : Json := payload.getOr name (.str "")
  let meets (target : Finset String) : Bool := ((queryTerms \ queryNoise) ∩ target).Nonempty
  let synthesis := need.val.type = .relationalSynthesis
  match unit.val.kind with
  | .atomicFact =>
    let target := terms L (L.strTuple [subjectOf payload, orEmpty "relation"])
    .ok (if synthesis then meets target else namesTarget L queryTerms payload)
  | .environmentState => do
    let fields ← structured L ((payload.get? "value").getD .null)
    let about := terms L (L.strTuple [subjectOf payload, orEmpty "relation"])
    match fields with
    | .obj _ =>
      let target := about ∪ structuredTerms L need fields
      .ok (if synthesis ∨ need.val.type = .orderedTask then meets target
        else namesTarget L queryTerms payload)
    | _ => .ok (if synthesis then meets about else namesTarget L queryTerms payload)
  | .stateTransition =>
    let target := terms L (L.strTuple [orEmpty "entity", orEmpty "relation"])
    .ok (if synthesis then meets target else namesTarget L queryTerms payload)
  | .procedure => .ok (meets (terms L (L.str (orEmpty "goal"))))
  | .durableRule => .ok (meets (terms L (L.strTuple
      [orEmpty "condition", orEmpty "required_action", orEmpty "prohibited_action"])))
  | .failureGotcha => .ok (meets (terms L (L.strTuple [orEmpty "trigger", orEmpty "failure"])))
  | .premiseConstraint => .ok (meets (terms L (L.str (orEmpty "proposition"))))

/-- `_matches_obligation`. -/
def matchesObligation (need : InformationNeed) (unit : MemoryUnit) : Except Raised Bool :=
  let payload := unit.val.payload.asdict
  let obligationMatched :=
    need.val.obligations.any fun obligation => matchesSingleObligation L obligation unit
  let temporalTarget := need.val.temporalTarget.getD ""
  let queryTerms := terms L (L.strTuple
    (need.val.entities.map .str ++ [.str (need.val.relationOrAction.getD "")]))
  if need.val.obligations ≠ [] ∧ !obligationMatched then .ok false
  else if need.val.polarity ≠ .unknown ∧
      L.str (payload.getOr "polarity" (.str "unknown")) ≠ value need.val.polarity then .ok false
  else if need.val.obligations = [] ∧ temporalTarget ≠ "" ∧ temporalTarget ≠ "current" ∧
      (observed unit = "" ∨ ¬ temporalTarget.toList <+: (observed unit).toList) then .ok false
  else if obligationMatched then .ok true
  else if queryTerms = ∅ then .ok false
  else matchesQuery L need queryTerms unit

/-! ## Slots -/

/-- The slots the fields of a structured state cover. -/
def structuredSlots (fields : Json) : Finset String :=
  match fields with
  | .obj _ =>
    (if (fields.getOr "goal" .null).truthy then {"goal"} else ∅) ∪
    (match fields.get? "actions" with
      | some (.arr (_ :: _)) => {"ordered_steps"}
      | _ => ∅) ∪
    (if (fields.get? "outcome").any (· ∉ [.null, .str ""]) then {"completion"} else ∅)
  | _ => ∅

/-- `covered_slots`. -/
def coveredSlots (unit : MemoryUnit) : Except Raised (Finset String) :=
  let payload := unit.val.payload.asdict
  let named (names : List String) : Finset String := (names.filter (present payload)).toFinset
  let when (condition : Bool) (slots : Finset String) : Finset String :=
    if condition then slots else ∅
  let action := present payload "required_action" || present payload "prohibited_action"
  match unit.val.kind with
  | .atomicFact =>
    .ok (named ["subject", "relation", "value"] ∪ when (present payload "subject") {"entity"} ∪
      when (present payload "value") {"current_value", "validity"})
  | .environmentState => do
    let ofFields := {"validity"} ∪ when (present payload "entity") {"entity", "subject"} ∪
      when (present payload "relation") {"relation"}
    if present payload "value" then
      let fields ← structured L ((payload.get? "value").getD .null)
      .ok (ofFields ∪ {"current_value", "value"} ∪ structuredSlots fields)
    else .ok ofFields
  | .stateTransition =>
    .ok (named ["entity", "before", "action", "after"] ∪
      when (observed unit ≠ "") {"event_time"})
  | .procedure =>
    let steps := match payload.get? "steps" with
      | some (.arr steps) => steps
      | _ => []
    .ok (when (present payload "goal") {"goal"} ∪ when (!steps.isEmpty) {"ordered_steps"} ∪
      when ((payload.getOr "prerequisites" .null).truthy ||
        steps.any fun step => (step.getOr "condition" .null).truthy) {"conditions"} ∪
      when (payload.getOr "completion_evidence" .null).truthy {"completion"})
  | .failureGotcha =>
    .ok (named ["trigger", "failure"] ∪ when action {"safe_action"})
  | .durableRule =>
    .ok (when (present payload "condition") {"condition", "applicability"} ∪
      when action {"required_or_prohibited_action"})
  | .premiseConstraint =>
    .ok (named ["proposition", "polarity"] ∪
      when (present payload "applies_when" || present payload "excluded_when") {"applicability"})

/-! ## The decision -/

/-- A record that was nominated, and the typed unit it holds. -/
structure TypedRow where
  recordId : String
  factKey : String
  unit : MemoryUnit

namespace TypedRow

/-- The subject of a row's unit, as text. -/
def subject (row : TypedRow) : String := L.str (subjectOf row.unit.val.payload.asdict)

/-- The relation of a row's unit, as text. -/
def relation (row : TypedRow) : String :=
  L.str (row.unit.val.payload.asdict.getOr "relation" (.str ""))

/-- What is compared of two rows on the same subject and relation. -/
def value (row : TypedRow) : String :=
  let payload := row.unit.val.payload.asdict
  Json.canonicalJson (.obj [("value", (payload.get? "value").getD
    ((payload.get? "after").getD .null)), ("polarity", (payload.get? "polarity").getD .null)])

/-- A part of a text, or a projection of an episode: it contradicts nothing. -/
def isPartial (row : TypedRow) : Bool :=
  decide ("_chunk_".toList <:+: row.factKey.toList) ||
    (row.unit.val.kind = .environmentState &&
      decide (L.unicode.casefold (row.relation L) ∈ episodicProjectionRelations))

/-- The slots of the need that a row covers. -/
def relevant (need : InformationNeed) (row : TypedRow) : Except Raised (Finset String) := do
  let slots ← coveredSlots L row.unit
  let ofSlots := need.val.requiredSlots.toFinset ∩ slots
  let matching ←
    if ofSlots.Nonempty then matchesObligation L need row.unit else .ok false
  if need.val.type = .relationalSynthesis ∧ row.subject L ≠ "" ∧ row.relation L ≠ "" then
    let matched ← matchesObligation L need row.unit
    .ok (if matched then {"supporting_evidence"} else ∅)
  else .ok (if matching then ofSlots else ∅)

/-- `valid_until and _is_past(valid_until)`. -/
def isPast (now : Instant) (row : TypedRow) : Except Raised Bool :=
  match row.unit.val.validUntil with
  | none => .ok false
  | some t => if t.moment < maxInstant then .ok (t.moment < now) else .error .overflowError

end TypedRow

/-- The variables of the loop over the rows. -/
structure Tally where
  covered : Finset String := ∅
  evidenceIds : List String := []
  staleIds : List String := []
  identities : List ((MemoryUnitKind × String × String) × String × String) := []
  contradictions : List String := []
  entityRelations : Finset (String × String) := ∅
  obligationMatches : Finset ℕ := ∅

/-- What a row is kept under, and what is compared. -/
def Tally.keep (t : Tally) (key : MemoryUnitKind × String × String) (recordId value : String) :
    Tally :=
  if (t.identities.lookup key).any (·.2 ≠ value) then
    { t with contradictions := t.contradictions ++ [recordId] }
  else { t with identities := (key, recordId, value) :: t.identities }

/-- One row of the loop. -/
def Tally.add (now : Instant) (need : InformationNeed) (t : Tally) (row : TypedRow) :
    Except Raised Tally := do
  let relevant ← row.relevant L need
  if relevant = ∅ then .ok t
  else
    let subject := L.unicode.casefold (row.subject L)
    let relation := L.unicode.casefold (row.relation L)
    let named := row.subject L ≠ "" ∧ row.relation L ≠ ""
    let t₁ := if named then
      { t with entityRelations := insert (subject, relation) t.entityRelations } else t
    let t₂ := if named ∧ !row.isPartial L then
      t₁.keep (row.unit.val.kind, subject, relation) row.recordId row.value else t₁
    let past ← row.isPast now
    .ok { t₂ with
      obligationMatches := t₂.obligationMatches ∪ matchingObligationIndexes L need row.unit
      covered := t₂.covered ∪ relevant
      evidenceIds := t₂.evidenceIds ++ [row.recordId]
      staleIds := if past then t₂.staleIds ++ [row.recordId] else t₂.staleIds }

/-- What is covered after the loop. -/
def Tally.coveredFinally (need : InformationNeed) (t : Tally) : Finset String :=
  let required := need.val.requiredSlots
  let covered := t.covered ∪
    if need.val.type = .relationalSynthesis ∧ 2 ≤ t.entityRelations.card then
      {"entities", "relations", "supporting_evidence"}
    else ∅
  -- an obligation that nothing meets keeps one slot open
  if t.obligationMatches = Finset.range need.val.obligations.length then covered
  else covered.erase (if "supporting_evidence" ∈ required then "supporting_evidence"
    else required.getLast?.getD "")

/-- The status: contradictions come first, then staleness, then what is covered. -/
def Tally.status (need : InformationNeed) (t : Tally) : SufficiencyStatus :=
  let covered := t.coveredFinally need
  if t.contradictions ≠ [] then .contradictory
  else if t.staleIds ≠ [] ∧ ∀ id ∈ t.evidenceIds, id ∈ t.staleIds then .stale
  else if ∀ slot ∈ need.val.requiredSlots, slot ∉ covered then .unsupported
  else if ∃ slot ∈ need.val.requiredSlots, slot ∉ covered then .partly
  else .sufficient

/-- `_reason_codes`. -/
def reasonCodes (status : SufficiencyStatus) (missing : List String) : List String :=
  match status with
  | .sufficient => ["required_slots_covered"]
  | .unsupported => ["no_answer_bearing_typed_evidence"]
  | .contradictory => ["conflicting_current_evidence"]
  | .stale => ["only_expired_evidence"]
  | .partly => "missing_required_slots" :: missing.map ("missing:" ++ ·)

/-- What is decided of the loop's variables. -/
def Tally.decision (H : Hashing) (need : InformationNeed) (t : Tally) :
    SufficiencyDecisionFields :=
  let required := need.val.requiredSlots
  let covered := required.filter (· ∈ t.coveredFinally need)
  let missing := required.filter (· ∉ t.coveredFinally need)
  let evidence := if t.status need = .unsupported then []
    else (t.evidenceIds.filter (· ∉ t.contradictions)).eraseDups
  let identity := Json.canonicalJson (.obj [("need", need.toDict), ("evidence", .strings evidence),
    ("contradictions", .strings t.contradictions.eraseDups), ("covered", .strings covered)])
  { decisionId := "sufficiency-" ++ String.ofList ((H.sha256Hex identity).toList.take 24)
    needId := need.val.needId
    status := t.status need
    requiredSlots := required
    coveredSlots := covered
    missingSlots := missing
    evidenceIds := evidence
    contradictionIds := t.contradictions.eraseDups
    reasonCodes := reasonCodes (t.status need) missing }

/-- `decide_sufficiency`. -/
def decideSufficiency (H : Hashing) (now : Instant) (need : InformationNeed)
    (rows : List TypedRow) : Except Raised SufficiencyDecision := do
  let t ← rows.foldlM (Tally.add L now need) {}
  (Checked.make SufficiencyDecisionFields.postInit (t.decision H need)).mapError .valueError

end Atmem.Sufficiency
