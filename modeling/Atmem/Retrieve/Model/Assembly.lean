import Mathlib.Data.List.Lex
import Mathlib.Data.List.Sort
import Atmem.Common.FirstFit
import Atmem.Contracts.CanonicalUnicode
import Atmem.Retrieve.Model.Sufficiency
/-!
# The package an agent is given

Context Package V2: of the rows that were nominated the complementary ones
are chosen, judged, and written out under the byte budget. A known
contradiction is delivered with both of its sides or not at all, and what
is written decides what the package says it holds.
-/

namespace Atmem.Assembly

open Checked Vocabulary FirstFit Sufficiency

/-! ## Rows -/

/-- A row with its place in the nomination; zero where it has none. -/
structure Nominee extends TypedRow where
  rank : ℕ := 0

/-- The decision on nominees. -/
def decide (L : Language) (H : Hashing) (now : Instant) (need : InformationNeed)
    (rows : List Nominee) : Except Raised SufficiencyDecision :=
  decideSufficiency L H now need (rows.map (·.toTypedRow))

/-- The ids of rows, in order. -/
def idsOf (rows : List Nominee) : List String := rows.map (·.recordId)

/-- When the clock is read: by the decisions on the nominees, on what is
chosen so far, on all rows, on what was chosen and on what was packed, and
for the expiry. -/
inductive Reading
  | nominees | choosing (count : ℕ) | all | chosen | packed | expiry

/-- `_reader_state_projection`: of a value, whether it is known to be
structured, and the focus terms. -/
abbrev Projection : Type := String → Bool → List String → String

/-! ## Conflicts -/

section Conflicts

variable (L : Language)

/-- What makes two rows claims about one thing. -/
def identity (row : TypedRow) : MemoryUnitKind × String × String :=
  (row.unit.val.kind, L.unicode.casefold (row.subject L), L.unicode.casefold (row.relation L))

/-- `candidate` says something else of the same thing. -/
def opposes (row candidate : TypedRow) : Bool :=
  identity L candidate = identity L row && candidate.value ≠ row.value

/-- `_conflict_evidence_ids`. -/
def conflictEvidenceIds (rows : List Nominee) (contradictionIds : List String) : List String :=
  contradictionIds ++ contradictionIds.filterMap fun id =>
    ((rows.filter (·.recordId = id)).getLast?).bind fun conflicting =>
      (rows.find? fun candidate => opposes L conflicting.toTypedRow candidate.toTypedRow).map
        (·.recordId)

end Conflicts

/-! ## Choosing rows -/

mutual

/-- `json.dumps(value, ensure_ascii=False)`, whose separators are spaced. -/
def dumpsSpaced : Json → List Char
  | .arr (x :: xs) => '[' :: (dumpsSpaced x ++ dumpsSpacedItems xs)
  | .obj ((k, x) :: kvs) =>
    '{' :: (Json.quoteUnicode k ++ ':' :: ' ' :: (dumpsSpaced x ++ dumpsSpacedFields kvs))
  | .null => Json.null.dumpsUnicode
  | .bool b => (Json.bool b).dumpsUnicode
  | .int n => (Json.int n).dumpsUnicode
  | .float repr => (Json.float repr).dumpsUnicode
  | .str s => (Json.str s).dumpsUnicode
  | .arr [] => ['[', ']']
  | .obj [] => ['{', '}']

/-- The elements after the first. -/
def dumpsSpacedItems : List Json → List Char
  | [] => [']']
  | x :: xs => ',' :: ' ' :: (dumpsSpaced x ++ dumpsSpacedItems xs)

/-- The fields after the first. -/
def dumpsSpacedFields : List (String × Json) → List Char
  | [] => ['}']
  | (k, x) :: kvs => ',' :: ' ' ::
    (Json.quoteUnicode k ++ ':' :: ' ' :: (dumpsSpaced x ++ dumpsSpacedFields kvs))

end

/-- `_estimated_unit_bytes`. -/
def estimatedUnitBytes (unit : MemoryUnit) : ℕ :=
  let raw := match unit.val.payload with
    | .atomicFact _ _ value _ | .environmentState _ _ value _ => value
    | payload => String.ofList (dumpsSpaced payload.asdict.sortKeys)
  min 4096 (max 128 raw.utf8ByteSize)

section Choosing

variable (L : Language) (H : Hashing) (clock : Reading → Instant) (need : InformationNeed)

/-- `str(value).strip().casefold()`. -/
def folded (text : String) : String := L.unicode.casefold (String.ofList (strip text))

/-- `_evidence_group`. -/
def evidenceGroup (row : TypedRow) : MemoryUnitKind × String × String :=
  (row.unit.val.kind, folded L (row.subject L),
    String.ofList ((folded L (row.relation L)).toList.takeWhile (· ≠ ':')))

/-- `_evidence_group_limit`. -/
def evidenceGroupLimit (row : TypedRow) : ℕ :=
  let relation := folded L (row.relation L)
  if relation ∈ ["accessibility_tree", "tree"] then 2
  else if "state summary".toList <+: relation.toList then 3
  else if relation = "ui surface index" then 4
  else 2

/-- The variables of the loop. How many of a group were chosen is read off
what was chosen. -/
structure Selection where
  remaining : List Nominee
  chosen : List Nominee := []
  covered : Finset String := ∅
  coveredObligations : Finset ℕ := ∅
  usedSources : Finset String := ∅
  approximateBytes : ℕ := 256

/-- A row that may be chosen next, and what it would add. -/
structure Ranked where
  key : List ℤ
  index : ℕ
  row : Nominee
  size : ℕ
  slots : Finset String
  sources : Finset String
  obligations : Finset ℕ

/-- How many rows of the same evidence group are chosen already. -/
def Selection.groupCount (s : Selection) (row : TypedRow) : ℕ :=
  s.chosen.countP fun other => evidenceGroup L other.toTypedRow = evidenceGroup L row

/-- One row of the ranking; none where its group is full. -/
def Selection.rank (answerBearing mandatoryConflicts : List String) (s : Selection)
    (index : ℕ) (row : Nominee) : Except Raised (Option Ranked) :=
  if evidenceGroupLimit L row.toTypedRow ≤ s.groupCount L row.toTypedRow ∧
      row.recordId ∉ mandatoryConflicts then .ok none
  else do
    let slots ← coveredSlots L row.unit
    let obligations := matchingObligationIndexes L need row.unit
    let sources := (row.unit.val.evidence.map (·.val.sourceId)).toFinset
    let newSlots : ℤ := ((slots ∩ need.val.requiredSlots.toFinset) \ s.covered).card
    let newObligations : ℤ := (obligations \ s.coveredObligations).card
    let diversity : ℤ := (sources \ s.usedSources).card
    let groupDiversity : ℤ := if s.groupCount L row.toTypedRow = 0 then 1 else 0
    let size := estimatedUnitBytes row.unit
    let priority : ℤ := -(if row.rank = 0 then index + 1 else row.rank : ℕ)
    let answerPriority : ℤ := if row.recordId ∈ answerBearing then 1 else 0
    -- the strongest seed first; after it what complements it
    let key := if s.chosen = [] then
        [priority, answerPriority, newObligations, newSlots, groupDiversity, diversity, -size,
          -index]
      else [newObligations, answerPriority, newSlots, groupDiversity, priority, diversity, -size,
        -index]
    .ok (some ⟨key, index, row, size, slots, sources, obligations⟩)

/-- `max(ranked, key=...)`: the first of the greatest. -/
def best : List Ranked → Option Ranked
  | [] => none
  | r :: rs => some (rs.foldl (fun top r => if top.key < r.key then r else top) r)

/-- The row is taken off, and chosen where it fits. -/
def Selection.take (s : Selection) (best : Ranked) (contextBytes : ℕ) : Selection × Bool :=
  let size := best.size + 96
  let s := { s with remaining := s.remaining.eraseIdx best.index }
  if contextBytes < s.approximateBytes + size then (s, false)
  else ({ s with
    chosen := s.chosen ++ [best.row]
    approximateBytes := s.approximateBytes + size
    covered := s.covered ∪ (best.slots ∩ need.val.requiredSlots.toFinset)
    coveredObligations := s.coveredObligations ∪ best.obligations
    usedSources := s.usedSources ∪ best.sources }, true)

/-- One round of the loop, and whether it goes on. -/
def Selection.round (answerBearing mandatoryConflicts : List String) (contextBytes : ℕ)
    (s : Selection) : Except Raised (Selection × Bool) := do
  let ranked ← s.remaining.zipIdx.mapM fun entry =>
    s.rank L need answerBearing mandatoryConflicts entry.2 entry.1
  match best ranked.reduceOption with
  | none => .ok (s, false)
  | some top =>
    let (s, fits) := s.take need top contextBytes
    if fits then
      let decision ← decide L H (clock (.choosing s.chosen.length)) need s.chosen
      .ok (s, ¬ (decision.val.status = .sufficient ∧
        ∀ id ∈ mandatoryConflicts, id ∈ idsOf s.chosen))
    else .ok (s, true)

/-- `_MAX_CONTEXT_UNITS`. -/
def maxContextUnits : ℕ := 12

/-- The loop: a round takes one row off, so there are no more rounds than
rows. -/
def Selection.run (answerBearing mandatoryConflicts : List String) (contextBytes : ℕ) :
    ℕ → Selection → Except Raised Selection
  | 0, s => .ok s
  | rounds + 1, s =>
    if s.remaining = [] ∨ maxContextUnits ≤ s.chosen.length then .ok s
    else do
      let (s, goesOn) ← s.round L H clock need answerBearing mandatoryConflicts contextBytes
      if goesOn then s.run answerBearing mandatoryConflicts contextBytes rounds else .ok s

/-- The order the nominees are considered in: what bears on the answer, then
the rank, then the id. -/
def comesFirst (answerBearing : List String) (count : ℕ) (a b : Nominee) : Bool :=
  let group (row : Nominee) : ℕ := if row.recordId ∈ answerBearing then 0 else 1
  let rank (row : Nominee) : ℕ := if row.rank = 0 then count + 1 else row.rank
  group a < group b || (group a = group b &&
    (rank a < rank b || (rank a = rank b && Decidable.decide (a.recordId ≤ b.recordId))))

/-- `_complementary_rows`. -/
def complementaryRows (rows : List Nominee) (contextBytes : ℕ) :
    Except Raised (List Nominee) := do
  let full ← decide L H (clock .nominees) need rows
  let answerBearing := full.val.evidenceIds ++ full.val.contradictionIds
  let remaining := rows.insertionSort fun a b => comesFirst answerBearing rows.length a b = true
  let mandatoryConflicts := conflictEvidenceIds L rows full.val.contradictionIds
  let s ← Selection.run L H clock need answerBearing mandatoryConflicts contextBytes rows.length
    { remaining := remaining }
  .ok s.chosen

end Choosing

/-! ## What is written -/

/-- `html.escape`. -/
def htmlEscape (text : String) : String :=
  String.ofList (text.toList.flatMap fun c =>
    if c = '&' then "&amp;".toList else if c = '<' then "&lt;".toList
    else if c = '>' then "&gt;".toList else if c = '"' then "&quot;".toList
    else if c = '\'' then "&#x27;".toList else [c])

/-- A rule that applies to what is about to be done. -/
structure ActionConstraintFields where
  subject : String
  appliesWhen : String
  sourceIds : List String
  validity : String
  requiredAction : Option String := none
  prohibitedAction : Option String := none

/-- `ActionConstraint.__post_init__`. -/
def ActionConstraintFields.postInit (f : ActionConstraintFields) : Except String Unit := do
  ensure (f.requiredAction.all (strip · ≠ [])) "required_action cannot be blank"
  ensure (f.prohibitedAction.all (strip · ≠ [])) "prohibited_action cannot be blank"
  ensure (truthy f.requiredAction ∨ truthy f.prohibitedAction)
    "action constraint requires a required or prohibited action"
  ensure (f.sourceIds ≠ []) "action constraint requires source evidence"
  ensure (f.validity ∈ ["current", "historical", "uncertain"])
    "action constraint validity is invalid"

/-- A constraint that passed its checks. -/
abbrev ActionConstraint := {f : ActionConstraintFields // f.postInit = .ok ()}

/-- `_action_constraint`. -/
def actionConstraint (row : Nominee) (status : SufficiencyStatus) :
    Except Raised (Option ActionConstraint) :=
  let constraint (condition : String) (required prohibited : Option String) :=
    (Checked.make ActionConstraintFields.postInit {
      subject := "governing memory rule"
      appliesWhen := condition
      sourceIds := row.unit.val.evidence.map (·.val.sourceId)
      validity := "current"
      requiredAction := required
      prohibitedAction := prohibited }).map some
  if status ≠ .sufficient then .ok none
  else match row.unit.val.payload with
    | .durableRule condition required prohibited _ =>
      (constraint condition required prohibited).mapError .valueError
    | .failureGotcha trigger _ required prohibited =>
      (constraint trigger required prohibited).mapError .valueError
    | _ => .ok none

/-- The constraints of several rows. -/
def actionConstraints (rows : List Nominee) (status : SufficiencyStatus) :
    Except Raised (List ActionConstraint) :=
  return (← rows.mapM fun row => actionConstraint row status).reduceOption

/-- `_evidence_guidance`. -/
def evidenceGuidance (need : InformationNeed) : List String :=
  "Use only observed evidence; do not substitute common product practice." ::
    match need.val.type with
    | .stateChange =>
      ["A visible field or possible value is not a transition.",
        "Report a change only when an action or before/after evidence records it; " ++
          "otherwise report that no change is evidenced."]
    | .exceptionRisk =>
      ["Prefer a later observed recovery or outcome over an earlier preview or " ++
          "screenshot hypothesis.",
        "A visible control is not proof that invoking it was the missing action."]
    | .assumptionCheck =>
      ["Treat the entities asserted by the question as a premise to verify, not as facts.",
        "A complete relevant result surface can disprove the premise; " ++
          "a partial surface can only leave it unsupported."]
    | _ => []

section Writing

variable (L : Language) (project : Projection)

/-- `_unit_text`. -/
def unitText (focusTerms : List String) (unit : MemoryUnit) : String :=
  let joined (values : List String) : String :=
    if ", ".intercalate values = "" then "none recorded" else ", ".intercalate values
  match unit.val.payload with
  | .atomicFact subject relation val polarity =>
    subject ++ " " ++ relation ++ ": " ++ val ++ " (" ++ value polarity ++ ")"
  | .environmentState entity relation val polarity =>
    entity ++ " " ++ relation ++ ": " ++
      project val (relation = "accessibility_tree") focusTerms ++ " (" ++ value polarity ++ ")"
  | .stateTransition entity _ before action after _ =>
    entity ++ " " ++ before ++ " --" ++ action ++ "--> " ++ after
  | .procedure goal steps prerequisites completionEvidence failureConditions =>
    "Goal: " ++ goal ++ "; Prerequisites: " ++ joined prerequisites ++ "; Steps: " ++
      "; ".intercalate (steps.map fun step => toString step.ordinal ++ ". " ++ step.instruction ++
        (if truthy step.condition then " when " ++ str step.condition else "")) ++
      "; Completion evidence: " ++ joined completionEvidence ++
      "; Failure conditions: " ++ joined failureConditions
  | .durableRule condition requiredAction prohibitedAction exceptions =>
    "When " ++ condition ++ "; required=" ++ str requiredAction ++ "; prohibited=" ++
      str prohibitedAction ++ "; exceptions=" ++ L.strValue (.strings exceptions)
  | .failureGotcha trigger failure requiredAction prohibitedAction =>
    "When " ++ trigger ++ "; failure=" ++ failure ++ "; required=" ++ str requiredAction ++
      "; prohibited=" ++ str prohibitedAction
  | .premiseConstraint proposition polarity appliesWhen excludedWhen =>
    "Premise (" ++ value polarity ++ "): " ++ proposition ++ "; applies=" ++ str appliesWhen ++
      "; excluded=" ++ str excludedWhen

/-- The lines before the rows. -/
def header (need : InformationNeed) (sufficiency : SufficiencyDecision) : String :=
  "<atmem-context format=\"v2\">\n" ++
    "<need type=\"" ++ htmlEscape (value need.val.type) ++ "\" sufficiency=\"" ++
      value sufficiency.val.status ++ "\">\n" ++
    "Required evidence: " ++ ", ".intercalate need.val.requiredSlots ++ "\n" ++
    (if sufficiency.val.missingSlots = [] then ""
      else "Missing evidence: " ++ ", ".intercalate sufficiency.val.missingSlots ++ "\n") ++
    "</need>\n<evidence-policy>\n" ++
    String.join ((evidenceGuidance need).map fun item => "- " ++ htmlEscape item ++ "\n") ++
    "</evidence-policy>\n"

/-- The line after them. -/
def closing : String := "</atmem-context>\n"

/-- The block of a row. -/
def memoryBlock (need : InformationNeed) (row : Nominee) : String :=
  "<memory id=\"" ++ htmlEscape row.recordId ++ "\" kind=\"" ++
    htmlEscape (value row.unit.val.kind) ++ "\">\n" ++
    htmlEscape (unitText L project need.val.evidenceTerms row.unit) ++ "\n" ++
    "Sources: " ++
      ", ".intercalate (row.unit.val.evidence.map fun item => htmlEscape item.val.sourceId) ++
    "\n</memory>\n"

/-- The block of a constraint. -/
def constraintBlock (constraint : ActionConstraint) : String :=
  let line (label : String) (action : Option String) : String :=
    if truthy action then label ++ htmlEscape (str action) ++ "\n" else ""
  "<action-constraint>\nApplies when: " ++ htmlEscape constraint.val.appliesWhen ++ "\n" ++
    line "Required action: " constraint.val.requiredAction ++
    line "Prohibited action: " constraint.val.prohibitedAction ++ "</action-constraint>\n"

/-- What `_serialize` returns. -/
structure Serialized where
  context : String
  rows : List Nominee
  constraints : List ActionConstraint

/-- `_serialize`: rows and then constraints are added while what is
written, with the closing, fits. -/
def serialize (need : InformationNeed) (sufficiency : SufficiencyDecision) (rows : List Nominee)
    (constraints : List ActionConstraint) (budget : ℕ) : Serialized :=
  let used := (header need sufficiency).utf8ByteSize + closing.utf8ByteSize
  let rowBytes (row : Nominee) := (memoryBlock L project need row).utf8ByteSize
  let packed := firstFit rowBytes budget used rows
  let packedConstraints := firstFit (fun constraint => (constraintBlock constraint).utf8ByteSize)
    budget (used + total rowBytes packed) constraints
  { context := header need sufficiency ++
      String.join (packed.map (memoryBlock L project need)) ++
      String.join (packedConstraints.map constraintBlock) ++ closing
    rows := packed
    constraints := packedConstraints }

end Writing

/-! ## The package -/

/-- The part of `RetrievalBudget` that is spent here. -/
structure RetrievalBudget where
  contextBytes : ℕ
deriving DecidableEq

/-- The span of a source that a row comes from. -/
structure Provenance where
  recordId : String
  sourceId : String
  startOffset : ℕ
  endOffset : ℕ
  excerptSha256 : String
deriving DecidableEq

/-- A picture or a file beside a source. -/
structure MediaReference where
  referenceId : String
  adjacentSourceId : String
deriving DecidableEq

/-- The fields of a package of context. -/
structure ContextPackageFields where
  contextId : String
  scope : AuthorityScope
  recordIds : List String
  context : String
  contextSha256 : String
  serializerVersion : String
  generation : ℤ
  expiresAt : Instant
  preparationId : String
  profileId : String
  need : InformationNeed
  sufficiency : SufficiencyDecision
  sourceIds : List String
  budget : RetrievalBudget
  selectedUnits : List MemoryUnit
  provenance : List Provenance
  excludedEvidenceIds : List String
  actionConstraints : List ActionConstraint := []
  reasonCodes : List String := []
  mediaReferences : List MediaReference := []

/-- `ContextPackageV2.__post_init__`; an expiry that is an instant names a
time. -/
def ContextPackageFields.postInit (H : Hashing) (f : ContextPackageFields) :
    Except String Unit := do
  requireDigest "context_sha256" f.contextSha256
  ensure (f.contextSha256 = "sha256:" ++ H.sha256Hex f.context)
    "context_sha256 does not match context"
  ensure (0 ≤ f.generation) "context generation cannot be negative"
  ensure (f.context.utf8ByteSize ≤ f.budget.contextBytes)
    "context exceeds the declared byte budget"
  ensure (f.need.val.needId = f.sufficiency.val.needId)
    "context need and sufficiency decision differ"
  ensure (f.need.val.requiredSlots ⊆ f.sufficiency.val.requiredSlots ∧
      f.sufficiency.val.requiredSlots ⊆ f.need.val.requiredSlots)
    "context need and sufficiency slots differ"
  ensure (f.sufficiency.val.evidenceIds ⊆ f.recordIds)
    "supporting evidence must be selected in the context package"
  ensure (∀ id ∈ f.excludedEvidenceIds, id ∉ f.recordIds)
    "evidence cannot be both selected and excluded"
  ensure (∀ row ∈ f.provenance, row.recordId ∈ f.recordIds ∧ row.sourceId ∈ f.sourceIds)
    "context provenance must refer to selected records and sources"
  ensureAll (fun constraint : ActionConstraint => do
    ensure (constraint.val.sourceIds ⊆ f.sourceIds)
      "action constraint sources must belong to the package"
    ensure (constraint.val.validity = "current" → f.sufficiency.val.status = .sufficient)
      "only sufficient context may claim a current action constraint") f.actionConstraints
  ensureAll (fun reference : MediaReference => do
    ensure (strip reference.referenceId ≠ []) "context media reference requires reference_id"
    ensure (reference.adjacentSourceId ∈ f.sourceIds)
      "context media reference must be adjacent to a selected source") f.mediaReferences
  ensure (f.sufficiency.val.status = .unsupported →
      f.recordIds = [] ∧ f.context = "" ∧ f.actionConstraints = [])
    "unsupported context cannot deliver records, text or constraints"

/-- A package that passed its checks. -/
abbrev ContextPackage (H : Hashing) := {f : ContextPackageFields // f.postInit H = .ok ()}

/-- `_unsupported_decision`. -/
def unsupportedDecision (H : Hashing) (need : InformationNeed) (reason : String) :
    Except Raised SufficiencyDecision :=
  (Checked.make SufficiencyDecisionFields.postInit {
    decisionId := "sufficiency-" ++
      String.ofList ((H.sha256Hex (need.val.needId ++ ":" ++ reason)).toList.take 24)
    needId := need.val.needId
    status := .unsupported
    requiredSlots := need.val.requiredSlots
    coveredSlots := []
    missingSlots := need.val.requiredSlots
    evidenceIds := []
    reasonCodes := [reason] }).mapError .valueError

/-- `_fallback_decision`. -/
def fallbackDecision (H : Hashing) (need : InformationNeed) (rows : List Nominee) :
    Except Raised SufficiencyDecision :=
  let evidenceIds := (idsOf rows).eraseDups
  (Checked.make SufficiencyDecisionFields.postInit {
    decisionId := "sufficiency-" ++ String.ofList
      ((H.sha256Hex (need.val.needId ++ ":" ++ "|".intercalate evidenceIds)).toList.take 24)
    needId := need.val.needId
    status := .partly
    requiredSlots := need.val.requiredSlots
    coveredSlots := []
    missingSlots := need.val.requiredSlots
    evidenceIds := evidenceIds
    reasonCodes := ["authorized_lexical_fallback_unverified"] }).mapError .valueError

/-- What is said of the rows that are held, which `own` is the decision on:
a contradiction among all rows is said where its evidence is held, and
otherwise nothing is supported. -/
def judge (H : Hashing) (need : InformationNeed) (full : SufficiencyDecision)
    (conflictEvidence : List String) (held : List Nominee) (own : SufficiencyDecision) :
    Except Raised SufficiencyDecision :=
  if full.val.status = .contradictory then
    if ∀ id ∈ conflictEvidence, id ∈ idsOf held then .ok full
    else unsupportedDecision H need "known_conflict_did_not_fit_context_budget"
  else if own.val.status = .unsupported ∧ held ≠ [] then fallbackDecision H need held
  else .ok own

/-- What the caller names the package by. -/
structure Naming where
  contextId : String
  scope : AuthorityScope
  profileId : String
  generation : ℤ
  preparationId : String

section Assembling

variable (L : Language) (H : Hashing) (project : Projection) (clock : Reading → Instant)
variable (need : InformationNeed) (naming : Naming) (budget : RetrievalBudget)

/-- Two minutes on. -/
def expiresAt : Instant := clock .expiry + 120000000

/-- `_unsupported_package`. -/
def unsupportedPackage (sufficiency : SufficiencyDecision) (rows : List Nominee) :
    Except Raised (ContextPackage H) :=
  (Checked.make (ContextPackageFields.postInit H) {
    contextId := naming.contextId
    scope := naming.scope
    recordIds := []
    context := ""
    contextSha256 := "sha256:" ++ H.sha256Hex ""
    serializerVersion := "atmem-context-structured-v2"
    generation := naming.generation
    expiresAt := expiresAt clock
    preparationId := naming.preparationId
    profileId := naming.profileId
    need := need
    sufficiency := sufficiency
    sourceIds := []
    budget := budget
    selectedUnits := []
    provenance := []
    excludedEvidenceIds := idsOf rows
    reasonCodes := ["no_context_injected_without_support"] }).mapError .valueError

/-- The provenance of a row: every span of its unit. -/
def provenanceOf (row : Nominee) : List Provenance :=
  row.unit.val.evidence.map fun evidence =>
    ⟨row.recordId, evidence.val.sourceId, evidence.val.startOffset, evidence.val.endOffset,
      evidence.val.excerptSha256⟩

/-- The package of what was written, which describes the rows `held`. -/
def supportedPackage (sufficiency : SufficiencyDecision) (rows held : List Nominee)
    (written : Serialized) : Except Raised (ContextPackage H) :=
  (Checked.make (ContextPackageFields.postInit H) {
    contextId := naming.contextId
    scope := naming.scope
    recordIds := idsOf written.rows
    context := written.context
    contextSha256 := "sha256:" ++ H.sha256Hex written.context
    serializerVersion := "atmem-context-structured-v2"
    generation := naming.generation
    expiresAt := expiresAt clock
    preparationId := naming.preparationId
    profileId := naming.profileId
    need := need
    sufficiency := sufficiency
    sourceIds := (held.flatMap fun row => row.unit.val.evidence.map (·.val.sourceId)).eraseDups
    budget := budget
    selectedUnits := held.map (·.unit)
    provenance := held.flatMap provenanceOf
    excludedEvidenceIds := (idsOf rows).filter (· ∉ idsOf written.rows)
    actionConstraints := written.constraints
    reasonCodes := ["coverage_first_packing"] }).mapError .valueError

/-- What is written of the rows that are held. -/
def write (sufficiency : SufficiencyDecision) (held : List Nominee) : Except Raised Serialized :=
  return serialize L project need sufficiency held
    (← actionConstraints held sufficiency.val.status) budget.contextBytes

/-- `assemble_context_v2`. -/
def assembleContextV2 (rows : List Nominee) : Except Raised (ContextPackage H) := do
  let chosen ← complementaryRows L H clock need rows budget.contextBytes
  let full ← decide L H (clock .all) need rows
  let own ← decide L H (clock .chosen) need chosen
  let conflictEvidence := conflictEvidenceIds L rows full.val.contradictionIds
  let sufficiency ← judge H need full conflictEvidence chosen own
  if sufficiency.val.status = .unsupported then
    unsupportedPackage H clock need naming budget sufficiency rows
  else
    let written ← write L project need budget sufficiency chosen
    if idsOf written.rows = idsOf chosen then
      supportedPackage H clock need naming budget sufficiency rows chosen written
    else
      -- what did not fit is not held: what is held is judged and written again
      let held := chosen.filter (·.recordId ∈ idsOf written.rows)
      let own ← decide L H (clock .packed) need held
      let sufficiency ← judge H need full conflictEvidence held own
      if sufficiency.val.status = .unsupported then
        unsupportedPackage H clock need naming budget sufficiency rows
      else
        let rewritten ← write L project need budget sufficiency held
        supportedPackage H clock need naming budget sufficiency rows held rewritten

end Assembling

end Atmem.Assembly
