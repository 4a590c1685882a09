import Atmem.Common.Occurrence
import Atmem.Memory.Model.Extraction
/-!
# Proposers

What is proposed of a source: by the rules, which read at most one fact out
of a message, and from what a model returns, each of whose facts is looked
for in the message. Either way a proposal cites one span of the source.
-/

namespace Atmem.Memory

/-! ## Patterns -/

/-- What `_parse_statement` reads. -/
structure Statement where
  content : String
  factKey : Option String
  confidence : Confidence
  sourceText : String
deriving DecidableEq

/-- The patterns over text, and the readers of a value a model returns. -/
structure Patterns where
  /-- `_parse_statement`. -/
  parseStatement : String → Option Statement
  /-- `_embedded_body`. -/
  embeddedBody : String → String
  /-- `is_forget_request`. -/
  isForgetRequest : String → Bool
  /-- `classify_memory_class`. -/
  memoryClass : String → MemoryClass
  /-- `_CORRECTION_RE.search`. -/
  correction : String → Bool
  /-- `_THIRD_PERSON_RE.search`. -/
  thirdPerson : String → Bool
  /-- `_OBJECT_RE.search`. -/
  objectReference : String → Bool
  /-- `str(value)`. -/
  text : Json → String
  /-- `float(value)`, where that is a finite number. -/
  number : Json → Option Confidence

/-- The source a proposal is made of, and what it may be resolved against:
the context, and the owners that are named in its window. -/
structure Reading where
  message : String
  scope : AuthorityScope
  sourceId : String
  context : ResolutionContext
  owners : List String := []

/-! ## Classification -/

/-- What one candidate would do. -/
structure Classification where
  action : ProposalAction
  memoryClass : MemoryClass
  reasonCodes : List String
  affectedRecordIds : List String := []
  preconditions : List ProposalPrecondition := []
  reviewRequired : Bool := false

/-- `eligible_records_for_fact_key`. -/
def ResolutionContext.eligibleForFactKey (context : ResolutionContext) (factKey : Option String) :
    List RecordRow :=
  if truthy factKey then context.records.filter (·.factKey = factKey) else []

/-- `context.resolve(text).ambiguous`. -/
def Reading.ambiguous (P : Patterns) (r : Reading) (text : String) : Bool :=
  if P.thirdPerson text then 1 < r.owners.eraseDups.length
  else P.objectReference text &&
    1 < ((r.context.records.map (·.factKey)).filter truthy).eraseDups.length

/-- `_is_refinement`. -/
def isRefinement (U : UnicodeTables) (existing candidate : String) : Bool :=
  let tokens := fun text => Occurrence.words isSpace (normalizeContent U text).toList
  tokens existing ≠ [] && (tokens existing).length < (tokens candidate).length &&
    (tokens existing).isSublist (tokens candidate)

/-- `classify_candidate`. -/
def classifyCandidate (E : Engine) (P : Patterns) (r : Reading) (fact : String)
    (factKey : Option String) (sourceText : String) : Except String Classification :=
  let inferred := P.memoryClass r.message
  let nonDurable : Bool := inferred ≠ .durableFact
  if inferred = .nonMemory then
    .ok { action := .reject, memoryClass := inferred, reasonCodes := ["non_memory_content"] }
  else if r.ambiguous P sourceText then
    .ok { action := .reject, memoryClass := inferred, reasonCodes := ["ambiguous_referent"]
          reviewRequired := true }
  else match r.context.records.find? fun row =>
      normalizeContent E.unicode row.content = normalizeContent E.unicode fact with
  | some row =>
    .ok { action := .noop, memoryClass := inferred, reasonCodes := ["duplicate_of_active_record"]
          affectedRecordIds := [row.id] }
  | none =>
    match r.context.eligibleForFactKey factKey with
    | [] =>
      .ok { action := .add, memoryClass := inferred
            reasonCodes := (if truthy factKey then ["new_fact_for_slot"] else ["new_unkeyed_fact"]) ++
              if nonDurable then ["non_durable_class_requires_review"] else []
            reviewRequired := nonDurable }
    | conflicts => do
      let preconditions ← conflicts.mapM (pin E)
      let affectedRecordIds := conflicts.map (·.id)
      if conflicts.all fun row => isRefinement E.unicode row.content fact then
        pure { action := .update, memoryClass := inferred
               reasonCodes := ["refines_current_value"], affectedRecordIds, preconditions
               reviewRequired := nonDurable }
      else
        pure { action := .supersede, memoryClass := inferred
               reasonCodes := if P.correction r.message then ["explicit_correction"]
                 else ["contradicts_current_value"]
               affectedRecordIds, preconditions, reviewRequired := nonDurable }

/-! ## Proposals -/

/-- What a proposal says beside the span it cites. -/
structure Draft where
  action : ProposalAction
  memoryClass : MemoryClass
  reasonCodes : List String
  confidence : Confidence
  fact : Option String := none
  factKey : Option String := none
  affectedRecordIds : List String := []
  preconditions : List ProposalPrecondition := []
  reviewRequired : Bool := false

/-- `text[start:stop]`. -/
def slice (text : String) (start stop : ℕ) : String :=
  String.ofList ((text.toList.drop start).take (stop - start))

/-- `_outcome`. -/
def outcome (E : Engine) (r : Reading) (span : Option (ℕ × ℕ)) (draft : Draft) :
    Except String ExtractionProposal := do
  -- a span has one character at least
  let text := if r.message = "" then " " else r.message
  let start := (span.getD (0, text.length)).1
  let stop := max (span.getD (0, text.length)).2 (start + 1)
  let excerpt := slice text start stop
  let evidence ← ProposalEvidence.make
    { sourceId := r.sourceId, sourceSha256 := E.sha256 r.message, startOffset := start
      endOffset := stop, excerptSha256 := E.sha256 (if excerpt = "" then text else excerpt) }
  let identity := E.hashing.sha256Hex (Json.obj [("scope", r.scope.toDict),
    ("source_id", .str r.sourceId), ("span", .arr [.int start, .int stop]),
    ("action", .str (value draft.action)), ("fact", .ofOption .str draft.fact),
    ("fact_key", .ofOption .str draft.factKey)]).canonicalJson
  ExtractionProposal.make
    { proposalId := "prop_" ++ String.ofList (identity.toList.take 32)
      idempotencyKey := "sha256:" ++ identity, scope := r.scope, action := draft.action
      memoryClass := draft.memoryClass, confidence := draft.confidence
      reasonCodes := if draft.reasonCodes = [] then ["unspecified"] else draft.reasonCodes
      evidence := [evidence], fact := draft.fact, factKey := draft.factKey
      affectedRecordIds := draft.affectedRecordIds, preconditions := draft.preconditions
      reviewRequired := draft.reviewRequired }

/-- The whole of a source. -/
def Reading.whole (r : Reading) : Option (ℕ × ℕ) :=
  if r.message = "" then none else some (0, r.message.length)

/-- `0.0`. -/
def noConfidence : Confidence := ⟨0, "0.0"⟩

/-- `_refusal`. -/
def refusal (E : Engine) (r : Reading) (reasonCodes : List String) :
    Except String ExtractionProposal :=
  outcome E r r.whole
    { action := .reject, memoryClass := .nonMemory, reasonCodes, confidence := noConfidence }

/-- Nothing to remember. -/
def noClaim (E : Engine) (r : Reading) (reasonCodes : List String) :
    Except String ExtractionProposal :=
  outcome E r r.whole
    { action := .noop, memoryClass := .nonMemory, reasonCodes, confidence := noConfidence }

/-- `_build`: what is refused carries no fact. -/
def build (E : Engine) (r : Reading) (span : Option (ℕ × ℕ)) (fact : String)
    (factKey : Option String) (classification : Classification) (confidence : Confidence)
    (extraReasons : List String) (reviewRequired : Bool) : Except String ExtractionProposal :=
  outcome E r span
    { action := classification.action, memoryClass := classification.memoryClass
      reasonCodes := (classification.reasonCodes ++ extraReasons).eraseDups, confidence
      fact := if classification.action = .reject then none else some fact, factKey
      affectedRecordIds := classification.affectedRecordIds
      preconditions := classification.preconditions, reviewRequired }

/-! ## Rules -/

/-- `CandidateFact`, with the text it was read from and where that stands. -/
structure Candidate where
  content : String
  confidence : Confidence
  trustTier : TrustTier
  factKey : Option String
  sourceText : String
  sourceSpan : Option (ℕ × ℕ)
deriving DecidableEq

/-- The floating-point number `0.3`. -/
def untrustedConfidence : Confidence := ⟨5404319552844595 / 18014398509481984, "0.3"⟩

/-- `_span_in`. -/
def spanIn (origin sourceText : String) : Option (ℕ × ℕ) :=
  if sourceText = "" then none
  else (Occurrence.find sourceText.toList origin.toList).map fun start =>
    (start, start + sourceText.length)

/-- `_candidates_from_text`. -/
def candidatesFromText (P : Patterns) (text sourceType origin : String) : List Candidate :=
  let trustTier := trustTierForSource sourceType
  match P.parseStatement text with
  | none => []
  | some s =>
    [{ content := s.content
       confidence := if initialStatus trustTier ≠ .active ∧
           untrustedConfidence.value < s.confidence.value then untrustedConfidence
         else s.confidence
       trustTier, factKey := s.factKey, sourceText := s.sourceText
       sourceSpan := spanIn origin s.sourceText }]

/-- `extract_facts`. -/
def extractCandidates (E : Engine) (P : Patterns) (message : String) (sourceType : Option String) :
    List Candidate :=
  let source := if truthy sourceType then str sourceType else E.classifySource message
  if source ≠ "user_message" then
    let body := P.embeddedBody message
    if body = "" then [] else candidatesFromText P body source message
  else if P.isForgetRequest message then []
  else candidatesFromText P message source message

/-- `_from_candidate`. -/
def fromCandidate (E : Engine) (P : Patterns) (r : Reading) (extraReasons : List String)
    (candidate : Candidate) : Except String ExtractionProposal := do
  let sourceText := if candidate.sourceText = "" then r.message else candidate.sourceText
  let classification ← classifyCandidate E P r candidate.content candidate.factKey sourceText
  let untrusted : Bool := candidate.trustTier ≠ .trustedUser
  build E r (candidate.sourceSpan.or r.whole) candidate.content candidate.factKey classification
    candidate.confidence
    (extraReasons ++ reasonIf untrusted "untrusted_source_requires_review" ++
      reasonIf candidate.sourceSpan.isNone "evidence_span_unavailable")
    (classification.reviewRequired || untrusted)

/-- `propose_from_rules`. -/
def proposeFromRules (E : Engine) (P : Patterns) (r : Reading) (sourceType : Option String)
    (fallbackReason : Option String) : Except String (List ExtractionProposal) :=
  let extra := if truthy fallbackReason then [str fallbackReason] else []
  let screening := E.screen false r.message
  if screening ≠ [] then (fun p => [p]) <$> refusal E r (screening ++ extra)
  else match extractCandidates E P r.message sourceType with
  | [] => (fun p => [p]) <$> noClaim E r ("no_extractable_claim" :: extra)
  | candidates => candidates.mapM (fromCandidate E P r extra)

/-! ## Model output -/

/-- A row a model returns, read by its fields. -/
structure FactRow where
  fact : Json
  confidence : Json
  factKey : Json
  sensitivity : Json
deriving DecidableEq

/-- The longest fact that is proposed. -/
def maxFactLength : ℕ := 2000

/-- `" ".join(str(value or "").split())`. -/
def FactRow.factText (P : Patterns) (row : FactRow) : String :=
  let raw := if row.fact.truthy then P.text row.fact else ""
  " ".intercalate ((Occurrence.words isSpace raw.toList).map String.ofList)

/-- `_confidence`. -/
def FactRow.confidenceOf (P : Patterns) (row : FactRow) : Option Confidence :=
  (P.number row.confidence).filter fun c => 0 ≤ c.value ∧ c.value ≤ 1

/-- A character of a token that is looked for. -/
def isSupportChar (c : Char) : Bool :=
  ('a' ≤ c && c ≤ 'z') || c.isDigit || c ∈ ['@', '.', '+', '_', '-']

/-- The tokens of a fact that are looked for. -/
def supportTokens (U : UnicodeTables) (fact : String) : List (List Char) :=
  (runs isSupportChar (U.casefold fact).toList).filter (3 ≤ ·.length)

/-- Where the tokens that are found stand. -/
def foundTokens (U : UnicodeTables) (message fact : String) : List (ℕ × ℕ) :=
  (supportTokens U fact).filterMap fun token =>
    (Occurrence.find token (U.casefold message).toList).map fun position =>
      (position, position + token.length)

/-- `_support_span`: where the fact stands in the folded message, or where
at least half of its tokens do. -/
def supportSpan (U : UnicodeTables) (message fact : String) : Option (ℕ × ℕ) :=
  if message = "" ∨ fact = "" then none
  else match Occurrence.find (U.casefold fact).toList (U.casefold message).toList with
  | some direct => some (direct, direct + fact.length)
  | none =>
    let tokens := supportTokens U fact
    let found := foundTokens U message fact
    if tokens = [] ∨ found.length < max 1 ((tokens.length + 1) / 2) then none
    else match (found.map (·.1)).min?, (found.map (·.2)).max? with
    | some start, some stop => some (start, stop)
    | _, _ => none

/-- What is proposed of a row. -/
def fromRow (E : Engine) (P : Patterns) (r : Reading) (row : FactRow) :
    Except String ExtractionProposal :=
  let fact := row.factText P
  match row.confidenceOf P with
  | none => refusal E r ["malformed_model_output"]
  | some confidence =>
    if fact = "" ∨ maxFactLength < fact.length then refusal E r ["malformed_model_output"]
    else if E.screen false fact ≠ [] then refusal E r (E.screen false fact)
    else match supportSpan E.unicode r.message fact with
    | none => refusal E r ["unsupported_by_source"]
    | some span => do
      -- a key that cannot be read is no key
      let factKey := match canonicalizeFactKey E.unicode
          (if row.factKey = .null then none else some (P.text row.factKey)) with
        | .ok factKey => factKey
        | .error _ => none
      let classification ← classifyCandidate E P r fact factKey (slice r.message span.1 span.2)
      let sensitivity := if row.sensitivity.truthy then P.text row.sensitivity else "personal"
      let sensitive : Bool := sensitivity ∈ ["sensitive", "restricted"]
      build E r (some span) fact factKey classification confidence
        ("model_interpreted" :: reasonIf sensitive "sensitive_content_requires_review")
        (classification.reviewRequired || sensitive)

/-- `propose_from_atbot`. -/
def proposeFromAtbot (E : Engine) (P : Patterns) (r : Reading) (facts : List FactRow) :
    Except String (List ExtractionProposal) :=
  if E.screen false r.message ≠ [] then
    (fun p => [p]) <$> refusal E r (E.screen false r.message)
  else if facts = [] then (fun p => [p]) <$> noClaim E r ["model_returned_no_claim"]
  else facts.mapM (fromRow E P r)

end Atmem.Memory
