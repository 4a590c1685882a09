import Mathlib.Data.Int.Notation
import Mathlib.Data.List.Basic
import Mathlib.Data.List.Sort
import Mathlib.Data.Rat.Floor
import Mathlib.Data.String.Basic
import Mathlib.Order.Lattice
import Atmem.Common.Rounding
import Atmem.Core.Policy
/-!
# What is retrieved

The decision on a query's candidates. What a candidate is relevant by is
computed of the query, its content, its fact key and the similarity it was
found with, a concept of the query being met by one that is a typo away;
where it came from, whom it is trusted by and how recent it is rank it.
Numbers are exact.
-/

namespace Atmem.Retrieve

/-! ## Typos -/

/-- `for right_index, right_char in enumerate(right, start=1)`, from the cell
before and what is left of the row above. -/
def rowCells (leftChar : Char) : ℕ → List ℕ → List Char → List ℕ
  | last, diagonal :: above :: previous, rightChar :: right =>
    let cell := min (min (last + 1) (above + 1)) (diagonal + if leftChar ≠ rightChar then 1 else 0)
    cell :: rowCells leftChar cell (above :: previous) right
  | _, _, _ => []

/-- `for left_index, left_char in enumerate(left, start=1)`, from a row on. -/
def typoRows (budget : ℕ) (right : List Char) : ℕ → List ℕ → List Char → Bool
  | _, previous, [] => (previous.getLast?).any (· ≤ budget)
  | leftIndex, previous, leftChar :: left =>
    let current := leftIndex :: rowCells leftChar leftIndex previous right
    if (current.min?).any (budget < ·) then false
    else typoRows budget right (leftIndex + 1) current left

/-- `_within_typo_budget`. -/
def withinTypoBudget (left right : String) : Bool :=
  if left = right then true
  else
    let left := left.toList
    let right := right.toList
    if min left.length right.length < 5 then false
    else
      let budget := if max left.length right.length ≥ 7 then 2 else 1
      if (left.length - right.length : ℤ).natAbs > budget then false
      else typoRows budget right 1 (List.range (right.length + 1)) left

end Atmem.Retrieve

namespace Atmem.Retrieve

/-! ## Values -/

/-- What a float is. -/
inductive Number
  | finite (q : ℚ)
  | infinity
  | minusInfinity
  | nan

/-- A value of a candidate's dictionary. -/
inductive Value
  | none
  | bool (b : Bool)
  | num (n : Number)
  | str (s : String)
  | list (xs : List Value)
  | dict (fields : List (String × Value))

/-- A dictionary, its keys in order. -/
abbrev Dict : Type := List (String × Value)

/-- The exceptions of the arithmetic and of the attributes. -/
inductive PyError
  | typeError
  | valueError
  | attributeError
deriving DecidableEq

/-- What is a parameter: Unicode's tables, `re.search` without regard to
case, and what `str`, `float` and `dict` make of other values. -/
structure Language where
  unicode : UnicodeTables
  search : String → String → Bool
  str : Value → String
  float : String → Option Number
  dict : Value → Except PyError Dict

namespace Value

/-- `bool(value)`. -/
def truthy : Value → Bool
  | .none => false
  | .bool b => b
  | .num (.finite q) => q ≠ 0
  | .num _ => true
  | .str s => s ≠ ""
  | .list xs => !xs.isEmpty
  | .dict fields => !fields.isEmpty

/-- `a or b`. -/
def or (a b : Value) : Value := if a.truthy then a else b

/-- A number that is finite. -/
def number (q : ℚ) : Value := .num (.finite q)

/-- `float(value)`. -/
def float (L : Language) : Value → Except PyError Number
  | .bool b => .ok (.finite (if b then 1 else 0))
  | .num n => .ok n
  | .str s => (L.float s).elim (.error .valueError) .ok
  | _ => .error .typeError

/-- `str(value)`. -/
def text (L : Language) : Value → String
  | .str s => s
  | v => L.str v

/-- `dict(value)`. -/
def asDict (L : Language) : Value → Except PyError Dict
  | .dict fields => .ok fields
  | v => L.dict v

end Value

/-- `fields.get(key, default)`. -/
def Dict.entryD (fields : Dict) (key : String) (default : Value) : Value :=
  (fields.lookup key).getD default

/-- `fields.get(key)`. -/
def Dict.entry (fields : Dict) (key : String) : Value := Dict.entryD fields key .none

/-! ## Calibration -/

/-- What `load_calibration` returns: the values it checks, and that they are
in order. -/
structure Calibration where
  version : String
  directThreshold : ℚ
  backgroundThreshold : ℚ
  productionSemanticThreshold : ℚ
  relevanceWeight : ℚ
  priorWeight : ℚ
  bounded : ∀ q ∈ [directThreshold, backgroundThreshold, productionSemanticThreshold,
    relevanceWeight, priorWeight], 0 ≤ q ∧ q ≤ 1
  below : backgroundThreshold < directThreshold

/-- `calibration-v1.json`. -/
def calibrationV1 : Calibration where
  version := "retrieval-calibration-v1"
  directThreshold := 1 / 2
  backgroundThreshold := 1 / 4
  productionSemanticThreshold := 18 / 25
  relevanceWeight := 17 / 20
  priorWeight := 3 / 20
  bounded := by decide +kernel
  below := by decide +kernel

/-! ## Signals -/

/-- The signals that a candidate is scored by. -/
inductive Signal
  | lexicalSupport
  | typoTolerantSupport
  | semanticSupport
  | candidatePrior
  | factSupport
  | graphPrior
  | trustPrior
  | recencyPrior
  | atbotRerank
deriving DecidableEq

/-- `SIGNAL_VERSIONS`. -/
def Signal.version : Signal → String
  | .lexicalSupport => "concept-overlap-v1"
  | .typoTolerantSupport => "bounded-edit-distance-v1"
  | .semanticSupport => "cosine-production-profile-v1"
  | .candidatePrior => "governed-candidate-prior-v1"
  | .factSupport => "fact-key-overlap-v1"
  | .graphPrior => "weighted-rrf-v1"
  | .trustPrior => "trust-tier-v1"
  | .recencyPrior => "ordinal-recency-v1"
  | .atbotRerank => "atbot-eligible-rerank-v1"

/-- What one signal gives a candidate. -/
structure SignalContribution where
  name : Signal
  version : String
  normalizedScore : ℚ
  rawScore : Option ℚ
  eligibleForSupport : Bool

/-- `round(q, 6)`. -/
def round6 (q : ℚ) : ℚ := Rounding.roundHalfEven (q * 1000000) / 1000000

/-- `bounded_score`. -/
def boundedScore (L : Language) (v : Value) : ℚ :=
  match v.float L with
  | .ok (.finite q) => round6 (min 1 (max 0 q))
  | _ => 0

/-- The score of a signal, as it is bounded, and as it was. -/
def contribution (L : Language) (name : Signal) (raw : Value) (eligibleForSupport : Bool) :
    SignalContribution where
  name := name
  version := name.version
  normalizedScore := boundedScore L raw
  rawScore := match raw.float L with
    | .ok (.finite q) => some q
    | _ => .none
  eligibleForSupport := eligibleForSupport

/-- The same of a similarity; a diagnostic provider gives no support. -/
def semanticContribution (L : Language) (similarity : Number) (provider qualityClass : String) :
    SignalContribution :=
  let diagnostic := provider ∈ ["hashing", "hashing-diagnostic", "hash", "deterministic-hashing"] ∨
    qualityClass = "diagnostic"
  contribution L .semanticSupport (.num similarity) (!diagnostic)

/-! ## Concepts -/

/-- `_STOPWORDS`. -/
def stopwords : List String :=
  ["a", "about", "after", "all", "am", "an", "and", "any", "are", "as", "at", "be", "been",
    "before", "but", "by", "can", "could", "did", "do", "does", "for", "from", "had", "has",
    "have", "he", "her", "his", "how", "i", "if", "in", "is", "it", "its", "me", "my", "no", "not",
    "of", "on", "or", "our", "should", "so", "that", "the", "their", "them", "then", "there",
    "they", "this", "to", "up", "us", "was", "we", "were", "what", "when", "where", "which", "who",
    "why", "will", "with", "would", "you", "your"]

/-- `_CONCEPT_ALIASES`. -/
def conceptAliases : List (String × String) :=
  [("favourite", "preference"), ("favorite", "preference"), ("fav", "preference"),
    ("prefer", "preference"), ("preferred", "preference"), ("preference", "preference"),
    ("like", "preference"), ("likes", "preference"), ("lunch", "food"), ("meal", "food"),
    ("eat", "food"), ("food", "food"), ("burger", "food"), ("burgers", "food"),
    ("automobile", "car"), ("automobiles", "car"), ("vehicle", "car"), ("vehicles", "car"),
    ("cars", "car"), ("live", "residence"), ("lives", "residence"), ("living", "residence"),
    ("reside", "residence"), ("resides", "residence"), ("home", "residence"),
    ("residence", "residence"), ("address", "residence")]

/-- `query_tokens`: the runs of letters and digits that are no stopwords. -/
def queryTokens (L : Language) (query : String) : List String :=
  ((runs L.unicode.isAlnum (L.unicode.lower query).toList).map String.ofList).filter
    (· ∉ stopwords)

/-- `_stem`. -/
def stem (token : String) : String :=
  let cs := token.toList
  let ends (suffix : String) := suffix.toList.isSuffixOf cs
  let cut (n : ℕ) := String.ofList (cs.take (cs.length - n))
  if 4 < cs.length ∧ ends "ies" then cut 3 ++ "i"
  else if 3 < cs.length ∧ ends "y" then cut 1 ++ "i"
  else if 4 < cs.length ∧ ends "es" then cut 2
  else if 3 < cs.length ∧ ends "s" then cut 1
  else token

/-- `_concept_tokens`, each concept once. -/
def conceptTokens (L : Language) (value : String) : List String :=
  ((queryTokens L value).flatMap fun token =>
    let stemmed := stem token
    [stemmed, (conceptAliases.lookup token).getD
      ((conceptAliases.lookup stemmed).getD stemmed)]).eraseDups

/-- `_concept_overlap`. -/
def conceptOverlap (queryConcepts contentConcepts : List String) : ℚ :=
  if queryConcepts = [] then 0
  else
    let matched := queryConcepts.countP fun q =>
      q ∈ contentConcepts || contentConcepts.any (withinTypoBudget q)
    matched / queryConcepts.length

/-! ## The answer a query asks for -/

/-- The query is about the one who asks. -/
def personalPattern : String := "\\b(?:i|me|my|mine|our|ours|we)\\b"

/-- The query is about the age of the one who asks. -/
def selfAgePattern : String := "\\b(?:my age|how old am i)\\b"

/-- A text is about somebody near the one who asks. -/
def otherPersonPattern : String :=
  "\\b(?:daughter|son|child|mother|father|wife|husband|sister|brother|friend|boss)\\b"

/-- A text says how old its writer is. -/
def selfAgeAnswerPattern : String := "\\b(?:i am|i'm|my age is)\\s+\\d\x7b1,3\x7d\\b"

/-- `_AGE_QUERY_RE`. -/
def ageQueryPattern : String := "\\b(?:age|aged|old|birthday|birthdate|born)\\b|سن"

/-- `_AGE_EVIDENCE_RE`. -/
def ageEvidencePattern : String :=
  "\\b(?:age|aged|old|years?|born|birthday|birthdate|dob)\\b|سن|سال|\\b\\d+\\b"

/-- `_RESIDENCE_QUERY_RE`. -/
def residenceQueryPattern : String :=
  "\\bwhere\\b.*\\b(?:live|reside|home|address)\\b|" ++
    "\\b(?:home|address|residence)\\b.*\\bwhere\\b"

/-- `_RESIDENCE_EVIDENCE_RE`. -/
def residenceEvidencePattern : String :=
  "\\b(?:live|lives|living|reside|resides|residence|home|address|based|located|city)\\b"

/-- `value.replace("_", " ")`. -/
def spaced (value : String) : String :=
  String.ofList (value.toList.map fun c => if c = '_' then ' ' else c)

/-- `_requested_relation_supported`. -/
def requestedRelationSupported (L : Language) (query content factKey : String) : Bool :=
  let evidence := content ++ " " ++ spaced factKey
  if L.search selfAgePattern query && L.search otherPersonPattern evidence &&
      !L.search selfAgeAnswerPattern content then false
  else if L.search ageQueryPattern query && !L.search ageEvidencePattern evidence then false
  else if L.search residenceQueryPattern query && !L.search residenceEvidencePattern evidence then
    false
  else true

/-! ## One candidate -/

/-- How a candidate supports an answer. -/
inductive SupportClass
  | direct
  | background
  | none
deriving DecidableEq

/-- Why a candidate has its class. -/
inductive Reason
  | originalQuerySupported
  | backgroundOnly
  | noRelevanceSignal
  | diagnosticSemanticIgnored
  | requestedRelationNotSupported
deriving DecidableEq

/-- What was decided about a candidate. -/
structure CandidateDecision where
  recordId : String
  supportClass : SupportClass
  relevanceScore : ℚ
  rankScore : ℚ
  signals : List (Signal × ℚ)
  signalContributions : List SignalContribution
  reasonCodes : List Reason

/-- `dict(candidate.get("signals") or {})`. -/
def signalsOf (L : Language) (candidate : Dict) : Except PyError Dict :=
  ((candidate.entry "signals").or (.dict [])).asDict L

/-- `candidate.get("record_id") or candidate.get("id") or ""`. -/
def recordIdOf (L : Language) (candidate : Dict) : String :=
  (((candidate.entry "record_id").or (candidate.entry "id")).or (.str "")).text L

/-- `(signals.get("semantic_evidence") or {}).get(key)`. -/
def semanticEvidence (signals : Dict) (key : String) : Except PyError Value :=
  match (signals.entry "semantic_evidence").or (.dict []) with
  | .dict fields => .ok (Dict.entry fields key)
  | _ => .error .attributeError

/-- `signals.get(name) or (… .get(key) or default)`. -/
def semanticField (signals : Dict) (name key : String) (default : Value) :
    Except PyError Value :=
  if (signals.entry name).truthy then .ok (signals.entry name)
  else do pure ((← semanticEvidence signals key).or default)

/-- `_TRUST_SCORES.get(tier, 0.4)`. -/
def trustScore (tier : String) : ℚ :=
  if tier = "trusted_user" then 1
  else if tier = "user_confirmed" then 9 / 10
  else if tier = "host_asserted_observation" then 7 / 10
  else 4 / 10

/-- What a candidate is relevant by. -/
structure Relevance where
  lexical : ℚ
  typo : Bool
  fact : ℚ
  semantic : ℚ
  semanticSignal : SignalContribution
  relevance : ℚ
  missing : Bool

/-- The first half of the loop's body: what the query supports. -/
def relevanceOf (L : Language) (K : Calibration) (query : String) (candidate signals : Dict) :
    Except PyError Relevance := do
  let factKey := (((signals.entry "fact_key").or (candidate.entry "fact_key")).or (.str "")).text L
  let content := ((candidate.entry "content").or (.str "")).text L
  let queryConcepts := conceptTokens L query
  let contentConcepts := conceptTokens L content
  let lexical := conceptOverlap queryConcepts contentConcepts
  let factConcepts := conceptTokens L (spaced factKey)
  let factSupport := conceptOverlap queryConcepts factConcepts
  -- a question about oneself is met by the key's concepts alone
  let factSupport := if L.search personalPattern query then
    max factSupport (conceptOverlap factConcepts queryConcepts) else factSupport
  let semantic ← (← semanticField signals "semantic_similarity" "similarity"
    (.number 0)).float L
  let provider := (← semanticField signals "semantic_provider" "provider" (.str "")).text L
  let qualityClass :=
    (← semanticField signals "semantic_quality_class" "quality_class" (.str "")).text L
  let semanticSignal := semanticContribution L semantic provider qualityClass
  let reaches := match semantic with
    | .finite q => decide (K.productionSemanticThreshold ≤ q)
    | .infinity => true
    | _ => false
  let semanticSupport :=
    if semanticSignal.eligibleForSupport && reaches then semanticSignal.normalizedScore else 0
  let relevance := max (max lexical factSupport) semanticSupport
  let missing := !requestedRelationSupported L query content factKey
  -- without the relation asked for it is background at most
  let relevance := if missing then min relevance K.backgroundThreshold else relevance
  pure {
    lexical := lexical
    typo := 0 < lexical && !queryConcepts.any (· ∈ contentConcepts)
    fact := factSupport
    semantic := semanticSupport
    semanticSignal := semanticSignal
    relevance := relevance
    missing := missing }

/-- The support a relevance gives, and its reason. -/
def supportOf (K : Calibration) (relevance : ℚ) : SupportClass × Reason :=
  if K.directThreshold ≤ relevance then (.direct, .originalQuerySupported)
  else if K.backgroundThreshold ≤ relevance then (.background, .backgroundOnly)
  else (.none, .noRelevanceSignal)

/-- `signals.get("graph") or candidate.get("graph") or {}`, and its score. -/
def graphScore (candidate signals : Dict) : Value :=
  match ((signals.entry "graph").or (candidate.entry "graph")).or (.dict []) with
  | .dict fields => Dict.entryD fields "score" (.number 0)
  | _ => .number 0

/-- The second half of the loop's body: what is put on record, with the
priors. -/
def decisionOf (L : Language) (K : Calibration) (candidate signals : Dict) (r : Relevance) :
    CandidateDecision :=
  let (support, reason) := supportOf K r.relevance
  let diagnostic := !r.semanticSignal.eligibleForSupport
  let priorSignal := contribution L .candidatePrior ((candidate.entry "score").or (.number 0)) true
  let prior := priorSignal.normalizedScore
  let typo : ℚ := if r.typo then 1 else 0
  let graphSignal := contribution L .graphPrior (graphScore candidate signals) true
  let trustSignal := contribution L .trustPrior
    (.number (trustScore (((candidate.entry "trust_tier").or (.str "")).text L))) true
  let recencySignal :=
    contribution L .recencyPrior (signals.entryD "recency_score" (.number 0)) true
  let atbotSignal := contribution L .atbotRerank (signals.entryD "atbot_score" (.number 0)) true
  -- a prior weighs only where there is support
  let rankScore := if support = .none then 0
    else K.relevanceWeight * r.relevance + K.priorWeight * prior
  { recordId := recordIdOf L candidate
    supportClass := support
    relevanceScore := round6 r.relevance
    rankScore := round6 rankScore
    signals := [(.lexicalSupport, round6 r.lexical), (.typoTolerantSupport, typo),
      (.semanticSupport, round6 r.semantic), (.factSupport, round6 r.fact),
      (.graphPrior, graphSignal.normalizedScore), (.trustPrior, trustSignal.normalizedScore),
      (.recencyPrior, recencySignal.normalizedScore), (.atbotRerank, atbotSignal.normalizedScore),
      (.candidatePrior, round6 prior)]
    signalContributions := [contribution L .lexicalSupport (.number r.lexical) true,
      contribution L .typoTolerantSupport (.number typo) true,
      contribution L .factSupport (.number r.fact) true, r.semanticSignal, graphSignal,
      trustSignal, recencySignal, atbotSignal, priorSignal]
    reasonCodes := [reason] ++ (if diagnostic then [.diagnosticSemanticIgnored] else []) ++
      if r.missing then [.requestedRelationNotSupported] else [] }

/-- The loop's body. -/
def decideCandidate (L : Language) (K : Calibration) (query : String) (candidate : Dict) :
    Except PyError CandidateDecision := do
  let signals ← signalsOf L candidate
  let relevance ← relevanceOf L K query candidate signals
  pure (decisionOf L K candidate signals relevance)

/-! ## The decision -/

/-- Why the decision as a whole has its class. -/
inductive OverallReason
  | directSupportFound
  | backgroundContextPermitted
  | backgroundContextWithheld
  | noRelevanceSignal
deriving DecidableEq

/-- What was decided about a query. -/
structure RetrievalDecision where
  format : String
  calibrationVersion : String
  supportClass : SupportClass
  rankedRecordIds : List String
  candidates : List CandidateDecision
  reasonCodes : List OverallReason

/-- `(-row.rank_score, row.record_id)`, in order. -/
def ranksBefore (a b : CandidateDecision) : Bool :=
  b.rankScore < a.rankScore || (a.rankScore = b.rankScore && a.recordId ≤ b.recordId)

/-- The ids of one class, in the order given. -/
def idsOf (support : SupportClass) (decisions : List CandidateDecision) : List String :=
  (decisions.filter (·.supportClass = support)).map (·.recordId)

/-- The end of `decide_retrieval`, from the sorted decisions on. -/
def retrievalDecision (K : Calibration) (allowBackground : Bool)
    (decisions : List CandidateDecision) : RetrievalDecision :=
  let directSelected := idsOf .direct decisions
  let backgroundSelected := idsOf .background decisions
  let selected := if directSelected ≠ [] then directSelected
    else if allowBackground then backgroundSelected else []
  let overall : SupportClass := if directSelected ≠ [] then .direct
    else if decisions.any (·.supportClass = .background) then .background else .none
  { format := "atmem-retrieval-decision-v1"
    calibrationVersion := K.version
    supportClass := overall
    rankedRecordIds := selected
    candidates := decisions
    reasonCodes := if directSelected ≠ [] then [.directSupportFound]
      else if overall = .background then
        [if allowBackground then .backgroundContextPermitted else .backgroundContextWithheld]
      else [.noRelevanceSignal] }

/-- `decide_retrieval`. -/
def decideRetrieval (L : Language) (K : Calibration) (query : String) (candidates : List Dict)
    (allowBackground : Bool) : Except PyError RetrievalDecision := do
  let decisions ← candidates.mapM (decideCandidate L K query)
  pure (retrievalDecision K allowBackground (decisions.insertionSort (ranksBefore · ·)))

end Atmem.Retrieve
