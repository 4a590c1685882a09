import Atmem.Contracts.Json
import Atmem.Contracts.Vocabulary
/-!
# The policy gates on text

How content is compared, how a fact slot is named, which tier a source is
trusted at and with what status an extraction starts. What Unicode's
tables say of a text is a parameter: no theorem rests on it.
-/

namespace Atmem

/-- Unicode's tables: `str.lower`, `str.casefold`, the compatibility
composition, and the characters `\w` matches, but for the underscore. -/
structure UnicodeTables where
  lower : String → String
  casefold : String → String
  nfkc : String → String
  isAlnum : Char → Bool

/-- The maximal runs of characters `p` holds of: `re.findall` of a
repeated class. -/
def runs (p : Char → Bool) (cs : List Char) : List (List Char) :=
  (cs.splitOnP fun c => !p c).filter (· ≠ [])

/-- `str.strip(chars)`, the characters given as a predicate. -/
def stripChars (p : Char → Bool) (cs : List Char) : List Char :=
  ((cs.dropWhile p).reverse.dropWhile p).reverse

/-- A character of `_WORD_RE`. -/
def isContentChar (c : Char) : Bool :=
  ('a' ≤ c && c ≤ 'z') || c.isDigit || c ∈ ['@', '.', '-', '+', '_']

/-- `normalize_content`: the words, lowercased and stripped of outer marks. -/
def normalizeContent (U : UnicodeTables) (text : String) : String :=
  let tokens := (runs isContentChar (U.lower text).toList).map
    (stripChars (· ∈ ['.', '_', '-', '+', '@']))
  " ".intercalate ((tokens.filter (· ≠ [])).map String.ofList)

/-! ## Fact keys -/

/-- The parts of a text between two adjacent colons: `split("::")`. -/
def splitColons : List Char → List (List Char)
  | [] => [[]]
  | ':' :: ':' :: cs => [] :: splitColons cs
  | c :: cs => match splitColons cs with
    | part :: parts => (c :: part) :: parts
    | [] => [[c]]

/-- `_PART`, matched in full. -/
def isFactKeyPart : List Char → Bool
  | [] => false
  | c :: cs =>
    let first (c : Char) := ('a' ≤ c && c ≤ 'z') || c.isDigit
    first c && cs.all (fun c => first c || c ∈ ['.', '_', '-']) && decide (cs.length ≤ 63)

/-- `canonicalize_fact_key`. -/
def canonicalizeFactKey (U : UnicodeTables) (value : Option String) :
    Except String (Option String) :=
  match value with
  | none => .ok none
  | some value =>
    if strip value = [] then .ok none
    else
      let normalized := strip (U.casefold (U.nfkc value))
      let parts := (splitColons normalized).map fun part => strip (String.ofList part)
      if 8 < parts.length ∨ ¬ parts.all isFactKeyPart then
        .error "fact_key must contain 1-8 safe namespace parts separated by ::"
      else
        let result := "::".intercalate (parts.map String.ofList)
        if 256 < result.length then .error "fact_key exceeds 256 characters"
        else .ok (some result)

/-! ## Search terms -/

/-- `_search_stem`. -/
def searchStem (U : UnicodeTables) (token : String) : String :=
  let value := U.lower token
  let cs := value.toList
  if 4 < cs.length ∧ ['i', 'e', 's'].isSuffixOf cs then
    String.ofList (cs.take (cs.length - 3) ++ ['i'])
  else if 3 < cs.length ∧ ['y'].isSuffixOf cs then
    String.ofList (cs.take (cs.length - 1) ++ ['i'])
  else if 4 < cs.length ∧ ['e', 's'].isSuffixOf cs then String.ofList (cs.take (cs.length - 2))
  else if 3 < cs.length ∧ ['s'].isSuffixOf cs then String.ofList (cs.take (cs.length - 1))
  else value

/-- `_search_terms`. -/
def searchTerms (U : UnicodeTables) (value : String) : List String :=
  (runs U.isAlnum (U.lower value).toList).map fun token => searchStem U (String.ofList token)

/-! ## Trust -/

/-- The tiers a record is trusted at. -/
inductive TrustTier
  | trustedUser | userConfirmed | untrustedContent | hostAssertedObservation | derived
deriving DecidableEq

/-- The statuses of a record. -/
inductive RecordStatus
  | active | superseded | quarantined | tombstoned
deriving DecidableEq

instance : Vocabulary RecordStatus where
  all := [.active, .superseded, .quarantined, .tombstoned]
  value
    | .active => "active"
    | .superseded => "superseded"
    | .quarantined => "quarantined"
    | .tombstoned => "tombstoned"
  mem_all a := by cases a <;> decide
  nodup_value := by decide +kernel

/-- `trust_tier_for_source`. -/
def trustTierForSource (sourceType : String) : TrustTier :=
  if sourceType = "user_message" then .trustedUser else .untrustedContent

/-- Untrusted extractions land quarantined. -/
def initialStatus (trustTier : TrustTier) : RecordStatus :=
  if trustTier = .trustedUser ∨ trustTier = .userConfirmed then .active else .quarantined

end Atmem
