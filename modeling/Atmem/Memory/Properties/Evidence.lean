import Atmem.Memory.Helpers.Statements
import Atmem.Memory.Model.Proposers
/-!
# What a proposal cites

The rules look for the text they read in the source itself, so what they
cite is there. A fact of a model is looked for in the folded source and
measured unfolded: what is cited lies in the source where the match does not
end beyond it, and folding can make a text longer.
-/

namespace Atmem.Memory

open Checked

variable {E : Engine} {P : Patterns} {r : Reading} {p : ExtractionProposal}
variable {span : Option (ℕ × ℕ)}

/-! ## What a proposal is to cite -/

/-- The evidence is a span of the text, with the text's digests. -/
structure EvidenceOf (E : Engine) (text : String) (e : ProposalEvidence) : Prop where
  nonempty : e.val.startOffset < e.val.endOffset
  inside : e.val.endOffset ≤ text.length
  excerpt : e.val.excerptSha256 = E.sha256 (slice text e.val.startOffset e.val.endOffset)
  source : e.val.sourceSha256 = E.sha256 text

/-- Every evidence of the proposal is of the text, and no validation of it
against the text refuses the evidence. -/
structure Cites (E : Engine) (text : String) (p : ExtractionProposal) : Prop where
  evidence : ∀ e ∈ p.val.evidence, EvidenceOf E text e
  untyped : p.val.unit = none
  accepted : ∀ bodies, (∀ e ∈ p.val.evidence, bodyOf bodies text e = text) →
    evidenceReasons E p text bodies = []

/-- A span that is not empty has text. -/
theorem slice_ne_empty {text : String} {start stop : ℕ} (h : start < stop)
    (hstop : stop ≤ text.length) : slice text start stop ≠ "" := by
  have hlength : (slice text start stop).length = stop - start := by
    unfold slice
    rw [String.length_ofList, List.length_take, List.length_drop]
    have htext : text.toList.length = text.length := String.length_toList
    omega
  intro hempty
  rw [hempty] at hlength
  have hzero : "".length = 0 := rfl
  omega

/-- **Evidence of the text is accepted.** -/
theorem EvidenceOf.accepted {text : String} {e : ProposalEvidence} (h : EvidenceOf E text e) :
    (verifiedExcerpt E text e).2 = [] := by
  have hne : excerptOf text e ≠ "" := slice_ne_empty h.nonempty h.inside
  unfold verifiedExcerpt
  have hinside : ¬ max text.length 1 < e.val.endOffset := by
    have := h.inside
    omega
  have hdigest : ¬ e.val.excerptSha256 ≠ E.sha256 (excerptOf text e) := fun hd => hd h.excerpt
  simp only [hinside, if_false, hne, ne_eq, not_false_eq_true, if_true]
  rw [if_neg hdigest]

/-- Evidence of the text is cited. -/
theorem Cites.of_evidence {text : String} (hunit : p.val.unit = none)
    (h : ∀ e ∈ p.val.evidence, EvidenceOf E text e) : Cites E text p := by
  refine ⟨h, hunit, fun bodies hbodies => ?_⟩
  unfold evidenceReasons
  rw [List.flatMap_eq_nil_iff]
  intro e he
  rw [hbodies e he, if_neg (fun hd => hd (h e he).source)]
  exact (h e he).accepted

/-! ## The span that is cited -/

/-- The span of a proposal. -/
def spanOf (r : Reading) (span : Option (ℕ × ℕ)) : ℕ × ℕ := span.getD (0, r.message.length)

/-- The one evidence of what is proposed. -/
theorem outcome_eq_ok {draft : Draft} (hmessage : r.message ≠ "")
    (hspan : (spanOf r span).1 < (spanOf r span).2) (h : outcome E r span draft = .ok p) :
    p.val.unit = none ∧ ∃ e : ProposalEvidence, p.val.evidence = [e] ∧
      e.val.sourceSha256 = E.sha256 r.message ∧ e.val.startOffset = (spanOf r span).1 ∧
      e.val.endOffset = (spanOf r span).2 ∧ e.val.excerptSha256 =
        E.sha256 (if slice r.message (spanOf r span).1 (spanOf r span).2 = "" then r.message
          else slice r.message (spanOf r span).1 (spanOf r span).2) := by
  unfold outcome at h
  simp only [if_neg hmessage, bind_eq_ok_iff] at h
  obtain ⟨e, he, h⟩ := h
  have hstop : max (spanOf r span).2 ((spanOf r span).1 + 1) = (spanOf r span).2 := by omega
  unfold spanOf at hstop
  rw [hstop] at he
  have he := make_eq_ok.mp he
  have hp := make_eq_ok.mp h
  refine ⟨by rw [hp], e, by rw [hp], ?_⟩
  rw [he]
  exact ⟨rfl, rfl, rfl, rfl⟩

/-- **What is proposed cites the source where its span lies in it.** -/
theorem cites_outcome {draft : Draft} (hmessage : r.message ≠ "")
    (hspan : (spanOf r span).1 < (spanOf r span).2) (h : outcome E r span draft = .ok p) :
    Cites E r.message p ↔ (spanOf r span).2 ≤ r.message.length := by
  obtain ⟨hunit, e, hevidence, hsource, hstart, hstop, hexcerpt⟩ := outcome_eq_ok hmessage hspan h
  constructor
  · intro hc
    rw [← hstop]
    exact (hc.evidence e (hevidence ▸ List.mem_singleton_self e)).inside
  · intro hinside
    refine .of_evidence hunit fun d hd => ?_
    rw [hevidence, List.mem_singleton] at hd
    subst hd
    rw [if_neg (slice_ne_empty hspan hinside)] at hexcerpt
    refine ⟨by rw [hstart, hstop]; exact hspan, by rw [hstop]; exact hinside, ?_, hsource⟩
    rw [hexcerpt, hstart, hstop]

/-- A message that is not empty is a span of itself. -/
theorem spanOf_whole (hmessage : r.message ≠ "") :
    spanOf r r.whole = (0, r.message.length) ∧ 0 < r.message.length := by
  refine ⟨by rw [spanOf, Reading.whole, if_neg hmessage]; rfl, ?_⟩
  have hlength : r.message.length ≠ 0 := fun hzero => hmessage (String.length_eq_zero_iff.mp hzero)
  omega

/-- A proposal that cites the whole source. -/
theorem cites_outcome_whole {draft : Draft} (hmessage : r.message ≠ "")
    (h : outcome E r r.whole draft = .ok p) : Cites E r.message p := by
  obtain ⟨hspan, hpos⟩ := spanOf_whole hmessage
  rw [cites_outcome hmessage (by rw [hspan]; exact hpos) h, hspan]

/-! ## Rules -/

/-- A text that is found stands in what it is looked for in. -/
theorem spanIn_eq_some {origin sourceText : String} {s : ℕ × ℕ}
    (h : spanIn origin sourceText = some s) : s.1 < s.2 ∧ s.2 ≤ origin.length := by
  unfold spanIn at h
  by_cases hempty : sourceText = ""
  · rw [if_pos hempty] at h
    cases h
  · rw [if_neg hempty, Option.map_eq_some_iff] at h
    obtain ⟨start, hstart, rfl⟩ := h
    have hpos : sourceText.length ≠ 0 := fun hzero => hempty (String.length_eq_zero_iff.mp hzero)
    have hend := Occurrence.add_length_le_of_find hstart
    rw [String.length_toList, String.length_toList] at hend
    exact ⟨by dsimp only; omega, hend⟩

/-- The span of a candidate is that of its text. -/
theorem span_of_mem_candidates {text sourceType origin : String} {c : Candidate}
    (h : c ∈ candidatesFromText P text sourceType origin) :
    c.sourceSpan = spanIn origin c.sourceText := by
  unfold candidatesFromText at h
  split at h
  · cases h
  · rw [List.mem_singleton] at h
    rw [h]

/-- So with what is extracted of a message. -/
theorem span_of_mem_extract {message : String} {sourceType : Option String} {c : Candidate}
    (h : c ∈ extractCandidates E P message sourceType) :
    c.sourceSpan = spanIn message c.sourceText := by
  unfold extractCandidates at h
  dsimp only at h
  generalize (if truthy sourceType then str sourceType else E.classifySource message) = source at h
  by_cases huser : source ≠ "user_message"
  · rw [if_pos huser] at h
    split at h
    · cases h
    · exact span_of_mem_candidates h
  · rw [if_neg huser] at h
    split at h
    · cases h
    · exact span_of_mem_candidates h

/-- A candidate is proposed with the text it was read from. -/
theorem cites_fromCandidate {extra : List String} {c : Candidate} (hmessage : r.message ≠ "")
    (hspan : c.sourceSpan = spanIn r.message c.sourceText)
    (h : fromCandidate E P r extra c = .ok p) : Cites E r.message p := by
  unfold fromCandidate at h
  simp only [bind_eq_ok_iff] at h
  obtain ⟨classification, -, h⟩ := h
  unfold build at h
  rcases hs : spanIn r.message c.sourceText with - | s
  · rw [hspan, hs, Option.none_or] at h
    exact cites_outcome_whole hmessage h
  · rw [hspan, hs, Option.some_or] at h
    obtain ⟨hlt, hle⟩ := spanIn_eq_some hs
    have hsome : (spanOf r (some s)).1 < (spanOf r (some s)).2 := hlt
    exact (cites_outcome hmessage hsome h).mpr hle

/-- A single proposal. -/
theorem cites_of_single {x : Except String ExtractionProposal} {proposals : List ExtractionProposal}
    (h : (fun p => [p]) <$> x = .ok proposals) (hx : ∀ p, x = .ok p → Cites E r.message p) :
    ∀ p ∈ proposals, Cites E r.message p := by
  rcases x with e | p
  · cases h
  · cases h
    intro p' hp'
    rw [List.mem_singleton.mp hp']
    exact hx p rfl

/-- **What the rules propose of a source cites it.** -/
theorem cites_of_rules {sourceType fallbackReason : Option String}
    {proposals : List ExtractionProposal} (hmessage : r.message ≠ "")
    (h : proposeFromRules E P r sourceType fallbackReason = .ok proposals) :
    ∀ p ∈ proposals, Cites E r.message p := by
  unfold proposeFromRules at h
  dsimp only at h
  by_cases hscreen : E.screen false r.message ≠ []
  · rw [if_pos hscreen] at h
    exact cites_of_single h fun p hp => cites_outcome_whole hmessage hp
  · rw [if_neg hscreen] at h
    split at h
    · exact cites_of_single h fun p hp => cites_outcome_whole hmessage hp
    · -- each of the candidates stands where it was read from
      refine (forall_mem_mapM (Q := fun _ => True) (fun c hc p hp => ?_) h).mpr fun _ _ => trivial
      exact iff_of_true (cites_fromCandidate hmessage (span_of_mem_extract hc) hp) trivial

/-! ## Model output -/

/-- The match a fact is taken for ends beyond the source: that of the whole
fact, or that of one of its tokens. -/
def beyond (U : UnicodeTables) (message fact : String) : Bool :=
  match Occurrence.find (U.casefold fact).toList (U.casefold message).toList with
  | some direct => message.length < direct + fact.length
  | none =>
    max 1 (((supportTokens U fact).length + 1) / 2) ≤ (foundTokens U message fact).length &&
      (foundTokens U message fact).any fun found => message.length < found.2

/-- A row that is looked for in the source, and whose match ends beyond
it. -/
def FactRow.overruns (E : Engine) (P : Patterns) (message : String) (row : FactRow) : Bool :=
  let fact := row.factText P
  E.screen false message = [] && (row.confidenceOf P).isSome && fact ≠ "" &&
    fact.length ≤ maxFactLength && E.screen false fact = [] && beyond E.unicode message fact

/-- A token that is found is not empty. -/
theorem lt_of_mem_foundTokens {U : UnicodeTables} {message fact : String} {found : ℕ × ℕ}
    (h : found ∈ foundTokens U message fact) : found.1 < found.2 := by
  unfold foundTokens supportTokens at h
  obtain ⟨token, htoken, h⟩ := List.mem_filterMap.mp h
  obtain ⟨position, -, rfl⟩ := Option.map_eq_some_iff.mp h
  have hlength := of_decide_eq_true (List.mem_filter.mp htoken).2
  dsimp only
  omega

/-- The span of the tokens: it is not empty, and ends where the last of them
does. -/
theorem bounds_of_tokens {l : List (ℕ × ℕ)} {start stop : ℕ} (hl : ∀ x ∈ l, x.1 < x.2)
    (hstart : (l.map (·.1)).min? = some start) (hstop : (l.map (·.2)).max? = some stop) :
    start < stop ∧ ∀ n, stop ≤ n ↔ ∀ x ∈ l, x.2 ≤ n := by
  obtain ⟨hmin, hleast⟩ := List.min?_eq_some_iff.mp hstart
  obtain ⟨hmax, hgreatest⟩ := List.max?_eq_some_iff.mp hstop
  obtain ⟨x, hx, rfl⟩ := List.mem_map.mp hmin
  obtain ⟨y, hy, rfl⟩ := List.mem_map.mp hmax
  constructor
  · have hxy := hgreatest x.2 (List.mem_map_of_mem hx)
    have hlt := hl x hx
    omega
  · intro n
    constructor
    · intro hn z hz
      exact (hgreatest z.2 (List.mem_map_of_mem hz)).trans hn
    · intro hall
      exact hall y hy

/-- **Where the span of a fact ends.** -/
theorem supportSpan_eq_some {U : UnicodeTables} {message fact : String} {s : ℕ × ℕ}
    (h : supportSpan U message fact = some s) :
    s.1 < s.2 ∧ (s.2 ≤ message.length ↔ beyond U message fact = false) := by
  unfold supportSpan at h
  unfold beyond
  by_cases hempty : message = "" ∨ fact = ""
  · rw [if_pos hempty] at h
    cases h
  · rw [if_neg hempty] at h
    rcases hfind : Occurrence.find (U.casefold fact).toList (U.casefold message).toList with
      - | direct
    · rw [hfind] at h
      dsimp only at h ⊢
      split at h
      · cases h
      · rename_i hfew
        rw [not_or, not_lt] at hfew
        split at h
        · rename_i start stop hstart hstop
          cases h
          obtain ⟨hlt, hends⟩ := bounds_of_tokens (fun x hx => lt_of_mem_foundTokens hx) hstart hstop
          refine ⟨hlt, ?_⟩
          rw [hends, decide_eq_true hfew.2, Bool.true_and, List.any_eq_false]
          simp
        · cases h
    · rw [hfind] at h
      cases h
      have hpos : fact.length ≠ 0 := fun hzero =>
        hempty (Or.inr (String.length_eq_zero_iff.mp hzero))
      refine ⟨by dsimp only; omega, ?_⟩
      simp

/-- Where no support is found nothing is beyond the end. -/
theorem beyond_of_none {U : UnicodeTables} {message fact : String} (hmessage : message ≠ "")
    (hfact : fact ≠ "") (h : supportSpan U message fact = none) : beyond U message fact = false := by
  unfold supportSpan at h
  unfold beyond
  rw [if_neg (not_or.mpr ⟨hmessage, hfact⟩)] at h
  rcases hfind : Occurrence.find (U.casefold fact).toList (U.casefold message).toList with - | direct
  · rw [hfind] at h
    dsimp only at h ⊢
    rw [Bool.and_eq_false_imp]
    intro hmany
    have hmany := of_decide_eq_true hmany
    split at h
    · rename_i hfew
      rcases hfew with hnone | hfew
      · rw [foundTokens, hnone]
        rfl
      · omega
    · -- tokens are found, so there is a first and a last of them
      have hne : foundTokens U message fact ≠ [] := by
        intro hnil
        rw [hnil, List.length_nil] at hmany
        omega
      split at h
      · cases h
      · rename_i hnone
        have hstarts : (foundTokens U message fact).map (·.1) ≠ [] := by simpa using hne
        have hstops : (foundTokens U message fact).map (·.2) ≠ [] := by simpa using hne
        obtain ⟨start, hstart⟩ := Option.isSome_iff_exists.mp (List.isSome_min?_of_ne_nil hstarts)
        obtain ⟨stop, hstop⟩ := Option.isSome_iff_exists.mp (List.isSome_max?_of_ne_nil hstops)
        exact absurd hstop (hnone start stop hstart)
  · rw [hfind] at h
    cases h

/-- **What is proposed of a row cites the source where its match lies in
it.** -/
theorem cites_fromRow {row : FactRow} (hmessage : r.message ≠ "")
    (hscreen : E.screen false r.message = []) (h : fromRow E P r row = .ok p) :
    Cites E r.message p ↔ row.overruns E P r.message = false := by
  unfold fromRow at h
  unfold FactRow.overruns
  dsimp only at h ⊢
  rw [decide_eq_true hscreen, Bool.true_and]
  rcases hconfidence : row.confidenceOf P with - | confidence
  · rw [hconfidence] at h
    simpa using cites_outcome_whole hmessage h
  · rw [hconfidence] at h
    dsimp only at h
    generalize row.factText P = fact at h ⊢
    -- what is malformed or refused proposes nothing, and cites the whole message
    by_cases hmalformed : fact = "" ∨ maxFactLength < fact.length
    · rw [if_pos hmalformed] at h
      refine iff_of_true (cites_outcome_whole hmessage h) ?_
      rcases hmalformed with rfl | hlong
      · simp
      · simp [Nat.not_le.mpr hlong]
    · rw [if_neg hmalformed] at h
      rw [not_or, Nat.not_lt] at hmalformed
      by_cases hrefused : E.screen false fact ≠ []
      · rw [if_pos hrefused] at h
        exact iff_of_true (cites_outcome_whole hmessage h) (by simp [hrefused])
      · rw [if_neg hrefused] at h
        rw [not_ne_iff] at hrefused
        have hlooked : (decide (fact ≠ "") && decide (fact.length ≤ maxFactLength) &&
            decide (E.screen false fact = [])) = true := by simp [hmalformed, hrefused]
        -- without a span the whole message is cited, too
        rcases hspan : supportSpan E.unicode r.message fact with - | s
        · rw [hspan] at h
          refine iff_of_true (cites_outcome_whole hmessage h) ?_
          simp [beyond_of_none hmessage hmalformed.1 hspan]
        · rw [hspan] at h
          simp only [bind_eq_ok_iff] at h
          obtain ⟨classification, -, h⟩ := h
          obtain ⟨hlt, hends⟩ := supportSpan_eq_some hspan
          have hsome : (spanOf r (some s)).1 < (spanOf r (some s)).2 := hlt
          rw [cites_outcome hmessage hsome h]
          simp [spanOf, hends, hmalformed, hrefused]

/-- **What a model's facts are proposed with cites the source where no match
ends beyond it.** -/
theorem cites_of_atbot_iff {facts : List FactRow} {proposals : List ExtractionProposal}
    (hmessage : r.message ≠ "") (h : proposeFromAtbot E P r facts = .ok proposals) :
    (∀ p ∈ proposals, Cites E r.message p) ↔
      ∀ row ∈ facts, row.overruns E P r.message = false := by
  unfold proposeFromAtbot at h
  by_cases hscreen : E.screen false r.message ≠ []
  · rw [if_pos hscreen] at h
    refine iff_of_true (cites_of_single h fun p hp => cites_outcome_whole hmessage hp) ?_
    intro row _
    simp [FactRow.overruns, hscreen]
  · rw [if_neg hscreen] at h
    rw [not_ne_iff] at hscreen
    by_cases hnone : facts = []
    · rw [if_pos hnone] at h
      refine iff_of_true (cites_of_single h fun p hp => cites_outcome_whole hmessage hp) ?_
      rw [hnone]
      exact fun row hrow => absurd hrow List.not_mem_nil
    · rw [if_neg hnone] at h
      exact forall_mem_mapM (fun row _ p hp => cites_fromRow hmessage hscreen hp) h

/-- No match ends beyond a source whose folding is as long as it is. -/
theorem beyond_of_length {U : UnicodeTables} {message fact : String}
    (hmessage : (U.casefold message).length = message.length)
    (hfact : fact.length ≤ (U.casefold fact).length) : beyond U message fact = false := by
  unfold beyond
  split
  · rename_i direct hdirect
    have hend := Occurrence.add_length_le_of_find hdirect
    rw [String.length_toList, String.length_toList, hmessage] at hend
    simp only [decide_eq_false_iff_not]
    omega
  · rw [Bool.and_eq_false_imp]
    intro _
    rw [List.any_eq_false]
    intro found hfound
    obtain ⟨token, -, hsome⟩ := List.mem_filterMap.mp hfound
    obtain ⟨position, hposition, rfl⟩ := Option.map_eq_some_iff.mp hsome
    have hend := Occurrence.add_length_le_of_find hposition
    rw [String.length_toList, hmessage] at hend
    simp only [decide_eq_true_eq, not_lt]
    exact hend

/-! ## Both proposers -/

/-- **What is proposed of a captured source cites it, and is accepted as
evidence**: by the rules always, and by the model if and only if none of its
facts is matched beyond the source. -/
theorem evidence_agrees_iff {q : SourceCaptureRequest} (hsource : r.message = q.val.message) :
    (∀ sourceType fallbackReason ruled,
      proposeFromRules E P r sourceType fallbackReason = .ok ruled →
        ∀ p ∈ ruled, Cites E q.val.message p) ∧
    ∀ facts modelled, proposeFromAtbot E P r facts = .ok modelled →
      ((∀ p ∈ modelled, Cites E q.val.message p) ↔
        ∀ row ∈ facts, row.overruns E P q.val.message = false) := by
  have hmessage : r.message ≠ "" := by
    intro hempty
    have hq := q.property
    unfold SourceCaptureRequestFields.postInit at hq
    simp only [bind_eq_ok, ensure_eq_ok] at hq
    rw [← hsource, hempty] at hq
    exact hq.2.2 rfl
  rw [← hsource]
  exact ⟨fun sourceType fallbackReason ruled hruled => cites_of_rules hmessage hruled,
    fun facts modelled hmodelled => cites_of_atbot_iff hmessage hmodelled⟩

/-! ## A text that is longer folded -/

/-- `str.casefold` of a sharp s and of the letters of English. -/
def foldGerman (text : String) : String :=
  String.ofList (text.toList.flatMap fun c => if c = 'ß' then ['s', 's'] else [c.toLower])

/-- An engine that folds the German letter. -/
def foldingEngine : Engine :=
  { plainEngine with unicode := ⟨id, foldGerman, id, Char.isAlphanum⟩ }

/-- No pattern matches; texts and one number are read. -/
def plainPatterns : Patterns where
  parseStatement _ := none
  embeddedBody _ := ""
  isForgetRequest _ := false
  memoryClass _ := .durableFact
  correction _ := false
  thirdPerson _ := false
  objectReference _ := false
  text
    | .str s => s
    | _ => ""
  number
    | .int 1 => some ⟨1, "1.0"⟩
    | _ => none

/-- The scope of the example. -/
def streetScope : AuthorityScope := ⟨⟨"user-1", "host-1", "home"⟩, by decide⟩

/-- A source of one word. -/
def streetSource : SourceCaptureRequest :=
  ⟨{ sourceId := "source_1", idempotencyKey := "key_1", scope := streetScope
     message := "Straße" }, by decide⟩

/-- A message with the letter. -/
def streetReading : Reading where
  message := "Straße"
  scope := streetScope
  sourceId := "source_1"
  context := ⟨"user-1", streetScope, [], .nil⟩

/-- The word, as a model writes it. -/
def spelled (word : String) : List FactRow := [⟨.str word, .int 1, .null, .null⟩]

theorem exists_eq_ok {α : Type} {x : Except String α} (h : x.toOption.isSome = true) :
    ∃ a, x = .ok a := by
  obtain ⟨a, ha⟩ := Option.isSome_iff_exists.mp h
  exact ⟨a, toOption_eq_some.mp ha⟩

/-- **A model that writes the word without the sharp s** is made to cite a
letter the source does not have. -/
theorem cites_beyond_source :
    ¬ ∀ ruled modelled, proposeFromRules foldingEngine plainPatterns streetReading none none =
        .ok ruled →
      proposeFromAtbot foldingEngine plainPatterns streetReading (spelled "Strasse") =
        .ok modelled →
      ∀ p ∈ ruled ++ modelled, Cites foldingEngine streetSource.val.message p := by
  intro hall
  obtain ⟨ruled, hruled⟩ := exists_eq_ok (x := proposeFromRules foldingEngine plainPatterns
    streetReading none none) (by decide +kernel)
  obtain ⟨modelled, hmodelled⟩ := exists_eq_ok (x := proposeFromAtbot foldingEngine plainPatterns
    streetReading (spelled "Strasse")) (by decide +kernel)
  have hmessage : streetReading.message ≠ "" := by decide
  have hnone := (cites_of_atbot_iff hmessage hmodelled).mp fun p hp =>
    hall ruled modelled hruled hmodelled p (List.mem_append_right ruled hp)
  have hover : FactRow.overruns foldingEngine plainPatterns "Straße"
      ⟨.str "Strasse", .int 1, .null, .null⟩ = true := by decide +kernel
  have hunder := hnone _ (List.mem_singleton_self _)
  exact absurd (hover.symm.trans hunder) (by decide)

/-- The word as the source has it is cited. -/
theorem cites_spelled_alike : ∃ ruled modelled,
    proposeFromRules foldingEngine plainPatterns streetReading none none = .ok ruled ∧
    proposeFromAtbot foldingEngine plainPatterns streetReading (spelled "Straße") = .ok modelled ∧
      ∀ p ∈ ruled ++ modelled, Cites foldingEngine streetSource.val.message p := by
  obtain ⟨ruled, hruled⟩ := exists_eq_ok (x := proposeFromRules foldingEngine plainPatterns
    streetReading none none) (by decide +kernel)
  obtain ⟨modelled, hmodelled⟩ := exists_eq_ok (x := proposeFromAtbot foldingEngine plainPatterns
    streetReading (spelled "Straße")) (by decide +kernel)
  have hunder : ∀ row ∈ spelled "Straße",
      row.overruns foldingEngine plainPatterns streetSource.val.message = false := by
    intro row hrow
    rw [List.mem_singleton.mp hrow]
    decide +kernel
  obtain ⟨hrules, hatbot⟩ := evidence_agrees_iff (E := foldingEngine) (P := plainPatterns)
    (r := streetReading) (q := streetSource) rfl
  refine ⟨ruled, modelled, hruled, hmodelled, fun p hp => ?_⟩
  rcases List.mem_append.mp hp with hp | hp
  · exact hrules _ _ _ hruled p hp
  · exact (hatbot _ _ hmodelled).mpr hunder p hp

end Atmem.Memory
