import Mathlib.Data.List.Perm.Lattice
import Atmem.Common.Checked
import Atmem.Retrieve.Model.Decision
/-!
# Priors only reorder

What a record's score, tier, age, place in the graph or rerank is bears on its
rank and on nothing else: two lists of candidates that differ in these alone
are given the same classes, and the same records are selected of both.
-/

namespace Atmem.Retrieve

open Checked

variable {L : Language} {K : Calibration} {query : String} {allowBackground : Bool}

/-! ## Candidates that differ in their priors -/

/-- The fields of a candidate that are priors. -/
def candidatePriors : List String := ["score", "trust_tier", "graph"]

/-- The signals that are priors. -/
def signalPriors : List String := ["graph", "recency_score", "atbot_score"]

/-- The signals of two candidates, but for the priors: both are dictionaries
that agree elsewhere, or neither is one. -/
inductive SameSignals : Except PyError Dict → Except PyError Dict → Prop
  | read {signals signals' : Dict}
      (h : ∀ key ∉ signalPriors, signals.entry key = signals'.entry key) :
      SameSignals (.ok signals) (.ok signals')
  | raised (e : PyError) : SameSignals (.error e) (.error e)

/-- Two candidates that differ in their priors at most. -/
structure SameEvidence (L : Language) (candidate candidate' : Dict) : Prop where
  entries : ∀ key ∉ "signals" :: candidatePriors, candidate.entry key = candidate'.entry key
  signals : SameSignals (signalsOf L candidate) (signalsOf L candidate')

variable {candidate candidate' signals signals' : Dict}

/-- The priors are no part of the identifier. -/
theorem recordIdOf_congr (h : SameEvidence L candidate candidate') :
    recordIdOf L candidate = recordIdOf L candidate' := by
  unfold recordIdOf
  rw [h.entries "record_id" (by decide), h.entries "id" (by decide)]

/-- Nor of the fields that are read. -/
theorem semanticField_congr {name key : String} {default : Value}
    (h : ∀ key ∉ signalPriors, signals.entry key = signals'.entry key)
    (hname : name ∉ signalPriors) :
    semanticField signals name key default = semanticField signals' name key default := by
  unfold semanticField semanticEvidence
  rw [h name hname, h "semantic_evidence" (by decide)]

/-- **Relevance is read off no prior.** -/
theorem relevanceOf_congr
    (hentries : ∀ key ∉ "signals" :: candidatePriors, candidate.entry key = candidate'.entry key)
    (hsignals : ∀ key ∉ signalPriors, signals.entry key = signals'.entry key) :
    relevanceOf L K query candidate signals = relevanceOf L K query candidate' signals' := by
  unfold relevanceOf
  rw [hentries "fact_key" (by decide), hentries "content" (by decide),
    hsignals "fact_key" (by decide), semanticField_congr hsignals (by decide),
    semanticField_congr hsignals (by decide), semanticField_congr hsignals (by decide)]

/-! ## One candidate -/

/-- A record, and the class it is given. -/
def CandidateDecision.classed (d : CandidateDecision) : String × SupportClass :=
  (d.recordId, d.supportClass)

/-- The class of a decision is that of its relevance. -/
theorem classed_decisionOf (candidate signals : Dict) (r : Relevance) :
    (decisionOf L K candidate signals r).classed =
      (recordIdOf L candidate, (supportOf K r.relevance).1) := by
  unfold decisionOf CandidateDecision.classed
  rcases supportOf K r.relevance with ⟨support, reason⟩
  dsimp only

/-- The class of a candidate, without the record that is made of it. -/
theorem map_classed_decideCandidate (candidate : Dict) :
    (decideCandidate L K query candidate).map CandidateDecision.classed =
      signalsOf L candidate >>= fun signals => (relevanceOf L K query candidate signals).map
        fun r => (recordIdOf L candidate, (supportOf K r.relevance).1) := by
  unfold decideCandidate
  cases signalsOf L candidate with
  | error e => rfl
  | ok signals =>
    dsimp only [bind, Except.bind]
    cases relevanceOf L K query candidate signals with
    | error e => rfl
    | ok r => exact congrArg Except.ok (classed_decisionOf candidate signals r)

/-- A decision is about its candidate. -/
theorem recordId_of_decideCandidate {d : CandidateDecision}
    (h : decideCandidate L K query candidate = .ok d) : d.recordId = recordIdOf L candidate := by
  obtain ⟨signals, -, h⟩ := bind_eq_ok_iff.mp h
  obtain ⟨r, -, h⟩ := bind_eq_ok_iff.mp h
  rw [← Except.ok.inj h]
  exact congrArg Prod.fst (classed_decisionOf (K := K) candidate signals r)

/-- The loop's body gives both the same class, or fails on both. -/
theorem decideCandidate_congr (h : SameEvidence L candidate candidate') :
    (decideCandidate L K query candidate).map CandidateDecision.classed =
      (decideCandidate L K query candidate').map CandidateDecision.classed := by
  rw [map_classed_decideCandidate, map_classed_decideCandidate]
  have hsignals := h.signals
  generalize signalsOf L candidate = read at hsignals ⊢
  generalize signalsOf L candidate' = read' at hsignals ⊢
  dsimp only [bind, Except.bind]
  cases hsignals with
  | raised e => dsimp only
  | read hsame =>
    dsimp only
    rw [relevanceOf_congr h.entries hsame, recordIdOf_congr h]

/-! ## The loop -/

/-- So all the candidates are classed alike. -/
theorem decideAll_congr (K : Calibration) (query : String) {candidates changed : List Dict}
    (h : List.Forall₂ (SameEvidence L) candidates changed) :
    (candidates.mapM (decideCandidate L K query)).map (List.map CandidateDecision.classed) =
      (changed.mapM (decideCandidate L K query)).map (List.map CandidateDecision.classed) := by
  rw [map_mapM, map_mapM]
  exact mapM_congr_forall₂ (h.imp fun _ _ => decideCandidate_congr)

/-! ## The decision -/

variable {decisions decisions' : List CandidateDecision} {support : SupportClass}

theorem idsOf_eq_nil : idsOf support decisions = [] ↔
    ∀ d ∈ decisions, d.supportClass ≠ support := by
  simp [idsOf, List.filter_eq_nil_iff]

/-- What is selected of one class, where both give the same classes. -/
theorem perm_idsOf
    (h : (decisions.map CandidateDecision.classed).Perm (decisions'.map CandidateDecision.classed))
    (support : SupportClass) : (idsOf support decisions).Perm (idsOf support decisions') := by
  have hids (ds : List CandidateDecision) : idsOf support ds =
      ((ds.map CandidateDecision.classed).filter (·.2 = support)).map (·.1) := by
    rw [List.filter_map, List.map_map]
    rfl
  rw [hids, hids]
  exact (h.filter _).map _

/-- **The decision is read off the classes**, whatever the order. -/
theorem retrievalDecision_congr (K : Calibration) (allowBackground : Bool)
    (h : (decisions.map CandidateDecision.classed).Perm
      (decisions'.map CandidateDecision.classed)) :
    (retrievalDecision K allowBackground decisions).supportClass =
        (retrievalDecision K allowBackground decisions').supportClass ∧
      (retrievalDecision K allowBackground decisions).rankedRecordIds.Perm
        (retrievalDecision K allowBackground decisions').rankedRecordIds := by
  have hdirect := perm_idsOf h .direct
  have hbackground := perm_idsOf h .background
  have hnil (support : SupportClass) :
      idsOf support decisions = [] ↔ idsOf support decisions' = [] :=
    ⟨fun hnil => ((perm_idsOf h support).symm.trans (.of_eq hnil)).eq_nil,
      fun hnil => ((perm_idsOf h support).trans (.of_eq hnil)).eq_nil⟩
  have hany : decisions.any (·.supportClass = .background) =
      decisions'.any (·.supportClass = .background) := by
    have hiff := hnil .background
    rw [idsOf_eq_nil, idsOf_eq_nil] at hiff
    rw [Bool.eq_iff_iff, ← not_iff_not]
    simpa using hiff
  unfold retrievalDecision
  dsimp only
  by_cases hempty : idsOf .direct decisions = []
  · rw [if_neg (not_not.mpr hempty), if_neg (not_not.mpr hempty),
      if_neg (not_not.mpr ((hnil _).mp hempty)), if_neg (not_not.mpr ((hnil _).mp hempty)), hany]
    refine ⟨rfl, ?_⟩
    split
    · exact perm_idsOf h .background
    · exact .refl _
  · rw [if_pos hempty, if_pos hempty, if_pos (mt (hnil _).mpr hempty),
      if_pos (mt (hnil _).mpr hempty)]
    exact ⟨rfl, perm_idsOf h .direct⟩

/-- A background record is selected where nothing is direct and background is
allowed. -/
theorem mem_rankedRecordIds_of_background (hids : (decisions.map (·.recordId)).Nodup)
    {d : CandidateDecision} (hd : d ∈ decisions) (hsupport : d.supportClass = .background) :
    d.recordId ∈ (retrievalDecision K allowBackground decisions).rankedRecordIds ↔
      allowBackground = true ∧ ∀ d' ∈ decisions, d'.supportClass ≠ .direct := by
  unfold retrievalDecision
  dsimp only
  rw [← idsOf_eq_nil]
  by_cases hempty : idsOf .direct decisions = []
  · rw [if_neg (not_not.mpr hempty)]
    cases allowBackground with
    | false => exact ⟨fun h => absurd h List.not_mem_nil, fun h => absurd h.1 Bool.false_ne_true⟩
    | true =>
      refine iff_of_true ?_ ⟨rfl, hempty⟩
      exact List.mem_map.mpr ⟨d, List.mem_filter.mpr ⟨hd, decide_eq_true hsupport⟩, rfl⟩
  · rw [if_pos hempty]
    refine iff_of_false (fun hmem => ?_) fun h => hempty h.2
    obtain ⟨d', hd', hsame⟩ := List.mem_map.mp hmem
    obtain ⟨hd', hdirect⟩ := List.mem_filter.mp hd'
    -- the ids are distinct, so the direct record would be this one
    have heq := List.inj_on_of_nodup_map hids hd' hd hsame
    rw [heq, hsupport] at hdirect
    exact absurd hdirect (by decide)

/-! ## Two runs -/

/-- **Priors only reorder.** Candidates that differ in their priors alone are
decided alike: of the classes as a whole, of each record, and of the records
selected. A background record is withheld unless nothing is direct and
background is allowed. -/
theorem priors_only_reorder {candidates changed : List Dict}
    (hsame : List.Forall₂ (SameEvidence L) candidates changed)
    (hids : (candidates.map (recordIdOf L)).Nodup) :
    (∀ e, decideRetrieval L K query candidates allowBackground = .error e →
      decideRetrieval L K query changed allowBackground = .error e) ∧
    ∀ d, decideRetrieval L K query candidates allowBackground = .ok d →
      (∃ d', decideRetrieval L K query changed allowBackground = .ok d' ∧
        d'.supportClass = d.supportClass ∧
        (d'.candidates.map CandidateDecision.classed).Perm
          (d.candidates.map CandidateDecision.classed) ∧
        d'.rankedRecordIds.Perm d.rankedRecordIds) ∧
      ∀ c ∈ d.candidates, c.supportClass = .background →
        (c.recordId ∈ d.rankedRecordIds ↔
          allowBackground = true ∧ ∀ c' ∈ d.candidates, c'.supportClass ≠ .direct) := by
  have hloop := decideAll_congr K query hsame
  unfold decideRetrieval
  cases hdecided : candidates.mapM (decideCandidate L K query) with
  | error e =>
    cases hchanged : changed.mapM (decideCandidate L K query) with
    | ok _ =>
      rw [hdecided, hchanged] at hloop
      cases hloop
    | error e' =>
      rw [hdecided, hchanged] at hloop
      obtain rfl : e = e' := Except.error.inj hloop
      refine ⟨fun _ h => h, fun d h => ?_⟩
      cases h
  | ok decisions =>
    cases hchanged : changed.mapM (decideCandidate L K query) with
    | error _ =>
      rw [hdecided, hchanged] at hloop
      cases hloop
    | ok decisions' =>
      rw [hdecided, hchanged] at hloop
      -- the decisions differ in the prior alone, and so in their order
      have hclasses : decisions.map CandidateDecision.classed =
        decisions'.map CandidateDecision.classed := Except.ok.inj hloop
      have hsorted := List.perm_insertionSort (ranksBefore · ·) decisions
      have hsorted' := List.perm_insertionSort (ranksBefore · ·) decisions'
      have hperm := (hsorted'.map CandidateDecision.classed).trans
        ((List.Perm.of_eq hclasses.symm).trans (hsorted.map CandidateDecision.classed).symm)
      refine ⟨(fun e h => nomatch h), fun d h => ?_⟩
      obtain rfl := Except.ok.inj h
      obtain ⟨hclass, hselected⟩ := retrievalDecision_congr K allowBackground hperm
      refine ⟨⟨_, rfl, hclass, hperm, hselected⟩, fun c hc hbackground => ?_⟩
      have hrecords : decisions.map (·.recordId) = candidates.map (recordIdOf L) :=
        map_of_mapM_eq_ok (fun _ _ => recordId_of_decideCandidate) hdecided
      have hnodup := (hsorted.map (·.recordId)).nodup_iff.mpr (hrecords ▸ hids)
      exact mem_rankedRecordIds_of_background hnodup hc hbackground

/-! ## Two records, one of them promoted -/

/-- A language with ASCII's letters, and a query that asks for no relation. -/
def exampleLanguage : Language where
  unicode := { lower := id, casefold := id, nfkc := id, isAlnum := Char.isAlphanum }
  search _ _ := false
  str _ := ""
  float _ := none
  dict _ := .error .typeError

/-- A candidate with a score and nothing else. -/
def exampleCandidate (id content : String) (score : ℚ) : Dict :=
  [("record_id", .str id), ("content", .str content), ("score", .number score)]

/-- The score of the example is a prior. -/
theorem sameEvidence_exampleCandidate (id content : String) (score score' : ℚ) :
    SameEvidence exampleLanguage (exampleCandidate id content score)
      (exampleCandidate id content score') := by
  constructor
  · intro key hkey
    have hscore : (key == "score") = false := by
      rw [beq_eq_false_iff_ne]
      rintro rfl
      exact hkey (by decide)
    simp [exampleCandidate, Dict.entry, Dict.entryD, List.lookup_cons, hscore]
  · exact .read fun _ _ => rfl

/-- A food record that is promoted, and a car that is not relevant. -/
theorem promoted_record_reordered :
    ∃ d d', decideRetrieval exampleLanguage calibrationV1 "burgers"
        [exampleCandidate "a" "a meal" 0, exampleCandidate "b" "the car" 1] false = .ok d ∧
      decideRetrieval exampleLanguage calibrationV1 "burgers"
        [exampleCandidate "a" "a meal" 1, exampleCandidate "b" "the car" 0] false = .ok d' ∧
      d.rankedRecordIds = ["a"] ∧ d'.rankedRecordIds.Perm ["a"] := by
  obtain ⟨d, hd, hranked⟩ : ∃ d, decideRetrieval exampleLanguage calibrationV1 "burgers"
      [exampleCandidate "a" "a meal" 0, exampleCandidate "b" "the car" 1] false = .ok d ∧
        d.rankedRecordIds = ["a"] := ⟨_, rfl, by decide +kernel⟩
  obtain ⟨⟨d', hd', -, -, hperm⟩, -⟩ := (priors_only_reorder
    (.cons (sameEvidence_exampleCandidate "a" "a meal" 0 1)
      (.cons (sameEvidence_exampleCandidate "b" "the car" 1 0) .nil)) (by decide)).2 d hd
  exact ⟨d, d', hd, hd', hranked, hranked ▸ hperm⟩

end Atmem.Retrieve
