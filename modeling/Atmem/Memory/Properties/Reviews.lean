import Atmem.Memory.Properties.Submissions
/-!
# Reviews

A decision reads its proposal and settles it in a transaction of its own, so
that decisions of any number of connections interleave. One of them takes
effect: the others find the proposal settled and leave nothing behind. What
is approved names nothing that moved since it was proposed.
-/

namespace Atmem.Memory

open Relational Transactional Checked

variable {E : Engine} {w w' : MemoryWorld} {s s' : MemoryStore} {subjectId : String}
variable {p q : ExtractionProposal} {made : List (Call × Answer)} {s₀ t u : Session}
variable {stored : MemoryProposalRow} {decision : ReviewDecision} {sessionId : Option String}
variable {outcome : ExtractionOutcome}

/-! ## One decision -/

/-- What a review comes to is settled; what is committed names nothing that
moved. -/
theorem reviewOutcome_eq_ok
    (h : exec (reviewOutcome E stored p decision sessionId) w = (.ok outcome, w')) :
    outcome.state ≠ .pendingReview ∧
      (outcome.state = .committed → Unmoved E w.store stored.subjectId p) := by
  unfold reviewOutcome at h
  dsimp only at h
  split at h
  · rw [exec_pure] at h
    cases h
    simp
  · simp only [exec_bind, exec_readStore] at h
    split at h
    · rw [exec_pure] at h
      cases h
      simp
    · split at h
      · rw [exec_pure] at h
        cases h
        simp
      · -- past the drift check; the exits before it do not commit
        rename_i hdrift
        split at h
        · rw [exec_pure] at h
          cases h
          simp
        · rw [exec_bind, exec_readStore] at h
          dsimp only at h
          obtain ⟨duplicate, w₁, hlift, hrest⟩ := exec_bind_eq_ok.mp h
          obtain ⟨-, rfl⟩ := exec_liftMem_eq_ok.mp hlift
          split at hrest
          · rw [exec_pure] at hrest
            cases hrest
            simp
          · obtain ⟨commit, w₁, -, hpure⟩ := exec_bind_eq_ok.mp hrest
            rw [exec_pure] at hpure
            cases hpure
            refine ⟨by simp, fun _ => preconditionDrift_eq_nil.mp ?_⟩
            -- what has not drifted has met its preconditions
            unfold drift at hdrift
            exact (List.append_eq_nil_iff.mp (not_not.mp hdrift)).1

/-- A settled proposal was pending when the guard was read, and is as it was
settled. -/
theorem settle_eq_ok (h : exec (settle E stored p decision sessionId) w = (.ok outcome, w')) :
    outcome.state ≠ .pendingReview ∧
      (outcome.state = .committed → Unmoved E w.store stored.subjectId p) ∧
      (∃ w₁ : MemoryWorld, Grows w.store w₁.store ∧ ∃ row ∈ w₁.store.memoryProposals.rows,
        row.proposalId = stored.proposalId ∧ row.reviewState = .pendingReview) ∧
      ∃ row ∈ w'.store.memoryProposals.rows, row.proposalId = stored.proposalId ∧
        row.reviewState = outcome.state ∧ row.outcome = outcome := by
  obtain ⟨o, w₁, hreview, h⟩ := exec_bind_eq_ok.mp h
  obtain ⟨_, w₂, hsettle, h⟩ := exec_bind_eq_ok.mp h
  cases h
  obtain ⟨hpending, hunmoved⟩ := reviewOutcome_eq_ok hreview
  have hgrows₁ : Grows w.store w₁.store := by
    have := keepsRows_reviewOutcome (E := E) stored p decision sessionId w
    rwa [hreview] at this
  -- the guard and the write are one statement: pending before, settled after
  have hguarded (w₂ : MemoryWorld)
      (h : exec (guardedSettle stored.proposalId outcome) w₂ = (.ok (), w')) :
      (∃ row ∈ w₂.store.memoryProposals.rows, row.proposalId = stored.proposalId ∧
        row.reviewState = .pendingReview) ∧
      ∃ row ∈ w'.store.memoryProposals.rows, row.proposalId = stored.proposalId ∧
        row.reviewState = outcome.state ∧ row.outcome = outcome := by
    unfold guardedSettle at h
    simp only [exec_bind, utcNow, exec_readOff, exec_readStore] at h
    split at h
    · cases h
    · rename_i hstate
      rw [not_not, Option.any_eq_true] at hstate
      obtain ⟨row, hrow, hstate⟩ := hstate
      obtain ⟨hmem, hfound⟩ := getMemoryProposal_eq_some.mp hrow
      rw [exec_writeStore] at h
      cases h
      refine ⟨⟨row, hmem, hfound, of_decide_eq_true hstate⟩, _, List.mem_map_of_mem hmem, ?_⟩
      rw [if_pos (decide_eq_true hfound)]
      exact ⟨hfound, rfl, rfl⟩
  refine ⟨hpending, hunmoved, ?_⟩
  unfold settleMemoryProposal at hsettle
  dsimp only at hsettle
  split at hsettle
  · -- what is typed is redacted before the guard is read
    rw [exec_bind, exec_writeStore] at hsettle
    obtain ⟨hbefore, hafter⟩ := hguarded _ hsettle
    refine ⟨⟨_, hgrows₁.trans ?_, hbefore⟩, hafter⟩
    exact grows_updateReviews fun _ _ _ => ⟨rfl, fun _ => ⟨rfl, rfl⟩, .inr rfl⟩
  · obtain ⟨hbefore, hafter⟩ := hguarded _ hsettle
    exact ⟨⟨w₁, hgrows₁, hbefore⟩, hafter⟩

/-! ## What is unchanged -/

/-- What a proposal names is at a later store as it was: what it pinned, in
every column; what it replaces, in force and saying the same. -/
structure Unchanged (E : Engine) (s s' : MemoryStore) (subjectId : String)
    (p : ExtractionProposal) : Prop where
  pinned : ∀ c ∈ p.val.preconditions,
    s'.getRecord subjectId c.val.recordId = s.getRecord subjectId c.val.recordId
  affected : ∀ recordId ∈ p.val.affectedRecordIds, ∃ r r',
    s.getRecord subjectId recordId = some r ∧ s'.getRecord subjectId recordId = some r' ∧
      r.status = .active ∧ r'.status = .active ∧ SameClaim r r' ∧ r'.trustTier = r.trustTier

/-- A record, found again later. -/
theorem Grows.getRecord {recordId : String} {r r' : RecordRow} (hgrows : Grows s s')
    (hr : s.getRecord subjectId recordId = some r)
    (hr' : s'.getRecord subjectId recordId = some r') : RecordMoves r r' := by
  obtain ⟨hmem, -, hid⟩ := getRecord_eq_some.mp hr
  obtain ⟨hmem', -, hid'⟩ := getRecord_eq_some.mp hr'
  obtain ⟨r₁, hr₁, hmoves⟩ := hgrows.records r hmem
  have hsame : r₁ = r' := eq_of_record_id hr₁ hmem' (hmoves.id.trans (hid.trans hid'.symm))
  exact hsame ▸ hmoves

/-- What did not move between two moments is unchanged. -/
theorem Unmoved.unchanged (h : Unmoved E s subjectId p) (h' : Unmoved E s' subjectId p)
    (hgrows : Grows s s') : Unchanged E s s' subjectId p := by
  refine ⟨fun c hc => ?_, fun recordId hid => ?_⟩
  · obtain ⟨r, hr, hgeneration, -⟩ := h.pinned c hc
    obtain ⟨r', hr', hgeneration', -⟩ := h'.pinned c hc
    rw [hr, hr', (hgrows.getRecord hr hr').same (hgeneration'.trans hgeneration.symm)]
  · obtain ⟨r, hr, hactive⟩ := h.affected recordId hid
    obtain ⟨r', hr', hactive'⟩ := h'.affected recordId hid
    have hmoves := hgrows.getRecord hr hr'
    have hlive : r'.status ≠ .tombstoned := by simp [hactive']
    exact ⟨r, r', hr, hr', hactive, hactive', hmoves.claim hlive,
      hmoves.trust (hactive'.trans hactive.symm)⟩

/-! ## Runs -/

/-- Whether a call decided the proposal. -/
def decides (proposalId : String) : Call × Answer → Bool
  | (.settle stored _ _ _ _, .settled (.ok _)) => stored.proposalId = proposalId
  | _ => false

/-- The proposal of the row is settled. -/
def IsSettled (s : MemoryStore) (proposalId : String) : Prop :=
  ∃ row ∈ s.memoryProposals.rows, row.proposalId = proposalId ∧ row.reviewState ≠ .pendingReview

/-- What is settled stays so. -/
theorem IsSettled.grows {proposalId : String} (h : IsSettled s proposalId) (hgrows : Grows s s') :
    IsSettled s' proposalId := by
  obtain ⟨row, hrow, hid, hstate⟩ := h
  obtain ⟨row', hrow', hmoves⟩ := hgrows.reviews row hrow
  refine ⟨row', hrow', (congrArg Prod.fst hmoves.key).trans hid, ?_⟩
  rw [(hmoves.decided hstate).1]
  exact hstate

/-- A settled proposal is not settled again. -/
theorem not_isSettled_of_settle
    (h : exec (settle E stored p decision sessionId) w = (.ok outcome, w')) :
    ¬ IsSettled w.store stored.proposalId ∧ IsSettled w'.store stored.proposalId := by
  obtain ⟨hne, -, ⟨w₁, hgrows, row, hrow, hid, hpending⟩, row', hrow', hid', hstate, -⟩ :=
    settle_eq_ok h
  refine ⟨fun hsettled => ?_, row', hrow', hid', hstate ▸ hne⟩
  obtain ⟨row₁, hrow₁, hid₁, hstate₁⟩ := hsettled.grows hgrows
  have hsame : row₁ = row := eq_of_proposalId hrow₁ hrow (hid₁.trans hid.symm)
  exact hstate₁ (hsame ▸ hpending)

/-- A call that settles runs the settlement. -/
theorem settle_run_eq_ok {authorization : Option ReviewAuthorization}
    (h : ((Call.settle stored p decision sessionId authorization).body E u).1 =
      .settled (.ok outcome)) :
    exec (settle E stored p decision sessionId) u.world = (.ok outcome,
        ((Call.settle stored p decision sessionId authorization).body E u).2.world) ∧
      ((Call.settle stored p decision sessionId authorization).body E u).2.reviews = u.reviews ++
        [{ proposalId := stored.proposalId, subjectId := stored.subjectId,
           decision := decision.recorded, recordIds := outcome.recordIds }] := by
  unfold Call.body at h ⊢
  dsimp only at h ⊢
  rcases hrun : atomic (settle E stored p decision sessionId) u.world with ⟨e | o, w'⟩
  · rw [hrun] at h
    cases h
  · rw [hrun] at h
    cases h
    exact ⟨atomic_eq_ok.mp hrun, rfl⟩

/-- **A decision that loses leaves nothing behind.** -/
theorem settle_run_eq_error {authorization : Option ReviewAuthorization} {e : MemoryError}
    (h : ((Call.settle stored p decision sessionId authorization).body E u).1 =
      .settled (.error e)) :
    ((Call.settle stored p decision sessionId authorization).body E u).2.world.store =
        u.world.store ∧
      ((Call.settle stored p decision sessionId authorization).body E u).2.reviews = u.reviews := by
  have hkept : ((Call.settle stored p decision sessionId authorization).body E u).2.world.store =
      u.world.store := by
    unfold Call.body at h ⊢
    dsimp only at h ⊢
    rcases hrun : atomic (settle E stored p decision sessionId) u.world with ⟨e' | o, w'⟩
    · have hstore := atomic_store_of_error (congrArg Prod.fst hrun)
      rw [hrun] at hstore
      exact hstore
    · rw [hrun] at h
      cases h
  refine ⟨hkept, ?_⟩
  unfold Call.body at h ⊢
  dsimp only at h ⊢
  rcases hrun : atomic (settle E stored p decision sessionId) u.world with ⟨e' | o, w'⟩
  · rfl
  · rw [hrun] at h
    cases h

/-- What the calls so far have decided. -/
structure Ledger (made : List (Call × Answer)) (t : Session) : Prop where
  once : ∀ proposalId, made.countP (decides proposalId) ≤ 1
  settled : ∀ proposalId, 0 < made.countP (decides proposalId) →
    IsSettled t.world.store proposalId
  recorded : ∀ proposalId, t.reviews.countP (·.proposalId = proposalId) =
    made.countP (decides proposalId)

/-- A call that decides nothing. -/
theorem Ledger.keep (h : Ledger made t) {k : Call} {a : Answer} {t' : Session}
    (hgrows : Grows t.world.store t'.world.store) (hreviews : t'.reviews = t.reviews)
    (hno : ∀ proposalId, decides proposalId (k, a) = false) : Ledger (made ++ [(k, a)]) t' := by
  have hcount (proposalId : String) : (made ++ [(k, a)]).countP (decides proposalId) =
      made.countP (decides proposalId) := by
    rw [List.countP_append, List.countP_cons, hno]
    rfl
  refine ⟨fun id => (hcount id).symm ▸ h.once id, fun id hpos => ?_, fun id => ?_⟩
  · rw [hcount] at hpos
    exact (h.settled id hpos).grows hgrows
  · rw [hcount, hreviews]
    exact h.recorded id

/-- A decision that takes effect is the first of its proposal. -/
theorem Ledger.take (h : Ledger made u) {authorization : Option ReviewAuthorization}
    (hrun : ((Call.settle stored p decision sessionId authorization).body E u).1 =
      .settled (.ok outcome)) :
    Ledger (made ++ [(.settle stored p decision sessionId authorization, .settled (.ok outcome))])
      ((Call.settle stored p decision sessionId authorization).body E u).2 := by
  obtain ⟨hexec, hreviews⟩ := settle_run_eq_ok hrun
  obtain ⟨hnot, hsettled⟩ := not_isSettled_of_settle hexec
  have hgrows := grows_call (E := E) (.settle stored p decision sessionId authorization) u
  -- it was pending, so no decision of it is on record
  have hzero : made.countP (decides stored.proposalId) = 0 := by
    by_contra hne
    exact hnot (h.settled _ (Nat.pos_of_ne_zero hne))
  have hcount (proposalId : String) :
      (made ++ [(Call.settle stored p decision sessionId authorization,
        Answer.settled (.ok outcome))]).countP (decides proposalId) =
      made.countP (decides proposalId) + if stored.proposalId = proposalId then 1 else 0 := by
    rw [List.countP_append, List.countP_cons, List.countP_nil]
    by_cases hid : stored.proposalId = proposalId
    · simp [decides, hid]
    · simp [decides, hid]
  refine ⟨fun id => ?_, fun id hpos => ?_, fun id => ?_⟩
  · rw [hcount]
    by_cases hid : stored.proposalId = id
    · rw [if_pos hid, ← hid, hzero]
    · rw [if_neg hid]
      exact h.once id
  · by_cases hid : stored.proposalId = id
    · exact hid ▸ hsettled
    · rw [hcount, if_neg hid] at hpos
      exact (h.settled id hpos).grows hgrows
  · rw [hcount, hreviews, List.countP_append, h.recorded id, List.countP_cons, List.countP_nil]
    by_cases hid : stored.proposalId = id
    · simp [hid]
    · simp [hid]

/-- Every run keeps its ledger. -/
theorem ledger_of_run {start : Session → Prop} (hstart : ∀ s, start s → s.reviews = [])
    (hr : History.Run (Call.body E) Call.Allowed start made t) : Ledger made t := by
  refine hr.invariant (fun s hs => ?_) fun made s k _ _ h => ?_
  · refine ⟨fun _ => Nat.zero_le _, fun _ hpos => absurd hpos (Nat.lt_irrefl _), fun _ => ?_⟩
    rw [hstart s hs]
    rfl
  · have hgrows := grows_call (E := E) k s
    cases k with
    | settle stored p decision sessionId authorization =>
      rcases hrun : (Call.body E (.settle stored p decision sessionId authorization) s).1 with
        _ | _ | _ | _ | _ | (e | outcome) | _
      case settled.ok => exact h.take hrun
      case settled.error => exact h.keep hgrows (settle_run_eq_error hrun).2 fun _ => rfl
      all_goals
        exfalso
        unfold Call.body at hrun
        dsimp only at hrun
        split at hrun <;> cases hrun
    | _ => exact h.keep hgrows rfl fun _ => rfl

/-! ## What a review was prepared against -/

/-- A row that is stored, read again later: it was waiting then as it is now,
and says the same. -/
theorem row_of_read {row : MemoryProposalRow} (hrow : row ∈ s.memoryProposals.rows)
    (hgrows : Grows s s') (hread : s'.getMemoryProposal stored.proposalId = some stored)
    (hid : row.proposalId = stored.proposalId) (hpending : stored.reviewState = .pendingReview)
    (hproposal : stored.proposal = some p) :
    row.reviewState = .pendingReview ∧ row.proposal = some p ∧ row.subjectId = stored.subjectId := by
  obtain ⟨row', hrow', hmoves⟩ := hgrows.reviews row hrow
  have hid' : row'.proposalId = stored.proposalId := (congrArg Prod.fst hmoves.key).trans hid
  obtain ⟨hstored, -⟩ := getMemoryProposal_eq_some.mp hread
  have hsame : row' = stored := eq_of_proposalId hrow' hstored hid'
  subst hsame
  refine ⟨?_, ?_, (congrArg (fun key => key.2.1) hmoves.key).symm⟩
  · by_contra hne
    exact hne ((hmoves.decided hne).1.symm.trans hpending)
  · rcases hmoves.proposal with hkept | hredacted
    · exact hkept.symm.trans hproposal
    · rw [hproposal] at hredacted
      cases hredacted

/-- The submission that stored a proposal was prepared against records that
did not move since. -/
theorem unmoved_when_prepared {before rest : List (Call × Answer)} {options : SubmitOptions}
    {row : MemoryProposalRow}
    (hr : Session.RunFrom E s₀ (before ++ (.submitExtractionProposal q options,
      .submitted (.ok row)) :: rest) u)
    (hnew : Unsubmitted (Session.after E s₀ before).world.store q)
    (hread : (.getMemoryProposal stored.proposalId, .stored (some stored)) ∈
      before ++ (.submitExtractionProposal q options, .submitted (.ok row)) :: rest)
    (hid : row.proposalId = stored.proposalId) (hpending : stored.reviewState = .pendingReview)
    (hproposal : stored.proposal = some p) :
    Unmoved E (Session.after E s₀ before).world.store stored.subjectId p ∧
      Grows (Session.after E s₀ before).world.store u.world.store := by
  obtain ⟨hbefore, hallowed, hanswer⟩ := hr.at_split
  have hrun : (atomic (submitExtractionProposal E q options)
      (Session.after E s₀ before).world).1 = .ok row := by
    simpa [Call.body] using hanswer
  obtain ⟨prepared, hsubmitted⟩ :=
    exists_submitted hnew (atomic_eq_ok.mp (Prod.ext hrun rfl))
  have hgrows := grows_call (E := E) (.submitExtractionProposal q options)
    (Session.after E s₀ before)
  -- the read came after: before, no row had this identifier
  have hread : (.getMemoryProposal stored.proposalId, .stored (some stored)) ∈ rest := by
    rcases List.mem_append.mp hread with hearly | hlate
    · exfalso
      obtain ⟨front, back, hsplit⟩ := List.append_of_mem hearly
      obtain ⟨x, -, -, hx, hlater⟩ := exists_grows hbefore hsplit
      have hfound : x.world.store.getMemoryProposal stored.proposalId = some stored := by
        simpa [Call.body] using hx
      obtain ⟨hmem, -⟩ := getMemoryProposal_eq_some.mp hfound
      obtain ⟨row', hrow', hmoves⟩ := hlater.reviews stored hmem
      exact hsubmitted.fresh row' hrow' ((congrArg Prod.fst hmoves.key).trans hid.symm)
    · rcases List.mem_cons.mp hlate with heq | hlate
      · cases heq
      · exact hlate
  obtain ⟨front, back, rfl⟩ := List.append_of_mem hread
  have hsplit : before ++ (.submitExtractionProposal q options, .submitted (.ok row)) ::
      (front ++ (.getMemoryProposal stored.proposalId, .stored (some stored)) :: back) =
      (before ++ (.submitExtractionProposal q options, .submitted (.ok row)) :: front) ++
        (.getMemoryProposal stored.proposalId, .stored (some stored)) :: back := by simp
  obtain ⟨x, hx, -, hanswerx, hlaterx⟩ := exists_grows hr hsplit
  have hfound : x.world.store.getMemoryProposal stored.proposalId = some stored := by
    simpa [Call.body] using hanswerx
  obtain ⟨v, hv, -, -, hlaterv⟩ := exists_grows hx rfl
  have hveq := hv.eq_stateAfter
  subst hveq
  obtain ⟨hwaits, hverdict, hsubject⟩ :=
    row_of_read hsubmitted.stored hlaterv hfound hid hpending hproposal
  have hprepared : prepared.proposal = p := by
    rcases hsubmitted.proposal with hsome | hnone
    · rw [hverdict] at hsome
      exact (Option.some.inj hsome).symm
    · rw [hverdict] at hnone
      cases hnone
  obtain ⟨hscope, -, -⟩ := prepare_cases hsubmitted.prepares
  have hunmoved := (hsubmitted.unmoved (wellPosed_of_allowed hallowed) (.inr hwaits)).1
  have hsubjectq : q.val.scope.val.subjectId = stored.subjectId := by
    rw [← hsubject, hsubmitted.subjectId, hscope]
  rw [hprepared, hsubjectq] at hunmoved
  exact ⟨hunmoved, hgrows.trans (hlaterv.trans hlaterx)⟩

/-- What decisions come to in a run. -/
structure ReviewedOnce (E : Engine) (s₀ : Session) (made : List (Call × Answer)) : Prop where
  /-- At most one decision of a proposal takes effect. -/
  once : ∀ proposalId, made.countP (decides proposalId) ≤ 1
  /-- The decisions on record are those that took effect. -/
  recorded : ∀ proposalId, (Session.after E s₀ made).reviews.countP (·.proposalId = proposalId) =
    made.countP (decides proposalId)
  /-- A decision that takes effect is how its proposal stays. -/
  final : ∀ stored p decision sessionId authorization outcome,
    (Call.settle stored p decision sessionId authorization,
        Answer.settled (Except.ok outcome)) ∈ made →
      ∃ row ∈ (Session.after E s₀ made).world.store.memoryProposals.rows,
        row.proposalId = stored.proposalId ∧ row.reviewState = outcome.state ∧
          row.outcome = outcome
  /-- One that loses leaves nothing behind. -/
  lost : ∀ before rest stored p decision sessionId authorization e,
    made = before ++ (Call.settle stored p decision sessionId authorization,
        Answer.settled (Except.error e)) :: rest →
      (Session.after E s₀ (before ++ [(Call.settle stored p decision sessionId authorization,
          Answer.settled (Except.error e))])).world.store =
        (Session.after E s₀ before).world.store ∧
        (Session.after E s₀ (before ++ [(Call.settle stored p decision sessionId authorization,
          Answer.settled (Except.error e))])).reviews = (Session.after E s₀ before).reviews
  /-- What is committed names nothing that moved. -/
  unmoved : ∀ before rest stored p decision sessionId authorization outcome,
    made = before ++ (Call.settle stored p decision sessionId authorization,
        Answer.settled (Except.ok outcome)) :: rest → outcome.state = .committed →
      Unmoved E (Session.after E s₀ before).world.store stored.subjectId p
  /-- What it names is as it was when it was submitted. -/
  unchanged : ∀ front back rest stored p decision sessionId authorization outcome q options row,
    made = (front ++ (Call.submitExtractionProposal q options,
          Answer.submitted (Except.ok row)) :: back) ++
        (Call.settle stored p decision sessionId authorization,
          Answer.settled (Except.ok outcome)) :: rest →
      outcome.state = .committed → row.proposalId = stored.proposalId →
      Unsubmitted (Session.after E s₀ front).world.store q →
      Unchanged E (Session.after E s₀ front).world.store
        (Session.after E s₀ (front ++ (Call.submitExtractionProposal q options,
          Answer.submitted (Except.ok row)) :: back)).world.store stored.subjectId p

/-- **Reviews are decided once.** -/
theorem reviews_decided_once (hs₀ : s₀.Empty) (hr : Session.RunFrom E s₀ made t) :
    ReviewedOnce E s₀ made := by
  have ht := hr.eq_stateAfter
  subst ht
  have hledger := ledger_of_run (fun s hs => by rw [hs]; exact hs₀.2) hr
  -- a decision that took effect, at its moment
  have hmoment {before rest : List (Call × Answer)} {stored : MemoryProposalRow}
      {p : ExtractionProposal} {decision : ReviewDecision} {sessionId : Option String}
      {authorization : Option ReviewAuthorization} {outcome : ExtractionOutcome}
      (hsplit : made = before ++ (.settle stored p decision sessionId authorization,
        .settled (.ok outcome)) :: rest) :
      Session.RunFrom E s₀ before (Session.after E s₀ before) ∧
        (Call.settle stored p decision sessionId authorization).Allowed before
          (Session.after E s₀ before) ∧
        exec (settle E stored p decision sessionId) (Session.after E s₀ before).world =
          (.ok outcome, ((Call.settle stored p decision sessionId authorization).body E
            (Session.after E s₀ before)).2.world) := by
    subst hsplit
    obtain ⟨hbefore, hallowed, hanswer⟩ := hr.at_split
    exact ⟨hbefore, hallowed, (settle_run_eq_ok hanswer).1⟩
  refine ⟨hledger.once, hledger.recorded, ?_, ?_, ?_, ?_⟩
  · intro stored p decision sessionId authorization outcome hmem
    obtain ⟨before, rest, hsplit⟩ := List.append_of_mem hmem
    obtain ⟨-, -, hexec⟩ := hmoment hsplit
    obtain ⟨v, hv, -, -, hlater⟩ := exists_grows hr hsplit
    have hveq := hv.eq_stateAfter
    subst hveq
    obtain ⟨hne, -, -, row, hrow, hid, hstate, houtcome⟩ := settle_eq_ok hexec
    obtain ⟨row', hrow', hmoves⟩ := hlater.reviews row hrow
    obtain ⟨hstate', houtcome'⟩ := hmoves.decided (hstate ▸ hne)
    exact ⟨row', hrow', (congrArg Prod.fst hmoves.key).trans hid, hstate'.trans hstate,
      houtcome'.trans houtcome⟩
  · intro before rest stored p decision sessionId authorization e hsplit
    subst hsplit
    obtain ⟨-, -, hanswer⟩ := hr.at_split
    unfold Session.after
    rw [History.stateAfter_append]
    exact settle_run_eq_error hanswer
  · intro before rest stored p decision sessionId authorization outcome hsplit hcommitted
    obtain ⟨-, -, hexec⟩ := hmoment hsplit
    exact (settle_eq_ok hexec).2.1 hcommitted
  · intro front back rest stored p decision sessionId authorization outcome q options row hsplit
      hcommitted hid hnew
    obtain ⟨hbefore, ⟨hread, hreviewable⟩, hexec⟩ := hmoment hsplit
    obtain ⟨hprepared, hgrows⟩ := unmoved_when_prepared hbefore hnew hread hid hreviewable.1
      hreviewable.2.1
    exact hprepared.unchanged ((settle_eq_ok hexec).2.1 hcommitted) hgrows

/-! ## A colour that waits -/

/-- A colour that is to be reviewed. -/
def purple : ExtractionProposal :=
  ⟨{ colourFields "p1" "purple" colourEvidence [] with reviewRequired := true }, by decide +kernel⟩

/-- The proposal, as it waits for review. -/
def purpleRow : MemoryProposalRow :=
  ((colourRun [purple]).2.world.store.getMemoryProposal "p1").get (by decide +kernel)

/-- It is read, approved by one reviewer, and rejected by another. -/
def purpleCalls : List Call :=
  [.submitExtractionProposal purple colourOptions, .getMemoryProposal "p1",
    .settle purpleRow purple .approve none none, .settle purpleRow purple .reject none none]

/-- The run of the example. -/
def purpleRun : List (Call × Answer) × Session :=
  History.play (Call.body plainEngine) purpleCalls ⟨plainWorld, []⟩

/-- The first decision takes effect, and it alone. -/
theorem purple_reviewed_once :
    ReviewedOnce plainEngine ⟨plainWorld, []⟩ purpleRun.1 ∧
      purpleRun.1.countP (decides "p1") = 1 := by
  have hstart : Session.RunFrom plainEngine ⟨plainWorld, []⟩ [] ⟨plainWorld, []⟩ := .start rfl
  have hread : (colourRun [purple]).2.world.store.getMemoryProposal "p1" = some purpleRow :=
    (Option.some_get _).symm
  have hproposalId : purpleRow.proposalId = "p1" := by decide +kernel
  have hreviewable (decision : ReviewDecision) (hedit : decision.edits = false) :
      Reviewable purpleRow purple decision none := by
    refine ⟨by decide +kernel, by decide +kernel, ?_, ?_, by decide +kernel⟩
    · rintro editedFact rfl
      cases hedit
    · simp [hedit]
  have hallowed : History.AllowedInTurn (Call.body plainEngine) Call.Allowed [] ⟨plainWorld, []⟩
      purpleCalls := by
    refine ⟨allowed_colour, trivial, ⟨?_, hreviewable _ rfl⟩, ⟨?_, hreviewable _ rfl⟩, trivial⟩
    · rw [hproposalId, ← hread]
      exact List.mem_cons_of_mem _ List.mem_cons_self
    · rw [hproposalId, ← hread]
      exact List.mem_cons_of_mem _ List.mem_cons_self
  exact ⟨reviews_decided_once ⟨rfl, rfl⟩ (hstart.inTurn hallowed), by decide +kernel⟩

end Atmem.Memory
