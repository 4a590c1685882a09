import Atmem.TaskState.Helpers.Recording
import Atmem.TaskState.Properties.Replay
/-!
# What a conflict leaves behind

The transaction of a submit inserts the revision it has computed, and then
moves the head under a guard. Where another writer was first, the insertion
fails; where the task was deleted and started anew, only the guard does, and
the revision stays. Everything else a conflict leaves as it was.
-/

namespace Atmem

open Relation Transactional Relational Checked Interleaving

variable {H : Hashing} {s s' : Store} {w : World} {c c' : System}
variable {proposal : TaskStateProposal} {view : TaskView} {decision : PolicyDecision}
variable {now : Instant}

/-- A step that left all of the task state as it was, and added one row to the
ledger of proposals and one to that of steps. -/
structure Untouched (s s' : Store) : Prop where
  tasks : s'.tasks = s.tasks
  revisions : s'.revisions = s.revisions
  provenance : s'.provenance = s.provenance
  profiles : s'.profiles = s.profiles
  sessionBindings : s'.sessionBindings = s.sessionBindings
  auditEvents : s'.auditEvents = s.auditEvents
  proposals : ∃ row, s'.proposals.rows = s.proposals.rows ++ [row]
  steps : ∃ row, s'.steps = s.steps ++ [row]

/-- The task is not at the revision the proposal was made for, and yet has no
successor of it: it was deleted, and started anew. -/
def Restarted (proposal : TaskStateProposal) (s : Store) : Prop :=
  ∃ task ∈ s.tasks.rows, task.taskId = proposal.val.taskId ∧
    task.headRevision ≠ proposal.val.baseRevision ∧
    ∀ r ∈ s.revisions.rows, r.taskId = proposal.val.taskId →
      r.revision ≠ proposal.val.baseRevision + 1 ∧
      r.parentRevision ≠ some proposal.val.baseRevision

/-! ## The transaction -/

/-- What an evaluation decides: what it accepts succeeds the base of the
proposal, and a conflict it finds is one of a stale base. -/
structure Evaluated (proposal : TaskStateProposal) (view : TaskView) (decision : PolicyDecision) :
    Prop where
  succeeds : decision.accepted = true → ∃ next, decision.nextState = some next ∧
    view.state.val.revision = proposal.val.baseRevision ∧
    next.val.taskId = proposal.val.taskId ∧
    next.val.revision = proposal.val.baseRevision + 1 ∧
    next.val.parentRevision = some proposal.val.baseRevision
  stale : decision.outcome = .conflict → decision.reasonCodes = [.staleBaseRevision]

/-- A conflict is found before the operations are looked at. -/
theorem stale_of_evaluate {profile : TaskProfile} {nowIso : String} {allowPrivileged : Bool}
    (he : evaluate H view.state profile proposal nowIso none allowPrivileged = .ok decision)
    (hconflict : decision.outcome = .conflict) : decision.reasonCodes = [.staleBaseRevision] := by
  unfold evaluate at he
  split at he
  · rename_i refusal hp
    cases he
    rcases refusal_of_preconditions hp with ⟨code, rfl⟩ | rfl
    · cases hconflict
    · rfl
  · obtain ⟨verdict, -, he⟩ := bind_eq_ok_iff.mp he
    split at he
    · cases he
      cases hconflict
    · split at he
      · cases he
        cases hconflict
      · obtain ⟨next, -, he⟩ := bind_eq_ok_iff.mp he
        split at he
        · cases he
          cases hconflict
        · obtain ⟨guards, -, he⟩ := bind_eq_ok_iff.mp he
          cases he
          cases hconflict

/-- What was evaluated is about the proposal. -/
theorem evaluated_of_evaluate {profile : TaskProfile} {nowIso : String} {allowPrivileged : Bool}
    (he : evaluate H view.state profile proposal nowIso none allowPrivileged = .ok decision) :
    Evaluated proposal view decision := by
  refine ⟨fun ha => ?_, stale_of_evaluate he⟩
  obtain ⟨next, hacc⟩ := acceptance_of_evaluate he ha
  obtain ⟨-, htask, -, -, -, hbase⟩ := eligible_of_preconditions hacc.eligible
  have hv := (applyOperations_eq_ok hacc.applied).2
  refine ⟨next, hacc.nextState, hbase.symm, ?_, ?_, ?_⟩
  · exact (congrArg TaskStateFields.taskId hv :).trans htask.symm
  · rw [hbase]
    exact (congrArg TaskStateFields.revision hv :)
  · rw [hbase]
    exact (congrArg TaskStateFields.parentRevision hv :)

section Claim

variable {row : RevisionRow}

/-- The successor of the base clashes with no revision exactly where none of
them numbers or succeeds the base the same. -/
theorem clash_eq_false_iff (htask : row.taskId = proposal.val.taskId)
    (hrev : row.revision = proposal.val.baseRevision + 1)
    (hparent : row.parentRevision = some proposal.val.baseRevision) (r : RevisionRow) :
    revisionClash r.key row.key = false ↔ (r.taskId = proposal.val.taskId →
      r.revision ≠ proposal.val.baseRevision + 1 ∧
      r.parentRevision ≠ some proposal.val.baseRevision) := by
  simp only [revisionClash, RevisionRow.key, htask, hrev, hparent, Bool.and_eq_false_iff,
    Bool.or_eq_false_iff, decide_eq_false_iff_not]
  constructor
  · rintro (hne | ⟨hrev', hparent'⟩) hid
    · exact absurd hid hne
    · refine ⟨hrev', fun heq => ?_⟩
      rw [heq] at hparent'
      exact hparent'.elim (fun hne => hne rfl) fun hsome => Bool.false_ne_true hsome.symm
  · intro h
    by_cases hid : r.taskId = proposal.val.taskId
    · exact .inr ⟨(h hid).1, .inl (h hid).2⟩
    · exact .inl hid

/-- The insertion fails only where the task was not restarted. -/
theorem not_restarted_of_refused (htask : row.taskId = proposal.val.taskId)
    (hrev : row.revision = proposal.val.baseRevision + 1)
    (hparent : row.parentRevision = some proposal.val.baseRevision)
    (hrefused : (if s.hasTask row.taskId then s.revisions.insert row else none) = none) :
    ¬ Restarted proposal s := by
  rintro ⟨task, hmem, hid, -, hfree⟩
  have hhas : s.hasTask row.taskId = true :=
    List.any_eq_true.mpr ⟨task, hmem, decide_eq_true (hid.trans htask.symm)⟩
  rw [if_pos hhas, Table.insert, dif_pos fun r hr =>
    (clash_eq_false_iff htask hrev hparent r).mpr (hfree r hr)] at hrefused
  cases hrefused

/-- Where it goes through, the guard is met, unless the task was restarted. -/
theorem restarted_of_unmet {revisions : RevisionTable} (htask : row.taskId = proposal.val.taskId)
    (hrev : row.revision = proposal.val.baseRevision + 1)
    (hparent : row.parentRevision = some proposal.val.baseRevision)
    (hinserted : (if s.hasTask row.taskId then s.revisions.insert row else none) = some revisions)
    (hunmet : s.tasks.rows.countP
      (guarded proposal.val.taskId proposal.val.baseRevision) ≠ 1) : Restarted proposal s := by
  rw [Option.ite_none_right_eq_some, htask] at hinserted
  obtain ⟨cell, hcell⟩ := hasTask_iff.mp hinserted.1
  obtain ⟨hmem, hid, -⟩ := cell_eq_some.mp hcell
  refine ⟨cell.row, hmem, hid, fun hhead => hunmet ?_, fun r hr =>
    (clash_eq_false_iff htask hrev hparent r).mp ((Table.insert_eq_some.mp hinserted.2).1 r hr)⟩
  rw [← hhead]
  exact countP_guarded hcell

end Claim

/-- The insertion and the guarded update, under the handler of `_commit`. -/
theorem exec_claim (row : RevisionRow) (id : String) (expectedHead newHead : ℕ)
    (change : HeadChange) :
    exec (tryCatch
        (do
          insertTaskRevision row
          advanceTaskHead id expectedHead newHead change)
        fun e => if e = .integrityError then pure false else throw e : Tx Bool) s =
      match if s.hasTask row.taskId then s.revisions.insert row else none with
      | some revisions => (.ok (decide (s.tasks.rows.countP (guarded id expectedHead) = 1)),
          ({ s with revisions } : Store).advanced id expectedHead newHead change)
      | none => (.ok false, s) := by
  rw [exec_tryCatch, exec_bind, exec_insertTaskRevision]
  rcases (if s.hasTask row.taskId then s.revisions.insert row else none) <;> rfl

/-- A successor was found, and yet the task was restarted. -/
def Stranded (proposal : TaskStateProposal) (s : Store) (reasonCodes : List ReasonCode) : Prop :=
  Restarted proposal s ∧ reasonCodes = [.concurrentSuccessorCommitted]

/-- **A conflict leaves the store as it was**, unless the revision it has
computed is stranded. -/
theorem resolve_conflict {resolution : Resolution} (hevaluated : Evaluated proposal view decision)
    (he : exec (resolve H proposal view decision now) s = (.ok resolution, s'))
    (hconflict : resolution.outcome = .conflict) :
    (s' = s ∧ ¬ Stranded proposal s resolution.decision.reasonCodes) ∨
      (s'.revisions ≠ s.revisions ∧ Stranded proposal s resolution.decision.reasonCodes) := by
  unfold resolve at he
  by_cases ha : decision.accepted = true
  · obtain ⟨next, hnext, hbase, htask, hrev, hparent⟩ := hevaluated.succeeds ha
    have haccepted : decision.outcome ≠ .conflict := by
      rw [of_decide_eq_true ha]
      decide
    rw [if_pos ha, hnext] at he
    obtain ⟨advanced, s₁, hclaim, hrest⟩ := exec_bind_eq_ok.mp he
    rw [exec_claim, hbase] at hclaim
    split at hclaim
    · rename_i revisions hinserted
      by_cases hmet : s.tasks.rows.countP
          (guarded proposal.val.taskId proposal.val.baseRevision) = 1
      · rw [hmet] at hclaim
        cases hclaim
        obtain ⟨⟨⟩, s₂, -, hreturn⟩ := exec_bind_eq_ok.mp hrest
        cases hreturn
        exact absurd hconflict haccepted
      · -- the head has moved, and the revision stays behind
        rw [decide_eq_false hmet] at hclaim
        cases hclaim
        cases hrest
        refine .inr ⟨fun heq => ?_,
          restarted_of_unmet htask hrev hparent hinserted hmet, rfl⟩
        have hrows := (Table.insert_eq_some.mp
          (Option.ite_none_right_eq_some.mp hinserted).2).2
        have hlength := congrArg (fun t : RevisionTable => t.rows.length) heq
        change revisions.rows.length = s.revisions.rows.length at hlength
        rw [hrows, List.length_append, List.length_singleton] at hlength
        omega
    · -- the number is taken, and nothing is written
      rename_i hrefused
      cases hclaim
      cases hrest
      exact .inl ⟨rfl, fun hs => not_restarted_of_refused htask hrev hparent hrefused hs.1⟩
  · -- stale before anything was claimed
    rw [if_neg ha] at he
    cases he
    refine .inl ⟨rfl, fun hs => ?_⟩
    have hcodes := (hevaluated.stale hconflict).symm.trans hs.2
    exact absurd hcodes (by decide)

/-- **A transaction that conflicts** records its proposal and its step, and
leaves the rest as it was, unless its revision is stranded. -/
theorem commitTx_conflict {typed : TransitionDecision} {stepKind : String} {started : Instant}
    (hevaluated : Evaluated proposal view decision)
    (he : exec (commitTx H proposal view decision stepKind started now) s = (.ok typed, s'))
    (hconflict : typed.val.outcome = .conflict) :
    Untouched s s' ↔ ¬ Stranded proposal s typed.val.reasonCodes := by
  unfold commitTx at he
  obtain ⟨resolution, s₁, hresolve, hrest⟩ := exec_bind_eq_ok.mp he
  obtain ⟨made, s₂, hmake, hrecord⟩ := exec_bind_eq_ok.mp hrest
  -- the decision is made of the resolution, and writes nothing
  have hmade : s₂ = s₁ ∧ made.val = typedDecision H proposal resolution now := by
    rcases hm : TransitionDecision.make (typedDecision H proposal resolution now) with m | t
    · rw [hm] at hmake
      cases hmake
    · rw [hm] at hmake
      cases hmake
      exact ⟨rfl, make_eq_ok.mp hm⟩
  obtain ⟨rfl, htyped⟩ := hmade
  obtain ⟨⟨⟩, s₃, hinsert, hrecord⟩ := exec_bind_eq_ok.mp hrecord
  obtain ⟨⟨⟩, s₄, hstep, hreturn⟩ := exec_bind_eq_ok.mp hrecord
  cases hreturn
  have hcodes : typed.val.reasonCodes = resolution.decision.reasonCodes :=
    (congrArg TransitionDecisionFields.reasonCodes htyped :)
  have hresolved := resolve_conflict hevaluated hresolve
    ((congrArg TransitionDecisionFields.outcome htyped :).symm.trans hconflict)
  rw [← hcodes] at hresolved
  rw [exec_tryCatch, exec_insertTaskProposal] at hinsert
  rcases hi : s₂.proposals.insert (proposalRow H proposal typed resolution.outcome
    resolution.resultingRevision now) with - | proposals
  · rw [hi] at hinsert
    cases hinsert
  · rw [hi] at hinsert
    cases hinsert
    rw [exec_insertTaskStep] at hstep
    split at hstep
    · cases hstep
      -- nothing else was written, or a revision that no head leads to
      rcases hresolved with ⟨rfl, hnot⟩ | ⟨hne, hstranded⟩
      · exact iff_of_true ⟨rfl, rfl, rfl, rfl, rfl, rfl, ⟨_, (Table.insert_eq_some.mp hi).2⟩,
          ⟨_, rfl⟩⟩ hnot
      · exact iff_of_false (fun hu => hne hu.revisions) (not_not.mpr hstranded)
    · cases hstep

/-! ## Among other calls -/

section Safe

variable {R : List Label → Timeline World → Timeline World → Prop}
variable {log : List Label} {h : Timeline World} {α β : Type}

/-- What an answer says, where its last action was a transaction: if it tells of
a conflict, the store is untouched, unless the revision is stranded. -/
def ConflictLeaves (proposal : TaskStateProposal) (log : List Label)
    (r : Except Raised TransitionDecision) (h : Timeline World) : Prop :=
  ∀ d, r = .ok d → log.getLast? = some .transaction → d.val.outcome = .conflict →
    ∃ before older, h.past = before :: older ∧
      (Untouched before.store h.now.store ↔ ¬ Stranded proposal before.store d.val.reasonCodes)

/-- Whatever comes first. -/
theorem safe_after {Q : List Label → Except Raised β → Timeline World → Prop} {x : Svc α}
    {f : α → Svc β}
    (hok : ∀ log' a h', Safe R (fun _ _ => True) Q (f a) log' h')
    (herr : ∀ log' e h', Q log' (.error e) h') :
    Safe R (fun _ _ => True) Q (x >>= f : Svc β) log h :=
  Safe.eff_bind (Safe.unconstrained.mono fun log' _ h' _ =>
    ⟨fun a _ => hok log' a h', fun e _ => herr log' e h'⟩)

/-- An error leaves nothing. -/
theorem conflictLeaves_error {e : Raised} : ConflictLeaves proposal log (.error e) h :=
  fun _ hd => nomatch hd

/-- A commit that conflicts leaves the task alone. -/
theorem safe_commit_conflict {stepKind : String} {started : Instant}
    (hevaluated : Evaluated proposal view decision) :
    Safe R (fun _ _ => True) (ConflictLeaves proposal)
      (commit H proposal view decision stepKind started) log h := by
  unfold commit
  refine safe_after (fun log₁ now h₁ => ?_) fun _ _ _ => conflictLeaves_error
  refine Safe.eff_action fun h' _ => ⟨trivial, fun _ hd _ hconflict => ?_⟩
  refine ⟨h'.now, h'.past, rfl, ?_⟩
  rcases hrun : exec (commitTx H proposal view decision stepKind started now) h'.now.store with
    ⟨e | typed, s'⟩
  · have hrun' : (commitTx H proposal view decision stepKind started now).run.run h'.now.store =
      (.error e, s') := hrun
    rw [hrun'] at hd
    cases hd
  · have hrun' : (commitTx H proposal view decision stepKind started now).run.run h'.now.store =
      (.ok typed, s') := hrun
    rw [hrun'] at hd ⊢
    cases hd
    exact commitTx_conflict hevaluated hrun hconflict

/-- A replay takes no action of its own. -/
theorem safe_replay_conflict {replayed : ProposalRow} (hlog : log.getLast? ≠ some .transaction) :
    Safe R (fun _ _ => True) (ConflictLeaves proposal) (replay H proposal replayed) log h := by
  unfold replay
  split
  · exact conflictLeaves_error
  · rcases decisionFromDict (replayed.decision.set "replayed" (.bool true)) with m | d
    · exact conflictLeaves_error
    · exact fun _ _ hlast => absurd hlast hlog

/-- So does a submission. -/
theorem safe_submit_conflict {allowPrivileged : Bool} {stepKind : String} :
    Safe R (fun _ _ => True) (ConflictLeaves proposal)
      (submit H proposal allowPrivileged stepKind) log h := by
  unfold submit
  refine safe_after (fun log₁ started h₁ => ?_) fun _ _ _ => conflictLeaves_error
  refine safe_after (fun log₂ found h₂ => ?_) fun _ _ _ => conflictLeaves_error
  rcases found with - | found
  · exact conflictLeaves_error
  refine Safe.eff_bind (Safe.eff_read (fun _ => trivial) fun h' _ =>
    ⟨fun replayed _ => ?_, fun e he => nomatch he⟩)
  rcases replayed with - | replayed
  · refine safe_after (fun log₄ row h₄ => ?_) fun _ _ _ => conflictLeaves_error
    refine safe_after (fun log₅ current h₅ => ?_) fun _ _ _ => conflictLeaves_error
    refine safe_after (fun log₆ evaluatedAt h₆ => ?_) fun _ _ _ => conflictLeaves_error
    rcases he : evaluate H current.state current.profile proposal (toIso evaluatedAt) none
      allowPrivileged with m | decided
    · exact conflictLeaves_error
    · exact safe_commit_conflict (evaluated_of_evaluate he)
  · exact safe_replay_conflict (by simp)

/-- What a call leaves, where it submits the proposal. -/
def Call.leaves (k : Call) (log : List Label) (r : Except Raised Answer) (h : Timeline World) :
    Prop :=
  ∀ proposal d, k.submitted = some proposal → r = .ok (.decision d) →
    log.getLast? = some .transaction → d.val.outcome = .conflict →
    ∃ before older, h.past = before :: older ∧
      (Untouched before.store h.now.store ↔ ¬ Stranded proposal before.store d.val.reasonCodes)

/-- Other calls submit nothing. -/
theorem safe_leaves_of_not_submitted {k : Call} {x : Svc Answer} (hk : k.submitted = none) :
    Safe R (fun _ _ => True) k.leaves x log h :=
  Safe.unconstrained.mono fun _ _ _ _ proposal _ hp => by
    rw [hk] at hp
    cases hp

/-- An answer leaves what its method does. -/
theorem safe_answer_leaves {k : Call} {x : Svc TransitionDecision}
    (hk : k.submitted = some proposal)
    (hx : Safe R (fun _ _ => True) (ConflictLeaves proposal) x log h) :
    Safe R (fun _ _ => True) k.leaves (answer .decision x) log h := by
  refine safe_answer hx (fun log' d h' hq => ?_) fun _ _ _ _ _ _ hd => nomatch hd
  intro proposal' d' hp hd
  cases hd
  cases hk.symm.trans hp
  exact hq d rfl

/-- **Every call** that submits leaves the store untouched where it conflicts. -/
theorem safe_leaves (k : Call) : Safe R (fun _ _ => True) k.leaves (k.body H) [] h := by
  cases k with
  | submit proposal allowPrivileged stepKind => exact safe_answer_leaves rfl safe_submit_conflict
  | correct proposal reason =>
    rcases hm : TaskStateProposal.make { proposal.val with reason := some reason } with m | amended
    · exact safe_leaves_of_not_submitted (by simp [Call.submitted, hm, Except.toOption])
    · have hsubmitted : (Call.correct proposal reason).submitted = some amended := by
        simp [Call.submitted, hm, Except.toOption]
      refine safe_answer_leaves hsubmitted ?_
      unfold correct
      refine safe_after (fun log₁ _ h₁ => ?_) fun _ _ _ => conflictLeaves_error
      split
      · exact conflictLeaves_error
      · rw [hm]
        exact safe_submit_conflict
  | _ => exact safe_leaves_of_not_submitted rfl

end Safe

/-! ## Every run -/

/-- A step in which a call takes the transaction of its submit, and returns that
the proposal is in conflict. -/
inductive Conflicts (proposal : TaskStateProposal) (d : TransitionDecision) (c c' : System) : Prop
  | intro {i : ℕ} {k : Call} {log : List Label} {β : Type} {run : World → β × World}
      {next : β → Prog Label World (Except Raised Answer)}
      (call : c.procs[i]? = some ⟨k, log, .act .transaction run next⟩)
      (submitted : k.submitted = some proposal)
      (returns : next (run c.time.now).1 = .ret (.ok (.decision d)))
      (conflict : d.val.outcome = .conflict)
      (step : c' = { time := c.time.push (run c.time.now).2
                     procs := c.procs.set i ⟨k, log ++ [.transaction], next (run c.time.now).1⟩ })

/-- **When a conflict leaves task state untouched**, in every run of any calls:
where the task was not deleted and started anew; and of a restarted task
exactly where the proposal was stale already as it was evaluated. -/
theorem conflict_untouched_iff {allowed : Call → Prop} {d : TransitionDecision}
    (hv : Visits H allowed w c) (hc : Conflicts proposal d c c') :
    (¬ Restarted proposal c.time.now.store → Untouched c.time.now.store c'.time.now.store) ∧
      (Untouched c.time.now.store c'.time.now.store ↔
        ¬ (Restarted proposal c.time.now.store ∧
          d.val.reasonCodes = [.concurrentSuccessorCommitted])) := by
  obtain ⟨hi, hsubmitted, hret, hconflict, rfl⟩ := hc
  obtain ⟨before, older, hpast, hleaves⟩ := outcome_of_last_action
    (fun k _ _ _ => safe_leaves k) hv.2 hi hret _ _ hsubmitted rfl (by simp) hconflict
  cases hpast
  exact ⟨fun hkept => hleaves.mpr fun hs => hkept hs.1, hleaves⟩

/-- Call `i` is about to conflict, and what it leaves passes a test. -/
def conflictsAt (test : Store → Store → Bool) (i : ℕ) (c : System) : Bool :=
  match c.procs[i]? with
  | some ⟨k, _, .act label run next⟩ => label = .transaction && k.submitted.isSome &&
      ((decisionOf (next (run c.time.now).1)).any fun d => d.val.outcome = .conflict) &&
      test c.time.now.store (run c.time.now).2.store
  | _ => false

/-- What passes the test is a conflict. -/
theorem conflicts_of_conflictsAt {test : Store → Store → Bool} {i : ℕ}
    (h : conflictsAt test i c = true) :
    ∃ proposal d c', Conflicts proposal d c c' ∧
      test c.time.now.store c'.time.now.store = true := by
  unfold conflictsAt at h
  split at h
  · rename_i k log β label run next hi
    simp only [Bool.and_eq_true, decide_eq_true_eq, Option.any_eq_true] at h
    obtain ⟨⟨⟨rfl, hsubmitted⟩, d, hd, hconflict⟩, htest⟩ := h
    obtain ⟨proposal, hsubmitted⟩ := Option.isSome_iff_exists.mp hsubmitted
    exact ⟨proposal, d, _, .intro hi hsubmitted (prog_of_decisionOf hd) hconflict rfl, htest⟩
  · cases h

/-- A second item. -/
def otherOperation : TaskOperation :=
  ⟨{ kind := .addItem, itemId := some "j", text := some "t", kindLabel := some "k" },
    by decide +kernel⟩

/-- Added to the first revision, as the first item is. -/
def rivalProposal : TaskStateProposal :=
  ⟨{ exampleProposal otherOperation with
      proposalId := "q", idempotencyKey := "l" }, by decide +kernel⟩

/-- Added to the second. -/
def secondProposal : TaskStateProposal :=
  ⟨{ exampleProposal otherOperation with
      proposalId := "q", baseRevision := 2, idempotencyKey := "l" }, by decide +kernel⟩

/-- A schedule, played from the example's store with every call allowed. -/
def playedAny (choices : List (Choice Call)) : Option System :=
  Config.play (Call.body itemHashing) (fun _ => true) (fun _ _ => true) choices
    (Config.initial exampleWorld)

/-- What is played is a run. -/
theorem visits_of_playedAny (choices : List (Choice Call)) (check : System → Bool)
    (hp : (playedAny choices).any check = true) :
    ∃ c, Visits itemHashing (fun _ => True) exampleWorld c ∧ check c = true := by
  rcases hc : playedAny choices with - | c
  · rw [hc] at hp
    cases hp
  · rw [hc] at hp
    have hrun := reaches_of_play hc
    exact ⟨c, ⟨fresh_exampleWorld, hrun.lift id fun _ _ hs => hs.1.mono fun _ _ => trivial⟩, hp⟩

/-- A start, and two submits on its first revision, up to the transaction of
the second. -/
def rivalSchedule : List (Choice Call) :=
  [Choice.begin (Call.start exampleStart [])] ++ List.replicate 5 (Choice.act 0) ++
    [Choice.begin (Call.submit addProposal false "step")] ++ List.replicate 7 (Choice.act 1) ++
    [Choice.begin (Call.submit rivalProposal false "step")] ++ List.replicate 7 (Choice.act 2) ++
    [Choice.act 1]

/-- A submit on the second revision of a task that is deleted and started anew
before its transaction. -/
def restartSchedule : List (Choice Call) :=
  [Choice.begin (Call.start exampleStart [])] ++ List.replicate 5 (Choice.act 0) ++
    [Choice.begin (Call.submit addProposal false "step")] ++ List.replicate 8 (Choice.act 1) ++
    [Choice.begin (Call.submit secondProposal false "step")] ++ List.replicate 7 (Choice.act 2) ++
    [Choice.begin (Call.forget exampleScope "t" "a" .administrator)] ++
    List.replicate 5 (Choice.act 3) ++
    [Choice.begin (Call.start exampleStart [])] ++ List.replicate 5 (Choice.act 4)

/-- The law, where two submits race for one revision. -/
theorem conflict_untouched_of_rivals :
    ∃ c c' proposal d, Visits itemHashing (fun _ => True) exampleWorld c ∧
      Conflicts proposal d c c' ∧
      (¬ Restarted proposal c.time.now.store → Untouched c.time.now.store c'.time.now.store) ∧
      (Untouched c.time.now.store c'.time.now.store ↔
        ¬ (Restarted proposal c.time.now.store ∧
          d.val.reasonCodes = [.concurrentSuccessorCommitted])) := by
  obtain ⟨c, hv, hcheck⟩ := visits_of_playedAny rivalSchedule (conflictsAt (fun _ _ => true) 2)
    (by decide +kernel)
  obtain ⟨proposal, d, c', hc, -⟩ := conflicts_of_conflictsAt hcheck
  exact ⟨c, c', proposal, d, hv, hc, conflict_untouched_iff hv hc⟩

/-- **A conflict on a restarted task leaves a revision behind.** -/
theorem restart_strands_revision :
    ¬ ∀ (H : Hashing) (w : World) (c c' : System) (proposal : TaskStateProposal)
      (d : TransitionDecision), Visits H (fun _ => True) w c → Conflicts proposal d c c' →
      Untouched c.time.now.store c'.time.now.store := by
  intro h
  obtain ⟨c, hv, hcheck⟩ := visits_of_playedAny restartSchedule
    (conflictsAt (fun s s' => s.revisions.rows.length < s'.revisions.rows.length) 2)
    (by decide +kernel)
  obtain ⟨proposal, d, c', hc, hmore⟩ := conflicts_of_conflictsAt hcheck
  have hsame := (h _ _ c c' proposal d hv hc).revisions
  rw [hsame] at hmore
  exact absurd (of_decide_eq_true hmore) (Nat.lt_irrefl _)

end Atmem
