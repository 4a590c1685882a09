import Atmem.Contracts.Codec
import Atmem.Common.Interleaving
import Atmem.TaskState.Helpers.Writes
/-!
# What a decision leaves on record

A decision that is no replay was recorded by the transaction that
returned it, and as long as the task is not deleted the record stays and
is what a second submission of the same request finds.
-/

namespace Atmem

open Relation Transactional Relational Checked Interleaving

variable {H : Hashing} {taskId : String} {s s' : Store} {proposal : TaskStateProposal}
variable {decision : TransitionDecision}

/-- The task of a proposal is there, in the proposal's scope. -/
def InScope (proposal : TaskStateProposal) (s : Store) : Prop :=
  ∃ row ∈ s.tasks.rows, row.taskId = proposal.val.taskId ∧
    row.scopeFields = proposal.val.scope.val

/-- The proposal was decided, and its decision is on record. -/
structure Recorded (H : Hashing) (proposal : TaskStateProposal) (decision : TransitionDecision)
    (s : Store) : Prop where
  row : ∃ row ∈ s.proposals.rows, row.taskId = proposal.val.taskId ∧
    row.idempotencyKey = proposal.val.idempotencyKey ∧
    row.payloadSha256 = proposal.payloadDigest H ∧ row.decision = decision.toDict
  evidence : decision.val.evidence = proposal.val.evidence
  decidedBy : decision.val.decidedBy = "atmem-authority"
  inScope : InScope proposal s

/-- What spares the task keeps it in scope. -/
theorem InScope.spared (hs : Spared proposal.val.taskId s s') (hin : InScope proposal s) :
    InScope proposal s' := by
  obtain ⟨row, hr, hid, hscope⟩ := hin
  obtain ⟨⟨row', hr', hident⟩, -⟩ := hs row hr hid
  refine ⟨row', hr', (taskId_of_identity hident).trans hid, ?_⟩
  rw [← hscope]
  simp only [TaskRow.identity, Prod.mk.injEq] at hident
  simp only [TaskRow.scopeFields, AuthorityScopeFields.mk.injEq]
  exact ⟨hident.2.1, hident.2.2.1, hident.2.2.2.1⟩

/-- **What is on record stays there.** -/
theorem Recorded.spared (hs : Spared proposal.val.taskId s s')
    (hr : Recorded H proposal decision s) : Recorded H proposal decision s' where
  row := by
    obtain ⟨row, hrow, hid, -⟩ := hr.inScope
    obtain ⟨p, hp, hpid, hrest⟩ := hr.row
    exact ⟨p, (hs row hrow hid).2 p hp hpid, hpid, hrest⟩
  evidence := hr.evidence
  decidedBy := hr.decidedBy
  inScope := hr.inScope.spared hs

/-- A task that is found is in scope. -/
theorem inScope_of_getTask {row : TaskRow}
    (hg : s.getTask proposal.val.scope proposal.val.taskId = some row) : InScope proposal s := by
  obtain ⟨c, hc, rfl, hscope⟩ := getTask_eq_some.mp hg
  obtain ⟨hm, hid, -⟩ := cell_eq_some.mp hc
  exact ⟨c.row, hm, hid, hscope⟩

/-! ## Recording -/

/-- **What a commit returns is on record.** -/
theorem recorded_of_commitTx {view : TaskView} {policy : PolicyDecision} {stepKind : String}
    {started now : Instant} (hin : InScope proposal s)
    (he : exec (commitTx H proposal view policy stepKind started now) s = (.ok decision, s')) :
    Recorded H proposal decision s' := by
  have htx : SparesTx proposal.val.taskId
      (commitTx H proposal view policy stepKind started now) := touches_commitTx
  have hspared := htx s
  rw [he] at hspared
  have hin' := hin.spared hspared
  unfold commitTx at he
  obtain ⟨resolution, s₁, -, he⟩ := exec_bind_eq_ok.mp he
  obtain ⟨typed, s₂, hmake, he⟩ := exec_bind_eq_ok.mp he
  -- the decision that is made is the typed one
  have htyped : typed.val = typedDecision H proposal resolution now := by
    rcases hm : TransitionDecision.make (typedDecision H proposal resolution now) with m | t
    · rw [hm] at hmake
      cases hmake
    · rw [hm] at hmake
      cases hmake
      exact make_eq_ok.mp hm
  obtain ⟨⟨⟩, s₃, hinsert, he⟩ := exec_bind_eq_ok.mp he
  obtain ⟨⟨⟩, s₄, hstep, he⟩ := exec_bind_eq_ok.mp he
  cases he
  rw [exec_insertTaskStep] at hstep
  rw [exec_tryCatch, exec_insertTaskProposal] at hinsert
  rcases hi : s₂.proposals.insert (proposalRow H proposal decision resolution.outcome
    resolution.resultingRevision now) with - | proposals
  · rw [hi] at hinsert
    cases hinsert
  · rw [hi] at hinsert
    cases hinsert
    split at hstep
    · -- the proposal's row is the one that was appended
      cases hstep
      refine ⟨⟨proposalRow H proposal decision resolution.outcome resolution.resultingRevision now,
        ?_, rfl, rfl, rfl, rfl⟩, (congrArg TransitionDecisionFields.evidence htyped :),
        (congrArg TransitionDecisionFields.decidedBy htyped :), hin'⟩
      rw [(Table.insert_eq_some.mp hi).2]
      exact List.mem_append_right _ (List.mem_singleton_self _)
    · cases hstep

/-! ## Among other calls -/

section Safe

variable {R : List Label → Timeline World → Timeline World → Prop}
variable {G : Timeline World → World → Prop}
variable (hR : ∀ log h h', R log h h' → Spared taskId h.now.store h'.now.store)
variable (hG : ∀ (h : Timeline World) (w : World), Spared taskId h.now.store w.store → G h w)
variable {log : List Label} {h : Timeline World} {α β : Type}
include hR hG

/-- Over a method that spares the task, the store spares it. -/
theorem safe_bind_spares {Q : List Label → Except Raised β → Timeline World → Prop} {x : Svc α}
    {f : α → Svc β} (hx : Spares taskId x)
    (hok : ∀ log' a h', Spared taskId h.now.store h'.now.store → Safe R G Q (f a) log' h')
    (herr : ∀ log' e h', Q log' (.error e) h') : Safe R G Q (x >>= f : Svc β) log h := by
  have hrun := Safe.of_within_rely (fun w => .refl w.store)
    (fun w₁ w₂ w₃ => Spared.trans w₁.store w₂.store w₃.store) hR hG hx log h
  exact Safe.eff_bind (hrun.mono fun log' r h' hs => ⟨fun a _ => hok log' a h' hs,
    fun e _ => herr log' e h'⟩)

omit hR in
/-- One transaction that spares the task. -/
theorem safe_transaction {Q : List Label → Except Raised α → Timeline World → Prop} {body : Tx α}
    (hb : SparesTx taskId body)
    (hok : ∀ h' a s', R log h h' → exec body h'.now.store = (.ok a, s') →
      Q (log ++ [.transaction]) (.ok a) (h'.push { h'.now with store := s' }))
    (herr : ∀ log' e h', Q log' (.error e) h') : Safe R G Q (transaction body) log h := by
  refine Safe.eff_action fun h' hr => ?_
  refine ⟨hG h' _ ((touches_transaction hb).1 h'.now), ?_⟩
  rcases hrun : exec body h'.now.store with ⟨e | a, s'⟩
  · have hrun' : body.run.run h'.now.store = (.error e, s') := hrun
    rw [hrun']
    exact herr _ e _
  · have hrun' : body.run.run h'.now.store = (.ok a, s') := hrun
    rw [hrun']
    exact hok h' a s' hr hrun

/-- What is committed is recorded. -/
theorem safe_commit (htask : proposal.val.taskId = taskId) (hin : InScope proposal h.now.store)
    {view : TaskView} {policy : PolicyDecision} {stepKind : String} {started : Instant} :
    Safe R G (fun _ r h' => ∀ d, r = .ok d → Recorded H proposal d h'.now.store)
      (commit H proposal view policy stepKind started) log h := by
  subst htask
  unfold commit
  refine safe_bind_spares hR hG touches_now (fun log₁ now h₁ hs => ?_) fun _ _ _ _ hd => nomatch hd
  refine safe_transaction hG touches_commitTx (fun h' a s' hr hrun d hd => ?_)
    fun _ _ _ _ hd => nomatch hd
  cases hd
  exact recorded_of_commitTx ((hin.spared hs).spared (hR _ _ _ hr)) hrun

omit hR hG in
/-- What a replay returns is marked. -/
theorem safe_replay {replayed : ProposalRow} :
    Safe R G (fun _ r _ => ∀ d, r = .ok d → d.val.replayed = true) (replay H proposal replayed)
      log h := by
  unfold replay
  split
  · exact fun d hd => nomatch hd
  · rcases hread : decisionFromDict (replayed.decision.set "replayed" (.bool true)) with m | a
    · exact fun d hd => nomatch hd
    · intro d hd
      obtain rfl := Except.ok.inj hd
      exact replayed_of_decisionFromDict hread

/-- **A submit records what it decided**, unless it replays what is on
record. -/
theorem safe_submit (htask : proposal.val.taskId = taskId) {allowPrivileged : Bool}
    {stepKind : String} :
    Safe R G (fun _ r h' => ∀ d, r = .ok d → d.val.replayed = false →
        Recorded H proposal d h'.now.store) (submit H proposal allowPrivileged stepKind) log h := by
  unfold submit
  refine safe_bind_spares hR hG touches_now (fun log₁ started h₁ _ => ?_)
    fun _ _ _ _ hd => nomatch hd
  refine Safe.eff_bind (Safe.eff_read (fun h' => hG h' h'.now (.refl _)) fun h' _ =>
    ⟨fun found hfound => ?_, fun e he => nomatch he⟩)
  rcases found with - | found
  · exact fun d hd => nomatch hd
  have hin : InScope proposal (h'.push h'.now).now.store :=
    inScope_of_getTask (Except.ok.inj hfound)
  refine safe_bind_spares hR hG touches_query (fun log₃ replayed h₃ hs₃ => ?_)
    fun _ _ _ _ hd => nomatch hd
  subst htask
  rcases replayed with - | replayed
  · refine safe_bind_spares hR hG ?_ (fun log₄ row h₄ hs₄ => ?_) fun _ _ _ _ hd => nomatch hd
    · split
      · exact .pure
      · exact touches_refresh touches_expireIfDue
    refine safe_bind_spares hR hG touches_view (fun log₅ v h₅ hs₅ => ?_)
      fun _ _ _ _ hd => nomatch hd
    refine safe_bind_spares hR hG touches_now (fun log₆ evaluatedAt h₆ hs₆ => ?_)
      fun _ _ _ _ hd => nomatch hd
    refine safe_bind_spares hR hG .ofExcept (fun log₇ policy h₇ hs₇ => ?_)
      fun _ _ _ _ hd => nomatch hd
    have hin' := ((((hin.spared hs₃).spared hs₄).spared hs₅).spared hs₆).spared hs₇
    exact (safe_commit hR hG rfl hin').mono fun _ _ _ hq d hd _ => hq d hd
  · refine safe_replay.mono fun _ _ _ hq d hd hfalse => ?_
    rw [hq d hd] at hfalse
    cases hfalse

/-- A correction is a submit of the proposal with its reason. -/
theorem safe_correct (htask : proposal.val.taskId = taskId) {reason : String} :
    Safe R G (fun _ r h' => ∀ d, r = .ok d → d.val.replayed = false → ∀ amended,
        TaskStateProposal.make { proposal.val with reason := some reason } = .ok amended →
          Recorded H amended d h'.now.store) (correct H proposal reason) log h := by
  unfold correct
  refine safe_bind_spares hR hG touches_require (fun log₁ _ h₁ _ => ?_) fun _ _ _ _ hd => nomatch hd
  split
  · exact fun d hd => nomatch hd
  · rcases hm : TaskStateProposal.make { proposal.val with reason := some reason } with m | amended
    · exact fun d hd => nomatch hd
    · have htask' : amended.val.taskId = taskId :=
        (congrArg TaskStateProposalFields.taskId (make_eq_ok.mp hm) :).trans htask
      refine (safe_submit hR hG htask').mono fun _ _ _ hq d hd hf amended' ha => ?_
      cases ha
      exact hq d hd hf

end Safe

/-! ## Every run keeps what is on record -/

/-- The proposal a call submits. -/
def Call.submitted : Call → Option TaskStateProposal
  | .submit proposal _ _ => some proposal
  | .correct proposal reason =>
    (TaskStateProposal.make { proposal.val with reason := some reason }).toOption
  | _ => none

/-- The step does not delete the task. -/
def KeepsTask (taskId : String) (c c' : System) : Prop :=
  c.time.now.store.hasTask taskId = true → c'.time.now.store.hasTask taskId = true

instance (taskId : String) (c c' : System) : Decidable (KeepsTask taskId c c') := by
  unfold KeepsTask
  infer_instance

/-- An action spares the task, unless it deletes it. -/
def Sparing (taskId : String) (w w' : World) : Prop :=
  (w.store.hasTask taskId = true → w'.store.hasTask taskId = true) →
    Spared taskId w.store w'.store

/-- A deletion takes with it what belongs to its task alone. -/
theorem sparing_deleteTask {id : String} {s : Store}
    (hkeeps : s.hasTask taskId = true → (exec (deleteTask id) s).2.hasTask taskId = true) :
    Spared taskId s (exec (deleteTask id) s).2 := by
  intro row hr hid
  have hhas : s.hasTask taskId = true := List.any_eq_true.mpr ⟨row, hr, decide_eq_true hid⟩
  obtain ⟨row', hr', hid'⟩ := List.any_eq_true.mp (hkeeps hhas)
  obtain ⟨-, hkept⟩ := List.mem_filter.mp hr'
  have hne : taskId ≠ id := by
    rintro rfl
    simp only [Bool.not_eq_true', decide_eq_false_iff_not] at hkept
    exact hkept (of_decide_eq_true hid')
  refine ⟨⟨row, List.mem_filter.mpr ⟨hr, ?_⟩, rfl⟩, fun p hp hpid => List.mem_filter.mpr ⟨hp, ?_⟩⟩
  · simpa [hid] using hne
  · simpa [hpid] using hne

/-- A method that spares the task does so as an action. -/
theorem Spares.sparing {α : Type} {x : Svc α} (hx : Spares taskId x) :
    Eff.Within (Sparing taskId) x := by
  have hmono : ∀ w w' : World, Spared taskId w.store w'.store → Sparing taskId w w' :=
    fun _ _ hs _ => hs
  exact Prog.Within.mono hmono hx

/-- Forgetting another task spares this one. -/
theorem sparing_forget {scope : AuthorityScope} {id actor : String} {actorRole : ActorRole} :
    Eff.Within (Sparing taskId) (forget H scope id actor actorRole) := by
  unfold forget
  refine .bind (Spares.sparing touches_require) fun _ => .bind (Spares.sparing touches_requireTask) fun row => ?_
  refine .bind (Spares.sparing touches_query) fun revisions => .bind (Spares.sparing touches_query) fun found => ?_
  refine .bind ?_ fun _ => .bind (Spares.sparing touches_now) fun _ => .pure
  split
  · exact .action fun w hkeeps => sparing_deleteTask hkeeps
  · exact .pure

/-- What a call's answer says of the store: a decision that is no replay
is on record. -/
def Call.outcome (H : Hashing) (taskId : String) (k : Call) (r : Except Raised Answer)
    (s : Store) : Prop :=
  ∀ proposal, k.submitted = some proposal → proposal.val.taskId = taskId →
    ∀ d, r = .ok (.decision d) → d.val.replayed = false → Recorded H proposal d s

section Body

variable {R : List Label → Timeline World → Timeline World → Prop} {h : Timeline World}

/-- An answer, from what its method does. -/
theorem safe_answer {α : Type} {f : α → Answer} {x : Svc α} {log : List Label}
    {G : Timeline World → World → Prop} {Q : List Label → Except Raised α → Timeline World → Prop}
    {P : List Label → Except Raised Answer → Timeline World → Prop} (hx : Safe R G Q x log h)
    (hok : ∀ log' a h', Q log' (.ok a) h' → P log' (.ok (f a)) h')
    (herr : ∀ log' e h', P log' (.error e) h') : Safe R G P (answer f x) log h := by
  refine Safe.eff_bind (hx.mono fun log' r h' hq => ⟨?_, ?_⟩)
  · rintro a rfl
    exact hok log' a h' hq
  · rintro e -
    exact herr log' e h'

/-- **Every call** spares the task unless it deletes it, and records what
it decides. -/
theorem safe_body (hR : ∀ log h h', R log h h' → Spared taskId h.now.store h'.now.store)
    (k : Call) : Safe R (fun h w => Sparing taskId h.now w)
      (fun _ r h' => k.outcome H taskId r h'.now.store) (k.body H) [] h := by
  have hG : ∀ (h : Timeline World) (w : World), Spared taskId h.now.store w.store →
      Sparing taskId h.now w := fun _ _ hs _ => hs
  -- a call that decides no proposal of the task has nothing to record
  have quiet {α : Type} {f : α → Answer} {x : Svc α}
      (hk : ∀ proposal, k.submitted = some proposal → proposal.val.taskId ≠ taskId)
      (hx : Eff.Within (Sparing taskId) x) : Safe R (fun h w => Sparing taskId h.now w)
        (fun _ r h' => k.outcome H taskId r h'.now.store) (answer f x) [] h :=
    safe_answer (Safe.of_within (fun _ _ hs => hs) hx)
      (fun _ _ _ _ _ hp htask => absurd htask (hk _ hp))
      (fun _ _ _ _ hp htask => absurd htask (hk _ hp))
  cases k with
  | start request items => exact quiet (fun _ hp => nomatch hp) (Spares.sparing touches_start)
  | submit proposal allowPrivileged stepKind =>
    by_cases htask : proposal.val.taskId = taskId
    · refine safe_answer (safe_submit hR hG htask) (fun _ d h' hq proposal' hp _ d' hd hf => ?_)
        (fun _ _ _ _ _ _ _ hd => nomatch hd)
      cases hp
      cases hd
      exact hq d rfl hf
    · exact quiet (fun _ hp => by cases hp; exact htask) (Spares.sparing touches_submit)
  | correct proposal reason =>
    by_cases htask : proposal.val.taskId = taskId
    · refine safe_answer (safe_correct hR hG htask) (fun _ d h' hq amended hp _ d' hd hf => ?_)
        (fun _ _ _ _ _ _ _ hd => nomatch hd)
      cases hd
      exact hq d rfl hf amended (toOption_eq_some.mp hp)
    · refine quiet (fun amended hp hid => htask ?_) (Spares.sparing touches_correct)
      have hval := make_eq_ok.mp (toOption_eq_some.mp hp)
      exact (congrArg TaskStateProposalFields.taskId hval).symm.trans hid
  | pause scope taskId actor actorRole reason => exact quiet (fun _ hp => nomatch hp) (Spares.sparing touches_lifecycle)
  | resume scope taskId actor actorRole reason => exact quiet (fun _ hp => nomatch hp) (Spares.sparing touches_lifecycle)
  | complete scope taskId actor actorRole reason => exact quiet (fun _ hp => nomatch hp) (Spares.sparing touches_complete)
  | cancel scope taskId actor actorRole reason => exact quiet (fun _ hp => nomatch hp) (Spares.sparing touches_cancel)
  | get scope taskId expiring => exact quiet (fun _ hp => nomatch hp) (Spares.sparing touches_get)
  | list scope lifecycles cursor limit expiring => exact quiet (fun _ hp => nomatch hp) (Spares.sparing touches_list)
  | evaluateExpiry scope taskId => exact quiet (fun _ hp => nomatch hp) (Spares.sparing touches_evaluateExpiry)
  | scanForExpiry limit => exact quiet (fun _ hp => nomatch hp) (Spares.sparing touches_scanForExpiry)
  | forget scope taskId actor actorRole => exact quiet (fun _ hp => nomatch hp) sparing_forget

end Body

/-- The discipline of a run that does not delete the task. -/
def sparing (H : Hashing) (taskId : String) : Discipline (Call.body H) fun _ => True where
  Watch _ := True
  watch_live _ _ := trivial
  I _ := True
  V _ _ := True
  W _ _ w w' := Spared taskId w.store w'.store
  G h w := Sparing taskId h.now w
  Q k _ r h := k.outcome H taskId r h.now.store
  evolves_refl _ := trivial
  evolves_trans _ _ := trivial
  window_refl _ _ w := .refl w.store
  window_trans h₁₂ h₂₃ := h₁₂.trans _ _ _ h₂₃
  keeps _ _ := ⟨trivial, trivial⟩
  body_safe k _ _ _ := safe_body (fun _ _ _ hr => hr.2.2) k

/-- A run that deletes the task at no step. -/
abbrev RunsKeeping (H : Hashing) (taskId : String) : System → System → Prop :=
  ReflTransGen fun c c' => Step (Call.body H) (fun _ => True) c c' ∧ KeepsTask taskId c c'

/-- **Every such run spares the task.** -/
theorem good_of_runsKeeping {w : World} {c : System}
    (hr : RunsKeeping H taskId (Config.initial w) c) : (sparing H taskId).Good c := by
  induction hr with
  | refl => exact Discipline.good_initial _ trivial
  | @tail c c' _ hs ih =>
    refine (Discipline.good_step _ ih hs.1 fun p _ _ => ?_).1
    rcases Discipline.good_guarantee _ ih hs.1 with htime | hsparing
    · change Spared taskId c.time.now.store c'.time.now.store
      rw [htime]
      exact .refl _
    · exact hsparing hs.2

/-- **What was decided stays on record.** -/
theorem recorded_of_runsKeeping {w : World} {c : System}
    (hr : RunsKeeping H proposal.val.taskId (Config.initial w) c)
    {p : Proc Call Label World (Except Raised Answer)} (hp : p ∈ c.procs)
    (hcall : p.call.submitted = some proposal) (hd : p.prog = .ret (.ok (.decision decision)))
    (hnew : decision.val.replayed = false) : Recorded H proposal decision c.time.now.store := by
  obtain ⟨h, -, hspared, hrecorded⟩ := (good_of_runsKeeping hr).outcome hp hd
  exact (hrecorded proposal hcall rfl decision rfl hnew).spared (hspared trivial)

end Atmem
