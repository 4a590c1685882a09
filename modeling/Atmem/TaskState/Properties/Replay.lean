import Atmem.TaskState.Helpers.Recording
import Atmem.TaskState.Properties.NoProgress
/-!
# Replay of a decided proposal

As long as its task is not deleted, a decided proposal is found again,
whatever else was called and in whatever order, and nothing is written
for it. The decision that comes back is the original one exactly where
there was no evidence: the decoder does not read any.
-/

namespace Atmem

open Relation Relational Interleaving Transactional Checked

variable {H : Hashing} {w : World} {c : System} {s : Store}
variable {proposal again : TaskStateProposal} {decision : TransitionDecision}

/-- The proposal, submitted again, comes back with the decision, marked
as replayed, and nothing is written. -/
def Replays (H : Hashing) (w : World) (again : TaskStateProposal) (allowPrivileged : Bool)
    (stepKind : String) (decision : TransitionDecision) : Prop :=
  ∃ d w', (submit H again allowPrivileged stepKind).exec w = (.ok d, w') ∧ w'.store = w.store ∧
    d.val = { decision.val with replayed := true }

/-! ## What the second submission finds -/

/-- Two proposals of one task and key clash. -/
theorem proposalClash_of_request (a b : ProposalRow)
    (hab : (a.taskId, a.idempotencyKey) = (b.taskId, b.idempotencyKey)) :
    proposalClash a.key b.key = true := by
  simpa [ProposalRow.key, proposalClash] using Or.inr (Prod.mk.inj hab)

/-- A proposal is found by its key. -/
theorem findTaskProposal_eq_some {id key : String} {row : ProposalRow} :
    s.findTaskProposal id key = some row ↔
      row ∈ s.proposals.rows ∧ row.taskId = id ∧ row.idempotencyKey = key := by
  have hfind := Table.find?_id_eq_some proposalClash_of_request (t := s.proposals) (k := (id, key))
    (r := row)
  simpa [Store.findTaskProposal, Prod.mk.injEq] using hfind

/-- A task in the scope of a proposal is found. -/
theorem InScope.getTask (hin : InScope proposal s) :
    ∃ row, s.getTask proposal.val.scope proposal.val.taskId = some row := by
  obtain ⟨row, hr, hid, hscope⟩ := hin
  obtain ⟨cell, hc, hrow⟩ := cell_of_mem hr
  rw [hid] at hc
  exact ⟨row, getTask_eq_some.mpr ⟨cell, hc, hrow, hscope⟩⟩

/-- One payload is of one task and one scope. -/
theorem request_of_payload (hp : again.payload = proposal.payload) :
    again.val.taskId = proposal.val.taskId ∧ again.val.scope = proposal.val.scope := by
  have htask := congrArg (fun j => j.get? "task_id") hp
  have hscope := congrArg (fun j => j.get? "scope") hp
  simp [TaskStateProposal.payload, TaskStateProposal.toDict, Json.without, Json.get?_cons] at htask
  simp [TaskStateProposal.payload, TaskStateProposal.toDict, Json.without, Json.get?_cons,
    AuthorityScope.asdict] at hscope
  refine ⟨htask, Subtype.ext ?_⟩
  obtain ⟨hsubject, hagent, hworkspace⟩ := hscope
  rw [AuthorityScopeFields.mk.injEq]
  exact ⟨hsubject, hagent, hworkspace⟩

/-- **The second submission** reads the recorded decision, without its
evidence, and writes nothing. -/
theorem exec_submit_of_recorded (hr : Recorded H proposal decision w.store)
    (hkey : again.val.idempotencyKey = proposal.val.idempotencyKey)
    (hpayload : again.payload = proposal.payload) (allowPrivileged : Bool) (stepKind : String) :
    (submit H again allowPrivileged stepKind).exec w =
      (.ok (decision.read true), { w with ticks := w.ticks + 1 }) := by
  obtain ⟨htask, hscope⟩ := request_of_payload hpayload
  obtain ⟨found, hfound⟩ := hr.inScope.getTask
  obtain ⟨row, hrow, hid, hrkey, hdigest, hdict⟩ := hr.row
  have hproposal : w.store.findTaskProposal again.val.taskId again.val.idempotencyKey = some row := by
    rw [htask, hkey]
    exact findTaskProposal_eq_some.mpr ⟨hrow, hid, hrkey⟩
  have hby : decision.val.decidedBy ≠ "" := by
    rw [hr.decidedBy]
    decide
  have hsame : row.payloadSha256 = again.payloadDigest H := by
    rw [hdigest, TaskStateProposal.payloadDigest, TaskStateProposal.payloadDigest, hpayload]
  let w' : World := { w with ticks := w.ticks + 1 }
  -- the clock is read once, and both queries find what is recorded
  have hnow : now.exec w = (.ok (w.clock w.ticks), w') := rfl
  have htaskQuery : (query .getTask (·.getTask again.val.scope again.val.taskId)).exec w' =
      (.ok (some found), w') := by
    rw [hscope, htask, ← hfound]
    rfl
  have hproposalQuery : (query .findTaskProposal
      (·.findTaskProposal again.val.taskId again.val.idempotencyKey)).exec w' =
        (.ok (some row), w') := by
    rw [← hproposal]
    rfl
  unfold submit
  rw [Eff.exec_bind_ok hnow, Eff.exec_bind_ok htaskQuery]
  dsimp only
  rw [Eff.exec_bind_ok hproposalQuery]
  dsimp only
  rw [replay, if_neg (not_not.mpr hsame), hdict, decisionFromDict_replayed hby]
  rfl

/-- **Idempotent replay.** In every run that does not delete the task, a
proposal that was decided, submitted again, is answered with the original
decision and no write exactly where it carried no evidence. -/
theorem replay_iff
    (hr : RunsKeeping H proposal.val.taskId (Config.initial w) c)
    {p : Proc Call Label World (Except Raised Answer)} (hp : p ∈ c.procs)
    (hcall : p.call.submitted = some proposal) (hd : p.prog = .ret (.ok (.decision decision)))
    (hnew : decision.val.replayed = false)
    (hkey : again.val.idempotencyKey = proposal.val.idempotencyKey)
    (hpayload : again.payload = proposal.payload) (allowPrivileged : Bool) (stepKind : String) :
    Replays H c.time.now again allowPrivileged stepKind decision ↔ proposal.val.evidence = [] := by
  have hrecorded := recorded_of_runsKeeping hr hp hcall hd hnew
  have hexec := exec_submit_of_recorded hrecorded hkey hpayload allowPrivileged stepKind
  rw [← hrecorded.evidence]
  constructor
  · rintro ⟨d, w', hagain, -, hval⟩
    rw [hexec] at hagain
    obtain rfl := Except.ok.inj (Prod.mk.inj hagain).1
    exact (congrArg TransitionDecisionFields.evidence hval :).symm
  · intro hnone
    refine ⟨_, _, hexec, rfl, ?_⟩
    rw [TransitionDecision.read, ← hnone]

/-! ## A proposal with evidence, and one without -/

/-- A reference to a tool call. -/
def exampleEvidence : EvidenceRef := ⟨{ kind := "tool_call", referenceId := "e" }, by decide +kernel⟩

/-- The host's addition of an item, with evidence. -/
def evidencedProposal : TaskStateProposal :=
  ⟨{ exampleProposal addOperation with evidence := [exampleEvidence] }, by decide +kernel⟩

/-- The decision a call returned. -/
def decisionOf : Prog Label World (Except Raised Answer) → Option TransitionDecision
  | .ret (.ok (.decision d)) => some d
  | _ => none

/-- A decision is made when a call is over. -/
theorem prog_of_decisionOf {prog : Prog Label World (Except Raised Answer)}
    (hd : decisionOf prog = some decision) : prog = .ret (.ok (.decision decision)) := by
  unfold decisionOf at hd
  split at hd
  · cases hd
    rfl
  · cases hd

/-- The replay of a decision that cited evidence cites none. -/
theorem replay_loses_evidence :
    ¬ ∀ (H : Hashing) (w : World) (c : System), Visits H Call.keepsTasks w c →
      ∀ p ∈ c.procs, ∀ proposal decision, p.call.submitted = some proposal →
        p.prog = .ret (.ok (.decision decision)) → decision.val.replayed = false →
        ∀ allowPrivileged stepKind,
          Replays H c.time.now proposal allowPrivileged stepKind decision := by
  intro hall
  let call : Call := .submit evidencedProposal false "step"
  let w₁ := runAll (Call.body itemHashing) [.start exampleStart []] exampleWorld
  have hstarts : ∀ k ∈ [Call.start exampleStart []], Call.keepsTasks k := by decide
  obtain ⟨c₁, hv, hnow⟩ := visits_runAll (H := itemHashing) fresh_exampleWorld hstarts
  have hkeeps : Call.keepsTasks call := trivial
  obtain ⟨log, past, hr⟩ := reaches_call (c := c₁) hkeeps
  rw [hnow] at hr
  obtain ⟨decision, hd, hcited⟩ : ∃ d ∈ decisionOf (.ret ((call.body itemHashing).exec w₁).1),
      d.val.replayed = false ∧ d.val.evidence ≠ [] := by decide +kernel
  obtain ⟨d, w', hexec, -, hval⟩ := hall itemHashing exampleWorld _ ⟨hv.1, hv.2.trans hr⟩
    ⟨call, log, _⟩ (List.mem_append_right _ (List.mem_singleton_self _)) evidencedProposal decision
    rfl (prog_of_decisionOf hd) hcited.1 false "step"
  dsimp only at hexec
  have hnone : ∀ d ∈ ((submit itemHashing evidencedProposal false "step").exec
      ((call.body itemHashing).exec w₁).2).1.toOption, d.val.evidence = [] := by decide +kernel
  have hfound : ((submit itemHashing evidencedProposal false "step").exec
      ((call.body itemHashing).exec w₁).2).1.toOption = some d :=
    congrArg (fun r => r.1.toOption) hexec
  have hevidence := hnone d hfound
  rw [hval] at hevidence
  exact hcited.2 hevidence

/-- A start, and a submit that nobody comes between. -/
def submitSchedule : List (Choice Call) :=
  [Choice.begin (Call.start exampleStart [])] ++ List.replicate 5 (Choice.act 0) ++
    [Choice.begin (Call.submit addProposal false "step")] ++ List.replicate 8 (Choice.act 1)

/-- Replay, of a decision that cited nothing. -/
theorem replay_of_add :
    ∃ c p decision, RunsKeeping itemHashing addProposal.val.taskId (Config.initial exampleWorld) c ∧
      p ∈ c.procs ∧ p.call.submitted = some addProposal ∧
      p.prog = .ret (.ok (.decision decision)) ∧
      Replays itemHashing c.time.now addProposal false "step" decision := by
  obtain ⟨c, hr, hc⟩ := run_of_played (fun a b => decide (KeepsTask "t" a b)) submitSchedule
    (fun c => c.procs.any fun p => p.call.submitted = some addProposal &&
      (decisionOf p.prog).any fun d => !d.val.replayed) (by decide +kernel)
  obtain ⟨p, hp, hany⟩ := List.any_eq_true.mp hc
  rcases hd : decisionOf p.prog with - | decision
  · simp [hd] at hany
  · simp only [hd, Option.any_some, Bool.and_eq_true, decide_eq_true_eq, Bool.not_eq_true'] at hany
    have hkeeping : RunsKeeping itemHashing addProposal.val.taskId
        (Config.initial exampleWorld) c :=
      hr.lift id fun _ _ hs => ⟨hs.1.mono fun _ _ => trivial, of_decide_eq_true hs.2⟩
    have hprog := prog_of_decisionOf hd
    exact ⟨c, p, decision, hkeeping, hp, hany.1, hprog,
      (replay_iff hkeeping hp hany.1 hprog hany.2 rfl rfl false "step").mpr rfl⟩

end Atmem
