import Atmem.TaskState.Helpers.Rules
/-!
# Every method, among other calls

What each method of the service is proved to do whatever the others do
between its actions: what a view shows, what a lifecycle change may
commit, when a lazy expiry retires, and what a commit may write.
-/

namespace Atmem

open Relation Relational Interleaving Checked Transactional

variable {E : Setting} {R : List Label → Timeline World → Timeline World → Prop} {α : Type}
variable {log : List Label} {h : Timeline World} {c : Cell} {taskId : String}

/-! ## Reads -/

/-- What stays true over every action that is not a lookup of a task. -/
def Framed (R : List Label → Timeline World → Timeline World → Prop)
    (F : List Label → Timeline World → Prop) : Prop :=
  ∀ log h h' label, F log h → R log h h' → label ≠ Label.getTask →
    F (log ++ [label]) (h'.push h'.now)

theorem framed_true : Framed R fun _ _ => True := fun _ _ _ _ _ _ _ => trivial

variable {F : List Label → Timeline World → Prop}

/-- The profile of a version is read. -/
theorem secure_profileOf (hR : Relies E R) (hF : Framed R F) (hf : F log h) (version : String) :
    Secure E R (profileOf version) log h fun log' r h' =>
      F log' h' ∧ r = .ok (E.profile version) := by
  intro hk
  unfold profileOf
  rcases hb : builtInProfile version with - | selected
  · refine Secure.query hR (fun h' hr hk' _ => ⟨hF _ _ _ _ hf hr nofun, ?_⟩) hk
    rw [← hk'.profile version, Store.profile, hb]
  · refine Secure.pure ⟨hf, ?_⟩ hk
    rw [← hk.profile version, Store.profile, hb]

/-- **A view never raises**, and shows the snapshot at the head of the
row. -/
theorem secure_view (hR : Relies E R) (hF : Framed R F) (hf : F log h)
    (hh : Held E h taskId c) :
    Secure E R (view c.row) log h fun log' r h' =>
      F log' h' ∧ ∃ v, r = .ok v ∧ Viewed E c v := by
  unfold view
  refine .bind (Q := fun log' r h' => F log' h' ∧ ∃ base, c.head? = some base ∧
    r = .ok (some base)) (.query hR fun h' hr _ he => ?_) (fun log' r h' _ he hq => ?_)
    (fun _ _ _ _ hq => ?_)
  · obtain ⟨cNow, hc, ha⟩ := (hh.evolves he).now
    obtain ⟨base, hb, hget⟩ := getTaskRevision_head (hh.chained.later he.later) ha hc
    exact ⟨hF _ _ _ _ hf hr nofun, base, hb, by rw [hh.named, hget]⟩
  · obtain ⟨hf', base, hb, hr⟩ := hq
    cases hr
    obtain ⟨profile, hp⟩ := hh.chained.profile
    refine .bind (Q := fun log' r h' => F log' h' ∧ r = .ok profile) ?_
      (fun log' r h' _ _ hq => ?_) (fun _ _ _ _ hq => nomatch hq.2)
    · refine .bind (secure_profileOf hR hF hf' c.row.profileVersion) (fun log' r h' _ _ hq => ?_)
        (fun _ _ _ _ hq => nomatch hq.2)
      obtain ⟨hf'', hr⟩ := hq
      cases hr
      rw [hp]
      exact .pure ⟨hf'', rfl⟩
    · obtain ⟨hf'', hr⟩ := hq
      cases hr
      exact .pure ⟨hf'', _, rfl, rfl, ⟨base, hb, rfl⟩, hp⟩
  · obtain ⟨_, _, _, hr⟩ := hq
    cases hr

/-- The row a lookup found is the row of the task's cell, then. -/
theorem secure_requireTask (hR : Relies E R) {scope : AuthorityScope} {taskId : String} :
    Secure E R (requireTask scope taskId) log h fun log' r h' =>
      ∃ h₀, R log h h₀ ∧ h' = h₀.push h₀.now ∧ log' = log ++ [.getTask] ∧
        (∀ row, r = .ok row → ∃ c, c.row = row ∧ h₀.now.store.cell taskId = some c) ∧
        ∀ e, r = .error e → e = noEligibleTask := by
  unfold requireTask
  refine .bind (Q := fun log' r h' => ∃ h₀, R log h h₀ ∧ h' = h₀.push h₀.now ∧
    log' = log ++ [.getTask] ∧ r = .ok (h₀.now.store.getTask scope taskId))
    (.query hR fun h' hr _ _ => ⟨h', hr, rfl, rfl, rfl⟩) (fun log' r h' _ _ hq => ?_)
    (fun _ _ _ _ hq => ?_)
  · obtain ⟨h₀, hr, hpush, hlog, hres⟩ := hq
    cases hres
    rcases hg : h₀.now.store.getTask scope taskId with - | row
    · refine .throw ⟨h₀, hr, hpush, hlog, ?_, ?_⟩
      · intro row he
        cases he
      · intro e he
        exact (Except.error.inj he).symm
    · obtain ⟨c, hc, hrow, -⟩ := getTask_eq_some.mp hg
      refine .pure ⟨h₀, hr, hpush, hlog, ?_, ?_⟩
      · intro row' he
        exact ⟨c, hrow.trans (Except.ok.inj he), hc⟩
      · intro e he
        cases he
  · obtain ⟨_, _, _, _, hr⟩ := hq
    cases hr

/-! ## Lifecycle -/

/-- What is asked of a lazy expiry: what it returns is a row of a task
that is terminal. -/
def Expires (E : Setting) (R : List Label → Timeline World → Timeline World → Prop)
    (expire : AuthorityScope → TaskRow → Svc (Option TaskRow)) : Prop :=
  ∀ log h scope taskId c, Held E h taskId c → Secure E R (expire scope c.row) log h fun _ r h' =>
    ∀ fresh, r = .ok (some fresh) →
      ∃ c', c'.row = fresh ∧ Held E h' taskId c' ∧ fresh.lifecycle.terminal = true

theorem expires_none : Expires E R fun _ _ => pure none :=
  fun _ _ _ _ _ _ => .pure nofun

/-- A refreshed row is the row it was, or a terminal one. -/
theorem secure_refresh {expire : AuthorityScope → TaskRow → Svc (Option TaskRow)}
    (hx : Expires E R expire) {scope : AuthorityScope} (hh : Held E h taskId c) :
    Secure E R (refresh expire scope c.row) log h fun _ r h' => ∀ row, r = .ok row →
      row = c.row ∨ ∃ c', c'.row = row ∧ Held E h' taskId c' ∧ row.lifecycle.terminal = true := by
  unfold refresh
  refine .bind (hx log h scope taskId c hh) (fun _ expired h' _ _ hq => .pure fun row hrow => ?_)
    (fun _ _ _ _ _ _ hr => nomatch hr)
  cases hrow
  rcases expired with - | fresh
  · exact Or.inl rfl
  · exact Or.inr (hq fresh rfl)

/-- A role is checked. -/
theorem secure_require {actorRole : ActorRole} {action : GovernanceAction} :
    Secure E R (require actorRole action) log h fun log' r h' => log' = log ∧ h' = h ∧
      ∀ e, r = .error e → lostRace e = false := by
  unfold require
  split
  · exact .pure ⟨rfl, rfl, fun _ he => nomatch he⟩
  · refine .throw ⟨rfl, rfl, fun e he => ?_⟩
    cases he
    rfl

/-- The transaction of a lifecycle change: it commits its advance, or it
raises what no handler takes for a lost race. -/
theorem secure_lifecycleTx (hR : Relies E R) (hh : Held E h taskId c) {base : RevisionRow}
    {next : TaskState} {target : TaskLifecycle} {actor reason : String} {actorRole : ActorRole}
    {expiryRule : Option String} {t : Instant} (hbase : c.head? = some base)
    (hnext : lifecycleState base.state target t = .ok next)
    (hm : Moves E h c
      ⟨(lifecycleChange c.row target reason t).assign next.val.revision c.row,
        c.revisions ++ [revisionRow E.hashing next actor actorRole [.lifecycleChangeAccepted]
          (policyRule expiryRule) t false]⟩) :
    Secure E R (transaction (lifecycleTx E.hashing taskId c.row base.state next target actor
      actorRole reason expiryRule t)) log h fun _ r h' =>
        (r = .ok () → ∃ c', h'.now.store.cell taskId = some c' ∧ c'.row.lifecycle = target) ∧
        ∀ e, r = .error e → e = .integrityError := by
  refine .transaction hR (fun h' u s' _ _ he hrun => ?_) (fun h' e s' _ _ he hrun => ?_) <;>
    obtain ⟨cNow, hc, ha⟩ := (hh.evolves he).now <;>
    have hcases := exec_lifecycleTx (hh.chained.later he.later) ha hc hh.named hbase hnext
      (hm.later he.later)
  · rcases hcases with ⟨rfl, s₁, hok, hstep, hcell, -⟩ | ⟨-, herr⟩
    · rw [hok] at hrun
      cases hrun
      refine ⟨hstep, fun _ => ⟨_, hcell, ?_⟩, fun _ he => nomatch he⟩
      rw [HeadChange.assign, lifecycleChange_lifecycle]
      rfl
    · rw [herr] at hrun
      cases hrun
  · rcases hcases with ⟨rfl, s₁, hok, -⟩ | ⟨-, herr⟩
    · rw [hok] at hrun
      cases hrun
    · rw [herr] at hrun
      cases hrun
      refine ⟨fun hr => ?_, fun e he => (Except.error.inj he).symm⟩
      cases hr

/-- **A lifecycle change.** What it commits is an advance of the cell it
read; one that retires has a cause; and one to `expired` that returns, or
says it lost the race, leaves the task terminal. -/
theorem secure_lifecycleVia (hR : Relies E R)
    {expire : AuthorityScope → TaskRow → Svc (Option TaskRow)} (hx : Expires E R expire)
    {scope : AuthorityScope} {target : TaskLifecycle} {actor reason : String}
    {actorRole : ActorRole} {expiryRule : Option String}
    (hgate : target = .completed → ∀ h₀, R log h h₀ → ∀ c,
      h₀.now.store.cell taskId = some c → c.Met E)
    (hcause : target = .expired → actorRole = .policyEvaluator ∧ ∃ before t code,
      Held E h taskId before ∧ Reading h t ∧
        (expiryStatusAt before.row t).dueReason = some code ∧ reason = value code) :
    Secure E R (lifecycleVia expire E.hashing scope taskId target actor actorRole reason
      expiryRule) log h fun _ r h' => target = .expired →
        ((∃ v, r = .ok v) ∨ ∃ e, r = .error e ∧ lostRace e = true) → Retired h' taskId := by
  have hlost {e : Raised} {h' : Timeline World} (he : lostRace e = false) :
      ((∃ v, (.error e : Except Raised TaskView) = .ok v) ∨
        ∃ e', (.error e : Except Raised TaskView) = .error e' ∧ lostRace e' = true) →
          Retired h' taskId := by
    rintro (⟨_, hv⟩ | ⟨e', he', hl⟩)
    · cases hv
    · cases he'
      rw [he] at hl
      cases hl
  unfold lifecycleVia
  refine .bind secure_require (fun log₀ _ h₁ _ _ hq => ?_) (fun _ e h' _ hq _ => hlost (hq.2.2 e rfl))
  obtain ⟨rfl, rfl, -⟩ := hq
  refine .bind (secure_requireTask hR) (fun log₁ found h₂ hk₂ he₂ hq => ?_) (fun _ e h' _ hq _ => ?_)
  · obtain ⟨h₀, hr, rfl, rfl, hfound, -⟩ := hq
    obtain ⟨c, rfl, hc⟩ := hfound found rfl
    have hh : Held E (h₀.push h₀.now) taskId c := hk₂.held hc
    have hexpiry : target = .expired → actorRole = .policyEvaluator ∧
        ExpiryCause (h₀.push h₀.now) c.row reason := by
      intro ht
      obtain ⟨hrole, before, t, code, hbefore, hread, hdue, rfl⟩ := hcause ht
      exact ⟨hrole, (hbefore.evolves he₂).expiryCause hc (hread.later he₂.later) hdue⟩
    -- what is due is retired first, unless this change is a retirement
    refine .bind (Q := fun _ r h' => (∀ row, r = .ok row → row = c.row ∨
        target ≠ .expired ∧ row.lifecycle.terminal = true) ∧
        ∀ e, r = .error e → target ≠ .expired) ?_ (fun log₃ row h₃ hk₃ he₃ hrow => ?_)
      (fun _ e h' he hq ht => absurd ht (hq.2 e rfl))
    · split
      · rename_i hlazy
        refine (secure_refresh hx hh).mono fun _ r h' _ hq => ⟨fun row hr => ?_, fun _ _ => hlazy.1⟩
        exact (hq row hr).imp_right fun ⟨_, _, _, ht⟩ => ⟨hlazy.1, ht⟩
      · refine .pure ⟨fun row hr => ?_, fun _ he => nomatch he⟩
        exact Or.inl (Except.ok.inj hr).symm
    · replace hh := hh.evolves he₃
      replace hexpiry := fun ht => (hexpiry ht).imp_right (·.later he₃.later)
      -- the row is as it was read, or has expired meanwhile
      rcases hrow.1 row rfl with rfl | ⟨hne, hterm⟩
      · split
        · rename_i hterm
          exact .throw fun _ _ => hh.retired hterm
        · rename_i hlive
          have hlive : c.row.lifecycle.terminal = false := by simpa using hlive
          split
          · rename_i heq
            refine (secure_view hR framed_true trivial hh).mono fun _ r h' _ _ ht => ?_
            rw [heq, ht] at hlive
            cases hlive
          · rename_i hne
            refine .bind (Q := fun _ r h' => ∃ t, r = .ok t ∧ Reading h' t ∧
                ∀ t₀, Reading h₃ t₀ → Monotone E.clock → t₀ ≤ t)
              (.now hR fun _ t h' _ hr hle => ⟨t, rfl, hr, hle⟩)
              (fun log₄ t h₄ _ he₄ hq => ?_) (fun _ _ _ _ hq => nomatch hq.choose_spec.1)
            obtain ⟨_, ⟨⟩, hread, hnow⟩ := hq
            replace hread : Reading h₄ t := hread
            refine .bind (secure_view hR framed_true trivial (hh.evolves he₄))
              (fun log₅ v h₅ _ he₅ hq => ?_) (fun _ _ _ _ hq => nomatch hq.2.choose_spec.1)
            obtain ⟨-, _, ⟨⟩, hv⟩ := hq
            obtain ⟨base, hbase, hstate⟩ := hv.head
            rw [hstate]
            refine .bind (Q := fun log' r h' => log' = log₅ ∧ h' = h₅ ∧
                (∀ next, r = .ok next → lifecycleState base.state target t = .ok next) ∧
                ∀ e, r = .error e → lostRace e = false) ?_
              (fun _ next h₅ _ _ hq => ?_) (fun _ e h' _ hq _ => hlost (hq.2.2.2 e rfl))
            · refine .lift (fun next hn => ⟨rfl, rfl, ?_, ?_⟩) (fun m _ => ⟨rfl, rfl, ?_, ?_⟩)
              · intro _ hr
                cases hr
                exact hn
              · exact fun _ he => nomatch he
              · exact fun _ hr => nomatch hr
              · intro e he
                cases he
                rfl
            obtain ⟨rfl, rfl, hnext, -⟩ := hq
            replace hnext := hnext next rfl
            have he₃₅ := he₄.trans he₅
            -- what is committed is one step of the cell that was read
            have hm : Moves E h₅ c
                ⟨(lifecycleChange c.row target reason t).assign next.val.revision c.row,
                  c.revisions ++ [revisionRow E.hashing next actor actorRole
                    [.lifecycleChangeAccepted] (policyRule expiryRule) t false]⟩ :=
              ⟨hh.chained.later he₃₅.later, .lifecycle hbase hlive hne hnext
                (fun ht profile hp => hgate ht h₀ hr c hc base profile hbase hp)
                (fun ht => (hexpiry ht).imp_right (·.later he₃₅.later))
                (hread.later he₅.later)
                (hnow _ (hh.chained.readings _ (List.mem_of_getLast? hbase))) rfl rfl⟩
            refine .bind (secure_lifecycleTx hR (hh.evolves he₃₅) hbase hnext hm)
              (fun log₆ _ h₆ hk₆ _ hq => ?_) (fun _ e h' _ hq _ => hlost ?_)
            · obtain ⟨c', hc', hlife⟩ := hq.1 rfl
              refine .bind (secure_requireTask hR) (fun log₇ row h₇ hk₇ he₇ hq => ?_)
                (fun _ e h' he _ ht _ => ?_)
              · obtain ⟨h₈, -, rfl, -, hrow, -⟩ := hq
                obtain ⟨c'', rfl, hc''⟩ := hrow row rfl
                refine (secure_view hR framed_true trivial (hk₇.held hc'')).mono
                  fun _ _ h' he' _ ht _ => ?_
                exact Retired.evolves hk₆ (he₇.trans he') ⟨c', hc', by rw [hlife, ht]; rfl⟩
              · exact Retired.evolves hk₆ he ⟨c', hc', by rw [hlife, ht]; rfl⟩
            · rw [hq.2 e rfl]
              rfl
      · rw [if_pos hterm]
        exact .throw fun ht => absurd ht hne
  · obtain ⟨-, -, -, -, -, herr⟩ := hq
    exact hlost (by rw [herr e rfl]; rfl)

/-- A due task, after an expiry that did not raise, is terminal: it was
retired here, or by whoever won the race. -/
theorem secure_retire (hR : Relies E R) (hh : Held E h taskId c) {scope : AuthorityScope}
    {t : Instant} {code : ReasonCode} (hread : Reading h t)
    (hdue : (expiryStatusAt c.row t).dueReason = some code) :
    Secure E R (tryCatch
      (do
        let _ ← lifecycleVia (fun _ _ => pure none) E.hashing scope taskId .expired
          "atmem-policy-evaluator" .policyEvaluator (value code) (some (value code)))
      fun e => if lostRace e then pure () else throw e) log h
        fun _ r h' => r = .ok () → Retired h' taskId := by
  have hgate : TaskLifecycle.expired = .completed → ∀ h₀, R log h h₀ → ∀ c,
      h₀.now.store.cell taskId = some c → c.Met E := fun ht => TaskLifecycle.noConfusion ht
  refine .tryCatch (Q := fun _ r h' => (r = .ok () ∨ ∃ e, r = .error e ∧ lostRace e = true) →
    Retired h' taskId) ?_ (fun _ _ _ _ hq _ => hq (Or.inl rfl)) (fun _ e h' hk' _ hq => ?_)
  · refine .bind (secure_lifecycleVia hR expires_none hgate
      fun _ => ⟨rfl, c, t, code, hh, hread, hdue, rfl⟩) (fun _ v _ _ _ hq => ?_)
      (fun _ e _ _ hq he => ?_)
    · exact .pure fun _ => hq rfl (Or.inl ⟨v, rfl⟩)
    · rcases he with he | ⟨e', he, hl⟩
      · cases he
      · cases he
        exact hq rfl (Or.inr ⟨e, rfl, hl⟩)
  · split
    · rename_i hl
      exact .pure fun _ => hq (Or.inr ⟨e, rfl, hl⟩)
    · exact .throw fun he => nomatch he

/-- **The lazy expiry.** What it returns is a row of a task that is
terminal. -/
theorem expires_expireIfDue (hR : Relies E R) : Expires E R (expireIfDue E.hashing) := by
  intro log h scope taskId c hh
  unfold expireIfDue expiryStatus
  refine .bind (Q := fun _ r h' => ∃ t, r = .ok (expiryStatusAt c.row t) ∧ Reading h' t) ?_
    (fun log₁ status h₁ _ he₁ hq => ?_) (fun _ _ _ _ _ _ hr => nomatch hr)
  · exact .bind (Q := fun _ r h' => ∃ t, r = .ok t ∧ Reading h' t)
      (.now hR fun _ t _ _ hr _ => ⟨t, rfl, hr⟩)
      (fun _ t _ _ _ ⟨_, ht, hr⟩ => .pure ⟨t, rfl, by cases ht; exact hr⟩)
      (fun _ _ _ _ hq => nomatch hq.choose_spec.1)
  · obtain ⟨t, hs, hread⟩ := hq
    cases hs
    replace hh := hh.evolves he₁
    rcases hdue : (expiryStatusAt c.row t).dueReason with - | code
    · exact .pure fun _ hr => nomatch hr
    · simp only [hh.named]
      refine .bind (secure_retire hR hh hread hdue) (fun log₂ _ h₂ hk₂ he₂ hret => ?_)
        (fun _ _ _ _ _ _ hr => nomatch hr)
      refine .query hR fun h' _ hk' he' fresh hr => ?_
      obtain ⟨c', hc', ht⟩ := (hret rfl).evolves hk₂ he'
      obtain ⟨c'', hc'', rfl, -⟩ := getTask_eq_some.mp (Except.ok.inj hr)
      obtain rfl := Option.some.inj (hc'.symm.trans hc'')
      exact ⟨c', rfl, (hk'.held hc').evolves (hk'.acts (.idle E h')).2, ht⟩

/-! ## Transitions -/

variable {proposal : TaskStateProposal} {decision : PolicyDecision} {v : TaskView}

/-- **A commit** writes an advance of the cell that was viewed, or none. -/
theorem secure_commit (hR : Relies E R) (hh : Held E h proposal.val.taskId c) (hv : Viewed E c v)
    {nowIso : String} {allowPrivileged : Bool}
    (he : evaluate E.hashing v.state v.profile proposal nowIso none allowPrivileged = .ok decision)
    {stepKind : String} {started : Instant} :
    Secure E R (commit E.hashing proposal v decision stepKind started) log h
      fun _ _ _ => True := by
  obtain ⟨base, hbase, hstate⟩ := hv.head
  rw [hstate] at he
  unfold commit
  refine .bind (Q := fun _ r h' => ∃ t, r = .ok t ∧ Reading h' t ∧
      ∀ t₀, Reading h t₀ → Monotone E.clock → t₀ ≤ t)
    (.now hR fun _ t h' _ hr hle => ⟨t, rfl, hr, hle⟩)
    (fun log₁ t h₁ _ he₁ hq => ?_) (fun _ _ _ _ _ => trivial)
  obtain ⟨_, ⟨⟩, hread, hnow⟩ := hq
  replace hread : Reading h₁ t := hread
  refine .transaction hR (fun h' d s' _ _ he' hrun => ⟨?_, trivial⟩) (fun _ _ _ _ _ _ _ => trivial)
  obtain ⟨cNow, hc, ha⟩ := ((hh.evolves he₁).evolves he').now
  obtain ⟨resolution, s₁, hres, hresolved⟩ := exec_resolve (hh.chained.later (he₁.trans he').later)
    ha hc hh.named hbase hv.profile he rfl (hread.later he'.later)
    (hnow _ (hh.chained.readings _ (List.mem_of_getLast? hbase))) hstate
  obtain ⟨hstep, hproposals, hsteps⟩ := hresolved.storeStep
  obtain ⟨c₁, hc₁, -⟩ := hstep.cell_some hc
  rw [exec_commitTx hres (hasTask_of_cell hc₁)] at hrun
  split at hrun
  · cases hrun
  · split at hrun
    · cases hrun
    · rename_i proposals hi
      cases hrun
      refine hstep.append rfl rfl ?_ (List.prefix_append _ _) (List.prefix_refl _) rfl rfl rfl
      rw [(Table.insert_eq_some.mp hi).2]
      exact List.prefix_append _ _

/-- What a replay reads changes nothing. -/
theorem secure_replay {replayed : ProposalRow} :
    Secure E R (replay E.hashing proposal replayed) log h fun _ _ _ => True := by
  unfold replay
  split
  · exact .throw trivial
  · exact .lift (fun _ _ => trivial) (fun _ _ => trivial)

/-- **A submit** commits what the head it viewed was evaluated to. -/
theorem secure_submit (hR : Relies E R) {allowPrivileged : Bool} {stepKind : String} :
    Secure E R (submit E.hashing proposal allowPrivileged stepKind) log h fun _ _ _ => True := by
  unfold submit
  refine .bind (Q := fun _ _ _ => True) (.now hR fun _ _ _ _ _ _ => trivial)
    (fun log₁ started h₁ _ _ _ => ?_) (fun _ _ _ _ _ => trivial)
  refine .bind (Q := fun _ r h' => ∀ found, r = .ok (some found) → ∃ c, c.row = found ∧
      Held E h' proposal.val.taskId c)
    (.query hR fun h' _ hk he found hr => ?_) (fun log₂ found h₂ _ _ hq => ?_)
    (fun _ _ _ _ _ => trivial)
  · obtain ⟨c, hc, hrow, -⟩ := getTask_eq_some.mp (Except.ok.inj hr)
    exact ⟨c, hrow, (hk.held hc).evolves (hk.acts (.idle E h')).2⟩
  rcases found with - | found
  · exact .throw trivial
  obtain ⟨c, rfl, hh⟩ := hq found rfl
  refine .bind (Q := fun _ _ _ => True) (.query hR fun _ _ _ _ => trivial)
    (fun log₃ replayed h₃ _ he₃ _ => ?_) (fun _ _ _ _ _ => trivial)
  replace hh := hh.evolves he₃
  rcases replayed with - | replayed
  · refine .bind (Q := fun _ r h' => ∀ row, r = .ok row →
        ∃ c', c'.row = row ∧ Held E h' proposal.val.taskId c') ?_
      (fun log₄ row h₄ _ he₄ hq => ?_) (fun _ _ _ _ _ => trivial)
    · -- an expiry that is due comes first
      split
      · refine .pure fun row hr => ?_
        cases hr
        exact ⟨c, rfl, hh⟩
      · refine (secure_refresh (expires_expireIfDue hR) hh).mono fun _ _ h' he hq row hr => ?_
        rcases hq row hr with rfl | ⟨c', hrow, hh', -⟩
        · exact ⟨c, rfl, hh.evolves he⟩
        · exact ⟨c', hrow, hh'⟩
    · obtain ⟨c', rfl, hh'⟩ := hq row rfl
      refine .bind (secure_view hR framed_true trivial hh') (fun log₅ v h₅ _ he₅ hq => ?_)
        (fun _ _ _ _ _ => trivial)
      obtain ⟨-, _, ⟨⟩, hv⟩ := hq
      refine .bind (Q := fun _ _ _ => True) (.now hR fun _ _ _ _ _ _ => trivial)
        (fun log₆ evaluatedAt h₆ _ he₆ _ => ?_) (fun _ _ _ _ _ => trivial)
      refine .bind (Q := fun _ r _ => ∀ decision, r = .ok decision → evaluate E.hashing v.state
          v.profile proposal (toIso evaluatedAt) none allowPrivileged = .ok decision)
        (.lift (fun decision hd _ hr => by cases hr; exact hd) (fun _ _ _ hr => nomatch hr))
        (fun log₇ decision h₇ _ he₇ hq => ?_) (fun _ _ _ _ _ => trivial)
      exact secure_commit hR ((hh'.evolves he₅).evolves (he₆.trans he₇)) hv (hq decision rfl)
  · exact secure_replay

/-- A correction is a submit of the proposal with its reason. -/
theorem secure_correct (hR : Relies E R) {reason : String} :
    Secure E R (correct E.hashing proposal reason) log h fun _ _ _ => True := by
  unfold correct
  refine .bind secure_require (fun log₁ _ h₁ _ _ _ => ?_) (fun _ _ _ _ _ => trivial)
  split
  · exact .throw trivial
  · exact .bind (.lift (Q := fun _ _ _ => True) (fun _ _ => trivial) (fun _ _ => trivial))
      (fun _ _ _ _ _ _ => secure_submit hR) (fun _ _ _ _ _ => trivial)

/-! ## Start -/

/-- **A start** leaves one new cell, or none. -/
theorem secure_start (hR : Relies E R) {request : TaskStartRequest} {items : List TaskItem} :
    Secure E R (start E.hashing request items) log h fun _ _ _ => True := by
  unfold start
  refine .bind secure_require (fun log₁ _ h₁ _ _ _ => ?_) (fun _ _ _ _ _ => trivial)
  refine .bind (Q := fun _ r h' => ∀ existing, r = .ok (some existing) →
      ∃ c, c.row = existing ∧ Held E h' existing.taskId c)
    (.query hR fun h' _ hk _ existing hr => ?_) (fun log₂ existing h₂ _ _ hq => ?_)
    (fun _ _ _ _ _ => trivial)
  · have hmem := List.mem_of_find?_eq_some (Except.ok.inj hr)
    obtain ⟨c, hc, hrow⟩ := cell_of_mem hmem
    exact ⟨c, hrow, (hk.held hc).evolves (hk.acts (.idle E h')).2⟩
  rcases existing with - | existing
  · -- a new task
    refine .bind (secure_profileOf hR framed_true trivial _) (fun log₃ profile h₃ hk₃ _ hq => ?_)
      (fun _ _ _ _ _ => trivial)
    rcases profile with - | profile
    · exact .throw trivial
    have hp : E.profile request.val.profileVersion = some profile := (Except.ok.inj hq.2).symm
    have hversion : profile.val.version = request.val.profileVersion :=
      Store.profile_version ((hk₃.profile _).trans hp)
    refine .bind (Q := fun _ r h' => ∃ t, r = .ok t ∧ Reading h' t)
      (.now hR fun _ t _ _ hr _ => ⟨t, rfl, hr⟩) (fun log₄ t h₄ _ _ hq => ?_)
      (fun _ _ _ _ _ => trivial)
    obtain ⟨_, ⟨⟩, hread⟩ := hq
    replace hread : Reading h₄ t := hread
    refine .bind (Q := fun _ _ _ => True) (.lift (fun _ _ => trivial) (fun _ _ => trivial))
      (fun log₅ constraints h₅ _ he₅ _ => ?_) (fun _ _ _ _ _ => trivial)
    refine .bind (Q := fun _ r _ => ∀ state, r = .ok state →
        state.val.taskId = request.val.taskId ∧ state.val.scope = request.val.scope ∧
          state.val.revision = 1 ∧ state.val.parentRevision = none ∧ state.val.lifecycle = .open)
      (.lift (fun state hs state' hr => ?_) (fun _ _ _ hr => nomatch hr))
      (fun log₆ state h₆ _ he₆ hq => ?_) (fun _ _ _ _ _ => trivial)
    · cases hr
      rw [(make_eq_ok.mp hs : state.val = _)]
      exact ⟨rfl, rfl, rfl, rfl, rfl⟩
    obtain ⟨htask, hscope, hrevision, hparent, hlifecycle⟩ := hq state rfl
    refine .bind (Q := fun _ _ _ => True)
      (.action hR fun h' _ _ _ => ⟨.idle E h', trivial⟩) (fun log₇ clockSource h₇ _ he₇ _ => ?_)
      (fun _ _ _ _ _ => trivial)
    refine .bind (Q := fun _ r h' => ∀ task, r = .ok task → task ∈ h'.now.store.tasks.rows)
      (.transaction hR (fun h' task s' _ hk he hrun => ?_) (fun _ _ _ _ _ _ _ _ hr => nomatch hr))
      (fun log₈ task h₈ hk₈ _ hq => ?_) (fun _ _ _ _ _ => trivial)
    · have hs : Started E h' ⟨startRow request profile t clockSource,
          [revisionRow E.hashing state request.val.actor request.val.actorRole
            [.lifecycleChangeAccepted] (request.val.evidence.map EvidenceRef.toDict) t false]⟩ :=
        .intro (by rw [hversion, hp])
          ((((hread.later he₅.later).later he₆.later).later he₇.later).later he.later)
          htask hscope hrevision hparent hlifecycle rfl rfl
      obtain ⟨hstep, hmem⟩ := startTx_ok hk.owned rfl htask hs hrun
      exact ⟨hstep, fun task' hr => by cases hr; exact hmem⟩
    · obtain ⟨c, hc, rfl⟩ := cell_of_mem (hq task rfl)
      exact (secure_view hR framed_true trivial (hk₈.held hc)).mono fun _ _ _ _ _ => trivial
  · -- the start was made before: its task is shown
    obtain ⟨c, rfl, hh⟩ := hq existing rfl
    exact (secure_view hR framed_true trivial hh).mono fun _ _ _ _ _ => trivial

end Atmem
