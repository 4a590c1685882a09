import Atmem.TaskState.Helpers.BindingCalls
/-!
# Session bindings resolve what was registered

Any number of connections register, revoke and resolve against one store,
interleaved at every action, under any readings of the clock. A resolve
delivers a bound task only for a registration of exactly the identity that
is neither revoked nor expired. A registration that has only expired still
holds its conversation, and a conversation is free again once it is revoked.
-/

namespace Atmem.Bindings

open Interleaving Checked

variable {w w' : World} {row : SessionBindingRow}

/-! ## What was answered stays true -/

/-- A binding stays in its scope. -/
theorem Stays.scope {row row' : SessionBindingRow} (h : Stays row row') :
    row'.subjectId = row.subjectId ∧ row'.agentId = row.agentId ∧
      row'.workspaceId = row.workspaceId := by
  rcases h with rfl | ⟨-, _, _, _, rfl⟩ <;> exact ⟨rfl, rfl, rfl⟩

/-- An outcome holds of every later moment too. -/
theorem Outcome.later {k : BindingCall} {a : BindingAnswer} {h h' : Timeline World}
    (ho : Outcome k a h) (hx : h.Extends h') (hp : Past h') : Outcome k a h' := by
  have hf := (hp _ (hx _ Timeline.seen_now)).2
  cases k with
  | register r =>
    cases a with
    | registered a =>
      refine ⟨fun he => ?_, fun b hb => ?_⟩
      · obtain ⟨w, hw, hrow⟩ := ho.1 he
        exact ⟨w, hx w hw, hrow⟩
      · obtain ⟨w, hw, hrow⟩ := ho.2 b hb
        exact ⟨w, hx w hw, hrow⟩
    | revoked | resolved => exact ho
  | revoke scope bindingId actor reason =>
    cases a with
    | revoked a =>
      intro ha
      obtain ⟨row, hr, hid, hsubject, hagent, hworkspace, hrevoked⟩ := ho ha
      obtain ⟨row', hr', hs⟩ := hf.stays row hr
      refine ⟨row', hr', hs.bindingId.trans hid, hs.scope.1.trans hsubject,
        hs.scope.2.1.trans hagent, hs.scope.2.2.trans hworkspace, hs.revoked hrevoked⟩
    | registered | resolved => exact ho
  | resolve scope identity explicitTaskId =>
    cases a with
    | resolved a =>
      obtain ⟨w, n, hw, hle, hge, hanswer⟩ := ho
      exact ⟨w, n, hx w hw, hle, Nat.le_trans hge hf.ticks, hanswer⟩
    | registered | revoked => exact ho

/-- Of each identity at most one row is not revoked. -/
theorem Sound.countP_le_one (hw : Sound w) (key : List String) :
    (rows w).countP (fun row => decide (row.key = key) && row.revokedAtUtc.isNone) ≤ 1 := by
  have hpair := hw.apart
  generalize rows w = rs at hpair
  induction rs with
  | nil => exact Nat.zero_le _
  | cons a rs ih =>
    obtain ⟨ha, hrs⟩ := List.pairwise_cons.mp hpair
    rw [List.countP_cons]
    split
    · rename_i hak
      have hzero : rs.countP (fun row => decide (row.key = key) && row.revokedAtUtc.isNone) = 0 := by
        refine List.countP_eq_zero.mpr fun b hb hbk => ?_
        simp only [Bool.and_eq_true, decide_eq_true_eq, Option.isNone_iff_eq_none] at hak hbk
        exact (SessionBindingRow.clash_eq_false.mp (ha b hb)).2 (hak.1.trans hbk.1.symm) hak.2 hbk.2
      rw [hzero]
    · exact ih hrs

/-! ## A call that runs alone -/

/-- What a registration needs beside a free conversation: an expiry there is
a date for, fields that pass their checks, and a draw nobody drew before. -/
structure Registration.Ready (r : Registration) (w : World) : Prop where
  expires : ∃ e, expiresAt r.profile (w.clock w.ticks) = .ok e
  checked : (r.fields (w.clock w.ticks)).postInit = .ok ()
  fresh : ∀ row ∈ rows w, row.bindingId ≠ "binding-" ++ r.drawn

/-- What a method raises is raised. -/
theorem exec_raising {α : Type} (x : Svc α) (w : World) :
    (raising x).exec w = ((x.exec w).1.mapError .raised, (x.exec w).2) :=
  Prog.exec_bind x _ w

/-- What registering does, alone. -/
theorem exec_register {r : Registration} {e : Option Instant}
    (he : expiresAt r.profile (w.clock w.ticks) = .ok e)
    (hb : (r.fields (w.clock w.ticks)).postInit = .ok ()) :
    ((register r).exec w).1 =
      if (rows w).any (·.clash (rowOf (r.fields (w.clock w.ticks)) e)) then .error alreadyActive
      else .ok ⟨r.fields (w.clock w.ticks), hb⟩ := by
  have hnow : (raising now).exec w = (.ok (w.clock w.ticks), w.ticked) := rfl
  unfold register
  rw [Eff.exec_bind_ok hnow, he, Eff.exec_bind_ok rfl, Checked.make_of_ok hb, Eff.exec_bind_ok rfl,
    Eff.exec_bind, Eff.exec_tryCatch, exec_raising, transaction_insert, Eff.exec_action]
  have hrows : rows w.ticked = rows w := rfl
  rw [hrows]
  by_cases hany : (rows w).any (·.clash (rowOf (r.fields (w.clock w.ticks)) e)) = true
  · rw [if_pos hany, if_pos hany]
    rfl
  · rw [if_neg hany, if_neg hany]
    rfl

/-- What revoking does, alone. -/
theorem exec_revoke (scope : AuthorityScope) (bindingId actor reason : String) :
    (revoke scope bindingId actor reason).exec w =
      (if (rows w).any (selectedBy scope bindingId) then .ok ()
        else .error (.bindingError .bindingNotFound "no active binding matches that identifier"),
        World.revoked w.ticked scope bindingId (w.clock w.ticks) actor reason) := by
  have hnow : (raising now).exec w = (.ok (w.clock w.ticks), w.ticked) := rfl
  unfold revoke
  rw [Eff.exec_bind_ok hnow, transaction_revoke, Eff.exec_bind_ok rfl]
  by_cases hany : (rows w).any (selectedBy scope bindingId) = true
  · rw [if_pos hany, if_pos (show (rows w.ticked).any _ = true from hany)]
    rfl
  · rw [if_neg hany, if_neg (show ¬ (rows w.ticked).any _ = true from hany)]
    rfl

/-- A registration of a conversation that is held is told so, whether the
registration that holds it has expired or not. -/
theorem register_alreadyActive {r : Registration} (hr : r.Ready w) (hrow : row ∈ rows w)
    (hkey : row.key = bindingKey r.scope r.identity) (hnone : row.revokedAtUtc = none) :
    ((register r).exec w).1 = .error alreadyActive := by
  obtain ⟨e, he⟩ := hr.expires
  rw [exec_register he hr.checked]
  refine if_pos (List.any_eq_true.mpr ⟨row, hrow, ?_⟩)
  by_contra hclash
  exact (SessionBindingRow.clash_eq_false.mp (Bool.eq_false_iff.mpr hclash)).2 hkey hnone rfl

/-- **A registration succeeds exactly where no row of its identity is
unrevoked**, expired or not. -/
theorem register_ok_iff {r : Registration} (hr : r.Ready w) :
    (∃ b, ((register r).exec w).1 = .ok b) ↔
      ∀ row ∈ rows w, row.key = bindingKey r.scope r.identity → row.revokedAtUtc ≠ none := by
  obtain ⟨e, he⟩ := hr.expires
  rw [exec_register he hr.checked]
  constructor
  · rintro ⟨b, hb⟩ row hrow hkey hnone
    rw [← exec_register he hr.checked, register_alreadyActive hr hrow hkey hnone] at hb
    cases hb
  · intro hfree
    rw [if_neg]
    · exact ⟨_, rfl⟩
    · intro hany
      obtain ⟨row, hrow, hclash⟩ := List.any_eq_true.mp hany
      have hfalse : row.clash (rowOf (r.fields (w.clock w.ticks)) e) = false :=
        SessionBindingRow.clash_eq_false.mpr
          ⟨hr.fresh row hrow, fun hkey hnone _ => hfree row hrow hkey hnone⟩
      rw [hfalse] at hclash
      cases hclash

/-- **A binding that is not revoked can be**, and then its conversation is
free. -/
theorem revoke_frees (hw : Sound w) (hrow : row ∈ rows w) (hnone : row.revokedAtUtc = none)
    {scope : AuthorityScope} {identity : HostSessionIdentity}
    (hkey : row.key = bindingKey scope identity) (actor reason : String) :
    ((revoke scope row.bindingId actor reason).exec w).1 = .ok () ∧
      ∀ row' ∈ rows ((revoke scope row.bindingId actor reason).exec w).2,
        row'.key = bindingKey scope identity → row'.revokedAtUtc ≠ none := by
  have hk := key_eq_bindingKey.mp hkey
  have hsel : selectedBy scope row.bindingId row = true :=
    selectedBy_eq_true.mpr ⟨rfl, hk.1, hk.2.1, hk.2.2.1, hnone⟩
  rw [exec_revoke]
  refine ⟨if_pos (List.any_eq_true.mpr ⟨row, hrow, hsel⟩), fun row' hr' hkey' hnone' => ?_⟩
  obtain ⟨row₀, hr₀, rfl⟩ := List.mem_map.mp hr'
  have hs : Stays row₀ (revokedRow scope row.bindingId (w.clock w.ticks) actor reason row₀) :=
    stays_revokedRow
  have hkey₀ : row₀.key = row.key := (hs.key.symm.trans hkey').trans hkey.symm
  obtain rfl := hw.eq_of_key hr₀ hrow hkey₀ (hs.unrevoked hnone') hnone
  rw [revokedRow_of_selected hsel] at hnone'
  cases hnone'

/-! ## Every run -/

/-- **The registry, in every run.** Every row was left by a registration of
the run, and of each identity at most one is not revoked; every call is
answered as its outcome says, a resolve by one task or one refusal; and a
registration succeeds where no row of its identity is left unrevoked, which
a revocation brings about and an expiry does not, and is refused as already
active where one is. -/
theorem bindings_resolve_registrations {w : World} (hw : rows w = []) {c : BindingSystem}
    (hr : Reaches BindingCall.body (fun _ => True) (Config.initial w) c) :
    (∀ w', c.time.Seen w' → (∀ row ∈ rows w', LeftBy c.procs row) ∧
      (rows w').Pairwise (fun a b => a.bindingId ≠ b.bindingId) ∧
      ∀ key, (rows w').countP (fun row => decide (row.key = key) && row.revokedAtUtc.isNone) ≤ 1) ∧
    (∀ p ∈ c.procs, ∀ a, p.prog = .ret a → Outcome p.call a c.time) ∧
    (∀ r : Registration, r.Ready c.time.now →
      ((∃ b, ((register r).exec c.time.now).1 = .ok b) ↔
        ∀ row ∈ rows c.time.now, row.key = bindingKey r.scope r.identity →
          row.revokedAtUtc ≠ none) ∧
      ∀ row ∈ rows c.time.now, row.key = bindingKey r.scope r.identity → row.revokedAtUtc = none →
        ((register r).exec c.time.now).1 = .error alreadyActive) ∧
    ∀ row ∈ rows c.time.now, row.revokedAtUtc = none → ∀ scope identity actor reason,
      row.key = bindingKey scope identity →
        ((revoke scope row.bindingId actor reason).exec c.time.now).1 = .ok () ∧
        ∀ r : Registration, r.scope = scope → r.identity = identity →
          r.Ready ((revoke scope row.bindingId actor reason).exec c.time.now).2 →
          ∃ b, ((register r).exec
            ((revoke scope row.bindingId actor reason).exec c.time.now).2).1 = .ok b := by
  have hpast : Past ⟨[], w⟩ := by
    rintro w' (rfl | hs)
    · exact ⟨⟨by rw [hw]; exact .nil, fun row hrow => by rw [hw] at hrow; cases hrow⟩, .refl _⟩
    · cases hs
  obtain ⟨hgood, -⟩ := discipline.good_reaches (fun _ _ _ _ => trivial)
    (discipline.good_initial hpast) hr
  have hnow := hgood.1 _ Timeline.seen_now
  refine ⟨fun w' hseen => ⟨(registry_of_reaches hw hr).1 w' hseen, ?_, fun key => ?_⟩,
    fun p hp a ha => ?_, fun r hready => ⟨register_ok_iff hready, ?_⟩, ?_⟩
  · exact (hgood.1 w' hseen).1.apart.imp fun hab => (SessionBindingRow.clash_eq_false.mp hab).1
  · exact (hgood.1 w' hseen).1.countP_le_one key
  · -- an outcome that held when the call was answered holds later
    obtain ⟨h, hx, -, ho⟩ := hgood.outcome hp ha
    exact Outcome.later ho hx hgood.1
  · exact fun row hrow hkey hnone => register_alreadyActive hready hrow hkey hnone
  · intro row hrow hnone scope identity actor reason hkey
    -- a revocation leaves no unrevoked row of the identity
    obtain ⟨hok, hfree⟩ := revoke_frees hnow.1 hrow hnone hkey actor reason
    refine ⟨hok, fun r hscope hidentity hready => (register_ok_iff hready).mpr ?_⟩
    rw [hscope, hidentity]
    exact hfree

/-! ## An expired registration -/

/-- An empty table; the second reading of the clock is a day after the
first. -/
def nextDay : World where
  store := {}
  clock n := n * 86400000000

/-- The scope of the example. -/
def workspace : AuthorityScope := ⟨⟨"s", "a", "w"⟩, by decide +kernel⟩

/-- The session of the example. -/
def conversation : HostSessionIdentity := ⟨⟨"openclaw", "key", "epoch"⟩, by decide +kernel⟩

/-- A registration under the built-in profile, which declares twelve hours. -/
def forHalfADay (drawn : String) : Registration where
  scope := workspace
  identity := conversation
  taskId := "task"
  actor := "op"
  reason := "r"
  profile := some generalV1
  drawn

/-- The world after its first registration. -/
def boundWorld : World := runAll BindingCall.body [.register (forHalfADay "a")] nextDay

/-- One registration, and a second call. -/
theorem exists_second_call (k : BindingCall) :
    ∃ c : BindingSystem, Reaches BindingCall.body (fun _ => True) (Config.initial nextDay) c ∧
      c.time.now = ((BindingCall.body k).exec (runAll BindingCall.body
        [.register (forHalfADay "a")] (Config.initial nextDay : BindingSystem).time.now)).2 ∧
      ∃ p ∈ c.procs, p.call = k ∧ p.prog = .ret ((BindingCall.body k).exec (runAll BindingCall.body
        [.register (forHalfADay "a")] (Config.initial nextDay : BindingSystem).time.now)).1 :=
  reaches_runAll_call BindingCall.body (fun _ _ => trivial) trivial

/-- **The registry, with one conversation bound and resolved.** -/
theorem conversation_resolves : ∃ c : BindingSystem, ∃ p ∈ c.procs,
    p.call = .resolve workspace (some conversation) none ∧ ∃ a, p.prog = .ret a ∧
      Outcome (.resolve workspace (some conversation) none) a c.time := by
  obtain ⟨c, hr, -, p, hp, hcall, hprog⟩ := exists_second_call
    (.resolve workspace (some conversation) none)
  refine ⟨c, p, hp, hcall, _, hprog, ?_⟩
  have ho := (bindings_resolve_registrations rfl hr).2.1 p hp _ hprog
  rwa [hcall] at ho

/-- The one binding of the example. -/
theorem rows_boundWorld : rows boundWorld =
    [rowOf ((forHalfADay "a").fields 0) (some 43200000000)] := by
  decide +kernel

/-- A second one is refused. -/
theorem register_boundWorld : ((register (forHalfADay "b")).exec boundWorld).1 = .error alreadyActive ∧
    rows ((register (forHalfADay "b")).exec boundWorld).2 = rows boundWorld := by
  decide +kernel

/-- **An expired registration is not registered over**: the operator
registers the conversation a day later, and is told it is still bound. -/
theorem expired_binding_still_held : ∃ c : BindingSystem,
    Reaches BindingCall.body (fun _ => True) (Config.initial nextDay) c ∧
    (∃ p ∈ c.procs, p.call = .register (forHalfADay "b") ∧
      p.prog = .ret (.registered (.error alreadyActive))) ∧
    ∃ row, rows c.time.now = [row] ∧ row.key = bindingKey workspace conversation ∧
      row.bindingId = "binding-a" ∧ ∃ e, row.expiresAtUtc = some e ∧ e ≤ nextDay.clock 1 := by
  obtain ⟨c, hr, hnow, p, hp, hcall, hprog⟩ := exists_second_call (.register (forHalfADay "b"))
  have hexec : (BindingCall.body (.register (forHalfADay "b"))).exec boundWorld =
      (.registered ((register (forHalfADay "b")).exec boundWorld).1,
        ((register (forHalfADay "b")).exec boundWorld).2) := Prog.exec_bind _ _ _
  have hworld : runAll BindingCall.body [.register (forHalfADay "a")]
      (Config.initial nextDay : BindingSystem).time.now = boundWorld := rfl
  rw [hworld, hexec] at hnow hprog
  rw [register_boundWorld.1] at hprog
  refine ⟨c, hr, ⟨p, hp, hcall, hprog⟩, rowOf ((forHalfADay "a").fields 0) (some 43200000000), ?_,
    rfl, rfl, 43200000000, rfl, ?_⟩
  · rw [hnow, register_boundWorld.2, rows_boundWorld]
  · decide

end Atmem.Bindings
