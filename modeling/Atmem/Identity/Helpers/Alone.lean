import Atmem.Identity.Helpers.Changes
/-!
# The operations, one after the other

What an operation that runs alone does to the state: the rows stay as they
are or their revisions rise, and every session that is stored afterwards was
stored before, unless the operation signs somebody in.
-/

namespace Atmem.Identity

open Interleaving

variable (E : Engine)

/-- The `t`-th reading of the clock is made between two states. -/
def World.Reads (w w' : World) (t : ℕ) : Prop := w.ticks ≤ t ∧ t < w'.ticks

/-- What an operation that opens no session does. `token` is the token it
uses, if it does. -/
structure World.Follows (token : Option String) (w w' : World) : Prop where
  sound : w'.Sound E
  since : w.Since w'
  ticks : w.ticks ≤ w'.ticks
  rows : ∀ u a, w.accountsDoc.row u = some a →
    ∃ a', w'.accountsDoc.row u = some a' ∧ (a' = a ∨ a.revision < a'.revision)
  stored : ∀ x ∈ w'.stored, ∃ y ∈ w.stored, x = y ∨
    ∃ t, w.Reads w' t ∧ x = y.touched (E.clock t) ∧
      ∃ s ∈ token, E.sha256 s = y.tokenSha256

section

variable {E} {α β : Type} {Q : α → World → Prop} {Q' : β → World → Prop} {token : Option String}
variable {w w' w₁ w₂ w₃ : World}

theorem World.Follows.refl (hw : w.Sound E) : w.Follows E token w where
  sound := hw
  since := .refl w
  ticks := le_rfl
  rows _ a ha := ⟨a, ha, .inl rfl⟩
  stored x hx := ⟨x, hx, .inl rfl⟩

/-- What follows what follows follows. -/
theorem World.Follows.trans (h₁₂ : w₁.Follows E token w₂) (h₂₃ : w₂.Follows E token w₃) :
    w₁.Follows E token w₃ where
  sound := h₂₃.sound
  since := h₁₂.since.trans h₂₃.since
  ticks := h₁₂.ticks.trans h₂₃.ticks
  rows u a ha := by
    obtain ⟨a₂, ha₂, h⟩ := h₁₂.rows u a ha
    obtain ⟨a₃, ha₃, h'⟩ := h₂₃.rows u a₂ ha₂
    refine ⟨a₃, ha₃, ?_⟩
    rcases h with rfl | h
    · exact h'
    · rcases h' with rfl | h'
      · exact .inr h
      · exact .inr (h.trans h')
  stored x hx := by
    obtain ⟨y, hy, hxy⟩ := h₂₃.stored x hx
    obtain ⟨z, hz, hyz⟩ := h₁₂.stored y hy
    refine ⟨z, hz, ?_⟩
    have hlo := h₁₂.ticks
    have hhi := h₂₃.ticks
    rcases hxy with rfl | ⟨t, ht, rfl, s, hs, htoken⟩
    · rcases hyz with rfl | ⟨t, ht, rfl, huse⟩
      · exact .inl rfl
      · exact .inr ⟨t, ⟨ht.1, ht.2.trans_le hhi⟩, rfl, huse⟩
    · have hsame : y.tokenSha256 = z.tokenSha256 ∧ ∀ now, y.touched now = z.touched now := by
        rcases hyz with rfl | ⟨t', -, rfl, -⟩
        · exact ⟨rfl, fun _ => rfl⟩
        · exact ⟨rfl, fun _ => rfl⟩
      exact .inr ⟨t, ⟨hlo.trans ht.1, ht.2⟩, hsame.2 _, s, hs, htoken.trans hsame.1⟩

/-- Using a token is more than using none. -/
theorem World.Follows.of_none (h : w.Follows E none w') : w.Follows E token w' := by
  refine ⟨h.sound, h.since, h.ticks, h.rows, fun x hx => ?_⟩
  obtain ⟨y, hy, rfl | ⟨_, _, _, s, hs, _⟩⟩ := h.stored x hx
  · exact ⟨x, hy, .inl rfl⟩
  · cases hs

/-- Run alone, the method opens no session; `Q` holds of what it returns. -/
def Method.Alone (E : Engine) (token : Option String) (Q : α → World → Prop) (x : Method α)
    (w : World) : Prop :=
  w.Follows E token (x.exec w).2 ∧ ∀ a, (x.exec w).1 = .ok a → Q a (x.exec w).2

theorem Method.Alone.pure (hw : w.Sound E) {a : α} (ha : Q a w) :
    Method.Alone E token Q (Pure.pure a) w :=
  ⟨.refl hw, fun b hb => by cases hb; exact ha⟩

theorem Method.Alone.throw (hw : w.Sound E) {e : Raised} :
    Method.Alone E token Q (MonadExcept.throw e) w :=
  ⟨.refl hw, fun b hb => by cases hb⟩

theorem Method.Alone.ofExcept (hw : w.Sound E) {r : Except Raised α} :
    Method.Alone E token (fun a w' => r = .ok a ∧ w' = w) (Eff.ofExcept id r) w := by
  rcases r with e | a
  · exact .throw hw
  · exact .pure hw ⟨rfl, rfl⟩

/-- The rule of sequence. -/
theorem Method.Alone.bind {x : Method α} {f : α → Method β} (hx : x.Alone E token Q w)
    (hf : ∀ a w', Q a w' → w.Follows E token w' → (f a).Alone E token Q' w') :
    (x >>= f).Alone E token Q' w := by
  obtain ⟨hfollows, hQ⟩ := hx
  unfold Method.Alone
  rcases hrun : x.exec w with ⟨e | a, w'⟩
  · rw [Eff.exec_bind_error hrun]
    rw [hrun] at hfollows
    exact ⟨hfollows, fun b hb => by cases hb⟩
  · rw [hrun] at hfollows hQ
    rw [Eff.exec_bind_ok hrun]
    obtain ⟨hfollows', hQ'⟩ := hf a w' (hQ a rfl) hfollows
    exact ⟨hfollows.trans hfollows', hQ'⟩

theorem Method.Alone.mono {Q' : α → World → Prop} {x : Method α} (hx : x.Alone E token Q w)
    (hQ : ∀ a w', Q a w' → Q' a w') : x.Alone E token Q' w :=
  ⟨hx.1, fun a ha => hQ a _ (hx.2 a ha)⟩

/-- Without a token it may touch no session at all. -/
theorem Method.Alone.of_none {x : Method α} (hx : x.Alone E none Q w) : x.Alone E token Q w :=
  ⟨hx.1.of_none, hx.2⟩

/-- A map of a method that runs alone. -/
theorem Method.Alone.map {x : Method α} {f : α → β} (hx : x.Alone E token Q w)
    (hf : ∀ a w', Q a w' → Q' (f a) w') : Method.Alone E token Q' (f <$> x) w := by
  unfold Method.Alone
  rw [Eff.exec_map]
  refine ⟨hx.1, fun b hb => ?_⟩
  rcases hrun : (x.exec w).1 with e | a
  · rw [hrun] at hb
    cases hb
  · rw [hrun] at hb
    cases hb
    exact hf a _ (hx.2 a hrun)

/-! ## The actions -/

/-- Readings and draws. -/
def World.Counted (w w' : World) : Prop :=
  w'.accounts = w.accounts ∧ w'.sessions = w.sessions ∧ w.ticks ≤ w'.ticks ∧ w.draws ≤ w'.draws

namespace World.Counted

theorem accountsDoc (h : w.Counted w') : w'.accountsDoc = w.accountsDoc := by
  unfold World.accountsDoc
  rw [h.1]

theorem sessionsDoc (h : w.Counted w') : w'.sessionsDoc = w.sessionsDoc := by
  unfold World.sessionsDoc
  rw [h.2.1]

theorem trans (h₁₂ : w₁.Counted w₂) (h₂₃ : w₂.Counted w₃) : w₁.Counted w₃ :=
  ⟨h₂₃.1.trans h₁₂.1, h₂₃.2.1.trans h₁₂.2.1, h₁₂.2.2.1.trans h₂₃.2.2.1,
    h₁₂.2.2.2.trans h₂₃.2.2.2⟩

/-- Clock readings and draws follow everything. -/
theorem follows (h : w.Counted w') (hw : w.Sound E) : w.Follows E token w' where
  sound := by
    refine ⟨by rw [h.accountsDoc]; exact hw.accounts, fun x hx => ?_⟩
    unfold World.stored at hx
    rw [h.sessionsDoc] at hx
    obtain ⟨m, hm, htoken⟩ := hw.drawn x hx
    exact ⟨m, hm.trans_le h.2.2.2, htoken⟩
  since := ⟨fun hsome => by unfold World.rows; rw [h.accountsDoc]; exact hsome, h.2.2.2⟩
  ticks := h.2.2.1
  rows _ a ha := ⟨a, by rw [h.accountsDoc]; exact ha, .inl rfl⟩
  stored x hx := ⟨x, by unfold World.stored at hx; rw [h.sessionsDoc] at hx; exact hx, .inl rfl⟩

end World.Counted

theorem alone_loadAccounts (hw : w.Sound E) :
    Method.Alone E token (fun d w' => d = w.accountsDoc ∧ w' = w) loadAccounts w :=
  ⟨.refl hw, fun d hd => by cases hd; exact ⟨rfl, rfl⟩⟩

theorem alone_loadSessions (hw : w.Sound E) :
    Method.Alone E token (fun d w' => d = w.sessionsDoc ∧ w' = w) loadSessions w :=
  ⟨.refl hw, fun d hd => by cases hd; exact ⟨rfl, rfl⟩⟩

theorem counted_tick : w.Counted { w with ticks := w.ticks + 1 } :=
  ⟨rfl, rfl, Nat.le_succ _, le_rfl⟩

theorem counted_draw : w.Counted { w with draws := w.draws + 1 } :=
  ⟨rfl, rfl, le_rfl, Nat.le_succ _⟩

theorem alone_clock (hw : w.Sound E) :
    Method.Alone E token (fun now w' => now = E.clock w.ticks ∧ w' = { w with ticks := w.ticks + 1 })
      (clock E) w :=
  ⟨counted_tick.follows hw, fun now hnow => by cases hnow; exact ⟨rfl, rfl⟩⟩

theorem alone_draw (hw : w.Sound E) :
    Method.Alone E token (fun _ w' => w.Counted w') draw w :=
  ⟨counted_draw.follows hw, fun _ _ => counted_draw⟩

/-- The accounts are written, as they become of those that are stored. -/
theorem alone_writeAccounts (hw : w.Sound E) {loaded value : Accounts} {row : Option String}
    (hloaded : loaded = w.accountsDoc) (hvalue : loaded.Becomes value row) :
    Method.Alone E token (fun _ w' => w' = { w with accounts := some value })
      (writeAccounts loaded row value) w := by
  subst hloaded
  refine ⟨⟨⟨hvalue.sound hw.accounts, hw.drawn⟩, ⟨hvalue.ne_nil, le_rfl⟩, le_rfl, ?_, ?_⟩,
    fun _ _ => rfl⟩
  · exact fun u a ha => hvalue.row_le hw.accounts ha
  · exact fun x hx => ⟨x, hx, .inl rfl⟩

/-- The sessions are written, each of them as it was stored. -/
theorem alone_writeSessions (hw : w.Sound E) {loaded value : Sessions} {ends : Bool}
    (hvalue : ∀ x ∈ value.sessions, x ∈ w.stored) :
    Method.Alone E token (fun _ w' => w' = { w with sessions := some value })
      (writeSessions loaded ends value) w :=
  ⟨⟨⟨hw.accounts, fun x hx => hw.drawn x (hvalue x hx)⟩, ⟨fun h => h, le_rfl⟩, le_rfl,
    fun _ a ha => ⟨a, ha, .inl rfl⟩, fun x hx => ⟨x, hvalue x hx, .inl rfl⟩⟩, fun _ _ => rfl⟩

/-! ## Parts of operations -/

theorem alone_audit (hw : w.Sound E) {value : Accounts} {operation actor target : String}
    {allowed : Bool} :
    Method.Alone E token (fun d w' => d.accounts = value.accounts ∧ w.Counted w')
      (audit E value operation actor target allowed) w :=
  .bind (alone_clock hw) fun _ _ h hf => .pure hf.sound ⟨rfl, h.2 ▸ counted_tick⟩

theorem alone_temporaryPassword (hw : w.Sound E) :
    Method.Alone E token (fun _ w' => w.Counted w') (temporaryPassword E) w :=
  .bind (alone_draw hw) fun _ _ h hf => .pure hf.sound h

theorem alone_newVerifier (hw : w.Sound E) {password : String} :
    Method.Alone E token (fun _ w' => w.Counted w') (newVerifier E password) w :=
  .bind (alone_draw hw) fun _ _ h hf => .pure hf.sound h

/-- A new account is enabled, under its normal name. -/
theorem alone_newAccount (hw : w.Sound E) {username password displayName : String}
    {role : LocalRole} :
    Method.Alone E token (fun a w' => normalizeUsername username = .ok a.username ∧ a.role = role ∧
      a.enabled = true ∧ w.Counted w') (newAccount E username password role displayName) w := by
  refine .bind (.ofExcept hw) fun canonical w₁ h₁ hf₁ => ?_
  obtain ⟨hname, rfl⟩ := h₁
  refine .bind (.ofExcept hw) fun _ w₂ h₂ _ => ?_
  obtain ⟨-, rfl⟩ := h₂
  refine .bind (alone_newVerifier hw) fun verifier w₃ h₃ hf₃ => ?_
  refine .bind (alone_clock hf₃.sound) fun now w₄ h₄ hf₄ => ?_
  obtain ⟨-, rfl⟩ := h₄
  exact .pure hf₄.sound ⟨hname, rfl, rfl, h₃.trans counted_tick⟩

/-- A new password is a revision more. -/
theorem alone_replacePassword (hw : w.Sound E) {a : Account} {password : String}
    {required : Bool} :
    Method.Alone E token (fun a' w' => a'.username = a.username ∧ a'.revision = a.revision + 1 ∧
      (a.ActiveAdministrator → a'.ActiveAdministrator) ∧ w.Counted w')
      (replacePassword E a password required) w := by
  refine .bind (.ofExcept hw) fun _ w₁ h₁ _ => ?_
  obtain ⟨-, rfl⟩ := h₁
  refine .bind (alone_newVerifier hw) fun verifier w₂ h₂ hf₂ => ?_
  refine .bind (alone_clock hf₂.sound) fun now w₃ h₃ hf₃ => ?_
  obtain ⟨-, rfl⟩ := h₃
  exact .pure hf₃.sound ⟨rfl, rfl, fun h => h, h₂.trans counted_tick⟩

/-- An audit row is added and the accounts are written. -/
theorem alone_audited (hw : w.Sound E) {operation actor target : String} {allowed : Bool} :
    Method.Alone E token (fun _ w' => w'.sessions = w.sessions) (do
      let audited ← audit E w.accountsDoc operation actor target allowed
      writeAccounts w.accountsDoc none audited) w := by
  refine .bind (alone_audit hw) fun d w₁ h₁ hf₁ => ?_
  refine (alone_writeAccounts hf₁.sound h₁.2.accountsDoc.symm (.audited h₁.1)).mono ?_
  rintro _ _ rfl
  exact h₁.2.2.1

/-! ## Sessions -/

/-- The account a session is projected with. -/
theorem exec_sessionProjection {x : Session} {s : String} {a : Account}
    (ha : w.accountsDoc.find x.username = some a) :
    (sessionProjection x s).exec w =
      (.ok ⟨s, x.csrfToken, accountPublic a, x.absoluteExpiresAt⟩, w) := by
  have hload : loadAccounts.exec w = (.ok w.accountsDoc, w) := rfl
  unfold sessionProjection
  rw [Eff.exec_bind_ok hload, ha]
  rfl

/-- A stored session is used. -/
theorem follows_touched (hw : w.Sound E) {s : String} {x : Session}
    (hx : w.sessionsDoc.ofToken (E.sha256 s) = some x) :
    w.Follows E (some s) { w with
      ticks := w.ticks + 1
      sessions := some (w.sessionsDoc.amend (x.touched (E.clock w.ticks))) } := by
  have hmem : x ∈ w.stored := List.mem_of_find?_eq_some hx
  refine ⟨⟨hw.accounts, fun y hy => ?_⟩, ⟨fun h => h, le_rfl⟩, Nat.le_succ _,
    fun _ a ha => ⟨a, ha, .inl rfl⟩, fun y hy => ?_⟩
  · rcases mem_amend_sessions hy with hy | rfl
    · exact hw.drawn y hy
    · exact hw.drawn x hmem
  · rcases mem_amend_sessions hy with hy | rfl
    · exact ⟨y, hy, .inl rfl⟩
    · have htoken : x.tokenSha256 = E.sha256 s := by simpa using List.find?_some hx
      exact ⟨x, hmem, .inr ⟨w.ticks, ⟨le_rfl, Nat.lt_succ_self _⟩, rfl, s, rfl, htoken.symm⟩⟩

/-- The token is good for the account it was given out to. -/
def World.Admits (E : Engine) (w : World) (s : String) (v : SessionView) : Prop :=
  ∃ x ∈ w.stored, ∃ a, x.tokenSha256 = E.sha256 s ∧ w.accountsDoc.find x.username = some a ∧
    a.enabled = true ∧ a.revision = x.accountRevision ∧ E.clock w.ticks < x.idleExpiresAt ∧
    E.clock w.ticks < x.absoluteExpiresAt ∧
    v = ⟨s, x.csrfToken, accountPublic a, x.absoluteExpiresAt⟩

/-- A session that is authenticated is admitted. -/
theorem alone_authenticateSession (hw : w.Sound E) (s : String) (touch : Bool) :
    Method.Alone E (if touch then some s else none)
      (fun r w' => w'.accounts = w.accounts ∧ ∀ v, r = some v → w.Admits E s v)
      (authenticateSession E s touch) w := by
  unfold authenticateSession
  generalize hused : (if touch = true then some s else none) = used
  split
  · exact .pure hw ⟨rfl, fun v hv => by cases hv⟩
  refine .bind (alone_loadSessions hw) fun value w₁ h₁ _ => ?_
  obtain ⟨rfl, rfl⟩ := h₁
  split
  · exact .pure hw ⟨rfl, fun v hv => by cases hv⟩
  rename_i x hx
  have hmem : x ∈ w₁.stored := List.mem_of_find?_eq_some hx
  have htoken : x.tokenSha256 = E.sha256 s := by simpa using List.find?_some hx
  refine .bind (alone_loadAccounts hw) fun accounts w₂ h₂ _ => ?_
  obtain ⟨rfl, rfl⟩ := h₂
  have hclock : (clock E).exec w₂ = (.ok (E.clock w₂.ticks), { w₂ with ticks := w₂.ticks + 1 }) := rfl
  unfold Method.Alone
  rw [Eff.exec_bind_ok hclock]
  split
  · -- in force: admitted, and touched where that is asked
    rename_i hlives
    obtain ⟨a, ha, henabled, hrevision, hidle, habsolute⟩ := hlives
    have hfind : w₂.accountsDoc.find x.username = some a := ha
    have hadmits : w₂.Admits E s ⟨s, x.csrfToken, accountPublic a, x.absoluteExpiresAt⟩ :=
      ⟨x, hmem, a, htoken, hfind, henabled, hrevision, hidle, habsolute, rfl⟩
    cases touch with
    | false =>
      have hrun : (some <$> sessionProjection x s).exec { w₂ with ticks := w₂.ticks + 1 } =
          (.ok (some ⟨s, x.csrfToken, accountPublic a, x.absoluteExpiresAt⟩),
            { w₂ with ticks := w₂.ticks + 1 }) := by
        rw [Eff.exec_map, exec_sessionProjection (w := { w₂ with ticks := w₂.ticks + 1 }) hfind]
        rfl
      rw [if_neg Bool.false_ne_true, hrun]
      refine ⟨(counted_tick.follows hw).of_none, fun r hr => ⟨rfl, fun v hv => ?_⟩⟩
      cases hr
      cases hv
      exact hadmits
    | true =>
      cases hused
      have hwrite : (writeSessions w₂.sessionsDoc false
          (w₂.sessionsDoc.amend (x.touched (E.clock w₂.ticks)))).exec
            { w₂ with ticks := w₂.ticks + 1 } = (.ok (), { w₂ with
              ticks := w₂.ticks + 1
              sessions := some (w₂.sessionsDoc.amend (x.touched (E.clock w₂.ticks))) }) := rfl
      simp only [↓reduceIte]
      rw [Eff.exec_bind_ok hwrite, Eff.exec_map,
        exec_sessionProjection (x := x.touched (E.clock w₂.ticks)) (w := { w₂ with
          ticks := w₂.ticks + 1
          sessions := some (w₂.sessionsDoc.amend (x.touched (E.clock w₂.ticks))) }) hfind]
      refine ⟨follows_touched hw hx, fun r hr => ⟨rfl, fun v hv => ?_⟩⟩
      cases hr
      cases hv
      exact hadmits
  · -- run out, or its account has changed: dropped
    have hdrop : ∀ y ∈ (w₂.sessionsDoc.drop (E.sha256 s)).sessions, y ∈ w₂.stored :=
      fun y hy => List.mem_of_mem_eraseP hy
    have hcounted : World.Follows E none w₂ { w₂ with ticks := w₂.ticks + 1 } :=
      counted_tick.follows hw
    have hwrite : Method.Alone E none
        (fun _ w' => w' = { w₂ with
          ticks := w₂.ticks + 1
          sessions := some (w₂.sessionsDoc.drop (E.sha256 s)) })
        (writeSessions w₂.sessionsDoc false (w₂.sessionsDoc.drop (E.sha256 s)))
        { w₂ with ticks := w₂.ticks + 1 } := alone_writeSessions hcounted.sound hdrop
    refine ⟨(hcounted.trans hwrite.1).of_none, fun r hr => ⟨rfl, fun v hv => ?_⟩⟩
    cases hr
    cases hv

/-- A denial is recorded and raised. -/
theorem alone_denyAdministration (hw : w.Sound E) {actor message : String}
    {Q : SessionView → World → Prop} :
    Method.Alone E token Q (denyAdministration E actor message) w := by
  refine .bind (alone_loadAccounts hw) fun value w₁ h₁ _ => ?_
  obtain ⟨rfl, rfl⟩ := h₁
  refine .bind (alone_audit hw) fun d w₂ h₂ hf₂ => ?_
  refine .bind (alone_writeAccounts hf₂.sound h₂.2.accountsDoc.symm (.audited h₂.1))
    fun _ w₃ _ hf₃ => ?_
  exact .throw hf₃.sound

/-- Who administers has an account. -/
theorem World.Admits.rows {s : String} {v : SessionView} (h : w.Admits E s v) : w.rows ≠ [] := by
  obtain ⟨x, -, a, -, ha, -⟩ := h
  exact List.ne_nil_of_mem (Accounts.mem_of_row (Accounts.find_eq_some ha).2)

/-- An administrator has an account. -/
theorem alone_requireAdministrator (hw : w.Sound E) {s : String} {allowTemporary : Bool} :
    Method.Alone E (some s) (fun _ w' => w'.rows ≠ []) (requireAdministrator E s allowTemporary) w := by
  refine .bind (alone_authenticateSession hw s true) fun r w₁ h₁ hf₁ => ?_
  rcases r with _ | session
  · exact alone_denyAdministration hf₁.sound
  · dsimp only
    split
    · exact alone_denyAdministration hf₁.sound
    split
    · exact alone_denyAdministration hf₁.sound
    · exact .pure hf₁.sound (hf₁.since.accounts (h₁.2 session rfl).rows)

/-- Every session is ended. -/
theorem alone_clearSessions (hw : w.Sound E) :
    Method.Alone E token (fun _ w' => w'.stored = [] ∧ w'.accounts = w.accounts) clearSessions w := by
  refine .bind (alone_loadSessions hw) fun d w₁ h₁ _ => ?_
  obtain ⟨rfl, rfl⟩ := h₁
  refine (alone_writeSessions hw fun x hx => absurd hx List.not_mem_nil).mono ?_
  rintro _ _ rfl
  exact ⟨rfl, rfl⟩

/-- A reset leaves no session. -/
theorem alone_resetSessions (hw : w.Sound E) :
    Method.Alone E token (fun _ w' => w'.stored = []) resetSessions w := by
  refine .bind (alone_loadSessions hw) fun d w₁ h₁ _ => ?_
  obtain ⟨rfl, rfl⟩ := h₁
  refine .bind (alone_writeSessions hw fun x hx => absurd hx List.not_mem_nil) fun _ w₂ h₂ hf₂ => ?_
  subst h₂
  exact .pure hf₂.sound rfl

/-! ## Signing in -/

/-- A refused login is recorded and raised. -/
theorem alone_refuseLogin (hw : w.Sound E) {canonical bucket : String} {now : ℤ} :
    Method.Alone E token (fun _ _ => False)
      (refuseLogin E w.accountsDoc w.sessionsDoc canonical bucket now) w := by
  unfold refuseLogin
  dsimp only
  split
  · refine .bind (alone_audit hw) fun d w₁ h₁ hf₁ => ?_
    refine .bind (alone_writeAccounts hf₁.sound h₁.2.accountsDoc.symm (.audited h₁.1))
      fun _ w₂ h₂ hf₂ => ?_
    have hstored : w₂.stored = w.stored := by
      subst h₂
      unfold World.stored World.sessionsDoc
      rw [h₁.2.2.1]
    refine .bind (alone_writeSessions hf₂.sound fun x hx => ?_) fun _ w₃ _ hf₃ => .throw hf₃.sound
    rw [hstored]
    exact hx
  · exact .bind (alone_writeSessions hw fun x hx => hx) fun _ w₁ _ hf₁ => .throw hf₁.sound

/-- A sign-in: the account is there, enabled and not held back, the password
is its own, and a session of a token drawn now is added. -/
structure World.SignsIn (E : Engine) (username password source : String) (a : Account) (w : World)
    (v : SessionView) (w' : World) : Prop where
  found : w.accountsDoc.find (loginName username) = some a
  enabled : a.enabled = true
  verified : verify E a password = true
  free : ¬ (w.sessionsDoc.throttleOf (loginName username ++ ":" ++ source)).Blocks (E.clock w.ticks)
  accounts : w'.accountsDoc.accounts = w.rows
  ticks : w.ticks < w'.ticks
  draws : w'.draws = w.draws + 1
  stored : w'.stored = w.stored ++ [newSession E a (E.clock w.ticks) w.draws]
  token : v.sessionToken = E.token w.draws

/-- **A sign-in opens a session, or nothing is opened.** -/
theorem login_alone (hw : w.Sound E) (username password source : String) :
    (∃ e, ((login E username password source).exec w).1 = .error e ∧
      w.Follows E none ((login E username password source).exec w).2) ∨
    ∃ a v, ((login E username password source).exec w).1 = .ok v ∧
      w.SignsIn E username password source a v ((login E username password source).exec w).2 := by
  have hload : loadAccounts.exec w = (.ok w.accountsDoc, w) := rfl
  have hload' : loadSessions.exec w = (.ok w.sessionsDoc, w) := rfl
  have hclock : (clock E).exec w = (.ok (E.clock w.ticks), { w with ticks := w.ticks + 1 }) := rfl
  have hfollows : World.Follows E none w { w with ticks := w.ticks + 1 } := counted_tick.follows hw
  unfold login
  rw [Eff.exec_bind_ok hload, Eff.exec_bind_ok hload', Eff.exec_bind_ok hclock]
  split
  · -- throttled
    exact .inl ⟨_, rfl, hfollows⟩
  rename_i hfree
  split
  · -- no such account, not enabled, or another password: refused
    left
    have hrefuse : Method.Alone E none (fun _ _ => False)
        (refuseLogin E w.accountsDoc w.sessionsDoc (loginName username)
          (loginName username ++ ":" ++ source) (E.clock w.ticks)) { w with ticks := w.ticks + 1 } :=
      alone_refuseLogin hfollows.sound
    rcases hresult : ((refuseLogin E w.accountsDoc w.sessionsDoc (loginName username)
      (loginName username ++ ":" ++ source) (E.clock w.ticks)).exec
        { w with ticks := w.ticks + 1 }).1 with e | v
    · exact ⟨e, rfl, hfollows.trans hrefuse.1⟩
    · exact (hrefuse.2 v hresult).elim
  · rename_i a hsign
    right
    obtain ⟨hfound, hchecked⟩ := Option.filter_eq_some_iff.mp hsign
    rw [Bool.and_eq_true] at hchecked
    have hname : w.accountsDoc.find a.username = some a := by
      obtain ⟨hcanonical, hrow⟩ := Accounts.find_eq_some hfound
      rw [Accounts.find_of_row (normalizeUsername_idem hcanonical)]
      exact hrow
    have haudit : (audit E w.accountsDoc "login" a.username a.username true).exec
        { w with ticks := w.ticks + 1 } = (.ok { w.accountsDoc with
          audit := w.accountsDoc.audit ++
            [⟨"login", a.username, a.username, true, E.clock (w.ticks + 1)⟩] },
          { w with ticks := w.ticks + 2 }) := rfl
    have hwrite : ∀ value, (writeAccounts w.accountsDoc none value).exec
        { w with ticks := w.ticks + 2 } = (.ok (),
          { w with accounts := some value, ticks := w.ticks + 2 }) := fun _ => rfl
    have hopen : ∀ value, (openSession E w.sessionsDoc (loginName username ++ ":" ++ source) a
        (E.clock w.ticks)).exec { w with accounts := some value, ticks := w.ticks + 2 } =
          (.ok (newSession E a (E.clock w.ticks) w.draws, E.token w.draws), { w with
            accounts := some value
            ticks := w.ticks + 2
            draws := w.draws + 1
            sessions := some { w.sessionsDoc.clearThrottle (loginName username ++ ":" ++ source) with
              sessions := w.stored ++ [newSession E a (E.clock w.ticks) w.draws] } }) :=
      fun _ => rfl
    rw [Eff.exec_bind_ok haudit, Eff.exec_bind_ok (hwrite _), Eff.exec_bind_ok (hopen _)]
    have hprojection : ∀ w' : World, w'.accountsDoc.find a.username = some a →
        (sessionProjection (newSession E a (E.clock w.ticks) w.draws) (E.token w.draws)).exec w' =
          (.ok ⟨E.token w.draws, E.csrf w.draws, accountPublic a, E.clock w.ticks + absolute⟩, w') :=
      fun _ h => exec_sessionProjection h
    dsimp only
    rw [hprojection]
    · refine ⟨a, _, rfl, hfound, hchecked.1, hchecked.2, hfree, rfl, ?_, rfl, rfl, rfl⟩
      exact Nat.lt_add_of_pos_right (by decide)
    · exact hname

/-! ## The operations -/

/-- After a logout the session is gone. -/
theorem alone_logout (hw : w.Sound E) {s : String} :
    Method.Alone E none (fun _ w' => ∀ x ∈ w'.stored, x.tokenSha256 ≠ E.sha256 s) (logout E s) w := by
  refine .bind (alone_authenticateSession hw s false) fun session w₁ _ hf₁ => ?_
  refine .bind (alone_loadSessions hf₁.sound) fun value w₂ h₂ _ => ?_
  obtain ⟨rfl, rfl⟩ := h₂
  have hdropped : ∀ x ∈ (w₂.sessionsDoc.dropAll (E.sha256 s)).sessions,
      x ∈ w₂.stored ∧ x.tokenSha256 ≠ E.sha256 s := by
    intro x hx
    obtain ⟨hmem, hne⟩ := List.mem_filter.mp hx
    exact ⟨hmem, by simpa using hne⟩
  refine .bind (alone_writeSessions hf₁.sound fun x hx => (hdropped x hx).1) fun _ w₃ h₃ hf₃ => ?_
  subst h₃
  rcases session with _ | session
  · exact .pure hf₃.sound fun x hx => (hdropped x hx).2
  · refine .bind (alone_loadAccounts hf₃.sound) fun accounts w₄ h₄ _ => ?_
    obtain ⟨rfl, rfl⟩ := h₄
    refine (alone_audited hf₃.sound).mono fun _ w₅ h₅ x hx => ?_
    unfold World.stored World.sessionsDoc at hx
    rw [h₅] at hx
    exact (hdropped x hx).2

/-- After a revocation all are. -/
theorem alone_revokeAllSessions (hw : w.Sound E) {s reason : String} :
    Method.Alone E (some s) (fun _ w' => w'.stored = []) (revokeAllSessions E s reason) w := by
  refine .bind (alone_requireAdministrator hw) fun session w₁ _ hf₁ => ?_
  refine .bind (alone_resetSessions hf₁.sound) fun revoked w₂ h₂ hf₂ => ?_
  refine .bind (alone_loadAccounts hf₂.sound) fun accounts w₃ h₃ _ => ?_
  obtain ⟨rfl, rfl⟩ := h₃
  refine .bind (alone_audit hf₂.sound) fun d w₄ h₄ hf₄ => ?_
  refine .bind (alone_writeAccounts hf₄.sound h₄.2.accountsDoc.symm (.audited h₄.1))
    fun _ w₅ h₅ hf₅ => .pure hf₅.sound ?_
  subst h₅
  unfold World.stored World.sessionsDoc at h₂ ⊢
  rw [h₄.2.2.1]
  exact h₂

theorem alone_listUsers (hw : w.Sound E) {s : String} :
    Method.Alone E (some s) (fun _ _ => True) (listUsers E s) w :=
  .bind (alone_requireAdministrator hw) fun _ _ _ hf₁ => .bind (alone_loadAccounts hf₁.sound)
    fun _ _ _ hf₂ => .pure hf₂.sound trivial

theorem alone_securityAudit (hw : w.Sound E) {s : String} {limit : ℤ} :
    Method.Alone E (some s) (fun _ _ => True) (securityAudit E s limit) w :=
  .bind (alone_requireAdministrator hw) fun _ _ _ hf₁ => .bind (alone_loadAccounts hf₁.sound)
    fun _ _ _ hf₂ => .pure hf₂.sound trivial

/-- There are accounts afterwards. -/
theorem alone_bootstrap (hw : w.Sound E) :
    Method.Alone E none (fun _ w' => w'.rows ≠ []) (bootstrap E) w := by
  refine .bind (alone_loadAccounts hw) fun found w₁ h₁ _ => ?_
  obtain ⟨rfl, rfl⟩ := h₁
  split
  · exact .pure hw ‹_›
  rename_i hempty
  refine .bind (alone_temporaryPassword hw) fun password w₂ h₂ hf₂ => ?_
  refine .bind (alone_loadAccounts hf₂.sound) fun value w₃ h₃ _ => ?_
  obtain ⟨rfl, rfl⟩ := h₃
  refine .bind (alone_newAccount hf₂.sound) fun a w₄ h₄ hf₄ => ?_
  obtain ⟨-, hrole, henabled, h₄⟩ := h₄
  refine .bind (alone_audit hf₄.sound) fun d w₅ h₅ hf₅ => ?_
  have hsame := ((h₂.trans h₄).trans h₅.2).accountsDoc
  refine .bind (alone_writeAccounts hf₅.sound hsame.symm
    (.founded (not_not.mp hempty) ⟨henabled, hrole⟩ h₅.1)) fun _ w₆ h₆ hf₆ => ?_
  have hrows : w₆.rows ≠ [] := by
    subst h₆
    change d.accounts ≠ []
    rw [h₅.1]
    exact List.cons_ne_nil _ _
  refine .bind (alone_loadSessions hf₆.sound) fun sessions w₇ h₇ _ => ?_
  obtain ⟨rfl, rfl⟩ := h₇
  exact .bind (alone_writeSessions hf₆.sound fun x hx => hx) fun _ w₈ _ hf₈ =>
    .pure hf₈.sound (hf₈.since.accounts hrows)

theorem alone_createUser (hw : w.Sound E) {s username role displayName : String} :
    Method.Alone E (some s) (fun _ _ => True) (createUser E s username role displayName) w := by
  refine .bind (alone_requireAdministrator hw) fun session w₁ hsome hf₁ => ?_
  refine .bind (.ofExcept hf₁.sound) fun selected w₂ h₂ _ => ?_
  obtain ⟨-, rfl⟩ := h₂
  refine .bind (alone_temporaryPassword hf₁.sound) fun password w₃ h₃ hf₃ => ?_
  refine .bind (alone_loadAccounts hf₃.sound) fun value w₄ h₄ _ => ?_
  obtain ⟨rfl, rfl⟩ := h₄
  refine .bind (.ofExcept hf₃.sound) fun canonical w₅ h₅ _ => ?_
  obtain ⟨hcanonical, rfl⟩ := h₅
  split
  · exact .throw hf₃.sound
  rename_i hfree
  refine .bind (alone_newAccount hf₃.sound) fun a w₆ h₆ hf₆ => ?_
  obtain ⟨hname, -, -, h₆⟩ := h₆
  refine .bind (alone_audit hf₆.sound) fun d w₇ h₇ hf₇ => ?_
  have hidem := normalizeUsername_idem hcanonical
  rw [hname] at hidem
  have hcanon : a.username = canonical := Except.ok.inj hidem
  have hrow : w₅.accountsDoc.row a.username = none := by
    rw [hcanon, ← Accounts.find_of_row (normalizeUsername_idem hcanonical)]
    exact hfree
  exact .bind (alone_writeAccounts hf₇.sound (h₆.trans h₇.2).accountsDoc.symm
    (.created (hf₃.since.accounts hsome) hrow h₇.1)) fun _ _ _ hf₈ => .pure hf₈.sound trivial

theorem alone_updateUser (hw : w.Sound E) {s username : String} {enabled : Option Bool}
    {role : Option String} :
    Method.Alone E (some s) (fun _ _ => True) (updateUser E s username enabled role) w := by
  refine .bind (alone_requireAdministrator hw) fun session w₁ _ hf₁ => ?_
  refine .bind (alone_loadAccounts hf₁.sound) fun value w₂ h₂ _ => ?_
  obtain ⟨rfl, rfl⟩ := h₂
  split
  · exact .throw hf₁.sound
  rename_i a ha
  refine .bind (.ofExcept hf₁.sound) fun newRole w₃ h₃ _ => ?_
  obtain ⟨-, rfl⟩ := h₃
  dsimp only
  split
  · exact .throw hf₁.sound
  rename_i hguard
  refine .bind (alone_clock hf₁.sound) fun now w₄ h₄ hf₄ => ?_
  obtain ⟨-, rfl⟩ := h₄
  refine .bind (alone_audit hf₄.sound) fun d w₅ h₅ hf₅ => ?_
  refine .bind (alone_writeAccounts hf₅.sound (counted_tick.trans h₅.2).accountsDoc.symm
    (.amended (Accounts.find_eq_some ha).2 ?_ ?_ ?_ h₅.1)) fun _ _ _ hf₆ => .pure hf₆.sound trivial
  · rfl
  · rfl
  · exact last_of_guard hguard

theorem alone_resetPassword (hw : w.Sound E) {s username : String} :
    Method.Alone E (some s) (fun _ _ => True) (resetPassword E s username) w := by
  refine .bind (alone_requireAdministrator hw) fun session w₁ _ hf₁ => ?_
  refine .bind (alone_loadAccounts hf₁.sound) fun value w₂ h₂ _ => ?_
  obtain ⟨rfl, rfl⟩ := h₂
  split
  · exact .throw hf₁.sound
  rename_i a ha
  refine .bind (alone_temporaryPassword hf₁.sound) fun password w₃ h₃ hf₃ => ?_
  refine .bind (alone_replacePassword hf₃.sound) fun a' w₄ h₄ hf₄ => ?_
  obtain ⟨hname, hrevision, hadmin, h₄⟩ := h₄
  refine .bind (alone_audit hf₄.sound) fun d w₅ h₅ hf₅ => ?_
  exact .bind (alone_writeAccounts hf₅.sound ((h₃.trans h₄).trans h₅.2).accountsDoc.symm
    (.amended (Accounts.find_eq_some ha).2 hname hrevision (fun h hnot => absurd (hadmin h) hnot)
      h₅.1)) fun _ _ _ hf₆ => .pure hf₆.sound trivial

/-- So after a recovery. -/
theorem alone_recoverAdministrator (hw : w.Sound E) {confirmation : String} {owned : Bool} :
    Method.Alone E none (fun _ w' => w'.stored = []) (recoverAdministrator E confirmation owned)
      w := by
  unfold recoverAdministrator
  split
  · exact .throw hw
  split
  · exact .throw hw
  refine .bind (alone_loadAccounts hw) fun value w₁ h₁ _ => ?_
  obtain ⟨rfl, rfl⟩ := h₁
  split
  · exact .throw hw
  rename_i a ha
  have hrole : a.role = .administrator := by simpa using List.find?_some ha
  refine .bind (alone_temporaryPassword hw) fun password w₂ h₂ hf₂ => ?_
  refine .bind (alone_replacePassword hf₂.sound) fun a' w₃ h₃ hf₃ => ?_
  obtain ⟨hname, hrevision, hadmin, h₃⟩ := h₃
  refine .bind (alone_audit hf₃.sound) fun d w₄ h₄ hf₄ => ?_
  refine .bind (alone_writeAccounts hf₄.sound ((h₂.trans h₃).trans h₄.2).accountsDoc.symm
    (.amended ha hname hrevision (fun _ hnot => absurd (hadmin ⟨rfl, hrole⟩) hnot) h₄.1))
    fun _ w₅ _ hf₅ => ?_
  exact .bind (alone_resetSessions hf₅.sound) fun _ w₆ h₆ hf₆ => .pure hf₆.sound h₆

/-- The method ends every session and signs in, or opens nothing. -/
def Method.MayOpen (E : Engine) (x : Method SessionView) (w : World) : Prop :=
  (∃ e, (x.exec w).1 = .error e ∧ w.Follows E none (x.exec w).2) ∨
    ∃ w₁ u p source a v, w.Follows E none w₁ ∧ w₁.stored = [] ∧ (x.exec w).1 = .ok v ∧
      w₁.SignsIn E u p source a v (x.exec w).2

theorem Method.MayOpen.throw (hw : w.Sound E) {e : Raised} :
    Method.MayOpen E (MonadExcept.throw e) w := .inl ⟨e, rfl, .refl hw⟩

/-- The rule of sequence, before a session is opened. -/
theorem Method.MayOpen.bind {x : Method α} {f : α → Method SessionView} (hx : x.Alone E none Q w)
    (hf : ∀ a w', Q a w' → w.Follows E none w' → (f a).MayOpen E w') : (x >>= f).MayOpen E w := by
  obtain ⟨hfollows, hQ⟩ := hx
  unfold Method.MayOpen
  rcases hrun : x.exec w with ⟨e | a, w'⟩
  · rw [Eff.exec_bind_error hrun]
    rw [hrun] at hfollows
    exact .inl ⟨e, rfl, hfollows⟩
  · rw [hrun] at hfollows hQ
    rw [Eff.exec_bind_ok hrun]
    rcases hf a w' (hQ a rfl) hfollows with ⟨e, he, hf'⟩ | ⟨w₁, u, p, src, b, v, hf', hrest⟩
    · exact .inl ⟨e, he, hfollows.trans hf'⟩
    · exact .inr ⟨w₁, u, p, src, b, v, hfollows.trans hf', hrest⟩

/-- **A change of the password ends every session and signs in, or nothing is
opened.** -/
theorem changePassword_alone (hw : w.Sound E) (s currentPassword newPassword : String) :
    (changePassword E s currentPassword newPassword).MayOpen E w := by
  refine .bind (alone_authenticateSession hw s false) fun session w₁ _ hf₁ => ?_
  rcases session with _ | session
  · exact .throw hf₁.sound
  refine .bind (alone_loadAccounts hf₁.sound) fun accounts w₂ h₂ _ => ?_
  obtain ⟨rfl, rfl⟩ := h₂
  split
  · exact .throw hf₁.sound
  rename_i a ha
  split
  · exact .throw hf₁.sound
  refine .bind (alone_replacePassword hf₁.sound) fun a' w₃ h₃ hf₃ => ?_
  obtain ⟨hname, hrevision, hadmin, h₃⟩ := h₃
  refine .bind (alone_audit hf₃.sound) fun d w₄ h₄ hf₄ => ?_
  refine .bind (alone_writeAccounts hf₄.sound (h₃.trans h₄.2).accountsDoc.symm
    (.amended (Accounts.find_eq_some ha).2 hname hrevision (fun h hnot => absurd (hadmin h) hnot)
      h₄.1)) fun _ w₅ _ hf₅ => ?_
  refine .bind (alone_clearSessions hf₅.sound) fun _ w₆ h₆ hf₆ => ?_
  rcases login_alone hf₆.sound a.username newPassword "loopback" with hrefused | ⟨b, v, hv, hsigns⟩
  · exact .inl hrefused
  · exact .inr ⟨w₆, _, _, _, b, v, .refl hf₆.sound, h₆.1, hv, hsigns⟩

end

end Atmem.Identity
