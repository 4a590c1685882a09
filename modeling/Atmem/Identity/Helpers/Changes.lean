import Atmem.Common.Lasting
import Atmem.Identity.Helpers.Documents
import Atmem.Identity.Model.Service
/-!
# What the operations keep

The state stays sound: the accounts are, and every stored session is of a
token that was drawn. A write that is not a change leaves the account rows
as they are and brings no session back, where the rows and the sessions it
was made from are still there. One lemma for each operation.
-/

namespace Atmem.Identity

open Interleaving

variable (E : Engine)

/-- The same session, but for when it was used. -/
def Session.Same (x y : Session) : Prop :=
  { x with lastSeenAt := y.lastSeenAt, idleExpiresAt := y.idleExpiresAt } = y

instance instDecidableSame (x y : Session) : Decidable (x.Same y) :=
  inferInstanceAs (Decidable (_ = _))

namespace Session.Same

variable {x y z : Session}

theorem refl (x : Session) : x.Same x := rfl

theorem trans (hxy : x.Same y) (hyz : y.Same z) : x.Same z := by
  unfold Session.Same at *
  rw [← hyz, ← hxy]

/-- The same session has the same token. -/
theorem token (h : x.Same y) : x.tokenSha256 = y.tokenSha256 := by
  unfold Session.Same at h
  rw [← h]

/-- A session that was touched is the same. -/
theorem touched (x : Session) (now : ℤ) : (x.touched now).Same x := rfl

end Session.Same

/-- The session is of a token drawn before the `n`-th draw. -/
def DrawnBefore (n : ℕ) (x : Session) : Prop := ∃ m < n, x.tokenSha256 = E.sha256 (E.token m)

/-- What every reachable state keeps to. -/
structure World.Sound (w : World) : Prop where
  accounts : w.accountsDoc.Sound
  drawn : ∀ x ∈ w.stored, DrawnBefore E w.draws x

/-- How the state evolves. -/
structure World.Since (w w' : World) : Prop where
  accounts : w.rows ≠ [] → w'.rows ≠ []
  draws : w.draws ≤ w'.draws

theorem World.Since.refl (w : World) : w.Since w := ⟨fun h => h, le_rfl⟩

theorem World.Since.trans {w₁ w₂ w₃ : World} (h₁₂ : w₁.Since w₂) (h₂₃ : w₂.Since w₃) :
    w₁.Since w₃ :=
  ⟨fun h => h₂₃.accounts (h₁₂.accounts h), h₁₂.draws.trans h₂₃.draws⟩

/-- The action is the write of a change: of an account row, or one that ends
sessions. -/
def Action.Changes : Action → Prop
  | .writeAccounts _ row => row.isSome = true
  | .writeSessions _ ends => ends = true
  | _ => False

instance instDecidableChanges (label : Action) : Decidable label.Changes := by
  cases label <;> unfold Action.Changes <;> infer_instance

/-- What a write that is not a change was made from is still there: the
account rows, and every session. -/
def Action.UpToDate (label : Action) (w : World) : Prop :=
  match label with
  | .writeAccounts loaded none => loaded.accounts = w.rows
  | .writeSessions loaded false => ∀ x ∈ loaded.sessions, ∃ y ∈ w.stored, x.Same y
  | _ => True

instance instDecidableUpToDate (label : Action) (w : World) : Decidable (label.UpToDate w) := by
  unfold Action.UpToDate
  split <;> infer_instance

/-- Nothing of the accounts is changed, and no session comes back. -/
structure World.Undisturbed (w w' : World) : Prop where
  since : w.Since w'
  rows : w.rows ≠ [] → w'.rows = w.rows
  stored : ∀ x ∈ w'.stored, (∃ y ∈ w.stored, x.Same y) ∨
    ∃ n, w.draws ≤ n ∧ x.tokenSha256 = E.sha256 (E.token n)

theorem World.Undisturbed.refl (w : World) : w.Undisturbed E w :=
  ⟨.refl w, fun _ => rfl, fun x hx => .inl ⟨x, hx, .refl x⟩⟩

variable {E} in

/-- What is left alone twice is left alone. -/
theorem World.Undisturbed.trans {w₁ w₂ w₃ : World} (h₁₂ : w₁.Undisturbed E w₂)
    (h₂₃ : w₂.Undisturbed E w₃) : w₁.Undisturbed E w₃ := by
  refine ⟨h₁₂.since.trans h₂₃.since, fun h => ?_, fun x hx => ?_⟩
  · rw [h₂₃.rows (h₁₂.since.accounts h), h₁₂.rows h]
  · rcases h₂₃.stored x hx with ⟨y, hy, hxy⟩ | ⟨n, hn, htoken⟩
    · rcases h₁₂.stored y hy with ⟨z, hz, hyz⟩ | ⟨n, hn, htoken⟩
      · exact .inl ⟨z, hz, hxy.trans hyz⟩
      · exact .inr ⟨n, hn, hxy.token.trans htoken⟩
    · exact .inr ⟨n, h₁₂.since.draws.trans hn, htoken⟩

/-- What an action keeps. -/
structure Kept (label : Action) (w w' : World) : Prop where
  sound : w'.Sound E
  since : w.Since w'
  quiet : ¬ label.Changes → w.Undisturbed E w'

/-- The relations of a run compose. -/
theorem evolution : Evolution (World.Sound E) World.Since (Kept E) where
  refl := .refl
  trans := .trans
  keeps _ h := ⟨h.sound, h.since⟩

/-- The method keeps it all, from a state it knows. -/
abbrev Method.Keeps {α : Type} (Q : α → World → Prop) (x : Method α) (w₀ : World) : Prop :=
  Eff.Lasts Action.UpToDate (World.Sound E) World.Since (Kept E) Q x w₀

section

variable {E} {α β : Type} {Q : α → World → Prop} {Q' : β → World → Prop} {w₀ w w' : World}
variable {label : Action}

/-- A step that leaves changes alone keeps them. -/
theorem Kept.of_undisturbed (hsound : w'.Sound E) (h : w.Undisturbed E w') :
    Kept E label w w' := ⟨hsound, h.since, fun _ => h⟩

/-- The clock and the draws are no part of the documents. -/
theorem Kept.counters (hw : w.Sound E) (ticks : ℕ) {draws : ℕ} (hdraws : w.draws ≤ draws) :
    Kept E label w { w with ticks, draws } := by
  refine .of_undisturbed ⟨hw.accounts, fun x hx => ?_⟩
    ⟨⟨fun h => h, hdraws⟩, fun _ => rfl, fun x hx => .inl ⟨x, hx, .refl x⟩⟩
  obtain ⟨m, hm, htoken⟩ := hw.drawn x hx
  exact ⟨m, hm.trans_le hdraws, htoken⟩

/-- The rule of sequence. -/
theorem Method.Keeps.bind {x : Method α} {f : α → Method β} (hx : x.Keeps E Q w₀)
    (hf : ∀ a w, Q a w → w₀.Since w → (f a).Keeps E Q' w) : (x >>= f).Keeps E Q' w₀ :=
  Eff.Lasts.bind (evolution E) hx hf

/-! ## The actions -/

theorem keeps_loadAccounts :
    Method.Keeps E (fun d w => d = w.accountsDoc ∧ w.Sound E) loadAccounts w₀ :=
  Eff.Lasts.action fun w hw _ _ =>
    ⟨.of_undisturbed hw (.refl E w), fun d hd => by cases hd; exact ⟨rfl, hw⟩⟩

theorem keeps_loadSessions :
    Method.Keeps E (fun d w => d = w.sessionsDoc ∧ w.Sound E) loadSessions w₀ :=
  Eff.Lasts.action fun w hw _ _ =>
    ⟨.of_undisturbed hw (.refl E w), fun d hd => by cases hd; exact ⟨rfl, hw⟩⟩

theorem keeps_clock : Method.Keeps E (fun _ _ => True) (clock E) w₀ :=
  Eff.Lasts.action fun _ hw _ _ => ⟨.counters hw _ le_rfl, fun _ _ => trivial⟩

theorem keeps_draw : Method.Keeps E (fun _ _ => True) draw w₀ :=
  Eff.Lasts.action fun w hw _ _ => ⟨.counters hw w.ticks (Nat.le_succ _), fun _ _ => trivial⟩

/-- A write of the accounts, made of sound rows. -/
theorem keeps_writeAccounts {loaded value : Accounts} {row : Option String}
    (hloaded : loaded.Sound) (hvalue : loaded.Becomes value row) :
    Method.Keeps E (fun _ _ => True) (writeAccounts loaded row value) w₀ := by
  refine Eff.Lasts.action fun w hw _ hpre => ⟨?_, fun _ _ => trivial⟩
  have hsound : World.Sound E { w with accounts := some value } :=
    ⟨hvalue.sound hloaded, hw.drawn⟩
  have hstored : ∀ x ∈ w.stored, (∃ y ∈ w.stored, x.Same y) ∨
      ∃ n, w.draws ≤ n ∧ x.tokenSha256 = E.sha256 (E.token n) :=
    fun x hx => .inl ⟨x, hx, .refl x⟩
  cases row with
  | none =>
    have hrows : w.rows ≠ [] → value.accounts = w.rows := by
      intro hsome
      have hsame : loaded.accounts = w.rows := hpre
      cases hvalue with
      | audited h => rw [h, hsame]
      | founded hempty _ _ => exact absurd (hsame ▸ hempty) hsome
    have hsince : w.Since { w with accounts := some value } :=
      ⟨fun h => by change value.accounts ≠ []; rw [hrows h]; exact h, le_rfl⟩
    exact ⟨hsound, hsince, fun _ => ⟨hsince, hrows, hstored⟩⟩
  | some u =>
    have hsome : loaded.accounts ≠ [] := by
      cases hvalue with
      | created hsome _ _ => exact hsome
      | amended hfind _ _ _ _ => exact List.ne_nil_of_mem (List.mem_of_find?_eq_some hfind)
    exact ⟨hsound, ⟨fun _ => hvalue.ne_nil hsome, le_rfl⟩, fun h => absurd rfl h⟩

/-- The sessions of a document, each of them one of another. -/
def Sessions.From (value loaded : Sessions) : Prop :=
  ∀ x ∈ value.sessions, ∃ y ∈ loaded.sessions, x.Same y

/-- The sessions of a document are of tokens drawn by now. -/
def Sessions.Drawn (E : Engine) (d : Sessions) (w : World) : Prop :=
  ∀ x ∈ d.sessions, DrawnBefore E w.draws x

/-- Sessions that were drawn stay drawn. -/
theorem Sessions.Drawn.since {d : Sessions} (h : d.Drawn E w) (hw : w.Since w') : d.Drawn E w' := by
  intro x hx
  obtain ⟨m, hm, htoken⟩ := h x hx
  exact ⟨m, hm.trans_le hw.draws, htoken⟩

/-- So does what is made of them. -/
theorem Sessions.Drawn.from {value loaded : Sessions} (h : loaded.Drawn E w)
    (hvalue : value.From loaded) : value.Drawn E w := by
  intro x hx
  obtain ⟨y, hy, hsame⟩ := hvalue x hx
  obtain ⟨m, hm, htoken⟩ := h y hy
  exact ⟨m, hm, hsame.token.trans htoken⟩

/-- A write of the sessions, each one of those that were loaded. -/
theorem keeps_writeSessions {loaded value : Sessions} {ends : Bool} (hloaded : loaded.Drawn E w₀)
    (hvalue : value.From loaded) :
    Method.Keeps E (fun _ _ => True) (writeSessions loaded ends value) w₀ := by
  refine Eff.Lasts.action fun w hw hV hpre => ⟨⟨⟨hw.accounts, ?_⟩, ⟨fun h => h, le_rfl⟩, ?_⟩,
    fun _ _ => trivial⟩
  · exact (hloaded.since hV).from hvalue
  · intro hquiet
    have hends : ends = false := by simpa [Action.Changes] using hquiet
    subst hends
    refine ⟨⟨fun h => h, le_rfl⟩, fun _ => rfl, fun x hx => .inl ?_⟩
    obtain ⟨y, hy, hxy⟩ := hvalue x hx
    obtain ⟨z, hz, hyz⟩ := hpre y hy
    exact ⟨z, hz, hxy.trans hyz⟩

/-- A session that is added is of a token drawn now. -/
theorem keeps_openSession {sessions : Sessions} {bucket : String} {a : Account} {now : ℤ}
    (hloaded : sessions.Drawn E w₀) :
    Method.Keeps E (fun _ _ => True) (openSession E sessions bucket a now) w₀ := by
  refine Eff.Lasts.action fun w hw hV hpre => ⟨?_, fun _ _ => trivial⟩
  refine .of_undisturbed ⟨hw.accounts, fun x hx => ?_⟩
    ⟨⟨fun h => h, Nat.le_succ _⟩, fun _ => rfl, fun x hx => ?_⟩
  · rcases List.mem_append.mp hx with hx | hx
    · obtain ⟨m, hm, htoken⟩ := (hloaded.since hV) x hx
      exact ⟨m, Nat.lt_succ_of_lt hm, htoken⟩
    · obtain rfl := List.mem_singleton.mp hx
      exact ⟨w.draws, Nat.lt_succ_self _, rfl⟩
  · rcases List.mem_append.mp hx with hx | hx
    · exact .inl (hpre x hx)
    · obtain rfl := List.mem_singleton.mp hx
      exact .inr ⟨w.draws, le_rfl, rfl⟩

/-! ## Parts of operations -/

theorem keeps_audit {value : Accounts} {operation actor target : String} {allowed : Bool} :
    Method.Keeps E (fun d _ => d.accounts = value.accounts)
      (audit E value operation actor target allowed) w₀ :=
  .bind keeps_clock fun _ _ _ _ => Eff.Lasts.pure rfl

/-- An audit row is added and the document written. -/
theorem keeps_audited {value : Accounts} (hvalue : value.Sound) {operation actor target : String}
    {allowed : Bool} :
    Method.Keeps E (fun _ _ => True) (do
      let audited ← audit E value operation actor target allowed
      writeAccounts value none audited) w₀ :=
  .bind keeps_audit fun _ _ h _ => keeps_writeAccounts hvalue (.audited h)

theorem keeps_temporaryPassword :
    Method.Keeps E (fun _ _ => True) (temporaryPassword E) w₀ :=
  .bind keeps_draw fun _ _ _ _ => Eff.Lasts.pure trivial

theorem keeps_newVerifier {password : String} :
    Method.Keeps E (fun _ _ => True) (newVerifier E password) w₀ :=
  .bind keeps_draw fun _ _ _ _ => Eff.Lasts.pure trivial

theorem keeps_newAccount {username password displayName : String} {role : LocalRole} :
    Method.Keeps E (fun a _ => normalizeUsername username = .ok a.username ∧ a.role = role ∧
      a.enabled = true) (newAccount E username password role displayName) w₀ :=
  .bind (Eff.Lasts.ofExcept (Q := fun canonical _ => normalizeUsername username = .ok canonical)
    fun _ h => h) fun _ _ hname _ =>
    .bind (Eff.Lasts.ofExcept (Q := fun _ _ => True) fun _ _ => trivial) fun _ _ _ _ =>
      .bind keeps_newVerifier fun _ _ _ _ => .bind keeps_clock fun _ _ _ _ =>
        Eff.Lasts.pure ⟨hname, rfl, rfl⟩

theorem keeps_replacePassword {a : Account} {password : String} {required : Bool} :
    Method.Keeps E (fun a' _ => a'.username = a.username ∧ a'.revision = a.revision + 1 ∧
      (a.ActiveAdministrator → a'.ActiveAdministrator)) (replacePassword E a password required) w₀ :=
  .bind (Eff.Lasts.ofExcept (Q := fun _ _ => True) fun _ _ => trivial) fun _ _ _ _ =>
    .bind keeps_newVerifier fun _ _ _ _ => .bind keeps_clock fun _ _ _ _ =>
      Eff.Lasts.pure ⟨rfl, rfl, fun h => h⟩

/-- A projection finds the account it is of. -/
theorem keeps_sessionProjection {x : Session} {token : String} :
    Method.Keeps E (fun _ w => w.rows ≠ []) (sessionProjection x token) w₀ := by
  refine .bind keeps_loadAccounts fun d w hd _ => ?_
  split
  · rename_i a ha
    refine Eff.Lasts.pure ?_
    obtain ⟨rfl, -⟩ := hd
    exact List.ne_nil_of_mem (Accounts.mem_of_row (Accounts.find_eq_some ha).2)
  · exact Eff.Lasts.throw

theorem keeps_authenticateSession {token : String} {touch : Bool} :
    Method.Keeps E (fun r w => r.isSome = true → w.rows ≠ []) (authenticateSession E token touch)
      w₀ := by
  have hnone : ∀ {w : World}, Method.Keeps E (fun r w => r.isSome = true → w.rows ≠ [])
      (pure none : Method (Option SessionView)) w := Eff.Lasts.pure nofun
  have hprojection : ∀ {y : Session} {w : World}, Method.Keeps E
      (fun r w => r.isSome = true → w.rows ≠ []) (some <$> sessionProjection y token) w :=
    Eff.Lasts.map (evolution E) keeps_sessionProjection fun _ _ h _ => h
  unfold authenticateSession
  split
  · exact hnone
  refine .bind keeps_loadSessions fun value w hvalue _ => ?_
  obtain ⟨rfl, hw⟩ := hvalue
  split
  · exact hnone
  rename_i x hx
  refine .bind keeps_loadAccounts fun _ w' _ hsince => .bind keeps_clock fun now w'' _ hsince' => ?_
  have hdrawn : (w.sessionsDoc).Drawn E w'' := by
    have hstored : w.sessionsDoc.Drawn E w := hw.drawn
    exact hstored.since (hsince.trans hsince')
  split
  · cases touch with
    | false => exact hprojection
    | true =>
      refine .bind (keeps_writeSessions hdrawn fun y hy => ?_) fun _ _ _ _ => hprojection
      rcases mem_amend_sessions hy with hy | rfl
      · exact ⟨y, hy, .refl y⟩
      · exact ⟨x, List.mem_of_find?_eq_some hx, .touched x now⟩
  · exact .bind (keeps_writeSessions hdrawn fun y hy => ⟨y, List.mem_of_mem_eraseP hy, .refl y⟩)
      fun _ _ _ _ => hnone

theorem keeps_denyAdministration {actor message : String} {Q : SessionView → World → Prop} :
    Method.Keeps E Q (denyAdministration E actor message) w₀ := by
  refine .bind keeps_loadAccounts fun value w hvalue _ => ?_
  obtain ⟨rfl, hw⟩ := hvalue
  exact .bind keeps_audit fun _ _ h _ =>
    .bind (keeps_writeAccounts hw.accounts (.audited h)) fun _ _ _ _ => Eff.Lasts.throw

theorem keeps_requireAdministrator {token : String} {allowTemporary : Bool} :
    Method.Keeps E (fun _ w => w.rows ≠ []) (requireAdministrator E token allowTemporary) w₀ := by
  refine .bind keeps_authenticateSession fun r w hr _ => ?_
  rcases r with _ | session
  · exact keeps_denyAdministration
  · dsimp only
    split
    · exact keeps_denyAdministration
    split
    · exact keeps_denyAdministration
    · exact Eff.Lasts.pure (hr rfl)

/-! ## The operations -/

/-- A refused login writes what it read. -/
theorem keeps_refuseLogin {accounts : Accounts} {sessions : Sessions} {canonical bucket : String}
    {now : ℤ} {Q : SessionView → World → Prop} (haccounts : accounts.Sound)
    (hsessions : sessions.Drawn E w₀) :
    Method.Keeps E Q (refuseLogin E accounts sessions canonical bucket now) w₀ := by
  have hsame : ∀ t, (sessions.setThrottle bucket t).From sessions := fun t x hx => ⟨x, hx, .refl x⟩
  unfold refuseLogin
  dsimp only
  split
  · exact .bind keeps_audit fun _ _ h hsince =>
      .bind (keeps_writeAccounts haccounts (.audited h)) fun _ _ _ hsince' =>
        .bind (keeps_writeSessions (hsessions.since (hsince.trans hsince')) (hsame _))
          fun _ _ _ _ => Eff.Lasts.throw
  · exact .bind (keeps_writeSessions hsessions (hsame _)) fun _ _ _ _ => Eff.Lasts.throw

/-- **`login`** keeps the changes. -/
theorem keeps_login {username password source : String} :
    Method.Keeps E (fun _ _ => True) (login E username password source) w₀ := by
  refine .bind keeps_loadAccounts fun accounts w haccounts _ =>
    .bind keeps_loadSessions fun sessions w₁ hsessions _ => .bind keeps_clock fun now w₂ _ h₂ => ?_
  obtain ⟨rfl, hw⟩ := haccounts
  obtain ⟨rfl, hw₁⟩ := hsessions
  have hdrawn : w₁.sessionsDoc.Drawn E w₂ := by
    have hstored : w₁.sessionsDoc.Drawn E w₁ := hw₁.drawn
    exact hstored.since h₂
  split
  · exact Eff.Lasts.throw
  split
  · exact keeps_refuseLogin hw.accounts hdrawn
  · refine .bind keeps_audit fun _ w₃ h h₃ =>
      .bind (keeps_writeAccounts hw.accounts (.audited h)) fun _ w₄ _ h₄ =>
        .bind (keeps_openSession (hdrawn.since (h₃.trans h₄))) fun r _ _ _ => ?_
    exact keeps_sessionProjection.mono fun _ _ _ => trivial

/-- Sessions are ended. -/
theorem keeps_resetSessions {value : Sessions} (hvalue : value.sessions = []) {sessions : Sessions}
    (hsessions : sessions.Drawn E w₀) :
    Method.Keeps E (fun _ _ => True) (writeSessions sessions true value) w₀ :=
  keeps_writeSessions hsessions fun x hx => absurd hx (by rw [hvalue]; exact List.not_mem_nil)

theorem keeps_clearSessions : Method.Keeps E (fun _ _ => True) clearSessions w₀ := by
  refine .bind keeps_loadSessions fun sessions w hsessions _ => ?_
  obtain ⟨rfl, hw⟩ := hsessions
  exact keeps_resetSessions rfl hw.drawn

theorem keeps_reset : Method.Keeps E (fun _ _ => True) resetSessions w₀ := by
  refine .bind keeps_loadSessions fun sessions w hsessions _ => ?_
  obtain ⟨rfl, hw⟩ := hsessions
  exact .bind (keeps_resetSessions rfl hw.drawn) fun _ _ _ _ => Eff.Lasts.pure trivial

theorem keeps_logout {token : String} :
    Method.Keeps E (fun _ _ => True) (logout E token) w₀ := by
  refine .bind keeps_authenticateSession fun session w _ _ =>
    .bind keeps_loadSessions fun value w₁ hvalue _ => ?_
  obtain ⟨rfl, hw₁⟩ := hvalue
  refine .bind (keeps_writeSessions hw₁.drawn fun x hx => ⟨x, (List.mem_filter.mp hx).1, .refl x⟩)
    fun _ _ _ _ => ?_
  rcases session with _ | session
  · exact Eff.Lasts.pure trivial
  · refine .bind keeps_loadAccounts fun accounts w₂ haccounts _ => ?_
    obtain ⟨rfl, hw₂⟩ := haccounts
    exact keeps_audited hw₂.accounts

/-- The write of a row that was found, with its revision raised. -/
theorem keeps_amended {loaded value : Accounts} (hloaded : loaded.Sound) {p : Account → Bool}
    {a a' : Account} (hfind : loaded.accounts.find? p = some a) (hname : a'.username = a.username)
    (hrevision : a'.revision = a.revision + 1)
    (hlast : a.ActiveAdministrator → ¬ a'.ActiveAdministrator →
      1 < loaded.accounts.countP (·.ActiveAdministrator))
    (hvalue : value.accounts = (loaded.amend p a').accounts) :
    Method.Keeps E (fun _ _ => True) (writeAccounts loaded (some a.username) value) w₀ :=
  keeps_writeAccounts hloaded (.amended hfind hname hrevision hlast hvalue)

/-- **`change_password`** keeps the changes of others. -/
theorem keeps_changePassword {token currentPassword newPassword : String} :
    Method.Keeps E (fun _ _ => True) (changePassword E token currentPassword newPassword) w₀ := by
  refine .bind keeps_authenticateSession fun session w _ _ => ?_
  rcases session with _ | session
  · exact Eff.Lasts.throw
  refine .bind keeps_loadAccounts fun accounts w₁ haccounts _ => ?_
  obtain ⟨rfl, hw₁⟩ := haccounts
  split
  · exact Eff.Lasts.throw
  rename_i a ha
  split
  · exact Eff.Lasts.throw
  refine .bind keeps_replacePassword fun a' _ ha' _ => .bind keeps_audit fun value _ hvalue _ => ?_
  obtain ⟨hname, hrevision, hadmin⟩ := ha'
  refine .bind (keeps_amended hw₁.accounts (Accounts.find_eq_some ha).2 hname hrevision
    (fun h hnot => absurd (hadmin h) hnot) hvalue) fun _ _ _ _ => ?_
  exact .bind keeps_clearSessions fun _ _ _ _ => keeps_login

theorem keeps_bootstrap : Method.Keeps E (fun _ _ => True) (bootstrap E) w₀ := by
  refine .bind keeps_loadAccounts fun found w hfound _ => ?_
  obtain ⟨rfl, hw⟩ := hfound
  split
  · exact Eff.Lasts.pure trivial
  rename_i hempty
  refine .bind keeps_temporaryPassword fun _ _ _ _ => .bind keeps_loadAccounts fun value _ _ _ =>
    .bind keeps_newAccount fun a _ ha _ => .bind keeps_audit fun _ _ h _ => ?_
  refine .bind (keeps_writeAccounts hw.accounts
    (.founded (not_not.mp hempty) ⟨ha.2.2, ha.2.1⟩ h)) fun _ _ _ _ => ?_
  refine .bind keeps_loadSessions fun sessions w₂ hsessions _ => ?_
  obtain ⟨rfl, hw₂⟩ := hsessions
  exact .bind (keeps_writeSessions hw₂.drawn fun x hx => ⟨x, hx, .refl x⟩) fun _ _ _ _ =>
    Eff.Lasts.pure trivial

theorem keeps_revokeAllSessions {token reason : String} :
    Method.Keeps E (fun _ _ => True) (revokeAllSessions E token reason) w₀ := by
  refine .bind keeps_requireAdministrator fun session _ _ _ => .bind keeps_reset fun _ _ _ _ =>
    .bind keeps_loadAccounts fun accounts w haccounts _ => ?_
  obtain ⟨rfl, hw⟩ := haccounts
  exact .bind keeps_audit fun _ _ h _ =>
    .bind (keeps_writeAccounts hw.accounts (.audited h)) fun _ _ _ _ => Eff.Lasts.pure trivial

theorem keeps_listUsers {token : String} :
    Method.Keeps E (fun _ _ => True) (listUsers E token) w₀ :=
  .bind keeps_requireAdministrator fun _ _ _ _ => .bind keeps_loadAccounts fun _ _ _ _ =>
    Eff.Lasts.pure trivial

theorem keeps_securityAudit {token : String} {limit : ℤ} :
    Method.Keeps E (fun _ _ => True) (securityAudit E token limit) w₀ :=
  .bind keeps_requireAdministrator fun _ _ _ _ => .bind keeps_loadAccounts fun _ _ _ _ =>
    Eff.Lasts.pure trivial

theorem keeps_createUser {token username role displayName : String} :
    Method.Keeps E (fun _ _ => True) (createUser E token username role displayName) w₀ := by
  refine .bind keeps_requireAdministrator fun session w hsome _ =>
    .bind (Eff.Lasts.ofExcept (Q := fun _ _ => True) fun _ _ => trivial) fun selected w₁ _ h₁ =>
    .bind keeps_temporaryPassword fun password w₂ _ h₂ =>
    .bind keeps_loadAccounts fun value w₃ hvalue h₃ =>
    .bind (Eff.Lasts.ofExcept (Q := fun c _ => normalizeUsername username = .ok c) fun _ h => h)
      fun canonical w₄ hcanonical _ => ?_
  obtain ⟨rfl, hw₃⟩ := hvalue
  split
  · exact Eff.Lasts.throw
  rename_i hfree
  refine .bind keeps_newAccount fun a _ ha _ => .bind keeps_audit fun _ _ h _ => ?_
  have hname := normalizeUsername_idem hcanonical
  have hcanon : a.username = canonical := by
    rw [ha.1] at hname
    exact Except.ok.inj hname
  have hrow : w₃.accountsDoc.row a.username = none := by
    rw [hcanon, ← Accounts.find_of_row (normalizeUsername_idem hcanonical)]
    exact hfree
  exact .bind (keeps_writeAccounts hw₃.accounts
      (.created (((h₁.trans h₂).trans h₃).accounts hsome) hrow h)) fun _ _ _ _ =>
    Eff.Lasts.pure trivial

/-- The guard of an update: it does not take the last enabled Administrator
away. -/
theorem last_of_guard {d : Accounts} {a a' : Account}
    (hguard : ¬ (a.role = .administrator ∧ (a'.role ≠ a.role ∨ a'.enabled = false) ∧
      d.accounts.countP (·.ActiveAdministrator) ≤ 1)) :
    a.ActiveAdministrator → ¬ a'.ActiveAdministrator →
      1 < d.accounts.countP (·.ActiveAdministrator) := by
  rintro ⟨henabled, hrole⟩ hnot
  by_contra hfew
  refine hguard ⟨hrole, ?_, not_lt.mp hfew⟩
  by_contra hsame
  obtain ⟨hnewRole, hnewEnabled⟩ := not_or.mp hsame
  exact hnot ⟨eq_true_of_ne_false hnewEnabled, (not_not.mp hnewRole).trans hrole⟩

/-- So does **`update_user`**. -/
theorem keeps_updateUser {token username : String} {enabled : Option Bool} {role : Option String} :
    Method.Keeps E (fun _ _ => True) (updateUser E token username enabled role) w₀ := by
  refine .bind keeps_requireAdministrator fun session _ _ _ =>
    .bind keeps_loadAccounts fun value w hvalue _ => ?_
  obtain ⟨rfl, hw⟩ := hvalue
  split
  · exact Eff.Lasts.throw
  rename_i a ha
  refine .bind (Eff.Lasts.ofExcept (Q := fun _ _ => True) fun _ _ => trivial) fun newRole _ _ _ => ?_
  dsimp only
  split
  · exact Eff.Lasts.throw
  rename_i hguard
  refine .bind keeps_clock fun now _ _ _ => .bind keeps_audit fun audited _ h _ => ?_
  refine .bind (keeps_amended hw.accounts (Accounts.find_eq_some ha).2 ?_ ?_ ?_ h) fun _ _ _ _ =>
    Eff.Lasts.pure trivial
  · rfl
  · rfl
  · exact last_of_guard hguard

/-- So does **`reset_password`**. -/
theorem keeps_resetPassword {token username : String} :
    Method.Keeps E (fun _ _ => True) (resetPassword E token username) w₀ := by
  refine .bind keeps_requireAdministrator fun session _ _ _ =>
    .bind keeps_loadAccounts fun value w hvalue _ => ?_
  obtain ⟨rfl, hw⟩ := hvalue
  split
  · exact Eff.Lasts.throw
  rename_i a ha
  refine .bind keeps_temporaryPassword fun _ _ _ _ => .bind keeps_replacePassword
    fun a' _ ha' _ => .bind keeps_audit fun _ _ h _ => ?_
  obtain ⟨hname, hrevision, hadmin⟩ := ha'
  exact .bind (keeps_amended hw.accounts (Accounts.find_eq_some ha).2 hname hrevision
    (fun h hnot => absurd (hadmin h) hnot) h) fun _ _ _ _ => Eff.Lasts.pure trivial

/-- So does **`recover_administrator`**. -/
theorem keeps_recoverAdministrator {confirmation : String} {owned : Bool} :
    Method.Keeps E (fun _ _ => True) (recoverAdministrator E confirmation owned) w₀ := by
  unfold recoverAdministrator
  split
  · exact Eff.Lasts.throw
  split
  · exact Eff.Lasts.throw
  refine .bind keeps_loadAccounts fun value w hvalue _ => ?_
  obtain ⟨rfl, hw⟩ := hvalue
  split
  · exact Eff.Lasts.throw
  rename_i a ha
  have hrole : a.role = .administrator := by simpa using List.find?_some ha
  refine .bind keeps_temporaryPassword fun _ _ _ _ => .bind keeps_replacePassword
    fun a' _ ha' _ => .bind keeps_audit fun _ _ h _ => ?_
  obtain ⟨hname, hrevision, hadmin⟩ := ha'
  exact .bind (keeps_amended hw.accounts ha hname hrevision
    (fun _ hnot => absurd (hadmin ⟨rfl, hrole⟩) hnot) h) fun _ _ _ _ =>
      .bind keeps_reset fun _ _ _ _ => Eff.Lasts.pure trivial

/-- **Every operation keeps it all.** -/
theorem keeps_method (k : Call) : Method.Keeps E (fun _ _ => True) (k.method E) w₀ := by
  cases k
  case bootstrap => exact .map (evolution E) keeps_bootstrap fun _ _ _ => trivial
  case login => exact .map (evolution E) keeps_login fun _ _ _ => trivial
  case authenticateSession =>
    exact .map (evolution E) keeps_authenticateSession fun _ _ _ => trivial
  case logout => exact .map (evolution E) keeps_logout fun _ _ _ => trivial
  case changePassword => exact .map (evolution E) keeps_changePassword fun _ _ _ => trivial
  case requireAdministrator =>
    exact .map (evolution E) keeps_requireAdministrator fun _ _ _ => trivial
  case revokeAllSessions => exact .map (evolution E) keeps_revokeAllSessions fun _ _ _ => trivial
  case listUsers => exact .map (evolution E) keeps_listUsers fun _ _ _ => trivial
  case securityAudit => exact .map (evolution E) keeps_securityAudit fun _ _ _ => trivial
  case createUser => exact .map (evolution E) keeps_createUser fun _ _ _ => trivial
  case updateUser => exact .map (evolution E) keeps_updateUser fun _ _ _ => trivial
  case resetPassword => exact .map (evolution E) keeps_resetPassword fun _ _ _ => trivial
  case recoverAdministrator =>
    exact .map (evolution E) keeps_recoverAdministrator fun _ _ _ => trivial

end

end Atmem.Identity
