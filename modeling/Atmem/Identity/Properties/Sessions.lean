import Mathlib.Data.List.Induction
import Atmem.Identity.Helpers.Alone
import Atmem.Identity.Helpers.Changes
/-!
# Sessions follow the account

Of calls that interleave: every operation writes a whole document that it
loaded before, so one that is not a change may write back what a change has
replaced. Where it does not, because the account rows and the sessions it
loaded are still the ones that are stored, no change is lost until the next
one is written.

Of operations that run one after the other: a session that is stored was
opened by a sign-in of the run, no call that ends it has returned since, and
it was used when its idle limit says; the account's row has had its revision
raised if it was written since. So a token is authenticated only while the
account is the one that signed in.
-/

namespace Atmem.Identity

open Interleaving Relation

/-- Calls of the service that interleave. -/
abbrev Calls := Config Call Action World (Except Raised Reply)

/-- The runs of calls each of which writes, where it makes no change, what
was made from rows and sessions that are still stored. -/
abbrev Undisturbing (E : Engine) : Calls → Calls → Prop :=
  ReflTransGen (GrantedStep (Call.method E) (fun _ => True) fun _ label w => label.UpToDate w)

/-- Such runs in which no change is written. -/
abbrev Quiet (E : Engine) : Calls → Calls → Prop :=
  ReflTransGen (GrantedStep (Call.method E) (fun _ => True) fun _ label w =>
    label.UpToDate w ∧ ¬ label.Changes)

/-- The changes among the operations. -/
def Call.Changes : Call → Bool
  | .changePassword .. | .createUser .. | .updateUser .. | .resetPassword .. | .logout _
  | .revokeAllSessions .. | .recoverAdministrator .. => true
  | _ => false

/-- Nothing is sound. -/
theorem sound_nothing (E : Engine) : World.Sound E {} :=
  ⟨Accounts.sound_empty, fun _ hx => absurd hx List.not_mem_nil⟩

/-- **From any moment of such a run, until the next change is written**: the
account rows stay as they are, no session that was stored before and is no
longer comes back, and an enabled Administrator remains. -/
theorem changes_are_kept {E : Engine} (hdraws : Function.Injective fun n => E.sha256 (E.token n))
    {c c' : Calls} (hc : Undisturbing E (Config.initial {}) c) (hr : Quiet E c c') :
    (c.time.now.rows ≠ [] → c'.time.now.rows = c.time.now.rows) ∧
      (∀ x ∈ c'.time.now.stored,
        (∃ w, c.time.Seen w ∧ ∃ y ∈ w.stored, y.tokenSha256 = x.tokenSha256) →
          ∃ y ∈ c.time.now.stored, x.Same y) ∧
      (c.time.now.rows ≠ [] → ∃ a ∈ c'.time.now.rows, a.ActiveAdministrator) := by
  have hbody : ∀ k : Call, True → ∀ w, w.Sound E →
      Prog.Lasts Action.UpToDate (World.Sound E) World.Since (Kept E) (fun _ _ => True)
        (k.method E) w :=
    fun k _ w _ => Prog.Lasts.mono (fun _ _ _ => trivial) (keeps_method k)
  have hlasting := (lasting_initial (evolution E) (sound_nothing E)).run (evolution E) hbody hc
  obtain ⟨hlasting', hkept⟩ := hlasting.quiet (evolution E) hbody (.refl E) (fun h h' => h.trans h')
    (fun _ hquiet hP => hP.quiet hquiet) hr
  refine ⟨hkept.rows, fun x hx hseen => ?_, fun hsome => ?_⟩
  · rcases hkept.stored x hx with hsame | ⟨n, hn, htoken⟩
    · exact hsame
    · -- its token was drawn later than any that was stored
      obtain ⟨w, hw, y, hy, hxy⟩ := hseen
      obtain ⟨hsound, hsince⟩ := hlasting.1 w hw
      obtain ⟨m, hm, hdrawn⟩ := hsound.drawn y hy
      have heq : m = n := hdraws (by dsimp only; rw [← hdrawn, hxy, htoken])
      have hdraws := hsince.draws
      omega
  · exact (hlasting'.1 _ Timeline.seen_now).1.accounts.administered (hkept.since.accounts hsome)

/-! ## An installation -/

/-- An installation whose clock stands still and whose passwords are their
own digests. -/
def exampleEngine : Engine where
  subjectId := "subject"
  clock _ := 0
  token n := String.ofList (List.replicate (n + 1) 'x')
  csrf _ := ""
  salt _ := ""
  sha256 := id
  scrypt password _ := password

/-- Tokens of the example differ in their digests. -/
theorem injective_exampleEngine :
    Function.Injective fun n => exampleEngine.sha256 (exampleEngine.token n) := by
  intro m n h
  have hlength := congrArg (fun s : String => s.toList.length) h
  simpa [exampleEngine] using hlength

/-- A call that is made and runs to its end, in so many actions. -/
def whole (k : Call) (i n : ℕ) : List (Choice Call) := .begin k :: List.replicate n (.act i)

/-- The Administrator signs in. -/
def exampleSignIn : List (Choice Call) :=
  whole .bootstrap 0 9 ++ whole (.login "administrator" "AtMem-x" "loopback") 1 7

/-- Bob is signing in while he is disabled. -/
def exampleDisabling : List (Choice Call) :=
  exampleSignIn ++ whole (.changePassword "xxx" "" "secret") 2 18 ++
    whole (.createUser "xxxxx" "bob" "viewer" "") 3 11 ++
    [.begin (.login "bob" "AtMem-xxxxxx" "loopback"), .act 4, .act 4, .act 4] ++
    whole (.updateUser "xxxxx" "bob" (some false) none) 5 9

/-- Whether Bob is enabled. -/
def bobEnabled (c : Calls) : Option Bool := (c.time.now.accountsDoc.row "bob").map (·.enabled)

/-- **A sign-in that was under way restores the account**: an Administrator
has disabled it, the update has returned, and no call but the sign-in acts
after that. -/
theorem sign_in_restores_the_account : ∃ c c',
    Reaches (Call.method exampleEngine) (fun _ => True) (Config.initial {}) c ∧
      (∃ p ∈ c.procs, p.call = .updateUser "xxxxx" "bob" (some false) none ∧ ¬ p.Live) ∧
      bobEnabled c = some false ∧
      ReflTransGen (GrantedStep (Call.method exampleEngine) (fun _ => True) fun k _ _ =>
        k.Changes = false) c c' ∧
      bobEnabled c' = some true := by
  have hplay : ((Config.play (Call.method exampleEngine) (fun _ => true) (fun _ _ => true)
      exampleDisabling (Config.initial {})).bind fun c =>
        (Config.playGranted (Call.method exampleEngine) (fun _ => true) (fun k _ _ => !k.Changes)
          [.act 4, .act 4] c).map fun c' =>
            (c.procs.any fun p => p.call = .updateUser "xxxxx" "bob" (some false) none && !p.Live) &&
              bobEnabled c = some false && bobEnabled c' = some true) = some true := by
    decide +kernel
  obtain ⟨c, hc, hrest⟩ := Option.bind_eq_some_iff.mp hplay
  obtain ⟨c', hc', hfacts⟩ := Option.map_eq_some_iff.mp hrest
  rw [Bool.and_eq_true, Bool.and_eq_true, List.any_eq_true] at hfacts
  obtain ⟨⟨⟨p, hp, hcall⟩, hbefore⟩, hafter⟩ := hfacts
  rw [Bool.and_eq_true] at hcall
  refine ⟨c, c', ?_, ⟨p, hp, of_decide_eq_true hcall.1, by simpa using hcall.2⟩,
    of_decide_eq_true hbefore, ?_, of_decide_eq_true hafter⟩
  · exact (reaches_of_play hc).lift id fun _ _ hs => hs.1.mono fun _ _ => trivial
  · exact (granted_of_play hc').lift id fun _ _ hs =>
      hs.mono (fun k _ _ h => by simpa using h) fun _ _ => trivial

/-- The law, where the Administrator has changed the password and signs in
with it. -/
theorem sign_in_keeps_the_accounts : ∃ c c',
    (∃ p ∈ c.procs, p.call = .changePassword "xxx" "" "secret" ∧ ¬ p.Live) ∧
    Undisturbing exampleEngine (Config.initial {}) c ∧ Quiet exampleEngine c c' ∧
      c'.time.now.stored.length = 2 ∧ c'.time.now.rows = c.time.now.rows := by
  have hplay : ((Config.playGranted (Call.method exampleEngine) (fun _ => true)
      (fun _ label w => decide (label.UpToDate w))
        (exampleSignIn ++ whole (.changePassword "xxx" "" "secret") 2 18)
        (Config.initial {})).bind fun c =>
      (Config.playGranted (Call.method exampleEngine) (fun _ => true)
        (fun _ label w => decide (label.UpToDate w ∧ ¬ label.Changes))
        (whole (.login "administrator" "secret" "loopback") 3 7) c).map fun c' =>
          (c.procs.any fun p => p.call = .changePassword "xxx" "" "secret" && !p.Live) &&
            c.time.now.rows ≠ [] && c'.time.now.stored.length = 2) = some true := by
    decide +kernel
  obtain ⟨c, hc, hrest⟩ := Option.bind_eq_some_iff.mp hplay
  obtain ⟨c', hc', hfacts⟩ := Option.map_eq_some_iff.mp hrest
  rw [Bool.and_eq_true, Bool.and_eq_true, List.any_eq_true] at hfacts
  obtain ⟨⟨⟨p, hp, hcall⟩, hrows⟩, hstored⟩ := hfacts
  rw [Bool.and_eq_true] at hcall
  have hrun : Undisturbing exampleEngine (Config.initial {}) c := (granted_of_play hc).lift id
    fun _ _ hs => hs.mono (fun _ _ _ h => of_decide_eq_true h) fun _ _ => trivial
  have hquiet : Quiet exampleEngine c c' := (granted_of_play hc').lift id
    fun _ _ hs => hs.mono (fun _ _ _ h => of_decide_eq_true h) fun _ _ => trivial
  exact ⟨c, c', ⟨p, hp, of_decide_eq_true hcall.1, by simpa using hcall.2⟩, hrun, hquiet,
    of_decide_eq_true hstored,
    (changes_are_kept injective_exampleEngine hrun hquiet).1 (of_decide_eq_true hrows)⟩

/-! ## Operations one after the other -/

variable (E : Engine)

/-- The state the operations lead to, one after the other, from an
installation with nothing in it. -/
def reached (ks : List Call) : World :=
  ks.foldl (fun w k => ((k.method E).exec w).2) {}

/-- What a call is answered after the others. -/
def answer (ks : List Call) (k : Call) : Except Raised Reply := ((k.method E).exec (reached E ks)).1

/-- A call more starts where the others ended. -/
theorem reached_concat (ks : List Call) (k : Call) :
    reached E (ks ++ [k]) = ((k.method E).exec (reached E ks)).2 := by
  unfold reached
  rw [List.foldl_append]
  rfl

/-- The call signs somebody in. -/
def Call.SignsIn : Call → Prop
  | .login .. | .changePassword .. => True
  | _ => False

/-- The token a call uses, which keeps its session from idling. -/
def Call.uses : Call → Option String
  | .authenticateSession token true | .requireAdministrator token _ | .revokeAllSessions token _
  | .listUsers token | .securityAudit token _ | .createUser token .. | .updateUser token ..
  | .resetPassword token _ => some token
  | _ => none

/-- The call ends the session of a token: it signs it out, or ends every
session there is. -/
def Call.Ends (k : Call) (token : String) : Prop :=
  match k with
  | .logout s => s = token
  | .changePassword .. | .revokeAllSessions .. | .recoverAdministrator .. => True
  | _ => False

/-! ## One call -/

section

variable {E}

/-- What one call does: it opens nothing, and what it ends is gone; or it
signs in. -/
theorem call_alone {w : World} (hw : w.Sound E) (k : Call) :
    (w.Follows E k.uses ((k.method E).exec w).2 ∧ ∀ token r, k.Ends token →
      ((k.method E).exec w).1 = .ok r →
        ∀ x ∈ ((k.method E).exec w).2.stored, x.tokenSha256 ≠ E.sha256 token) ∨
    k.SignsIn ∧ ∃ w₁ u p source a v, w.Follows E none w₁ ∧
      ((k.method E).exec w).1 = .ok (.session v) ∧
      w₁.SignsIn E u p source a v ((k.method E).exec w).2 ∧
      ((∃ token, k.Ends token) → w₁.stored = []) := by
  have hnone : ∀ {α : Type} {x : Method α} {f : α → Reply} {Q : α → World → Prop} {s : Option String},
      x.Alone E s Q w → Method.Alone E s (fun _ _ => True) (f <$> x) w :=
    fun hx => hx.map fun _ _ _ => trivial
  cases k
  case login username password source =>
    have hrun : (Call.method E (.login username password source)).exec w =
        (.session <$> ((login E username password source).exec w).1,
          ((login E username password source).exec w).2) := Eff.exec_map _ _ _
    rw [hrun]
    rcases login_alone hw username password source with ⟨e, he, hf⟩ | ⟨a, v, hv, hsigns⟩
    · exact .inl ⟨hf, fun _ _ h => h.elim⟩
    · refine .inr ⟨trivial, w, username, password, source, a, v, .refl hw, ?_, hsigns, ?_⟩
      · rw [hv]
        rfl
      · rintro ⟨_, h⟩
        exact h.elim
  case changePassword s currentPassword newPassword =>
    have hrun : (Call.method E (.changePassword s currentPassword newPassword)).exec w =
        (.session <$> ((changePassword E s currentPassword newPassword).exec w).1,
          ((changePassword E s currentPassword newPassword).exec w).2) := Eff.exec_map _ _ _
    rw [hrun]
    rcases changePassword_alone hw s currentPassword newPassword with
      ⟨e, he, hf⟩ | ⟨w₁, u, p, source, a, v, hf, hempty, hv, hsigns⟩
    · refine .inl ⟨hf, fun token r _ hr => ?_⟩
      rw [he] at hr
      cases hr
    · refine .inr ⟨trivial, w₁, u, p, source, a, v, hf, ?_, hsigns, fun _ => hempty⟩
      rw [hv]
      rfl
  case logout s =>
    left
    have halone : Method.Alone E none (fun _ w' => ∀ x ∈ w'.stored, x.tokenSha256 ≠ E.sha256 s)
        (Call.method E (.logout s)) w := (alone_logout hw).map fun _ _ h => h
    exact ⟨halone.1, fun token r hends hr => by cases hends; exact halone.2 r hr⟩
  case revokeAllSessions s reason =>
    left
    have halone : Method.Alone E (some s) (fun _ w' => w'.stored = [])
        (Call.method E (.revokeAllSessions s reason)) w :=
      (alone_revokeAllSessions hw).map fun _ _ h => h
    refine ⟨halone.1, fun token r _ hr x hx => ?_⟩
    have hempty : ((Call.method E (.revokeAllSessions s reason)).exec w).2.stored = [] :=
      halone.2 r hr
    rw [hempty] at hx
    cases hx
  case recoverAdministrator confirmation owned =>
    left
    have halone : Method.Alone E none (fun _ w' => w'.stored = [])
        (Call.method E (.recoverAdministrator confirmation owned)) w :=
      (alone_recoverAdministrator hw).map fun _ _ h => h
    refine ⟨halone.1, fun token r _ hr x hx => ?_⟩
    have hempty : ((Call.method E (.recoverAdministrator confirmation owned)).exec w).2.stored = [] :=
      halone.2 r hr
    rw [hempty] at hx
    cases hx
  -- the other calls open no session
  case bootstrap => exact .inl ⟨(hnone (alone_bootstrap hw)).1, fun _ _ h => h.elim⟩
  case authenticateSession s touch =>
    have halone := (hnone (f := Reply.ofSession) (alone_authenticateSession hw s touch)).1
    cases touch
    · exact .inl ⟨halone, fun _ _ h => h.elim⟩
    · exact .inl ⟨halone, fun _ _ h => h.elim⟩
  case requireAdministrator => exact .inl ⟨(hnone (alone_requireAdministrator hw)).1, fun _ _ h => h.elim⟩
  case listUsers => exact .inl ⟨(hnone (alone_listUsers hw)).1, fun _ _ h => h.elim⟩
  case securityAudit => exact .inl ⟨(hnone (alone_securityAudit hw)).1, fun _ _ h => h.elim⟩
  case createUser => exact .inl ⟨(hnone (alone_createUser hw)).1, fun _ _ h => h.elim⟩
  case updateUser => exact .inl ⟨(hnone (alone_updateUser hw)).1, fun _ _ h => h.elim⟩
  case resetPassword => exact .inl ⟨(hnone (alone_resetPassword hw)).1, fun _ _ h => h.elim⟩

/-- A sign-in keeps the state sound and the rows as they are. -/
theorem World.SignsIn.sound {w w' : World} {u p source : String} {a : Account} {v : SessionView}
    (h : w.SignsIn E u p source a v w') (hw : w.Sound E) : w'.Sound E := by
  refine ⟨(Accounts.Becomes.audited h.accounts).sound hw.accounts, fun x hx => ?_⟩
  rw [h.stored] at hx
  rw [h.draws]
  rcases List.mem_append.mp hx with hx | hx
  · obtain ⟨m, hm, htoken⟩ := hw.drawn x hx
    exact ⟨m, Nat.lt_succ_of_lt hm, htoken⟩
  · obtain rfl := List.mem_singleton.mp hx
    exact ⟨w.draws, Nat.lt_succ_self _, rfl⟩

/-- Signing in changes no account. -/
theorem World.SignsIn.row {w w' : World} {u p source : String} {a : Account} {v : SessionView}
    (h : w.SignsIn E u p source a v w') (name : String) :
    w'.accountsDoc.row name = w.accountsDoc.row name := by
  unfold Accounts.row
  rw [h.accounts]
  rfl

end

/-! ## The run -/

/-- What calls reach, one after the other, is sound. -/
theorem sound_reached (ks : List Call) : (reached E ks).Sound E := by
  induction ks using List.reverseRecOn with
  | nil => exact ⟨Accounts.sound_empty, fun _ hx => absurd hx List.not_mem_nil⟩
  | append_singleton ks k ih =>
    rw [reached_concat]
    rcases call_alone ih k with ⟨hf, -⟩ | ⟨-, w₁, _, _, _, _, _, hf, -, hsigns, -⟩
    · exact hf.sound
    · exact hsigns.sound hf.sound

/-- A row stays as it was through a call, or its revision rises. -/
theorem row_le_concat (ks : List Call) (k : Call) {u : String} {a : Account}
    (ha : (reached E ks).accountsDoc.row u = some a) :
    ∃ a', (reached E (ks ++ [k])).accountsDoc.row u = some a' ∧
      (a' = a ∨ a.revision < a'.revision) := by
  rw [reached_concat]
  rcases call_alone (sound_reached E ks) k with ⟨hf, -⟩ | ⟨-, w₁, _, _, _, _, _, hf, -, hsigns, -⟩
  · exact hf.rows u a ha
  · rw [hsigns.row]
    exact hf.rows u a ha

/-- And through any calls. -/
theorem row_le_append (ks later : List Call) {u : String} {a : Account}
    (ha : (reached E ks).accountsDoc.row u = some a) :
    ∃ a', (reached E (ks ++ later)).accountsDoc.row u = some a' ∧
      (a' = a ∨ a.revision < a'.revision) := by
  induction later using List.reverseRecOn with
  | nil =>
    rw [List.append_nil]
    exact ⟨a, ha, .inl rfl⟩
  | append_singleton later k ih =>
    obtain ⟨a₁, ha₁, h₁⟩ := ih
    rw [← List.append_assoc]
    obtain ⟨a₂, ha₂, h₂⟩ := row_le_concat E (ks ++ later) k ha₁
    refine ⟨a₂, ha₂, ?_⟩
    rcases h₁ with rfl | h₁
    · exact h₂
    · rcases h₂ with rfl | h₂
      · exact .inr h₁
      · exact .inr (h₁.trans h₂)

/-- The readings of one call of a run. -/
def ReadBy (ks : List Call) (k : Call) (t : ℕ) : Prop :=
  (reached E ks).Reads (reached E (ks ++ [k])) t

/-- Where a stored session comes from: the sign-in that opened it, what has
not ended it since, and the call that used it last. -/
structure Opening (ks : List Call) (x : Session) (before : List Call) (k : Call)
    (rest : List Call) (a : Account) (v : SessionView) : Prop where
  calls : ks = before ++ k :: rest
  signsIn : k.SignsIn
  answered : answer E before k = .ok (.session v)
  token : x.tokenSha256 = E.sha256 v.sessionToken
  username : x.username = a.username
  canonical : normalizeUsername a.username = .ok a.username
  revision : x.accountRevision = a.revision
  row : (reached E (before ++ [k])).accountsDoc.row a.username = some a
  enabled : a.enabled = true
  absolute : ∃ t, ReadBy E before k t ∧ x.absoluteExpiresAt = E.clock t + absolute
  kept : ∀ earlier k' later r, rest = earlier ++ k' :: later → k'.Ends v.sessionToken →
    answer E (before ++ k :: earlier) k' ≠ .ok r
  used : ∃ earlier k' later t, k :: rest = earlier ++ k' :: later ∧
    (earlier = [] ∨ ∃ s ∈ k'.uses, E.sha256 s = x.tokenSha256) ∧
    ReadBy E (before ++ earlier) k' t ∧ x.idleExpiresAt ≤ E.clock t + idle

variable {E}

/-- One more call, which does not end the session. -/
theorem Opening.concat {ks before rest : List Call} {k k' : Call} {x : Session} {a : Account}
    {v : SessionView} (h : Opening E ks x before k rest a v)
    (hkept : ∀ r, k'.Ends v.sessionToken → answer E ks k' ≠ .ok r) :
    Opening E (ks ++ [k']) x before k (rest ++ [k']) a v := by
  refine { h with calls := by rw [h.calls]; simp, kept := ?_, used := ?_ }
  · intro earlier k₁ later r hsplit hends
    rcases List.eq_nil_or_concat later with rfl | ⟨later, last, rfl⟩
    · obtain ⟨rfl, heq⟩ := List.append_inj' hsplit rfl
      cases heq
      rw [← h.calls]
      exact hkept r hends
    · have hsplit' : rest ++ [k'] = (earlier ++ k₁ :: later) ++ [last] := by
        rw [hsplit]
        simp
      exact h.kept earlier k₁ later r (List.append_inj' hsplit' rfl).1 hends
  · obtain ⟨earlier, k₁, later, t, hsplit, huse, hread, hidle⟩ := h.used
    refine ⟨earlier, k₁, later ++ [k'], t, ?_, huse, hread, hidle⟩
    rw [← List.cons_append, hsplit]
    simp

/-- The session, used by one more call. -/
theorem Opening.touched {ks before rest : List Call} {k k' : Call} {x : Session} {a : Account}
    {v : SessionView} {t : ℕ} (h : Opening E (ks ++ [k']) x before k (rest ++ [k']) a v)
    (huse : ∃ s ∈ k'.uses, E.sha256 s = x.tokenSha256) (hread : ReadBy E ks k' t) :
    Opening E (ks ++ [k']) (x.touched (E.clock t)) before k (rest ++ [k']) a v := by
  refine { h with used := ⟨k :: rest, k', [], t, rfl, .inr huse, ?_, Int.min_le_left _ _⟩ }
  have hks : ks = before ++ k :: rest := by
    have hcalls : ks ++ [k'] = (before ++ k :: rest) ++ [k'] := by
      rw [h.calls]
      simp
    exact (List.append_inj' hcalls rfl).1
  rw [← hks]
  exact hread

variable (E)

/-- **Every stored session was opened by a sign-in of the run.** -/
theorem opening_of_stored (ks : List Call) : ∀ x ∈ (reached E ks).stored,
    ∃ before k rest a v, Opening E ks x before k rest a v := by
  induction ks using List.reverseRecOn with
  | nil => exact fun x hx => absurd hx List.not_mem_nil
  | append_singleton ks k' ih =>
    intro x hx
    have hread : ∀ {t : ℕ}, (reached E ks).Reads ((k'.method E).exec (reached E ks)).2 t →
        ReadBy E ks k' t := by
      intro t ht
      unfold ReadBy
      rw [reached_concat]
      exact ht
    rw [reached_concat] at hx
    rcases call_alone (sound_reached E ks) k' with
      ⟨hf, hends⟩ | ⟨hsigns, w₁, u, p, source, a, v, hf, hanswer, hsignsIn, hempty⟩
    · -- no sign-in: the session was there, or was touched
      obtain ⟨y, hy, hxy⟩ := hf.stored x hx
      obtain ⟨before, k, rest, a, v, hopening⟩ := ih y hy
      have htoken : x.tokenSha256 = y.tokenSha256 := by
        rcases hxy with rfl | ⟨t, -, rfl, -⟩ <;> rfl
      have hnext : Opening E (ks ++ [k']) y before k (rest ++ [k']) a v :=
        hopening.concat fun r hend hr => hends v.sessionToken r hend hr x hx (htoken.trans hopening.token)
      refine ⟨before, k, rest ++ [k'], a, v, ?_⟩
      rcases hxy with rfl | ⟨t, ht, rfl, huse⟩
      · exact hnext
      · exact hnext.touched huse (hread ht)
    · -- a sign-in: the session was there, or is the one opened
      rw [hsignsIn.stored] at hx
      rcases List.mem_append.mp hx with hx | hx
      · obtain ⟨y, hy, hxy⟩ := hf.stored x hx
        obtain rfl : x = y := by
          rcases hxy with rfl | ⟨_, _, _, s, hs, _⟩
          · rfl
          · cases hs
        obtain ⟨before, k, rest, b, v', hopening⟩ := ih x hy
        refine ⟨before, k, rest ++ [k'], b, v', hopening.concat fun r hend _ => ?_⟩
        rw [hempty ⟨_, hend⟩] at hx
        cases hx
      · obtain rfl := List.mem_singleton.mp hx
        have htick : ReadBy E ks k' w₁.ticks := hread ⟨hf.ticks, hsignsIn.ticks⟩
        obtain ⟨hcanonical, hrow⟩ := Accounts.find_eq_some hsignsIn.found
        refine ⟨ks, k', [], a, v, ⟨rfl, hsigns, hanswer, ?_, rfl, normalizeUsername_idem hcanonical,
          rfl, ?_, hsignsIn.enabled, ⟨w₁.ticks, htick, rfl⟩, ?_, ?_⟩⟩
        · rw [hsignsIn.token]
          rfl
        · rw [reached_concat, hsignsIn.row]
          exact hrow
        · intro earlier k₁ later r hsplit
          simp at hsplit
        · exact ⟨[], k', [], w₁.ticks, rfl, .inl rfl, by rw [List.append_nil]; exact htick, Int.le_refl _⟩

variable {E}

/-- The row that signed in is the one of the moment it is read again with its
revision, and of every moment between. -/
theorem Opening.row_kept {ks before rest : List Call} {k : Call} {x : Session} {a a' : Account}
    {v : SessionView} (h : Opening E ks x before k rest a v)
    (ha' : (reached E ks).accountsDoc.find x.username = some a')
    (hrevision : a'.revision = x.accountRevision) :
    a' = a ∧ ∀ mid, mid <+: rest →
      (reached E (before ++ k :: mid)).accountsDoc.row a.username = some a := by
  rw [h.username, Accounts.find_of_row h.canonical] at ha'
  have hconst : ∀ mid, mid <+: rest →
      (reached E (before ++ k :: mid)).accountsDoc.row a.username = some a := by
    rintro mid ⟨later, rfl⟩
    obtain ⟨b, hb, hab⟩ := row_le_append E (before ++ [k]) mid h.row
    obtain ⟨c, hc, hbc⟩ := row_le_append E (before ++ [k] ++ mid) later hb
    have hcalls : before ++ [k] ++ mid ++ later = ks := by
      rw [h.calls]
      simp
    rw [hcalls, ha'] at hc
    cases hc
    have hsame : a'.revision = a.revision := hrevision.trans h.revision
    have hmid : before ++ k :: mid = before ++ [k] ++ mid := by simp
    rw [hmid]
    rcases hab with rfl | hab
    · exact hb
    · rcases hbc with rfl | hbc <;> omega
  have hlast := hconst rest (List.prefix_refl _)
  rw [← h.calls, ha'] at hlast
  exact ⟨Option.some.inj hlast, hconst⟩

/-- The first account is always made. -/
theorem newAccount_ok (n : ℕ) (w : World) : ∃ a w', (newAccount E "administrator"
    ("AtMem-" ++ E.token n) .administrator "Local Administrator").exec w = (.ok a, w') := by
  have hname : normalizeUsername "administrator" = .ok "administrator" := by decide
  have hpassword : validatePassword ("AtMem-" ++ E.token n) "administrator" = .ok () := by
    unfold validatePassword
    rw [if_neg]
    intro h
    have hlength := congrArg String.length h
    rw [String.length_append] at hlength
    have hpositive : "AtMem-".length = 6 := rfl
    have hzero : "".length = 0 := rfl
    omega
  unfold newAccount
  rw [hname, Eff.exec_bind_ok (Eff.exec_ofExcept_ok _ _ _), hpassword,
    Eff.exec_bind_ok (Eff.exec_ofExcept_ok _ _ _)]
  exact ⟨_, _, rfl⟩

/-- An installation always succeeds. -/
theorem bootstrap_ok (w : World) : ∃ r, ((bootstrap E).exec w).1 = .ok r := by
  have hload : loadAccounts.exec w = (.ok w.accountsDoc, w) := rfl
  unfold bootstrap
  rw [Eff.exec_bind_ok hload]
  split
  · exact ⟨_, rfl⟩
  · have hpassword : (temporaryPassword E).exec w =
        (.ok ("AtMem-" ++ E.token w.draws), { w with draws := w.draws + 1 }) := rfl
    have hvalue : loadAccounts.exec { w with draws := w.draws + 1 } =
        (.ok w.accountsDoc, { w with draws := w.draws + 1 }) := rfl
    obtain ⟨a, w', ha⟩ := newAccount_ok (E := E) w.draws { w with draws := w.draws + 1 }
    rw [Eff.exec_bind_ok hpassword, Eff.exec_bind_ok hvalue, Eff.exec_bind_ok ha]
    exact ⟨_, rfl⟩

/-- There are accounts once there was an installation. -/
theorem rows_of_bootstrap {ks : List Call} (hmem : .bootstrap ∈ ks) : (reached E ks).rows ≠ [] := by
  induction ks using List.reverseRecOn with
  | nil => cases hmem
  | append_singleton ks k ih =>
    rw [reached_concat]
    rcases List.mem_append.mp hmem with hmem | hmem
    · rcases call_alone (sound_reached E ks) k with
        ⟨hf, -⟩ | ⟨-, w₁, _, _, _, _, _, hf, -, hsigns, -⟩
      · exact hf.since.accounts (ih hmem)
      · unfold World.rows
        rw [hsigns.accounts]
        exact hf.since.accounts (ih hmem)
    · obtain rfl := List.mem_singleton.mp hmem
      obtain ⟨r, hr⟩ := bootstrap_ok (E := E) (reached E ks)
      unfold Call.method
      rw [Eff.exec_map]
      exact (alone_bootstrap (sound_reached E ks)).2 r hr

/-- **Sessions follow the account.** A token is authenticated only where it
was returned by a sign-in to an account whose row is now, and has been ever
since, as it was then, and enabled; where nothing that ends its session has
returned since; where it was used within the idle bound, and is younger than
the absolute one. A sign-in is to an enabled account by its password, in a
bucket that is not held back. And once `bootstrap` was called there is an
enabled Administrator. -/
theorem sessions_follow_the_account (hsha : Function.Injective E.sha256) (ks : List Call) :
    (∀ token touch v,
      ((authenticateSession E token touch).exec (reached E ks)).1 = .ok (some v) →
      ∃ before k rest a s, ks = before ++ k :: rest ∧ k.SignsIn ∧
        answer E before k = .ok (.session s) ∧ s.sessionToken = token ∧
        a.enabled = true ∧ v.account = accountPublic a ∧
        (∀ mid, mid <+: rest →
          (reached E (before ++ k :: mid)).accountsDoc.row a.username = some a) ∧
        (∀ earlier k' later r, rest = earlier ++ k' :: later → k'.Ends token →
          answer E (before ++ k :: earlier) k' ≠ .ok r) ∧
        (∃ earlier k' later t, k :: rest = earlier ++ k' :: later ∧
          (earlier = [] ∨ k'.uses = some token) ∧ ReadBy E (before ++ earlier) k' t ∧
          E.clock (reached E ks).ticks < E.clock t + idle) ∧
        ∃ t, ReadBy E before k t ∧ E.clock (reached E ks).ticks < E.clock t + absolute) ∧
    (∀ username password source v,
      ((login E username password source).exec (reached E ks)).1 = .ok v →
      (∃ a, (reached E ks).accountsDoc.find (loginName username) = some a ∧ a.enabled = true ∧
        verify E a password = true) ∧
      ¬ ((reached E ks).sessionsDoc.throttleOf (loginName username ++ ":" ++ source)).Blocks
        (E.clock (reached E ks).ticks)) ∧
    (.bootstrap ∈ ks → ∃ a ∈ (reached E ks).rows, a.ActiveAdministrator) := by
  refine ⟨fun token touch v hv => ?_, fun username password source v hv => ?_, fun hmem => ?_⟩
  · have halone := alone_authenticateSession (sound_reached E ks) token touch
    obtain ⟨x, hx, a', htoken, ha', henabled, hrevision, hidle, habsolute, rfl⟩ :=
      (halone.2 _ hv).2 v rfl
    obtain ⟨before, k, rest, a, s, h⟩ := opening_of_stored E ks x hx
    obtain ⟨rfl, hrows⟩ := h.row_kept ha' hrevision
    -- a token is known by its hash
    have hs : s.sessionToken = token := hsha (h.token.symm.trans htoken)
    obtain ⟨t₀, hread₀, hbound₀⟩ := h.absolute
    obtain ⟨earlier, k', later, t, hsplit, huse, hread, hbound⟩ := h.used
    refine ⟨before, k, rest, a', s, h.calls, h.signsIn, h.answered, hs, henabled, rfl, hrows,
      fun earlier k' later r hsplit hends => h.kept earlier k' later r hsplit (hs ▸ hends),
      ⟨earlier, k', later, t, hsplit, ?_, hread, Int.lt_of_lt_of_le hidle hbound⟩,
      t₀, hread₀, hbound₀ ▸ habsolute⟩
    rcases huse with rfl | ⟨s', hs', hsame⟩
    · exact .inl rfl
    · refine .inr ?_
      rw [← hsha (hsame.trans htoken)]
      exact hs'
  · rcases login_alone (sound_reached E ks) username password source with
      ⟨e, he, -⟩ | ⟨a, v', -, hsigns⟩
    · rw [he] at hv
      cases hv
    · exact ⟨⟨a, hsigns.found, hsigns.enabled, hsigns.verified⟩, hsigns.free⟩
  · exact (sound_reached E ks).accounts.administered (rows_of_bootstrap hmem)

/-- The Administrator's first session. -/
theorem first_session_follows : ∃ before k rest s,
    [Call.bootstrap, .login "administrator" "AtMem-x" "loopback"] = before ++ k :: rest ∧
      k.SignsIn ∧ answer exampleEngine before k = .ok (.session s) ∧ s.sessionToken = "xxx" := by
  have hrun : ((authenticateSession exampleEngine "xxx" true).exec (reached exampleEngine
      [.bootstrap, .login "administrator" "AtMem-x" "loopback"])).1.toOption.join.isSome = true := by
    decide +kernel
  obtain ⟨v, hv⟩ := Option.isSome_iff_exists.mp hrun
  have hok := Checked.toOption_eq_some.mp (Option.join_eq_some_iff.mp hv)
  obtain ⟨before, k, rest, a, s, hks, hsigns, hanswer, htoken, -⟩ :=
    (sessions_follow_the_account (E := exampleEngine) Function.injective_id _).1 _ _ _ hok
  exact ⟨before, k, rest, s, hks, hsigns, hanswer, htoken⟩

end Atmem.Identity
