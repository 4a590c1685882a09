import Atmem.Common.Program
import Atmem.Contracts.Json
/-!
# The local identity service

`LocalIdentityService`, as programs whose atomic actions are the loads and
the writes of the two documents: the accounts with their audit, and the
sessions with the counters that hold sign-in back. A write is labelled with
the document its value was made from. An instant is a number of microseconds,
as its text is read back; a salt and a digest are the texts they are stored
as. What is drawn at random is the next unused draw; the token of a sign-in
is drawn where the session is stored, for nothing before that tells it
apart.
-/

namespace Atmem.Identity

/-! ## Roles, names and passwords -/

/-- `LocalRole`. -/
inductive LocalRole
  | viewer
  | investigator
  | evidenceCollector
  | administrator
deriving DecidableEq, Repr

/-- The value of a role. -/
def LocalRole.value : LocalRole → String
  | .viewer => "viewer"
  | .investigator => "investigator"
  | .evidenceCollector => "evidence_collector"
  | .administrator => "administrator"

/-- What the service raises. -/
inductive Raised
  | permissionError (message : String)
  | valueError (message : String)
  | assertionError
deriving DecidableEq, Repr

/-- `LocalRole(role)`. -/
def LocalRole.ofValue (role : String) : Except Raised LocalRole :=
  match [LocalRole.viewer, .investigator, .evidenceCollector, .administrator].find?
      (·.value = role) with
  | some r => .ok r
  | none => .error (.valueError (repr role ++ " is not a valid LocalRole"))

/-- `str.lower`, as far as a name goes: of the characters outside ASCII only
the Kelvin sign becomes one a name may have. -/
def lower (c : Char) : Char :=
  if c = Char.ofNat 0x212A then 'k' else c.toLower

/-- The characters a name begins with. -/
def isNameStart (c : Char) : Bool := ('a' ≤ c && c ≤ 'z') || ('0' ≤ c && c ≤ '9')

/-- `_USERNAME`, matched in full. -/
def isUsername : List Char → Bool
  | [] => false
  | c :: cs =>
    isNameStart c && cs.all (fun d => isNameStart d || d == '.' || d == '_' || d == '-') &&
      decide (2 ≤ cs.length ∧ cs.length ≤ 63)

/-- `normalize_username`. -/
def normalizeUsername (value : String) : Except Raised String :=
  let username := (strip value).map lower
  if isUsername username then .ok (String.ofList username)
  else .error (.valueError <|
    "username must be 3-64 lowercase ASCII letters, digits, '.', '_' or '-', and begin with " ++
    "a letter or digit")

/-- `validate_password`. -/
def validatePassword (password _username : String) : Except Raised Unit :=
  if password = "" then .error (.valueError "password cannot be empty") else .ok ()

/-! ## The rows -/

/-- The verifier of a password. -/
structure Verifier where
  format : String
  salt : String
  digest : String
deriving DecidableEq

/-- The scope of an account. -/
structure AccountScope where
  tenantId : String
  subjectId : String
  workspaceId : Option String
  runId : Option String
deriving DecidableEq

/-- An account, as its document holds it. -/
structure Account where
  username : String
  displayName : String
  role : LocalRole
  scope : AccountScope
  enabled : Bool
  revision : ℕ
  passwordChangeRequired : Bool
  password : Verifier
  createdAt : ℤ
  updatedAt : ℤ
deriving DecidableEq

/-- A row of the audit log. -/
structure AuditRow where
  operation : String
  actor : String
  target : String
  allowed : Bool
  recordedAt : ℤ
deriving DecidableEq

/-- A session, as its document holds it. -/
structure Session where
  tokenSha256 : String
  username : String
  accountRevision : ℕ
  csrfToken : String
  createdAt : ℤ
  lastSeenAt : ℤ
  idleExpiresAt : ℤ
  absoluteExpiresAt : ℤ
deriving DecidableEq

/-- What a bucket of sign-ins is held back by. -/
structure Throttle where
  failures : ℕ
  blockedUntil : Option ℤ
deriving DecidableEq

/-- The bucket is held back. -/
def Throttle.Blocks (t : Throttle) (now : ℤ) : Prop := ∃ until_ ∈ t.blockedUntil, now < until_

instance instDecidableBlocks (t : Throttle) (now : ℤ) : Decidable (t.Blocks now) :=
  inferInstanceAs (Decidable (∃ until_ ∈ t.blockedUntil, now < until_))

/-! ## The documents -/

/-- `atmem-local-accounts-v1`. -/
structure Accounts where
  accounts : List Account := []
  audit : List AuditRow := []
deriving DecidableEq

/-- `atmem-local-sessions-v1`. -/
structure Sessions where
  sessions : List Session := []
  throttle : List (String × Throttle) := []
deriving DecidableEq

namespace Account

/-- An account that may administer. -/
def ActiveAdministrator (a : Account) : Prop := a.enabled = true ∧ a.role = .administrator

instance instDecidableActiveAdministrator (a : Account) : Decidable a.ActiveAdministrator :=
  inferInstanceAs (Decidable (_ ∧ _))

end Account

namespace Accounts

/-- The row of a canonical name. -/
def row (d : Accounts) (username : String) : Option Account :=
  d.accounts.find? (·.username = username)

/-- `_find`. -/
def find (d : Accounts) (username : String) : Option Account :=
  match normalizeUsername username with
  | .ok canonical => d.row canonical
  | .error _ => none

/-- The first row of which `p` holds is written. -/
def amend (d : Accounts) (p : Account → Bool) (a : Account) : Accounts :=
  { d with accounts := d.accounts.replaceF fun x => if p x then some a else none }

end Accounts

namespace Sessions

/-- The session of a token. -/
def ofToken (d : Sessions) (digest : String) : Option Session :=
  d.sessions.find? (·.tokenSha256 = digest)

/-- The session is written in its place. -/
def amend (d : Sessions) (x : Session) : Sessions :=
  { d with sessions :=
      d.sessions.replaceF fun y => if y.tokenSha256 = x.tokenSha256 then some x else none }

/-- The session is taken out. -/
def drop (d : Sessions) (digest : String) : Sessions :=
  { d with sessions := d.sessions.eraseP (·.tokenSha256 = digest) }

/-- Every session of the token is taken out. -/
def dropAll (d : Sessions) (digest : String) : Sessions :=
  { d with sessions := d.sessions.filter (·.tokenSha256 ≠ digest) }

/-- What is kept of a bucket. -/
def throttleOf (d : Sessions) (bucket : String) : Throttle :=
  (d.throttle.lookup bucket).getD ⟨0, none⟩

/-- What is kept of a bucket is written. -/
def setThrottle (d : Sessions) (bucket : String) (t : Throttle) : Sessions :=
  { d with throttle := (bucket, t) :: d.throttle.filter (·.1 ≠ bucket) }

/-- What is kept of a bucket is forgotten. -/
def clearThrottle (d : Sessions) (bucket : String) : Sessions :=
  { d with throttle := d.throttle.filter (·.1 ≠ bucket) }

end Sessions

end Atmem.Identity

namespace Atmem.Identity

open Interleaving

/-- What the service is given by the platform: the readings of the clock, the
draws and the two digests. -/
structure Engine where
  subjectId : String
  clock : ℕ → ℤ
  /-- `secrets.token_urlsafe(32)`. -/
  token : ℕ → String
  /-- `secrets.token_urlsafe(24)`. -/
  csrf : ℕ → String
  /-- `os.urandom(16)`. -/
  salt : ℕ → String
  sha256 : String → String
  /-- `_password_hash`. -/
  scrypt : String → String → String

/-- The documents, where their files are there, and how much of the clock
and of the draws was read. -/
structure World where
  accounts : Option Accounts := none
  sessions : Option Sessions := none
  ticks : ℕ := 0
  draws : ℕ := 0

namespace World

/-- What a load of the accounts gives. -/
def accountsDoc (w : World) : Accounts := w.accounts.getD {}

/-- What a load of the sessions gives. -/
def sessionsDoc (w : World) : Sessions := w.sessions.getD {}

/-- The account rows that are stored. -/
def rows (w : World) : List Account := w.accountsDoc.accounts

/-- The sessions that are stored. -/
def stored (w : World) : List Session := w.sessionsDoc.sessions

end World

/-- The actions: what a write was made from, the row it writes and whether
it ends sessions. -/
inductive Action
  | clock
  | draw
  | loadAccounts
  | loadSessions
  | writeAccounts (loaded : Accounts) (row : Option String)
  | writeSessions (loaded : Sessions) (ends : Bool)

/-- A method of the service: reads and writes of its documents, one at a time. -/
abbrev Method := Eff Raised Action World

/-! ## Documents, clock and draws -/

/-- The document of the accounts is read. -/
def loadAccounts : Method Accounts := Eff.read .loadAccounts World.accountsDoc

/-- The document of the sessions is read. -/
def loadSessions : Method Sessions := Eff.read .loadSessions World.sessionsDoc

/-- The document of the accounts is replaced. -/
def writeAccounts (loaded : Accounts) (row : Option String) (value : Accounts) : Method Unit :=
  Eff.action (.writeAccounts loaded row) fun w => (.ok (), { w with accounts := some value })

/-- The document of the sessions is replaced. -/
def writeSessions (loaded : Sessions) (ends : Bool) (value : Sessions) : Method Unit :=
  Eff.action (.writeSessions loaded ends) fun w => (.ok (), { w with sessions := some value })

/-- The next reading. -/
def clock (E : Engine) : Method ℤ :=
  Eff.action .clock fun w => (.ok (E.clock w.ticks), { w with ticks := w.ticks + 1 })

/-- The next draw. -/
def draw : Method ℕ :=
  Eff.action .draw fun w => (.ok w.draws, { w with draws := w.draws + 1 })

/-- Seconds, in microseconds. -/
def seconds (n : ℤ) : ℤ := n * 1000000

/-- `IDLE`. -/
def idle : ℤ := seconds (30 * 60)

/-- `ABSOLUTE`. -/
def absolute : ℤ := seconds (12 * 3600)

section Methods

variable (E : Engine)

/-! ## Accounts -/

/-- `_audit`. -/
def audit (value : Accounts) (operation actor target : String) (allowed : Bool) :
    Method Accounts := do
  let now ← clock E
  pure { value with audit := value.audit ++ [⟨operation, actor, target, allowed, now⟩] }

/-- `_account_public`. -/
structure AccountView where
  username : String
  displayName : String
  role : LocalRole
  scope : AccountScope
  enabled : Bool
  passwordChangeRequired : Bool
  revision : ℕ
  createdAt : ℤ
  updatedAt : ℤ
deriving DecidableEq

/-- `_public`: an account without its secrets. -/
def accountPublic (a : Account) : AccountView where
  username := a.username
  displayName := if a.displayName = "" then a.username else a.displayName
  role := a.role
  scope := a.scope
  enabled := a.enabled
  passwordChangeRequired := a.passwordChangeRequired
  revision := a.revision
  createdAt := a.createdAt
  updatedAt := a.updatedAt

/-- `_temporary_password`. -/
def temporaryPassword : Method String := do
  let n ← draw
  pure ("AtMem-" ++ E.token n)

/-- A verifier with a salt that is drawn. -/
def newVerifier (password : String) : Method Verifier := do
  let n ← draw
  pure ⟨"scrypt-v1", E.salt n, E.scrypt password (E.salt n)⟩

/-- `_new_account`. -/
def newAccount (username password : String) (role : LocalRole) (displayName : String) :
    Method Account := do
  let canonical ← Eff.ofExcept id (normalizeUsername username)
  Eff.ofExcept id (validatePassword password canonical)
  let verifier ← newVerifier E password
  let now ← clock E
  pure
    { username := canonical
      displayName := String.ofList
        ((strip (if displayName = "" then canonical else displayName)).take 128)
      role
      scope := ⟨"local", E.subjectId, none, none⟩
      enabled := true
      revision := 1
      passwordChangeRequired := true
      password := verifier
      createdAt := now
      updatedAt := now }

/-- `_verify`. -/
def verify (a : Account) (password : String) : Bool :=
  a.password.format = "scrypt-v1" && E.scrypt password a.password.salt = a.password.digest

/-- `_replace_password`. -/
def replacePassword (a : Account) (password : String) (required : Bool) : Method Account := do
  Eff.ofExcept id (validatePassword password a.username)
  let verifier ← newVerifier E password
  let now ← clock E
  pure { a with
    password := verifier, passwordChangeRequired := required, revision := a.revision + 1,
    updatedAt := now }

/-! ## Sessions -/

/-- What a session is projected to. -/
structure SessionView where
  sessionToken : String
  csrfToken : String
  account : AccountView
  expiresAt : ℤ
deriving DecidableEq

/-- `_session_projection`. -/
def sessionProjection (x : Session) (token : String) : Method SessionView := do
  let accounts ← loadAccounts
  match accounts.find x.username with
  | some account => pure ⟨token, x.csrfToken, accountPublic account, x.absoluteExpiresAt⟩
  | none => throw (.permissionError "account no longer exists")

/-- The session of a sign-in to an account. -/
def newSession (a : Account) (now : ℤ) (n : ℕ) : Session where
  tokenSha256 := E.sha256 (E.token n)
  username := a.username
  accountRevision := a.revision
  csrfToken := E.csrf n
  createdAt := now
  lastSeenAt := now
  idleExpiresAt := now + idle
  absoluteExpiresAt := now + absolute

/-- The session is added, and the bucket forgotten. -/
def openSession (sessions : Sessions) (bucket : String) (a : Account) (now : ℤ) :
    Method (Session × String) :=
  Eff.action (.writeSessions sessions false) fun w =>
    (.ok (newSession E a now w.draws, E.token w.draws),
      { w with
        draws := w.draws + 1
        sessions := some { sessions.clearThrottle bucket with
          sessions := sessions.sessions ++ [newSession E a now w.draws] } })

/-- A sign-in that is refused is counted. -/
def refuseLogin (accounts : Accounts) (sessions : Sessions) (canonical bucket : String)
    (now : ℤ) : Method SessionView := do
  let failures := (sessions.throttleOf bucket).failures + 1
  if 5 ≤ failures then
    let value ← audit E accounts "login_failure_threshold" canonical canonical false
    writeAccounts accounts none value
    writeSessions sessions false
      (sessions.setThrottle bucket ⟨failures, some (now + seconds 30)⟩)
    throw (.permissionError "username or password is incorrect")
  else
    writeSessions sessions false (sessions.setThrottle bucket ⟨failures, none⟩)
    throw (.permissionError "username or password is incorrect")

/-- The account a sign-in is to, where it is allowed. -/
def signIn (accounts : Accounts) (canonical password : String) : Option Account :=
  (accounts.find canonical).filter fun a => a.enabled && verify E a password

/-- The name a sign-in is counted under. -/
def loginName (username : String) : String :=
  match normalizeUsername username with
  | .ok canonical => canonical
  | .error _ => "invalid"

/-- `login`. -/
def login (username password source : String) : Method SessionView := do
  let accounts ← loadAccounts
  let sessions ← loadSessions
  let canonical := loginName username
  let bucket := canonical ++ ":" ++ source
  let now ← clock E
  if (sessions.throttleOf bucket).Blocks now then
    throw (.permissionError "sign-in temporarily unavailable; wait and try again")
  else
    match signIn E accounts canonical password with
    | none => refuseLogin E accounts sessions canonical bucket now
    | some a => do
      let value ← audit E accounts "login" a.username a.username true
      writeAccounts accounts none value
      let (x, token) ← openSession E sessions bucket a now
      sessionProjection x token

/-- The session is good for the account it is of. -/
def Session.Lives (x : Session) (account : Option Account) (now : ℤ) : Prop :=
  ∃ a ∈ account, a.enabled = true ∧ a.revision = x.accountRevision ∧ now < x.idleExpiresAt ∧
    now < x.absoluteExpiresAt

instance instDecidableLives (x : Session) (account : Option Account) (now : ℤ) :
    Decidable (x.Lives account now) :=
  inferInstanceAs (Decidable (∃ a ∈ account, _))

/-- The session, used. -/
def Session.touched (x : Session) (now : ℤ) : Session :=
  { x with lastSeenAt := now, idleExpiresAt := min (now + idle) x.absoluteExpiresAt }

/-- `authenticate_session`. -/
def authenticateSession (token : String) (touch : Bool) : Method (Option SessionView) := do
  if token = "" then pure none
  else
    let value ← loadSessions
    match value.ofToken (E.sha256 token) with
    | none => pure none
    | some x => do
      let accounts ← loadAccounts
      let now ← clock E
      if x.Lives (accounts.find x.username) now then
        if touch then
          writeSessions value false (value.amend (x.touched now))
          some <$> sessionProjection (x.touched now) token
        else some <$> sessionProjection x token
      else
        writeSessions value false (value.drop (E.sha256 token))
        pure none

/-- `logout`. -/
def logout (token : String) : Method Unit := do
  let session ← authenticateSession E token false
  let value ← loadSessions
  writeSessions value true (value.dropAll (E.sha256 token))
  match session with
  | none => pure ()
  | some s => do
    let accounts ← loadAccounts
    let audited ← audit E accounts "logout" s.account.username s.account.username true
    writeAccounts accounts none audited

/-- Every session is ended; the buckets are kept. -/
def clearSessions : Method Unit := do
  let sessions ← loadSessions
  writeSessions sessions true { sessions with sessions := [] }

/-- Every session is ended, and the buckets are forgotten. -/
def resetSessions : Method ℕ := do
  let sessions ← loadSessions
  writeSessions sessions true {}
  pure sessions.sessions.length

/-- `change_password`. -/
def changePassword (token currentPassword newPassword : String) : Method SessionView := do
  match ← authenticateSession E token false with
  | none => throw (.permissionError "sign-in required")
  | some session => do
    let accounts ← loadAccounts
    match accounts.find session.account.username with
    | none => throw .assertionError
    | some a =>
      if a.passwordChangeRequired = false ∧ verify E a currentPassword = false then
        throw (.permissionError "current password is incorrect")
      else do
        let a' ← replacePassword E a newPassword false
        let value ← audit E (accounts.amend (·.username = a.username) a') "password_change"
          a.username a.username true
        writeAccounts accounts (some a.username) value
        clearSessions
        login E a.username newPassword "loopback"

/-! ## Administration -/

/-- An attempt to administer that is refused. -/
def denyAdministration (actor message : String) : Method SessionView := do
  let value ← loadAccounts
  let audited ← audit E value "administration_denied" actor "local-users" false
  writeAccounts value none audited
  throw (.permissionError message)

/-- `require_administrator`. -/
def requireAdministrator (token : String) (allowTemporary : Bool) : Method SessionView := do
  match ← authenticateSession E token true with
  | none => denyAdministration E "unauthenticated" "sign-in required"
  | some session =>
    if session.account.passwordChangeRequired = true ∧ allowTemporary = false then
      denyAdministration E session.account.username "password change required"
    else if session.account.role ≠ .administrator then
      denyAdministration E session.account.username "Administrator access required"
    else pure session

/-- `bootstrap`: whether an account was created, its name and its password. -/
def bootstrap : Method (Bool × String × Option String) := do
  -- `initialized`: a file that is not there has no accounts either
  let found ← loadAccounts
  if found.accounts ≠ [] then pure (false, "administrator", none)
  else
    let password ← temporaryPassword E
    let value ← loadAccounts
    let a ← newAccount E "administrator" password .administrator "Local Administrator"
    let audited ← audit E { value with accounts := [a] } "bootstrap" "local-os-owner"
      "administrator" true
    writeAccounts found none audited
    let sessions ← loadSessions
    writeSessions sessions false sessions
    pure (true, "administrator", some password)

/-- `revoke_all_sessions`. -/
def revokeAllSessions (token reason : String) : Method ℕ := do
  let session ← requireAdministrator E token false
  let revoked ← resetSessions
  let accounts ← loadAccounts
  let audited ← audit E accounts "sessions_revoked" session.account.username reason true
  writeAccounts accounts none audited
  pure revoked

/-- `list_users`. -/
def listUsers (token : String) : Method (List AccountView) := do
  let _ ← requireAdministrator E token false
  let value ← loadAccounts
  pure (value.accounts.map accountPublic)

/-- `security_audit`. -/
def securityAudit (token : String) (limit : ℤ) : Method (List AuditRow) := do
  let _ ← requireAdministrator E token false
  let value ← loadAccounts
  pure (value.audit.drop (value.audit.length - (max 1 (min limit 500)).toNat))

/-- `create_user`: the account and its password. -/
def createUser (token username role displayName : String) : Method (AccountView × String) := do
  let session ← requireAdministrator E token false
  let selected ← Eff.ofExcept id (LocalRole.ofValue role)
  let password ← temporaryPassword E
  let value ← loadAccounts
  let canonical ← Eff.ofExcept id (normalizeUsername username)
  match value.find canonical with
  | some _ => throw (.valueError "username already exists")
  | none => do
    let a ← newAccount E canonical password selected displayName
    let audited ← audit E { value with accounts := value.accounts ++ [a] } "user_create"
      session.account.username canonical true
    writeAccounts value (some a.username) audited
    pure (accountPublic a, password)

/-- The role an update asks for. -/
def askedRole (a : Account) : Option String → Except Raised LocalRole
  | some role => LocalRole.ofValue role
  | none => .ok a.role

/-- `update_user`. -/
def updateUser (token username : String) (enabled : Option Bool) (role : Option String) :
    Method AccountView := do
  let session ← requireAdministrator E token false
  let value ← loadAccounts
  match value.find username with
  | none => throw (.valueError "user not found")
  | some a => do
    let newRole ← Eff.ofExcept id (askedRole a role)
    let newEnabled := enabled.getD a.enabled
    if a.role = .administrator ∧ (newRole ≠ a.role ∨ newEnabled = false) ∧
        value.accounts.countP (·.ActiveAdministrator) ≤ 1 then
      throw (.valueError "the final enabled Administrator cannot be disabled or demoted")
    else
      let now ← clock E
      let a' : Account :=
        { a with
          role := newRole, enabled := newEnabled, revision := a.revision + 1, updatedAt := now }
      let audited ← audit E (value.amend (·.username = a.username) a') "user_update"
        session.account.username a.username true
      writeAccounts value (some a.username) audited
      pure (accountPublic a')

/-- `reset_password`: the account and its password. -/
def resetPassword (token username : String) : Method (AccountView × String) := do
  let session ← requireAdministrator E token false
  let value ← loadAccounts
  match value.find username with
  | none => throw (.valueError "user not found")
  | some a => do
    let password ← temporaryPassword E
    let a' ← replacePassword E a password true
    let audited ← audit E (value.amend (·.username = a.username) a') "password_reset"
      session.account.username a.username true
    writeAccounts value (some a.username) audited
    pure (accountPublic a', password)

/-- `recover_administrator`: the name and the password. `owned` is what the
file system says of the two files and their directory. -/
def recoverAdministrator (confirmation : String) (owned : Bool) : Method (String × String) := do
  if confirmation ≠ "RECOVER LOCAL ADMINISTRATOR" then
    throw (.valueError "type RECOVER LOCAL ADMINISTRATOR to confirm")
  else if owned = false then
    throw (.permissionError <|
      "local identity files must be owned by the current OS user and not group/other writable")
  else
    let value ← loadAccounts
    match value.accounts.find? (·.role = .administrator) with
    | none => throw (.valueError "no local Administrator exists")
    | some a => do
      let password ← temporaryPassword E
      let a' ← replacePassword E { a with enabled := true } password true
      let audited ← audit E (value.amend (·.role = .administrator) a') "administrator_recovery"
        "local-os-owner" a.username true
      writeAccounts value (some a.username) audited
      let _ ← resetSessions
      pure (a.username, password)

end Methods

/-! ## Calls -/

/-- The operations, with what they are called with. -/
inductive Call
  | bootstrap
  | login (username password source : String)
  | authenticateSession (token : String) (touch : Bool)
  | logout (token : String)
  | changePassword (token currentPassword newPassword : String)
  | requireAdministrator (token : String) (allowTemporary : Bool)
  | revokeAllSessions (token reason : String)
  | listUsers (token : String)
  | securityAudit (token : String) (limit : ℤ)
  | createUser (token username role displayName : String)
  | updateUser (token username : String) (enabled : Option Bool) (role : Option String)
  | resetPassword (token username : String)
  | recoverAdministrator (confirmation : String) (owned : Bool)
deriving DecidableEq

/-- What an operation returns. -/
inductive Reply
  | nothing
  | bootstrapped (created : Bool) (username : String) (password : Option String)
  | session (s : SessionView)
  | revoked (count : ℕ)
  | users (rows : List AccountView)
  | events (rows : List AuditRow)
  | account (a : AccountView) (temporaryPassword : Option String)
  | recovered (username password : String)
deriving DecidableEq

/-- A session, or none. -/
def Reply.ofSession : Option SessionView → Reply
  | some s => .session s
  | none => .nothing

/-- The operation a call runs. -/
def Call.method (E : Engine) : Call → Method Reply
  | .bootstrap => (fun r => .bootstrapped r.1 r.2.1 r.2.2) <$> Identity.bootstrap E
  | .login username password source => .session <$> Identity.login E username password source
  | .authenticateSession token touch =>
    Reply.ofSession <$> Identity.authenticateSession E token touch
  | .logout token => (fun _ => .nothing) <$> Identity.logout E token
  | .changePassword token currentPassword newPassword =>
    .session <$> Identity.changePassword E token currentPassword newPassword
  | .requireAdministrator token allowTemporary =>
    .session <$> Identity.requireAdministrator E token allowTemporary
  | .revokeAllSessions token reason => .revoked <$> Identity.revokeAllSessions E token reason
  | .listUsers token => .users <$> Identity.listUsers E token
  | .securityAudit token limit => .events <$> Identity.securityAudit E token limit
  | .createUser token username role displayName =>
    (fun r => .account r.1 (some r.2)) <$> Identity.createUser E token username role displayName
  | .updateUser token username enabled role =>
    (fun a => .account a none) <$> Identity.updateUser E token username enabled role
  | .resetPassword token username =>
    (fun r => .account r.1 (some r.2)) <$> Identity.resetPassword E token username
  | .recoverAdministrator confirmation owned =>
    (fun r => .recovered r.1 r.2) <$> Identity.recoverAdministrator E confirmation owned

end Atmem.Identity
