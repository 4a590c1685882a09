import Atmem.Evidence.Model.Service
/-!
# Key transitions, and the start of a service

Rotating the key of the vault, locking it away and bringing it back are
sequences of durable steps, and share a lock; the start of a service resumes a
rotation that was cut off, and does not take the lock.
-/

namespace Atmem.Evidence

open Interleaving Relational

variable {Cipher : Type} (E : Engine Cipher)

/-! ## Files -/

/-- The key file, as it is read under the lock. -/
def loadKey : Svc Cipher (Option Key) := Eff.read .keyFile Root.keyFile

/-- `write_key`, over what is there. -/
def replaceKey (key : Key) : Svc Cipher Unit :=
  .action .keyFile fun r => (.ok (), { r with keyFile := some key })

/-- `write_key`, where nothing is there. -/
def writeKey (key : Key) : Svc Cipher Unit :=
  .action .keyFile fun r =>
    match r.keyFile with
    | some _ => (.error .fileExistsError, r)
    | none => (.ok (), { r with keyFile := some key })

/-- `key_path.unlink()`. -/
def unlinkKey : Svc Cipher Unit :=
  .action .keyFile fun r =>
    match r.keyFile with
    | some _ => (.ok (), { r with keyFile := none })
    | none => (.error .fileNotFoundError, r)

/-- `_write_rotation_journal`: the new key, sealed under the key that is
held. -/
def writeJournal (key newKey : Key) : Svc Cipher Unit :=
  .action .journal fun r =>
    match r.journal with
    | some _ => (.error .fileExistsError, r)
    | none => (.ok (), { r with journal := some ⟨key, newKey⟩ })

/-- `rotation_path.unlink(missing_ok=True)`. -/
def unlinkJournal : Svc Cipher Unit :=
  .action .journal fun r => (.ok (), { r with journal := none })

/-- The key is sealed under the identity key, in a file that is not there
yet. -/
def writeLocked (key : Key) : Svc Cipher Unit :=
  .action .lockedKey fun r =>
    match r.lockedKey with
    | some _ => (.error .fileExistsError, r)
    | none => (.ok (), { r with lockedKey := some key })

/-- The key as it stands while the service is locked. -/
def readLocked : Svc Cipher (Option Key) := Eff.read .lockedKey Root.lockedKey

/-- `locked_key_path.unlink()`. -/
def unlinkLocked : Svc Cipher Unit :=
  .action .lockedKey fun r =>
    match r.lockedKey with
    | some _ => (.ok (), { r with lockedKey := none })
    | none => (.error .fileNotFoundError, r)

/-- `reencrypt_control_container`, where there is a container: it is left
alone where it is under the new key. -/
def reencryptControl (key newKey : Key) : Svc Cipher Unit :=
  .action .control fun r =>
    match r.control with
    | none => (.ok (), r)
    | some under =>
      if under = newKey then (.ok (), r)
      else if under = key then (.ok (), { r with control := some newKey })
      else (.error .invalidTag, r)

/-- `_key_opens_vault`: the key opens the first document, where there is
one. -/
def Vault.opensWith (v : Vault Cipher) (key : Key) : Bool :=
  match v.inSequence with
  | [] => true
  | o :: _ => (v.openObject E key o).isOk

/-- Every object of the vault is opened by the key. -/
def keyOpensVault (key : Key) : Svc Cipher Bool :=
  onVault (inspect .scan fun v => .ok (v.opensWith E key))

/-! ## Transitions -/

/-- What follows the rotation of the vault, within `try`. -/
def adoptKey (key newKey : Key) : Svc Cipher Unit := do
  reencryptControl key newKey
  replaceKey newKey

/-- `except Exception`: the vault and the container are brought back. -/
def restoreKey (key newKey : Key) (e : Raised) : Svc Cipher Unit := do
  discard (onVault (rotateKey E newKey key))
  reencryptControl newKey key
  throw e

/-- The rotation, where the key is held. -/
def rotateHeld (p : EvidencePrincipal) (key newKey : Key) : Svc Cipher (ℕ × ℕ) := do
  writeJournal key newKey
  let result ← onVault (rotateKey E key newKey)
  tryCatch (adoptKey key newKey) (restoreKey E key newKey)
  unlinkJournal
  recordAccess E (some newKey) p "rotate" p.scope true
    [("rewrapped_slots", .int result.1), ("reencrypted_legacy_objects", .int result.2)]
  pure result

/-- What is within `try`. -/
def rotateAuthorized (held : Option Key) (p : EvidencePrincipal) (confirmation : String)
    (newKey : Key) : Svc Cipher (ℕ × ℕ) := do
  liftSvc (p.authorize .rotate p.scope)
  if confirmation ≠ "ROTATE EVIDENCE KEY" then
    throw (.permissionError "key rotation requires exact confirmation")
  match held with
  | none => throw (.permissionError "evidence vault is locked")
  | some key => rotateHeld E p key newKey

/-- `rotate_key`, to a key that is drawn. -/
def serviceRotateKey (p : EvidencePrincipal) (confirmation : String) (newKey : Key) :
    Svc Cipher (ℕ × ℕ) := do
  let held ← loadKey
  recordDenial E held p .rotate p.scope (rotateAuthorized E held p confirmation newKey)

/-- `protection_status`: the capture mode and the number of objects, where
the vault is not locked. -/
def protectionStatus (held : Option Key) : Svc Cipher (Option (CaptureMode × ℕ)) :=
  match held with
  | none => pure none
  | some key => do
    let mode ← onVault (inspect .mode fun v => captureMode E (v.documents E key))
    let objects ← onVault (inspect .mode fun v => .ok v.objects.rows.length)
    pure (some (mode, objects))

/-- The key that is held goes into the locked file, and the key file goes. -/
def lockHeld (p : EvidencePrincipal) (key : Key) : Svc Cipher (Option (CaptureMode × ℕ)) := do
  recordAccess E (some key) p "lock" p.scope true []
  writeLocked key
  unlinkKey
  protectionStatus E none

/-- `lock`. -/
def lock (p : EvidencePrincipal) (confirmation : String) :
    Svc Cipher (Option (CaptureMode × ℕ)) := do
  let held ← loadKey
  liftSvc (p.authorize .lock p.scope)
  if confirmation ≠ "LOCK EVIDENCE" then
    throw (.permissionError "locking evidence requires exact confirmation")
  match held with
  | none => protectionStatus E none
  | some key => lockHeld E p key

/-- The key of the locked file, where it opens the vault, goes back. -/
def unlockWith (p : EvidencePrincipal) : Option Key → Svc Cipher (Option (CaptureMode × ℕ))
  | none => throw (.permissionError "no application-locked evidence key is available")
  | some candidate => do
    let opens ← keyOpensVault E candidate
    if !opens then throw (.permissionError "locked evidence key does not open this vault")
    writeKey candidate
    unlinkLocked
    recordAccess E (some candidate) p "unlock" p.scope true []
    protectionStatus E (some candidate)

/-- `unlock`. -/
def unlock (p : EvidencePrincipal) (confirmation : String) :
    Svc Cipher (Option (CaptureMode × ℕ)) := do
  let held ← loadKey
  liftSvc (p.authorize .unlock p.scope)
  if confirmation ≠ "UNLOCK EVIDENCE" then
    throw (.permissionError "unlocking evidence requires exact confirmation")
  match held with
  | some key => protectionStatus E (some key)
  | none => unlockWith E p (← readLocked)

/-! ## Calls -/

/-- An operation of the service. -/
inductive ServiceOperation
  | setCaptureMode (mode : CaptureMode)
  | capture (envelope : Json)
  | events (runId : String)
  | hasRunSession (runId sessionId : String)
  | reconstruct (runId : String)
  | search (query : String)
  | replayManifest (runId : String)
  | plaintextExport (runId confirmation : String)
  | recipientExport (runId : String)
  | grant (principalId : String) (role : EvidenceRole) (scope : EvidenceScope)
      (salt tokenDigest : String)
  | revoke (principalId : String)
  | deleteRun (runId confirmation : String)
  | rotateKey (confirmation : String) (newKey : Key)
  | lock (confirmation : String)
  | unlock (confirmation : String)

/-- An operation a principal asks for, of an instance that holds a key or is
locked. -/
structure ServiceCall where
  held : Option Key
  principal : EvidencePrincipal
  operation : ServiceOperation

/-- What a call does, whatever it is answered. -/
def ServiceCall.body (S : Surroundings) (k : ServiceCall) : Svc Cipher Unit :=
  match k.operation with
  | .setCaptureMode mode => serviceSetCaptureMode E k.held k.principal mode
  | .capture envelope => discard (serviceCapture E S k.held envelope)
  | .events runId => discard (events E S k.held k.principal runId)
  | .hasRunSession runId sessionId => discard (hasRunSession E k.held k.principal runId sessionId)
  | .reconstruct runId => discard (reconstruct E S k.held k.principal runId)
  | .search query => discard (search E S k.held k.principal query)
  | .replayManifest runId => discard (replayManifest E S k.held k.principal runId)
  | .plaintextExport runId confirmation =>
    discard (plaintextExport E S k.held k.principal runId confirmation)
  | .recipientExport runId => discard (recipientExport E S k.held k.principal runId)
  | .grant principalId role scope salt tokenDigest =>
    grant E k.held k.principal principalId role scope salt tokenDigest
  | .revoke principalId => discard (revoke E k.held k.principal principalId)
  | .deleteRun runId confirmation =>
    discard (serviceDeleteRun E k.held k.principal runId confirmation)
  | .rotateKey confirmation newKey =>
    discard (serviceRotateKey E k.principal confirmation newKey)
  | .lock confirmation => discard (lock E k.principal confirmation)
  | .unlock confirmation => discard (unlock E k.principal confirmation)

end Atmem.Evidence
