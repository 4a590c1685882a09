import Atmem.Common.Checked
import Atmem.Evidence.Helpers.Sealed
import Atmem.Evidence.Model.Transitions
/-!
# What operations of the service do to accounts and objects

Whatever reads and captures leaves the accounts alone and every object where
it is. A rotation leaves the objects under envelope keys alone, and seals
those of an old vault anew, each with its own document.
-/

namespace Atmem.Evidence

open Interleaving Relational

variable {Cipher : Type} {E : Engine Cipher} {S : Surroundings} {v v' : Vault Cipher}
variable {key newKey : Key} {draw : ℕ}

/-! ## Appending -/

/-- **An append is a row after the others**, sealed under a data key. -/
theorem append_rows {document : List (String × Json)} {partition : String} {r : Receipt}
    (h : v.append E key draw document partition = .ok (r, v')) :
    ∃ (o : ObjectRow Cipher) (d : Key), v'.objects.rows = v.objects.rows ++ [o] ∧
      o.slotId ≠ none ∧ o.ciphertext = sealJson E d o.objectId o.nonce
        (Vault.sealedDocument o.objectId o.sequence (E.utcNow draw) document) := by
  unfold Vault.append at h
  simp only [Checked.bind_eq_ok_iff] at h
  obtain ⟨⟨slotId, d, v₁⟩, hkey, h⟩ := h
  have hobjects : v₁.objects = v.objects := by
    unfold Vault.dataKey at hkey
    split at hkey
    · obtain ⟨d', -, hkey⟩ := Checked.bind_eq_ok_iff.mp hkey
      cases hkey
      rfl
    · dsimp only at hkey
      split at hkey
      · cases hkey
        rfl
      · cases hkey
  dsimp only at h
  split at h
  · rename_i objects hinsert
    cases h
    have hrows := (Table.insert_eq_some.mp hinsert).2
    rw [hobjects] at hrows
    exact ⟨_, d, hrows, nofun, rfl⟩
  · cases h

/-- The document that is sealed in an object names it. -/
def ObjectRow.Named (E : Engine Cipher) (o : ObjectRow Cipher) : Prop :=
  ∃ d kvs, o.ciphertext = sealJson E d o.objectId o.nonce kvs ∧
    objectIdOf E (.obj kvs) = .ok o.objectId

/-- What is sealed of a document names the object, where the document does
not itself bring an identifier. -/
theorem objectIdOf_sealedDocument {document : List (String × Json)} {objectId recordedAt : String}
    {sequence : ℕ} (hid : "object_id" ∉ document.map (·.1)) :
    objectIdOf E (.obj (Vault.sealedDocument objectId sequence recordedAt document)) =
      .ok objectId := by
  have hlookup : (Vault.sealedDocument objectId sequence recordedAt document).lookup "object_id" =
      some (.str objectId) := by
    unfold Vault.sealedDocument Vault.merge
    rw [List.lookup_append]
    by_cases hformat : "format" ∈ document.map (·.1)
    · simp [List.filter_cons, hformat, hid]
    · simp [List.filter_cons, hformat, hid, List.lookup_cons]
  unfold objectIdOf
  rw [show Json.get? (.obj _) "object_id" = some (.str objectId) from hlookup]
  rfl

/-- Every object is still there, and what is new names itself. -/
structure Vault.Grows (E : Engine Cipher) (v v' : Vault Cipher) : Prop where
  kept : ∀ o ∈ v.objects.rows, o ∈ v'.objects.rows
  named : ∀ o ∈ v'.objects.rows, o ∈ v.objects.rows ∨ o.Named E

/-- Every document names the object it is sealed in. -/
def Vault.Named (E : Engine Cipher) (v : Vault Cipher) : Prop := ∀ o ∈ v.objects.rows, o.Named E

/-- A vault that grows keeps its objects named. -/
theorem Vault.Grows.keepsNames (h : v.Grows E v') (hnamed : v.Named E) : v'.Named E :=
  fun o ho => (h.named o ho).elim (hnamed o) id

theorem Vault.Grows.refl (v : Vault Cipher) : v.Grows E v := ⟨fun _ ho => ho, fun _ ho => .inl ho⟩

/-- Growing twice is growing. -/
theorem Vault.Grows.trans {v₁ v₂ v₃ : Vault Cipher} (h : v₁.Grows E v₂) (h' : v₂.Grows E v₃) :
    v₁.Grows E v₃ := by
  refine ⟨fun o ho => h'.kept o (h.kept o ho), fun o ho => ?_⟩
  rcases h'.named o ho with hbefore | hnamed
  · exact h.named o hbefore
  · exact .inr hnamed

/-- An append only adds. -/
theorem grows_append {document : List (String × Json)} {partition : String} {r : Receipt}
    (hid : "object_id" ∉ document.map (·.1))
    (h : v.append E key draw document partition = .ok (r, v')) : v.Grows E v' := by
  obtain ⟨o, d, hrows, -, hsealed⟩ := append_rows h
  refine ⟨fun o' ho' => ?_, fun o' ho' => ?_⟩
  · rw [hrows]
    exact List.mem_append_left _ ho'
  · rw [hrows] at ho'
    rcases List.mem_append.mp ho' with hbefore | hnew
    · exact .inl hbefore
    · rw [List.mem_singleton.mp hnew]
      exact .inr ⟨d, _, hsealed, objectIdOf_sealedDocument hid⟩

/-! ## The state of the service -/

/-- The accounts are as they were, and every object is still there. -/
def Root.Grows (E : Engine Cipher) (r r' : Root Cipher) : Prop :=
  r'.accounts = r.accounts ∧ r.world.vault.Grows E r'.world.vault

theorem Root.Grows.refl (r : Root Cipher) : r.Grows E r := ⟨rfl, .refl _⟩

theorem Root.Grows.trans (r₁ r₂ r₃ : Root Cipher) (h : r₁.Grows E r₂) (h' : r₂.Grows E r₃) :
    r₁.Grows E r₃ :=
  ⟨h'.1.trans h.1, h.2.trans h'.2⟩

/-- A method that does no more than that, action by action. -/
abbrev Svc.Grows {α : Type} (E : Engine Cipher) (x : Svc Cipher α) : Prop :=
  Eff.Within (Root.Grows E) x

/-- What a method does to the vault is to add. -/
theorem Svc.Grows.exec {α : Type} {x : Svc Cipher α} (hx : x.Grows E) (r : Root Cipher) :
    r.Grows E (x.exec r).2 :=
  Eff.Within.exec Root.Grows.refl Root.Grows.trans hx r

/-- A method that works on the vault. -/
theorem grows_onVault {α : Type} {x : Action Cipher α}
    (hx : Eff.Within (fun w w' : World Cipher => w.vault.Grows E w'.vault) x) :
    Svc.Grows E (onVault x) :=
  Prog.Within.zoom (fun _ _ h => ⟨rfl, h⟩) hx

theorem grows_inspect {α : Type} {point : Point Cipher} {f : Vault Cipher → Except Raised α} :
    Eff.Within (fun w w' : World Cipher => w.vault.Grows E w'.vault) (inspect point f) :=
  Eff.Within.action fun _ => .refl _

theorem grows_appendAction {document : List (String × Json)} {partition : String}
    (hid : "object_id" ∉ document.map (·.1)) :
    Eff.Within (fun w w' : World Cipher => w.vault.Grows E w'.vault)
      (append E key document partition) := by
  refine Eff.Within.action fun w => ?_
  dsimp only
  rcases hrun : w.vault.append E key w.draws document partition with e | ⟨r, v'⟩
  · exact .refl _
  · exact grows_append hid hrun

/-- What is recorded of an access brings no identifier. -/
theorem objectId_notMem_audit {p : EvidencePrincipal} {operation : String} {target : EvidenceScope}
    {allowed : Bool} {detail : List (String × Json)} : "object_id" ∉
      (Vault.merge [("record_type", .str "access")] (audit p operation target allowed detail)).map
        (·.1) := by
  simp [Vault.merge, audit]

/-- An access is added to the vault. -/
theorem grows_accessEvent {value : List (String × Json)}
    (hid : "object_id" ∉ (Vault.merge [("record_type", .str "access")] value).map (·.1)) :
    Eff.Within (fun w w' : World Cipher => w.vault.Grows E w'.vault) (accessEvent E key value) :=
  .bind .ofExcept fun _ => grows_appendAction hid

/-- So is what is captured. -/
theorem grows_capture {envelope : Json} :
    Eff.Within (fun w w' : World Cipher => w.vault.Grows E w'.vault) (capture E key envelope) := by
  refine .bind grows_inspect fun mode => ?_
  split
  · exact .pure
  · refine .bind ?_ fun replay => .bind ?_ fun _ => .pure
    · unfold lookForReplay
      split
      · exact grows_inspect
      · exact .pure
    · rcases replay with - | replay
      · exact grows_appendAction (by simp [evidenceDocument])
      · exact .pure

/-- A result touches nothing. -/
theorem grows_liftSvc {α : Type} {r : Except Raised α} : (liftSvc r : Svc Cipher α).Grows E :=
  .ofExcept

theorem grows_requireKey {held : Option Key} : (requireKey held : Svc Cipher Key).Grows E := by
  cases held <;> trivial

theorem grows_recordAccess {held : Option Key} {p : EvidencePrincipal} {operation : String}
    {target : EvidenceScope} {allowed : Bool} {detail : List (String × Json)} :
    (recordAccess E held p operation target allowed detail).Grows E :=
  .bind grows_requireKey fun _ =>
    .bind (grows_onVault (grows_accessEvent objectId_notMem_audit)) fun _ => .pure

/-- A denial is added, and raised again. -/
theorem grows_recordDenial {α : Type} {held : Option Key} {p : EvidencePrincipal}
    {operation : EvidenceOperation} {target : EvidenceScope} {x : Svc Cipher α} (hx : x.Grows E) :
    (recordDenial E held p operation target x).Grows E := by
  refine .tryCatch hx fun e => ?_
  split
  · exact .bind grows_recordAccess fun _ => .throw
  · exact .throw

theorem grows_readDocuments : (readDocuments E key).Grows E := grows_onVault grows_inspect

/-- A method that raises first, or goes on. -/
theorem grows_guard {α : Type} {c : Prop} [Decidable c] {e : Raised} {rest : PUnit → Svc Cipher α}
    (hrest : ∀ u, (rest u).Grows E) : Svc.Grows E (if c then throw e >>= rest else rest ⟨⟩) := by
  split
  · exact .bind .throw hrest
  · exact hrest _

/-! ## Reading -/

theorem grows_events {held : Option Key} {p : EvidencePrincipal} {runId : String} :
    (events E S held p runId).Grows E :=
  .bind grows_liftSvc fun _ => .bind (grows_recordDenial grows_liftSvc) fun _ =>
    .bind grows_requireKey fun _ => .bind grows_readDocuments fun _ => .bind grows_liftSvc fun _ =>
      .bind grows_recordAccess fun _ => .pure

theorem grows_hasRunSession {held : Option Key} {p : EvidencePrincipal} {runId sessionId : String} :
    (hasRunSession E held p runId sessionId).Grows E :=
  .bind grows_liftSvc fun _ => .bind (grows_recordDenial grows_liftSvc) fun _ =>
    .bind grows_requireKey fun _ => .bind grows_readDocuments fun _ => .bind grows_liftSvc fun _ =>
      .bind grows_recordAccess fun _ => .pure

theorem grows_reconstruct {held : Option Key} {p : EvidencePrincipal} {runId : String} :
    (reconstruct E S held p runId).Grows E :=
  .bind grows_liftSvc fun _ => .bind (grows_recordDenial grows_liftSvc) fun _ =>
    .bind grows_events fun _ => .bind grows_recordAccess fun _ => .pure

/-- A search adds its access, and reads. -/
theorem grows_search {held : Option Key} {p : EvidencePrincipal} {query : String} :
    (search E S held p query).Grows E := by
  unfold search
  dsimp only
  exact grows_guard fun _ =>
    .bind (grows_recordDenial grows_liftSvc) fun _ => .bind grows_requireKey fun _ =>
      .bind grows_readDocuments fun _ => .bind grows_liftSvc fun _ =>
        .bind grows_recordAccess fun _ => .pure

theorem grows_replayManifest {held : Option Key} {p : EvidencePrincipal} {runId : String} :
    (replayManifest E S held p runId).Grows E :=
  .bind grows_liftSvc fun _ => .bind (grows_recordDenial grows_liftSvc) fun _ =>
    .bind grows_events fun _ => .bind grows_recordAccess fun _ => .pure

/-- An export adds its access, and reads. -/
theorem grows_plaintextExport {held : Option Key} {p : EvidencePrincipal}
    {runId confirmation : String} : (plaintextExport E S held p runId confirmation).Grows E := by
  refine .bind grows_liftSvc fun target => .bind (grows_recordDenial ?_) fun _ =>
    .bind (.tryCatch ?_ fun _ => .pure) fun outcome => ?_
  · refine .bind grows_liftSvc fun _ => ?_
    split
    · exact .throw
    · exact .pure
  · exact .bind grows_requireKey fun _ => .bind grows_readDocuments fun _ =>
      .bind grows_liftSvc fun _ => .pure
  · rcases outcome with e | text
    · exact .bind grows_recordAccess fun _ => .throw
    · exact .bind grows_recordAccess fun _ => .pure

theorem grows_recipientExport {held : Option Key} {p : EvidencePrincipal} {runId : String} :
    (recipientExport E S held p runId).Grows E :=
  .bind grows_liftSvc fun _ => grows_recordDenial <|
    .bind grows_liftSvc fun _ => .bind grows_events fun _ => .bind grows_recordAccess fun _ => .pure

/-! ## Capturing -/

theorem grows_serviceCapture {held : Option Key} {envelope : Json} :
    (serviceCapture E S held envelope).Grows E := by
  refine .bind grows_liftSvc fun _ => .bind grows_requireKey fun _ =>
    .bind (grows_onVault grows_inspect) fun mode => ?_
  dsimp only
  split
  · exact .bind grows_liftSvc fun _ => .bind (grows_onVault grows_capture) fun _ => .pure
  · exact .bind .pure fun _ => .bind (grows_onVault grows_capture) fun _ => .pure

/-- Two documents are appended. -/
theorem grows_appends {v₁ v₂ : Vault Cipher} {o o' : Receipt}
    {document document' : List (String × Json)} {partition partition' : String}
    (hid : "object_id" ∉ document.map (·.1)) (hid' : "object_id" ∉ document'.map (·.1))
    (hfirst : v.append E key draw document partition = .ok (o, v₁))
    (hsecond : v₁.append E key (draw + 1) document' partition' = .ok (o', v₂)) : v.Grows E v₂ :=
  (grows_append hid hfirst).trans (grows_append hid' hsecond)

/-- The mode and its record are two rows after the others. -/
theorem grows_setCaptureMode {p : EvidencePrincipal} {target : EvidenceScope} {mode : CaptureMode}
    {u : Unit} (h : v.setCaptureMode E key draw p target mode = .ok (u, v')) : v.Grows E v' := by
  unfold Vault.setCaptureMode at h
  dsimp only at h
  split at h
  · obtain ⟨workflows, -, h⟩ := Checked.bind_eq_ok_iff.mp h
    obtain ⟨busy, -, h⟩ := Checked.bind_eq_ok_iff.mp h
    split at h
    · cases h
    · simp only [Checked.bind_eq_ok_iff] at h
      obtain ⟨⟨r, v₁⟩, hfirst, ⟨r', v₂⟩, hsecond, h⟩ := h
      cases h
      exact grows_appends (by simp) objectId_notMem_audit hfirst hsecond
  · simp only [Checked.bind_eq_ok_iff] at h
    obtain ⟨⟨r, v₁⟩, hfirst, ⟨r', v₂⟩, hsecond, h⟩ := h
    cases h
    exact grows_appends (by simp) objectId_notMem_audit hfirst hsecond

theorem grows_serviceSetCaptureMode {held : Option Key} {p : EvidencePrincipal}
    {mode : CaptureMode} : (serviceSetCaptureMode E held p mode).Grows E := by
  refine .bind grows_liftSvc fun target => .bind grows_liftSvc fun _ =>
    .bind grows_requireKey fun key => grows_onVault (Eff.Within.action fun w => ?_)
  rcases hrun : w.vault.setCaptureMode E key w.draws p target mode with e | ⟨u, v'⟩
  · exact .refl _
  · exact grows_setCaptureMode hrun

/-! ## Locking -/

/-- An action on a file other than the accounts and the vault. -/
theorem grows_file {α : Type} {place : Place Cipher} {run : Root Cipher → Except Raised α × Root Cipher}
    (hrun : ∀ r, (run r).2.accounts = r.accounts ∧ (run r).2.world = r.world) :
    Svc.Grows E (.action place run : Svc Cipher α) := by
  refine Eff.Within.action fun r => ⟨(hrun r).1, ?_⟩
  rw [(hrun r).2]
  exact .refl _

theorem grows_loadKey : Svc.Grows E (loadKey : Svc Cipher (Option Key)) :=
  grows_file fun _ => ⟨rfl, rfl⟩

theorem grows_readLocked : Svc.Grows E (readLocked : Svc Cipher (Option Key)) :=
  grows_file fun _ => ⟨rfl, rfl⟩

theorem grows_writeLocked : Svc.Grows E (writeLocked key : Svc Cipher Unit) := by
  refine grows_file fun r => ?_
  split <;> exact ⟨rfl, rfl⟩

theorem grows_unlinkLocked : Svc.Grows E (unlinkLocked : Svc Cipher Unit) := by
  refine grows_file fun r => ?_
  split <;> exact ⟨rfl, rfl⟩

theorem grows_writeKey : Svc.Grows E (writeKey key : Svc Cipher Unit) := by
  refine grows_file fun r => ?_
  split <;> exact ⟨rfl, rfl⟩

theorem grows_unlinkKey : Svc.Grows E (unlinkKey : Svc Cipher Unit) := by
  refine grows_file fun r => ?_
  split <;> exact ⟨rfl, rfl⟩

theorem grows_protectionStatus {held : Option Key} : (protectionStatus E held).Grows E := by
  rcases held with - | key
  · exact .pure
  · exact .bind (grows_onVault grows_inspect) fun _ =>
      .bind (grows_onVault grows_inspect) fun _ => .pure

/-- Locking adds its access. -/
theorem grows_lock {p : EvidencePrincipal} {confirmation : String} :
    (lock E p confirmation).Grows E := by
  refine .bind grows_loadKey fun held => .bind grows_liftSvc fun _ => ?_
  dsimp only
  refine grows_guard fun _ => ?_
  rcases held with - | key
  · exact grows_protectionStatus
  · exact .bind grows_recordAccess fun _ => .bind grows_writeLocked fun _ =>
      .bind grows_unlinkKey fun _ => grows_protectionStatus

theorem grows_unlockWith {p : EvidencePrincipal} {locked : Option Key} :
    (unlockWith E p locked).Grows E := by
  rcases locked with - | candidate
  · exact .throw
  · refine .bind (grows_onVault grows_inspect) fun opens => ?_
    dsimp only
    exact grows_guard fun _ => .bind grows_writeKey fun _ => .bind grows_unlinkLocked fun _ =>
      .bind grows_recordAccess fun _ => grows_protectionStatus

/-- So does unlocking. -/
theorem grows_unlock {p : EvidencePrincipal} {confirmation : String} :
    (unlock E p confirmation).Grows E := by
  refine .bind grows_loadKey fun held => .bind grows_liftSvc fun _ => ?_
  dsimp only
  refine grows_guard fun _ => ?_
  rcases held with - | key
  · exact .bind grows_readLocked fun _ => grows_unlockWith
  · exact grows_protectionStatus

/-! ## Rotating -/

/-- The object, sealed anew: in its place, with its document. -/
structure ObjectRow.SealedAnew (E : Engine Cipher) (key newKey : Key) (o o' : ObjectRow Cipher) :
    Prop where
  objectId : o'.objectId = o.objectId
  sequence : o'.sequence = o.sequence
  slotId : o'.slotId = none
  document : ∃ kvs, openJson E key o.objectId o.nonce o.ciphertext = .ok (.obj kvs) ∧
    openJson E newKey o'.objectId o'.nonce o'.ciphertext = .ok (.obj kvs)

/-- **What a rotation does to the objects**: those under envelope keys are
there as they were, those of an old vault are sealed anew. -/
structure Reseals (E : Engine Cipher) (key newKey : Key) (v v' : Vault Cipher) : Prop where
  kept : ∀ o ∈ v.objects.rows, o.slotId ≠ none → o ∈ v'.objects.rows
  legacy : ∀ o ∈ v.objects.rows, o.slotId = none →
    ∃ o' ∈ v'.objects.rows, o.SealedAnew E key newKey o'
  named : v.Named E → v'.Named E

/-- There and back. -/
theorem Reseals.trans {v'' : Vault Cipher} {key' : Key} (h : Reseals E key newKey v v')
    (h' : Reseals E newKey key' v' v'') : Reseals E key key' v v'' := by
  refine ⟨fun o ho hslot => h'.kept o (h.kept o ho hslot) hslot, fun o ho hslot => ?_,
    fun hnamed => h'.named (h.named hnamed)⟩
  obtain ⟨o', ho', hid, hsequence, hslot', kvs, hopen, hopen'⟩ := h.legacy o ho hslot
  obtain ⟨o'', ho'', hid', hsequence', hslot'', kvs', hagain, hopen''⟩ := h'.legacy o' ho' hslot'
  rw [hopen'] at hagain
  cases hagain
  exact ⟨o'', ho'', hid'.trans hid, hsequence'.trans hsequence, hslot'', kvs, hopen, hopen''⟩

/-- Rewrapping a data key changes no object. -/
theorem objects_rewrap {nonce : ByteArray} {r : Rewrap Cipher}
    (h : v.rewrap E newKey nonce r = .ok v') : v'.objects = v.objects := by
  unfold Vault.rewrap at h
  split at h
  · cases h
    rfl
  · cases h

/-- Nor does rewrapping them all. -/
theorem objects_rewrapAll {slots : List (SlotRow Cipher)}
    (h : Vault.rewrapAll E key newKey draw slots v = .ok v') : v'.objects = v.objects := by
  induction slots generalizing v with
  | nil =>
    cases h
    rfl
  | cons slot slots ih =>
    unfold Vault.rewrapAll at h
    obtain ⟨found, -, hafter⟩ := Checked.bind_eq_ok_iff.mp h
    rcases found with - | r
    · exact ih hafter
    · obtain ⟨v₁, hrewrap, hlast⟩ := Checked.bind_eq_ok_iff.mp hafter
      rw [ih hlast, objects_rewrap hrewrap]

/-- What is opened is an object. -/
theorem openJson_obj {objectId : String} {nonce : ByteArray} {ciphertext : Cipher} {j : Json}
    (h : openJson E key objectId nonce ciphertext = .ok j) : ∃ kvs, j = .obj kvs := by
  unfold openJson at h
  split at h
  · cases h
    exact ⟨_, rfl⟩
  · cases h
  · cases h

/-- An identifier names one object. -/
theorem object_eq_of_objectId {t : Table (ObjectRow Cipher) ObjectRow.key objectClash}
    {a b : ObjectRow Cipher} (ha : a ∈ t.rows) (hb : b ∈ t.rows) (h : a.objectId = b.objectId) :
    a = b := by
  have hclash : ∀ a b : ObjectRow Cipher, a.objectId = b.objectId →
      objectClash a.key b.key = true := fun a b h => by simp [objectClash, ObjectRow.key, h]
  exact Table.eq_of_id_eq hclash ha hb h

/-- The loop over the old objects, with some still to come. -/
structure Resealing (E : Engine Cipher) (key newKey : Key) (v₀ : Vault Cipher)
    (pending : List (ObjectRow Cipher)) (v : Vault Cipher) : Prop where
  kept : ∀ o ∈ v₀.objects.rows, o.slotId ≠ none → o ∈ v.objects.rows
  legacy : ∀ o ∈ v₀.objects.rows, o.slotId = none →
    (o ∈ v.objects.rows ∧ o ∈ pending) ∨ ∃ o' ∈ v.objects.rows, o.SealedAnew E key newKey o'
  named : v₀.Named E → v.Named E

/-- **One object is sealed anew.** -/
theorem Resealing.step (hE : E.Authenticated) {v₀ : Vault Cipher} {l : ObjectRow Cipher}
    {pending : List (ObjectRow Cipher)} {nonce : ByteArray} {kvs : List (String × Json)}
    {objects : Table (ObjectRow Cipher) ObjectRow.key objectClash}
    (h : Resealing E key newKey v₀ (l :: pending) v) (hl : l ∈ v₀.objects.rows)
    (hslot : l.slotId = none)
    (hopen : openJson E key l.objectId l.nonce l.ciphertext = .ok (.obj kvs))
    (hok : (v.objects.rewrite (·.objectId = l.objectId) fun row =>
      { row with nonce, ciphertext := sealJson E newKey l.objectId nonce kvs }) = some objects) :
    Resealing E key newKey v₀ pending { v with objects } := by
  have hrows := Table.rows_of_rewrite hok
  have hother : ∀ o ∈ v.objects.rows, o.objectId ≠ l.objectId → o ∈ objects.rows := by
    intro o ho hid
    rw [hrows]
    exact List.mem_map.mpr ⟨o, ho, if_neg (by simpa using hid)⟩
  have hsealed : ∀ o ∈ v.objects.rows, o.objectId = l.objectId → o.sequence = l.sequence →
      o.slotId = none → ∃ o' ∈ objects.rows, l.SealedAnew E key newKey o' := by
    intro o ho hid hsequence hnone
    have hmem : { o with nonce, ciphertext := sealJson E newKey l.objectId nonce kvs } ∈
        objects.rows := by
      rw [hrows]
      exact List.mem_map.mpr ⟨o, ho, if_pos (by simpa using hid)⟩
    refine ⟨_, hmem, hid, hsequence, hnone, kvs, hopen, ?_⟩
    show openJson E newKey o.objectId nonce (sealJson E newKey l.objectId nonce kvs) = _
    rw [hid]
    exact openJson_sealJson hE ..
  refine ⟨fun o ho hsome => hother o (h.kept o ho hsome) fun hid => ?_, fun o ho hnone => ?_,
    fun hnamed o ho => ?_⟩
  · -- an object in a slot is not the one that is sealed anew
    obtain rfl := object_eq_of_objectId ho hl hid
    exact hsome hslot
  · -- one without a slot is that one, or stays as it is
    by_cases hid : o.objectId = l.objectId
    · obtain rfl := object_eq_of_objectId ho hl hid
      rcases h.legacy o ho hnone with ⟨hmem, -⟩ | ⟨o', ho', hanew⟩
      · exact Or.inr (hsealed o hmem rfl rfl hnone)
      · exact Or.inr (hsealed o' ho' hanew.objectId hanew.sequence hanew.slotId)
    · rcases h.legacy o ho hnone with ⟨hmem, hpending⟩ | ⟨o', ho', hanew⟩
      · refine Or.inl ⟨hother o hmem hid, ?_⟩
        rcases List.mem_cons.mp hpending with rfl | hpending
        · exact absurd rfl hid
        · exact hpending
      · exact Or.inr ⟨o', hother o' ho' (by rw [hanew.objectId]; exact hid), hanew⟩
  · -- the document that is sealed anew is the one that was opened
    rw [hrows] at ho
    obtain ⟨before, hbefore, rfl⟩ := List.mem_map.mp ho
    split
    · rename_i hid
      have hid : before.objectId = l.objectId := by simpa using hid
      obtain ⟨d, kvs', hsealed, hnames⟩ := hnamed l hl
      rw [hsealed] at hopen
      cases (openJson_eq_ok hE hopen).2
      refine ⟨newKey, kvs, ?_, ?_⟩
      · show sealJson E newKey l.objectId nonce kvs = sealJson E newKey before.objectId nonce kvs
        rw [hid]
      · show objectIdOf E (.obj kvs) = .ok before.objectId
        rw [hid]
        exact hnames
    · exact h.named hnamed before hbefore

/-- **The loop seals every old object anew.** -/
theorem Resealing.all (hE : E.Authenticated) {v₀ : Vault Cipher} :
    ∀ {pending : List (ObjectRow Cipher)} {v v' : Vault Cipher},
      Resealing E key newKey v₀ pending v →
      (∀ l ∈ pending, l ∈ v₀.objects.rows ∧ l.slotId = none) →
      Vault.reencryptAll E key newKey draw pending v = .ok v' →
        Resealing E key newKey v₀ [] v' := by
  intro pending
  induction pending with
  | nil =>
    intro v v' h _ hok
    cases hok
    exact h
  | cons l pending ih =>
    intro v v' h hold hok
    unfold Vault.reencryptAll at hok
    obtain ⟨document, hopen, hafter⟩ := Checked.bind_eq_ok_iff.mp hok
    obtain ⟨kvs, rfl⟩ := openJson_obj hopen
    dsimp only at hafter
    split at hafter
    · rename_i objects hrewrite
      obtain ⟨hl, hslot⟩ := hold l List.mem_cons_self
      exact ih (h.step hE hl hslot hopen hrewrite)
        (fun u hu => hold u (List.mem_cons_of_mem _ hu)) hafter
    · cases hafter

/-- The transaction of a rotation, on the old objects that are there. -/
theorem reseals_rotate (hE : E.Authenticated) {first : Option (Rewrap Cipher)}
    {slots : List (SlotRow Cipher)}
    (h : v.rotate E key newKey draw first slots (v.objects.rows.filter (·.slotId = none)) =
      .ok v') : Reseals E key newKey v v' := by
  unfold Vault.rotate at h
  obtain ⟨v₁, hfirst, h₁⟩ := Checked.bind_eq_ok_iff.mp h
  obtain ⟨v₂, hall, hlegacy⟩ := Checked.bind_eq_ok_iff.mp h₁
  have hobjects : v₂.objects = v.objects := by
    rw [objects_rewrapAll hall]
    rcases first with - | r
    · cases hfirst
      rfl
    · exact objects_rewrap hfirst
  have hstart : Resealing E key newKey v (v.objects.rows.filter (·.slotId = none)) v₂ := by
    refine ⟨fun o ho _ => by rwa [hobjects], fun o ho hnone => Or.inl ⟨by rwa [hobjects], ?_⟩,
      fun hnamed o ho => hnamed o (by rwa [hobjects] at ho)⟩
    exact List.mem_filter.mpr ⟨ho, by simpa using hnone⟩
  have hdone := hstart.all hE (fun l hl => ?_) hlegacy
  · refine ⟨hdone.kept, fun o ho hnone => ?_, hdone.named⟩
    rcases hdone.legacy o ho hnone with ⟨-, hpending⟩ | hanew
    · cases hpending
    · exact hanew
  · obtain ⟨hmem, hslot⟩ := List.mem_filter.mp hl
    exact ⟨hmem, by simpa using hslot⟩

/-- Looking for the first slot changes nothing. -/
theorem exec_seekSlot (E : Engine Cipher) (key : Key) (slots : List (SlotRow Cipher))
    (w : World Cipher) :
    ((seekSlot E key slots).exec w).2 = w := by
  induction slots with
  | nil => rfl
  | cons slot slots ih =>
    unfold seekSlot
    rw [Eff.exec_bind, inspect, Eff.exec_action]
    rcases w.vault.rewrapOf E key slot with e | found
    · rfl
    · rcases found with - | r
      · exact ih
      · rfl

/-- **A rotation with nobody in between**: the objects are sealed anew, or
nothing is done. -/
theorem exec_rotateKey (hE : E.Authenticated) (key newKey : Key) (w : World Cipher) :
    (∃ n, ((rotateKey E key newKey).exec w).1 = .ok n ∧
        Reseals E key newKey w.vault ((rotateKey E key newKey).exec w).2.vault) ∨
      ((∃ e, ((rotateKey E key newKey).exec w).1 = .error e) ∧
        ((rotateKey E key newKey).exec w).2.vault = w.vault) := by
  unfold rotateKey
  simp only [Eff.exec_bind, inspect, Eff.exec_action]
  unfold commitRotation
  simp only [Eff.exec_bind]
  have hseek := exec_seekSlot E key
    (w.vault.slots.rows.insertionSort fun a b => a.slotId ≤ b.slotId) w
  rcases hfound : (seekSlot E key
    (w.vault.slots.rows.insertionSort fun a b => a.slotId ≤ b.slotId)).exec w with ⟨e | found, w₁⟩
  · rw [hfound] at hseek
    cases hseek
    exact Or.inr ⟨⟨e, rfl⟩, rfl⟩
  · rw [hfound] at hseek
    cases hseek
    simp only [Eff.exec_action]
    rcases hrun : w₁.vault.rotate E key newKey w₁.draws found.1 found.2
      (w₁.vault.objects.rows.filter (·.slotId = none)) with e | v'
    · exact Or.inr ⟨⟨e, rfl⟩, rfl⟩
    · exact Or.inl ⟨_, rfl, reseals_rotate hE hrun⟩

end Atmem.Evidence
