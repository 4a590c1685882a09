import Atmem.Evidence.Helpers.Effects
import Atmem.Evidence.Properties.OneKey
/-!
# Principals and their scopes

What an operation of the service may do to objects and accounts that the
scope of the principal does not permit: nothing. A grant keeps to that; a
revocation goes by the name of the account alone, and a deletion by the
identifier of the run, though it checks the workflow of that run.
-/

namespace Atmem.Evidence

open Interleaving Relational
open Json (field)

variable {Cipher : Type} {E : Engine Cipher} {S : Surroundings} {v v' : Vault Cipher}
variable {key newKey : Key} {draw : ℕ} {p : EvidencePrincipal} {held : Option Key}
variable {r r' : Root Cipher}

/-! ## What is in scope -/

/-- The document is of a scope the principal's permits. An event of a workflow
is of the scopes of the workflow, as far as it is there. -/
inductive InScope (E : Engine Cipher) (p : EvidencePrincipal)
    (documents : List (Except Raised Json)) : Json → Prop
  | evidence {document envelope : Json} {scope : EvidenceScope}
      (htype : field document "record_type" = .str "evidence")
      (henvelope : envelopeOf document = .ok envelope)
      (hscope : scopeFromEnvelope E envelope = .ok scope)
      (hpermits : p.scope.permits scope = true) : InScope E p documents document
  | continuity {document : Json} {runId : String} {scope : EvidenceScope}
      (htype : field document "record_type" = .str "continuity")
      (hworkflow : nestedItem document "workflow" "workflow_id" = .ok (.str runId))
      (hscope : scopeOfWorkflow E runId document = .ok scope)
      (hpermits : p.scope.permits scope = true) : InScope E p documents document
  | event {document : Json} {runId : String}
      (htype : field document "record_type" = .str "continuity_event")
      (hworkflow : field document "workflow_id" = .str runId)
      (hpermits : ∀ workflow, .ok workflow ∈ documents →
        field workflow "record_type" = .str "continuity" →
        nestedItem workflow "workflow" "workflow_id" = .ok (.str runId) →
        ∃ scope, scopeOfWorkflow E runId workflow = .ok scope ∧ p.scope.permits scope = true) :
      InScope E p documents document

/-- **What a principal changes is in its scope.** An object outside is there
as it was, or, where the key is rotated and the object is of an old vault, in
its place and with its document; an account outside is as it was. -/
structure KeepsToScope (E : Engine Cipher) (k : ServiceCall) (r r' : Root Cipher) : Prop where
  objects : ∀ o ∈ r.world.vault.objects.rows,
    o ∈ r'.world.vault.objects.rows ∨
    (o.slotId = none ∧ ∃ key newKey, r.keyFile = some key ∧
      ∃ o' ∈ r'.world.vault.objects.rows, o.SealedAnew E key newKey o') ∨
    ∃ key document, k.held = some key ∧ r.world.vault.openObject E key o = .ok document ∧
      InScope E k.principal (r.world.vault.documents E key) document
  accounts : ∀ (i : ℕ) (row : Account), r.accounts[i]? = some row →
    r'.accounts[i]? = some row ∨
    (k.principal.scope.permits row.scope = true ∧
      r'.accounts[i]? = some { row with revoked := true })
  granted : ∀ row ∈ r'.accounts.drop r.accounts.length,
    k.principal.scope.permits row.scope = true

/-! ## Records of access -/

/-- An object that records an access. -/
def ObjectRow.RecordsAccess (E : Engine Cipher) (o : ObjectRow Cipher) : Prop :=
  o.slotId ≠ none ∧ ∃ d kvs, o.ciphertext = sealJson E d o.objectId o.nonce kvs ∧
    objectIdOf E (.obj kvs) = .ok o.objectId ∧ field (.obj kvs) "record_type" = .str "access"

/-- Accesses are recorded, and nothing else is done. -/
def Root.Logs (E : Engine Cipher) (r r' : Root Cipher) : Prop :=
  r'.accounts = r.accounts ∧ ∃ records : List (ObjectRow Cipher),
    r'.world.vault.objects.rows = r.world.vault.objects.rows ++ records ∧
      ∀ o ∈ records, o.RecordsAccess E

theorem Root.Logs.refl (r : Root Cipher) : r.Logs E r :=
  ⟨rfl, [], (List.append_nil _).symm, fun _ h => absurd h List.not_mem_nil⟩

theorem Root.Logs.trans (r₁ r₂ r₃ : Root Cipher) (h : r₁.Logs E r₂) (h' : r₂.Logs E r₃) :
    r₁.Logs E r₃ := by
  obtain ⟨haccounts, records, hrows, hall⟩ := h
  obtain ⟨haccounts', records', hrows', hall'⟩ := h'
  refine ⟨haccounts'.trans haccounts, records ++ records', ?_, fun o ho => ?_⟩
  · rw [hrows', hrows, List.append_assoc]
  · rcases List.mem_append.mp ho with ho | ho
    · exact hall o ho
    · exact hall' o ho

/-- What is sealed of a record says that it is one. -/
theorem recordType_audit {objectId recordedAt operation : String} {sequence : ℕ}
    {target : EvidenceScope} {allowed : Bool} {detail : List (String × Json)} :
    field (.obj (Vault.sealedDocument objectId sequence recordedAt
      (Vault.merge [("record_type", .str "access")] (audit p operation target allowed detail))))
      "record_type" = .str "access" := by
  simp [field, Vault.sealedDocument, Vault.merge, audit, Json.get?, List.lookup]

/-- Recording an access is all that happens. -/
theorem logs_recordAccess {operation : String} {target : EvidenceScope} {allowed : Bool}
    {detail : List (String × Json)} :
    Eff.Within (Root.Logs E) (recordAccess E held p operation target allowed detail) := by
  refine .bind ?_ fun key => .bind (Prog.Within.zoom (P := fun w w' : World Cipher =>
    ∃ records : List (ObjectRow Cipher), w'.vault.objects.rows = w.vault.objects.rows ++ records ∧
      ∀ o ∈ records, o.RecordsAccess E) (fun _ _ h => ⟨rfl, h⟩) ?_) fun _ => .pure
  · cases held <;> trivial
  refine Eff.Within.bind .ofExcept fun runId => Eff.Within.action fun w => ?_
  dsimp only
  split
  · rename_i happend
    obtain ⟨o, d, hrows, hslot, hsealed⟩ := append_rows happend
    refine ⟨[o], hrows, fun o' ho' => ?_⟩
    obtain rfl := List.mem_singleton.mp ho'
    exact ⟨hslot, d, _, hsealed, objectIdOf_sealedDocument objectId_notMem_audit,
      recordType_audit⟩
  · exact ⟨[], (List.append_nil _).symm, fun _ h => absurd h List.not_mem_nil⟩

/-- Logging an access is growing. -/
theorem Root.Logs.grows (h : r.Logs E r') : r.Grows E r' := by
  obtain ⟨haccounts, records, hrows, hall⟩ := h
  refine ⟨haccounts, fun o ho => ?_, fun o ho => ?_⟩
  · rw [hrows]
    exact List.mem_append_left _ ho
  · rw [hrows] at ho
    rcases List.mem_append.mp ho with hbefore | hnew
    · exact .inl hbefore
    · obtain ⟨-, d, kvs, hsealed, hnames, -⟩ := hall o hnew
      exact .inr ⟨d, kvs, hsealed, hnames⟩

/-- So it is at every state. -/
theorem exec_recordAccess (held : Option Key) (p : EvidencePrincipal) (operation : String)
    (target : EvidenceScope) (allowed : Bool) (detail : List (String × Json)) (r : Root Cipher) :
    r.Logs E ((recordAccess E held p operation target allowed detail).exec r).2 :=
  logs_recordAccess.exec Root.Logs.refl Root.Logs.trans r

/-- What is recorded of a denial comes after what was done. -/
theorem exec_recordDenial {α : Type} (held : Option Key) (p : EvidencePrincipal)
    (operation : EvidenceOperation) (target : EvidenceScope) (x : Svc Cipher α) (r : Root Cipher) :
    (x.exec r).2.Logs E ((recordDenial E held p operation target x).exec r).2 := by
  unfold recordDenial
  rw [Eff.exec_tryCatch]
  rcases x.exec r with ⟨e | a, r₁⟩
  swap
  · exact .refl _
  dsimp only
  split
  · rw [Eff.exec_bind]
    have hlogs : r₁.Logs E _ := exec_recordAccess held p operation.value target false [] r₁
    rcases hrun : (recordAccess E held p operation.value target false []).exec r₁ with ⟨e' | u, r₂⟩ <;>
      rw [hrun] at hlogs <;> exact hlogs
  · exact .refl _

/-- Work on the vault leaves the files. -/
theorem exec_onVault {α : Type} (x : Action Cipher α) (r : Root Cipher) :
    (onVault x).exec r = ((x.exec r.world).1, { r with world := (x.exec r.world).2 }) := by
  have hview : ∀ (r : Root Cipher) (w : World Cipher), { r with world := w }.world = w :=
    fun _ _ => rfl
  have hself : ∀ r : Root Cipher, { r with world := r.world } = r := fun _ => rfl
  have htwice : ∀ (r : Root Cipher) (w w' : World Cipher),
      { { r with world := w } with world := w' } = { r with world := w' } := fun _ _ _ => rfl
  exact Prog.exec_zoom hview hself htwice x r

/-! ## Rotating -/

/-- The accounts are as they were, and the objects are sealed anew. -/
def Root.Reseals (E : Engine Cipher) (key newKey : Key) (r r' : Root Cipher) : Prop :=
  r'.accounts = r.accounts ∧ Evidence.Reseals E key newKey r.world.vault r'.world.vault

/-- The accounts and the vault are as they were. -/
def Root.Same (r r' : Root Cipher) : Prop :=
  r'.accounts = r.accounts ∧ r'.world = r.world

theorem Root.Same.refl (r : Root Cipher) : r.Same r := ⟨rfl, rfl⟩

theorem Root.Same.trans (r₁ r₂ r₃ : Root Cipher) (h : r₁.Same r₂) (h' : r₂.Same r₃) :
    r₁.Same r₃ := ⟨h'.1.trans h.1, h'.2.trans h.2⟩

/-- The control files are encrypted again; the vault stays. -/
theorem same_reencryptControl :
    Eff.Within Root.Same (reencryptControl key newKey : Svc Cipher Unit) := by
  refine .action fun r => ?_
  split
  · exact .refl r
  · split
    · exact .refl r
    · split
      · exact ⟨rfl, rfl⟩
      · exact .refl r

/-- Adopting a key leaves the vault. -/
theorem exec_adoptKey (key newKey : Key) (r : Root Cipher) :
    r.Same ((adoptKey key newKey : Svc Cipher Unit).exec r).2 :=
  Eff.Within.exec .refl .trans (.bind same_reencryptControl fun _ => .action fun _ => ⟨rfl, rfl⟩) r

/-- What a sequence ends with is what its last part leaves, where that part
keeps to `P`. -/
theorem exec_bind_within {α β : Type} {P : Root Cipher → Root Cipher → Prop}
    (hrefl : ∀ r, P r r) {x : Svc Cipher α} {f : α → Svc Cipher β}
    (hf : ∀ a r, P r ((f a).exec r).2) (r : Root Cipher) :
    P (x.exec r).2 ((x >>= f).exec r).2 := by
  rw [Eff.exec_bind]
  rcases x.exec r with ⟨e | a, r₁⟩
  · exact hrefl r₁
  · exact hf a r₁

/-- Bringing back seals the objects anew once more, or does nothing. -/
theorem exec_restoreKey (hE : E.Authenticated) (key newKey : Key) (e : Raised) (r : Root Cipher) :
    (((restoreKey E key newKey e).exec r).2.accounts = r.accounts ∧
      ((restoreKey E key newKey e).exec r).2.world.vault = r.world.vault) ∨
    r.Reseals E newKey key ((restoreKey E key newKey e).exec r).2 := by
  have hrest : ∀ (u : Unit) (r : Root Cipher), r.Same ((do
      reencryptControl newKey key
      throw e : Svc Cipher Unit).exec r).2 := fun _ =>
    Eff.Within.exec .refl .trans (.bind same_reencryptControl fun _ => .throw)
  have hsame := exec_bind_within (x := discard (onVault (rotateKey E newKey key))) .refl hrest r
  have hfirst : ((discard (onVault (rotateKey E newKey key)) : Svc Cipher Unit).exec r).2 =
      { r with world := ((rotateKey E newKey key).exec r.world).2 } := by
    rw [show (discard (onVault (rotateKey E newKey key)) : Svc Cipher Unit) =
      (fun _ => ()) <$> onVault (rotateKey E newKey key) from rfl, Eff.exec_map, exec_onVault]
  rw [hfirst] at hsame
  obtain ⟨haccounts, hworld⟩ := hsame
  have hworld' : ((restoreKey E key newKey e).exec r).2.world =
    ((rotateKey E newKey key).exec r.world).2 := hworld
  rcases exec_rotateKey hE newKey key r.world with
    ⟨n, -, hreseals⟩ | ⟨-, hvault⟩
  · exact Or.inr ⟨haccounts, by rw [hworld']; exact hreseals⟩
  · exact Or.inl ⟨haccounts, by rw [hworld']; exact hvault⟩

/-- The objects are still there, or were sealed anew, with accesses recorded
since. -/
def Root.Rotates (E : Engine Cipher) (key : Key) (r r' : Root Cipher) : Prop :=
  r.Grows E r' ∨ ∃ newKey r₁, r.Reseals E key newKey r₁ ∧ r₁.Grows E r'

theorem Root.Same.grows (h : r.Same r') : r.Grows E r' := by
  refine ⟨h.1, ?_⟩
  rw [h.2]
  exact .refl _

/-- A rotation after nothing is a rotation. -/
theorem Root.Rotates.of_same (h : r.Same r') {r'' : Root Cipher} (h' : r'.Rotates E key r'') :
    r.Rotates E key r'' := by
  rcases h' with h' | ⟨newKey, r₁, ⟨haccounts, hreseals⟩, hgrows⟩
  · exact Or.inl (h.grows.trans _ _ _ h')
  · rw [h.2] at hreseals
    exact Or.inr ⟨newKey, r₁, ⟨haccounts.trans h.1, hreseals⟩, hgrows⟩

/-- After the vault is rotated: the key is adopted, or brought back. -/
theorem exec_settleKey (hE : E.Authenticated) (h : r.Reseals E key newKey r') :
    ∃ newKey' r₁, r.Reseals E key newKey' r₁ ∧
      r₁.Grows E ((tryCatch (adoptKey key newKey) (restoreKey E key newKey) :
        Svc Cipher Unit).exec r').2 := by
  rw [Eff.exec_tryCatch]
  have hadopt := exec_adoptKey key newKey r'
  rcases hrun : (adoptKey key newKey : Svc Cipher Unit).exec r' with ⟨e | u, r₁⟩ <;>
    rw [hrun] at hadopt <;> dsimp only at hadopt ⊢
  · rcases exec_restoreKey hE key newKey e r₁ with ⟨haccounts, hvault⟩ | hback
    · refine ⟨newKey, r', h, haccounts.trans hadopt.1, ?_⟩
      rw [hvault, hadopt.2]
      exact .refl _
    · refine ⟨key, _, ⟨hback.1.trans (hadopt.1.trans h.1), ?_⟩, .refl _⟩
      have hagain := hback.2
      rw [hadopt.2] at hagain
      exact h.2.trans hagain
  · exact ⟨newKey, r', h, hadopt.grows⟩

/-- A rotation with the key that is held. -/
theorem exec_rotateHeld (hE : E.Authenticated) (r : Root Cipher) :
    r.Rotates E key ((rotateHeld E p key newKey).exec r).2 := by
  -- the journal, the vault, the key, and the record
  unfold rotateHeld
  rw [Eff.exec_bind]
  have hjournal : r.Same ((writeJournal key newKey : Svc Cipher Unit).exec r).2 := by
    unfold writeJournal
    rw [Eff.exec_action]
    split <;> exact ⟨rfl, rfl⟩
  rcases hrun : (writeJournal key newKey : Svc Cipher Unit).exec r with ⟨e | u, r₀⟩ <;>
    rw [hrun] at hjournal <;> dsimp only at hjournal ⊢
  · exact Or.inl hjournal.grows
  refine Root.Rotates.of_same hjournal ?_
  rw [Eff.exec_bind, exec_onVault]
  rcases hvault : (rotateKey E key newKey).exec r₀.world with ⟨e | n, w⟩
  · rcases exec_rotateKey hE key newKey r₀.world with
      ⟨n, hok, -⟩ | ⟨-, hsame⟩
    · rw [hvault] at hok
      cases hok
    · rw [hvault] at hsame
      refine Or.inl ⟨rfl, ?_⟩
      show r₀.world.vault.Grows E w.vault
      rw [hsame]
      exact .refl _
  · rcases exec_rotateKey hE key newKey r₀.world with
      ⟨n', hok, hreseals⟩ | ⟨⟨e, herror⟩, -⟩
    · rw [hvault] at hreseals
      have hsealed₀ : r₀.Reseals E key newKey { r₀ with world := w } := ⟨rfl, hreseals⟩
      obtain ⟨newKey', r₁, hsealed, hgrows⟩ := exec_settleKey hE hsealed₀
      refine Or.inr ⟨newKey', r₁, hsealed, hgrows.trans _ _ _ ?_⟩
      refine exec_bind_within (P := Root.Grows E) .refl (fun u r => Svc.Grows.exec ?_ r) _
      exact .bind (grows_file fun _ => ⟨rfl, rfl⟩) fun _ => .bind grows_recordAccess fun _ => .pure
    · rw [hvault] at herror
      cases herror

/-- A check, and what follows where it passes. -/
theorem exec_liftSvc_bind {α β : Type} (x : Except Raised α) (f : α → Svc Cipher β)
    (r : Root Cipher) : (liftSvc x >>= f).exec r = match x with
      | .ok a => (f a).exec r
      | .error e => (.error e, r) := by
  rcases x with e | a <;> rfl

/-- A rotation that was asked for happens, or only leaves its trace. -/
theorem exec_rotateAuthorized (hE : E.Authenticated) (held : Option Key) (p : EvidencePrincipal)
    (confirmation : String) (newKey : Key) (r : Root Cipher) :
    r.Grows E ((rotateAuthorized E held p confirmation newKey).exec r).2 ∨
      ∃ key, held = some key ∧
        r.Rotates E key ((rotateAuthorized E held p confirmation newKey).exec r).2 := by
  unfold rotateAuthorized
  rw [exec_liftSvc_bind]
  split
  swap
  · exact Or.inl (.refl r)
  dsimp only
  split
  · exact Or.inl (.refl r)
  · rcases held with - | key
    · exact Or.inl (.refl r)
    · exact Or.inr ⟨key, rfl, exec_rotateHeld hE r⟩

/-- A rotation may leave its trace. -/
theorem Root.Rotates.grows (h : r.Rotates E key r') {r'' : Root Cipher} (h' : r'.Grows E r'') :
    r.Rotates E key r'' := by
  rcases h with h | ⟨newKey, r₁, hreseals, hgrows⟩
  · exact Or.inl (h.trans _ _ _ h')
  · exact Or.inr ⟨newKey, r₁, hreseals, hgrows.trans _ _ _ h'⟩

/-- So it is for the whole method. -/
theorem exec_serviceRotateKey (hE : E.Authenticated) (p : EvidencePrincipal) (newKey : Key)
    (confirmation : String) (r : Root Cipher) :
    r.Grows E ((serviceRotateKey E p confirmation newKey).exec r).2 ∨
      ∃ key, r.keyFile = some key ∧
        r.Rotates E key ((serviceRotateKey E p confirmation newKey).exec r).2 := by
  unfold serviceRotateKey
  rw [Eff.exec_bind, loadKey, Eff.exec_read]
  have hdenial := exec_recordDenial (E := E) r.keyFile p .rotate p.scope
    (rotateAuthorized E r.keyFile p confirmation newKey) r
  rcases exec_rotateAuthorized hE r.keyFile p confirmation newKey r with hgrows | ⟨key, hkey, hrotates⟩
  · exact Or.inl (hgrows.trans _ _ _ hdenial.grows)
  · exact Or.inr ⟨key, hkey, hrotates.grows hdenial.grows⟩

/-! ## What keeps to the scope -/

variable {k : ServiceCall}

/-- Where nothing is taken away, and nothing is granted. -/
theorem Root.Grows.keepsToScope (h : r.Grows E r') : KeepsToScope E k r r' := by
  refine ⟨fun o ho => Or.inl (h.2.kept o ho), fun i row hrow => Or.inl ?_, fun row hrow => ?_⟩
  · rw [h.1]
    exact hrow
  · rw [h.1, List.drop_length] at hrow
    cases hrow

/-- A rotation keeps to the scope of the administrator. -/
theorem Root.Rotates.keepsToScope (hkey : r.keyFile = some key) (h : r.Rotates E key r') :
    KeepsToScope E k r r' := by
  rcases h with h | ⟨newKey, r₁, ⟨haccounts, hreseals⟩, hgrows⟩
  · exact h.keepsToScope
  refine ⟨fun o ho => ?_, fun i row hrow => Or.inl ?_, fun row hrow => ?_⟩
  · by_cases hslot : o.slotId = none
    · obtain ⟨o', ho', hanew⟩ := hreseals.legacy o ho hslot
      exact Or.inr (Or.inl ⟨hslot, key, newKey, hkey, o', hgrows.2.kept o' ho', hanew⟩)
    · exact Or.inl (hgrows.2.kept o (hreseals.kept o ho hslot))
  · rw [hgrows.1, haccounts]
    exact hrow
  · rw [hgrows.1, haccounts, List.drop_length] at hrow
    cases hrow

/-! ## Granting -/

/-- An account is added, or nothing is. -/
theorem exec_grantAccount (principalId : String) (role : EvidenceRole) (scope : EvidenceScope)
    (salt tokenDigest : String) (r : Root Cipher) :
    (∃ e, (grantAccount principalId role scope salt tokenDigest : Svc Cipher Unit).exec r =
        (.error e, r)) ∨
      (grantAccount principalId role scope salt tokenDigest : Svc Cipher Unit).exec r = (.ok (),
        { r with accounts := r.accounts ++ [⟨principalId, role, scope, salt, tokenDigest, false⟩] }) := by
  unfold grantAccount
  rw [Eff.exec_bind, loadAccounts, Eff.exec_read]
  dsimp only
  split
  · exact Or.inl ⟨_, rfl⟩
  · exact Or.inr rfl

/-- A grant adds an account, or only leaves its trace. -/
theorem exec_grant (E : Engine Cipher) (held : Option Key) (p : EvidencePrincipal)
    (principalId : String) (role : EvidenceRole) (scope : EvidenceScope) (salt tokenDigest : String)
    (r : Root Cipher) :
    r.Grows E ((grant E held p principalId role scope salt tokenDigest).exec r).2 ∨
      p.scope.permits scope = true ∧
        { r with accounts := r.accounts ++ [⟨principalId, role, scope, salt, tokenDigest, false⟩] :
          Root Cipher }.Grows E ((grant E held p principalId role scope salt tokenDigest).exec r).2 := by
  unfold grant
  rw [exec_liftSvc_bind]
  split
  swap
  · exact Or.inl (.refl r)
  rename_i hauthorize
  dsimp only
  split
  · exact Or.inl (.refl r)
  split
  · exact Or.inl (.refl r)
  split
  · exact Or.inl (.refl r)
  rename_i hpermits
  rw [Eff.exec_bind]
  rcases exec_grantAccount principalId role scope salt tokenDigest r with ⟨e, herror⟩ | hok
  · rw [herror]
    exact Or.inl (.refl r)
  · rw [hok]
    exact Or.inr ⟨by simpa using hpermits, (exec_recordAccess ..).grows⟩

/-- **A grant keeps to the scope.** -/
theorem keepsToScope_grant {principalId : String} {role : EvidenceRole} {scope : EvidenceScope}
    {salt tokenDigest : String} (hprincipal : k.principal = p) (r : Root Cipher) :
    KeepsToScope E k r ((grant E held p principalId role scope salt tokenDigest).exec r).2 := by
  rcases exec_grant E held p principalId role scope salt tokenDigest r with hgrows | ⟨hpermits, hgrows⟩
  · exact hgrows.keepsToScope
  obtain ⟨haccounts, hobjects⟩ := hgrows
  refine ⟨fun o ho => Or.inl (hobjects.kept o ho), fun i row hrow => Or.inl ?_,
    fun row hrow => ?_⟩
  · rw [haccounts]
    have hlt := (List.getElem?_eq_some_iff.mp hrow).1
    rw [List.getElem?_append_left hlt]
    exact hrow
  · rw [haccounts, List.drop_left] at hrow
    rw [List.mem_singleton.mp hrow, hprincipal]
    exact hpermits

/-! ## Revoking -/

/-- A scope permits itself. -/
theorem permits_self (scope : EvidenceScope) : scope.permits scope = true := by
  simp [EvidenceScope.permits]

/-- Where no account is live, there is none to revoke. -/
theorem revokeLive_of_none {principalId : String} {accounts : List Account}
    (h : accounts.any (Account.liveOf principalId) = false) :
    revokeLive principalId accounts = accounts := by
  have hid : ∀ row ∈ accounts,
      (if row.liveOf principalId then { row with revoked := true } else row) = id row :=
    fun row hrow => if_neg (List.any_eq_false.mp h row hrow)
  exact (List.map_congr_left hid).trans (List.map_id _)

/-- The live accounts of a principal are revoked. -/
theorem exec_revokeAccount (principalId : String) (r : Root Cipher) :
    (revokeAccount principalId : Svc Cipher Bool).exec r =
      (.ok (r.accounts.any (Account.liveOf principalId)),
        { r with accounts := revokeLive principalId r.accounts }) := by
  unfold revokeAccount
  rw [Eff.exec_bind, loadAccounts, Eff.exec_read]
  dsimp only
  split
  · rfl
  · rename_i hnone
    rw [revokeLive_of_none (by simpa using hnone)]
    rfl

/-- A revocation by one who may grant. -/
theorem exec_revoke (E : Engine Cipher) (held : Option Key) (p : EvidencePrincipal)
    (principalId : String) (r : Root Cipher) :
    (p.role.allows .grant = false ∧ r.Grows E ((revoke E held p principalId).exec r).2) ∨
      (p.role.allows .grant = true ∧
        { r with accounts := revokeLive principalId r.accounts : Root Cipher }.Grows E
          ((revoke E held p principalId).exec r).2) := by
  unfold revoke
  rw [exec_liftSvc_bind]
  rcases hallows : p.role.allows .grant with - | -
  · left
    have hauthorize : ∃ e, p.authorize .grant p.scope = .error e :=
      ⟨_, if_neg fun h => by rw [hallows] at h; cases h.2⟩
    obtain ⟨e, he⟩ := hauthorize
    rw [he]
    exact ⟨rfl, .refl r⟩
  · right
    have hauthorize : p.authorize .grant p.scope = .ok () := if_pos ⟨permits_self _, hallows⟩
    rw [hauthorize]
    refine ⟨rfl, ?_⟩
    dsimp only
    rw [Eff.exec_bind, exec_revokeAccount]
    exact Svc.Grows.exec (.bind grows_recordAccess fun _ => .pure) _

/-- **A revocation keeps to the scope** where every account of the name that
is live is of a scope the principal's permits. -/
theorem keepsToScope_revoke {principalId : String} (r : Root Cipher) :
    KeepsToScope E k r ((revoke E held k.principal principalId).exec r).2 ↔
      (k.principal.role.allows .grant = true → ∀ row ∈ r.accounts,
        row.liveOf principalId = true → k.principal.scope.permits row.scope = true) := by
  rcases exec_revoke E held k.principal principalId r with ⟨hrole, hgrows⟩ | ⟨hrole, hgrows⟩
  · exact ⟨fun _ h => (by rw [hrole] at h; cases h), fun _ => hgrows.keepsToScope⟩
  obtain ⟨haccounts, hobjects⟩ := hgrows
  have hrow : ∀ i : ℕ, ((revoke E held k.principal principalId).exec r).2.accounts[i]? =
      r.accounts[i]?.map fun row =>
        if row.liveOf principalId then { row with revoked := true } else row := by
    intro i
    rw [haccounts]
    exact List.getElem?_map
  constructor
  · intro hkeeps _ row hmem hlive
    obtain ⟨i, hi⟩ := List.mem_iff_getElem?.mp hmem
    rcases hkeeps.accounts i row hi with hsame | ⟨hpermits, -⟩
    · -- a row that is revoked is no longer what it was
      rw [hrow, hi, Option.map_some, if_pos hlive] at hsame
      have hrevoked : row.revoked = true := by rw [← Option.some.inj hsame]
      simp [Account.liveOf, hrevoked] at hlive
    · exact hpermits
  · intro hall
    refine ⟨fun o ho => Or.inl (hobjects.kept o ho), fun i row hi => ?_, fun row hmem => ?_⟩
    · rw [hrow, hi, Option.map_some]
      by_cases hlive : row.liveOf principalId = true
      · rw [if_pos hlive]
        exact Or.inr ⟨hall hrole row (List.mem_of_getElem? hi) hlive, rfl⟩
      · rw [if_neg hlive]
        exact Or.inl rfl
    · rw [haccounts, List.drop_of_length_le (by simp [revokeLive])] at hmem
      cases hmem

/-! ## What a deletion selects -/

/-- A document is evidence of a run, by the identifier of the run alone. -/
def EvidenceOfRun (E : Engine Cipher) (runId : String) (document : Json) : Prop :=
  field document "record_type" = .str "evidence" ∧
    ∃ value, nested document "envelope" "run_id" = .ok value ∧ textOr E value "" = runId

/-- A document is deleted with a run. -/
def OfRun (E : Engine Cipher) (runId : String) (document : Json) : Prop :=
  (field document "record_type" = .str "continuity_event" ∧
    field document "workflow_id" = .str runId) ∨
  (field document "record_type" = .str "continuity" ∧
    ∃ workflow, workflowOf document = .ok workflow ∧
      field workflow "workflow_id" = .str runId) ∨
  EvidenceOfRun E runId document

/-- **The pass over one document.** -/
theorem doom_eq_ok {runId : String} {d d' : Doomed} {document : Json}
    (h : doom E runId d document = .ok d') :
    (OfRun E runId document ∧ ∃ id, objectIdOf E document = .ok id ∧
      d'.objectIds = d.objectIds ++ [id]) ∨
    (¬ OfRun E runId document ∧ d' = d) := by
  unfold doom at h
  dsimp only at h
  split at h
  · -- an event
    rename_i hevent
    obtain ⟨id, hid, h⟩ := Checked.bind_eq_ok_iff.mp h
    cases h
    exact Or.inl ⟨Or.inl hevent, id, hid, rfl⟩
  rename_i hnotEvent
  split at h
  · -- a document of a workflow
    rename_i htype
    obtain ⟨workflow, hworkflow, h⟩ := Checked.bind_eq_ok_iff.mp h
    split at h
    · rename_i hrun
      obtain ⟨id, hid, h⟩ := Checked.bind_eq_ok_iff.mp h
      obtain ⟨tombstone, -, h⟩ := Checked.bind_eq_ok_iff.mp h
      cases h
      exact Or.inl ⟨Or.inr (Or.inl ⟨htype, workflow, hworkflow, hrun⟩), id, hid, rfl⟩
    · rename_i hrun
      cases h
      refine Or.inr ⟨?_, rfl⟩
      rintro (hevent | ⟨-, workflow', hworkflow', hrun'⟩ | ⟨hevidence, -⟩)
      · exact hnotEvent hevent
      · rw [hworkflow] at hworkflow'
        cases hworkflow'
        exact hrun hrun'
      · rw [htype] at hevidence
        simp at hevidence
  rename_i hnotContinuity
  split at h
  · -- an evidence envelope
    rename_i htype
    obtain ⟨value, hvalue, h⟩ := Checked.bind_eq_ok_iff.mp h
    split at h
    · rename_i hrun
      obtain ⟨id, hid, h⟩ := Checked.bind_eq_ok_iff.mp h
      cases h
      exact Or.inl ⟨Or.inr (Or.inr ⟨htype, value, hvalue, hrun⟩), id, hid, rfl⟩
    · rename_i hrun
      cases h
      refine Or.inr ⟨?_, rfl⟩
      rintro (hevent | ⟨hcontinuity, -⟩ | ⟨-, value', hvalue', hrun'⟩)
      · exact hnotEvent hevent
      · exact hnotContinuity hcontinuity
      · rw [hvalue] at hvalue'
        cases hvalue'
        exact hrun hrun'
  · rename_i hnotEvidence
    cases h
    refine Or.inr ⟨?_, rfl⟩
    rintro (hevent | ⟨hcontinuity, -⟩ | ⟨hevidence, -⟩)
    · exact hnotEvent hevent
    · exact hnotContinuity hcontinuity
    · exact hnotEvidence hevidence

/-- **What is deleted is what the documents of the run name.** -/
theorem mem_doomed {runId : String} {documents : List (Except Raised Json)} {d d' : Doomed}
    (h : documents.foldlM (fun d document => do doom E runId d (← document)) d = .ok d')
    (id : String) : id ∈ d'.objectIds ↔ id ∈ d.objectIds ∨ ∃ document, .ok document ∈ documents ∧
      OfRun E runId document ∧ objectIdOf E document = .ok id := by
  induction documents generalizing d with
  | nil =>
    cases h
    simp
  | cons r documents ih =>
    rw [List.foldlM_cons] at h
    obtain ⟨d₁, hfirst, hrest⟩ := Checked.bind_eq_ok_iff.mp h
    obtain ⟨document, hdocument, hdoom⟩ := Checked.bind_eq_ok_iff.mp hfirst
    subst hdocument
    rw [ih hrest]
    rcases doom_eq_ok hdoom with ⟨hrun, id', hid', hids⟩ | ⟨hrun, rfl⟩
    · rw [hids, List.mem_append, List.mem_singleton, or_assoc]
      refine or_congr_right ⟨?_, ?_⟩
      · rintro (rfl | ⟨document', hmem, hrest⟩)
        · exact ⟨document, List.mem_cons_self, hrun, hid'⟩
        · exact ⟨document', List.mem_cons_of_mem _ hmem, hrest⟩
      · rintro ⟨document', hmem, hrun', hid⟩
        rcases List.mem_cons.mp hmem with heq | hmem
        · cases heq
          rw [hid'] at hid
          exact Or.inl (Except.ok.inj hid).symm
        · exact Or.inr ⟨document', hmem, hrun', hid⟩
    · refine or_congr_right ⟨?_, ?_⟩
      · rintro ⟨document', hmem, hrest⟩
        exact ⟨document', List.mem_cons_of_mem _ hmem, hrest⟩
      · rintro ⟨document', hmem, hrun', hid⟩
        rcases List.mem_cons.mp hmem with heq | hmem
        · cases heq
          exact absurd hrun' hrun
        · exact ⟨document', hmem, hrun', hid⟩

/-- The tombstone that is left of a workflow brings no identifier. -/
theorem objectId_notMem_tombstoneOf {runId : String} {workflow : Json} {t : List (String × Json)}
    (h : tombstoneOf runId workflow = .ok t) : "object_id" ∉ t.map (·.1) := by
  unfold tombstoneOf at h
  obtain ⟨workflowKey, -, h⟩ := Checked.bind_eq_ok_iff.mp h
  obtain ⟨scope, -, h⟩ := Checked.bind_eq_ok_iff.mp h
  cases h
  simp

/-- A tombstone does not name the object. -/
theorem objectId_notMem_doom {runId : String} {d d' : Doomed} {document : Json}
    (h : doom E runId d document = .ok d') (hd : ∀ t ∈ d.tombstone, "object_id" ∉ t.map (·.1)) :
    ∀ t ∈ d'.tombstone, "object_id" ∉ t.map (·.1) := by
  unfold doom at h
  dsimp only at h
  split at h
  · obtain ⟨id, -, h⟩ := Checked.bind_eq_ok_iff.mp h
    cases h
    exact hd
  split at h
  · obtain ⟨workflow, -, h⟩ := Checked.bind_eq_ok_iff.mp h
    split at h
    · obtain ⟨id, -, h⟩ := Checked.bind_eq_ok_iff.mp h
      obtain ⟨tombstone, htombstone, h⟩ := Checked.bind_eq_ok_iff.mp h
      cases h
      rintro t ⟨⟩
      exact objectId_notMem_tombstoneOf htombstone
    · cases h
      exact hd
  split at h
  · obtain ⟨value, -, h⟩ := Checked.bind_eq_ok_iff.mp h
    split at h
    · obtain ⟨id, -, h⟩ := Checked.bind_eq_ok_iff.mp h
      cases h
      exact hd
    · cases h
      exact hd
  · cases h
    exact hd

/-- Nor does the one the pass over all documents ends with. -/
theorem objectId_notMem_doomed {runId : String} {documents : List (Except Raised Json)}
    {d d' : Doomed}
    (h : documents.foldlM (fun d document => do doom E runId d (← document)) d = .ok d')
    (hd : ∀ t ∈ d.tombstone, "object_id" ∉ t.map (·.1)) :
    ∀ t ∈ d'.tombstone, "object_id" ∉ t.map (·.1) := by
  induction documents generalizing d with
  | nil =>
    cases h
    exact hd
  | cons r documents ih =>
    rw [List.foldlM_cons] at h
    obtain ⟨d₁, hfirst, hrest⟩ := Checked.bind_eq_ok_iff.mp h
    obtain ⟨document, -, hdoom⟩ := Checked.bind_eq_ok_iff.mp hfirst
    exact ih hrest (objectId_notMem_doom hdoom hd)

/-! ## Deleting -/

/-- **Every document names the object it is sealed in.** -/
def Labelled (E : Engine Cipher) (key : Key) (v : Vault Cipher) : Prop :=
  ∀ o ∈ v.objects.rows, ∀ document, v.openObject E key o = .ok document →
    objectIdOf E document = .ok o.objectId

/-- The documents are what the objects open to. -/
theorem mem_documents {document : Json} :
    .ok document ∈ v.documents E key ↔
      ∃ o ∈ v.objects.rows, v.openObject E key o = .ok document := by
  unfold Vault.documents
  rw [List.mem_map]
  simp only [mem_inSequence]

/-- A deletion that is not refused: the principal may delete in the scope it
asks for, has confirmed it, passes the check of the workflow, and the store
deletes. -/
structure Deletes (E : Engine Cipher) (p : EvidencePrincipal) (runId confirmation : String)
    (key : Key) (w : World Cipher) : Prop where
  authorized : ∃ target, runScope p runId = .ok target ∧ p.authorize .delete target = .ok ()
  confirmed : confirmation = "DELETE " ++ runId
  checked : checkWorkflows E p runId (w.vault.documents E key) = .ok ()
  deletes : ∃ n, w.vault.deleteRun E key w.draws runId = .ok n

/-- What the store leaves. -/
theorem objects_deleteRun {runId : String} {n : ℕ × ℕ}
    (h : v.deleteRun E key draw runId = .ok (n, v')) :
    ∃ d extra, v.doomed E key runId = .ok d ∧
      v'.objects.rows = (v.objects.rows ++ extra).filter (fun o => !(o.objectId ∈ d.objectIds)) ∧
      ∀ o ∈ extra, o.Named E := by
  unfold Vault.deleteRun at h
  simp only [Checked.bind_eq_ok_iff] at h
  obtain ⟨d, hdoomed, v₁, htombstone, h⟩ := h
  cases h
  unfold Vault.appendTombstone at htombstone
  split at htombstone
  · obtain ⟨⟨receipt, v₂⟩, happend, htombstone⟩ := Checked.bind_eq_ok_iff.mp htombstone
    cases htombstone
    obtain ⟨o, dataKey, hrows, -, hsealed⟩ := append_rows happend
    refine ⟨d, [o], hdoomed, ?_, fun o' ho' => ?_⟩
    · rw [← hrows]
      rfl
    · rw [List.mem_singleton.mp ho']
      refine ⟨dataKey, _, hsealed, objectIdOf_sealedDocument ?_⟩
      exact objectId_notMem_doomed hdoomed (fun t ht => by cases ht) _ ‹_›
  · cases htombstone
    refine ⟨d, [], hdoomed, ?_, fun o ho => absurd ho List.not_mem_nil⟩
    rw [List.append_nil]
    rfl

/-- **A deletion with nobody in between**: refused, or the store's, with
accesses recorded since. -/
theorem exec_deleteAuthorized (E : Engine Cipher) (held : Option Key) (p : EvidencePrincipal)
    (runId confirmation : String) (target : EvidenceScope) (htarget : runScope p runId = .ok target)
    (r : Root Cipher) :
    ((¬ ∃ key, held = some key ∧ Deletes E p runId confirmation key r.world) ∧
      r.Grows E ((deleteAuthorized E held p runId confirmation target).exec r).2) ∨
    ∃ key n vault, held = some key ∧ Deletes E p runId confirmation key r.world ∧
      r.world.vault.deleteRun E key r.world.draws runId = .ok (n, vault) ∧
      { r with world := { r.world with vault, draws := r.world.draws + 1 } : Root Cipher }.Logs E
        ((deleteAuthorized E held p runId confirmation target).exec r).2 := by
  unfold deleteAuthorized
  rw [exec_liftSvc_bind]
  -- each check of the call raises, or passes
  rcases hauthorize : p.authorize .delete target with e | u
  · refine Or.inl ⟨?_, .refl r⟩
    rintro ⟨key, -, ⟨target', htarget', hauthorize'⟩, -⟩
    rw [htarget] at htarget'
    cases htarget'
    rw [hauthorize] at hauthorize'
    cases hauthorize'
  dsimp only
  split
  · rename_i hconfirmation
    exact Or.inl ⟨fun ⟨key, _, h⟩ => hconfirmation h.confirmed, .refl r⟩
  rename_i hconfirmation
  rcases held with - | key
  · exact Or.inl ⟨fun ⟨key, hkey, _⟩ => (by cases hkey), .refl r⟩
  rw [Eff.exec_bind, show (requireKey (some key) : Svc Cipher Key) = pure key from rfl,
    Eff.exec_pure]
  dsimp only
  rw [Eff.exec_bind, readDocuments, exec_onVault, inspect, Eff.exec_action]
  dsimp only
  rw [exec_liftSvc_bind]
  rcases hchecked : checkWorkflows E p runId (r.world.vault.documents E key) with e | u'
  · refine Or.inl ⟨?_, .refl r⟩
    rintro ⟨key', hkey', h⟩
    cases hkey'
    have hpassed := h.checked
    rw [hchecked] at hpassed
    cases hpassed
  dsimp only
  rw [Eff.exec_bind, exec_onVault, deleteRun, transact, Eff.exec_action]
  rcases hdelete : r.world.vault.deleteRun E key r.world.draws runId with e | ⟨n, vault⟩
  · refine Or.inl ⟨?_, rfl, .refl _⟩
    rintro ⟨key', hkey', h⟩
    cases hkey'
    obtain ⟨n, hn⟩ := h.deletes
    rw [hdelete] at hn
    cases hn
  · refine Or.inr ⟨key, n, vault, rfl, ⟨⟨target, htarget, hauthorize⟩, ?_, hchecked, _, hdelete⟩,
      hdelete, ?_⟩
    · simpa using hconfirmation
    · exact Eff.Within.exec Root.Logs.refl Root.Logs.trans (.bind logs_recordAccess fun _ => .pure) _

/-- **The check before a deletion** is of every document of the workflow. -/
theorem checked_workflow {runId : String} {documents : List (Except Raised Json)}
    (h : checkWorkflows E p runId documents = .ok ()) {document : Json}
    (hmem : .ok document ∈ documents) (htype : field document "record_type" = .str "continuity")
    (hrun : nestedItem document "workflow" "workflow_id" = .ok (.str runId)) :
    ∃ scope, scopeOfWorkflow E runId document = .ok scope ∧ p.scope.permits scope = true := by
  unfold checkWorkflows at h
  induction documents with
  | nil => cases hmem
  | cons r documents ih =>
    obtain ⟨u, hfirst, hrest⟩ := Checked.bind_eq_ok_iff.mp h
    rcases List.mem_cons.mp hmem with rfl | hmem
    swap
    · exact ih hrest hmem
    obtain ⟨document', hdocument, hcheck⟩ := Checked.bind_eq_ok_iff.mp hfirst
    cases hdocument
    unfold checkWorkflow at hcheck
    rw [if_pos htype] at hcheck
    obtain ⟨workflowId, hworkflowId, hscope⟩ := Checked.bind_eq_ok_iff.mp hcheck
    rw [hrun] at hworkflowId
    cases hworkflowId
    rw [if_pos rfl] at hscope
    obtain ⟨scope, hscope, hauthorize⟩ := Checked.bind_eq_ok_iff.mp hscope
    refine ⟨scope, hscope, ?_⟩
    unfold EvidencePrincipal.authorize at hauthorize
    split at hauthorize
    · rename_i hpermits
      exact hpermits.1
    · cases hauthorize

/-- What the deletion reads off a workflow is what the check reads. -/
theorem nestedItem_of_workflowOf {document workflow value : Json} {name : String}
    (h : workflowOf document = .ok workflow) (hvalue : field workflow name = value)
    (hnull : value ≠ .null) : nestedItem document "workflow" name = .ok value := by
  unfold workflowOf at h
  dsimp only at h
  split at h
  · rcases hget : document.get? "workflow" with - | owner
    · simp [field, hget, Json.truthy] at *
    · have hfield : field document "workflow" = owner := by simp [field, hget]
      rw [hfield] at h
      cases owner with
      | obj kvs =>
        cases h
        unfold nestedItem
        rw [hget]
        dsimp only
        rcases hlookup : kvs.lookup name with - | found
        · simp [field, Json.get?, hlookup] at hvalue
          exact absurd hvalue.symm hnull
        · simp [field, Json.get?, hlookup] at hvalue
          rw [hvalue]
      | null | bool b | int n | float repr | str t | arr xs => cases h
  · cases h
    simp [field, Json.get?] at hvalue
    exact absurd hvalue.symm hnull

/-- The objects a deletion takes are those of the documents of the run. -/
theorem mem_doomed_iff (hlabelled : Labelled E key v) {runId : String} {d : Doomed}
    (hdoomed : v.doomed E key runId = .ok d) {o : ObjectRow Cipher} (ho : o ∈ v.objects.rows) :
    o.objectId ∈ d.objectIds ↔
      ∃ document, v.openObject E key o = .ok document ∧ OfRun E runId document := by
  rw [mem_doomed hdoomed]
  constructor
  · rintro (hnil | ⟨document, hmem, hrun, hid⟩)
    · cases hnil
    obtain ⟨o', ho', hopen⟩ := mem_documents.mp hmem
    rw [hlabelled o' ho' document hopen] at hid
    obtain rfl := object_eq_of_objectId ho' ho (Except.ok.inj hid)
    exact ⟨document, hopen, hrun⟩
  · rintro ⟨document, hopen, hrun⟩
    exact Or.inr ⟨document, mem_documents.mpr ⟨o, ho, hopen⟩, hrun, hlabelled o ho document hopen⟩

/-- What records an access is no evidence. -/
theorem not_evidence_of_recordsAccess (hE : E.Authenticated) {o : ObjectRow Cipher}
    (hrecords : o.RecordsAccess E) {document : Json} (hopen : v.openObject E key o = .ok document) :
    field document "record_type" = .str "access" := by
  obtain ⟨-, d, kvs, hsealed, -, htype⟩ := hrecords
  obtain ⟨d', -, hjson⟩ := Checked.bind_eq_ok_iff.mp hopen
  rw [hsealed] at hjson
  rw [(openJson_eq_ok hE hjson).2]
  exact htype

/-- The evidence of a run is of scopes the principal's permits. -/
def EvidencePermitted (E : Engine Cipher) (p : EvidencePrincipal) (runId : String)
    (documents : List (Except Raised Json)) : Prop :=
  ∀ document, .ok document ∈ documents → EvidenceOfRun E runId document →
    ∃ envelope scope, envelopeOf document = .ok envelope ∧
      scopeFromEnvelope E envelope = .ok scope ∧ p.scope.permits scope = true

/-- **A deletion that is the store's keeps to the scope** where the evidence
of the run is of scopes the principal's permits, and only there. -/
theorem keepsToScope_deleted (hE : E.Authenticated) {runId confirmation : String}
    (hkey : k.held = some key) (hlabelled : Labelled E key r.world.vault)
    (hdeletes : Deletes E k.principal runId confirmation key r.world) {n : ℕ × ℕ}
    {vault : Vault Cipher}
    (hdelete : r.world.vault.deleteRun E key r.world.draws runId = .ok (n, vault))
    (hlogs : { r with world := { r.world with vault, draws := r.world.draws + 1 } :
      Root Cipher }.Logs E r') :
    KeepsToScope E k r r' ↔
      EvidencePermitted E k.principal runId (r.world.vault.documents E key) := by
  obtain ⟨d, extra, hdoomed, hrows, -⟩ := objects_deleteRun hdelete
  obtain ⟨haccounts, records, hrecorded, hall⟩ := hlogs
  have hobjects : r'.world.vault.objects.rows = vault.objects.rows ++ records := hrecorded
  have hleft : ∀ o ∈ vault.objects.rows, o.objectId ∉ d.objectIds := by
    intro o ho
    rw [hrows] at ho
    simpa using (List.mem_filter.mp ho).2
  constructor
  · intro hkeeps document hmem hevidence
    obtain ⟨o, ho, hopen⟩ := mem_documents.mp hmem
    have hgone : o.objectId ∈ d.objectIds :=
      (mem_doomed_iff hlabelled hdoomed ho).mpr ⟨document, hopen, Or.inr (Or.inr hevidence)⟩
    -- it is not there, nor was it sealed anew, so it was in scope
    rcases hkeeps.objects o ho with hthere | ⟨hslot, key', newKey, -, o', ho', hanew⟩ |
      ⟨key', document', hkey', hopen', hscope⟩
    · rw [hobjects] at hthere
      rcases List.mem_append.mp hthere with hthere | hthere
      · exact absurd hgone (hleft o hthere)
      · have htype := not_evidence_of_recordsAccess hE (hall o hthere) hopen
        rw [hevidence.1] at htype
        simp at htype
    · rw [hobjects] at ho'
      rcases List.mem_append.mp ho' with ho' | ho'
      · exact absurd (hanew.objectId ▸ hgone) (hleft o' ho')
      · exact absurd hanew.slotId (hall o' ho').1
    · rw [hkey] at hkey'
      cases hkey'
      rw [hopen] at hopen'
      cases hopen'
      cases hscope with
      | evidence _ henvelope hscope hpermits => exact ⟨_, _, henvelope, hscope, hpermits⟩
      | continuity htype =>
        rw [hevidence.1] at htype
        simp at htype
      | event htype =>
        rw [hevidence.1] at htype
        simp at htype
  · intro hpermitted
    refine ⟨fun o ho => ?_, fun i row hrow => Or.inl ?_, fun row hrow => ?_⟩
    · -- what is deleted is in the principal's scope, the rest stays
      by_cases hgone : o.objectId ∈ d.objectIds
      · obtain ⟨document, hopen, hrun⟩ := (mem_doomed_iff hlabelled hdoomed ho).mp hgone
        refine Or.inr (Or.inr ⟨key, document, hkey, hopen, ?_⟩)
        have hmem := mem_documents.mpr ⟨o, ho, hopen⟩
        rcases hrun with ⟨htype, hrun⟩ | ⟨htype, workflow, hworkflow, hrun⟩ | hevidence
        · exact .event htype hrun fun workflow hworkflow htype' hrun' =>
            checked_workflow hdeletes.checked hworkflow htype' hrun'
        · have hitem := nestedItem_of_workflowOf hworkflow hrun (by simp)
          obtain ⟨scope, hscope, hpermits⟩ := checked_workflow hdeletes.checked hmem htype hitem
          exact .continuity htype hitem hscope hpermits
        · obtain ⟨envelope, scope, henvelope, hscope, hpermits⟩ :=
            hpermitted document hmem hevidence
          exact .evidence hevidence.1 henvelope hscope hpermits
      · refine Or.inl ?_
        rw [hobjects, hrows]
        refine List.mem_append_left _ (List.mem_filter.mpr ⟨List.mem_append_left _ ho, ?_⟩)
        simpa using hgone
    · rw [haccounts]
      exact hrow
    · rw [haccounts, List.drop_length] at hrow
      cases hrow

/-- **What a deletion keeps to**, refused or not. -/
theorem keepsToScope_deleteRun (hE : E.Authenticated) {runId confirmation : String}
    (r : Root Cipher) (hlabelled : ∀ key, k.held = some key → Labelled E key r.world.vault) :
    KeepsToScope E k r ((serviceDeleteRun E k.held k.principal runId confirmation).exec r).2 ↔
      ∀ key, k.held = some key → Deletes E k.principal runId confirmation key r.world →
        EvidencePermitted E k.principal runId (r.world.vault.documents E key) := by
  unfold serviceDeleteRun
  rw [exec_liftSvc_bind]
  rcases htarget : runScope k.principal runId with e | target
  · refine ⟨fun _ key _ hdeletes => ?_, fun _ => (Root.Grows.refl r).keepsToScope⟩
    obtain ⟨target, htarget', -⟩ := hdeletes.authorized
    rw [htarget] at htarget'
    cases htarget'
  dsimp only
  have hdenial := exec_recordDenial (E := E) k.held k.principal .delete target
    (deleteAuthorized E k.held k.principal runId confirmation target) r
  rcases exec_deleteAuthorized E k.held k.principal runId confirmation target htarget r with
    ⟨hrefused, hgrows⟩ | ⟨key, n, vault, hkey, hdeletes, hdelete, hlogs⟩
  · refine ⟨fun _ key hkey hdeletes => absurd ⟨key, hkey, hdeletes⟩ hrefused, fun _ => ?_⟩
    exact (hgrows.trans _ _ _ hdenial.grows).keepsToScope
  · rw [keepsToScope_deleted hE hkey (hlabelled key hkey) hdeletes hdelete
      (hlogs.trans _ _ _ hdenial)]
    refine ⟨fun h key' hkey' _ => ?_, fun h => h key hkey hdeletes⟩
    rw [hkey] at hkey'
    cases hkey'
    exact h

/-! ## Every operation -/

/-- The accounts of a name that is revoked, and the evidence of a run that is
deleted, are of scopes the principal's permits. -/
def Confined (E : Engine Cipher) (k : ServiceCall) (r : Root Cipher) : Prop :=
  match k.operation with
  | .revoke principalId => k.principal.role.allows .grant = true → ∀ row ∈ r.accounts,
      row.liveOf principalId = true → k.principal.scope.permits row.scope = true
  | .deleteRun runId confirmation => ∀ key, k.held = some key →
      Deletes E k.principal runId confirmation key r.world →
        EvidencePermitted E k.principal runId (r.world.vault.documents E key)
  | _ => True

/-- What is answered does not matter. -/
theorem exec_discard {α : Type} (x : Svc Cipher α) (r : Root Cipher) :
    ((discard x : Svc Cipher Unit).exec r).2 = (x.exec r).2 := by
  rw [show (discard x : Svc Cipher Unit) = (fun _ => ()) <$> x from rfl, Eff.exec_map]

/-- **A principal keeps to its scope**, whatever it asks for, exactly where
the accounts of a name it revokes and the evidence of a run it deletes are
all of scopes its own permits. -/
theorem principals_keep_to_their_scope (hE : E.Authenticated) (S : Surroundings) (k : ServiceCall)
    (r : Root Cipher) (hlabelled : ∀ key, k.held = some key → Labelled E key r.world.vault) :
    KeepsToScope E k r ((k.body E S).exec r).2 ↔ Confined E k r := by
  obtain ⟨held, p, operation⟩ := k
  have hgrows : ∀ {x : Svc Cipher Unit}, x.Grows E →
      (KeepsToScope E ⟨held, p, operation⟩ r (x.exec r).2 ↔ True) :=
    fun hx => iff_true_intro (hx.exec r).keepsToScope
  have hdiscard : ∀ {α : Type} {x : Svc Cipher α}, x.Grows E →
      (KeepsToScope E ⟨held, p, operation⟩ r ((discard x : Svc Cipher Unit).exec r).2 ↔ True) := by
    intro α x hx
    rw [exec_discard]
    exact iff_true_intro (hx.exec r).keepsToScope
  cases operation with
  | setCaptureMode mode => exact hgrows grows_serviceSetCaptureMode
  | capture envelope => exact hdiscard grows_serviceCapture
  | events runId => exact hdiscard grows_events
  | hasRunSession runId sessionId => exact hdiscard grows_hasRunSession
  | reconstruct runId => exact hdiscard grows_reconstruct
  | search query => exact hdiscard grows_search
  | replayManifest runId => exact hdiscard grows_replayManifest
  | plaintextExport runId confirmation => exact hdiscard grows_plaintextExport
  | recipientExport runId => exact hdiscard grows_recipientExport
  | grant principalId role scope salt tokenDigest => exact iff_true_intro (keepsToScope_grant rfl r)
  | revoke principalId =>
    show KeepsToScope E _ r ((discard _ : Svc Cipher Unit).exec r).2 ↔ _
    rw [exec_discard]
    exact keepsToScope_revoke r
  | deleteRun runId confirmation =>
    show KeepsToScope E _ r ((discard _ : Svc Cipher Unit).exec r).2 ↔ _
    rw [exec_discard]
    exact keepsToScope_deleteRun hE r hlabelled
  | rotateKey confirmation newKey =>
    show KeepsToScope E _ r ((discard _ : Svc Cipher Unit).exec r).2 ↔ _
    rw [exec_discard]
    refine iff_true_intro ?_
    rcases exec_serviceRotateKey hE p newKey confirmation r with
      hgrows | ⟨key, hkey, hrotates⟩
    · exact hgrows.keepsToScope
    · exact hrotates.keepsToScope hkey
  | lock confirmation => exact hdiscard grows_lock
  | unlock confirmation => exact hdiscard grows_unlock

/-! ## Documents name their objects -/

/-- Where every document names its object, so does every one that opens. -/
theorem Vault.Named.labelled (hE : E.Authenticated) (h : v.Named E) (key : Key) :
    Labelled E key v := by
  intro o ho document hopen
  obtain ⟨d, kvs, hsealed, hnames⟩ := h o ho
  obtain ⟨d', -, hjson⟩ := Checked.bind_eq_ok_iff.mp hopen
  rw [hsealed] at hjson
  rw [(openJson_eq_ok hE hjson).2]
  exact hnames

/-- The objects of the vault are named by their identifiers. -/
def Root.Named (E : Engine Cipher) (r : Root Cipher) : Prop := r.world.vault.Named E

/-- A vault that grows keeps its names. -/
theorem Root.Grows.keepsNames (h : r.Grows E r') (hnamed : r.Named E) : r'.Named E :=
  h.2.keepsNames hnamed

/-- So does one that is rotated. -/
theorem Root.Rotates.keepsNames (h : r.Rotates E key r') (hnamed : r.Named E) : r'.Named E := by
  rcases h with hgrows | ⟨newKey, r₁, ⟨-, hreseals⟩, hgrows⟩
  · exact hgrows.keepsNames hnamed
  · exact hgrows.keepsNames (hreseals.named hnamed)

/-- So does one whose run is deleted. -/
theorem named_deleteRun {runId confirmation : String} (hnamed : r.Named E) :
    ((serviceDeleteRun E held p runId confirmation).exec r).2.Named E := by
  unfold serviceDeleteRun
  rw [exec_liftSvc_bind]
  rcases htarget : runScope p runId with e | target
  · exact hnamed
  dsimp only
  have hdenial := exec_recordDenial (E := E) held p .delete target
    (deleteAuthorized E held p runId confirmation target) r
  refine hdenial.grows.keepsNames ?_
  rcases exec_deleteAuthorized E held p runId confirmation target htarget r with
    ⟨-, hgrows⟩ | ⟨key, n, vault, -, -, hdelete, hlogs⟩
  · exact hgrows.keepsNames hnamed
  · refine hlogs.grows.keepsNames fun o ho => ?_
    obtain ⟨d, extra, -, hrows, hextra⟩ := objects_deleteRun hdelete
    have hmem : o ∈ r.world.vault.objects.rows ++ extra := by
      have ho' : o ∈ vault.objects.rows := ho
      rw [hrows] at ho'
      exact (List.mem_filter.mp ho').1
    exact (List.mem_append.mp hmem).elim (hnamed o) (hextra o)

/-- **Every operation keeps the names**: what it appends names the object it
is sealed in, and what it seals anew is what it opened. -/
theorem named_body (hE : E.Authenticated) (S : Surroundings) (k : ServiceCall)
    (hnamed : r.Named E) : ((k.body E S).exec r).2.Named E := by
  obtain ⟨held, p, operation⟩ := k
  have hdiscard : ∀ {α : Type} {x : Svc Cipher α}, x.Grows E →
      ((discard x : Svc Cipher Unit).exec r).2.Named E := by
    intro α x hx
    rw [exec_discard]
    exact (hx.exec r).keepsNames hnamed
  cases operation with
  | setCaptureMode mode => exact (grows_serviceSetCaptureMode.exec r).keepsNames hnamed
  | capture envelope => exact hdiscard grows_serviceCapture
  | events runId => exact hdiscard grows_events
  | hasRunSession runId sessionId => exact hdiscard grows_hasRunSession
  | reconstruct runId => exact hdiscard grows_reconstruct
  | search query => exact hdiscard grows_search
  | replayManifest runId => exact hdiscard grows_replayManifest
  | plaintextExport runId confirmation => exact hdiscard grows_plaintextExport
  | recipientExport runId => exact hdiscard grows_recipientExport
  | grant principalId role scope salt tokenDigest =>
    rcases exec_grant E held p principalId role scope salt tokenDigest r with
      hgrows | ⟨-, hgrows⟩ <;> exact hgrows.keepsNames hnamed
  | revoke principalId =>
    show ((discard _ : Svc Cipher Unit).exec r).2.Named E
    rw [exec_discard]
    rcases exec_revoke E held p principalId r with ⟨-, hgrows⟩ | ⟨-, hgrows⟩ <;>
      exact hgrows.keepsNames hnamed
  | deleteRun runId confirmation =>
    show ((discard _ : Svc Cipher Unit).exec r).2.Named E
    rw [exec_discard]
    exact named_deleteRun hnamed
  | rotateKey confirmation newKey =>
    show ((discard _ : Svc Cipher Unit).exec r).2.Named E
    rw [exec_discard]
    rcases exec_serviceRotateKey hE p newKey confirmation r with hgrows | ⟨key, -, hrotates⟩
    · exact hgrows.keepsNames hnamed
    · exact hrotates.keepsNames hnamed
  | lock confirmation => exact hdiscard grows_lock
  | unlock confirmation => exact hdiscard grows_unlock

/-- What operations leave, one after the other. -/
def served (E : Engine Cipher) (S : Surroundings) (r : Root Cipher) (ks : List ServiceCall) :
    Root Cipher :=
  ks.foldl (fun r k => ((k.body E S).exec r).2) r

/-- **So after any calls.** -/
theorem named_served (hE : E.Authenticated) (S : Surroundings) (ks : List ServiceCall)
    (hnamed : r.Named E) : (served E S r ks).Named E := by
  unfold served
  induction ks generalizing r with
  | nil => exact hnamed
  | cons k ks ih => exact ih (named_body hE S k hnamed)

/-- **In every run from an empty vault**, whoever asks for whatever, every
document that a key opens names its object. -/
theorem labelled_served (hE : E.Authenticated) (S : Surroundings) (ks : List ServiceCall)
    (hempty : r.world.vault.objects.rows = []) (key : Key) :
    Labelled E key (served E S r ks).world.vault := by
  have hnamed : r.Named E := by
    intro o ho
    rw [hempty] at ho
    cases ho
  exact Vault.Named.labelled hE (named_served hE S ks hnamed) key

/-! ## Another tenant's evidence -/

/-- One evidence document, of a run of a tenant. -/
def tenantVault (tenantId : String) : Vault Box :=
  match ({} : Vault Box).append boxEngine (keyOf 0) 0 (evidenceDocument boxEngine .full
      (.obj [("event_id", .str "e"), ("tenant_id", .str tenantId), ("subject_id", .str "user"),
        ("run_id", .str "r")])) "run:r" with
  | .ok (_, vault) => vault
  | .error _ => {}

/-- The vault and an administrator of a tenant. -/
def tenantRoot (tenantId : String) : Root Box where
  world := { vault := tenantVault tenantId, latest := keyOf 0, draws := 1 }
  accounts := [⟨"admin", .administrator, ⟨tenantId, "user", none, none⟩, "", "", false⟩]
  keyFile := some (keyOf 0)

/-- A collector of one tenant. -/
def collector (tenantId : String) : EvidencePrincipal :=
  ⟨"collector", .evidenceCollector, ⟨tenantId, "user", none, none⟩⟩

/-- A collector asks for something. -/
def collectorCall (tenantId : String) (operation : ServiceOperation) : ServiceCall :=
  ⟨some (keyOf 0), collector tenantId, operation⟩

/-- Surroundings in which nothing goes wrong. -/
def plainSurroundings : Surroundings := ⟨.ok, .ok, id, fun _ => ""⟩

/-- The vault of the example is labelled. -/
theorem labelled_tenantRoot : Labelled boxEngine (keyOf 0) (tenantRoot "b").world.vault := by
  have hids : ∀ o ∈ (tenantRoot "b").world.vault.objects.rows,
      ((tenantRoot "b").world.vault.openObject boxEngine (keyOf 0) o >>= objectIdOf boxEngine) =
        .ok o.objectId := by
    decide +kernel
  intro o ho document hopen
  have hid := hids o ho
  rw [hopen] at hid
  exact hid

/-- The evidence in the vault is of the tenant. -/
theorem scope_tenantRoot {document : Json}
    (hmem : .ok document ∈ (tenantRoot "b").world.vault.documents boxEngine (keyOf 0)) :
    (envelopeOf document >>= scopeFromEnvelope boxEngine) =
      .ok ⟨"b", "user", none, some "r"⟩ := by
  have hall : ∀ r ∈ (tenantRoot "b").world.vault.documents boxEngine (keyOf 0),
      (r >>= envelopeOf >>= scopeFromEnvelope boxEngine) = .ok ⟨"b", "user", none, some "r"⟩ := by
    decide +kernel
  exact hall _ hmem

/-- **A collector deletes another tenant's evidence, and revokes another
tenant's account.** -/
theorem a_collector_reaches_another_tenant :
    (¬ KeepsToScope boxEngine (collectorCall "a" (.deleteRun "r" "DELETE r")) (tenantRoot "b")
      (((collectorCall "a" (.deleteRun "r" "DELETE r")).body boxEngine plainSurroundings).exec
        (tenantRoot "b")).2) ∧
    ¬ KeepsToScope boxEngine (collectorCall "a" (.revoke "admin")) (tenantRoot "b")
      (((collectorCall "a" (.revoke "admin")).body boxEngine plainSurroundings).exec
        (tenantRoot "b")).2 := by
  constructor
  · intro hkeeps
    -- every object has a slot, and none is left
    have hgone : ∀ o ∈ (tenantRoot "b").world.vault.objects.rows, o.slotId ≠ none ∧
        o ∉ (((collectorCall "a" (.deleteRun "r" "DELETE r")).body boxEngine
          plainSurroundings).exec (tenantRoot "b")).2.world.vault.objects.rows := by
      decide +kernel
    have hsome : (tenantRoot "b").world.vault.objects.rows ≠ [] := by decide +kernel
    obtain ⟨o, ho⟩ := List.exists_mem_of_ne_nil _ hsome
    rcases hkeeps.objects o ho with hthere | ⟨hslot, -⟩ | ⟨key, document, hkey, hopen, hscope⟩
    · exact (hgone o ho).2 hthere
    · exact (hgone o ho).1 hslot
    · cases hkey
      have hevidence : ∀ r ∈ (tenantRoot "b").world.vault.documents boxEngine (keyOf 0),
          (r >>= fun d => pure (field d "record_type")) = .ok (.str "evidence") := by
        decide +kernel
      have hmem := mem_documents.mpr ⟨o, ho, hopen⟩
      have htype := Except.ok.inj (hevidence _ hmem)
      have hactual := scope_tenantRoot hmem
      cases hscope with
      | evidence _ henvelope hscope hpermits =>
        -- the role does not permit the scope of the other tenant
        rw [henvelope] at hactual
        have heq := hscope.symm.trans hactual
        cases heq
        exact absurd hpermits (by decide)
      | continuity h =>
        rw [htype] at h
        simp at h
      | event h =>
        rw [htype] at h
        simp at h
  · intro hkeeps
    have hrow : (((collectorCall "a" (.revoke "admin")).body boxEngine plainSurroundings).exec
        (tenantRoot "b")).2.accounts[0]? ≠ (tenantRoot "b").accounts[0]? := by
      decide +kernel
    rcases hkeeps.accounts 0 _ rfl with hsame | ⟨hpermits, -⟩
    · exact hrow hsame
    · exact absurd hpermits (by decide)

/-- The law, where a collector deletes evidence of its own tenant. -/
theorem a_collector_deletes_its_own :
    KeepsToScope boxEngine (collectorCall "b" (.deleteRun "r" "DELETE r")) (tenantRoot "b")
      (((collectorCall "b" (.deleteRun "r" "DELETE r")).body boxEngine plainSurroundings).exec
        (tenantRoot "b")).2 := by
  refine (principals_keep_to_their_scope authenticated_boxEngine plainSurroundings
    (collectorCall "b" (.deleteRun "r" "DELETE r")) (tenantRoot "b") fun key hkey => ?_).mpr
      fun key hkey _ document hmem _ => ?_
  · cases hkey
    exact labelled_tenantRoot
  · cases hkey
    obtain ⟨envelope, henvelope, hscope⟩ := Checked.bind_eq_ok_iff.mp (scope_tenantRoot hmem)
    exact ⟨envelope, _, henvelope, hscope, by decide⟩

end Atmem.Evidence
