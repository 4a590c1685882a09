import Atmem.Extract.Decoding
import Atmem.Memory.Helpers.Growth
/-!
# Writes that are repeated

A capture or a submission under a key that was used is answered from the row
the first one left. A submission's row stays as it is; a source's row stays
too, but for what a purge takes out of it, and then the capture is not
answered any more.
-/

namespace Atmem

/-- The text that is hashed of a capture. -/
def SourceCaptureRequest.payload (q : SourceCaptureRequest) : String := q.toDict.canonicalJson

/-- The text that is hashed of a submission. -/
def MemoryProposal.payload (p : MemoryProposal) : String := p.semanticPayload.canonicalJson

/-- A scope is told from its text. -/
theorem AuthorityScope.asdict_inj {scope scope' : AuthorityScope}
    (h : scope.asdict.sortKeys = scope'.asdict.sortKeys) : scope = scope' := by
  have hget (key : String) :
      (scope.asdict.get? key).map Json.sortKeys = (scope'.asdict.get? key).map Json.sortKeys := by
    rw [← Json.get?_sortKeys scope.proper_asdict, ← Json.get?_sortKeys scope'.proper_asdict, h]
  have hsubject := Option.some.inj (hget "subject_id")
  have hagent := Option.some.inj (hget "agent_id")
  have hworkspace := Option.some.inj (hget "workspace_id")
  simp only [Json.sortKeys, Json.str.injEq] at hsubject hagent hworkspace
  obtain ⟨⟨subjectId, agentId, workspaceId⟩, hscope⟩ := scope
  obtain ⟨⟨subjectId', agentId', workspaceId'⟩, hscope'⟩ := scope'
  simp only at hsubject hagent hworkspace
  subst hsubject hagent hworkspace
  rfl

/-- **A capture's payload tells every part of it.** -/
theorem SourceCaptureRequest.payload_inj {q q₀ : SourceCaptureRequest} (h : q.payload = q₀.payload) :
    q = q₀ := by
  have hproper (q : SourceCaptureRequest) : q.toDict.Proper := by
    refine ⟨by simp, ?_⟩
    simp only [Json.ProperFields, Json.Proper, Json.proper_ofOption,
      AuthorityScope.proper_asdict, and_self]
  have hget := Json.get?_of_canonicalJson (hproper q) (hproper q₀) h
  have hsource := Option.some.inj (hget "source_id")
  have hkey := Option.some.inj (hget "idempotency_key")
  have hscope := AuthorityScope.asdict_inj (Option.some.inj (hget "scope"))
  have hmessage := Option.some.inj (hget "message")
  have htype := Option.some.inj (hget "source_type")
  have hsession := Json.ofOption_inj (Option.some.inj (hget "session_id"))
  have hturn := Json.ofOption_inj (Option.some.inj (hget "turn_id"))
  have hhost := Json.ofOption_inj (Option.some.inj (hget "host_message_id"))
  have hmethod := Option.some.inj (hget "binding_method")
  have hassurance := Option.some.inj (hget "binding_assurance")
  have hretain := Option.some.inj (hget "retain_body")
  simp only [Json.sortKeys, Json.str.injEq] at hsource hkey hmessage htype hmethod hassurance
  simp only [Json.sortKeys, Json.bool.injEq] at hretain
  refine Subtype.ext ?_
  rcases q with ⟨⟨⟩, hq⟩
  rcases q₀ with ⟨⟨⟩, hq₀⟩
  simp only at hsource hkey hscope hmessage htype hsession hturn hhost hmethod hassurance hretain
  subst hsource hkey hscope hmessage htype hsession hturn hhost hmethod hassurance hretain
  rfl

namespace Memory

open Relational Transactional

variable {E : Engine} {w w' : MemoryWorld} {s : MemoryStore} {made : List (Call × Answer)}
variable {t : Session} {q q₀ : SourceCaptureRequest} {p p₀ : MemoryProposal} {texts : Set String}

/-- A key, unique within its workspace and agent. -/
def replayKey (scope : AuthorityScope) (idempotencyKey : String) : String × String × String :=
  (scope.val.workspaceId, scope.val.agentId, idempotencyKey)

/-! ## Captures -/

/-- The key a source is kept under. -/
def ProtocolSourceRow.replayKey (r : ProtocolSourceRow) : String × String × String :=
  (r.workspaceId, r.agentId, r.idempotencyKey)

/-- What a capture that is repeated is answered. -/
def ProtocolSourceRow.receipt (r : ProtocolSourceRow) : SourceCaptureResult where
  sourceId := r.sourceId
  episodeId := r.episodeId
  sourceSha256 := r.sourceSha256
  replayed := true
  retained := r.retained

/-- A source is found by its key. -/
theorem getProtocolSource_eq_some {row : ProtocolSourceRow} {scope : AuthorityScope} {key : String} :
    s.getProtocolSource scope.val.workspaceId scope.val.agentId key = some row ↔
      row ∈ s.sources.rows ∧ row.replayKey = replayKey scope key := by
  have hp : s.getProtocolSource scope.val.workspaceId scope.val.agentId key =
      s.sources.rows.find? fun r => r.replayKey = replayKey scope key := by
    unfold MemoryStore.getProtocolSource
    congr 1
    funext r
    simp [ProtocolSourceRow.replayKey, replayKey]
  rw [hp]
  refine Table.find?_id_eq_some fun a b hab => ?_
  simp only [ProtocolSourceRow.replayKey, Prod.mk.injEq] at hab
  simp [protocolClash, ProtocolSourceRow.key, hab]

/-- A capture under a key that was used. -/
theorem exec_captureSource_used {row : ProtocolSourceRow} (hmem : row ∈ w.store.sources.rows)
    (hkey : row.replayKey = replayKey q.val.scope q.val.idempotencyKey) :
    exec (captureSource E q) w =
      if row.payloadSha256 ≠ "sha256:" ++ E.hashing.sha256Hex q.payload then
        (.error (.valueError "source idempotency key was reused with a different payload"), w)
      else if row.request = none then (.error (.keyError "audit_event_id"), w)
      else (.ok row.receipt, w) := by
  have hfound := getProtocolSource_eq_some.mpr ⟨hmem, hkey⟩
  unfold captureSource
  dsimp only
  rw [exec_bind, exec_readStore]
  dsimp only
  rw [hfound]
  dsimp only
  change exec (if row.payloadSha256 ≠ "sha256:" ++ E.hashing.sha256Hex q.payload then _ else _) w = _
  split
  · rfl
  · split
    · rfl
    · rfl

/-- The row a capture is answered from. -/
structure Receipt (E : Engine) (q : SourceCaptureRequest) (result : SourceCaptureResult)
    (row : ProtocolSourceRow) : Prop where
  key : row.replayKey = replayKey q.val.scope q.val.idempotencyKey
  payload : row.payloadSha256 = "sha256:" ++ E.hashing.sha256Hex q.payload
  kept : row.request ≠ none
  receipt : row.receipt = { result with replayed := true }

/-- A capture that is answered leaves its receipt. -/
theorem exists_receipt {result : SourceCaptureResult}
    (h : exec (captureSource E q) w = (.ok result, w')) :
    ∃ row ∈ w'.store.sources.rows, Receipt E q result row := by
  rcases hf : w.store.getProtocolSource q.val.scope.val.workspaceId q.val.scope.val.agentId
    q.val.idempotencyKey with - | row
  · unfold captureSource at h
    dsimp only at h
    rw [exec_bind, exec_readStore] at h
    dsimp only at h
    rw [hf] at h
    dsimp only at h
    rw [exec_bind, exec_readStore] at h
    dsimp only at h
    split at h
    · cases h
    · simp only [insertEpisode, exec_bind, exec_newId, utcNow, exec_readOff, exec_writeStore,
        exec_pure, exec_get] at h
      split at h
      · cases h
      · rename_i sources hinsert
        simp only [exec_bind, exec_writeStore, exec_pure] at h
        cases h
        have hrows := (Table.insert_eq_some.mp hinsert).2
        refine ⟨_, hrows ▸ List.mem_append_right _ (List.mem_singleton_self _), ?_⟩
        exact ⟨rfl, rfl, Option.some_ne_none _, rfl⟩
  · -- the key is used: the receipt is the row that is there
    obtain ⟨hmem, hkey⟩ := getProtocolSource_eq_some.mp hf
    rw [exec_captureSource_used hmem hkey] at h
    split at h
    · cases h
    · rename_i hpayload
      split at h
      · cases h
      · rename_i hkept
        cases h
        exact ⟨row, hmem, hkey, Decidable.not_not.mp hpayload, hkept, rfl⟩

/-- What becomes of a write that is repeated: with an equal payload it is
answered, with another it is refused, and either way nothing changes. -/
structure Repeated {α : Type} (body : Mem α) (equal : Prop) (answer : α) (w : MemoryWorld) :
    Prop where
  answered : equal → atomic body w = (.ok answer, w)
  refused : ¬ equal → (∃ e, (atomic body w).1 = .error e) ∧ (atomic body w).2.store = w.store

/-- What raises and changes nothing changes nothing as a call. -/
theorem atomic_of_stay {α : Type} {body : Mem α} {e : MemoryError}
    (h : exec body w = (.error e, w)) :
    (∃ e, (atomic body w).1 = .error e) ∧ (atomic body w).2.store = w.store := by
  rw [atomic_of_error h]
  exact ⟨⟨e, rfl⟩, rfl⟩

/-- Two texts of one digest are one text. -/
theorem prefixed_digest_ne (htexts : Set.InjOn E.hashing.sha256Hex texts) {a b : String}
    (ha : a ∈ texts) (hb : b ∈ texts) (hne : a ≠ b) :
    "sha256:" ++ E.hashing.sha256Hex b ≠ "sha256:" ++ E.hashing.sha256Hex a := by
  intro heq
  have hdigest : E.hashing.sha256Hex b = E.hashing.sha256Hex a := by
    simpa [String.ext_iff] using heq
  exact hne (htexts ha hb hdigest.symm)

/-- A capture whose row is kept is repeated as it should be. -/
theorem Receipt.repeated {result : SourceCaptureResult} {row : ProtocolSourceRow}
    (h : Receipt E q₀ result row) (hmem : row ∈ w.store.sources.rows)
    (htexts : Set.InjOn E.hashing.sha256Hex texts) (hq₀ : q₀.payload ∈ texts)
    (hq : q.payload ∈ texts)
    (hkey : replayKey q.val.scope q.val.idempotencyKey =
      replayKey q₀.val.scope q₀.val.idempotencyKey) :
    Repeated (captureSource E q) (q = q₀) { result with replayed := true } w := by
  have hexec := exec_captureSource_used (E := E) hmem (h.key.trans hkey.symm)
  rw [h.payload] at hexec
  refine ⟨fun hequal => ?_, fun hother => ?_⟩
  · rw [hequal, if_neg (not_not.mpr rfl), if_neg h.kept, h.receipt] at hexec
    rw [hequal]
    exact atomic_of_ok hexec
  · have hpayload : q.payload ≠ q₀.payload := fun heq => hother (SourceCaptureRequest.payload_inj heq)
    rw [if_pos (prefixed_digest_ne htexts hq hq₀ hpayload)] at hexec
    exact atomic_of_stay hexec

/-! ## Submissions -/

/-- The key a submission is kept under. -/
def ProtocolProposalRow.replayKey (r : ProtocolProposalRow) : String × String × String :=
  (r.workspaceId, r.agentId, r.idempotencyKey)

/-- A proposal is found by its key. -/
theorem getProtocolProposal_eq_some {row : ProtocolProposalRow} {scope : AuthorityScope}
    {key : String} :
    s.getProtocolProposal scope.val.workspaceId scope.val.agentId key = some row ↔
      row ∈ s.protocolProposals.rows ∧ row.replayKey = replayKey scope key := by
  have hp : s.getProtocolProposal scope.val.workspaceId scope.val.agentId key =
      s.protocolProposals.rows.find? fun r => r.replayKey = replayKey scope key := by
    unfold MemoryStore.getProtocolProposal
    congr 1
    funext r
    simp [ProtocolProposalRow.replayKey, replayKey]
  rw [hp]
  refine Table.find?_id_eq_some fun a b hab => ?_
  simp only [ProtocolProposalRow.replayKey, Prod.mk.injEq] at hab
  simp [protocolClash, ProtocolProposalRow.key, hab]

/-- A key that is a digest is that of the payload. -/
def KeyFits (E : Engine) (p : MemoryProposal) : Prop :=
  ¬ ("sha256:".toList.isPrefixOf p.val.idempotencyKey.toList ∧
    p.val.idempotencyKey ≠ p.payloadDigest E.hashing)

instance decidableKeyFits : Decidable (KeyFits E p) :=
  inferInstanceAs (Decidable (¬ _))

/-- A submission under a key that was used. -/
theorem exec_submitProposal_used {row : ProtocolProposalRow}
    (hmem : row ∈ w.store.protocolProposals.rows)
    (hkey : row.replayKey = replayKey p.val.scope p.val.idempotencyKey) :
    exec (submitProposal E p) w =
      if ¬ KeyFits E p then
        (.error (.valueError "sha256 idempotency key does not match proposal payload"), w)
      else if row.payloadSha256 ≠ p.payloadDigest E.hashing then
        (.error (.valueError "proposal idempotency key was reused with a different payload"), w)
      else (.ok { row.admission with replayed := true }, w) := by
  have hfound := getProtocolProposal_eq_some.mpr ⟨hmem, hkey⟩
  unfold submitProposal
  dsimp only
  by_cases hfits : KeyFits E p
  · rw [if_neg (not_not.mpr hfits), if_neg hfits, exec_bind, exec_readStore]
    dsimp only
    rw [hfound]
    dsimp only
    split
    · rfl
    · rfl
  · rw [if_pos hfits, if_pos (not_not.mp hfits)]
    rfl

/-- The row a submission is answered from. -/
structure Ledgered (E : Engine) (p : MemoryProposal) (admission : MemoryAdmission)
    (row : ProtocolProposalRow) : Prop where
  key : row.replayKey = replayKey p.val.scope p.val.idempotencyKey
  fits : KeyFits E p
  payload : row.payloadSha256 = p.payloadDigest E.hashing
  admission : { row.admission with replayed := true } = { admission with replayed := true }

/-- A submission that is answered leaves its row. -/
theorem exists_ledgered {admission : MemoryAdmission}
    (h : exec (submitProposal E p) w = (.ok admission, w')) :
    ∃ row ∈ w'.store.protocolProposals.rows, Ledgered E p admission row := by
  rcases hf : w.store.getProtocolProposal p.val.scope.val.workspaceId p.val.scope.val.agentId
    p.val.idempotencyKey with - | row
  · unfold submitProposal at h
    dsimp only at h
    split at h
    · cases h
    · rename_i hfits
      rw [exec_bind, exec_readStore] at h
      dsimp only at h
      rw [hf] at h
      -- the steps before the row is inserted
      obtain ⟨_, _, -, h⟩ := exec_bind_eq_ok.mp h
      obtain ⟨_, _, -, h⟩ := exec_bind_eq_ok.mp h
      obtain ⟨_, _, -, h⟩ := exec_bind_eq_ok.mp h
      obtain ⟨_, _, -, h⟩ := exec_bind_eq_ok.mp h
      obtain ⟨_, _, -, h⟩ := exec_bind_eq_ok.mp h
      obtain ⟨_, _, -, h⟩ := exec_bind_eq_ok.mp h
      simp only [exec_bind, utcNow, exec_readOff, exec_get] at h
      split at h
      · cases h
      · rename_i protocolProposals hinsert
        simp only [exec_bind, exec_writeStore, exec_pure] at h
        cases h
        have hrows := (Table.insert_eq_some.mp hinsert).2
        refine ⟨_, hrows ▸ List.mem_append_right _ (List.mem_singleton_self _), ?_⟩
        exact ⟨rfl, hfits, rfl, rfl⟩
  · -- the key is used: the answer is read off its row
    obtain ⟨hmem, hkey⟩ := getProtocolProposal_eq_some.mp hf
    rw [exec_submitProposal_used hmem hkey] at h
    split at h
    · cases h
    · rename_i hfits
      split at h
      · cases h
      · rename_i hpayload
        cases h
        exact ⟨row, hmem, hkey, not_not.mp hfits, not_not.mp hpayload, rfl⟩

/-- A submission whose row is there is repeated as it should be. -/
theorem Ledgered.repeated {admission : MemoryAdmission} {row : ProtocolProposalRow}
    (h : Ledgered E p₀ admission row) (hmem : row ∈ w.store.protocolProposals.rows)
    (htexts : Set.InjOn E.hashing.sha256Hex texts) (hp₀ : p₀.payload ∈ texts)
    (hp : p.payload ∈ texts)
    (hkey : replayKey p.val.scope p.val.idempotencyKey =
      replayKey p₀.val.scope p₀.val.idempotencyKey) :
    Repeated (submitProposal E p) (p.payload = p₀.payload) { admission with replayed := true } w := by
  have hexec := exec_submitProposal_used (E := E) hmem (h.key.trans hkey.symm)
  refine ⟨fun hequal => ?_, fun hother => ?_⟩
  · have hdigest : p.payloadDigest E.hashing = p₀.payloadDigest E.hashing :=
      congrArg (fun text => "sha256:" ++ E.hashing.sha256Hex text) hequal
    have hfits : KeyFits E p := by
      have hidem : p.val.idempotencyKey = p₀.val.idempotencyKey :=
        congrArg (fun key => key.2.2) hkey
      have hfits₀ := h.fits
      unfold KeyFits at hfits₀ ⊢
      rwa [hidem, hdigest]
    rw [if_neg (not_not.mpr hfits), hdigest, if_neg (not_not.mpr h.payload), h.admission] at hexec
    exact atomic_of_ok hexec
  · split at hexec
    · exact atomic_of_stay hexec
    · have hne : p₀.payloadDigest E.hashing ≠ p.payloadDigest E.hashing :=
        prefixed_digest_ne htexts hp hp₀ hother
      rw [h.payload, if_pos hne] at hexec
      exact atomic_of_stay hexec

/-! ## Runs -/

/-- Every capture and every submission that was answered is repeated as it
should be, whatever was called since. -/
structure Idempotent (E : Engine) (texts : Set String) (made : List (Call × Answer))
    (w : MemoryWorld) : Prop where
  captures : ∀ q₀ result, (.captureSource q₀, .captured (.ok result)) ∈ made →
    ∀ q : SourceCaptureRequest, q.payload ∈ texts →
      replayKey q.val.scope q.val.idempotencyKey = replayKey q₀.val.scope q₀.val.idempotencyKey →
        Repeated (captureSource E q) (q = q₀) { result with replayed := true } w
  submissions : ∀ p₀ admission, (.submitProposal p₀, .admitted (.ok admission)) ∈ made →
    ∀ p : MemoryProposal, p.payload ∈ texts →
      replayKey p.val.scope p.val.idempotencyKey = replayKey p₀.val.scope p₀.val.idempotencyKey →
        Repeated (submitProposal E p) (p.payload = p₀.payload) { admission with replayed := true } w

/-- The payloads of the calls that were answered. -/
def payloadsOf (made : List (Call × Answer)) : Set String :=
  {text | (∃ q result, (.captureSource q, .captured (.ok result)) ∈ made ∧ text = q.payload) ∨
    ∃ p admission, (.submitProposal p, .admitted (.ok admission)) ∈ made ∧ text = p.payload}

/-- No source that was captured is redacted. -/
def SourcesKept (made : List (Call × Answer)) (s : MemoryStore) : Prop :=
  ∀ q result, (.captureSource q, .captured (.ok result)) ∈ made → ∀ row ∈ s.sources.rows,
    row.replayKey = replayKey q.val.scope q.val.idempotencyKey → row.request ≠ none

/-- The row of a capture is there throughout, as it was or redacted. -/
theorem receipt_later (hr : Session.Run E made t) {result : SourceCaptureResult}
    (h : (.captureSource q, .captured (.ok result)) ∈ made) :
    ∃ row, Receipt E q result row ∧ (row ∈ t.world.store.sources.rows ∨
      { row with request := none, retained := false } ∈ t.world.store.sources.rows) := by
  obtain ⟨before, after, hsplit⟩ := List.append_of_mem h
  obtain ⟨u, -, -, hanswer, hlater⟩ := exists_grows hr hsplit
  have hrun : (atomic (captureSource E q) u.world).1 = .ok result := by
    simpa [Call.body] using hanswer
  obtain ⟨row, hmem, hreceipt⟩ := exists_receipt (atomic_eq_ok.mp (Prod.ext hrun rfl))
  obtain ⟨row', hmem', hmoves⟩ := hlater.sources row hmem
  rcases hmoves with rfl | rfl
  · exact ⟨row', hreceipt, .inl hmem'⟩
  · exact ⟨row, hreceipt, .inr hmem'⟩

/-- The row of a submission is there throughout. -/
theorem ledgered_later (hr : Session.Run E made t) {admission : MemoryAdmission}
    (h : (.submitProposal p, .admitted (.ok admission)) ∈ made) :
    ∃ row ∈ t.world.store.protocolProposals.rows, Ledgered E p admission row := by
  obtain ⟨before, after, hsplit⟩ := List.append_of_mem h
  obtain ⟨u, -, -, hanswer, hlater⟩ := exists_grows hr hsplit
  have hrun : (atomic (submitProposal E p) u.world).1 = .ok admission := by
    simpa [Call.body] using hanswer
  obtain ⟨row, hmem, hledgered⟩ := exists_ledgered (atomic_eq_ok.mp (Prod.ext hrun rfl))
  exact ⟨row, hlater.proposals hmem, hledgered⟩

/-- A redacted source is not answered again. -/
theorem sourcesKept_of_idempotent (hmade : payloadsOf made ⊆ texts)
    (hidem : Idempotent E texts made w) : SourcesKept made w.store := by
  intro q result hcall row hmem hkey hnone
  have hq : q.payload ∈ texts := hmade (.inl ⟨q, result, hcall, rfl⟩)
  have hanswered := (hidem.captures q result hcall q hq rfl).answered rfl
  have hexec := exec_captureSource_used (E := E) hmem hkey
  rw [atomic_eq_ok.mp hanswered, if_pos hnone] at hexec
  split at hexec
  · cases hexec
  · cases hexec

/-- **Writes are idempotent exactly as long as no source that was captured
is redacted.** -/
theorem idempotent_iff (hr : Session.Run E made t) (htexts : Set.InjOn E.hashing.sha256Hex texts)
    (hmade : payloadsOf made ⊆ texts) :
    Idempotent E texts made t.world ↔ SourcesKept made t.world.store := by
  refine ⟨sourcesKept_of_idempotent hmade, fun hkept => ⟨?_, ?_⟩⟩
  · intro q₀ result hcall q hq hkey
    obtain ⟨row, hreceipt, hmem⟩ := receipt_later hr hcall
    have hrow : row ∈ t.world.store.sources.rows := by
      refine hmem.resolve_right fun hredacted => ?_
      exact hkept q₀ result hcall _ hredacted hreceipt.key rfl
    exact hreceipt.repeated hrow htexts (hmade (.inl ⟨q₀, result, hcall, rfl⟩)) hq hkey
  · intro p₀ admission hcall p hp hkey
    obtain ⟨row, hrow, hledgered⟩ := ledgered_later hr hcall
    exact hledgered.repeated hrow htexts (hmade (.inr ⟨p₀, admission, hcall, rfl⟩)) hp hkey

/-! ## The sky -/

/-- An engine whose digests are the texts themselves. -/
def textEngine : Engine := { plainEngine with hashing := ⟨Json.canonicalJson, id⟩ }

/-- Two workspaces capture their messages. -/
def skyCaptures : List (Call × Answer) × Session :=
  History.play (Call.body textEngine) [.captureSource hereMessage, .captureSource thereMessage]
    ⟨plainWorld, []⟩

/-- Both are answered again, and nothing else is under their keys. -/
theorem idempotent_skyCaptures :
    Idempotent textEngine Set.univ skyCaptures.1 skyCaptures.2.world := by
  have hstart : Session.Run textEngine [] ⟨plainWorld, []⟩ := .start ⟨rfl, rfl⟩
  have hallowed : History.AllowedInTurn (Call.body textEngine) Call.Allowed [] ⟨plainWorld, []⟩
      [.captureSource hereMessage, .captureSource thereMessage] := ⟨trivial, trivial, trivial⟩
  have hrun : Session.Run textEngine skyCaptures.1 skyCaptures.2 := hstart.inTurn hallowed
  have hrows : ∀ row ∈ skyCaptures.2.world.store.sources.rows, row.request ≠ none := by
    decide +kernel
  have hkept : SourcesKept skyCaptures.1 skyCaptures.2.world.store :=
    fun _ _ _ row hrow _ => hrows row hrow
  exact (idempotent_iff hrun Function.injective_id.injOn (Set.subset_univ _)).mpr hkept

/-- A message is captured, a fact is made of it, and its record is
forgotten. -/
def skyForgotten : List (Call × Answer) × Session :=
  History.play (Call.body plainEngine) [.captureSource hereMessage, .submitProposal hereFact,
    .operation (.forgetRecord "user-1" "rec_0")] ⟨plainWorld, []⟩

theorem exists_of_isOk {ε α : Type} {x : Except ε α} (h : x.isOk = true) : ∃ a, x = .ok a := by
  rcases x with e | a
  · cases h
  · exact ⟨a, rfl⟩

/-- Then the message is not answered again. -/
theorem captureSource_lost_once_forgotten :
    Session.Run plainEngine skyForgotten.1 skyForgotten.2 ∧
      ¬ Idempotent plainEngine (payloadsOf skyForgotten.1) skyForgotten.1 skyForgotten.2.world := by
  have hstart : Session.Run plainEngine [] ⟨plainWorld, []⟩ := .start ⟨rfl, rfl⟩
  have hallowed : History.AllowedInTurn (Call.body plainEngine) Call.Allowed [] ⟨plainWorld, []⟩
      [.captureSource hereMessage, .submitProposal hereFact,
        .operation (.forgetRecord "user-1" "rec_0")] := ⟨trivial, trivial, rfl, trivial⟩
  refine ⟨hstart.inTurn hallowed, fun hidem => ?_⟩
  obtain ⟨result, hresult⟩ := exists_of_isOk
    (x := (atomic (captureSource plainEngine hereMessage) plainWorld).1) (by decide +kernel)
  have hcall : (.captureSource hereMessage, .captured (.ok result)) ∈ skyForgotten.1 :=
    hresult ▸ List.mem_cons_self
  have hredacted : ∃ row ∈ skyForgotten.2.world.store.sources.rows,
      row.replayKey = replayKey hereMessage.val.scope hereMessage.val.idempotencyKey ∧
        row.request = none := by decide +kernel
  obtain ⟨row, hrow, hkey, hnone⟩ := hredacted
  have hkept := sourcesKept_of_idempotent (fun _ htext => htext) hidem
  exact hkept hereMessage result hcall row hrow hkey hnone

end Memory

end Atmem
