import Atmem.Common.Checked
import Atmem.Contracts.SameValue
import Atmem.Delegated.Helpers.Authority
import Atmem.Delegated.Model.Envelope
import Atmem.Delegated.Model.Transport
/-!
# A delegated turn has one authority

Whoever prepares a turn, however often and whatever its provider answers,
the turn is closed once: by one envelope, by a failure or by the host's own
memory. What is injected is the envelope that closed it. A result is signed
as the canonical text of its unsigned fields and a request as its parts, a
line each: equal bytes are signed of the same message only, so a signature
stands for no other.
-/

namespace Atmem.Delegated

open Interleaving Relational Json

variable {E : Engine} {w : DelegatedWorld} {k k' : PrepareCall}

/-! ## The discipline -/

/-- Rows stay, from every moment on. -/
def authority (E : Engine) : Discipline (prepare E) fun _ => True where
  Watch p := p.Live
  watch_live _ h := h
  I h := Sound h.now ∧ ∀ s, h.Seen s → Keeps s h.now
  V h h' := Keeps h.now h'.now
  W _ _ _ _ := True
  G h s := Moves h.now s
  Q k _ r h := ∀ p, r = .ok (some p) → Answers E k p h.now
  evolves_refl h := Keeps.refl h.now
  evolves_trans := Keeps.trans
  window_refl _ _ _ := trivial
  window_trans _ _ := trivial
  keeps {h s} hI hG := by
    obtain ⟨hsound, hseen⟩ := hI
    refine ⟨⟨hG.sound hsound, fun s' hs' => ?_⟩, hG.toKeeps⟩
    rcases hs' with rfl | hs'
    · exact Keeps.refl _
    · have hbefore : h.Seen s' := (List.mem_cons.mp hs').imp id id
      exact (hseen s' hbefore).trans hG.toKeeps
  body_safe k _ h _ := by
    have hrelies : Relies fun _ h h' =>
        (Sound h'.now ∧ ∀ s, h'.Seen s → Keeps s h'.now) ∧ Keeps h.now h'.now ∧ True :=
      fun _ _ _ hr => hr.2.1
    refine (safe_prepare hrelies (Keeps.refl h.now)).mono fun log r h' hr p hp => ?_
    exact hr.2 _ hp p rfl

/-- The delegated tables, as the schema creates them. -/
def Fresh (w : DelegatedWorld) : Prop := w.acceptances.rows = [] ∧ w.reservations.rows = []

variable {c : PrepareConfig}

/-- Two envelopes of different texts, and one digest. -/
def Collide (E : Engine) (a b : Json) : Prop :=
  a.canonicalUnicode ≠ b.canonicalUnicode ∧
    E.sha256 a.canonicalUnicode.toUTF8 = E.sha256 b.canonicalUnicode.toUTF8

/-- What everything hashes to. -/
def oneDigest : String := String.ofList (List.replicate 64 '0')

/-- A turn of one migration. -/
def exampleTurn : Turn := ⟨"mig_1", ⟨"r", "t", "s", "a", "u", "w"⟩⟩

/-- What a provider answers in it. -/
def exampleEnvelope : Json :=
  .obj [("contract_id", .str "atmem.delegated-context-provider.v1"),
    ("provider", .obj [("id", .str "p"), ("version", .str "1"), ("instance_id", .str "i")]),
    ("binding", exampleTurn.binding.toDict), ("decision", .str "inject"),
    ("context", .obj [("encoding", .str "base64"), ("media_type", .str "text/plain; charset=utf-8"),
      ("bytes_base64", .str "aGk="), ("byte_length", .int 2), ("sha256", .str oneDigest)]),
    ("receipt", .obj [("id", .str "c"), ("contract_id", .str "r"), ("sha256", .str oneDigest)]),
    ("created_at", .str "1970-01-01T00:00:00Z"), ("expires_at", .str "1970-01-01T00:01:00Z"),
    ("nonce", .str (String.ofList (List.replicate 22 'n'))), ("source_refs", .arr []),
    ("withhold_reason", .null), ("idempotency_key", .str ("dcp-" ++ oneDigest)),
    ("signature", .obj [("algorithm", .str "ed25519"), ("profile", .str "ed25519-jcs-subset-v1"),
      ("key_id", .str "k"), ("signed_payload_sha256", .str oneDigest),
      ("value_base64", .str "signature")])]

theorem proper_exampleEnvelope : exampleEnvelope.Proper := by
  simp [exampleEnvelope, DelegatedBinding.toDict, Json.Proper, ProperFields, ProperItems]

theorem exampleEnvelope_of_ok {j : Json}
    (h : Except.ok (ε := LoadsError) exampleEnvelope = .ok j) : j.Proper := by
  cases h
  exact proper_exampleEnvelope

/-- An engine that reads every answer as the envelope. -/
def exampleEngine : Engine where
  hashing.digest _ := oneDigest
  hashing.sha256Hex text := text
  uuid n := String.ofList (List.replicate n '0')
  str _ := ""
  floatLt _ _ := false
  sha256 _ := oneDigest
  b64decode text :=
    if text = "aGk=" then some ⟨#[104, 105]⟩
    else if text = "key" then some ⟨Array.replicate 32 0⟩ else some ⟨Array.replicate 64 0⟩
  b64encode bytes :=
    if bytes.size = 2 then "aGk=" else if bytes.size = 32 then "key" else "signature"
  loadsClosed := ⟨fun _ => .ok exampleEnvelope, exampleEnvelope_of_ok⟩
  fromIso text := if text = "1970-01-01T00:00:00+00:00" then some 0 else some 60000000
  ed25519 _ _ _ := true
  message name _ := name

/-- A call whose provider is registered and answers no bytes at all. -/
def exampleCall : PrepareCall where
  turn := exampleTurn
  registration := .ok (some ⟨"p", "1", "i", "k", "key", ["w"], ["a"], ["u"], 1000, true⟩)
  response := .ok ⟨#[]⟩
  verifiedAt := 0
  locked _ := false

/-- A database with the migration and no turn. -/
def exampleWorld : DelegatedWorld where
  control := { store := { migrations := ["mig_1"] }, clock := fun n => n }

end Atmem.Delegated

/-! ## What a signature covers -/

namespace Atmem.Delegated

open Checked Delimited Json Transport

/-! ## Envelopes -/

/-- A proper value is so without some keys. -/
theorem proper_without {j : Json} (hp : j.Proper) (keys : List String) :
    (j.without keys).Proper := by
  match j with
  | .null | .bool _ | .int _ | .float _ | .str _ | .arr _ => exact hp
  | .obj kvs =>
    have hsub : (kvs.filter fun kv => kv.1 ∉ keys).Sublist kvs := List.filter_sublist
    exact ⟨hp.1.sublist (hsub.map _), properFields_iff.mpr fun kv hkv =>
      properFields_iff.mp hp.2 kv (hsub.subset hkv)⟩

/-- The bytes of an envelope the profile admits. -/
theorem signingBytes_eq_ok {envelope : Json} {bytes : ByteArray}
    (h : signingBytes E envelope = .ok bytes) :
    bytes = signatureDomain.toUTF8 ++
      (envelope.without ["signature"]).canonicalUnicode.toUTF8 := by
  obtain ⟨payload, hpayload, hbytes⟩ := bind_eq_ok_iff.mp h
  obtain ⟨⟨⟩, -, htext⟩ := bind_eq_ok_iff.mp hpayload
  split at htext
  · cases htext
  · rw [← Except.ok.inj hbytes, ← Except.ok.inj htext]

/-- **Envelopes are signed alike** exactly when their unsigned fields hold
the same. -/
theorem signingBytes_eq_iff {a b : Json} {s t : ByteArray} (ha : a.Proper) (hb : b.Proper)
    (hs : signingBytes E a = .ok s) (ht : signingBytes E b = .ok t) :
    s = t ↔ SameValue (a.without ["signature"]) (b.without ["signature"]) := by
  rw [signingBytes_eq_ok hs, signingBytes_eq_ok ht, ByteArray.append_right_inj,
    ← canonicalUnicode_eq_iff (proper_without ha _) (proper_without hb _)]
  exact String.toByteArray_inj

/-! ## Requests -/

namespace Transport

/-- The values of `FIELDS`. -/
def Fields.values (f : Fields) : List String :=
  [f.profile, f.provider, f.instanceId, f.keyId, f.issued, f.expires, f.nonce]

/-- The parts of a request that are signed. -/
def signingParts (M : Mac) (q : Request) (f : Fields) : List String :=
  [f.profile, q.method, f.authority, q.target, f.provider, f.instanceId, f.keyId, f.issued,
    f.expires, f.nonce, M.sha256 q.body]

variable {M : Mac} {q q' : Request} {f f' : Fields} {s t : String}

/-- The signed text: a line for each part, of no break. -/
theorem signingInput_eq_ok (h : signingInput M q f = .ok s) :
    (∀ part ∈ signingParts M q f, '\n' ∉ part.toList) ∧
      s.toList = ((signingParts M q f).map String.toList).flatMap (· ++ ['\n']) := by
  unfold signingInput at h
  dsimp only at h
  split at h
  · cases h
  · rename_i hok
    refine ⟨fun part hpart hbreak => hok ?_, ?_⟩
    · refine List.any_eq_true.mpr ⟨part, hpart, ?_⟩
      have hlow : part.toList.any fun c => decide (c.toNat < 33) || decide (126 < c.toNat) :=
        List.any_eq_true.mpr ⟨'\n', hbreak, by decide⟩
      rw [hlow, Bool.or_true]
    · rw [← Except.ok.inj h, String.toList_append, String.toList_intercalate]
      exact intercalate_append_stop (by simp)

/-- **Requests are signed alike** exactly when their parts are the same. -/
theorem signingInput_eq_iff (hs : signingInput M q f = .ok s) (ht : signingInput M q' f' = .ok t) :
    s = t ↔ signingParts M q f = signingParts M q' f' := by
  obtain ⟨hbreak, htext⟩ := signingInput_eq_ok hs
  obtain ⟨hbreak', htext'⟩ := signingInput_eq_ok ht
  constructor
  · rintro rfl
    rw [htext] at htext'
    have hparts := terminated_inj (List.forall_mem_map.mpr hbreak)
      (List.forall_mem_map.mpr hbreak') htext'
    exact List.map_injective_iff.mpr (fun _ _ => String.toList_inj.mp) hparts
  · intro hparts
    rw [← String.toList_inj, htext, htext', hparts]

end Transport

/-! ## Both -/

/-- **The signed bytes determine the message.** Two envelopes the profile
admits are signed as the same bytes exactly when their unsigned fields are
the same value. Two requests are exactly when their methods, authorities,
targets, fields of authentication and digests of the body are. -/
theorem signed_bytes_determine_message :
    (∀ (E : Engine) (a b : Json) (s t : ByteArray), a.Proper → b.Proper →
      signingBytes E a = .ok s → signingBytes E b = .ok t →
      (s = t ↔ SameValue (a.without ["signature"]) (b.without ["signature"]))) ∧
    ∀ (M : Mac) (q q' : Request) (f f' : Fields) (s t : String), signingInput M q f = .ok s →
      signingInput M q' f' = .ok t →
      (s = t ↔ q.method = q'.method ∧ f.authority = f'.authority ∧ q.target = q'.target ∧
        f.values = f'.values ∧ M.sha256 q.body = M.sha256 q'.body) := by
  refine ⟨fun E a b s t ha hb hs ht => signingBytes_eq_iff ha hb hs ht,
    fun M q q' f f' s t hs ht => ?_⟩
  rw [signingInput_eq_iff hs ht]
  simp only [signingParts, Fields.values, List.cons.injEq]
  tauto

/-- A call of a context, and what it says of itself. -/
def contextCall (target : String) : Request := ⟨"POST", target, fun _ => [], ⟨#[]⟩⟩

/-- The fields of a signed request for a context. -/
def contextFields : Fields := ⟨profile, "p", "i", "k", "1", "2", "n", "s", "host"⟩

/-- A text is not signed as the number it spells, and two targets are not
signed alike. -/
theorem signed_bytes_apart :
    (∃ s t, signingBytes exampleEngine (.obj [("attempt", .int 1), ("signature", .null)]) = .ok s ∧
      signingBytes exampleEngine (.obj [("attempt", .str "1")]) = .ok t ∧ s ≠ t) ∧
    ∃ s t, signingInput ⟨fun _ => "00", fun _ _ => "00"⟩ (contextCall "/a") contextFields = .ok s ∧
      signingInput ⟨fun _ => "00", fun _ _ => "00"⟩ (contextCall "/b") contextFields = .ok t ∧
      s ≠ t := by
  refine ⟨⟨_, _, rfl, rfl, fun h => ?_⟩, _, _, rfl, rfl, fun h => ?_⟩
  · have hsame := (signed_bytes_determine_message.1 exampleEngine
      (.obj [("attempt", .int 1), ("signature", .null)]) (.obj [("attempt", .str "1")]) _ _
      (by simp [Proper, ProperFields])
      (by simp [Proper, ProperFields]) rfl rfl).mp h
    simp [without, SameValue, SameFields] at hsame
  · have hsame := (signed_bytes_determine_message.2 ⟨fun _ => "00", fun _ _ => "00"⟩
      (contextCall "/a") (contextCall "/b") contextFields contextFields _ _ rfl rfl).mp h
    exact absurd hsame.2.2.1 (by decide)

end Atmem.Delegated
