import Atmem.Home.Helpers.Codec
import Atmem.Code.Model.BundleTransport
/-!
# Sealed pieces

What is known of the primitives, what a sealed piece is opened to, and how
long it is.
-/

namespace Atmem.BundleTransport

open Artifacts (Bytes utf8 length_utf8)
open Checked

variable {E : Engine} {K : Keys} {plaintext raw : Bytes} {coins : Coins}

/-- What is documented of the primitives, for a pair of keys: that they are
correct, how long what they return is, and that no text is longer than the JSON
it is read from. -/
structure Engine.Sound (E : Engine) (K : Keys) : Prop where
  decaps_encaps : ∀ coins, E.decaps K.recipientSecretKey (E.encaps K.recipientPublicKey coins).1 =
    some (E.encaps K.recipientPublicKey coins).2
  length_encaps : ∀ coins, (E.encaps K.recipientPublicKey coins).1.length = 1088
  decrypt_encrypt : ∀ key nonce plaintext aad,
    E.decrypt key nonce (E.encrypt key nonce plaintext aad) aad = some plaintext
  length_encrypt : ∀ key nonce plaintext aad,
    (E.encrypt key nonce plaintext aad).length = plaintext.length + 16
  verify_sign : ∀ message coins,
    E.verify K.signingPublicKey message (E.sign K.signingSecretKey message coins) = true
  length_sign : ∀ message coins, (E.sign K.signingSecretKey message coins).length = 3309
  length_signingPublicKey : K.signingPublicKey.length = 1952
  isDigest_sha256Hex : ∀ bytes, Artifacts.isDigest (E.sha256Hex bytes) = true
  length_text_le : ∀ bytes fields name text, E.loads bytes = some (.obj fields) →
    fields.lookup name = some (.str text) → text.toList.length ≤ bytes.length

/-- The frames of a long bundle are read back, their keys sorted. -/
def Engine.ReadsFrames (E : Engine) (raw : Bytes) : Prop :=
  chunk < raw.length → ∀ ordinal < chunkCount raw, E.loads (frameBytes E raw ordinal) =
    some (Json.obj (frameFields E raw ordinal)).sortKeys

/-! ## Exports -/

/-- What is encoded is decoded. -/
theorem b64decode_base64 (bytes : Bytes) : b64decode (base64 bytes) = .ok bytes := by
  rw [b64decode, base64, String.toList_ofList, Base64.decode_encode]
  rfl

theorem bytesOf_of_base64 {bundle : Json} {name : String} {bytes : Bytes}
    (h : bundle.get? name = some (.str (base64 bytes))) : bytesOf E bundle name = .ok bytes := by
  rw [bytesOf, h]
  exact b64decode_base64 bytes

/-- Without its signature a piece is what was signed. -/
theorem without_signature (plaintext : Bytes) (coins : Coins) :
    (encryptedExport E K plaintext coins).without ["signature"] =
      .obj (unsignedFields E K plaintext coins) := by
  simp [encryptedExport, unsignedFields, Json.without]

/-- **An export is decrypted to what was exported.** -/
theorem decryptExport_encryptedExport (hE : E.Sound K) (plaintext : Bytes) (coins : Coins) :
    decryptExport E K.recipientSecretKey (encryptedExport E K plaintext coins) =
      .ok plaintext := by
  have hformat : (encryptedExport E K plaintext coins).get? "format" =
    some (.str exportFormat) := rfl
  have hsuite : (encryptedExport E K plaintext coins).get? "suite" = some (.str exportSuite) := rfl
  unfold decryptExport
  rw [if_neg (by simp [hformat, hsuite])]
  refine bind_of_eq_ok (@bytesOf_of_base64 E _ _ K.signingPublicKey rfl) ?_
  refine bind_of_eq_ok (bytesOf_of_base64 rfl) ?_
  rw [without_signature, hE.verify_sign, if_neg (by decide)]
  refine bind_of_eq_ok (bytesOf_of_base64 rfl) ?_
  rw [hE.decaps_encaps]
  refine bind_of_eq_ok rfl ?_
  refine bind_of_eq_ok (bytesOf_of_base64 rfl) ?_
  refine bind_of_eq_ok (bytesOf_of_base64 rfl) ?_
  rw [hE.decrypt_encrypt]
  rfl

/-! ## Lengths -/

/-- Three bytes become four characters. -/
theorem length_base64 (bytes : Bytes) :
    (base64 bytes).toList.length = (bytes.length + 2) / 3 * 4 := by
  rw [base64, String.toList_ofList, Base64.length_encode]

/-- Base 64 needs no escapes. -/
theorem length_quote_base64 (bytes : Bytes) :
    (Json.quote (base64 bytes)).length = (bytes.length + 2) / 3 * 4 + 2 := by
  have hplain : ('=' :: Base64.alphabet).all (fun c => Json.escapeAscii c = [c]) = true := by
    decide +kernel
  simp only [List.all_eq_true, decide_eq_true_eq] at hplain
  rw [Json.length_quote_of_plain, length_base64]
  intro c hc
  rw [base64, String.toList_ofList] at hc
  rcases Base64.mem_encode hc with hc | rfl
  · exact hplain c (List.mem_cons_of_mem _ hc)
  · exact hplain '=' List.mem_cons_self

/-- A canonical text of ASCII has a byte for each character. -/
theorem length_canonicalBytes {j : Json} (hp : j.Proper) :
    (canonicalBytes j).length = j.sortKeys.dumps.length := by
  rw [canonicalBytes, length_utf8, Json.utf8ByteSize_canonicalJson hp]

/-- How long an object of texts and numbers is, field by field. -/
theorem length_canonicalBytes_le {fields : List (String × Json)} (hp : (Json.obj fields).Proper)
    (hflat : Json.sortKeysFields fields = fields) :
    (canonicalBytes (.obj fields)).length ≤
      (fields.map fun kv => (Json.quote kv.1).length + kv.2.dumps.length + 2).sum + 2 := by
  rw [length_canonicalBytes hp, Json.sortKeys, hflat]
  exact Json.length_dumps_sortFields_le fields

/-- What a frame can hold, with what it says of itself. -/
def maxFrame : ℕ := 264000

/-- A sealed piece has no field twice. -/
theorem proper_encryptedExport (plaintext : Bytes) (coins : Coins) :
    (encryptedExport E K plaintext coins).Proper := by
  refine ⟨?_, ?_⟩
  · simp only [unsignedFields, List.map_cons, List.map_nil, List.cons_append, List.nil_append]
    decide
  · simp [unsignedFields, Json.ProperFields, Json.Proper]

/-- A sealed frame fits in a piece. -/
theorem length_encryptedExport_le (coins : Coins) (hE : E.Sound K)
    (hfits : plaintext.length ≤ maxFrame) :
    (canonicalBytes (encryptedExport E K plaintext coins)).length ≤ maxPieceBytes := by
  have hlength :=
    length_canonicalBytes_le (proper_encryptedExport (E := E) (K := K) plaintext coins) rfl
  have hkeys : (Json.quote "format").length = 8 ∧ (Json.quote "suite").length = 7 ∧
      (Json.quote "kem_ciphertext").length = 16 ∧ (Json.quote "nonce").length = 7 ∧
      (Json.quote "ciphertext").length = 12 ∧ (Json.quote "signing_public_key").length = 20 ∧
      (Json.quote "signature").length = 11 ∧ (Json.quote exportFormat).length = 36 ∧
      (Json.quote exportSuite).length = 34 := by decide +kernel
  obtain ⟨k₁, k₂, k₃, k₄, k₅, k₆, k₇, k₈, k₉⟩ := hkeys
  have hstr : ∀ s : String, Json.dumps (.str s) = Json.quote s := fun _ => rfl
  simp only [unsignedFields, List.cons_append, List.nil_append, List.map_cons, List.map_nil,
    List.sum_cons, List.sum_nil, hstr, k₁, k₂, k₃, k₄, k₅, k₆, k₇, k₈, k₉, length_quote_base64,
    hE.length_encaps, hE.length_encrypt, hE.length_sign, hE.length_signingPublicKey,
    coins.length_nonce] at hlength
  refine hlength.trans ?_
  simp only [maxFrame] at hfits
  simp only [maxPieceBytes]
  omega

/-- The text of a field of an export is no longer than the export. -/
theorem isBoundedText_encryptedExport (coins : Coins) (hE : E.Sound K)
    (hfits : plaintext.length ≤ maxFrame) :
    ∀ field ∈ unsignedFields E K plaintext coins ++ [("signature", .str (base64
      (E.sign K.signingSecretKey (canonicalBytes (.obj (unsignedFields E K plaintext coins)))
        coins.signature)))], isBoundedText field.2 = true := by
  have hbase : ∀ bytes : Bytes, bytes.length ≤ maxFrame + 16 →
      isBoundedText (.str (base64 bytes)) = true := by
    intro bytes hbytes
    rw [isBoundedText, decide_eq_true_eq, length_base64]
    simp only [maxFrame] at hbytes
    simp only [maxPieceBytes]
    omega
  have hformat : isBoundedText (.str exportFormat) = true := by decide +kernel
  have hsuite : isBoundedText (.str exportSuite) = true := by decide +kernel
  simp only [unsignedFields, List.cons_append, List.nil_append, List.forall_mem_cons]
  refine ⟨hformat, hsuite, hbase _ ?_, hbase _ ?_, hbase _ ?_, hbase _ ?_, hbase _ ?_,
    fun _ h => absurd h List.not_mem_nil⟩
  · rw [hE.length_encaps]
    decide
  · rw [coins.length_nonce]
    decide
  · rw [hE.length_encrypt]
    exact Nat.add_le_add_right hfits 16
  · rw [hE.length_signingPublicKey]
    decide
  · rw [hE.length_sign]
    decide

/-- **A sealed piece passes the checks.** -/
theorem checkedPiece_encryptedExport (hE : E.Sound K) (hfits : plaintext.length ≤ maxFrame) :
    checkedPiece (encryptedExport E K plaintext coins) (base64 K.signingPublicKey) = .ok () := by
  have hlength := length_encryptedExport_le coins hE hfits
  have hbounded := isBoundedText_encryptedExport coins hE hfits
  have hkeys : keysAre (unsignedFields E K plaintext coins ++ [("signature", .str (base64
      (E.sign K.signingSecretKey (canonicalBytes (.obj (unsignedFields E K plaintext coins)))
        coins.signature)))]) pieceFields = true := rfl
  have hkey : (encryptedExport E K plaintext coins).get? "signing_public_key" =
      some (.str (base64 K.signingPublicKey)) := rfl
  unfold encryptedExport at hlength hkey ⊢
  unfold checkedPiece
  dsimp only at hlength hkey ⊢
  rw [if_pos]
  rw [hkeys, List.all_eq_true.mpr hbounded, hkey]
  simpa using hlength

/-- So it is sealed without an error. -/
theorem sealPiece_eq (hE : E.Sound K) (hfits : plaintext.length ≤ maxFrame) :
    sealPiece E K plaintext coins = .ok (encryptedExport E K plaintext coins) := by
  unfold sealPiece
  refine bind_of_eq_ok (checkedPiece_encryptedExport hE hfits) ?_
  refine bind_of_eq_ok (bytesOf_of_base64 rfl) ?_
  rw [without_signature, hE.verify_sign, if_neg (by decide)]
  rfl

/-! ## Frames -/

variable {ordinal n : ℕ}

/-- The pieces are as long as a chunk, but for the last. -/
theorem length_slice (raw : Bytes) (ordinal : ℕ) :
    (slice raw ordinal).length = min chunk (raw.length - ordinal * chunk) := by
  rw [slice, List.length_take, List.length_drop]

theorem proper_frame (ordinal count total : ℕ) (digest data : String) : (Json.obj
    [("format", .str innerFormat), ("ordinal", .int ordinal), ("count", .int count),
      ("total_bytes", .int total), ("plaintext_sha256", .str digest),
      ("data_base64", .str data)]).Proper := by
  refine ⟨?_, ?_⟩
  · simp only [List.map_cons, List.map_nil]
    decide
  · simp [Json.ProperFields, Json.Proper]

/-- What a frame says of itself is short. -/
theorem length_frame_le {count total : ℕ} {digest : String} (data : String)
    (hordinal : ordinal ≤ 2 ^ 52) (hcount : count ≤ 2 ^ 52) (htotal : total ≤ 2 ^ 52)
    (hdigest : digest.toList.length = 64) :
    (canonicalBytes (.obj [("format", .str innerFormat), ("ordinal", .int ordinal),
      ("count", .int count), ("total_bytes", .int total), ("plaintext_sha256", .str digest),
      ("data_base64", .str data)])).length ≤ (Json.quote data).length + 1000 := by
  have hlength := length_canonicalBytes_le (proper_frame ordinal count total digest data) rfl
  have h₁ := Json.length_dumps_nat_le hordinal
  have h₂ := Json.length_dumps_nat_le hcount
  have h₃ := Json.length_dumps_nat_le htotal
  have h₄ := Json.length_quote_le digest
  have hkeys : (Json.quote "format").length = 8 ∧ (Json.quote "ordinal").length = 9 ∧
      (Json.quote "count").length = 7 ∧ (Json.quote "total_bytes").length = 13 ∧
      (Json.quote "plaintext_sha256").length = 18 ∧ (Json.quote "data_base64").length = 13 ∧
      (Json.quote innerFormat).length = 36 := by decide +kernel
  obtain ⟨k₁, k₂, k₃, k₄, k₅, k₆, k₇⟩ := hkeys
  have hstr : ∀ s : String, Json.dumps (.str s) = Json.quote s := fun _ => rfl
  rw [hdigest] at h₄
  simp only [List.map_cons, List.map_nil, List.sum_cons, List.sum_nil, hstr, k₁, k₂, k₃, k₄, k₅,
    k₆, k₇] at hlength
  omega

/-- A frame fits a piece. -/
theorem length_frameBytes_le (hE : E.Sound K) (hsize : raw.length ≤ maxBytes)
    (hordinal : ordinal < chunkCount raw) : (frameBytes E raw ordinal).length ≤ maxFrame := by
  have hcount : chunkCount raw ≤ 2 ^ 52 := by
    simp only [chunkCount, chunk]
    simp only [maxBytes] at hsize
    omega
  have hdigits : (E.sha256Hex raw).toList.length = 64 := by
    have hdigest := hE.isDigest_sha256Hex raw
    rw [Artifacts.isDigest, Bool.and_eq_true] at hdigest
    exact of_decide_eq_true hdigest.1
  have hdata : (Json.quote (base64 (slice raw ordinal))).length ≤ maxFrame - 1000 := by
    rw [length_quote_base64, length_slice]
    simp only [chunk, maxFrame]
    omega
  have hlength := length_frame_le (base64 (slice raw ordinal)) (hordinal.le.trans hcount) hcount
    (hsize.trans (by decide)) hdigits
  exact hlength.trans (Nat.add_le_of_le_sub (by decide) hdata)

theorem lookup_sortFields {fields : List (String × Json)} (hkeys : (fields.map (·.1)).Nodup)
    (name : String) : (Json.sortFields fields).lookup name = fields.lookup name := by
  have hperm := Json.sortFields_perm fields
  have hsorted := (hperm.map (·.1)).nodup_iff.mpr hkeys
  refine Option.ext fun value => ?_
  rw [Json.lookup_eq_some_iff_mem hsorted, Json.lookup_eq_some_iff_mem hkeys, hperm.mem_iff]

theorem keysAre_sortFields (fields : List (String × Json)) (names : List String) :
    keysAre (Json.sortFields fields) names = keysAre fields names := by
  rw [Bool.eq_iff_iff]
  simp [keysAre, (Json.sortFields_perm fields).mem_iff]

/-- The frame of a part. -/
def frameOf (E : Engine) (raw : Bytes) (ordinal : ℕ) : Frame :=
  ⟨ordinal, chunkCount raw, raw.length, E.sha256Hex raw, base64 (slice raw ordinal)⟩

/-- **A frame is read back**, its keys sorted. -/
theorem readFrame_sortFields : readFrame (Json.sortFields (frameFields E raw ordinal)) =
    some (frameOf E raw ordinal) := by
  have hkeys : ((frameFields E raw ordinal).map (·.1)).Nodup := (proper_frame _ _ _ _ _).1
  unfold readFrame
  rw [keysAre_sortFields]
  simp only [lookup_sortFields hkeys]
  rfl

/-- The text of a frame is read as its fields, in order. -/
theorem parseJsonStrict_frameBytes (hreads : E.ReadsFrames raw) (hlong : chunk < raw.length)
    (hordinal : ordinal < chunkCount raw) : parseJsonStrict E (frameBytes E raw ordinal) =
      .ok (Json.sortFields (frameFields E raw ordinal)) := by
  rw [parseJsonStrict, hreads hlong ordinal hordinal]
  rfl

/-- A frame may stand at its ordinal, and nowhere else. -/
theorem fits_frameOf (hE : E.Sound K) (hpos : 1 ≤ raw.length) (hsize : raw.length ≤ maxBytes) :
    (frameOf E raw ordinal).fits (chunkCount raw) ordinal = true := by
  have hlength := length_slice raw ordinal
  have hdigest := hE.isDigest_sha256Hex raw
  have hdata : (base64 (slice raw ordinal)).toList.length ≤ 4 * ((chunk + 2) / 3) := by
    rw [length_base64, hlength]
    simp only [chunk]
    omega
  have hlow : (chunkCount raw - 1) * chunk < raw.length := by
    simp only [chunkCount, chunk]
    omega
  have hhigh : raw.length ≤ min maxBytes (chunkCount raw * chunk) := by
    refine le_min hsize ?_
    simp only [chunkCount, chunk]
    omega
  have hlow' : (((chunkCount raw - 1) * chunk : ℕ) : ℤ) < raw.length := by exact_mod_cast hlow
  have hhigh' : (raw.length : ℤ) ≤ (min maxBytes (chunkCount raw * chunk) : ℕ) := by
    exact_mod_cast hhigh
  unfold frameOf Frame.fits
  dsimp only
  rw [decide_eq_true rfl, decide_eq_true rfl, decide_eq_true hlow', decide_eq_true hhigh', hdigest,
    decide_eq_true hdata]
  rfl

/-! ## Sealed bundles -/

/-- What the pieces of a bundle are bound by. -/
def bindingOf (E : Engine) (raw : Bytes) : ℤ × String := (raw.length, E.sha256Hex raw)

/-- A frame that was sealed is opened. -/
theorem openFrame_sealed (hE : E.Sound K) (hreads : E.ReadsFrames raw)
    (hlong : chunk < raw.length) (hsize : raw.length ≤ maxBytes)
    (hordinal : ordinal < chunkCount raw) (coins : Coins) :
    openFrame E K.recipientSecretKey (base64 K.signingPublicKey) (chunkCount raw) ordinal
      (encryptedExport E K (frameBytes E raw ordinal) coins) = .ok (frameOf E raw ordinal) := by
  have hfits := length_frameBytes_le hE hsize hordinal
  unfold openFrame
  refine bind_of_eq_ok (checkedPiece_encryptedExport hE hfits) ?_
  refine bind_of_eq_ok (decryptExport_encryptedExport hE _ coins) ?_
  refine bind_of_eq_ok (parseJsonStrict_frameBytes hreads hlong hordinal) ?_
  rw [checkedFrame, readFrame_sortFields, Option.filter_some,
    fits_frameOf hE (Nat.one_le_of_lt hlong) hsize]
  rfl

/-- What is expected of a piece's size. -/
theorem length_slice_eq_size (hordinal : ordinal < chunkCount raw) :
    ((slice raw ordinal).length : ℤ) = (frameOf E raw ordinal).size (chunkCount raw) ordinal := by
  have hlength := length_slice raw ordinal
  have htotal : (frameOf E raw ordinal).totalBytes = raw.length := rfl
  rw [hlength, Frame.size, htotal]
  rcases Nat.lt_or_ge ordinal (chunkCount raw - 1) with hlt | hge
  · rw [if_pos hlt]
    simp only [chunkCount, chunk] at hordinal hlt ⊢
    omega
  · rw [if_neg (not_lt.mpr hge)]
    simp only [chunkCount, chunk] at hordinal hge ⊢
    omega

/-- **The loop over the pieces of one bundle**, from an ordinal on. -/
theorem openPieces_sealed (hE : E.Sound K) (hreads : E.ReadsFrames raw)
    (hlong : chunk < raw.length) (hsize : raw.length ≤ maxBytes)
    (coins : ℕ → Coins) (m ordinal : ℕ) (binding : Option (ℤ × String))
    (hend : ordinal + m = chunkCount raw) (hbinding : ∀ b ∈ binding, b = bindingOf E raw) :
    openPieces E K.recipientSecretKey (base64 K.signingPublicKey) (chunkCount raw) ordinal binding
        ((List.range' ordinal m).map fun i => encryptedExport E K (frameBytes E raw i) (coins i)) =
      .ok ((List.range' ordinal m).map (slice raw),
        if m = 0 then binding else some (bindingOf E raw)) := by
  induction m generalizing ordinal binding with
  | zero => rfl
  | succ m ih =>
    have hordinal : ordinal < chunkCount raw := by omega
    have hrest := ih (ordinal + 1) (some (bindingOf E raw)) (by omega)
      fun b hb => (Option.some.inj hb).symm
    have hsame : binding.all (· = (frameOf E raw ordinal).binding) = true :=
      (Option.all_eq_true _ _).mpr fun b hb => decide_eq_true (hbinding b hb)
    rw [List.range'_succ, List.map_cons, List.map_cons, openPieces]
    refine bind_of_eq_ok (openFrame_sealed hE hreads hlong hsize hordinal (coins ordinal)) ?_
    refine bind_of_eq_ok (ensure_eq_ok.mpr hsame) ?_
    refine bind_of_eq_ok (b64decode_base64 (slice raw ordinal)) ?_
    refine bind_of_eq_ok (ensure_eq_ok.mpr (length_slice_eq_size hordinal)) ?_
    rw [ite_self] at hrest
    rw [if_neg (Nat.succ_ne_zero m)]
    exact bind_of_eq_ok hrest rfl

/-- The parts of a bundle, together. -/
theorem flatten_slices (raw : Bytes) (n : ℕ) :
    ((List.range n).map (slice raw)).flatten = raw.take (n * chunk) := by
  induction n with
  | zero => simp
  | succ n ih =>
    rw [List.range_succ, List.map_append, List.flatten_append, ih, Nat.succ_mul, List.take_add]
    simp [slice]

/-- The bundle that pieces are sent in. -/
def chunked (K : Keys) (pieces : List Json) : Json :=
  .obj [("format", .str format), ("signing_public_key", .str (base64 K.signingPublicKey)),
    ("chunks", .arr pieces)]

/-- What is opened of pieces is what the loop makes of them. -/
theorem openProjectBytes_chunked (E : Engine) (K : Keys) (pieces : List Json)
    (hpos : 1 ≤ pieces.length) (hmany : pieces.length ≤ maxPieces) :
    openProjectBytes E K.recipientSecretKey K.signingPublicKey (chunked K pieces) =
      openPieces E K.recipientSecretKey (base64 K.signingPublicKey) pieces.length 0 none pieces >>=
        fun opened => joinPieces E opened.1 opened.2 := by
  have hkey : (chunked K pieces).get? "signing_public_key" =
    some (.str (base64 K.signingPublicKey)) := rfl
  have hformat : (chunked K pieces).get? "format" = some (.str format) := rfl
  have hchunks : (chunked K pieces).get? "chunks" = some (.arr pieces) := rfl
  unfold openProjectBytes
  dsimp only
  rw [if_neg (not_not.mpr hkey), if_neg (not_not.mpr hformat), hchunks]
  unfold chunked
  dsimp only
  rw [if_pos ⟨rfl, hpos, hmany⟩]

/-- An export that is the bundle is opened to what was exported. -/
theorem openProjectBytes_export (hE : E.Sound K) (hsize : plaintext.length ≤ maxBytes) :
    openProjectBytes E K.recipientSecretKey K.signingPublicKey
      (encryptedExport E K plaintext coins) = .ok plaintext := by
  have hkey : (encryptedExport E K plaintext coins).get? "signing_public_key" =
    some (.str (base64 K.signingPublicKey)) := rfl
  have hformat : (encryptedExport E K plaintext coins).get? "format" ≠ some (.str format) := by
    have hexport : (encryptedExport E K plaintext coins).get? "format" =
      some (.str exportFormat) := rfl
    rw [hexport]
    decide
  unfold openProjectBytes
  dsimp only
  rw [if_neg (not_not.mpr hkey), if_pos hformat]
  refine bind_of_eq_ok (decryptExport_encryptedExport hE plaintext coins) ?_
  rw [if_neg (not_lt.mpr hsize)]
  rfl

end Atmem.BundleTransport
