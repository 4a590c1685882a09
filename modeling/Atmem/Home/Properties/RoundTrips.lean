import Atmem.Home.Helpers.Codec
/-!
# Artifacts read back

What is put into the vault is read from it under its digest, however it was
cut into chunks; and what is read of any file at all has the digest it was
asked for by, and takes up the file.
-/

namespace Atmem.Artifacts

open Checked

variable {Key : Type} {E : Engine Key}

/-- Two byte strings of one SHA-256. -/
def Collide (E : Engine Key) (a b : Bytes) : Prop := a ≠ b ∧ E.sha256Hex a = E.sha256Hex b

/-- **The codec of the vault.** A put depends on the bytes alone; it succeeds
where nothing is in the way, and is read back as it was, unless the blob that
was there before collides with it. No file is read as anything but what has
its digest, and in full. -/
theorem artifacts_read_back (hE : E.Sound) (key : Key) (v : Vault) :
    (∀ (noncePrefix : Bytes) (chunks : List Bytes), noncePrefix.length = 8 →
      E.Reads (header (E.sha256Hex chunks.flatten) chunks.flatten.length noncePrefix) →
      v.putChunks E key noncePrefix chunks = v.putChunks E key noncePrefix [chunks.flatten] ∧
      (chunks.flatten.length ≤ 2 ^ 52 → v.blob? (E.sha256Hex chunks.flatten) = none →
        ∃ d v', v.putChunks E key noncePrefix chunks = .ok (d, v') ∧
          v'.read E key d.plaintextSha256 = .ok chunks.flatten) ∧
      ∀ d v', v.putChunks E key noncePrefix chunks = .ok (d, v') →
        d.plaintextBytes = chunks.flatten.length ∧
        ∃ bytes, v'.read E key d.plaintextSha256 = .ok bytes ∧
          (bytes = chunks.flatten ∨ Collide E bytes chunks.flatten)) ∧
    ∀ (digest : String) (pieces : List Bytes), v.iterPlaintext E key digest = .ok pieces →
      E.sha256Hex pieces.flatten = digest ∧
        ∃ file, v.blob? digest = some file ∧ Framed file pieces.length := by
  refine ⟨fun noncePrefix chunks hnonce hreads => ⟨Vault.putChunks_eq, fun hfits hnone => ?_,
    fun d v' hput => ?_⟩, fun digest pieces hpieces => ?_⟩
  · obtain ⟨d, v', hput⟩ := Vault.putChunks_isOk _ chunks hE hnonce hfits hnone
    obtain ⟨pieces, hpieces, -, hflat⟩ := Vault.iterPlaintext_of_putChunks hE hnonce hreads hput
    refine ⟨d, v', hput, ?_⟩
    rw [(Vault.putChunks_ok hput).1, Vault.read, hpieces, ← hflat hnone]
    rfl
  · obtain ⟨hdigest, hcount, -⟩ := Vault.putChunks_ok hput
    obtain ⟨pieces, hpieces, hsame, -⟩ := Vault.iterPlaintext_of_putChunks hE hnonce hreads hput
    refine ⟨hcount, pieces.flatten, ?_, ?_⟩
    · rw [hdigest, Vault.read, hpieces]
      rfl
    · by_cases heq : pieces.flatten = chunks.flatten
      · exact .inl heq
      · exact .inr ⟨heq, hsame⟩
  · obtain ⟨file, hblob, hdecode⟩ := Vault.iterPlaintext_ok hpieces
    obtain ⟨hdigest, hframed⟩ := decodeBlob_ok hdecode
    exact ⟨hdigest, file, hblob, hframed⟩

/-! ## One put -/

/-- What is encrypted, and sixteen bytes that tell the key. -/
def sealWith (key : UInt8) (plaintext : Bytes) : Bytes := plaintext ++ List.replicate 16 key

/-- Sixty-four digits that tell how many bytes there are, up to sixteen. -/
def lengthDigest (bytes : Bytes) : String :=
  String.ofList (List.replicate 64 (Nat.digitChar (bytes.length % 16)))

/-- An engine whose JSON reads the headers of a list. -/
def exampleEngine (headers : List (String × ℕ × Bytes)) : Engine UInt8 where
  encrypt key _ plaintext _ := sealWith key plaintext
  decrypt key _ ciphertext _ :=
    if ciphertext.drop (ciphertext.length - 16) = List.replicate 16 key then
      some (ciphertext.take (ciphertext.length - 16))
    else none
  sha256Hex := lengthDigest
  loads bytes := (headers.find? fun h => headerBytes h.1 h.2.1 h.2.2 = bytes).map fun h =>
    header h.1 h.2.1 h.2.2
  int _ := none
  str _ := ""

/-- The engine of the examples does what is asked of one. -/
theorem sound_exampleEngine (headers : List (String × ℕ × Bytes)) :
    (exampleEngine headers).Sound := by
  refine ⟨fun key nonce plaintext aad => ?_, fun key nonce plaintext aad => ?_, fun bytes => ?_,
    fun bytes j hloads => ?_⟩
  · simp [exampleEngine, sealWith]
  · simp [exampleEngine, sealWith]
  · have hdigits : ∀ n : Fin 16, Nat.digitChar n.val ∈ "0123456789abcdef".toList := by decide
    have hdigit := hdigits ⟨bytes.length % 16, Nat.mod_lt _ (by decide)⟩
    simp only [exampleEngine, lengthDigest, isDigest, String.toList_ofList, List.length_replicate,
      Bool.and_eq_true, decide_eq_true_eq, List.all_eq_true, true_and]
    intro c hc
    rw [List.eq_of_mem_replicate hc]
    exact hdigit
  · obtain ⟨h, -, rfl⟩ := Option.map_eq_some_iff.mp hloads
    exact proper_header

/-- A header of the list is read. -/
theorem reads_exampleEngine {headers : List (String × ℕ × Bytes)} {h : String × ℕ × Bytes}
    (hmem : h ∈ headers) : (exampleEngine headers).Reads (header h.1 h.2.1 h.2.2) := by
  have hsome : (headers.find? fun g => headerBytes g.1 g.2.1 g.2.2 = headerBytes h.1 h.2.1 h.2.2).isSome :=
    List.find?_isSome.mpr ⟨h, hmem, decide_eq_true rfl⟩
  obtain ⟨g, hg⟩ := Option.isSome_iff_exists.mp hsome
  have hbytes : headerBytes g.1 g.2.1 g.2.2 = headerBytes h.1 h.2.1 h.2.2 := by
    simpa using List.find?_some hg
  refine ⟨header g.1 g.2.1 g.2.2, ?_, ?_⟩
  · simp only [exampleEngine]
    exact Option.map_eq_some_iff.mpr ⟨g, hg, rfl⟩
  · exact utf8_inj hbytes

/-- The nonce prefix of the example. -/
def examplePrefix : Bytes := List.replicate 8 0

/-- An engine for one artifact. -/
def exampleEngineOf (bytes : Bytes) : Engine UInt8 :=
  exampleEngine [(lengthDigest bytes, bytes.length, examplePrefix)]

/-- Three bytes, put in two chunks and an empty one, are read back. -/
theorem three_bytes_read_back : ∃ d v',
    ({} : Vault).putChunks (exampleEngineOf [1, 2, 3]) 0 examplePrefix [[1], [], [2, 3]] =
        .ok (d, v') ∧
      d.plaintextBytes = 3 ∧
      v'.read (exampleEngineOf [1, 2, 3]) 0 d.plaintextSha256 = .ok [1, 2, 3] := by
  have hflat : ([[1], [], [2, 3]] : List Bytes).flatten = [1, 2, 3] := rfl
  have hheader : (exampleEngineOf [1, 2, 3]).Reads
      (header (lengthDigest [1, 2, 3]) [1, 2, 3].length examplePrefix) :=
    reads_exampleEngine (h := (lengthDigest [1, 2, 3], 3, examplePrefix)) List.mem_cons_self
  have hput := (artifacts_read_back (E := exampleEngineOf [1, 2, 3]) (sound_exampleEngine _) 0
    {}).1 examplePrefix [[1], [], [2, 3]] rfl
  rw [hflat] at hput
  obtain ⟨-, hputs, hreads⟩ := hput hheader
  obtain ⟨d, v', hok, hread⟩ := hputs (by decide) rfl
  exact ⟨d, v', hok, (hreads d v' hok).1, hread⟩

end Atmem.Artifacts
