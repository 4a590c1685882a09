import Atmem.Contracts.Snapshots
import Atmem.Contracts.CanonicalUnicode
import Atmem.Home.Model.Artifacts
/-!
# Blobs are read as they were written

The reader takes the writer's parts off one by one: a length, the header, and
a frame for each block. Where it gets through, the file is those parts and
nothing more.
-/

namespace Atmem.Artifacts

open Checked

variable {Key : Type} {E : Engine Key} {key : Key}
variable {noncePrefix head bytes file rest : Bytes}

/-! ## Spooling -/

theorem spool_eq (chunks : List Bytes) (bytes : Bytes) (count : ℕ) :
    spool chunks (bytes, count) = (bytes ++ chunks.flatten, count + chunks.flatten.length) := by
  induction chunks generalizing bytes count with
  | nil => simp [spool]
  | cons chunk chunks ih =>
    rw [spool]
    split
    · next hempty => rw [ih, hempty, List.flatten_cons, List.nil_append]
    · rw [ih, List.flatten_cons, List.append_assoc, List.length_append, Nat.add_assoc]

/-! ## Lengths -/

/-- What is packed is four bytes, and unpacked again. -/
theorem packI_ok {n : ℕ} {raw : Bytes} (h : packI n = .ok raw) :
    n < 2 ^ 32 ∧ raw.length = 4 ∧ unpackI raw = some n := by
  rw [packI] at h
  split at h
  · next hn =>
    cases h
    refine ⟨hn, rfl, ?_⟩
    simp only [unpackI, UInt8.toNat_ofNat', Option.some.injEq]
    omega
  · cases h

theorem packI_isOk {n : ℕ} (h : n < 2 ^ 32) : ∃ raw, packI n = .ok raw := by
  rw [packI, if_pos h]
  exact ⟨_, rfl⟩

/-- Four bytes are the length they unpack to. -/
theorem packI_unpackI {raw : Bytes} {n : ℕ} (h : unpackI raw = some n) : packI n = .ok raw := by
  match raw, h with
  | [a, b, c, d], h =>
    have ha := a.toNat_lt
    have hb := b.toNat_lt
    have hc := c.toNat_lt
    have hd := d.toNat_lt
    cases h
    rw [packI, if_pos (by omega)]
    have hbyte : ∀ (x : UInt8) (m : ℕ), m % 256 = x.toNat → UInt8.ofNat m = x := by
      intro x m hm
      refine UInt8.toNat_inj.mp ?_
      rw [UInt8.toNat_ofNat', ← hm]
    rw [hbyte a _ (by omega), hbyte b _ (by omega), hbyte c _ (by omega), hbyte d _ (by omega)]

/-- A length that was written is read. -/
theorem readLength_packI {n : ℕ} {raw : Bytes} {message : String} (h : packI n = .ok raw) :
    readLength message (raw ++ rest) = .ok (n, rest) := by
  obtain ⟨-, hlen, hunpack⟩ := packI_ok h
  rw [readLength, ← hlen, List.take_left, List.drop_left, hunpack]

/-- A length that is read was written. -/
theorem readLength_ok {n : ℕ} {message : String} (h : readLength message file = .ok (n, rest)) :
    ∃ raw, packI n = .ok raw ∧ file = raw ++ rest := by
  rw [readLength] at h
  split at h
  · next length hunpack =>
    cases h
    exact ⟨_, packI_unpackI hunpack, (List.take_append_drop 4 file).symm⟩
  · cases h

/-- As many bytes as are there can be read. -/
theorem readExactly_append {message : String} :
    readExactly message bytes.length (bytes ++ rest) = .ok (bytes, rest) := by
  rw [readExactly, List.take_left, if_pos rfl, List.drop_left]

/-- What is read has the length that was asked for. -/
theorem readExactly_ok {n : ℕ} {message : String}
    (h : readExactly message n file = .ok (bytes, rest)) :
    bytes.length = n ∧ file = bytes ++ rest := by
  rw [readExactly] at h
  split at h
  · next hlen =>
    cases h
    exact ⟨hlen, (List.take_append_drop n file).symm⟩
  · cases h

/-- The blocks hold what they are cut from. -/
theorem length_le_blocks (n : ℕ) : n ≤ (n + chunkSize - 1) / chunkSize * chunkSize := by
  simp only [chunkSize]
  omega

/-- What the counter has indices for is not long. -/
theorem length_le_of_blocks {n : ℕ} (h : (n + chunkSize - 1) / chunkSize = 0 ∨
    0 + (n + chunkSize - 1) / chunkSize ≤ 2 ^ 32) : n ≤ 2 ^ 52 := by
  have hfits := length_le_blocks n
  simp only [chunkSize] at h hfits
  omega

/-! ## Frames -/

section Frames

variable {index n : ℕ} {source frames : Bytes} {pieces : List Bytes}

/-- **The frames are read back**, and the blocks are the source. -/
theorem readFrames_writeFrames (hE : E.Sound) (rest : Bytes)
    (hwrite : writeFrames E key noncePrefix head index n source = .ok frames)
    (hfits : source.length ≤ n * chunkSize) :
    ∃ pieces, readFrames E key noncePrefix head index n (frames ++ rest) =
      .ok (pieces, rest) ∧ pieces.flatten = source := by
  induction n generalizing index source frames with
  | zero =>
    cases hwrite
    have hnil : source = [] := List.length_eq_zero_iff.mp (by omega)
    exact ⟨[], rfl, hnil.symm⟩
  | succ n ih =>
    rw [writeFrames] at hwrite
    obtain ⟨counter, hcounter, hwrite⟩ := bind_eq_ok_iff.mp hwrite
    obtain ⟨length, hlength, hwrite⟩ := bind_eq_ok_iff.mp hwrite
    obtain ⟨tail, htail, hwrite⟩ := bind_eq_ok_iff.mp hwrite
    cases hwrite
    have hfits' : (source.drop chunkSize).length ≤ n * chunkSize := by
      rw [List.length_drop]
      rw [Nat.succ_mul] at hfits
      omega
    obtain ⟨pieces, hread, hflat⟩ := ih htail hfits'
    refine ⟨source.take chunkSize :: pieces, ?_, ?_⟩
    · rw [readFrames, List.append_assoc, List.append_assoc, readLength_packI hlength]
      refine bind_of_eq_ok rfl (bind_of_eq_ok readExactly_append (bind_of_eq_ok hcounter ?_))
      rw [hE.decrypt_encrypt]
      exact bind_of_eq_ok hread rfl
    · rw [List.flatten_cons, hflat, List.take_append_drop]

/-- As many as the counter has indices for can be written. -/
theorem writeFrames_isOk (hE : E.Sound) (hindex : index + n ≤ 2 ^ 32) :
    ∃ frames, writeFrames E key noncePrefix head index n source = .ok frames := by
  induction n generalizing index source with
  | zero => exact ⟨[], rfl⟩
  | succ n ih =>
    obtain ⟨counter, hcounter⟩ := packI_isOk (show index < 2 ^ 32 by omega)
    obtain ⟨length, hlength⟩ := packI_isOk (n := (E.encrypt key (noncePrefix ++ counter)
      (source.take chunkSize) (head ++ counter)).length) (by
        have htake : (source.take chunkSize).length ≤ chunkSize := List.length_take_le _ _
        rw [hE.length_encrypt]
        simp only [chunkSize] at htake ⊢
        omega)
    obtain ⟨tail, htail⟩ : ∃ tail, writeFrames E key noncePrefix head (index + 1) n
        (source.drop chunkSize) = .ok tail := ih (by omega)
    refine ⟨length ++ E.encrypt key (noncePrefix ++ counter) (source.take chunkSize)
      (head ++ counter) ++ tail, ?_⟩
    rw [writeFrames]
    exact bind_of_eq_ok hcounter (bind_of_eq_ok hlength (bind_of_eq_ok htail rfl))

/-- No more are written than the counter has indices for. -/
theorem lt_of_writeFrames (h : writeFrames E key noncePrefix head index n source = .ok frames) :
    n = 0 ∨ index + n ≤ 2 ^ 32 := by
  induction n generalizing index source frames with
  | zero => exact .inl rfl
  | succ n ih =>
    rw [writeFrames] at h
    obtain ⟨counter, hcounter, h⟩ := bind_eq_ok_iff.mp h
    obtain ⟨length, -, h⟩ := bind_eq_ok_iff.mp h
    obtain ⟨tail, htail, -⟩ := bind_eq_ok_iff.mp h
    have hindex := (packI_ok hcounter).1
    rcases ih htail with hn | hn
    · exact .inr (by omega)
    · exact .inr (by omega)

/-- **What is read is frames**, as many as there are pieces. -/
theorem readFrames_ok (h : readFrames E key noncePrefix head index n file =
    .ok (pieces, rest)) : pieces.length = n ∧ ∃ blocks : List (Bytes × Bytes),
      blocks.length = n ∧ (∀ b ∈ blocks, packI b.2.length = .ok b.1) ∧
        file = (blocks.flatMap fun b => b.1 ++ b.2) ++ rest := by
  induction n generalizing index file pieces with
  | zero =>
    cases h
    exact ⟨rfl, [], rfl, fun b hb => absurd hb List.not_mem_nil, rfl⟩
  | succ n ih =>
    rw [readFrames] at h
    obtain ⟨⟨length, file₁⟩, hlength, hread⟩ := bind_eq_ok_iff.mp h
    obtain ⟨⟨ciphertext, file₂⟩, hciphertext, hopen⟩ := bind_eq_ok_iff.mp hread
    obtain ⟨counter, -, hopened⟩ := bind_eq_ok_iff.mp hopen
    obtain ⟨raw, hraw, rfl⟩ := readLength_ok hlength
    obtain ⟨hlen, rfl⟩ := readExactly_ok hciphertext
    cases hdecrypt : E.decrypt key (noncePrefix ++ counter) ciphertext (head ++ counter) with
    | none =>
      simp only [hdecrypt] at hopened
      cases hopened
    | some plaintext =>
      simp only [hdecrypt] at hopened
      obtain ⟨⟨tail, file₃⟩, htail, hpieces⟩ := bind_eq_ok_iff.mp hopened
      cases hpieces
      obtain ⟨hn, blocks, hblocks, hpacked, hfile⟩ := ih htail
      refine ⟨by rw [List.length_cons, hn], (raw, ciphertext) :: blocks,
        by rw [List.length_cons, hblocks], ?_, ?_⟩
      · intro b hb
        rcases List.mem_cons.mp hb with rfl | hb
        · rw [hlen]
          exact hraw
        · exact hpacked b hb
      · rw [hfile, List.flatMap_cons, List.append_assoc, List.append_assoc]

end Frames

/-! ## Headers -/

/-- Bytes determine their text. -/
theorem utf8_inj {s t : String} (h : utf8 s = utf8 t) : s = t := by
  have hdata : s.toUTF8.data = t.toUTF8.data := Array.toList_inj.mp h
  exact String.toByteArray_inj.mp (ByteArray.ext hdata)

theorem length_utf8 (text : String) : (utf8 text).length = text.utf8ByteSize := by
  rw [← String.size_toByteArray]
  rfl

/-- A character has four bytes at most. -/
theorem length_utf8_le (cs : List Char) : (utf8 (String.ofList cs)).length ≤ 4 * cs.length := by
  rw [length_utf8]
  induction cs with
  | nil => decide
  | cons c cs ih =>
    have hc := c.utf8Size_le_four
    rw [String.ofList_cons, String.utf8ByteSize_append, String.utf8ByteSize_singleton,
      List.length_cons]
    omega

variable {digest : String} {byteCount : ℕ}

/-- No header has a field twice. -/
theorem proper_header : (header digest byteCount noncePrefix).Proper := by
  refine ⟨?_, ?_⟩
  · simp only [headerFields, List.map_cons, List.map_nil]
    decide
  · simp [headerFields, Json.ProperFields, Json.Proper]

/-- The fields of a header are short, whatever the size of a block. -/
theorem length_dumps_headerFields_le {size chunkCount : ℕ} {nonce : String}
    (hdigest : digest.toList.length = 64) (hnonce : nonce.toList.length = 12)
    (hcount : byteCount ≤ 2 ^ 52) (hsize : size ≤ 2 ^ 52) (hchunks : chunkCount ≤ 2 ^ 52) :
    (Json.dumps (.obj (Json.sortFields [("format", .str format), ("suite", .str suite),
      ("plaintext_sha256", .str digest), ("plaintext_bytes", .int byteCount),
      ("chunk_size", .int size), ("chunk_count", .int chunkCount),
      ("nonce_prefix", .str nonce)]))).length ≤ 4 * 1024 := by
  have hlength := Json.length_dumps_sortFields_le [("format", .str format), ("suite", .str suite),
    ("plaintext_sha256", .str digest), ("plaintext_bytes", .int byteCount),
    ("chunk_size", .int size), ("chunk_count", .int chunkCount), ("nonce_prefix", .str nonce)]
  have h₁ := Json.length_dumps_nat_le hcount
  have h₂ := Json.length_dumps_nat_le hsize
  have h₃ := Json.length_dumps_nat_le hchunks
  have h₄ := Json.length_quote_le digest
  have h₅ := Json.length_quote_le nonce
  rw [hdigest] at h₄
  rw [hnonce] at h₅
  have hkeys : (Json.quote "format").length = 8 ∧ (Json.quote "suite").length = 7 ∧
      (Json.quote "plaintext_sha256").length = 18 ∧ (Json.quote "plaintext_bytes").length = 17 ∧
      (Json.quote "chunk_size").length = 12 ∧ (Json.quote "chunk_count").length = 13 ∧
      (Json.quote "nonce_prefix").length = 14 ∧ (Json.quote format).length = 29 ∧
      (Json.quote suite).length = 21 := by decide +kernel
  obtain ⟨k₁, k₂, k₃, k₄, k₅, k₆, k₇, k₈, k₉⟩ := hkeys
  have hstr : ∀ s : String, Json.dumps (.str s) = Json.quote s := fun _ => rfl
  simp only [List.map_cons, List.map_nil, List.sum_cons, List.sum_nil, hstr, k₁, k₂, k₃, k₄, k₅,
    k₆, k₇, k₈, k₉] at hlength
  omega

/-- A header is short. -/
theorem length_headerBytes_le (hdigest : isDigest digest = true) (hnonce : noncePrefix.length = 8)
    (hcount : byteCount ≤ 2 ^ 52) : (headerBytes digest byteCount noncePrefix).length ≤ 64 * 1024 := by
  have hdigits : digest.toList.length = 64 := by
    rw [isDigest, Bool.and_eq_true] at hdigest
    exact of_decide_eq_true hdigest.1
  have hbase : (String.ofList (Base64.encode noncePrefix)).toList.length = 12 := by
    rw [String.toList_ofList, Base64.length_encode, hnonce]
  have hchunks : (byteCount + chunkSize - 1) / chunkSize ≤ 2 ^ 52 := by
    simp only [chunkSize]
    omega
  have hchunk : chunkSize ≤ 2 ^ 52 := by simp [chunkSize]
  have hlength := length_dumps_headerFields_le hdigits hbase hcount hchunk hchunks
  rw [headerBytes, Json.canonicalJson]
  refine (length_utf8_le _).trans ?_
  exact (Nat.mul_le_mul_left 4 hlength).trans (by decide)

/-! ## Blobs -/

/-- What was written of a header is read back: as a value that is written the
same. -/
def Engine.Reads (E : Engine Key) (j : Json) : Prop :=
  ∃ payload, E.loads (utf8 j.canonicalJson) = some payload ∧
    payload.canonicalJson = j.canonicalJson

/-- The header is read back. -/
theorem readHeader_append (hE : E.Sound) (rest : Bytes) (hdigest : isDigest digest = true)
    (hnonce : noncePrefix.length = 8) (hcount : byteCount ≤ 2 ^ 52)
    (hreads : E.Reads (header digest byteCount noncePrefix)) {raw : Bytes}
    (hraw : packI (headerBytes digest byteCount noncePrefix).length = .ok raw) :
    ∃ j, readHeader E (magic ++ raw ++ headerBytes digest byteCount noncePrefix ++ rest) =
        .ok (j, headerBytes digest byteCount noncePrefix, rest) ∧
      Json.ReadsAs j (header digest byteCount noncePrefix) := by
  obtain ⟨j, hloads, hsame⟩ := hreads
  have hshort := length_headerBytes_le hdigest hnonce hcount
  have hj : Json.ReadsAs j (header digest byteCount noncePrefix) :=
    ⟨hE.proper_loads _ _ hloads, proper_header,
      Json.canonicalJson_inj (hE.proper_loads _ _ hloads) proper_header hsame⟩
  have hsome : (headerBytes digest byteCount noncePrefix).length ≠ 0 := by
    intro hnil
    rw [headerBytes, length_utf8, String.utf8ByteSize_eq_zero_iff] at hnil
    exact Json.canonicalJson_obj_ne _ hnil
  obtain ⟨kvs, rfl⟩ := hj.obj
  have hformat : (Json.obj kvs).get? "format" = some (.str format) := hj.get_str rfl
  have hsuite : (Json.obj kvs).get? "suite" = some (.str suite) := hj.get_str rfl
  refine ⟨.obj kvs, ?_, hj⟩
  rw [readHeader, List.append_assoc, List.append_assoc, List.take_left, if_neg (by simp),
    List.drop_left]
  refine bind_of_eq_ok (readLength_packI hraw) ?_
  dsimp only
  rw [if_neg (by simp only [not_or, not_lt]; exact ⟨hsome, hshort⟩)]
  refine bind_of_eq_ok readExactly_append ?_
  have hloads' : E.loads (headerBytes digest byteCount noncePrefix) = some (.obj kvs) := hloads
  simp only [hloads', hformat, hsuite]
  rfl

/-- What is written is no longer than the counter allows. -/
theorem length_le_of_encodeBlob {blob : Bytes}
    (h : encodeBlob E key noncePrefix bytes bytes.length = .ok blob) : bytes.length ≤ 2 ^ 52 := by
  rw [encodeBlob] at h
  obtain ⟨raw, -, h⟩ := bind_eq_ok_iff.mp h
  obtain ⟨frames, hframes, -⟩ := bind_eq_ok_iff.mp h
  exact length_le_of_blocks (lt_of_writeFrames hframes)

/-- A file is read where its header says what its frames are. -/
theorem decodeBlob_of_readHeader {j : Json} {pieces : List Bytes} {chunkCount : ℕ}
    (hheader : readHeader E file = .ok (j, head, rest))
    (haddress : j.get? "plaintext_sha256" = some (.str digest))
    (hbytes : j.get? "plaintext_bytes" = some (.int byteCount))
    (hchunks : j.get? "chunk_count" = some (.int chunkCount))
    (hnonce : j.get? "nonce_prefix" = some (.str (String.ofList (Base64.encode noncePrefix))))
    (hpieces : readFrames E key noncePrefix head 0 chunkCount rest = .ok (pieces, []))
    (hcount : pieces.flatten.length = byteCount) (hdigest : E.sha256Hex pieces.flatten = digest) :
    decodeBlob E key digest file = .ok pieces := by
  have hdecode : E.decodeBase64 (.str (String.ofList (Base64.encode noncePrefix))) =
      .ok noncePrefix := by
    rw [Engine.decodeBase64, Engine.text, String.toList_ofList, Base64.decode_encode]
    rfl
  rw [decodeBlob]
  refine bind_of_eq_ok hheader ?_
  dsimp only
  rw [haddress, if_neg (by simp)]
  simp only [headerField, hbytes, hchunks, hnonce, Option.elim_some]
  refine bind_of_eq_ok rfl (bind_of_eq_ok rfl (bind_of_eq_ok rfl (bind_of_eq_ok rfl ?_)))
  refine bind_of_eq_ok rfl (bind_of_eq_ok hdecode (bind_of_eq_ok hpieces ?_))
  dsimp only
  rw [if_neg (by simp), if_neg (by simp [hcount, hdigest])]
  rfl

/-- **What is written of some bytes is read back**, and the pieces are the
bytes. -/
theorem decodeBlob_encodeBlob (hE : E.Sound) (hnonce : noncePrefix.length = 8)
    (hreads : E.Reads (header (E.sha256Hex bytes) bytes.length noncePrefix)) {blob : Bytes}
    (hwrite : encodeBlob E key noncePrefix bytes bytes.length = .ok blob) :
    ∃ pieces, decodeBlob E key (E.sha256Hex bytes) blob = .ok pieces ∧ pieces.flatten = bytes := by
  have hcount := length_le_of_encodeBlob hwrite
  rw [encodeBlob] at hwrite
  obtain ⟨raw, hraw, hwrite⟩ := bind_eq_ok_iff.mp hwrite
  obtain ⟨frames, hframes, hwrite⟩ := bind_eq_ok_iff.mp hwrite
  cases hwrite
  have hfits := length_le_blocks bytes.length
  obtain ⟨j, hheader, hj⟩ := readHeader_append hE frames (hE.isDigest_sha256Hex bytes)
    hnonce hcount hreads hraw
  obtain ⟨pieces, hpieces, hflat⟩ := readFrames_writeFrames hE [] hframes hfits
  rw [List.append_nil] at hpieces
  exact ⟨pieces, decodeBlob_of_readHeader hheader (hj.get_str rfl) (hj.get_int rfl)
    (hj.get_int rfl) (hj.get_str rfl) hpieces (by rw [hflat]) (by rw [hflat]), hflat⟩

/-- What a file whose header is read begins with. -/
theorem readHeader_ok {j : Json} (h : readHeader E file = .ok (j, head, rest)) :
    ∃ raw, packI head.length = .ok raw ∧ file = magic ++ raw ++ head ++ rest := by
  rw [readHeader] at h
  split at h
  · cases h
  · next hmagic =>
    obtain ⟨⟨length, file₁⟩, hlength, hread⟩ := bind_eq_ok_iff.mp h
    obtain ⟨raw, hraw, hfile⟩ := readLength_ok hlength
    dsimp only at hread
    split at hread
    · cases hread
    · obtain ⟨⟨head', file₂⟩, hhead, hloaded⟩ := bind_eq_ok_iff.mp hread
      obtain ⟨rfl, rfl⟩ := readExactly_ok hhead
      have hsame : head' = head ∧ file₂ = rest := by
        dsimp only at hloaded
        split at hloaded
        · cases hloaded
        · split at hloaded
          · cases hloaded
          · cases hloaded
            exact ⟨rfl, rfl⟩
        · cases hloaded
      obtain ⟨rfl, rfl⟩ := hsame
      refine ⟨raw, hraw, ?_⟩
      have hsplit := List.take_append_drop magic.length file
      rw [not_not.mp hmagic, hfile] at hsplit
      rw [← hsplit, List.append_assoc, List.append_assoc]

/-- A file is the magic bytes, a header after its length, a frame for each
block, and nothing else. -/
def Framed (file : Bytes) (n : ℕ) : Prop :=
  ∃ (raw head : Bytes) (blocks : List (Bytes × Bytes)), packI head.length = .ok raw ∧
    blocks.length = n ∧ (∀ b ∈ blocks, packI b.2.length = .ok b.1) ∧
    file = magic ++ raw ++ head ++ blocks.flatMap fun b => b.1 ++ b.2

/-- **What is read has the digest that was asked for**, and takes up the
file. -/
theorem decodeBlob_ok {pieces : List Bytes} (h : decodeBlob E key digest file = .ok pieces) :
    E.sha256Hex pieces.flatten = digest ∧ Framed file pieces.length := by
  rw [decodeBlob] at h
  obtain ⟨⟨j, head, file₁⟩, hheader, h₁⟩ := bind_eq_ok_iff.mp h
  obtain ⟨raw, hraw, hfile⟩ := readHeader_ok hheader
  dsimp only at h₁
  split at h₁
  · cases h₁
  obtain ⟨bytesField, -, h₂⟩ := bind_eq_ok_iff.mp h₁
  obtain ⟨expectedBytes, -, h₃⟩ := bind_eq_ok_iff.mp h₂
  obtain ⟨chunksField, -, h₄⟩ := bind_eq_ok_iff.mp h₃
  obtain ⟨chunkCount, -, h₅⟩ := bind_eq_ok_iff.mp h₄
  obtain ⟨nonceField, -, h₆⟩ := bind_eq_ok_iff.mp h₅
  obtain ⟨nonce, -, h₇⟩ := bind_eq_ok_iff.mp h₆
  obtain ⟨⟨pieces', file₂⟩, hframes, h₈⟩ := bind_eq_ok_iff.mp h₇
  dsimp only at h₈
  split at h₈
  · cases h₈
  · next hrest =>
    split at h₈
    · cases h₈
    · next hchecked =>
      cases h₈
      obtain ⟨hcount, blocks, hblocks, hpacked, hbytes⟩ := readFrames_ok hframes
      refine ⟨?_, raw, head, blocks, hraw, hblocks.trans hcount.symm, hpacked, ?_⟩
      · exact not_not.mp fun hne => hchecked (.inr hne)
      · rw [hfile, hbytes, not_not.mp hrest, List.append_nil]

/-! ## The vault -/

namespace Vault

variable {v v' : Vault} {d : Descriptor} {chunks : List Bytes}

/-- What is stored is there. -/
theorem blob?_store (digest : String) (blob : Bytes) : (v.store digest blob).blob? digest = some blob := by
  rw [blob?, store, List.lookup_append]
  have hnone : (v.blobs.filter fun b => b.1 ≠ digest).lookup digest = none := by
    refine List.lookup_eq_none_iff.mpr fun b hb => ?_
    have hne : b.1 ≠ digest := of_decide_eq_true (List.mem_filter.mp hb).2
    exact bne_iff_ne.mpr hne.symm
  rw [hnone, Option.none_or, List.lookup_cons, beq_self_eq_true]

/-- The rest is as it was. -/
theorem blob?_store_ne {other : String} (blob : Bytes) (h : other ≠ digest) :
    (v.store digest blob).blob? other = v.blob? other := by
  rw [blob?, blob?, store, List.lookup_append]
  have hlast : [(digest, blob)].lookup other = none := by
    simp [List.lookup, beq_eq_false_iff_ne.mpr h]
  rw [hlast, Option.or_none]
  induction v.blobs with
  | nil => rfl
  | cons b blobs ih =>
    by_cases hb : b.1 = digest
    · have hother : (other == b.1) = false := beq_eq_false_iff_ne.mpr (hb ▸ h)
      rw [List.filter_cons_of_neg (by simp [hb]), ih]
      obtain ⟨name, content⟩ := b
      rw [List.lookup_cons, hother]
    · rw [List.filter_cons_of_pos (by simp [hb])]
      obtain ⟨name, content⟩ := b
      rw [List.lookup_cons, List.lookup_cons, ih]

/-- What is read is decoded from the blob. -/
theorem iterPlaintext_ok {pieces : List Bytes} (h : v.iterPlaintext E key digest = .ok pieces) :
    ∃ file, v.blob? digest = some file ∧ decodeBlob E key digest file = .ok pieces := by
  rw [iterPlaintext] at h
  obtain ⟨-, -, h⟩ := bind_eq_ok_iff.mp h
  cases hblob : v.blob? digest with
  | none =>
    rw [hblob] at h
    cases h
  | some file =>
    rw [hblob] at h
    exact ⟨file, rfl, h⟩

/-- And a blob is decoded as it stands. -/
theorem iterPlaintext_of_blob (hdigest : isDigest digest = true) (hblob : v.blob? digest = some file) :
    v.iterPlaintext E key digest = decodeBlob E key digest file := by
  rw [iterPlaintext, path, if_pos hdigest, hblob]
  rfl

/-- What `put_chunks` does depends on the bytes alone. -/
theorem putChunks_eq : v.putChunks E key noncePrefix chunks =
    v.putChunks E key noncePrefix [chunks.flatten] := by
  rw [putChunks, putChunks, spool_eq, spool_eq, List.flatten_singleton]

/-- A put finds a blob that it verifies, or writes one. -/
theorem putChunks_ok (h : v.putChunks E key noncePrefix chunks = .ok (d, v')) :
    d.plaintextSha256 = E.sha256Hex chunks.flatten ∧ d.plaintextBytes = chunks.flatten.length ∧
      ((v' = v ∧ ∃ pieces, v.iterPlaintext E key (E.sha256Hex chunks.flatten) = .ok pieces) ∨
        (v.blob? (E.sha256Hex chunks.flatten) = none ∧ ∃ blob,
          encodeBlob E key noncePrefix chunks.flatten chunks.flatten.length = .ok blob ∧
            v' = v.store (E.sha256Hex chunks.flatten) blob)) := by
  rw [putChunks, spool_eq, List.nil_append, Nat.zero_add] at h
  obtain ⟨-, -, h⟩ := bind_eq_ok_iff.mp h
  cases hblob : v.blob? (E.sha256Hex chunks.flatten) with
  | none =>
    rw [hblob] at h
    obtain ⟨blob, hwrite, h⟩ := bind_eq_ok_iff.mp h
    cases h
    exact ⟨rfl, rfl, .inr ⟨rfl, blob, hwrite, rfl⟩⟩
  | some file =>
    rw [hblob] at h
    obtain ⟨pieces, hpieces, h⟩ := bind_eq_ok_iff.mp h
    cases h
    exact ⟨rfl, rfl, .inl ⟨rfl, pieces, hpieces⟩⟩

/-- **What is put reads back**: as it was, where it was written. -/
theorem iterPlaintext_of_putChunks (hE : E.Sound) (hnonce : noncePrefix.length = 8)
    (hreads : E.Reads (header (E.sha256Hex chunks.flatten) chunks.flatten.length noncePrefix))
    (h : v.putChunks E key noncePrefix chunks = .ok (d, v')) :
    ∃ pieces, v'.iterPlaintext E key (E.sha256Hex chunks.flatten) = .ok pieces ∧
      E.sha256Hex pieces.flatten = E.sha256Hex chunks.flatten ∧
      (v.blob? (E.sha256Hex chunks.flatten) = none → pieces.flatten = chunks.flatten) := by
  obtain ⟨-, -, ⟨rfl, pieces, hpieces⟩ | ⟨-, blob, hwrite, rfl⟩⟩ := putChunks_ok h
  · obtain ⟨file, hblob, hdecode⟩ := iterPlaintext_ok hpieces
    refine ⟨pieces, hpieces, (decodeBlob_ok hdecode).1, fun hnone => ?_⟩
    rw [hblob] at hnone
    cases hnone
  · obtain ⟨pieces, hdecode, hflat⟩ := decodeBlob_encodeBlob hE hnonce hreads hwrite
    refine ⟨pieces, ?_, congrArg _ hflat, fun _ => hflat⟩
    rw [iterPlaintext_of_blob (hE.isDigest_sha256Hex _) (blob?_store _ _)]
    exact hdecode

/-- Bytes that fit the counter can be put where there is no blob of them. -/
theorem putChunks_isOk (key : Key) (chunks : List Bytes) (hE : E.Sound)
    (hnonce : noncePrefix.length = 8)
    (hfits : chunks.flatten.length ≤ 2 ^ 52)
    (hnone : v.blob? (E.sha256Hex chunks.flatten) = none) :
    ∃ d v', v.putChunks E key noncePrefix chunks = .ok (d, v') := by
  have hdigest := hE.isDigest_sha256Hex chunks.flatten
  have hshort := length_headerBytes_le hdigest hnonce hfits
  obtain ⟨raw, hraw⟩ := packI_isOk (n := (headerBytes (E.sha256Hex chunks.flatten)
    chunks.flatten.length noncePrefix).length) (by omega)
  have hindices : 0 + (chunks.flatten.length + chunkSize - 1) / chunkSize ≤ 2 ^ 32 := by
    simp only [chunkSize]
    omega
  obtain ⟨frames, hframes⟩ : ∃ frames, writeFrames E key noncePrefix
      (headerBytes (E.sha256Hex chunks.flatten) chunks.flatten.length noncePrefix) 0
        ((chunks.flatten.length + chunkSize - 1) / chunkSize) chunks.flatten = .ok frames :=
    writeFrames_isOk hE hindices
  have hwrite : encodeBlob E key noncePrefix chunks.flatten chunks.flatten.length = .ok
      (magic ++ raw ++ headerBytes (E.sha256Hex chunks.flatten) chunks.flatten.length noncePrefix ++
        frames) := by
    rw [encodeBlob]
    exact bind_of_eq_ok hraw (bind_of_eq_ok hframes rfl)
  rw [putChunks, spool_eq, List.nil_append, Nat.zero_add]
  dsimp only
  rw [path, if_pos hdigest, hnone]
  exact ⟨_, _, bind_of_eq_ok rfl (bind_of_eq_ok hwrite rfl)⟩

end Vault

end Atmem.Artifacts
