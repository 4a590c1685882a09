import Atmem.Code.Helpers.Transport
/-!
# What is opened was sealed

A bundle that was sealed is opened to its bytes. A bundle made of pieces that
were sealed is opened to one of the bundles they were sealed of, but for two
ways in which one piece passes for a bundle: a piece of a long bundle is
opened to its frame, and a short bundle that reads as a frame is one.
-/

namespace Atmem.BundleTransport

open Artifacts (Bytes)
open Checked

variable {E : Engine} {K : Keys} {secretKey trusted raw out : Bytes} {raws : List Bytes}
variable {bundle piece : Json} {expected : String} {n ordinal : ℕ} {frame : Frame}

/-! ## What is sealed, and what stems from it -/

/-- The texts that are sealed of a bundle. -/
def sealedTexts (E : Engine) (raw : Bytes) : List Bytes :=
  if raw.length ≤ chunk then [raw]
  else (List.range (chunkCount raw)).map (frameBytes E raw)

/-- What the trusted key authenticates of a bundle, as a whole or as one of its
pieces, was sealed of one of `raws`. -/
def Stems (E : Engine) (K : Keys) (raws : List Bytes) (bundle : Json) : Prop :=
  ∀ piece, (piece = bundle ∨
      ∃ pieces, bundle.get? "chunks" = some (.arr pieces) ∧ piece ∈ pieces) →
    piece.get? "signing_public_key" = some (.str (base64 K.signingPublicKey)) →
    ∀ text, decryptExport E K.recipientSecretKey piece = .ok text →
      ∃ raw ∈ raws, text ∈ sealedTexts E raw

/-- Every bundle that stems from `raws` is refused, or opened to one of them. -/
def Unspliced (E : Engine) (K : Keys) (raws : List Bytes) : Prop :=
  ∀ bundle out, Stems E K raws bundle →
    openProjectBytes E K.recipientSecretKey K.signingPublicKey bundle = .ok out → out ∈ raws

/-- A text that reads as the only frame of a bundle. -/
structure OnlyFrame (E : Engine) (text raw : Bytes) : Prop where
  pos : 1 ≤ raw.length
  fits : raw.length ≤ chunk
  reads : ∃ fields data, E.loads text = some (.obj fields) ∧
    readFrame fields = some ⟨0, 1, raw.length, E.sha256Hex raw, data⟩ ∧
    Base64.decode data.toList = some raw

/-- No piece passes for a bundle: the frames of a long bundle are bundles
themselves, and so is what a short one reads as the only frame of. -/
structure NoPassing (E : Engine) (raws : List Bytes) : Prop where
  framed : ∀ raw ∈ raws, chunk < raw.length →
    ∀ ordinal < chunkCount raw, frameBytes E raw ordinal ∈ raws
  posing : ∀ text ∈ raws, text.length ≤ chunk → ∀ raw, OnlyFrame E text raw → raw ∈ raws

/-! ## What an opened piece is -/

/-- A piece that passed names the key that was expected. -/
theorem key_of_checkedPiece (h : checkedPiece piece expected = .ok ()) :
    piece.get? "signing_public_key" = some (.str expected) := by
  unfold checkedPiece at h
  split at h
  · split at h
    · rename_i hall
      simp only [Bool.and_eq_true, decide_eq_true_eq] at hall
      exact hall.1.2
    · cases h
  · cases h

theorem parseJsonStrict_ok {text : Bytes} {fields : List (String × Json)}
    (h : parseJsonStrict E text = .ok fields) : E.loads text = some (.obj fields) := by
  unfold parseJsonStrict at h
  split at h
  · cases h
  · rename_i hloads
    rw [hloads, Except.ok.inj h]
  · cases h

/-- What a piece is opened to: the frame that its text reads as. -/
theorem openFrame_ok (h : openFrame E secretKey expected n ordinal piece = .ok frame) :
    piece.get? "signing_public_key" = some (.str expected) ∧
      ∃ text fields, decryptExport E secretKey piece = .ok text ∧
        E.loads text = some (.obj fields) ∧ readFrame fields = some frame ∧
        frame.fits n ordinal = true := by
  obtain ⟨⟨⟩, hchecked, h⟩ := bind_eq_ok_iff.mp h
  obtain ⟨text, htext, h⟩ := bind_eq_ok_iff.mp h
  obtain ⟨fields, hfields, h⟩ := bind_eq_ok_iff.mp h
  refine ⟨key_of_checkedPiece hchecked, text, fields, htext, parseJsonStrict_ok hfields, ?_⟩
  unfold checkedFrame at h
  split at h
  · rename_i read hread
    obtain rfl := Except.ok.inj h
    exact Option.filter_eq_some_iff.mp hread
  · cases h

/-- The data of a frame are those of its field. -/
theorem data_of_readFrame {fields : List (String × Json)} (h : readFrame fields = some frame) :
    fields.lookup "data_base64" = some (.str frame.data) := by
  unfold readFrame at h
  split at h
  · split at h
    · rename_i hdata
      rw [hdata, ← Option.some.inj h]
    · cases h
  · cases h

theorem b64decode_ok {text : String} {bytes : Bytes} (h : b64decode text = .ok bytes) :
    Base64.decode text.toList = some bytes := by
  unfold b64decode at h
  cases hdecode : Base64.decode text.toList with
  | none =>
    rw [hdecode] at h
    cases h
  | some decoded =>
    rw [hdecode] at h
    rw [Except.ok.inj h]

/-- One turn of the loop. -/
theorem openPieces_cons_ok {binding bound : Option (ℤ × String)} {pieces : List Json}
    {data : List Bytes}
    (h : openPieces E secretKey expected n ordinal binding (piece :: pieces) =
      .ok (data, bound)) :
    ∃ frame value rest, openFrame E secretKey expected n ordinal piece = .ok frame ∧
      (∀ b ∈ binding, b = frame.binding) ∧ Base64.decode frame.data.toList = some value ∧
      (value.length : ℤ) = frame.size n ordinal ∧
      openPieces E secretKey expected n (ordinal + 1) (some frame.binding) pieces =
        .ok (rest, bound) ∧ data = value :: rest := by
  rw [openPieces] at h
  obtain ⟨frame, hframe, h⟩ := bind_eq_ok_iff.mp h
  obtain ⟨⟨⟩, hsame, h⟩ := bind_eq_ok_iff.mp h
  obtain ⟨value, hvalue, h⟩ := bind_eq_ok_iff.mp h
  obtain ⟨⟨⟩, hlength, h⟩ := bind_eq_ok_iff.mp h
  obtain ⟨⟨rest, bound'⟩, hrest, h⟩ := bind_eq_ok_iff.mp h
  obtain ⟨rfl, rfl⟩ := Prod.mk.inj (Except.ok.inj h)
  have hall := (Option.all_eq_true _ _).mp (ensure_eq_ok.mp hsame)
  exact ⟨frame, value, rest, hframe, fun b hb => of_decide_eq_true (hall b hb),
    b64decode_ok hvalue, ensure_eq_ok.mp hlength, hrest, rfl⟩

/-- The first piece binds the others. -/
theorem bound_of_openPieces {b : ℤ × String} {bound : Option (ℤ × String)} {pieces : List Json}
    {data : List Bytes}
    (h : openPieces E secretKey expected n ordinal (some b) pieces = .ok (data, bound)) :
    bound = some b := by
  induction pieces generalizing ordinal data with
  | nil =>
    rw [openPieces] at h
    exact (Prod.mk.inj (Except.ok.inj h)).2.symm
  | cons piece pieces ih =>
    obtain ⟨frame, value, rest, -, hbinding, -, -, hrest, -⟩ := openPieces_cons_ok h
    rw [← hbinding b rfl] at hrest
    exact ih hrest

/-- What a bundle is opened to: what it was exported of, or what its pieces
are joined to. -/
theorem openProjectBytes_ok (h : openProjectBytes E secretKey trusted bundle = .ok out) :
    bundle.get? "signing_public_key" = some (.str (base64 trusted)) ∧
      (decryptExport E secretKey bundle = .ok out ∨
        ∃ pieces data binding, bundle.get? "chunks" = some (.arr pieces) ∧ pieces ≠ [] ∧
          openPieces E secretKey (base64 trusted) pieces.length 0 none pieces =
            .ok (data, binding) ∧ joinPieces E data binding = .ok out) := by
  unfold openProjectBytes at h
  dsimp only at h
  split at h
  · cases h
  · rename_i hkey
    refine ⟨not_not.mp hkey, ?_⟩
    split at h
    · obtain ⟨opened, hopened, h⟩ := bind_eq_ok_iff.mp h
      split at h
      · cases h
      · obtain rfl := Except.ok.inj h
        exact .inl hopened
    · split at h
      · rename_i pieces _ hchunks
        split at h
        · rename_i hframing
          obtain ⟨⟨data, binding⟩, hopened, h⟩ := bind_eq_ok_iff.mp h
          have hne : pieces ≠ [] := List.ne_nil_of_length_pos hframing.2.1
          exact .inr ⟨pieces, data, binding, hchunks, hne, hopened, h⟩
        · cases h
      · cases h

/-- The bytes that are joined have the length and the digest of the frames. -/
theorem joinPieces_ok {data : List Bytes} {binding : Option (ℤ × String)}
    (h : joinPieces E data binding = .ok out) :
    data.flatten = out ∧ binding = some ((out.length : ℤ), E.sha256Hex out) := by
  unfold joinPieces at h
  dsimp only at h
  split at h
  · rename_i hbinding
    obtain rfl := Except.ok.inj h
    exact ⟨rfl, hbinding⟩
  · cases h

/-! ## Splicing -/

/-- The frame that a sealed part of a long bundle is opened to. -/
theorem frame_of_frameBytes (hreads : E.ReadsFrames raw) (hlong : chunk < raw.length)
    (hordinal : ordinal < chunkCount raw) {fields : List (String × Json)}
    (hloads : E.loads (frameBytes E raw ordinal) = some (.obj fields))
    (hread : readFrame fields = some frame) : frame = frameOf E raw ordinal := by
  rw [hreads hlong ordinal hordinal] at hloads
  obtain rfl := Json.obj.inj (Option.some.inj hloads)
  have hframe : readFrame (Json.sortFields (frameFields E raw ordinal)) = some frame := hread
  rw [readFrame_sortFields] at hframe
  exact (Option.some.inj hframe).symm

/-- A short text holds no full part. -/
theorem length_lt_of_readFrame (hE : E.Sound K) {text value : Bytes}
    {fields : List (String × Json)} (hloads : E.loads text = some (.obj fields))
    (hread : readFrame fields = some frame)
    (hdecode : Base64.decode frame.data.toList = some value) (hshort : text.length ≤ chunk) :
    value.length < chunk := by
  have htext := hE.length_text_le text fields "data_base64" frame.data hloads
    (data_of_readFrame hread)
  have hvalue := Base64.length_decode_le hdecode
  simp only [chunk] at hshort ⊢
  omega

/-- **The pieces of one list are all of one bundle**, or the only one is a
short bundle that reads as a frame. -/
theorem mem_of_openPieces (hE : E.Sound K) (hreads : ∀ raw ∈ raws, E.ReadsFrames raw)
    (hsecond : ∀ raw ∈ raws, ∀ x, E.sha256Hex x = E.sha256Hex raw → x = raw)
    (hpassing : ∀ text ∈ raws, text.length ≤ chunk → ∀ raw, OnlyFrame E text raw → raw ∈ raws)
    {pieces : List Json} (hstems : ∀ piece ∈ pieces,
      piece.get? "signing_public_key" = some (.str (base64 K.signingPublicKey)) →
      ∀ text, decryptExport E K.recipientSecretKey piece = .ok text →
        ∃ raw ∈ raws, text ∈ sealedTexts E raw) (hne : pieces ≠ [])
    {data : List Bytes} {binding : Option (ℤ × String)}
    (hopened : openPieces E K.recipientSecretKey (base64 K.signingPublicKey) pieces.length 0 none
      pieces = .ok (data, binding)) (hjoined : joinPieces E data binding = .ok out) :
    out ∈ raws := by
  obtain ⟨hout, hbinding⟩ := joinPieces_ok hjoined
  obtain ⟨piece, pieces, rfl⟩ := List.exists_cons_of_ne_nil hne
  obtain ⟨frame, value, rest, hframe, -, hdecode, hlength, hrest, rfl⟩ :=
    openPieces_cons_ok hopened
  obtain ⟨hkey, text, fields, htext, hloads, hread, hfits⟩ := openFrame_ok hframe
  rw [bound_of_openPieces hrest] at hbinding
  obtain ⟨htotal, hdigest⟩ := Prod.mk.inj (Option.some.inj hbinding)
  simp only [Frame.fits, Bool.and_eq_true, decide_eq_true_eq] at hfits
  obtain ⟨⟨⟨⟨⟨hordinal, hcount⟩, hlow⟩, hhigh⟩, -⟩, -⟩ := hfits
  obtain ⟨raw, hraw, hmem⟩ := hstems piece List.mem_cons_self hkey text htext
  unfold sealedTexts at hmem
  split at hmem
  · -- a short bundle is sealed as it is, and reads as a frame
    rename_i hshort
    obtain rfl := List.mem_singleton.mp hmem
    rcases pieces with - | ⟨next, pieces⟩
    · rw [openPieces] at hrest
      obtain ⟨rfl, -⟩ := Prod.mk.inj (Except.ok.inj hrest)
      have hvalue : value = out := by simpa using hout
      rw [hvalue] at hdecode
      have hframe : frame = ⟨0, 1, out.length, E.sha256Hex out, frame.data⟩ := by
        rw [← htotal, ← hdigest]
        exact Frame.ext hordinal hcount rfl rfl rfl
      rw [htotal] at hlow hhigh
      simp only [List.length_singleton, Nat.sub_self, Nat.zero_mul, Nat.one_mul] at hlow hhigh
      have hfits : out.length ≤ min maxBytes chunk := by exact_mod_cast hhigh
      refine hpassing text hraw hshort out ⟨by exact_mod_cast hlow,
        hfits.trans (Nat.min_le_right _ _), fields, frame.data, hloads, ?_, hdecode⟩
      rw [← hframe]
      exact hread
    · have hfull := length_lt_of_readFrame hE hloads hread hdecode hshort
      have hmany : 0 < (piece :: next :: pieces).length - 1 := Nat.succ_pos _
      rw [Frame.size, if_pos hmany] at hlength
      omega
  · -- a part of a long bundle, whose digest the whole is checked against
    rename_i hlong
    obtain ⟨part, hpart, rfl⟩ := List.mem_map.mp hmem
    have hpart' : part < chunkCount raw := List.mem_range.mp hpart
    have hframe := frame_of_frameBytes (hreads raw hraw) (not_le.mp hlong) hpart' hloads hread
    rw [hframe] at hdigest
    have hsame : E.sha256Hex out = E.sha256Hex raw := hdigest.symm
    rw [hsecond raw hraw out hsame]
    exact hraw

/-- **Nothing is spliced where no piece passes for a bundle.** -/
theorem unspliced_of_noPassing (hE : E.Sound K) (hreads : ∀ raw ∈ raws, E.ReadsFrames raw)
    (hsecond : ∀ raw ∈ raws, ∀ x, E.sha256Hex x = E.sha256Hex raw → x = raw)
    (h : NoPassing E raws) : Unspliced E K raws := by
  intro bundle out hstems hopen
  obtain ⟨hkey, hexport | ⟨pieces, data, binding, hchunks, hne, hopened, hjoined⟩⟩ :=
    openProjectBytes_ok hopen
  · obtain ⟨raw, hraw, hmem⟩ := hstems bundle (.inl rfl) hkey out hexport
    unfold sealedTexts at hmem
    split at hmem
    · rwa [List.mem_singleton.mp hmem]
    · rename_i hlong
      obtain ⟨ordinal, hordinal, rfl⟩ := List.mem_map.mp hmem
      exact h.framed raw hraw (not_le.mp hlong) ordinal (List.mem_range.mp hordinal)
  · exact mem_of_openPieces hE hreads hsecond h.posing
      (fun piece hpiece => hstems piece (.inr ⟨pieces, hchunks, hpiece⟩)) hne hopened hjoined

/-! ## One piece that passes for a bundle -/

/-- Randomness that is all zeros. -/
def someCoins : Coins := ⟨[], List.replicate 12 0, [], rfl⟩

/-- What is opened of a sealed piece is what was sealed. -/
theorem text_of_decryptExport (hE : E.Sound K) {text plaintext : Bytes} {coins : Coins}
    (h : decryptExport E K.recipientSecretKey (encryptedExport E K plaintext coins) = .ok text) :
    text = plaintext := by
  rw [decryptExport_encryptedExport hE] at h
  exact (Except.ok.inj h).symm

/-- **A piece of a long bundle is opened to its frame.** -/
theorem framed_of_unspliced (hE : E.Sound K) (h : Unspliced E K raws) (hraw : raw ∈ raws)
    (hsize : raw.length ≤ maxBytes) (hlong : chunk < raw.length)
    (hordinal : ordinal < chunkCount raw) : frameBytes E raw ordinal ∈ raws := by
  have hfits := length_frameBytes_le hE hsize hordinal
  refine h (encryptedExport E K (frameBytes E raw ordinal) someCoins) _ ?_
    (openProjectBytes_export hE (hfits.trans (by decide)))
  rintro piece (rfl | ⟨pieces, hchunks, -⟩) - text htext
  · refine ⟨raw, hraw, ?_⟩
    rw [text_of_decryptExport hE htext, sealedTexts, if_neg (not_le.mpr hlong)]
    exact List.mem_map_of_mem (List.mem_range.mpr hordinal)
  · cases hchunks

/-- A short bundle that reads as a frame is opened as one. -/
theorem openProjectBytes_onlyFrame (hE : E.Sound K) {text : Bytes} (hshort : text.length ≤ chunk)
    (h : OnlyFrame E text raw) :
    openProjectBytes E K.recipientSecretKey K.signingPublicKey
      (chunked K [encryptedExport E K text someCoins]) = .ok raw := by
  obtain ⟨fields, data, hloads, hread, hdecode⟩ := h.reads
  have hdata := hE.length_text_le text fields "data_base64" data hloads (data_of_readFrame hread)
  have hlow : (((1 - 1) * chunk : ℕ) : ℤ) < raw.length := by
    have hpos := h.pos
    simp only [Nat.sub_self, Nat.zero_mul]
    omega
  have hhigh : (raw.length : ℤ) ≤ (min maxBytes (1 * chunk) : ℕ) := by
    have hmin : raw.length ≤ min maxBytes (1 * chunk) :=
      le_min (h.fits.trans (by decide)) (h.fits.trans (Nat.one_mul chunk).ge)
    exact_mod_cast hmin
  have hlength : data.toList.length ≤ 4 * ((chunk + 2) / 3) :=
    hdata.trans (hshort.trans (by decide))
  have hfits : Frame.fits ⟨0, 1, raw.length, E.sha256Hex raw, data⟩ 1 0 = true := by
    unfold Frame.fits
    dsimp only
    rw [decide_eq_true hlow, decide_eq_true hhigh, hE.isDigest_sha256Hex, decide_eq_true hlength]
    rfl
  -- the one piece passes every check of a frame
  have hframe : openFrame E K.recipientSecretKey (base64 K.signingPublicKey) 1 0
      (encryptedExport E K text someCoins) =
        .ok ⟨0, 1, raw.length, E.sha256Hex raw, data⟩ := by
    unfold openFrame
    refine bind_of_eq_ok (checkedPiece_encryptedExport hE (hshort.trans (by decide))) ?_
    refine bind_of_eq_ok (decryptExport_encryptedExport hE text someCoins) ?_
    refine bind_of_eq_ok (a := fields) (by rw [parseJsonStrict, hloads]) ?_
    rw [checkedFrame, hread, Option.filter_some, hfits]
    rfl
  have hsize : (raw.length : ℤ) =
      Frame.size ⟨0, 1, raw.length, E.sha256Hex raw, data⟩ 1 0 := by
    rw [Frame.size, if_neg (by decide)]
    simp
  have hmany : [encryptedExport E K text someCoins].length ≤ maxPieces := by
    rw [List.length_singleton]
    decide
  rw [openProjectBytes_chunked E K _ le_rfl hmany]
  refine bind_of_eq_ok (a := ([raw], some (bindingOf E raw))) ?_ ?_
  · rw [List.length_singleton, openPieces]
    refine bind_of_eq_ok hframe ?_
    refine bind_of_eq_ok (ensure_eq_ok.mpr rfl) ?_
    refine bind_of_eq_ok (a := raw) (by rw [b64decode, hdecode]; rfl) ?_
    exact bind_of_eq_ok (ensure_eq_ok.mpr hsize) rfl
  · dsimp only
    rw [joinPieces, List.flatten_singleton]
    exact if_pos rfl

/-- **A short bundle that reads as a frame passes for a list of one.** -/
theorem posing_of_unspliced (hE : E.Sound K) (h : Unspliced E K raws) {text : Bytes}
    (htext : text ∈ raws) (hshort : text.length ≤ chunk) (honly : OnlyFrame E text raw) :
    raw ∈ raws := by
  refine h _ raw ?_ (openProjectBytes_onlyFrame hE hshort honly)
  rintro piece (rfl | ⟨pieces, hchunks, hpiece⟩) - opened hopened
  · have hformat : (chunked K [encryptedExport E K text someCoins]).get? "format" =
      some (.str format) := rfl
    unfold decryptExport at hopened
    rw [if_pos (.inl (by rw [hformat]; decide))] at hopened
    cases hopened
  · obtain rfl : [encryptedExport E K text someCoins] = pieces :=
      Json.arr.inj (Option.some.inj hchunks)
    rw [List.mem_singleton.mp hpiece] at hopened
    refine ⟨text, htext, ?_⟩
    rw [text_of_decryptExport hE hopened, sealedTexts, if_pos hshort]
    exact List.mem_singleton_self text

/-! ## Round trips -/

/-- **A sealed bundle is opened to its bytes.** -/
theorem exists_seal_open (hE : E.Sound K) (hreads : E.ReadsFrames raw) (hpos : 1 ≤ raw.length)
    (hsize : raw.length ≤ maxBytes) (coins : ℕ → Coins) : ∃ bundle, sealProjectBytes E K raw coins = .ok bundle ∧
      openProjectBytes E K.recipientSecretKey K.signingPublicKey bundle = .ok raw := by
  unfold sealProjectBytes
  rw [if_neg (not_not.mpr ⟨hpos, hsize⟩)]
  by_cases hshort : raw.length ≤ chunk
  · rw [if_pos hshort]
    exact ⟨_, sealPiece_eq hE (hshort.trans (by decide)), openProjectBytes_export hE hsize⟩
  · rw [if_neg hshort]
    have hsealed : ∀ ordinal ∈ List.range (chunkCount raw),
        sealPiece E K (frameBytes E raw ordinal) (coins ordinal) =
          .ok (encryptedExport E K (frameBytes E raw ordinal) (coins ordinal)) :=
      fun ordinal hordinal =>
        sealPiece_eq hE (length_frameBytes_le hE hsize (List.mem_range.mp hordinal))
    refine ⟨_, bind_of_eq_ok (mapM_eq_ok_map hsealed) rfl, ?_⟩
    have hcount : 1 ≤ chunkCount raw := by
      simp only [chunkCount, chunk]
      omega
    have hmany : chunkCount raw ≤ maxPieces :=
      Nat.div_le_div_right (Nat.sub_le_sub_right (Nat.add_le_add_right hsize chunk) 1)
    have hall : raw.length ≤ chunkCount raw * chunk := by
      simp only [chunkCount, chunk]
      omega
    have hloop := openPieces_sealed hE hreads (not_le.mp hshort) hsize coins (chunkCount raw) 0
      none (Nat.zero_add _) fun b hb => by cases hb
    rw [if_neg (Nat.one_le_iff_ne_zero.mp hcount)] at hloop
    have hopen := openProjectBytes_chunked E K ((List.range (chunkCount raw)).map fun ordinal =>
      encryptedExport E K (frameBytes E raw ordinal) (coins ordinal))
    rw [List.length_map, List.length_range] at hopen
    refine (hopen hcount hmany).trans (bind_of_eq_ok (List.range_eq_range' ▸ hloop) ?_)
    dsimp only
    rw [joinPieces, flatten_slices, List.take_of_length_le hall]
    exact if_pos rfl

/-- **A bundle is opened to its bytes, and nothing is spliced** exactly where no
piece passes for a bundle: the latter where no other bytes have the digest of
a sealed bundle. -/
theorem sealed_bundles_opened (hE : E.Sound K) (raws : List Bytes)
    (hsizes : ∀ raw ∈ raws, 1 ≤ raw.length ∧ raw.length ≤ maxBytes)
    (hreads : ∀ raw ∈ raws, E.ReadsFrames raw) :
    (∀ raw ∈ raws, ∀ coins : ℕ → Coins, ∃ bundle, sealProjectBytes E K raw coins = .ok bundle ∧
      openProjectBytes E K.recipientSecretKey K.signingPublicKey bundle = .ok raw) ∧
    ((∀ raw ∈ raws, ∀ x, E.sha256Hex x = E.sha256Hex raw → x = raw) →
      (Unspliced E K raws ↔ NoPassing E raws)) := by
  refine ⟨fun raw hraw coins => ?_, fun hsecond => ⟨fun h => ⟨?_, ?_⟩, ?_⟩⟩
  · exact exists_seal_open hE (hreads raw hraw) (hsizes raw hraw).1 (hsizes raw hraw).2 coins
  · exact fun raw hraw hlong _ => framed_of_unspliced hE h hraw (hsizes raw hraw).2 hlong
  · exact fun text htext hshort raw => posing_of_unspliced hE h htext hshort
  · exact unspliced_of_noPassing hE hreads hsecond

/-! ## One byte, and a text that reads as its frame -/

/-- SHA-256 of the byte 7. -/
def sevenDigest : String := "ca358758f6d27e6cf45272937977a748fd88391db679ceda7dc7bf1f005ee879"

/-- A frame of the one byte 7, with its fields in order. -/
def sevenFields : List (String × Json) :=
  [("count", .int 1), ("data_base64", .str "Bw=="), ("format", .str innerFormat),
    ("ordinal", .int 0), ("plaintext_sha256", .str sevenDigest), ("total_bytes", .int 1)]

/-- The text of the only frame of the byte 7. -/
def sevenText : Bytes := canonicalBytes (.obj sevenFields)

/-- `n` bytes that are zero. -/
def zeros (n : ℕ) : Bytes := List.replicate n 0

/-- Ciphertexts in clear, and signatures of nothing, of the lengths there are;
SHA-256 of the byte 7, and a reader of the text of its frame. -/
def sevenEngine : Engine where
  encaps _ _ := (zeros 1088, zeros 32)
  decaps _ _ := some (zeros 32)
  derive := id
  encrypt _ _ plaintext _ := plaintext ++ zeros 16
  decrypt _ _ ciphertext _ := some (ciphertext.take (ciphertext.length - 16))
  sign _ _ _ := zeros 3309
  verify _ _ _ := true
  sha256Hex bytes := if bytes = [7] then sevenDigest else String.ofList (List.replicate 64 '0')
  loads bytes := if bytes = sevenText then some (.obj sevenFields) else none
  str _ := ""

/-- Keys of the right lengths. -/
def sevenKeys : Keys where
  recipientPublicKey := zeros 1184
  recipientSecretKey := zeros 2400
  signingPublicKey := zeros 1952
  signingSecretKey := zeros 4032

theorem loads_sevenEngine (bytes : Bytes) : sevenEngine.loads bytes =
    if bytes = sevenText then some (.obj sevenFields) else none := rfl

theorem length_zeros (n : ℕ) : (zeros n).length = n := List.length_replicate

/-- The frame is a short text. -/
theorem length_sevenText : sevenText.length = 192 := by decide +kernel

/-- A text, if it is one, of no more than 100 characters. -/
def isShort : Json → Bool
  | .str s => s.toList.length ≤ 100
  | _ => true

/-- No text of the frame is longer than the frame. -/
theorem length_le_of_lookup {name text : String}
    (h : sevenFields.lookup name = some (.str text)) : text.toList.length ≤ sevenText.length := by
  have hshort : sevenFields.all (fun field => isShort field.2) = true := by decide +kernel
  have hlong : 100 ≤ sevenText.length := length_sevenText ▸ by decide
  have hkeys : (sevenFields.map (·.1)).Nodup := by decide +kernel
  have hmem := (Json.lookup_eq_some_iff_mem hkeys).mp h
  have htext : text.toList.length ≤ 100 := of_decide_eq_true (List.all_eq_true.mp hshort _ hmem)
  exact htext.trans hlong

/-- The engine of the example does what is asked of one. -/
theorem sound_sevenEngine : sevenEngine.Sound sevenKeys where
  decaps_encaps _ := rfl
  length_encaps _ := length_zeros 1088
  decrypt_encrypt _ _ plaintext _ := by
    change some ((plaintext ++ zeros 16).take ((plaintext ++ zeros 16).length - 16)) = _
    rw [List.length_append, length_zeros, Nat.add_sub_cancel, List.take_left]
  length_encrypt _ _ plaintext _ := by
    change (plaintext ++ zeros 16).length = _
    rw [List.length_append, length_zeros]
  verify_sign _ _ := rfl
  length_sign _ _ := length_zeros 3309
  length_signingPublicKey := length_zeros 1952
  isDigest_sha256Hex bytes := by
    change Artifacts.isDigest (if bytes = [7] then sevenDigest else
      String.ofList (List.replicate 64 '0')) = true
    split <;> decide +kernel
  length_text_le bytes fields name text hloads hlookup := by
    rw [loads_sevenEngine] at hloads
    split at hloads
    · rename_i hbytes
      obtain rfl := Json.obj.inj (Option.some.inj hloads)
      rw [hbytes]
      exact length_le_of_lookup hlookup
    · cases hloads

/-- A byte that is not the text of a frame is sent, and no piece of it passes for
another bundle. -/
theorem seven_transported :
    (∃ bundle, sealProjectBytes sevenEngine sevenKeys [7] (fun _ => someCoins) = .ok bundle ∧
      openProjectBytes sevenEngine sevenKeys.recipientSecretKey sevenKeys.signingPublicKey
        bundle = .ok [7]) ∧ Unspliced sevenEngine sevenKeys [[7]] := by
  have hshort : ∀ raw ∈ [[7]], (raw : Bytes).length ≤ chunk := by decide
  have hother : [7] ≠ sevenText := fun h => by
    have hlength := congrArg List.length h
    rw [length_sevenText] at hlength
    cases hlength
  have hloads : sevenEngine.loads [7] = none := by rw [loads_sevenEngine, if_neg hother]
  have hpassing : NoPassing sevenEngine [[7]] := by
    refine ⟨fun raw hraw hlong => absurd (hshort raw hraw) (not_le.mpr hlong), ?_⟩
    rintro text htext - raw ⟨-, -, fields, data, hread, -⟩
    rw [List.mem_singleton.mp htext, hloads] at hread
    cases hread
  have hdigest : ∀ raw ∈ [[7]], ∀ x : Bytes,
      sevenEngine.sha256Hex x = sevenEngine.sha256Hex raw → x = raw := by
    intro raw hraw x hx
    by_contra hne
    rw [List.mem_singleton.mp hraw] at hx hne
    change (if x = [7] then sevenDigest else String.ofList (List.replicate 64 '0')) =
      sevenDigest at hx
    rw [if_neg hne] at hx
    exact absurd hx (by decide +kernel)
  obtain ⟨hopened, hunspliced⟩ := sealed_bundles_opened sound_sevenEngine [[7]] (by decide)
    fun raw hraw hlong => absurd (hshort raw hraw) (not_le.mpr hlong)
  exact ⟨hopened [7] (List.mem_singleton_self _) fun _ => someCoins,
    (hunspliced hdigest).mpr hpassing⟩

/-- **A text that reads as a frame is opened to what it frames**, sent as a
piece of a list. -/
theorem frame_passes_for_bundle :
    ¬ ∀ (E : Engine) (K : Keys) (raws : List Bytes), E.Sound K →
      (∀ raw ∈ raws, 1 ≤ raw.length ∧ raw.length ≤ maxBytes) → Unspliced E K raws := by
  intro hall
  have hsizes : ∀ raw ∈ [sevenText], 1 ≤ raw.length ∧ raw.length ≤ maxBytes := by
    intro raw hraw
    rw [List.mem_singleton.mp hraw, length_sevenText]
    decide
  have hshort : sevenText.length ≤ chunk := by
    rw [length_sevenText]
    decide
  have hread : readFrame sevenFields =
      some ⟨0, 1, ([7] : Bytes).length, sevenEngine.sha256Hex [7], "Bw=="⟩ := by decide +kernel
  have hloads : sevenEngine.loads sevenText = some (.obj sevenFields) := by
    rw [loads_sevenEngine, if_pos (Eq.refl sevenText)]
  have honly : OnlyFrame sevenEngine sevenText [7] :=
    ⟨by decide, by decide, sevenFields, "Bw==", hloads, hread, by decide +kernel⟩
  have hunspliced := hall sevenEngine sevenKeys [sevenText] sound_sevenEngine hsizes
  have hmem := posing_of_unspliced sound_sevenEngine hunspliced (List.mem_singleton_self _) hshort
    honly
  exact absurd hmem (by decide +kernel)

end Atmem.BundleTransport
