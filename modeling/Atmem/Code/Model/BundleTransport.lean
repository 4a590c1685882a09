import Atmem.Common.Checked
import Atmem.Home.Model.Artifacts
/-!
# The transport of project bundles

A bundle leaves as a signed encrypted export, and one that is too large as a
list of them, each of which says where it belongs. What is opened is one
export, whatever it says, or a list whose pieces agree.
-/

namespace Atmem.BundleTransport

open Artifacts (Bytes utf8)
open Checked

/-! ## Surroundings -/

/-- The exceptions of the module and of the primitives under it. -/
inductive Raised
  | valueError (message : String)
  | permissionError (message : String)
  | keyError (name : String)
  /-- What `verify` raises. -/
  | invalidSignature
  | decapsulationError
  | invalidTag
deriving DecidableEq

/-- ML-KEM-768, HKDF, AES-GCM, ML-DSA-65 and SHA-256; `json.loads` with the
hook that refuses a key twice, and `str` of a value that is no text. -/
structure Engine where
  encaps : (publicKey coins : Bytes) → Bytes × Bytes
  decaps : (secretKey ciphertext : Bytes) → Option Bytes
  derive : Bytes → Bytes
  encrypt : (key nonce plaintext aad : Bytes) → Bytes
  decrypt : (key nonce ciphertext aad : Bytes) → Option Bytes
  sign : (secretKey message coins : Bytes) → Bytes
  verify : (publicKey message signature : Bytes) → Bool
  sha256Hex : Bytes → String
  loads : Bytes → Option Json
  str : Json → String

/-- What an export draws. -/
structure Coins where
  kem : Bytes
  nonce : Bytes
  signature : Bytes
  length_nonce : nonce.length = 12

/-- The recipient's two keys, and the signer's. -/
structure Keys where
  recipientPublicKey : Bytes
  recipientSecretKey : Bytes
  signingPublicKey : Bytes
  signingSecretKey : Bytes

variable (E : Engine)

/-- `base64.b64encode(bytes).decode()`. -/
def base64 (bytes : Bytes) : String := String.ofList (Base64.encode bytes)

/-- `base64.b64decode(text, validate=True)`. -/
def b64decode (text : String) : Except Raised Bytes :=
  (Base64.decode text.toList).elim (.error (.valueError "invalid base64")) .ok

/-- `base64.b64decode(str(bundle[name]), validate=True)`. -/
def bytesOf (bundle : Json) (name : String) : Except Raised Bytes :=
  match bundle.get? name with
  | none => .error (.keyError name)
  | some (.str text) => b64decode text
  | some value => b64decode (E.str value)

/-- `canonical_json(value).encode()`. -/
def canonicalBytes (value : Json) : Bytes := utf8 value.canonicalJson

/-! ## Exports -/

/-- `EXPORT_FORMAT`. -/
def exportFormat : String := "atmem-encrypted-evidence-export-v1"

/-- `EXPORT_SUITE`. -/
def exportSuite : String := "ML-KEM-768+AES-256-GCM+ML-DSA-65"

/-- The fields that are signed. -/
def unsignedFields (K : Keys) (plaintext : Bytes) (coins : Coins) : List (String × Json) :=
  let encapsulated := E.encaps K.recipientPublicKey coins.kem
  [("format", .str exportFormat), ("suite", .str exportSuite),
    ("kem_ciphertext", .str (base64 encapsulated.1)), ("nonce", .str (base64 coins.nonce)),
    ("ciphertext", .str (base64 (E.encrypt (E.derive encapsulated.2) coins.nonce plaintext
      (utf8 exportFormat)))),
    ("signing_public_key", .str (base64 K.signingPublicKey))]

/-- `encrypted_export`. -/
def encryptedExport (K : Keys) (plaintext : Bytes) (coins : Coins) : Json :=
  let unsigned := unsignedFields E K plaintext coins
  .obj (unsigned ++ [("signature", .str (base64 (E.sign K.signingSecretKey
    (canonicalBytes (.obj unsigned)) coins.signature)))])

/-- `decrypt_export`. -/
def decryptExport (secretKey : Bytes) (bundle : Json) : Except Raised Bytes := do
  if bundle.get? "format" ≠ some (.str exportFormat) ∨
      bundle.get? "suite" ≠ some (.str exportSuite) then
    throw (.valueError "unsupported evidence export")
  let publicKey ← bytesOf E bundle "signing_public_key"
  let signature ← bytesOf E bundle "signature"
  if !E.verify publicKey (canonicalBytes (bundle.without ["signature"])) signature then
    throw .invalidSignature
  let kemCiphertext ← bytesOf E bundle "kem_ciphertext"
  let sharedSecret ← (E.decaps secretKey kemCiphertext).elim (.error .decapsulationError) .ok
  let nonce ← bytesOf E bundle "nonce"
  let ciphertext ← bytesOf E bundle "ciphertext"
  (E.decrypt (E.derive sharedSecret) nonce ciphertext (utf8 exportFormat)).elim
    (.error .invalidTag) .ok

/-! ## Pieces -/

/-- `FORMAT`. -/
def format : String := "atmem-code-project-encrypted-chunks-v1"

/-- `INNER_FORMAT`. -/
def innerFormat : String := "atmem-code-project-bundle-chunk-v1"

/-- `CHUNK`. -/
def chunk : ℕ := 196608

/-- The most bytes an archive may have. -/
def maxBytes : ℕ := 128000000

/-- The most bytes of one piece. -/
def maxPieceBytes : ℕ := 400000

/-- `_PIECE_FIELDS`. -/
def pieceFields : List String :=
  ["format", "suite", "kem_ciphertext", "nonce", "ciphertext", "signing_public_key", "signature"]

/-- `set(value) == names`. -/
def keysAre (fields : List (String × Json)) (names : List String) : Bool :=
  fields.all (fun field => field.1 ∈ names) && names.all fun name => fields.any (·.1 = name)

/-- `type(v) is str and len(v) <= MAX_PIECE_BYTES`. -/
def isBoundedText : Json → Bool
  | .str s => s.toList.length ≤ maxPieceBytes
  | _ => false

/-- `_checked_piece`. -/
def checkedPiece (piece : Json) (expectedKey : String) : Except Raised Unit :=
  match piece with
  | .obj fields =>
    if keysAre fields pieceFields && fields.all (fun field => isBoundedText field.2) &&
        piece.get? "signing_public_key" = some (.str expectedKey) &&
        (canonicalBytes piece).length ≤ maxPieceBytes then .ok ()
    else .error (.valueError "untrusted signer or invalid project export piece")
  | _ => .error (.valueError "untrusted signer or invalid project export piece")

/-- `seal` of `seal_project_bytes`. -/
def sealPiece (K : Keys) (value : Bytes) (coins : Coins) : Except Raised Json := do
  let piece := encryptedExport E K value coins
  checkedPiece piece (base64 K.signingPublicKey)
  let signature ← bytesOf E piece "signature"
  if !E.verify K.signingPublicKey (canonicalBytes (piece.without ["signature"])) signature then
    throw .invalidSignature
  pure piece

/-- `(len(raw)+CHUNK-1)//CHUNK`. -/
def chunkCount (raw : Bytes) : ℕ := (raw.length + chunk - 1) / chunk

/-- `raw[ordinal*CHUNK:(ordinal+1)*CHUNK]`. -/
def slice (raw : Bytes) (ordinal : ℕ) : Bytes := (raw.drop (ordinal * chunk)).take chunk

/-- `inner`: what a piece of a long bundle says of itself. -/
def frameFields (raw : Bytes) (ordinal : ℕ) : List (String × Json) :=
  [("format", .str innerFormat), ("ordinal", .int ordinal), ("count", .int (chunkCount raw)),
    ("total_bytes", .int raw.length), ("plaintext_sha256", .str (E.sha256Hex raw)),
    ("data_base64", .str (base64 (slice raw ordinal)))]

/-- The text that is sealed of a frame. -/
def frameBytes (raw : Bytes) (ordinal : ℕ) : Bytes :=
  canonicalBytes (.obj (frameFields E raw ordinal))

/-- `seal_project_bytes`. -/
def sealProjectBytes (K : Keys) (raw : Bytes) (coins : ℕ → Coins) : Except Raised Json := do
  if ¬ (1 ≤ raw.length ∧ raw.length ≤ maxBytes) then
    throw (.valueError "project bundle exceeds logical size limit")
  if raw.length ≤ chunk then sealPiece E K raw (coins 0)
  else do
    let pieces ← (List.range (chunkCount raw)).mapM fun ordinal =>
      sealPiece E K (frameBytes E raw ordinal) (coins ordinal)
    pure (.obj [("format", .str format), ("signing_public_key", .str (base64 K.signingPublicKey)),
      ("chunks", .arr pieces)])

/-! ## Opening -/

/-- `parse_json_strict`. -/
def parseJsonStrict (raw : Bytes) : Except Raised (List (String × Json)) :=
  match E.loads raw with
  | none => .error (.valueError "delegated result is not valid JSON")
  | some (.obj fields) => .ok fields
  | some _ => .error (.valueError "delegated result must be an object")

/-- What a frame says. -/
@[ext] structure Frame where
  ordinal : ℤ
  count : ℤ
  totalBytes : ℤ
  plaintextSha256 : String
  data : String
deriving DecidableEq

/-- The names a frame must have, and no other. -/
def frameNames : List String :=
  ["format", "ordinal", "count", "total_bytes", "plaintext_sha256", "data_base64"]

/-- The fields of a frame, where they are all there are and of their types. -/
def readFrame (fields : List (String × Json)) : Option Frame :=
  if keysAre fields frameNames && fields.lookup "format" = some (.str innerFormat) then
    match fields.lookup "ordinal", fields.lookup "count", fields.lookup "total_bytes",
        fields.lookup "plaintext_sha256", fields.lookup "data_base64" with
    | some (.int ordinal), some (.int count), some (.int totalBytes), some (.str plaintextSha256),
        some (.str data) => some ⟨ordinal, count, totalBytes, plaintextSha256, data⟩
    | _, _, _, _, _ => none
  else none

/-- A frame that may stand at an ordinal of `n` pieces. -/
def Frame.fits (frame : Frame) (n ordinal : ℕ) : Bool :=
  frame.ordinal = ordinal && frame.count = n &&
    (((n - 1) * chunk : ℕ) : ℤ) < frame.totalBytes &&
    frame.totalBytes ≤ (min maxBytes (n * chunk) : ℕ) && Artifacts.isDigest frame.plaintextSha256 &&
    frame.data.toList.length ≤ 4 * ((chunk + 2) / 3)

/-- The frame that the fields are, where it may stand there. -/
def checkedFrame (n ordinal : ℕ) (fields : List (String × Json)) : Except Raised Frame :=
  match (readFrame fields).filter (·.fits n ordinal) with
  | some frame => .ok frame
  | none => .error (.valueError "invalid authenticated project export framing")

/-- The frame of a piece. -/
def openFrame (secretKey : Bytes) (expected : String) (n ordinal : ℕ) (piece : Json) :
    Except Raised Frame := do
  checkedPiece piece expected
  let fields ← parseJsonStrict E (← decryptExport E secretKey piece)
  checkedFrame n ordinal fields

/-- `(inner['total_bytes'],inner['plaintext_sha256'])`. -/
def Frame.binding (frame : Frame) : ℤ × String := (frame.totalBytes, frame.plaintextSha256)

/-- `expected_size`. -/
def Frame.size (frame : Frame) (n ordinal : ℕ) : ℤ :=
  if ordinal < n - 1 then chunk else frame.totalBytes - (ordinal * chunk : ℕ)

/-- The loop, from an ordinal on: the data, and the binding of the pieces. -/
def openPieces (secretKey : Bytes) (expected : String) (n : ℕ) :
    ℕ → Option (ℤ × String) → List Json → Except Raised (List Bytes × Option (ℤ × String))
  | _, binding, [] => .ok ([], binding)
  | ordinal, binding, piece :: pieces => do
    let frame ← openFrame E secretKey expected n ordinal piece
    ensure (binding.all (· = frame.binding)) (.valueError "mixed project export pieces")
    let value ← b64decode frame.data
    ensure ((value.length : ℤ) = frame.size n ordinal)
      (.valueError "project export piece length mismatch")
    let (data, bound) ← openPieces secretKey expected n (ordinal + 1) (some frame.binding) pieces
    pure (value :: data, bound)

/-- The end of `open_project_bytes`: `b''.join(data)`, checked. -/
def joinPieces (data : List Bytes) (binding : Option (ℤ × String)) : Except Raised Bytes :=
  let raw := data.flatten
  if binding = some ((raw.length : ℤ), E.sha256Hex raw) then .ok raw
  else .error (.valueError "project export integrity mismatch")

/-- `(MAX_BYTES+CHUNK-1)//CHUNK`. -/
def maxPieces : ℕ := (maxBytes + chunk - 1) / chunk

/-- The names a bundle must have, and no other. -/
def bundleNames : List String := ["format", "signing_public_key", "chunks"]

/-- `open_project_bytes`. -/
def openProjectBytes (secretKey trusted : Bytes) (bundle : Json) : Except Raised Bytes := do
  let expected := base64 trusted
  if bundle.get? "signing_public_key" ≠ some (.str expected) then
    throw (.permissionError "bundle signer does not match the trusted key")
  if bundle.get? "format" ≠ some (.str format) then do
    let raw ← decryptExport E secretKey bundle
    if maxBytes < raw.length then
      throw (.valueError "project bundle exceeds logical size limit")
    pure raw
  else
    match bundle, bundle.get? "chunks" with
    | .obj fields, some (.arr pieces) =>
      if keysAre fields bundleNames ∧ 1 ≤ pieces.length ∧ pieces.length ≤ maxPieces then do
        let (data, binding) ← openPieces E secretKey expected pieces.length 0 none pieces
        joinPieces E data binding
      else throw (.valueError "invalid project export chunk framing")
    | _, _ => throw (.valueError "invalid project export chunk framing")

end Atmem.BundleTransport
