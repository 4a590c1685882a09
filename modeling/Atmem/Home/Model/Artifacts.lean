import Mathlib.Algebra.Group.Nat.Defs
import Atmem.Common.Base64
import Atmem.Contracts.CanonicalJson
import Atmem.Contracts.Codec
/-!
# The artifact vault

Exact bytes are kept under the SHA-256 of what they are, encrypted in blocks.
A blob is a header, in clear, and a frame for each block; the header goes into
what each block is authenticated with.
-/

namespace Atmem.Artifacts

/-- A file, as its bytes. -/
abbrev Bytes := List UInt8

/-! ## Surroundings -/

/-- The exceptions of the vault and of what it is built on. -/
inductive Raised
  | valueError (message : String)
  | structError
  | keyError (name : String)
  | attributeError
  | jsonDecodeError
  | invalidTag
  | fileNotFoundError
  /-- An operation on a file that fails. -/
  | osError
deriving DecidableEq

/-- AES-GCM under a key, SHA-256, `json.loads` of bytes, `int` of a value that
is no integer and `str` of one that is no text. -/
structure Engine (Key : Type) where
  encrypt : Key → (nonce plaintext aad : Bytes) → Bytes
  decrypt : Key → (nonce ciphertext aad : Bytes) → Option Bytes
  sha256Hex : Bytes → String
  loads : Bytes → Option Json
  int : Json → Option ℤ
  str : Json → String

/-- `_path`: a digest is 64 digits of lowercase hexadecimal. -/
def isDigest (digest : String) : Bool :=
  digest.toList.length = 64 && digest.toList.all fun c => c ∈ "0123456789abcdef".toList

/-- What is documented of AES-GCM, of SHA-256 and of JSON. -/
structure Engine.Sound {Key : Type} (E : Engine Key) : Prop where
  decrypt_encrypt : ∀ key nonce plaintext aad,
    E.decrypt key nonce (E.encrypt key nonce plaintext aad) aad = some plaintext
  /-- A tag of 16 bytes. -/
  length_encrypt : ∀ key nonce plaintext aad,
    (E.encrypt key nonce plaintext aad).length = plaintext.length + 16
  isDigest_sha256Hex : ∀ bytes, isDigest (E.sha256Hex bytes) = true
  proper_loads : ∀ bytes j, E.loads bytes = some j → j.Proper

variable {Key : Type} (E : Engine Key)

/-- `text.encode("utf-8")`. -/
def utf8 (text : String) : Bytes := text.toUTF8.data.toList

/-- `struct.pack(">I", n)`. -/
def packI (n : ℕ) : Except Raised Bytes :=
  if n < 2 ^ 32 then
    .ok [.ofNat (n / 2 ^ 24), .ofNat (n / 2 ^ 16), .ofNat (n / 2 ^ 8), .ofNat n]
  else .error .structError

/-- `struct.unpack(">I", raw)`, where four bytes could be read. -/
def unpackI : Bytes → Option ℕ
  | [a, b, c, d] => some (((a.toNat * 256 + b.toNat) * 256 + c.toNat) * 256 + d.toNat)
  | _ => none

/-- `str(value)`. -/
def Engine.text : Json → String
  | .str s => s
  | value => E.str value

/-- `int(value)`. -/
def Engine.toInt : Json → Except Raised ℤ
  | .int n => .ok n
  | value => (E.int value).elim (.error (.valueError "invalid literal for int()")) .ok

/-- `base64.b64decode(str(value), validate=True)`. -/
def Engine.decodeBase64 (value : Json) : Except Raised Bytes :=
  (Base64.decode (E.text value).toList).elim (.error (.valueError "invalid base64")) .ok

/-! ## The format -/

/-- `MAGIC`. -/
def magic : Bytes := utf8 "ATMEMART1"

/-- `FORMAT`. -/
def format : String := "atmem-encrypted-artifact-v1"

/-- `SUITE`. -/
def suite : String := "AES-256-GCM-CHUNKED"

/-- `CHUNK_SIZE`. -/
def chunkSize : ℕ := 1024 * 1024

/-- The fields of a header. -/
def headerFields (digest : String) (byteCount : ℕ) (noncePrefix : Bytes) : List (String × Json) :=
  [("format", .str format), ("suite", .str suite), ("plaintext_sha256", .str digest),
    ("plaintext_bytes", .int byteCount), ("chunk_size", .int chunkSize),
    ("chunk_count", .int ((byteCount + chunkSize - 1) / chunkSize : ℕ)),
    ("nonce_prefix", .str (String.ofList (Base64.encode noncePrefix)))]

/-- The header of a blob. -/
def header (digest : String) (byteCount : ℕ) (noncePrefix : Bytes) : Json :=
  .obj (headerFields digest byteCount noncePrefix)

/-- What the header is in bytes. -/
def headerBytes (digest : String) (byteCount : ℕ) (noncePrefix : Bytes) : Bytes :=
  utf8 (header digest byteCount noncePrefix).canonicalJson

/-- What is spooled of the chunks, and how much: the empty ones are passed
over. -/
def spool : List Bytes → Bytes × ℕ → Bytes × ℕ
  | [], s => s
  | chunk :: chunks, (bytes, count) =>
    if chunk = [] then spool chunks (bytes, count)
    else spool chunks (bytes ++ chunk, count + chunk.length)

/-- `for index in range(chunk_count)` of the writer, from an index on. -/
def writeFrames (key : Key) (noncePrefix headerBytes : Bytes) :
    ℕ → ℕ → Bytes → Except Raised Bytes
  | _, 0, _ => .ok []
  | index, n + 1, source => do
    let plaintext := source.take chunkSize
    let counter ← packI index
    let ciphertext := E.encrypt key (noncePrefix ++ counter) plaintext (headerBytes ++ counter)
    let length ← packI ciphertext.length
    let frames ← writeFrames key noncePrefix headerBytes (index + 1) n (source.drop chunkSize)
    pure (length ++ ciphertext ++ frames)

/-- What is written of some bytes. -/
def encodeBlob (key : Key) (noncePrefix bytes : Bytes) (byteCount : ℕ) :
    Except Raised Bytes := do
  let chunkCount := (byteCount + chunkSize - 1) / chunkSize
  let headerBytes := headerBytes (E.sha256Hex bytes) byteCount noncePrefix
  let length ← packI headerBytes.length
  let frames ← writeFrames E key noncePrefix headerBytes 0 chunkCount bytes
  pure (magic ++ length ++ headerBytes ++ frames)

/-- `handle.read(4)`, unpacked, and the rest. -/
def readLength (message : String) (file : Bytes) : Except Raised (ℕ × Bytes) :=
  match unpackI (file.take 4) with
  | some length => .ok (length, file.drop 4)
  | none => .error (.valueError message)

/-- `handle.read(length)`, in full, and the rest. -/
def readExactly (message : String) (length : ℕ) (file : Bytes) : Except Raised (Bytes × Bytes) :=
  if (file.take length).length = length then .ok (file.take length, file.drop length)
  else .error (.valueError message)

/-- `header[name]`. -/
def headerField (header : Json) (name : String) : Except Raised Json :=
  (header.get? name).elim (.error (.keyError name)) .ok

/-- `_read_header`: the header, its bytes, and what follows. -/
def readHeader (file : Bytes) : Except Raised (Json × Bytes × Bytes) := do
  if file.take magic.length ≠ magic then
    throw (.valueError "unsupported encrypted artifact format")
  let (length, file) ← readLength "encrypted artifact header is truncated" (file.drop magic.length)
  if length = 0 ∨ 64 * 1024 < length then
    throw (.valueError "encrypted artifact header length is invalid")
  let (headerBytes, file) ← readExactly "encrypted artifact header is truncated" length file
  match E.loads headerBytes with
  | none => throw .jsonDecodeError
  | some (.obj kvs) =>
    let header := Json.obj kvs
    if header.get? "format" ≠ some (.str format) ∨ header.get? "suite" ≠ some (.str suite) then
      throw (.valueError "unsupported encrypted artifact profile")
    pure (header, headerBytes, file)
  | some _ => throw .attributeError

/-- `for index in range(chunk_count)` of the reader, from an index on: what is
yielded, and what is left of the file. -/
def readFrames (key : Key) (noncePrefix headerBytes : Bytes) :
    ℕ → ℕ → Bytes → Except Raised (List Bytes × Bytes)
  | _, 0, file => .ok ([], file)
  | index, n + 1, file => do
    let (length, file) ← readLength "encrypted artifact is truncated" file
    let (ciphertext, file) ← readExactly "encrypted artifact chunk is truncated" length file
    let counter ← packI index
    match E.decrypt key (noncePrefix ++ counter) ciphertext (headerBytes ++ counter) with
    | none => throw .invalidTag
    | some plaintext => do
      let (pieces, file) ← readFrames key noncePrefix headerBytes (index + 1) n file
      pure (plaintext :: pieces, file)

/-- `iter_plaintext`, over the content of a file: what is yielded, where
nothing is raised. -/
def decodeBlob (key : Key) (digest : String) (file : Bytes) : Except Raised (List Bytes) := do
  let (header, headerBytes, file) ← readHeader E file
  if header.get? "plaintext_sha256" ≠ some (.str digest) then
    throw (.valueError "artifact address does not match its authenticated header")
  let expectedBytes ← E.toInt (← headerField header "plaintext_bytes")
  let chunkCount ← E.toInt (← headerField header "chunk_count")
  let noncePrefix ← E.decodeBase64 (← headerField header "nonce_prefix")
  let (pieces, file) ← readFrames E key noncePrefix headerBytes 0 chunkCount.toNat file
  if file ≠ [] then throw (.valueError "encrypted artifact contains trailing data")
  if (pieces.flatten.length : ℤ) ≠ expectedBytes ∨ E.sha256Hex pieces.flatten ≠ digest then
    throw (.valueError "artifact plaintext integrity verification failed")
  pure pieces

/-! ## The vault -/

/-- The files `*/*.blob` of a directory, each by its stem. -/
abbrev Blobs := List (String × Bytes)

/-- A vault: its blobs, and its root below the home. -/
structure Vault where
  folder : String := "artifacts/sha256"
  blobs : Blobs := []
deriving DecidableEq

/-- `_descriptor`. -/
structure Descriptor where
  format : String := "atmem-artifact-reference-v1"
  plaintextSha256 : String
  plaintextBytes : ℕ
  relativePath : String
  cipherSuite : String := suite
  replayed : Bool
deriving DecidableEq

namespace Vault

variable (v : Vault)

/-- The blob of a digest. -/
def blob? (digest : String) : Option Bytes := v.blobs.lookup digest

/-- `os.replace(temporary, target)`. -/
def store (digest : String) (blob : Bytes) : Vault :=
  { v with blobs := v.blobs.filter (fun b => b.1 ≠ digest) ++ [(digest, blob)] }

/-- What is returned of an artifact that is stored. -/
def descriptor (digest : String) (byteCount : ℕ) (replayed : Bool) : Descriptor where
  plaintextSha256 := digest
  plaintextBytes := byteCount
  relativePath := v.folder ++ "/" ++ String.ofList (digest.toList.take 2) ++ "/" ++ digest ++ ".blob"
  replayed

/-- `_path`. -/
def path (digest : String) : Except Raised Unit :=
  if isDigest digest then .ok ()
  else .error (.valueError "artifact digest must be lowercase SHA-256")

/-- `iter_plaintext`. -/
def iterPlaintext (key : Key) (digest : String) : Except Raised (List Bytes) := do
  path digest
  match v.blob? digest with
  | none => throw .fileNotFoundError
  | some file => decodeBlob E key digest file

/-- `read`. -/
def read (key : Key) (digest : String) : Except Raised Bytes := do
  let pieces ← v.iterPlaintext E key digest
  pure pieces.flatten

/-- `put_chunks`, with the nonce prefix that is drawn. -/
def putChunks (key : Key) (noncePrefix : Bytes) (chunks : List Bytes) :
    Except Raised (Descriptor × Vault) := do
  let (bytes, byteCount) := spool chunks ([], 0)
  let digest := E.sha256Hex bytes
  path digest
  match v.blob? digest with
  | some _ => do
    let _ ← v.iterPlaintext E key digest
    pure (v.descriptor digest byteCount true, v)
  | none => do
    let blob ← encodeBlob E key noncePrefix bytes byteCount
    pure (v.descriptor digest byteCount false, v.store digest blob)

/-- `put_bytes`. -/
def putBytes (key : Key) (noncePrefix value : Bytes) : Except Raised (Descriptor × Vault) :=
  v.putChunks E key noncePrefix [value]

end Vault

end Atmem.Artifacts
