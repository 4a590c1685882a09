import Atmem.Common.Grouping
import Atmem.Home.Model.Artifacts
import Mathlib.Data.List.Sort
/-!
# Rotating the key of the artifact vault

Every artifact is encrypted anew in a directory beside the vault; then each
blob is set aside and its replacement brought in, and the blobs set aside are
removed. What is raised on the way is caught, and undone.
-/

namespace Atmem.Artifacts

variable {Key : Type} (E : Engine Key)

/-- Where a rotation can be cut short: at the staging of an artifact, at the
verification, at each of the two renames of a blob and at the removal of what
was set aside. -/
inductive Site
  | stage (i : ℕ)
  | verify
  | setAside (i : ℕ)
  | bringIn (i : ℕ)
  | removeBackup (i : ℕ)
deriving DecidableEq

/-- The directory of the vault while it is rotated; `moved` is the list of
`backups`. -/
structure Disk where
  blobs : Blobs
  backups : Blobs := []
  staged : Blobs := []
  moved : List String := []
deriving DecidableEq

namespace Blobs

/-- `unlink(missing_ok=True)`. -/
def unlink (files : Blobs) (name : String) : Blobs := files.filter fun f => f.1 ≠ name

/-- A file is put in the place of what is there. -/
def replace (files : Blobs) (name : String) (content : Bytes) : Blobs :=
  files.unlink name ++ [(name, content)]

/-- The names, in order. -/
def names (files : Blobs) : List String := (files.map (·.1)).eraseDups.insertionSort (· ≤ ·)

end Blobs

namespace Disk

variable (d : Disk)

/-- `os.replace(source, backup)`. -/
def setAside (digest : String) : Option Disk :=
  (d.blobs.lookup digest).map fun content =>
    { d with
      blobs := Blobs.unlink d.blobs digest
      backups := Blobs.replace d.backups digest content
      moved := d.moved ++ [digest] }

/-- `os.replace(staged, source)`. -/
def bringIn (digest : String) : Option Disk :=
  (d.staged.lookup digest).map fun content =>
    { d with
      blobs := Blobs.replace d.blobs digest content
      staged := Blobs.unlink d.staged digest }

/-- The handler, of one blob: `source.unlink`, and what was set aside comes
back where it is still there. -/
def restore (digest : String) : Disk :=
  match d.backups.lookup digest with
  | none => { d with blobs := Blobs.unlink d.blobs digest }
  | some content =>
    { d with
      blobs := Blobs.replace d.blobs digest content
      backups := Blobs.unlink d.backups digest }

/-- The handler. -/
def restoreAll : List String → Disk → Disk
  | [], d => d
  | digest :: digests, d => restoreAll digests (d.restore digest)

/-- The loop of the renames, from an index on: how it ends. -/
def swapAll (raises : Site → Bool) : ℕ → List String → Disk → Except Raised Unit × Disk
  | _, [], d => (.ok (), d)
  | i, digest :: digests, d =>
    if raises (.setAside i) then (.error .osError, d)
    else
      match d.setAside digest with
      | none => (.error .fileNotFoundError, d)
      | some d =>
        if raises (.bringIn i) then (.error .osError, d)
        else
          match d.bringIn digest with
          | none => (.error .fileNotFoundError, d)
          | some d => swapAll raises (i + 1) digests d

/-- The loop of the removals, from an index on. -/
def removeAll (raises : Site → Bool) : ℕ → List String → Disk → Except Raised Unit × Disk
  | _, [], d => (.ok (), d)
  | i, digest :: digests, d =>
    if raises (.removeBackup i) then (.error .osError, d)
    else removeAll raises (i + 1) digests { d with backups := Blobs.unlink d.backups digest }

end Disk

namespace Vault

variable (v : Vault)

/-- The loop of the staging, from an index on, with the nonce prefixes that are
drawn. -/
def stageAll (key newKey : Key) (prefixes : ℕ → Bytes) (raises : Site → Bool) :
    ℕ → List String → Vault → Except Raised Vault
  | _, [], replacement => .ok replacement
  | i, digest :: digests, replacement => do
    if raises (.stage i) then throw .osError
    let pieces ← v.iterPlaintext E key digest
    let (_, replacement) ← replacement.putChunks E newKey (prefixes i) pieces
    stageAll key newKey prefixes raises (i + 1) digests replacement

/-- `verify_all`: every artifact is read without an error. -/
def verifyAll (key : Key) : Bool :=
  (Blobs.names v.blobs).all fun digest => (v.iterPlaintext E key digest).isOk

/-- The staged generation, verified. -/
def stage (key newKey : Key) (prefixes : ℕ → Bytes) (raises : Site → Bool) :
    Except Raised Vault := do
  let replacement ← v.stageAll E key newKey prefixes raises 0 (Blobs.names v.blobs) {}
  if raises .verify then throw .osError
  if !replacement.verifyAll E newKey then
    throw (.valueError "rotated artifact generation did not verify")
  pure replacement

/-- The renames and the removals. -/
def swap (raises : Site → Bool) (digests : List String) (d : Disk) : Except Raised Unit × Disk :=
  match Disk.swapAll raises 0 digests d with
  | (.error e, d) => (.error e, d)
  | (.ok _, d) => Disk.removeAll raises 0 d.moved d

/-- What a rotation ends with: its answer, the vault, and the key the vault
holds. -/
structure Rotated (Key : Type) where
  answer : Except Raised ℕ
  vault : Vault
  key : Key

/-- `rotate_key`, of a vault that holds a key, beside which the blobs of an
earlier rotation may be set aside. -/
def rotateKey (key newKey : Key) (prefixes : ℕ → Bytes) (raises : Site → Bool)
    (backups : Blobs) : Rotated Key :=
  let sources := Blobs.names v.blobs
  if sources = [] then ⟨.ok 0, v, newKey⟩
  else
    match v.stage E key newKey prefixes raises with
    | .error e => ⟨.error e, v, key⟩
    | .ok replacement =>
      match swap raises sources { blobs := v.blobs, backups, staged := replacement.blobs } with
      | (.ok _, d) => ⟨.ok sources.length, { v with blobs := d.blobs }, newKey⟩
      | (.error e, d) =>
        ⟨.error e, { v with blobs := (Disk.restoreAll d.moved.reverse d).blobs }, key⟩

end Vault

end Atmem.Artifacts
