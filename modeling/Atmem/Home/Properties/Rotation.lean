import Atmem.Home.Helpers.Swapping
import Atmem.Home.Properties.RoundTrips
/-!
# A rotation keeps every artifact, up to the removals

Until something is removed, everything can be put back; the handler unlinks a
blob before it looks for what was set aside of it.
-/

namespace Atmem.Artifacts

open Checked

variable {Key : Type} {E : Engine Key} {key newKey : Key} {prefixes : ℕ → Bytes}
variable {raises : Site → Bool} {v : Vault}

/-! ## Staging -/

namespace Vault

variable {digests : List String} {replacement replaced : Vault} {i : ℕ}

/-- An artifact that is read, and is not too long to be written. -/
def Stageable (E : Engine Key) (v : Vault) (key : Key) (name : String) : Prop :=
  ∃ bytes, v.read E key name = .ok bytes ∧ bytes.length ≤ 2 ^ 52

/-- The headers that a rotation writes are read back. -/
def ReadsHeaders (E : Engine Key) (v : Vault) (key : Key) (prefixes : ℕ → Bytes) : Prop :=
  ∀ i name bytes, v.read E key name = .ok bytes →
    (prefixes i).length = 8 ∧ E.Reads (header name bytes.length (prefixes i))

/-- What is read has the digest it is named by. -/
theorem read_ok {name : String} {bytes : Bytes} (h : v.read E key name = .ok bytes) :
    ∃ pieces, v.iterPlaintext E key name = .ok pieces ∧ pieces.flatten = bytes ∧
      E.sha256Hex bytes = name := by
  obtain ⟨pieces, hpieces, h⟩ := bind_eq_ok_iff.mp h
  cases h
  obtain ⟨file, -, hdecode⟩ := iterPlaintext_ok hpieces
  exact ⟨pieces, hpieces, rfl, (decodeBlob_ok hdecode).1⟩

theorem isSome_of_read {name : String} {bytes : Bytes} (h : v.read E key name = .ok bytes) :
    (v.blob? name).isSome := by
  obtain ⟨pieces, hpieces, -⟩ := read_ok h
  obtain ⟨file, hfile, -⟩ := iterPlaintext_ok hpieces
  rw [hfile]
  rfl

/-- What is read under a digest is in the blob of it. -/
theorem read_congr {v v' : Vault} {name : String} (h : v'.blob? name = v.blob? name) :
    v'.read E key name = v.read E key name := by
  rw [read, read, iterPlaintext, iterPlaintext, h]

/-- New bytes are put, and read. -/
theorem putBytes_new (v : Vault) (key : Key) {noncePrefix bytes : Bytes} (hE : E.Sound)
    (hnonce : noncePrefix.length = 8)
    (hreads : E.Reads (header (E.sha256Hex bytes) bytes.length noncePrefix))
    (hfits : bytes.length ≤ 2 ^ 52) (hnone : v.blob? (E.sha256Hex bytes) = none) :
    ∃ d blob, v.putBytes E key noncePrefix bytes = .ok (d, v.store (E.sha256Hex bytes) blob) ∧
      (v.store (E.sha256Hex bytes) blob).read E key (E.sha256Hex bytes) = .ok bytes := by
  have hflat : [bytes].flatten = bytes := List.flatten_singleton
  obtain ⟨d, v', hput⟩ := putChunks_isOk key [bytes] hE hnonce
    (hflat.symm ▸ hfits) (hflat.symm ▸ hnone)
  obtain ⟨pieces, hpieces, -, hsame⟩ :=
    iterPlaintext_of_putChunks hE hnonce (hflat.symm ▸ hreads) hput
  obtain ⟨-, -, ⟨-, pieces', hpieces'⟩ | ⟨-, blob, -, rfl⟩⟩ := putChunks_ok hput
  · obtain ⟨file, hfile, -⟩ := iterPlaintext_ok hpieces'
    rw [hflat, hnone] at hfile
    cases hfile
  rw [hflat] at hput hpieces hsame
  refine ⟨d, blob, hput, ?_⟩
  rw [read, hpieces, ← hsame hnone]
  rfl

/-- **The loop of the staging**: what it stages is read under the new key as
it is under the old one. -/
theorem stageAll_ok (hE : E.Sound) (hreads : v.ReadsHeaders E key prefixes)
    (hnodup : digests.Nodup) (hfresh : ∀ name ∈ digests, replacement.blob? name = none)
    (h : v.stageAll E key newKey prefixes raises i digests replacement = .ok replaced) :
    (∀ j, i ≤ j → j < i + digests.length → raises (.stage j) = false) ∧
      (∀ name ∈ digests, ∃ bytes, v.read E key name = .ok bytes ∧ bytes.length ≤ 2 ^ 52 ∧
        replaced.read E newKey name = .ok bytes) ∧
      ∀ name ∉ digests, replaced.blob? name = replacement.blob? name := by
  induction digests generalizing i replacement with
  | nil =>
    cases h
    exact ⟨fun j hi hj => absurd hj (by simp [hi]), fun name hname => absurd hname List.not_mem_nil,
      fun name _ => rfl⟩
  | cons digest digests ih =>
    obtain ⟨hnew, hnodup⟩ := List.nodup_cons.mp hnodup
    rw [stageAll] at h
    split at h
    · cases h
    next hquiet =>
    obtain ⟨pieces, hpieces, h⟩ := bind_eq_ok_iff.mp h
    obtain ⟨⟨d, replacement₁⟩, hput, h⟩ := bind_eq_ok_iff.mp h
    have hread : v.read E key digest = .ok pieces.flatten := by
      rw [read, hpieces]
      rfl
    obtain ⟨hnonce, hheader⟩ := hreads i digest pieces.flatten hread
    obtain ⟨-, -, -, hdigest⟩ := read_ok hread
    rw [← hdigest] at hheader
    have hnone := hfresh digest List.mem_cons_self
    rw [← hdigest] at hnone
    -- nothing of this name is staged yet, so the blob is written
    obtain ⟨-, -, ⟨-, pieces', hpieces'⟩ | ⟨-, blob, hwrite, hstored⟩⟩ := putChunks_ok hput
    · obtain ⟨file, hfile, -⟩ := iterPlaintext_ok hpieces'
      rw [hnone] at hfile
      cases hfile
    obtain ⟨pieces₁, hpieces₁, -, hflat⟩ := iterPlaintext_of_putChunks hE hnonce hheader hput
    have hother : ∀ name ≠ digest, replacement₁.blob? name = replacement.blob? name := by
      intro name hne
      rw [hstored]
      exact blob?_store_ne _ (hdigest.symm ▸ hne)
    obtain ⟨hquiets, hstaged, hrest⟩ := ih hnodup (fun name hname => by
      rw [hother name (fun heq => hnew (heq ▸ hname))]
      exact hfresh name (List.mem_cons_of_mem _ hname)) h
    refine ⟨fun j hi hj => ?_, fun name hname => ?_, fun name hname => ?_⟩
    · rw [List.length_cons] at hj
      rcases Nat.eq_or_lt_of_le hi with rfl | hlt
      · exact Bool.eq_false_iff.mpr hquiet
      · exact hquiets j hlt (by omega)
    · rcases List.mem_cons.mp hname with rfl | hname
      · refine ⟨pieces.flatten, hread, length_le_of_encodeBlob hwrite, ?_⟩
        rw [read_congr (hrest name hnew), read, ← hdigest, hpieces₁, ← hflat hnone]
        rfl
      · exact hstaged name hname
    · obtain ⟨hne, hname⟩ := not_or.mp (mt List.mem_cons.mpr hname)
      rw [hrest name hname, hother name hne]

/-- What can be staged is staged, unless something fails. -/
theorem stageAll_isOk (newKey : Key) (hE : E.Sound) (hreads : v.ReadsHeaders E key prefixes)
    (hnodup : digests.Nodup) (hfresh : ∀ name ∈ digests, replacement.blob? name = none)
    (hstageable : ∀ name ∈ digests, Stageable E v key name)
    (hquiet : ∀ j, i ≤ j → j < i + digests.length → raises (.stage j) = false) :
    ∃ replaced, v.stageAll E key newKey prefixes raises i digests replacement = .ok replaced := by
  induction digests generalizing i replacement with
  | nil => exact ⟨replacement, rfl⟩
  | cons digest digests ih =>
    obtain ⟨hnew, hnodup⟩ := List.nodup_cons.mp hnodup
    obtain ⟨bytes, hread, hfits⟩ := hstageable digest List.mem_cons_self
    obtain ⟨pieces, hpieces, rfl, hdigest⟩ := read_ok hread
    have hnone := hfresh digest List.mem_cons_self
    rw [← hdigest] at hnone
    obtain ⟨d, replacement₁, hput⟩ := putChunks_isOk newKey _ hE
      (hreads i digest pieces.flatten hread).1 hfits hnone
    have hfresh₁ : ∀ name ∈ digests, replacement₁.blob? name = none := by
      intro name hname
      have hne : name ≠ E.sha256Hex pieces.flatten := fun heq => hnew (hdigest ▸ heq ▸ hname)
      have hold := hfresh name (List.mem_cons_of_mem _ hname)
      obtain ⟨-, -, ⟨rfl, -⟩ | ⟨-, blob, -, rfl⟩⟩ := putChunks_ok hput
      · exact hold
      · rw [blob?_store_ne _ hne, hold]
    obtain ⟨replaced, hreplaced⟩ := ih (i := i + 1) hnodup hfresh₁
      (fun name hname => hstageable name (List.mem_cons_of_mem _ hname))
      (fun j hi hj => hquiet j (by omega) (by rw [List.length_cons]; omega))
    refine ⟨replaced, ?_⟩
    rw [stageAll, if_neg (by rw [hquiet i le_rfl (by simp)]; decide)]
    exact bind_of_eq_ok hpieces (bind_of_eq_ok hput hreplaced)

/-- The staging of every artifact, and the verification, go through. -/
structure Stages (E : Engine Key) (v : Vault) (key : Key) (raises : Site → Bool) : Prop where
  stageable : ∀ name ∈ Blobs.names v.blobs, Stageable E v key name
  quiet : ∀ j < (Blobs.names v.blobs).length, raises (.stage j) = false
  verified : raises .verify = false

/-- What was staged is read under the new key. -/
theorem stage_ok (hE : E.Sound) (hreads : v.ReadsHeaders E key prefixes)
    (h : v.stage E key newKey prefixes raises = .ok replaced) :
    v.Stages E key raises ∧ ∀ name ∈ Blobs.names v.blobs, ∃ bytes,
      v.read E key name = .ok bytes ∧ replaced.read E newKey name = .ok bytes := by
  rw [stage] at h
  obtain ⟨replacement, hstaged, h⟩ := bind_eq_ok_iff.mp h
  obtain ⟨hquiet, hread, -⟩ := stageAll_ok hE hreads (Blobs.nodup_names _) (fun name _ => rfl) hstaged
  dsimp only at h
  split at h
  · cases h
  next hverify =>
  split at h
  · cases h
  cases h
  refine ⟨⟨fun name hname => ?_, fun j hj => hquiet j (Nat.zero_le j) (by omega),
    Bool.eq_false_iff.mpr hverify⟩, fun name hname => ?_⟩
  · obtain ⟨bytes, hbytes, hfits, -⟩ := hread name hname
    exact ⟨bytes, hbytes, hfits⟩
  · obtain ⟨bytes, hbytes, -, hbytes'⟩ := hread name hname
    exact ⟨bytes, hbytes, hbytes'⟩

/-- The staged generation verifies. -/
theorem stage_isOk (newKey : Key) (hE : E.Sound) (hreads : v.ReadsHeaders E key prefixes)
    (h : v.Stages E key raises) :
    ∃ replaced, v.stage E key newKey prefixes raises = .ok replaced := by
  have hfresh : ∀ name ∈ Blobs.names v.blobs, blob? {} name = none := fun name _ => rfl
  obtain ⟨replacement, hstaged⟩ := stageAll_isOk newKey (i := 0) hE hreads
    (Blobs.nodup_names _) hfresh h.stageable (fun j _ hj => h.quiet j (by omega))
  obtain ⟨-, hread, hothers⟩ :=
    stageAll_ok hE hreads (Blobs.nodup_names _) (fun name _ => rfl) hstaged
  have hverifies : replacement.verifyAll E newKey = true := by
    refine List.all_eq_true.mpr fun name hname => ?_
    have hthere := Blobs.mem_names.mp hname
    by_cases hmem : name ∈ Blobs.names v.blobs
    · obtain ⟨bytes, -, -, hbytes⟩ := hread name hmem
      obtain ⟨pieces, hpieces, -⟩ := read_ok hbytes
      rw [hpieces]
      rfl
    · have hnone : replacement.blobs.lookup name = none := hothers name hmem
      rw [hnone] at hthere
      cases hthere
  refine ⟨replacement, bind_of_eq_ok hstaged ?_⟩
  dsimp only
  rw [h.verified, hverifies]
  rfl

end Vault

/-! ## The rotation -/

/-- **All or nothing**: every artifact is read under the new key as it was
under the old one, or under the old key as before; and no blob is gone. -/
def Kept (E : Engine Key) (v : Vault) (key newKey : Key) (rotated : Vault.Rotated Key) : Prop :=
  (∀ name, (v.blob? name).isSome → (rotated.vault.blob? name).isSome) ∧
    match rotated.answer with
    | .ok _ => rotated.key = newKey ∧ ∀ name, (v.blob? name).isSome → ∃ bytes,
        v.read E key name = .ok bytes ∧ rotated.vault.read E newKey name = .ok bytes
    | .error _ => rotated.key = key ∧ ∀ name bytes, v.read E key name = .ok bytes →
        rotated.vault.read E key name = .ok bytes

/-- A rotation that fails at one of its removals, and not at the first. -/
structure FailsLate (E : Engine Key) (v : Vault) (key : Key) (raises : Site → Bool) : Prop where
  stages : v.Stages E key raises
  renames : Disk.Renames raises 0 (Blobs.names v.blobs).length
  fails : ∃ k, 0 < k ∧ k < (Blobs.names v.blobs).length ∧ Disk.FailsAt raises 0 k

/-- Where every blob is there again, nothing has happened. -/
theorem kept_of_undone {vault : Vault} {e : Raised}
    (h : ∀ name, vault.blob? name = v.blob? name) : Kept E v key newKey ⟨.error e, vault, key⟩ := by
  refine ⟨fun name hname => ?_, rfl, fun name bytes hread => ?_⟩
  · rw [h name]
    exact hname
  · rw [Vault.read_congr (h name)]
    exact hread

/-- Where every blob is what was staged of it, it is read under the new
key. -/
theorem kept_of_brought {replaced vault : Vault} {n : ℕ}
    (hread : ∀ name ∈ Blobs.names v.blobs, ∃ bytes, v.read E key name = .ok bytes ∧
      replaced.read E newKey name = .ok bytes)
    (h : ∀ name, (v.blob? name).isSome → vault.blob? name = replaced.blob? name) :
    Kept E v key newKey ⟨.ok n, vault, newKey⟩ := by
  have hreads : ∀ name, (v.blob? name).isSome → ∃ bytes, v.read E key name = .ok bytes ∧
      vault.read E newKey name = .ok bytes := by
    intro name hname
    rw [Vault.read_congr (h name hname)]
    exact hread name (Blobs.mem_names.mpr hname)
  refine ⟨fun name hname => ?_, rfl, hreads⟩
  obtain ⟨bytes, -, hbytes⟩ := hreads name hname
  exact Vault.isSome_of_read hbytes

/-- What a rotation can end with, where `k` blobs are gone. -/
structure LeftWithout (v : Vault) (k : ℕ) (rotated : Vault.Rotated Key) : Prop where
  failed : ∃ e, rotated.answer = .error e
  left : ∀ name, rotated.vault.blob? name =
    if name ∈ (Blobs.names v.blobs).take k then none else v.blob? name

/-- **How a rotation ends**: it keeps every artifact, or it fails late and
leaves the vault without the blobs whose copies it has removed. -/
theorem rotateKey_ends (newKey : Key) (raises : Site → Bool) (hE : E.Sound)
    (hreads : v.ReadsHeaders E key prefixes) (backups : Blobs) :
    (Kept E v key newKey (v.rotateKey E key newKey prefixes raises backups) ∧
        ¬ FailsLate E v key raises) ∨
      (FailsLate E v key raises ∧ ∃ k, 0 < k ∧ k < (Blobs.names v.blobs).length ∧
        LeftWithout v k (v.rotateKey E key newKey prefixes raises backups)) := by
  rw [Vault.rotateKey]
  split
  · next hnone =>
    -- nothing to rotate
    have hempty : ∀ name, ¬ (v.blob? name).isSome := by
      intro name hname
      have hmem : name ∈ Blobs.names v.blobs := Blobs.mem_names.mpr hname
      rw [hnone] at hmem
      exact List.not_mem_nil hmem
    refine .inl ⟨⟨fun name hname => hname, rfl, fun name hname => absurd hname (hempty name)⟩, ?_⟩
    rintro ⟨-, -, k, -, hk, -⟩
    rw [hnone] at hk
    exact Nat.not_lt_zero k hk
  cases hstage : v.stage E key newKey prefixes raises with
  | error e =>
    -- the staging failed: nothing was moved
    refine .inl ⟨kept_of_undone fun name => rfl, ?_⟩
    rintro ⟨hstages, -⟩
    obtain ⟨replaced, hok⟩ := Vault.stage_isOk newKey hE hreads hstages
    rw [hok] at hstage
    cases hstage
  | ok replaced =>
    obtain ⟨hstages, hread⟩ := Vault.stage_ok hE hreads hstage
    have hstaged : ∀ name ∈ Blobs.names v.blobs, (replaced.blobs.lookup name).isSome := by
      intro name hname
      obtain ⟨bytes, -, hbytes⟩ := hread name hname
      exact Vault.isSome_of_read hbytes
    obtain ⟨hswapping, hend⟩ := (Disk.Swapping.start v.blobs replaced.blobs backups).swapAll
      raises 0 (fun name hname => absurd hname List.not_mem_nil)
      (Blobs.nodup_names v.blobs) (fun name _ => List.not_mem_nil)
      (fun name hname => Blobs.mem_names.mp hname) hstaged
    dsimp only
    rw [Vault.swap]
    generalize Disk.swapAll raises 0 (Blobs.names v.blobs)
      { blobs := v.blobs, backups, staged := replaced.blobs } = swapped at hswapping hend ⊢
    obtain ⟨answer, d⟩ := swapped
    rcases hend with ⟨rfl, hrenames, hbrought, hmoved⟩ | ⟨⟨e, rfl⟩, hnot⟩
    · -- every blob was brought in, and the copies are removed
      dsimp only at hmoved hbrought
      rw [List.nil_append] at hmoved
      dsimp only
      cases hremove : Disk.removeAll raises 0 d.moved d with
      | mk answer d' =>
        cases answer with
        | ok u =>
          have hquiet := Disk.removeAll_ok (congrArg Prod.fst hremove)
          have hblobs := (Disk.removeAll_blobs raises 0 d.moved d).1
          rw [hremove] at hblobs
          refine .inl ⟨kept_of_brought hread fun name hname => ?_, ?_⟩
          · rw [Vault.blob?, hblobs]
            exact hbrought name (hmoved ▸ Blobs.mem_names.mpr hname)
          · rintro ⟨-, -, k, -, hk, -, hraise⟩
            rw [hquiet k (Nat.zero_le k) (by rw [hmoved]; omega)] at hraise
            cases hraise
        | error e =>
          obtain ⟨k, hk, hfails, hleft⟩ := hswapping.lookup_restoreAll_removed hremove
          rw [hmoved] at hk hleft
          -- the handler restores what still has its copy: all, if the first removal failed
          rcases Nat.eq_zero_or_pos k with rfl | hpos
          · refine .inl ⟨kept_of_undone fun name => ?_, ?_⟩
            · rw [Vault.blob?, hleft, List.take_zero, if_neg List.not_mem_nil]
              rfl
            · rintro ⟨-, -, k', hpos', -, hquiet, -⟩
              have hraise := hfails.2
              rw [hquiet 0 le_rfl hpos'] at hraise
              cases hraise
          · exact .inr ⟨⟨hstages, hrenames, k, hpos, hk, hfails⟩, k, hpos, hk, ⟨e, rfl⟩, hleft⟩
    · -- a rename failed, and the handler undoes those before it
      exact .inl ⟨kept_of_undone hswapping.lookup_restoreAll, fun hlate => hnot hlate.renames⟩

/-- What is gone is not kept. -/
theorem LeftWithout.not_kept {k : ℕ} {rotated : Vault.Rotated Key} (h : LeftWithout v k rotated)
    (hpos : 0 < k) (hk : k < (Blobs.names v.blobs).length) : ¬ Kept E v key newKey rotated := by
  intro hkept
  obtain ⟨first, hfirst⟩ := List.exists_mem_of_length_pos
    (show 0 < ((Blobs.names v.blobs).take k).length by rw [List.length_take]; omega)
  have hgone := hkept.1 first (Blobs.mem_names.mp (List.mem_of_mem_take hfirst))
  rw [h.left, if_pos hfirst] at hgone
  cases hgone

/-- **A rotation is all or nothing unless it fails late**, at a removal when
something is removed already. -/
theorem rotateKey_kept_iff (hE : E.Sound) (v : Vault) (key newKey : Key) (prefixes : ℕ → Bytes)
    (hreads : v.ReadsHeaders E key prefixes) (raises : Site → Bool) (backups : Blobs) :
    Kept E v key newKey (v.rotateKey E key newKey prefixes raises backups) ↔
      ¬ FailsLate E v key raises := by
  rcases rotateKey_ends newKey raises hE hreads backups with
    ⟨hkept, hnot⟩ | ⟨hlate, k, hpos, hk, hleft⟩
  · exact iff_of_true hkept hnot
  · exact iff_of_false (hleft.not_kept hpos hk) (not_not.mpr hlate)

/-! ## Two artifacts -/

/-- An engine for the two artifacts of the example. -/
def twoEngine : Engine UInt8 :=
  exampleEngine [(lengthDigest [1], 1, examplePrefix), (lengthDigest [1, 2], 2, examplePrefix)]

/-- One byte and two are put in a vault. -/
def twoArtifacts : Vault :=
  match ({} : Vault).putBytes twoEngine 0 examplePrefix [1] with
  | .error _ => {}
  | .ok (_, v) =>
    match v.putBytes twoEngine 0 examplePrefix [1, 2] with
    | .error _ => {}
    | .ok (_, v) => v

theorem reads_twoEngine : twoEngine.Reads (header (lengthDigest [1]) 1 examplePrefix) ∧
    twoEngine.Reads (header (lengthDigest [1, 2]) 2 examplePrefix) :=
  ⟨reads_exampleEngine (h := (lengthDigest [1], 1, examplePrefix)) List.mem_cons_self,
    reads_exampleEngine (h := (lengthDigest [1, 2], 2, examplePrefix))
      (List.mem_cons_of_mem _ List.mem_cons_self)⟩

theorem lengthDigest_ne {a b : Bytes}
    (h : Nat.digitChar (a.length % 16) ≠ Nat.digitChar (b.length % 16)) :
    lengthDigest a ≠ lengthDigest b := by
  intro heq
  have hlists := congrArg String.toList heq
  rw [lengthDigest, lengthDigest, String.toList_ofList, String.toList_ofList] at hlists
  exact h (List.replicate_right_injective (n := 64) (by decide) hlists)

theorem lengthDigest_lt {a b : Bytes}
    (h : Nat.digitChar (a.length % 16) < Nat.digitChar (b.length % 16)) :
    lengthDigest a < lengthDigest b := by
  rw [String.lt_iff_toList_lt, lengthDigest, lengthDigest, String.toList_ofList,
    String.toList_ofList]
  exact List.Lex.rel h

theorem blobs_store_two {x y : String} (h : x ≠ y) (a b : Bytes) :
    ((Vault.store {} x a).store y b).blobs = [(x, a), (y, b)] := by
  simp [Vault.store, h]

theorem twoArtifacts_eq {d₁ d₂ : Descriptor} {v₁ v₂ : Vault}
    (h₁ : ({} : Vault).putBytes twoEngine 0 examplePrefix [1] = .ok (d₁, v₁))
    (h₂ : v₁.putBytes twoEngine 0 examplePrefix [1, 2] = .ok (d₂, v₂)) : twoArtifacts = v₂ := by
  unfold twoArtifacts
  split
  · rename_i h
    rw [h₁] at h
    cases h
  · rename_i h
    rw [h₁] at h
    cases h
    split
    · rename_i h
      rw [h₂] at h
      cases h
    · rename_i h
      rw [h₂] at h
      cases h
      rfl

/-- Both are there, and are read. -/
theorem twoArtifacts_read :
    (∃ a b, twoArtifacts.blobs = [(lengthDigest [1], a), (lengthDigest [1, 2], b)]) ∧
      twoArtifacts.read twoEngine 0 (lengthDigest [1]) = .ok [1] ∧
      twoArtifacts.read twoEngine 0 (lengthDigest [1, 2]) = .ok [1, 2] := by
  have hE : twoEngine.Sound := sound_exampleEngine _
  obtain ⟨d₁, a, hput₁, hread₁⟩ := Vault.putBytes_new {} (0 : UInt8) hE rfl
    reads_twoEngine.1 (by decide) rfl
  have hne : lengthDigest [1] ≠ lengthDigest [1, 2] := lengthDigest_ne (by decide)
  have hnone : (Vault.store {} (lengthDigest [1]) a).blob? (lengthDigest [1, 2]) = none := by
    rw [Vault.blob?_store_ne _ hne.symm]
    rfl
  obtain ⟨d₂, b, hput₂, hread₂⟩ := Vault.putBytes_new (Vault.store {} (lengthDigest [1]) a)
    (0 : UInt8) hE rfl reads_twoEngine.2 (by decide) hnone
  have hboth : twoArtifacts =
      (Vault.store {} (lengthDigest [1]) a).store (lengthDigest [1, 2]) b :=
    twoArtifacts_eq hput₁ hput₂
  refine ⟨⟨a, b, ?_⟩, ?_, ?_⟩
  · rw [hboth]
    exact blobs_store_two hne a b
  · rw [hboth, Vault.read_congr (Vault.blob?_store_ne _ hne)]
    exact hread₁
  · rw [hboth]
    exact hread₂

/-- The example has two artifacts. -/
theorem twoArtifacts_names :
    Blobs.names twoArtifacts.blobs = [lengthDigest [1], lengthDigest [1, 2]] := by
  obtain ⟨⟨a, b, hblobs⟩, -⟩ := twoArtifacts_read
  rw [hblobs]
  have hlt : lengthDigest [1] < lengthDigest [1, 2] := lengthDigest_lt (by decide)
  change ([lengthDigest [1], lengthDigest [1, 2]].eraseDups).insertionSort (· ≤ ·) = _
  simp [List.eraseDups_cons, List.insertionSort, hlt.ne', hlt.le]

/-- Their headers are read. -/
theorem twoArtifacts_headers : twoArtifacts.ReadsHeaders twoEngine 0 fun _ => examplePrefix := by
  intro _ name bytes hread
  obtain ⟨-, hread₁, hread₂⟩ := twoArtifacts_read
  refine ⟨rfl, ?_⟩
  have hsome := Vault.isSome_of_read hread
  rw [Vault.blob?] at hsome
  have hname := Blobs.mem_names.mpr hsome
  rw [twoArtifacts_names] at hname
  rcases List.mem_cons.mp hname with rfl | hname
  · rw [hread₁] at hread
    cases hread
    exact reads_twoEngine.1
  · cases List.mem_singleton.mp hname
    rw [hread₂] at hread
    cases hread
    exact reads_twoEngine.2

/-- The second removal fails. -/
def secondRemoval (site : Site) : Bool := site = .removeBackup 1

/-- Its second removal fails late. -/
theorem twoArtifacts_failsLate : FailsLate twoEngine twoArtifacts 0 secondRemoval := by
  obtain ⟨-, hread₁, hread₂⟩ := twoArtifacts_read
  refine ⟨⟨fun name hname => ?_, fun j _ => rfl, rfl⟩, fun j _ _ => ⟨rfl, rfl⟩, 1, by decide, ?_,
    fun j _ hj => ?_, by decide⟩
  · rw [twoArtifacts_names] at hname
    rcases List.mem_cons.mp hname with rfl | hname
    · exact ⟨[1], hread₁, by decide⟩
    · cases List.mem_singleton.mp hname
      exact ⟨[1, 2], hread₂, by decide⟩
  · rw [twoArtifacts_names]
    decide
  · cases Nat.lt_one_iff.mp hj
    decide

/-- **A rotation that fails at the second removal loses an artifact** that was
read before. -/
theorem artifact_lost_in_rotation :
    ¬ ∀ (v : Vault) (raises : Site → Bool), v.ReadsHeaders twoEngine 0 (fun _ => examplePrefix) →
      Kept twoEngine v 0 1 (v.rotateKey twoEngine 0 1 (fun _ => examplePrefix) raises []) := by
  intro hall
  rcases rotateKey_ends 1 secondRemoval (sound_exampleEngine _) twoArtifacts_headers [] with
    ⟨-, hnot⟩ | ⟨-, k, hpos, hk, hleft⟩
  · exact hnot twoArtifacts_failsLate
  · exact hleft.not_kept hpos hk (hall twoArtifacts secondRemoval twoArtifacts_headers)

/-- Without a failure, both are read under the new key. -/
theorem two_artifacts_kept : Kept twoEngine twoArtifacts 0 1
    (twoArtifacts.rotateKey twoEngine 0 1 (fun _ => examplePrefix) (fun _ => false) []) := by
  refine (rotateKey_kept_iff (sound_exampleEngine _) twoArtifacts 0 1 (fun _ => examplePrefix)
    twoArtifacts_headers (fun _ => false) []).mpr ?_
  rintro ⟨-, -, k, -, -, -, hraise⟩
  cases hraise

end Atmem.Artifacts
