import Atmem.Common.Checked
import Atmem.Evidence.Model.Service
/-!
# A vault sealed under one key

What it is for every slot of a vault to be wrapped, and every object sealed,
under one key, and that appending, deleting and rotating keep it so.
-/

namespace Atmem.Evidence

open Interleaving Relational

variable {Cipher : Type} {E : Engine Cipher} {v v' : Vault Cipher} {key key' : Key} {draw : ℕ}

/-! ## Keys -/

/-- A data key that was wrapped is unwrapped. -/
theorem unwrapDataKey_wrapDataKey (hE : E.Authenticated) (key : Key) (slotId : String)
    (nonce : ByteArray) (dataKey : Key) :
    unwrapDataKey E key slotId nonce (wrapDataKey E key slotId nonce dataKey) = .ok dataKey := by
  unfold unwrapDataKey wrapDataKey
  rw [hE.decrypt_encrypt]

/-- What unwraps under a key was wrapped under it. -/
theorem unwrapDataKey_eq_ok (hE : E.Authenticated) {slotId : String} {nonce : ByteArray}
    {d d' : Key}
    (h : unwrapDataKey E key' slotId nonce (wrapDataKey E key slotId nonce d) = .ok d') :
    key' = key ∧ d' = d := by
  by_cases hkey : key = key'
  · subst hkey
    rw [unwrapDataKey_wrapDataKey hE] at h
    cases h
    exact ⟨rfl, rfl⟩
  · unfold unwrapDataKey wrapDataKey at h
    rw [hE.decrypt_ne _ _ _ _ _ _ _ hkey] at h
    cases h

/-- What was sealed is opened. -/
theorem openJson_sealJson (hE : E.Authenticated) (objectId : String) (nonce : ByteArray)
    (kvs : List (String × Json)) :
    openJson E key objectId nonce (sealJson E key objectId nonce kvs) = .ok (.obj kvs) := by
  unfold openJson sealJson
  rw [hE.decrypt_encrypt]

/-- It is opened by the key it was sealed with, and by no other. -/
theorem openJson_eq_ok (hE : E.Authenticated) {objectId : String} {nonce : ByteArray}
    {kvs : List (String × Json)} {j : Json}
    (h : openJson E key' objectId nonce (sealJson E key objectId nonce kvs) = .ok j) :
    key' = key ∧ j = .obj kvs := by
  by_cases hkey : key = key'
  · subst hkey
    rw [openJson_sealJson hE] at h
    cases h
    exact ⟨rfl, rfl⟩
  · unfold openJson sealJson at h
    rw [hE.decrypt_ne _ _ _ _ _ _ _ hkey] at h
    cases h

/-! ## One key -/

/-- The slot wraps a data key under a key. -/
def SlotRow.Wraps (E : Engine Cipher) (key : Key) (s : SlotRow Cipher) (dataKey : Key) : Prop :=
  s.wrappedKey = wrapDataKey E key s.slotId s.wrapNonce dataKey

/-- The object is sealed under a data key. -/
def ObjectRow.SealedBy (E : Engine Cipher) (o : ObjectRow Cipher) (dataKey : Key) : Prop :=
  ∃ kvs, o.ciphertext = sealJson E dataKey o.objectId o.nonce kvs

/-- A slot wraps one data key, under one key. -/
theorem SlotRow.Wraps.unique (hE : E.Authenticated) {s : SlotRow Cipher} {d d' : Key}
    (h : s.Wraps E key d) (h' : s.Wraps E key' d') : key' = key ∧ d' = d := by
  have hwrapped : s.wrappedKey = wrapDataKey E key s.slotId s.wrapNonce d := h
  have hwrapped' : s.wrappedKey = wrapDataKey E key' s.slotId s.wrapNonce d' := h'
  have hunwrap := unwrapDataKey_wrapDataKey hE key' s.slotId s.wrapNonce d'
  rw [← hwrapped', hwrapped] at hunwrap
  exact unwrapDataKey_eq_ok hE hunwrap

/-- **Every slot and every object is under one key**, and no slot is left
without an object. -/
structure SealedUnder (E : Engine Cipher) (key : Key) (v : Vault Cipher) : Prop where
  slots : ∀ s ∈ v.slots.rows, ∃ d, s.Wraps E key d
  legacy : ∀ o ∈ v.objects.rows, o.slotId = none → o.SealedBy E key
  objects : ∀ o ∈ v.objects.rows, ∀ id, o.slotId = some id →
    ∃ s ∈ v.slots.rows, s.slotId = id ∧ ∃ d, s.Wraps E key d ∧ o.SealedBy E d
  used : ∀ s ∈ v.slots.rows, ∃ o ∈ v.objects.rows, o.slotId = some s.slotId

/-- Rows of a table are rows of one identifier. -/
theorem slot_eq_of_slotId {t : Table (SlotRow Cipher) SlotRow.key slotClash} {a b : SlotRow Cipher}
    (ha : a ∈ t.rows) (hb : b ∈ t.rows) (h : a.slotId = b.slotId) : a = b := by
  have hclash : ∀ a b : SlotRow Cipher, a.slotId = b.slotId → slotClash a.key b.key = true :=
    fun a b h => by simp [slotClash, SlotRow.key, h]
  exact Table.eq_of_id_eq hclash ha hb h

/-- A slot of the table is found. -/
theorem slot?_eq_some {s : SlotRow Cipher} (hs : s ∈ v.slots.rows) : v.slot? s.slotId = some s := by
  have hclash : ∀ a b : SlotRow Cipher, a.slotId = b.slotId → slotClash a.key b.key = true :=
    fun a b h => by simp [slotClash, SlotRow.key, h]
  exact (Table.find?_id_eq_some hclash).mpr ⟨hs, rfl⟩

theorem mem_inSequence {o : ObjectRow Cipher} : o ∈ v.inSequence ↔ o ∈ v.objects.rows :=
  List.mem_insertionSort _

/-- **The key opens every object, and no other key opens any.** -/
theorem SealedUnder.openObject (hE : E.Authenticated) (hs : SealedUnder E key v)
    {o : ObjectRow Cipher} (ho : o ∈ v.objects.rows) :
    (∃ kvs, v.openObject E key o = .ok (.obj kvs)) ∧
      ∀ key' j, v.openObject E key' o = .ok j → key' = key := by
  unfold Vault.openObject Vault.objectKey
  rcases hslot : o.slotId with - | id
  · obtain ⟨kvs, hkvs⟩ := hs.legacy o ho hslot
    simp only [Checked.bind_eq_ok_iff, hkvs]
    refine ⟨⟨kvs, key, rfl, openJson_sealJson hE ..⟩, ?_⟩
    rintro key' j ⟨d, hd, hopen⟩
    cases hd
    exact (openJson_eq_ok hE hopen).1
  · obtain ⟨s, hmem, rfl, d, hwraps, kvs, hkvs⟩ := hs.objects o ho id hslot
    have hwrapped : s.wrappedKey = wrapDataKey E key s.slotId s.wrapNonce d := hwraps
    simp only [slot?_eq_some hmem, Checked.bind_eq_ok_iff, hkvs, hwrapped]
    refine ⟨⟨kvs, d, unwrapDataKey_wrapDataKey hE .., openJson_sealJson hE ..⟩, ?_⟩
    rintro key' j ⟨d', hd', -⟩
    exact (unwrapDataKey_eq_ok hE hd').1

/-- **The holder of the key reads every document.** -/
theorem SealedUnder.documents (hE : E.Authenticated) (hs : SealedUnder E key v) :
    ∀ r ∈ v.documents E key, ∃ kvs, r = .ok (.obj kvs) := by
  intro r hr
  obtain ⟨o, ho, rfl⟩ := List.mem_map.mp hr
  exact (hs.openObject hE (mem_inSequence.mp ho)).1

/-! ## Appending -/

/-- **The data key of a partition**: of a slot that is there, or of a new
one. -/
theorem SealedUnder.dataKey (hE : E.Authenticated) (hs : SealedUnder E key v) {partition : String}
    {slotId : String} {d : Key} (h : v.dataKey E key draw partition = .ok (slotId, d, v')) :
    v'.objects = v.objects ∧
      ∃ s ∈ v'.slots.rows, s.slotId = slotId ∧ s.Wraps E key d ∧
        (v'.slots.rows = v.slots.rows ∨ v'.slots.rows = v.slots.rows ++ [s]) := by
  unfold Vault.dataKey at h
  split at h
  · rename_i s hfind
    simp only [Checked.bind_eq_ok_iff] at h
    obtain ⟨d', hd', h⟩ := h
    cases h
    have hmem := List.mem_of_find?_eq_some hfind
    obtain ⟨d₀, hwraps⟩ := hs.slots s hmem
    have hwrapped : s.wrappedKey = wrapDataKey E key s.slotId s.wrapNonce d₀ := hwraps
    rw [hwrapped] at hd'
    obtain ⟨-, rfl⟩ := unwrapDataKey_eq_ok hE hd'
    exact ⟨rfl, s, hmem, rfl, hwraps, Or.inl rfl⟩
  · dsimp only at h
    split at h
    · rename_i slots hinsert
      cases h
      have hrows := (Table.insert_eq_some.mp hinsert).2
      refine ⟨rfl, Vault.newSlot E key draw partition, ?_, rfl, rfl, Or.inr hrows⟩
      show _ ∈ slots.rows
      rw [hrows]
      exact List.mem_append_right _ List.mem_cons_self
    · cases h

/-- **An append by the holder of the key keeps the vault under it.** -/
theorem SealedUnder.append (hE : E.Authenticated) (hs : SealedUnder E key v)
    {document : List (String × Json)} {partition : String} {r : Receipt}
    (h : v.append E key draw document partition = .ok (r, v')) : SealedUnder E key v' := by
  unfold Vault.append at h
  simp only [Checked.bind_eq_ok_iff] at h
  obtain ⟨⟨slotId, d, v₁⟩, hkey, h⟩ := h
  obtain ⟨hobjects, s, hmem, hid, hwraps, hslots⟩ := hs.dataKey hE hkey
  dsimp only at h
  split at h
  swap
  · cases h
  rename_i objects hinsert
  cases h
  have hrows := (Table.insert_eq_some.mp hinsert).2
  rw [hobjects] at hrows
  -- the partition's slot was there, or is new
  have hsub : ∀ t ∈ v.slots.rows, t ∈ v₁.slots.rows := by
    rcases hslots with hslots | hslots <;> rw [hslots]
    · exact fun t ht => ht
    · exact fun t ht => List.mem_append_left _ ht
  have hold : ∀ t ∈ v₁.slots.rows, t ∈ v.slots.rows ∨ t = s := by
    intro t ht
    rcases hslots with hslots | hslots <;> rw [hslots] at ht
    · exact Or.inl ht
    · exact (List.mem_append.mp ht).imp_right List.mem_singleton.mp
  refine ⟨fun t ht => ?_, fun o ho hslot => ?_, fun o ho id hslot => ?_, fun t ht => ?_⟩
  · rcases hold t ht with ht | rfl
    · exact hs.slots t ht
    · exact ⟨d, hwraps⟩
  · have ho' : o ∈ objects.rows := ho
    rw [hrows] at ho'
    rcases List.mem_append.mp ho' with ho' | ho'
    · exact hs.legacy o ho' hslot
    · rw [List.mem_singleton.mp ho'] at hslot
      cases hslot
  · have ho' : o ∈ objects.rows := ho
    rw [hrows] at ho'
    rcases List.mem_append.mp ho' with ho' | ho'
    · obtain ⟨t, ht, hrest⟩ := hs.objects o ho' id hslot
      exact ⟨t, hsub t ht, hrest⟩
    · obtain rfl := List.mem_singleton.mp ho'
      cases hslot
      exact ⟨s, hmem, hid, d, hwraps, _, rfl⟩
  · show ∃ o ∈ objects.rows, _
    rw [hrows]
    rcases hold t ht with ht | rfl
    · obtain ⟨o, ho, hslot⟩ := hs.used t ht
      exact ⟨o, List.mem_append_left _ ho, hslot⟩
    · exact ⟨_, List.mem_append_right _ List.mem_cons_self, by rw [hid]⟩

/-! ## Deleting -/

/-- **What is left after a deletion is under the same key**, and no slot is
left without an object. -/
theorem SealedUnder.discard (hs : SealedUnder E key v) (objectIds : List String) :
    SealedUnder E key (v.discard objectIds) := by
  have hobject : ∀ o ∈ (v.discard objectIds).objects.rows, o ∈ v.objects.rows :=
    fun o ho => (List.mem_filter.mp ho).1
  have hslot : ∀ s ∈ (v.discard objectIds).slots.rows, s ∈ v.slots.rows :=
    fun s hs => (List.mem_filter.mp hs).1
  refine ⟨fun s h => hs.slots s (hslot s h), fun o ho => hs.legacy o (hobject o ho),
    fun o ho id hid => ?_, fun s h => ?_⟩
  · obtain ⟨s, hmem, rfl, hrest⟩ := hs.objects o (hobject o ho) id hid
    refine ⟨s, List.mem_filter.mpr ⟨hmem, ?_⟩, rfl, hrest⟩
    simp only [Bool.not_eq_true', List.all_eq_false]
    exact ⟨o, ho, by simp [hid]⟩
  · have hunused := (List.mem_filter.mp h).2
    simp only [Bool.not_eq_true', List.all_eq_false] at hunused
    obtain ⟨o, ho, hne⟩ := hunused
    exact ⟨o, ho, by simpa using hne⟩

/-- A vault of no objects has no slots. -/
theorem SealedUnder.eq_nil (hs : SealedUnder E key v) (h : v.objects.rows = []) :
    v.slots.rows = [] := by
  rcases hslots : v.slots.rows with - | ⟨s, rest⟩
  · rfl
  · obtain ⟨o, ho, -⟩ := hs.used s (by rw [hslots]; exact List.mem_cons_self)
    rw [h] at ho
    cases ho

/-- An empty vault is sealed under every key. -/
theorem sealedUnder_of_nil (hobjects : v.objects.rows = []) (hslots : v.slots.rows = []) :
    SealedUnder E key v := by
  refine ⟨?_, ?_, ?_, ?_⟩
  · rw [hslots]
    exact fun _ h => absurd h List.not_mem_nil
  · rw [hobjects]
    exact fun _ h => absurd h List.not_mem_nil
  · rw [hobjects]
    exact fun _ h => absurd h List.not_mem_nil
  · rw [hslots]
    exact fun _ h => absurd h List.not_mem_nil

/-- Who reads through the whole vault, where there is anything to read, has
the key. -/
theorem SealedUnder.key_of_foldlM (hE : E.Authenticated) (hs : SealedUnder E key v) {β : Type}
    {f : β → Except Raised Json → Except Raised β} (hf : ∀ b e, ∃ e', f b (.error e) = .error e')
    {b b' : β} (h : (v.documents E key').foldlM f b = .ok b') :
    key' = key ∨ v.objects.rows = [] := by
  rcases hrows : v.inSequence with - | ⟨o, rest⟩
  · right
    refine List.eq_nil_iff_forall_not_mem.mpr fun o ho => ?_
    have hmem := mem_inSequence.mpr ho
    rw [hrows] at hmem
    cases hmem
  · left
    have ho : o ∈ v.objects.rows := mem_inSequence.mp (by rw [hrows]; exact List.mem_cons_self)
    unfold Vault.documents at h
    rw [hrows, List.map_cons, List.foldlM_cons] at h
    obtain ⟨b₁, hfirst, -⟩ := Checked.bind_eq_ok_iff.mp h
    rcases hopen : v.openObject E key' o with e | j
    · rw [hopen] at hfirst
      obtain ⟨e', he'⟩ := hf b e
      rw [he'] at hfirst
      cases hfirst
    · exact (hs.openObject hE ho).2 key' j hopen

/-- A vault is its rows. -/
theorem vault_ext (hobjects : v'.objects.rows = v.objects.rows)
    (hslots : v'.slots.rows = v.slots.rows) : v' = v := by
  obtain ⟨⟨_, _⟩, ⟨_, _⟩⟩ := v
  obtain ⟨⟨_, _⟩, ⟨_, _⟩⟩ := v'
  cases hobjects
  cases hslots
  rfl

/-- **A deletion keeps the vault under its key, and is the key holder's**,
where it deletes. -/
theorem SealedUnder.deleteRun (hE : E.Authenticated) (hs : SealedUnder E key v) {runId : String}
    {n : ℕ × ℕ} (h : v.deleteRun E key' draw runId = .ok (n, v')) :
    SealedUnder E key v' ∧ (key' = key ∨ v' = v) := by
  unfold Vault.deleteRun at h
  simp only [Checked.bind_eq_ok_iff] at h
  obtain ⟨doomed, hdoomed, v₁, hv₁, h⟩ := h
  cases h
  unfold Vault.doomed at hdoomed
  rcases hs.key_of_foldlM hE (fun _ e => ⟨e, rfl⟩) hdoomed with rfl | hempty
  · have hs₁ : SealedUnder E key' v₁ := by
      unfold Vault.appendTombstone at hv₁
      split at hv₁
      · simp only [Checked.bind_eq_ok_iff] at hv₁
        obtain ⟨⟨r, v₂⟩, happend, hv₁⟩ := hv₁
        cases hv₁
        exact hs.append hE happend
      · cases hv₁
        exact hs
    exact ⟨hs₁.discard _, Or.inl rfl⟩
  · -- nothing is read, and nothing goes
    have hnone : v.documents E key' = [] := by
      have hrows : v.inSequence = [] :=
        List.eq_nil_iff_forall_not_mem.mpr fun o ho => by
          rw [mem_inSequence, hempty] at ho
          cases ho
      unfold Vault.documents
      rw [hrows]
      rfl
    rw [hnone] at hdoomed
    cases hdoomed
    cases hv₁
    have hsame : v.discard [] = v := by
      refine vault_ext ?_ ?_
      · simp [Vault.discard, hempty]
      · simp [Vault.discard, hs.eq_nil hempty]
    show SealedUnder E key (v.discard []) ∧ _
    rw [hsame]
    exact ⟨hs, Or.inr rfl⟩

/-! ## Rotating -/

/-- A rotation commits on what it has read: no slot and no old object is
there that it has not. -/
structure CommitsOn (first : Option (Rewrap Cipher)) (slots : List (SlotRow Cipher))
    (legacy : List (ObjectRow Cipher)) (v : Vault Cipher) : Prop where
  slots : ∀ s ∈ v.slots.rows, s ∈ (first.map (·.slot)).toList ++ slots
  legacy : ∀ o ∈ v.objects.rows, o.slotId = none ∨ o.objectId ∈ legacy.map (·.objectId) →
    o ∈ legacy

/-- What a rotation has read: slots of distinct names, each a wrapping, and
objects of an old vault. -/
structure ReadSlots (E : Engine Cipher) (slots : List (SlotRow Cipher)) : Prop where
  nodup : (slots.map (·.slotId)).Nodup
  wraps : ∀ s ∈ slots, ∃ key d, s.Wraps E key d

theorem ReadSlots.of_cons {s : SlotRow Cipher} {slots : List (SlotRow Cipher)}
    (h : ReadSlots E (s :: slots)) : ReadSlots E slots :=
  ⟨(List.nodup_cons.mp h.nodup).2, fun t ht => h.wraps t (List.mem_cons_of_mem _ ht)⟩

/-- A slot that was unwrapped, and the data key it wraps under the key. -/
theorem rewrapOf_eq_ok (hE : E.Authenticated) {s : SlotRow Cipher}
    (hs : ∃ key d, s.Wraps E key d) {found : Option (Rewrap Cipher)}
    (h : v.rewrapOf E key s = .ok found) :
    (∃ d, s.Wraps E key d) ∧
      (∀ r, found = some r → r.slot = s ∧ s.Wraps E key r.dataKey) ∧
      (found = none → ∀ o ∈ v.objects.rows, o.slotId ≠ some s.slotId) := by
  unfold Vault.rewrapOf at h
  simp only [Checked.bind_eq_ok_iff] at h
  obtain ⟨d, hd, h⟩ := h
  obtain ⟨key₀, d₀, hwraps⟩ := hs
  have hwrapped : s.wrappedKey = wrapDataKey E key₀ s.slotId s.wrapNonce d₀ := hwraps
  rw [hwrapped] at hd
  obtain ⟨rfl, rfl⟩ := unwrapDataKey_eq_ok hE hd
  refine ⟨⟨d, hwraps⟩, fun r hr => ?_, fun hnone o ho hslot => ?_⟩
  · split at h
    · cases h
      cases hr
    · simp only [Checked.bind_eq_ok_iff] at h
      obtain ⟨document, -, partition, -, h⟩ := h
      cases h
      cases hr
      exact ⟨rfl, hwraps⟩
  · split at h
    · rename_i hfirst
      have hnot := List.find?_eq_none.mp hfirst o (mem_inSequence.mpr ho)
      simp [hslot] at hnot
    · simp only [Checked.bind_eq_ok_iff] at h
      obtain ⟨document, -, partition, -, h⟩ := h
      cases h
      cases hnone

/-- A vault some slots of which are wrapped anew, and the others are still to
come. -/
structure Rewrapping (E : Engine Cipher) (key newKey : Key) (v₀ : Vault Cipher)
    (pending : List (SlotRow Cipher)) (v : Vault Cipher) : Prop where
  objects : v.objects = v₀.objects
  slots : ∀ s ∈ v.slots.rows, ∃ s₀ ∈ v₀.slots.rows, s.slotId = s₀.slotId ∧
    ((s = s₀ ∧ s₀ ∈ pending) ∨ ∀ d, s₀.Wraps E key d → s.Wraps E newKey d)
  kept : ∀ s₀ ∈ v₀.slots.rows, ∃ s ∈ v.slots.rows, s.slotId = s₀.slotId

/-- A slot of no object is passed over. -/
theorem Rewrapping.skip {v₀ : Vault Cipher} {newKey : Key} {t : SlotRow Cipher}
    {pending : List (SlotRow Cipher)} (h : Rewrapping E key newKey v₀ (t :: pending) v)
    (hused : ∀ s ∈ v₀.slots.rows, ∃ o ∈ v₀.objects.rows, o.slotId = some s.slotId)
    (hnone : ∀ o ∈ v.objects.rows, o.slotId ≠ some t.slotId) :
    Rewrapping E key newKey v₀ pending v := by
  refine ⟨h.objects, fun s hs => ?_, h.kept⟩
  obtain ⟨s₀, hs₀, hid, hwhich⟩ := h.slots s hs
  refine ⟨s₀, hs₀, hid, hwhich.imp_left fun ⟨heq, hpending⟩ => ⟨heq, ?_⟩⟩
  rcases List.mem_cons.mp hpending with rfl | hpending
  · obtain ⟨o, ho, hslot⟩ := hused s₀ hs₀
    rw [← h.objects] at ho
    exact absurd hslot (hnone o ho)
  · exact hpending

/-- **A slot is wrapped anew.** -/
theorem Rewrapping.rewrap (hE : E.Authenticated) {v₀ : Vault Cipher} {newKey : Key}
    {nonce : ByteArray} {r : Rewrap Cipher} {pending : List (SlotRow Cipher)}
    (h : Rewrapping E key newKey v₀ (r.slot :: pending) v) (hwraps : r.slot.Wraps E key r.dataKey)
    (hsame : ∀ s₀ ∈ v₀.slots.rows, s₀.slotId = r.slot.slotId → s₀ = r.slot)
    (hok : v.rewrap E newKey nonce r = .ok v') : Rewrapping E key newKey v₀ pending v' := by
  unfold Vault.rewrap at hok
  split at hok
  swap
  · cases hok
  rename_i slots hrewrite
  cases hok
  have hrows := Table.rows_of_rewrite hrewrite
  refine ⟨h.objects, fun s hs => ?_, fun s₀ hs₀ => ?_⟩
  · have hs' : s ∈ slots.rows := hs
    rw [hrows] at hs'
    obtain ⟨t, ht, rfl⟩ := List.mem_map.mp hs'
    obtain ⟨s₀, hs₀, hid, hwhich⟩ := h.slots t ht
    by_cases hslot : t.slotId = r.slot.slotId
    · rw [if_pos (by simpa using hslot)]
      refine ⟨s₀, hs₀, hid, Or.inr fun d hd => ?_⟩
      obtain rfl := hsame s₀ hs₀ (hid.symm.trans hslot)
      obtain ⟨-, rfl⟩ := hwraps.unique hE hd
      show wrapDataKey E newKey _ _ _ = wrapDataKey E newKey t.slotId _ _
      rw [hslot]
    · rw [if_neg (by simpa using hslot)]
      refine ⟨s₀, hs₀, hid, hwhich.imp_left fun ⟨heq, hpending⟩ => ⟨heq, ?_⟩⟩
      rcases List.mem_cons.mp hpending with rfl | hpending
      · exact absurd hid hslot
      · exact hpending
  · obtain ⟨t, ht, hid⟩ := h.kept s₀ hs₀
    show ∃ s ∈ slots.rows, _
    rw [hrows]
    refine ⟨_, List.mem_map_of_mem ht, ?_⟩
    split <;> exact hid

/-- **The loop wraps every slot anew**, and finds each under the key. -/
theorem Rewrapping.all (hE : E.Authenticated) {v₀ : Vault Cipher} {newKey : Key} :
    ∀ {pending : List (SlotRow Cipher)} {v v' : Vault Cipher}, ReadSlots E pending →
      Rewrapping E key newKey v₀ pending v →
      (∀ s ∈ v₀.slots.rows, ∃ o ∈ v₀.objects.rows, o.slotId = some s.slotId) →
      (∀ t ∈ pending, ∀ s₀ ∈ v₀.slots.rows, s₀.slotId = t.slotId → s₀ = t) →
      Vault.rewrapAll E key newKey draw pending v = .ok v' →
        Rewrapping E key newKey v₀ [] v' ∧ ∀ t ∈ pending, ∃ d, t.Wraps E key d := by
  intro pending
  induction pending with
  | nil =>
    intro v v' _ h _ _ hok
    cases hok
    exact ⟨h, fun t ht => absurd ht List.not_mem_nil⟩
  | cons t pending ih =>
    intro v v' hread h hused hsame hok
    have hrest : ∀ t ∈ pending, ∀ s₀ ∈ v₀.slots.rows, s₀.slotId = t.slotId → s₀ = t :=
      fun u hu => hsame u (List.mem_cons_of_mem _ hu)
    unfold Vault.rewrapAll at hok
    obtain ⟨found, hfound, hafter⟩ := Checked.bind_eq_ok_iff.mp hok
    obtain ⟨hwraps, hsome, hnone⟩ := rewrapOf_eq_ok hE (hread.wraps t List.mem_cons_self) hfound
    have hall : Rewrapping E key newKey v₀ [] v' ∧ ∀ u ∈ pending, ∃ d, u.Wraps E key d := by
      rcases found with - | r
      · exact ih hread.of_cons (h.skip hused (hnone rfl)) hused hrest hafter
      · obtain ⟨rfl, hkey⟩ := hsome r rfl
        obtain ⟨v₁, hrewrap, hlast⟩ := Checked.bind_eq_ok_iff.mp hafter
        exact ih hread.of_cons (h.rewrap hE hkey (hsame r.slot List.mem_cons_self) hrewrap) hused
          hrest hlast
    refine ⟨hall.1, fun u hu => ?_⟩
    rcases List.mem_cons.mp hu with rfl | hu
    · exact hwraps
    · exact hall.2 u hu

/-- A vault some old objects of which are sealed anew, and the others are
still to come. -/
structure Reencrypting (E : Engine Cipher) (newKey : Key) (v₀ : Vault Cipher)
    (pending : List (ObjectRow Cipher)) (v : Vault Cipher) : Prop where
  slots : v.slots = v₀.slots
  objects : ∀ o ∈ v.objects.rows, ∃ o₀ ∈ v₀.objects.rows, o.objectId = o₀.objectId ∧
    o.slotId = o₀.slotId ∧ ((o = o₀ ∧ (o₀.slotId = none → o₀ ∈ pending)) ∨
      (o₀.slotId = none ∧ o.SealedBy E newKey))
  kept : ∀ o₀ ∈ v₀.objects.rows, ∃ o ∈ v.objects.rows, o.slotId = o₀.slotId

/-- **An old object is sealed anew.** -/
theorem Reencrypting.reencrypt {v₀ : Vault Cipher} {newKey : Key} {nonce : ByteArray}
    {kvs : List (String × Json)} {l : ObjectRow Cipher} {pending : List (ObjectRow Cipher)}
    {objects : Table (ObjectRow Cipher) ObjectRow.key objectClash}
    (h : Reencrypting E newKey v₀ (l :: pending) v)
    (hold : ∀ o₀ ∈ v₀.objects.rows, o₀.objectId = l.objectId → o₀.slotId = none)
    (hok : (v.objects.rewrite (·.objectId = l.objectId) fun row =>
      { row with nonce, ciphertext := sealJson E newKey l.objectId nonce kvs }) = some objects) :
    Reencrypting E newKey v₀ pending { v with objects } := by
  have hrows := Table.rows_of_rewrite hok
  refine ⟨h.slots, fun o ho => ?_, fun o₀ ho₀ => ?_⟩
  · have ho' : o ∈ objects.rows := ho
    rw [hrows] at ho'
    obtain ⟨t, ht, rfl⟩ := List.mem_map.mp ho'
    obtain ⟨o₀, ho₀, hid, hslot, hwhich⟩ := h.objects t ht
    by_cases hobject : t.objectId = l.objectId
    · rw [if_pos (by simpa using hobject)]
      refine ⟨o₀, ho₀, hid, hslot, Or.inr ⟨hold o₀ ho₀ (hid.symm.trans hobject), kvs, ?_⟩⟩
      show sealJson E newKey _ _ _ = sealJson E newKey t.objectId _ _
      rw [hobject]
    · rw [if_neg (by simpa using hobject)]
      refine ⟨o₀, ho₀, hid, hslot, hwhich.imp_left fun ⟨heq, hpending⟩ => ⟨heq, fun hnone => ?_⟩⟩
      rcases List.mem_cons.mp (hpending hnone) with rfl | hpending
      · exact absurd hid hobject
      · exact hpending
  · obtain ⟨t, ht, hslot⟩ := h.kept o₀ ho₀
    show ∃ o ∈ objects.rows, _
    rw [hrows]
    refine ⟨_, List.mem_map_of_mem ht, ?_⟩
    split <;> exact hslot

/-- **The loop seals every old object anew**, and opens each with the
key. -/
theorem Reencrypting.all {v₀ : Vault Cipher} {newKey : Key} :
    ∀ {pending : List (ObjectRow Cipher)} {v v' : Vault Cipher},
      Reencrypting E newKey v₀ pending v →
      (∀ l ∈ pending, ∀ o₀ ∈ v₀.objects.rows, o₀.objectId = l.objectId → o₀.slotId = none) →
      Vault.reencryptAll E key newKey draw pending v = .ok v' →
        Reencrypting E newKey v₀ [] v' ∧
          ∀ l ∈ pending, ∃ j, openJson E key l.objectId l.nonce l.ciphertext = .ok j := by
  intro pending
  induction pending with
  | nil =>
    intro v v' h _ hok
    cases hok
    exact ⟨h, fun t ht => absurd ht List.not_mem_nil⟩
  | cons l pending ih =>
    intro v v' h hold hok
    unfold Vault.reencryptAll at hok
    obtain ⟨document, hopen, hafter⟩ := Checked.bind_eq_ok_iff.mp hok
    dsimp only at hafter
    split at hafter
    · rename_i objects hrewrite
      have hstep := h.reencrypt (hold l List.mem_cons_self) hrewrite
      obtain ⟨hdone, hopened⟩ := ih hstep (fun u hu => hold u (List.mem_cons_of_mem _ hu)) hafter
      refine ⟨hdone, fun u hu => ?_⟩
      rcases List.mem_cons.mp hu with rfl | hu
      · exact ⟨document, hopen⟩
      · exact hopened u hu
    · cases hafter

/-- **A rotation that commits on what it has read puts the vault under its new
key**, and is the key holder's, where there is anything to rotate. -/
theorem SealedUnder.rotate (hE : E.Authenticated) {latest newKey : Key}
    (hs : SealedUnder E latest v) {first : Option (Rewrap Cipher)} {slots : List (SlotRow Cipher)}
    {legacy : List (ObjectRow Cipher)}
    (hread : ReadSlots E ((first.map (·.slot)).toList ++ slots))
    (hfirst : ∀ r, first = some r → r.slot.Wraps E key r.dataKey)
    (hlegacy : ∀ o ∈ legacy, o.slotId = none) (hon : CommitsOn first slots legacy v)
    (hok : v.rotate E key newKey draw first slots legacy = .ok v') :
    SealedUnder E newKey v' ∧ (key = latest ∨ v' = v) := by
  -- the first slot, the others, and the old objects
  have hsame : ∀ t ∈ (first.map (·.slot)).toList ++ slots, ∀ s₀ ∈ v.slots.rows,
      s₀.slotId = t.slotId → s₀ = t := fun t ht s₀ hs₀ hid =>
    List.inj_on_of_nodup_map hread.nodup (hon.slots s₀ hs₀) ht hid
  have hstart : Rewrapping E key newKey v ((first.map (·.slot)).toList ++ slots) v :=
    ⟨rfl, fun s hs => ⟨s, hs, rfl, Or.inl ⟨rfl, hon.slots s hs⟩⟩, fun s hs => ⟨s, hs, rfl⟩⟩
  unfold Vault.rotate at hok
  obtain ⟨v₁, hv₁, hok₁⟩ := Checked.bind_eq_ok_iff.mp hok
  obtain ⟨v₂, hv₂, hv'⟩ := Checked.bind_eq_ok_iff.mp hok₁
  have hbegun : Rewrapping E key newKey v slots v₁ ∧ ReadSlots E slots := by
    rcases first with - | r
    · cases hv₁
      exact ⟨hstart, hread⟩
    · exact ⟨hstart.rewrap hE (hfirst r rfl) (hsame r.slot List.mem_cons_self) hv₁, hread.of_cons⟩
  obtain ⟨hslots, hunwrapped⟩ := Rewrapping.all hE hbegun.2 hbegun.1 hs.used
    (fun t ht => hsame t (List.mem_append_right _ ht)) hv₂
  have hreencrypting : Reencrypting E newKey v₂ legacy v₂ := by
    refine ⟨rfl, fun o ho => ⟨o, ho, rfl, rfl, Or.inl ⟨rfl, fun hnone => ?_⟩⟩,
      fun o ho => ⟨o, ho, rfl⟩⟩
    rw [hslots.objects] at ho
    exact hon.legacy o ho (Or.inl hnone)
  have hold : ∀ l ∈ legacy, ∀ o₀ ∈ v₂.objects.rows, o₀.objectId = l.objectId →
      o₀.slotId = none := by
    intro l hl o₀ ho₀ hid
    rw [hslots.objects] at ho₀
    exact hlegacy o₀ (hon.legacy o₀ ho₀ (Or.inr (hid ▸ List.mem_map_of_mem hl)))
  obtain ⟨hdone, hopened⟩ := Reencrypting.all hreencrypting hold hv'
  -- who has unwrapped a slot or opened an object has the key
  have hholder : key = latest ∨ v.objects.rows = [] := by
    by_contra hnot
    obtain ⟨hkey, hobjects⟩ := not_or.mp hnot
    obtain ⟨o, ho⟩ := List.exists_mem_of_ne_nil _ hobjects
    apply hkey
    rcases hslot : o.slotId with - | id
    · obtain ⟨j, hj⟩ := hopened o (hon.legacy o ho (Or.inl hslot))
      obtain ⟨kvs, hkvs⟩ := hs.legacy o ho hslot
      rw [hkvs] at hj
      exact (openJson_eq_ok hE hj).1
    · obtain ⟨s, hmem, -, d, hwraps, -⟩ := hs.objects o ho id hslot
      rcases List.mem_append.mp (hon.slots s hmem) with hin | hin
      · obtain ⟨r, hr, rfl⟩ := Option.mem_toList.mp hin |> Option.map_eq_some_iff.mp
        exact (hwraps.unique hE (hfirst r hr)).1
      · obtain ⟨d', hd'⟩ := hunwrapped s hin
        exact (hwraps.unique hE hd').1
  rcases hholder with rfl | hempty
  · refine ⟨⟨fun s hs' => ?_, fun o ho hnone => ?_, fun o ho id hid => ?_, fun s hs' => ?_⟩,
      Or.inl rfl⟩
    · rw [hdone.slots] at hs'
      obtain ⟨s₀, hs₀, -, hwhich⟩ := hslots.slots s hs'
      obtain ⟨d, hd⟩ := hs.slots s₀ hs₀
      rcases hwhich with ⟨-, hpending⟩ | hwraps
      · cases hpending
      · exact ⟨d, hwraps d hd⟩
    · obtain ⟨o₀, ho₀, -, hslot, hwhich⟩ := hdone.objects o ho
      rcases hwhich with ⟨-, hpending⟩ | ⟨-, hsealed⟩
      · exact absurd (hpending (hslot.symm.trans hnone)) List.not_mem_nil
      · exact hsealed
    · obtain ⟨o₀, ho₀, -, hslot, hwhich⟩ := hdone.objects o ho
      rcases hwhich with ⟨rfl, -⟩ | ⟨hnone, -⟩
      swap
      · rw [hslot, hnone] at hid
        cases hid
      rw [hslots.objects] at ho₀
      obtain ⟨s₀, hs₀, rfl, d, hd, hsealed⟩ := hs.objects o ho₀ id hid
      obtain ⟨s, hs', hsid⟩ := hslots.kept s₀ hs₀
      obtain ⟨s₁, hs₁, hsid₁, hwhich⟩ := hslots.slots s hs'
      obtain rfl := slot_eq_of_slotId hs₁ hs₀ (hsid₁.symm.trans hsid)
      refine ⟨s, by rwa [hdone.slots], hsid, d, ?_, hsealed⟩
      rcases hwhich with ⟨-, hpending⟩ | hwraps
      · cases hpending
      · exact hwraps d hd
    · rw [hdone.slots] at hs'
      obtain ⟨s₀, hs₀, hsid, -⟩ := hslots.slots s hs'
      obtain ⟨o₀, ho₀, hslot⟩ := hs.used s₀ hs₀
      rw [← hslots.objects] at ho₀
      obtain ⟨o, ho, hoslot⟩ := hdone.kept o₀ ho₀
      exact ⟨o, ho, by rw [hoslot, hslot, hsid]⟩
  · -- an empty vault stays empty
    have hobjects' : v'.objects.rows = [] := by
      refine List.eq_nil_iff_forall_not_mem.mpr fun o ho => ?_
      obtain ⟨o₀, ho₀, -⟩ := hdone.objects o ho
      rw [hslots.objects, hempty] at ho₀
      cases ho₀
    have hslots' : v'.slots.rows = [] := by
      refine List.eq_nil_iff_forall_not_mem.mpr fun s hs' => ?_
      rw [hdone.slots] at hs'
      obtain ⟨s₀, hs₀, -⟩ := hslots.slots s hs'
      rw [hs.eq_nil hempty] at hs₀
      cases hs₀
    exact ⟨sealedUnder_of_nil hobjects' hslots', Or.inr (vault_ext (hobjects'.trans hempty.symm)
      (hslots'.trans (hs.eq_nil hempty).symm))⟩

end Atmem.Evidence
