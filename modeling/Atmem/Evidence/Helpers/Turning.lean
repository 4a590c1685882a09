import Atmem.Evidence.Helpers.Sealed
/-!
# Slot by slot

What a rotation makes of the slots of a vault that one connection has built,
in which every object has a slot, opened for a partition and wrapped under a
nonce that was drawn before: of those it has been through, no two clash where
each is for the partition read off its first document.
-/

namespace Atmem.Evidence

open Interleaving Relational

variable {Cipher : Type} {E : Engine Cipher} {v v' : Vault Cipher} {key newKey : Key}
variable {draws : ℕ}

/-- HMAC tells keys and texts apart. -/
def Engine.Collisionless (E : Engine Cipher) : Prop :=
  ∀ key key' text text', E.hmac key text = E.hmac key' text' → key = key' ∧ text = text'

/-- The nonces of a draw are none of those that slots were wrapped under
before, and differ in each of so many places. -/
structure Engine.FreshNonces (E : Engine Cipher) (draws places : ℕ) : Prop where
  old : ∀ d < draws, ∀ i < places, E.nonce d 0 ≠ E.nonce draws i
  distinct : ∀ i < places, ∀ j < places, E.nonce draws i = E.nonce draws j → i = j

/-- A tag tells the key and the partition. -/
theorem lookupTag_inj (hH : E.Collisionless) {key key' : Key} {p p' : String}
    (h : Vault.lookupTag E key p = Vault.lookupTag E key' p') : key = key' ∧ p = p' := by
  obtain ⟨hkey, htext⟩ := hH _ _ _ _ h
  exact ⟨hkey, String.append_right_inj _ |>.mp htext⟩

/-! ## What one connection builds -/

/-- A vault that one connection has built, in so many draws. -/
structure Laid (E : Engine Cipher) (key : Key) (draws : ℕ) (v : Vault Cipher) : Prop where
  underKey : SealedUnder E key v
  slotted : ∀ o ∈ v.objects.rows, o.slotId ≠ none
  partitions : ∀ s ∈ v.slots.rows, ∃ p, s.lookupTag = Vault.lookupTag E key p
  nonces : ∀ s ∈ v.slots.rows, ∃ d < draws, s.wrapNonce = E.nonce d 0

/-- An empty vault is laid out. -/
theorem laid_of_nil (hobjects : v.objects.rows = []) (hslots : v.slots.rows = []) :
    Laid E key draws v := by
  refine ⟨sealedUnder_of_nil hobjects hslots, ?_, ?_, ?_⟩
  · rw [hobjects]
    exact fun _ h => absurd h List.not_mem_nil
  · rw [hslots]
    exact fun _ h => absurd h List.not_mem_nil
  · rw [hslots]
    exact fun _ h => absurd h List.not_mem_nil

/-- A draw that came to nothing. -/
theorem Laid.draw (hl : Laid E key draws v) : Laid E key (draws + 1) v :=
  ⟨hl.underKey, hl.slotted, hl.partitions, fun s hs =>
    let ⟨d, hd, hnonce⟩ := hl.nonces s hs
    ⟨d, Nat.lt_succ_of_lt hd, hnonce⟩⟩

/-- The slot of a partition is there, or is a new one. -/
theorem slots_of_dataKey {draw : ℕ} {partition slotId : String} {d : Key}
    (h : v.dataKey E key draw partition = .ok (slotId, d, v')) :
    v'.slots.rows = v.slots.rows ∨
      v'.slots.rows = v.slots.rows ++ [Vault.newSlot E key draw partition] := by
  unfold Vault.dataKey at h
  split at h
  · simp only [Checked.bind_eq_ok_iff] at h
    obtain ⟨d', -, h⟩ := h
    cases h
    exact Or.inl rfl
  · dsimp only at h
    split at h
    · rename_i slots hinsert
      cases h
      exact Or.inr (Table.insert_eq_some.mp hinsert).2
    · cases h

/-- **An append lays out what it appends.** -/
theorem Laid.append (hE : E.Authenticated) (hl : Laid E key draws v)
    {document : List (String × Json)} {partition : String} {r : Receipt}
    (h : v.append E key draws document partition = .ok (r, v')) :
    Laid E key (draws + 1) v' := by
  have hsealed := hl.underKey.append hE h
  unfold Vault.append at h
  simp only [Checked.bind_eq_ok_iff] at h
  obtain ⟨⟨slotId, d, v₁⟩, hkey, h⟩ := h
  have hobjects := (hl.underKey.dataKey hE hkey).1
  have hslots := slots_of_dataKey hkey
  dsimp only at h
  split at h
  swap
  · cases h
  rename_i objects hinsert
  cases h
  have hrows := (Table.insert_eq_some.mp hinsert).2
  rw [hobjects] at hrows
  -- at most one slot is new
  have hold : ∀ s ∈ v₁.slots.rows,
      s ∈ v.slots.rows ∨ s = Vault.newSlot E key draws partition := by
    intro s hs
    rcases hslots with hslots | hslots <;> rw [hslots] at hs
    · exact Or.inl hs
    · exact (List.mem_append.mp hs).imp_right List.mem_singleton.mp
  refine ⟨hsealed, fun o ho => ?_, fun s hs => ?_, fun s hs => ?_⟩
  · have ho' : o ∈ objects.rows := ho
    rw [hrows] at ho'
    rcases List.mem_append.mp ho' with ho' | ho'
    · exact hl.slotted o ho'
    · rw [List.mem_singleton.mp ho']
      exact Option.some_ne_none _
  · rcases hold s hs with hs | rfl
    · exact hl.partitions s hs
    · exact ⟨partition, rfl⟩
  · rcases hold s hs with hs | rfl
    · exact hl.draw.nonces s hs
    · exact ⟨draws, Nat.lt_succ_self _, rfl⟩

/-- **A deletion leaves what is laid out.** -/
theorem Laid.deleteRun (hE : E.Authenticated) (hl : Laid E key draws v) {runId : String}
    {n : ℕ × ℕ} (h : v.deleteRun E key draws runId = .ok (n, v')) :
    Laid E key (draws + 1) v' := by
  unfold Vault.deleteRun at h
  simp only [Checked.bind_eq_ok_iff] at h
  obtain ⟨doomed, -, v₁, hv₁, h⟩ := h
  cases h
  have hl₁ : Laid E key (draws + 1) v₁ := by
    unfold Vault.appendTombstone at hv₁
    split at hv₁
    · simp only [Checked.bind_eq_ok_iff] at hv₁
      obtain ⟨⟨r, v₂⟩, happend, hv₁⟩ := hv₁
      cases hv₁
      exact hl.append hE happend
    · cases hv₁
      exact hl.draw
  exact ⟨hl₁.underKey.discard _, fun o ho => hl₁.slotted o (List.mem_filter.mp ho).1,
    fun s hs => hl₁.partitions s (List.mem_filter.mp hs).1,
    fun s hs => hl₁.nonces s (List.mem_filter.mp hs).1⟩

/-! ## What a rotation reads -/

/-- **What is read of a slot**: its data key, and the partition of its first
document. -/
theorem rewrapOf_eq_some {s : SlotRow Cipher} {r : Rewrap Cipher} :
    v.rewrapOf E key s = .ok (some r) ↔
      r.slot = s ∧ unwrapDataKey E key s.slotId s.wrapNonce s.wrappedKey = .ok r.dataKey ∧
        ∃ o document, v.firstObject s.slotId = some o ∧
          openJson E r.dataKey o.objectId o.nonce o.ciphertext = .ok document ∧
          partitionForDocument E document = .ok r.partition := by
  unfold Vault.rewrapOf
  simp only [Checked.bind_eq_ok_iff]
  constructor
  · rintro ⟨d, hd, h⟩
    split at h
    · cases h
    · rename_i o ho
      simp only [Checked.bind_eq_ok_iff] at h
      obtain ⟨document, hopen, partition, hpartition, h⟩ := h
      cases h
      exact ⟨rfl, hd, o, document, ho, hopen, hpartition⟩
  · rintro ⟨rfl, hd, o, document, ho, hopen, hpartition⟩
    refine ⟨r.dataKey, hd, ?_⟩
    rw [ho]
    simp only [Checked.bind_eq_ok_iff]
    exact ⟨document, hopen, r.partition, hpartition, rfl⟩

/-- It is read off the objects. -/
theorem rewrapOf_congr (h : v'.objects = v.objects) (s : SlotRow Cipher) :
    v'.rewrapOf E key s = v.rewrapOf E key s := by
  unfold Vault.rewrapOf Vault.firstObject Vault.inSequence
  rw [h]

/-- The object of a slot is opened under its data key. -/
theorem openObject_eq {s : SlotRow Cipher} (hs : s ∈ v.slots.rows) {o : ObjectRow Cipher}
    (ho : o.slotId = some s.slotId) {d : Key}
    (hd : unwrapDataKey E key s.slotId s.wrapNonce s.wrappedKey = .ok d) :
    v.openObject E key o = openJson E d o.objectId o.nonce o.ciphertext := by
  unfold Vault.openObject Vault.objectKey
  rw [ho]
  dsimp only
  rw [slot?_eq_some hs]
  dsimp only
  rw [hd]
  rfl

/-- The first object of a slot is in it. -/
theorem slotId_of_firstObject {slotId : String} {o : ObjectRow Cipher}
    (h : v.firstObject slotId = some o) : o.slotId = some slotId ∧ o ∈ v.objects.rows := by
  have hslot := List.find?_some h
  exact ⟨by simpa using hslot, mem_inSequence.mp (List.mem_of_find?_eq_some h)⟩

/-- **Every slot is found again**: it is for the partition that is read off its
first document. -/
def Recoverable (E : Engine Cipher) (key : Key) (v : Vault Cipher) : Prop :=
  ∀ s ∈ v.slots.rows, ∃ o document partition, v.firstObject s.slotId = some o ∧
    v.openObject E key o = .ok document ∧ partitionForDocument E document = .ok partition ∧
    s.lookupTag = Vault.lookupTag E key partition

/-- What is read of a slot, where it is found again. -/
theorem recoverable_iff (hE : E.Authenticated) (hs : SealedUnder E key v) :
    Recoverable E key v ↔ ∀ s ∈ v.slots.rows, ∃ r, v.rewrapOf E key s = .ok (some r) ∧
      s.lookupTag = Vault.lookupTag E key r.partition := by
  refine forall₂_congr fun s hmem => ?_
  obtain ⟨d, hwraps⟩ := hs.slots s hmem
  have hd : unwrapDataKey E key s.slotId s.wrapNonce s.wrappedKey = .ok d := by
    rw [show s.wrappedKey = _ from hwraps]
    exact unwrapDataKey_wrapDataKey hE ..
  constructor
  · rintro ⟨o, document, partition, hfirst, hopen, hpartition, htag⟩
    rw [openObject_eq hmem (slotId_of_firstObject hfirst).1 hd] at hopen
    exact ⟨⟨s, d, partition⟩,
      rewrapOf_eq_some.mpr ⟨rfl, hd, o, document, hfirst, hopen, hpartition⟩, htag⟩
  · rintro ⟨r, hr, htag⟩
    obtain ⟨rfl, hd', o, document, hfirst, hopen, hpartition⟩ := rewrapOf_eq_some.mp hr
    refine ⟨o, document, r.partition, hfirst, ?_, hpartition, htag⟩
    rw [openObject_eq hmem (slotId_of_firstObject hfirst).1 hd']
    exact hopen

end Atmem.Evidence

namespace Atmem.Evidence

open Interleaving Relational

variable {Cipher : Type} {E : Engine Cipher} {v v' : Vault Cipher} {key newKey : Key}
variable {draws : ℕ}

/-- A slot wrapped anew, under one nonce of the draw. -/
def SlotRow.anew (E : Engine Cipher) (newKey : Key) (nonce : ByteArray) (r : Rewrap Cipher)
    (s : SlotRow Cipher) : SlotRow Cipher :=
  { s with
    lookupTag := Vault.lookupTag E newKey r.partition, wrapNonce := nonce
    wrappedKey := wrapDataKey E newKey r.slot.slotId nonce r.dataKey }

/-- Rewrapping is an update of the slot. -/
theorem rewrap_of_rewrite {nonce : ByteArray} {r : Rewrap Cipher}
    {slots : Table (SlotRow Cipher) SlotRow.key slotClash}
    (h : v.slots.rewrite (fun s => decide (s.slotId = r.slot.slotId))
      (SlotRow.anew E newKey nonce r) = some slots) : v.rewrap E newKey nonce r = .ok { v with slots } := by
  have hrewrite : (v.slots.rewrite (fun s => decide (s.slotId = r.slot.slotId)) fun s =>
      { s with
        lookupTag := Vault.lookupTag E newKey r.partition, wrapNonce := nonce
        wrappedKey := wrapDataKey E newKey r.slot.slotId nonce r.dataKey }) = some slots := h
  unfold Vault.rewrap
  rw [hrewrite]

/-- What has become of a slot while others are to come: it is to come itself,
or it is wrapped anew. -/
def Turned (E : Engine Cipher) (key newKey : Key) (draws : ℕ) (v₀ : Vault Cipher)
    (pending : List (SlotRow Cipher)) (s t : SlotRow Cipher) : Prop :=
  (s ∈ pending ∧ t = s) ∨ (s ∉ pending ∧ ∃ r i, v₀.rewrapOf E key s = .ok (some r) ∧
    pending.length ≤ i ∧ i < v₀.slots.rows.length ∧ t = s.anew E newKey (E.nonce draws i) r)

/-- A slot that was turned keeps its identifier. -/
theorem Turned.slotId_eq {v₀ : Vault Cipher} {pending : List (SlotRow Cipher)}
    {s t : SlotRow Cipher} (h : Turned E key newKey draws v₀ pending s t) :
    t.slotId = s.slotId := by
  rcases h with ⟨-, rfl⟩ | ⟨-, r, i, -, -, -, rfl⟩
  · rfl
  · rfl

/-- **A vault some slots of which are turned.** -/
structure Turning (E : Engine Cipher) (key newKey : Key) (draws : ℕ) (v₀ : Vault Cipher)
    (pending : List (SlotRow Cipher)) (v : Vault Cipher) : Prop where
  objects : v.objects = v₀.objects
  slots : ∃ g : SlotRow Cipher → SlotRow Cipher, v.slots.rows = v₀.slots.rows.map g ∧
    ∀ s ∈ v₀.slots.rows, Turned E key newKey draws v₀ pending s (g s)

/-- What is to come: slots of the vault, no two of one name. -/
structure Pending (v₀ : Vault Cipher) (pending : List (SlotRow Cipher)) : Prop where
  mem : ∀ s ∈ pending, s ∈ v₀.slots.rows
  nodup : pending.Nodup
  short : pending.length ≤ v₀.slots.rows.length

theorem Pending.of_cons {v₀ : Vault Cipher} {s : SlotRow Cipher} {pending : List (SlotRow Cipher)}
    (h : Pending v₀ (s :: pending)) : Pending v₀ pending :=
  ⟨fun t ht => h.mem t (List.mem_cons_of_mem _ ht), (List.nodup_cons.mp h.nodup).2,
    (Nat.le_succ _).trans h.short⟩

/-- **One slot is turned.** -/
theorem Turning.turn {v₀ : Vault Cipher} {pending : List (SlotRow Cipher)} {r : Rewrap Cipher}
    (h : Turning E key newKey draws v₀ (r.slot :: pending) v) (hp : Pending v₀ (r.slot :: pending))
    (hr : v₀.rewrapOf E key r.slot = .ok (some r))
    (hok : v.rewrap E newKey (E.nonce draws pending.length) r = .ok v') :
    Turning E key newKey draws v₀ pending v' := by
  obtain ⟨g, hg, hturned⟩ := h.slots
  unfold Vault.rewrap at hok
  split at hok
  swap
  · cases hok
  rename_i slots hrewrite
  cases hok
  refine ⟨h.objects, _, (Table.rows_of_rewrite hrewrite).trans (by rw [hg, List.map_map]), ?_⟩
  intro s hs
  have hslot := (hturned s hs).slotId_eq
  show Turned E key newKey draws v₀ pending s (if _ then _ else _)
  by_cases hid : s.slotId = r.slot.slotId
  · -- the slot itself, which was to come
    obtain rfl := slot_eq_of_slotId hs (hp.mem _ List.mem_cons_self) hid
    rw [if_pos (by simp [hslot])]
    have hsame : g r.slot = r.slot := by
      rcases hturned r.slot hs with ⟨-, heq⟩ | ⟨hnot, -⟩
      · exact heq
      · exact absurd List.mem_cons_self hnot
    rw [hsame]
    exact Or.inr ⟨(List.nodup_cons.mp hp.nodup).1, r, pending.length, hr, Nat.le_refl _, hp.short,
      rfl⟩
  · rw [if_neg (by simp [hslot, hid])]
    rcases hturned s hs with ⟨hmem, heq⟩ | ⟨hnot, r', i, hr', hle, hlt, heq⟩
    · refine Or.inl ⟨?_, heq⟩
      rcases List.mem_cons.mp hmem with rfl | hmem
      · exact absurd rfl hid
      · exact hmem
    · exact Or.inr ⟨fun hmem => hnot (List.mem_cons_of_mem _ hmem), r', i, hr',
        (Nat.le_succ _).trans hle, hlt, heq⟩

/-- **Every slot is turned**, where the loop goes through. -/
theorem Turning.all {v₀ : Vault Cipher} :
    ∀ {pending : List (SlotRow Cipher)} {v v' : Vault Cipher}, Pending v₀ pending →
      (∀ s ∈ v₀.slots.rows, v₀.rewrapOf E key s ≠ .ok none) →
      Turning E key newKey draws v₀ pending v →
      Vault.rewrapAll E key newKey draws pending v = .ok v' →
        Turning E key newKey draws v₀ [] v' := by
  intro pending
  induction pending with
  | nil =>
    intro v v' _ _ h hok
    cases hok
    exact h
  | cons s pending ih =>
    intro v v' hp hused h hok
    unfold Vault.rewrapAll at hok
    obtain ⟨found, hfound, hafter⟩ := Checked.bind_eq_ok_iff.mp hok
    rw [rewrapOf_congr h.objects] at hfound
    rcases found with - | r
    · exact absurd hfound (hused s (hp.mem s List.mem_cons_self))
    · obtain ⟨v₁, hrewrap, hlast⟩ := Checked.bind_eq_ok_iff.mp hafter
      obtain rfl := (rewrapOf_eq_some.mp hfound).1
      exact ih hp.of_cons hused (h.turn hp hfound hrewrap) hlast

/-- Two slots are for different partitions. -/
theorem partition_ne {s t : SlotRow Cipher} (hs : s ∈ v.slots.rows) (ht : t ∈ v.slots.rows)
    (hne : s.slotId ≠ t.slotId) : s.lookupTag ≠ t.lookupTag := by
  intro htag
  have hclash : ∀ a b : SlotRow Cipher, a.lookupTag = b.lookupTag →
      slotClash a.key b.key = true := fun a b h => by simp [slotClash, SlotRow.key, h]
  exact hne (congrArg SlotRow.slotId (Table.eq_of_id_eq hclash hs ht htag))

/-- **A turned slot clashes with no other**, where slots are found again. -/
theorem Turning.exists_rewrap (hE : E.Authenticated) (hH : E.Collisionless) {v₀ : Vault Cipher}
    (hl : Laid E key draws v₀) (hN : E.FreshNonces draws v₀.slots.rows.length)
    (hrec : Recoverable E key v₀) {pending : List (SlotRow Cipher)} {r : Rewrap Cipher}
    (h : Turning E key newKey draws v₀ (r.slot :: pending) v) (hp : Pending v₀ (r.slot :: pending))
    (hr : v₀.rewrapOf E key r.slot = .ok (some r)) :
    ∃ v', v.rewrap E newKey (E.nonce draws pending.length) r = .ok v' := by
  rw [recoverable_iff hE hl.underKey] at hrec
  have hslot := hp.mem r.slot List.mem_cons_self
  obtain ⟨g, hg, hturned⟩ := h.slots
  have hown : ∀ s ∈ v₀.slots.rows, ∀ r', v₀.rewrapOf E key s = .ok (some r') →
      s.lookupTag = Vault.lookupTag E key r'.partition := by
    intro s hs r' hr'
    obtain ⟨r₁, hr₁, htag⟩ := hrec s hs
    rw [hr'] at hr₁
    cases hr₁
    exact htag
  -- the slot of a row, and that the row is one of another slot
  have hother : ∀ b ∈ v.slots.rows, b.slotId ≠ r.slot.slotId →
      b.lookupTag ≠ Vault.lookupTag E newKey r.partition ∧
        b.wrapNonce ≠ E.nonce draws pending.length := by
    intro b hb hne
    rw [hg] at hb
    obtain ⟨s, hs, rfl⟩ := List.mem_map.mp hb
    rw [(hturned s hs).slotId_eq] at hne
    have htag := partition_ne hs hslot hne
    rw [hown r.slot hslot r hr] at htag
    rcases hturned s hs with ⟨-, heq⟩ | ⟨-, r', i, hr', hle, hlt, heq⟩ <;> rw [heq]
    · constructor
      · intro hsame
        obtain ⟨p, hpart⟩ := hl.partitions s hs
        rw [hpart] at hsame
        obtain ⟨rfl, rfl⟩ := lookupTag_inj hH hsame
        exact htag hpart
      · intro hsame
        obtain ⟨d, hd, hnonce⟩ := hl.nonces s hs
        rw [hnonce] at hsame
        exact hN.old d hd _ hp.short hsame
    · constructor
      · intro hsame
        have hpart := (lookupTag_inj hH (hsame : Vault.lookupTag E newKey r'.partition = _)).2
        rw [← hpart] at htag
        exact htag (hown s hs r' hr')
      · intro hsame
        have hi := hN.distinct i hlt _ hp.short hsame
        rw [hi] at hle
        exact Nat.lt_irrefl _ hle
  obtain ⟨slots, hslots⟩ := Table.exists_rewrite
    (t := v.slots) (p := fun s => decide (s.slotId = r.slot.slotId))
    (f := fun s => s.anew E newKey (E.nonce draws pending.length) r)
    (v.slots.distinct.imp fun hclash hboth => by
      have hids := (of_decide_eq_true hboth.1).trans (of_decide_eq_true hboth.2).symm
      simp [slotClash, SlotRow.key, hids] at hclash)
    (fun a _ b hb ha hb' => by
      have hid := of_decide_eq_true ha
      have hne := of_decide_eq_false hb'
      obtain ⟨htag, hnonce⟩ := hother b hb hne
      simp only [slotClash, SlotRow.key, SlotRow.anew, hid]
      simp [hne, Ne.symm hne, htag, htag.symm, hnonce, hnonce.symm])
  exact ⟨_, rewrap_of_rewrite hslots⟩

/-- **The loop goes through**, where slots are found again. -/
theorem Turning.exists_all (newKey : Key) (hE : E.Authenticated) (hH : E.Collisionless) {v₀ : Vault Cipher}
    (hl : Laid E key draws v₀) (hN : E.FreshNonces draws v₀.slots.rows.length)
    (hrec : Recoverable E key v₀) :
    ∀ {pending : List (SlotRow Cipher)} {v : Vault Cipher}, Pending v₀ pending →
      Turning E key newKey draws v₀ pending v →
        ∃ v', Vault.rewrapAll E key newKey draws pending v = .ok v' := by
  intro pending
  induction pending with
  | nil => exact fun _ _ => ⟨_, rfl⟩
  | cons s pending ih =>
    intro v hp h
    obtain ⟨r, hr, -⟩ := (recoverable_iff hE hl.underKey).mp hrec s (hp.mem s List.mem_cons_self)
    obtain rfl := (rewrapOf_eq_some.mp hr).1
    obtain ⟨v₁, hv₁⟩ := h.exists_rewrap hE hH hl hN hrec hp hr
    obtain ⟨v', hv'⟩ := ih hp.of_cons (h.turn hp hr hv₁)
    refine ⟨v', Checked.bind_eq_ok_iff.mpr ⟨some r, ?_, Checked.bind_eq_ok_iff.mpr
      ⟨v₁, hv₁, hv'⟩⟩⟩
    rw [rewrapOf_congr h.objects]
    exact hr

end Atmem.Evidence
