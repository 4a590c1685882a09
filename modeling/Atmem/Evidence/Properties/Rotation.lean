import Atmem.Evidence.Helpers.Turning
import Atmem.Evidence.Properties.OneKey
/-!
# Rotation and partitions

A rotation wraps each slot for the partition that is read off its first
document. It finds every slot again, and goes through, exactly where that is
the partition the slot was opened for; the records of a continuity workflow
are filed under a partition of their own, and read as of another.
-/

namespace Atmem.Evidence

open Interleaving Relational

variable {Cipher : Type} {E : Engine Cipher} {key newKey : Key}

/-! ## What a connection builds -/

/-- The operation is one of appending and deleting. -/
def Operation.builds : Operation → Bool
  | .append _ _ | .setCaptureMode _ _ | .accessEvent _ | .capture _ | .deleteRun _ => true
  | .rotateKey _ => false

/-- The vault that the holder of a key has built, from an empty one. -/
def built (E : Engine Cipher) (key : Key) (operations : List Operation) : World Cipher :=
  runAll (VaultCall.body E) (operations.map fun o => ⟨key, o⟩) { latest := key }

/-- What is laid out stays so. -/
def Lays (E : Engine Cipher) (key : Key) (w w' : World Cipher) : Prop :=
  Laid E key w.draws w.vault → Laid E key w'.draws w'.vault

theorem lays_inspect {α : Type} {point : Point Cipher} {f : Vault Cipher → Except Raised α} :
    Eff.Within (Lays E key) (inspect point f) :=
  Eff.Within.action fun _ hl => hl

/-- A transaction keeps the layout if its body does. -/
theorem lays_transact {α : Type} {point : Point Cipher}
    {body : ℕ → Vault Cipher → Except Raised (α × Vault Cipher)}
    (hbody : ∀ draws v, Laid E key draws v → ∀ a v', body draws v = .ok (a, v') →
      Laid E key (draws + 1) v') : Eff.Within (Lays E key) (transact point body) := by
  refine Eff.Within.action fun w hl => ?_
  rcases hrun : body w.draws w.vault with e | ⟨a, v'⟩
  · exact hl.draw
  · exact hbody _ _ hl a v' hrun

theorem lays_append (hE : E.Authenticated) (document : List (String × Json)) (partition : String) :
    Eff.Within (Lays E key) (append E key document partition) :=
  lays_transact fun _ _ hl _ _ hok => hl.append hE hok

theorem lays_accessEvent (hE : E.Authenticated) (value : List (String × Json)) :
    Eff.Within (Lays E key) (accessEvent E key value) :=
  Eff.Within.bind Eff.Within.ofExcept fun _ => lays_append hE _ _

theorem lays_deleteRun (hE : E.Authenticated) (runId : String) :
    Eff.Within (Lays E key) (deleteRun E key runId) :=
  lays_transact fun _ _ hl _ _ hok => hl.deleteRun hE hok

theorem lays_capture (hE : E.Authenticated) (envelope : Json) :
    Eff.Within (Lays E key) (capture E key envelope) := by
  refine Eff.Within.bind lays_inspect fun mode => ?_
  split
  · exact Eff.Within.pure
  · refine Eff.Within.bind ?_ fun replay => Eff.Within.bind ?_ fun _ => Eff.Within.pure
    · unfold lookForReplay
      split
      · exact lays_inspect
      · exact Eff.Within.pure
    · rcases replay with - | replay
      · exact lays_append hE _ _
      · exact Eff.Within.pure

/-- **Every operation lays out what it appends.** -/
theorem lays_body (hE : E.Authenticated) {operation : Operation} (hb : operation.builds = true)
    (w : World Cipher) : Lays E key w ((VaultCall.body E ⟨key, operation⟩).exec w).2 := by
  have hrun : ∀ {α : Type} {x : Action Cipher α}, Eff.Within (Lays E key) x →
      Lays E key w (x.exec w).2 := fun hx =>
    Eff.Within.exec (fun _ hl => hl) (fun _ _ _ h₁ h₂ hl => h₂ (h₁ hl)) hx w
  have hmap : ∀ {α : Type} {x : Action Cipher α} (f : α → Answer), Eff.Within (Lays E key) x →
      Lays E key w ((f <$> x : Action Cipher Answer).exec w).2 := by
    intro α x f hx
    rw [Eff.exec_map]
    exact hrun hx
  cases operation with
  | append document partition => exact hmap _ (lays_append hE _ _)
  | setCaptureMode mode actor => exact hmap _ (lays_append hE _ _)
  | accessEvent value => exact hmap _ (lays_accessEvent hE value)
  | capture envelope => exact hmap _ (lays_capture hE envelope)
  | deleteRun runId => exact hmap _ (lays_deleteRun hE runId)
  | rotateKey newKey => cases hb

/-- **What the holder of a key has built is laid out.** -/
theorem laid_built (hE : E.Authenticated) (key : Key) {operations : List Operation}
    (hb : ∀ o ∈ operations, o.builds = true) :
    Laid E key (built E key operations).draws (built E key operations).vault := by
  unfold built
  have hall : ∀ (w : World Cipher), Laid E key w.draws w.vault →
      Laid E key (runAll (VaultCall.body E) (operations.map fun o => ⟨key, o⟩) w).draws
        (runAll (VaultCall.body E) (operations.map fun o => ⟨key, o⟩) w).vault := by
    induction operations with
    | nil => exact fun _ hl => hl
    | cons o operations ih =>
      intro w hl
      exact ih (fun o' ho => hb o' (List.mem_cons_of_mem _ ho)) _
        (lays_body hE (hb o List.mem_cons_self) w hl)
  exact hall _ (laid_of_nil rfl rfl)

/-! ## A rotation alone -/

/-- The slots in the order a rotation takes them. -/
def Vault.inOrder (v : Vault Cipher) : List (SlotRow Cipher) :=
  v.slots.rows.insertionSort fun a b => a.slotId ≤ b.slotId

/-- Before a rotation every slot is pending. -/
theorem pending_inOrder (v : Vault Cipher) : Pending v v.inOrder := by
  have hperm := List.perm_insertionSort (fun a b : SlotRow Cipher => a.slotId ≤ b.slotId)
    v.slots.rows
  refine ⟨fun s hs => hperm.mem_iff.mp hs, hperm.nodup_iff.mpr ?_, hperm.length_eq.le⟩
  exact v.slots.distinct.imp fun hclash heq => by simp [slotClash, heq] at hclash

/-- And nothing has turned. -/
theorem turning_self {v : Vault Cipher} {draws : ℕ} :
    Turning E key newKey draws v v.inOrder v := by
  refine ⟨rfl, id, (List.map_id _).symm, fun s hs => Or.inl ⟨?_, rfl⟩⟩
  exact (List.perm_insertionSort _ _).mem_iff.mpr hs

/-- Every slot of a vault that is laid out has an object. -/
theorem Laid.rewrapOf_ne_none {draws : ℕ} {v : Vault Cipher} (hl : Laid E key draws v) :
    ∀ s ∈ v.slots.rows, v.rewrapOf E key s ≠ .ok none := by
  intro s hs hnone
  obtain ⟨o, ho, hslot⟩ := hl.underKey.used s hs
  unfold Vault.rewrapOf at hnone
  simp only [Checked.bind_eq_ok_iff] at hnone
  obtain ⟨d, -, hnone⟩ := hnone
  split at hnone
  · rename_i hfirst
    have hnot := List.find?_eq_none.mp hfirst o (mem_inSequence.mpr ho)
    simp [hslot] at hnot
  · simp only [Checked.bind_eq_ok_iff] at hnone
    obtain ⟨document, -, partition, -, h⟩ := hnone
    cases h

/-- The first slot is read before the transaction. -/
theorem exec_seekSlot_cons {w : World Cipher} (hl : Laid E key w.draws w.vault) {s : SlotRow Cipher}
    (hs : s ∈ w.vault.slots.rows) (slots : List (SlotRow Cipher)) :
    (seekSlot E key (s :: slots)).exec w =
      ((fun found => (found, slots)) <$> w.vault.rewrapOf E key s, w) := by
  have hused := hl.rewrapOf_ne_none s hs
  have hread : (inspect Point.object fun v => v.rewrapOf E key s).exec w =
      (w.vault.rewrapOf E key s, w) := rfl
  unfold seekSlot
  rw [Eff.exec_bind, hread]
  rcases hr : w.vault.rewrapOf E key s with e | r | r
  · rfl
  · exact absurd hr hused
  · rfl

/-- The transaction takes the slots one after the other. -/
theorem rotate_eq (v : Vault Cipher) (draws : ℕ) (r : Rewrap Cipher)
    (slots : List (SlotRow Cipher)) : v.rotate E key newKey draws (some r) slots [] =
      (v.rewrap E newKey (E.nonce draws slots.length) r >>= fun v =>
        Vault.rewrapAll E key newKey draws slots v) := by
  show (v.rewrap E newKey _ r >>= fun v =>
    Vault.rewrapAll E key newKey draws slots v >>= fun v => .ok v) = _
  refine congrArg _ (funext fun v => ?_)
  rcases Vault.rewrapAll E key newKey draws slots v with e | v' <;> rfl

/-- **The loop over the slots decides a rotation.** -/
theorem exec_commitRotation (newKey : Key) {w : World Cipher} (hl : Laid E key w.draws w.vault)
    {slots : List (SlotRow Cipher)} (hmem : ∀ s ∈ slots, s ∈ w.vault.slots.rows) :
    (∀ v', Vault.rewrapAll E key newKey w.draws slots w.vault = .ok v' →
      (commitRotation E key newKey slots []).exec w = (.ok (), ⟨v', newKey, w.draws + 2⟩)) ∧
    ∀ e, Vault.rewrapAll E key newKey w.draws slots w.vault = .error e →
      ((commitRotation E key newKey slots []).exec w).1 = .error e := by
  unfold commitRotation
  rcases slots with - | ⟨s, slots⟩
  · refine ⟨fun v' hv' => ?_, fun e he => ?_⟩
    · cases hv'
      rfl
    · cases he
  have hs := hmem s List.mem_cons_self
  have hseek := exec_seekSlot_cons hl hs slots
  unfold Vault.rewrapAll
  rcases hr : w.vault.rewrapOf E key s with e | r | r
  · rw [hr] at hseek
    refine ⟨fun v' hv' => ?_, fun e' he' => ?_⟩
    · cases hv'
    · cases he'
      rw [Eff.exec_bind_error hseek]
  · exact absurd hr (hl.rewrapOf_ne_none s hs)
  · rw [hr] at hseek
    rw [Eff.exec_bind_ok hseek]
    show (∀ v', (w.vault.rewrap E newKey (E.nonce w.draws slots.length) r >>= fun v =>
        Vault.rewrapAll E key newKey w.draws slots v) = .ok v' → _) ∧
      ∀ e, (w.vault.rewrap E newKey (E.nonce w.draws slots.length) r >>= fun v =>
        Vault.rewrapAll E key newKey w.draws slots v) = .error e → _
    rw [← rotate_eq, Eff.exec_action]
    refine ⟨fun v' hv' => ?_, fun e he => ?_⟩
    · rw [hv']
    · rw [he]

/-- A rotation, by its loop. -/
theorem exec_rotateKey_loop (newKey : Key) {w : World Cipher} (hl : Laid E key w.draws w.vault) :
    (∀ v', Vault.rewrapAll E key newKey w.draws w.vault.inOrder w.vault = .ok v' →
      (rotateKey E key newKey).exec w =
        (.ok (w.vault.inOrder.length, 0), ⟨v', newKey, w.draws + 2⟩)) ∧
    ∀ e, Vault.rewrapAll E key newKey w.draws w.vault.inOrder w.vault = .error e →
      ((rotateKey E key newKey).exec w).1 = .error e := by
  have hlegacy : w.vault.objects.rows.filter (fun o => o.slotId = none) = [] :=
    List.filter_eq_nil_iff.mpr fun o ho => by simpa using hl.slotted o ho
  have hslots : (inspect Point.slots fun v => .ok (v.slots.rows.insertionSort fun a b =>
      a.slotId ≤ b.slotId) : Action Cipher (List (SlotRow Cipher))).exec w =
        (.ok w.vault.inOrder, w) := rfl
  have hobjects : (inspect Point.legacy fun v => .ok (v.objects.rows.filter (·.slotId = none)) :
      Action Cipher (List (ObjectRow Cipher))).exec w = (.ok [], w) := by
    show (Except.ok (w.vault.objects.rows.filter fun o => decide (o.slotId = none)), w) = _
    rw [hlegacy]
  obtain ⟨hok, herror⟩ := exec_commitRotation newKey hl (pending_inOrder w.vault).mem
  unfold rotateKey
  rw [Eff.exec_bind_ok hslots, Eff.exec_bind_ok hobjects]
  refine ⟨fun v' hv' => ?_, fun e he => ?_⟩
  · rw [Eff.exec_bind_ok (hok v' hv')]
    rfl
  · have hraised := herror e he
    rcases hrun : (commitRotation E key newKey w.vault.inOrder []).exec w with ⟨e' | ⟨⟩, w'⟩
    · rw [hrun] at hraised
      cases hraised
      rw [Eff.exec_bind_error hrun]
    · rw [hrun] at hraised
      cases hraised

/-! ## What a rotation keeps -/

/-- The slot a partition is looked up in. -/
def Vault.slotOf (E : Engine Cipher) (key : Key) (v : Vault Cipher) (partition : String) :
    Option String :=
  (v.slots.rows.find? fun s => s.lookupTag = Vault.lookupTag E key partition).map (·.slotId)

/-- **A rotation has kept the vault**: the same documents in the same order,
and every partition in its slot. -/
structure Kept (E : Engine Cipher) (key newKey : Key) (v v' : Vault Cipher) : Prop where
  documents : v'.documents E newKey = v.documents E key
  partitions : ∀ partition, v'.slotOf E newKey partition = v.slotOf E key partition

/-- The slot of a partition is found by its tag. -/
theorem slotOf_eq_some {v : Vault Cipher} {s : SlotRow Cipher} (hs : s ∈ v.slots.rows)
    {partition : String} (h : s.lookupTag = Vault.lookupTag E key partition) :
    v.slotOf E key partition = some s.slotId := by
  have hclash : ∀ a b : SlotRow Cipher, a.lookupTag = b.lookupTag →
      slotClash a.key b.key = true := fun a b h => by simp [slotClash, SlotRow.key, h]
  unfold Vault.slotOf
  rw [(Table.find?_id_eq_some hclash).mpr ⟨hs, h⟩]
  rfl

/-- What a turned vault opens is what the vault opened. -/
theorem Turning.documents (hE : E.Authenticated) {v v' : Vault Cipher} {draws : ℕ}
    (hl : Laid E key draws v) (h : Turning E key newKey draws v [] v') :
    v'.documents E newKey = v.documents E key := by
  obtain ⟨g, hg, hturned⟩ := h.slots
  unfold Vault.documents Vault.inSequence
  rw [h.objects]
  refine List.map_congr_left fun o ho => ?_
  have ho' : o ∈ v.objects.rows := mem_inSequence.mp ho
  rcases hslot : o.slotId with - | id
  · exact absurd hslot (hl.slotted o ho')
  obtain ⟨s, hs, rfl, -⟩ := hl.underKey.objects o ho' id hslot
  rcases hturned s hs with ⟨hnot, -⟩ | ⟨-, r, i, hr, -, -, heq⟩
  · cases hnot
  obtain ⟨rfl, hd, -⟩ := rewrapOf_eq_some.mp hr
  have hmem : g r.slot ∈ v'.slots.rows := by
    rw [hg]
    exact List.mem_map_of_mem hs
  have hd' : unwrapDataKey E newKey (g r.slot).slotId (g r.slot).wrapNonce (g r.slot).wrappedKey =
      .ok r.dataKey := by
    rw [heq]
    exact unwrapDataKey_wrapDataKey hE ..
  rw [openObject_eq hs hslot hd, openObject_eq hmem (by rw [heq]; exact hslot) hd']

/-- **A partition is in its slot again exactly where the slots are found
again.** -/
theorem Turning.partitions_iff (hE : E.Authenticated) (hH : E.Collisionless)
    {v v' : Vault Cipher} {draws : ℕ} (hl : Laid E key draws v)
    (h : Turning E key newKey draws v [] v') :
    (∀ partition, v'.slotOf E newKey partition = v.slotOf E key partition) ↔
      Recoverable E key v := by
  obtain ⟨g, hg, hturned⟩ := h.slots
  have hdone : ∀ s ∈ v.slots.rows, ∃ r, v.rewrapOf E key s = .ok (some r) ∧
      (g s).slotId = s.slotId ∧ (g s).lookupTag = Vault.lookupTag E newKey r.partition := by
    intro s hs
    rcases hturned s hs with ⟨hnot, -⟩ | ⟨-, r, i, hr, -, -, heq⟩
    · cases hnot
    · exact ⟨r, hr, by rw [heq]; rfl, by rw [heq]; rfl⟩
  rw [recoverable_iff hE hl.underKey]
  constructor
  · intro hall s hs
    obtain ⟨r, hr, hid, htag⟩ := hdone s hs
    obtain ⟨p, hp⟩ := hl.partitions s hs
    refine ⟨r, hr, ?_⟩
    -- the slot that the partition is found in now is the slot itself
    have hfound := (hall p).trans (slotOf_eq_some hs hp)
    unfold Vault.slotOf at hfound
    obtain ⟨t, ht, htid⟩ := Option.map_eq_some_iff.mp hfound
    have hmem := List.mem_of_find?_eq_some ht
    rw [hg] at hmem
    obtain ⟨s', hs', rfl⟩ := List.mem_map.mp hmem
    obtain ⟨r', hr', hid', htag'⟩ := hdone s' hs'
    obtain rfl := slot_eq_of_slotId hs' hs (hid'.symm.trans htid)
    have hnew : (g s').lookupTag = Vault.lookupTag E newKey p := by
      simpa using List.find?_some ht
    rw [hp, (lookupTag_inj hH (htag.symm.trans hnew)).2]
  · intro hrec partition
    unfold Vault.slotOf
    rw [hg, List.find?_map, Option.map_map]
    have hsame : ∀ s ∈ v.slots.rows,
        decide ((g s).lookupTag = Vault.lookupTag E newKey partition) =
          decide (s.lookupTag = Vault.lookupTag E key partition) := by
      intro s hs
      obtain ⟨r, hr, -, htag⟩ := hdone s hs
      obtain ⟨r', hr', hold⟩ := hrec s hs
      rw [hr] at hr'
      cases hr'
      rw [htag, hold]
      refine decide_eq_decide.mpr ⟨fun heq => ?_, fun heq => ?_⟩
      · rw [(lookupTag_inj hH heq).2]
      · rw [(lookupTag_inj hH heq).2]
    have hfind : v.slots.rows.find? ((fun s => decide (s.lookupTag =
        Vault.lookupTag E newKey partition)) ∘ g) =
          v.slots.rows.find? fun s => decide (s.lookupTag = Vault.lookupTag E key partition) :=
      List.find?_congr hsame
    rw [hfind]
    refine Option.map_congr fun s hs => ?_
    obtain ⟨r, -, hid, -⟩ := hdone s (List.mem_of_find?_eq_some hs)
    exact hid

/-- **A rotation keeps the vault exactly where every slot is for the partition
that is read off its first document**, over every vault that one connection
has built. -/
theorem rotation_keeps_partitions_iff (hE : E.Authenticated) (hH : E.Collisionless)
    (key newKey : Key) (operations : List Operation) (hb : ∀ o ∈ operations, o.builds = true)
    (hN : E.FreshNonces (built E key operations).draws
      (built E key operations).vault.slots.rows.length) :
    (∃ slots legacy w',
      (VaultCall.body E ⟨key, .rotateKey newKey⟩).exec (built E key operations) = (.ok (.rotated slots legacy), w') ∧
      Kept E key newKey (built E key operations).vault w'.vault) ↔
    Recoverable E key (built E key operations).vault := by
  have hl := laid_built hE key hb
  generalize built E key operations = w at hl hN ⊢
  obtain ⟨hok, herror⟩ := exec_rotateKey_loop newKey hl
  have hbody : (VaultCall.body E ⟨key, .rotateKey newKey⟩).exec w =
      ((fun n => Answer.rotated n.1 n.2) <$> ((rotateKey E key newKey).exec w).1,
        ((rotateKey E key newKey).exec w).2) := Eff.exec_map ..
  have hturning : ∀ v', Vault.rewrapAll E key newKey w.draws w.vault.inOrder w.vault = .ok v' →
      Turning E key newKey w.draws w.vault [] v' := fun v' hv' =>
    Turning.all (pending_inOrder w.vault) hl.rewrapOf_ne_none turning_self hv'
  rw [hbody]
  constructor
  · rintro ⟨slots, legacy, w', hrun, hkept⟩
    rcases hloop : Vault.rewrapAll E key newKey w.draws w.vault.inOrder w.vault with e | v'
    · have hraised := congrArg Prod.fst hrun
      rw [herror e hloop] at hraised
      cases hraised
    · rw [hok v' hloop] at hrun
      cases hrun
      exact (Turning.partitions_iff hE hH hl (hturning v' hloop)).mp hkept.partitions
  · intro hrec
    obtain ⟨v', hloop⟩ := Turning.exists_all newKey hE hH hl hN hrec
      (pending_inOrder w.vault) turning_self
    have hturned := hturning v' hloop
    rw [hok v' hloop]
    exact ⟨_, _, _, rfl, hturned.documents hE hl,
      (Turning.partitions_iff hE hH hl hturned).mpr hrec⟩

/-! ## Vaults that are rotated -/

/-- Tags of the example do not collide. -/
theorem collisionless_boxEngine : boxEngine.Collisionless := by
  intro key key' text text' h
  have happend : key.bytes ++ text.toByteArray = key'.bytes ++ text'.toByteArray := h
  have hbytes := ByteArray.append_inj_left happend (key.size_eq.trans key'.size_eq.symm)
  obtain ⟨bytes, hsize⟩ := key
  obtain ⟨bytes', hsize'⟩ := key'
  obtain rfl : bytes = bytes' := hbytes
  exact ⟨rfl, String.toByteArray_inj.mp ((ByteArray.append_right_inj _).mp happend)⟩

/-- The records of two workflows, each under a partition of its own. -/
def exampleWorkflows : List Operation :=
  [.append [("record_type", .str "continuity")] "continuity:a",
    .append [("record_type", .str "continuity")] "continuity:b"]

/-- **A workflow is lost to a rotation, and two of them prevent it.** -/
theorem a_rotation_loses_a_workflow :
    (built boxEngine (keyOf 0) (exampleWorkflows.take 1)).vault.slotOf boxEngine (keyOf 0)
        "continuity:a" ≠ none ∧
      ((VaultCall.body boxEngine ⟨keyOf 0, .rotateKey (keyOf 1)⟩).exec
        (built boxEngine (keyOf 0) (exampleWorkflows.take 1))).2.vault.slotOf boxEngine (keyOf 1)
          "continuity:a" = none ∧
      ((VaultCall.body boxEngine ⟨keyOf 0, .rotateKey (keyOf 1)⟩).exec
        (built boxEngine (keyOf 0) exampleWorkflows)).1 = .error .integrityError := by
  refine ⟨?_, ?_, ?_⟩ <;> decide +kernel

/-- A setting, an event of a run, and an access to it. -/
def exampleRecords : List Operation :=
  [.setCaptureMode .full "operator",
    .capture (.obj [("run_id", .str "r"), ("event_id", .str "e")]),
    .accessEvent [("target_scope", .obj [("run_id", .str "r")])]]

/-- The slots are for what is read of them, decided. -/
def recoverableTest (w : World Box) (key : Key) : Bool :=
  w.vault.slots.rows.all fun s =>
    match w.vault.rewrapOf boxEngine key s with
    | .ok (some r) => s.lookupTag = Vault.lookupTag boxEngine key r.partition
    | .ok none | .error _ => false

/-- What passes the test can be recovered. -/
theorem recoverable_of_test {w : World Box} (hs : SealedUnder boxEngine key w.vault)
    (h : recoverableTest w key = true) : Recoverable boxEngine key w.vault := by
  refine (recoverable_iff authenticated_boxEngine hs).mpr fun s hmem => ?_
  have htest := List.all_eq_true.mp h s hmem
  split at htest
  · rename_i r hr
    exact ⟨r, hr, of_decide_eq_true htest⟩
  · cases htest
  · cases htest

/-- What captures, settings and accesses file is found again. -/
theorem records_are_found_again :
    ∃ slots legacy w', (VaultCall.body boxEngine ⟨keyOf 0, .rotateKey (keyOf 1)⟩).exec
        (built boxEngine (keyOf 0) exampleRecords) = (.ok (.rotated slots legacy), w') ∧
      Kept boxEngine (keyOf 0) (keyOf 1) (built boxEngine (keyOf 0) exampleRecords).vault
        w'.vault := by
  have hbuilds : ∀ o ∈ exampleRecords, o.builds = true := by decide
  have hfresh : boxEngine.FreshNonces (built boxEngine (keyOf 0) exampleRecords).draws
      (built boxEngine (keyOf 0) exampleRecords).vault.slots.rows.length := by
    have hdraws : (built boxEngine (keyOf 0) exampleRecords).draws = 3 := by decide +kernel
    have hslots : (built boxEngine (keyOf 0) exampleRecords).vault.slots.rows.length = 3 := by
      decide +kernel
    rw [hdraws, hslots]
    constructor <;> decide +kernel
  refine (rotation_keeps_partitions_iff authenticated_boxEngine collisionless_boxEngine (keyOf 0)
    (keyOf 1) exampleRecords hbuilds hfresh).mpr ?_
  exact recoverable_of_test (laid_built authenticated_boxEngine (keyOf 0) hbuilds).underKey
    (by decide +kernel)

end Atmem.Evidence
