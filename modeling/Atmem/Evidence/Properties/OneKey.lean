import Atmem.Evidence.Helpers.Sealed
/-!
# One key opens the vault

Connections hold the key they were opened with, and none is told of a
rotation. The vault stays under one key as long as nobody appends with
another, and nothing is added between the reading of a rotation and its
transaction; who reads before writing is refused by the vault itself.
-/

namespace Atmem.Evidence

open Interleaving Relational

variable {Cipher : Type} {E : Engine Cipher}

/-! ## What a run grants -/

/-- What is granted: who appends holds the latest key, and a rotation commits
on what it has read. -/
def Grants (k : VaultCall) : Point Cipher → World Cipher → Prop
  | .append, w => k.key = w.latest
  | .rotate first slots legacy, w => CommitsOn first slots legacy w.vault
  | .mode, _ | .scan, _ | .delete, _ | .slots, _ | .legacy, _ | .object, _ => True

/-- The vault is under the latest key. -/
def UnderLatest (E : Engine Cipher) (w : World Cipher) : Prop := SealedUnder E w.latest w.vault

/-- What an action does: the vault is under its key again, and who has not
had the latest has changed nothing. -/
def Guards (E : Engine Cipher) (k : VaultCall) (w w' : World Cipher) : Prop :=
  UnderLatest E w' ∧ (k.key = w.latest ∨ w'.vault = w.vault)

/-- A part of a call, and what it returns. -/
abbrev Part (E : Engine Cipher) (k : VaultCall) {α : Type} (Q : α → Prop) (x : Action Cipher α) :
    Prop :=
  x.Keeps (Grants k) (UnderLatest E) (Guards E k) Q

variable {k : VaultCall}

/-- Reading keeps the vault under one key. -/
theorem part_inspect {α : Type} {point : Point Cipher} {f : Vault Cipher → Except Raised α}
    {Q : α → Prop} (hQ : ∀ w : World Cipher, UnderLatest E w → ∀ a, f w.vault = .ok a → Q a) :
    Part E k Q (inspect point f) :=
  Eff.Keeps.action fun w hw => ⟨fun _ => ⟨hw, Or.inr rfl⟩, hQ w hw⟩

/-- So does a transaction that keeps it. -/
theorem part_transact {α : Type} {point : Point Cipher}
    {body : ℕ → Vault Cipher → Except Raised (α × Vault Cipher)}
    (hbody : ∀ w : World Cipher, UnderLatest E w → Grants k point w → ∀ a v',
      body w.draws w.vault = .ok (a, v') →
        SealedUnder E w.latest v' ∧ (k.key = w.latest ∨ v' = w.vault)) :
    Part E k (fun _ => True) (transact point body) := by
  refine Eff.Keeps.action fun w hw => ⟨fun hgrants => ?_, fun _ _ => trivial⟩
  rcases hrun : body w.draws w.vault with e | ⟨a, v'⟩
  · exact ⟨hw, Or.inr rfl⟩
  · exact hbody w hw hgrants a v' hrun

/-- An append keeps it. -/
theorem part_append (hE : E.Authenticated) (document : List (String × Json)) (partition : String) :
    Part E k (fun _ => True) (append E k.key document partition) := by
  refine part_transact fun w hw hgrants r v' hok => ?_
  have hkey : k.key = w.latest := hgrants
  rw [hkey] at hok
  exact ⟨SealedUnder.append hE hw hok, Or.inl hkey⟩

theorem part_accessEvent (hE : E.Authenticated) (value : List (String × Json)) :
    Part E k (fun _ => True) (accessEvent E k.key value) :=
  Eff.Keeps.bind (Q := fun _ => True) (Eff.Keeps.ofExcept fun _ _ => trivial) fun _ _ =>
    part_append hE _ _

theorem part_deleteRun (hE : E.Authenticated) (runId : String) :
    Part E k (fun _ => True) (deleteRun E k.key runId) :=
  part_transact fun _ hw _ _ _ hok => SealedUnder.deleteRun hE hw hok

theorem part_capture (hE : E.Authenticated) (envelope : Json) :
    Part E k (fun _ => True) (capture E k.key envelope) := by
  have htrue : ∀ {α : Type} {point : Point Cipher} {f : Vault Cipher → Except Raised α},
      Part E k (fun _ => True) (inspect point f) := part_inspect fun _ _ _ _ => trivial
  refine Eff.Keeps.bind htrue fun mode _ => ?_
  split
  · exact Eff.Keeps.pure trivial
  · refine Eff.Keeps.bind (Q := fun _ => True) ?_ fun replay _ => ?_
    · unfold lookForReplay
      split
      · exact htrue
      · exact Eff.Keeps.pure trivial
    · refine Eff.Keeps.bind (Q := fun _ => True) ?_ fun _ _ => Eff.Keeps.pure trivial
      rcases replay with - | replay
      · exact part_append hE _ _
      · exact Eff.Keeps.pure trivial

/-! ## Rotation -/

/-- What is found of the slots that were read. -/
def Found (E : Engine Cipher) (key : Key)
    (found : Option (Rewrap Cipher) × List (SlotRow Cipher)) : Prop :=
  ReadSlots E ((found.1.map (·.slot)).toList ++ found.2) ∧
    ∀ r, found.1 = some r → r.slot.Wraps E key r.dataKey

/-- Seeking a slot finds one under the key. -/
theorem part_seekSlot (hE : E.Authenticated) {slots : List (SlotRow Cipher)}
    (hread : ReadSlots E slots) : Part E k (Found E k.key) (seekSlot E k.key slots) := by
  induction slots with
  | nil => exact Eff.Keeps.pure ⟨hread, nofun⟩
  | cons slot slots ih =>
    refine Eff.Keeps.bind (Q := fun found => ∀ r, found = some r →
      r.slot = slot ∧ slot.Wraps E k.key r.dataKey) (part_inspect fun w _ found hfound => ?_)
      fun found hfound => ?_
    · exact (rewrapOf_eq_ok hE (hread.wraps slot List.mem_cons_self) hfound).2.1
    · rcases found with - | r
      · exact ih hread.of_cons
      · obtain ⟨rfl, hwraps⟩ := hfound r rfl
        exact Eff.Keeps.pure ⟨hread, fun r' hr' => by cases hr'; exact hwraps⟩

/-- The slots of a vault under one key, in the order of their names. -/
theorem readSlots_of_underLatest {w : World Cipher} (hw : UnderLatest E w) :
    ReadSlots E (w.vault.slots.rows.insertionSort fun a b => a.slotId ≤ b.slotId) := by
  refine ⟨?_, fun s hs => ?_⟩
  · refine ((List.perm_insertionSort _ _).map _).nodup_iff.mpr ?_
    refine List.pairwise_map.mpr (w.vault.slots.distinct.imp fun hclash hid => ?_)
    simp [slotClash, SlotRow.key, hid] at hclash
  · obtain ⟨d, hd⟩ := hw.slots s ((List.mem_insertionSort _).mp hs)
    exact ⟨w.latest, d, hd⟩

/-- A rotation brings it under the new key. -/
theorem part_rotateKey (hE : E.Authenticated) (newKey : Key) :
    Part E k (fun _ => True) (rotateKey E k.key newKey) := by
  refine Eff.Keeps.bind (Q := ReadSlots E) (part_inspect fun w hw slots hslots => ?_)
    fun slots hread => ?_
  · cases hslots
    exact readSlots_of_underLatest hw
  refine Eff.Keeps.bind (Q := fun legacy => ∀ o ∈ legacy, o.slotId = none)
    (part_inspect fun w _ legacy hlegacy => ?_) fun legacy hlegacy => ?_
  · cases hlegacy
    exact fun o ho => by simpa using (List.mem_filter.mp ho).2
  refine Eff.Keeps.bind (Q := fun _ => True) ?_ fun _ _ => Eff.Keeps.pure trivial
  refine Eff.Keeps.bind (part_seekSlot hE hread) fun found hfound => ?_
  refine Eff.Keeps.action fun w hw => ⟨fun hon => ?_, fun _ _ => trivial⟩
  rcases hrun : w.vault.rotate E k.key newKey w.draws found.1 found.2 legacy with e | v'
  · exact ⟨hw, Or.inr rfl⟩
  · exact SealedUnder.rotate hE hw hfound.1 hfound.2 hlegacy hon hrun

/-- **Every call keeps it.** -/
theorem part_body (hE : E.Authenticated) (k : VaultCall) :
    Part E k (fun _ => True) (k.body E) := by
  obtain ⟨key, operation⟩ := k
  cases operation with
  | append document partition =>
    exact Eff.Keeps.map (part_append hE document partition) fun _ _ => trivial
  | setCaptureMode mode actor => exact Eff.Keeps.map (part_append hE _ _) fun _ _ => trivial
  | accessEvent value => exact Eff.Keeps.map (part_accessEvent hE value) fun _ _ => trivial
  | capture envelope => exact Eff.Keeps.map (part_capture hE envelope) fun _ _ => trivial
  | deleteRun runId => exact Eff.Keeps.map (part_deleteRun hE runId) fun _ _ => trivial
  | rotateKey newKey => exact Eff.Keeps.map (part_rotateKey hE newKey) fun _ _ => trivial

/-! ## Every run -/

/-- Calls on a vault that interleave. -/
abbrev VaultConfig (Cipher : Type) : Type 1 :=
  Config VaultCall (Point Cipher) (World Cipher) (Except Raised Answer)

/-- Any calls by any connections, in any order of their actions, where what
actions ask for is granted. -/
abbrev VaultRuns (E : Engine Cipher) (w : World Cipher) (c : VaultConfig Cipher) : Prop :=
  Relation.ReflTransGen (GrantedStep (VaultCall.body E) (fun _ => True) Grants)
    (Config.initial w) c

/-- **The latest key opens everything.** -/
structure OneKey (E : Engine Cipher) (w : World Cipher) : Prop where
  slots : ∀ s ∈ w.vault.slots.rows, ∃ dataKey,
    unwrapDataKey E w.latest s.slotId s.wrapNonce s.wrappedKey = .ok dataKey
  documents : ∀ r ∈ w.vault.documents E w.latest, ∃ kvs, r = .ok (.obj kvs)

/-- Under the latest key, one key opens everything. -/
theorem UnderLatest.oneKey (hE : E.Authenticated) {w : World Cipher} (hw : UnderLatest E w) :
    OneKey E w := by
  refine ⟨fun s hs => ?_, SealedUnder.documents hE hw⟩
  obtain ⟨d, hd⟩ := hw.slots s hs
  have hwrapped : s.wrappedKey = wrapDataKey E w.latest s.slotId s.wrapNonce d := hd
  exact ⟨d, by rw [hwrapped, unwrapDataKey_wrapDataKey hE]⟩

variable {w : World Cipher} {c : VaultConfig Cipher}

/-- So in every run. -/
theorem keeping_of_vaultRuns (hE : E.Authenticated) (hw : UnderLatest E w)
    (hr : VaultRuns E w c) : Keeping Grants (UnderLatest E) (Guards E)
      (fun r : Except Raised Answer => ∀ a, r = .ok a → True) c :=
  Keeping.run (fun _ _ _ _ hP => hP.1) (fun k _ => part_body hE k) (keeping_initial hw) hr

/-- **One key opens the vault**, in every run that grants what actions ask
for; and what is done with another key leaves the vault as it was. -/
theorem one_key_opens_the_vault (hE : E.Authenticated) (hw : UnderLatest E w)
    (hr : VaultRuns E w c) : OneKey E c.time.now ∧
      ∀ (i : ℕ) (k : VaultCall) (log : List (Point Cipher)) (β : Type) (point : Point Cipher)
        (run : World Cipher → β × World Cipher)
        (next : β → Prog (Point Cipher) (World Cipher) (Except Raised Answer)),
        c.procs[i]? = some ⟨k, log, .act point run next⟩ → Grants k point c.time.now →
          k.key ≠ c.time.now.latest → (run c.time.now).2.vault = c.time.now.vault := by
  have hkeeping := keeping_of_vaultRuns hE hw hr
  refine ⟨hkeeping.1.oneKey hE, fun i k log β point run next hi hgrants hkey => ?_⟩
  rcases (hkeeping.act hi hgrants).2 with heq | hsame
  · exact absurd heq hkey
  · exact hsame

/-! ## Runs that do not -/

/-- What is encrypted, in a box that only its key opens. -/
structure Box where
  key : Key
  nonce : ByteArray
  plain : Plain
  aad : Json
deriving DecidableEq

/-- A key of one byte, over and over. -/
def keyOf (b : UInt8) : Key := ⟨⟨Array.replicate 32 b⟩, rfl⟩

/-- Boxes that are opened by what they were sealed with. -/
def boxEngine : Engine Box where
  encrypt key nonce plain aad := ⟨key, nonce, plain, aad⟩
  decrypt key nonce box aad :=
    if box.key = key ∧ box.nonce = nonce ∧ box.aad = aad then some box.plain else none
  hmac key text := key.bytes ++ text.toUTF8
  sha256Hex text := text
  uuid draw place := String.ofList (List.replicate (4 * draw + place) '0')
  nonce draw place := ⟨#[UInt8.ofNat draw, UInt8.ofNat place, 0, 0, 0, 0, 0, 0, 0, 0, 0, 0]⟩
  freshKey draw := keyOf (UInt8.ofNat (100 + draw))
  utcNow _ := "1970-01-01T00:00:00Z"
  str _ := ""

/-- The boxes are opened by what sealed them only. -/
theorem authenticated_boxEngine : boxEngine.Authenticated := by
  refine ⟨fun key nonce plain aad => if_pos ⟨rfl, rfl, rfl⟩, ?_⟩
  intro key key' nonce nonce' plain aad aad' hkey
  exact if_neg fun h => hkey h.1

/-- An empty vault, and its key. -/
def exampleWorld : World Box := { latest := keyOf 0 }

/-- The example starts with nothing sealed. -/
theorem underLatest_exampleWorld : UnderLatest boxEngine exampleWorld :=
  sealedUnder_of_nil rfl rfl

/-- A note is appended to a partition, under the first key. -/
def exampleAppend (partition : String) : VaultCall :=
  ⟨keyOf 0, .append [("record_type", .str "note")] partition⟩

/-- The first key is replaced by the second. -/
def exampleRotation : VaultCall := ⟨keyOf 0, .rotateKey (keyOf 1)⟩

/-- A partition is opened between the reading of a rotation and its
transaction. -/
def overtaken : List (Choice VaultCall) :=
  [.begin (exampleAppend "a"), .act 0, .begin exampleRotation, .act 1, .act 1, .act 1,
    .begin (exampleAppend "b"), .act 2, .act 1]

/-- A rotation with nobody in between. -/
def rotated : List (Choice VaultCall) :=
  [.begin (exampleAppend "a"), .act 0, .begin exampleRotation, .act 1, .act 1, .act 1, .act 1]

/-- A connection appends with the key it was opened with. -/
def superseded : List (Choice VaultCall) := [.begin (exampleAppend "a"), .act 2]

/-- The calls are stepped in an order that is chosen. -/
def playVault (choices : List (Choice VaultCall)) (c : VaultConfig Box) :
    Option (VaultConfig Box) :=
  Config.play (VaultCall.body boxEngine) (fun _ => true) (fun _ _ => true) choices c

/-- What is played is a run. -/
theorem reaches_of_playVault {choices : List (Choice VaultCall)} {c c' : VaultConfig Box}
    (h : playVault choices c = some c') :
    Reaches (VaultCall.body boxEngine) (fun _ => True) c c' :=
  (reaches_of_play h).lift id fun _ _ hs => hs.1.mono fun _ _ => trivial

/-- The documents that the latest key opens. -/
def readable (w : World Box) : List Bool :=
  (w.vault.documents boxEngine w.latest).map fun r => r matches .ok (.obj _)

/-- Everything can be read. -/
theorem OneKey.readable {w : World Box} (h : OneKey boxEngine w) :
    ∀ b ∈ readable w, b = true := by
  intro b hb
  obtain ⟨r, hr, rfl⟩ := List.mem_map.mp hb
  obtain ⟨kvs, rfl⟩ := h.documents r hr
  rfl

/-- **A rotation may leave a slot behind, and who holds a superseded key may
write.** -/
theorem a_rotation_is_overtaken :
    (¬ ∀ c, Reaches (VaultCall.body boxEngine) (fun _ => True) (Config.initial exampleWorld) c →
      OneKey boxEngine c.time.now) ∧
    ∃ c c', Reaches (VaultCall.body boxEngine) (fun _ => True) (Config.initial exampleWorld) c ∧
      Reaches (VaultCall.body boxEngine) (fun _ => True) c c' ∧
      (∀ p ∈ c'.procs, p.call.key ≠ c.time.now.latest) ∧
      c'.time.now.vault.objects.rows ≠ c.time.now.vault.objects.rows := by
  refine ⟨fun hall => ?_, ?_⟩
  · have hplay : (playVault overtaken (Config.initial exampleWorld)).map
        (fun c => readable c.time.now) = some [true, false] := by
      decide +kernel
    obtain ⟨c, hc, hfacts⟩ := Option.map_eq_some_iff.mp hplay
    have hall' := (hall c (reaches_of_playVault hc)).readable false
    rw [hfacts] at hall'
    exact absurd (hall' (by decide)) (by decide)
  · have hplay : ((playVault rotated (Config.initial exampleWorld)).bind fun c =>
        (playVault superseded c).map fun c' =>
          (c'.procs.all fun p => p.call.key ≠ c.time.now.latest) &&
            c'.time.now.vault.objects.rows ≠ c.time.now.vault.objects.rows) = some true := by
      decide +kernel
    obtain ⟨c, hc, hrest⟩ := Option.bind_eq_some_iff.mp hplay
    obtain ⟨c', hc', hfacts⟩ := Option.map_eq_some_iff.mp hrest
    rw [Bool.and_eq_true, List.all_eq_true] at hfacts
    exact ⟨c, c', reaches_of_playVault hc, reaches_of_playVault hc',
      fun p hp => of_decide_eq_true (hfacts.1 p hp), of_decide_eq_true hfacts.2⟩

/-- What is granted, decided. -/
def grantsTest (k : VaultCall) : Point Box → World Box → Bool
  | .append, w => k.key = w.latest
  | .rotate first slots legacy, w =>
    w.vault.slots.rows.all (· ∈ (first.map (·.slot)).toList ++ slots) &&
      w.vault.objects.rows.all fun o =>
        !(o.slotId = none || o.objectId ∈ legacy.map (·.objectId)) || o ∈ legacy
  | _, _ => true

/-- What passes the test is granted. -/
theorem grants_of_grantsTest {k : VaultCall} {point : Point Box} {w : World Box}
    (h : grantsTest k point w = true) : Grants k point w := by
  cases point with
  | append =>
    have hkey : k.key = w.latest := of_decide_eq_true h
    exact hkey
  | rotate first slots legacy =>
    obtain ⟨hslots, hobjects⟩ := (Bool.and_eq_true _ _).mp h
    rw [List.all_eq_true] at hslots hobjects
    refine ⟨fun s hs => of_decide_eq_true (hslots s hs), fun o ho hold => ?_⟩
    have hin := hobjects o ho
    rcases hold with hold | hold <;> simpa [hold] using hin
  | mode | scan | delete | slots | legacy | object => trivial

/-- The law, where the vault is rotated and appended to with the new key. -/
theorem one_key_after_rotation : ∃ c, VaultRuns boxEngine exampleWorld c ∧
    readable c.time.now = [true, true] ∧ OneKey boxEngine c.time.now := by
  have hplay : (Config.playGranted (VaultCall.body boxEngine) (fun _ => true) grantsTest
      (rotated ++ [.begin ⟨keyOf 1, .append [] "b"⟩, .act 2]) (Config.initial exampleWorld)).map
        (fun c => readable c.time.now) = some [true, true] := by
    decide +kernel
  obtain ⟨c, hc, hfacts⟩ := Option.map_eq_some_iff.mp hplay
  have hr : VaultRuns boxEngine exampleWorld c := (granted_of_play hc).lift id fun _ _ hs =>
    hs.mono (fun _ _ _ h => grants_of_grantsTest h) fun _ _ => trivial
  exact ⟨c, hr, hfacts,
    (one_key_opens_the_vault authenticated_boxEngine underLatest_exampleWorld hr).1⟩

end Atmem.Evidence
