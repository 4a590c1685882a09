import Atmem.Control.Properties.Chain
/-!
# A producer's event is taken once

What was delivered is known by the row it left, and pruning deletes rows. An
event whose row is gone is taken for a new one. As long as no such event is
delivered again, every position of a stream and every event of a migration
has one entry in its chain, and what is delivered again is known.
-/

namespace Atmem.Control

open History Relational Transactional

variable {E : Engine} {w : ControlWorld} {d d' : Delivery}
variable {made : List (ControlCall × Except ControlError ControlAnswer)}

/-! ## Events -/

/-- One position of a stream, or one event of a migration. -/
def SameEvent (d d' : Delivery) : Prop :=
  d.migrationId = d'.migrationId ∧ (d.position = d'.position ∨ d.eventId = d'.eventId)

/-- Being the same event is symmetric. -/
theorem SameEvent.symm (h : SameEvent d d') : SameEvent d' d :=
  ⟨h.1.symm, h.2.imp Eq.symm Eq.symm⟩

/-- The delivery a call made, where it was accepted, and its answer. -/
def accepted : ControlCall × Except ControlError ControlAnswer → Option (Delivery × DeliveryAnswer)
  | (.accept d, .ok (.delivered answer)) =>
    if answer.decision = .accepted then some (d, answer) else none
  | _ => none

/-- The deliveries accepted so far. -/
def taken (made : List (ControlCall × Except ControlError ControlAnswer)) :
    List (Delivery × DeliveryAnswer) :=
  made.filterMap accepted

/-- The row a delivery left is there. -/
def Known (w : ControlWorld) (d : Delivery) : Prop :=
  ∃ r ∈ w.store.deliveries.rows, r.position = d.position ∧ r.eventId = d.eventId

/-- No event is delivered again whose row is gone, and the chain of the
deliveries is extended by deliveries. -/
def KeepsKnown (made : List (ControlCall × Except ControlError ControlAnswer)) (w : ControlWorld) :
    ControlCall → Prop
  | .accept d => ∀ p ∈ taken made, SameEvent p.1 d → Known w p.1
  | .append _ kind _ => kind ≠ "agent_blackbox"
  | .migrate _ | .prune _ _ => True

instance decidableSameEvent (d d' : Delivery) : Decidable (SameEvent d d') :=
  inferInstanceAs (Decidable (_ ∧ _))

instance decidableKnown (w : ControlWorld) (d : Delivery) : Decidable (Known w d) :=
  inferInstanceAs (Decidable (∃ r ∈ w.store.deliveries.rows, _ ∧ _))

instance decidableKeepsKnown (made : List (ControlCall × Except ControlError ControlAnswer))
    (w : ControlWorld) : ∀ call, Decidable (KeepsKnown made w call)
  | .accept d => inferInstanceAs (Decidable (∀ p ∈ taken made, SameEvent p.1 d → Known w p.1))
  | .append _ kind _ => inferInstanceAs (Decidable (kind ≠ "agent_blackbox"))
  | .migrate _ | .prune _ _ => isTrue trivial

/-- It is of the delivery's position or event. -/
theorem existing_eq_some {r : DeliveryRow} (h : w.store.existing d = some r) :
    r ∈ w.store.deliveries.rows ∧ r.migrationId = d.migrationId ∧
      (r.position = d.position ∨ r.eventId = d.eventId) := by
  unfold ControlStore.existing at h
  have hmem := List.mem_of_head? h
  rw [List.mem_insertionSort, List.mem_filter, decide_eq_true_eq] at hmem
  exact ⟨hmem.1, hmem.2.1, hmem.2.2⟩

/-- There is none where no row is. -/
theorem existing_eq_none (h : w.store.existing d = none) {r : DeliveryRow}
    (hr : r ∈ w.store.deliveries.rows) (hm : r.migrationId = d.migrationId) :
    ¬ (r.position = d.position ∨ r.eventId = d.eventId) := by
  intro hsame
  unfold ControlStore.existing at h
  rw [List.head?_eq_none_iff] at h
  have hmem : r ∈ (w.store.deliveries.rows.filter fun r => r.migrationId = d.migrationId ∧
      (r.position = d.position ∨ r.eventId = d.eventId)).insertionSort
        (·.producerSequence ≤ ·.producerSequence) := by
    rw [List.mem_insertionSort, List.mem_filter, decide_eq_true_eq]
    exact ⟨hr, hm, hsame⟩
  rw [h] at hmem
  exact List.not_mem_nil hmem

theorem migrationId_of_position {r : DeliveryRow} (h : r.position = d.position) :
    r.migrationId = d.migrationId :=
  congrArg Position.migrationId h

/-- The entries of the deliveries of a migration. -/
abbrev entriesOf (w : ControlWorld) (migrationId : String) : List EvidenceRow :=
  w.store.rowsOf migrationId "agent_blackbox"

/-- What is kept of the deliveries, as long as none comes again whose row is
gone. -/
structure Settled (E : Engine) (made : List (ControlCall × Except ControlError ControlAnswer))
    (w : ControlWorld) : Prop where
  /-- A row is of a delivery that was accepted. -/
  rows : ∀ r ∈ w.store.deliveries.rows, ∃ p ∈ taken made,
    r.position = p.1.position ∧ r.eventId = p.1.eventId
  /-- A row that is there beside an accepted delivery's position has its body. -/
  bodies : ∀ r ∈ w.store.deliveries.rows, ∀ p ∈ taken made, r.position = p.1.position →
    r.bodySha256 = p.1.bodySha256 E.hashing
  /-- What was answered is of an event that was accepted. -/
  answered : ∀ d answer, (ControlCall.accept d, Except.ok (ControlAnswer.delivered answer)) ∈ made →
    ∃ p ∈ taken made, SameEvent p.1 d
  once : (taken made).Pairwise fun p q => ¬ SameEvent p.1 q.1
  entries : ∀ migrationId, (entriesOf w migrationId).map (·.id) =
    ((taken made).filter fun p => p.1.migrationId = migrationId).map (·.2.evidenceId)

/-- Nothing is taken at the start. -/
theorem Settled.start (h : w.store.evidence.rows = [] ∧ w.store.deliveries.rows = []) :
    Settled E [] w where
  rows r hr := absurd (h.2 ▸ hr) List.not_mem_nil
  bodies r hr := absurd (h.2 ▸ hr) List.not_mem_nil
  answered d answer hmade := absurd hmade List.not_mem_nil
  once := .nil
  entries migrationId := by
    rw [entriesOf, ControlStore.rowsOf, h.1]
    rfl

/-- SHA-256 of the first entry of a chain of deliveries, with this body. -/
def firstDigest : String := "318379704bc5037f0cae841d2c360821964afe781916a219f436a735f165e9f3"

/-- And of the second, with the same body. -/
def secondDigest : String := "6b5f01413f86ff3777a5e15e97d5603ccdd1470c29d7e1a5db2212351674f2f4"

/-- The text of the first entry. -/
def firstText : String :=
  (entryPreimage zeroSha256 "mig_1" "agent_blackbox" 1 bodyDigest).canonicalJson

/-- The text of the one after it. -/
def secondText : String :=
  (entryPreimage firstDigest "mig_1" "agent_blackbox" 2 bodyDigest).canonicalJson

/-- SHA-256, of these texts, and an identifier for each draw. -/
def deliveryEngine : Engine where
  hashing.digest _ := ""
  hashing.sha256Hex text := if text = bodyText then bodyDigest else
    if text = firstText then firstDigest else if text = secondText then secondDigest else text
  uuid n := String.ofList (List.replicate n '0')
  str _ := ""
  floatLt _ _ := false

/-- The first event of a producer. -/
def firstEvent : Delivery := ⟨"mig_1", reportBody, "producer_1", "epoch_1", 1, "event_1"⟩

/-- An empty database, and a clock that counts its readings. -/
def deliveredWorld : ControlWorld := { clock := fun n => n }

end Atmem.Control
