import Atmem.Control.Properties.Delivery
/-!
# A delivery that is answered

An event that is known is answered whatever it carries. One that is not is
accepted where its migration is there and the gap that it reports, if it
reports one, can be made and stored.
-/

namespace Atmem.Control

open Relational Transactional

variable {E : Engine} {w : ControlWorld} {d : Delivery}

/-- The identifiers drawn for a delivery are of no row that is there. -/
structure FreshIds (E : Engine) (w : ControlWorld) : Prop where
  evidence : ∀ r ∈ w.store.evidence.rows, r.id ≠ "ev_" ++ E.uuid w.draws
  deliveries : ∀ r ∈ w.store.deliveries.rows, r.id ≠ "delivery_" ++ E.uuid (w.draws + 1)

/-- The row of an event that is not known clashes with none. -/
theorem exists_insert_row (hnone : w.store.existing d = none) (hfresh : FreshIds E w) :
    ∃ deliveries, w.store.deliveries.insert (deliveryRow E w d) = some deliveries := by
  obtain ⟨deliveries, hinsert, -⟩ := Table.insert_of_fresh (t := w.store.deliveries)
    (r := deliveryRow E w d) fun r hr => by
      have hid : r.id ≠ (deliveryRow E w d).id := hfresh.deliveries r hr
      have hposition : r.position ≠ (deliveryRow E w d).position := fun heq =>
        existing_eq_none hnone hr (migrationId_of_position (d := d) heq) (Or.inl heq)
      have hevent : ¬ (r.position.migrationId = (deliveryRow E w d).position.migrationId ∧
          r.eventId = (deliveryRow E w d).eventId) := fun heq =>
        existing_eq_none hnone hr heq.1 (Or.inr heq.2)
      unfold deliveryClash
      refine Bool.or_eq_false_iff.mpr ⟨Bool.or_eq_false_iff.mpr
        ⟨decide_eq_false hid, decide_eq_false hposition⟩, Bool.eq_false_iff.mpr fun hboth => ?_⟩
      obtain ⟨hm, he⟩ := (Bool.and_eq_true _ _).mp hboth
      exact hevent ⟨of_decide_eq_true hm, of_decide_eq_true he⟩
  exact ⟨deliveries, hinsert⟩

/-- The fields of the gap that a delivery reports. -/
def reportedGap (E : Engine) (d : Delivery) (payload : List (String × Json)) : CoverageGap :=
  { reason := E.text (orElse ((payload.lookup "reason").getD .null) (.str "capture_gap"))
    producerInstanceId := d.producerInstanceId, producerEpoch := d.producerEpoch
    firstSequence := (payload.lookup "first_sequence").getD .null
    lastSequence := (payload.lookup "last_sequence").getD .null
    detail := none }

/-- The gap a delivery reports, if it reports one, can be made and stored. -/
def Reportable (E : Engine) (d : Delivery) : Prop :=
  d.body.lookup "event_type" = some (.str "capture.gap") →
    ∃ payload gap, orElse ((d.body.lookup "payload").getD .null) (.obj []) = .obj payload ∧
      CoverageGap.make E (reportedGap E d payload) (orElse
        ((payload.lookup "error_reason").getD .null) ((payload.lookup "reason").getD .null)) =
          .ok gap ∧
      ∀ p ∈ gap.parameters d.migrationId, bindable E p = .ok ()

/-- A gap is stored exactly if the database takes its values. -/
theorem exec_insertExecutionGap_iff {migrationId eventId : String} {gap : CoverageGap} :
    (exec (insertExecutionGap E migrationId eventId gap) w).1 = .ok () ↔
      ∀ p ∈ gap.parameters migrationId, bindable E p = .ok () := by
  unfold insertExecutionGap
  rw [utcNow, exec_bind_ok (exec_readOff _ _)]
  by_cases hbound : ∀ p ∈ gap.parameters migrationId, bindable E p = .ok ()
  · rw [exec_bind_ok (exec_bindAll_ok hbound)]
    exact iff_of_true rfl hbound
  · obtain ⟨e, herror⟩ := exec_bindAll_error (w := { w with ticks := w.ticks + 1 }) hbound
    rw [exec_bind_error herror]
    exact iff_of_false (fun h => by cases h) hbound

/-- **Whether a gap is reported** depends on the delivery alone. -/
theorem exec_reportGap_iff : (exec (reportGap E d) w).1 = .ok () ↔ Reportable E d := by
  unfold reportGap Reportable
  by_cases htype : d.body.lookup "event_type" = some (.str "capture.gap")
  · rw [if_pos htype]
    simp only [htype, forall_const]
    rcases hpayload : orElse ((d.body.lookup "payload").getD .null) (.obj []) with
      - | b | n | f | s | xs | kvs
    all_goals try simp [exec_throw]
    -- the payload is an object
    have hmake : ∀ x : Except ControlError CoverageGap,
        (exec (liftCtl x >>= fun gap => insertExecutionGap E d.migrationId d.eventId gap) w).1 =
            .ok () ↔
          ∃ gap, x = .ok gap ∧ ∀ p ∈ gap.parameters d.migrationId, bindable E p = .ok () := by
      intro x
      rw [exec_bind, exec_liftCtl]
      rcases x with e | gap
      · simp
      · simp [exec_insertExecutionGap_iff]
    exact hmake _
  · rw [if_neg htype]
    simp [htype]

/-- The names a delivery's row keeps of its body can be bound. -/
def NamesBound (E : Engine) (d : Delivery) : Prop :=
  ∀ name ∈ ["subject_id", "execution_id", "run_id"],
    bindable E ((d.body.lookup name).getD .null) = .ok ()

/-- **A new delivery is accepted** where its migration is there, its names can
be bound and its gap, if it reports one, can be reported. -/
theorem exec_acceptNew_iff (hfresh : FreshIds E w) (hnone : w.store.existing d = none)
    (hpos : 0 < d.producerSequence) :
    (∃ answer, (exec (acceptNew E d) w).1 = .ok answer) ↔
      d.migrationId ∈ w.store.migrations ∧ NamesBound E d ∧ Reportable E d := by
  obtain ⟨evidence, hevidence⟩ : ∃ evidence,
      w.store.evidence.insert (deliveryEntry E w d) = some evidence :=
    exists_insert_nextEntry _ _ _ _ _ _ _ hfresh.evidence
  obtain ⟨deliveries, hdeliveries⟩ := exists_insert_row hnone hfresh
  unfold acceptNew
  simp only [exec_bind, exec_drawId, utcNow, exec_readOff, exec_get]
  by_cases hmigration : d.migrationId ∈ w.store.migrations
  · -- the migration is there: the entry is chained
    have hentry : exec (insertEvidence (deliveryEntry E w d)) { w with
        draws := w.draws + 1, ticks := w.ticks + 1 } = (.ok (), { w with
        draws := w.draws + 1, ticks := w.ticks + 1, store := { w.store with evidence } }) :=
      exec_insertEvidence_eq_ok.mpr ⟨hmigration, evidence, hevidence, rfl⟩
    unfold deliveryEntry at hentry
    rw [hentry]
    dsimp only
    have hnames : NamesBound E d ↔ ∀ p ∈ [(deliveryRow E w d).subjectId,
        (deliveryRow E w d).executionId, (deliveryRow E w d).runId], bindable E p = .ok () := by
      simp [NamesBound, deliveryRow]
    by_cases hbound : NamesBound E d
    swap
    · have hrefused : ∀ r w', exec (insertDelivery E (deliveryRow E w d)) { w with
          draws := w.draws + 1 + 1, ticks := w.ticks + 1, store := { w.store with evidence } } =
            (r, w') → ∃ e, r = .error e := by
        rintro (e | ⟨⟩) w' hexec
        · exact ⟨e, rfl⟩
        · exact absurd (hnames.mpr (exec_insertDelivery_eq_ok.mp hexec).1) hbound
      unfold deliveryRow at hrefused
      rcases hexec : exec (insertDelivery E _) _ with ⟨r, w'⟩
      obtain ⟨e, rfl⟩ := hrefused _ _ hexec
      simp [hbound]
    have hrow : exec (insertDelivery E (deliveryRow E w d)) { w with
        draws := w.draws + 1 + 1, ticks := w.ticks + 1, store := { w.store with evidence } } =
      (.ok (), { w with
        draws := w.draws + 1 + 1, ticks := w.ticks + 1
        store := { w.store with evidence, deliveries } }) :=
      exec_insertDelivery_eq_ok.mpr ⟨hnames.mp hbound, hpos, deliveries, hdeliveries, rfl⟩
    unfold deliveryRow at hrow
    rw [hrow]
    dsimp only
    rw [← exec_reportGap_iff (E := E) (d := d) (w := { w with
      draws := w.draws + 1 + 1, ticks := w.ticks + 1
      store := { w.store with evidence, deliveries } })]
    rcases exec (reportGap E d) _ with ⟨e | ⟨⟩, w'⟩
    · simp
    · simp [hmigration, hbound]
  · -- no migration: the foreign key refuses the entry
    have hrefused : (exec (insertEvidence (deliveryEntry E w d)) { w with
        draws := w.draws + 1, ticks := w.ticks + 1 }) = (.error .integrityError, { w with
        draws := w.draws + 1, ticks := w.ticks + 1 }) := by
      unfold insertEvidence
      simp only [exec_bind, exec_get]
      have hnot : (deliveryEntry E w d).migrationId ∉ w.store.migrations := hmigration
      rw [if_pos hnot]
      rfl
    unfold deliveryEntry at hrefused
    rw [hrefused]
    simp [hmigration]

/-- There is a row of the delivery's position, or of its event. -/
def Delivered (w : ControlWorld) (d : Delivery) : Prop :=
  ∃ r ∈ w.store.deliveries.rows, r.migrationId = d.migrationId ∧
    (r.position = d.position ∨ r.eventId = d.eventId)

/-- An event is delivered again exactly if its row is there. -/
theorem existing_isSome_iff : (∃ r, w.store.existing d = some r) ↔ Delivered w d := by
  constructor
  · rintro ⟨r, hr⟩
    exact ⟨r, existing_eq_some hr⟩
  · rintro ⟨r, hr, hm, hsame⟩
    rcases he : w.store.existing d with - | existing
    · exact absurd hsame (existing_eq_none he hr hm)
    · exact ⟨existing, rfl⟩

/-- **What is answered**: an event that is known, or a new one that is
accepted. -/
theorem accept_answered_iff (hfresh : FreshIds E w) (hpos : 0 < d.producerSequence) :
    (∃ answer, ((ControlCall.accept d).body E w).1 = .ok (.delivered answer)) ↔
      d.Bound E ∧ (Delivered w d ∨
        (d.migrationId ∈ w.store.migrations ∧ NamesBound E d ∧ Reportable E d)) := by
  have hbody : (∃ answer, ((ControlCall.accept d).body E w).1 = .ok (.delivered answer)) ↔
      ∃ answer, (exec (acceptExecutionDelivery E d) w).1 = .ok answer := by
    rw [body_accept]
    rcases exec (acceptExecutionDelivery E d) w with ⟨e | answer, w'⟩ <;> simp
  rw [hbody]
  by_cases hbound : d.Bound E
  · simp only [hbound, true_and]
    rw [← existing_isSome_iff]
    rcases he : w.store.existing d with - | existing
    · have hnew : exec (acceptExecutionDelivery E d) w = exec (acceptNew E d) w := by
        unfold acceptExecutionDelivery
        rw [exec_bind_ok (exec_bindAll_ok hbound), exec_bind, exec_get]
        dsimp only
        rw [he]
      rw [hnew, exec_acceptNew_iff hfresh he hpos]
      simp
    · obtain ⟨answer, w', hexec, -⟩ := exec_accept_known (E := E) hbound he
      rw [hexec]
      simp
  · simp only [hbound, false_and, iff_false]
    rintro ⟨answer, hanswer⟩
    rcases hexec : exec (acceptExecutionDelivery E d) w with ⟨r, w'⟩
    rw [hexec] at hanswer
    obtain rfl : r = .ok answer := hanswer
    exact hbound (exec_accept_eq_ok hexec).1

end Atmem.Control
