import Atmem.Delegated.Helpers.Authority
/-!
# Where a turn can be accepted and closed

What the statements of a call answer when nobody holds the store: an
envelope is accepted where the turn is its own or is free, and a failure is
recorded where the turn is not closed in another way.
-/

namespace Atmem.Delegated

open Interleaving Relational Transactional

variable {E : Engine} {w w' : DelegatedWorld} {k : PrepareCall} {α β : Type}

/-! ## What is drawn -/

/-- What is drawn from here on is of no row that is there. -/
structure FreshDraws (E : Engine) (w : DelegatedWorld) : Prop where
  evidence : ∀ n, w.control.draws ≤ n → ∀ r ∈ w.control.store.evidence.rows,
    r.id ≠ "ev_" ++ E.uuid n
  acceptances : ∀ n, w.control.draws ≤ n → ∀ a ∈ w.acceptances.rows, a.id ≠ "dca_" ++ E.uuid n
  reservations : ∀ n, w.control.draws ≤ n → ∀ r ∈ w.reservations.rows, r.id ≠ "dtr_" ++ E.uuid n

/-- Nothing but draws and readings of the clock lies between. -/
structure Drawn (w w' : DelegatedWorld) : Prop where
  store : w'.control.store = w.control.store
  acceptances : w'.acceptances = w.acceptances
  reservations : w'.reservations = w.reservations
  draws : w.control.draws ≤ w'.control.draws

theorem Drawn.refl (w : DelegatedWorld) : Drawn w w := ⟨rfl, rfl, rfl, Nat.le_refl _⟩

/-- Identifiers that were not drawn stay fresh. -/
theorem FreshDraws.drawn (hf : FreshDraws E w) (h : Drawn w w') : FreshDraws E w' := by
  constructor
  · rw [h.store]
    exact fun n hn => hf.evidence n (h.draws.trans hn)
  · rw [h.acceptances]
    exact fun n hn => hf.acceptances n (h.draws.trans hn)
  · rw [h.reservations]
    exact fun n hn => hf.reservations n (h.draws.trans hn)

/-- A draw, and a reading of the clock. -/
def DelegatedWorld.drawn (w : DelegatedWorld) (draws ticks : ℕ) : DelegatedWorld :=
  { w with control := { w.control with
      draws := w.control.draws + draws, ticks := w.control.ticks + ticks } }

/-- Drawing and reading the clock change nothing else. -/
theorem drawn_drawn (w : DelegatedWorld) (draws ticks : ℕ) : Drawn w (w.drawn draws ticks) :=
  ⟨rfl, rfl, rfl, Nat.le_add_right _ _⟩

@[simp] theorem exec_control_drawId (label : String) (w : DelegatedWorld) :
    exec (control E (Control.drawId E.toEngine label)) w =
      (.ok (label ++ E.uuid w.control.draws), w.drawn 1 0) := rfl

@[simp] theorem exec_control_utcNow (w : DelegatedWorld) :
    exec (control E Control.utcNow) w = (.ok (w.control.clock w.control.ticks), w.drawn 0 1) := rfl

/-- Each text has its UTF-8. -/
def Encode (E : Engine) (given : List String) : Prop := ∀ text ∈ given, E.encodes text = true

/-- Texts that encode are bound. -/
theorem exec_bindTexts_ok {given : List String} (h : Encode E given) :
    exec (bindTexts E given) w = (.ok (), w) := by
  rw [exec_bindTexts, if_pos (List.all_eq_true.mpr h)]

/-- A text that does not raises. -/
theorem exec_bindTexts_error {given : List String} (h : ¬ Encode E given) :
    exec (bindTexts E given) w = (.error (E.raised "UnicodeEncodeError" .null), w) := by
  rw [exec_bindTexts, if_neg fun hall => h (List.all_eq_true.mp hall)]

/-- A row whose texts can be bound, and whose migration is there. -/
theorem exec_requireMigration_ok {migrationId : String} {given : List String}
    (hgiven : Encode E (migrationId :: given)) (hm : migrationId ∈ w.control.store.migrations) :
    exec (requireMigration E migrationId given) w = (.ok (), w) := by
  unfold requireMigration
  rw [exec_bind_ok (exec_bindTexts_ok hgiven), exec_bind, exec_get]
  simp [hm]

/-- A row that is refused. -/
theorem exec_requireMigration_error {migrationId : String} (given : List String)
    (h : ¬ (Encode E (migrationId :: given) ∧ migrationId ∈ w.control.store.migrations)) :
    ∃ e, exec (requireMigration E migrationId given) w = (.error e, w) := by
  unfold requireMigration
  by_cases hgiven : Encode E (migrationId :: given)
  · rw [exec_bind_ok (exec_bindTexts_ok hgiven), exec_bind, exec_get]
    have hm : migrationId ∉ w.control.store.migrations := fun hm => h ⟨hgiven, hm⟩
    exact ⟨E.integrityError, by simp [hm]⟩
  · exact ⟨_, exec_bind_error (exec_bindTexts_error hgiven)⟩

/-! ## Acceptances -/

/-- The envelope can be accepted for the turn, whose texts can be bound: it
was, or the turn is free, and so are its nonce and its key. -/
inductive Acceptable (E : Engine) (w : DelegatedWorld) (turn : Turn)
    (result : VerifiedDelegatedResult) : Prop
  | again (encodes : Encode E turn.texts) (a : AcceptanceRow) (mem : a ∈ w.acceptances.rows)
      (own : a.turn = turn) (same : a.envelopeSha256 = result.envelopeSha256)
  | free (encodes : Encode E turn.texts) (migration : turn.migrationId ∈ w.control.store.migrations)
      (accepted : ∀ a ∈ w.acceptances.rows, a.turn ≠ turn)
      (closed : ∀ r ∈ w.reservations.rows, r.turn ≠ turn)
      (unused : ∀ a ∈ w.acceptances.rows,
        a.providerInstance = (result.providerId, result.providerInstanceId) →
          a.nonceSha256 ≠ E.hashing.sha256Hex result.nonce ∧
            a.idempotencyKey ≠ result.idempotencyKey)

/-- No acceptance is of the turn. -/
theorem lookupAcceptance_eq_none {turn : Turn} :
    lookupAcceptance w turn = none ↔ ∀ a ∈ w.acceptances.rows, a.turn ≠ turn := by
  unfold lookupAcceptance
  simp [List.find?_eq_none]

/-- No reservation is of the turn. -/
theorem lookupReservation_eq_none {turn : Turn} :
    lookupReservation w turn = none ↔ ∀ r ∈ w.reservations.rows, r.turn ≠ turn := by
  unfold lookupReservation
  simp [List.find?_eq_none]

/-- The reservation is of the turn. -/
theorem lookupReservation_eq_some {turn : Turn} {r : ReservationRow}
    (h : lookupReservation w turn = some r) : r ∈ w.reservations.rows ∧ r.turn = turn := by
  unfold lookupReservation at h
  exact ⟨List.mem_of_find?_eq_some h, by simpa using List.find?_some h⟩

/-- An acceptance that clashes with none. -/
theorem exec_insertAcceptance {row : AcceptanceRow} {given : List String}
    (hturn : Encode E row.turn.texts) (hgiven : Encode E given)
    (hm : row.turn.migrationId ∈ w.control.store.migrations)
    (hfree : ∀ a ∈ w.acceptances.rows, acceptanceClash a.key row.key = false) :
    ∃ acceptances, exec (insertAcceptance E row given) w = (.ok (), { w with acceptances }) := by
  obtain ⟨acceptances, hinsert, -⟩ := Table.insert_of_fresh hfree
  have hbound : Encode E (row.turn.migrationId :: (row.turn.texts ++ given)) :=
    List.forall_mem_cons.mpr ⟨hturn _ List.mem_cons_self, List.forall_mem_append.mpr ⟨hturn, hgiven⟩⟩
  refine ⟨acceptances, ?_⟩
  unfold insertAcceptance
  simp only [exec_bind, exec_requireMigration_ok hbound hm, exec_get, hinsert, exec_modify]

/-- A reservation that clashes with none. -/
theorem exec_insertReservation {row : ReservationRow} (hturn : Encode E row.turn.texts)
    (hm : row.turn.migrationId ∈ w.control.store.migrations)
    (hfree : ∀ r ∈ w.reservations.rows, reservationClash r.key row.key = false) :
    ∃ reservations, exec (insertReservation E row) w = (.ok (), { w with reservations }) := by
  obtain ⟨reservations, hinsert, -⟩ := Table.insert_of_fresh hfree
  have hbound : Encode E (row.turn.migrationId :: row.turn.texts) :=
    List.forall_mem_cons.mpr ⟨hturn _ List.mem_cons_self, hturn⟩
  refine ⟨reservations, ?_⟩
  unfold insertReservation
  simp only [exec_bind, exec_requireMigration_ok hbound hm, exec_get, hinsert, exec_modify]

/-- The reservation of a turn that is free. -/
theorem reservation_free (row : ReservationRow) {n : ℕ} (hf : FreshDraws E w)
    (hn : w.control.draws ≤ n) (hid : row.id = "dtr_" ++ E.uuid n)
    (hclosed : ∀ r ∈ w.reservations.rows, r.turn ≠ row.turn) :
    ∀ r ∈ w.reservations.rows, reservationClash r.key row.key = false := by
  intro r hr
  refine Bool.or_eq_false_iff.mpr ⟨decide_eq_false ?_, decide_eq_false (hclosed r hr)⟩
  intro heq
  exact hf.reservations n hn r hr (heq.trans hid)

/-- **A free turn is taken.** -/
theorem exec_acceptNew_of_free {migrationId : String} {result : VerifiedDelegatedResult}
    (hf : FreshDraws E w) (hturn : Encode E (Turn.texts ⟨migrationId, result.binding⟩))
    (hgiven : Encode E result.given) (hm : migrationId ∈ w.control.store.migrations)
    (haccepted : ∀ a ∈ w.acceptances.rows, a.turn ≠ ⟨migrationId, result.binding⟩)
    (hclosed : ∀ r ∈ w.reservations.rows, r.turn ≠ ⟨migrationId, result.binding⟩)
    (hunused : ∀ a ∈ w.acceptances.rows,
      a.providerInstance = (result.providerId, result.providerInstanceId) →
        a.nonceSha256 ≠ E.hashing.sha256Hex result.nonce ∧
          a.idempotencyKey ≠ result.idempotencyKey) :
    ∃ acceptance w', exec (acceptNew E migrationId result) w = (.ok acceptance, w') := by
  have hinstance : ∀ a : AcceptanceRow, a.providerInstance =
      (result.providerId, result.providerInstanceId) ↔
        a.providerId = result.providerId ∧ a.providerInstanceId = result.providerInstanceId :=
    fun a => Prod.ext_iff
  -- neither the nonce nor the key was used by this instance
  have hnonce : ¬ (w.acceptances.rows.any fun r =>
      decide ((r.providerId = result.providerId ∧
        r.providerInstanceId = result.providerInstanceId) ∧
          r.nonceSha256 = E.hashing.sha256Hex result.nonce)) = true := by
    rw [List.any_eq_true]
    rintro ⟨a, ha, hused⟩
    obtain ⟨hi, hn⟩ := of_decide_eq_true hused
    exact (hunused a ha ((hinstance a).mpr hi)).1 hn
  have hkey : ¬ (w.acceptances.rows.any fun r =>
      decide ((r.providerId = result.providerId ∧
        r.providerInstanceId = result.providerInstanceId) ∧
          r.idempotencyKey = result.idempotencyKey)) = true := by
    rw [List.any_eq_true]
    rintro ⟨a, ha, hused⟩
    obtain ⟨hi, hn⟩ := of_decide_eq_true hused
    exact (hunused a ha ((hinstance a).mpr hi)).2 hn
  have hlooked :
      Encode E [result.providerId, result.providerInstanceId, result.idempotencyKey] :=
    fun text htext => hgiven text (by
      simp only [VerifiedDelegatedResult.given, List.mem_cons] at htext ⊢
      tauto)
  unfold acceptNew
  rw [exec_bind_ok (exec_bindTexts_ok hlooked), exec_bind, exec_get]
  dsimp only
  rw [if_neg hnonce, if_neg hkey]
  simp only [exec_bind, exec_control_drawId, exec_control_utcNow]
  -- no row is in the way of the new one
  have hfree : ∀ a ∈ ((w.drawn 1 0).drawn 0 1).acceptances.rows, acceptanceClash a.key
      (acceptanceRow E migrationId ("dca_" ++ E.uuid w.control.draws)
        ((w.drawn 1 0).control.clock (w.drawn 1 0).control.ticks) result).key = false := by
    intro a ha
    have hn := hunused a ha
    refine Bool.or_eq_false_iff.mpr ⟨Bool.or_eq_false_iff.mpr ⟨Bool.or_eq_false_iff.mpr
      ⟨decide_eq_false (hf.acceptances _ (Nat.le_refl _) a ha),
        decide_eq_false (haccepted a ha)⟩, decide_eq_false fun heq => ?_⟩,
      decide_eq_false fun heq => ?_⟩
    · exact (hn (Prod.mk.inj heq).1).1 (Prod.mk.inj heq).2
    · exact (hn (Prod.mk.inj heq).1).2 (Prod.mk.inj heq).2
  obtain ⟨acceptances, hinsert⟩ := exec_insertAcceptance (E := E) (w := (w.drawn 1 0).drawn 0 1)
    hturn hgiven hm hfree
  rw [hinsert]
  dsimp only
  have hreservation := reservation_free (E := E) (w := w)
    ⟨"dtr_" ++ E.uuid (w.control.draws + 1), ⟨migrationId, result.binding⟩, .accepted,
      some result.envelopeSha256, (w.drawn 1 0).control.clock (w.drawn 1 0).control.ticks⟩
    hf (Nat.le_succ _) rfl hclosed
  obtain ⟨reservations, hreserve⟩ := exec_insertReservation (E := E)
    (w := DelegatedWorld.drawn { (w.drawn 1 0).drawn 0 1 with acceptances } 1 0) hturn hm
    hreservation
  erw [hreserve]
  exact ⟨_, _, rfl⟩

/-- A free turn is not taken where its nonce or its key was used, or its
migration is not there. -/
theorem exec_acceptNew_of_not_free {migrationId : String} {result : VerifiedDelegatedResult}
    (hnot : ¬ (migrationId ∈ w.control.store.migrations ∧ ∀ a ∈ w.acceptances.rows,
      a.providerInstance = (result.providerId, result.providerInstanceId) →
        a.nonceSha256 ≠ E.hashing.sha256Hex result.nonce ∧
          a.idempotencyKey ≠ result.idempotencyKey)) :
    ∃ e w', exec (acceptNew E migrationId result) w = (.error e, w') ∧
      w.control.draws ≤ w'.control.draws := by
  unfold acceptNew
  by_cases hlooked : Encode E [result.providerId, result.providerInstanceId, result.idempotencyKey]
  swap
  · exact ⟨_, w, exec_bind_error (exec_bindTexts_error hlooked), Nat.le_refl _⟩
  rw [exec_bind_ok (exec_bindTexts_ok hlooked), exec_bind, exec_get]
  dsimp only
  split
  · exact ⟨_, _, rfl, Nat.le_refl _⟩
  rename_i hnonce
  split
  · exact ⟨_, _, rfl, Nat.le_refl _⟩
  rename_i hkey
  -- neither was used, so it is the migration that is missing
  have hm : migrationId ∉ w.control.store.migrations := by
    refine fun hm => hnot ⟨hm, fun a ha hinstance => ⟨fun heq => hnonce ?_, fun heq => hkey ?_⟩⟩
    · exact List.any_eq_true.mpr ⟨a, ha, decide_eq_true ⟨Prod.ext_iff.mp hinstance, heq⟩⟩
    · exact List.any_eq_true.mpr ⟨a, ha, decide_eq_true ⟨Prod.ext_iff.mp hinstance, heq⟩⟩
  simp only [exec_bind, exec_control_drawId, exec_control_utcNow]
  have hrefused : ∀ row : AcceptanceRow, row.turn.migrationId = migrationId → ∃ e,
      exec (insertAcceptance E row result.given) ((w.drawn 1 0).drawn 0 1) =
        (.error e, (w.drawn 1 0).drawn 0 1) := by
    rintro row rfl
    obtain ⟨e, he⟩ := exec_requireMigration_error (E := E) (w := (w.drawn 1 0).drawn 0 1)
      (row.turn.texts ++ result.given) fun h => hm h.2
    exact ⟨e, exec_bind_error he⟩
  obtain ⟨e, he⟩ := hrefused (acceptanceRow E migrationId ("dca_" ++ E.uuid w.control.draws)
    ((w.drawn 1 0).control.clock (w.drawn 1 0).control.ticks) result) rfl
  rw [he]
  exact ⟨_, _, rfl, (drawn_drawn w 1 0).draws⟩

/-- **Whether an envelope is accepted.** -/
theorem exec_acceptDelegatedContext (migrationId : String) (result : VerifiedDelegatedResult)
    (hf : FreshDraws E w) (hgiven : Encode E result.given) :
    (Acceptable E w ⟨migrationId, result.binding⟩ result →
      ∃ acceptance w', exec (acceptDelegatedContext E migrationId result) w =
        (.ok acceptance, w')) ∧
    (¬ Acceptable E w ⟨migrationId, result.binding⟩ result →
      ∃ e w', exec (acceptDelegatedContext E migrationId result) w = (.error e, w') ∧
        w.control.draws ≤ w'.control.draws) := by
  unfold acceptDelegatedContext
  by_cases hencodes : Encode E (Turn.texts ⟨migrationId, result.binding⟩)
  swap
  · refine ⟨fun hacceptable => ?_, fun _ =>
      ⟨_, w, exec_bind_error (exec_bindTexts_error hencodes), Nat.le_refl _⟩⟩
    rcases hacceptable with ⟨hown, -⟩ | ⟨hown, -⟩ <;> exact absurd hown hencodes
  dsimp only
  rw [exec_bind_ok (exec_bindTexts_ok hencodes), exec_bind, exec_get]
  dsimp only
  rcases hexisting : lookupAcceptance w ⟨migrationId, result.binding⟩ with - | existing
  · -- the turn was not accepted
    have hnone := lookupAcceptance_eq_none.mp hexisting
    rcases hreservation : lookupReservation w ⟨migrationId, result.binding⟩ with - | reservation
    · have hopen := lookupReservation_eq_none.mp hreservation
      refine ⟨fun hacceptable => ?_, fun hnot => exec_acceptNew_of_not_free fun hfree => hnot ?_⟩
      · rcases hacceptable with ⟨-, a, ha, hown, -⟩ | ⟨-, hm, -, -, hunused⟩
        · exact absurd hown (hnone a ha)
        · exact exec_acceptNew_of_free hf hencodes hgiven hm hnone hopen hunused
      · exact .free hencodes hfree.1 hnone hopen hfree.2
    · refine ⟨fun hacceptable => ?_, fun _ => ?_⟩
      · obtain ⟨hmem, hturn⟩ := lookupReservation_eq_some hreservation
        rcases hacceptable with ⟨-, a, ha, hown, -⟩ | ⟨-, -, -, hclosed, -⟩
        · exact absurd hown (hnone a ha)
        · exact absurd hturn (hclosed _ hmem)
      · dsimp only
        split <;> exact ⟨_, _, rfl, Nat.le_refl _⟩
  · -- it was: with this envelope, or with another
    have hturn : existing.turn = ⟨migrationId, result.binding⟩ := by
      simpa using List.find?_some hexisting
    have hmem := List.mem_of_find?_eq_some hexisting
    by_cases hsame : existing.envelopeSha256 = result.envelopeSha256
    · refine ⟨fun _ => ⟨⟨existing, true⟩, w, ?_⟩, fun hnot => ?_⟩
      · simp only [ne_eq, hsame, not_true_eq_false, if_false]
        rfl
      · exact absurd (.again hencodes existing hmem hturn hsame) hnot
    · refine ⟨fun hacceptable => ?_, fun _ => ?_⟩
      · rcases hacceptable with ⟨-, a, ha, hown, hasame⟩ | ⟨-, -, haccepted, -, -⟩
        · rw [acceptance_of_turn ha hmem (hown.trans hturn.symm)] at hasame
          exact absurd hasame hsame
        · exact absurd hturn (haccepted _ hmem)
      · simp only [ne_eq, hsame, not_false_eq_true, if_true]
        exact ⟨_, w, rfl, Nat.le_refl _⟩

/-! ## Actions -/

/-- A transaction that raises is rolled back. -/
theorem exec_transact (hopen : ∀ point, k.locked point = false) (point : Point) (body : Tx α)
    (w : DelegatedWorld) : (transact E k point body).exec w =
      match exec body w with
      | (.ok a, w') => (.ok a, w')
      | (.error e, w') => (.error e, { w with
          control := { w'.control with store := w.control.store } }) := by
  show (if k.locked point then _ else _) = _
  rw [hopen point]
  rfl

/-- An attempt returns what was raised. -/
theorem exec_attempt (x : Eff Raised Point DelegatedWorld α) (w : DelegatedWorld) :
    (attempt x).exec w = (.ok (x.exec w).1, (x.exec w).2) := by
  unfold attempt
  rw [Eff.exec_tryCatch, Eff.exec_map]
  rcases x.exec w with ⟨e | a, w'⟩ <;> rfl

/-- The envelope of the response is verified, and can be accepted. -/
def Takes (E : Engine) (w : DelegatedWorld) (k : PrepareCall)
    (registration : DelegatedRegistration) : Prop :=
  ∃ raw result, k.response = .ok raw ∧
    parseAndVerifyEnvelope E raw k.turn.binding registration k.verifiedAt = .ok result ∧
    Acceptable E w k.turn result

/-- **Whether a response is accepted**: what is not leaves nothing but
draws. -/
theorem exec_acceptResponse (hopen : ∀ point, k.locked point = false) (hf : FreshDraws E w)
    (registration : DelegatedRegistration) :
    (Takes E w k registration →
      ∃ va w', (acceptResponse E k registration).exec w = (.ok va, w')) ∧
    (¬ Takes E w k registration →
      ∃ e w', (acceptResponse E k registration).exec w = (.error e, w') ∧ Drawn w w') := by
  unfold acceptResponse
  rcases hresponse : k.response with e | raw
  · -- the transport failed
    refine ⟨fun ⟨_, _, hraw, _⟩ => ?_, fun _ => ⟨e, w, rfl, Drawn.refl w⟩⟩
    rw [hresponse] at hraw
    cases hraw
  rw [Eff.exec_bind_ok (Eff.exec_ofExcept_ok id raw w)]
  rcases hparse : parseAndVerifyEnvelope E raw k.turn.binding registration k.verifiedAt with
    e | result
  · -- the envelope is refused
    refine ⟨fun ⟨raw', result, hraw, hverified, _⟩ => ?_, fun _ => ⟨e, w, rfl, Drawn.refl w⟩⟩
    rw [hresponse] at hraw
    cases hraw
    rw [hparse] at hverified
    cases hverified
  rw [Eff.exec_bind_ok (Eff.exec_ofExcept_ok id result w)]
  obtain ⟨hbinding, hread⟩ := parseAndVerifyEnvelope_eq_ok hparse
  have hturn : (⟨k.turn.migrationId, result.binding⟩ : Turn) = k.turn := by
    rw [hbinding]
  obtain ⟨hok, herror⟩ := exec_acceptDelegatedContext k.turn.migrationId result hf hread.given
  rw [hturn] at hok herror
  constructor
  · rintro ⟨raw', result', hraw, hverified, hacceptable⟩
    rw [hresponse] at hraw
    cases hraw
    rw [hparse] at hverified
    cases hverified
    obtain ⟨acceptance, w', hexec⟩ := hok hacceptable
    have htransact := exec_transact (E := E) hopen .accept
      (acceptDelegatedContext E k.turn.migrationId result) w
    rw [hexec] at htransact
    exact ⟨_, _, Eff.exec_bind_ok htransact⟩
  · intro hnot
    obtain ⟨e, w', hexec, hdraws⟩ := herror fun hacceptable =>
      hnot ⟨raw, result, hresponse, hparse, hacceptable⟩
    have htransact := exec_transact (E := E) hopen .accept
      (acceptDelegatedContext E k.turn.migrationId result) w
    rw [hexec] at htransact
    exact ⟨_, _, Eff.exec_bind_error htransact, rfl, rfl, rfl, hdraws⟩

/-! ## Failures -/

/-- The turn can be closed in this way: its texts can be bound, its migration
is there, and it is not closed in another. -/
def Closable (E : Engine) (w : DelegatedWorld) (turn : Turn) (disposition : Disposition) : Prop :=
  Encode E turn.texts ∧ turn.migrationId ∈ w.control.store.migrations ∧
    ∀ r ∈ w.reservations.rows, r.turn = turn → r.disposition = disposition

/-- One entry of delegated context more, and no other. -/
def OneEntry (k : PrepareCall) (w w' : DelegatedWorld) : Prop :=
  ∃ row : Control.EvidenceRow,
    w'.control.store.evidence.rows = w.control.store.evidence.rows ++ [row] ∧
      row.migrationId = k.turn.migrationId ∧ row.kind = "delegated_context"

/-- **An entry is appended** where the migration is there, and can be bound. -/
theorem exec_appendEvidence (hopen : ∀ point, k.locked point = false)
    (hfresh : ∀ r ∈ w.control.store.evidence.rows, r.id ≠ "ev_" ++ E.uuid w.control.draws)
    (point : Point) {body : List (String × Json)} (hformat : Control.formatted body = true) :
    (E.encodes k.turn.migrationId = true ∧ k.turn.migrationId ∈ w.control.store.migrations →
      ∃ id w', (appendEvidence E k point "delegated_context" body).exec w = (.ok id, w') ∧
        OneEntry k w w') ∧
    (¬ (E.encodes k.turn.migrationId = true ∧
      k.turn.migrationId ∈ w.control.store.migrations) → ∃ e w',
      (appendEvidence E k point "delegated_context" body).exec w = (.error e, w')) := by
  have hkind : strip "delegated_context" ≠ [] ∧ E.encodes "delegated_context" = true :=
    ⟨by decide, Control.encodes_of_ascii (by simp)⟩
  obtain ⟨hok, herror⟩ := Control.exec_appendEvidence (E := E.toEngine) (w := w.control)
    k.turn.migrationId hkind hformat hfresh
  unfold appendEvidence
  rw [exec_transact hopen, exec_bind, exec_control]
  constructor
  · intro hm
    obtain ⟨row, evidence, hinsert, hmigration, hrow, hexec⟩ := hok hm
    rw [hexec]
    exact ⟨_, _, rfl, row, (Table.insert_eq_some.mp hinsert).2, hmigration, hrow⟩
  · intro hm
    obtain ⟨e, c, hexec⟩ := herror hm
    rw [hexec]
    exact ⟨_, _, rfl⟩

/-- The insertion of a failure, for a turn that is free. -/
theorem exec_insertFailure (hf : FreshDraws E w) {turn : Turn} (disposition : Disposition)
    (hturn : Encode E turn.texts) (hclosed : ∀ r ∈ w.reservations.rows, r.turn ≠ turn) :
    (turn.migrationId ∈ w.control.store.migrations → ∃ r w',
      exec (insertFailure E turn disposition) w = (.ok r, w') ∧
        w'.control.store = w.control.store ∧ w.control.draws ≤ w'.control.draws) ∧
    (turn.migrationId ∉ w.control.store.migrations → ∃ e w',
      exec (insertFailure E turn disposition) w = (.error e, w')) := by
  let row : ReservationRow :=
    ⟨"dtr_" ++ E.uuid w.control.draws, turn, disposition, none, w.control.clock w.control.ticks⟩
  have hinserted : exec (insertFailure E turn disposition) w =
      exec (insertReservation E row >>= fun _ => pure row) (w.drawn 1 1) := rfl
  rw [hinserted]
  constructor
  · intro hm
    obtain ⟨reservations, hinsert⟩ := exec_insertReservation (E := E) (w := w.drawn 1 1) hturn hm
      (reservation_free (E := E) (w := w) row hf (Nat.le_refl _) rfl hclosed)
    exact ⟨row, _, exec_bind_ok hinsert, rfl, Nat.le_succ _⟩
  · intro hm
    obtain ⟨e, he⟩ := exec_requireMigration_error (E := E) (w := w.drawn 1 1) turn.texts
      fun h => hm h.2
    exact ⟨e, w.drawn 1 1, exec_bind_error (exec_bind_error he)⟩

/-- **A failure closes the turn** where it is not closed otherwise. -/
theorem exec_reserveDelegatedFailure (hopen : ∀ point, k.locked point = false)
    (hf : FreshDraws E w) (nativeFallback : Bool) :
    (Closable E w k.turn (if nativeFallback then .nativeFallback else .providerFailure) → ∃ r w',
      (reserveDelegatedFailure E k nativeFallback).exec w = (.ok r, w') ∧
        w'.control.store = w.control.store ∧ w.control.draws ≤ w'.control.draws) ∧
    (¬ Closable E w k.turn (if nativeFallback then .nativeFallback else .providerFailure) →
      ∀ r w', (reserveDelegatedFailure E k nativeFallback).exec w = (.ok r, w') →
        w' = w ∧ k.turn.migrationId ∉ w.control.store.migrations) := by
  unfold reserveDelegatedFailure
  dsimp only
  generalize (if nativeFallback then Disposition.nativeFallback else .providerFailure) = disposition
  by_cases hencodes : Encode E k.turn.texts
  swap
  · -- a text that cannot be bound: the SELECT raises
    refine ⟨fun hclosable => absurd hclosable.1 hencodes, fun _ r w' hexec => ?_⟩
    have hbound := exec_bind_error (f := fun _ => do pure (lookupReservation (← get) k.turn))
      (exec_bindTexts_error (w := w) hencodes)
    have hlook := exec_transact (E := E) hopen .look (do
      bindTexts E k.turn.texts
      pure (lookupReservation (← get) k.turn)) w
    rw [hbound] at hlook
    rw [Eff.exec_bind_error hlook] at hexec
    cases hexec
  have hlook : (transact E k .look (do
      bindTexts E k.turn.texts
      pure (lookupReservation (← get) k.turn))).exec w = (.ok (lookupReservation w k.turn), w) := by
    rw [exec_transact hopen, exec_bind_ok (exec_bindTexts_ok hencodes)]
    rfl
  rw [Eff.exec_bind_ok hlook]
  rcases hreservation : lookupReservation w k.turn with - | existing
  · -- the turn is not closed: a row is inserted
    have hclosed := lookupReservation_eq_none.mp hreservation
    obtain ⟨hok, herror⟩ := exec_insertFailure (E := E) hf disposition hencodes hclosed
    dsimp only
    rw [exec_transact hopen]
    constructor
    · rintro ⟨-, hm, -⟩
      obtain ⟨r, w', hexec, hstore, hdraws⟩ := hok hm
      rw [hexec]
      exact ⟨r, w', rfl, hstore, hdraws⟩
    · intro hnot r w' hexec
      have hm : k.turn.migrationId ∉ w.control.store.migrations := fun hm =>
        hnot ⟨hencodes, hm, fun r hr hturn => absurd hturn (hclosed r hr)⟩
      obtain ⟨e, w₁, hfailed⟩ := herror hm
      rw [hfailed] at hexec
      cases hexec
  · -- it is closed, in this way or in another
    obtain ⟨hmem, hturn⟩ := lookupReservation_eq_some hreservation
    dsimp only
    by_cases hsame : existing.disposition = disposition
    · rw [if_pos hsame]
      refine ⟨fun _ => ⟨existing, w, rfl, rfl, Nat.le_refl _⟩, fun hnot r w' hexec => ?_⟩
      cases hexec
      refine ⟨rfl, fun hm => hnot ⟨hencodes, hm, fun r hr hown => ?_⟩⟩
      rw [reservation_of_turn hr hmem (hown.trans hturn.symm)]
      exact hsame
    · rw [if_neg hsame]
      refine ⟨fun hclosable => absurd (hclosable.2.2 existing hmem hturn) hsame, ?_⟩
      intro _ r w' hexec
      cases hexec

/-- How a failure closes a turn. -/
def closing (registration : Option DelegatedRegistration) : Disposition :=
  if registration.any (·.nativeFallbackOnFailure) then .nativeFallback else .providerFailure

/-- The key of the provider can be named. -/
def Named (E : Engine) (registration : Option DelegatedRegistration) : Prop :=
  ∀ r ∈ registration, ∃ fingerprint, publicKeyFingerprint E r.publicKeyBase64 = .ok fingerprint

/-- A registration has a fingerprint exactly if it can be named. -/
theorem withFingerprint_iff {registration : Option DelegatedRegistration} :
    (∃ named, withFingerprint E registration = .ok named) ↔ Named E registration := by
  rcases registration with - | r
  · exact ⟨fun _ r hr => absurd hr (Option.not_mem_none r), fun _ => ⟨none, rfl⟩⟩
  · unfold withFingerprint Named
    simp only [Checked.bind_eq_ok_iff, Option.mem_some_iff, forall_eq']
    constructor
    · rintro ⟨named, fingerprint, hfingerprint, -⟩
      exact ⟨fingerprint, hfingerprint⟩
    · rintro ⟨fingerprint, hfingerprint⟩
      exact ⟨_, fingerprint, hfingerprint, rfl⟩

/-- **A failure is answered**, and leaves one entry, exactly where the turn can
be closed as it says and the key can be named. -/
theorem exec_fail (hopen : ∀ point, k.locked point = false) (hf : FreshDraws E w)
    (registration : Option DelegatedRegistration) (exc : Raised) :
    (Closable E w k.turn (closing registration) ∧ Named E registration → ∃ p w',
      (fail E k registration exc).exec w = (.ok p, w') ∧ p.acceptanceId = none ∧
        OneEntry k w w') ∧
    (¬ (Closable E w k.turn (closing registration) ∧ Named E registration) →
      ∃ e w', (fail E k registration exc).exec w = (.error e, w')) := by
  obtain ⟨hok, hrefused⟩ := exec_reserveDelegatedFailure (E := E) hopen hf
    (registration.any (·.nativeFallbackOnFailure))
  have hformat : ∀ named reservation, Control.formatted (rejection k named reservation exc) = true :=
    fun _ _ => rfl
  unfold fail
  constructor
  · -- reserved, named and recorded, in that order
    rintro ⟨hclosable, hnamed⟩
    obtain ⟨reservation, w₁, hreserve, hstore, hdraws⟩ := hok hclosable
    obtain ⟨named, hfingerprint⟩ := withFingerprint_iff.mpr hnamed
    have hfresh : ∀ r ∈ w₁.control.store.evidence.rows, r.id ≠ "ev_" ++ E.uuid w₁.control.draws := by
      rw [hstore]
      exact hf.evidence _ hdraws
    obtain ⟨id, w', hevent, row, hrows, hrow⟩ :=
      (exec_appendEvidence hopen hfresh .append (hformat named reservation)).1
        ⟨hclosable.1 _ List.mem_cons_self, by rw [hstore]; exact hclosable.2.1⟩
    rw [hstore] at hrows
    rw [Eff.exec_bind_ok hreserve, hfingerprint, Eff.exec_bind_ok (Eff.exec_ofExcept_ok _ _ _),
      Eff.exec_bind_ok hevent]
    exact ⟨_, _, rfl, rfl, row, hrows, hrow⟩
  · intro hnot
    rcases hreserve : (reserveDelegatedFailure E k
      (registration.any (·.nativeFallbackOnFailure))).exec w with ⟨e | reservation, w₁⟩
    · exact ⟨e, w₁, Eff.exec_bind_error hreserve⟩
    rw [Eff.exec_bind_ok hreserve]
    rcases hfingerprint : withFingerprint E registration with e | named
    · exact ⟨e, w₁, rfl⟩
    rw [Eff.exec_bind_ok (Eff.exec_ofExcept_ok _ _ _)]
    -- the reservation went through all the same: then the migration is missing
    have hclosable : ¬ Closable E w k.turn (closing registration) := fun hclosable =>
      hnot ⟨hclosable, withFingerprint_iff.mp ⟨named, hfingerprint⟩⟩
    obtain ⟨rfl, hm⟩ := hrefused hclosable reservation w₁ hreserve
    obtain ⟨e, w', hevent⟩ := (exec_appendEvidence hopen (hf.evidence _ (Nat.le_refl _)) .append
      (hformat named reservation)).2 fun h => hm h.2
    exact ⟨e, w', Eff.exec_bind_error hevent⟩

end Atmem.Delegated
