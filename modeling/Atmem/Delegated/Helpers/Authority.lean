import Atmem.Control.Helpers.Statements
import Atmem.Delegated.Model.Turns
/-!
# What preparing a turn keeps

No row of the two tables goes, and an acceptance is there only with the
reservation of its turn. Every action of a call keeps to that, whoever acts
in between; what a call answers is said of the tables as it returns, and
stays.
-/

namespace Atmem.Delegated

open Interleaving Relational Transactional
open Json (field)

variable {E : Engine} {w w' w₀ : DelegatedWorld} {k : PrepareCall} {α β : Type}

/-! ## The tables -/

/-- Every row that was there is there. -/
structure Keeps (w w' : DelegatedWorld) : Prop where
  acceptances : ∀ a ∈ w.acceptances.rows, a ∈ w'.acceptances.rows
  reservations : ∀ r ∈ w.reservations.rows, r ∈ w'.reservations.rows

theorem Keeps.refl (w : DelegatedWorld) : Keeps w w := ⟨fun _ h => h, fun _ h => h⟩

theorem Keeps.trans {w₁ w₂ w₃ : DelegatedWorld} (h : Keeps w₁ w₂) (h' : Keeps w₂ w₃) :
    Keeps w₁ w₃ :=
  ⟨fun a ha => h'.acceptances a (h.acceptances a ha),
    fun r hr => h'.reservations r (h.reservations r hr)⟩

/-- Every acceptance has closed its turn, for its envelope. -/
def Sound (w : DelegatedWorld) : Prop :=
  ∀ a ∈ w.acceptances.rows, ∃ r ∈ w.reservations.rows,
    r.turn = a.turn ∧ r.disposition = .accepted ∧ r.envelopeSha256 = some a.envelopeSha256

/-- What an action does to the tables. -/
structure Moves (w w' : DelegatedWorld) : Prop extends Keeps w w' where
  sound : Sound w → Sound w'

/-- The two tables are as they were. -/
structure SameTables (w w' : DelegatedWorld) : Prop where
  acceptances : w'.acceptances = w.acceptances
  reservations : w'.reservations = w.reservations

/-- What keeps the tables is a move. -/
theorem SameTables.moves (h : SameTables w w') : Moves w w' := by
  obtain ⟨ha, hr⟩ := h
  refine ⟨⟨?_, ?_⟩, ?_⟩
  · rw [ha]
    exact fun _ h => h
  · rw [hr]
    exact fun _ h => h
  · unfold Sound
    rw [ha, hr]
    exact fun h => h

theorem SameTables.trans {w₁ w₂ w₃ : DelegatedWorld} (h : SameTables w₁ w₂)
    (h' : SameTables w₂ w₃) : SameTables w₁ w₃ :=
  ⟨h'.acceptances.trans h.acceptances, h'.reservations.trans h.reservations⟩

/-- A turn has one acceptance. -/
theorem acceptance_of_turn {a b : AcceptanceRow} (ha : a ∈ w.acceptances.rows)
    (hb : b ∈ w.acceptances.rows) (h : a.turn = b.turn) : a = b := by
  have hclash : ∀ a b : AcceptanceRow, a.turn = b.turn → acceptanceClash a.key b.key = true :=
    fun a b h => by simp [acceptanceClash, AcceptanceRow.key, h]
  exact Table.eq_of_id_eq hclash ha hb h

/-- A turn is closed once. -/
theorem reservation_of_turn {a b : ReservationRow} (ha : a ∈ w.reservations.rows)
    (hb : b ∈ w.reservations.rows) (h : a.turn = b.turn) : a = b := by
  have hclash : ∀ a b : ReservationRow, a.turn = b.turn → reservationClash a.key b.key = true :=
    fun a b h => by simp [reservationClash, ReservationRow.key, h]
  exact Table.eq_of_id_eq hclash ha hb h

/-! ## Statements -/

/-- The control store's own code leaves the two tables alone. -/
theorem sameTables_control (x : Control.Ctl α) (w : DelegatedWorld) :
    SameTables w (exec (control E x) w).2 := by
  unfold control
  rw [exec_bind, exec_get]
  dsimp only
  rcases x.run.run w.control with ⟨e | a, c⟩ <;> exact ⟨rfl, rfl⟩

/-- The control store is a part of the world. -/
theorem exec_control (x : Control.Ctl α) (w : DelegatedWorld) : exec (control E x) w =
    match exec x w.control with
    | (.ok a, c) => (.ok a, { w with control := c })
    | (.error e, c) => (.error (E.ofControl e), { w with control := c }) := by
  have hrun : x.run.run w.control = exec x w.control := rfl
  unfold control
  rw [exec_bind, exec_get]
  dsimp only
  rw [hrun]
  rcases exec x w.control with ⟨e | a, c⟩ <;> rfl

/-- Texts are bound exactly where each has its UTF-8. -/
theorem exec_bindTexts (given : List String) (w : DelegatedWorld) :
    exec (bindTexts E given) w = if given.all E.encodes then (.ok (), w)
      else (.error (E.raised "UnicodeEncodeError" .null), w) := by
  unfold bindTexts Control.bindAll
  rw [exec_control, Control.exec_liftCtl, Control.ensureAll_texts]
  rcases given.all E.encodes <;> rfl

/-- A sequence that succeeds has bound its texts. -/
theorem exec_bindTexts_bind_eq_ok {given : List String} {f : Unit → Tx β} {b : β}
    (h : exec (bindTexts E given >>= f) w = (.ok b, w')) :
    exec (f ()) w = (.ok b, w') := by
  by_cases hall : given.all E.encodes = true
  · rwa [exec_bind, exec_bindTexts, if_pos hall] at h
  · rw [exec_bind, exec_bindTexts, if_neg hall] at h
    cases h

/-- A sequence that succeeds has found the migration. -/
theorem exec_requireMigration_bind_eq_ok {migrationId : String} {given : List String}
    {f : Unit → Tx β} {b : β}
    (h : exec (requireMigration E migrationId given >>= f) w = (.ok b, w')) :
    exec (f ()) w = (.ok b, w') := by
  obtain ⟨u, w₁, hrequire, hrest⟩ := exec_bind_eq_ok.mp h
  unfold requireMigration at hrequire
  have hrequire := exec_bindTexts_bind_eq_ok hrequire
  rw [exec_bind, exec_get] at hrequire
  dsimp only at hrequire
  split at hrequire
  · cases hrequire
  · cases hrequire
    exact hrest

/-- An acceptance is stored beside the reservations. -/
theorem exec_insertAcceptance_eq_ok {row : AcceptanceRow} {given : List String} {u : Unit}
    (h : exec (insertAcceptance E row given) w = (.ok u, w')) :
    w.acceptances.insert row = some w'.acceptances ∧ w'.reservations = w.reservations := by
  unfold insertAcceptance at h
  have h := exec_requireMigration_bind_eq_ok h
  rw [exec_bind, exec_get] at h
  dsimp only at h
  split at h
  · cases h
  · rename_i hinsert
    cases h
    exact ⟨hinsert, rfl⟩

/-- A reservation is stored beside the acceptances. -/
theorem exec_insertReservation_eq_ok {row : ReservationRow} {u : Unit}
    (h : exec (insertReservation E row) w = (.ok u, w')) :
    w.reservations.insert row = some w'.reservations ∧ w'.acceptances = w.acceptances := by
  unfold insertReservation at h
  have h := exec_requireMigration_bind_eq_ok h
  rw [exec_bind, exec_get] at h
  dsimp only at h
  split at h
  · cases h
  · rename_i hinsert
    cases h
    exact ⟨hinsert, rfl⟩

/-- A statement of the control store, of a sequence that succeeds. -/
theorem exec_control_bind_eq_ok {x : Control.Ctl α} {f : α → Tx β} {b : β}
    (h : exec (control E x >>= f) w = (.ok b, w')) :
    ∃ a w₁, SameTables w w₁ ∧ exec (f a) w₁ = (.ok b, w') := by
  obtain ⟨a, w₁, hx, hf⟩ := exec_bind_eq_ok.mp h
  have hsame := sameTables_control (E := E) x w
  rw [hx] at hsame
  exact ⟨a, w₁, hsame, hf⟩

/-- **A failure closes the turn**, where nothing has. -/
theorem exec_insertFailure_eq_ok {turn : Turn} {disposition : Disposition} {row : ReservationRow}
    (h : exec (insertFailure E turn disposition) w = (.ok row, w')) :
    Moves w w' ∧ row ∈ w'.reservations.rows ∧ row.turn = turn ∧
      row.disposition = disposition := by
  unfold insertFailure at h
  obtain ⟨id, w₁, hsame₁, h⟩ := exec_control_bind_eq_ok h
  obtain ⟨createdAt, w₂, hsame₂, h⟩ := exec_control_bind_eq_ok h
  obtain ⟨u, w₃, hinsert, h⟩ := exec_bind_eq_ok.mp h
  cases h
  obtain ⟨hreservations, hacceptances⟩ := exec_insertReservation_eq_ok hinsert
  obtain ⟨ha, hr⟩ := hsame₁.trans hsame₂
  rw [hr] at hreservations
  rw [ha] at hacceptances
  have hrows := (Table.insert_eq_some.mp hreservations).2
  refine ⟨⟨⟨?_, ?_⟩, ?_⟩, ?_, rfl, rfl⟩
  · rw [hacceptances]
    exact fun _ h => h
  · rw [hrows]
    exact fun _ h => List.mem_append_left _ h
  · intro hs a hmem
    rw [hacceptances] at hmem
    obtain ⟨r, hmem', hr⟩ := hs a hmem
    exact ⟨r, by rw [hrows]; exact List.mem_append_left _ hmem', hr⟩
  · rw [hrows]
    exact List.mem_append_right _ (List.mem_singleton_self _)

/-- **An envelope that is new is accepted with its reservation.** -/
theorem exec_acceptNew_eq_ok {migrationId : String} {result : VerifiedDelegatedResult}
    {acceptance : Acceptance} (h : exec (acceptNew E migrationId result) w = (.ok acceptance, w')) :
    Moves w w' ∧ acceptance.row ∈ w'.acceptances.rows ∧
      acceptance.row.turn = ⟨migrationId, result.binding⟩ ∧
      acceptance.row.envelopeSha256 = result.envelopeSha256 := by
  unfold acceptNew at h
  have h := exec_bindTexts_bind_eq_ok h
  rw [exec_bind, exec_get] at h
  dsimp only at h
  split at h
  · cases h
  split at h
  · cases h
  obtain ⟨id, w₁, hsame₁, h⟩ := exec_control_bind_eq_ok h
  obtain ⟨acceptedAt, w₂, hsame₂, h⟩ := exec_control_bind_eq_ok h
  obtain ⟨u, w₃, haccept, h⟩ := exec_bind_eq_ok.mp h
  obtain ⟨reservationId, w₄, hsame₄, h⟩ := exec_control_bind_eq_ok h
  obtain ⟨u', w₅, hreserve, h⟩ := exec_bind_eq_ok.mp h
  cases h
  obtain ⟨hacceptances, hsame₃⟩ := exec_insertAcceptance_eq_ok haccept
  obtain ⟨hreservations, hsame₅⟩ := exec_insertReservation_eq_ok hreserve
  obtain ⟨ha, hr⟩ := hsame₁.trans hsame₂
  rw [ha] at hacceptances
  rw [hsame₄.reservations, hsame₃, hr] at hreservations
  rw [hsame₄.acceptances] at hsame₅
  have harows := (Table.insert_eq_some.mp hacceptances).2
  have hrrows := (Table.insert_eq_some.mp hreservations).2
  rw [← hsame₅] at harows
  refine ⟨⟨⟨?_, ?_⟩, ?_⟩, ?_, rfl, rfl⟩
  · rw [harows]
    exact fun _ h => List.mem_append_left _ h
  · rw [hrrows]
    exact fun _ h => List.mem_append_left _ h
  · intro hs a hmem
    rw [harows] at hmem
    rcases List.mem_append.mp hmem with hmem | hmem
    · obtain ⟨r, hmem', hr⟩ := hs a hmem
      exact ⟨r, by rw [hrrows]; exact List.mem_append_left _ hmem', hr⟩
    · -- the new row, with the reservation written beside it
      rw [List.mem_singleton.mp hmem]
      exact ⟨_, by rw [hrrows]; exact List.mem_append_right _ (List.mem_singleton_self _),
        rfl, rfl, rfl⟩
  · rw [harows]
    exact List.mem_append_right _ (List.mem_singleton_self _)

/-- **What is accepted is the acceptance of the turn**, and of the
envelope. -/
theorem exec_acceptDelegatedContext_eq_ok {migrationId : String}
    {result : VerifiedDelegatedResult} {acceptance : Acceptance}
    (h : exec (acceptDelegatedContext E migrationId result) w = (.ok acceptance, w')) :
    Moves w w' ∧ acceptance.row ∈ w'.acceptances.rows ∧
      acceptance.row.turn = ⟨migrationId, result.binding⟩ ∧
      acceptance.row.envelopeSha256 = result.envelopeSha256 := by
  unfold acceptDelegatedContext at h
  have h := exec_bindTexts_bind_eq_ok h
  rw [exec_bind, exec_get] at h
  dsimp only at h
  split at h
  · rename_i existing hexisting
    split at h
    · cases h
    rename_i hsame
    cases h
    have hturn := List.find?_some hexisting
    refine ⟨⟨Keeps.refl w, id⟩, List.mem_of_find?_eq_some hexisting, ?_, not_not.mp hsame⟩
    exact decide_eq_true_iff.mp hturn
  · split at h <;> cases h
  · exact exec_acceptNew_eq_ok h

/-- The rest of the store's statements leave the two tables alone. -/
theorem exec_requestDelegatedDelivery_eq_ok {migrationId acceptanceId : String}
    {context : Context} {row : DelegatedDeliveryRow}
    (h : exec (requestDelegatedDelivery E migrationId acceptanceId context) w = (.ok row, w')) :
    SameTables w w' := by
  unfold requestDelegatedDelivery at h
  obtain ⟨id, w₁, hsame₁, h⟩ := exec_control_bind_eq_ok h
  obtain ⟨requestedAt, w₂, hsame₂, h⟩ := exec_control_bind_eq_ok h
  have h := exec_requireMigration_bind_eq_ok h
  rw [exec_bind, exec_get] at h
  dsimp only at h
  split at h
  · cases h
  rw [exec_bind, exec_modify] at h
  dsimp only at h
  rw [exec_bind, exec_get] at h
  dsimp only at h
  split at h
  · cases h
    exact (hsame₁.trans hsame₂).trans ⟨rfl, rfl⟩
  · cases h

/-! ## Actions -/

/-- What a part of a call leaves: the rows of a moment before, and what is
said of its value. -/
def Post (w₀ : DelegatedWorld) (P : α → DelegatedWorld → Prop) :
    List Point → Except Raised α → Timeline DelegatedWorld → Prop :=
  fun _ r h => Keeps w₀ h.now ∧ ∀ a, r = .ok a → P a h.now

/-- What a call may rely on: rows stay. -/
def Relies (R : List Point → Timeline DelegatedWorld → Timeline DelegatedWorld → Prop) : Prop :=
  ∀ log h h', R log h h' → Keeps h.now h'.now

variable {R : List Point → Timeline DelegatedWorld → Timeline DelegatedWorld → Prop}
variable {P : α → DelegatedWorld → Prop} {Q : β → DelegatedWorld → Prop}
variable {log : List Point} {h : Timeline DelegatedWorld}

/-- A part of a call keeps to its guarantee, and leaves what is said. -/
abbrev SafePart (R : List Point → Timeline DelegatedWorld → Timeline DelegatedWorld → Prop)
    (w₀ : DelegatedWorld) (P : α → DelegatedWorld → Prop)
    (x : Eff Raised Point DelegatedWorld α) (log : List Point) (h : Timeline DelegatedWorld) :
    Prop :=
  Safe R (fun h s => Moves h.now s) (Post w₀ P) x log h

theorem safe_pure (hw : Keeps w₀ h.now) {a : α} (ha : P a h.now) :
    SafePart R w₀ P (pure a) log h :=
  ⟨hw, fun _ heq => by cases heq; exact ha⟩

theorem safe_throw (hw : Keeps w₀ h.now) {e : Raised} :
    SafePart R w₀ P (throw e) log h :=
  ⟨hw, fun _ heq => nomatch heq⟩

theorem safe_ofExcept (hw : Keeps w₀ h.now) {r : Except Raised α}
    (hP : ∀ a, r = .ok a → P a h.now) : SafePart R w₀ P (Eff.ofExcept id r) log h := by
  rcases r with e | a
  · exact safe_throw hw
  · exact safe_pure hw (hP a rfl)

/-- The rule of sequence. -/
theorem safe_bind {x : Eff Raised Point DelegatedWorld α}
    {f : α → Eff Raised Point DelegatedWorld β} (hx : SafePart R w₀ P x log h)
    (hf : ∀ a log' h', Keeps w₀ h'.now → P a h'.now → SafePart R w₀ Q (f a) log' h') :
    SafePart R w₀ Q (x >>= f) log h := by
  refine Safe.eff_bind (hx.mono fun log' r h' hr => ⟨fun a heq => ?_, fun e heq => ?_⟩)
  · exact hf a log' h' hr.1 (hr.2 a heq)
  · exact ⟨hr.1, fun _ heq => nomatch heq⟩

/-- The rule of a function of the result. -/
theorem safe_map {x : Eff Raised Point DelegatedWorld α} {f : α → β}
    (hx : SafePart R w₀ (fun a => Q (f a)) x log h) : SafePart R w₀ Q (f <$> x) log h := by
  refine Safe.eff_map (hx.mono fun log' r h' hr => ⟨hr.1, fun b heq => ?_⟩)
  rcases r with e | a
  · cases heq
  · cases heq
    exact hr.2 a rfl

/-- An attempt says of a value what its program says. -/
theorem safe_attempt {x : Eff Raised Point DelegatedWorld α} (hx : SafePart R w₀ P x log h) :
    SafePart R w₀ (fun r w => ∀ a, r = .ok a → P a w) (attempt x) log h := by
  refine Safe.eff_tryCatch (Safe.eff_map (hx.mono fun log' r h' hr => ?_))
  rcases r with e | a
  · refine ⟨fun _ heq => (nomatch heq), fun e' _ => ?_⟩
    refine ⟨hr.1, fun r heq => ?_⟩
    cases heq
    exact fun _ heq => nomatch heq
  · refine ⟨fun r heq => ?_, fun _ heq => nomatch heq⟩
    cases heq
    refine ⟨hr.1, fun r heq => ?_⟩
    cases heq
    exact hr.2

/-- **A transaction moves the tables as its body does**, and where it fails
not at all. -/
theorem safe_transact (hR : Relies R) (hw : Keeps w₀ h.now) {point : Point} {body : Tx α}
    (hbody : ∀ w a w', Keeps w₀ w → exec body w = (.ok a, w') → Moves w w' ∧ P a w') :
    SafePart R w₀ P (transact E k point body) log h := by
  refine Safe.eff_action fun h' hr => ?_
  have hkeeps : Keeps w₀ h'.now := hw.trans (hR _ _ _ hr)
  have hsame : ∀ c, Moves h'.now { h'.now with control := c } :=
    fun c => SameTables.moves ⟨rfl, rfl⟩
  by_cases hlocked : k.locked point = true
  · rw [if_pos hlocked]
    exact ⟨hsame _, hkeeps, fun _ heq => nomatch heq⟩
  · rw [if_neg hlocked]
    rcases hexec : exec body h'.now with ⟨e | a, s⟩
    · have hrun : body.run.run h'.now = (.error e, s) := hexec
      rw [hrun]
      exact ⟨hsame _, hkeeps.trans (hsame _).toKeeps, fun _ heq => nomatch heq⟩
    · have hrun : body.run.run h'.now = (.ok a, s) := hexec
      rw [hrun]
      obtain ⟨hmoves, hP⟩ := hbody _ _ _ hkeeps hexec
      exact ⟨hmoves, hkeeps.trans hmoves.toKeeps, fun _ heq => by cases heq; exact hP⟩

/-- Evidence is appended beside the turns. -/
theorem safe_appendEvidence (hR : Relies R) (hw : Keeps w₀ h.now) {point : Point} {kind : String}
    {body : List (String × Json)} :
    SafePart R w₀ (fun _ _ => True) (appendEvidence E k point kind body) log h := by
  refine safe_transact hR hw fun w a w' _ hexec => ?_
  obtain ⟨row, w₁, hsame, hpure⟩ := exec_control_bind_eq_ok hexec
  cases hpure
  exact ⟨hsame.moves, trivial⟩

/-! ## Calls -/

/-- The turn is closed, and how. -/
def ClosedAs (turn : Turn) (disposition : Disposition) (w : DelegatedWorld) : Prop :=
  ∃ r ∈ w.reservations.rows, r.turn = turn ∧ r.disposition = disposition

/-- A turn stays closed as it was. -/
theorem ClosedAs.keeps {turn : Turn} {disposition : Disposition}
    (hc : ClosedAs turn disposition w) (h : Keeps w w') : ClosedAs turn disposition w' := by
  obtain ⟨r, hr, hfacts⟩ := hc
  exact ⟨r, h.reservations r hr, hfacts⟩

/-- **A failure that is reserved has closed the turn as it says.** -/
theorem safe_reserveDelegatedFailure (hR : Relies R) (hw : Keeps w₀ h.now) (nativeFallback : Bool) :
    SafePart R w₀ (fun _ w => ClosedAs k.turn
      (if nativeFallback then .nativeFallback else .providerFailure) w)
      (reserveDelegatedFailure E k nativeFallback) log h := by
  unfold reserveDelegatedFailure
  dsimp only
  generalize (if nativeFallback then Disposition.nativeFallback else .providerFailure) = disposition
  refine safe_bind (P := fun found w => ∀ r, found = some r → r ∈ w.reservations.rows ∧
    r.turn = k.turn) (safe_transact hR hw fun w found w' _ hexec => ?_)
    fun found log' h' hw' hfound => ?_
  · have hexec := exec_bindTexts_bind_eq_ok hexec
    cases hexec
    refine ⟨⟨Keeps.refl w, id⟩, fun r hr => ?_⟩
    unfold lookupReservation at hr
    exact ⟨List.mem_of_find?_eq_some hr, by simpa using List.find?_some hr⟩
  · rcases found with - | existing
    · refine safe_transact hR hw' fun w row w' _ hexec => ?_
      obtain ⟨hmoves, hmem, hturn, hdisposition⟩ := exec_insertFailure_eq_ok hexec
      exact ⟨hmoves, row, hmem, hturn, hdisposition⟩
    · obtain ⟨hmem, hturn⟩ := hfound existing rfl
      dsimp only
      split
      · rename_i hsame
        exact safe_pure hw' ⟨existing, hmem, hturn, hsame⟩
      · exact safe_throw hw'

/-- What an injecting answer shows: a verified envelope for the turn, which
is the one its acceptance names. -/
def Shows (E : Engine) (k : PrepareCall) (result : VerifiedDelegatedResult) (p : Prepared)
    (w : DelegatedWorld) : Prop :=
  (∃ raw registration, k.response = .ok raw ∧ k.registration = .ok (some registration) ∧
    parseAndVerifyEnvelope E raw k.turn.binding registration k.verifiedAt = .ok result) ∧
  (∃ a ∈ w.acceptances.rows, a.turn = k.turn ∧ a.envelopeSha256 = result.envelopeSha256 ∧
    p.acceptanceId = some a.id) ∧
  p.resultSha256 = some result.envelopeSha256 ∧ p.context = result.context

/-- What a call's answer says of the tables. -/
structure Answers (E : Engine) (k : PrepareCall) (p : Prepared) (w : DelegatedWorld) : Prop where
  injects : p.inject = true → ∃ result, Shows E k result p w
  fallsBack : p.nativeFallback = true → ClosedAs k.turn .nativeFallback w

/-- So an answer stays right. -/
theorem Answers.keeps {p : Prepared} (ha : Answers E k p w) (h : Keeps w w') :
    Answers E k p w' := by
  refine ⟨fun hi => ?_, fun hf => (ha.fallsBack hf).keeps h⟩
  obtain ⟨result, hverified, ⟨a, hmem, hfacts⟩, hrest⟩ := ha.injects hi
  exact ⟨result, hverified, ⟨a, h.acceptances a hmem, hfacts⟩, hrest⟩

/-- **A failure before any acceptance** injects nothing, and falls back
only where the turn is closed so. -/
theorem safe_fail (hR : Relies R) (hw : Keeps w₀ h.now)
    (registration : Option DelegatedRegistration) (exc : Raised) :
    SafePart R w₀ (Answers E k) (fail E k registration exc) log h := by
  unfold fail
  refine Safe.eff_bind ?_
  refine (safe_reserveDelegatedFailure hR (Keeps.refl h.now) _).mono
    fun log₁ r h₁ hr => ⟨fun reservation heq => ?_, fun e heq => ?_⟩
  · have hw₁ : Keeps w₀ h₁.now := hw.trans hr.1
    have hclosed := hr.2 reservation heq
    -- from here on the reservation stays
    refine Safe.mono (Q := Post h₁.now fun p _ => p.inject = false ∧
      p.nativeFallback = registration.any (·.nativeFallbackOnFailure))
      (fun log' r' h' hr' => ?_) ?_
    · refine ⟨hw₁.trans hr'.1, fun p hp => ?_⟩
      obtain ⟨hinject, hfallback⟩ := hr'.2 p hp
      refine ⟨fun hi => ?_, fun hf => ?_⟩
      · rw [hinject] at hi
        cases hi
      · rw [hfallback] at hf
        rw [hf] at hclosed
        exact hclosed.keeps hr'.1
    · exact safe_bind (safe_ofExcept (P := fun _ _ => True) (Keeps.refl _) fun _ _ => trivial)
        fun named _ _ hw' _ => safe_bind (safe_appendEvidence hR hw')
          fun event _ _ hw'' _ => safe_pure hw'' ⟨rfl, rfl⟩
  · exact ⟨hw.trans hr.1, fun _ heq => nomatch heq⟩

/-- What an answer after an acceptance is: nothing, or what was
accepted. -/
def Authorized (acceptance : Acceptance) (result : VerifiedDelegatedResult) (p : Prepared) : Prop :=
  p.nativeFallback = false ∧ (p.inject = true → p.acceptanceId = some acceptance.row.id ∧
    p.resultSha256 = some result.envelopeSha256 ∧ p.context = result.context)

/-- What a failed delivery answers is authorized. -/
theorem safe_failDelivery (hR : Relies R) (hw : Keeps w₀ h.now) {acceptance : Acceptance}
    {result : VerifiedDelegatedResult} (event : Option String) (exc : Raised) :
    SafePart R w₀ (fun p _ => Authorized acceptance result p)
      (failDelivery E k acceptance result event exc) log h :=
  safe_bind (safe_attempt (safe_appendEvidence hR hw)) fun _ _ _ hw' _ =>
    safe_pure hw' ⟨rfl, nofun⟩

/-- Delivering touches no turn. -/
theorem safe_deliver (hR : Relies R) (hw : Keeps w₀ h.now) {acceptance : Acceptance}
    {result : VerifiedDelegatedResult} :
    SafePart R w₀ (fun _ _ => True) (deliver E k acceptance result) log h := by
  unfold deliver
  split
  · refine safe_bind (P := fun _ _ => True) (safe_transact hR hw fun w row w' _ hexec => ?_)
      fun _ _ _ hw' _ => safe_pure hw' trivial
    exact ⟨(exec_requestDelegatedDelivery_eq_ok hexec).moves, trivial⟩
  · exact safe_pure hw trivial

/-- What is authorized answers the acceptance. -/
theorem safe_authorize (hR : Relies R) (hw : Keeps w₀ h.now)
    (registration : DelegatedRegistration) {acceptance : Acceptance}
    {result : VerifiedDelegatedResult} :
    SafePart R w₀ (fun p _ => Authorized acceptance result p)
      (authorize E k registration acceptance result) log h := by
  unfold authorize
  refine safe_bind (safe_attempt (P := fun _ _ => True) (safe_bind
    (safe_ofExcept (P := fun _ _ => True) hw fun _ _ => trivial)
    fun _ _ _ hw' _ => safe_appendEvidence hR hw')) fun r _ h₁ hw₁ _ => ?_
  rcases r with exc | event
  · exact safe_failDelivery hR hw₁ none exc
  · refine safe_bind (safe_attempt (P := fun p _ => Authorized acceptance result p)
      (safe_bind (safe_deliver hR hw₁) fun exposure _ _ hw₂ _ => safe_bind
        (safe_ofExcept (P := fun _ _ => True) hw₂ fun _ _ => trivial)
        fun fingerprint _ _ hw₃ _ => safe_pure hw₃ ⟨rfl, fun _ => ⟨rfl, rfl, rfl⟩⟩))
      fun r _ h₂ hw₂ hr => ?_
    rcases r with exc | p
    · exact safe_failDelivery hR hw₂ (some event) exc
    · exact safe_pure hw₂ (hr p rfl)

/-- **What is accepted is a verified envelope for the turn**, and its
acceptance is there. -/
theorem safe_acceptResponse (hR : Relies R) (hw : Keeps w₀ h.now)
    (registration : DelegatedRegistration) :
    SafePart R w₀ (fun va w => (∃ raw, k.response = .ok raw ∧
        parseAndVerifyEnvelope E raw k.turn.binding registration k.verifiedAt = .ok va.1) ∧
      va.2.row ∈ w.acceptances.rows ∧ va.2.row.turn = ⟨k.turn.migrationId, va.1.binding⟩ ∧
      va.2.row.envelopeSha256 = va.1.envelopeSha256)
      (acceptResponse E k registration) log h := by
  unfold acceptResponse
  refine safe_bind (P := fun raw _ => k.response = .ok raw) (safe_ofExcept hw fun raw hraw => hraw)
    fun raw _ _ hw₁ hraw => ?_
  refine safe_bind (P := fun result _ => parseAndVerifyEnvelope E raw k.turn.binding registration
    k.verifiedAt = .ok result) (safe_ofExcept hw₁ fun _ h => h) fun result _ _ hw₂ hverified => ?_
  refine safe_bind (P := fun acceptance w => acceptance.row ∈ w.acceptances.rows ∧
    acceptance.row.turn = ⟨k.turn.migrationId, result.binding⟩ ∧
    acceptance.row.envelopeSha256 = result.envelopeSha256)
    (safe_transact hR hw₂ fun w a w' _ hexec => exec_acceptDelegatedContext_eq_ok hexec)
    fun acceptance _ _ hw₃ ha => safe_pure hw₃ ⟨⟨raw, hraw, hverified⟩, ha⟩

/-! ## The texts of an envelope -/

/-- The texts of a field are among those of the object. -/
theorem texts_mem_fields {kvs : List (String × Json)} {kv : String × Json} (h : kv ∈ kvs) :
    ∀ text ∈ texts kv.2, text ∈ texts.fields kvs := by
  induction kvs with
  | nil => cases h
  | cons kv' kvs ih =>
    intro text ht
    rw [texts.fields]
    rcases List.mem_cons.mp h with rfl | h
    · exact List.mem_cons_of_mem _ (List.mem_append_left _ ht)
    · exact List.mem_cons_of_mem _ (List.mem_append_right _ (ih h text ht))

/-- A field is of the texts of its object. -/
theorem encodes_field {j : Json} (hj : ∀ text ∈ texts j, E.encodes text = true) (name : String) :
    ∀ text ∈ texts (field j name), E.encodes text = true := by
  intro text ht
  match j with
  | .null | .bool _ | .int _ | .float _ | .str _ | .arr _ => cases ht
  | .obj kvs =>
    unfold field at ht
    rcases hx : kvs.lookup name with - | x
    · have hnone : (Json.obj kvs).get? name = none := hx
      rw [hnone] at ht
      cases ht
    · have hsome : (Json.obj kvs).get? name = some x := hx
      rw [hsome] at ht
      exact hj text (texts_mem_fields (mem_of_lookup hx) text ht)

/-- A text of a value that encodes does. -/
theorem encodes_textOf {j : Json} (hj : ∀ text ∈ texts j, E.encodes text = true) :
    E.encodes (textOf j) = true := by
  cases j with
  | str s => exact hj s (List.mem_singleton_self s)
  | _ => rfl

/-- What has been hashed has its UTF-8. -/
theorem encodes_of_envelopeSha256 {envelope : Json} {sha256 : String}
    (h : envelopeSha256 E envelope = .ok sha256) :
    ∀ text ∈ texts envelope, E.encodes text = true := by
  unfold envelopeSha256 canonicalJsonBytes at h
  simp only [Checked.bind_eq_ok_iff] at h
  obtain ⟨bytes, ⟨-, -, hbytes⟩, -⟩ := h
  split at hbytes
  · cases hbytes
  · rename_i hall
    simpa using hall

/-- What a verified result was read from: an envelope of texts that have
their UTF-8. -/
structure ReadFrom (E : Engine) (result : VerifiedDelegatedResult) : Prop where
  proper : result.envelope.Proper
  context : contextOf E result.envelope = .ok result.context
  sha256 : envelopeSha256 E result.envelope = .ok result.envelopeSha256
  given : ∀ text ∈ result.given, E.encodes text = true

/-- **A verified result is for the turn it was expected for**, and says
what its envelope does. -/
theorem parseAndVerifyEnvelope_eq_ok {raw : ByteArray} {expected : DelegatedBinding}
    {trust : DelegatedRegistration} {now : Instant} {result : VerifiedDelegatedResult}
    (h : parseAndVerifyEnvelope E raw expected trust now = .ok result) :
    result.binding = expected ∧ ReadFrom E result := by
  unfold parseAndVerifyEnvelope at h
  simp only [Checked.bind_eq_ok_iff] at h
  obtain ⟨envelope, hparse, -, -, binding, -, h⟩ := h
  split at h
  · cases h
  rename_i hbinding
  simp only [Checked.bind_eq_ok_iff] at h
  obtain ⟨-, -, -, -, context, hcontext, -, -, sha256, hsha256, h⟩ := h
  cases h
  have hproper : envelope.Proper := by
    unfold parseJsonStrict at hparse
    split at hparse
    · cases hparse
    · split at hparse <;> cases hparse
      exact E.loadsClosed.proper ‹_›
  have hencodes := encodes_of_envelopeSha256 hsha256
  refine ⟨not_not.mp hbinding, hproper, hcontext, hsha256, ?_⟩
  simp only [VerifiedDelegatedResult.given, List.forall_mem_cons]
  have htext {j : Json} (hj : ∀ text ∈ texts j, E.encodes text = true) (name : String) :
      E.encodes (textOf (field j name)) = true := encodes_textOf (encodes_field hj name)
  exact ⟨htext (encodes_field hencodes _) _, htext (encodes_field hencodes _) _,
    htext (encodes_field hencodes _) _, htext (encodes_field hencodes _) _, htext hencodes _,
    htext (encodes_field hencodes _) _, htext (encodes_field hencodes _) _,
    htext (encodes_field hencodes _) _, htext hencodes _, htext hencodes _, htext hencodes _,
    fun _ hno => absurd hno List.not_mem_nil⟩

/-- **Preparing a turn keeps to the guarantee**, and its answer says what
the tables hold. -/
theorem safe_prepare (hR : Relies R) (hw : Keeps w₀ h.now) :
    SafePart R w₀ (fun r w => ∀ p, r = some p → Answers E k p w) (prepare E k) log h := by
  have hfail : ∀ {log h}, Keeps w₀ h.now → ∀ registration exc, SafePart R w₀
      (fun r w => ∀ p, r = some p → Answers E k p w) (some <$> fail E k registration exc) log h :=
    fun hw registration exc => safe_map ((safe_fail hR hw registration exc).mono
      fun _ _ _ hr => ⟨hr.1, fun p hp q hq => by cases hq; exact hr.2 p hp⟩)
  unfold prepare
  rcases hregistration : k.registration with exc | - | registration
  · exact hfail hw none exc
  · refine safe_pure hw fun p hp => ?_
    cases hp
  · refine safe_bind (safe_attempt (safe_acceptResponse hR hw registration)) fun r log₁ h₁ hw₁ hr => ?_
    rcases r with exc | ⟨result, acceptance⟩
    · exact hfail hw₁ (some registration) exc
    · obtain ⟨⟨raw, hraw, hverified⟩, hmem, hturn, hsha256⟩ := hr _ rfl
      rw [(parseAndVerifyEnvelope_eq_ok hverified).1] at hturn
      -- from here on the acceptance stays
      refine safe_map (Safe.mono (fun _ _ h₂ hr₂ => ?_)
        (safe_authorize hR (Keeps.refl h₁.now) registration))
      refine ⟨hw₁.trans hr₂.1, fun p hp q hq => ?_⟩
      cases hq
      obtain ⟨hfallback, hinject⟩ := hr₂.2 p hp
      refine ⟨fun hi => ?_, fun hf => ?_⟩
      · obtain ⟨hacceptance, hresult, hcontext⟩ := hinject hi
        exact ⟨result, ⟨raw, registration, hraw, hregistration, hverified⟩,
          ⟨acceptance.row, hr₂.1.acceptances _ hmem, hturn, hsha256, hacceptance⟩, hresult,
          hcontext⟩
      · rw [hfallback] at hf
        cases hf

end Atmem.Delegated
