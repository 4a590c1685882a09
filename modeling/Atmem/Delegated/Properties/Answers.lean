import Atmem.Delegated.Helpers.Closing
import Atmem.Delegated.Properties.Authority
/-!
# When a delegated turn is answered

What fails before the acceptance falls into one handler, and the handler
closes the turn again. A turn that is closed differently refuses it, and one
of a text that has no UTF-8 cannot even be looked for; then nothing is
returned: `prepare` raises, however available the store is.
-/

namespace Atmem.Delegated

open Interleaving Relational Transactional

variable {E : Engine} {w w' : DelegatedWorld} {k : PrepareCall}

/-! ## After an acceptance -/

/-- A failed delivery answers with its acceptance. -/
theorem exec_failDelivery (acceptance : Acceptance) (result : VerifiedDelegatedResult)
    (event : Option String) (exc : Raised) (w : DelegatedWorld) : ∃ p w',
      (failDelivery E k acceptance result event exc).exec w = (.ok p, w') ∧
        p.acceptanceId = some acceptance.row.id := by
  unfold failDelivery
  rw [Eff.exec_bind_ok (exec_attempt _ w)]
  exact ⟨_, _, rfl, rfl⟩

/-- What is accepted is answered, whatever becomes of its delivery. -/
theorem exec_authorize (registration : DelegatedRegistration) (acceptance : Acceptance)
    (result : VerifiedDelegatedResult) (w : DelegatedWorld) : ∃ p w',
      (authorize E k registration acceptance result).exec w = (.ok p, w') ∧
        p.acceptanceId = some acceptance.row.id := by
  unfold authorize
  dsimp only
  rw [Eff.exec_bind_ok (exec_attempt _ w)]
  generalize Eff.exec _ w = authorization
  obtain ⟨exc | event, w₁⟩ := authorization
  · exact exec_failDelivery acceptance result none exc w₁
  dsimp only
  rw [Eff.exec_bind_ok (exec_attempt _ w₁)]
  rw [Eff.exec_bind]
  generalize (deliver E k acceptance result).exec w₁ = delivered
  obtain ⟨exc | exposure, w₂⟩ := delivered
  · exact exec_failDelivery acceptance result (some event) exc w₂
  dsimp only
  rcases publicKeyFingerprint E registration.publicKeyBase64 with exc | fingerprint
  · exact exec_failDelivery acceptance result (some event) exc w₂
  · exact ⟨_, w₂, rfl, rfl⟩

/-! ## The law -/

/-- Drawing does not change what can be closed. -/
theorem Closable.drawn {disposition : Disposition} (h : Drawn w w') :
    Closable E w' k.turn disposition ↔ Closable E w k.turn disposition := by
  unfold Closable
  rw [h.store, h.reservations]

/-- Nor where the one entry is. -/
theorem OneEntry.drawn {w₀ w₁ : DelegatedWorld} (h : Drawn w₀ w) (he : OneEntry k w w₁) :
    OneEntry k w₀ w₁ := by
  unfold OneEntry at he
  rw [h.store] at he
  exact he

/-- The call returns, and what it does not accept has left one entry. -/
def PrepareAnswers (E : Engine) (k : PrepareCall) (w : DelegatedWorld) : Prop :=
  ∃ answer w', (prepare E k).exec w = (.ok answer, w') ∧
    ∀ p, answer = some p → p.acceptanceId = none → OneEntry k w w'

/-- What the turn and its history must allow: the response is accepted, or the
turn can be closed as its failure closes it and the key can be named. -/
def Allows (E : Engine) (k : PrepareCall) (w : DelegatedWorld) : Prop :=
  match k.registration with
  | .error _ => Closable E w k.turn (closing none)
  | .ok none => True
  | .ok (some registration) => Takes E w k registration ∨
      (Closable E w k.turn (closing (some registration)) ∧ Named E (some registration))

/-- A failure, as `prepare` returns it. -/
theorem prepareAnswers_fail {registration : Option DelegatedRegistration} {exc : Raised}
    {w₁ : DelegatedWorld} (hopen : ∀ point, k.locked point = false) (hf : FreshDraws E w)
    (hdrawn : Drawn w w₁)
    (hprepare : (prepare E k).exec w = (some <$> fail E k registration exc).exec w₁) :
    PrepareAnswers E k w ↔ Closable E w k.turn (closing registration) ∧ Named E registration := by
  obtain ⟨hok, herror⟩ := exec_fail hopen (hf.drawn hdrawn) registration exc
  rw [Closable.drawn hdrawn] at hok herror
  rw [Eff.exec_map] at hprepare
  constructor
  · rintro ⟨answer, w', hexec, -⟩
    by_contra hnot
    obtain ⟨e, w₂, hfail⟩ := herror hnot
    rw [hprepare, hfail] at hexec
    cases hexec
  · intro hclosed
    obtain ⟨p, w', hfail, -, hentry⟩ := hok hclosed
    rw [hfail] at hprepare
    refine ⟨some p, w', hprepare, ?_⟩
    rintro q hq -
    exact hentry.drawn hdrawn

/-- A response that is accepted is authorised. -/
theorem exec_prepare_of_ok {registration : DelegatedRegistration}
    {result : VerifiedDelegatedResult} {acceptance : Acceptance} {w₁ : DelegatedWorld}
    (hregistration : k.registration = .ok (some registration))
    (haccepted : (acceptResponse E k registration).exec w = (.ok (result, acceptance), w₁)) :
    (prepare E k).exec w = (some <$> authorize E k registration acceptance result).exec w₁ := by
  unfold prepare
  rw [hregistration]
  dsimp only
  rw [Eff.exec_bind_ok (exec_attempt _ w), haccepted]

/-- A response that is not accepted fails the turn. -/
theorem exec_prepare_of_error {registration : DelegatedRegistration} {exc : Raised}
    {w₁ : DelegatedWorld} (hregistration : k.registration = .ok (some registration))
    (hfailed : (acceptResponse E k registration).exec w = (.error exc, w₁)) :
    (prepare E k).exec w = (some <$> fail E k (some registration) exc).exec w₁ := by
  unfold prepare
  rw [hregistration]
  dsimp only
  rw [Eff.exec_bind_ok (exec_attempt _ w), hfailed]

/-- **A delegated turn is answered exactly where its history allows it.** -/
theorem prepare_answers_iff (hopen : ∀ point, k.locked point = false) (hf : FreshDraws E w) :
    PrepareAnswers E k w ↔ Allows E k w := by
  have hnamed : Named E none := fun r hr => absurd hr (Option.not_mem_none r)
  unfold Allows
  rcases hregistration : k.registration with exc | - | registration
  · have hprepare : (prepare E k).exec w = (some <$> fail E k none exc).exec w := by
      unfold prepare
      rw [hregistration]
    rw [prepareAnswers_fail hopen hf (Drawn.refl w) hprepare]
    exact and_iff_left hnamed
  · have hprepare : (prepare E k).exec w = (.ok none, w) := by
      unfold prepare
      rw [hregistration]
      rfl
    refine iff_of_true ⟨none, w, hprepare, ?_⟩ trivial
    rintro p hp
    cases hp
  · obtain ⟨htaken, hrefused⟩ := exec_acceptResponse hopen hf registration
    by_cases htakes : Takes E w k registration
    · refine iff_of_true ?_ (.inl htakes)
      obtain ⟨⟨result, acceptance⟩, w₁, haccepted⟩ := htaken htakes
      obtain ⟨p, w', hauthorize, hid⟩ := exec_authorize (E := E) (k := k) registration acceptance
        result w₁
      have hprepare := exec_prepare_of_ok hregistration haccepted
      rw [Eff.exec_map, hauthorize] at hprepare
      refine ⟨some p, w', hprepare, ?_⟩
      rintro q hq hnone
      cases hq
      rw [hid] at hnone
      cases hnone
    · obtain ⟨exc, w₁, hfailed, hdrawn⟩ := hrefused htakes
      rw [prepareAnswers_fail hopen hf hdrawn (exec_prepare_of_error hregistration hfailed)]
      exact (or_iff_right htakes).symm

/-! ## Two runs -/

theorem exampleEngine_encodes (text : String) : exampleEngine.encodes text = true :=
  List.all_eq_true.mpr fun _ _ => rfl

/-- A provider that does not answer. -/
def silentCall : PrepareCall :=
  { exampleCall with response := .error ⟨"DelegatedProviderError", "provider is down"⟩ }

/-- The law, where the provider is down at the first try. -/
theorem answers_a_silent_provider : Allows exampleEngine silentCall exampleWorld ∧
    PrepareAnswers exampleEngine silentCall exampleWorld := by
  have hfresh : FreshDraws exampleEngine exampleWorld :=
    ⟨fun _ _ r hr => absurd hr (List.not_mem_nil), fun _ _ a ha => absurd ha (List.not_mem_nil),
      fun _ _ r hr => absurd hr (List.not_mem_nil)⟩
  have hnamed : Named exampleEngine exampleCall.registration.toOption.join := by
    intro r hr
    obtain rfl := Option.mem_some_iff.mp hr
    exact ⟨_, rfl⟩
  have hallows : Allows exampleEngine silentCall exampleWorld :=
    .inr ⟨⟨fun _ _ => exampleEngine_encodes _, List.mem_singleton_self _, fun r hr => absurd hr (List.not_mem_nil)⟩, hnamed⟩
  exact ⟨hallows, (prepare_answers_iff (fun _ => rfl) hfresh).mpr hallows⟩

/-- An accepted turn is prepared again while its provider is down: the handler
cannot close it as a failure, and raises. -/
theorem an_accepted_turn_raises :
    ¬ PrepareAnswers exampleEngine silentCall
      ((prepare exampleEngine exampleCall).exec exampleWorld).2 := by
  rintro ⟨answer, w', hexec, -⟩
  have hraised : ((prepare exampleEngine silentCall).exec
      ((prepare exampleEngine exampleCall).exec exampleWorld).2).1.toOption.isSome = false := by
    decide +kernel
  rw [hexec] at hraised
  cases hraised

/-- So does one whose run is named by half of a surrogate pair. -/
example : ((prepare { exampleEngine with
      surrogate := fun c => decide (c.toNat = 0xE000)
      surrogate_ascii := fun c h => by have := of_decide_eq_true h; omega }
    { silentCall with turn.binding.runId := "\uE000" }).exec
      exampleWorld).1.toOption.isSome = false := by
  decide +kernel

end Atmem.Delegated
