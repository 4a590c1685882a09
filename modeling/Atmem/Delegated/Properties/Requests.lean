import Atmem.Common.Checked
import Atmem.Delegated.Model.Transport
/-!
# A signed request is accepted once

The ledger forgets a nonce once the clock has passed its expiry, and the
high-water mark keeps the clock from going back before it: a nonce that is
taken again is taken after the first request has expired. The lock of the
keyring keeps a key from being revoked between the check and the acceptance.
-/

namespace Atmem.Delegated.Transport

open Relational History

variable {M : Mac} {s s' : Service} {i j : ℕ} {p : Call} {now : ℤ}

/-! ## The ledger -/

/-- **What a reservation does**: the clock has not gone back, what has
expired is forgotten, and the nonce was not there. -/
theorem Ledger.reserve_eq_ok {l l' : Ledger} {scope nonce : String} {expires : ℤ}
    (h : l.reserve scope nonce expires now = .ok l') :
    (∀ high, l.highwater = some high → high ≤ now) ∧ l'.highwater = some now ∧
      (∀ r ∈ l.nonces.rows, now < r.expires → r ∈ l'.nonces.rows ∧ r.key ≠ (scope, nonce)) ∧
      ⟨scope, nonce, expires⟩ ∈ l'.nonces.rows := by
  unfold reserve at h
  split at h
  · cases h
  rename_i hclock
  dsimp only at h
  split at h
  · cases h
  split at h
  · rename_i nonces hinsert
    cases h
    obtain ⟨hfresh, hrows⟩ := Table.insert_eq_some.mp hinsert
    refine ⟨fun high hhigh => ?_, rfl, fun r hr hlive => ?_, ?_⟩
    · rw [hhigh] at hclock
      simpa using hclock
    · have hkept : r ∈ (l.nonces.delete fun r => r.expires ≤ now).rows := by
        simpa [Table.rows_delete] using ⟨hr, hlive⟩
      refine ⟨?_, ?_⟩
      · show r ∈ nonces.rows
        rw [hrows]
        exact List.mem_append_left _ hkept
      · have hclash := hfresh r hkept
        simpa [nonceClash, NonceRow.key] using hclash
    · show _ ∈ nonces.rows
      rw [hrows]
      exact List.mem_append_right _ List.mem_cons_self
  · cases h

/-! ## Authentication -/

/-- **What an authenticated request is**: signed under a key of the keyring
that has not lapsed, by whom the authenticator speaks for. -/
structure Authentic (M : Mac) (s : Service) (p : Call) (now : ℤ) : Prop where
  fresh : now < p.fields.expiresAt
  key : ∃ ring key secret text, s.rings p.authenticator.keyring = some ring ∧
    ring.valid = true ∧ key ∈ ring.keys ∧ key.keyId = p.fields.keyId ∧
    (∀ lapse, key.validUntil = some lapse → now < lapse) ∧
    s.secrets key.secretFile = some secret ∧ signingInput M p.request p.fields = .ok text ∧
    p.fields.signature = M.hmac secret text

/-- A key ring that is loaded is the one stored, and valid. -/
theorem Service.loadKeyring_eq_ok {path : KeyringPath} {ring : Keyring}
    (h : s.loadKeyring path = .ok ring) : s.rings path = some ring ∧ ring.valid = true := by
  unfold loadKeyring at h
  split at h
  · rename_i ring' hring
    split at h
    · rename_i hvalid
      cases h
      exact ⟨hring, hvalid⟩
    · cases h
  · cases h

/-- So is a secret. -/
theorem Service.loadSecret_eq_ok {file : String} {secret : ByteArray}
    (h : s.loadSecret file = .ok secret) : s.secrets file = some secret := by
  unfold loadSecret at h
  split at h
  · rename_i secret' hsecret
    cases h
    exact hsecret
  · cases h

/-- What a request that is authenticated is. -/
theorem authenticate_eq_ok (h : authenticate M s p now = .ok ()) : Authentic M s p now := by
  unfold authenticate at h
  dsimp only at h
  split at h
  · cases h
  rename_i htime
  simp only [Checked.bind_eq_ok_iff] at h
  obtain ⟨ring, hring, h⟩ := h
  obtain ⟨hload, hvalid⟩ := Service.loadKeyring_eq_ok hring
  split at h
  · cases h
  split at h
  · cases h
  rename_i key hkey
  split at h
  · cases h
  rename_i hlapse
  simp only [Checked.bind_eq_ok_iff] at h
  obtain ⟨secret, hsecret, text, htext, h⟩ := h
  split at h
  · cases h
  rename_i hsignature
  refine ⟨by omega, ring, key, secret, text, hload, hvalid, List.mem_of_find?_eq_some hkey, ?_,
    fun lapse hlapses => ?_, Service.loadSecret_eq_ok hsecret, htext, not_not.mp hsignature⟩
  · simpa using List.find?_some hkey
  · rw [hlapses] at hlapse
    simpa using hlapse

/-! ## What a step does -/

/-- The reading of the clock a nonce was reserved at, of a call that holds
it. -/
def Call.taken (p : Call) : Option ℤ :=
  match p.stage with
  | .reserved now | .accepted now => some now
  | _ => none

/-- The call has the lock of its keyring. -/
def Call.holds (p : Call) : Prop :=
  match p.stage with
  | .holding | .authenticated _ | .reserved _ => True
  | _ => False

/-- The reading of the clock a call in the lock was authenticated at. -/
def Call.authenticatedAt (p : Call) : Option ℤ :=
  match p.stage with
  | .authenticated now | .reserved now => some now
  | _ => none

/-- The row of the nonce of a call. -/
def Call.row (p : Call) : NonceRow := ⟨p.authenticator.scope, p.fields.nonce, p.fields.expiresAt⟩

/-- The cause of a request that is late for its own reservation. -/
def lateCause : String := "request expired while reserving nonce"

/-- How a call may be rejected: once its nonce is reserved, for being late
alone. -/
def Call.Rejectable (p : Call) (cause : String) : Prop :=
  match p.stage with
  | .holding | .authenticated _ => True
  | .reserved _ => cause = lateCause
  | _ => False

/-- The call is under way. -/
def Call.Live (p : Call) : Prop :=
  match p.stage with
  | .accepted _ | .rejected _ | .dead => False
  | _ => True

/-- A step: what is answered, and what it leaves. -/
inductive Moves (M : Mac) (s : Service) : Event → Answer → Service → Prop
  | stay {e : Event} {a : Answer} (ha : a ≠ .reserved ∧ a ≠ .accepted) : Moves M s e a s
  | arrive {a : Authenticator} {q : Request} {f : Fields} {now : ℤ} (hread : readFields q = .ok f) :
      Moves M s (.arrive a q now) .done { s with calls := s.calls ++ [⟨a, q, f, .waiting⟩] }
  | lock {i : ℕ} {p : Call} (hp : s.calls[i]? = some p) (hstage : p.stage = .waiting)
      (hfree : s.locks p.authenticator.keyring = none) :
      Moves M s (.lock i) .done { s.advance i p .holding with
        locks := Function.update s.locks p.authenticator.keyring (some i) }
  | authenticate {i : ℕ} {p : Call} {now : ℤ} (hp : s.calls[i]? = some p)
      (hstage : p.stage = .holding) (hok : authenticate M s p now = .ok ()) :
      Moves M s (.authenticate i now) .done (s.advance i p (.authenticated now))
  | reserve {i : ℕ} {p : Call} {now : ℤ} {ledger : Ledger} (hp : s.calls[i]? = some p)
      (hstage : p.stage = .authenticated now)
      (hok : s.ledger.reserve p.authenticator.scope p.fields.nonce p.fields.expiresAt now =
        .ok ledger) :
      Moves M s (.reserve i false) .reserved { s.advance i p (.reserved now) with ledger }
  | reject {e : Event} {i : ℕ} {p : Call} {cause : String} (hp : s.calls[i]? = some p)
      (he : e.call = some i) (hcause : p.Rejectable cause) :
      Moves M s e (.rejected cause) (s.finish i p (.rejected cause))
  | accept {i : ℕ} {p : Call} {reservedAt now : ℤ} (hp : s.calls[i]? = some p)
      (hstage : p.stage = .reserved reservedAt) (hlive : now < p.fields.expiresAt) :
      Moves M s (.conclude i now) .accepted (s.finish i p (.accepted reservedAt))
  | crash {i : ℕ} {p : Call} (hp : s.calls[i]? = some p) (hlive : p.Live) :
      Moves M s (.crash i) .done (s.finish i p .dead)
  | change {e : Event} {path : KeyringPath} {ring : Option Keyring}
      {secrets : String → Option ByteArray} (he : e.call = none) (hfree : s.locks path = none)
      (hsecrets : ∀ file secret, s.secrets file = some secret → secrets file = some secret) :
      Moves M s e .done { s with rings := Function.update s.rings path ring, secrets }

/-- Nothing may happen. -/
theorem stays {e : Event} : Moves M s e .idle s := .stay ⟨nofun, nofun⟩

/-- A request that arrives has its fields. -/
theorem readFields_of_arrive {q : Request} {f : Fields} (h : Transport.arrive q now = .ok f) :
    readFields q = .ok f := by
  unfold Transport.arrive at h
  simp only [Checked.bind_eq_ok_iff] at h
  obtain ⟨f', hread, h⟩ := h
  split at h
  · cases h
  · cases h
    exact hread

/-- A configuration writes the keyring, and a credential that was not there. -/
theorem moves_configureKeyring {c : Configuration} (hfree : s.locks c.path = none)
    (h : s.configureKeyring c = .ok s') : Moves M s (.configure c) .done s' := by
  unfold Service.configureKeyring at h
  dsimp only at h
  split at h
  · cases h
  split at h
  · cases h
  simp only [Checked.bind_eq_ok_iff] at h
  obtain ⟨old, -, h⟩ := h
  split at h
  · cases h
  rename_i hfresh
  cases h
  refine .change rfl hfree fun file secret hsecret => ?_
  by_cases hfile : file = c.secretFile
  · rw [hfile] at hsecret
    rw [hsecret] at hfresh
    exact absurd rfl hfresh
  · rw [Function.update_of_ne hfile]
    exact hsecret

/-- Revoking a key is a move. -/
theorem moves_revokeKey {path : KeyringPath} {keyId : String} (hfree : s.locks path = none)
    (h : s.revokeKey path keyId = .ok s') : Moves M s (.revoke path keyId) .done s' := by
  unfold Service.revokeKey at h
  simp only [Checked.bind_eq_ok_iff] at h
  obtain ⟨value, -, h⟩ := h
  split at h
  · cases h
  split at h
  · cases h
  cases h
  exact .change rfl hfree fun _ _ hsecret => hsecret

/-- So is every change of the key ring. -/
theorem moves_change {e : Event} {path : KeyringPath} {result : Except String Service}
    (h : ∀ s', s.locks path = none → result = .ok s' → Moves M s e .done s') :
    Moves M s e (s.change path result).1 (s.change path result).2 := by
  unfold Service.change
  split
  · rename_i hfree
    rcases result with reason | s'
    · exact .stay ⟨nofun, nofun⟩
    · exact h s' hfree rfl
  · exact stays

/-- An event of a call, at the stage the call is at. -/
theorem moves_act {e : Event} (hp : s.calls[i]? = some p) (he : e.call = some i) :
    Moves M s e (s.act M i p e).1 (s.act M i p e).2 := by
  cases e with
  | arrive a q now => cases he
  | configure c => cases he
  | revoke path keyId => cases he
  | lock k =>
    cases he
    simp only [Service.act, Service.lock]
    split
    · rename_i hstage
      split
      · rename_i hfree
        exact .lock hp hstage hfree
      · exact stays
    · exact stays
  | authenticate k now =>
    cases he
    simp only [Service.act]
    split
    · rename_i hstage
      split
      · rename_i hok
        exact .authenticate hp hstage hok
      · exact .reject hp rfl (by simp only [Call.Rejectable, hstage])
    · exact stays
  | reserve k fails =>
    cases he
    simp only [Service.act, Service.reserve]
    split
    · rename_i now hstage
      -- a failure at this stage rejects, whatever its cause
      have hany : ∀ cause, p.Rejectable cause := fun cause => by
        simp only [Call.Rejectable, hstage]
      cases fails with
      | true => exact .reject hp rfl (hany _)
      | false =>
        rw [if_neg Bool.false_ne_true]
        split
        · exact .reject hp rfl (hany _)
        · rename_i ledger hok
          exact .reserve hp hstage hok
    · exact stays
  | conclude k now =>
    cases he
    simp only [Service.act, Service.conclude]
    split
    · rename_i reservedAt hstage
      split
      · exact .reject hp rfl (by simp only [Call.Rejectable, hstage, lateCause])
      · rename_i hlive
        exact .accept hp hstage (not_le.mp hlive)
    · exact stays
  | crash k =>
    cases he
    simp only [Service.act]
    split
    · exact stays
    · exact stays
    · exact stays
    · rename_i haccepted hrejected hdead
      refine .crash hp ?_
      unfold Call.Live
      split
      · rename_i hstage
        exact haccepted _ hstage
      · rename_i hstage
        exact hrejected _ hstage
      · rename_i hstage
        exact hdead hstage
      · trivial

/-- **A step is one of these.** -/
theorem moves_step (e : Event) : Moves M s e (s.step M e).1 (s.step M e).2 := by
  cases e
  case arrive a q now =>
    unfold Service.step
    dsimp only
    split
    · rename_i f hf
      exact .arrive (readFields_of_arrive hf)
    · exact .stay ⟨by simp, by simp⟩
  case configure c => exact moves_change fun s' hfree hok => moves_configureKeyring hfree hok
  case revoke path keyId => exact moves_change fun s' hfree hok => moves_revokeKey hfree hok
  all_goals
    -- an event of a call that is there
    unfold Service.step
    dsimp only
    split
    · rename_i p hp
      exact moves_act hp rfl
    · exact stays

/-! ## The invariant -/

/-- A nonce that is taken: its row is there, or the clock has passed its
expiry. -/
structure Kept (l : Ledger) (r : NonceRow) (now : ℤ) : Prop where
  fresh : now < r.expires
  marked : ∃ high, l.highwater = some high ∧ now ≤ high ∧ (r ∈ l.nonces.rows ∨ r.expires ≤ high)

/-- What is so of one call. -/
structure CallGood (M : Mac) (s : Service) (i : ℕ) (p : Call) : Prop where
  read : readFields p.request = .ok p.fields
  held : p.holds → s.locks p.authenticator.keyring = some i
  authentic : ∀ now, p.authenticatedAt = some now → Authentic M s p now
  kept : ∀ now, p.taken = some now → Kept s.ledger p.row now

/-- What is so of every reachable state. -/
structure Guarded (M : Mac) (s : Service) : Prop where
  good : ∀ i p, s.calls[i]? = some p → CallGood M s i p
  apart : ∀ (i j : ℕ) (p p' : Call) (now now' : ℤ), i ≠ j → s.calls[i]? = some p → s.calls[j]? = some p' →
    p.taken = some now → p'.taken = some now' → p.row.key = p'.row.key →
      p.row.expires ≤ now' ∨ p'.row.expires ≤ now

/-- A call that was authenticated holds the lock. -/
theorem holds_of_authenticatedAt (h : p.authenticatedAt = some now) : p.holds := by
  unfold Call.authenticatedAt at h
  unfold Call.holds
  split at h <;> simp_all

/-- A reservation keeps what was taken. -/
theorem Kept.reserve {l l' : Ledger} {r : NonceRow} {taken : ℤ} {scope nonce : String}
    {expires : ℤ} (hk : Kept l r taken) (h : l.reserve scope nonce expires now = .ok l') :
    Kept l' r taken := by
  obtain ⟨hclock, hmark, hrows, -⟩ := Ledger.reserve_eq_ok h
  obtain ⟨high, hhigh, hle, hrow⟩ := hk.marked
  have hnow : high ≤ now := hclock high hhigh
  refine ⟨hk.fresh, now, hmark, hle.trans hnow, ?_⟩
  rcases hrow with hrow | hpast
  · by_cases hlive : now < r.expires
    · exact Or.inl (hrows r hrow hlive).1
    · exact Or.inr (not_lt.mp hlive)
  · exact Or.inr (hpast.trans hnow)

/-- **A nonce that is taken again is taken after its expiry.** -/
theorem Kept.expired {l l' : Ledger} {r : NonceRow} {taken : ℤ} {scope nonce : String}
    {expires : ℤ} (hk : Kept l r taken) (h : l.reserve scope nonce expires now = .ok l')
    (hkey : r.key = (scope, nonce)) : r.expires ≤ now := by
  obtain ⟨hclock, -, hrows, -⟩ := Ledger.reserve_eq_ok h
  obtain ⟨high, hhigh, -, hrow⟩ := hk.marked
  rcases hrow with hrow | hpast
  · by_contra hlive
    exact (hrows r hrow (not_le.mp hlive)).2 hkey
  · exact hpast.trans (hclock high hhigh)

/-- A request stays authentic while its ring does. -/
theorem Authentic.of_eq (ha : Authentic M s p now)
    (hring : s'.rings p.authenticator.keyring = s.rings p.authenticator.keyring)
    (hsecrets : ∀ file secret, s.secrets file = some secret → s'.secrets file = some secret) :
    Authentic M s' p now := by
  obtain ⟨hfresh, ring, key, secret, text, hload, hvalid, hkey, hid, hlapse, hsecret, hrest⟩ := ha
  exact ⟨hfresh, ring, key, secret, text, hring ▸ hload, hvalid, hkey, hid, hlapse,
    hsecrets _ _ hsecret, hrest⟩

/-- A call is as good as it was, where the others leave it its lock, its
keyring and its nonce. -/
theorem CallGood.frame (hg : CallGood M s i p)
    (hlocks : p.holds → s'.locks p.authenticator.keyring = s.locks p.authenticator.keyring)
    (hring : p.holds → s'.rings p.authenticator.keyring = s.rings p.authenticator.keyring)
    (hsecrets : ∀ file secret, s.secrets file = some secret → s'.secrets file = some secret)
    (hledger : ∀ now, p.taken = some now → Kept s.ledger p.row now → Kept s'.ledger p.row now) :
    CallGood M s' i p := by
  refine ⟨hg.read, fun hh => ?_, fun now ha => ?_, fun now ht => hledger now ht (hg.kept now ht)⟩
  · rw [hlocks hh]
    exact hg.held hh
  · exact (hg.authentic now ha).of_eq (hring (holds_of_authenticatedAt ha)) hsecrets

/-- The calls after one of them has gone on. -/
theorem getElem?_set_calls {calls : List Call} {p' q : Call} (hp : calls[i]? = some p)
    (h : (calls.set i p')[j]? = some q) : (j = i ∧ q = p') ∨ (j ≠ i ∧ calls[j]? = some q) := by
  obtain ⟨hlt, -⟩ := List.getElem?_eq_some_iff.mp hp
  by_cases hij : i = j
  · subst hij
    rw [List.getElem?_set_self hlt] at h
    exact Or.inl ⟨rfl, (Option.some.inj h).symm⟩
  · rw [List.getElem?_set_ne hij] at h
    exact Or.inr ⟨fun h => hij h.symm, h⟩

/-- **One call goes on, and the others are as good as they were**: so is the
service. -/
theorem Guarded.set {p' : Call} (hg : Guarded M s) (hp : s.calls[i]? = some p)
    (hcalls : s'.calls = s.calls.set i p') (hown : CallGood M s' i p')
    (hothers : ∀ j q, j ≠ i → s.calls[j]? = some q → CallGood M s j q → CallGood M s' j q)
    (hapart : ∀ (j : ℕ) (q : Call) (now now' : ℤ), j ≠ i → s.calls[j]? = some q → q.taken = some now →
      p'.taken = some now' → q.row.key = p'.row.key →
        q.row.expires ≤ now' ∨ p'.row.expires ≤ now) : Guarded M s' := by
  refine ⟨fun j q hq => ?_, fun j k q r now now' hjk hq hr ht ht' hkey => ?_⟩
  · rw [hcalls] at hq
    rcases getElem?_set_calls hp hq with ⟨rfl, rfl⟩ | ⟨hne, hq⟩
    · exact hown
    · exact hothers j q hne hq (hg.good j q hq)
  · rw [hcalls] at hq hr
    rcases getElem?_set_calls hp hq with ⟨rfl, rfl⟩ | ⟨hne, hold⟩ <;>
      rcases getElem?_set_calls hp hr with ⟨rfl, rfl⟩ | ⟨hne', hold'⟩
    · exact absurd rfl hjk
    · exact (hapart k r now' now hne' hold' ht' ht hkey.symm).symm
    · exact hapart j q now now' hne hold ht ht' hkey
    · exact hg.apart j k q r now now' hjk hold hold' ht ht' hkey

/-- A call that has taken nothing new is apart from the others. -/
theorem Guarded.apart_of_taken {p' : Call} (hg : Guarded M s) (hp : s.calls[i]? = some p)
    (hrow : p'.row = p.row) (htaken : ∀ now, p'.taken = some now → p.taken = some now) :
    ∀ j q now now', j ≠ i → s.calls[j]? = some q → q.taken = some now → p'.taken = some now' →
      q.row.key = p'.row.key → q.row.expires ≤ now' ∨ p'.row.expires ≤ now := by
  intro j q now now' hne hq ht ht' hkey
  rw [hrow] at hkey ⊢
  exact hg.apart j i q p now now' hne hq hp ht (htaken now' ht') hkey

/-- Who holds a lock has it. -/
theorem Guarded.ne_of_free (hg : Guarded M s) {path : KeyringPath} (hfree : s.locks path = none)
    (hp : s.calls[i]? = some p) (hh : p.holds) : p.authenticator.keyring ≠ path := by
  intro heq
  have hheld := (hg.good i p hp).held hh
  rw [heq, hfree] at hheld
  cases hheld

/-- Taking the lock keeps the guard. -/
theorem Guarded.lock (hg : Guarded M s) (hp : s.calls[i]? = some p)
    (hfree : s.locks p.authenticator.keyring = none) :
    Guarded M { s.advance i p .holding with
      locks := Function.update s.locks p.authenticator.keyring (some i) } := by
  have hgood := hg.good i p hp
  refine hg.set hp rfl ⟨hgood.read, fun _ => ?_, nofun, nofun⟩ (fun j q hne hq hgq => ?_)
    (hg.apart_of_taken hp rfl nofun)
  · exact Function.update_self ..
  · refine hgq.frame (fun hh => ?_) (fun _ => rfl) (fun _ _ h => h) fun _ _ h => h
    exact Function.update_of_ne (hg.ne_of_free hfree hq hh) ..

/-- So does authenticating under it. -/
theorem Guarded.authenticate (hg : Guarded M s) (hp : s.calls[i]? = some p)
    (hstage : p.stage = .holding) (hok : authenticate M s p now = .ok ()) :
    Guarded M (s.advance i p (.authenticated now)) := by
  have hgood := hg.good i p hp
  have hholds : p.holds := by
    unfold Call.holds
    rw [hstage]
    trivial
  refine hg.set hp rfl ⟨hgood.read, fun _ => hgood.held hholds, fun now' ha => ?_, nofun⟩
    (fun j q hne hq hgq => ?_) (hg.apart_of_taken hp rfl nofun)
  · obtain rfl : now = now' := Option.some.inj ha
    obtain ⟨hfresh, hkey⟩ := authenticate_eq_ok hok
    exact ⟨hfresh, hkey⟩
  · exact hgq.frame (fun _ => rfl) (fun _ => rfl) (fun _ _ h => h) fun _ _ h => h

/-- So does reserving the nonce. -/
theorem Guarded.reserve {ledger : Ledger} (hg : Guarded M s) (hp : s.calls[i]? = some p)
    (hstage : p.stage = .authenticated now)
    (hok : s.ledger.reserve p.authenticator.scope p.fields.nonce p.fields.expiresAt now =
      .ok ledger) : Guarded M { s.advance i p (.reserved now) with ledger } := by
  have hgood := hg.good i p hp
  have hat : p.authenticatedAt = some now := by
    unfold Call.authenticatedAt
    rw [hstage]
  obtain ⟨hfresh, hkey⟩ := hgood.authentic now hat
  refine hg.set hp rfl ⟨hgood.read, fun _ => hgood.held (holds_of_authenticatedAt hat),
    fun now' ha => ?_, fun now' ht => ?_⟩ (fun j q hne hq hgq => ?_)
    fun j q taken now' hne hq ht ht' hsame => ?_
  · obtain rfl : now = now' := Option.some.inj ha
    exact ⟨hfresh, hkey⟩
  · obtain rfl : now = now' := Option.some.inj ht
    obtain ⟨-, hmark, -, hrow⟩ := Ledger.reserve_eq_ok hok
    exact ⟨hfresh, now, hmark, le_rfl, Or.inl hrow⟩
  · exact hgq.frame (fun _ => rfl) (fun _ => rfl) (fun _ _ h => h) fun _ _ hk => hk.reserve hok
  · -- the other nonce was taken before
    obtain rfl : now = now' := Option.some.inj ht'
    exact Or.inl (((hg.good j q hq).kept taken ht).expired hok hsame)

/-- A call that ends is the one at its index. -/
theorem finish_calls (stage : Stage) :
    (s.finish i p stage).calls = s.calls.set i { p with stage } := by
  unfold Service.finish
  dsimp only
  split <;> rfl

/-- Ending it changes nothing else. -/
theorem finish_rest (stage : Stage) : (s.finish i p stage).rings = s.rings ∧
    (s.finish i p stage).secrets = s.secrets ∧ (s.finish i p stage).ledger = s.ledger := by
  unfold Service.finish
  dsimp only
  split <;> exact ⟨rfl, rfl, rfl⟩

/-- A call gives up no lock but its own. -/
theorem finish_locks (stage : Stage) {path : KeyringPath} (h : s.locks path = some j)
    (hne : j ≠ i) : (s.finish i p stage).locks path = s.locks path := by
  unfold Service.finish
  dsimp only
  split
  · rename_i hown
    refine Function.update_of_ne (fun heq => ?_) ..
    rw [heq] at h
    exact hne (Option.some.inj (h.symm.trans hown))
  · rfl

/-- So does the end of a call. -/
theorem Guarded.finish {stage : Stage} (hg : Guarded M s) (hp : s.calls[i]? = some p)
    (hstage : (∃ cause, stage = .rejected cause) ∨ stage = .dead ∨
      ∃ now, p.stage = .reserved now ∧ stage = .accepted now) :
    Guarded M (s.finish i p stage) := by
  have hgood := hg.good i p hp
  obtain ⟨hrings, hsecrets, hledger⟩ := finish_rest (s := s) (i := i) (p := p) stage
  have hends : ¬ Call.holds { p with stage } ∧ Call.authenticatedAt { p with stage } = none ∧
      ∀ now, Call.taken { p with stage } = some now → p.taken = some now := by
    rcases hstage with ⟨cause, rfl⟩ | rfl | ⟨taken, hreserved, rfl⟩
    · exact ⟨id, rfl, nofun⟩
    · exact ⟨id, rfl, nofun⟩
    · refine ⟨id, rfl, fun now ht => ?_⟩
      unfold Call.taken
      rw [hreserved]
      exact ht
  obtain ⟨hholds, hat, htaken⟩ := hends
  refine hg.set hp (finish_calls stage) ⟨hgood.read, fun hh => absurd hh hholds, fun now ha => ?_,
    fun now ht => ?_⟩ (fun j q hne hq hgq => ?_) (hg.apart_of_taken hp rfl htaken)
  · rw [hat] at ha
    cases ha
  · rw [hledger]
    exact hgood.kept now (htaken now ht)
  · refine hgq.frame (fun hh => finish_locks stage (hgq.held hh) hne) (fun _ => by rw [hrings])
      (fun _ _ h => by rwa [hsecrets]) fun _ _ hk => by rwa [hledger]

/-- So does an arrival. -/
theorem Guarded.arrive {a : Authenticator} {q : Request} {f : Fields} (hg : Guarded M s)
    (hread : readFields q = .ok f) :
    Guarded M { s with calls := s.calls ++ [⟨a, q, f, .waiting⟩] } := by
  have hcalls : ∀ {j : ℕ} {r : Call}, (s.calls ++ [⟨a, q, f, .waiting⟩])[j]? = some r →
      s.calls[j]? = some r ∨ r = ⟨a, q, f, .waiting⟩ := by
    intro j r hr
    rcases Nat.lt_or_ge j s.calls.length with hlt | hge
    · rw [List.getElem?_append_left hlt] at hr
      exact Or.inl hr
    · rw [List.getElem?_append_right hge] at hr
      exact Or.inr (List.mem_singleton.mp (List.mem_of_getElem? hr))
  refine ⟨fun j r hr => ?_, fun j k r r' now now' hjk hr hr' ht ht' hkey => ?_⟩
  · rcases hcalls hr with hr | rfl
    · exact (hg.good j r hr).frame (fun _ => rfl) (fun _ => rfl) (fun _ _ h => h) fun _ _ h => h
    · exact ⟨hread, nofun, nofun, nofun⟩
  · rcases hcalls hr with hr | rfl
    · rcases hcalls hr' with hr' | rfl
      · exact hg.apart j k r r' now now' hjk hr hr' ht ht' hkey
      · cases ht'
    · cases ht

/-- **A step keeps the invariant.** -/
theorem Guarded.moves {e : Event} {a : Answer} (hg : Guarded M s) (hm : Moves M s e a s') :
    Guarded M s' := by
  cases hm with
  | stay => exact hg
  | arrive hread => exact hg.arrive hread
  | lock hp _ hfree => exact hg.lock hp hfree
  | authenticate hp hstage hok => exact hg.authenticate hp hstage hok
  | reserve hp hstage hok => exact hg.reserve hp hstage hok
  | reject hp _ _ => exact hg.finish hp (Or.inl ⟨_, rfl⟩)
  | accept hp hstage _ => exact hg.finish hp (Or.inr (Or.inr ⟨_, hstage, rfl⟩))
  | crash hp _ => exact hg.finish hp (Or.inr (Or.inl rfl))
  | change _ hfree hsecrets =>
    refine ⟨fun i p hp => ?_, hg.apart⟩
    refine (hg.good i p hp).frame (fun _ => rfl) (fun hh => ?_) hsecrets fun _ _ h => h
    exact Function.update_of_ne (hg.ne_of_free hfree hp hh) ..

/-- A step leaves the ledger alone, unless it is a reservation. -/
theorem Moves.ledger {e : Event} {a : Answer} (hm : Moves M s e a s') (ha : a ≠ .reserved) :
    s'.ledger = s.ledger := by
  cases hm with
  | stay | arrive | lock | authenticate | change => rfl
  | reserve => exact absurd rfl ha
  | reject => exact (finish_rest _).2.2
  | accept => exact (finish_rest _).2.2
  | crash => exact (finish_rest _).2.2

/-! ## A call that has reserved its nonce -/

/-- Where a call that has reserved its nonce may be. -/
def Call.Spent (p : Call) : Prop :=
  match p.stage with
  | .reserved _ | .accepted _ | .dead => True
  | .rejected cause => cause = lateCause
  | _ => False

/-- **What is reserved stays reserved.** -/
theorem Call.Spent.moves {e : Event} {a : Answer} (hspent : p.Spent) (hm : Moves M s e a s')
    (hp : s.calls[i]? = some p) : ∃ p', s'.calls[i]? = some p' ∧ p'.Spent := by
  -- of one call going on to a stage
  have hset : ∀ {j : ℕ} {q : Call} {stage : Stage}, s.calls[j]? = some q →
      (q.Spent → Call.Spent { q with stage }) →
        ∃ p', (s.calls.set j { q with stage })[i]? = some p' ∧ p'.Spent := by
    intro j q stage hq hspent'
    by_cases hji : j = i
    · subst hji
      obtain rfl : q = p := Option.some.inj (hq.symm.trans hp)
      obtain ⟨hlt, -⟩ := List.getElem?_eq_some_iff.mp hq
      exact ⟨_, List.getElem?_set_self hlt, hspent' hspent⟩
    · exact ⟨p, by rw [List.getElem?_set_ne hji, hp], hspent⟩
  cases hm with
  | stay | change => exact ⟨p, hp, hspent⟩
  | arrive =>
    obtain ⟨hlt, -⟩ := List.getElem?_eq_some_iff.mp hp
    exact ⟨p, by rw [List.getElem?_append_left hlt, hp], hspent⟩
  | lock hq hstage _ =>
    refine hset hq fun h => ?_
    simp only [Call.Spent, hstage] at h
  | authenticate hq hstage _ =>
    refine hset hq fun h => ?_
    simp only [Call.Spent, hstage] at h
  | reserve hq _ _ => exact hset hq fun _ => trivial
  | @reject _ j q cause hq _ hcause =>
    rw [finish_calls]
    refine hset hq fun h => ?_
    unfold Call.Rejectable at hcause
    unfold Call.Spent at h ⊢
    split at hcause <;> simp_all
  | accept hq _ _ =>
    rw [finish_calls]
    exact hset hq fun _ => trivial
  | crash hq _ =>
    rw [finish_calls]
    exact hset hq fun _ => trivial

/-- A reservation spends the nonce of its call. -/
theorem Moves.spent {e : Event} (hm : Moves M s e .reserved s') :
    ∃ i p, e.call = some i ∧ s'.calls[i]? = some p ∧ p.Spent := by
  cases hm with
  | stay ha => exact absurd rfl ha.1
  | @reserve i p now ledger hp _ _ =>
    obtain ⟨hlt, -⟩ := List.getElem?_eq_some_iff.mp hp
    exact ⟨i, _, rfl, List.getElem?_set_self hlt, trivial⟩

/-- An accepted call was accepted in this step, or before. -/
theorem Moves.accepted {e : Event} {a : Answer} {reservedAt : ℤ} (hm : Moves M s e a s')
    (hp : s'.calls[i]? = some p) (hstage : p.stage = .accepted reservedAt) :
    (∃ now, e = .conclude i now ∧ a = .accepted) ∨ s.calls[i]? = some p := by
  have hset : ∀ {j : ℕ} {q : Call} {stage : Stage}, s.calls[j]? = some q →
      (∀ now, stage ≠ .accepted now) → (s.calls.set j { q with stage })[i]? = some p →
        s.calls[i]? = some p := by
    intro j q stage hq hother hi
    rcases getElem?_set_calls hq hi with ⟨-, rfl⟩ | ⟨-, hold⟩
    · exact absurd hstage (hother _)
    · exact hold
  cases hm with
  | stay | change => exact Or.inr hp
  | arrive =>
    rcases Nat.lt_or_ge i s.calls.length with hlt | hge
    · rw [List.getElem?_append_left hlt] at hp
      exact Or.inr hp
    · rw [List.getElem?_append_right hge] at hp
      rw [List.mem_singleton.mp (List.mem_of_getElem? hp)] at hstage
      cases hstage
  | lock hq | authenticate hq | reserve hq => exact Or.inr (hset hq (by intro _ h; cases h) hp)
  | reject hq | crash hq =>
    rw [finish_calls] at hp
    exact Or.inr (hset hq (by intro _ h; cases h) hp)
  | @accept j q reservedAt now hq =>
    rw [finish_calls] at hp
    rcases getElem?_set_calls hq hp with ⟨rfl, -⟩ | ⟨-, hold⟩
    · exact Or.inl ⟨now, rfl, rfl⟩
    · exact Or.inr hold

/-- What is accepted had been reserved, and is accepted before its expiry. -/
theorem Moves.concluded (hm : Moves M s (.conclude i now) .accepted s') :
    ∃ q readAt, s.calls[i]? = some q ∧ q.stage = .reserved readAt ∧ now < q.fields.expiresAt := by
  cases hm with
  | stay ha => exact absurd rfl ha.2
  | accept hq hreserved hlive => exact ⟨_, _, hq, hreserved, hlive⟩

/-! ## Every run -/

/-- Nobody is at it. -/
def Started (s : Service) : Prop := s.calls = [] ∧ ∀ path, s.locks path = none

/-- Any calls by any processes, rotations and revocations, in any order, at
any readings of the clock. -/
abbrev ServiceRun (M : Mac) (s₀ : Service) (made : List (Event × Answer)) (s : Service) : Prop :=
  Run (Service.step M) (fun _ _ _ => True) (· = s₀) made s

variable {s₀ : Service} {made : List (Event × Answer)}

/-- **The invariant of a run.** -/
theorem guarded_of_run (h₀ : Started s₀) (hr : ServiceRun M s₀ made s) : Guarded M s := by
  refine hr.invariant (I := fun _ s => Guarded M s) (fun s hs => ?_) fun made s e _ _ hg =>
    hg.moves (moves_step e)
  subst hs
  refine ⟨fun i p hp => ?_, fun i j p p' now now' _ hp => ?_⟩ <;>
  · rw [h₀.1] at hp
    cases hp

/-- Every reservation of a run is spent. -/
theorem spent_of_run (hr : ServiceRun M s₀ made s) : ∀ e, (e, .reserved) ∈ made →
    ∃ i p, e.call = some i ∧ s.calls[i]? = some p ∧ p.Spent := by
  refine hr.invariant (I := fun made s => ∀ e, (e, .reserved) ∈ made →
    ∃ i p, e.call = some i ∧ s.calls[i]? = some p ∧ p.Spent) (fun s _ e he => nomatch he) ?_
  intro made s e _ _ hspent e' he'
  rcases List.mem_append.mp he' with he' | he'
  · obtain ⟨i, p, hcall, hp, hps⟩ := hspent e' he'
    obtain ⟨p', hp', hps'⟩ := hps.moves (moves_step e) hp
    exact ⟨i, p', hcall, hp', hps'⟩
  · obtain ⟨rfl, hreserved⟩ := Prod.mk.inj (List.mem_singleton.mp he')
    exact Moves.spent (hreserved ▸ moves_step e')

/-- An accepted call was accepted in a step of the run. -/
theorem accepted_of_run (h₀ : Started s₀) (hr : ServiceRun M s₀ made s) :
    ∀ i p reservedAt, s.calls[i]? = some p → p.stage = .accepted reservedAt →
      ∃ now, (.conclude i now, .accepted) ∈ made := by
  refine hr.invariant (I := fun made s => ∀ i p reservedAt, s.calls[i]? = some p →
    p.stage = .accepted reservedAt → ∃ now, (.conclude i now, .accepted) ∈ made) ?_ ?_
  · intro s hs i p reservedAt hp
    rw [hs, h₀.1] at hp
    cases hp
  · intro made s e _ _ hbefore i p reservedAt hp hstage
    rcases (moves_step e).accepted hp hstage with ⟨now, rfl, hanswer⟩ | hold
    · exact ⟨now, List.mem_append_right _ (List.mem_singleton.mpr (by rw [hanswer]))⟩
    · obtain ⟨now, hmem⟩ := hbefore i p reservedAt hold hstage
      exact ⟨now, List.mem_append_left _ hmem⟩

/-- What is so of signed requests, in a run. -/
structure AcceptedOnce (M : Mac) (s₀ : Service) (made : List (Event × Answer)) (s : Service) :
    Prop where
  /-- A nonce that is accepted again is accepted past the expiry of the
  request before. -/
  nonces : ∀ (i j : ℕ) (p p' : Call) (now now' : ℤ), i ≠ j → s.calls[i]? = some p →
    s.calls[j]? = some p' → p.stage = .accepted now → p'.stage = .accepted now' →
      p.authenticator.scope = p'.authenticator.scope → p.fields.nonce = p'.fields.nonce →
        (p.fields.expiresAt ≤ now' ∧ now' < p'.fields.expiresAt) ∨
          (p'.fields.expiresAt ≤ now ∧ now < p.fields.expiresAt)
  /-- No request is accepted twice. -/
  once : ∀ (i j : ℕ) (p p' : Call) (now now' : ℤ), s.calls[i]? = some p →
    s.calls[j]? = some p' → p.stage = .accepted now → p'.stage = .accepted now' →
      p.authenticator.scope = p'.authenticator.scope → p.request = p'.request → i = j
  /-- A request is accepted before its expiry, under a key that is in the
  keyring, and that had not lapsed when the request was authenticated. -/
  accepted : ∀ i p reservedAt, s.calls[i]? = some p → p.stage = .accepted reservedAt →
    ∃ before now after q, made = before ++ (.conclude i now, .accepted) :: after ∧
      (stateAfter (Service.step M) s₀ before).calls[i]? = some q ∧
      now < q.fields.expiresAt ∧ ∃ readAt, q.stage = .reserved readAt ∧
        Authentic M (stateAfter (Service.step M) s₀ before) q readAt
  /-- What is rejected leaves the ledger as it was, unless it is late for its
  own reservation. -/
  rejected : ∀ before e a after, made = before ++ (e, a) :: after →
    ((∃ cause, e.call = none ∧ a = .rejected cause) ∨ ∃ i p cause, e.call = some i ∧
      s.calls[i]? = some p ∧ p.stage = .rejected cause ∧ cause ≠ lateCause) →
        (Service.step M e (stateAfter (Service.step M) s₀ before)).2.ledger =
          (stateAfter (Service.step M) s₀ before).ledger

/-- **Signed requests are accepted once**, in every run. -/
theorem signed_requests_are_accepted_once (h₀ : Started s₀) (hr : ServiceRun M s₀ made s) :
    AcceptedOnce M s₀ made s := by
  have hg := guarded_of_run h₀ hr
  have htaken : ∀ {p : Call} {now}, p.stage = .accepted now → p.taken = some now := by
    intro p now hstage
    simp only [Call.taken, hstage]
  have hnonces : ∀ (i j : ℕ) (p p' : Call) (now now' : ℤ), i ≠ j → s.calls[i]? = some p →
      s.calls[j]? = some p' → p.stage = .accepted now → p'.stage = .accepted now' →
        p.authenticator.scope = p'.authenticator.scope → p.fields.nonce = p'.fields.nonce →
          (p.fields.expiresAt ≤ now' ∧ now' < p'.fields.expiresAt) ∨
            (p'.fields.expiresAt ≤ now ∧ now < p.fields.expiresAt) := by
    intro i j p p' now now' hij hp hp' hstage hstage' hscope hnonce
    have hfresh := ((hg.good i p hp).kept now (htaken hstage)).fresh
    have hfresh' := ((hg.good j p' hp').kept now' (htaken hstage')).fresh
    have hkey : p.row.key = p'.row.key := Prod.ext hscope hnonce
    rcases hg.apart i j p p' now now' hij hp hp' (htaken hstage) (htaken hstage') hkey with h | h
    · exact Or.inl ⟨h, hfresh'⟩
    · exact Or.inr ⟨h, hfresh⟩
  refine ⟨hnonces, fun i j p p' now now' hp hp' hstage hstage' hscope hrequest => ?_,
    fun i p reservedAt hp hstage => ?_, fun before e a after hsplit hrejected => ?_⟩
  · -- one request has one nonce
    by_contra hij
    have hread := (hg.good i p hp).read
    rw [hrequest, (hg.good j p' hp').read] at hread
    have hfields : p'.fields = p.fields := Except.ok.inj hread
    have happart := hnonces i j p p' now now' hij hp hp' hstage hstage' hscope (by rw [hfields])
    rw [hfields] at happart
    omega
  · obtain ⟨now, hmem⟩ := accepted_of_run h₀ hr i p reservedAt hp hstage
    obtain ⟨before, after, rfl⟩ := List.append_of_mem hmem
    obtain ⟨hbefore, -, hanswer⟩ := hr.at_split
    have hm := moves_step (M := M) (s := stateAfter (Service.step M) s₀ before) (.conclude i now)
    rw [hanswer] at hm
    obtain ⟨q, readAt, hq, hreserved, hlive⟩ := hm.concluded
    refine ⟨before, now, after, q, rfl, hq, hlive, readAt, hreserved, ?_⟩
    refine ((guarded_of_run h₀ hbefore).good i q hq).authentic readAt ?_
    simp only [Call.authenticatedAt, hreserved]
  · subst hsplit
    obtain ⟨-, -, hanswer⟩ := hr.at_split
    refine (moves_step e).ledger fun hreserved => ?_
    rw [hanswer] at hreserved
    subst hreserved
    obtain ⟨i, p, hcall, hp, hspent⟩ := spent_of_run hr e (by simp)
    rcases hrejected with ⟨cause, -, ha⟩ | ⟨j, q, cause, hcall', hq, hstage, hcause⟩
    · cases ha
    · obtain rfl : i = j := Option.some.inj (hcall.symm.trans hcall')
      obtain rfl : p = q := Option.some.inj (hp.symm.trans hq)
      simp only [Call.Spent, hstage] at hspent
      exact hcause hspent

/-! ## Nonces that are forgotten -/

/-- A code of sixty-four digits, whatever is signed. -/
def zeroMac : Mac where
  sha256 _ := String.ofList (List.replicate 64 '0')
  hmac _ _ := String.ofList (List.replicate 64 '0')

/-- A provider of one key. -/
def exampleService : Service where
  rings _ := some ⟨"p", "i", "k", [⟨"k", "/h/k.key", none⟩]⟩
  secrets _ := some ⟨Array.replicate 32 0⟩

/-- The authenticator of one instance. -/
def exampleAuthenticator : Authenticator := ⟨⟨"/h", "keyring.json"⟩, "p", "i"⟩

/-- A request of a nonce of one digit, over and over. -/
def signedRequest (issued expires : String) (digit : Char) : Request where
  method := "GET"
  target := "/health"
  headers name := (List.lookup name
    [("X-AtMem-Profile", profile), ("X-AtMem-Provider", "p"), ("X-AtMem-Instance", "i"),
      ("X-AtMem-Key-Id", "k"), ("X-AtMem-Issued", issued), ("X-AtMem-Expires", expires),
      ("X-AtMem-Nonce", String.ofList (List.replicate 64 digit)),
      ("X-AtMem-Signature", String.ofList (List.replicate 64 '0')), ("Host", "h")]).toList
  body := ⟨#[]⟩

/-- A request that is verified with nobody in between, at readings of the
clock. -/
def verification (i : ℕ) (q : Request) (arrival conclusion : ℤ) : List Event :=
  [.arrive exampleAuthenticator q arrival, .lock i, .authenticate i arrival, .reserve i false,
    .conclude i conclusion]

/-- Two requests of one nonce, the second past the expiry of the first. -/
def repeatedNonce : List Event :=
  verification 0 (signedRequest "100" "130" '0') 100 100 ++
    verification 1 (signedRequest "200" "230" '0') 200 200

/-- A request that expires while its nonce is reserved. -/
def lateRequest : List Event := verification 0 (signedRequest "100" "130" '0') 100 130

/-- The provider once its key is rotated out. -/
def lapsingService : Service :=
  { exampleService with
    rings := fun _ => some ⟨"p", "i", "k2", [⟨"k2", "/h/k2.key", none⟩, ⟨"k", "/h/k.key", some 110⟩]⟩ }

/-- A request whose key lapses while its nonce is reserved. -/
def lapsedRequest : List Event :=
  [.arrive exampleAuthenticator (signedRequest "100" "130" '0') 100, .lock 0, .authenticate 0 105,
    .reserve 0 false, .conclude 0 120]

theorem started_exampleService : Started exampleService := ⟨rfl, fun _ => rfl⟩

/-- What is played is a run. -/
theorem run_service (events : List Event) (s : Service) :
    ServiceRun zeroMac s (History.play (Service.step zeroMac) events s).1
      (History.play (Service.step zeroMac) events s).2 := by
  have hstart : ServiceRun zeroMac s [] s := .start rfl
  exact hstart.play events

/-- The nonce is accepted twice, once it was forgotten. -/
theorem accepted_repeatedNonce :
    ((History.play (Service.step zeroMac) repeatedNonce exampleService).2.calls.map
      fun p => (p.stage, p.row.key)) =
    let key := (exampleAuthenticator.scope, String.ofList (List.replicate 64 '0'))
    [(.accepted 100, key), (.accepted 200, key)] := by
  decide +kernel

/-- The state once the late request has been authenticated. -/
def beforeReservation : List (Event × Answer) :=
  (History.play (Service.step zeroMac) (lateRequest.take 3) exampleService).1

/-- The late request is rejected. -/
theorem rejected_lateRequest :
    ((History.play (Service.step zeroMac) lateRequest exampleService).2.calls.map (·.stage)) =
      [.rejected lateCause] := by
  decide +kernel

/-- Its nonce is kept all the same. -/
theorem ledger_lateRequest :
    (Service.step zeroMac (.reserve 0 false)
      (stateAfter (Service.step zeroMac) exampleService beforeReservation)).2.ledger.nonces.rows ≠
    (stateAfter (Service.step zeroMac) exampleService beforeReservation).ledger.nonces.rows := by
  decide +kernel

/-- A request is accepted whose key lapsed before the last reading. -/
theorem accepted_lapsedRequest :
    (History.play (Service.step zeroMac) lapsedRequest lapsingService).1.getLast?.map (·.2) =
        some .accepted ∧
      (History.play (Service.step zeroMac) lapsedRequest lapsingService).2.calls.map
        (·.fields.keyId) = ["k"] := by
  decide +kernel

/-- It is accepted by the last step. -/
theorem concluded_lapsedRequest :
    (Event.conclude 0 120, Answer.accepted) ∈
      (History.play (Service.step zeroMac) lapsedRequest lapsingService).1 := by
  obtain ⟨last, hlast, haccepted⟩ := Option.map_eq_some_iff.mp accepted_lapsedRequest.1
  have hevent : last.1 = .conclude 0 120 := congrArg Prod.fst (Option.some.inj hlast).symm
  rw [← hevent, ← haccepted]
  exact List.mem_of_getLast? hlast

/-- What is seen of all calls is seen of each. -/
theorem call_of_map {β : Type} {calls : List Call} {f : Call → β} {seen : List β} {i : ℕ} {b : β}
    (h : calls.map f = seen) (hb : seen[i]? = some b) : ∃ p, calls[i]? = some p ∧ f p = b := by
  rw [← h, List.getElem?_map] at hb
  exact Option.map_eq_some_iff.mp hb

/-- **A nonce may be accepted twice, a request that is rejected may leave its
nonce in the ledger, and a key may have lapsed at the last reading.** -/
theorem a_nonce_is_forgotten_and_a_late_one_kept :
    (¬ ∀ made s, ServiceRun zeroMac exampleService made s →
      ∀ (i j : ℕ) (p p' : Call) (now now' : ℤ), s.calls[i]? = some p → s.calls[j]? = some p' →
        p.stage = .accepted now → p'.stage = .accepted now' →
          p.authenticator.scope = p'.authenticator.scope → p.fields.nonce = p'.fields.nonce →
            i = j) ∧
    (¬ ∀ made s, ServiceRun zeroMac exampleService made s →
      ∀ (i : ℕ) (p : Call) (cause : String), s.calls[i]? = some p → p.stage = .rejected cause →
        ∀ before e a after, made = before ++ (e, a) :: after → e.call = some i →
          (Service.step zeroMac e
            (stateAfter (Service.step zeroMac) exampleService before)).2.ledger =
              (stateAfter (Service.step zeroMac) exampleService before).ledger) ∧
    ¬ ∀ made s, ServiceRun zeroMac lapsingService made s →
      ∀ (i : ℕ) (p : Call) (now : ℤ), s.calls[i]? = some p → (.conclude i now, .accepted) ∈ made →
        ∀ ring key, s.rings p.authenticator.keyring = some ring → key ∈ ring.keys →
          key.keyId = p.fields.keyId → ∀ lapse ∈ key.validUntil, now < lapse := by
  refine ⟨fun hall => ?_, fun hall => ?_, fun hall => ?_⟩
  · have hcalls := accepted_repeatedNonce
    have hr := run_service repeatedNonce exampleService
    generalize (History.play (Service.step zeroMac) repeatedNonce exampleService).2 = s
      at hcalls hr
    obtain ⟨p, hp, hfacts⟩ := call_of_map (i := 0) hcalls rfl
    obtain ⟨p', hp', hfacts'⟩ := call_of_map (i := 1) hcalls rfl
    obtain ⟨hstage, hkey⟩ := Prod.mk.inj hfacts
    obtain ⟨hstage', hkey'⟩ := Prod.mk.inj hfacts'
    obtain ⟨hscope, hnonce⟩ := Prod.mk.inj (hkey.trans hkey'.symm)
    exact absurd (hall _ s hr 0 1 p p' 100 200 hp hp' hstage hstage' hscope hnonce) (by decide)
  · have hr := run_service lateRequest exampleService
    obtain ⟨p, hp, hstage⟩ := call_of_map (i := 0) rejected_lateRequest rfl
    have hleft := hall _ _ hr 0 p lateCause hp hstage beforeReservation (.reserve 0 false) _ _
      rfl rfl
    exact ledger_lateRequest (by rw [hleft])
  · obtain ⟨p, hp, hnamed⟩ := call_of_map (i := 0) accepted_lapsedRequest.2 rfl
    have hlapse := hall _ _ (run_service lapsedRequest lapsingService) 0 p 120 hp
      concluded_lapsedRequest _ ⟨"k", "/h/k.key", some 110⟩ rfl
      (List.mem_cons_of_mem _ List.mem_cons_self) hnamed.symm 110 rfl
    exact absurd hlapse (by decide)

/-- The law, where the nonce is accepted again. -/
theorem signed_requests_of_one_nonce :
    ∃ made s, ServiceRun zeroMac exampleService made s ∧
      s.calls.map (·.stage) = [.accepted 100, .accepted 200] ∧
      AcceptedOnce zeroMac exampleService made s := by
  have hcalls := accepted_repeatedNonce
  have hr := run_service repeatedNonce exampleService
  refine ⟨_, _, hr, ?_, signed_requests_are_accepted_once started_exampleService hr⟩
  have hstages := congrArg (List.map Prod.fst) hcalls
  rw [List.map_map] at hstages
  exact hstages

end Atmem.Delegated.Transport
