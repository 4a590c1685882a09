import Atmem.Common.HashChain
import Atmem.Store.AuditLog
import Mathlib.Data.Set.Function
/-!
# What the audit chain is evidence of

The events of a subject are a hash chain whose digest is taken of the
canonical text of ten fields. That text determines the fields, so a verified
chain is evidence of everything in its events but their sequence numbers,
which are in no digest; and a head is evidence of the whole chain below it.
-/

namespace Atmem

open HashChain Json

/-- The events of a log as a hash chain. -/
def auditScheme (H : Hashing) : Scheme AuditLogEvent String where
  cited := (·.prevHash)
  mark := (·.eventHash)
  digest := fun prevHash event => eventHash H event prevHash

variable {H : Hashing} {R : JsonReader} {db db' : AuditDb} {subjectId : String}

/-- **The loop decides the chain.** -/
theorem verifyFrom_eq_true {prevHash : Option String} {events : List AuditLogEvent} :
    verifyFrom H prevHash events = true ↔ (auditScheme H).Linked prevHash events := by
  induction events generalizing prevHash with
  | nil => simp [verifyFrom]
  | cons event rest ih =>
    unfold verifyFrom Scheme.Linked
    rw [← ih]
    by_cases hbad : event.prevHash ≠ prevHash ∨ event.eventHash ≠ eventHash H event prevHash
    · rw [if_pos hbad]
      have hnot : ¬ (event.prevHash = prevHash ∧ event.eventHash = eventHash H event prevHash) := by
        rintro ⟨hprev, hhash⟩
        exact hbad.elim (fun h => h hprev) (fun h => h hhash)
      constructor
      · intro h
        cases h
      · intro h
        exact absurd h.1 hnot
    · rw [if_neg hbad]
      rw [not_or, not_not, not_not] at hbad
      exact ⟨fun h => ⟨hbad, h⟩, fun h => h.2⟩

/-- The head is the digest of the last event. -/
theorem head_eq_getLast? {prevHash : Option String} {events : List AuditLogEvent} :
    (auditScheme H).head prevHash events = (events.getLast?.map (·.eventHash)).or prevHash := by
  induction events using List.reverseRecOn with
  | nil => rfl
  | append_singleton events event ih =>
    rw [Scheme.head_concat, List.getLast?_concat]
    rfl

/-- The latest hash of a subject is the head of its chain. -/
theorem headHash_eq_head : db.headHash subjectId =
    (auditScheme H).head none (db.listAuditEvents R subjectId) := by
  rw [head_eq_getLast?, Option.or_none, AuditDb.headHash, AuditDb.listAuditEvents,
    List.getLast?_map, Option.map_map]
  rfl

/-! ## The preimage -/

/-- The fields of an event a digest covers: all but its sequence; a payload
is a dict, whose keys have no order. -/
def AuditLogEvent.hashed (event : AuditLogEvent) : AuditLogEvent :=
  { event with sequence := 0, payload := event.payload.sortKeys }

/-- A payload that is loaded has no field twice. -/
theorem proper_loadJson (text : String) : (loadJson R text).Proper := by
  have hempty : Proper (.obj []) := ⟨List.nodup_nil, trivial⟩
  unfold loadJson
  split
  · exact hempty
  · rcases h : R.loads text with - | j
    · exact hempty
    · exact R.proper h

/-- Nor has the text that is hashed. -/
theorem proper_preimage {event : AuditLogEvent} (hp : event.payload.Proper)
    (prevHash : Option String) : (preimage event prevHash).Proper := by
  refine ⟨by simp, ?_⟩
  simp only [ProperFields, Proper, proper_ofOption, hp, and_self]

/-- **The preimage determines every field it is made of.** -/
theorem preimage_inj {event event' : AuditLogEvent} (hp : event.payload.Proper)
    (hp' : event'.payload.Proper)
    (h : (preimage event event.prevHash).canonicalJson =
      (preimage event' event'.prevHash).canonicalJson)
    (hhash : event.eventHash = event'.eventHash) : event.hashed = event'.hashed := by
  have hget := get?_of_canonicalJson (proper_preimage hp _) (proper_preimage hp' _) h
  have hid := Option.some.inj (hget "event_id")
  have hsubject := Option.some.inj (hget "subject_id")
  have htype := Option.some.inj (hget "event_type")
  have hcreated := Option.some.inj (hget "created_at")
  have hactor := Option.some.inj (hget "actor")
  have hsession := ofOption_inj (Option.some.inj (hget "session_id"))
  have hturn := ofOption_inj (Option.some.inj (hget "turn_id"))
  have hrecord := ofOption_inj (Option.some.inj (hget "record_id"))
  have hpayload := Option.some.inj (hget "payload")
  have hprev := ofOption_inj (Option.some.inj (hget "prev_hash"))
  simp only [sortKeys, Json.str.injEq] at hid hsubject htype hcreated hactor
  unfold AuditLogEvent.hashed
  rw [hid, hsubject, htype, hcreated, hactor, hsession, hturn, hrecord, hpayload, hprev, hhash]

/-- The texts that were hashed into a list of events. -/
def preimages (events : List AuditLogEvent) : Set String :=
  {text | ∃ event ∈ events, (preimage event event.prevHash).canonicalJson = text}

/-- Nor have the payloads of a log. -/
theorem proper_payload {event : AuditLogEvent} (h : event ∈ db.listAuditEvents R subjectId) :
    event.payload.Proper := by
  obtain ⟨row, -, rfl⟩ := List.mem_map.mp h
  exact proper_loadJson row.payload

/-- **Of verified logs whose hash does not collide, a digest determines the
event.** -/
theorem binding_of_verified
    (hinj : Set.InjOn H.sha256Hex
      (preimages (db.listAuditEvents R subjectId) ∪ preimages (db'.listAuditEvents R subjectId)))
    (hl : (auditScheme H).Linked none (db.listAuditEvents R subjectId))
    (hl' : (auditScheme H).Linked none (db'.listAuditEvents R subjectId)) :
    Scheme.Binding (auditScheme H) AuditLogEvent.hashed (db.listAuditEvents R subjectId)
      (db'.listAuditEvents R subjectId) := by
  intro event hevent event' hevent' hdigest
  have htext := hinj (Or.inl ⟨event, hevent, rfl⟩) (Or.inr ⟨event', hevent', rfl⟩) hdigest
  have hhash : event.eventHash = event'.eventHash :=
    (hl.mark_eq hevent).trans (hdigest.trans (hl'.mark_eq hevent').symm)
  have heq := preimage_inj (proper_payload hevent) (proper_payload hevent') htext hhash
  have hprev : event.hashed.prevHash = event'.hashed.prevHash := congrArg AuditLogEvent.prevHash heq
  exact ⟨hprev, heq⟩

/-! ## Tampering -/

/-- **A verified head commits to the chain.** Of two logs that verify, with
no collision among what they hash: where they end with one hash, they hold
the same events, up to sequence numbers; and in any case the second is a
beginning of the first, followed only by events whose hashes the first never
had. So what was made of the first one's events alone is a truncation of
it. -/
theorem verified_chain_commits
    (hinj : Set.InjOn H.sha256Hex
      (preimages (db.listAuditEvents R subjectId) ∪ preimages (db'.listAuditEvents R subjectId)))
    (hv : db.verifyAuditChain H R subjectId = true)
    (hv' : db'.verifyAuditChain H R subjectId = true) :
    (db.headHash subjectId = db'.headHash subjectId →
      (db.listAuditEvents R subjectId).map AuditLogEvent.hashed =
        (db'.listAuditEvents R subjectId).map AuditLogEvent.hashed) ∧
    (∃ kept added, db'.listAuditEvents R subjectId = kept ++ added ∧
      kept.map AuditLogEvent.hashed <+:
        (db.listAuditEvents R subjectId).map AuditLogEvent.hashed ∧
      ∀ event ∈ added, ∀ known ∈ db.listAuditEvents R subjectId,
        event.eventHash ≠ known.eventHash) ∧
    ((∀ event ∈ db'.listAuditEvents R subjectId, ∃ known ∈ db.listAuditEvents R subjectId,
        event.eventHash = known.eventHash) →
      (db'.listAuditEvents R subjectId).map AuditLogEvent.hashed <+:
        (db.listAuditEvents R subjectId).map AuditLogEvent.hashed) := by
  have hl := verifyFrom_eq_true.mp hv
  have hl' := verifyFrom_eq_true.mp hv'
  have hb := binding_of_verified hinj hl hl'
  obtain ⟨kept, added, hsplit, hkept, hadded⟩ := Scheme.exists_common hb hl hl'
  refine ⟨fun hhead => ?_, ⟨kept, added, hsplit, hkept, hadded⟩, fun hown => ?_⟩
  · rw [headHash_eq_head (R := R), headHash_eq_head (R := R)] at hhead
    exact Scheme.content_eq_of_head hb hl hl' hhead
  · have hnone : added = [] := by
      rw [List.eq_nil_iff_forall_not_mem]
      intro event hevent
      obtain ⟨known, hknown, hsame⟩ := hown event (hsplit ▸ List.mem_append_right kept hevent)
      exact hadded event hevent known hknown hsame
    rw [hsplit, hnone, List.append_nil]
    exact hkept

/-! ## A log of two events -/

/-- SHA-256 of the first event's text. -/
def firstDigest : String := "c9446cff932a747074f91ce6123ac7c2e555035c87ac3919309e76e59be3b7d1"

/-- And of the second's. -/
def secondDigest : String := "5c169457c1760567bcff77f8f1f619db770032adf30733e6ae035b243cc33cd1"

/-- The first row of a chain. -/
def firstRow (sequence : ℤ) : AuditLogRow :=
  { sequence := sequence, eventId := "aud_1", subjectId := "user-1"
    eventType := "memory.created", createdAt := "2026-01-01T00:00:00.000000+00:00"
    actor := "system", sessionId := none, turnId := none, recordId := none
    payload := "\x7b\x7d", prevHash := none, eventHash := firstDigest }

/-- The row after it. -/
def secondRow (sequence : ℤ) : AuditLogRow :=
  { firstRow sequence with
    eventId := "aud_2", eventType := "memory.corrected", prevHash := some firstDigest
    eventHash := secondDigest }

/-- `json.loads`, of the one payload the rows hold. -/
def exampleReader : JsonReader where
  loads text := if text = "\x7b\x7d" then some (.obj []) else none
  proper := by
    intro text j h
    split at h
    · cases h
      exact ⟨List.nodup_nil, trivial⟩
    · cases h

/-- The event of the first row. -/
def firstEvent (sequence : ℤ) : AuditLogEvent := auditFromRow exampleReader (firstRow sequence)

/-- The event of the second row. -/
def secondEvent (sequence : ℤ) : AuditLogEvent := auditFromRow exampleReader (secondRow sequence)

/-- The text that is hashed into the first event. -/
def firstText : String := (preimage (firstEvent 1) none).canonicalJson

/-- The text that the second digest is of. -/
def secondText : String := (preimage (secondEvent 2) (some firstDigest)).canonicalJson

/-- SHA-256, of these two texts. -/
def auditHashing : Hashing where
  digest _ := ""
  sha256Hex text := if text = firstText then firstDigest else
    if text = secondText then secondDigest else text

/-- The log that holds the first row, under any number. -/
def oneEvent (sequence : ℤ) : AuditDb :=
  ⟨[firstRow sequence], sequence, fun _ => none, List.pairwise_singleton _ _, by
    intro r hr
    rw [List.mem_singleton.mp hr]
    exact le_refl _⟩

/-- A log of the two rows. -/
def twoEvents : AuditDb :=
  ⟨[firstRow 1, secondRow 2], 2, fun _ => none, by decide, by decide⟩

/-- The two texts differ: they are of two events. -/
theorem secondText_ne : secondText ≠ firstText := by
  intro h
  have hp : (secondEvent 2).payload.Proper :=
    proper_loadJson (R := exampleReader) (secondRow 2).payload
  have hp' : (firstEvent 1).payload.Proper :=
    proper_loadJson (R := exampleReader) (firstRow 1).payload
  have hid := Option.some.inj
    (get?_of_canonicalJson (proper_preimage hp _) (proper_preimage hp' _) h "event_id")
  simp only [sortKeys, Json.str.injEq] at hid
  exact absurd hid (by decide)

/-- The first digest of the example. -/
theorem firstDigest_eq : auditHashing.sha256Hex firstText = firstDigest := by
  simp [auditHashing]

/-- And the second. -/
theorem secondDigest_eq : auditHashing.sha256Hex secondText = secondDigest := by
  simp [auditHashing, secondText_ne]

theorem firstEvent_hash (sequence : ℤ) :
    (firstEvent sequence).eventHash = eventHash auditHashing (firstEvent sequence) none := by
  have hsame : preimage (firstEvent sequence) none = preimage (firstEvent 1) none := rfl
  have hstored : (firstEvent sequence).eventHash = firstDigest := rfl
  rw [eventHash, hsame, ← firstText, firstDigest_eq, hstored]

theorem secondEvent_hash :
    (secondEvent 2).eventHash = eventHash auditHashing (secondEvent 2) (some firstDigest) := by
  have hstored : (secondEvent 2).eventHash = secondDigest := rfl
  rw [eventHash, ← secondText, secondDigest_eq, hstored]

/-- No two of the texts collide. -/
theorem auditHashing_injOn {texts : Set String} (h : ∀ t ∈ texts, t = firstText ∨ t = secondText) :
    Set.InjOn auditHashing.sha256Hex texts := by
  have hne : firstDigest ≠ secondDigest := by decide
  intro s hs t ht hst
  rcases h s hs with rfl | rfl <;> rcases h t ht with rfl | rfl
  · rfl
  · rw [firstDigest_eq, secondDigest_eq] at hst
    exact absurd hst hne
  · rw [firstDigest_eq, secondDigest_eq] at hst
    exact absurd hst.symm hne
  · rfl

theorem oneEvent_events (sequence : ℤ) :
    (oneEvent sequence).listAuditEvents exampleReader "user-1" = [firstEvent sequence] := rfl

theorem twoEvents_events :
    twoEvents.listAuditEvents exampleReader "user-1" = [firstEvent 1, secondEvent 2] := rfl

theorem preimages_oneEvent (sequence : ℤ) :
    ∀ t ∈ preimages ((oneEvent sequence).listAuditEvents exampleReader "user-1"),
      t = firstText ∨ t = secondText := by
  rintro t ⟨event, hevent, rfl⟩
  rw [oneEvent_events, List.mem_singleton] at hevent
  rw [hevent]
  exact Or.inl rfl

theorem preimages_twoEvents :
    ∀ t ∈ preimages (twoEvents.listAuditEvents exampleReader "user-1"),
      t = firstText ∨ t = secondText := by
  rintro t ⟨event, hevent, rfl⟩
  rw [twoEvents_events, List.mem_cons, List.mem_singleton] at hevent
  rcases hevent with rfl | rfl
  · exact Or.inl rfl
  · exact Or.inr rfl

/-- One turn of the loop, past an event that is in order. -/
theorem verifyFrom_cons {event : AuditLogEvent} {prevHash : Option String}
    {rest : List AuditLogEvent} (hprev : event.prevHash = prevHash)
    (hhash : event.eventHash = eventHash H event prevHash) :
    verifyFrom H prevHash (event :: rest) = verifyFrom H (some event.eventHash) rest := by
  rw [verifyFrom, if_neg]
  rintro (hne | hne)
  · exact hne hprev
  · exact hne hhash

/-- The log of one event verifies. -/
theorem oneEvent_verifies (sequence : ℤ) :
    (oneEvent sequence).verifyAuditChain auditHashing exampleReader "user-1" = true := by
  unfold AuditDb.verifyAuditChain
  have hprev : (firstEvent sequence).prevHash = none := rfl
  rw [oneEvent_events, verifyFrom_cons hprev (firstEvent_hash sequence), verifyFrom]

/-- So does that of two. -/
theorem twoEvents_verifies :
    twoEvents.verifyAuditChain auditHashing exampleReader "user-1" = true := by
  unfold AuditDb.verifyAuditChain
  have hprev : (firstEvent 1).prevHash = none := rfl
  have hcited : (secondEvent 2).prevHash = some (firstEvent 1).eventHash := rfl
  rw [twoEvents_events, verifyFrom_cons hprev (firstEvent_hash 1),
    verifyFrom_cons hcited secondEvent_hash, verifyFrom]

/-- The second log commits to the first. -/
theorem commits_of_twoEvents :
    ∃ kept added, twoEvents.listAuditEvents exampleReader "user-1" = kept ++ added ∧
      kept.map AuditLogEvent.hashed <+:
        ((oneEvent 7).listAuditEvents exampleReader "user-1").map AuditLogEvent.hashed ∧
      ∀ event ∈ added, ∀ known ∈ (oneEvent 7).listAuditEvents exampleReader "user-1",
        event.eventHash ≠ known.eventHash :=
  (verified_chain_commits (auditHashing_injOn fun t ht =>
    ht.elim (preimages_oneEvent 7 t) (preimages_twoEvents t))
    (oneEvent_verifies 7) twoEvents_verifies).2.1

/-- Sequence numbers are in no digest: two logs that verify and end with one
hash may differ in them. And a log verifies with an event after its last. -/
theorem renumbered_and_continued :
    ¬ (∀ (H : Hashing) (R : JsonReader) (db db' : AuditDb) (subjectId : String),
      Set.InjOn H.sha256Hex
        (preimages (db.listAuditEvents R subjectId) ∪ preimages (db'.listAuditEvents R subjectId)) →
      db.verifyAuditChain H R subjectId = true → db'.verifyAuditChain H R subjectId = true →
      db.headHash subjectId = db'.headHash subjectId →
      db.listAuditEvents R subjectId = db'.listAuditEvents R subjectId) ∧
    ¬ (∀ (H : Hashing) (R : JsonReader) (db db' : AuditDb) (subjectId : String),
      Set.InjOn H.sha256Hex
        (preimages (db.listAuditEvents R subjectId) ∪ preimages (db'.listAuditEvents R subjectId)) →
      db.verifyAuditChain H R subjectId = true → db'.verifyAuditChain H R subjectId = true →
      db'.listAuditEvents R subjectId <+: db.listAuditEvents R subjectId) := by
  constructor
  · intro hall
    have heq := hall auditHashing exampleReader (oneEvent 1) (oneEvent 2) "user-1"
      (auditHashing_injOn fun t ht => ht.elim (preimages_oneEvent 1 t) (preimages_oneEvent 2 t))
      (oneEvent_verifies 1) (oneEvent_verifies 2) rfl
    rw [oneEvent_events, oneEvent_events] at heq
    exact absurd (congrArg AuditLogEvent.sequence (List.cons.inj heq).1) (by decide)
  · intro hall
    have hprefix := hall auditHashing exampleReader (oneEvent 1) twoEvents "user-1"
      (auditHashing_injOn fun t ht => ht.elim (preimages_oneEvent 1 t) (preimages_twoEvents t))
      (oneEvent_verifies 1) twoEvents_verifies
    rw [oneEvent_events, twoEvents_events] at hprefix
    exact absurd hprefix.length_le (by simp)

end Atmem
