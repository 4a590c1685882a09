import Atmem.Memory.Model.Calls
/-!
# What the statements do

The run of each statement of the memory: what it answers and the world it
leaves. The proofs about operations rest on these and do not unfold a
statement again.
-/

namespace Atmem.Memory

open Relational Transactional

variable {E : Engine} {w w' : MemoryWorld} {α β : Type}

/-! ## Reading and writing -/

@[simp] theorem exec_readStore (f : MemoryStore → α) :
    exec (readStore f) w = (.ok (f w.store), w) := rfl

@[simp] theorem exec_writeStore (f : MemoryStore → MemoryStore) :
    exec (writeStore f) w = (.ok (), { w with store := f w.store }) := rfl

@[simp] theorem exec_newId (kind : String) :
    exec (newId E kind) w = (.ok (E.newId kind w.draws), { w with draws := w.draws + 1 }) := rfl

@[simp] theorem exec_liftMem_ok (a : α) : exec (liftMem (.ok a)) w = (.ok a, w) := rfl

@[simp] theorem exec_liftMem_error (message : String) :
    exec (liftMem (.error message : Except String α)) w = (.error (.valueError message), w) := rfl

/-- A result that is lifted changes nothing. -/
theorem exec_liftMem_eq_ok {x : Except String α} {a : α} :
    exec (liftMem x) w = (.ok a, w') ↔ x = .ok a ∧ w' = w := by
  rcases x with message | b
  · simp
  · simp [eq_comm]

/-- The transaction of an operation. -/
theorem atomic_eq (body : Mem α) (w : MemoryWorld) :
    atomic body w = match exec body w with
      | (.ok a, w') => (.ok a, w')
      | (.error e, w') => (.error e, { w' with store := w.store }) := rfl

/-- What succeeds is committed. -/
theorem atomic_of_ok {body : Mem α} {a : α} (h : exec body w = (.ok a, w')) :
    atomic body w = (.ok a, w') := by
  rw [atomic_eq, h]

/-- What raises is rolled back. -/
theorem atomic_of_error {body : Mem α} {e : MemoryError} (h : exec body w = (.error e, w')) :
    atomic body w = (.error e, { w' with store := w.store }) := by
  rw [atomic_eq, h]

/-- An operation that raises leaves the store as it was. -/
theorem atomic_store_of_error {body : Mem α} {e : MemoryError} (h : (atomic body w).1 = .error e) :
    (atomic body w).2.store = w.store := by
  rcases hr : exec body w with ⟨e' | a, w'⟩
  · rw [atomic_of_error hr]
  · rw [atomic_of_ok hr] at h
    cases h

/-- A call succeeds exactly if its body does. -/
theorem atomic_eq_ok {body : Mem α} {a : α} :
    atomic body w = (.ok a, w') ↔ exec body w = (.ok a, w') := by
  rcases hr : exec body w with ⟨e | b, w₁⟩
  · rw [atomic_of_error hr]
    simp
  · rw [atomic_of_ok hr]

/-- What a statement may do to the store, an operation may. -/
theorem Within.atomic {P : MemoryStore → MemoryStore → Prop} (hrefl : ∀ s, P s s) {body : Mem α}
    (h : Within (fun w w' : MemoryWorld => P w.store w'.store) body) :
    P w.store (atomic body w).2.store := by
  have hw := h w
  rcases hr : exec body w with ⟨e | a, w'⟩
  · rw [atomic_of_error hr]
    exact hrefl _
  · rw [atomic_of_ok hr]
    rw [hr] at hw
    exact hw

/-! ## Records -/

/-- A record in the store with its indexes, where it is active. -/
def stored (U : UnicodeTables) (r : NewRecord) (id : String)
    (records : Table RecordRow (·.id) idClash) (s : MemoryStore) : MemoryStore :=
  let s : MemoryStore := { s with records }
  if r.status = .active then
    (s.upsertFts id r.subjectId r.content).upsertSearchTerms U id r.subjectId
      (MemoryStore.postingsWorkspace r.raw) r.factKey
  else s

/-- Two records of one identifier are one record. -/
theorem eq_of_record_id {s : MemoryStore} {a b : RecordRow} (ha : a ∈ s.records.rows)
    (hb : b ∈ s.records.rows) (h : a.id = b.id) : a = b :=
  Table.eq_of_id_eq (fun a b hab => by simpa [idClash] using hab) ha hb h

/-- A record is found by its identifier. -/
theorem getRecord_of_mem {s : MemoryStore} {r : RecordRow} (hr : r ∈ s.records.rows) :
    s.getRecord r.subjectId r.id = some r := by
  have hsome : (s.getRecord r.subjectId r.id).isSome := by
    rw [MemoryStore.getRecord, List.find?_isSome]
    exact ⟨r, hr, by simp⟩
  obtain ⟨t, ht⟩ := Option.isSome_iff_exists.mp hsome
  obtain ⟨hmem, -, hid⟩ := s.getRecord_id ht
  rw [ht, eq_of_record_id hmem hr hid]

/-- A record is found by its identifier. -/
theorem getRecord_eq_some {s : MemoryStore} {subjectId recordId : String} {r : RecordRow} :
    s.getRecord subjectId recordId = some r ↔
      r ∈ s.records.rows ∧ r.subjectId = subjectId ∧ r.id = recordId := by
  constructor
  · exact s.getRecord_id
  · rintro ⟨hr, rfl, rfl⟩
    exact getRecord_of_mem hr

/-- The row a world is about to insert. -/
def rowOf (E : Engine) (w : MemoryWorld) (r : NewRecord) : RecordRow :=
  r.row E.unicode (E.newId "rec" w.draws) (w.clock w.ticks)

/-- The world that has drawn an identifier and read the clock. -/
def drawn (w : MemoryWorld) : MemoryWorld :=
  { w with draws := w.draws + 1, ticks := w.ticks + 1 }

/-- What inserting a record does. -/
theorem exec_insertRecord (r : NewRecord) :
    exec (insertRecord E r) w = match w.store.records.insert (rowOf E w r) with
      | none => (.error .integrityError, drawn w)
      | some records => (.ok (E.newId "rec" w.draws),
          { drawn w with store := stored E.unicode r (E.newId "rec" w.draws) records w.store }) := by
  simp only [insertRecord, exec_bind, exec_newId, utcNow, exec_readOff, exec_get]
  rcases hi : w.store.records.insert (rowOf E w r) with - | records
  · rw [rowOf] at hi
    simp only [hi]
    rfl
  · rw [rowOf] at hi
    simp only [hi, exec_bind, exec_writeStore, stored]
    split <;> rfl

/-- A record that was inserted: its identifier was free. -/
theorem exec_insertRecord_eq_ok {r : NewRecord} {id : String} :
    exec (insertRecord E r) w = (.ok id, w') ↔
      ∃ records, w.store.records.insert (rowOf E w r) = some records ∧
        id = E.newId "rec" w.draws ∧
        w' = { drawn w with store := stored E.unicode r id records w.store } := by
  rw [exec_insertRecord]
  rcases w.store.records.insert (rowOf E w r) with - | records
  · simp
  · simp only [Prod.mk.injEq, Except.ok.injEq, Option.some.injEq, exists_eq_left']
    constructor
    · rintro ⟨rfl, rfl⟩
      exact ⟨rfl, rfl⟩
    · rintro ⟨rfl, rfl⟩
      exact ⟨rfl, rfl⟩

/-! ## What the indexing leaves alone -/

/-- The store with other indexes of its records. -/
def Reindexed (s s' : MemoryStore) : Prop :=
  s' = { s with ftsRows := s'.ftsRows, ftsMap := s'.ftsMap, searchTerms := s'.searchTerms }

theorem Reindexed.trans {s s₁ s₂ : MemoryStore} (h : Reindexed s s₁) (h' : Reindexed s₁ s₂) :
    Reindexed s s₂ := by
  unfold Reindexed at *
  rw [h', h]

/-- An entry of the text index is no part of the rows. -/
theorem reindexed_upsertFts {s : MemoryStore} {recordId subjectId content : String} :
    Reindexed s (s.upsertFts recordId subjectId content) := by
  unfold Reindexed MemoryStore.upsertFts
  split
  · rfl
  · split <;> rfl

theorem reindexed_deleteFts {s : MemoryStore} {recordId : String} :
    Reindexed s (s.deleteFts recordId) := by
  unfold Reindexed MemoryStore.deleteFts
  split
  · rfl
  · split <;> rfl

theorem reindexed_stored {U : UnicodeTables} {r : NewRecord} {id : String}
    {records : Table RecordRow (·.id) idClash} {s : MemoryStore} :
    Reindexed { s with records } (stored U r id records s) := by
  unfold stored
  split
  · exact reindexed_upsertFts.trans rfl
  · rfl

section Stored

variable {U : UnicodeTables} {r : NewRecord} {id : String}
variable {records : Table RecordRow (·.id) idClash} {s : MemoryStore}

@[simp] theorem records_stored : (stored U r id records s).records = records := by
  rw [reindexed_stored]

@[simp] theorem protocolProposals_stored :
    (stored U r id records s).protocolProposals = s.protocolProposals := by
  rw [reindexed_stored]

end Stored

/-! ## A plain engine

Texts that are their own normal form, no screens and no rules: what the
real engine comes to on the lower-case texts of the examples. -/

/-- A digest that tells texts of different lengths apart. -/
def lengthHex (text : String) : String :=
  let digits := Nat.toDigits 10 text.length
  String.ofList (List.replicate (64 - digits.length) '0' ++ digits)

/-- An engine that screens nothing and hashes a text to its length. -/
def plainEngine : Engine where
  unicode := ⟨id, id, id, Char.isAlphanum⟩
  hashing := ⟨fun j => lengthHex j.canonicalJson, lengthHex⟩
  screen _ _ := []
  sensitive _ := false
  classifySource _ := "user_message"
  extractFacts _ _ := []
  explicitNote := id
  grounding _ _ _ := []
  newId kind n := kind ++ "_" ++ String.ofList (List.replicate n '0')
  newId_inj kind m n h := by
    have hlen := congrArg String.length h
    simpa using hlen

/-- An empty store, at an hour that stands still. -/
def plainWorld : MemoryWorld where
  clock _ := 0
  encrypted := true

/-! ## A message of two workspaces, and a fact of it -/

/-- The scope of a workspace. -/
def hereScope : AuthorityScope := ⟨⟨"user-1", "host-1", "here"⟩, by decide +kernel⟩

/-- The same user and agent, in another workspace. -/
def thereScope : AuthorityScope := ⟨⟨"user-1", "host-1", "there"⟩, by decide +kernel⟩

/-- A message of a user, under the identifier given. -/
def skyMessage (scope : AuthorityScope) (sourceId : String) : SourceCaptureRequestFields where
  sourceId
  idempotencyKey := sourceId
  scope
  message := "the sky is blue"

/-- The fact a model proposes from it. -/
def skyFact (scope : AuthorityScope) (proposalId sourceId fact : String) :
    MemoryProposalFields where
  proposalId
  idempotencyKey := proposalId
  scope
  fact
  sourceIds := [sourceId]
  interpreter := ⟨⟨"p", "m", "v1", "uncalibrated", "model_interpreted", "local"⟩,
    by decide +kernel⟩
  sourceBinding := ⟨⟨"m", plainEngine.sha256 "the sky is blue", "caller_asserted"⟩,
    by decide +kernel⟩

/-- A message in the one workspace. -/
def hereMessage : SourceCaptureRequest := ⟨skyMessage hereScope "m1", by decide +kernel⟩

/-- The same message in the other. -/
def thereMessage : SourceCaptureRequest := ⟨skyMessage thereScope "m2", by decide +kernel⟩

/-- A fact of the message, in the one workspace. -/
def hereFact : MemoryProposal :=
  ⟨skyFact hereScope "p1" "m1" "the sky is blue", by decide +kernel⟩

/-- The same fact in the other. -/
def thereFact : MemoryProposal :=
  ⟨skyFact thereScope "p2" "m2" "the sky is blue", by decide +kernel⟩

/-- A fact that contradicts it there. -/
def thereOther : MemoryProposal :=
  ⟨skyFact thereScope "p2" "m2" "the sea is blue", by decide +kernel⟩

end Atmem.Memory

/-! ## Superseding -/

namespace Atmem.Memory

open Relational Transactional

variable {E : Engine} {s : MemoryStore} {w w' : MemoryWorld} {subjectId byId : String}
variable {now : Instant} {ids : List String} {r : RecordRow}

/-- A row that was superseded. -/
def supersededRow (byId : String) (now : Instant) (r : RecordRow) : RecordRow :=
  { r with
    status := .superseded
    updatedAt := some now
    raw := MemoryStore.withUnitLifecycle { r.raw with supersededById := some byId } .superseded
    generation := r.generation + 1 }

@[simp] theorem id_supersededRow : (supersededRow byId now r).id = r.id := rfl

@[simp] theorem subjectId_supersededRow : (supersededRow byId now r).subjectId = r.subjectId := rfl

@[simp] theorem status_supersededRow : (supersededRow byId now r).status = .superseded := rfl

@[simp] theorem supersededById_supersededRow :
    (supersededRow byId now r).raw.supersededById = some byId := rfl

/-- The row of a table once some rows of a subject are superseded. -/
def retired (subjectId byId : String) (now : Instant) (ids : List String) (r : RecordRow) :
    RecordRow :=
  if r.subjectId = subjectId ∧ r.id ∈ ids ∧ r.status = .active then supersededRow byId now r else r

@[simp] theorem retired_nil : retired subjectId byId now [] r = r := by
  simp [retired]

@[simp] theorem id_retired : (retired subjectId byId now ids r).id = r.id := by
  unfold retired
  split <;> rfl

@[simp] theorem subjectId_retired : (retired subjectId byId now ids r).subjectId = r.subjectId := by
  unfold retired
  split <;> rfl

@[simp] theorem factKey_retired : (retired subjectId byId now ids r).factKey = r.factKey := by
  unfold retired
  split <;> rfl

@[simp] theorem content_retired : (retired subjectId byId now ids r).content = r.content := by
  unfold retired
  split <;> rfl

/-- A row that is still active was not named. -/
theorem active_retired : (retired subjectId byId now ids r).status = .active ↔
    r.status = .active ∧ ¬ (r.subjectId = subjectId ∧ r.id ∈ ids) := by
  unfold retired
  split
  · rename_i h
    exact ⟨fun hs => RecordStatus.noConfusion hs, fun hs => absurd ⟨h.1, h.2.1⟩ hs.2⟩
  · rename_i h
    exact ⟨fun hs => ⟨hs, fun hn => h ⟨hn.1, hn.2, hs⟩⟩, fun hs => hs.1⟩

/-- A record that is not listed stays. -/
theorem retired_of_not_mem (h : r.id ∉ ids) : retired subjectId byId now ids r = r :=
  if_neg fun hr => h hr.2.1

/-- An active one that is listed is superseded. -/
theorem retired_of_mem (hsubject : r.subjectId = subjectId) (hid : r.id ∈ ids)
    (hactive : r.status = .active) :
    retired subjectId byId now ids r = supersededRow byId now r :=
  if_pos ⟨hsubject, hid, hactive⟩

/-- One that is not active stays. -/
theorem retired_of_not_active (h : r.status ≠ .active) : retired subjectId byId now ids r = r :=
  if_neg fun hr => h hr.2.2

/-- A row is retired once: the identifiers may be taken one after the other. -/
theorem retired_retired (id : String) :
    retired subjectId byId now ids (retired subjectId byId now [id] r) =
      retired subjectId byId now (id :: ids) r := by
  unfold retired
  by_cases hone : r.subjectId = subjectId ∧ r.id ∈ [id] ∧ r.status = .active
  · have hall : r.subjectId = subjectId ∧ r.id ∈ id :: ids ∧ r.status = .active :=
      ⟨hone.1, by simp [List.mem_singleton.mp hone.2.1], hone.2.2⟩
    rw [if_pos hone, if_neg (fun h => RecordStatus.noConfusion h.2.2), if_pos hall]
  · rw [if_neg hone]
    refine if_congr ?_ rfl rfl
    simp only [List.mem_singleton, not_and] at hone
    simp only [List.mem_cons]
    constructor
    · exact fun h => ⟨h.1, .inr h.2.1, h.2.2⟩
    · rintro ⟨hsubject, rfl | hid, hactive⟩
      · exact absurd hactive (hone hsubject rfl)
      · exact ⟨hsubject, hid, hactive⟩

@[simp] theorem records_deleteFts (recordId : String) :
    (s.deleteFts recordId).records = s.records := by
  unfold MemoryStore.deleteFts
  split
  · rfl
  · split <;> rfl

/-- Where no row is named, none is retired. -/
theorem map_retired_of_none {rows : List RecordRow}
    (h : ∀ r ∈ rows, ¬ (r.subjectId = subjectId ∧ r.id ∈ ids ∧ r.status = .active)) :
    rows.map (retired subjectId byId now ids) = rows := by
  calc rows.map (retired subjectId byId now ids)
      = rows.map id := List.map_congr_left fun r hr => if_neg (h r hr)
    _ = rows := List.map_id rows

/-- Superseding one record retires it. -/
theorem rows_supersedeRecord (recordId : String) :
    (s.supersedeRecord subjectId byId now recordId).records.rows =
      s.records.rows.map (retired subjectId byId now [recordId]) := by
  unfold MemoryStore.supersedeRecord
  rcases hrow : s.getRecord subjectId recordId with - | row
  · refine (map_retired_of_none fun r hr => ?_).symm
    rintro ⟨hsubject, hid, -⟩
    have hfound := getRecord_eq_some.mpr ⟨hr, hsubject, List.mem_singleton.mp hid⟩
    rw [hrow] at hfound
    cases hfound
  · obtain ⟨hmem, hsubject, hid⟩ := getRecord_eq_some.mp hrow
    have hsame : ∀ r ∈ s.records.rows, r.id = recordId → r = row := fun r hr hrid =>
      eq_of_record_id hr hmem (hrid.trans hid.symm)
    dsimp only
    by_cases hactive : row.status = .active
    · rw [if_pos hactive]
      simp only [MemoryStore.updateUnit, MemoryStore.deleteSearchTerms, records_deleteFts,
        MemoryStore.updateRecord, Relational.Table.rows_update]
      refine List.map_congr_left fun r hr => ?_
      unfold retired
      refine if_congr ?_ rfl rfl
      rw [decide_eq_true_iff, List.mem_singleton]
      constructor
      · rintro ⟨hrs, hrid⟩
        exact ⟨hrs, hrid, hsame r hr hrid ▸ hactive⟩
      · rintro ⟨hrs, hrid, -⟩
        exact ⟨hrs, hrid⟩
    · rw [if_neg hactive]
      refine (map_retired_of_none fun r hr => ?_).symm
      rintro ⟨-, hrid, hra⟩
      exact hactive (hsame r hr (List.mem_singleton.mp hrid) ▸ hra)

/-- Superseding them one by one retires them all. -/
theorem rows_supersedeEach (ids : List String) :
    (ids.foldl (fun s id => s.supersedeRecord subjectId byId now id) s).records.rows =
      s.records.rows.map (retired subjectId byId now ids) := by
  induction ids generalizing s with
  | nil => exact (map_retired_of_none fun r _ h => absurd h.2.1 List.not_mem_nil).symm
  | cons id ids ih =>
    rw [List.foldl_cons, ih, rows_supersedeRecord, List.map_map]
    exact List.map_congr_left fun r _ => retired_retired id

/-- **A run of `supersede_records`**: the rows it names are retired; where it
names none, nothing happens. -/
theorem exec_supersedeRecords (subjectId : String) (ids : List String) (byId : String)
    (w : MemoryWorld) :
    ∃ w', exec (supersedeRecords subjectId ids byId) w = (.ok (), w') ∧
      w'.store.records.rows =
        w.store.records.rows.map (retired subjectId byId (w.clock w.ticks) ids) ∧
      (ids = [] → w' = w) := by
  unfold supersedeRecords
  by_cases hnone : ids = []
  · subst hnone
    refine ⟨w, rfl, ?_, fun _ => rfl⟩
    exact (map_retired_of_none fun r _ h => absurd h.2.1 List.not_mem_nil).symm
  · rw [if_pos hnone]
    exact ⟨_, rfl, rows_supersedeEach ids, fun h => absurd h hnone⟩

end Atmem.Memory
