import Atmem.Common.Interleaving
import Atmem.Store.AuditChain
/-!
# Verifying from a checkpoint

The incremental pass trusts a head that an earlier pass verified and goes on
from there. Appends leave what was verified in place and keep every chain as
it was, whole or broken; so whatever else runs between its statements, a pass
finds what a scan of the whole chain would find, and the head it leaves
behind is one a later pass may start from.
-/

namespace Atmem

open HashChain Interleaving

variable {H : Hashing} {R : JsonReader} {db db' db'' : AuditDb} {subjectId : String}

/-! ## Positions in a chain -/

/-- The events of a subject stand in the order of their sequence. -/
theorem listAuditEvents_sorted (db : AuditDb) (subjectId : String) :
    (db.listAuditEvents R subjectId).Pairwise fun a b => a.sequence < b.sequence :=
  List.pairwise_map.mpr (db.ordered.filter _)

section Positions

variable {done rest : List AuditLogEvent} {last : AuditLogEvent}
variable (hsorted : (done ++ [last] ++ rest).Pairwise fun a b => a.sequence < b.sequence)
include hsorted

/-- What was done came before. -/
theorem lt_of_before : ∀ e ∈ done, e.sequence < last.sequence := by
  intro e he
  rw [List.pairwise_append, List.pairwise_append] at hsorted
  exact hsorted.1.2.2 e he last (List.mem_singleton_self last)

/-- What is left comes after. -/
theorem lt_of_after : ∀ e ∈ rest, last.sequence < e.sequence := by
  intro e he
  rw [List.pairwise_append] at hsorted
  exact hsorted.2.2 last (List.mem_append_right done (List.mem_singleton_self last)) e he

theorem le_of_upTo : ∀ e ∈ done ++ [last], e.sequence ≤ last.sequence := by
  intro e he
  rcases List.mem_append.mp he with he | he
  · have hlt := lt_of_before hsorted e he
    omega
  · rw [List.mem_singleton.mp he]

/-- A chain, cut behind the event of a sequence. -/
theorem filter_after :
    (done ++ [last] ++ rest).filter (fun e => last.sequence < e.sequence) = rest := by
  have hdone : (done ++ [last]).filter (fun e => last.sequence < e.sequence) = [] := by
    refine List.filter_eq_nil_iff.mpr fun e he => ?_
    have hle := le_of_upTo hsorted e he
    rw [decide_eq_true_iff]
    omega
  have hrest : rest.filter (fun e => last.sequence < e.sequence) = rest :=
    List.filter_eq_self.mpr fun e he => decide_eq_true (lt_of_after hsorted e he)
  rw [List.filter_append, hdone, hrest, List.nil_append]

/-- What was verified is what is not after the last. -/
theorem filter_upTo :
    (done ++ [last] ++ rest).filter (fun e => e.sequence ≤ last.sequence) = done ++ [last] := by
  have hdone : (done ++ [last]).filter (fun e => e.sequence ≤ last.sequence) = done ++ [last] :=
    List.filter_eq_self.mpr fun e he => decide_eq_true (le_of_upTo hsorted e he)
  have hrest : rest.filter (fun e => e.sequence ≤ last.sequence) = [] := by
    refine List.filter_eq_nil_iff.mpr fun e he => ?_
    have hlt := lt_of_after hsorted e he
    rw [decide_eq_true_iff]
    omega
  rw [List.filter_append, hdone, hrest, List.append_nil]

/-- The event of a sequence is found. -/
theorem find_last :
    (done ++ [last] ++ rest).find? (fun e => e.sequence = last.sequence) = some last := by
  have hdone : done.find? (fun e => e.sequence = last.sequence) = none := by
    refine List.find?_eq_none.mpr fun e he => ?_
    have hlt := lt_of_before hsorted e he
    rw [decide_eq_true_iff]
    omega
  simp [List.find?_append, hdone]

end Positions

/-! ## The scan -/

/-- Where a scan ends that meets no mismatch. -/
def Scan.after (start : Scan) (events : List AuditLogEvent) : Scan :=
  ⟨(events.getLast?.map (·.eventHash)).or start.previousHash,
    (events.getLast?.map (·.sequence)).getD start.lastSequence, start.verified + events.length⟩

/-- A scan goes on event by event. -/
theorem Scan.after_cons (start : Scan) (event : AuditLogEvent) (rest : List AuditLogEvent) :
    start.after (event :: rest) =
      Scan.after ⟨some event.eventHash, event.sequence, start.verified + 1⟩ rest := by
  have hcount : start.verified + (rest.length + 1) = start.verified + 1 + rest.length := by omega
  rcases hlast : rest.getLast? with - | last <;>
    simp [Scan.after, List.getLast?_cons, hlast, hcount]

/-- **The scan passes a chain in order and stops at any other.** -/
theorem scan_of_linked {start : Scan} {events : List AuditLogEvent}
    (h : (auditScheme H).Linked start.previousHash events) :
    scan H start events = .ok (start.after events) := by
  induction events generalizing start with
  | nil => simp [scan, Scan.after]
  | cons event rest ih =>
    obtain ⟨⟨hprev, hhash⟩, hrest⟩ := h
    have hgood : ¬ (event.prevHash ≠ start.previousHash ∨
        event.eventHash ≠ eventHash H event start.previousHash) := by
      rintro (hne | hne)
      · exact hne hprev
      · exact hne hhash
    have htail : scan H ⟨some event.eventHash, event.sequence, start.verified + 1⟩ rest =
        .ok (Scan.after ⟨some event.eventHash, event.sequence, start.verified + 1⟩ rest) := ih hrest
    rw [scan, if_neg hgood, htail, Scan.after_cons]

/-- A scan stops where the chain breaks. -/
theorem scan_of_not_linked {start : Scan} {events : List AuditLogEvent}
    (h : ¬ (auditScheme H).Linked start.previousHash events) :
    ∃ stop, scan H start events = .error stop := by
  induction events generalizing start with
  | nil => exact absurd trivial h
  | cons event rest ih =>
    by_cases hbad : event.prevHash ≠ start.previousHash ∨
        event.eventHash ≠ eventHash H event start.previousHash
    · exact ⟨_, by rw [scan, if_pos hbad]⟩
    · rw [scan, if_neg hbad]
      rw [not_or, not_not, not_not] at hbad
      exact ih fun hrest => h ⟨hbad, hrest⟩

/-! ## Growth -/

/-- Every chain went on in order from where it stood. -/
def Grows (H : Hashing) (R : JsonReader) (db db' : AuditDb) : Prop :=
  ∀ subjectId, ∃ more, db'.listAuditEvents R subjectId = db.listAuditEvents R subjectId ++ more ∧
    (auditScheme H).Linked (db.headHash subjectId) more

theorem Grows.refl (db : AuditDb) : Grows H R db db :=
  fun _ => ⟨[], (List.append_nil _).symm, trivial⟩

theorem Grows.trans (h₁ : Grows H R db db') (h₂ : Grows H R db' db'') : Grows H R db db'' := by
  intro subjectId
  obtain ⟨more, hmore, hlinked⟩ := h₁ subjectId
  obtain ⟨more', hmore', hlinked'⟩ := h₂ subjectId
  refine ⟨more ++ more', by rw [hmore', hmore, List.append_assoc], ?_⟩
  rw [Scheme.linked_append]
  refine ⟨hlinked, ?_⟩
  rw [headHash_eq_head (R := R), hmore, Scheme.head_append, ← headHash_eq_head] at hlinked'
  exact hlinked'

/-- **Growth changes no verdict**, good or bad. -/
theorem Grows.verifyAuditChain_eq (hg : Grows H R db db') :
    db'.verifyAuditChain H R subjectId = db.verifyAuditChain H R subjectId := by
  obtain ⟨more, hmore, hlinked⟩ := hg subjectId
  rw [headHash_eq_head (R := R)] at hlinked
  unfold AuditDb.verifyAuditChain
  rw [Bool.eq_iff_iff, verifyFrom_eq_true, verifyFrom_eq_true, hmore, Scheme.linked_append]
  exact ⟨fun h => h.1, fun h => ⟨h, hlinked⟩⟩

/-- A head that was verified: the chain up to it is in order. -/
def Checkpoint (H : Hashing) (R : JsonReader) (db : AuditDb) (subjectId : String)
    (state : VerificationState) : Prop :=
  ∃ done last rest, db.listAuditEvents R subjectId = done ++ [last] ++ rest ∧
    (auditScheme H).Linked none (done ++ [last]) ∧ last.sequence = state.sequence ∧
    last.eventHash = state.eventHash

/-- A checkpoint stays good as the log grows. -/
theorem Checkpoint.grows {state : VerificationState} (hc : Checkpoint H R db subjectId state)
    (hg : Grows H R db db') : Checkpoint H R db' subjectId state := by
  obtain ⟨done, last, rest, hlist, hlinked, hseq, hhash⟩ := hc
  obtain ⟨more, hmore, -⟩ := hg subjectId
  exact ⟨done, last, rest ++ more, by rw [hmore, hlist, List.append_assoc], hlinked, hseq, hhash⟩

/-- A log whose sequences count from one and whose verified heads are. -/
structure Sound (H : Hashing) (R : JsonReader) (db : AuditDb) : Prop where
  positive : ∀ r ∈ db.rows, 0 < r.sequence
  counter : 0 ≤ db.lastAssigned
  checkpoint : ∀ subjectId state, db.states subjectId = some state →
    Checkpoint H R db subjectId state

/-! ## The statements -/

/-- Where an accepted insertion puts its row. -/
theorem insert_rows {row : AuditLogRow} (h : db.insert row = some db') :
    db'.rows = db.rows ++ [{ row with sequence := db.lastAssigned + 1 }] ∧
      db'.lastAssigned = db.lastAssigned + 1 ∧ db'.states = db.states := by
  unfold AuditDb.insert at h
  split at h
  · cases h
  · cases h
    exact ⟨rfl, rfl, rfl⟩

/-- **An append goes on from the head**: the hash it stores is the one a
verification computes, for the payload is hashed as it is read back. -/
theorem grows_append {args : AppendArgs} {payload : Json}
    (hloads : R.loads args.payloadJson = some payload)
    (h : db.insert (appendedRow H db args payload) = some db') : Grows H R db db' := by
  intro subjectId
  obtain ⟨hrows, -, -⟩ := insert_rows h
  have hpayload : loadJson R args.payloadJson = payload := by
    have hne : args.payloadJson ≠ "" := Json.canonicalJson_obj_ne _
    rw [loadJson, if_neg hne, hloads, Option.getD_some]
  unfold AuditDb.listAuditEvents AuditDb.rowsOf
  rw [hrows, List.filter_append, List.map_append]
  refine ⟨_, rfl, ?_⟩
  by_cases hsubject : args.subjectId = subjectId
  · subst hsubject
    have hown : [{ appendedRow H db args payload with sequence := db.lastAssigned + 1 }].filter
        (fun r => r.subjectId = args.subjectId) =
          [{ appendedRow H db args payload with sequence := db.lastAssigned + 1 }] :=
      List.filter_eq_self.mpr fun r hr => by
        rw [List.mem_singleton.mp hr]
        exact decide_eq_true rfl
    rw [hown]
    refine ⟨⟨rfl, ?_⟩, trivial⟩
    show eventHash H _ _ = eventHash H _ _
    simp only [eventHash, preimage, appendedRow, auditFromRow, hpayload]
  · -- the chains of the other subjects stay as they are
    have hother : [{ appendedRow H db args payload with sequence := db.lastAssigned + 1 }].filter
        (fun r => r.subjectId = subjectId) = [] :=
      List.filter_eq_nil_iff.mpr fun r hr => by
        rw [List.mem_singleton.mp hr, decide_eq_true_iff]
        exact hsubject
    rw [hother]
    trivial

/-- An append keeps the log sound. -/
theorem sound_append {args : AppendArgs} {payload : Json} (hs : Sound H R db)
    (hloads : R.loads args.payloadJson = some payload)
    (h : db.insert (appendedRow H db args payload) = some db') : Sound H R db' := by
  obtain ⟨hrows, hcounter, hstates⟩ := insert_rows h
  have hnonneg := hs.counter
  refine ⟨fun r hr => ?_, ?_, fun subjectId state hstate => ?_⟩
  · rw [hrows] at hr
    rcases List.mem_append.mp hr with hr | hr
    · exact hs.positive r hr
    · rw [List.mem_singleton.mp hr]
      dsimp only
      omega
  · rw [hcounter]
    omega
  · rw [hstates] at hstate
    exact (hs.checkpoint subjectId state hstate).grows (grows_append hloads h)

/-- The heads are moved to where a chain was verified, or dropped. -/
theorem sound_setState {state : Option VerificationState} (hs : Sound H R db)
    (hstate : ∀ st, state = some st → Checkpoint H R db subjectId st) :
    Sound H R (db.setState subjectId state) := by
  refine ⟨hs.positive, hs.counter, fun subject st hst => ?_⟩
  unfold AuditDb.setState at hst
  dsimp only at hst
  split at hst
  · rename_i hsubject
    subst hsubject
    exact hstate st hst
  · exact hs.checkpoint subject st hst

theorem setState_setState {state state' : Option VerificationState} :
    (db.setState subjectId state).setState subjectId state' = db.setState subjectId state' := by
  unfold AuditDb.setState
  congr 1
  funext s
  by_cases hs : s = subjectId <;> simp [hs]

theorem grows_setState {state : Option VerificationState} :
    Grows H R db (db.setState subjectId state) := Grows.refl db

/-! ## A pass -/

/-- Where a pass starts: at the beginning, or behind a verified head. -/
def StartsAt (H : Hashing) (R : JsonReader) (db : AuditDb) (subjectId : String) (start : ℤ)
    (prevHash : Option String) : Prop :=
  (start = 0 ∧ prevHash = none) ∨ ∃ state, start = state.sequence ∧
    prevHash = some state.eventHash ∧ Checkpoint H R db subjectId state

/-- A start stays one as the log grows. -/
theorem StartsAt.grows {start : ℤ} {prevHash : Option String}
    (hst : StartsAt H R db subjectId start prevHash) (hg : Grows H R db db') :
    StartsAt H R db' subjectId start prevHash := by
  rcases hst with h | ⟨state, hstart, hprev, hc⟩
  · exact Or.inl h
  · exact Or.inr ⟨state, hstart, hprev, hc.grows hg⟩

/-- **A pass starts between what was verified and what was not.** -/
theorem StartsAt.split {start : ℤ} {prevHash : Option String} (hs : Sound H R db)
    (hst : StartsAt H R db subjectId start prevHash) :
    ∃ done, db.listAuditEvents R subjectId = done ++ db.eventsAfter R subjectId start ∧
      (db.listAuditEvents R subjectId).filter (fun e => e.sequence ≤ start) = done ∧
      (auditScheme H).Linked none done ∧ (auditScheme H).head none done = prevHash ∧
      (done.getLast?.map (·.sequence)).getD 0 = start := by
  rcases hst with ⟨rfl, rfl⟩ | ⟨state, rfl, rfl, done, last, rest, hlist, hlinked, hseq, hhash⟩
  · have hpositive : ∀ e ∈ db.listAuditEvents R subjectId, 0 < e.sequence := by
      intro e he
      obtain ⟨r, hr, rfl⟩ := List.mem_map.mp he
      exact hs.positive r (List.mem_of_mem_filter hr)
    have hall : db.eventsAfter R subjectId 0 = db.listAuditEvents R subjectId :=
      List.filter_eq_self.mpr fun e he => decide_eq_true (hpositive e he)
    have hnone : (db.listAuditEvents R subjectId).filter (fun e => e.sequence ≤ 0) = [] := by
      refine List.filter_eq_nil_iff.mpr fun e he => ?_
      have hlt := hpositive e he
      rw [decide_eq_true_iff]
      omega
    exact ⟨[], by rw [hall, List.nil_append], hnone, trivial, rfl, rfl⟩
  · have hsorted := listAuditEvents_sorted (R := R) db subjectId
    rw [hlist] at hsorted
    have hafter : db.eventsAfter R subjectId state.sequence = rest := by
      rw [AuditDb.eventsAfter, hlist, ← hseq]
      exact filter_after hsorted
    refine ⟨done ++ [last], by rw [hafter, hlist], ?_, hlinked, ?_, ?_⟩
    · rw [hlist, ← hseq]
      exact filter_upTo hsorted
    · rw [Scheme.head_concat, ← hhash]
      rfl
    · rw [List.getLast?_concat]
      exact hseq

/-- **A head that was verified is anchored.** -/
theorem anchored_of_checkpoint {state : VerificationState}
    (hc : Checkpoint H R db subjectId state) :
    anchored H (db.eventAtSequence R subjectId state.sequence) state = true := by
  obtain ⟨done, last, rest, hlist, hlinked, hseq, hhash⟩ := hc
  have hsorted := listAuditEvents_sorted (R := R) db subjectId
  rw [hlist] at hsorted
  have hfound : db.eventAtSequence R subjectId state.sequence = some last := by
    rw [AuditDb.eventAtSequence, hlist, ← hseq]
    exact find_last hsorted
  have hmark : last.eventHash = eventHash H last last.prevHash :=
    hlinked.mark_eq (List.mem_append_right done (List.mem_singleton_self last))
  rw [hfound, anchored, Bool.and_eq_true, decide_eq_true_iff, decide_eq_true_iff]
  exact ⟨hhash, hmark.symm⟩

/-- What a report says of the log its suffix was read from. -/
structure Reports (H : Hashing) (R : JsonReader) (db : AuditDb) (subjectId : String)
    (report : IncrementalReport) : Prop where
  valid : report.valid = db.verifyAuditChain H R subjectId
  /-- What the pass did not look at is in order. -/
  cached : verifyFrom H none ((db.listAuditEvents R subjectId).filter fun e =>
    e.sequence ≤ report.cachedFromSequence) = true
  /-- And it looked at all the rest, once. -/
  counted : report.valid = true → ((db.listAuditEvents R subjectId).filter fun e =>
    e.sequence ≤ report.cachedFromSequence).length + report.verifiedEvents =
      (db.listAuditEvents R subjectId).length
  through : report.valid = true → report.verifiedThroughSequence =
    some (((db.listAuditEvents R subjectId).getLast?.map (·.sequence)).getD 0)

/-- The head of a log, as it is recorded. -/
def HeadRecorded (R : JsonReader) (db db' : AuditDb) (subjectId : String) : Prop :=
  ∀ last, (db.listAuditEvents R subjectId).getLast? = some last →
    db'.states subjectId = some ⟨last.sequence, last.eventHash⟩

section Pass

variable {Rl : List AuditAction → Timeline AuditDb → Timeline AuditDb → Prop}
variable {log : List AuditAction} {h : Timeline AuditDb}

/-- What the others do between two statements of a call. -/
def AuditRelies (H : Hashing) (R : JsonReader)
    (Rl : List AuditAction → Timeline AuditDb → Timeline AuditDb → Prop) : Prop :=
  ∀ log h h', Rl log h h' → Sound H R h'.now ∧ Grows H R h.now h'.now ∧ h.Extends h'

/-- What one statement does. -/
def AuditKeeps (H : Hashing) (R : JsonReader) (h : Timeline AuditDb) (db : AuditDb) : Prop :=
  Grows H R h.now db ∧ Sound H R db

/-- What a pass returns: a report of a log that was there, whose head was
recorded if it was found in order. -/
def Returns (H : Hashing) (R : JsonReader) (subjectId : String)
    (outcome : Except AuditError IncrementalReport) (h : Timeline AuditDb) : Prop :=
  ∃ report db, outcome = .ok report ∧ h.Seen db ∧ Grows H R db h.now ∧
    Reports H R db subjectId report ∧
    (report.valid = true → ∃ db', h.Seen db' ∧ HeadRecorded R db db' subjectId)

/-- The verdict on a suffix is the verdict on the chain. -/
theorem verifyAuditChain_of_split {done rest : List AuditLogEvent} {prevHash : Option String}
    (hlist : db.listAuditEvents R subjectId = done ++ rest)
    (hdone : (auditScheme H).Linked none done) (hhead : (auditScheme H).head none done = prevHash) :
    db.verifyAuditChain H R subjectId = true ↔ (auditScheme H).Linked prevHash rest := by
  unfold AuditDb.verifyAuditChain
  rw [verifyFrom_eq_true, hlist, Scheme.linked_append, hhead]
  exact ⟨fun h => h.2, fun h => ⟨hdone, h⟩⟩

/-- The last event of a chain in order is one to start from. -/
theorem checkpoint_of_verified {last : AuditLogEvent}
    (hv : db.verifyAuditChain H R subjectId = true)
    (hend : (db.listAuditEvents R subjectId).getLast? = some last) :
    Checkpoint H R db subjectId ⟨last.sequence, last.eventHash⟩ := by
  have hsplit := List.dropLast_append_getLast? last hend
  refine ⟨(db.listAuditEvents R subjectId).dropLast, last, [], ?_, ?_, rfl, rfl⟩
  · rw [List.append_nil, hsplit]
  · rw [hsplit]
    exact verifyFrom_eq_true.mp hv

/-- Where the scan of a suffix ends, said of the whole chain. -/
theorem after_eq {start : ℤ} {prevHash : Option String} {done rest events : List AuditLogEvent}
    (hlist : events = done ++ rest) (hhead : (auditScheme H).head none done = prevHash)
    (hlast : (done.getLast?.map (·.sequence)).getD 0 = start) :
    Scan.after ⟨prevHash, start, 0⟩ rest = ⟨events.getLast?.map (·.eventHash),
      (events.getLast?.map (·.sequence)).getD 0, rest.length⟩ := by
  rw [head_eq_getLast?, Option.or_none] at hhead
  subst hlist hhead hlast
  unfold Scan.after
  rw [List.getLast?_append, Nat.zero_add]
  rcases rest.getLast? with - | last <;> rfl

/-- Verifying the rest of the log is safe. -/
theorem safe_verifySuffix (hR : AuditRelies H R Rl) {start : ℤ} {prevHash : Option String}
    (hst : StartsAt H R h.now subjectId start prevHash) :
    Safe Rl (AuditKeeps H R) (fun _ r h' => Returns H R subjectId r h')
      (verifySuffix H R subjectId start prevHash) log h := by
  unfold verifySuffix
  refine Safe.eff_bind (fun h₁ hr₁ => ?_)
  obtain ⟨hs₁, hg₁, -⟩ := hR _ _ _ hr₁
  refine ⟨⟨Grows.refl _, hs₁⟩, fun rows hrows => ?_, fun e he => nomatch he⟩
  cases hrows
  obtain ⟨done, hlist, hupTo, hdone, hhead, hlast⟩ := (hst.grows hg₁).split hs₁
  have hverdict := verifyAuditChain_of_split hlist hdone hhead
  by_cases hlinked : (auditScheme H).Linked prevHash (h₁.now.eventsAfter R subjectId start)
  · -- the suffix is in order: so is the chain, and its head is recorded
    have hvalid : h₁.now.verifyAuditChain H R subjectId = true := hverdict.mpr hlinked
    have hscan : scan H ⟨prevHash, start, 0⟩ (h₁.now.eventsAfter R subjectId start) =
        .ok (Scan.after ⟨prevHash, start, 0⟩ _) := scan_of_linked hlinked
    rw [after_eq hlist hhead hlast] at hscan
    have hcounted : done.length + (h₁.now.eventsAfter R subjectId start).length =
        (h₁.now.listAuditEvents R subjectId).length := by
      rw [← List.length_append, ← hlist]
    have hreport : Reports H R h₁.now subjectId
        { valid := true, cachedFromSequence := start
          verifiedThroughSequence :=
            some (((h₁.now.listAuditEvents R subjectId).getLast?.map (·.sequence)).getD 0)
          verifiedEvents := (h₁.now.eventsAfter R subjectId start).length, failure := none } :=
      ⟨hvalid.symm, by rw [hupTo]; exact verifyFrom_eq_true.mpr hdone,
        fun _ => by rw [hupTo]; exact hcounted, fun _ => rfl⟩
    dsimp only
    rw [hscan]
    dsimp only
    rcases hend : (h₁.now.listAuditEvents R subjectId).getLast? with - | last
    · -- no events, no head to record
      rw [hend] at hreport
      exact ⟨_, h₁.now, rfl, Timeline.seen_now, Grows.refl _, hreport, fun _ =>
        ⟨h₁.now, Timeline.seen_now, fun last hl => by rw [hend] at hl; cases hl⟩⟩
    · rw [hend] at hreport
      have hpositive : (Option.map (fun e => e.sequence) (some last)).getD 0 ≠ 0 := by
        have hmem : last ∈ h₁.now.listAuditEvents R subjectId := List.mem_of_getLast? hend
        obtain ⟨row, hrow, rfl⟩ := List.mem_map.mp hmem
        have hpos := hs₁.positive row (List.mem_of_mem_filter hrow)
        exact ne_of_gt hpos
      have hc : Checkpoint H R h₁.now subjectId ⟨last.sequence, last.eventHash⟩ :=
        checkpoint_of_verified hvalid hend
      rw [if_pos hpositive]
      refine Safe.eff_bind (fun h₂ hr₂ => ?_)
      obtain ⟨hs₂, hg₂, hseen⟩ := hR _ _ _ hr₂
      refine ⟨⟨grows_setState, sound_setState hs₂ fun st hst => ?_⟩, fun _ _ => ?_, fun e he => nomatch he⟩
      · cases hst
        exact hc.grows hg₂
      · refine ⟨_, h₁.now, rfl, (hseen _ Timeline.seen_now).push _, hg₂, hreport, fun _ =>
          ⟨_, Timeline.seen_now, fun last' hl => ?_⟩⟩
        rw [hend] at hl
        cases hl
        exact if_pos rfl
  · -- a mismatch: the chain is broken
    obtain ⟨⟨verified, sequence⟩, hscan⟩ : ∃ stop, scan H ⟨prevHash, start, 0⟩
        (h₁.now.eventsAfter R subjectId start) = .error stop := scan_of_not_linked hlinked
    have hbroken : h₁.now.verifyAuditChain H R subjectId = false :=
      Bool.eq_false_iff.mpr fun hv => hlinked (hverdict.mp hv)
    dsimp only
    rw [hscan]
    refine ⟨_, h₁.now, rfl, Timeline.seen_now, Grows.refl _, ⟨hbroken.symm, ?_, ?_, ?_⟩, ?_⟩
    · rw [hupTo]
      exact verifyFrom_eq_true.mpr hdone
    all_goals exact fun hv => nomatch hv

/-- **A pass reports what a scan of the whole chain would**, whatever runs
between its statements. -/
theorem safe_incremental (hR : AuditRelies H R Rl) (reset : Bool) :
    Safe Rl (AuditKeeps H R) (fun _ r h' => Returns H R subjectId r h')
      (verifyAuditChainIncremental H R subjectId reset) log h := by
  have hfresh : ∀ log h, Safe Rl (AuditKeeps H R) (fun _ r h' => Returns H R subjectId r h')
      (verifySuffix H R subjectId 0 none) log h := fun log h =>
    safe_verifySuffix hR (Or.inl ⟨rfl, rfl⟩)
  unfold verifyAuditChainIncremental
  by_cases hreset : reset = true
  · rw [if_pos hreset, if_pos hreset]
    refine Safe.eff_bind (fun h₁ hr₁ => ?_)
    obtain ⟨hs₁, -, -⟩ := hR _ _ _ hr₁
    refine ⟨⟨grows_setState, sound_setState hs₁ fun st hst => nomatch hst⟩, fun _ _ => ?_,
      fun e he => nomatch he⟩
    exact hfresh _ _
  · rw [if_neg hreset, if_neg hreset]
    refine Safe.eff_bind (fun h₁ hr₁ => ?_)
    obtain ⟨hs₁, -, -⟩ := hR _ _ _ hr₁
    refine ⟨⟨Grows.refl _, hs₁⟩, fun state hstate => ?_, fun e he => nomatch he⟩
    cases hstate
    dsimp only
    rcases hcached : h₁.now.states subjectId with - | state
    · exact hfresh _ _
    · have hc := hs₁.checkpoint subjectId state hcached
      refine Safe.eff_bind (fun h₂ hr₂ => ?_)
      obtain ⟨hs₂, hg₂, -⟩ := hR _ _ _ hr₂
      refine ⟨⟨Grows.refl _, hs₂⟩, fun anchor hanchor => ?_, fun e he => nomatch he⟩
      cases hanchor
      have hc₂ : Checkpoint H R h₂.now subjectId state := hc.grows hg₂
      rw [if_pos (anchored_of_checkpoint hc₂)]
      exact safe_verifySuffix hR (Or.inr ⟨state, rfl, rfl, hc₂⟩)

/-- An append keeps to the growth. -/
theorem safe_append (hR : AuditRelies H R Rl) (args : AppendArgs) :
    Safe Rl (AuditKeeps H R) (fun _ _ _ => True) (appendAuditEvent H R args) log h := by
  intro h₁ hr₁
  obtain ⟨hs₁, -, -⟩ := hR _ _ _ hr₁
  refine ⟨?_, trivial⟩
  rcases hloads : R.loads args.payloadJson with - | payload
  · exact ⟨Grows.refl _, hs₁⟩
  · rcases hinsert : h₁.now.insert (appendedRow H h₁.now args payload) with - | db'
    · simp only [hinsert]
      exact ⟨Grows.refl _, hs₁⟩
    · simp only [hinsert]
      exact ⟨grows_append hloads hinsert, sound_append hs₁ hloads hinsert⟩

end Pass

/-! ## Every run -/

/-- What a call of the log returns. -/
def AuditCall.Outcome (H : Hashing) (R : JsonReader) (call : AuditCall)
    (outcome : Except AuditError AuditOutcome) (h : Timeline AuditDb) : Prop :=
  match call with
  | .append _ => True
  | .verify subjectId => outcome = .ok (.verified (h.now.verifyAuditChain H R subjectId))
  | .verifyIncremental subjectId _ => ∃ r, outcome = .report <$> r ∧ Returns H R subjectId r h

/-- The discipline of the log. -/
def auditDiscipline (H : Hashing) (R : JsonReader) :
    Discipline (AuditCall.body H R) fun _ => True where
  Watch := fun _ => True
  watch_live := fun _ _ => trivial
  I h := Sound H R h.now
  V h h' := Grows H R h.now h'.now ∧ h.Extends h'
  W := fun _ _ _ _ => True
  G := AuditKeeps H R
  Q call _ outcome h := call.Outcome H R outcome h
  evolves_refl h := ⟨Grows.refl _, .refl h⟩
  evolves_trans h₁ h₂ := ⟨h₁.1.trans h₂.1, h₁.2.trans h₂.2⟩
  window_refl := fun _ _ _ => trivial
  window_trans := fun _ _ => trivial
  keeps := fun _ hg => ⟨hg.2, hg.1, Timeline.extends_push _ _⟩
  body_safe := by
    intro call _ h hs
    have hR : AuditRelies H R fun _ (h h' : Timeline AuditDb) =>
        Sound H R h'.now ∧ (Grows H R h.now h'.now ∧ h.Extends h') ∧ True :=
      fun _ _ _ hr => ⟨hr.1, hr.2.1.1, hr.2.1.2⟩
    match call with
    | .append args => exact Safe.eff_map ((safe_append hR args).mono fun _ _ _ _ => trivial)
    | .verify subjectId =>
      exact Safe.eff_map (Safe.eff_bind fun h₁ hr₁ =>
        ⟨⟨Grows.refl _, hr₁.1⟩, fun _ hevents => by cases hevents; exact rfl, fun _ he => nomatch he⟩)
    | .verifyIncremental subjectId reset =>
      exact Safe.eff_map ((safe_incremental hR reset).mono fun _ r _ hr => ⟨r, rfl, hr⟩)

/-- A log nothing was verified of yet. -/
structure Unverified (db : AuditDb) : Prop where
  positive : ∀ r ∈ db.rows, 0 < r.sequence
  counter : 0 ≤ db.lastAssigned
  unverified : ∀ subjectId, db.states subjectId = none

/-- The runs of the log. -/
abbrev AuditRuns (H : Hashing) (R : JsonReader) (db : AuditDb)
    (c : Config AuditCall AuditAction AuditDb (Except AuditError AuditOutcome)) : Prop :=
  Reaches (AuditCall.body H R) (fun _ => True) (Config.initial db) c

/-- The discipline holds in every run. -/
theorem good_of_run (hf : Unverified db)
    {c : Config AuditCall AuditAction AuditDb (Except AuditError AuditOutcome)}
    (hr : AuditRuns H R db c) : (auditDiscipline H R).Good c := by
  have hs : Sound H R db := ⟨hf.positive, hf.counter, fun subjectId state hstate => by
    rw [hf.unverified subjectId] at hstate
    cases hstate⟩
  have hg : (auditDiscipline H R).Good (Config.initial db) :=
    Discipline.good_initial _ (s := db) hs
  exact ((auditDiscipline H R).good_reaches (fun _ _ _ _ => trivial) hg hr).1

/-- **Incremental and full verification agree.** In every run of appends,
passes and full verifications, with their statements interleaved in any
order, over a log whose chains may be whole or broken: a pass that returned
reports the verdict full verification gives, then and now; the events behind
its start are in order and, with those it counted, make up the chain it read,
to the last sequence and the hash it recorded. And at every moment a recorded
head stands on a verified part of its chain, and what a pass from there would
read is exactly the rest. -/
theorem incremental_agrees (hf : Unverified db)
    {c : Config AuditCall AuditAction AuditDb (Except AuditError AuditOutcome)}
    (hr : AuditRuns H R db c) :
    (∀ p ∈ c.procs, ∀ subjectId reset outcome, p.call = .verifyIncremental subjectId reset →
      p.prog = .ret outcome → ∃ report db', outcome = .ok (.report report) ∧ c.time.Seen db' ∧
        report.valid = c.time.now.verifyAuditChain H R subjectId ∧
        Reports H R db' subjectId report ∧
        (report.valid = true → ∃ db'', c.time.Seen db'' ∧ HeadRecorded R db' db'' subjectId)) ∧
    (∀ p ∈ c.procs, ∀ subjectId outcome, p.call = .verify subjectId → p.prog = .ret outcome →
      outcome = .ok (.verified (c.time.now.verifyAuditChain H R subjectId))) ∧
    ∀ subjectId state, c.time.now.states subjectId = some state →
      ∃ done last, c.time.now.listAuditEvents R subjectId =
          done ++ [last] ++ c.time.now.eventsAfter R subjectId state.sequence ∧
        verifyFrom H none (done ++ [last]) = true ∧ last.sequence = state.sequence ∧
        last.eventHash = state.eventHash := by
  have hg := good_of_run hf hr
  refine ⟨?_, ?_, ?_⟩
  · intro p hp subjectId reset outcome hcall hret
    obtain ⟨h, ⟨hgrows, hseen⟩, -, hq⟩ := hg.outcome hp hret
    have hq' : AuditCall.Outcome H R p.call outcome h := hq
    rw [hcall] at hq'
    -- the pass saw an earlier state of a chain that only grew
    obtain ⟨r, rfl, report, db', rfl, hdb', hdb'grows, hreports, hrecorded⟩ := hq'
    refine ⟨report, db', rfl, hseen _ hdb', ?_, hreports, fun hv => ?_⟩
    · rw [hreports.valid, (hdb'grows.trans hgrows).verifyAuditChain_eq]
    · obtain ⟨db'', hdb'', hhead⟩ := hrecorded hv
      exact ⟨db'', hseen _ hdb'', hhead⟩
  · intro p hp subjectId outcome hcall hret
    obtain ⟨h, ⟨hgrows, -⟩, -, hq⟩ := hg.outcome hp hret
    have hq' : AuditCall.Outcome H R p.call outcome h := hq
    rw [hcall] at hq'
    rw [hgrows.verifyAuditChain_eq]
    exact hq'
  · intro subjectId state hstate
    have hs : Sound H R c.time.now := hg.1
    -- the recorded head splits the chain where its sequence says
    obtain ⟨done, last, rest, hlist, hlinked, hseq, hhash⟩ := hs.checkpoint subjectId state hstate
    have hsorted := listAuditEvents_sorted (R := R) c.time.now subjectId
    rw [hlist] at hsorted
    have hafter : c.time.now.eventsAfter R subjectId state.sequence = rest := by
      rw [AuditDb.eventsAfter, hlist, ← hseq]
      exact filter_after hsorted
    exact ⟨done, last, by rw [hafter, hlist], verifyFrom_eq_true.mpr hlinked, hseq, hhash⟩

/-! ## A second pass -/

/-- Nothing is verified at the start. -/
theorem unverified_oneEvent : Unverified (oneEvent 1) where
  positive := fun r hr => by
    rw [List.mem_singleton.mp hr]
    decide
  counter := by decide
  unverified := fun _ => rfl

/-- The log of one event, after a pass. -/
def oneEventVerified : AuditDb := (oneEvent 1).setState "user-1" (some ⟨1, firstDigest⟩)

/-- A pass over a suffix in order, nobody interfering. -/
theorem exec_verifySuffix {start sequence : ℤ} {prevHash : Option String} {hash : String} {n : ℕ}
    (hscan : scan H ⟨prevHash, start, 0⟩ (db.eventsAfter R subjectId start) =
      .ok ⟨some hash, sequence, n⟩) (hne : sequence ≠ 0) :
    (verifySuffix H R subjectId start prevHash).exec db =
      (.ok { valid := true, cachedFromSequence := start, verifiedThroughSequence := some sequence
             verifiedEvents := n, failure := none },
        db.setState subjectId (some ⟨sequence, hash⟩)) := by
  simp [verifySuffix, Eff.exec_bind, hscan, hne]

/-- Without a head, a pass is one over the whole chain. -/
theorem exec_of_no_state (hstate : db.states subjectId = none) :
    (AuditCall.body H R (.verifyIncremental subjectId false)).exec db =
      (.report <$> ((verifySuffix H R subjectId 0 none).exec db).1,
        ((verifySuffix H R subjectId 0 none).exec db).2) := by
  simp [AuditCall.body, verifyAuditChainIncremental, Eff.exec_map, Eff.exec_bind, hstate]

/-- From a head that was verified, it goes on. -/
theorem exec_of_checkpoint {state : VerificationState} (hstate : db.states subjectId = some state)
    (hc : Checkpoint H R db subjectId state) :
    (AuditCall.body H R (.verifyIncremental subjectId false)).exec db =
      (.report <$> ((verifySuffix H R subjectId state.sequence (some state.eventHash)).exec db).1,
        ((verifySuffix H R subjectId state.sequence (some state.eventHash)).exec db).2) := by
  simp [AuditCall.body, verifyAuditChainIncremental, Eff.exec_map, Eff.exec_bind, hstate,
    anchored_of_checkpoint hc]

/-- The first pass reads the event and records it. -/
theorem exec_first_pass :
    (AuditCall.body auditHashing exampleReader (.verifyIncremental "user-1" false)).exec
      (oneEvent 1) = (.ok (.report
        { valid := true, cachedFromSequence := 0, verifiedThroughSequence := some 1
          verifiedEvents := 1, failure := none }), oneEventVerified) := by
  have hlinked : (auditScheme auditHashing).Linked none [firstEvent 1] := by
    rw [← verifyFrom_eq_true, ← oneEvent_events]
    exact oneEvent_verifies 1
  have hscan : scan auditHashing ⟨none, 0, 0⟩ ((oneEvent 1).eventsAfter exampleReader "user-1" 0) =
      .ok ⟨some firstDigest, 1, 1⟩ := by
    rw [AuditDb.eventsAfter, oneEvent_events]
    exact scan_of_linked hlinked
  rw [exec_of_no_state rfl, exec_verifySuffix hscan (by decide)]
  rfl

/-- The second finds nothing after it. -/
theorem exec_second_pass :
    (AuditCall.body auditHashing exampleReader (.verifyIncremental "user-1" false)).exec
      oneEventVerified = (.ok (.report
        { valid := true, cachedFromSequence := 1, verifiedThroughSequence := some 1
          verifiedEvents := 0, failure := none }), oneEventVerified) := by
  have hevents : oneEventVerified.listAuditEvents exampleReader "user-1" = [firstEvent 1] :=
    oneEvent_events 1
  have hlast : (oneEventVerified.listAuditEvents exampleReader "user-1").getLast? =
      some (firstEvent 1) := congrArg List.getLast? hevents
  have hc : Checkpoint auditHashing exampleReader oneEventVerified "user-1" ⟨1, firstDigest⟩ :=
    checkpoint_of_verified (oneEvent_verifies 1) hlast
  have hscan : scan auditHashing ⟨some firstDigest, 1, 0⟩
      (oneEventVerified.eventsAfter exampleReader "user-1" 1) = .ok ⟨some firstDigest, 1, 0⟩ := by
    rw [AuditDb.eventsAfter, hevents]
    rfl
  have hagain : oneEventVerified.setState "user-1" (some ⟨1, firstDigest⟩) = oneEventVerified :=
    setState_setState
  rw [exec_of_checkpoint rfl hc, exec_verifySuffix hscan (by decide), hagain]
  rfl

/-- Two passes, nothing between them. -/
theorem exists_two_passes :
    ∃ c : Config AuditCall AuditAction AuditDb (Except AuditError AuditOutcome),
      AuditRuns auditHashing exampleReader (oneEvent 1) c ∧ c.time.now = oneEventVerified ∧
      ∃ p ∈ c.procs, p.call = .verifyIncremental "user-1" false ∧
        p.prog = .ret (.ok (.report
          { valid := true, cachedFromSequence := 1, verifiedThroughSequence := some 1
            verifiedEvents := 0, failure := none })) := by
  obtain ⟨c, hr, hnow, p, hp, hcall, hret⟩ :
      ∃ c, Reaches (AuditCall.body auditHashing exampleReader) (fun _ => True)
        (Config.initial (oneEvent 1)) c ∧ _ :=
    reaches_runAll_call _ (k := .verifyIncremental "user-1" false)
      (fun _ (_ : _ ∈ [AuditCall.verifyIncremental "user-1" false]) => trivial) trivial
  have hrun : runAll (AuditCall.body auditHashing exampleReader)
      [.verifyIncremental "user-1" false] (oneEvent 1) = oneEventVerified := by
    have hfirst := exec_first_pass
    unfold Eff.exec at hfirst
    rw [runAll, runAll, hfirst]
  have hinitial : (Config.initial (oneEvent 1) : Config AuditCall AuditAction AuditDb
      (Except AuditError AuditOutcome)).time.now = oneEvent 1 := rfl
  have hsecond := exec_second_pass
  unfold Eff.exec at hsecond
  rw [hinitial, hrun, hsecond] at hnow hret
  exact ⟨c, hr, hnow, p, hp, hcall, hret⟩

/-- A pass that goes on from a head reports the verdict on the chain, having
looked at none of it again. -/
theorem agrees_after_two_passes :
    ∃ c : Config AuditCall AuditAction AuditDb (Except AuditError AuditOutcome),
      ∃ p ∈ c.procs, ∃ report, p.prog = .ret (.ok (.report report)) ∧
        report.valid = c.time.now.verifyAuditChain auditHashing exampleReader "user-1" := by
  obtain ⟨c, hr, -, p, hp, hcall, hret⟩ := exists_two_passes
  obtain ⟨report, -, houtcome, -, hvalid, -⟩ :=
    (incremental_agrees unverified_oneEvent hr).1 p hp "user-1" false _ hcall hret
  rw [houtcome] at hret
  exact ⟨c, p, hp, report, hret, hvalid⟩

/-- The second of two passes counts none of the events of the chain. -/
theorem second_pass_counts_none :
    ¬ ∀ (H : Hashing) (R : JsonReader) (db : AuditDb)
      (c : Config AuditCall AuditAction AuditDb (Except AuditError AuditOutcome)),
      Unverified db → AuditRuns H R db c → ∀ p ∈ c.procs, ∀ subjectId reset outcome,
        p.call = .verifyIncremental subjectId reset → p.prog = .ret outcome →
        ∃ report, outcome = .ok (.report report) ∧ (report.valid = true →
          report.verifiedEvents = (c.time.now.listAuditEvents R subjectId).length) := by
  intro hall
  obtain ⟨c, hr, hnow, p, hp, hcall, hret⟩ := exists_two_passes
  obtain ⟨report, houtcome, hcount⟩ :=
    hall auditHashing exampleReader (oneEvent 1) c unverified_oneEvent hr p hp _ _ _ hcall hret
  cases houtcome
  rw [hnow] at hcount
  have hlength : (oneEventVerified.listAuditEvents exampleReader "user-1").length = 1 := rfl
  rw [hlength] at hcount
  exact absurd (hcount rfl) (by decide)

end Atmem
