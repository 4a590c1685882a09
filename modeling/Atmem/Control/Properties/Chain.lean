import Atmem.Common.HashChain
import Atmem.Control.Helpers.Statements
import Mathlib.Data.List.Range
import Mathlib.Data.Set.Function
/-!
# What an evidence chain is evidence of

Whoever extends a chain, and in whatever order, every chain verifies and its
entries count from one. And what verifies is pinned by its last digest: the
digest of an entry is taken of its place in the chain, the digest of its body
and the digest before it, so two chains that verify and end alike hold the
same bodies.
-/

namespace Atmem.Control

open History HashChain Relational

variable {E : Engine} {H : Hashing} {w : ControlWorld} {s s' : ControlStore}
variable {migrationId kind : String}

/-! ## The loop -/

/-- The rows of a chain, as they were inserted. -/
def ControlStore.rowsOf (s : ControlStore) (migrationId kind : String) : List EvidenceRow :=
  s.evidence.rows.filter fun r => r.migrationId = migrationId ∧ r.kind = kind

/-- Nothing is wrong with the rows, from a given digest and position on. -/
def Verified (H : Hashing) (previous : String) (position : ℕ) (rows : List EvidenceRow) : Prop :=
  (verifyRows H previous position rows).1 = []

/-- The row is in order at a position, after a given digest. -/
structure RowVerified (H : Hashing) (previous : String) (position : ℕ) (row : EvidenceRow) :
    Prop where
  sequence : row.sequence = position
  body : row.bodySha256 = H.sha256Hex row.bodyJson
  prev : row.prevSha256 = previous
  entry : row.entrySha256 = evidenceEntrySha256 H previous row.migrationId row.kind row.sequence
    (H.sha256Hex row.bodyJson)

/-- A row has no errors exactly if it is verified. -/
theorem rowErrors_eq_nil {previous : String} {position : ℕ} {row : EvidenceRow} :
    rowErrors H previous position row = [] ↔ RowVerified H previous position row := by
  unfold rowErrors
  simp only [List.append_eq_nil_iff, ite_eq_right_iff, List.cons_ne_nil, imp_false, not_not]
  constructor
  · rintro ⟨⟨⟨hsequence, hbody⟩, hprev⟩, hentry⟩
    exact ⟨hsequence, hbody, hprev, hentry⟩
  · rintro ⟨hsequence, hbody, hprev, hentry⟩
    exact ⟨⟨⟨hsequence, hbody⟩, hprev⟩, hentry⟩

/-- A chain is verified row by row. -/
theorem verified_cons {previous : String} {position : ℕ} {row : EvidenceRow}
    {rows : List EvidenceRow} : Verified H previous position (row :: rows) ↔
      RowVerified H previous position row ∧ Verified H row.entrySha256 (position + 1) rows := by
  unfold Verified
  rw [verifyRows]
  dsimp only
  rw [List.append_eq_nil_iff, rowErrors_eq_nil]
  refine and_congr_right fun hrow => ?_
  rw [hrow.entry]

/-- The digest after rows that follow a given one. -/
def lastDigest (previous : String) (rows : List EvidenceRow) : String :=
  (rows.getLast?.map (·.entrySha256)).getD previous

theorem lastDigest_cons {previous : String} {row : EvidenceRow} {rows : List EvidenceRow} :
    lastDigest previous (row :: rows) = lastDigest row.entrySha256 rows := by
  unfold lastDigest
  rw [List.getLast?_cons]
  cases rows.getLast? <;> rfl

/-- The last digest of rows in order is the last row's. -/
theorem verifyRows_head {previous : String} {position : ℕ} {rows : List EvidenceRow}
    (h : Verified H previous position rows) :
    (verifyRows H previous position rows).2 = lastDigest previous rows := by
  induction rows generalizing previous position with
  | nil => rfl
  | cons row rows ih =>
    obtain ⟨hrow, hrest⟩ := verified_cons.mp h
    rw [verifyRows]
    dsimp only
    rw [← hrow.entry, ih hrest, lastDigest_cons]

/-- **One more row is in order where it follows the last.** -/
theorem verified_concat {previous : String} {position : ℕ} {rows : List EvidenceRow}
    {row : EvidenceRow} : Verified H previous position (rows ++ [row]) ↔
      Verified H previous position rows ∧
        RowVerified H (lastDigest previous rows) (position + rows.length) row := by
  induction rows generalizing previous position with
  | nil =>
    rw [List.nil_append, verified_cons]
    simp [Verified, verifyRows, lastDigest]
  | cons first rows ih =>
    rw [List.cons_append, verified_cons, verified_cons, ih, and_assoc]
    have hplace : position + 1 + rows.length = position + (first :: rows).length := by
      rw [List.length_cons]
      omega
    rw [hplace, lastDigest_cons]

/-- Rows in order count from the position on. -/
theorem Verified.sequences {previous : String} {position : ℕ} {rows : List EvidenceRow}
    (h : Verified H previous position rows) :
    rows.map (·.sequence) = List.range' position rows.length := by
  induction rows generalizing previous position with
  | nil => rfl
  | cons row rows ih =>
    obtain ⟨hrow, hrest⟩ := verified_cons.mp h
    rw [List.map_cons, List.length_cons, List.range'_succ, hrow.sequence, ih hrest]

/-- A chain in order is read as it was inserted. -/
theorem Verified.chain_eq {previous : String} {position : ℕ}
    (h : Verified H previous position (s.rowsOf migrationId kind)) :
    s.chain migrationId kind = s.rowsOf migrationId kind := by
  have hsorted : (s.rowsOf migrationId kind).Pairwise (·.sequence ≤ ·.sequence) := by
    have hrange : (List.range' position (s.rowsOf migrationId kind).length).Pairwise (· ≤ ·) :=
      List.pairwise_le_range'
    rw [← h.sequences] at hrange
    exact List.pairwise_map.mp hrange
  exact hsorted.insertionSort_eq

/-! ## Every run -/

/-- A run of the control store, from chains that hold nothing. -/
abbrev ControlRun (E : Engine) :
    List (ControlCall × Except ControlError ControlAnswer) → ControlWorld → Prop :=
  Run (ControlCall.body E) (fun _ _ _ => True) fun w => w.store.evidence.rows = []

/-- The next entry of a chain in order is in order. -/
theorem verified_nextEntry {id bodyJson : String} {createdAt : Instant}
    (h : Verified H zeroSha256 1 (s.rowsOf migrationId kind)) :
    Verified H zeroSha256 1 (s.rowsOf migrationId kind ++
      [s.nextEntry H migrationId kind id bodyJson createdAt]) := by
  refine verified_concat.mpr ⟨h, ?_⟩
  have hplace : ((s.rowsOf migrationId kind).getLast?.map (·.sequence + 1)).getD 1 =
      1 + (s.rowsOf migrationId kind).length := by
    rcases List.eq_nil_or_concat (s.rowsOf migrationId kind) with hnil | ⟨rows, last, hrows⟩
    · simp [hnil]
    · have hlast : last.sequence = 1 + rows.length := by
        rw [hrows, List.concat_eq_append] at h
        exact (verified_concat.mp h).2.sequence
      rw [hrows]
      simp [hlast]
      omega
  unfold ControlStore.nextEntry
  rw [h.chain_eq]
  exact ⟨hplace, rfl, rfl, rfl⟩

/-- **Every chain verifies**, whoever extended it. -/
theorem verified_of_run {made : List (ControlCall × Except ControlError ControlAnswer)}
    (hr : ControlRun E made w) (migrationId kind : String) :
    Verified E.hashing zeroSha256 1 (w.store.rowsOf migrationId kind) := by
  refine hr.invariant (I := fun _ (w : ControlWorld) =>
    Verified E.hashing zeroSha256 1 (w.store.rowsOf migrationId kind)) ?_ ?_
  · intro w hstart
    have hnone : w.store.rowsOf migrationId kind = [] := by
      rw [ControlStore.rowsOf, hstart]
      rfl
    rw [hnone]
    rfl
  · intro made w call _ _ ih
    rcases evidence_body (E := E) (w := w) call with hsame |
      ⟨migrationId', kind', id, bodyJson, createdAt, hinsert⟩
    · rw [ControlStore.rowsOf, hsame]
      exact ih
    · rw [ControlStore.rowsOf, (Table.insert_eq_some.mp hinsert).2, List.filter_append]
      by_cases hown : migrationId' = migrationId ∧ kind' = kind
      · obtain ⟨rfl, rfl⟩ := hown
        rw [List.filter_cons_of_pos (by simp [ControlStore.nextEntry])]
        exact verified_nextEntry ih
      · rw [List.filter_cons_of_neg, List.filter_nil, List.append_nil]
        · exact ih
        · exact fun h => hown (of_decide_eq_true h)

/-! ## What a head pins -/

/-- The entries of a chain as a hash chain: the first cites nothing. -/
def evidenceScheme (H : Hashing) : Scheme EvidenceRow String where
  cited row := if row.sequence = 1 then none else some row.prevSha256
  mark := (·.entrySha256)
  digest := fun previous row => evidenceEntrySha256 H (previous.getD zeroSha256) row.migrationId
    row.kind row.sequence (H.sha256Hex row.bodyJson)

/-- What an entry says: its place and its body. -/
def EvidenceRow.content (row : EvidenceRow) : ℕ × String := (row.sequence, row.bodyJson)

/-- What is hashed of an entry: its body, and its preimage. -/
def EvidenceRow.texts (H : Hashing) (row : EvidenceRow) : Set String :=
  {row.bodyJson, (entryPreimage row.prevSha256 row.migrationId row.kind row.sequence
    (H.sha256Hex row.bodyJson)).canonicalJson}

/-- The texts that the digests of the entries are of. -/
def chainTexts (H : Hashing) (rows : List EvidenceRow) : Set String :=
  {text | ∃ row ∈ rows, text ∈ row.texts H}

/-- No two of the texts have one digest, and none has the digest a chain
starts from. -/
structure Collisionless (H : Hashing) (texts : Set String) : Prop where
  injOn : Set.InjOn H.sha256Hex texts
  ne_zero : ∀ text ∈ texts, H.sha256Hex text ≠ zeroSha256

/-- Rows in order are a hash chain, each citing what it names. -/
theorem Verified.linked {previous : Option String} {position : ℕ} {rows : List EvidenceRow}
    (hposition : 0 < position) (hfirst : previous = none ↔ position = 1)
    (h : Verified H (previous.getD zeroSha256) position rows) :
    (evidenceScheme H).Linked previous rows ∧
      ∀ row ∈ rows, row.prevSha256 = ((evidenceScheme H).cited row).getD zeroSha256 := by
  induction rows generalizing previous position with
  | nil => exact ⟨trivial, fun row hrow => absurd hrow List.not_mem_nil⟩
  | cons row rows ih =>
    obtain ⟨hrow, hrest⟩ := verified_cons.mp h
    have hcited : (evidenceScheme H).cited row = previous := by
      have hsequence := hrow.sequence
      have hprev := hrow.prev
      unfold evidenceScheme
      dsimp only
      by_cases hone : position = 1
      · rw [if_pos (hsequence.trans hone), hfirst.mpr hone]
      · rw [if_neg (hsequence.trans_ne hone)]
        rcases previous with - | p
        · exact absurd (hfirst.mp rfl) hone
        · exact congrArg some hprev
    have hnext : some row.entrySha256 = none ↔ position + 1 = 1 := by
      constructor
      · intro hsome
        cases hsome
      · intro hone
        omega
    obtain ⟨hlinked, hcites⟩ := ih (Nat.succ_pos position) hnext hrest
    refine ⟨⟨⟨hcited, hrow.entry⟩, hlinked⟩, fun other hother => ?_⟩
    rcases List.mem_cons.mp hother with rfl | hother
    · rw [hcited]
      exact hrow.prev
    · exact hcites other hother

/-- The last digest is the head of the chain. -/
theorem lastDigest_eq_head {previous : Option String} {rows : List EvidenceRow} :
    lastDigest (previous.getD zeroSha256) rows =
      ((evidenceScheme H).head previous rows).getD zeroSha256 := by
  induction rows generalizing previous with
  | nil => rfl
  | cons row rows ih =>
    rw [lastDigest_cons]
    exact @ih (some row.entrySha256)

/-- The preimage determines what it is made of. -/
theorem entryPreimage_inj {prev prev' migrationId' kind' body body' : String} {n n' : ℕ}
    (h : (entryPreimage prev migrationId kind n body).canonicalJson =
      (entryPreimage prev' migrationId' kind' n' body').canonicalJson) :
    prev = prev' ∧ n = n' ∧ body = body' := by
  have hproper : ∀ prev migrationId kind n body,
      (entryPreimage prev migrationId kind n body).Proper := by
    intro prev migrationId kind n body
    refine ⟨by simp, ?_⟩
    simp only [Json.ProperFields, Json.Proper, and_self]
  have hget := Json.get?_of_canonicalJson (hproper _ _ _ _ _) (hproper _ _ _ _ _) h
  have hprev := Option.some.inj (hget "prev_sha256")
  have hsequence := Option.some.inj (hget "sequence")
  have hbody := Option.some.inj (hget "body_sha256")
  simp only [Json.sortKeys, Json.str.injEq, Json.int.injEq] at hprev hsequence hbody
  exact ⟨hprev, by omega, hbody⟩

/-- A chain that verifies, from its first entry on. -/
theorem linked_of_verified {rows : List EvidenceRow} (h : Verified H zeroSha256 1 rows) :
    (evidenceScheme H).Linked none rows ∧
      ∀ row ∈ rows, row.prevSha256 = ((evidenceScheme H).cited row).getD zeroSha256 := by
  have hstart : Verified H ((none : Option String).getD zeroSha256) 1 rows := h
  exact hstart.linked Nat.one_pos (by simp)

/-- **Of chains whose texts do not collide, a digest determines the entry.** -/
theorem binding_of_verified {rows rows' : List EvidenceRow}
    (hinj : Set.InjOn H.sha256Hex (chainTexts H rows ∪ chainTexts H rows'))
    (hv : Verified H zeroSha256 1 rows) (hv' : Verified H zeroSha256 1 rows') :
    Scheme.Binding (evidenceScheme H) EvidenceRow.content rows rows' := by
  intro row hrow row' hrow' hdigest
  have hprev := (linked_of_verified hv).2 row hrow
  have hprev' := (linked_of_verified hv').2 row' hrow'
  have hdigest : evidenceEntrySha256 H (((evidenceScheme H).cited row).getD zeroSha256)
      row.migrationId row.kind row.sequence (H.sha256Hex row.bodyJson) =
    evidenceEntrySha256 H (((evidenceScheme H).cited row').getD zeroSha256)
      row'.migrationId row'.kind row'.sequence (H.sha256Hex row'.bodyJson) := hdigest
  rw [← hprev, ← hprev'] at hdigest
  have htext := hinj (Or.inl ⟨row, hrow, Or.inr rfl⟩) (Or.inr ⟨row', hrow', Or.inr rfl⟩) hdigest
  obtain ⟨hcited, hsequence, hbody⟩ := entryPreimage_inj htext
  have hjson := hinj (Or.inl ⟨row, hrow, Or.inl rfl⟩) (Or.inr ⟨row', hrow', Or.inl rfl⟩) hbody
  constructor
  · unfold evidenceScheme
    dsimp only
    rw [hsequence, hcited]
  · unfold EvidenceRow.content
    rw [hsequence, hjson]

/-- A report says no errors of a chain in order. -/
theorem valid_iff : (s.verifyEvidenceChain H migrationId kind).valid = true ↔
    Verified H zeroSha256 1 (s.chain migrationId kind) := by
  unfold ControlStore.verifyEvidenceChain Verified
  rw [decide_eq_true_eq]

/-- The head that is reported is that of the chain. -/
theorem head_of_verified (h : Verified H zeroSha256 1 (s.chain migrationId kind)) :
    (s.verifyEvidenceChain H migrationId kind).head =
      ((evidenceScheme H).head none (s.chain migrationId kind)).getD zeroSha256 :=
  (verifyRows_head h).trans (@lastDigest_eq_head H none _)

/-- Only a chain of nothing ends with what a chain starts from. -/
theorem eq_nil_of_head_zero {rows : List EvidenceRow} (h : Verified H zeroSha256 1 rows)
    (hzero : ∀ text ∈ chainTexts H rows, H.sha256Hex text ≠ zeroSha256)
    (hhead : ((evidenceScheme H).head none rows).getD zeroSha256 = zeroSha256) : rows = [] := by
  rcases List.eq_nil_or_concat rows with hnil | ⟨before, row, hrows⟩
  · exact hnil
  · rw [List.concat_eq_append] at hrows
    have hmem : row ∈ rows := by
      rw [hrows]
      exact List.mem_append_right _ (List.mem_singleton_self row)
    rw [hrows, Scheme.head_concat] at hhead
    obtain ⟨hlinked, hcites⟩ := linked_of_verified h
    have hmark : row.entrySha256 = evidenceEntrySha256 H row.prevSha256 row.migrationId row.kind
        row.sequence (H.sha256Hex row.bodyJson) := by
      rw [hcites row hmem]
      exact hlinked.mark_eq hmem
    have hentry : row.entrySha256 = zeroSha256 := hhead
    exact absurd (hmark.symm.trans hentry) (hzero _ ⟨row, hmem, Or.inr rfl⟩)

/-- **Every evidence chain verifies.** In any order of calls, of any
connections, the chain of every migration and kind verifies and counts from
one. -/
theorem chains_verify {made : List (ControlCall × Except ControlError ControlAnswer)}
    (hr : ControlRun E made w) (migrationId kind : String) :
    (w.store.verifyEvidenceChain E.hashing migrationId kind).valid = true ∧
      (w.store.chain migrationId kind).map (·.sequence) =
        List.range' 1 (w.store.chain migrationId kind).length := by
  have hrun := verified_of_run hr migrationId kind
  rw [← hrun.chain_eq] at hrun
  exact ⟨valid_iff.mpr hrun, hrun.sequences⟩

/-- **A digest pins its chain.** Of two stores whose chains verify, with no
collision among what they hash: where they end with one digest they hold the
same bodies in the same places, and a chain made of entries of the other is
what is left of it when a tail is dropped. -/
theorem chain_pinned (hideal : Collisionless H
      (chainTexts H (s.chain migrationId kind) ∪ chainTexts H (s'.chain migrationId kind)))
    (hv : (s.verifyEvidenceChain H migrationId kind).valid = true)
    (hv' : (s'.verifyEvidenceChain H migrationId kind).valid = true) :
    ((s.verifyEvidenceChain H migrationId kind).head =
        (s'.verifyEvidenceChain H migrationId kind).head →
      (s.chain migrationId kind).map EvidenceRow.content =
        (s'.chain migrationId kind).map EvidenceRow.content) ∧
    ((∀ row ∈ s'.chain migrationId kind, ∃ known ∈ s.chain migrationId kind,
        row.entrySha256 = known.entrySha256) →
      (s'.chain migrationId kind).map EvidenceRow.content <+:
        (s.chain migrationId kind).map EvidenceRow.content) := by
  have hverified := valid_iff.mp hv
  have hverified' := valid_iff.mp hv'
  have hl := (linked_of_verified hverified).1
  have hl' := (linked_of_verified hverified').1
  have hb := binding_of_verified hideal.injOn hverified hverified'
  refine ⟨fun hhead => ?_, fun hown => ?_⟩
  · rw [head_of_verified hverified, head_of_verified hverified'] at hhead
    have hzero := fun text ht => hideal.ne_zero text (Or.inl ht)
    have hzero' := fun text ht => hideal.ne_zero text (Or.inr ht)
    rcases hs : (evidenceScheme H).head none (s.chain migrationId kind) with - | mark
    · -- the first chain is empty, and so is one that ends where a chain starts
      rw [hs, Option.getD_none] at hhead
      rw [eq_nil_of_head_zero hverified hzero (by rw [hs, Option.getD_none]),
        eq_nil_of_head_zero hverified' hzero' hhead.symm]
    · rcases hs' : (evidenceScheme H).head none (s'.chain migrationId kind) with - | mark'
      · rw [hs', Option.getD_none] at hhead
        have hnil := eq_nil_of_head_zero hverified hzero hhead
        rw [hnil] at hs
        cases hs
      · rw [hs, hs', Option.getD_some, Option.getD_some] at hhead
        exact Scheme.content_eq_of_head hb hl hl' (by rw [hs, hs', hhead])
  · obtain ⟨kept, added, hsplit, hkept, hadded⟩ := Scheme.exists_common hb hl hl'
    have hnone : added = [] := by
      rw [List.eq_nil_iff_forall_not_mem]
      intro row hrow
      obtain ⟨known, hknown, hsame⟩ := hown row (hsplit ▸ List.mem_append_right kept hrow)
      exact hadded row hrow known hknown hsame
    rw [hsplit, hnone, List.append_nil]
    exact hkept

/-- **Evidence chains stay verifiable and pin their content**: whatever the
calls, every chain of the store they leave verifies, and no chain that
verifies too is another of the same head. -/
theorem evidence_chain :
    (∀ made w, ControlRun E made w → ∀ migrationId kind,
      (w.store.verifyEvidenceChain E.hashing migrationId kind).valid = true ∧
        (w.store.chain migrationId kind).map (·.sequence) =
          List.range' 1 (w.store.chain migrationId kind).length) ∧
    ∀ (H : Hashing) (s s' : ControlStore) (migrationId kind : String),
      Collisionless H
        (chainTexts H (s.chain migrationId kind) ∪ chainTexts H (s'.chain migrationId kind)) →
      (s.verifyEvidenceChain H migrationId kind).valid = true →
      (s'.verifyEvidenceChain H migrationId kind).valid = true →
      ((s.verifyEvidenceChain H migrationId kind).head =
          (s'.verifyEvidenceChain H migrationId kind).head →
        (s.chain migrationId kind).map EvidenceRow.content =
          (s'.chain migrationId kind).map EvidenceRow.content) ∧
      ((∀ row ∈ s'.chain migrationId kind, ∃ known ∈ s.chain migrationId kind,
          row.entrySha256 = known.entrySha256) →
        (s'.chain migrationId kind).map EvidenceRow.content <+:
          (s.chain migrationId kind).map EvidenceRow.content) :=
  ⟨fun _ _ hr migrationId kind => chains_verify hr migrationId kind,
    fun _ _ _ _ _ hideal hv hv' => chain_pinned hideal hv hv'⟩

/-! ## A chain of one entry -/

/-- A body with its format and no more. -/
def reportBody : List (String × Json) := [("format", .str "f")]

/-- SHA-256 of the body. -/
def bodyDigest : String := "8ab65f21e9a05a97da96789fac12ddbb86b61271cbfeb4616a22f6cc40aafb14"

/-- And of the preimage of its entry, the first of its chain. -/
def entryDigest : String := "860ae3fb48518661cf7034abf20eaaa7dc15b0ca5a47b9281053031ea1098ae9"

/-- Its canonical text. -/
def bodyText : String := (Json.obj reportBody).canonicalJson

/-- The text of the first entry of a chain. -/
def entryText : String := (entryPreimage zeroSha256 "mig_1" "report" 1 bodyDigest).canonicalJson

/-- SHA-256, of these two texts. -/
def reportHashing : Hashing where
  digest _ := ""
  sha256Hex text := if text = bodyText then bodyDigest else
    if text = entryText then entryDigest else text

/-- An engine that hashes these texts. -/
def reportEngine : Engine where
  hashing := reportHashing
  uuid n := String.ofList (List.replicate n '0')
  str _ := ""
  floatLt _ _ := false

/-- A report, appended at an hour that stands still. -/
def reportedWorld (hour : Instant) : ControlWorld :=
  (play (ControlCall.body reportEngine)
    [.migrate "mig_1", .append "mig_1" "report" reportBody] { clock := fun _ => hour }).2

/-- The worlds of the example are reached by a run. -/
theorem run_reportedWorld (hour : Instant) : ∃ made,
    ControlRun reportEngine made (reportedWorld hour) := by
  have hstart : ControlRun reportEngine [] { clock := fun _ => hour } := .start rfl
  exact ⟨_, Run.play hstart [.migrate "mig_1", .append "mig_1" "report" reportBody]⟩

/-- The one entry of the chain, as far as it is hashed. -/
theorem entry_of_report (hour : Instant) :
    ((reportedWorld hour).store.chain "mig_1" "report").map (fun row =>
      (row.prevSha256, row.migrationId, row.kind, row.sequence, row.bodyJson)) =
        [(zeroSha256, "mig_1", "report", 1, bodyText)] := rfl

theorem entryText_ne_bodyText : entryText ≠ bodyText := by
  intro h
  have hlists := congrArg String.toList h
  rw [entryText, bodyText, Json.canonicalJson, Json.canonicalJson, String.toList_ofList,
    String.toList_ofList] at hlists
  exact absurd hlists (by decide +kernel)

theorem sha256Hex_bodyText : reportHashing.sha256Hex bodyText = bodyDigest := by
  simp [reportHashing]

theorem sha256Hex_entryText : reportHashing.sha256Hex entryText = entryDigest := by
  simp [reportHashing, entryText_ne_bodyText]

/-- What is hashed of the chain is one of the two texts. -/
theorem mem_texts_of_report {hour : Instant} {text : String}
    (ht : text ∈ chainTexts reportHashing ((reportedWorld hour).store.chain "mig_1" "report")) :
    text = bodyText ∨ text = entryText := by
  obtain ⟨row, hrow, htext⟩ := ht
  have hmem := List.mem_map_of_mem (f := fun row : EvidenceRow =>
    (row.prevSha256, row.migrationId, row.kind, row.sequence, row.bodyJson)) hrow
  rw [entry_of_report] at hmem
  obtain ⟨hprev, hmigration, hkind, hsequence, hbody⟩ : row.prevSha256 = zeroSha256 ∧
      row.migrationId = "mig_1" ∧ row.kind = "report" ∧ row.sequence = 1 ∧
        row.bodyJson = bodyText := by
    simpa using hmem
  rcases htext with rfl | htext
  · exact .inl hbody
  · rw [hprev, hmigration, hkind, hsequence, hbody, sha256Hex_bodyText] at htext
    exact .inr htext

/-- No two texts of the example have one digest. -/
theorem collisionless_report : Collisionless reportHashing
    (chainTexts reportHashing ((reportedWorld 0).store.chain "mig_1" "report") ∪
      chainTexts reportHashing ((reportedWorld 1).store.chain "mig_1" "report")) := by
  have htexts : ∀ text ∈ chainTexts reportHashing ((reportedWorld 0).store.chain "mig_1" "report") ∪
      chainTexts reportHashing ((reportedWorld 1).store.chain "mig_1" "report"),
      text = bodyText ∨ text = entryText := by
    rintro text (ht | ht)
    · exact mem_texts_of_report ht
    · exact mem_texts_of_report ht
  constructor
  · intro a ha b hb hab
    rcases htexts a ha with rfl | rfl <;> rcases htexts b hb with rfl | rfl
    · rfl
    · rw [sha256Hex_bodyText, sha256Hex_entryText] at hab
      exact absurd hab (by decide)
    · rw [sha256Hex_bodyText, sha256Hex_entryText] at hab
      exact absurd hab (by decide)
    · rfl
  · intro text ht
    rcases htexts text ht with rfl | rfl
    · rw [sha256Hex_bodyText]
      decide
    · rw [sha256Hex_entryText]
      decide

/-- The same report at two hours: two chains that verify and end alike. -/
theorem evidence_chain_of_report :
    ((reportedWorld 0).store.verifyEvidenceChain reportHashing "mig_1" "report").valid = true ∧
    ((reportedWorld 1).store.verifyEvidenceChain reportHashing "mig_1" "report").valid = true ∧
    ((reportedWorld 0).store.chain "mig_1" "report").map EvidenceRow.content =
      ((reportedWorld 1).store.chain "mig_1" "report").map EvidenceRow.content := by
  obtain ⟨hverify, hpinned⟩ := evidence_chain (E := reportEngine)
  have hvalid (hour : Instant) : ((reportedWorld hour).store.verifyEvidenceChain reportHashing
      "mig_1" "report").valid = true := by
    obtain ⟨made, hr⟩ := run_reportedWorld hour
    exact (hverify made _ hr "mig_1" "report").1
  have hhead : ((reportedWorld 0).store.verifyEvidenceChain reportHashing "mig_1" "report").head =
      ((reportedWorld 1).store.verifyEvidenceChain reportHashing "mig_1" "report").head := by
    rw [head_of_verified (valid_iff.mp (hvalid 0)), head_of_verified (valid_iff.mp (hvalid 1))]
    rfl
  exact ⟨hvalid 0, hvalid 1, (hpinned reportHashing _ _ "mig_1" "report" collisionless_report
    (hvalid 0) (hvalid 1)).1 hhead⟩

end Atmem.Control
