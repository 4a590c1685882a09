import Atmem.Control.Model.Store
/-!
# What the calls write

A call of the control store either leaves the chains alone or extends one of
them by its next entry. A delivery that is known extends none; one that is
not leaves its row beside the entry.
-/

namespace Atmem.Control

open Checked Relational Transactional

variable {E : Engine} {w w' : ControlWorld} {α β : Type} {d : Delivery}

@[simp] theorem exec_drawId (label : String) : exec (drawId E label) w =
    (.ok (label ++ E.uuid w.draws), { w with draws := w.draws + 1 }) := rfl

/-- It touches nothing. -/
theorem exec_liftCtl (x : Except ControlError α) : exec (liftCtl x) w = (x, w) := by
  cases x <;> rfl

/-- The parameters of a statement, where all of them can be bound. -/
theorem exec_bindAll_ok {parameters : List Json}
    (h : ∀ p ∈ parameters, bindable E p = .ok ()) : exec (bindAll E parameters) w = (.ok (), w) := by
  rw [bindAll, exec_liftCtl, ensureAll_eq_ok.mpr h]

/-- The parameters are bound exactly if each can be. -/
theorem exec_bindAll_eq_ok {parameters : List Json} :
    exec (bindAll E parameters) w = (.ok (), w') ↔
      (∀ p ∈ parameters, bindable E p = .ok ()) ∧ w' = w := by
  rw [bindAll, exec_liftCtl, Prod.mk.injEq, ensureAll_eq_ok, eq_comm (a := w)]

/-- The parameters of a statement, one of which cannot be bound. -/
theorem exec_bindAll_error {parameters : List Json}
    (h : ¬ ∀ p ∈ parameters, bindable E p = .ok ()) :
    ∃ e, exec (bindAll E parameters) w = (.error e, w) := by
  rw [bindAll, exec_liftCtl]
  rcases hall : ensureAll (bindable E) parameters with e | ⟨⟩
  · exact ⟨e, rfl⟩
  · exact absurd (ensureAll_eq_ok.mp hall) h

/-- A text of ASCII characters. -/
theorem encodes_of_ascii {text : String} (h : ∀ c ∈ text.toList, c.toNat < 128) :
    E.encodes text = true := by
  refine List.all_eq_true.mpr fun c hc => ?_
  rw [Bool.not_eq_true']
  by_contra hsurrogate
  have hlarge := E.surrogate_ascii c (Bool.eq_true_of_not_eq_false hsurrogate)
  exact absurd (h c hc) (not_lt.mpr hlarge)

/-- Texts can be bound exactly where each has its UTF-8. -/
theorem ensureAll_texts (given : List String) : ensureAll (bindable E) (given.map .str) =
    if given.all E.encodes then .ok () else .error .unicodeEncodeError := by
  induction given with
  | nil => rfl
  | cons text given ih =>
    have hbind : bindable E (.str text) =
        if E.encodes text then .ok () else .error .unicodeEncodeError := rfl
    rw [List.map_cons, ensureAll, ih, hbind, List.all_cons]
    rcases E.encodes text <;> rfl

/-- A call that raises leaves the database as it was. -/
theorem immediate_eq (body : Ctl α) (w : ControlWorld) :
    immediate body w = match exec body w with
      | (.ok a, w') => (.ok a, w')
      | (.error e, w') => (.error e, { w' with store := w.store }) := rfl

/-! ## The chains and the deliveries are left alone -/

/-- The chains, the deliveries and the migrations are as they were. -/
structure SameLedger (w w' : ControlWorld) : Prop where
  evidence : w'.store.evidence = w.store.evidence
  deliveries : w'.store.deliveries = w.store.deliveries
  migrations : w'.store.migrations = w.store.migrations

theorem SameLedger.refl (w : ControlWorld) : SameLedger w w := ⟨rfl, rfl, rfl⟩

theorem SameLedger.trans {w₁ w₂ w₃ : ControlWorld} (h : SameLedger w₁ w₂)
    (h' : SameLedger w₂ w₃) : SameLedger w₁ w₃ :=
  ⟨h'.evidence.trans h.evidence, h'.deliveries.trans h.deliveries,
    h'.migrations.trans h.migrations⟩

/-- Whatever comes of the statement, it leaves them alone. -/
abbrev SparesLedger (x : Ctl α) : Prop := Within SameLedger x

/-- The rule of sequence. -/
theorem SparesLedger.bind {x : Ctl α} {f : α → Ctl β} (hx : SparesLedger x)
    (hf : ∀ a, SparesLedger (f a)) : SparesLedger (x >>= f) :=
  Within.bind (P := SameLedger) (fun _ _ _ => SameLedger.trans) hx hf

theorem sparesLedger_liftCtl (x : Except ControlError α) : SparesLedger (liftCtl x) := by
  intro w
  rw [exec_liftCtl]
  exact .refl w

/-- A gap is stored beside the ledger. -/
theorem sparesLedger_insertExecutionGap (migrationId eventId : String) (gap : CoverageGap) :
    SparesLedger (insertExecutionGap E migrationId eventId gap) := by
  unfold insertExecutionGap
  exact .bind (fun _ => ⟨rfl, rfl, rfl⟩) fun now => .bind (sparesLedger_liftCtl _) fun _ =>
    fun _ => ⟨rfl, rfl, rfl⟩

/-- So is the report of one. -/
theorem sparesLedger_reportGap (d : Delivery) : SparesLedger (reportGap E d) := by
  unfold reportGap
  split
  · split
    · exact .bind (sparesLedger_liftCtl _) fun _ => sparesLedger_insertExecutionGap _ _ _
    · exact SameLedger.refl
  · exact SameLedger.refl

/-! ## Entries -/

/-- An entry that was inserted: its migration is there. -/
theorem exec_insertEvidence_eq_ok {row : EvidenceRow} :
    exec (insertEvidence row) w = (.ok (), w') ↔ row.migrationId ∈ w.store.migrations ∧
      ∃ evidence, w.store.evidence.insert row = some evidence ∧
        w' = { w with store := { w.store with evidence } } := by
  unfold insertEvidence
  simp only [exec_bind, exec_get]
  by_cases hm : row.migrationId ∈ w.store.migrations
  · rw [if_neg (by simpa using hm)]
    rcases hi : w.store.evidence.insert row with - | evidence
    · simp [exec_throw]
    · simp only [exec_modify, Prod.mk.injEq, true_and, hm, Option.some.injEq,
        exists_eq_left', eq_comm]
  · rw [if_pos hm]
    simp [exec_throw, hm]

/-- The next entry of a chain comes after all of them. -/
theorem lt_nextEntry {s : ControlStore} {H : Hashing} {migrationId kind id bodyJson : String}
    {createdAt : Instant} {r : EvidenceRow} (hr : r ∈ s.evidence.rows)
    (hm : r.migrationId = migrationId) (hk : r.kind = kind) :
    r.sequence < (s.nextEntry H migrationId kind id bodyJson createdAt).sequence := by
  have hmem : r ∈ s.chain migrationId kind := by
    unfold ControlStore.chain
    rw [List.mem_insertionSort, List.mem_filter, decide_eq_true_eq]
    exact ⟨hr, hm, hk⟩
  have hsorted : (s.chain migrationId kind).Pairwise (·.sequence ≤ ·.sequence) :=
    List.pairwise_insertionSort _ _
  obtain ⟨last, hlast⟩ := Option.ne_none_iff_exists'.mp
    (mt List.getLast?_eq_none_iff.mp (List.ne_nil_of_mem hmem))
  obtain ⟨before, hsplit⟩ := List.getLast?_eq_some_iff.mp hlast
  have hle : r.sequence ≤ last.sequence := by
    rw [hsplit] at hmem hsorted
    rcases List.mem_append.mp hmem with hmem | hmem
    · exact (List.pairwise_append.mp hsorted).2.2 r hmem last (List.mem_singleton_self _)
    · rw [List.mem_singleton.mp hmem]
  unfold ControlStore.nextEntry
  rw [hlast]
  exact Nat.lt_succ_of_le hle

/-- **The next entry of a chain clashes with none**, where its identifier is
new. -/
theorem exists_insert_nextEntry (s : ControlStore) (H : Hashing)
    (migrationId kind id bodyJson : String) (createdAt : Instant)
    (hfresh : ∀ r ∈ s.evidence.rows, r.id ≠ id) :
    ∃ evidence,
      s.evidence.insert (s.nextEntry H migrationId kind id bodyJson createdAt) = some evidence := by
  obtain ⟨evidence, hinsert, -⟩ := Table.insert_of_fresh (t := s.evidence)
    (r := s.nextEntry H migrationId kind id bodyJson createdAt) fun r hr => by
      refine Bool.or_eq_false_iff.mpr
        ⟨decide_eq_false (hfresh r hr), decide_eq_false fun heq => ?_⟩
      have hm : r.migrationId = migrationId := congrArg (·.1) heq
      have hk : r.kind = kind := congrArg (·.2.1) heq
      have hsequence : r.sequence =
          (s.nextEntry H migrationId kind id bodyJson createdAt).sequence := congrArg (·.2.2) heq
      exact absurd hsequence (lt_nextEntry hr hm hk).ne
  exact ⟨evidence, hinsert⟩

/-- A delivery's row that was inserted. -/
theorem exec_insertDelivery_eq_ok {row : DeliveryRow} :
    exec (insertDelivery E row) w = (.ok (), w') ↔
      (∀ p ∈ [row.subjectId, row.executionId, row.runId], bindable E p = .ok ()) ∧
      0 < row.producerSequence ∧
      ∃ deliveries, w.store.deliveries.insert row = some deliveries ∧
        w' = { w with store := { w.store with deliveries } } := by
  unfold insertDelivery
  by_cases hbound : ∀ p ∈ [row.subjectId, row.executionId, row.runId], bindable E p = .ok ()
  swap
  · obtain ⟨e, herror⟩ := exec_bindAll_error (w := w) hbound
    rw [exec_bind_error herror]
    exact iff_of_false (fun h => by cases h) fun h => hbound h.1
  rw [exec_bind_ok (exec_bindAll_ok hbound), and_iff_right hbound]
  by_cases hpos : row.producerSequence ≤ 0
  · simp only [hpos, if_true]
    simp [not_lt.mpr hpos]
  · rw [if_neg hpos]
    rcases hi : w.store.deliveries.insert row with - | deliveries
    · simp [exec_bind, exec_throw, hi]
    · simp only [exec_bind, exec_get, hi, exec_modify, Prod.mk.injEq, true_and, not_le.mp hpos,
        Option.some.injEq, exists_eq_left', eq_comm]

/-! ## A delivery -/

/-- The row of a new delivery. -/
def deliveryRow (E : Engine) (w : ControlWorld) (d : Delivery) : DeliveryRow :=
  let field := fun name => (d.body.lookup name).getD .null
  { id := "delivery_" ++ E.uuid (w.draws + 1), migrationId := d.migrationId
    producerInstanceId := d.producerInstanceId, producerEpoch := d.producerEpoch
    producerSequence := d.producerSequence, eventId := d.eventId
    bodySha256 := d.bodySha256 E.hashing, evidenceId := "ev_" ++ E.uuid w.draws
    receivedAt := w.clock w.ticks, subjectId := field "subject_id"
    executionId := field "execution_id", runId := field "run_id" }

/-- The entry a new delivery makes. -/
def deliveryEntry (E : Engine) (w : ControlWorld) (d : Delivery) : EvidenceRow :=
  w.store.nextEntry E.hashing d.migrationId "agent_blackbox" ("ev_" ++ E.uuid w.draws) d.bodyJson
    (w.clock w.ticks)

/-- What an accepted delivery leaves: the next entry of its chain, and its
row. -/
structure Accepts (E : Engine) (w w' : ControlWorld) (d : Delivery) (answer : DeliveryAnswer) :
    Prop where
  decision : answer.decision = .accepted
  evidenceId : answer.evidenceId = (deliveryRow E w d).evidenceId
  evidence : w.store.evidence.insert (deliveryEntry E w d) = some w'.store.evidence
  deliveries : w.store.deliveries.insert (deliveryRow E w d) = some w'.store.deliveries

/-- What accepting a new event does. -/
theorem exec_acceptNew_eq_ok {answer : DeliveryAnswer}
    (h : exec (acceptNew E d) w = (.ok answer, w')) : Accepts E w w' d answer := by
  unfold acceptNew at h
  simp only [exec_bind, exec_drawId, utcNow, exec_readOff, exec_get] at h
  split at h
  · rename_i w₁ hevidence
    obtain ⟨-, evidence, hinsert, rfl⟩ := exec_insertEvidence_eq_ok.mp hevidence
    split at h
    · rename_i w₂ hdelivery
      obtain ⟨-, -, deliveries, hdeliveries, rfl⟩ := exec_insertDelivery_eq_ok.mp hdelivery
      split at h
      · rename_i w₃ hgap
        have hspares := sparesLedger_reportGap (E := E) d { w with
          draws := w.draws + 1 + 1, ticks := w.ticks + 1
          store := { w.store with evidence, deliveries } }
        rw [hgap] at hspares
        simp only [exec_pure, Prod.mk.injEq, Except.ok.injEq] at h
        obtain ⟨rfl, rfl⟩ := h
        exact ⟨rfl, rfl, hspares.evidence ▸ hinsert, hspares.deliveries ▸ hdeliveries⟩
      · cases h
    · cases h
  · cases h

/-- The decision on an event that is known. -/
def decisionOn (E : Engine) (d : Delivery) (existing : DeliveryRow) : Decision :=
  if existing.position = d.position ∧ existing.bodySha256 = d.bodySha256 E.hashing then .replayed
  else .conflict

/-- An event that is known is answered, and leaves the ledger alone. -/
theorem exec_classify (existing : DeliveryRow) : ∃ answer w',
    exec (classify E d existing) w = (.ok answer, w') ∧
      answer.decision = decisionOn E d existing ∧ SameLedger w w' := by
  have hdecision : (if existing.position = d.position ∧
      existing.bodySha256 = d.bodySha256 E.hashing then Decision.replayed else .conflict) =
      decisionOn E d existing := rfl
  unfold classify
  rw [hdecision]
  by_cases hc : decisionOn E d existing = .conflict
  · simp only [hc, if_true, exec_bind, exec_drawId, utcNow, exec_readOff, exec_modify, exec_pure]
    exact ⟨_, _, rfl, rfl, ⟨rfl, rfl, rfl⟩⟩
  · simp only [hc, if_false, exec_pure]
    exact ⟨_, _, rfl, rfl, .refl w⟩

/-- The delivery can be looked up. -/
def Delivery.Bound (E : Engine) (d : Delivery) : Prop :=
  ∀ p ∈ d.parameters, bindable E p = .ok ()

/-- A delivery that is known. -/
theorem exec_accept_known {existing : DeliveryRow} (hd : d.Bound E)
    (h : w.store.existing d = some existing) : ∃ answer w',
    exec (acceptExecutionDelivery E d) w = (.ok answer, w') ∧
      answer.decision = decisionOn E d existing ∧ SameLedger w w' := by
  unfold acceptExecutionDelivery
  rw [exec_bind_ok (exec_bindAll_ok hd), exec_bind, exec_get]
  dsimp only
  rw [h]
  exact exec_classify existing

/-- A delivery that is answered is known, or its entry and its row are
added. -/
theorem exec_accept_eq_ok {answer : DeliveryAnswer}
    (h : exec (acceptExecutionDelivery E d) w = (.ok answer, w')) : d.Bound E ∧
      ((∃ existing, w.store.existing d = some existing ∧
          answer.decision = decisionOn E d existing ∧ SameLedger w w') ∨
        (w.store.existing d = none ∧ Accepts E w w' d answer)) := by
  have hbound : d.Bound E := by
    by_contra hnot
    obtain ⟨e, herror⟩ := exec_bindAll_error (w := w) hnot
    unfold acceptExecutionDelivery at h
    rw [exec_bind_error herror] at h
    cases h
  refine ⟨hbound, ?_⟩
  rcases he : w.store.existing d with - | existing
  · right
    unfold acceptExecutionDelivery at h
    rw [exec_bind_ok (exec_bindAll_ok hbound), exec_bind, exec_get] at h
    dsimp only at h
    rw [he] at h
    exact ⟨rfl, exec_acceptNew_eq_ok h⟩
  · left
    obtain ⟨answer', w₁, hexec, hdecision, hsame⟩ := exec_accept_known (E := E) hbound he
    rw [hexec] at h
    cases h
    exact ⟨existing, rfl, hdecision, hsame⟩

/-! ## The calls -/

/-- Acceptance, as one transaction. -/
theorem body_accept (d : Delivery) : (ControlCall.accept d).body E w =
    match exec (acceptExecutionDelivery E d) w with
    | (.ok answer, w') => (.ok (.delivered answer), w')
    | (.error e, w') => (.error e, { w' with store := w.store }) := by
  have hbody : (ControlCall.accept d).body E w =
    immediate (.delivered <$> acceptExecutionDelivery E d) w := rfl
  have hmap : exec (ControlAnswer.delivered <$> acceptExecutionDelivery E d) w =
    exec (acceptExecutionDelivery E d >>= fun a => pure (ControlAnswer.delivered a)) w := rfl
  rw [hbody, immediate_eq, hmap, exec_bind]
  rcases exec (acceptExecutionDelivery E d) w with ⟨e | a, w'⟩ <;> rfl

/-- Appending, as one transaction. -/
theorem body_append (migrationId kind : String) (body : List (String × Json)) :
    (ControlCall.append migrationId kind body).body E w =
      match exec (appendEvidence E migrationId kind body) w with
      | (.ok row, w') => (.ok (.appended row), w')
      | (.error e, w') => (.error e, { w' with store := w.store }) := by
  have hbody : (ControlCall.append migrationId kind body).body E w =
    immediate (.appended <$> appendEvidence E migrationId kind body) w := rfl
  have hmap : exec (ControlAnswer.appended <$> appendEvidence E migrationId kind body) w =
    exec (appendEvidence E migrationId kind body >>= fun a =>
      pure (ControlAnswer.appended a)) w := rfl
  rw [hbody, immediate_eq, hmap, exec_bind]
  rcases exec (appendEvidence E migrationId kind body) w with ⟨e | a, w'⟩ <;> rfl

/-- An append that succeeds adds the next entry of its chain. -/
theorem exec_append_eq_ok {migrationId kind : String} {body : List (String × Json)}
    {row : EvidenceRow} (h : exec (appendEvidence E migrationId kind body) w = (.ok row, w')) :
    row = w.store.nextEntry E.hashing migrationId kind ("ev_" ++ E.uuid w.draws)
        (Json.obj body).canonicalJson (w.clock w.ticks) ∧
      w.store.evidence.insert row = some w'.store.evidence ∧
      w'.store.deliveries = w.store.deliveries := by
  unfold appendEvidence at h
  by_cases hkind : strip kind = []
  · simp only [hkind, if_true, exec_bind, exec_throw] at h
    cases h
  · rw [if_neg hkind] at h
    by_cases hformat : (!formatted body) = true
    · simp only [hformat, if_true, exec_bind, exec_throw] at h
      cases h
    · rw [if_neg hformat] at h
      simp only [exec_bind, exec_drawId, utcNow, exec_readOff, exec_get] at h
      split at h
      · rename_i w₀ hbound
        obtain ⟨-, rfl⟩ := exec_bindAll_eq_ok.mp hbound
        split at h
        · rename_i w₁ hevidence
          obtain ⟨-, evidence, hinsert, rfl⟩ := exec_insertEvidence_eq_ok.mp hevidence
          cases h
          exact ⟨rfl, hinsert, rfl⟩
        · cases h
      · cases h

/-- **An entry with a format is appended** where its migration is there and
can be bound. -/
theorem exec_appendEvidence (migrationId : String) {kind : String} {body : List (String × Json)}
    (hkind : strip kind ≠ [] ∧ E.encodes kind = true) (hformat : formatted body = true)
    (hfresh : ∀ r ∈ w.store.evidence.rows, r.id ≠ "ev_" ++ E.uuid w.draws) :
    (E.encodes migrationId = true ∧ migrationId ∈ w.store.migrations → ∃ row evidence,
      w.store.evidence.insert row = some evidence ∧ row.migrationId = migrationId ∧
        row.kind = kind ∧ exec (appendEvidence E migrationId kind body) w = (.ok row, { w with
          draws := w.draws + 1, ticks := w.ticks + 1, store := { w.store with evidence } })) ∧
    (¬ (E.encodes migrationId = true ∧ migrationId ∈ w.store.migrations) →
      ∃ e w', exec (appendEvidence E migrationId kind body) w = (.error e, w')) := by
  let row := w.store.nextEntry E.hashing migrationId kind ("ev_" ++ E.uuid w.draws)
    (Json.obj body).canonicalJson (w.clock w.ticks)
  -- kind and format pass, an id and a time are drawn
  have hstarted : exec (appendEvidence E migrationId kind body) w =
      exec (bindAll E [.str migrationId, .str kind] >>= fun _ => get >>= fun v =>
        let row := v.store.nextEntry E.hashing migrationId kind ("ev_" ++ E.uuid w.draws)
          (Json.obj body).canonicalJson (w.clock w.ticks)
        insertEvidence row >>= fun _ => pure row)
        { w with draws := w.draws + 1, ticks := w.ticks + 1 } := by
    unfold appendEvidence
    rw [if_neg hkind.1, if_neg (by simp [hformat])]
    rfl
  have hbound : (∀ p ∈ [Json.str migrationId, .str kind], bindable E p = .ok ()) ↔
      E.encodes migrationId = true := by
    simp [bindable, hkind.2]
  have hinserted (hm : E.encodes migrationId = true) :
      exec (appendEvidence E migrationId kind body) w =
        exec (insertEvidence row >>= fun _ => pure row)
          { w with draws := w.draws + 1, ticks := w.ticks + 1 } := by
    rw [hstarted, exec_bind_ok (exec_bindAll_ok (hbound.mpr hm))]
    rfl
  constructor
  · rintro ⟨hencodes, hm⟩
    rw [hinserted hencodes]
    obtain ⟨evidence, hinsert⟩ := exists_insert_nextEntry w.store E.hashing migrationId kind
      ("ev_" ++ E.uuid w.draws) (Json.obj body).canonicalJson (w.clock w.ticks) hfresh
    have hentry : exec (insertEvidence row) { w with
        draws := w.draws + 1, ticks := w.ticks + 1 } = (.ok (), { w with
        draws := w.draws + 1, ticks := w.ticks + 1, store := { w.store with evidence } }) :=
      exec_insertEvidence_eq_ok.mpr ⟨hm, evidence, hinsert, rfl⟩
    exact ⟨row, evidence, hinsert, rfl, rfl, exec_bind_ok hentry⟩
  · intro hnot
    by_cases hencodes : E.encodes migrationId = true
    swap
    · obtain ⟨e, herror⟩ := exec_bindAll_error
        (w := { w with draws := w.draws + 1, ticks := w.ticks + 1 }) (mt hbound.mp hencodes)
      exact ⟨e, _, hstarted.trans (exec_bind_error herror)⟩
    have hm : migrationId ∉ w.store.migrations := fun hm => hnot ⟨hencodes, hm⟩
    rw [hinserted hencodes]
    refine ⟨.integrityError, { w with draws := w.draws + 1, ticks := w.ticks + 1 },
      exec_bind_error ?_⟩
    unfold insertEvidence
    rw [exec_bind, exec_get]
    dsimp only
    rw [if_pos (show row.migrationId ∉ w.store.migrations from hm)]
    rfl

/-- A migration that is made is in no chain and of no delivery. -/
theorem body_migrate (migrationId : String) :
    ((ControlCall.migrate migrationId).body E w).2.store.evidence = w.store.evidence ∧
      ((ControlCall.migrate migrationId).body E w).2.store.deliveries = w.store.deliveries := by
  have hbody : (ControlCall.migrate migrationId).body E w =
    immediate (createMigration E migrationId >>= fun _ => pure .done) w := rfl
  rw [hbody, immediate_eq]
  unfold createMigration
  by_cases hbound : ∀ p ∈ [Json.str migrationId], bindable E p = .ok ()
  · rw [exec_bind, exec_bind_ok (exec_bindAll_ok hbound)]
    exact ⟨rfl, rfl⟩
  · obtain ⟨e, herror⟩ := exec_bindAll_error (w := w) hbound
    rw [exec_bind, exec_bind_error herror]
    exact ⟨rfl, rfl⟩

/-- Pruning is of no chain, and adds no delivery. -/
theorem body_prune (migrationId : String) (before : Instant) :
    ((ControlCall.prune migrationId before).body E w).2.store.evidence = w.store.evidence ∧
      ((ControlCall.prune migrationId before).body E w).2.store.deliveries.rows ⊆
        w.store.deliveries.rows := by
  have hbody : (ControlCall.prune migrationId before).body E w =
    immediate (pruneExecutionProjections E migrationId before >>=
      fun counts => pure (.pruned counts)) w := rfl
  rw [hbody, immediate_eq]
  unfold pruneExecutionProjections
  by_cases hbound : ∀ p ∈ [Json.str migrationId], bindable E p = .ok ()
  · rw [exec_bind, exec_bind_ok (exec_bindAll_ok hbound)]
    exact ⟨rfl, fun r hr => (List.mem_filter.mp hr).1⟩
  · obtain ⟨e, herror⟩ := exec_bindAll_error (w := w) hbound
    rw [exec_bind, exec_bind_error herror]
    exact ⟨rfl, List.Subset.refl _⟩

/-- **A call leaves the chains as they are, or adds the next entry of one.** -/
theorem evidence_body (call : ControlCall) :
    (call.body E w).2.store.evidence = w.store.evidence ∨
      ∃ migrationId kind id bodyJson createdAt,
        w.store.evidence.insert
          (w.store.nextEntry E.hashing migrationId kind id bodyJson createdAt) =
            some (call.body E w).2.store.evidence := by
  cases call with
  | migrate migrationId => exact .inl (body_migrate migrationId).1
  | prune migrationId before => exact .inl (body_prune migrationId before).1
  | append migrationId kind body =>
    rw [body_append]
    rcases hexec : exec (appendEvidence E migrationId kind body) w with ⟨e | row, w'⟩
    · exact .inl rfl
    · obtain ⟨rfl, hinsert, -⟩ := exec_append_eq_ok hexec
      exact .inr ⟨_, _, _, _, _, hinsert⟩
  | accept d =>
    rw [body_accept]
    rcases hexec : exec (acceptExecutionDelivery E d) w with ⟨e | answer, w'⟩
    · exact .inl rfl
    · obtain ⟨-, ⟨existing, -, -, hsame⟩ | ⟨-, haccepts⟩⟩ := exec_accept_eq_ok hexec
      · exact .inl hsame.evidence
      · exact .inr ⟨_, _, _, _, _, haccepts.evidence⟩

end Atmem.Control
