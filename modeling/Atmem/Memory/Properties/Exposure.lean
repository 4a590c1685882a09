import Atmem.Memory.Helpers.Statements
import Atmem.Memory.Model.Contexts
/-!
# What a receipt is bound to

A receipt is created by one confirmation, of one preparation, and a
preparation gets no second one. A confirmation that comes under a known
identifier is answered with the receipt that is there whatever it asks for,
so a receipt answers its own request exactly as long as no identifier is
used again for another one.
-/

namespace Atmem.Memory

open Relational Transactional History

variable {E : Engine} {w w' : ContextWorld} {α : Type}

/-! ## Statements -/

/-- A statement of the memory, on the memory. -/
theorem exec_onMemory (x : Mem α) : exec (onMemory x) w =
    ((exec x w.memory).1, { w with memory := (exec x w.memory).2 }) := by
  unfold onMemory
  rw [exec_bind, exec_get]
  dsimp only
  unfold exec
  rcases x.run.run w.memory with ⟨e | a, memory⟩ <;> rfl

/-- Nothing the store holds is another. -/
structure Unwritten (w w' : ContextWorld) : Prop where
  store : w'.memory.store = w.memory.store
  generations : w'.generations = w.generations
  candidateSets : w'.candidateSets = w.candidateSets
  preparations : w'.preparations = w.preparations
  exposures : w'.exposures = w.exposures

/-- A call that raises leaves the tables as they were. -/
theorem atomically_eq (body : Ctx α) (w : ContextWorld) :
    atomically body w = match exec body w with
      | (.ok a, w') => (.ok a, w')
      | (.error e, w') =>
        (.error e, { w with memory := { w'.memory with store := w.memory.store } }) := rfl

/-- **A call that raises writes nothing.** -/
theorem unwritten_of_error {body : Ctx α} {e : MemoryError}
    (h : (atomically body w).1 = .error e) : Unwritten w (atomically body w).2 := by
  rw [atomically_eq] at h ⊢
  rcases hr : exec body w with ⟨e' | a, w'⟩
  · exact ⟨rfl, rfl, rfl, rfl, rfl⟩
  · rw [hr] at h
    cases h

theorem exec_map (f : α → ContextAnswer) (x : Ctx α) :
    exec (f <$> x) w = (f <$> (exec x w).1, (exec x w).2) := by
  have h : exec (f <$> x) w = exec (x >>= fun a => pure (f a)) w := rfl
  rw [h, exec_bind]
  rcases exec x w with ⟨e | a, w'⟩ <;> rfl

/-! ## One confirmation -/

/-- A known identifier is answered with the receipt that is there. -/
theorem exec_confirm_known {confirmation : ExposureConfirmation} {row : ExposureRow}
    (h : w.getProtocolExposure confirmation.confirmationId = some row) :
    exec (confirmExposureV1 E confirmation) w =
      (.ok { row.receipt with scope := confirmation.scope, replayed := true }, w) := by
  unfold confirmExposureV1
  simp only [exec_bind, exec_get, h, exec_pure]

/-- The receipts stay as they are, whatever comes of the statement. -/
abbrev SparesReceipts (x : Ctx α) : Prop :=
  Within (fun w w' : ContextWorld => w'.exposures = w.exposures) x

section Spares

variable {β : Type}

theorem SparesReceipts.pure {a : α} : SparesReceipts (Pure.pure a) := fun _ => rfl

theorem SparesReceipts.throw {e : MemoryError} :
    SparesReceipts (MonadExcept.throw e : Ctx α) := fun _ => rfl

/-- The rule of sequence. -/
theorem SparesReceipts.bind {x : Ctx α} {f : α → Ctx β} (hx : SparesReceipts x)
    (hf : ∀ a, SparesReceipts (f a)) : SparesReceipts (x >>= f) :=
  Within.bind (fun _ _ _ h h' => h'.trans h) hx hf

theorem sparesReceipts_get : SparesReceipts (get : Ctx ContextWorld) := fun _ => rfl

/-- The memory holds no receipts. -/
theorem sparesReceipts_onMemory (x : Mem α) : SparesReceipts (onMemory x) := by
  intro w
  rw [exec_onMemory]

theorem sparesReceipts_require (condition : Bool) (message : String) :
    SparesReceipts (require condition message) := by
  unfold require
  split
  · exact .pure
  · exact .throw

theorem sparesReceipts_checkPreparation (confirmation : ExposureConfirmation)
    (prepared : PreparationRow) : SparesReceipts (checkPreparation confirmation prepared) := by
  unfold checkPreparation
  refine .bind sparesReceipts_get fun w => .bind (sparesReceipts_require _ _) fun _ =>
    .bind (sparesReceipts_require _ _) fun _ => .bind (sparesReceipts_onMemory _) fun now =>
    .bind (sparesReceipts_require _ _) fun _ => .bind (sparesReceipts_require _ _) fun _ =>
    .bind sparesReceipts_get fun w => sparesReceipts_require _ _

/-- Preparing a context writes no receipt. -/
theorem sparesReceipts_prepareContextV1 (request : ContextRequest) :
    SparesReceipts (prepareContextV1 E request) := by
  unfold prepareContextV1
  refine .bind sparesReceipts_get fun w => ?_
  split
  · exact .throw
  · refine .bind (sparesReceipts_require _ _) fun _ => .bind (sparesReceipts_onMemory _) fun now =>
      .bind (sparesReceipts_require _ _) fun _ => .bind sparesReceipts_get fun w =>
      .bind (sparesReceipts_require _ _) fun _ => .bind (sparesReceipts_require _ _) fun _ =>
      .bind sparesReceipts_get fun w => ?_
    split
    · exact .throw
    · refine .bind (sparesReceipts_onMemory _) fun preparationId =>
        .bind (sparesReceipts_onMemory _) fun now => .bind sparesReceipts_get fun w => ?_
      split
      · exact .throw
      · exact .bind (fun _ => rfl) fun _ => .pure

end Spares

/-- A confirmation under a new identifier is refused, or creates a receipt
for what it asks for. -/
theorem exec_confirm_new {confirmation : ExposureConfirmation} {receipt : ExposureReceipt}
    (h : w.getProtocolExposure confirmation.confirmationId = none)
    (hok : exec (confirmExposureV1 E confirmation) w = (.ok receipt, w')) :
    receipt.replayed = false ∧ receipt.scope = confirmation.scope ∧
      receipt.preparationId = confirmation.preparationId ∧
      receipt.contextSha256 = confirmation.contextSha256 ∧
      w.exposures.insert ⟨confirmation.confirmationId, confirmation.preparationId, receipt⟩ =
        some w'.exposures := by
  unfold confirmExposureV1 at hok
  simp only [exec_bind, exec_get, h] at hok
  split at hok
  · cases hok
  · rename_i prepared hprepared
    rw [exec_bind] at hok
    have hspares := sparesReceipts_checkPreparation confirmation prepared w
    rcases hcheck : exec (checkPreparation confirmation prepared) w with ⟨e | ⟨⟩, w₁⟩
    · rw [hcheck] at hok
      cases hok
    · rw [hcheck] at hok hspares
      simp only [exec_bind, exec_onMemory, utcNow, exec_readOff, exec_newId, exec_get] at hok
      split at hok
      · cases hok
      · rename_i exposures hinsert
        simp only [exec_bind, exec_modify, exec_pure, Prod.mk.injEq, Except.ok.injEq] at hok
        obtain ⟨rfl, rfl⟩ := hok
        have hspares : w₁.exposures = w.exposures := hspares
        exact ⟨rfl, rfl, rfl, rfl, hspares ▸ hinsert⟩

/-- A confirmation is answered as its statements are. -/
theorem body_confirm (confirmation : ExposureConfirmation) :
    (ContextCall.confirm confirmation).body E w =
      match exec (confirmExposureV1 E confirmation) w with
      | (.ok receipt, w') => (.ok (.confirmed receipt), w')
      | (.error e, w') =>
        (.error e, { w with memory := { w'.memory with store := w.memory.store } }) := by
  have hbody : (ContextCall.confirm confirmation).body E w =
      atomically (.confirmed <$> confirmExposureV1 E confirmation) w := rfl
  rw [hbody, atomically_eq, exec_map]
  rcases exec (confirmExposureV1 E confirmation) w with ⟨e | receipt, w'⟩ <;> rfl

/-! ## Every run -/

/-- What a run makes of a world with no receipts. -/
abbrev ContextRun (E : Engine) :
    List (ContextCall × Except MemoryError ContextAnswer) → ContextWorld → Prop :=
  Run (ContextCall.body E) (fun _ _ _ => True) fun w => w.exposures.rows = []

/-- The row a call added to the receipts. -/
def created : ContextCall × Except MemoryError ContextAnswer → Option ExposureRow
  | (.confirm confirmation, .ok (.confirmed receipt)) =>
    if receipt.replayed then none
    else some ⟨confirmation.confirmationId, confirmation.preparationId, receipt⟩
  | _ => none

/-- A receipt is created by a confirmation that is not a replay. -/
theorem created_eq_some {call : ContextCall × Except MemoryError ContextAnswer}
    {row : ExposureRow} : created call = some row ↔ ∃ first : ExposureConfirmation,
      call = (.confirm first, .ok (.confirmed row.receipt)) ∧ row.receipt.replayed = false ∧
        row = ⟨first.confirmationId, first.preparationId, row.receipt⟩ := by
  unfold created
  split
  · rename_i first receipt
    by_cases hreplayed : receipt.replayed = true
    · rw [if_pos hreplayed]
      constructor
      · intro h
        cases h
      · rintro ⟨first', heq, hnot, -⟩
        cases heq
        rw [hreplayed] at hnot
        cases hnot
    · rw [if_neg hreplayed]
      constructor
      · rintro h
        cases h
        exact ⟨first, rfl, by simpa using hreplayed, rfl⟩
      · rintro ⟨first', heq, -, hrow⟩
        cases heq
        rw [hrow]
  · rename_i hother
    simp only [reduceCtorEq, false_iff, not_exists, not_and]
    rintro first rfl
    exact absurd rfl (hother first row.receipt)

/-- One call adds the row it created and no other. -/
theorem exposures_body (call : ContextCall) :
    (call.body E w).2.exposures.rows =
      w.exposures.rows ++ (created (call, (call.body E w).1)).toList := by
  cases call with
  | other change => simp [ContextCall.body, created]
  | prepare request =>
    have hspares := sparesReceipts_prepareContextV1 (E := E) request w
    have hbody : (ContextCall.prepare request).body E w =
      atomically (.prepared <$> prepareContextV1 E request) w := rfl
    rw [hbody, atomically_eq, exec_map]
    rcases hr : exec (prepareContextV1 E request) w with ⟨e | package, w'⟩
    · simp [created]
    · rw [hr] at hspares
      have hspares : w'.exposures = w.exposures := hspares
      simp [created, hspares]
  | confirm confirmation =>
    rw [body_confirm]
    rcases hexec : exec (confirmExposureV1 E confirmation) w with ⟨e | receipt, w'⟩
    · simp [created]
    · rcases hknown : w.getProtocolExposure confirmation.confirmationId with - | row
      · obtain ⟨hnew, -, -, -, hinsert⟩ := exec_confirm_new hknown hexec
        dsimp only
        rw [(Table.insert_eq_some.mp hinsert).2]
        simp [created, hnew]
      · rw [exec_confirm_known hknown] at hexec
        cases hexec
        simp [created]

/-- **The receipts there are, are those that were created**, in order. -/
theorem exposures_eq_created {made : List (ContextCall × Except MemoryError ContextAnswer)}
    (hr : ContextRun E made w) : w.exposures.rows = made.filterMap created := by
  refine hr.invariant (I := fun made (w : ContextWorld) =>
    w.exposures.rows = made.filterMap created) (fun w hstart => hstart) ?_
  intro made w call _ _ ih
  rw [exposures_body, ih, List.filterMap_append]
  rcases hc : created (call, (call.body E w).1) with - | row <;> simp [hc]

/-! ## What a receipt answers -/

/-- A confirmation that created a receipt. -/
def Creates (made : List (ContextCall × Except MemoryError ContextAnswer))
    (first : ExposureConfirmation) (original : ExposureReceipt) : Prop :=
  (ContextCall.confirm first, Except.ok (ContextAnswer.confirmed original)) ∈ made ∧
    original.replayed = false

/-- The requests name one subject, workspace and preparation, and one
digest of what was shown. -/
structure SameRequest (confirmation first : ExposureConfirmation) : Prop where
  subjectId : confirmation.scope.val.subjectId = first.scope.val.subjectId
  workspaceId : confirmation.scope.val.workspaceId = first.scope.val.workspaceId
  preparationId : confirmation.preparationId = first.preparationId
  contextSha256 : confirmation.contextSha256 = first.contextSha256

/-- A confirmation that is answered with a receipt there was before is the
request the receipt was created for; one that is refused writes nothing. -/
def BoundToRequest (E : Engine) (made : List (ContextCall × Except MemoryError ContextAnswer))
    (w : ContextWorld) (confirmation : ExposureConfirmation) : Prop :=
  (∀ receipt, ((ContextCall.confirm confirmation).body E w).1 = .ok (.confirmed receipt) →
    receipt.replayed = true → ∃ first original, Creates made first original ∧
      first.confirmationId = confirmation.confirmationId ∧
      receipt = { original with scope := confirmation.scope, replayed := true } ∧
      SameRequest confirmation first) ∧
  ∀ e, ((ContextCall.confirm confirmation).body E w).1 = .error e →
    Unwritten w ((ContextCall.confirm confirmation).body E w).2

section Runs

variable {made : List (ContextCall × Except MemoryError ContextAnswer)}
variable {confirmation first : ExposureConfirmation} {original : ExposureReceipt}

/-- A receipt that was created is there. -/
theorem Creates.mem_exposures (hr : ContextRun E made w) (hc : Creates made first original) :
    ⟨first.confirmationId, first.preparationId, original⟩ ∈ w.exposures.rows := by
  rw [exposures_eq_created hr]
  exact List.mem_filterMap.mpr ⟨_, hc.1, created_eq_some.mpr ⟨first, rfl, hc.2, rfl⟩⟩

/-- A receipt that is there was created. -/
theorem creates_of_mem (hr : ContextRun E made w) {row : ExposureRow}
    (hrow : row ∈ w.exposures.rows) : ∃ first, Creates made first row.receipt ∧
      row = ⟨first.confirmationId, first.preparationId, row.receipt⟩ := by
  rw [exposures_eq_created hr] at hrow
  obtain ⟨call, hcall, hcreated⟩ := List.mem_filterMap.mp hrow
  obtain ⟨first, rfl, hnew, heq⟩ := created_eq_some.mp hcreated
  exact ⟨first, ⟨hcall, hnew⟩, heq⟩

/-- A receipt carries what it was created for. -/
theorem Creates.bindings (hr : ContextRun E made w) (hc : Creates made first original) :
    original.scope = first.scope ∧ original.preparationId = first.preparationId ∧
      original.contextSha256 = first.contextSha256 := by
  obtain ⟨before, after, t, -, -, -, hanswer⟩ := hr.exists_of_mem hc.1
  rw [body_confirm] at hanswer
  rcases hexec : exec (confirmExposureV1 E first) t with ⟨e | receipt, t'⟩
  · rw [hexec] at hanswer
    cases hanswer
  · rw [hexec] at hanswer
    obtain rfl : receipt = original := by simpa using hanswer
    rcases hknown : t.getProtocolExposure first.confirmationId with - | row
    · obtain ⟨-, hscope, hpreparation, hdigest, -⟩ := exec_confirm_new hknown hexec
      exact ⟨hscope, hpreparation, hdigest⟩
    · rw [exec_confirm_known hknown] at hexec
      cases hexec
      cases hc.2

/-- The row under a confirmation's identifier. -/
theorem getProtocolExposure_eq_some {row : ExposureRow} {confirmationId : String} :
    w.getProtocolExposure confirmationId = some row ↔
      row ∈ w.exposures.rows ∧ row.confirmationId = confirmationId :=
  Table.find?_id_eq_some fun a b hab => by simp [exposureClash, ExposureRow.key, hab]

/-- **A receipt answers the request it was created for, and no other, exactly
of confirmations whose identifier no other request has used.** And no two
receipts are for one preparation. -/
theorem confirm_bound_iff (hr : ContextRun E made w) :
    (BoundToRequest E made w confirmation ↔ ∀ first original, Creates made first original →
      first.confirmationId = confirmation.confirmationId → SameRequest confirmation first) ∧
    (made.filterMap created).Pairwise fun a b => a.preparationId ≠ b.preparationId := by
  refine ⟨⟨?_, ?_⟩, ?_⟩
  · rintro ⟨hbound, -⟩ first original hc hid
    have hmem := hc.mem_exposures hr
    have hknown := getProtocolExposure_eq_some.mpr ⟨hmem, hid⟩
    have hanswer : ((ContextCall.confirm confirmation).body E w).1 = .ok (.confirmed
        { original with scope := confirmation.scope, replayed := true }) := by
      rw [body_confirm, exec_confirm_known hknown]
    obtain ⟨first', original', hc', hid', -, hsame⟩ := hbound _ hanswer rfl
    -- the two created one row, since they share the identifier
    have hknown' := getProtocolExposure_eq_some.mpr ⟨hc'.mem_exposures hr, hid'⟩
    rw [hknown] at hknown'
    obtain ⟨-, hpreparation, rfl⟩ := ExposureRow.mk.inj (Option.some.inj hknown')
    obtain ⟨hscope, -, hdigest⟩ := hc.bindings hr
    obtain ⟨hscope', -, hdigest'⟩ := hc'.bindings hr
    have hfirst : first'.scope = first.scope := hscope'.symm.trans hscope
    exact ⟨hfirst ▸ hsame.subjectId, hfirst ▸ hsame.workspaceId,
      hsame.preparationId.trans hpreparation.symm,
      hsame.contextSha256.trans (hdigest'.symm.trans hdigest)⟩
  · intro hunused
    refine ⟨fun receipt hanswer hreplayed => ?_, fun e he => unwritten_of_error he⟩
    rw [body_confirm] at hanswer
    rcases hknown : w.getProtocolExposure confirmation.confirmationId with - | row
    · rcases hexec : exec (confirmExposureV1 E confirmation) w with ⟨e | r, w'⟩
      · rw [hexec] at hanswer
        cases hanswer
      · rw [hexec] at hanswer
        obtain rfl : r = receipt := by simpa using hanswer
        rw [(exec_confirm_new hknown hexec).1] at hreplayed
        cases hreplayed
    · rw [exec_confirm_known hknown] at hanswer
      obtain ⟨hmem, hid⟩ := getProtocolExposure_eq_some.mp hknown
      obtain ⟨first, hc, heq⟩ := creates_of_mem hr hmem
      have hfirst : first.confirmationId = confirmation.confirmationId := by
        rw [← hid, heq]
      obtain rfl : _ = receipt := by simpa using hanswer
      exact ⟨first, row.receipt, hc, hfirst, rfl, hunused first row.receipt hc hfirst⟩
  · rw [← exposures_eq_created hr]
    refine w.exposures.distinct.imp fun {a b} hclash heq => ?_
    simp [exposureClash, ExposureRow.key, heq] at hclash

end Runs

/-! ## A confirmation of another workspace's receipt -/

/-- The scope of the example. -/
def contextScope : AuthorityScope := ⟨⟨"user-1", "host-1", "context-a"⟩, by decide +kernel⟩

/-- The scope of somebody else. -/
def otherContextScope : AuthorityScope := ⟨⟨"user-2", "host-2", "context-b"⟩, by decide +kernel⟩

/-- What a recall that found nothing leaves. -/
def emptyRecall (w : ContextWorld) : ContextWorld :=
  { w with
    candidateSets := ⟨[⟨"cand_1", "user-1", "host-1", "context-a", 0, 1, []⟩],
      List.pairwise_singleton _ _⟩ }

/-- A request for no records. -/
def nothingFound : ContextRequest where
  contextId := "ctx_1"
  candidateSetId := "cand_1"
  scope := contextScope
  recordIds := []

/-- The context of no record, as the plain engine digests it. -/
def emptyContextSha256 : String :=
  "sha256:" ++ lengthHex (contextHeader ++ contextFooter)

/-- The confirmation that its context was shown. -/
def shown : ExposureConfirmation where
  confirmationId := "conf_1"
  preparationId := "prep_"
  scope := contextScope
  contextSha256 := emptyContextSha256
  hostRunId := "run_1"

/-- The same identifier, asked for by another subject of another workspace. -/
def shownElsewhere : ExposureConfirmation where
  confirmationId := "conf_1"
  preparationId := "prep_9"
  scope := otherContextScope
  contextSha256 := "sha256:"
  hostRunId := "run_2"

/-- A recall, a preparation of what it found, and its confirmation. -/
def shownOnce : List ContextCall := [.other emptyRecall, .prepare nothingFound, .confirm shown]

/-- Nothing recalled and nothing shown. -/
def emptyContexts : ContextWorld where
  memory := plainWorld

/-- The world they lead to. -/
def shownWorld : ContextWorld := (play (ContextCall.body plainEngine) shownOnce emptyContexts).2

/-- And what they were answered. -/
def shownMade : List (ContextCall × Except MemoryError ContextAnswer) :=
  (play (ContextCall.body plainEngine) shownOnce emptyContexts).1

/-- The world of the example is reached by a run. -/
theorem run_shownWorld : ContextRun plainEngine shownMade shownWorld := by
  have hstart : ContextRun plainEngine [] emptyContexts := .start rfl
  exact Run.play hstart shownOnce

/-- The one confirmation is the first. -/
theorem eq_of_creates_shown {first : ExposureConfirmation} {original : ExposureReceipt}
    (hc : Creates shownMade first original) : first = shown := by
  have hmem := mem_of_mem_play hc.1
  simp only [shownOnce, List.mem_cons, List.not_mem_nil, reduceCtorEq, ContextCall.confirm.injEq,
    false_or, or_false] at hmem
  exact hmem

/-- The answer of a confirmation, where it is a receipt there was before. -/
def replayedReceipt (confirmation : ExposureConfirmation) : Option ExposureReceipt :=
  match ((ContextCall.confirm confirmation).body plainEngine shownWorld).1 with
  | .ok (.confirmed receipt) => if receipt.replayed then some receipt else none
  | _ => none

/-- The confirmation of the example is replayed. -/
theorem answer_of_replayedReceipt {confirmation : ExposureConfirmation} {receipt : ExposureReceipt}
    (h : replayedReceipt confirmation = some receipt) :
    ((ContextCall.confirm confirmation).body plainEngine shownWorld).1 =
      .ok (.confirmed receipt) ∧ receipt.replayed = true := by
  unfold replayedReceipt at h
  split at h
  · rename_i r hanswer
    split at h
    · cases h
      exact ⟨hanswer, ‹_›⟩
    · cases h
  · cases h

/-- The confirmation, sent again, gets its own receipt. -/
theorem confirm_bound_of_same : ∃ receipt,
    ((ContextCall.confirm shown).body plainEngine shownWorld).1 = .ok (.confirmed receipt) ∧
      receipt.replayed = true ∧ BoundToRequest plainEngine shownMade shownWorld shown := by
  have hsome : (replayedReceipt shown).isSome = true := by decide +kernel
  obtain ⟨receipt, hreceipt⟩ := Option.isSome_iff_exists.mp hsome
  obtain ⟨hanswer, hreplayed⟩ := answer_of_replayedReceipt hreceipt
  refine ⟨receipt, hanswer, hreplayed, (confirm_bound_iff run_shownWorld).1.mpr ?_⟩
  intro first original hc _
  rw [eq_of_creates_shown hc]
  exact ⟨rfl, rfl, rfl, rfl⟩

/-- **A confirmation gets the receipt of another subject's request**, which
it names by its identifier alone. -/
theorem confirm_answers_other_request :
    ¬ ∀ made w confirmation, ContextRun plainEngine made w →
      BoundToRequest plainEngine made w confirmation := by
  intro hall
  have hbound := (hall shownMade shownWorld shownElsewhere run_shownWorld).1
  have hsome : (replayedReceipt shownElsewhere).isSome = true := by decide +kernel
  obtain ⟨receipt, hreceipt⟩ := Option.isSome_iff_exists.mp hsome
  obtain ⟨hanswer, hreplayed⟩ := answer_of_replayedReceipt hreceipt
  obtain ⟨first, original, hc, -, -, hsame⟩ := hbound receipt hanswer hreplayed
  have hsubject := hsame.subjectId
  rw [eq_of_creates_shown hc] at hsubject
  exact absurd hsubject (by decide)

end Atmem.Memory
