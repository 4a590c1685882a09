import Atmem.Continuity.Helpers.Effects
/-!
# Governed operations are dispatched safely

Over every run of calls on the vault, by any principals and with any readings
of the clock: an operation that is not idempotent is handed out for execution
once, an idempotent one again only under its key and inside its window; a
lease is replaced only once it has run out, and only the token of the last one
is good; nothing is granted once an operation is finished, or before those in
front of it are.
-/

namespace Atmem.Continuity

open Evidence Checked Leases

variable {α : Type} [LinearOrder α] {E : Engine α} {wid name : String}
variable {made : List (Request α × Except Raised (Answer α))} {v : Vault α}

/-- No document of the vault is of the workflow. -/
def Untouched (wid : String) (v : Vault α) : Prop :=
  ∀ d ∈ v.contents, d.workflowId ≠ some wid

/-- A run of calls, the workflow not there at the start. -/
abbrev Calls (E : Engine α) (wid : String) :
    List (Request α × Except Raised (Answer α)) → Vault α → Prop :=
  History.Run (perform E) (fun _ _ _ => True) (Untouched wid)

/-! ## What is safe -/

/-- A grant of an operation of a workflow as it stands, after what its callers
were told. -/
structure SafeGrant (E : Engine α) (w : Workflow α) (op : Operation α) (evs : List (Event α))
    (g : Grant α) (now : Reading α) : Prop where
  /-- An operation that is not idempotent is executed by its first grant, or
  by none. -/
  once : op.capability ≠ .idempotent → g.action = .execute → grants evs = []
  key : ∀ earlier ∈ grants evs, earlier.1.idempotencyKey = g.idempotencyKey
  /-- Another execution starts inside the window of the first dispatch. -/
  window : ∀ first, (grants evs).head? = some first → g.action = .execute →
    withinWindow E op now first.2
  earlier : ∀ o ∈ w.earlier op.name, o.status = .completed

/-- A token that was good is that of the last lease, which had not ended. -/
def GoodToken (E : Engine α) (evs : List (Event α)) (attemptId token : String) : Prop :=
  ∃ l, (leases evs).getLast? = some l ∧ l.ended = none ∧ l.holder = attemptId ∧
    E.sha256 token = E.sha256 l.secret

/-- The operation was dispatched safely in the calls that were made. -/
structure DispatchedSafely (E : Engine α) (wid name : String)
    (made : List (Request α × Except Raised (Answer α))) : Prop where
  granted : ∀ before k a after g now, made = before ++ (k, a) :: after →
    eventOf wid name (k, a) = some (.granted g now) →
    ∃ u w op, Calls E wid before u ∧ latest u wid = .ok w ∧ w.operation name = some op ∧
      SafeGrant E w op (events wid name before) g now
  renewed : ∀ before k a after attemptId token leaseUntil, made = before ++ (k, a) :: after →
    eventOf wid name (k, a) = some (.renewed attemptId token leaseUntil) →
    GoodToken E (events wid name before) attemptId token
  recorded : ∀ before k a after attemptId token status, made = before ++ (k, a) :: after →
    eventOf wid name (k, a) = some (.recorded attemptId token status) →
    GoodToken E (events wid name before) attemptId token
  /-- A lease was replaced only when it had run out. -/
  replaced : ∀ l ∈ leases (events wid name made), ∀ now, l.ended = some (.replaced now) →
    ¬ now.Lt l.runsUntil
  /-- Whenever a lease was granted, those before it had run out or been given
  up: at any instant one at most is held. -/
  heldOnce : (leases (events wid name made)).Pairwise fun l l' =>
    IsOver l ∧ ∀ t, ¬ (HeldAt t l ∧ HeldAt t l')
  /-- Nothing is granted once the operation is finished. -/
  finished : (events wid name made).Pairwise fun e e' =>
    e.finishes = true → ∀ g now, e' ≠ .granted g now

/-! ## The invariant -/

/-- What the vault holds of a workflow, after what its callers were told. -/
structure Tracked (E : Engine α) (wid name : String) (evs : List (Event α)) (v : Vault α) :
    Prop where
  wellKept : WellKept (leases evs)
  finished : evs.Pairwise fun e e' => e.finishes = true → ∀ g now, e' ≠ .granted g now
  absent : scan wid v.contents = .ok none → evs = []
  present : ∀ w, scan wid v.contents = .ok (some w) → w.format = "atmem-workflow-v1" ∧
    (∀ op, w.bare name = some op → Ledger E op evs) ∧ (w.bare name = none → evs = [])

omit [LinearOrder α] in
/-- A workflow without documents is not there. -/
theorem scan_of_untouched (h : Untouched wid v) : scan wid v.contents = .ok none :=
  foldlM_scanDocument_of_ne h none

/-- Nothing is told of what is not there. -/
theorem tracked_of_untouched (h : Untouched wid v) : Tracked E wid name [] v where
  wellKept := wellKept_nil
  finished := .nil
  absent := fun _ => rfl
  present := by
    intro w hw
    rw [scan_of_untouched h] at hw
    cases hw

omit [LinearOrder α] in
/-- A call more adds its event. -/
theorem events_concat (made : List (Request α × Except Raised (Answer α)))
    (c : Request α × Except Raised (Answer α)) :
    events wid name (made ++ [c]) = events wid name made ++ (eventOf wid name c).toList := by
  unfold events
  rw [List.filterMap_append, List.filterMap_cons]
  cases eventOf wid name c <;> rfl

/-- A move of an unfinished operation comes after nothing that finished it, if
it is a grant. -/
theorem not_granted_of_finishes {op op' : Operation α} {evs : List (Event α)} {e f : Event α}
    (hl : Ledger E op evs) (hm : Move E op e op') (hf : f ∈ evs) (hfin : f.finishes = true) :
    ∀ g now, e ≠ .granted g now := by
  rintro g now rfl
  cases hm with
  | granted _ _ hallowed =>
    obtain ⟨hc, ha⟩ := status_of_actionFor hallowed
    rw [hl.not_finished hc ha f hf] at hfin
    cases hfin

/-- **Every call keeps the invariant.** -/
theorem Tracked.step {evs : List (Event α)} {v' : Vault α} {told : Option (Event α)}
    (h : Tracked E wid name evs v)
    (he : Effect E name (scan wid v.contents) told (scan wid v'.contents)) :
    Tracked E wid name (evs ++ told.toList) v' := by
  generalize hs : scan wid v.contents = s at he
  generalize hs' : scan wid v'.contents = s' at he
  cases he with
  | same =>
    rw [Option.toList_none, List.append_nil]
    exact ⟨h.wellKept, h.finished, (fun ha => h.absent (hs.trans (hs'.symm.trans ha))),
      fun w hw => h.present w (hs.trans (hs'.symm.trans hw))⟩
  | @created w hformat _ hnew =>
    have hnil := h.absent hs
    rw [Option.toList_none, List.append_nil]
    refine ⟨h.wellKept, h.finished, (fun _ => hnil), fun u hu => ?_⟩
    obtain rfl : w = u := by
      rw [hs'] at hu
      exact Option.some.inj (Except.ok.inj hu)
    refine ⟨hformat, fun op hop => ?_, fun _ => hnil⟩
    obtain ⟨o, ho, rfl⟩ := Option.map_eq_some_iff.mp hop
    obtain ⟨hst, hat, hfd, hlh⟩ := hnew o (List.mem_of_find?_eq_some ho)
    rw [hnil]
    exact Ledger.empty hst hat hfd hlh
  | @kept w w' hformat hop =>
    obtain ⟨hf, hsome, hnone⟩ := h.present w hs
    rw [Option.toList_none, List.append_nil]
    refine ⟨h.wellKept, h.finished, (fun ha => ?_), fun u hu => ?_⟩
    · rw [hs'] at ha
      cases ha
    · obtain rfl : w' = u := by
        rw [hs'] at hu
        exact Option.some.inj (Except.ok.inj hu)
      exact ⟨hformat.trans hf, (fun op ho => hsome op (hop.symm.trans ho)),
        fun ho => hnone (hop.symm.trans ho)⟩
  | @moved w w' op op' e hformat hop hop' hmove =>
    obtain ⟨hf, hsome, -⟩ := h.present w hs
    have hledger := (hsome op hop).move hmove
    rw [Option.toList_some]
    refine ⟨hledger.wellKept, ?_, (fun ha => ?_), fun u hu => ?_⟩
    · -- once it has finished, nothing is granted
      refine List.pairwise_append.mpr ⟨h.finished, List.pairwise_singleton _ _, ?_⟩
      intro f hfm e' he' hfin
      rw [List.mem_singleton.mp he']
      exact not_granted_of_finishes (hsome op hop) hmove hfm hfin
    · rw [hs'] at ha
      cases ha
    · obtain rfl : w' = u := by
        rw [hs'] at hu
        exact Option.some.inj (Except.ok.inj hu)
      refine ⟨hformat.trans hf, fun o ho => ?_, fun ho => ?_⟩
      · rw [hop'] at ho
        rw [← Option.some.inj ho]
        exact hledger
      · rw [hop'] at ho
        cases ho
  | stuck =>
    rw [Option.toList_none, List.append_nil]
    refine ⟨h.wellKept, h.finished, (fun ha => ?_), fun w hw => ?_⟩
    · rw [hs'] at ha
      cases ha
    · rw [hs'] at hw
      cases hw

/-- **The invariant of a run**: what the vault holds is what was told. -/
theorem tracked_of_calls (hr : Calls E wid made v) : Tracked E wid name (events wid name made) v := by
  refine hr.invariant (I := fun made v => Tracked E wid name (events wid name made) v)
    (fun s hs => tracked_of_untouched hs) fun made s k _ _ h => ?_
  rw [events_concat]
  exact h.step (perform_effect wid name k s)

/-! ## What a caller was told -/

/-- A call that was told of an event, and what the operation was. -/
theorem exists_move {k : Request α} {e : Event α} (h : Tracked E wid name (events wid name made) v)
    (he : eventOf wid name (k, (perform E k v).1) = some e) :
    ∃ op op', Ledger E op (events wid name made) ∧ Move E op e op' := by
  have heffect := perform_effect (E := E) wid name k v
  rw [he] at heffect
  generalize hs : scan wid v.contents = s at heffect
  generalize scan wid (perform E k v).2.contents = s' at heffect
  cases heffect with
  | moved _ hop _ hmove => exact ⟨_, _, (h.present _ hs).2.1 _ hop, hmove⟩

omit [LinearOrder α] in
/-- Only `begin` is told of a grant. -/
theorem eventOf_granted {c : Request α × Except Raised (Answer α)} {g : Grant α} {now : Reading α}
    (h : eventOf wid name c = some (.granted g now)) :
    ∃ p runId attemptId r, c.1.call = .begin p wid name runId attemptId ∧
      c.2 = .ok (.begun r) ∧ r.reply = .granted g ∧ now = c.1.around.now := by
  unfold eventOf at h
  split at h
  · rename_i p w n runId attemptId r hcall hanswer
    split at h
    · rename_i heq
      obtain ⟨rfl, rfl⟩ := heq
      refine ⟨p, runId, attemptId, r, hcall, hanswer, ?_⟩
      cases hr : r.reply with
      | granted g' =>
        rw [hr] at h
        cases h
        exact ⟨rfl, rfl⟩
      | blocked _ => rw [hr] at h; cases h
      | completed _ => rw [hr] at h; cases h
    · cases h
  · split at h <;> cases h
  · split at h <;> cases h
  · split at h <;> cases h
  · cases h

/-- A reply of `begin` comes from a call of it. -/
theorem begin_of_perform {k : Request α} {p : EvidencePrincipal} {runId attemptId : String}
    {r : BeginReply α} (hk : k.call = .begin p wid name runId attemptId)
    (h : (perform E k v).1 = .ok (.begun r)) :
    ∃ v', begin E p wid name runId attemptId k.around v = .ok (r, v') := by
  unfold perform at h
  rw [hk] at h
  dsimp only at h
  cases hb : begin E p wid name runId attemptId k.around v with
  | error e => rw [hb] at h; cases h
  | ok s =>
    rw [hb] at h
    cases h
    exact ⟨s.2, rfl⟩

/-- **A grant is safe** where it is made. -/
theorem safeGrant {k : Request α} {g : Grant α} {now : Reading α} (hr : Calls E wid made v)
    (he : eventOf wid name (k, (perform E k v).1) = some (.granted g now)) :
    ∃ w op, latest v wid = .ok w ∧ w.operation name = some op ∧
      SafeGrant E w op (events wid name made) g now := by
  obtain ⟨p, runId, attemptId, r, hk, hanswer, hreply, rfl⟩ := eventOf_granted he
  obtain ⟨v', hb⟩ := begin_of_perform hk hanswer
  obtain ⟨w, op, ho, -, ⟨hnone, -⟩ | ⟨mode, w', hg, -, hgrant⟩⟩ := begin_ok hb
  · rw [hreply] at hnone
    cases hnone
  obtain rfl : grantOf E op mode runId attemptId k.around = g :=
    Reply.granted.inj (hgrant.symm.trans hreply)
  obtain ⟨u, hu, -, rfl⟩ := latest_ok ho.latest
  have hbare : u.bare name = some op.bare :=
    (bare_counted v.contents).symm.trans (bare_of_operation ho.operation)
  have hledger := ((tracked_of_calls hr).present u hu).2.1 _ hbare
  refine ⟨_, op, ho.latest, ho.operation, ?_, hledger.keys, ?_, hg.earlier⟩
  · intro hcap hexec
    rcases actionFor_grant hg.allowed with ⟨hpending, -⟩ | ⟨-, -, hquery⟩ | ⟨-, hidem, -⟩
    · exact hledger.pending hpending
    · exact absurd (hexec.symm.trans hquery) fun h => nomatch h
    · exact absurd hidem hcap
  · intro first hfirst hexec
    rcases actionFor_grant hg.allowed with ⟨hpending, -⟩ | ⟨-, -, hquery⟩ | ⟨-, -, -, hwindow⟩
    · rw [hledger.pending hpending] at hfirst
      cases hfirst
    · exact absurd (hexec.symm.trans hquery) fun h => nomatch h
    · have hdispatch : op.firstDispatch = some first.2 := hledger.first.trans (by rw [hfirst]; rfl)
      rw [hdispatch] at hwindow
      exact hwindow

/-- **A token that renews or reports is good.** -/
theorem goodToken {k : Request α} {e : Event α} {attemptId token : String}
    (hr : Calls E wid made v) (he : eventOf wid name (k, (perform E k v).1) = some e)
    (htoken : (∃ leaseUntil, e = .renewed attemptId token leaseUntil) ∨
      ∃ status, e = .recorded attemptId token status) :
    GoodToken E (events wid name made) attemptId token := by
  obtain ⟨op, op', hledger, hmove⟩ := exists_move (tracked_of_calls hr) he
  rcases htoken with ⟨leaseUntil, rfl⟩ | ⟨status, rfl⟩
  · cases hmove with
    | renewed hcurrent => exact hledger.current hcurrent
  · cases hmove with
    | recorded hcurrent _ => exact hledger.current hcurrent

/-- **Governed operations are never dispatched twice unsafely**: in every run
of calls by any principals, whatever the clock reads, every grant of the
operation is safe, only the token of the last lease renews or reports, no
lease is replaced before it has run out, at any instant one at most is held,
and nothing is granted once the operation is finished. -/
theorem operations_are_dispatched_safely (hr : Calls E wid made v) :
    DispatchedSafely E wid name made where
  granted := by
    intro before k a after g now hmade he
    obtain ⟨u, hu, -, rfl, -⟩ := hr.exists_before hmade
    obtain ⟨w, op, hw, hop, hsafe⟩ := safeGrant hu he
    exact ⟨u, w, op, hu, hw, hop, hsafe⟩
  renewed := by
    intro before k a after attemptId token leaseUntil hmade he
    obtain ⟨u, hu, -, rfl, -⟩ := hr.exists_before hmade
    exact goodToken hu he (.inl ⟨leaseUntil, rfl⟩)
  recorded := by
    intro before k a after attemptId token status hmade he
    obtain ⟨u, hu, -, rfl, -⟩ := hr.exists_before hmade
    exact goodToken hu he (.inr ⟨status, rfl⟩)
  replaced := (tracked_of_calls hr).wellKept.replaced
  heldOnce := (tracked_of_calls hr).wellKept.held_once
  finished := (tracked_of_calls hr).finished

/-! ## A run -/

/-- Whole seconds; a digest that is the token, marked. -/
def secondsEngine : Engine ℤ where
  sha256 := fun token => "sha256:" ++ token
  plus := fun a b => match a, b with
    | .finite m, .finite n => .finite (m + n)
    | .posInf, .finite _ | .posInf, .posInf | .finite _, .posInf => .posInf
    | .negInf, .finite _ | .negInf, .negInf | .finite _, .negInf => .negInf
    | .posInf, .negInf | .negInf, .posInf | .nan, _ | _, .nan => .nan
  seconds := fun n => n
  float := fun value => match value with
    | .int n => .ok (.finite n)
    | .null | .bool _ | .float _ | .str _ | .arr _ | .obj _ => .error .typeError
  repr := fun t => match t with
    | .finite n => toString n
    | .posInf => "Infinity"
    | .negInf => "-Infinity"
    | .nan => "NaN"
  dumpedBytes := fun value => .ok (canonicalBytes value)

/-- A time of day, and identifiers that are told apart by it. -/
def atSecond (n : ℕ) : Surroundings ℤ where
  now := .finite n
  saved := .finite n
  uuid := fun i => toString n ++ "-" ++ toString i
  leaseToken := "token-" ++ toString n
  objectId := fun i => "obj_" ++ toString i
  recordedAt := fun _ => "2026-01-01T00:00:00Z"

/-- One who collects evidence in the scope of the example. -/
def owner : EvidencePrincipal :=
  ⟨"owner", .evidenceCollector, ⟨"local", "student", none, none⟩⟩

/-- An idempotent operation is created, enabled, attempted, left alone until
its lease has run out, and attempted again. -/
def retriedUpload : List (Request ℤ) :=
  [⟨.create owner "document" (.arr [.obj [("name", .str "upload"), ("tool", .str "documents"),
      ("capability", .str "idempotent"), ("retention_seconds", .int 1000)]]) true, atSecond 1⟩,
    ⟨.begin owner "wf_1-0" "upload" "r1" "a1", atSecond 10⟩,
    ⟨.begin owner "wf_1-0" "upload" "r2" "a2", atSecond 20⟩,
    ⟨.begin owner "wf_1-0" "upload" "r2" "a2", atSecond 130⟩]

/-- The upload is granted twice, and safely. -/
theorem retriedUpload_is_safe :
    (events "wf_1-0" "upload" (History.play (perform secondsEngine) retriedUpload {}).1).length = 2 ∧
      DispatchedSafely secondsEngine "wf_1-0" "upload"
        (History.play (perform secondsEngine) retriedUpload {}).1 :=
  ⟨by decide +kernel, operations_are_dispatched_safely
    ((History.Run.start (fun _ h => nomatch h)).play retriedUpload)⟩

end Atmem.Continuity
