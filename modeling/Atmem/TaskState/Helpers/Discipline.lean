import Atmem.TaskState.Helpers.Methods
/-!
# The discipline of the service

Every call keeps to the invariant, so every run does. A `complete` relies
on one thing more: from its gate read to the re-read of its lifecycle
change, nobody takes the task from a state that meets the gate to one
that does not.
-/

namespace Atmem

open Relation Relational Interleaving

variable {E : Setting} {R : List Label → Timeline World → Timeline World → Prop}
variable {log : List Label} {h : Timeline World} {scope : AuthorityScope} {taskId : String}

/-! ## The remaining methods -/

section Methods

variable (hR : Relies E R)
include hR

/-- A lifecycle change that no gate guards. -/
theorem secure_lifecycle {target : TaskLifecycle} {actor reason : String}
    {actorRole : ActorRole} (hopen : target ≠ .completed) (hlive : target ≠ .expired) :
    Secure E R (lifecycle E.hashing scope taskId target actor actorRole reason none) log h
      fun _ _ _ => True :=
  (secure_lifecycleVia hR (expires_expireIfDue hR) (fun ht => absurd ht hopen)
    fun ht => absurd ht hlive).mono fun _ _ _ _ _ => trivial

theorem secure_cancel {actor reason : String} {actorRole : ActorRole} :
    Secure E R (cancel E.hashing scope taskId actor actorRole reason) log h fun _ _ _ => True := by
  unfold cancel
  split
  · exact .throw trivial
  · exact secure_lifecycle hR (fun ht => nomatch ht) fun ht => nomatch ht

theorem secure_get {expiring : Bool} :
    Secure E R (TaskStateService.get E.hashing scope taskId expiring) log h
      fun _ _ _ => True := by
  unfold TaskStateService.get
  refine .bind (secure_requireTask hR) (fun log₁ found h₁ hk₁ _ hq => ?_) (fun _ _ _ _ _ => trivial)
  obtain ⟨h₀, -, rfl, -, hfound, -⟩ := hq
  obtain ⟨c, rfl, hc⟩ := hfound found rfl
  have hh : Held E (h₀.push h₀.now) taskId c := hk₁.held hc
  refine .bind (Q := fun _ r h' => ∀ row, r = .ok row → ∃ c', c'.row = row ∧ Held E h' taskId c')
    ?_ (fun log₂ row h₂ _ _ hq => ?_) (fun _ _ _ _ _ => trivial)
  · split
    · refine (secure_refresh (expires_expireIfDue hR) hh).mono fun _ _ h' he hq row hr => ?_
      rcases hq row hr with rfl | ⟨c', hrow, hh', -⟩
      · exact ⟨c, rfl, hh.evolves he⟩
      · exact ⟨c', hrow, hh'⟩
    · exact .pure fun row hr => by cases hr; exact ⟨c, rfl, hh⟩
  · obtain ⟨c', rfl, hh'⟩ := hq row rfl
    exact (secure_view hR framed_true trivial hh').mono fun _ _ _ _ _ => trivial

/-- Rows that were read together. -/
def AllHeld (E : Setting) (h : Timeline World) (rows : List TaskRow) : Prop :=
  ∀ row ∈ rows, ∃ c, c.row = row ∧ Held E h row.taskId c

omit hR in
/-- Rows that are held stay so. -/
theorem AllHeld.evolves {h' : Timeline World} {rows : List TaskRow} (he : Evolves E h h')
    (ha : AllHeld E h rows) : AllHeld E h' rows := fun row hr => by
  obtain ⟨c, hrow, hh⟩ := ha row hr
  exact ⟨c, hrow, hh.evolves he⟩

omit hR in
/-- Rows of the store are held. -/
theorem Kept.allHeld (hk : Kept E h) {rows : List TaskRow}
    (hrows : ∀ row ∈ rows, row ∈ h.now.store.tasks.rows) : AllHeld E (h.push h.now) rows :=
  fun row hr => by
    obtain ⟨c, hc, hrow⟩ := cell_of_mem (hrows row hr)
    exact ⟨c, hrow, (hk.held hc).evolves (hk.acts (.idle E h)).2⟩

/-- Refreshing the rows of a listing. -/
theorem secure_refreshAll {rows : List TaskRow} (hrows : AllHeld E h rows) :
    Secure E R (refreshAll E.hashing rows) log h fun _ _ _ => True := by
  induction rows generalizing log h with
  | nil => exact .pure trivial
  | cons found rows ih =>
    unfold refreshAll
    refine .bind (Q := fun _ _ _ => True) ?_ (fun log₁ row h₁ _ he₁ _ => ?_)
      (fun _ _ _ _ _ => trivial)
    · split
      · exact .pure trivial
      · refine .bind (.lift (Q := fun _ _ _ => True) (fun _ _ => trivial) (fun _ _ => trivial))
          (fun log₁ scope h₁ _ he₁ _ => ?_) (fun _ _ _ _ _ => trivial)
        obtain ⟨c, rfl, hh⟩ := hrows found List.mem_cons_self
        exact (secure_refresh (expires_expireIfDue hR) (hh.evolves he₁)).mono
          fun _ _ _ _ _ => trivial
    · have hrest : AllHeld E h rows := fun row hr => hrows row (List.mem_cons_of_mem _ hr)
      exact .bind (ih (hrest.evolves he₁)) (fun _ _ _ _ _ _ => .pure trivial)
        (fun _ _ _ _ _ => trivial)

omit hR in
theorem secure_nextCursor (rows : List TaskRow) (limit : Int) :
    Secure E R (nextCursor rows limit) log h fun _ _ _ => True := by
  unfold nextCursor
  split
  · split
    · exact .pure trivial
    · exact .throw trivial
  · exact .pure trivial

/-- **`list`** is secure. -/
theorem secure_list {scope : Option AuthorityScope} {lifecycles : Option (List String)}
    {cursor : Option String} {limit : Int} {expiring : Bool} :
    Secure E R (TaskStateService.list E.hashing scope lifecycles cursor limit expiring) log h
      fun _ _ _ => True := by
  unfold TaskStateService.list
  refine .bind (Q := fun _ r h' => ∀ rows, r = .ok rows → AllHeld E h' rows)
    (.query hR fun h' _ hk _ rows hr => ?_) (fun log₁ rows h₁ _ _ hq => ?_)
    (fun _ _ _ _ _ => trivial)
  · cases hr
    refine hk.allHeld fun row hr => ?_
    exact (List.mem_filter.mp (List.mem_mergeSort.mp (List.mem_of_mem_take hr))).1
  · refine .bind (Q := fun _ _ _ => True) ?_ (fun _ rows _ _ _ _ => ?_) (fun _ _ _ _ _ => trivial)
    · split
      · exact secure_refreshAll hR (hq _ rfl)
      · exact .pure trivial
    · exact .bind (secure_nextCursor rows limit) (fun _ _ _ _ _ _ => .pure trivial)
        (fun _ _ _ _ _ => trivial)

theorem secure_evaluateExpiry :
    Secure E R (evaluateExpiry E.hashing scope taskId) log h fun _ _ _ => True := by
  unfold evaluateExpiry
  refine .bind (Q := fun _ r h' => ∀ row, r = .ok (some row) →
      ∃ c, c.row = row ∧ Held E h' taskId c)
    (.query hR fun h' _ hk _ row hr => ?_) (fun log₁ row h₁ _ _ hq => ?_)
    (fun _ _ _ _ _ => trivial)
  · obtain ⟨c, hc, hrow, -⟩ := getTask_eq_some.mp (Except.ok.inj hr)
    exact ⟨c, hrow, (hk.held hc).evolves (hk.acts (.idle E h')).2⟩
  · rcases row with - | row
    · exact .pure trivial
    · obtain ⟨c, rfl, hh⟩ := hq row rfl
      exact (expires_expireIfDue hR _ _ scope _ c hh).mono fun _ _ _ _ _ => trivial

theorem secure_expireAll {rows : List TaskRow} (hrows : AllHeld E h rows) :
    Secure E R (expireAll E.hashing rows) log h fun _ _ _ => True := by
  induction rows generalizing log h with
  | nil => exact .pure trivial
  | cons row rows ih =>
    unfold expireAll
    refine .bind (.lift (Q := fun _ _ _ => True) (fun _ _ => trivial) (fun _ _ => trivial))
      (fun log₁ scope h₁ _ he₁ _ => ?_) (fun _ _ _ _ _ => trivial)
    obtain ⟨c, rfl, hh⟩ := hrows row List.mem_cons_self
    refine .bind (expires_expireIfDue hR _ _ scope _ c (hh.evolves he₁))
      (fun log₂ expired h₂ _ he₂ _ => ?_) (fun _ _ _ _ _ => trivial)
    have hrest : AllHeld E h rows := fun row hr => hrows row (List.mem_cons_of_mem _ hr)
    exact .bind (ih ((hrest.evolves he₁).evolves he₂)) (fun _ _ _ _ _ _ => .pure trivial)
      (fun _ _ _ _ _ => trivial)

/-- So is **`scan_for_expiry`**. -/
theorem secure_scanForExpiry {limit : Int} :
    Secure E R (scanForExpiry E.hashing limit) log h fun _ _ _ => True := by
  unfold scanForExpiry
  refine .bind (Q := fun _ r h' => ∀ rows, r = .ok rows → AllHeld E h' rows)
    (.query hR fun h' _ hk _ rows hr => ?_) (fun log₁ rows h₁ _ _ hq => ?_)
    (fun _ _ _ _ _ => trivial)
  · cases hr
    refine hk.allHeld fun row hr => ?_
    exact (List.mem_filter.mp (List.mem_mergeSort.mp (List.mem_of_mem_take hr))).1
  · refine .bind (secure_expireAll hR (hq rows rfl)) (fun _ _ _ _ _ _ => ?_)
      (fun _ _ _ _ _ => trivial)
    exact .bind (Q := fun _ _ _ => True) (.now hR fun _ _ _ _ _ _ => trivial)
      (fun _ _ _ _ _ _ => .pure trivial) (fun _ _ _ _ _ => trivial)

/-! ## Completion -/

omit hR in
/-- A completion is let through where nothing blocks it. -/
theorem evaluateCompletion_true {state : TaskState} {profile : TaskProfile}
    {reasons : List ReasonCode} {guard : Option GuardSignal}
    (he : evaluateCompletion state profile = .ok (true, reasons, guard)) :
    completionBlockers state profile = [] := by
  unfold evaluateCompletion at he
  dsimp only at he
  split at he
  · assumption
  · obtain ⟨_, -, he⟩ := Checked.bind_eq_ok_iff.mp he
    cases he

/-- From one world to the other, a task that met the gate still does. -/
def GateKept (E : Setting) (taskId : String) (w w' : World) : Prop :=
  (∀ c, w.store.cell taskId = some c → c.Met E) → ∀ c, w'.store.cell taskId = some c → c.Met E

/-- **A completion** commits only what meets the gate, where the gate is
kept from its first lookup of the task to its second. -/
theorem secure_complete {actor reason : String} {actorRole : ActorRole}
    (hW : ∀ (log : List Label) h h', R log h h' → log.count .getTask = 1 → GateKept E taskId h.now h'.now)
    (hE : ∀ state profile, completionBlockers state profile = [] → E.gate state profile) :
    Secure E R (complete E.hashing scope taskId actor actorRole reason) [] h
      fun _ _ _ => True := by
  unfold complete
  refine .bind (secure_requireTask hR) (fun log₁ row h₁ hk₁ _ hq => ?_) (fun _ _ _ _ _ => trivial)
  obtain ⟨h₀, -, rfl, rfl, hrow, -⟩ := hq
  obtain ⟨c, rfl, hc⟩ := hrow row rfl
  have hh : Held E (h₀.push h₀.now) taskId c := hk₁.held hc
  -- what the gate read allows is still there as long as the task is not looked up again
  have hF : Framed R fun log h => log.count .getTask = 1 ∧
      (c.Met E → ∀ c', h.now.store.cell taskId = some c' → c'.Met E) := by
    intro log h h' label ⟨hcount, hmet⟩ hr hne
    refine ⟨?_, fun hm => hW log h h' hr hcount (hmet hm)⟩
    rw [List.count_append, hcount, List.count_singleton, beq_eq_false_iff_ne.mpr hne]
    rfl
  have hf : ([] ++ [Label.getTask]).count Label.getTask = 1 ∧ (c.Met E → ∀ c',
      (h₀.push h₀.now).now.store.cell taskId = some c' → c'.Met E) :=
    ⟨rfl, fun hm c' hc' => by rwa [Option.some.inj (hc'.symm.trans hc)]⟩
  refine .bind (secure_view hR hF hf hh) (fun log₂ v h₂ _ _ hq => ?_) (fun _ _ _ _ _ => trivial)
  obtain ⟨⟨hcount, hmet⟩, _, ⟨⟩, hv⟩ := hq
  refine .bind (Q := fun log' r h' => log' = log₂ ∧ h' = h₂ ∧ ∀ verdict, r = .ok verdict →
      evaluateCompletion v.state v.profile = .ok verdict)
    (.lift (fun verdict hd => ⟨rfl, rfl, fun _ hr => by cases hr; exact hd⟩)
      (fun _ _ => ⟨rfl, rfl, fun _ hr => nomatch hr⟩))
    (fun log₃ verdict h₃ _ _ hq => ?_) (fun _ _ _ _ _ => trivial)
  obtain ⟨rfl, rfl, hverdict⟩ := hq
  obtain ⟨allowed, reasons, guard⟩ := verdict
  cases allowed with
  | true =>
    have hgate := hE _ _ (evaluateCompletion_true (hverdict _ rfl))
    have hm : c.Met E := fun base profile hbase hp => by
      obtain ⟨base', hbase', hstate⟩ := hv.head
      obtain rfl := Option.some.inj (hbase'.symm.trans hbase)
      obtain rfl := Option.some.inj (hv.profile.symm.trans hp)
      rwa [← hstate]
    have hexpiry : TaskLifecycle.completed ≠ .expired := fun ht => nomatch ht
    exact (secure_lifecycleVia hR (expires_expireIfDue hR)
      (fun _ h₀ hr => hW _ _ _ hr hcount (hmet hm)) fun ht => absurd ht hexpiry).mono
        fun _ _ _ _ _ => trivial
  | false => cases guard <;> exact .throw trivial

end Methods

/-! ## The discipline -/

/-- What a call asks of the others beside the invariant. -/
def window (E : Setting) : Call → List Label → World → World → Prop
  | .complete _ taskId _ _ _, log, w, w' => log.count .getTask = 1 → GateKept E taskId w w'
  | _, _, _, _ => True

/-- An answer is as secure as its method. -/
theorem secure_answer {α : Type} {f : α → Answer} {x : Svc α}
    (hx : Secure E R x log h fun _ _ _ => True) :
    Secure E R (answer f x) log h fun _ _ _ => True :=
  .bind hx (fun _ _ _ _ _ _ => .pure trivial) (fun _ _ _ _ _ => trivial)

/-- **Every call keeps the discipline.** -/
theorem secure_body {k : Call} (hk : k.keepsTasks)
    (hE : ∀ state profile, completionBlockers state profile = [] → E.gate state profile) :
    Secure E (fun log h h' => Kept E h' ∧ Evolves E h h' ∧ window E k log h.now h'.now)
      (k.body E.hashing) [] h fun _ _ _ => True := by
  have hR : Relies E fun log h h' => Kept E h' ∧ Evolves E h h' ∧ window E k log h.now h'.now :=
    fun _ _ _ hr => ⟨hr.1, hr.2.1⟩
  cases k with
  | start request items => exact secure_answer (secure_start hR)
  | submit proposal allowPrivileged stepKind => exact secure_answer (secure_submit hR)
  | correct proposal reason => exact secure_answer (secure_correct hR)
  | pause scope taskId actor actorRole reason =>
    exact secure_answer (secure_lifecycle hR (fun ht => nomatch ht) fun ht => nomatch ht)
  | resume scope taskId actor actorRole reason =>
    exact secure_answer (secure_lifecycle hR (fun ht => nomatch ht) fun ht => nomatch ht)
  | complete scope taskId actor actorRole reason =>
    exact secure_answer (secure_complete hR (fun _ _ _ hr => hr.2.2) hE)
  | cancel scope taskId actor actorRole reason => exact secure_answer (secure_cancel hR)
  | get scope taskId expiring => exact secure_answer (secure_get hR)
  | list scope lifecycles cursor limit expiring => exact secure_answer (secure_list hR)
  | evaluateExpiry scope taskId => exact secure_answer (secure_evaluateExpiry hR)
  | scanForExpiry limit => exact secure_answer (secure_scanForExpiry hR)
  | forget => exact absurd hk id

/-- The discipline of the service, for a gate that lets through whatever
nothing blocks. -/
def discipline (E : Setting)
    (hE : ∀ state profile, completionBlockers state profile = [] → E.gate state profile) :
    Discipline (Call.body E.hashing) Call.keepsTasks where
  Watch := Proc.Live
  watch_live _ hl := hl
  I := Kept E
  V := Evolves E
  W := window E
  G := Acts E
  Q _ _ _ h := Kept E h
  evolves_refl := .refl E
  evolves_trans := .trans
  window_refl k log w := by
    cases k <;> first | exact trivial | exact fun _ hm => hm
  window_trans {k log w₁ w₂ w₃} h₁₂ h₂₃ := by
    cases k <;> first | exact trivial | exact fun hc hm => h₂₃ hc (h₁₂ hc hm)
  keeps hk ha := hk.acts ha
  body_safe k hk h hI :=
    (secure_body hk hE hI).mono fun _ _ _ hq => hq.1

/-- Calls that run one after the other, from a fresh store. -/
theorem visits_runAll {H : Hashing} {allowed : Call → Prop} {w : World} (hw : Fresh w)
    {calls : List Call} (hcalls : ∀ k ∈ calls, allowed k) :
    ∃ c, Visits H allowed w c ∧ c.time.now = runAll (Call.body H) calls w := by
  obtain ⟨c, hr, hnow, -⟩ := reaches_runAll (Call.body H) (c := Config.initial w) hcalls
  exact ⟨c, ⟨hw, hr⟩, hnow⟩

/-! ## Runs with no gate -/

section Free

variable {H : Hashing} {w : World} {c c' : System}

/-- The setting of a run whose completions are let through as they are. -/
def World.free (w : World) (H : Hashing) : Setting := w.setting H fun _ _ => True

/-- Any step is allowed where nothing is guarded. -/
theorem window_free (k : Call) (log : List Label) (w₁ w₂ : World) :
    window (w.free H) k log w₁ w₂ := by
  cases k <;> first | exact trivial | exact fun _ _ _ _ _ _ _ _ => trivial

/-- **Every run keeps the discipline.** -/
theorem Visits.good (hv : Visits H Call.keepsTasks w c) :
    (discipline (w.free H) fun _ _ _ => trivial).Good c := by
  have hinitial := (discipline (w.free H) fun _ _ _ => trivial).good_initial (s := w)
    (hv.1.kept H _)
  exact (Discipline.good_reaches _ window_free hinitial hv.2).1

/-- Every state of a run is kept. -/
theorem Visits.kept (hv : Visits H Call.keepsTasks w c) : Kept (w.free H) c.time :=
  hv.good.1

/-- A run goes on. -/
theorem Visits.step (hv : Visits H Call.keepsTasks w c)
    (hs : Step (Call.body H) Call.keepsTasks c c') : Visits H Call.keepsTasks w c' :=
  ⟨hv.1, hv.2.tail hs⟩

/-- What one step does. -/
theorem Visits.acts (hv : Visits H Call.keepsTasks w c)
    (hs : Step (Call.body H) Call.keepsTasks c c') :
    c'.time = c.time ∨ Acts (w.free H) c.time c'.time.now :=
  Discipline.good_guarantee _ hv.good hs

/-- How the store evolves from one moment of a run to a later one. -/
theorem Visits.evolves (hv : Visits H Call.keepsTasks w c)
    (hr : Reaches (Call.body H) Call.keepsTasks c c') : Evolves (w.free H) c.time c'.time :=
  (Discipline.good_reaches _ window_free hv.good hr).2

/-- The row of a task, and its cell. -/
theorem Visits.cell (hv : Visits H Call.keepsTasks w c) {row : TaskRow}
    (hr : row ∈ c.time.now.store.tasks.rows) :
    ∃ cell, c.time.now.store.cell row.taskId = some cell ∧ cell.row = row ∧
      Grown (w.free H) c.time cell := by
  obtain ⟨cell, hc, hrow⟩ := cell_of_mem hr
  exact ⟨cell, hc, hrow, hv.kept.grown _ _ hc⟩

end Free

end Atmem
