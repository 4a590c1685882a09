import Atmem.Common.Paging
import Atmem.TaskState.Helpers.Retiring
import Atmem.TaskState.Properties.Listing
/-!
# What the expiry scan reaches

A scan looks at the oldest tasks that are not terminal, as many as its limit
allows, and retires those that are due. It starts over from the oldest each
time, so tasks that are never due keep their places in the window, and with as
many of them as the window holds nothing behind them is looked at again.
-/

namespace Atmem

open Paging Sweeping Transactional Relational Checked Interleaving

variable {H : Hashing} {s : Store} {w w' : World} {t : Instant} {limit : Int} {r : TaskRow}

/-! ## The window -/

/-- The tasks that are not terminal, oldest first. -/
def Store.liveTasks (s : Store) : List TaskRow := sortBy listingKey (s.tasks.rows.filter isLive)

/-- The live tasks, in the order of listings. -/
theorem ordered_liveTasks : Ordered listingKey s.liveTasks :=
  ordered_sortBy ((listingKey_distinct s).filter _)

/-- They are the rows that are live. -/
theorem mem_liveTasks : r ∈ s.liveTasks ↔ r ∈ s.tasks.rows ∧ isLive r = true := by
  rw [Store.liveTasks, mem_sortBy, List.mem_filter]

/-- How many tasks a scan looks at. -/
def windowSize (limit : Int) : ℕ := (max 1 (min limit 1000)).toNat

/-- The scan looks at the first of them. -/
theorem tasksDueForExpiryScan_eq :
    s.tasksDueForExpiryScan limit = s.liveTasks.take (windowSize limit) := by
  have hle : Store.listingLe = fun a b => decide (listingKey a ≤ listingKey b) :=
    funext fun a => funext fun b => listingLe_eq a b
  rw [Store.tasksDueForExpiryScan, hle]
  rfl

/-- Counting them is counting rows. -/
theorem countP_liveTasks (p : TaskRow → Bool) :
    s.liveTasks.countP p = s.tasks.rows.countP fun r => isLive r && p r := by
  have hperm : s.liveTasks.Perm (s.tasks.rows.filter isLive) := List.mergeSort_perm ..
  rw [hperm.countP_eq, List.countP_filter]
  simp only [Bool.and_comm]

/-- No two tasks share an identifier. -/
theorem eq_of_taskId {a b : TaskRow} (ha : a ∈ s.tasks.rows) (hb : b ∈ s.tasks.rows)
    (hid : a.taskId = b.taskId) : a = b :=
  Table.eq_of_id_eq taskClash_of_taskId ha hb hid

/-- The rows of the window are tasks that stand there. -/
theorem Still.window (h : Still t w) (limit : Int) :
    Standing t w (w.store.liveTasks.take (windowSize limit)) where
  toStill := h
  there r hr := (mem_liveTasks.mp (List.mem_of_mem_take hr)).1
  live r hr := (mem_liveTasks.mp (List.mem_of_mem_take hr)).2
  apart := by
    refine ((ordered_liveTasks (s := w.store)).sublist (List.take_sublist ..)).imp_of_mem ?_
    intro a b ha hb hlt hid
    rw [eq_of_taskId (mem_liveTasks.mp (List.mem_of_mem_take ha)).1
      (mem_liveTasks.mp (List.mem_of_mem_take hb)).1 hid] at hlt
    exact lt_irrefl _ hlt

/-- **A scan sweeps the window**: of the tasks that are not terminal, those it
has retired are gone, and the rest are as they were. -/
theorem liveTasks_swept
    (h : Swept ((w.store.liveTasks.take (windowSize limit)).filter (isDue t)) w w') :
    w'.store.liveTasks = sweep (isDue t) (windowSize limit) w.store.liveTasks := by
  have hordered : Ordered listingKey w.store.liveTasks := ordered_liveTasks
  have hsub : (sweep (isDue t) (windowSize limit) w.store.liveTasks).Sublist w.store.liveTasks := by
    conv_rhs => rw [← List.take_append_drop (windowSize limit) w.store.liveTasks]
    exact List.filter_sublist.append (List.Sublist.refl _)
  have hgone : ∀ {a : TaskRow},
      a ∈ (w.store.liveTasks.take (windowSize limit)).filter (isDue t) →
        a ∈ w.store.tasks.rows ∧ isLive a = true := fun ha =>
    mem_liveTasks.mp (List.mem_of_mem_take (List.mem_filter.mp ha).1)
  refine Ordered.eq_of_mem_iff ordered_liveTasks (hordered.sublist hsub) fun r => ?_
  rw [mem_liveTasks]
  constructor
  · rintro ⟨hr, hlive⟩
    obtain ⟨revisions, hc⟩ := exists_cell_of_mem hr
    have hapart : ∀ a ∈ (w.store.liveTasks.take (windowSize limit)).filter (isDue t),
        a.taskId ≠ r.taskId := fun a ha heq => by
      obtain ⟨c, hc', hlife⟩ := h.expired a ha
      rw [heq, hc] at hc'
      obtain rfl := Option.some.inj hc'
      rw [isLive_iff, hlife] at hlive
      cases hlive
    have hbefore : r ∈ w.store.tasks.rows := mem_of_cell_eq (h.others r.taskId hapart).symm hr
    have hmem : r ∈ w.store.liveTasks := mem_liveTasks.mpr ⟨hbefore, hlive⟩
    rw [← List.take_append_drop (windowSize limit) w.store.liveTasks] at hmem
    -- in the window and not due, or behind it
    rcases List.mem_append.mp hmem with hin | hout
    · refine List.mem_append_left _ (List.mem_filter.mpr ⟨hin, ?_⟩)
      rw [Bool.not_eq_true']
      exact Bool.eq_false_iff.mpr fun hdue => hapart r (List.mem_filter.mpr ⟨hin, hdue⟩) rfl
    · exact List.mem_append_right _ hout
  · intro hr
    obtain ⟨hbefore, hlive⟩ := mem_liveTasks.mp (hsub.subset hr)
    refine ⟨mem_of_cell_eq (h.others r.taskId fun a ha heq => ?_) hbefore, hlive⟩
    obtain rfl := eq_of_taskId (hgone ha).1 hbefore heq
    obtain ⟨hin, hdue⟩ := List.mem_filter.mp ha
    rcases List.mem_append.mp hr with hr | hr
    · simpa [hdue] using (List.mem_filter.mp hr).2
    · rw [← List.take_append_drop (windowSize limit) w.store.liveTasks] at hordered
      exact lt_irrefl _ ((List.pairwise_append.mp hordered).2.2 a hin a hr)

/-! ## A scan -/

/-- **A scan answers with what it has retired**, where it can. -/
theorem exec_scan (hstill : Still t w)
    (hret : ∀ r ∈ w.store.liveTasks.take (windowSize limit), isDue t r = true →
      Retirable w.store r) :
    ∃ w', (scanForExpiry H limit).exec w =
        (.ok (((w.store.liveTasks.take (windowSize limit)).filter (isDue t)).map (·.taskId), t),
          w') ∧
      Swept ((w.store.liveTasks.take (windowSize limit)).filter (isDue t)) w w' := by
  obtain ⟨w', hexec, hswept⟩ := exec_expireAll (H := H) (hstill.window limit) hret
  have hquery : (query .tasksDueForExpiryScan (·.tasksDueForExpiryScan limit)).exec w =
      (.ok (w.store.liveTasks.take (windowSize limit)), w) :=
    congrArg (fun rows => (Except.ok rows, w)) tasksDueForExpiryScan_eq
  have hnow : w'.clock w'.ticks = t := by
    rw [hswept.clock]
    exact hstill.clock _ hswept.ticks
  refine ⟨w'.ticked, ?_, hswept.clock, hswept.ticks.trans (Nat.le_succ _), hswept.expired,
    hswept.others, hswept.profiles⟩
  unfold scanForExpiry
  rw [Eff.exec_bind_ok hquery, Eff.exec_bind_ok hexec, Eff.exec_bind_ok exec_now, hnow]
  rfl

/-- And raises where it cannot. -/
theorem exec_scan_blocked (hstill : Still t w)
    (hblocked : ∃ r ∈ w.store.liveTasks.take (windowSize limit), isDue t r = true ∧
      ¬ Retirable w.store r) : ∃ e w', (scanForExpiry H limit).exec w = (.error e, w') := by
  obtain ⟨e, w', hexec⟩ := exec_expireAll_blocked (H := H) (hstill.window limit) hblocked
  have hquery : (query .tasksDueForExpiryScan (·.tasksDueForExpiryScan limit)).exec w =
      (.ok (w.store.liveTasks.take (windowSize limit)), w) :=
    congrArg (fun rows => (Except.ok rows, w)) tasksDueForExpiryScan_eq
  refine ⟨e, w', ?_⟩
  unfold scanForExpiry
  rw [Eff.exec_bind_ok hquery, Eff.exec_bind_error hexec]

/-- A scan leaves the clock still. -/
theorem Still.scan (hstill : Still t w)
    (hswept : Swept ((w.store.liveTasks.take (windowSize limit)).filter (isDue t)) w w')
    (hexec : ((scanForExpiry H limit).exec w).2 = w') : Still t w' where
  clock n hn := by
    rw [hswept.clock]
    exact hstill.clock n (hswept.ticks.trans hn)
  scopes := hexec ▸ exec_touches (P := KeepsScoped) touches_scanForExpiry w hstill.scopes
  numbers := hexec ▸ exec_touches (P := KeepsNumbered) touches_scanForExpiry w hstill.numbers

/-! ## Scan after scan -/

/-- **Scanning until a scan expires nothing.** -/
inductive Scans (H : Hashing) (limit : Int) : World → World → Prop
  /-- The last scan expires nothing. -/
  | done {w w' : World} {scannedAt : Instant} :
      (scanForExpiry H limit).exec w = (.ok ([], scannedAt), w') → Scans H limit w w'
  /-- Any other is followed by a scan. -/
  | again {w w₁ w' : World} {expired : List String} {scannedAt : Instant} :
      (scanForExpiry H limit).exec w = (.ok (expired, scannedAt), w₁) → expired ≠ [] →
      Scans H limit w₁ w' → Scans H limit w w'

/-- No task that is not terminal is due. -/
def NoneDue (t : Instant) (s : Store) : Prop :=
  ∀ r ∈ s.tasks.rows, r.lifecycle.terminal = false → (expiryStatusAt r t).dueReason = none

/-- Nothing is due exactly if no live task is. -/
theorem noneDue_iff : NoneDue t s ↔ ∀ r ∈ s.liveTasks, isDue t r = false := by
  simp only [NoneDue, mem_liveTasks, isLive_iff, isDue, Option.isSome_eq_false_iff,
    Option.isNone_iff_eq_none, and_imp]

/-- What is behind the window is not swept. -/
theorem Swept.retirable_behind
    (h : Swept ((w.store.liveTasks.take (windowSize limit)).filter (isDue t)) w w')
    (hr : r ∈ w.store.liveTasks.drop (windowSize limit)) :
    Retirable w'.store r ↔ Retirable w.store r := by
  have hthere := (mem_liveTasks.mp (List.mem_of_mem_drop hr)).1
  refine h.retirable_iff hthere fun a ha hid => ?_
  have hin := (List.mem_filter.mp ha).1
  obtain rfl := eq_of_taskId (mem_liveTasks.mp (List.mem_of_mem_take hin)).1 hthere hid
  have hordered : Ordered listingKey w.store.liveTasks := ordered_liveTasks
  rw [← List.take_append_drop (windowSize limit) w.store.liveTasks] at hordered
  exact lt_irrefl _ ((List.pairwise_append.mp hordered).2.2 a hin a hr)

/-- A scan that was answered could retire what was due in its window. -/
theorem retirable_of_scan (hstill : Still t w) {expired : List String} {scannedAt : Instant}
    (hexec : (scanForExpiry H limit).exec w = (.ok (expired, scannedAt), w')) :
    ∀ r ∈ w.store.liveTasks.take (windowSize limit), isDue t r = true → Retirable w.store r := by
  intro r hr hdue
  by_contra hstuck
  obtain ⟨e, w₁, hraises⟩ := exec_scan_blocked (H := H) hstill ⟨r, hr, hdue, hstuck⟩
  rw [hexec] at hraises
  cases hraises

/-- **What the scans retire was in reach.** By induction on the scans: a scan
changes nothing about what is. -/
theorem reached_of_scans (hs : Scans H limit w w') (hstill : Still t w)
    (hnone : NoneDue t w'.store) :
    Reaches (isDue t) (windowSize limit) w.store.liveTasks ∧
      ∀ r ∈ w.store.liveTasks, isDue t r = true → Retirable w.store r := by
  induction hs with
  | @done w w' scannedAt hexec =>
    have hret := retirable_of_scan hstill hexec
    obtain ⟨w₁, hscan, hswept⟩ := exec_scan (H := H) hstill hret
    rw [hexec] at hscan
    obtain ⟨hanswer, rfl⟩ := Prod.mk.inj hscan
    have hnil := List.map_eq_nil_iff.mp (Prod.mk.inj (Except.ok.inj hanswer)).1.symm
    -- nothing is due in the window of the last scan
    have hclear : ∀ r ∈ w.store.liveTasks.take (windowSize limit), isDue t r = false :=
      fun r hr => Bool.eq_false_iff.mpr (List.filter_eq_nil_iff.mp hnil r hr)
    have hall : ∀ r ∈ w.store.liveTasks, isDue t r = false := by
      intro r hr
      rw [← List.take_append_drop (windowSize limit) w.store.liveTasks] at hr
      rcases List.mem_append.mp hr with hr | hr
      · exact hclear r hr
      · rw [noneDue_iff, liveTasks_swept hswept] at hnone
        exact hnone r (List.mem_append_right _ hr)
    refine ⟨(reaches_of_clear hclear).mpr hall, fun r hr hdue => ?_⟩
    rw [hall r hr] at hdue
    cases hdue
  | @again w w₁ w' expired scannedAt hexec _ _ ih =>
    have hret := retirable_of_scan hstill hexec
    obtain ⟨w₂, hscan, hswept⟩ := exec_scan (H := H) hstill hret
    rw [hexec] at hscan
    obtain ⟨-, rfl⟩ := Prod.mk.inj hscan
    obtain ⟨hreaches, hrest⟩ := ih (hstill.scan hswept (congrArg Prod.snd hexec)) hnone
    -- a scan moves its window on, which keeps what is in reach
    rw [liveTasks_swept hswept, reaches_sweep (Nat.le_refl _)] at hreaches
    refine ⟨hreaches, fun r hr hdue => ?_⟩
    rw [← List.take_append_drop (windowSize limit) w.store.liveTasks] at hr
    rcases List.mem_append.mp hr with hr | hr
    · exact hret r hr hdue
    · refine (hswept.retirable_behind hr).mp (hrest r ?_ hdue)
      rw [liveTasks_swept hswept]
      exact List.mem_append_right _ hr

/-- **What is in reach is retired**: each scan that retires something leaves
less to do. -/
theorem scans_of_reached (H : Hashing) (hstill : Still t w)
    (hreaches : Reaches (isDue t) (windowSize limit) w.store.liveTasks)
    (hret : ∀ r ∈ w.store.liveTasks, isDue t r = true → Retirable w.store r) :
    ∃ w', Scans H limit w w' ∧ NoneDue t w'.store := by
  induction hn : w.store.liveTasks.countP (isDue t) using Nat.strong_induction_on
    generalizing w with
  | _ n ih =>
    obtain ⟨w', hexec, hswept⟩ := exec_scan (H := H) hstill
      fun r hr => hret r (List.mem_of_mem_take hr)
    -- either the scan retired nothing, or fewer tasks are due
    rcases hgone : (w.store.liveTasks.take (windowSize limit)).filter (isDue t) with - | ⟨r, rest⟩
    · refine ⟨w', .done (?_ : (scanForExpiry H limit).exec w = (.ok ([], t), w')), ?_⟩
      · rw [hexec, hgone]
        rfl
      · have hclear : ∀ r ∈ w.store.liveTasks.take (windowSize limit), isDue t r = false :=
          fun r hr => Bool.eq_false_iff.mpr (List.filter_eq_nil_iff.mp hgone r hr)
        have hall := (reaches_of_clear hclear).mp hreaches
        rw [noneDue_iff, liveTasks_swept hswept]
        intro r hr
        rcases List.mem_append.mp hr with hr | hr
        · exact hclear r (List.mem_filter.mp hr).1
        · exact hall r (List.mem_of_mem_drop hr)
    · have hfirst : r ∈ (w.store.liveTasks.take (windowSize limit)).filter (isDue t) := by
        rw [hgone]
        exact List.mem_cons_self
      obtain ⟨hin, hdue⟩ := List.mem_filter.mp hfirst
      have hlive := liveTasks_swept hswept
      -- by induction on the number of tasks that are due
      obtain ⟨w'', hscans, hnone⟩ := ih (w'.store.liveTasks.countP (isDue t))
        (by rw [hlive, ← hn]; exact countP_sweep_lt hin hdue)
        (hstill.scan hswept (congrArg Prod.snd hexec))
        (by rw [hlive, reaches_sweep (Nat.le_refl _)]; exact hreaches)
        (fun r hr hdue => by
          rw [hlive] at hr
          rcases List.mem_append.mp hr with hr | hr
          · simpa [hdue] using (List.mem_filter.mp hr).2
          · exact (hswept.retirable_behind hr).mpr (hret r (List.mem_of_mem_drop hr) hdue)) rfl
      exact ⟨w'', .again hexec (by rw [hgone]; simp) hscans, hnone⟩

/-! ## What is in reach -/

/-- Fewer tasks that are not terminal and not due come before the task than a
scan looks at. -/
def InReach (s : Store) (t : Instant) (limit : Int) (r : TaskRow) : Prop :=
  (s.tasks.rows.countP fun before => isLive before && !isDue t before &&
    decide (listingKey before < listingKey r)) < windowSize limit

/-- A scan reaches every task that is due. -/
theorem reaches_liveTasks_iff :
    Reaches (isDue t) (windowSize limit) s.liveTasks ↔
      ∀ r ∈ s.liveTasks, isDue t r = true → InReach s t limit r := by
  rw [reaches_iff_countP ordered_liveTasks]
  simp only [countP_liveTasks, InReach, Bool.and_assoc]

/-- The clock stands still from here on. -/
theorem still_of_visits {allowed : Call → Prop} {w₀ : World} {c : System}
    (hv : Visits H allowed w₀ c)
    (hclock : ∀ n, c.time.now.ticks ≤ n → c.time.now.clock n = t) : Still t c.time.now :=
  ⟨hclock, scoped_of_visits hv, numbered_of_visits hv⟩

/-- **Which tasks the scans reach.** From a store that any calls have left, at
any instant, scanning until a scan expires nothing leaves no task due that is
not terminal if and only if each that is due is in reach of the window and can
be retired. -/
theorem expiry_scan_reaches_iff {allowed : Call → Prop} {w₀ : World} {c : System}
    (hv : Visits H allowed w₀ c) {t : Instant}
    (hclock : ∀ n, c.time.now.ticks ≤ n → c.time.now.clock n = t) (limit : Int) :
    (∃ w', Scans H limit c.time.now w' ∧ NoneDue t w'.store) ↔
      ∀ r ∈ c.time.now.store.tasks.rows, isLive r = true → isDue t r = true →
        InReach c.time.now.store t limit r ∧ Retirable c.time.now.store r := by
  have hstill := still_of_visits hv hclock
  constructor
  · rintro ⟨w', hscans, hnone⟩ r hr hlive hdue
    obtain ⟨hreaches, hret⟩ := reached_of_scans hscans hstill hnone
    have hmem := mem_liveTasks.mpr ⟨hr, hlive⟩
    exact ⟨reaches_liveTasks_iff.mp hreaches r hmem hdue, hret r hmem hdue⟩
  · intro h
    refine scans_of_reached H hstill (reaches_liveTasks_iff.mpr fun r hr hdue => ?_)
      fun r hr hdue => ?_
    · exact (h r (mem_liveTasks.mp hr).1 (mem_liveTasks.mp hr).2 hdue).1
    · exact (h r (mem_liveTasks.mp hr).1 (mem_liveTasks.mp hr).2 hdue).2

/-! ## A task behind one that is never due -/

/-- A profile whose tasks expire a second after they were started. -/
def agingV1 : TaskProfile :=
  ⟨{ generalV1Fields with
      version := "aging-v1", expiry := ⟨{ maxAbsoluteAgeMs := some 1000 }, by decide +kernel⟩ },
    by decide +kernel⟩

/-- A store that knows the profile, and a clock that is read at zero, at one
second, and at ten seconds ever after. -/
def agingWorld : World where
  store := { profiles := [⟨"d", agingV1, "a", 0⟩] }
  clock n := if n < 2 then n * 1000000 else 10000000

theorem fresh_agingWorld : Fresh agingWorld := ⟨rfl, rfl, rfl, rfl, rfl⟩

/-- A task is started under the profile that ages. -/
def agingStart : TaskStartRequest :=
  ⟨{ exampleStart.val with taskId := "u", profileVersion := "aging-v1", idempotencyKey := "l" },
    by decide +kernel⟩

/-- A task of the built-in profile, and then one that expires. -/
def agingRun : World :=
  runAll (Call.body itemHashing) [.start exampleStart [], .start agingStart []] agingWorld

/-- The example is a run. -/
theorem exists_agingRun : ∃ c, Visits itemHashing (fun _ => True) agingWorld c ∧
    c.time.now = agingRun ∧ ∀ n, c.time.now.ticks ≤ n → c.time.now.clock n = 10000000 := by
  have hcalls : ∀ k ∈ [Call.start exampleStart [], .start agingStart []], True :=
    fun _ _ => trivial
  obtain ⟨c, hv, hnow⟩ := visits_runAll (H := itemHashing) fresh_agingWorld hcalls
  refine ⟨c, hv, hnow, fun n hn => ?_⟩
  have hticks : agingRun.ticks = 2 := by decide +kernel
  rw [show c.time.now = agingRun from hnow, hticks] at hn
  rw [show c.time.now = agingRun from hnow]
  exact if_neg (Nat.not_lt.mpr hn)

/-- The one that expires is due, and behind the other. -/
theorem due_agingRun : ∃ r ∈ agingRun.store.tasks.rows, isLive r = true ∧
    isDue 10000000 r = true ∧ ¬ InReach agingRun.store 10000000 1 r := by
  unfold InReach
  decide +kernel

/-- The law, where a scan looks at two tasks. -/
theorem expiry_scan_reaches_two :
    ∃ c, Visits itemHashing (fun _ => True) agingWorld c ∧
      ∃ w', Scans itemHashing 2 c.time.now w' ∧ NoneDue 10000000 w'.store := by
  obtain ⟨c, hv, hnow, hclock⟩ := exists_agingRun
  refine ⟨c, hv, (expiry_scan_reaches_iff hv hclock 2).mpr fun r hr _ _ => ?_⟩
  rw [hnow] at hr ⊢
  have hhead : ∀ r ∈ agingRun.store.tasks.rows,
      (agingRun.store.getTaskRevision r.taskId r.headRevision).isSome = true := by decide +kernel
  have hprofile : ∀ r ∈ agingRun.store.tasks.rows,
      (agingRun.store.profileOf r.profileVersion).isSome = true := by decide +kernel
  refine ⟨?_, Option.isSome_iff_exists.mp (hhead r hr), Option.isSome_iff_exists.mp (hprofile r hr),
    ?_⟩
  · revert r
    unfold InReach
    decide +kernel
  · revert r
    decide +kernel

/-- **A task behind one that is never due is never reached** by scans that look
at one. -/
theorem expiry_scan_misses :
    ¬ ∀ (H : Hashing) (w₀ : World) (c : System) (t : Instant) (limit : Int),
      Visits H (fun _ => True) w₀ c →
      (∀ n, c.time.now.ticks ≤ n → c.time.now.clock n = t) → 1 ≤ limit →
      ∃ w', Scans H limit c.time.now w' ∧ NoneDue t w'.store := by
  intro h
  obtain ⟨c, hv, hnow, hclock⟩ := exists_agingRun
  obtain ⟨w', hscans, hnone⟩ := h itemHashing agingWorld c 10000000 1 hv hclock (by decide)
  obtain ⟨hreaches, -⟩ := reached_of_scans hscans (still_of_visits hv hclock) hnone
  obtain ⟨r, hr, hlive, hdue, hout⟩ := due_agingRun
  rw [hnow] at hreaches
  exact hout (reaches_liveTasks_iff.mp hreaches r (mem_liveTasks.mpr ⟨hr, hlive⟩) hdue)

end Atmem
