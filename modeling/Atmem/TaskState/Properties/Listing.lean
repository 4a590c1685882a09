import Atmem.Common.Paging
import Atmem.TaskState.Helpers.Alone
import Atmem.TaskState.Helpers.Ownership
import Atmem.Core.IsoTime
import Atmem.TaskState.Properties.Isolation
import Mathlib.Data.String.Basic
/-!
# What a listing shows, page after page

A page is cut from the tasks in listing order, behind its cursor, and its own
cursor is its last task. `list` gives one where the page is as long as it was
asked to be; but the store cuts the limit to what it allows, so a limit outside
those bounds ends the listing at its first page.
-/

namespace Atmem

open Paging Interleaving Checked

variable {H : Hashing} {w w' : World} {s : Store} {rows : List TaskRow}
variable {scope : Option AuthorityScope} {lifecycles : Option (List String)}
variable {cursor : Option String} {limit : Int} {expiring : Bool}

/-! ## The cursor -/

/-- No instant is written with a bar. -/
theorem bar_not_mem_toIso (t : Instant) : '|' ∉ (toIso t).toList := by
  have hpadded (width n : ℕ) : '|' ∉ (padded width n).toList := fun hc =>
    absurd (isDigit_of_mem_padded hc) (by decide)
  have hmicros : '|' ∉ (if t % 1000000 = 0 then "" else "." ++ padded 6 (t % 1000000)).toList := by
    split
    · decide
    · simp only [String.toList_append, List.mem_append, hpadded, or_false]
      decide
  unfold toIso
  simp only [String.toList_append, List.mem_append, hpadded, hmicros, or_false]
  decide

/-- A row's place in the listing. -/
def listingKey (r : TaskRow) : String ×ₗ String := toLex (toIso r.createdAtUtc, r.taskId)

/-- The cursor behind a row. -/
def listingCursor (r : TaskRow) : String := toIso r.createdAtUtc ++ "|" ++ r.taskId

/-- A cursor is read as it was written. -/
theorem splitCursor_listingCursor (r : TaskRow) :
    Store.splitCursor (listingCursor r) = (toIso r.createdAtUtc, r.taskId) := by
  have hbar : ∀ c ∈ (toIso r.createdAtUtc).toList, decide (c ≠ '|') = true := fun c hc =>
    decide_eq_true fun heq => bar_not_mem_toIso _ (heq ▸ hc)
  have hlist : (listingCursor r).toList =
      (toIso r.createdAtUtc).toList ++ '|' :: r.taskId.toList := by
    simp [listingCursor, String.toList_append]
  rw [Store.splitCursor, hlist, List.takeWhile_append_of_pos hbar, List.dropWhile_append_of_pos hbar,
    List.takeWhile_cons_of_neg (by decide), List.dropWhile_cons_of_neg (by decide), List.append_nil,
    List.drop_one, List.tail_cons, String.ofList_toList, String.ofList_toList]

/-- Behind a cursor come the rows behind its row. -/
theorem afterCursor_listingCursor (last r : TaskRow) :
    Store.afterCursor (listingCursor last) r = decide (listingKey last < listingKey r) := by
  rw [Store.afterCursor, splitCursor_listingCursor, Bool.eq_iff_iff]
  simp [listingKey, Prod.Lex.toLex_lt_toLex]

theorem truthy_listingCursor (r : TaskRow) : truthy (some (listingCursor r)) = true := by
  have hne : listingCursor r ≠ "" := by
    intro hempty
    have hbar : '|' ∈ (listingCursor r).toList := by
      simp [listingCursor, String.toList_append]
    rw [hempty] at hbar
    cases hbar
  rw [truthy, Option.any_some]
  exact decide_eq_true hne

/-- The order of a listing is that of its keys. -/
theorem listingLe_eq (a b : TaskRow) :
    Store.listingLe a b = decide (listingKey a ≤ listingKey b) := by
  rw [Store.listingLe, Bool.eq_iff_iff]
  simp [listingKey, Prod.Lex.toLex_le_toLex]

/-! ## A page -/

/-- The rows a listing asks for. -/
def asked (scope : Option AuthorityScope) (lifecycles : Option (List String)) (r : TaskRow) : Bool :=
  (scope.all fun scope => r.subjectId = scope.val.subjectId && r.agentId = scope.val.agentId &&
    r.workspaceId = scope.val.workspaceId) &&
  lifecycles.all fun values => values.isEmpty || value r.lifecycle ∈ values

/-- All of them, in listing order. -/
def Store.listing (s : Store) (scope : Option AuthorityScope) (lifecycles : Option (List String)) :
    List TaskRow :=
  sortBy listingKey (s.tasks.rows.filter (asked scope lifecycles))

/-- No two tasks have one key. -/
theorem listingKey_distinct (s : Store) :
    s.tasks.rows.Pairwise fun a b => listingKey a ≠ listingKey b := by
  refine s.tasks.distinct.imp fun {a b} hclash heq => ?_
  have hid : a.taskId = b.taskId := congrArg (fun k => (ofLex k).2) heq
  simp [taskClash, TaskRow.key, hid] at hclash

/-- A listing is in order. -/
theorem ordered_listing : Ordered listingKey (s.listing scope lifecycles) :=
  ordered_sortBy ((listingKey_distinct s).filter _)

/-- It has the tasks that were asked for. -/
theorem length_listing : (s.listing scope lifecycles).length =
    s.tasks.rows.countP (asked scope lifecycles) := by
  rw [Store.listing, length_sortBy, List.countP_eq_length_filter]

/-- And no others. -/
theorem mem_listing {r : TaskRow} :
    r ∈ s.listing scope lifecycles ↔ r ∈ s.tasks.rows ∧ asked scope lifecycles r = true := by
  rw [Store.listing, mem_sortBy, List.mem_filter]

/-- The most rows a page may have. -/
def pageSize (limit : Int) : ℕ := (max 1 (min limit 500)).toNat

/-- A page is cut from the listing, behind the cursor. -/
theorem listTasks_eq : s.listTasks scope lifecycles cursor limit =
    ((s.listing scope lifecycles).filter fun r =>
      !truthy cursor || cursor.all fun c => Store.afterCursor c r).take (pageSize limit) := by
  have hle : Store.listingLe = fun a b => decide (listingKey a ≤ listingKey b) :=
    funext fun a => funext fun b => listingLe_eq a b
  rw [Store.listing, ← sortBy_filter ((listingKey_distinct s).filter _), List.filter_filter,
    Store.listTasks, hle]
  simp only [asked, Bool.and_comm]
  rfl

/-- A page behind the rows that were shown is the front of the rest. -/
theorem listTasks_rest {shown rest : List TaskRow} {last : TaskRow}
    (hlisting : s.listing scope lifecycles = shown ++ rest) (hlast : shown.getLast? = some last) :
    s.listTasks scope lifecycles (some (listingCursor last)) limit = rest.take (pageSize limit) := by
  have hordered : Ordered listingKey (s.listing scope lifecycles) := ordered_listing
  rw [hlisting] at hordered
  rw [listTasks_eq, hlisting]
  simp only [truthy_listingCursor, Bool.not_true, Bool.false_or, Option.all_some,
    afterCursor_listingCursor]
  rw [Paging.filter_after hordered hlast]

/-- Without a cursor it starts at the first. -/
theorem listTasks_none :
    s.listTasks scope lifecycles none limit = (s.listing scope lifecycles).take (pageSize limit) := by
  rw [listTasks_eq]
  simp

/-! ## A call of `list` -/

/-- None of the rows is due, at a reading of the clock that is made while they
are gone through. -/
def Undue (rows : List TaskRow) (w : World) : Prop :=
  ∀ r ∈ rows, r.lifecycle.terminal = false → ∀ n, w.ticks ≤ n → n < w.ticks + rows.length →
    (expiryStatusAt r (w.clock n)).dueReason = none

/-- A task of no greatest age is never due. -/
theorem undue_of_ageless (h : ∀ r ∈ rows, r.expiryRule.val.maxAbsoluteAgeMs = none ∧
    r.expiryRule.val.maxNoProgressAgeMs = none) : Undue rows w := by
  intro r hr _ n _ _
  obtain ⟨habsolute, hprogress⟩ := h r hr
  simp [expiryStatusAt, habsolute, hprogress]

/-- Nothing has changed but for some readings of the clock. -/
structure Looked (w w' : World) (n : ℕ) : Prop where
  store : w'.store = w.store
  clock : w'.clock = w.clock
  before : w.ticks ≤ w'.ticks
  within : w'.ticks ≤ w.ticks + n

theorem Looked.refl (w : World) (n : ℕ) : Looked w w n := ⟨rfl, rfl, Nat.le_refl _, Nat.le_add_right _ _⟩

/-- Rows that are left are not due while they are gone through. -/
theorem Undue.after {rest : List TaskRow} {n : ℕ} (h : Undue rows w) (hl : Looked w w' n)
    (hrest : ∀ r ∈ rest, r ∈ rows) (hn : n + rest.length ≤ rows.length) : Undue rest w' := by
  intro r hr hlive m hm hm'
  rw [hl.clock]
  have hbefore := hl.before
  have hwithin := hl.within
  exact h r (hrest r hr) hlive m (by omega) (by omega)

/-- What a page is answered with. -/
def pageOf (rows : List TaskRow) (limit : Int) : Except Raised TaskListing :=
  if (rows.length : Int) = limit then
    match rows.getLast? with
    | some row => .ok ⟨some (listingCursor row), rows⟩
    | none => .error .indexError
  else .ok ⟨none, rows⟩

/-- Where nothing is due, refreshing only looks. -/
theorem exec_refreshAll_undue (hscoped : ∀ r ∈ rows, r.scopeFields.postInit = .ok ())
    (hundue : Undue rows w) :
    ∃ w', (refreshAll H rows).exec w = (.ok rows, w') ∧ Looked w w' rows.length := by
  induction rows generalizing w with
  | nil => exact ⟨w, rfl, .refl w _⟩
  | cons found rows ih =>
    have hfound : ∃ w', (if found.lifecycle.terminal then pure found
        else do
          let scope ← scopeOf found
          refresh (expireIfDue H) scope found : Svc TaskRow).exec w = (.ok found, w') ∧
        Looked w w' 1 := by
      -- a retired task is skipped; a live one is looked at, and not due
      by_cases hlive : found.lifecycle.terminal = true
      · rw [if_pos hlive]
        exact ⟨w, rfl, .refl w 1⟩
      · rw [if_neg hlive]
        have hdue := hundue found List.mem_cons_self (Bool.eq_false_iff.mpr hlive) w.ticks
          (Nat.le_refl _) (Nat.lt_add_of_pos_right (Nat.succ_pos _))
        refine ⟨w.ticked, ?_, rfl, rfl, Nat.le_succ _, Nat.le_refl _⟩
        rw [Eff.exec_bind_ok (exec_scopeOf (hscoped found List.mem_cons_self)), refresh, Eff.exec_bind_ok (exec_expireIfDue_live hdue)]
        rfl
    obtain ⟨w₁, hexec, hlooked⟩ := hfound
    obtain ⟨w₂, hrest, hlooked'⟩ := ih (w := w₁)
      (fun r hr => hscoped r (List.mem_cons_of_mem _ hr))
      (hundue.after hlooked (fun r hr => List.mem_cons_of_mem _ hr)
        (by rw [List.length_cons, Nat.add_comm]))
    refine ⟨w₂, ?_, hlooked'.store.trans hlooked.store, hlooked'.clock.trans hlooked.clock,
      hlooked.before.trans hlooked'.before, ?_⟩
    rotate_left
    · have hwithin := hlooked.within
      have hwithin' := hlooked'.within
      rw [List.length_cons]
      omega
    unfold refreshAll
    rw [Eff.exec_bind_ok hexec, Eff.exec_bind_ok hrest, Eff.exec_pure]

/-- **A call of `list` answers with its page** and changes nothing, where no
task is due. -/
theorem exec_list (H : Hashing) (scope : Option AuthorityScope) (lifecycles : Option (List String))
    (cursor : Option String) (limit : Int) (hscoped : Scoped w.store)
    (hundue : expiring = true → Undue (w.store.listTasks scope lifecycles cursor limit) w) :
    ∃ w', (TaskStateService.list H scope lifecycles cursor limit expiring).exec w =
        (pageOf (w.store.listTasks scope lifecycles cursor limit) limit, w') ∧
      Looked w w' (w.store.listTasks scope lifecycles cursor limit).length := by
  have hmem : ∀ r ∈ w.store.listTasks scope lifecycles cursor limit, r ∈ w.store.tasks.rows :=
    fun r hr => (List.mem_filter.mp (List.mem_mergeSort.mp (List.mem_of_mem_take hr))).1
  have hrows : ∃ w', (if expiring then
      refreshAll H (w.store.listTasks scope lifecycles cursor limit)
        else pure (w.store.listTasks scope lifecycles cursor limit) : Svc (List TaskRow)).exec w =
        (.ok (w.store.listTasks scope lifecycles cursor limit), w') ∧
      Looked w w' (w.store.listTasks scope lifecycles cursor limit).length := by
    rcases expiring with - | -
    · exact ⟨w, rfl, .refl w _⟩
    · exact exec_refreshAll_undue (fun r hr => hscoped r (hmem r hr)) (hundue rfl)
  obtain ⟨w', hexec, hlooked⟩ := hrows
  refine ⟨w', ?_, hlooked⟩
  have hquery : (query .listTasks fun s => s.listTasks scope lifecycles cursor limit).exec w =
      (.ok (w.store.listTasks scope lifecycles cursor limit), w) := rfl
  unfold TaskStateService.list
  rw [Eff.exec_bind_ok hquery, Eff.exec_bind_ok hexec]
  unfold nextCursor pageOf
  split
  · rcases (w.store.listTasks scope lifecycles cursor limit).getLast? with - | row <;> rfl
  · rfl

/-! ## Page after page -/

/-- **Following `next_cursor` until it is null**: the rows that are shown, page
after page, from a cursor on. -/
inductive Follows (H : Hashing) (scope : Option AuthorityScope) (lifecycles : Option (List String))
    (limit : Int) (expiring : Bool) : Option String → World → List TaskRow → Prop
  /-- The last page has no cursor. -/
  | last {cursor : Option String} {w w' : World} {tasks : List TaskRow} :
      (TaskStateService.list H scope lifecycles cursor limit expiring).exec w =
        (.ok ⟨none, tasks⟩, w') →
      Follows H scope lifecycles limit expiring cursor w tasks
  /-- Any other is followed by the pages behind its cursor. -/
  | next {cursor : Option String} {behind : String} {w w' : World} {tasks rest : List TaskRow} :
      (TaskStateService.list H scope lifecycles cursor limit expiring).exec w =
        (.ok ⟨some behind, tasks⟩, w') →
      Follows H scope lifecycles limit expiring (some behind) w' rest →
      Follows H scope lifecycles limit expiring cursor w (tasks ++ rest)

/-- Every task a listing asks for is shown, once, in listing order. -/
structure ShowsAll (s : Store) (scope : Option AuthorityScope) (lifecycles : Option (List String))
    (shown : List TaskRow) : Prop where
  ordered : shown.Pairwise fun a b => listingKey a < listingKey b
  complete : ∀ r, r ∈ shown ↔ r ∈ s.tasks.rows ∧ asked scope lifecycles r = true

/-- Everything is shown exactly if the listing is. -/
theorem showsAll_iff {shown : List TaskRow} :
    ShowsAll s scope lifecycles shown ↔ shown = s.listing scope lifecycles := by
  refine ⟨fun h => Ordered.eq_of_mem_iff h.ordered ordered_listing fun r => ?_, ?_⟩
  · rw [h.complete, mem_listing]
  · rintro rfl
    exact ⟨ordered_listing, fun r => mem_listing⟩

/-- The pages behind what was shown show the rest, where the limit is one the
store takes as it is. -/
theorem exists_follows (hlimit : 1 ≤ limit ∧ limit ≤ 500) {shown rest : List TaskRow}
    (hscoped : Scoped w.store) (hundue : expiring = true → Undue rest w)
    (hlisting : w.store.listing scope lifecycles = shown ++ rest)
    (hpage : w.store.listTasks scope lifecycles cursor limit = rest.take (pageSize limit)) :
    Follows H scope lifecycles limit expiring cursor w rest := by
  have hsize : (pageSize limit : Int) = limit := by
    unfold pageSize
    omega
  induction hn : rest.length using Nat.strong_induction_on generalizing rest shown w cursor with
  | _ n ih =>
    have hcut := List.length_take_le' (pageSize limit) rest
    obtain ⟨w', hexec, hlooked⟩ := exec_list H scope lifecycles cursor limit hscoped fun he => by
      rw [hpage]
      exact (hundue he).after (.refl w 0) (fun r hr => List.mem_of_mem_take hr) (by omega)
    rw [hpage] at hexec hlooked
    by_cases hfull : ((rest.take (pageSize limit)).length : Int) = limit
    · -- a full page: its last row is the cursor, and fewer rows remain
      have hlength : pageSize limit ≤ rest.length := by
        rw [List.length_take] at hfull
        omega
      obtain ⟨last, hlast⟩ : ∃ last, (rest.take (pageSize limit)).getLast? = some last :=
        ⟨_, List.getLast?_eq_some_getLast (List.ne_nil_of_length_pos (by omega))⟩
      rw [pageOf, if_pos hfull, hlast] at hexec
      have hcut : shown ++ rest =
          (shown ++ rest.take (pageSize limit)) ++ rest.drop (pageSize limit) := by
        rw [List.append_assoc, List.take_append_drop]
      have hrest : Follows H scope lifecycles limit expiring (some (listingCursor last)) w'
          (rest.drop (pageSize limit)) := by
        have hlisting' : w'.store.listing scope lifecycles =
            (shown ++ rest.take (pageSize limit)) ++ rest.drop (pageSize limit) := by
          rw [hlooked.store, hlisting, hcut]
        refine ih (rest.drop (pageSize limit)).length ?_ ?_ ?_ hlisting' ?_ rfl
        · rw [List.length_drop]
          omega
        · rw [hlooked.store]
          exact hscoped
        · refine fun he => (hundue he).after hlooked (fun r hr => List.mem_of_mem_drop hr) ?_
          rw [← List.length_append, List.take_append_drop]
        · refine listTasks_rest hlisting' ?_
          rw [List.getLast?_append, hlast, Option.some_or]
      have hall := Follows.next hexec hrest
      rwa [List.take_append_drop] at hall
    · -- a page that is not full is the last
      rw [pageOf, if_neg hfull] at hexec
      have hall := Follows.last hexec
      rwa [List.take_of_length_le] at hall
      rw [List.length_take] at hfull
      omega

/-- A page that has no cursor is all that is shown. -/
theorem Follows.eq_page {shown : List TaskRow}
    (hscoped : Scoped w.store)
    (hundue : expiring = true → Undue (w.store.listTasks scope lifecycles cursor limit) w)
    (hpage : ((w.store.listTasks scope lifecycles cursor limit).length : Int) ≠ limit)
    (hf : Follows H scope lifecycles limit expiring cursor w shown) :
    shown = w.store.listTasks scope lifecycles cursor limit := by
  obtain ⟨w', hexec, -⟩ := exec_list H scope lifecycles cursor limit hscoped hundue
  rw [pageOf, if_neg hpage] at hexec
  cases hf with
  | last h =>
    rw [hexec] at h
    cases h
    rfl
  | next h _ =>
    rw [hexec] at h
    cases h

/-- The limits under which the pages reach every task: those the store takes as
they are; and any other, where the one page it then gives holds all there is.
An empty page of no rows asked for has no last row. -/
def Pageable (limit : Int) (matching : ℕ) : Prop :=
  (1 ≤ limit ∧ limit ≤ 500) ∨ (500 < limit ∧ matching ≤ 500) ∨ (limit < 0 ∧ matching ≤ 1) ∨
    (limit = 0 ∧ matching = 1)

/-- **Which listings are complete.** From a store that any calls have left, and
while no task that is listed falls due, the pages that follow one another show
every task the listing asks for, once and in order, if and only if the limit is
within the store's bounds or all the tasks fit the one page it gives. -/
theorem listing_complete_iff {allowed : Call → Prop} {w₀ : World} {c : System}
    (hv : Visits H allowed w₀ c) (scope : Option AuthorityScope)
    (lifecycles : Option (List String)) (limit : Int)
    (hundue : expiring = true → Undue (c.time.now.store.listing scope lifecycles) c.time.now) :
    (∃ shown, Follows H scope lifecycles limit expiring none c.time.now shown ∧
        ShowsAll c.time.now.store scope lifecycles shown) ↔
      Pageable limit (c.time.now.store.tasks.rows.countP (asked scope lifecycles)) := by
  have hscoped := scoped_of_visits hv
  have hfront : expiring = true →
      Undue (c.time.now.store.listTasks scope lifecycles none limit) c.time.now := fun he => by
    have hcut := List.length_take_le' (pageSize limit) (c.time.now.store.listing scope lifecycles)
    rw [listTasks_none]
    exact (hundue he).after (.refl _ 0) (fun r hr => List.mem_of_mem_take hr) (by omega)
  obtain ⟨w', hexec, -⟩ := exec_list H scope lifecycles none limit hscoped hfront
  rw [listTasks_none] at hexec
  have hlength := List.length_take (i := pageSize limit)
    (l := c.time.now.store.listing scope lifecycles)
  have hsize : (pageSize limit : Int) = max 1 (min limit 500) := by
    unfold pageSize
    omega
  rw [← length_listing, Pageable]
  constructor
  · rintro ⟨shown, hf, hall⟩
    rw [showsAll_iff] at hall
    by_cases hpage : (((c.time.now.store.listing scope lifecycles).take (pageSize limit)).length :
        Int) = limit
    · by_cases hzero : limit = 0
      · -- the page is empty, and has no last row
        have hnil : (c.time.now.store.listing scope lifecycles).take (pageSize limit) = [] :=
          List.eq_nil_of_length_eq_zero (by omega)
        rw [pageOf, if_pos hpage, hnil] at hexec
        cases hf with
        | last h | next h _ =>
          rw [hexec] at h
          cases h
      · omega
    · have hshown := hf.eq_page hscoped hfront (by rw [listTasks_none]; exact hpage)
      rw [listTasks_none] at hshown
      rw [← hshown, hall] at hlength
      rw [← hshown, hall] at hpage
      omega
  · intro hpageable
    by_cases hlimit : 1 ≤ limit ∧ limit ≤ 500
    · exact ⟨_, exists_follows hlimit hscoped hundue (List.nil_append _).symm listTasks_none,
        showsAll_iff.mpr rfl⟩
    · rw [pageOf, if_neg (by omega), List.take_of_length_le (by omega)] at hexec
      exact ⟨_, .last hexec, showsAll_iff.mpr rfl⟩

/-- A task in each of two workspaces. -/
theorem exists_two_tasks :
    ∃ c, Visits itemHashing (fun _ => True) exampleWorld c ∧
      c.time.now.store.tasks.rows.countP (asked none none) = 2 ∧
        Undue (c.time.now.store.listing none none) c.time.now := by
  have hcalls : ∀ k ∈ [Call.start exampleStart [], .start otherIdStart []], True :=
    fun _ _ => trivial
  obtain ⟨c, hv, hnow⟩ := visits_runAll (H := itemHashing) fresh_exampleWorld hcalls
  have hageless : c.time.now.store.tasks.rows.all (fun r =>
      r.expiryRule.val.maxAbsoluteAgeMs = none ∧ r.expiryRule.val.maxNoProgressAgeMs = none) =
        true := by
    rw [hnow]
    decide +kernel
  refine ⟨c, hv, by rw [hnow]; decide +kernel, undue_of_ageless fun r hr => ?_⟩
  simpa using List.all_eq_true.mp hageless r (mem_listing.mp hr).1

/-- The law, where they are listed one at a time, and looked at for expiry. -/
theorem listing_complete_of_two :
    ∃ c, Visits itemHashing (fun _ => True) exampleWorld c ∧
      c.time.now.store.tasks.rows.countP (asked none none) = 2 ∧
      ∃ shown, Follows itemHashing none none 1 true none c.time.now shown ∧
        ShowsAll c.time.now.store none none shown := by
  obtain ⟨c, hv, htwo, hundue⟩ := exists_two_tasks
  exact ⟨c, hv, htwo, (listing_complete_iff hv none none 1 fun _ => hundue).mpr
    (.inl ⟨by decide, by decide⟩)⟩

/-- **A limit of nothing ends the listing at its first page.** Two tasks match,
the one page shows one of them, and its cursor is null. -/
theorem listing_cut_short :
    ¬ ∀ (H : Hashing) (w₀ : World) (c : System) (expiring : Bool) (scope : Option AuthorityScope)
      (lifecycles : Option (List String)) (limit : Int), Visits H (fun _ => True) w₀ c →
      (expiring = true → Undue (c.time.now.store.listing scope lifecycles) c.time.now) →
      ∃ shown, Follows H scope lifecycles limit expiring none c.time.now shown ∧
        ShowsAll c.time.now.store scope lifecycles shown := by
  intro h
  obtain ⟨c, hv, htwo, hundue⟩ := exists_two_tasks
  obtain ⟨shown, hf, hall⟩ := h itemHashing exampleWorld c true none none 0 hv fun _ => hundue
  have hlisting : (c.time.now.store.listing none none).length = 2 := length_listing.trans htwo
  have hpage : (c.time.now.store.listTasks none none none 0).length = 1 := by
    rw [listTasks_none, List.length_take, hlisting]
    rfl
  have hfront : Undue (c.time.now.store.listTasks none none none 0) c.time.now := by
    rw [listTasks_none]
    exact hundue.after (.refl _ 0) (fun r hr => List.mem_of_mem_take hr)
      (by rw [Nat.zero_add]; exact List.length_take_le' _ _)
  have hshown := hf.eq_page (scoped_of_visits hv) (fun _ => hfront) (by rw [hpage]; decide)
  rw [← hshown, showsAll_iff.mp hall, hlisting] at hpage
  cases hpage

end Atmem
