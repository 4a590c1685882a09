import Atmem.Common.Stopwatch
import Atmem.TaskState.Properties.Gate
/-!
# No-progress age

The age is kept by an accumulator of completed pauses, an open pause and
the instant of the last progress. The accumulator is never set back: the
age counts the active time since the last progress exactly where no pause
came before it, or no active time has come since. Every span is in the
whole milliseconds the code counts it in.
-/

namespace Atmem

open Relation Interleaving

variable {H : Hashing} {w : World} {c : System} {E : Setting} {h : Timeline World}
variable {cell cell' : Cell}

/-- The task is paused from this revision to the next. -/
def RevisionRow.paused (r : RevisionRow) : Bool := r.state.val.lifecycle = .paused

/-- The paused time of a history, each pause in whole milliseconds, the
last one until `t` where it is open. -/
def pausedMs (revisions : List RevisionRow) (t : Instant) : ℕ :=
  Stopwatch.total RevisionRow.createdAtUtc RevisionRow.paused elapsedMs t revisions

/-- The revision of the last progress, or the first one, and what
follows it. -/
def sinceProgress (revisions : List RevisionRow) : List RevisionRow :=
  Stopwatch.sinceLast RevisionRow.isProgress revisions

/-- What came before it. -/
def beforeProgress (revisions : List RevisionRow) : List RevisionRow :=
  Stopwatch.beforeLast RevisionRow.isProgress revisions

/-- The age is the time since the last progress less the pauses since,
each in whole milliseconds; it is never negative. -/
def CountsActive (revisions : List RevisionRow) (t : Instant) (ageMs : ℕ) : Prop :=
  ∃ r ∈ (sinceProgress revisions).head?,
    ageMs = elapsedMs r.createdAtUtc t - pausedMs (sinceProgress revisions) t

/-- No pause came before the last progress, or no active time has come
since. -/
def NothingCarried (revisions : List RevisionRow) (t : Instant) : Prop :=
  ∃ r ∈ (sinceProgress revisions).head?,
    pausedMs (beforeProgress revisions) r.createdAtUtc = 0 ∨
      elapsedMs r.createdAtUtc t ≤ pausedMs (sinceProgress revisions) t

instance (revisions : List RevisionRow) (t : Instant) (ageMs : ℕ) :
    Decidable (CountsActive revisions t ageMs) := by
  unfold CountsActive
  infer_instance

instance (revisions : List RevisionRow) (t : Instant) :
    Decidable (NothingCarried revisions t) := by
  unfold NothingCarried
  infer_instance

/-- The length of a span, in microseconds. -/
def spanMicros (start finish : Instant) : ℕ := finish - start

/-- The paused time of a history, to the microsecond. -/
def pausedMicros (revisions : List RevisionRow) (t : Instant) : ℕ :=
  Stopwatch.total RevisionRow.createdAtUtc RevisionRow.paused spanMicros t revisions

/-- The parts of a span are no longer than the whole. -/
theorem spanMicros_add_le (a b c : ℕ) (hab : a ≤ b) (hbc : b ≤ c) :
    spanMicros a b + spanMicros b c ≤ spanMicros a c := by
  unfold spanMicros
  omega

/-- A pause ends where the next revision is written. -/
theorem pausedMs_concat (revisions : List RevisionRow) (r : RevisionRow) (t : Instant) :
    pausedMs (revisions ++ [r]) t =
      pausedMs revisions r.createdAtUtc + if r.paused then elapsedMs r.createdAtUtc t else 0 :=
  Stopwatch.total_concat _ _ _ t revisions r

/-- The pauses of a history, before and since the last progress. -/
theorem pausedMs_split {revisions : List RevisionRow} {r : RevisionRow}
    (hr : r ∈ (sinceProgress revisions).head?) (t : Instant) :
    pausedMs revisions t =
      pausedMs (beforeProgress revisions) r.createdAtUtc + pausedMs (sinceProgress revisions) t := by
  obtain ⟨rest, hrest⟩ : ∃ rest, sinceProgress revisions = r :: rest := List.head?_eq_some_iff.mp hr
  have hsplit := Stopwatch.beforeLast_append_sinceLast RevisionRow.isProgress revisions
  change beforeProgress revisions ++ sinceProgress revisions = revisions at hsplit
  have htotal := Stopwatch.total_append_cons RevisionRow.createdAtUtc RevisionRow.paused elapsedMs t
    (beforeProgress revisions) rest r
  rw [← hrest, hsplit] at htotal
  exact htotal

/-! ## What the row keeps -/

/-- The columns of a row account for its history. -/
structure Cell.Accounted (E : Setting) (cell : Cell) : Prop where
  /-- A pause is open exactly where the task is paused. -/
  paused : cell.row.pausedAtUtc.isSome ↔ cell.row.lifecycle = .paused
  /-- The accumulator holds every pause there was. -/
  total : ∀ t, pausedMsAt cell.row t = pausedMs cell.revisions t
  progress : ∃ r ∈ (sinceProgress cell.revisions).head?,
    cell.row.lastProgressAtUtc = r.createdAtUtc
  updated : ∀ r ∈ cell.head?, cell.row.updatedAtUtc = r.createdAtUtc
  ordered : Monotone E.clock →
    cell.revisions.IsChain fun a b => a.createdAtUtc ≤ b.createdAtUtc

/-- A task that started is accounted for. -/
theorem Started.accounted (hs : Started E h cell) : cell.Accounted E := by
  obtain ⟨-, -, -, -, -, -, hlifecycle, hrow, hrevs⟩ := hs
  constructor
  · simp [hrow, startRow]
  · intro t
    simp [hrow, hrevs, startRow, pausedMsAt, pausedMs, Stopwatch.total, RevisionRow.paused,
      revisionRow, hlifecycle]
  · rw [hrow, hrevs]
    exact ⟨_, rfl, rfl⟩
  · intro r hr
    rw [Cell.head?, hrevs] at hr
    cases hr
    rw [hrow]
    rfl
  · intro _
    rw [hrevs]
    exact List.isChain_singleton _

/-- Where no pause is open, the accumulator does not run. -/
theorem pausedMsAt_of_not_paused {row : TaskRow} (hp : row.pausedAtUtc = none) (t : Instant) :
    pausedMsAt row t = row.noProgressPausedMs := by
  rw [pausedMsAt, hp]
  exact Nat.add_zero _

/-- A revision that is no progress leaves where the count starts. -/
theorem head_sinceProgress_concat {revisions : List RevisionRow} {r next : RevisionRow}
    (hnext : next.isProgress = false) (hr : r ∈ (sinceProgress revisions).head?) :
    r ∈ (sinceProgress (revisions ++ [next])).head? := by
  have hconcat := Stopwatch.sinceLast_concat_of_not_mark RevisionRow.isProgress hnext revisions
  rw [sinceProgress, hconcat, List.head?_append]
  change r ∈ Option.or (sinceProgress revisions).head? _
  rw [Option.mem_def.mp hr]
  rfl

/-- A revision that is progress is where the count starts. -/
theorem head_sinceProgress_of_progress {revisions : List RevisionRow} {next : RevisionRow}
    (hnext : next.isProgress = true) : next ∈ (sinceProgress (revisions ++ [next])).head? := by
  rw [sinceProgress, Stopwatch.sinceLast_concat_of_mark RevisionRow.isProgress hnext]
  exact Option.mem_some_self _

/-- **What an advance does to the pause of a row**: a pause opens where none
was, or what was open is closed and added. -/
theorem Moves.pauseColumns (hm : Moves E h cell cell')
    (hpaused : cell.row.pausedAtUtc.isSome ↔ cell.row.lifecycle = .paused) {next : RevisionRow}
    (hnext : cell'.revisions = cell.revisions ++ [next]) :
    (cell'.row.lifecycle = .paused ∧ cell.row.pausedAtUtc = none ∧
      cell'.row.pausedAtUtc = some next.createdAtUtc ∧
      cell'.row.noProgressPausedMs = cell.row.noProgressPausedMs) ∨
    (cell'.row.lifecycle ≠ .paused ∧ cell'.row.pausedAtUtc = none ∧
      cell'.row.noProgressPausedMs = pausedMsAt cell.row next.createdAtUtc) := by
  cases hm.2 with
  | @commit base _ _ _ _ _ _ _ hbase _ he hacc _ _ _ hrow hrevs =>
    obtain ⟨base', hb', -, hlife, -⟩ := hm.1.head
    obtain rfl := Option.some.inj (hbase.symm.trans hb')
    obtain ⟨_, hacceptance⟩ := acceptance_of_evaluate he hacc
    have hopen : cell.row.lifecycle = .open := by
      rw [← hlife]
      exact open_of_preconditions hacceptance.eligible
    have hsame : cell'.row.lifecycle = cell.row.lifecycle := by
      rw [hrow]
      rfl
    -- a proposal meets an open task, so no pause runs across it
    have hnone : cell.row.pausedAtUtc = none := by
      rcases hpausedAt : cell.row.pausedAtUtc with - | x
      · rfl
      · have hlifecycle := hpaused.mp (by rw [hpausedAt]; rfl)
        rw [hopen] at hlifecycle
        cases hlifecycle
    refine .inr ⟨?_, ?_, ?_⟩
    · rw [hsame, hopen]
      decide
    · rw [hrow]
      exact hnone
    · rw [pausedMsAt_of_not_paused hnone, hrow]
      rfl
  | @lifecycle _ _ target _ _ reason _ now _ _ hne _ _ _ _ _ hrow hrevs =>
    obtain rfl := List.singleton_inj.mp (List.append_cancel_left (hnext.symm.trans hrevs))
    have htarget : cell'.row.lifecycle = target := by
      rw [hrow, HeadChange.assign, lifecycleChange_lifecycle]
      rfl
    by_cases hpause : target = .paused
    · have hnone : cell.row.pausedAtUtc = none := by
        rw [← Option.not_isSome_iff_eq_none]
        intro hsome
        exact hne ((hpaused.mp hsome).trans hpause.symm)
      refine .inl ⟨htarget.trans hpause, hnone, ?_⟩
      rw [hrow, HeadChange.assign, lifecycleChange, if_pos hpause]
      exact ⟨rfl, rfl⟩
    · refine .inr ⟨fun heq => hpause (htarget.symm.trans heq), ?_⟩
      change _ ∧ cell'.row.noProgressPausedMs = pausedMsAt cell.row now
      rw [hrow, HeadChange.assign, lifecycleChange, if_neg hpause, pausedMsAt]
      rcases hpausedAt : cell.row.pausedAtUtc with - | pausedAt
      · simp
      · exact ⟨rfl, rfl⟩

/-- **One advance keeps the account.** -/
theorem Cell.Accounted.moves (ha : cell.Accounted E) (hm : Moves E h cell cell') :
    cell'.Accounted E := by
  obtain ⟨base, next, S⟩ := hm.2.successor hm.1
  have hpaused : next.paused = decide (cell'.row.lifecycle = .paused) := by
    rw [RevisionRow.paused, S.lifecycle]
  obtain ⟨p, hp, hprogress⟩ := ha.progress
  -- the accumulator up to the advance is the pauses up to it
  have hbefore := ha.total next.createdAtUtc
  have hcolumns := hm.pauseColumns ha.paused S.revisions
  refine ⟨?_, fun t => ?_, ?_, ?_, fun hmono => ?_⟩
  · rcases hcolumns with ⟨hlife, -, hsome, -⟩ | ⟨hlife, hnone, -⟩
    · simp [hlife, hsome]
    · simp [hlife, hnone]
  · rw [S.revisions, pausedMs_concat, ← hbefore, hpaused]
    rcases hcolumns with ⟨hlife, hnone, hsome, htotal⟩ | ⟨hlife, hnone, htotal⟩
    · rw [hlife, pausedMsAt_of_not_paused hnone, pausedMsAt, hsome, htotal]
      rfl
    · rw [decide_eq_false hlife, pausedMsAt_of_not_paused hnone, htotal]
      rfl
  · cases hm.2 with
    | @commit _ next' _ _ _ _ decision now _ _ _ _ _ _ _ hrow hrevs =>
      rw [hrevs, hrow]
      rcases hdecision : decision.isProgress with - | -
      · exact ⟨p, head_sinceProgress_concat rfl hp, hprogress⟩
      · exact ⟨_, head_sinceProgress_of_progress rfl, rfl⟩
    | lifecycle _ _ _ _ _ _ _ _ hrow hrevs =>
      have hlast : cell'.row.lastProgressAtUtc = cell.row.lastProgressAtUtc := by
        rw [hrow, HeadChange.assign, lifecycleChange]
        split
        · rfl
        · split <;> rfl
      rw [hrevs, hlast]
      exact ⟨p, head_sinceProgress_concat rfl hp, hprogress⟩
  · intro r hr
    rw [Cell.head?, S.revisions, List.getLast?_concat] at hr
    cases hr
    exact S.createdAtUtc
  · rw [S.revisions]
    refine List.isChain_append.mpr ⟨ha.ordered hmono, List.isChain_singleton _, fun x hx y hy => ?_⟩
    cases hy
    obtain rfl := Option.some.inj (S.headRow.symm.trans hx)
    exact S.monotone hmono

/-- **The account of a row**, over any run. -/
theorem Grown.accounted (hg : Grown E h cell) : cell.Accounted E := by
  obtain ⟨first, hs, ha⟩ := hg
  exact Versioned.invariant (fun _ _ hm ha => ha.moves hm) ha hs.accounted

/-! ## The age -/

/-- The revisions since the last progress are in the order of their stamps,
none of them later than the last update of the row. -/
theorem Cell.Accounted.stamps_sinceProgress (ha : cell.Accounted E) (hclock : Monotone E.clock) :
    (sinceProgress cell.revisions).IsChain (fun a b => a.createdAtUtc ≤ b.createdAtUtc) ∧
      ∀ y ∈ sinceProgress cell.revisions, y.createdAtUtc ≤ cell.row.updatedAtUtc := by
  have hchain := ha.ordered hclock
  have hsuffix := Stopwatch.sinceLast_suffix RevisionRow.isProgress cell.revisions
  refine ⟨hchain.suffix hsuffix, fun y hy => ?_⟩
  have hmem : y ∈ cell.revisions := hsuffix.subset hy
  obtain ⟨last, hlast⟩ := Option.isSome_iff_exists.mp
    (List.getLast?_isSome.mpr (List.ne_nil_of_mem hmem))
  rw [ha.updated last hlast]
  -- the order of neighbours is that of any two
  have hpairwise : cell.revisions.Pairwise fun a b => a.createdAtUtc ≤ b.createdAtUtc :=
    List.isChain_iff_pairwise.mp hchain
  rw [← List.dropLast_append_getLast? last hlast] at hpairwise hmem
  rcases List.mem_append.mp hmem with hbefore | hself
  · exact (List.pairwise_append.mp hpairwise).2.2 y hbefore last (List.mem_singleton_self last)
  · rw [List.mem_singleton.mp hself]

/-- The reported age: the time since the last progress, less every pause
there was. -/
theorem Cell.Accounted.noProgressAgeMs (ha : cell.Accounted E) {p : RevisionRow}
    (hp : p ∈ (sinceProgress cell.revisions).head?) (t : Instant) :
    (expiryStatusAt cell.row t).noProgressAgeMs = elapsedMs p.createdAtUtc t -
      (pausedMs (beforeProgress cell.revisions) p.createdAtUtc +
        pausedMs (sinceProgress cell.revisions) t) := by
  obtain ⟨p', hp', hprogress⟩ := ha.progress
  obtain rfl := Option.some.inj (hp'.symm.trans hp)
  rw [← pausedMs_split hp, ← ha.total t, ← hprogress]
  rfl

/-- **No-progress age.** In every run of calls, the reported age is the
active time since the last progress exactly where no paused time is
carried over from before it. -/
theorem noProgressAge_iff (hv : Visits H Call.keepsTasks w c) {row : TaskRow}
    (hr : row ∈ c.time.now.store.tasks.rows) (t : Instant) :
    CountsActive (c.time.now.store.chain row.taskId) t (expiryStatusAt row t).noProgressAgeMs ↔
      NothingCarried (c.time.now.store.chain row.taskId) t := by
  obtain ⟨cell, hc, rfl, hg⟩ := hv.cell hr
  rw [Store.chain_of_cell hc]
  have ha := hg.accounted
  obtain ⟨p, hp, -⟩ := ha.progress
  have hage := ha.noProgressAgeMs hp t
  have hhead (r : RevisionRow) (hr : r ∈ (sinceProgress cell.revisions).head?) : r = p :=
    Option.some.inj (hr.symm.trans hp)
  constructor
  · rintro ⟨r, hr, hcounts⟩
    obtain rfl := hhead r hr
    refine ⟨r, hr, ?_⟩
    omega
  · rintro ⟨r, hr, hnothing⟩
    obtain rfl := hhead r hr
    refine ⟨r, hr, ?_⟩
    omega

/-- **Milliseconds of active time.** On a clock that does not go back, an age
that counts the active time is that time to the microsecond, up to 1.3 ms for
the span since the last progress and each pause in it. -/
theorem CountsActive.near (hv : Visits H Call.keepsTasks w c) (hclock : Monotone w.clock)
    {row : TaskRow} (hr : row ∈ c.time.now.store.tasks.rows) {t : Instant}
    (ht : row.updatedAtUtc ≤ t) (hrange : t < 2 ^ 59) {ageMs : ℕ}
    (hcounts : CountsActive (c.time.now.store.chain row.taskId) t ageMs) :
    let since := sinceProgress (c.time.now.store.chain row.taskId)
    ∃ r ∈ since.head?, ∃ activeMicros,
      activeMicros + pausedMicros since t = spanMicros r.createdAtUtc t ∧
        1000 * ageMs ≤ activeMicros + 1300 * (since.countP RevisionRow.paused + 1) ∧
        activeMicros ≤ 1000 * ageMs + 1300 * (since.countP RevisionRow.paused + 1) := by
  obtain ⟨cell, hc, rfl, hg⟩ := hv.cell hr
  rw [Store.chain_of_cell hc] at hcounts ⊢
  obtain ⟨r, hr, hage⟩ := hcounts
  obtain ⟨hchain, hstamps⟩ := hg.accounted.stamps_sinceProgress hclock
  obtain ⟨rest, hrest⟩ : ∃ rest, sinceProgress cell.revisions = r :: rest :=
    List.head?_eq_some_iff.mp hr
  have hfits : pausedMicros (sinceProgress cell.revisions) t ≤ spanMicros r.createdAtUtc t := by
    rw [hrest] at hchain hstamps ⊢
    refine (Stopwatch.total_le _ _ _ spanMicros_add_le hchain fun y hy => ?_).2
    exact (hstamps y (List.mem_of_mem_getLast? hy)).trans ht
  have hbounded : ∀ y ∈ sinceProgress cell.revisions, y.createdAtUtc < 2 ^ 59 :=
    fun y hy => ((hstamps y hy).trans ht).trans_lt hrange
  -- the float is off by less than 0.3 ms, and the truncation by less than 1 ms
  have hnear : ∀ a b, b < 2 ^ 59 → 1000 * elapsedMs a b ≤ spanMicros a b + 1300 ∧
      spanMicros a b ≤ 1000 * elapsedMs a b + 1300 := by
    intro a b hb
    have hspan : b - a < 2 ^ 59 := (Nat.sub_le b a).trans_lt hb
    have hab : 1000 * elapsedMs a b < spanMicros a b + 300 ∧
        spanMicros a b < 1000 * elapsedMs a b + 1300 := elapsedMs_near hspan
    omega
  -- the error of each pause adds up
  have hpaused := Stopwatch.total_near RevisionRow.createdAtUtc RevisionRow.paused elapsedMs
    hnear hrange hbounded
  change 1000 * pausedMs (sinceProgress cell.revisions) t ≤
      pausedMicros (sinceProgress cell.revisions) t + _ ∧ pausedMicros _ t ≤ 1000 * pausedMs _ t + _
    at hpaused
  have hspan := hnear r.createdAtUtc t hrange
  refine ⟨r, hr, spanMicros r.createdAtUtc t - pausedMicros (sinceProgress cell.revisions) t,
    Nat.sub_add_cancel hfits, ?_, ?_⟩ <;> omega

/-! ## A pause before a progress, and one after -/

/-- A progress on the third revision. -/
def resumedProposal : TaskStateProposal :=
  ⟨{ exampleProposal runningOperation with baseRevision := 3 }, by decide +kernel⟩

/-- The task is paused. -/
def examplePause : Call := .pause exampleScope "t" "a" .operator "r"

/-- The task is resumed. -/
def exampleResume : Call := .resume exampleScope "t" "a" .operator "r"

/-- The clock of the example does not go back. -/
theorem monotone_exampleWorld : Monotone exampleWorld.clock := by
  intro m n hmn
  change m * 1000000 ≤ n * 1000000
  omega

/-- A pause that was over before the last progress is subtracted from the
time since. -/
theorem pause_hides_active_time :
    ¬ ∀ (H : Hashing) (w : World) (c : System), Visits H Call.keepsTasks w c →
      Monotone w.clock → ∀ row ∈ c.time.now.store.tasks.rows, row.lifecycle.terminal = false →
      ∀ t, row.updatedAtUtc ≤ t →
        CountsActive (c.time.now.store.chain row.taskId) t
          (expiryStatusAt row t).noProgressAgeMs := by
  intro hall
  have hcalls : ∀ k ∈ [Call.start exampleStart [pendingItem], examplePause, exampleResume,
      .submit resumedProposal false "step"], k.keepsTasks := by decide
  obtain ⟨c, hv, hnow⟩ := visits_runAll (H := itemHashing) fresh_exampleWorld hcalls
  have hwrong : ∃ row ∈ c.time.now.store.tasks.rows, row.lifecycle.terminal = false ∧
      row.updatedAtUtc ≤ 60000000 ∧ ¬ CountsActive (c.time.now.store.chain row.taskId) 60000000
        (expiryStatusAt row 60000000).noProgressAgeMs := by
    rw [hnow]
    decide +kernel
  obtain ⟨row, hr, hlive, ht, hnot⟩ := hwrong
  exact hnot (hall itemHashing exampleWorld c hv monotone_exampleWorld row hr hlive _ ht)

/-- The age after a progress, a pause and a resumption. -/
theorem noProgressAge_of_pause :
    ∃ c row, Visits itemHashing Call.keepsTasks exampleWorld c ∧
      row ∈ c.time.now.store.tasks.rows ∧ 0 < row.noProgressPausedMs ∧
      CountsActive (c.time.now.store.chain row.taskId) 60000000
        (expiryStatusAt row 60000000).noProgressAgeMs := by
  have hcalls : ∀ k ∈ [Call.start exampleStart [pendingItem], .submit runningProposal false "step",
      examplePause, exampleResume], k.keepsTasks := by decide
  obtain ⟨c, hv, hnow⟩ := visits_runAll (H := itemHashing) fresh_exampleWorld hcalls
  have hfound : ∃ row ∈ c.time.now.store.tasks.rows, 0 < row.noProgressPausedMs ∧
      NothingCarried (c.time.now.store.chain row.taskId) 60000000 := by
    rw [hnow]
    decide +kernel
  obtain ⟨row, hr, hpaused, hnothing⟩ := hfound
  exact ⟨c, row, hv, hr, hpaused, (noProgressAge_iff hv hr 60000000).mpr hnothing⟩

end Atmem
