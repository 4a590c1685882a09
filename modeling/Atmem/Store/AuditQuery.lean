import Atmem.Common.LookAhead
import Atmem.Store.AuditChain
import Mathlib.Order.Basic
/-!
# Searching the audit log

`query_audit_events`: the rows of a subject that pass every filter given, in
either order of their sequence, a page at a time. What SQLite answers of a text
and a pattern is a parameter. The pages that follow one another show every row
that passes, once (`audit_paging_complete`).
-/

namespace Atmem

open LookAhead

/-- `GLOB`, `LIKE ... ESCAPE '\'` and a value among the leaves of `json_tree`;
the index of the log, where it is enabled, and the characters of `\w`. -/
structure AuditSql where
  glob : String → String → Bool
  like : String → String → Bool
  jsonTreeHas : String → String → Bool
  ftsEnabled : Bool
  ftsMatches : AuditLogRow → String → Bool
  isWordChar : Char → Bool

/-- The filters of a search; an empty text filters nothing. -/
structure AuditFilters where
  query : String := ""
  eventType : String := ""
  actor : String := ""
  sessionId : String := ""
  recordId : String := ""
  since : String := ""
  untilAt : String := ""
deriving DecidableEq

/-- `_audit_fts_query`: the words of a query, each as a literal. -/
def auditFtsQuery (Q : AuditSql) (query : String) : String :=
  let terms := (query.toList.splitOnP fun c => !Q.isWordChar c).filter (· ≠ [])
  if terms = [] then "\"\""
  else
    " AND ".intercalate (terms.map fun term =>
      "\"" ++ String.ofList (term.flatMap fun c => if c = '"' then ['"', '"'] else [c]) ++ "\"")

/-- The pattern of a query: the characters `LIKE` reads are escaped. -/
def likePattern (query : String) : String :=
  let escaped := query.toList.flatMap fun c => if c ∈ ['\\', '%', '_'] then ['\\', c] else [c]
  "%" ++ String.ofList escaped ++ "%"

/-- The query itself: by the index, whose rows are the log's, or column by
column. -/
def AuditSql.finds (Q : AuditSql) (query : String) (row : AuditLogRow) : Bool :=
  if Q.ftsEnabled then Q.ftsMatches row (auditFtsQuery Q query)
  else
    [row.eventId, row.eventType, row.actor, row.sessionId.getD "", row.turnId.getD "",
      row.recordId.getD "", row.payload].any fun column => Q.like column (likePattern query)

/-- A clause that is there where its filter is given. -/
def given (filter : String) (clause : Bool) : Bool := filter = "" || clause

/-- `count_where`: the subject, and every filter that is given. -/
def AuditFilters.admits (f : AuditFilters) (Q : AuditSql) (subjectId : String)
    (row : AuditLogRow) : Bool :=
  row.subjectId = subjectId &&
  given f.eventType (Q.glob row.eventType f.eventType) &&
  given f.actor (row.actor = f.actor) &&
  given f.sessionId (row.sessionId = some f.sessionId) &&
  given f.recordId (row.recordId = some f.recordId || Q.jsonTreeHas row.payload f.recordId) &&
  given f.since (f.since ≤ row.createdAt) &&
  given f.untilAt (row.createdAt ≤ f.untilAt) &&
  given f.query (Q.finds f.query row)

/-- What a search is answered with. -/
structure AuditPage where
  events : List AuditLogEvent
  matchedTotal : ℕ
  hasMore : Bool
  nextCursor : Option ℤ
  direction : String
  limit : ℕ
deriving DecidableEq

/-- `page_size`. -/
def auditPageSize (limit : ℤ) : ℕ := (max 1 (min limit 500)).toNat

/-- A sequence comes before another, in a direction. -/
def Before (direction : String) (a b : ℤ) : Prop := if direction = "desc" then b < a else a < b

instance (direction : String) : DecidableRel (Before direction) := fun a b => by
  unfold Before
  infer_instance

/-- `ORDER BY sequence`, in a direction. -/
def inDirection (direction : String) (rows : List AuditLogRow) : List AuditLogRow :=
  if direction = "desc" then rows.reverse else rows

/-- `query_audit_events`. -/
def AuditDb.queryAuditEvents (Q : AuditSql) (R : JsonReader) (db : AuditDb) (subjectId : String)
    (f : AuditFilters) (cursor : Option ℤ) (limit : ℤ) (direction : String) :
    Except String AuditPage := do
  if direction ∉ ["asc", "desc"] then throw "direction must be asc or desc"
  let pageSize := auditPageSize limit
  let matching := db.rows.filter (f.admits Q subjectId)
  let found := (inDirection direction (matching.filter fun row =>
    cursor.all fun c => Before direction c row.sequence)).take (pageSize + 1)
  let hasMore := pageSize < found.length
  let rows := found.take pageSize
  pure
    { events := rows.map (auditFromRow R), matchedTotal := matching.length, hasMore
      nextCursor := if hasMore then rows.getLast?.map (·.sequence) else none
      direction, limit := pageSize }

/-! ## Page after page -/

variable {Q : AuditSql} {R : JsonReader} {db : AuditDb} {subjectId direction : String}
variable {f : AuditFilters} {limit : ℤ}

instance (direction : String) : IsStrictOrder ℤ (Before direction) where
  irrefl a := by
    unfold Before
    split <;> exact lt_irrefl a
  trans a b c := by
    unfold Before
    split
    · exact fun hab hbc => hbc.trans hab
    · exact fun hab hbc => hab.trans hbc

/-- The rows that match, in the order asked for. -/
def AuditDb.matching (Q : AuditSql) (db : AuditDb) (subjectId : String) (f : AuditFilters)
    (direction : String) : List AuditLogRow :=
  inDirection direction (db.rows.filter (f.admits Q subjectId))

/-- The rows that a query is about. -/
theorem mem_matching {row : AuditLogRow} : row ∈ db.matching Q subjectId f direction ↔
    row ∈ db.rows ∧ f.admits Q subjectId row = true := by
  unfold AuditDb.matching inDirection
  split <;> simp

/-- They are in order. -/
theorem pairwise_matching : (db.matching Q subjectId f direction).Pairwise
    fun a b => Before direction a.sequence b.sequence := by
  have hasc := db.ordered.filter (f.admits Q subjectId)
  unfold AuditDb.matching inDirection Before
  split
  · exact List.pairwise_reverse.mpr hasc
  · exact hasc

theorem inDirection_filter (p : AuditLogRow → Bool) (rows : List AuditLogRow) :
    inDirection direction (rows.filter p) = (inDirection direction rows).filter p := by
  unfold inDirection
  split
  · rw [List.filter_reverse]
  · rfl

/-- The rows of a page, and its cursor. -/
def AuditDb.fetch (Q : AuditSql) (db : AuditDb) (subjectId : String) (f : AuditFilters)
    (limit : ℤ) (direction : String) (cursor : Option ℤ) : List AuditLogRow × Option ℤ :=
  let rest := behind (Before direction) AuditLogRow.sequence
    (db.matching Q subjectId f direction) cursor
  (rest.take (auditPageSize limit),
    if auditPageSize limit < rest.length then
      (rest.take (auditPageSize limit)).getLast?.map (·.sequence)
    else none)

/-- A page is cut from them. -/
theorem cuts_fetch : Cuts (Before direction) AuditLogRow.sequence
    (db.matching Q subjectId f direction) (auditPageSize limit)
    (db.fetch Q subjectId f limit direction) :=
  ⟨fun _ => rfl, fun _ => rfl⟩

/-- A page is not empty. -/
theorem auditPageSize_pos : 0 < auditPageSize limit := by
  unfold auditPageSize
  omega

/-- **One page**: the rows that are fetched, and their cursor. -/
theorem queryAuditEvents_eq (Q : AuditSql) (R : JsonReader) (db : AuditDb) (subjectId : String)
    (f : AuditFilters) (limit : ℤ) (hdir : direction ∈ ["asc", "desc"]) (cursor : Option ℤ) :
    ∃ page, db.queryAuditEvents Q R subjectId f cursor limit direction = .ok page ∧
      page.events = (db.fetch Q subjectId f limit direction cursor).1.map (auditFromRow R) ∧
      page.nextCursor = (db.fetch Q subjectId f limit direction cursor).2 := by
  have hbehind : inDirection direction ((db.rows.filter (f.admits Q subjectId)).filter fun row =>
      cursor.all fun c => Before direction c row.sequence) =
      behind (Before direction) AuditLogRow.sequence
        (db.matching Q subjectId f direction) cursor := by
    rw [inDirection_filter]
    cases cursor with
    | none => simp [behind, AuditDb.matching]
    | some c => simp [behind, AuditDb.matching]
  unfold AuditDb.queryAuditEvents
  rw [if_neg (not_not_intro hdir)]
  refine ⟨_, rfl, ?_, ?_⟩
  · simp only [hbehind, AuditDb.fetch, List.take_take, Nat.min_eq_left (Nat.le_succ _)]
  · simp only [hbehind, AuditDb.fetch, List.take_take, Nat.min_eq_left (Nat.le_succ _),
      List.length_take]
    refine if_congr ?_ rfl rfl
    omega

/-- **Following `next_cursor` until it is null**: the pages, from a cursor
on. -/
inductive FollowsAudit (Q : AuditSql) (R : JsonReader) (db : AuditDb) (subjectId : String)
    (f : AuditFilters) (limit : ℤ) (direction : String) : Option ℤ → List AuditPage → Prop
  | last {cursor : Option ℤ} {page : AuditPage} :
      db.queryAuditEvents Q R subjectId f cursor limit direction = .ok page →
      page.nextCursor = none → FollowsAudit Q R db subjectId f limit direction cursor [page]
  | next {cursor : Option ℤ} {page : AuditPage} {c : ℤ} {pages : List AuditPage} :
      db.queryAuditEvents Q R subjectId f cursor limit direction = .ok page →
      page.nextCursor = some c → FollowsAudit Q R db subjectId f limit direction (some c) pages →
      FollowsAudit Q R db subjectId f limit direction cursor (page :: pages)

/-- Every event that matches is shown, once, in the order asked for. -/
structure ShowsEvents (Q : AuditSql) (R : JsonReader) (db : AuditDb) (subjectId : String)
    (f : AuditFilters) (direction : String) (events : List AuditLogEvent) : Prop where
  ordered : events.Pairwise fun a b => Before direction a.sequence b.sequence
  complete : ∀ e, e ∈ events ↔
    ∃ row ∈ db.rows, f.admits Q subjectId row = true ∧ auditFromRow R row = e

/-- All of them together show the events. -/
theorem showsEvents_matching : ShowsEvents Q R db subjectId f direction
    ((db.matching Q subjectId f direction).map (auditFromRow R)) where
  ordered := List.pairwise_map.mpr pairwise_matching
  complete e := by
    rw [List.mem_map]
    exact ⟨fun ⟨row, hrow, he⟩ => ⟨row, (mem_matching.mp hrow).1, (mem_matching.mp hrow).2, he⟩,
      fun ⟨row, hrow, hadmits, he⟩ => ⟨row, mem_matching.mpr ⟨hrow, hadmits⟩, he⟩⟩

/-- The pages that are followed are those that are fetched. -/
theorem FollowsAudit.pages (hdir : direction ∈ ["asc", "desc"]) {cursor : Option ℤ}
    {pages : List AuditPage} (h : FollowsAudit Q R db subjectId f limit direction cursor pages) :
    ∃ rows, Pages (db.fetch Q subjectId f limit direction) cursor rows ∧
      pages.flatMap (·.events) = rows.flatten.map (auditFromRow R) := by
  induction h with
  | @last cursor page hpage hnone =>
    obtain ⟨page', hpage', hevents, hnext⟩ := queryAuditEvents_eq Q R db subjectId f limit
      hdir cursor
    obtain rfl : page = page' := Except.ok.inj (hpage.symm.trans hpage')
    refine ⟨_, .last (hnext.symm.trans hnone), ?_⟩
    simp [hevents]
  | @next cursor page c pages hpage hsome _ ih =>
    obtain ⟨page', hpage', hevents, hnext⟩ := queryAuditEvents_eq Q R db subjectId f limit
      hdir cursor
    obtain rfl : page = page' := Except.ok.inj (hpage.symm.trans hpage')
    obtain ⟨rows, hrows, hrest⟩ := ih
    refine ⟨_, .next (hnext.symm.trans hsome) hrows, ?_⟩
    rw [List.flatMap_cons, hrest, hevents, List.flatten_cons, List.map_append]

/-- Pages can be followed to the end. -/
theorem exists_followsAudit (hdir : direction ∈ ["asc", "desc"]) {cursor : Option ℤ}
    {rows : List (List AuditLogRow)}
    (h : Pages (db.fetch Q subjectId f limit direction) cursor rows) :
    ∃ pages, FollowsAudit Q R db subjectId f limit direction cursor pages := by
  induction h with
  | @last cursor hnone =>
    obtain ⟨page, hpage, -, hnext⟩ := queryAuditEvents_eq Q R db subjectId f limit hdir cursor
    exact ⟨_, .last hpage (hnext.trans hnone)⟩
  | @next cursor c rows hsome _ ih =>
    obtain ⟨page, hpage, -, hnext⟩ := queryAuditEvents_eq Q R db subjectId f limit hdir cursor
    obtain ⟨pages, hpages⟩ := ih
    exact ⟨_, .next hpage (hnext.trans hsome) hpages⟩

/-- **Audit paging is complete**, in both directions and for any filters and
limit: the pages that follow one another come to an end, and show every event
that matches once, in the order asked for. -/
theorem audit_paging_complete (Q : AuditSql) (R : JsonReader) (db : AuditDb) (subjectId : String)
    (f : AuditFilters) (limit : ℤ) (direction : String) (hdir : direction ∈ ["asc", "desc"]) :
    (∃ pages, FollowsAudit Q R db subjectId f limit direction none pages) ∧
      ∀ pages, FollowsAudit Q R db subjectId f limit direction none pages →
        ShowsEvents Q R db subjectId f direction (pages.flatMap (·.events)) := by
  have hcuts : Cuts (Before direction) AuditLogRow.sequence
      (db.matching Q subjectId f direction) (auditPageSize limit)
      (db.fetch Q subjectId f limit direction) := cuts_fetch
  obtain ⟨rows, hrows⟩ := hcuts.exists_pages auditPageSize_pos pairwise_matching none
  refine ⟨exists_followsAudit hdir hrows, fun pages hpages => ?_⟩
  obtain ⟨rows', hrows', hevents⟩ := hpages.pages hdir
  rw [hevents, hcuts.flatten_eq auditPageSize_pos pairwise_matching hrows']
  exact showsEvents_matching

/-- A log of three events. -/
def loggedThrice : AuditDb where
  rows := [1, 2, 3].map fun n =>
    ⟨n, toString n, "ada", "record.recalled", "2026-01-01", "host", none, none, none, "", none, ""⟩
  lastAssigned := 3
  states := fun _ => none
  ordered := by decide
  assigned := by decide

/-- An index that finds everything. -/
def findsAll : AuditSql :=
  ⟨fun _ _ => true, fun _ _ => true, fun _ _ => true, true, fun _ _ => true, fun _ => true⟩

/-- The law, where they are read two at a time, the latest first. -/
theorem audit_paging_complete_of_three :
    ∃ pages, FollowsAudit findsAll exampleReader loggedThrice "ada" {} 2 "desc" none pages ∧
      ShowsEvents findsAll exampleReader loggedThrice "ada" {} "desc"
        (pages.flatMap (·.events)) := by
  obtain ⟨⟨pages, hpages⟩, hall⟩ := audit_paging_complete findsAll exampleReader loggedThrice
    "ada" {} 2 "desc" (by decide)
  exact ⟨pages, hpages, hall pages hpages⟩

end Atmem
