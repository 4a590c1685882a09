import Atmem.Graph.Helpers.Rollback
/-!
# Repairs of identity

A commit compares the digest it is confirmed under with the one its preview
carries; neither is compared with the preview itself, nor the preview with
the rows. And an entity that a split made is deleted first when it is rolled
back, while its alias still points at it. Apart from these, a commit is of
what was previewed and its rollback writes back every row.
-/

namespace Atmem.Graph

open Relational Statement

variable (H : Hashing) (normalize : String → String)

/-! ## What is said of a commit -/

/-- The preview hashes to the digest that is confirmed. -/
def Commit.Confirmed (c : Commit) : Prop := c.preview.digest H = c.confirmSha256

/-- The rows of the entities named are those previewed. -/
def Commit.Current (c : Commit) (t : Tables) : Prop :=
  beforeOf t c.preview.subjectId c.preview.entityIds = c.preview.before

/-- **A commit, made of the database `d`**, is of what was previewed and
confirmed; otherwise it changes nothing; and its rollback, made next, goes
through and restores the rows. -/
structure Commit.Repairs (c : Commit) (d : Database) : Prop where
  previewed : ∀ r d', commit normalize c d = (.ok r, d') → c.Confirmed H ∧ c.Current d.val
  otherwise : ¬ (c.Confirmed H ∧ c.Current d.val) → (commit normalize c d).2 = d
  refused : ∀ e d', commit normalize c d = (.error e, d') → d' = d
  undone : ∀ r d', commit normalize c d = (.ok r, d') → ∀ now, ∃ r' d'',
    rollback r.mutationId now d' = (.ok r', d'') ∧ d''.val.entities = d.val.entities ∧
      d''.val.aliases = d.val.aliases ∧ d''.val.edges = d.val.edges

/-! ## When -/

/-- The schema lets the action through: a name that no other entity has, a
target that is there, an alias of the entity. -/
structure Commit.Admitted (c : Commit) (t : Tables) : Prop where
  named : c.preview.action ∈ ["rename", "delete", "merge", "supersede", "split"] →
    c.preview.entityIds ≠ []
  rename : c.preview.action = "rename" → ∀ id, c.preview.entityIds.head? = some id →
    ∀ e ∈ t.entities, c.names id e = true → ∀ e' ∈ t.entities,
      e'.name = (c.preview.subjectId, normalize c.preview.name, e.kind) → e' = e
  merge : c.preview.action = "merge" ∨ c.preview.action = "supersede" →
    (∃ e ∈ t.entities, e.subjectId = c.preview.subjectId ∧ e.id ∈ c.preview.entityIds.tail) →
      ∃ target ∈ c.preview.entityIds.head?, target ∈ t.entities.map (·.id)
  split : c.preview.action = "split" → c.newId ∉ t.entities.map (·.id) ∧
    (c.preview.subjectId, normalize c.preview.name, "other") ∉ t.entities.map Entity.name ∧
    ∃ id ∈ c.preview.entityIds.head?, (c.splitAlias? t id).isSome

/-- The commit is not refused. -/
structure Commit.GoesThrough (c : Commit) (t : Tables) : Prop where
  confirms : c.confirmSha256 = c.preview.previewSha256
  actor : strip c.actor ≠ []
  reason : strip c.reason ≠ []
  fresh : c.mutationId ∉ t.mutations.map (·.mutationId)
  admitted : c.Admitted normalize t

/-- A commit that goes through is of a preview that carries its own digest and
of rows that are as it shows them, and is no split. -/
def Commit.Faithful (c : Commit) (d : Database) : Prop :=
  c.GoesThrough normalize d.val →
    c.Confirmed H ∧ c.Current d.val ∧ c.preview.action ≠ "split"

/-! ## A commit that goes through -/

section GoesThrough

variable {H : Hashing} {normalize : String → String} {c : Commit} {d d' : Database}

theorem exists_head_of_ne_nil {ids : List String} (h : ids ≠ []) : ∃ id, ids.head? = some id := by
  rcases ids with - | ⟨id, ids⟩
  · exact absurd rfl h
  · exact ⟨id, rfl⟩

theorem ne_nil_of_head {ids : List String} {id : String} (h : ids.head? = some id) : ids ≠ [] := by
  rintro rfl
  cases h

/-- Exactly what is admitted is carried out. -/
theorem act_ok_iff :
    (∃ created d', c.act normalize d = .ok (created, d')) ↔ c.Admitted normalize d.val := by
  unfold Commit.act
  -- the actions, in the order they are looked for
  by_cases hrename : c.preview.action = "rename"
  · rw [if_pos hrename]
    constructor
    · rintro ⟨created, d', h⟩
      obtain ⟨-, id, hid, hrows⟩ := Commit.rename_eq_ok.mp h
      have hsound := d'.property
      rw [hrows] at hsound
      simp only [Tables.rewritten, List.map_id'] at hsound
      refine ⟨fun _ => ne_nil_of_head hid, fun _ id' hid' => ?_, ?_, ?_⟩
      · rw [hid] at hid'
        obtain rfl := Option.some.inj hid'
        exact (Commit.sound_rename_iff d.property).mp hsound
      all_goals
        intro hother
        simp [hrename] at hother
    · intro h
      obtain ⟨id, hid⟩ := exists_head_of_ne_nil (h.named (by simp [hrename]))
      have hsound : Tables.Sound { d.val with
          entities := d.val.entities.map (c.renames normalize id) } :=
        (Commit.sound_rename_iff d.property).mpr (h.rename hrename id hid)
      refine ⟨[], ⟨_, hsound⟩, Commit.rename_eq_ok.mpr ⟨rfl, id, hid, ?_⟩⟩
      simp only [Tables.rewritten, List.map_id']
  · rw [if_neg hrename]
    by_cases hdelete : c.preview.action = "delete"
    · rw [if_pos hdelete]
      constructor
      · rintro ⟨created, d', h⟩
        obtain ⟨-, id, hid, -⟩ := Commit.delete_eq_ok.mp h
        refine ⟨fun _ => ne_nil_of_head hid, ?_, ?_, ?_⟩
        all_goals
          intro hother
          simp [hdelete] at hother
      · intro h
        obtain ⟨id, hid⟩ := exists_head_of_ne_nil (h.named (by simp [hdelete]))
        exact ⟨[], ⟨_, Commit.sound_deleted d.property id⟩,
          Commit.delete_eq_ok.mpr ⟨rfl, id, hid, rfl⟩⟩
    · rw [if_neg hdelete]
      by_cases hmerge : c.preview.action = "merge" ∨ c.preview.action = "supersede"
      · rw [if_pos hmerge]
        constructor
        · rintro ⟨created, d', h⟩
          obtain ⟨-, target, hid, htarget, -⟩ := Commit.merge_eq_ok.mp h
          refine ⟨fun _ => ne_nil_of_head hid, fun hother => absurd hother hrename,
            fun _ hsources => ⟨target, hid, htarget hsources⟩, ?_⟩
          intro hother
          simp [hother] at hmerge
        · intro h
          have hnamed : c.preview.action ∈
              ["rename", "delete", "merge", "supersede", "split"] := by
            rcases hmerge with h | h
            · simp [h]
            · simp [h]
          obtain ⟨target, hid⟩ := exists_head_of_ne_nil (h.named hnamed)
          have htarget : (∃ e ∈ d.val.entities, e.subjectId = c.preview.subjectId ∧
              e.id ∈ c.preview.entityIds.tail) → target ∈ d.val.entities.map (·.id) := by
            intro hsources
            obtain ⟨target', hid', hmem⟩ := h.merge hmerge hsources
            rw [hid] at hid'
            obtain rfl := Option.some.inj hid'
            exact hmem
          exact ⟨[], ⟨_, Commit.sound_merged d.property htarget⟩,
            Commit.merge_eq_ok.mpr ⟨rfl, target, hid, htarget, rfl⟩⟩
      · rw [if_neg hmerge]
        by_cases hsplit : c.preview.action = "split"
        · rw [if_pos hsplit]
          constructor
          · rintro ⟨created, d', h⟩
            obtain ⟨-, id, a, hid, halias, hnew, hname, -⟩ := Commit.split_eq_ok.mp h
            exact ⟨fun _ => ne_nil_of_head hid, fun hother => absurd hother hrename,
              fun hother => absurd hother hmerge,
              fun _ => ⟨hnew, hname, id, hid, by rw [halias]; rfl⟩⟩
          · intro h
            obtain ⟨hnew, hname, id, hid, halias⟩ := h.split hsplit
            obtain ⟨a, ha⟩ := Option.isSome_iff_exists.mp halias
            exact ⟨[c.newId], ⟨_, Commit.sound_split d.property hnew hname⟩,
              Commit.split_eq_ok.mpr ⟨rfl, id, a, hid, ha, hnew, hname, rfl⟩⟩
        · rw [if_neg hsplit]
          -- no action: nothing is changed
          constructor
          · rintro -
            refine ⟨?_, fun hother => absurd hother hrename, fun hother => absurd hother hmerge,
              fun hother => absurd hother hsplit⟩
            intro hnamed
            simp only [List.mem_cons, List.not_mem_nil, or_false] at hnamed
            rcases hnamed with h | h | h | h | h
            · exact absurd h hrename
            · exact absurd h hdelete
            · exact absurd (.inl h) hmerge
            · exact absurd (.inr h) hmerge
            · exact absurd h hsplit
          · intro _
            exact ⟨[], d, rfl⟩

/-- **A commit that is no split changes rows it was shown**, and those alone. -/
theorem act_changes {created : List String} (h : c.act normalize d = .ok (created, d'))
    (hsplit : c.preview.action ≠ "split") :
    created = [] ∧ ∃ g ga gd, c.Changes g ga gd ∧ d'.val = d.val.rewritten g ga gd := by
  unfold Commit.act at h
  split at h
  · obtain ⟨hcreated, id, hid, hrows⟩ := Commit.rename_eq_ok.mp h
    exact ⟨hcreated, _, _, _, Commit.changes_rename (List.mem_of_mem_head? hid), hrows⟩
  · split at h
    · obtain ⟨hcreated, id, hid, hrows⟩ := Commit.delete_eq_ok.mp h
      exact ⟨hcreated, _, _, _, Commit.changes_delete (List.mem_of_mem_head? hid), hrows⟩
    · split at h
      · obtain ⟨hcreated, target, -, -, hrows⟩ := Commit.merge_eq_ok.mp h
        exact ⟨hcreated, _, _, _, Commit.changes_merge fun id hid => List.mem_of_mem_tail hid,
          hrows⟩
      · -- an action that writes nothing
        obtain ⟨rfl, rfl⟩ := pure_eq_ok.mp h
        refine ⟨rfl, _, _, _, Commit.changes_nothing, ?_⟩
        simp [Tables.rewritten]

/-- What an action leaves of the mutations. -/
theorem mutations_of_act {created : List String} (h : c.act normalize d = .ok (created, d')) :
    d'.val.mutations = d.val.mutations := by
  by_cases hsplit : c.preview.action = "split"
  · unfold Commit.act at h
    simp only [hsplit, String.reduceEq, if_false, or_self, if_true] at h
    obtain ⟨-, id, a, -, -, -, -, hrows⟩ := Commit.split_eq_ok.mp h
    rw [hrows]
    rfl
  · obtain ⟨-, g, ga, gd, -, hrows⟩ := act_changes h hsplit
    rw [hrows]
    rfl

/-- **A commit goes through exactly where nothing refuses it.** -/
theorem commit_ok_iff :
    (∃ r d', commit normalize c d = (.ok r, d')) ↔ c.GoesThrough normalize d.val := by
  constructor
  · rintro ⟨r, d', h⟩
    obtain ⟨⟨hconfirm, hactor, hreason⟩, created, d₁, hact, hrecord, -⟩ :=
      Commit.statements_eq_ok.mp (transaction_eq_ok.mp h)
    refine ⟨hconfirm, hactor, hreason, ?_, act_ok_iff.mp ⟨created, d₁, hact⟩⟩
    rw [← mutations_of_act hact]
    exact (Commit.record_eq_ok.mp hrecord).1
  · intro h
    obtain ⟨created, d₁, hact⟩ := act_ok_iff.mpr h.admitted
    obtain ⟨d', hrecord⟩ := Commit.exists_record created (d := d₁) (c := c) (by
      rw [mutations_of_act hact]
      exact h.fresh)
    exact ⟨_, d', transaction_eq_ok.mpr (Commit.statements_eq_ok.mpr
      ⟨⟨h.confirms, h.actor, h.reason⟩, created, d₁, hact, hrecord, rfl⟩)⟩

/-- The row of a commit is the one its rollback finds. -/
theorem mutation_found {mutations : List Mutation} {created : List String}
    (hfresh : c.mutationId ∉ mutations.map (·.mutationId)) :
    (mutations ++ [c.mutation created]).find? (fun r => r.mutationId = c.mutationId) =
      some (c.mutation created) := by
  rw [List.find?_append, List.find?_eq_none.mpr]
  · simp [Commit.mutation]
  · intro r hr hid
    exact hfresh (List.mem_map.mpr ⟨r, hr, by simpa using hid⟩)

/-- **The rollback of a commit of current rows, where it is no split, restores
them.** -/
theorem undone_of_current (hcurrent : c.Current d.val) (hsplit : c.preview.action ≠ "split")
    {r : Receipt} (h : commit normalize c d = (.ok r, d')) (now : String) :
    ∃ r' d'', rollback r.mutationId now d' = (.ok r', d'') ∧
      d''.val.entities = d.val.entities ∧ d''.val.aliases = d.val.aliases ∧
        d''.val.edges = d.val.edges := by
  obtain ⟨-, created, d₁, hact, hrecord, rfl⟩ :=
    Commit.statements_eq_ok.mp (transaction_eq_ok.mp h)
  obtain ⟨rfl, g, ga, gd, hchanges, hrows⟩ := act_changes hact hsplit
  obtain ⟨hfresh, hrows'⟩ := Commit.record_eq_ok.mp hrecord
  have hfound : d'.val.mutations.find? (fun r => r.mutationId = c.mutationId) =
      some (c.mutation []) := by
    rw [hrows']
    exact mutation_found hfresh
  obtain ⟨d₂, hrestored, hrows₂⟩ := restoreRows_ok (d := d') (m := c.mutation []) hchanges
    d.property (by rw [hrows', hrows]; rfl) (by rw [hrows', hrows]; rfl)
    (by rw [hrows', hrows]; rfl) rfl hcurrent.symm
  obtain ⟨r', d'', hroll, hrows''⟩ := rollback_of_restored now hfound rfl hrestored
  exact ⟨r', d'', hroll, by rw [hrows'', hrows₂], by rw [hrows'', hrows₂], by rw [hrows'', hrows₂]⟩

/-- **A split is not rolled back**: the alias it moved holds its entity. -/
theorem split_not_undone (hsplit : c.preview.action = "split") {r r' : Receipt} {now : String}
    {d'' : Database} (h : commit normalize c d = (.ok r, d')) :
    rollback r.mutationId now d' ≠ (.ok r', d'') := by
  intro hroll
  obtain ⟨-, created, d₁, hact, hrecord, rfl⟩ :=
    Commit.statements_eq_ok.mp (transaction_eq_ok.mp h)
  unfold Commit.act at hact
  simp only [hsplit, String.reduceEq, if_false, or_self, if_true] at hact
  obtain ⟨rfl, id, a, -, halias, -, -, hrows⟩ := Commit.split_eq_ok.mp hact
  obtain ⟨hfresh, hrows'⟩ := Commit.record_eq_ok.mp hrecord
  obtain ⟨m, d₂, hfound, hrestored, -⟩ := restored_of_rollback hroll
  have hfound' : d'.val.mutations.find? (fun r => r.mutationId = c.mutationId) =
      some (c.mutation [c.newId]) := by
    rw [hrows']
    exact mutation_found hfresh
  obtain rfl := Option.some.inj (hfound.symm.trans hfound')
  obtain ⟨ha, hid⟩ := Commit.splitAlias?_eq_some halias
  refine restoreRows_ne_ok c.newId rfl ?_ hrestored
  refine ⟨{ a with entityId := c.newId }, ?_, rfl⟩
  rw [hrows', hrows]
  exact List.mem_map.mpr ⟨a, ha, if_pos hid⟩

/-- **What is said of a commit holds exactly where it is faithful.** -/
theorem repairs_iff : c.Repairs H normalize d ↔ c.Faithful H normalize d := by
  constructor
  · intro h hgoes
    obtain ⟨r, d', hcommit⟩ := commit_ok_iff.mpr hgoes
    obtain ⟨hconfirmed, hcurrent⟩ := h.previewed r d' hcommit
    refine ⟨hconfirmed, hcurrent, fun hsplit => ?_⟩
    obtain ⟨r', d'', hroll, -⟩ := h.undone r d' hcommit ""
    exact split_not_undone hsplit hcommit hroll
  · intro h
    have hrefused : ∀ e d', commit normalize c d = (.error e, d') → d' = d := by
      intro e d' he
      have := transaction_error (x := c.statements normalize) (d := d) (e := e)
        (congrArg Prod.fst he)
      rw [← this]
      exact (congrArg Prod.snd he).symm
    refine ⟨?_, ?_, hrefused, ?_⟩
    · intro r d' hcommit
      obtain ⟨hconfirmed, hcurrent, -⟩ := h (commit_ok_iff.mp ⟨r, d', hcommit⟩)
      exact ⟨hconfirmed, hcurrent⟩
    · intro hnot
      rcases hanswer : commit normalize c d with ⟨e | r, d'⟩
      · exact hrefused e d' hanswer
      · obtain ⟨hconfirmed, hcurrent, -⟩ := h (commit_ok_iff.mp ⟨r, d', hanswer⟩)
        exact absurd ⟨hconfirmed, hcurrent⟩ hnot
    · intro r d' hcommit now
      obtain ⟨-, hcurrent, hsplit⟩ := h (commit_ok_iff.mp ⟨r, d', hcommit⟩)
      exact undone_of_current hcurrent hsplit hcommit now

end GoesThrough

/-! ## Runs -/

/-- The tables after calls. -/
def afterCalls (calls : List IdentityCall) (d : Database) : Database :=
  calls.foldl (fun d call => call.leaves normalize d) d

/-- **Repairs of identity over a run**: of the commits of any run of
previews, commits, rollbacks and other operations, each is of what was
previewed and is undone exactly, if and only if each that goes through is of
a preview that carries its own digest and of rows as previewed, and is no
split. -/
theorem commits_are_of_what_was_previewed (start : Database) (calls : List IdentityCall) :
    (∀ before c after, calls = before ++ .commit c :: after →
      c.Repairs H normalize (afterCalls normalize before start)) ↔
    ∀ before c after, calls = before ++ .commit c :: after →
      c.Faithful H normalize (afterCalls normalize before start) := by
  constructor
  · intro h before c after hcalls
    exact repairs_iff.mp (h before c after hcalls)
  · intro h before c after hcalls
    exact repairs_iff.mpr (h before c after hcalls)

/-! ## Where it is not -/

section Examples

/-- Of the digests nothing is used here but that a preview carries its own. -/
def plainHashing : Hashing := ⟨fun _ => "sha256:0", fun _ => "0"⟩

/-- A person. -/
def patEntity : Entity where
  id := "ent_pat"
  subjectId := "user"
  canonical := "Pat"
  normalized := "pat"
  kind := "person"
  status := .active
  sourceRecord := some "rec_1"
  createdAt := "2026-01-01T00:00:00Z"

/-- The name of the person. -/
def patAlias : Alias where
  id := "ali_pat"
  entityId := "ent_pat"
  subjectId := "user"
  surface := "Pat"
  normalized := "pat"
  sourceRecord := some "rec_1"
  trustTier := .trustedUser
  status := .active
  createdAt := "2026-01-01T00:00:00Z"

/-- An empty database breaks no constraint. -/
theorem sound_empty : Tables.Sound {} := by decide +kernel

/-- A database of no rows. -/
def emptyDatabase : Database := ⟨{}, sound_empty⟩

/-- The entity and its alias are indexed. -/
def patIndexed : IdentityCall :=
  .other (execute fun t => { t with entities := [patEntity], aliases := [patAlias] })

/-- A preview of the entity as it was indexed. -/
def patPreview (action name : String) : Preview :=
  let shown : Preview := {
    subjectId := "user", action := action, entityIds := ["ent_pat"], newName := some name,
    aliasId := some "ali_pat",
    before := { entities := [patEntity], aliases := [patAlias], edges := [] },
    previewSha256 := "" }
  { shown with previewSha256 := shown.digest plainHashing }

/-- The commit of a repair of the person, as it was previewed. -/
def patCommit (action name mutationHex : String) : Commit where
  preview := patPreview action name
  confirmSha256 := (patPreview action name).previewSha256
  actor := "owner"
  reason := "repair"
  mutationHex := mutationHex
  newHex := "1"
  now := "2026-01-02T00:00:00Z"

/-- The preview is the service's own. -/
example : preview plainHashing (afterCalls id [patIndexed] emptyDatabase).val
    { subjectId := "user", action := "rename", entityIds := ["ent_pat"],
      newName := some "Paddy", aliasId := some "ali_pat" } =
    .ok (patPreview "rename" "Paddy") := by decide +kernel

/-- The commit confirms what was previewed. -/
theorem patCommit_confirms (action name mutationHex : String) :
    (patCommit action name mutationHex).confirmSha256 =
      (patCommit action name mutationHex).preview.previewSha256 := rfl

/-- The renaming of the example is admitted. -/
theorem rename_admitted : (patCommit "rename" "Paddy" "2").Admitted id
    (afterCalls id [patIndexed, .commit (patCommit "rename" "Patricia" "1")]
      emptyDatabase).val where
  named := by decide +kernel
  rename := by
    intro _ id hid
    obtain rfl : id = "ent_pat" := by simpa [patCommit, patPreview] using hid.symm
    decide +kernel
  merge := by decide +kernel
  split := by decide +kernel

/-- So is the split. -/
theorem split_admitted : (patCommit "split" "Patricia" "1").Admitted id
    (afterCalls id [patIndexed] emptyDatabase).val where
  named := by decide +kernel
  rename := by decide +kernel
  merge := by decide +kernel
  split := by decide +kernel

/-- Two renames are previewed; the second is committed though the first has
changed the entity. And a split that is committed is not rolled back. -/
theorem a_commit_is_of_other_rows_than_previewed :
    ¬ (patCommit "rename" "Paddy" "2").Repairs plainHashing id
      (afterCalls id [patIndexed, .commit (patCommit "rename" "Patricia" "1")]
        emptyDatabase) ∧
    ¬ (patCommit "split" "Patricia" "1").Repairs plainHashing id
      (afterCalls id [patIndexed] emptyDatabase) := by
  constructor
  · intro h
    have hgoes : (patCommit "rename" "Paddy" "2").GoesThrough id
        (afterCalls id [patIndexed, .commit (patCommit "rename" "Patricia" "1")]
          emptyDatabase).val :=
      ⟨patCommit_confirms _ _ _, by decide +kernel, by decide +kernel, by decide +kernel,
        rename_admitted⟩
    obtain ⟨r, d', hcommit⟩ := commit_ok_iff.mpr hgoes
    have hcurrent := (h.previewed r d' hcommit).2
    unfold Commit.Current at hcurrent
    revert hcurrent
    decide +kernel
  · intro h
    have hgoes : (patCommit "split" "Patricia" "1").GoesThrough id
        (afterCalls id [patIndexed] emptyDatabase).val :=
      ⟨patCommit_confirms _ _ _, by decide +kernel, by decide +kernel, by decide +kernel,
        split_admitted⟩
    obtain ⟨r, d', hcommit⟩ := commit_ok_iff.mpr hgoes
    obtain ⟨r', d'', hroll, -⟩ := h.undone r d' hcommit ""
    exact split_not_undone rfl hcommit hroll

end Examples

end Atmem.Graph
