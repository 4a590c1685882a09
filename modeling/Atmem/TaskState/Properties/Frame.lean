import Atmem.TaskState.Helpers.Writes
import Atmem.TaskState.Properties.Policy
import Mathlib.Data.List.Forall2
/-!
# What an accepted delta leaves as it was

A delta only ever appends: the items and the constraints of the base come
first in what is committed, and each of them is the item or the constraint it
was. The lists are followed through any number of operations by what each
operation makes of one entry.
-/

namespace Atmem

variable {H : Hashing} {state next : TaskState} {profile : TaskProfile}
variable {proposal : TaskStateProposal} {operation : TaskOperation}
variable {operations : List TaskOperation} {nowIso : String} {known : Option (List String)}
variable {allowPrivileged : Bool} {decision : PolicyDecision}

/-- One item, before and after: what a delta may not touch. -/
structure SameItem (before after : TaskItem) : Prop where
  itemId : after.val.itemId = before.val.itemId
  kind : after.val.kind = before.val.kind
  title : after.val.title = before.val.title
  dependsOn : after.val.dependsOn = before.val.dependsOn
  required : after.val.required = before.val.required

/-- One constraint, before and after: it may only become satisfied. -/
structure SameConstraint (before after : TaskConstraint) : Prop where
  constraintId : after.val.constraintId = before.val.constraintId
  text : after.val.text = before.val.text
  required : after.val.requiredForCompletion = before.val.requiredForCompletion
  satisfied : before.val.satisfied = true → after.val.satisfied = true

/-- The entries of the base come first, in their order, each related to what
it became. -/
def ComesFirst {α : Type} (related : α → α → Prop) (base next : List α) : Prop :=
  ∃ first rest, next = first ++ rest ∧ List.Forall₂ related base first

/-- A snapshot, and one a delta made of it. -/
structure AppendOnly (state next : TaskState) : Prop where
  revision : next.val.revision = state.val.revision + 1
  parentRevision : next.val.parentRevision = some state.val.revision
  taskId : next.val.taskId = state.val.taskId
  scope : next.val.scope = state.val.scope
  goal : next.val.goal = state.val.goal
  profile : next.val.profileId = state.val.profileId ∧
    next.val.profileVersion = state.val.profileVersion
  lifecycle : next.val.lifecycle = state.val.lifecycle
  createdAt : next.val.createdAt = state.val.createdAt
  sourcesToInspect : next.val.sourcesToInspect = state.val.sourcesToInspect
  items : ComesFirst SameItem state.val.items next.val.items
  constraints : ComesFirst SameConstraint state.val.constraints next.val.constraints
  completedSources : state.val.completedSources <+: next.val.completedSources
  distinctSources : state.val.completedSources.Nodup → next.val.completedSources.Nodup
  newSources : ∀ source ∈ next.val.completedSources,
    source ∈ state.val.completedSources ∨ source ∈ state.val.sourcesToInspect
  inspectedSources : state.val.completedSources ⊆ state.val.sourcesToInspect →
    next.val.completedSources ⊆ next.val.sourcesToInspect
  schemaLocked : state.val.schemaLocked = true → next.val.schemaLocked = true
  distinctItems : (itemIds next.val.items).Nodup
  knownItems : ∀ item ∈ next.val.items, ∀ id ∈ item.val.dependsOn, id ∈ itemIds next.val.items
  differs : next.val.phase ≠ state.val.phase ∨ next.val.items ≠ state.val.items ∨
    next.val.constraints ≠ state.val.constraints ∨
    next.val.completedSources ≠ state.val.completedSources ∨
    next.val.schemaLocked ≠ state.val.schemaLocked

/-! ## Entries -/

/-- What no operation changes of an item. -/
theorem onItems_frame (operations : List TaskOperation) (item : TaskItemFields) :
    (onItems operations item).kind = item.kind ∧ (onItems operations item).title = item.title ∧
      (onItems operations item).dependsOn = item.dependsOn ∧
      (onItems operations item).required = item.required := by
  induction operations generalizing item with
  | nil => exact ⟨rfl, rfl, rfl, rfl⟩
  | cons operation operations ih =>
    obtain ⟨hkind, htitle, hdepends, hrequired⟩ := ih (operation.onItem item)
    obtain ⟨hkind', htitle', hrequired'⟩ := onItem_frame operation item
    exact ⟨hkind.trans hkind', htitle.trans htitle', hdepends.trans (onItem_dependsOn item),
      hrequired.trans hrequired'⟩

/-- Entries whose fields a function rewrote, in front of others. -/
theorem comesFirst_of_map {F : Type} {P : F → Prop} {related : {f // P f} → {f // P f} → Prop}
    {change : F → F} {base next : List {f // P f}} {rest : List F}
    (h : next.map Subtype.val = (base.map Subtype.val).map change ++ rest)
    (hr : ∀ before after : {f // P f}, after.val = change before.val → related before after) :
    ComesFirst related base next := by
  obtain ⟨first, rest', hsplit, hfirst, -⟩ := List.map_eq_append_iff.mp h
  refine ⟨first, rest', hsplit, ?_⟩
  rw [List.map_map] at hfirst
  clear h hsplit
  induction base generalizing first with
  | nil =>
    rw [List.map_nil, List.map_eq_nil_iff] at hfirst
    rw [hfirst]
    exact .nil
  | cons before base ih =>
    obtain ⟨after, first, rfl, hafter, hfirst⟩ := List.map_eq_cons_iff.mp hfirst
    exact .cons (hr before after hafter) (ih first hfirst)

/-- The items stay where they were. -/
theorem comesFirst_items (h : operations.foldlM applyOperation state.draft = .ok next.draft) :
    ComesFirst SameItem state.val.items next.val.items := by
  obtain ⟨rest, hr⟩ := fieldsOf_foldlM h
  refine comesFirst_of_map hr fun before after hafter => ?_
  obtain ⟨hkind, htitle, hdepends, hrequired⟩ := onItems_frame operations before.val
  exact ⟨by rw [hafter, onItems_itemId], by rw [hafter, hkind], by rw [hafter, htitle],
    by rw [hafter, hdepends], by rw [hafter, hrequired]⟩

/-- So do the constraints. -/
theorem comesFirst_constraints
    (h : operations.foldlM applyOperation state.draft = .ok next.draft) :
    ComesFirst SameConstraint state.val.constraints next.val.constraints := by
  refine comesFirst_of_map (rowsOf_foldlM h) fun before after hafter => ?_
  rw [onConstraints_eq] at hafter
  refine ⟨by rw [hafter], by rw [hafter], by rw [hafter], fun hs => ?_⟩
  rw [hafter]
  exact by simp [hs]

/-! ## The whole delta -/

/-- Two snapshots of one task that differ in what is hashed differ in what a
draft holds. -/
theorem draft_ne_of_semanticDigest_ne {revision : ℕ} {updatedAt : String}
    {progress : Option String}
    (hn : next.val = next.draft.close state revision updatedAt progress)
    (hd : next.semanticDigest H ≠ state.semanticDigest H) : next.draft ≠ state.draft := by
  intro heq
  refine hd (congrArg H.digest ?_)
  unfold TaskState.semanticDict TaskState.toDict
  rw [hn, heq]
  rfl

/-- **Accepted deltas are append-only.** What an accepted proposal commits is
the next revision of the same task: of the base, every item and every
constraint comes first and is what it was, a satisfied constraint stays
satisfied, a source stays inspected and the lock stays on; what is inspected
is what there was to inspect, no two items share an identity, every item that
is waited for is there; and something did change. -/
theorem accepted_delta_append_only
    (h : evaluate H state profile proposal nowIso known allowPrivileged = .ok decision)
    (ha : decision.accepted = true) (hn : decision.nextState = some next) :
    AppendOnly state next := by
  obtain ⟨next', hacc⟩ := acceptance_of_evaluate h ha
  obtain rfl : next' = next := Option.some.inj (hacc.nextState.symm.trans hn)
  obtain ⟨hfold, hclose⟩ := applyOperations_eq_ok hacc.applied
  have hsources : next'.val.completedSources = _ := completedSources_foldlM hfold
  -- a source is inspected by a mark, and a mark is checked against the list
  have hnew : ∀ source ∈ next'.val.completedSources,
      source ∈ state.val.completedSources ∨ source ∈ state.val.sourcesToInspect := by
    intro source hmem
    rw [hsources] at hmem
    exact (mem_foldl_addSource.mp hmem).imp id fun hmark =>
      mem_sourcesToInspect hacc.progressed hmark
  have hsame : next'.val.sourcesToInspect = state.val.sourcesToInspect := by rw [hclose]; rfl
  have hfit := itemsFit next'
  exact
    { revision := by rw [hclose]; rfl
      parentRevision := by rw [hclose]; rfl
      taskId := by rw [hclose]; rfl
      scope := by rw [hclose]; rfl
      goal := by rw [hclose]; rfl
      profile := by rw [hclose]; exact ⟨rfl, rfl⟩
      lifecycle := by rw [hclose]; rfl
      createdAt := by rw [hclose]; rfl
      sourcesToInspect := hsame
      items := comesFirst_items hfold
      constraints := comesFirst_constraints hfold
      completedSources := by
        rw [hsources]
        exact prefix_foldl_addSource _ _
      distinctSources := by
        intro hnodup
        rw [hsources]
        exact nodup_foldl_addSource hnodup _
      newSources := hnew
      inspectedSources := by
        intro hs source hmem
        rw [hsame]
        exact (hnew source hmem).elim (fun hb => hs hb) id
      schemaLocked := schemaLocked_foldlM hfold
      distinctItems := hfit.unique
      knownItems := hfit.known
      -- a draft that is the base's own has its digest, which is refused
      differs := by
        by_contra hsame
        push Not at hsame
        obtain ⟨hphase, hitems, hconstraints, hcompleted, hlocked⟩ := hsame
        refine draft_ne_of_semanticDigest_ne hclose hacc.differs ?_
        unfold TaskState.draft
        rw [hphase, hitems, hconstraints, hcompleted, hlocked] }

/-- The law at a change of an item's content. -/
theorem append_only_of_content :
    ∃ decision next, evaluate exampleHashing completedState generalV1 contentProposal "n" none
      false = .ok decision ∧ AppendOnly completedState next := by
  have hc : ((committed (evaluate exampleHashing completedState generalV1 contentProposal "n" none
      false)).any fun _ => true) = true := by decide +kernel
  obtain ⟨decision, next, he, ha, hn, -⟩ := committed_any hc
  exact ⟨decision, next, he, accepted_delta_append_only he ha hn⟩

end Atmem
