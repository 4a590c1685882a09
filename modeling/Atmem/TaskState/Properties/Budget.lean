import Atmem.TaskState.Model.Context
import Atmem.TaskState.Properties.Policy
/-!
# What fits a budget

The loop that drops optional fields stops at the first prefix of its order
whose text fits, so a package carries as much of a task as the order allows,
whole, or nothing.
-/

namespace Atmem

open Checked

variable {render : Json → String} {H : Hashing} {state : TaskState} {profile : TaskProfile}
variable {scope : AuthorityScope} {contextId preparedAt preparationId : String}
variable {budgetChars : Int} {policyGeneration : ℕ}

/-- Without these fields the text of a task fits the budget. -/
abbrev Fits (render : Json → String) (state : TaskState) (profile : TaskProfile) (budgetChars : Int)
    (omitted : List String) : Prop :=
  withinBudget budgetChars (serialize render state profile omitted) = true

/-- **The loop stops at the first prefix that fits**, or at the end of its
order. -/
theorem reduceBody_spec (render : Json → String) (state : TaskState) (profile : TaskProfile)
    (budgetChars : Int) (fields omitted : List String) :
    ∃ taken rest, fields = taken ++ rest ∧
      reduceBody render state profile budgetChars fields omitted
          (serialize render state profile omitted) =
        (omitted ++ taken, serialize render state profile (omitted ++ taken)) ∧
      (∀ shorter, shorter <+: taken → shorter ≠ taken →
        ¬ Fits render state profile budgetChars (omitted ++ shorter)) ∧
      (Fits render state profile budgetChars (omitted ++ taken) ∨ rest = []) := by
  induction fields generalizing omitted with
  | nil =>
    refine ⟨[], [], rfl, ?_, fun shorter hs hne => absurd (List.prefix_nil.mp hs) hne, .inr rfl⟩
    rw [reduceBody, List.append_nil]
  | cons field fields ih =>
    by_cases hfits : Fits render state profile budgetChars omitted
    · refine ⟨[], field :: fields, rfl, ?_, fun shorter hs hne =>
        absurd (List.prefix_nil.mp hs) hne, .inl (by rw [List.append_nil]; exact hfits)⟩
      rw [reduceBody, if_pos hfits, List.append_nil]
    · obtain ⟨taken, rest, rfl, hloop, hshorter, hend⟩ := ih (omitted ++ [field])
      have hjoin (l : List String) : omitted ++ field :: l = omitted ++ [field] ++ l := by simp
      refine ⟨field :: taken, rest, rfl, ?_, fun shorter hs hne => ?_, ?_⟩
      · rw [reduceBody, if_neg hfits, hjoin taken]
        exact hloop
      · obtain rfl | ⟨tail, rfl, htail⟩ := List.prefix_cons_iff.mp hs
        · rw [List.append_nil]
          exact hfits
        · rw [hjoin]
          exact hshorter tail htail fun heq => hne (by rw [heq])
      · rw [hjoin]
        exact hend

/-- **What the loop drops is the shortest prefix that fits**, where one does. -/
theorem exists_taken (render : Json → String) (state : TaskState) (profile : TaskProfile)
    (budgetChars : Int) :
    ∃ taken, taken <+: contextOrder profile ∧
      reduceBody render state profile budgetChars (contextOrder profile) []
        (serialize render state profile []) = (taken, serialize render state profile taken) ∧
      ∀ omitted, omitted <+: contextOrder profile → Fits render state profile budgetChars omitted →
        Fits render state profile budgetChars taken ∧ taken.length ≤ omitted.length := by
  obtain ⟨taken, rest, horder, hloop, hshorter, hend⟩ :=
    reduceBody_spec render state profile budgetChars (contextOrder profile) []
  simp only [List.nil_append] at hloop hshorter hend
  have hshown : taken <+: contextOrder profile := ⟨rest, horder.symm⟩
  refine ⟨taken, hshown, hloop, fun omitted ho hfits => ?_⟩
  have hlength : taken.length ≤ omitted.length := by
    by_contra hlt
    have hs : omitted <+: taken := List.prefix_of_prefix_length_le ho hshown (by omega)
    exact hshorter omitted hs (fun heq => hlt (by rw [heq])) hfits
  refine ⟨?_, hlength⟩
  rcases hend with hend | rfl
  · exact hend
  · -- nothing was left to drop: what fits is what the loop took
    rw [List.append_nil] at horder
    rw [horder] at ho
    rwa [ho.eq_of_length_le hlength] at hfits

/-- A text that was serialized is not empty: it begins with the preamble. -/
theorem serialize_ne_empty (omitted : List String) :
    serialize render state profile omitted ≠ "" := by
  intro hempty
  have hlist : ['\n'].intercalate (serializeLines render state profile omitted) = [] := by
    have h := congrArg String.toList hempty
    rwa [serialize, String.toList_ofList] at h
  -- the preamble is not the only line
  have hchar : '\n' ∈ ['\n'].intercalate (serializeLines render state profile omitted) := by
    rw [serializeLines, List.intercalate_cons_cons]
    exact List.mem_append_left _ (List.mem_append_right _ (List.mem_singleton_self _))
  rw [hlist] at hchar
  cases hchar

/-- Where the body fits, the package carries it. -/
theorem prepare_of_fits (H : Hashing) (scope : AuthorityScope)
    (contextId preparedAt preparationId : String) (policyGeneration : ℕ) {taken : List String}
    (hloop : reduceBody render state profile budgetChars (contextOrder profile) []
      (serialize render state profile []) = (taken, serialize render state profile taken))
    (hfits : Fits render state profile budgetChars taken) :
    ∃ package, prepare render H state profile scope contextId preparedAt preparationId budgetChars
        policyGeneration = .ok package ∧
      package.val = injectedFields H state profile scope contextId preparedAt preparationId
        policyGeneration taken (serialize render state profile taken) := by
  have hcheck : (injectedFields H state profile scope contextId preparedAt preparationId
      policyGeneration taken (serialize render state profile taken)).postInit = .ok () := by
    simp only [TaskContextPackageFields.postInit, bind_eq_ok, ensure_eq_ok]
    exact ⟨fun hw => (nomatch hw), fun _ => serialize_ne_empty taken⟩
  refine ⟨⟨_, hcheck⟩, ?_, rfl⟩
  simp only [prepare, hloop, Bool.not_eq_true']
  rw [if_neg (by rw [Bool.not_eq_false]; exact hfits)]
  exact make_of_ok hcheck

/-- Where it does not, the package is withheld. -/
theorem prepare_of_not_fits (H : Hashing) (scope : AuthorityScope)
    (contextId preparedAt preparationId : String) (policyGeneration : ℕ) {taken : List String}
    (hloop : reduceBody render state profile budgetChars (contextOrder profile) []
      (serialize render state profile []) = (taken, serialize render state profile taken))
    (hfits : ¬ Fits render state profile budgetChars taken) :
    ∃ package, prepare render H state profile scope contextId preparedAt preparationId budgetChars
        policyGeneration = .ok package ∧
      package.val = withheldFields scope state.val.taskId state.val.revision contextId
        [.taskContextBudgetExceeded] preparedAt preparationId profile.val.version
        policyGeneration := by
  have hcheck : (withheldFields scope state.val.taskId state.val.revision contextId
      [.taskContextBudgetExceeded] preparedAt preparationId profile.val.version
      policyGeneration).postInit = .ok () := by
    simp only [TaskContextPackageFields.postInit, bind_eq_ok, ensure_eq_ok]
    exact ⟨fun _ => rfl, fun hi => (nomatch hi)⟩
  refine ⟨⟨_, hcheck⟩, ?_, rfl⟩
  simp only [prepare, hloop, Bool.not_eq_true']
  rw [if_pos (by rw [← Bool.not_eq_true]; exact hfits)]
  exact make_of_ok hcheck

/-- **Budgeting is least destructive and never truncates.** `prepare` always
answers. The package is injected if and only if the text of the task fits the
budget without some prefix of the order, which is the profile's own or, where
it declares none, the default one; then what is omitted is the shortest such
prefix, and the context is the text without it, within the budget. Otherwise
the package is withheld, and empty. -/
theorem prepare_least_destructive (render : Json → String) (H : Hashing) (state : TaskState)
    (profile : TaskProfile) (scope : AuthorityScope)
    (contextId preparedAt preparationId : String) (budgetChars : Int) (policyGeneration : ℕ) :
    ∃ package, prepare render H state profile scope contextId preparedAt preparationId budgetChars
        policyGeneration = .ok package ∧
      (package.val.disposition = .injected ↔ ∃ omitted, omitted <+: contextOrder profile ∧
        Fits render state profile budgetChars omitted) ∧
      (package.val.disposition = .injected →
        package.val.omittedFields <+: contextOrder profile ∧
        (∀ omitted, omitted <+: contextOrder profile →
          Fits render state profile budgetChars omitted →
          package.val.omittedFields.length ≤ omitted.length) ∧
        package.val.context = serialize render state profile package.val.omittedFields ∧
        (package.val.context.utf8ByteSize : Int) ≤ budgetChars) ∧
      (package.val.disposition ≠ .injected →
        package.val.disposition = .withheld ∧ package.val.context = "") := by
  obtain ⟨taken, hshown, hloop, hleast⟩ := exists_taken render state profile budgetChars
  by_cases hfits : Fits render state profile budgetChars taken
  · obtain ⟨package, hok, hval⟩ := prepare_of_fits H scope contextId preparedAt preparationId
      policyGeneration hloop hfits
    refine ⟨package, hok, ?_⟩
    rw [hval]
    refine ⟨⟨fun _ => ⟨taken, hshown, hfits⟩, fun _ => rfl⟩, fun _ => ?_, fun hne => absurd rfl hne⟩
    exact ⟨hshown, fun omitted ho hf => (hleast omitted ho hf).2, rfl, of_decide_eq_true hfits⟩
  · obtain ⟨package, hok, hval⟩ := prepare_of_not_fits H scope contextId preparedAt preparationId
      policyGeneration hloop hfits
    refine ⟨package, hok, ?_⟩
    rw [hval]
    refine ⟨⟨fun hi => (nomatch hi), ?_⟩, fun hi => (nomatch hi), fun _ => ⟨rfl, rfl⟩⟩
    rintro ⟨omitted, ho, hf⟩
    exact absurd (hleast omitted ho hf).1 hfits

/-! ## A profile that declares no order -/

/-- A line more is a longer text. -/
theorem utf8ByteSize_lt_of_line (before after : List (List Char)) (line : List Char)
    (hafter : after ≠ []) :
    (String.ofList (['\n'].intercalate (before ++ after))).utf8ByteSize <
      (String.ofList (['\n'].intercalate (before ++ line :: after))).utf8ByteSize := by
  induction before with
  | nil =>
    obtain ⟨next, rest, rfl⟩ := List.exists_cons_of_ne_nil hafter
    rw [List.nil_append, List.nil_append, List.intercalate_cons_cons]
    have hbreak : 0 < (String.ofList ['\n']).utf8ByteSize := by decide
    simp only [String.ofList_append, String.utf8ByteSize_append]
    omega
  | cons first before ih =>
    have hcons (l : List (List Char)) (hl : l ≠ []) :
        ['\n'].intercalate (first :: l) = first ++ ['\n'] ++ ['\n'].intercalate l := by
      obtain ⟨next, rest, rfl⟩ := List.exists_cons_of_ne_nil hl
      exact List.intercalate_cons_cons
    rw [List.cons_append, List.cons_append, hcons _ (by simp [hafter]), hcons _ (by simp)]
    simp only [String.ofList_append, String.utf8ByteSize_append]
    omega

/-- Without the sources it has inspected, the text of a task is shorter. -/
theorem serialize_completedSources_lt (render : Json → String) (state : TaskState)
    (profile : TaskProfile) (hsources : state.val.completedSources ≠ []) :
    (serialize render state profile ["completed_sources"]).utf8ByteSize <
      (serialize render state profile []).utf8ByteSize := by
  have hitems : itemLines render state ["completed_sources"] = itemLines render state [] := by
    rw [itemLines, itemLines]
    rfl
  obtain ⟨sources, line, hall, hwithout⟩ : ∃ sources line,
      sourceLines state [] = sources ++ [line] ∧
      sourceLines state ["completed_sources"] = sources := by
    refine ⟨_, _, congrArg (_ ++ ·) (if_neg fun ho => ?_), ?_⟩
    · exact ho.elim (fun hmem => nomatch hmem) hsources
    · rw [sourceLines, if_pos (c := "completed_sources" ∈ _ ∨ _) (.inl (List.mem_singleton_self _)),
        List.append_nil]
      simp only [List.mem_singleton, List.not_mem_nil, String.reduceEq]
  obtain ⟨inside, hinside, hshorter⟩ : ∃ inside,
      fencedLines render state profile [] = inside ++ [line] ∧
      fencedLines render state profile ["completed_sources"] = inside :=
    ⟨_, by rw [fencedLines, hall, ← List.append_assoc], by rw [fencedLines, hitems, hwithout]⟩
  rw [serialize, serialize, serializeLines, serializeLines, hinside, hshorter]
  generalize preamble.toList = first, fenceOpen.toList = second, fenceClose.toList = last
  have hlt := utf8ByteSize_lt_of_line (first :: second :: inside) [last] line
    (List.cons_ne_nil _ _)
  simpa only [List.cons_append, List.append_assoc, List.nil_append] using hlt

/-- The rules of ordinary work, with no order of their own. -/
def orderlessProfile : TaskProfile :=
  ⟨{ generalV1Fields with optionalContextFields := [] }, by decide +kernel⟩

/-- An open task that has inspected one source. -/
def inspectedState : TaskState :=
  ⟨{ exampleFields pendingItem with completedSources := ["s"] }, by decide +kernel⟩

/-- **Where a profile declares no order, the default one is used.** The sources
already inspected are dropped, though the profile names no field that may be. -/
theorem undeclared_order_reduces :
    ¬ ∀ (render : Json → String) (H : Hashing) (state : TaskState) (profile : TaskProfile)
      (scope : AuthorityScope) (contextId preparedAt preparationId : String) (budgetChars : Int)
      (policyGeneration : ℕ) (package : TaskContextPackage),
      prepare render H state profile scope contextId preparedAt preparationId budgetChars
        policyGeneration = .ok package →
      (package.val.disposition = .injected ↔
        ∃ omitted, omitted <+: profile.val.optionalContextFields ∧
          Fits render state profile budgetChars omitted) := by
  intro h
  obtain ⟨budget, hbudget⟩ : ∃ budget : Int, budget =
      (serialize (fun _ => "") inspectedState orderlessProfile ["completed_sources"]).utf8ByteSize :=
    ⟨_, rfl⟩
  -- the default order drops the sources first, and without them the text fits
  have hdefault : Fits (fun _ => "") inspectedState orderlessProfile budget ["completed_sources"] :=
    decide_eq_true (Int.le_of_eq hbudget.symm)
  obtain ⟨taken, -, hloop, hleast⟩ := exists_taken (fun _ => "") inspectedState orderlessProfile
    budget
  obtain ⟨package, hpackage, hval⟩ := prepare_of_fits exampleHashing exampleScope "c" "" "" 1 hloop
    (hleast _ (by decide +kernel) hdefault).1
  -- the profile's own order drops nothing, and the whole text does not fit
  obtain ⟨omitted, ho, hfits⟩ := (h _ _ _ _ _ _ _ _ _ _ package hpackage).mp
    (congrArg TaskContextPackageFields.disposition hval)
  obtain rfl : omitted = [] := List.prefix_nil.mp ho
  have hlt := serialize_completedSources_lt (fun _ => "") inspectedState orderlessProfile
    (List.cons_ne_nil _ _)
  have hle : ((serialize (fun _ => "") inspectedState orderlessProfile []).utf8ByteSize : Int) ≤
      budget := of_decide_eq_true hfits
  omega

end Atmem
