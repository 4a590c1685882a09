import Atmem.TaskState.Model.Context
/-!
# The fence cannot be forged

A text is inert if neither delimiter of the envelope stands in it and no
character of it breaks a line. Whatever is escaped is inert: the
substitution leaves no delimiter, and what is cut into words and joined
again has none that one of its words did not have. Inert texts put
together around a character no delimiter holds stay inert, and so the
lines a snapshot is rendered to are, but for the two the serializer puts
there.
-/

namespace Atmem

open Occurrence

variable {x y : List Char} {value : String} {limit : ℕ}

/-- A character `str.splitlines` breaks a line at. -/
def isLineBreak (c : Char) : Bool :=
  let n := c.toNat
  (10 ≤ n && n ≤ 13) || (28 ≤ n && n ≤ 30) || n == 0x85 || n == 0x2028 || n == 0x2029

/-- No delimiter stands in the text, and no line breaks in it. -/
structure Inert (text : List Char) : Prop where
  opens : ¬ fenceOpen.toList <:+: text
  closes : ¬ fenceClose.toList <:+: text
  breaks : ∀ c ∈ text, isLineBreak c = false

/-- A character that stands in no delimiter. -/
def separates (c : Char) : Bool := c ∉ fenceOpen.toList && c ∉ fenceClose.toList

/-- What separates is in no fence. -/
theorem not_mem_of_separates {c : Char} (hc : separates c = true) :
    c ∉ fenceOpen.toList ∧ c ∉ fenceClose.toList := by
  simpa [separates] using hc

/-! ## Putting texts together -/

/-- A text without the bracket a delimiter starts with. -/
theorem inert_of_brackets (hx : '<' ∉ x) (hb : ∀ c ∈ x, isLineBreak c = false) : Inert x := by
  have hopens : '<' ∈ fenceOpen.toList := by decide
  have hcloses : '<' ∈ fenceClose.toList := by decide
  exact ⟨fun h => hx (h.subset hopens), fun h => hx (h.subset hcloses), hb⟩

/-- A text that can be seen to hold no bracket and no line break. -/
theorem inert_of_all (hx : (x.all fun c => c ≠ '<' && !isLineBreak c) = true) : Inert x := by
  simp only [List.all_eq_true, Bool.and_eq_true, decide_eq_true_eq, Bool.not_eq_true'] at hx
  exact inert_of_brackets (fun h => (hx _ h).1 rfl) fun c hc => (hx c hc).2

/-- Inert texts stay inert behind a separator. -/
theorem Inert.append_cons {c : Char} (hx : Inert x) (hc : separates c = true)
    (hy : Inert (c :: y)) : Inert (x ++ c :: y) := by
  obtain ⟨hopen, hclose⟩ := not_mem_of_separates hc
  refine ⟨fun h => ?_, fun h => ?_, fun d hd => ?_⟩
  · rcases infix_append_cons hopen h with h | h
    · exact hx.opens h
    · exact hy.opens (List.infix_cons h)
  · rcases infix_append_cons hclose h with h | h
    · exact hx.closes h
    · exact hy.closes (List.infix_cons h)
  · rcases List.mem_append.mp hd with hd | hd
    · exact hx.breaks d hd
    · exact hy.breaks d hd

/-- What follows starts with a character of no delimiter. -/
theorem Inert.append (hx : Inert x) (hy : Inert y) (h : ∀ c ∈ y.head?, separates c = true) :
    Inert (x ++ y) := by
  rcases y with - | ⟨c, y⟩
  · rwa [List.append_nil]
  · exact hx.append_cons (h c rfl) hy

/-- What comes before ends with one. -/
theorem Inert.append_of_last (hx : Inert x) (hy : Inert y)
    (h : ∀ c ∈ x.getLast?, separates c = true) : Inert (x ++ y) := by
  rcases List.eq_nil_or_concat x with rfl | ⟨before, c, rfl⟩
  · exact hy
  · obtain ⟨hopen, hclose⟩ := not_mem_of_separates (h c (by simp))
    have hassoc : before.concat c ++ y = before ++ c :: y := by simp
    have hprefix : before <+: before.concat c := by simp
    rw [hassoc]
    refine ⟨fun hf => ?_, fun hf => ?_, fun d hd => ?_⟩
    · rcases infix_append_cons hopen hf with hf | hf
      · exact hx.opens (hf.trans hprefix.isInfix)
      · exact hy.opens hf
    · rcases infix_append_cons hclose hf with hf | hf
      · exact hx.closes (hf.trans hprefix.isInfix)
      · exact hy.closes hf
    · rcases List.mem_append.mp (hassoc ▸ hd) with hd | hd
      · exact hx.breaks d hd
      · exact hy.breaks d hd

/-- A text of the serializer's own that stands before what is escaped: it
ends with a character of no delimiter. -/
def isTitle (text : List Char) : Bool :=
  text.getLast?.all separates && text.all fun c => c ≠ '<' && !isLineBreak c

/-- One that also starts with such a character may stand in between. -/
def isLabel (text : List Char) : Bool := text.head?.all separates && isTitle text

/-- A title is inert. -/
theorem inert_title (hx : isTitle x = true) : Inert x := by
  simp only [isTitle, Bool.and_eq_true, List.all_eq_true, decide_eq_true_eq, Bool.not_eq_true'] at hx
  exact inert_of_brackets (fun h => (hx.2 _ h).1 rfl) fun c hc => (hx.2 c hc).2

theorem Inert.titled (hx : isTitle x = true) (hy : Inert y) : Inert (x ++ y) := by
  refine (inert_title hx).append_of_last hy ?_
  simp only [isTitle, Bool.and_eq_true, Option.all_eq_true] at hx
  exact hx.1

/-- What comes before a label, the label, and what it stands before. -/
theorem Inert.field {l : List Char} (hx : Inert x) (hl : isLabel l = true)
    (hne : l ≠ []) (hy : Inert y) : Inert (x ++ l ++ y) := by
  simp only [isLabel, Bool.and_eq_true, Option.all_eq_true] at hl
  rw [List.append_assoc]
  refine hx.append (hy.titled hl.2) fun c hc => hl.1 c ?_
  rwa [List.head?_append_of_ne_nil _ hne] at hc

/-- Inert rows with such a separator between them. -/
theorem inert_intercalate {separator : List Char} {rows : List (List Char)}
    (hne : separator ≠ []) (hs : ∀ c ∈ separator, separates c = true ∧ isLineBreak c = false)
    (hrows : ∀ row ∈ rows, Inert row) : Inert (separator.intercalate rows) := by
  have hopen : ∀ c ∈ separator, c ∉ fenceOpen.toList :=
    fun c hc => (not_mem_of_separates (hs c hc).1).1
  have hclose : ∀ c ∈ separator, c ∉ fenceClose.toList :=
    fun c hc => (not_mem_of_separates (hs c hc).1).2
  refine ⟨fun h => ?_, fun h => ?_, fun c hc => ?_⟩
  · obtain ⟨row, hrow, hfound⟩ := infix_intercalate hne hopen (by decide) h
    exact (hrows row hrow).opens hfound
  · obtain ⟨row, hrow, hfound⟩ := infix_intercalate hne hclose (by decide) h
    exact (hrows row hrow).closes hfound
  · rcases mem_intercalate hc with hc | ⟨row, hrow, hc⟩
    · exact (hs c hc).2
    · exact (hrows row hrow).breaks c hc

/-! ## Escaping -/

/-- The matcher matches wherever a delimiter stands. -/
theorem fenceLike_open (rest : List Char) : fenceLike (fenceOpen.toList ++ rest) ≠ none := by
  have h : (fenceLike (fenceOpen.toList ++ rest)).isSome = true := rfl
  exact Option.isSome_iff_ne_none.mp h

/-- A fence is like a fence. -/
theorem fenceLike_close (rest : List Char) : fenceLike (fenceClose.toList ++ rest) ≠ none := by
  have h : (fenceLike (fenceClose.toList ++ rest)).isSome = true := rfl
  exact Option.isSome_iff_ne_none.mp h

/-- What is left of a delimiter by a substitution that puts something
between separating characters in place of its matches. -/
theorem infix_of_infix_replaceAll {p text replacement inner : List Char} {first last : Char}
    {matchLength : List Char → Option ℕ} (hhead : replacement.head? = some first)
    (hlast : replacement = inner ++ [last]) (hfirst : first ∉ p) (hends : last ∉ p)
    (hinner : ¬ p <:+: replacement) (hne : p ≠ [])
    (h : p <:+: replaceAll matchLength replacement 0 text) : p <:+: text := by
  obtain ⟨rest, hsuffix, hprefix, -⟩ :=
    exists_unmatched_of_infix_replaceAll hhead hlast hfirst hends hinner hne h
  exact hprefix.isInfix.trans hsuffix.isInfix

/-- A pattern the matcher matches wherever it stands, and that shares no
character with a blank, does not stand in what is escaped. -/
theorem not_infix_escape {p : List Char} (hne : p ≠ [])
    (hmatch : ∀ rest, fenceLike (p ++ rest) ≠ none)
    (hp : '[' ∉ p ∧ ']' ∉ p ∧ ' ' ∉ p ∧ '…' ∉ p) (hreplacement : ¬ p <:+: "[escaped-delimiter]".toList)
    (limit : ℕ) (value : String) : ¬ p <:+: escape limit value := by
  obtain ⟨hopening, hclosing, hblank, hellipsis⟩ := hp
  have hone : ¬ p <:+: [' '] := by
    intro h
    rcases List.infix_cons_iff.mp h with h | h
    · rcases p with - | ⟨c, p⟩
      · exact hne rfl
      · have hc : c = ' ' := (List.cons_prefix_cons.mp h).1
        exact hblank (hc ▸ List.mem_cons_self)
    · exact hne (List.infix_nil.mp h)
  -- No later step puts together what the substitution took apart.
  have hdefanged : ∀ text, ¬ p <:+: replaceAll fenceLike "[escaped-delimiter]".toList 0 text := by
    intro text h
    have hends : "[escaped-delimiter]".toList = "[escaped-delimiter".toList ++ [']'] := rfl
    obtain ⟨rest, -, ⟨after, rfl⟩, hnone⟩ :=
      exists_unmatched_of_infix_replaceAll rfl hends hopening hclosing hreplacement hne h
    exact hmatch after hnone
  have hflattened : ∀ (old : List Char) {text : List Char}, ¬ p <:+: text →
      ¬ p <:+: replaceAll (literal old) [' '] 0 text := by
    intro old text hno h
    have hends : [' '] = [] ++ [' '] := rfl
    exact hno (infix_of_infix_replaceAll rfl hends hblank hblank hone hne h)
  have hwords : ∀ {text : List Char}, ¬ p <:+: text →
      ¬ p <:+: [' '].intercalate (words isSpace text) := by
    intro text hno h
    obtain ⟨word, hword, hfound⟩ := infix_intercalate (List.cons_ne_nil _ _)
      (fun c hc => by rw [List.mem_singleton.mp hc]; exact hblank) hne h
    exact hno (hfound.trans (infix_of_mem_words hword))
  have htext := hwords (hflattened ['\r'] (hflattened ['\n'] (hflattened ['\r', '\n']
    (hdefanged (value.toList.filter (!isControl ·))))))
  unfold escape
  dsimp only
  split
  · intro h
    rcases infix_append_cons hellipsis h with h | h
    · exact htext (h.trans (List.take_prefix _ _).isInfix)
    · exact hne (List.infix_nil.mp h)
  · exact htext

/-- A line break is white space, and no blank. -/
theorem isSpace_of_isLineBreak {c : Char} (hc : isLineBreak c = true) :
    isSpace c = true ∧ c ≠ ' ' ∧ c ≠ '…' := by
  have hn : (10 ≤ c.toNat ∧ c.toNat ≤ 13) ∨ (28 ≤ c.toNat ∧ c.toNat ≤ 30) ∨ c.toNat = 0x85 ∨
      c.toNat = 0x2028 ∨ c.toNat = 0x2029 := by
    simpa [isLineBreak, or_assoc] using hc
  refine ⟨?_, ?_, ?_⟩
  · simp only [isSpace, Bool.or_eq_true, Bool.and_eq_true, decide_eq_true_eq, beq_iff_eq]
    omega
  · rintro rfl
    have hblank : ' '.toNat = 32 := rfl
    omega
  · rintro rfl
    have hellipsis : '…'.toNat = 8230 := rfl
    omega

/-- No line breaks in words that are joined by blanks. -/
theorem isLineBreak_of_mem_words {text : List Char} {c : Char}
    (hc : c ∈ [' '].intercalate (words isSpace text)) : isLineBreak c = false := by
  by_contra hbreak
  obtain ⟨hspace, hblank, -⟩ := isSpace_of_isLineBreak (Bool.not_eq_false _ ▸ hbreak)
  rcases mem_intercalate hc with hc | ⟨word, hword, hin⟩
  · exact hblank (List.mem_singleton.mp hc)
  · have hnot := space_eq_false hword hin
    rw [hspace] at hnot
    cases hnot

/-- **What is escaped is inert**, whatever it was. -/
theorem inert_escape (limit : ℕ) (value : String) : Inert (escape limit value) := by
  refine ⟨not_infix_escape (by decide) fenceLike_open (by decide) (by decide) limit value,
    not_infix_escape (by decide) fenceLike_close (by decide) (by decide) limit value, fun c hc => ?_⟩
  unfold escape at hc
  dsimp only at hc
  split at hc
  · rcases List.mem_append.mp hc with hc | hc
    · exact isLineBreak_of_mem_words (List.mem_of_mem_take hc)
    · rw [List.mem_singleton.mp hc]
      decide
  · exact isLineBreak_of_mem_words hc

theorem inert_escapedRows (separator : String) (rows : List String)
    (hne : separator.toList ≠ [])
    (hs : (separator.toList.all fun c => separates c && !isLineBreak c) = true) :
    Inert (escapedRows separator rows) := by
  have hseparator : ∀ c ∈ separator.toList, separates c = true ∧ isLineBreak c = false := by
    simpa only [List.all_eq_true, Bool.and_eq_true, Bool.not_eq_true'] using hs
  refine inert_intercalate hne hseparator fun row hrow => ?_
  obtain ⟨value, -, rfl⟩ := List.mem_map.mp hrow
  exact inert_escape 128 value

theorem inert_joinedOrNone (hx : Inert x) : Inert (joinedOrNone x) := by
  unfold joinedOrNone
  split
  · exact inert_of_all (by decide)
  · exact hx

/-! ## The lines of a snapshot -/

theorem inert_status (status : ItemStatus) : Inert (Atmem.value status).toList := by
  refine inert_of_all ?_
  cases status <;> decide

theorem inert_assurance (assurance : Assurance) : Inert (Atmem.value assurance).toList := by
  refine inert_of_all ?_
  cases assurance <;> decide

theorem inert_lifecycle (lifecycle : TaskLifecycle) : Inert (Atmem.value lifecycle).toList := by
  refine inert_of_all ?_
  cases lifecycle <;> decide

/-- A number is written in digits. -/
theorem inert_nat (n : ℕ) : Inert (toString n).toList := by
  have hdigit : ∀ c ∈ (toString n).toList, c.isDigit = true := by
    intro c hc
    rw [Nat.toString_eq_ofList_toDigits, String.toList_ofList] at hc
    exact Nat.isDigit_of_mem_toDigits (by omega) (by omega) hc
  refine inert_of_brackets (fun h => ?_) fun c hc => ?_
  · exact absurd (hdigit _ h) (by decide)
  · have hrange := hdigit c hc
    simp only [Char.isDigit, Bool.and_eq_true, decide_eq_true_eq, ge_iff_le, UInt32.le_iff_toNat_le]
      at hrange
    have hlow : 48 ≤ c.toNat := hrange.1
    have hhigh : c.toNat ≤ 57 := hrange.2
    rw [Bool.eq_false_iff]
    intro hbreak
    simp only [isLineBreak, Bool.or_eq_true, Bool.and_eq_true, decide_eq_true_eq, beq_iff_eq]
      at hbreak
    omega

/-- A field of a line that may be left out. -/
theorem Inert.optional {l : List Char} {p : Prop} [Decidable p] (hx : Inert x)
    (hl : isLabel l = true) (hne : l ≠ []) (hy : Inert y) :
    Inert (x ++ if p then l ++ y else []) := by
  split
  · rw [← List.append_assoc]
    exact hx.field hl hne hy
  · rwa [List.append_nil]

/-- The line of an item is inert. -/
theorem inert_itemLine (item : TaskItem) : Inert (itemLine item) := by
  have hid : Inert ("  - [".toList ++ escape 128 item.val.itemId) :=
    (inert_escape _ _).titled (by decide)
  have htitle := hid.field (l := "] ".toList) (by decide) (by decide)
    (inert_escape escapeLimit item.val.title)
  have hstatus := htitle.field (l := " (status=".toList) (by decide) (by decide)
    (inert_status item.val.status)
  have hassurance := hstatus.field (l := ", assurance=".toList) (by decide) (by decide)
    (inert_assurance item.val.assurance)
  have hdepends := hassurance.optional (p := item.val.dependsOn ≠ []) (l := ", depends_on=".toList)
    (by decide) (by decide)
    (inert_escapedRows "," item.val.dependsOn (by decide) (by decide))
  have hblocked := hdepends.optional
    (p := item.val.status = .blocked ∧ truthy item.val.blockerReason = true)
    (l := ", blocked_because=".toList) (by decide) (by decide)
    (inert_escape 300 (str item.val.blockerReason))
  have hskipped := hblocked.optional
    (p := item.val.status = .skipped ∧ truthy item.val.skipReason = true)
    (l := ", skipped_because=".toList) (by decide) (by decide)
    (inert_escape 300 (str item.val.skipReason))
  have hclosed := hskipped.append (y := ")".toList) (inert_title (by decide))
    ((Option.all_eq_true _ _).mp (by decide))
  unfold itemLine
  simpa only [ite_not] using hclosed

/-- So are those of the constraints. -/
theorem inert_constraintLines (state : TaskState) : ∀ line ∈ constraintLines state, Inert line := by
  intro line hline
  unfold constraintLines at hline
  dsimp only at hline
  split at hline
  · cases hline
  · rcases List.mem_cons.mp hline with rfl | hline
    · exact inert_of_all (by decide)
    · obtain ⟨row, -, rfl⟩ := List.mem_map.mp hline
      have hid : Inert ("  - [".toList ++ escape 128 row.val.constraintId) :=
        (inert_escape _ _).titled (by decide)
      exact hid.field (by decide) (by decide) (inert_escape escapeLimit row.val.text)

/-- So are those of a content. -/
theorem inert_contentLines (render : Json → String) (item : TaskItem) :
    ∀ line ∈ contentLines render item, Inert line := by
  intro line hline
  obtain ⟨key, -, rfl⟩ := List.mem_map.mp hline
  have hkey : Inert ("      ".toList ++ escape 128 key) := (inert_escape _ _).titled (by decide)
  exact hkey.field (by decide) (by decide) (inert_escape 500 _)

/-- So are those of the items. -/
theorem inert_itemLines (render : Json → String) (state : TaskState) (omitted : List String) :
    ∀ line ∈ itemLines render state omitted, Inert line := by
  intro line hline
  unfold itemLines at hline
  dsimp only at hline
  split at hline
  · cases hline
  · rcases List.mem_cons.mp hline with rfl | hline
    · exact inert_of_all (by decide)
    · obtain ⟨item, -, hline⟩ := List.mem_flatMap.mp hline
      rcases List.mem_cons.mp hline with rfl | hline
      · exact inert_itemLine item
      · split at hline
        · cases hline
        · exact inert_contentLines render item line hline

/-- A text that is written out, character by character. -/
theorem all_toList {p : Char → Bool} {text : String}
    (h : ∃ cs, text = String.ofList cs ∧ cs.all p = true) : text.toList.all p = true := by
  obtain ⟨cs, rfl, hall⟩ := h
  rwa [String.toList_ofList]

theorem all_toList_append {p : Char → Bool} {text text' : String}
    (h : text.toList.all p = true) (h' : text'.toList.all p = true) :
    (text ++ text').toList.all p = true := by
  rw [String.toList_append, List.all_append, h, h', Bool.and_self]

/-- So is what is said before. -/
theorem inert_preamble : Inert preamble.toList := by
  refine inert_of_all ?_
  unfold preamble
  refine all_toList_append (all_toList_append ?_ ?_) ?_
  · exact all_toList ⟨_, by with_reducible rfl, by decide +kernel⟩
  · exact all_toList ⟨_, by with_reducible rfl, by decide +kernel⟩
  · exact all_toList ⟨_, by with_reducible rfl, by decide +kernel⟩

/-- So is what the task is. -/
theorem inert_headerLines (state : TaskState) : ∀ line ∈ headerLines state, Inert line := by
  unfold headerLines
  simp only [List.forall_mem_cons]
  exact ⟨(inert_escape _ _).titled (by decide), (inert_escape _ _).titled (by decide),
    (inert_lifecycle _).titled (by decide), (inert_escape _ _).titled (by decide),
    (inert_nat _).titled (by decide), fun _ h => nomatch h⟩

/-- The rows of a title, where there are any. -/
theorem inert_titledRows {title : List Char} {p : Prop} [Decidable p] (ht : isTitle title = true)
    (rows : List String) :
    ∀ line ∈ (if p then [] else [title ++ escapedRows ", " rows]), Inert line := by
  intro line hline
  split at hline
  · cases hline
  · rw [List.mem_singleton.mp hline]
    exact (inert_escapedRows ", " rows (by decide) (by decide)).titled ht

/-- So is what is to be done. -/
theorem inert_workLines (state : TaskState) (profile : TaskProfile) :
    ∀ line ∈ workLines state profile, Inert line := by
  have hrows : ∀ rows, Inert (joinedOrNone (escapedRows ", " rows)) :=
    fun rows => inert_joinedOrNone (inert_escapedRows ", " rows (by decide) (by decide))
  have hanswer : Inert (if completionBlockers state profile = [] then "yes" else "no").toList := by
    split <;> exact inert_of_all (by decide)
  have hthree : ∀ line ∈ ["next eligible work: ".toList ++
        joinedOrNone (escapedRows ", " (itemIds (readyItems state))),
      "blocked: ".toList ++ joinedOrNone (escapedRows ", " (itemIds (blockedItems state))),
      "completion allowed: ".toList ++
        (if completionBlockers state profile = [] then "yes" else "no").toList], Inert line := by
    simp only [List.forall_mem_cons]
    exact ⟨(hrows _).titled (by decide), (hrows _).titled (by decide), hanswer.titled (by decide),
      fun _ h => nomatch h⟩
  intro line hline
  rcases List.mem_append.mp hline with hline | hline
  · exact hthree line hline
  · exact inert_titledRows (by decide) _ line hline

/-- So are the sources. -/
theorem inert_sourceLines (state : TaskState) (omitted : List String) :
    ∀ line ∈ sourceLines state omitted, Inert line := by
  intro line hline
  rcases List.mem_append.mp hline with hline | hline
  · exact inert_titledRows (by decide) _ line hline
  · exact inert_titledRows (by decide) _ line hline

/-- **Between the two delimiters every line is inert.** -/
theorem inert_fencedLines (render : Json → String) (state : TaskState) (profile : TaskProfile)
    (omitted : List String) : ∀ line ∈ fencedLines render state profile omitted, Inert line := by
  intro line hline
  simp only [fencedLines, List.mem_append] at hline
  rcases hline with (((hline | hline) | hline) | hline) | hline
  · exact inert_headerLines state line hline
  · exact inert_constraintLines state line hline
  · exact inert_itemLines render state omitted line hline
  · exact inert_workLines state profile line hline
  · exact inert_sourceLines state omitted line hline

/-! ## The whole text -/

/-- Each fence occurs where it was put, and nowhere else. -/
theorem occurrences_lines {p : List Char} (hp : ∀ line, Inert line → occurrences p line = 0)
    (render : Json → String) (state : TaskState) (profile : TaskProfile) (omitted : List String) :
    ((serializeLines render state profile omitted).map (occurrences p)).sum =
      occurrences p fenceOpen.toList + occurrences p fenceClose.toList := by
  have hbody : ((fencedLines render state profile omitted).map (occurrences p)).sum = 0 := by
    refine List.sum_eq_zero_iff_forall_eq_nat.mpr fun n hn => ?_
    obtain ⟨line, hline, rfl⟩ := List.mem_map.mp hn
    exact hp line (inert_fencedLines render state profile omitted line hline)
  simp only [serializeLines, List.map_cons, List.map_append, List.sum_cons, List.sum_append, hbody,
    List.map_nil, List.sum_nil, hp _ inert_preamble]
  omega

theorem unbroken_of_all {line : List Char} (h : (line.all fun c => !isLineBreak c) = true) :
    ∀ c ∈ line, isLineBreak c = false := by
  simpa only [List.all_eq_true, Bool.not_eq_true'] using h

/-- No line breaks. -/
theorem isLineBreak_of_mem_lines {render : Json → String} {state : TaskState}
    {profile : TaskProfile} {omitted : List String} {line : List Char}
    (hline : line ∈ serializeLines render state profile omitted) :
    ∀ c ∈ line, isLineBreak c = false := by
  unfold serializeLines at hline
  rcases List.mem_cons.mp hline with heq | hline
  · rw [heq]
    exact inert_preamble.breaks
  · rcases List.mem_cons.mp hline with rfl | hline
    · exact unbroken_of_all (by decide)
    · rcases List.mem_append.mp hline with hline | hline
      · exact (inert_fencedLines render state profile omitted line hline).breaks
      · rw [List.mem_singleton.mp hline]
        exact unbroken_of_all (by decide)

/-- **The fence cannot be forged.** Whatever the untrusted texts of the
snapshot are, each delimiter stands once in what is serialized, the closing
one is the last line, and the lines are those the serializer started: no
text breaks one, in any of the ways `str.splitlines` knows. -/
theorem fence_unforgeable (render : Json → String) (state : TaskState) (profile : TaskProfile)
    (omitted : List String) :
    occurrences fenceOpen.toList (serialize render state profile omitted).toList = 1 ∧
    occurrences fenceClose.toList (serialize render state profile omitted).toList = 1 ∧
    (serialize render state profile omitted).toList.splitOn '\n' =
      serializeLines render state profile omitted ∧
    (serializeLines render state profile omitted).getLast? = some fenceClose.toList ∧
    ∀ line ∈ serializeLines render state profile omitted, ∀ c ∈ line, isLineBreak c = false := by
  have hlines : ∀ line ∈ serializeLines render state profile omitted, '\n' ∉ line := by
    intro line hline hmem
    have hbreak := isLineBreak_of_mem_lines hline _ hmem
    exact absurd hbreak (by decide)
  have htext : (serialize render state profile omitted).toList =
      ['\n'].intercalate (serializeLines render state profile omitted) := String.toList_ofList
  rw [htext]
  refine ⟨?_, ?_, ?_, ?_, fun line hline => isLineBreak_of_mem_lines hline⟩
  · rw [occurrences_intercalate (by decide) (by decide),
      occurrences_lines fun line hline => occurrences_eq_zero.mpr hline.opens]
    decide
  · rw [occurrences_intercalate (by decide) (by decide),
      occurrences_lines fun line hline => occurrences_eq_zero.mpr hline.closes]
    decide
  · exact List.splitOn_intercalate '\n' hlines (List.cons_ne_nil _ _)
  · rw [serializeLines, ← List.cons_append, ← List.cons_append, List.getLast?_concat]

end Atmem
