import Mathlib.Data.List.Nodup
import Atmem.Identity.Model.Service
/-!
# What a write makes of a document

A canonical name is its own canonical form. A document of accounts is
sound where no name is there twice and some enabled Administrator is. What
an operation may make of the rows it loaded is one of four things, and each
of them keeps the document sound.
-/

namespace Atmem.Identity

/-! ## Names -/

/-- A character of a canonical name. -/
def isNameChar (c : Char) : Bool := isNameStart c || c == '.' || c == '_' || c == '-'

/-- A user name is of the characters of one. -/
theorem isNameChar_of_isUsername {cs : List Char} (h : isUsername cs = true) :
    ∀ c ∈ cs, isNameChar c = true := by
  cases cs with
  | nil => cases h
  | cons c cs =>
    simp only [isUsername, Bool.and_eq_true, List.all_eq_true] at h
    intro d hd
    rcases List.mem_cons.mp hd with rfl | hd
    · simp [isNameChar, h.1.1]
    · exact h.1.2 d hd

/-- These are ASCII. -/
theorem toNat_of_isNameChar {c : Char} (h : isNameChar c = true) :
    45 ≤ c.toNat ∧ c.toNat ≤ 57 ∨ c.toNat = 95 ∨ 97 ≤ c.toNat ∧ c.toNat ≤ 122 := by
  simp only [isNameChar, isNameStart, Bool.or_eq_true, Bool.and_eq_true, decide_eq_true_eq,
    beq_iff_eq, Char.le_def, UInt32.le_iff_toNat_le] at h
  rcases h with (((⟨hlo, hhi⟩ | ⟨hlo, hhi⟩) | rfl) | rfl) | rfl
  · exact .inr (.inr ⟨hlo, hhi⟩)
  · exact .inl ⟨le_trans (by decide) hlo, hhi⟩
  · exact .inl (by decide)
  · exact .inr (.inl rfl)
  · exact .inl (by decide)

/-- None of them is white space. -/
theorem isSpace_of_isNameChar {c : Char} (h : isNameChar c = true) : isSpace c = false := by
  have hc := toNat_of_isNameChar h
  simp only [isSpace, Bool.or_eq_false_iff, Bool.and_eq_false_iff, decide_eq_false_iff_not,
    beq_eq_false_iff_ne, ne_eq]
  omega

/-- None is in upper case. -/
theorem lower_of_isNameChar {c : Char} (h : isNameChar c = true) : lower c = c := by
  have hc := toNat_of_isNameChar h
  unfold lower
  rw [if_neg]
  · unfold Char.toLower
    rw [dif_neg]
    rintro ⟨hlo, hhi⟩
    have hle : 65 ≤ c.toNat := hlo
    have hge : c.toNat ≤ 90 := hhi
    omega
  · rintro rfl
    revert hc
    decide

/-- **A canonical name is its own canonical form.** -/
theorem normalizeUsername_idem {value username : String}
    (h : normalizeUsername value = .ok username) : normalizeUsername username = .ok username := by
  unfold normalizeUsername at h
  dsimp only at h
  split at h
  · rename_i hname
    cases h
    have hchars := isNameChar_of_isUsername hname
    unfold normalizeUsername
    dsimp only
    rw [strip_ofList fun c hc => isSpace_of_isNameChar (hchars c hc),
      List.map_congr_left fun c hc => lower_of_isNameChar (hchars c hc), List.map_id', if_pos hname]
  · cases h

/-! ## Rows in their place -/

/-- The first of a list that `p` holds of, replaced. -/
theorem replaceF_of_find? {α : Type} {p : α → Bool} {l : List α} {a : α} (h : l.find? p = some a)
    (a' : α) : ∃ before after, l = before ++ a :: after ∧
      l.replaceF (fun x => if p x then some a' else none) = before ++ a' :: after := by
  induction l with
  | nil => cases h
  | cons x l ih =>
    by_cases hx : p x = true
    · rw [List.find?_cons_of_pos hx] at h
      cases h
      exact ⟨[], l, rfl, List.replaceF_cons_of_some _ (by rw [if_pos hx])⟩
    · rw [List.find?_cons_of_neg hx] at h
      obtain ⟨before, after, hl, hreplace⟩ := ih h
      refine ⟨x :: before, after, by rw [hl, List.cons_append], ?_⟩
      rw [List.replaceF_cons_of_none _ (by rw [if_neg hx]), hreplace, List.cons_append]

/-- The session of a token that is written in its place: every session is
one that was there, or that one. -/
theorem mem_amend_sessions {d : Sessions} {x y : Session}
    (hy : y ∈ (d.amend x).sessions) : y ∈ d.sessions ∨ y = x := by
  rcases List.exists_or_eq_self_of_replaceF
    (fun z : Session => if z.tokenSha256 = x.tokenSha256 then some x else none) d.sessions with
    h | ⟨a, a', before, after, -, hsome, hl, h⟩
  · unfold Sessions.amend at hy
    dsimp only at hy
    rw [h] at hy
    exact .inl hy
  · unfold Sessions.amend at hy
    dsimp only at hy
    rw [h] at hy
    rw [hl]
    split at hsome
    · cases hsome
      simp only [List.mem_append, List.mem_cons] at hy ⊢
      tauto
    · cases hsome

namespace Accounts

variable {d d' : Accounts} {a a' b : Account} {u : String} {row : Option String}

/-- A row that is found has the canonical name it was looked up by. -/
theorem find_eq_some (h : d.find u = some a) :
    normalizeUsername u = .ok a.username ∧ d.row a.username = some a := by
  unfold find at h
  split at h
  · rename_i canonical hname
    have hrow : a.username = canonical := by simpa using List.find?_some h
    rw [hrow]
    exact ⟨hname, h⟩
  · cases h

/-- A row of a canonical name is found by it. -/
theorem find_of_row (hname : normalizeUsername u = .ok u) : d.find u = d.row u := by
  unfold find
  rw [hname]

/-- The row of a name has it. -/
theorem row_username (h : d.row u = some a) : a.username = u := by simpa using List.find?_some h

theorem mem_of_row (h : d.row u = some a) : a ∈ d.accounts := List.mem_of_find?_eq_some h

/-- A sound document: no name twice, and an enabled Administrator as soon as
there are accounts. -/
structure Sound (d : Accounts) : Prop where
  nodup : (d.accounts.map (·.username)).Nodup
  administered : d.accounts ≠ [] → ∃ a ∈ d.accounts, a.ActiveAdministrator

/-- The row of a name is the only one of it. -/
theorem Sound.row_eq (hd : d.Sound) (ha : a ∈ d.accounts) : d.row a.username = some a := by
  rcases hb : d.row a.username with _ | b
  · have hnone := List.find?_eq_none.mp hb a ha
    simp at hnone
  · rw [List.inj_on_of_nodup_map hd.nodup (mem_of_row hb) ha (row_username hb)]

theorem sound_empty : Sound {} := ⟨List.nodup_nil, fun h => absurd rfl h⟩

/-- What an operation makes of the rows it loaded, and the row it writes. -/
inductive Becomes (d d' : Accounts) : Option String → Prop
  /-- Only the audit grows. -/
  | audited (h : d'.accounts = d.accounts) : Becomes d d' none
  /-- The first account. -/
  | founded {a : Account} (hempty : d.accounts = []) (ha : a.ActiveAdministrator)
      (h : d'.accounts = [a]) : Becomes d d' none
  /-- One more account. -/
  | created {a : Account} (hsome : d.accounts ≠ []) (hfree : d.row a.username = none)
      (h : d'.accounts = d.accounts ++ [a]) : Becomes d d' (some a.username)
  /-- A row is written, and its revision with it. -/
  | amended {p : Account → Bool} {a a' : Account} (hfind : d.accounts.find? p = some a)
      (hname : a'.username = a.username) (hrevision : a'.revision = a.revision + 1)
      (hlast : a.ActiveAdministrator → ¬ a'.ActiveAdministrator →
        1 < d.accounts.countP (·.ActiveAdministrator))
      (h : d'.accounts = (d.amend p a').accounts) : Becomes d d' (some a.username)

/-- There are accounts after it if there were before. -/
theorem Becomes.ne_nil (h : Becomes d d' row) (hd : d.accounts ≠ []) : d'.accounts ≠ [] := by
  cases h with
  | audited h => rw [h]; exact hd
  | founded _ _ h => rw [h]; exact List.cons_ne_nil _ _
  | created _ _ h => rw [h]; exact List.append_ne_nil_of_right_ne_nil _ (List.cons_ne_nil _ _)
  | @amended p a a' hfind _ _ _ h =>
    obtain ⟨before, after, -, hreplace⟩ := replaceF_of_find? hfind a'
    rw [h, amend]
    dsimp only
    rw [hreplace]
    exact List.append_ne_nil_of_right_ne_nil _ (List.cons_ne_nil _ _)

/-- Another one is left where there is more than one. -/
theorem exists_other {p : Account → Bool} {before after : List Account}
    (h : 1 < (before ++ a :: after).countP p) : ∃ b ∈ before ++ after, p b = true := by
  have hpos : 0 < (before ++ after).countP p := by
    rw [List.countP_append, List.countP_cons] at h
    rw [List.countP_append]
    split at h <;> omega
  obtain ⟨b, hb, hp⟩ := List.countP_pos_iff.mp hpos
  exact ⟨b, hb, hp⟩

/-- **Each of them keeps the document sound.** -/
theorem Becomes.sound (h : Becomes d d' row) (hd : d.Sound) : d'.Sound := by
  cases h with
  | audited h => exact ⟨by rw [h]; exact hd.nodup, by rw [h]; exact hd.administered⟩
  | @founded a hempty ha h =>
    constructor
    · rw [h]
      exact List.nodup_singleton _
    · intro _
      rw [h]
      exact ⟨a, List.mem_singleton_self a, ha⟩
  | @created a hsome hfree h =>
    constructor
    · rw [h, List.map_append, List.map_singleton, ← List.concat_eq_append]
      refine hd.nodup.concat fun hmem => ?_
      obtain ⟨b, hb, hname⟩ := List.mem_map.mp hmem
      have hnone := List.find?_eq_none.mp hfree b hb
      simp [hname] at hnone
    · intro _
      obtain ⟨b, hb, hadmin⟩ := hd.administered hsome
      rw [h]
      exact ⟨b, List.mem_append_left _ hb, hadmin⟩
  | @amended p a a' hfind hname _ hlast h =>
    obtain ⟨before, after, hl, hreplace⟩ := replaceF_of_find? hfind a'
    have hrows : d'.accounts = before ++ a' :: after := by rw [h, amend]; exact hreplace
    constructor
    · have hnodup := hd.nodup
      rw [hl, List.map_append, List.map_cons] at hnodup
      rw [hrows, List.map_append, List.map_cons, hname]
      exact hnodup
    · intro _
      rw [hrows]
      -- the last administrator in force is not given up
      by_cases ha' : a'.ActiveAdministrator
      · exact ⟨a', by simp, ha'⟩
      by_cases ha : a.ActiveAdministrator
      · have hmore := hlast ha ha'
        rw [hl] at hmore
        obtain ⟨b, hb, hadmin⟩ := exists_other hmore
        refine ⟨b, ?_, by simpa using hadmin⟩
        simp only [List.mem_append, List.mem_cons] at hb ⊢
        tauto
      · obtain ⟨b, hb, hadmin⟩ := hd.administered (by rw [hl]; simp)
        refine ⟨b, ?_, hadmin⟩
        rw [hl] at hb
        simp only [List.mem_append, List.mem_cons] at hb ⊢
        rcases hb with hb | rfl | hb
        · exact .inl hb
        · exact absurd hadmin ha
        · exact .inr (.inr hb)

/-- **A row stays as it was, or its revision rises.** -/
theorem Becomes.row_le (h : Becomes d d' row) (hd : d.Sound) (hb : d.row u = some b) :
    ∃ b', d'.row u = some b' ∧ (b' = b ∨ b.revision < b'.revision) := by
  have hsound := h.sound hd
  cases h with
  | audited h => exact ⟨b, by unfold Accounts.row; rw [h]; exact hb, .inl rfl⟩
  | founded hempty _ _ =>
    have hmem := mem_of_row hb
    rw [hempty] at hmem
    cases hmem
  | @created a _ _ h =>
    have hmem : b ∈ d'.accounts := by rw [h]; exact List.mem_append_left _ (mem_of_row hb)
    have hrow := hsound.row_eq hmem
    rw [row_username hb] at hrow
    exact ⟨b, hrow, .inl rfl⟩
  | @amended p a a' hfind hname hrevision _ h =>
    obtain ⟨before, after, hl, hreplace⟩ := replaceF_of_find? hfind a'
    have hrows : d'.accounts = before ++ a' :: after := by rw [h, amend]; exact hreplace
    have hmem := mem_of_row hb
    rw [hl] at hmem
    -- the amended row has the higher revision, and every other stays
    by_cases hu : a.username = u
    · have ha : d.row a.username = some a := hd.row_eq (List.mem_of_find?_eq_some hfind)
      rw [hu, hb] at ha
      cases ha
      have hrow := hsound.row_eq (a := a') (by rw [hrows]; simp)
      rw [hname, hu] at hrow
      exact ⟨a', hrow, .inr (by omega)⟩
    · have hne : b ≠ a := by
        rintro rfl
        exact hu (row_username hb)
      have hrow := hsound.row_eq (a := b) (by
        rw [hrows]
        simp only [List.mem_append, List.mem_cons] at hmem ⊢
        tauto)
      rw [row_username hb] at hrow
      exact ⟨b, hrow, .inl rfl⟩

end Accounts

end Atmem.Identity
