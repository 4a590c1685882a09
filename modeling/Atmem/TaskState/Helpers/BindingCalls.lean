import Atmem.TaskState.Helpers.Bindings
/-!
# The calls of the registry, interleaved

What each call of any number of connections may rely on, and what it is
answered. A resolve is judged by the moment of its lookup and by the reading
it compares the expiry with. No action adds a row but the insert of a
registration, so every row there has been was left by one.
-/

namespace Atmem.Bindings

open Interleaving Checked

variable {w w' : World} {h : Timeline World} {log : List Label} {n : ℕ}
variable {scope : AuthorityScope} {identity : HostSessionIdentity} {row : SessionBindingRow}

/-- A registration is neither revoked nor, by reading `n` of the clock,
expired. -/
def LiveAt (w : World) (n : ℕ) (row : SessionBindingRow) : Prop :=
  row.revokedAtUtc = none ∧ ∀ e, row.expiresAtUtc = some e → w.clock n < e

/-- The registration of an identity that is live. -/
def LiveFor (w : World) (n : ℕ) (scope : AuthorityScope) (identity : HostSessionIdentity)
    (row : SessionBindingRow) : Prop :=
  row ∈ rows w ∧ row.key = bindingKey scope identity ∧ LiveAt w n row

/-- What a resolve answers: one task or one refusal, justified by the
registrations of `w` and reading `n`. -/
structure Justified (w : World) (n : ℕ) (scope : AuthorityScope)
    (identity : Option HostSessionIdentity) (explicitTaskId : Option String)
    (answer : ResolvedTaskFields) : Prop where
  one : (∃ t, answer.taskId = some t ∧ answer.reasonCode = none ∧
      (answer.resolution = .bound ∨ answer.resolution = .explicit)) ∨
    (answer.taskId = none ∧ ∃ code, answer.reasonCode = some code)
  bound : answer.resolution = .bound → ∃ id ∈ identity, ∃ row, LiveFor w n scope id row ∧
    answer.taskId = some row.taskId
  explicit : answer.resolution = .explicit → ∃ t, given explicitTaskId = some t ∧
    answer.taskId = some t ∧ ∀ id ∈ identity, ∀ row, LiveFor w n scope id row → row.taskId = t

/-! ## The rely of a call -/

/-- Every moment so far kept the rows apart, and what came after it left them
in place. -/
def Past (h : Timeline World) : Prop := ∀ w, h.Seen w → Sound w ∧ Follows w h.now

/-- What one action does. -/
def Onward (h : Timeline World) (w : World) : Prop := Sound w ∧ Follows h.now w

/-- What a call may rely on between two actions. -/
abbrev Others (_ : List Label) (h h' : Timeline World) : Prop := Past h' ∧ h.Extends h' ∧ True

/-- Readings that are past stay so. -/
theorem Past.push (hp : Past h) (hw : Onward h w) : Past (h.push w) := by
  rintro w' (rfl | hs)
  · exact ⟨hw.1, .refl _⟩
  · obtain ⟨hsound, hf⟩ := hp w' (by
      rcases List.mem_cons.mp hs with rfl | hs
      · exact Timeline.seen_now
      · exact .inr hs)
    exact ⟨hsound, hf.trans hw.2⟩

/-- A reading of the clock, while others act. -/
theorem safe_now {Q : List Label → Except Raised Instant → Timeline World → Prop}
    (hQ : ∀ h', Past h' → h.Extends h' →
      Q (log ++ [.now]) (.ok (h'.now.clock h'.now.ticks))
        (h'.push { h'.now with ticks := h'.now.ticks + 1 })) :
    Safe Others Onward Q now log h :=
  .eff_action fun h' hR =>
    ⟨follows_tick (hR.1 _ Timeline.seen_now).1, hQ h' hR.1 hR.2.1⟩

/-- A query, while others act. -/
theorem safe_query {α : Type} {label : Label} {f : Store → α}
    {Q : List Label → Except Raised α → Timeline World → Prop}
    (hQ : ∀ h', Past h' → h.Extends h' →
      Q (log ++ [label]) (.ok (f h'.now.store)) (h'.push h'.now)) :
    Safe Others Onward Q (query label f) log h :=
  .eff_action fun h' hR => ⟨⟨(hR.1 _ Timeline.seen_now).1, .refl _⟩, hQ h' hR.1 hR.2.1⟩

/-- Whether a binding looked up in `w` has expired, by a reading taken
since. -/
theorem safe_bindingExpired (row : SessionBindingRow) (hp : Past h) (hw : h.Seen w) :
    Safe Others Onward (fun _ r h' => Past h' ∧ h.Extends h' ∧ ∃ n, w.ticks ≤ n ∧
      n ≤ h'.now.ticks ∧ ∃ expired, r = .ok expired ∧
        (expired = false ↔ ∀ e, row.expiresAtUtc = some e → w.clock n < e))
      (bindingExpired row) log h := by
  unfold bindingExpired
  split
  · rename_i he
    refine ⟨hp, .refl h, w.ticks, Nat.le_refl _, (hp w hw).2.ticks, false, rfl, ?_⟩
    simp [he]
  · rename_i expiresAt he
    refine .eff_bind (safe_now fun h' hp' hx => ⟨fun now hnow => ?_, fun e hr => nomatch hr⟩)
    cases hnow
    obtain ⟨-, hf⟩ := hp' w (hx w hw)
    refine ⟨hp'.push (follows_tick (hp' _ Timeline.seen_now).1), hx.trans (h'.extends_push _),
      h'.now.ticks, hf.ticks, Nat.le_succ _, _, rfl, ?_⟩
    simp only [decide_eq_false_iff_not, Nat.not_le, he, Option.some.injEq, forall_eq']
    rw [hf.clock]

/-- The lookup finds the live registration of the identity, and it alone. -/
theorem safe_activeBinding :
    Safe Others Onward (fun _ r h' => Past h' ∧ ∃ w n, h'.Seen w ∧ w.ticks ≤ n ∧
      n ≤ h'.now.ticks ∧ ∃ found, r = .ok found ∧
        ∀ row, found = some row ↔ LiveFor w n scope identity row)
      (activeBinding scope identity) log h := by
  unfold activeBinding
  refine .eff_bind (safe_query fun h' hp hx => ⟨fun found hfound => ?_, fun e hr => nomatch hr⟩)
  cases hfound
  have hsound := (hp _ Timeline.seen_now).1
  have hp' : Past (h'.push h'.now) := hp.push ⟨hsound, .refl _⟩
  cases hfind : h'.now.store.findActiveSessionBinding scope identity with
  | none =>
    refine ⟨hp', h'.now, h'.now.ticks, Timeline.seen_now, Nat.le_refl _, Nat.le_refl _, none, rfl,
      fun row => ⟨(fun hf => nomatch hf), fun ⟨hr, hkey, hlive⟩ => ?_⟩⟩
    exact absurd hlive.1 (of_find_none hfind hr hkey)
  | some found =>
    obtain ⟨hmem, hkey, hnone⟩ := of_find hfind
    refine .eff_bind ((safe_bindingExpired found hp' Timeline.seen_now).mono ?_)
    rintro log' r h₂ ⟨hp₂, hx₂, n, hle, hge, expired, rfl, hexpired⟩
    refine ⟨fun b hb => ?_, fun e hr => nomatch hr⟩
    cases hb
    refine ⟨hp₂, h'.now, n, hx₂ _ Timeline.seen_now, hle, hge, _, rfl, fun row => ?_⟩
    -- no other row of the identity is unrevoked, so the row stands or falls alone
    cases expired with
    | false =>
      simp only [Bool.false_eq_true, if_false, Option.some.injEq]
      constructor
      · rintro rfl
        exact ⟨hmem, hkey, hnone, hexpired.mp rfl⟩
      · rintro ⟨hr, hkey', hlive⟩
        exact hsound.eq_of_key hmem hr (hkey.trans hkey'.symm) hnone hlive.1
    | true =>
      simp only [if_true]
      refine ⟨(fun hf => nomatch hf), fun ⟨hr, hkey', hlive⟩ => ?_⟩
      obtain rfl := hsound.eq_of_key hmem hr (hkey.trans hkey'.symm) hnone hlive.1
      exact absurd (hexpired.mpr hlive.2) (by simp)

/-! ## The answer of a resolve -/

theorem truthy_of_ne {t : String} (ht : t ≠ "") : truthy (some t) = true := by
  simpa [truthy] using ht

theorem postInit_task {f : ResolvedTaskFields} {t : String} (hd : f.resolution.delivers = true)
    (ht : f.taskId = some t) (hne : t ≠ "") : f.postInit = .ok () := by
  unfold ResolvedTaskFields.postInit
  rw [hd, ht, truthy_of_ne hne]
  rfl

theorem postInit_refusal {f : ResolvedTaskFields} (hd : f.resolution.delivers = false)
    (ht : f.taskId = none) : f.postInit = .ok () := by
  unfold ResolvedTaskFields.postInit
  rw [hd, ht]
  rfl

/-- The explicit id is not empty. -/
theorem ne_of_given {explicitTaskId : Option String} {t : String}
    (ht : given explicitTaskId = some t) : t ≠ "" := by
  unfold given orNone at ht
  split at ht
  · cases ht
  · cases ht
    assumption

/-- What the explicit id and the live registration decide is an answer, and
justified. -/
theorem justified_decided {identity : Option HostSessionIdentity} {explicitTaskId : Option String}
    {found : Option SessionBindingRow} {answer : ResolvedTaskFields} (hw : Sound w)
    (hfound : ∀ row, found = some row ↔ ∃ id ∈ identity, LiveFor w n scope id row)
    (h : decided (given explicitTaskId) found = some answer) :
    answer.postInit = .ok () ∧ Justified w n scope identity explicitTaskId answer := by
  cases hg : given explicitTaskId with
  | none =>
    rw [hg] at h
    cases found with
    | none => cases h
    | some bound =>
      cases h
      obtain ⟨id, hid, hlive⟩ := (hfound bound).mp rfl
      exact ⟨postInit_task rfl rfl (hw.named _ hlive.1),
        .inl ⟨_, rfl, rfl, .inl rfl⟩, fun _ => ⟨id, hid, bound, hlive, rfl⟩, fun hr => nomatch hr⟩
  | some explicit =>
    rw [hg] at h
    have hne := ne_of_given hg
    cases found with
    | none =>
      cases h
      refine ⟨postInit_task rfl rfl hne, .inl ⟨_, rfl, rfl, .inr rfl⟩, (fun hr => nomatch hr),
        fun _ => ⟨explicit, hg, rfl, fun id hid row hlive => ?_⟩⟩
      -- a live row would have been found
      exact absurd ((hfound row).mpr ⟨id, hid, hlive⟩) (by simp)
    | some bound =>
      simp only [decided, Option.some.injEq] at h
      -- the two agree, or the answer is a refusal
      by_cases htask : bound.taskId = explicit
      · rw [if_neg (not_not_intro htask)] at h
        cases h
        refine ⟨postInit_task rfl rfl hne, .inl ⟨_, rfl, rfl, .inr rfl⟩, (fun hr => nomatch hr),
          fun _ => ⟨explicit, hg, rfl, fun id hid row hlive => ?_⟩⟩
        have hrow := (hfound row).mpr ⟨id, hid, hlive⟩
        rw [← Option.some.inj hrow]
        exact htask
      · rw [if_pos htask] at h
        cases h
        exact ⟨postInit_refusal rfl rfl, .inr ⟨rfl, _, rfl⟩, (fun hr => nomatch hr),
          fun hr => nomatch hr⟩

/-- Withholding is always justified. -/
theorem justified_withheld (w : World) (n : ℕ) (scope : AuthorityScope)
    (identity : Option HostSessionIdentity) (explicitTaskId : Option String) (stale : Bool) :
    (withheld stale).postInit = .ok () ∧
      Justified w n scope identity explicitTaskId (withheld stale) := by
  cases stale
  · exact ⟨postInit_refusal rfl rfl, .inr ⟨rfl, _, rfl⟩, (fun hr => nomatch hr), fun hr => nomatch hr⟩
  · exact ⟨postInit_refusal rfl rfl, .inr ⟨rfl, _, rfl⟩, (fun hr => nomatch hr), fun hr => nomatch hr⟩

/-- The scan of the other generations answers, whatever it answers. -/
theorem safe_anyStale (hp : Past h) (rows : List SessionBindingRow) :
    Safe Others Onward (fun _ r h' => Past h' ∧ h.Extends h' ∧ ∃ stale, r = .ok stale)
      (anyStale identity rows) log h := by
  induction rows generalizing h log with
  | nil => exact ⟨hp, .refl h, false, rfl⟩
  | cons row rows ih =>
    unfold anyStale
    split
    · exact ⟨hp, .refl h, true, rfl⟩
    · refine .eff_bind ((safe_bindingExpired row hp Timeline.seen_now).mono ?_)
      rintro log' r h₂ ⟨hp₂, hx₂, -, -, -, expired, rfl, -⟩
      refine ⟨fun b hb => ?_, fun e hr => by cases hr⟩
      cases hb
      cases expired
      · refine (ih hp₂).mono ?_
        rintro _ _ h' ⟨hp', hx', hstale⟩
        exact ⟨hp', hx₂.trans hx', hstale⟩
      · exact ⟨hp₂, hx₂, true, rfl⟩

/-- Looking for a stale generation. -/
theorem safe_staleGeneration (hp : Past h) (identity : Option HostSessionIdentity) :
    Safe Others Onward (fun _ r h' => Past h' ∧ h.Extends h' ∧ ∃ stale, r = .ok stale)
      (staleGeneration scope identity) log h := by
  cases identity with
  | none => exact ⟨hp, .refl h, false, rfl⟩
  | some identity =>
    refine .eff_bind (safe_query fun h' hp' hx => ⟨fun rows _ => ?_, fun e hr => nomatch hr⟩)
    have hp₂ : Past (h'.push h'.now) := hp'.push ⟨(hp' _ Timeline.seen_now).1, .refl _⟩
    exact (safe_anyStale hp₂ rows).mono fun _ _ h₃ ⟨hp₃, hx₃, hstale⟩ =>
      ⟨hp₃, (hx.trans (h'.extends_push _)).trans hx₃, hstale⟩

/-- A resolve is answered, by the moment of its lookup and a reading taken no
sooner. -/
def Resolved (scope : AuthorityScope) (identity : Option HostSessionIdentity)
    (explicitTaskId : Option String) (h : Timeline World) (a : Except Raised ResolvedTask) : Prop :=
  ∃ w n, h.Seen w ∧ w.ticks ≤ n ∧ n ≤ h.now.ticks ∧ ∃ resolved, a = .ok resolved ∧
    Justified w n scope identity explicitTaskId resolved.val

/-- The lookup of a call that may have no identity. -/
theorem safe_boundTo (hp : Past h) (identity : Option HostSessionIdentity) :
    Safe Others Onward (fun _ r h' => Past h' ∧ ∃ w n, h'.Seen w ∧ w.ticks ≤ n ∧
      n ≤ h'.now.ticks ∧ ∃ found, r = .ok found ∧
        ∀ row, found = some row ↔ ∃ id ∈ identity, LiveFor w n scope id row)
      (boundTo scope identity) log h := by
  cases identity with
  | none =>
    refine ⟨hp, h.now, h.now.ticks, Timeline.seen_now, Nat.le_refl _, Nat.le_refl _, none, rfl,
      fun row => ⟨(fun hf => nomatch hf), ?_⟩⟩
    rintro ⟨id, hid, -⟩
    cases hid
  | some identity =>
    refine safe_activeBinding.mono fun _ r h' ⟨hp', w, n, hseen, hle, hge, found, hr, hfound⟩ => ?_
    refine ⟨hp', w, n, hseen, hle, hge, found, hr, fun row => (hfound row).trans ?_⟩
    simp

/-- Resolving a session. -/
theorem safe_resolve (hp : Past h) (identity : Option HostSessionIdentity)
    (explicitTaskId : Option String) :
    Safe Others Onward (fun _ r h' => Resolved scope identity explicitTaskId h' r)
      (resolve scope identity explicitTaskId) log h := by
  unfold resolve
  refine .eff_bind ((safe_boundTo hp identity).mono ?_)
  rintro log' r h₂ ⟨hp₂, w, n, hseen, hle, hge, found, rfl, hfound⟩
  refine ⟨fun b hb => ?_, fun e hr => nomatch hr⟩
  cases hb
  have hw := (hp₂ w hseen).1
  split
  · rename_i answer hanswer
    obtain ⟨hok, hj⟩ := justified_decided hw hfound hanswer
    rw [Checked.make_of_ok hok]
    exact ⟨w, n, hseen, hle, hge, _, rfl, hj⟩
  · refine .eff_bind ((safe_staleGeneration hp₂ identity).mono ?_)
    rintro log₃ r h₃ ⟨hp₃, hx₃, stale, rfl⟩
    refine ⟨fun b hb => ?_, fun e hr => nomatch hr⟩
    cases hb
    obtain ⟨hok, hj⟩ := justified_withheld w n scope identity explicitTaskId stale
    rw [Checked.make_of_ok hok]
    have hticks := (hp₃ _ (hx₃ _ Timeline.seen_now)).2.ticks
    exact ⟨w, n, hx₃ w hseen, hle, Nat.le_trans hge hticks, _, rfl, hj⟩

/-! ## Registering and revoking -/

/-- What another part of a method raises is passed on. -/
theorem safe_raising {α : Type} {x : Svc α} {Q : List Label → Except BindingRaised α →
    Timeline World → Prop} (hx : Safe Others Onward
      (fun log' r h' => Q log' (r.mapError .raised) h') x log h) :
    Safe Others Onward Q (raising x) log h :=
  .bind hx

/-- A registration refused as already active found its identity, or its
identifier, in the table; one that is answered left its row there. -/
def Registered (r : Registration) (h : Timeline World) (a : Except BindingRaised SessionBinding) :
    Prop :=
  (a = .error alreadyActive → ∃ w, h.Seen w ∧ ∃ row ∈ rows w, row.bindingId = "binding-" ++ r.drawn ∨
    row.key = bindingKey r.scope r.identity ∧ row.revokedAtUtc = none) ∧
  ∀ b, a = .ok b → ∃ w, h.Seen w ∧ ∃ row ∈ rows w, row.bindingId = b.val.bindingId ∧
    row.key = bindingKey r.scope r.identity ∧ row.taskId = r.taskId

theorem identifier_ne {name value : String} (h : identifier name value = .ok ()) : value ≠ "" := by
  rintro rfl
  unfold identifier at h
  cases h

theorem taskId_ne {f : SessionBindingFields} (h : f.postInit = .ok ()) : f.taskId ≠ "" := by
  unfold SessionBindingFields.postInit at h
  exact identifier_ne (Checked.bind_eq_ok.mp (Checked.bind_eq_ok.mp h).2).1

/-- Inserting a binding, as one transaction. -/
theorem transaction_insert (row : SessionBindingRow) :
    transaction (insertSessionBinding row) = Eff.action .transaction fun w =>
      if (rows w).any (·.clash row) then (.error .integrityError, w)
      else (.ok (), World.inserted w row) := by
  unfold transaction
  congr 1
  funext w
  have hx := exec_insertSessionBinding row w.store
  unfold Transactional.exec at hx
  rw [hx]
  by_cases hany : w.store.sessionBindings.any (·.clash row) = true
  · rw [if_pos hany, if_pos (show (rows w).any (·.clash row) = true from hany)]
  · rw [if_neg hany, if_neg (show ¬ (rows w).any (·.clash row) = true from hany)]
    rfl

/-- Revoking one, as one transaction. -/
theorem transaction_revoke (scope : AuthorityScope) (bindingId : String) (at_ : Instant)
    (by_ reason : String) :
    transaction (revokeSessionBinding scope bindingId at_ by_ reason) =
      Eff.action .transaction fun w => (.ok ((rows w).any (selectedBy scope bindingId)),
        World.revoked w scope bindingId at_ by_ reason) := rfl

/-- A binding is stored, or clashes with one that is there. -/
theorem safe_insert {row : SessionBindingRow} (hrow : row.taskId ≠ "") :
    Safe Others Onward (fun _ r h' => Past h' ∧ ∃ w, h'.Seen w ∧
        ((r = .error .integrityError ∧ ∃ r₀ ∈ rows w, r₀.clash row = true) ∨
          r = .ok () ∧ row ∈ rows w))
      (transaction (insertSessionBinding row)) log h := by
  rw [transaction_insert]
  refine .eff_action fun h' hR => ?_
  have hsound := (hR.1 _ Timeline.seen_now).1
  split
  · rename_i hany
    obtain ⟨r₀, hr₀, hclash⟩ := List.any_eq_true.mp hany
    exact ⟨⟨hsound, .refl _⟩, hR.1.push ⟨hsound, .refl _⟩, h'.now, Timeline.seen_now,
      .inl ⟨rfl, r₀, hr₀, hclash⟩⟩
  · rename_i hany
    have hc : ∀ r ∈ rows h'.now, r.clash row = false := fun r hr =>
      Bool.eq_false_iff.mpr fun hclash => hany (List.any_eq_true.mpr ⟨r, hr, hclash⟩)
    have hon := sound_inserted hsound hrow hc
    exact ⟨hon, hR.1.push hon, _, Timeline.seen_now,
      .inr ⟨rfl, List.mem_append_right _ (List.mem_singleton_self _)⟩⟩

/-- Only an overflow can go wrong with an expiry. -/
theorem expiresAt_error {profile : Option TaskProfile} {now : Instant} {e : BindingRaised}
    (h : expiresAt profile now = .error e) : e = .overflowError := by
  unfold expiresAt at h
  split at h
  · cases h
  · cases h
  · split at h
    · cases h
    · cases h
      rfl

/-- Registering a binding. -/
theorem safe_register (r : Registration) :
    Safe Others Onward (fun _ a h' => Registered r h' a) (register r) log h := by
  have herror : ∀ (e : BindingRaised) (h' : Timeline World), e ≠ alreadyActive →
      Registered r h' (.error e) := fun e h' he =>
    ⟨fun heq => absurd (Except.error.inj heq) he, fun b hb => nomatch hb⟩
  unfold register
  refine .eff_bind (safe_raising (safe_now fun h₁ _ _ => ⟨fun now hnow => ?_,
    fun e hr => nomatch hr⟩))
  cases hnow
  generalize h₁.now.clock h₁.now.ticks = now
  cases he : expiresAt r.profile now with
  | error e =>
    refine herror e _ ?_
    rw [expiresAt_error he]
    simp [alreadyActive]
  | ok expiresAtUtc =>
    cases hb : (r.fields now).postInit with
    | error message =>
      rw [Checked.make_of_error hb]
      exact herror _ _ (by simp [alreadyActive])
    | ok _ =>
      rw [Checked.make_of_ok hb]
      have hrow : (rowOf (r.fields now) expiresAtUtc).taskId ≠ "" := taskId_ne hb
      refine .eff_bind ⟨fun a ha => ?_, fun e hr => nomatch hr⟩
      cases ha
      refine .eff_bind ⟨fun a ha => ?_, fun e hr => nomatch hr⟩
      cases ha
      refine .eff_bind (.eff_tryCatch (safe_raising ((safe_insert hrow).mono ?_)))
      rintro log₂ a h₂ ⟨-, w, hseen, ⟨rfl, r₀, hr₀, hclash⟩ | ⟨rfl, hmem⟩⟩
      · -- a row is in the way: the session is taken
        refine ⟨(fun a ha => nomatch ha), fun e he' => ?_⟩
        cases he'
        refine ⟨(fun a ha => nomatch ha), fun e he' => ?_⟩
        cases he'
        refine ⟨fun _ => ⟨w, hseen, r₀, hr₀, ?_⟩, fun b hb' => nomatch hb'⟩
        by_contra hno
        obtain ⟨hid, hkey⟩ := not_or.mp hno
        have hfalse : r₀.clash (rowOf (r.fields now) expiresAtUtc) = false :=
          SessionBindingRow.clash_eq_false.mpr ⟨hid, fun hk hn _ => hkey ⟨hk, hn⟩⟩
        rw [hfalse] at hclash
        cases hclash
      · -- the row is inserted
        refine ⟨fun a ha => ⟨fun b hb' => ?_, fun e he' => nomatch he'⟩, fun e he' => nomatch he'⟩
        refine ⟨(fun heq => nomatch heq), fun b hb' => ?_⟩
        cases hb'
        exact ⟨w, hseen, _, hmem, rfl, rfl, rfl⟩

/-- A binding of the scope that a revocation ended stays revoked. -/
def Revoked (scope : AuthorityScope) (bindingId : String) (h : Timeline World)
    (a : Except BindingRaised Unit) : Prop :=
  a = .ok () → ∃ row ∈ rows h.now, row.bindingId = bindingId ∧
    row.subjectId = scope.val.subjectId ∧ row.agentId = scope.val.agentId ∧
    row.workspaceId = scope.val.workspaceId ∧ row.revokedAtUtc ≠ none

/-- Revoking one. -/
theorem safe_revoke (scope : AuthorityScope) (bindingId actor reason : String) :
    Safe Others Onward (fun _ a h' => Revoked scope bindingId h' a)
      (revoke scope bindingId actor reason) log h := by
  unfold revoke
  refine .eff_bind (safe_raising (safe_now fun h₁ _ _ => ⟨fun now _ => ?_,
    fun e hr => nomatch hr⟩))
  rw [transaction_revoke]
  refine .eff_bind (safe_raising (.eff_action fun h₂ hR => ?_))
  have hsound := (hR.1 _ Timeline.seen_now).1
  refine ⟨sound_revoked hsound, fun any hany => ?_, fun e hr => nomatch hr⟩
  cases hany
  split
  · rename_i hany
    obtain ⟨row, hr, hsel⟩ := List.any_eq_true.mp hany
    refine fun _ => ⟨_, List.mem_map_of_mem hr, ?_⟩
    have hsel' := selectedBy_eq_true.mp hsel
    rw [revokedRow_of_selected hsel]
    exact ⟨hsel'.1, hsel'.2.1, hsel'.2.2.1, hsel'.2.2.2.1, Option.some_ne_none _⟩
  · exact fun he => nomatch he

/-! ## The discipline -/

/-- What a call is answered. -/
def Outcome : BindingCall → BindingAnswer → Timeline World → Prop
  | .register r, .registered a, h => Registered r h a
  | .revoke scope bindingId _ _, .revoked a, h => Revoked scope bindingId h a
  | .resolve scope identity explicitTaskId, .resolved a, h =>
    Resolved scope identity explicitTaskId h a
  | _, _, _ => False

/-- **Every call on the bindings.** -/
theorem safe_body (k : BindingCall) (hp : Past h) :
    Safe Others Onward (fun _ a h' => Outcome k a h') k.body log h := by
  cases k with
  | register r => exact .bind ((safe_register r).mono fun _ _ _ hq => hq)
  | revoke scope bindingId actor reason =>
    exact .bind ((safe_revoke scope bindingId actor reason).mono fun _ _ _ hq => hq)
  | resolve scope identity explicitTaskId =>
    exact .bind ((safe_resolve hp identity explicitTaskId).mono fun _ _ _ hq => hq)

/-- The discipline of the registry: nothing is asked of the others but that
they are calls of it. -/
def discipline : Discipline BindingCall.body (fun _ => True) where
  Watch _ := True
  watch_live _ _ := trivial
  I := Past
  V h h' := h.Extends h'
  W _ _ _ _ := True
  G := Onward
  Q k _ a h := Outcome k a h
  evolves_refl := .refl
  evolves_trans := .trans
  window_refl _ _ _ := trivial
  window_trans _ _ := trivial
  keeps hp hw := ⟨hp.push hw, Timeline.extends_push _ _⟩
  body_safe k _ _ hp := safe_body k hp

/-! ## Where the rows come from -/

/-- The row a registration leaves. -/
structure Made (r : Registration) (row : SessionBindingRow) : Prop where
  bindingId : row.bindingId = "binding-" ++ r.drawn
  key : row.key = bindingKey r.scope r.identity
  taskId : row.taskId = r.taskId
  expires : expiresAt r.profile row.registeredAtUtc = .ok row.expiresAtUtc

/-- A binding stays as it was made. -/
theorem Made.stays {r : Registration} {row row' : SessionBindingRow} (hm : Made r row)
    (hs : Stays row row') : Made r row' := by
  rcases hs with rfl | ⟨-, _, _, _, rfl⟩
  · exact hm
  · exact ⟨hm.bindingId, hm.key, hm.taskId, hm.expires⟩

/-- An action of a call adds no row but one its registration makes. -/
def Adds (k : BindingCall) (w w' : World) : Prop :=
  ∀ row' ∈ rows w', (∃ row ∈ rows w, Stays row row') ∨ ∃ r, k = .register r ∧ Made r row'

theorem Adds.refl (k : BindingCall) (w : World) : Adds k w w :=
  fun row hr => .inl ⟨row, hr, .inl rfl⟩

theorem within_now {k : BindingCall} : Eff.Within (Adds k) now :=
  .action fun w => Adds.refl k w

theorem within_query {α : Type} {k : BindingCall} {label : Label} {f : Store → α} :
    Eff.Within (Adds k) (query label f) :=
  .action fun w => Adds.refl k w

theorem within_raising {α : Type} {k : BindingCall} {x : Svc α} (hx : Eff.Within (Adds k) x) :
    Eff.Within (Adds k) (raising x) :=
  Prog.Within.bind hx fun _ => trivial

theorem within_bindingExpired {k : BindingCall} : Eff.Within (Adds k) (bindingExpired row) := by
  unfold bindingExpired
  split
  · exact .pure
  · exact .bind within_now fun _ => .pure

theorem within_resolve {k : BindingCall} {scope : AuthorityScope}
    {identity : Option HostSessionIdentity} {explicitTaskId : Option String} :
    Eff.Within (Adds k) (resolve scope identity explicitTaskId) := by
  -- a resolution only queries and reads the clock, so it adds no row
  have hstale : ∀ {id : HostSessionIdentity} {rows : List SessionBindingRow},
      Eff.Within (Adds k) (anyStale id rows) := by
    intro id rows
    induction rows with
    | nil => exact .pure
    | cons row rows ih =>
      unfold anyStale
      split
      · exact .pure
      · refine .bind within_bindingExpired fun expired => ?_
        split
        · exact .pure
        · exact ih
  have hbound : Eff.Within (Adds k) (boundTo scope identity) := by
    cases identity with
    | none => exact .pure
    | some identity =>
      refine .bind within_query fun found => ?_
      cases found with
      | none => exact .pure
      | some row => exact .bind within_bindingExpired fun _ => .pure
  have hgeneration : Eff.Within (Adds k) (staleGeneration scope identity) := by
    cases identity with
    | none => exact .pure
    | some identity => exact .bind within_query fun _ => hstale
  unfold resolve
  refine .bind hbound fun found => ?_
  split
  · exact .ofExcept
  · exact .bind hgeneration fun _ => .ofExcept

theorem within_insert {r : Registration} {now : Instant} {expiresAtUtc : Option Instant}
    (he : expiresAt r.profile now = .ok expiresAtUtc) :
    Eff.Within (Adds (.register r))
      (transaction (insertSessionBinding (rowOf (r.fields now) expiresAtUtc))) := by
  rw [transaction_insert]
  refine .action fun w => ?_
  split
  · exact Adds.refl _ w
  · intro row hr
    rcases List.mem_append.mp hr with hr | hr
    · exact .inl ⟨row, hr, .inl rfl⟩
    · rw [List.mem_singleton.mp hr]
      exact .inr ⟨r, rfl, rfl, rfl, rfl, he⟩

/-- A part that only answers. -/
theorem within_answered {α β : Type} {k : BindingCall} {x : Method α} {f : α → Method β} {a : α}
    (hx : x = pure a) (hf : Eff.Within (Adds k) (f a)) : Eff.Within (Adds k) (x >>= f) := by
  rw [hx]
  exact hf

/-- A registration adds its own row at most. -/
theorem within_register (r : Registration) :
    Eff.Within (Adds (.register r)) (register r) := by
  unfold register
  refine .bind (within_raising within_now) fun now => ?_
  cases he : expiresAt r.profile now with
  | error e => exact .throw
  | ok expiresAtUtc =>
    refine within_answered rfl ?_
    cases hb : (r.fields now).postInit with
    | error message =>
      rw [Checked.make_of_error hb]
      exact .throw
    | ok _ =>
      rw [Checked.make_of_ok hb]
      refine within_answered rfl ?_
      refine .bind (.tryCatch (within_raising (within_insert he)) fun e => ?_) fun _ => .pure
      split
      · exact .throw
      · exact .throw

/-- A revocation adds none. -/
theorem within_revoke {k : BindingCall} (scope : AuthorityScope)
    (bindingId actor reason : String) :
    Eff.Within (Adds k) (revoke scope bindingId actor reason) := by
  unfold revoke
  refine .bind (within_raising within_now) fun now => ?_
  rw [transaction_revoke]
  refine .bind (within_raising (.action fun w row' hr => ?_)) fun revoked => ?_
  · obtain ⟨row, hrow, rfl⟩ := List.mem_map.mp hr
    exact .inl ⟨row, hrow, stays_revokedRow⟩
  · split
    · exact .pure
    · exact .throw

/-- **No call adds another's row.** -/
theorem within_body (k : BindingCall) : k.body.Within (Adds k) := by
  cases k with
  | register r => exact .bind (within_register r) fun _ => trivial
  | revoke scope bindingId actor reason =>
    exact .bind (within_revoke scope bindingId actor reason) fun _ => trivial
  | resolve scope identity explicitTaskId => exact .bind within_resolve fun _ => trivial

/-- A configuration of the registry. -/
abbrev BindingSystem := Config BindingCall Label World BindingAnswer

/-- A call on the bindings that is on its way. -/
abbrev BindingProc := Proc BindingCall Label World BindingAnswer

/-- A registration among the calls left the row. -/
def LeftBy (ps : List BindingProc) (row : SessionBindingRow) : Prop :=
  ∃ p ∈ ps, ∃ r, p.call = .register r ∧ Made r row

/-- A call stays in the list of calls through an action. -/
theorem LeftBy.set {ps : List BindingProc} {i : ℕ} {p : BindingProc} (hi : ps[i]? = some p)
    (log' : List Label) (prog : Prog Label World BindingAnswer) (h : LeftBy ps row) :
    LeftBy (ps.set i ⟨p.call, log', prog⟩) row := by
  obtain ⟨q, hq, r, hcall, hmade⟩ := h
  obtain ⟨j, hj⟩ := List.getElem?_of_mem hq
  by_cases hji : j = i
  · subst hji
    obtain rfl := Option.some.inj (hi.symm.trans hj)
    obtain ⟨hlt, -⟩ := List.getElem?_eq_some_iff.mp hi
    exact ⟨_, List.mem_of_getElem? (List.getElem?_set_self hlt), r, hcall, hmade⟩
  · refine ⟨q, List.mem_of_getElem? (i := j) ?_, r, hcall, hmade⟩
    rw [List.getElem?_set_ne (Ne.symm hji)]
    exact hj

/-- Every row there has been was left by a registration of the run. -/
def Registry (c : BindingSystem) : Prop := ∀ w, c.time.Seen w → ∀ row ∈ rows w, LeftBy c.procs row

/-- **The rows of a run are those its registrations left.** -/
theorem registry_of_reaches {allowed : BindingCall → Prop} {c : BindingSystem}
    (hw : rows w = []) (hr : Reaches BindingCall.body allowed (Config.initial w) c) :
    Registry c ∧ ∀ p ∈ c.procs, p.prog.Within (Adds p.call) := by
  induction hr with
  | refl =>
    refine ⟨fun w' hs row hrow => ?_, fun p hp => absurd hp List.not_mem_nil⟩
    rcases hs with rfl | hs
    · rw [show rows w' = [] from hw] at hrow
      cases hrow
    · cases hs
  | tail _ hs ih =>
    obtain ⟨hreg, hprocs⟩ := ih
    cases hs with
    | call hk =>
      -- a new call adds no row
      refine ⟨fun w' hseen row hrow => ?_, fun p hp => ?_⟩
      · obtain ⟨p, hp, hmade⟩ := hreg w' hseen row hrow
        exact ⟨p, List.mem_append_left _ hp, hmade⟩
      · rcases List.mem_append.mp hp with hp | hp
        · exact hprocs p hp
        · rw [List.mem_singleton.mp hp]
          exact within_body _
    | @act i k log β label run next hi =>
      obtain ⟨hact, hnext⟩ := hprocs _ (List.mem_of_getElem? hi)
      refine ⟨fun w' hseen row hrow => ?_, fun p hp => ?_⟩
      · refine LeftBy.set hi _ _ ?_
        rcases hseen with rfl | hseen
        · -- a row after the step stood before it, or this call added it
          rcases hact _ row hrow with ⟨row₀, hrow₀, hs⟩ | ⟨r, hk, hmade⟩
          · obtain ⟨p, hp, r, hcall, hmade⟩ := hreg _ Timeline.seen_now row₀ hrow₀
            exact ⟨p, hp, r, hcall, hmade.stays hs⟩
          · exact ⟨_, List.mem_of_getElem? hi, r, hk, hmade⟩
        · refine hreg w' ?_ row hrow
          rcases List.mem_cons.mp hseen with rfl | hs
          · exact Timeline.seen_now
          · exact .inr hs
      · rcases List.mem_or_eq_of_mem_set hp with hp | rfl
        · exact hprocs p hp
        · exact hnext _

end Atmem.Bindings
