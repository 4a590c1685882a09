import Mathlib.Data.List.Pairwise
import Atmem.Common.Interleaving
import Atmem.Common.Transaction
import Atmem.TaskState.Helpers.Alone
import Atmem.TaskState.Model.Binding
import Atmem.TaskState.Model.HostBoundary
/-!
# What a call does to the bindings

A registration adds one row or none, a revocation marks rows of one
identifier, and nothing else touches the table. So the rows keep their
identifiers apart, and of each identity at most one is not revoked. The gates
of a host's request answer as the store and the clock decide it, and do not
write.
-/

namespace Atmem

namespace SessionBindingRow

/-- When two bindings can both be stored. -/
theorem clash_eq_false {a b : SessionBindingRow} :
    a.clash b = false ↔ a.bindingId ≠ b.bindingId ∧
      (a.key = b.key → a.revokedAtUtc = none → b.revokedAtUtc ≠ none) := by
  unfold clash
  simp only [Bool.or_eq_false_iff, decide_eq_false_iff_not, Bool.and_eq_false_iff,
    Option.isNone_eq_false_iff, Option.isSome_iff_ne_none, ne_eq]
  tauto

/-- Clashing is symmetric. -/
theorem clash_symm {a b : SessionBindingRow} (h : a.clash b = false) : b.clash a = false := by
  rw [clash_eq_false] at h ⊢
  exact ⟨fun he => h.1 he.symm, fun hk hb ha => h.2 hk.symm ha hb⟩

/-- Revoking a row makes it clash with no more than it did. -/
theorem clash_of_revoked {a b a' b' : SessionBindingRow} (h : a.clash b = false)
    (haid : a'.bindingId = a.bindingId) (hbid : b'.bindingId = b.bindingId)
    (hakey : a'.key = a.key) (hbkey : b'.key = b.key)
    (ha : a'.revokedAtUtc = none → a.revokedAtUtc = none)
    (hb : b'.revokedAtUtc = none → b.revokedAtUtc = none) : a'.clash b' = false := by
  rw [clash_eq_false] at h ⊢
  rw [haid, hbid, hakey, hbkey]
  exact ⟨h.1, fun hk hna hnb => h.2 hk (ha hna) (hb hnb)⟩

end SessionBindingRow

namespace Bindings

open Interleaving

/-- The bindings table of a world. -/
def rows (w : World) : List SessionBindingRow := w.store.sessionBindings

/-- The rows clash with one another nowhere, and each names a task. -/
structure Sound (w : World) : Prop where
  apart : (rows w).Pairwise fun a b => a.clash b = false
  named : ∀ row ∈ rows w, row.taskId ≠ ""

/-- A row later on: as it was, or revoked since. -/
def Stays (row row' : SessionBindingRow) : Prop :=
  row' = row ∨ row.revokedAtUtc = none ∧ ∃ at_ by_ reason, row' = row.revoke at_ by_ reason

theorem Stays.bindingId {row row' : SessionBindingRow} (h : Stays row row') :
    row'.bindingId = row.bindingId := by
  rcases h with rfl | ⟨-, _, _, _, rfl⟩ <;> rfl

/-- What was revoked stays so. -/
theorem Stays.revoked {row row' : SessionBindingRow} (h : Stays row row')
    (hr : row.revokedAtUtc ≠ none) : row'.revokedAtUtc ≠ none := by
  rcases h with rfl | ⟨hn, -⟩
  · exact hr
  · exact absurd hn hr

/-- Staying is transitive. -/
theorem Stays.trans {a b c : SessionBindingRow} (hab : Stays a b) (hbc : Stays b c) : Stays a c := by
  rcases hab with rfl | ⟨ha, at_, by_, reason, rfl⟩
  · exact hbc
  · rcases hbc with rfl | ⟨hb, -⟩
    · exact .inr ⟨ha, at_, by_, reason, rfl⟩
    · cases hb

/-- The world goes on: the clock is read in order, and every row stays. -/
structure Follows (w w' : World) : Prop where
  clock : w'.clock = w.clock
  ticks : w.ticks ≤ w'.ticks
  stays : ∀ row ∈ rows w, ∃ row' ∈ rows w', Stays row row'

theorem Follows.refl (w : World) : Follows w w :=
  ⟨rfl, Nat.le_refl _, fun row hr => ⟨row, hr, .inl rfl⟩⟩

/-- So is following. -/
theorem Follows.trans {w₁ w₂ w₃ : World} (h : Follows w₁ w₂) (h' : Follows w₂ w₃) :
    Follows w₁ w₃ := by
  refine ⟨h'.clock.trans h.clock, Nat.le_trans h.ticks h'.ticks, fun row hr => ?_⟩
  obtain ⟨row₂, hr₂, hs⟩ := h.stays row hr
  obtain ⟨row₃, hr₃, hs'⟩ := h'.stays row₂ hr₂
  exact ⟨row₃, hr₃, hs.trans hs'⟩

/-- A reading of the clock leaves the rows alone. -/
theorem follows_tick {w : World} (hw : Sound w) :
    Sound { w with ticks := w.ticks + 1 } ∧ Follows w { w with ticks := w.ticks + 1 } :=
  ⟨⟨hw.apart, hw.named⟩, rfl, Nat.le_succ _, fun row hr => ⟨row, hr, .inl rfl⟩⟩

/-! ## The statements -/

/-- What inserting a binding does. -/
theorem exec_insertSessionBinding (row : SessionBindingRow) (s : Store) :
    Transactional.exec (insertSessionBinding row) s =
      if s.sessionBindings.any (·.clash row) then (.error .integrityError, s)
      else (.ok (), { s with sessionBindings := s.sessionBindings ++ [row] }) := by
  unfold insertSessionBinding
  simp only [Transactional.exec_bind, Transactional.exec_get]
  split
  · rfl
  · rfl

/-- The world with one more row. -/
def World.inserted (w : World) (row : SessionBindingRow) : World :=
  { w with store := { w.store with sessionBindings := rows w ++ [row] } }

/-- The world with the rows of an identifier revoked. -/
def World.revoked (w : World) (scope : AuthorityScope) (bindingId : String) (at_ : Instant)
    (by_ reason : String) : World :=
  { w with store :=
      { w.store with
        sessionBindings := (rows w).map (revokedRow scope bindingId at_ by_ reason) } }

variable {w : World} {row : SessionBindingRow} {scope : AuthorityScope}
variable {bindingId by_ reason : String} {at_ : Instant}

/-- A row that clashes with none keeps the rows apart. -/
theorem sound_inserted (hw : Sound w) (hrow : row.taskId ≠ "")
    (hc : ∀ r ∈ rows w, r.clash row = false) :
    Sound (World.inserted w row) ∧ Follows w (World.inserted w row) := by
  refine ⟨⟨?_, fun r hr => ?_⟩, rfl, Nat.le_refl _, fun r hr => ?_⟩
  · refine List.pairwise_append.mpr ⟨hw.apart, List.pairwise_singleton _ _, fun a ha b hb => ?_⟩
    rw [List.mem_singleton.mp hb]
    exact hc a ha
  · rcases List.mem_append.mp hr with hr | hr
    · exact hw.named r hr
    · rw [List.mem_singleton.mp hr]
      exact hrow
  · exact ⟨r, List.mem_append_left _ hr, .inl rfl⟩

/-- The row that a revocation selects. -/
theorem selectedBy_eq_true : selectedBy scope bindingId row = true ↔
    row.bindingId = bindingId ∧ row.subjectId = scope.val.subjectId ∧
      row.agentId = scope.val.agentId ∧ row.workspaceId = scope.val.workspaceId ∧
        row.revokedAtUtc = none := by
  simp [selectedBy, and_assoc]

/-- A revocation keeps what else a row says. -/
theorem stays_revokedRow : Stays row (revokedRow scope bindingId at_ by_ reason row) := by
  unfold revokedRow
  split
  · rename_i h
    exact .inr ⟨(selectedBy_eq_true.mp h).2.2.2.2, at_, by_, reason, rfl⟩
  · exact .inl rfl

theorem Stays.key {row row' : SessionBindingRow} (h : Stays row row') : row'.key = row.key := by
  rcases h with rfl | ⟨-, _, _, _, rfl⟩ <;> rfl

theorem Stays.taskId {row row' : SessionBindingRow} (h : Stays row row') :
    row'.taskId = row.taskId := by
  rcases h with rfl | ⟨-, _, _, _, rfl⟩ <;> rfl

/-- What is not revoked was not before. -/
theorem Stays.unrevoked {row row' : SessionBindingRow} (h : Stays row row')
    (hn : row'.revokedAtUtc = none) : row.revokedAtUtc = none := by
  by_contra hr
  exact h.revoked hr hn

/-- Revoking keeps the rows apart. -/
theorem sound_revoked (hw : Sound w) :
    Sound (World.revoked w scope bindingId at_ by_ reason) ∧
      Follows w (World.revoked w scope bindingId at_ by_ reason) := by
  refine ⟨⟨?_, fun r hr => ?_⟩, rfl, Nat.le_refl _, fun r hr => ?_⟩
  · refine List.pairwise_map.mpr (hw.apart.imp fun {a b} hab => ?_)
    have ha : Stays a (revokedRow scope bindingId at_ by_ reason a) := stays_revokedRow
    have hb : Stays b (revokedRow scope bindingId at_ by_ reason b) := stays_revokedRow
    exact SessionBindingRow.clash_of_revoked hab ha.bindingId hb.bindingId ha.key hb.key
      ha.unrevoked hb.unrevoked
  · obtain ⟨r₀, hr₀, rfl⟩ := List.mem_map.mp hr
    rw [stays_revokedRow.taskId]
    exact hw.named r₀ hr₀
  · exact ⟨_, List.mem_map_of_mem hr, stays_revokedRow⟩

/-- What an identifier selects is revoked. -/
theorem revokedRow_of_selected (h : selectedBy scope bindingId row = true) :
    revokedRow scope bindingId at_ by_ reason row = row.revoke at_ by_ reason := by
  unfold revokedRow
  rw [if_pos h]

/-! ## The lookup -/

/-- The columns of a session's key. -/
theorem key_eq_bindingKey {identity : HostSessionIdentity} :
    row.key = bindingKey scope identity ↔ row.subjectId = scope.val.subjectId ∧
      row.agentId = scope.val.agentId ∧ row.workspaceId = scope.val.workspaceId ∧
        row.hostType = identity.val.hostType ∧ row.sessionKey = identity.val.sessionKey ∧
          row.sessionEpoch = identity.val.sessionEpoch := by
  simp [SessionBindingRow.key, bindingKey]

/-- The lookup finds an unrevoked row of exactly the identity. -/
theorem of_find {identity : HostSessionIdentity}
    (h : w.store.findActiveSessionBinding scope identity = some row) :
    row ∈ rows w ∧ row.key = bindingKey scope identity ∧ row.revokedAtUtc = none := by
  unfold Store.findActiveSessionBinding at h
  have hp := List.find?_some h
  simp only [decide_eq_true_eq] at hp
  exact ⟨List.mem_of_find?_eq_some h, key_eq_bindingKey.mpr ⟨hp.1, hp.2.1, hp.2.2.1, hp.2.2.2.1,
    hp.2.2.2.2.1, hp.2.2.2.2.2.1⟩, hp.2.2.2.2.2.2⟩

/-- And where it finds none there is none. -/
theorem of_find_none {identity : HostSessionIdentity}
    (h : w.store.findActiveSessionBinding scope identity = none) (hr : row ∈ rows w)
    (hkey : row.key = bindingKey scope identity) : row.revokedAtUtc ≠ none := by
  intro hn
  have hk := key_eq_bindingKey.mp hkey
  have hp := List.find?_eq_none.mp h row hr
  exact hp (decide_eq_true ⟨hk.1, hk.2.1, hk.2.2.1, hk.2.2.2.1, hk.2.2.2.2.1, hk.2.2.2.2.2, hn⟩)

/-- Two rows that are apart nowhere are one. -/
theorem Sound.eq_of_clash (hw : Sound w) {a b : SessionBindingRow} (ha : a ∈ rows w)
    (hb : b ∈ rows w) (h : a.clash b ≠ false) : a = b := by
  by_contra hne
  have : Std.Symm fun a b : SessionBindingRow => a.clash b = false :=
    ⟨fun _ _ => SessionBindingRow.clash_symm⟩
  exact h (hw.apart.forall ha hb hne)

/-- Two unrevoked rows of an identity are one. -/
theorem Sound.eq_of_key (hw : Sound w) {a b : SessionBindingRow} (ha : a ∈ rows w)
    (hb : b ∈ rows w) (hkey : a.key = b.key) (hna : a.revokedAtUtc = none)
    (hnb : b.revokedAtUtc = none) : a = b :=
  hw.eq_of_clash ha hb fun h => (SessionBindingRow.clash_eq_false.mp h).2 hkey hna hnb

end Bindings

/-! ## The gates of a host's request, alone -/

open Checked Interleaving

variable {w w' : World} {scope : AuthorityScope} {identity : HostSessionIdentity}
variable {bound : SessionBindingRow}

/-! ## Enablement -/

/-- The mode of a scope is read from its events. -/
theorem exec_enablement (w : World) (scope : AuthorityScope) :
    (enablement scope).exec w =
      (.ok (if (modeOf scope (w.store.listAuditEvents scope.val.subjectId)).enabled then
          (none, (modeOf scope (w.store.listAuditEvents scope.val.subjectId)).shadow)
        else (some ⟨.taskStateDisabled, "Governed task state is disabled for this scope."⟩,
          false)), w) := rfl

/-! ## The session's binding -/

/-- The clock was read so many times. -/
def World.after (w : World) (readings : ℕ) : World := { w with ticks := w.ticks + readings }

@[simp] theorem World.after_store (n : ℕ) : (w.after n).store = w.store := rfl
@[simp] theorem World.after_clock (n : ℕ) : (w.after n).clock = w.clock := rfl

/-- How often the clock is read to look at a binding. -/
def SessionBindingRow.readings (bound : SessionBindingRow) : ℕ :=
  if bound.expiresAtUtc.isSome then 1 else 0

/-- The active binding of a session, where its own lifetime is not over. -/
def Store.boundAt (s : Store) (t : Instant) (scope : AuthorityScope)
    (identity : HostSessionIdentity) : Option SessionBindingRow :=
  (s.findActiveSessionBinding scope identity).filter fun bound => bound.expiresAtUtc.all (t < ·)

/-- A binding has expired when the clock says so. -/
theorem exec_bindingExpired :
    (bindingExpired bound).exec w =
      (.ok (!bound.expiresAtUtc.all (w.clock w.ticks < ·)), w.after bound.readings) := by
  unfold bindingExpired SessionBindingRow.readings
  rcases bound.expiresAtUtc with - | expiresAt
  · rfl
  · rw [Eff.exec_bind_ok exec_now, Eff.exec_pure]
    simp only [Option.all_some, ← Nat.not_lt, decide_not]
    rfl

/-- A binding that has not expired is what the lookup answers. -/
theorem exec_activeBinding_some (h : w.store.boundAt (w.clock w.ticks) scope identity = some bound) :
    (activeBinding scope identity).exec w = (.ok (some bound), w.after bound.readings) := by
  obtain ⟨hfound, hstands⟩ := Option.filter_eq_some_iff.mp h
  unfold activeBinding query
  rw [Eff.exec_bind, Eff.exec_read]
  simp only [hfound]
  rw [Eff.exec_bind_ok exec_bindingExpired, hstands]
  rfl

/-- Any other is none. -/
theorem exec_activeBinding_none (h : w.store.boundAt (w.clock w.ticks) scope identity = none) :
    ∃ readings, (activeBinding scope identity).exec w = (.ok none, w.after readings) := by
  unfold activeBinding query
  rw [Eff.exec_bind, Eff.exec_read]
  dsimp only
  rcases hfound : w.store.findActiveSessionBinding scope identity with - | bound
  · exact ⟨0, rfl⟩
  · have hover : bound.expiresAtUtc.all (w.clock w.ticks < ·) = false := by
      rw [Store.boundAt, hfound, Option.filter_some] at h
      split at h
      · cases h
      · exact Bool.eq_false_iff.mpr ‹_›
    refine ⟨bound.readings, ?_⟩
    dsimp only
    rw [Eff.exec_bind_ok exec_bindingExpired, hover]
    rfl

/-- Looking for a stale binding reads the clock and nothing else. -/
theorem exec_anyStale (identity : HostSessionIdentity) (rows : List SessionBindingRow) :
    ∃ stale readings, (anyStale identity rows).exec w = (.ok stale, w.after readings) := by
  induction rows generalizing w with
  | nil => exact ⟨false, 0, rfl⟩
  | cons row rows ih =>
    unfold anyStale
    by_cases hepoch : row.sessionEpoch ≠ identity.val.sessionEpoch
    · exact ⟨true, 0, by rw [if_pos hepoch]; rfl⟩
    · rw [if_neg hepoch, Eff.exec_bind_ok exec_bindingExpired]
      split
      · exact ⟨true, row.readings, rfl⟩
      · obtain ⟨stale, readings, hexec⟩ := ih (w := w.after row.readings)
        refine ⟨stale, row.readings + readings, ?_⟩
        rw [hexec, World.after, World.after, World.after, Nat.add_assoc]

/-! ## The task of a session -/

/-- What a binding is resolved to. -/
def SessionBindingRow.resolved (bound : SessionBindingRow) : ResolvedTaskFields :=
  { resolution := .bound, taskId := some bound.taskId, bindingId := some bound.bindingId }

/-- A session that is bound is resolved. -/
theorem exec_resolveBinding_some
    (h : w.store.boundAt (w.clock w.ticks) scope identity = some bound) :
    (resolveBinding scope identity).exec w =
      (lift (make ResolvedTaskFields.postInit bound.resolved)).exec (w.after bound.readings) := by
  unfold resolveBinding
  rw [Eff.exec_bind_ok (exec_activeBinding_some h)]
  rfl

/-- A session without one is resolved to no task. -/
theorem exists_unresolved (stale : Bool) :
    ∃ resolved : ResolvedTask, make ResolvedTaskFields.postInit
        (if stale then
          { resolution := .staleSession, reasonCode := some .taskBindingStaleSession }
        else { resolution := .none, reasonCode := some .taskContextSelectionRequired }) =
      .ok resolved ∧ resolved.val.resolution.delivers = false := by
  have hcheck : ∀ f : ResolvedTaskFields, f.postInit = .ok () → f.resolution.delivers = false →
      ∃ resolved : ResolvedTask, make ResolvedTaskFields.postInit f = .ok resolved ∧
        resolved.val.resolution.delivers = false := fun f hf hwithheld =>
    ⟨⟨f, hf⟩, make_of_ok hf, hwithheld⟩
  cases stale with
  | true => exact hcheck _ rfl rfl
  | false => exact hcheck _ rfl rfl

/-- One that is not is withheld. -/
theorem exec_resolveBinding_none (h : w.store.boundAt (w.clock w.ticks) scope identity = none) :
    ∃ resolved readings, (resolveBinding scope identity).exec w =
      (.ok resolved, w.after readings) ∧ resolved.val.resolution.delivers = false := by
  obtain ⟨looked, hexec⟩ := exec_activeBinding_none h
  obtain ⟨stale, scanned, hstale⟩ := exec_anyStale (w := w.after looked) identity
    (w.store.findActiveBindingsForSessionKey scope identity)
  have hquery : (query .findActiveBindingsForSessionKey
      (·.findActiveBindingsForSessionKey scope identity)).exec (w.after looked) =
      (.ok (w.store.findActiveBindingsForSessionKey scope identity), w.after looked) := rfl
  have hafter : (w.after looked).after scanned = w.after (looked + scanned) := by
    rw [World.after, World.after, World.after, Nat.add_assoc]
  rw [hafter] at hstale
  obtain ⟨resolved, hmake, hwithheld⟩ := exists_unresolved stale
  refine ⟨resolved, looked + scanned, ?_, hwithheld⟩
  unfold resolveBinding
  rw [Eff.exec_bind_ok hexec]
  dsimp only
  rw [Eff.exec_bind_ok hquery, Eff.exec_bind_ok hstale, hmake, lift, Eff.exec_ofExcept_ok]

/-- A session that is bound to nothing is refused. -/
theorem exec_boundTask_none (taskId : String)
    (h : w.store.boundAt (w.clock w.ticks) scope identity = none) :
    ∃ refusal readings,
      (boundTask scope identity taskId).exec w = (.ok (some refusal), w.after readings) := by
  obtain ⟨resolved, readings, hexec, hwithheld⟩ := exec_resolveBinding_none h
  refine ⟨⟨resolved.val.reasonCode.getD .taskContextSelectionRequired,
    "This conversation is not bound to a governed task."⟩, readings, ?_⟩
  unfold boundTask
  rw [Eff.exec_bind_ok hexec, hwithheld]
  rfl

/-- What a binding resolves to passes its checks. -/
theorem resolved_postInit (hid : bound.taskId ≠ "") : bound.resolved.postInit = .ok () := by
  unfold ResolvedTaskFields.postInit SessionBindingRow.resolved truthy
  simp [BindingResolution.delivers, hid, bind_eq_ok]

/-- What a bound session is answered with, for the task it names. -/
theorem exec_boundTask_some (taskId : String)
    (h : w.store.boundAt (w.clock w.ticks) scope identity = some bound)
    (hid : bound.taskId ≠ "") :
    (boundTask scope identity taskId).exec w =
      (.ok (if bound.taskId = taskId then none
        else some ⟨.hostTaskNotBoundToSession, "This conversation is not bound to that task."⟩),
        w.after bound.readings) := by
  have hexec := exec_resolveBinding_some h
  rw [make_of_ok (resolved_postInit hid), lift, Eff.exec_ofExcept_ok] at hexec
  unfold boundTask
  rw [Eff.exec_bind_ok hexec, Eff.exec_pure]
  by_cases heq : bound.taskId = taskId
  · simp [SessionBindingRow.resolved, BindingResolution.delivers, heq]
  · simp [SessionBindingRow.resolved, BindingResolution.delivers, heq]

/-- A binding that names no task is not resolved. -/
theorem exec_boundTask_empty (taskId : String)
    (h : w.store.boundAt (w.clock w.ticks) scope identity = some bound)
    (hid : bound.taskId = "") :
    ∃ e w', (boundTask scope identity taskId).exec w = (.error e, w') := by
  have hfails : bound.resolved.postInit =
      .error "a delivering resolution must name exactly one task" := by
    unfold ResolvedTaskFields.postInit SessionBindingRow.resolved
    rw [hid]
    rfl
  refine ⟨.valueError "a delivering resolution must name exactly one task",
    w.after bound.readings, ?_⟩
  unfold boundTask
  refine Eff.exec_bind_error ?_
  rw [exec_resolveBinding_some h, make_of_error hfails]
  rfl

end Atmem
