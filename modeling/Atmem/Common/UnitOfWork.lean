import Mathlib.Data.Nat.Notation
/-!
# Units of work on a connection

A connection in autocommit mode, and the blocks of code that join or open
a transaction on it. The outermost block owns the transaction: it begins
one, and commits or rolls back as it ends. A statement within changes what
the transaction works on; outside it is durable at once. Code that only
executes statements and joins blocks leaves to the outermost block what is
durable; code that commits by itself does not.
-/

namespace UnitOfWork

/-- How a `COMMIT` of an open transaction ends: one that raises leaves its
transaction open, or has rolled it back. -/
inductive CommitAnswer (ε : Type)
  | committed
  | refused (e : ε)
  | undone (e : ε)

/-- What a database engine answers on one connection, to the `BEGIN`s and
`COMMIT`s it gets there, counted from 0. -/
structure Engine (ε : Type) where
  /-- What a `BEGIN` raises where a transaction is open. -/
  nested : ε
  begins : ℕ → Option ε
  commits : ℕ → CommitAnswer ε

/-- A connection: what is durable, what the open transaction has made of
it, how many blocks are entered, and how many `BEGIN`s and `COMMIT`s the
engine has answered. -/
structure Session (σ : Type) where
  durable : σ
  working : Option σ := none
  depth : ℕ := 0
  answered : ℕ := 0

namespace Session

variable {σ α ε : Type} (E : Engine ε)

/-- What a statement sees. -/
def contents (s : Session σ) : σ := s.working.getD s.durable

/-- What a statement leaves. -/
def write (s : Session σ) (contents : σ) : Session σ :=
  match s.working with
  | some _ => { s with working := some contents }
  | none => { s with durable := contents }

/-- `BEGIN`. -/
def start (s : Session σ) : Except ε Unit × Session σ :=
  match s.working, E.begins s.answered with
  | some _, _ => (.error E.nested, s)
  | none, some e => (.error e, { s with answered := s.answered + 1 })
  | none, none => (.ok (), { s with working := some s.durable, answered := s.answered + 1 })

/-- `commit`; nothing where no transaction is open. -/
def commit (s : Session σ) : Except ε Unit × Session σ :=
  match s.working with
  | none => (.ok (), s)
  | some contents =>
    match E.commits s.answered with
    | .committed =>
      (.ok (), { s with durable := contents, working := none, answered := s.answered + 1 })
    | .refused e => (.error e, { s with answered := s.answered + 1 })
    | .undone e => (.error e, { s with working := none, answered := s.answered + 1 })

/-- `rollback`; nothing where no transaction is open. -/
def rollback (s : Session σ) : Session σ := { s with working := none }

/-- A block within another only counts. -/
def joined (code : Session σ → Except ε α × Session σ) (s : Session σ) : Except ε α × Session σ :=
  let r := code { s with depth := s.depth + 1 }
  (r.1, { r.2 with depth := r.2.depth - 1 })

/-- How the outermost block ends: it rolls back what raises, and commits what
does not. Nothing rolls back where the `COMMIT` itself raises. -/
def finish : Except ε α × Session σ → Except ε α × Session σ
  | (.error e, s) => (.error e, { s.rollback with depth := 0 })
  | (.ok a, s) =>
    let r := s.commit E
    (r.1.map fun _ => a, { r.2 with depth := 0 })

/-- The outermost block. -/
def owned (code : Session σ → Except ε α × Session σ) (s : Session σ) : Except ε α × Session σ :=
  match s.start E with
  | (.error e, s₁) => (.error e, s₁)
  | (.ok _, s₁) => finish E (code { s₁ with depth := 1 })

/-- A block of code in a unit of work. -/
def block (code : Session σ → Except ε α × Session σ) (s : Session σ) : Except ε α × Session σ :=
  if 0 < s.depth then s.joined code else s.owned E code

/-- Within a transaction that started from these contents, as the engine's
answer with this number. -/
structure Within (durable : σ) (answered : ℕ) (s : Session σ) : Prop where
  durable_eq : s.durable = durable
  isOpen : s.working.isSome = true
  entered : 0 < s.depth
  answered_eq : s.answered = answered

variable {E} {d : σ} {n : ℕ} {s : Session σ}

/-- One block deeper in the same transaction. -/
theorem Within.deeper (hs : Within d n s) : Within d n { s with depth := s.depth + 1 } :=
  ⟨hs.durable_eq, hs.isOpen, Nat.succ_pos _, hs.answered_eq⟩

/-- A write stays within the transaction. -/
theorem Within.write (hs : Within d n s) (contents : σ) : Within d n (s.write contents) := by
  obtain ⟨w, hw⟩ := Option.isSome_iff_exists.mp hs.isOpen
  have heq : s.write contents = { s with working := some contents } := by
    simp only [Session.write, hw]
  rw [heq]
  exact ⟨hs.durable_eq, rfl, hs.entered, hs.answered_eq⟩

/-- A write changes no depth. -/
theorem depth_write (s : Session σ) (contents : σ) : (s.write contents).depth = s.depth := by
  unfold Session.write
  split <;> rfl

/-- A block inside another joins it. -/
theorem block_of_entered (hpos : 0 < s.depth) (code : Session σ → Except ε α × Session σ) :
    s.block E code = s.joined code := if_pos hpos

/-- A nested block keeps within the transaction, where its code does. -/
theorem Within.joined (hs : Within d n s) {code : Session σ → Except ε α × Session σ}
    (hcode : Within d n (code { s with depth := s.depth + 1 }).2 ∧
      (code { s with depth := s.depth + 1 }).2.depth = s.depth + 1) :
    Within d n (s.joined code).2 ∧ (s.joined code).2.depth = s.depth := by
  obtain ⟨hafter, hdepth⟩ := hcode
  have hback : (code { s with depth := s.depth + 1 }).2.depth - 1 = s.depth := by
    rw [hdepth]
    exact Nat.add_sub_cancel s.depth 1
  refine ⟨⟨hafter.durable_eq, hafter.isOpen, ?_, hafter.answered_eq⟩, hback⟩
  change 0 < (code { s with depth := s.depth + 1 }).2.depth - 1
  rw [hback]
  exact hs.entered

/-- The session the code of the outermost block starts in. -/
def entered (s : Session σ) : Session σ :=
  { s with working := some s.durable, depth := 1, answered := s.answered + 1 }

theorem within_entered (s : Session σ) : Within s.durable (s.answered + 1) s.entered :=
  ⟨rfl, rfl, Nat.one_pos, rfl⟩

/-- Nothing of a block is left: what is durable is what was, and no
transaction is open. -/
def Restored (durable : σ) (s : Session σ) : Prop := s.durable = durable ∧ s.working = none

/-- Where no transaction is open, one is begun or `BEGIN` raises. -/
theorem start_of_idle (hidle : s.working = none) :
    (∃ e, s.start E = (.error e, { s with answered := s.answered + 1 })) ∨
      s.start E = (.ok (), { s with working := some s.durable, answered := s.answered + 1 }) := by
  unfold start
  rw [hidle]
  rcases E.begins s.answered with - | e
  · exact .inr rfl
  · exact .inl ⟨e, rfl⟩

/-- A `COMMIT` that raises and does not leave its transaction open has
changed nothing. -/
theorem Within.restored_of_commit (hs : Within d n s)
    (hcommit : ∀ e, E.commits n ≠ .refused e) {e : ε} (he : (s.commit E).1 = .error e) :
    Restored d (s.commit E).2 := by
  obtain ⟨w, hw⟩ := Option.isSome_iff_exists.mp hs.isOpen
  unfold commit at he ⊢
  rw [hw, hs.answered_eq] at he ⊢
  dsimp only at he ⊢
  rcases hanswer : E.commits n with - | e' | e' <;> rw [hanswer] at he
  · cases he
  · exact absurd hanswer (hcommit e')
  · exact ⟨hs.durable_eq, rfl⟩

/-- A block that fails leaves what was there, if the COMMIT is not refused. -/
theorem restored_of_finish {r : Except ε α × Session σ} (hr : Within d n r.2)
    (hcommit : ∀ e, E.commits n ≠ .refused e) {e : ε} (he : (finish E r).1 = .error e) :
    Restored d (finish E r).2 := by
  rcases r with ⟨e' | a, s⟩
  · exact ⟨hr.durable_eq, rfl⟩
  · change (s.commit E).1.map _ = _ at he
    rcases hc : (s.commit E).1 with e' | u
    · exact hr.restored_of_commit hcommit hc
    · rw [hc] at he
      cases he

/-- **The outermost block is all or nothing**, where its code keeps within
the transaction and its `COMMIT` does not leave the transaction open. -/
theorem owned_of_within (hidle : s.working = none)
    {code : Session σ → Except ε α × Session σ}
    (hcode : Within s.durable (s.answered + 1) (code s.entered).2)
    (hcommit : ∀ e, E.commits (s.answered + 1) ≠ .refused e) {e : ε}
    (he : (s.owned E code).1 = .error e) : Restored s.durable (s.owned E code).2 := by
  unfold owned at he ⊢
  rcases start_of_idle (E := E) hidle with ⟨e', hstart⟩ | hstart <;> rw [hstart] at he ⊢
  · exact ⟨rfl, hidle⟩
  · exact restored_of_finish hcode hcommit he

end Session

/-! ## Code on a connection -/

/-- The body of a method: statements, each of which fails and changes
nothing or answers with what it leaves; commits of its own; blocks. Either
way what becomes of it is handed to the rest, which may catch it. -/
inductive Work (ε σ : Type) : Type → Type 1
  | done {α : Type} (r : Except ε α) : Work ε σ α
  | execute {α β : Type} (run : σ → Except ε (β × σ)) (next : Except ε β → Work ε σ α) : Work ε σ α
  | commit {α : Type} (next : Except ε Unit → Work ε σ α) : Work ε σ α
  | block {α β : Type} (body : Work ε σ β) (next : Except ε β → Work ε σ α) : Work ε σ α

namespace Work

variable {ε σ α : Type} (E : Engine ε)

/-- The run on a connection. -/
def run : {α : Type} → Work ε σ α → Session σ → Except ε α × Session σ
  | _, .done r, s => (r, s)
  | _, .execute statement next, s =>
    match statement s.contents with
    | .ok (b, contents) => (next (.ok b)).run (s.write contents)
    | .error e => (next (.error e)).run s
  | _, .commit next, s =>
    let r := s.commit E
    (next r.1).run r.2
  | _, .block body next, s =>
    let r := s.block E fun s => body.run s
    (next r.1).run r.2

/-- Work whose answer, or whose exception, is handed to more. -/
def bind {β : Type} : {α : Type} → Work ε σ α → (Except ε α → Work ε σ β) → Work ε σ β
  | _, .done r, f => f r
  | _, .execute statement next, f => .execute statement fun r => (next r).bind f
  | _, .commit next, f => .commit fun r => (next r).bind f
  | _, .block body next, f => .block body fun r => (next r).bind f

/-- It never commits by itself. -/
def Joins : {α : Type} → Work ε σ α → Prop
  | _, .done _ => True
  | _, .execute _ next => ∀ r, (next r).Joins
  | _, .commit _ => False
  | _, .block body next => body.Joins ∧ ∀ r, (next r).Joins

/-- Work that joins is followed by work that joins. -/
theorem Joins.bind {β : Type} {w : Work ε σ α} (hw : w.Joins) {f : Except ε α → Work ε σ β}
    (hf : ∀ r, (f r).Joins) : (w.bind f).Joins := by
  induction w with
  | done r => exact hf r
  | execute statement next ih => exact fun r => ih r (hw r) hf
  | commit next => exact hw.elim
  | block body next ihbody ihnext => exact ⟨hw.1, fun r => ihnext r (hw.2 r) hf⟩

variable {E}

/-- **What joins keeps within the transaction it is run in.** -/
theorem Joins.within {w : Work ε σ α} (hw : w.Joins) {d : σ} {n : ℕ} {s : Session σ}
    (hs : s.Within d n) : (w.run E s).2.Within d n ∧ (w.run E s).2.depth = s.depth := by
  induction w generalizing s with
  | done r => exact ⟨hs, rfl⟩
  | execute statement next ih =>
    rcases hr : statement s.contents with e | ⟨b, contents⟩
    · have hnext := ih (.error e) (hw (.error e)) hs
      simpa only [run, hr] using hnext
    · have hnext := ih (.ok b) (hw (.ok b)) (hs.write contents)
      rw [s.depth_write] at hnext
      simpa only [run, hr] using hnext
  | commit next => exact hw.elim
  | block body next ihbody ihnext =>
    have hblock := hs.joined (ihbody hw.1 hs.deeper)
    have hnext := ihnext (s.joined fun t => body.run E t).1 (hw.2 _) hblock.1
    rw [hblock.2] at hnext
    have hrun : (Work.block body next).run E s =
        (next (s.joined fun t => body.run E t).1).run E (s.joined fun t => body.run E t).2 := by
      rw [run, Session.block_of_entered hs.entered]
    rw [hrun]
    exact hnext

end Work

end UnitOfWork
