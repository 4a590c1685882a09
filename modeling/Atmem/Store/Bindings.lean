import Atmem.Store.Schema
import Atmem.Store.WriteMethods
/-!
# Blocks of store calls

What code inside `with store.transaction()` does to the database: it calls
write methods of the store, catches what they raise or lets it through, and
enters further blocks. Code that only calls methods that join its block
keeps within the transaction the outermost block began: nothing is durable
before the block ends, and nothing of it is left when an exception leaves
the block. A method that commits makes what its block did until then
durable.
-/

namespace Atmem

open UnitOfWork

namespace SessionBindingRow

/-- The columns `uq_governed_task_session_bindings_active` is over. -/
def key (row : SessionBindingRow) : List String :=
  [row.subjectId, row.agentId, row.workspaceId, row.hostType, row.sessionKey, row.sessionEpoch]

/-- The primary key, and the partial index over the rows not revoked. -/
def clash (a b : SessionBindingRow) : Bool :=
  decide (a.bindingId = b.bindingId) ||
    (decide (a.key = b.key) && a.revokedAtUtc.isNone && b.revokedAtUtc.isNone)

/-- The row says when, by whom and why it was revoked. -/
def revoke (row : SessionBindingRow) (revokedAtUtc : Instant) (revokedBy revokedReason : String) :
    SessionBindingRow :=
  { row with
    revokedAtUtc := some revokedAtUtc
    revokedBy := some revokedBy
    revokedReason := some revokedReason }

end SessionBindingRow

/-- The database: the session bindings, and every other table. -/
structure Database (τ : Type) where
  bindings : List SessionBindingRow
  others : τ

/-- What Python code raises, by its name. -/
abbrev Exn := String

/-- A write method of the store, with its arguments: what a call of it does,
within what its body says. A statement that raises has changed nothing. -/
structure StoreMethod (τ β : Type) where
  method : WriteMethod
  body : Work Exn (Database τ) β
  performs : Performs method.parts body

namespace StoreMethod

variable {τ : Type}

/-- Executes one statement, and commits on the connection unless it
raised. -/
def executeAndCommit {β : Type} (statement : Database τ → Except Exn (β × Database τ)) :
    Work Exn (Database τ) β :=
  .execute statement fun
    | .ok b => .commit fun r => .done (r.map fun _ => b)
    | .error e => .done (.error e)

/-- A statement that commits by itself has that shape. -/
theorem performs_executeAndCommit {β : Type} {effect : Effect} (heffect : effect.isStatement = true)
    (statement : Database τ → Except Exn (β × Database τ)) :
    Performs (bare [effect, .commit]) (executeAndCommit statement) := by
  refine .execute List.mem_cons_self heffect fun r => ?_
  cases r with
  | ok b => exact .commit (List.mem_cons_of_mem _ List.mem_cons_self) fun _ => .done _
  | error e => exact .done _

/-- An `UPDATE` or a `DELETE` of the bindings a predicate selects, and how
many it was. -/
def selecting (selects : SessionBindingRow → Bool)
    (change : List SessionBindingRow → List SessionBindingRow) (db : Database τ) :
    Except Exn (ℕ × Database τ) :=
  .ok (db.bindings.countP selects, { db with bindings := change db.bindings })

/-- The `INSERT`; the unique indexes may refuse it. -/
def insertStatement (row : SessionBindingRow) (db : Database τ) :
    Except Exn (Unit × Database τ) :=
  if db.bindings.any (·.clash row) then .error "IntegrityError"
  else .ok ((), { db with bindings := db.bindings ++ [row] })

/-- The `UPDATE` of the rows that are selected, and how many they are. -/
def revokeStatement (selects : SessionBindingRow → Bool)
    (revokedAtUtc : Instant) (revokedBy revokedReason : String) :
    Database τ → Except Exn (ℕ × Database τ) :=
  selecting selects (·.map fun row =>
    if selects row then row.revoke revokedAtUtc revokedBy revokedReason else row)

/-- `insert_session_binding`. -/
def insertSessionBinding (row : SessionBindingRow) : StoreMethod τ Unit where
  method := .insertSessionBinding
  body := executeAndCommit (insertStatement row)
  performs := performs_executeAndCommit rfl _

/-- `revoke_session_binding`: whether a binding in force was revoked. -/
def revokeSessionBinding (bindingId subjectId agentId workspaceId : String)
    (revokedAtUtc : Instant) (revokedBy revokedReason : String) : StoreMethod τ Bool where
  method := .revokeSessionBinding
  body := executeAndCommit fun db => (revokeStatement (fun row =>
    decide (row.bindingId = bindingId) && decide (row.subjectId = subjectId) &&
      decide (row.agentId = agentId) && decide (row.workspaceId = workspaceId) &&
      row.revokedAtUtc.isNone) revokedAtUtc revokedBy revokedReason db).map
        fun r => (decide (0 < r.1), r.2)
  performs := performs_executeAndCommit rfl _

/-- `revoke_session_bindings_for_task`: how many were revoked. -/
def revokeSessionBindingsForTask (taskId : String) (revokedAtUtc : Instant)
    (revokedBy revokedReason : String) : StoreMethod τ ℕ where
  method := .revokeSessionBindingsForTask
  body := executeAndCommit (revokeStatement
    (fun row => decide (row.taskId = taskId) && row.revokedAtUtc.isNone)
    revokedAtUtc revokedBy revokedReason)
  performs := performs_executeAndCommit rfl _

/-- `delete_session_bindings_for_task`: how many were deleted. -/
def deleteSessionBindingsForTask (taskId : String) : StoreMethod τ ℕ where
  method := .deleteSessionBindingsForTask
  body :=
    let selects (row : SessionBindingRow) := decide (row.taskId = taskId)
    executeAndCommit (selecting selects (·.filter fun row => !selects row))
  performs := performs_executeAndCommit rfl _

/-- The method leaves committing to the block it is called in. -/
def joinsBlock {β : Type} (m : StoreMethod τ β) : Bool := !m.method.commits

/-- A method that joins its block never commits. -/
theorem joins_body {β : Type} {m : StoreMethod τ β} (hm : m.joinsBlock = true) : m.body.Joins :=
  m.performs.joins (m.method.joins_of_parts (Bool.not_eq_true' _ ▸ hm))

end StoreMethod

/-! ## Code in a block -/

/-- Code that calls write methods and enters blocks. What either answers
or raises is handed to the rest, which may catch it. -/
inductive Code (τ : Type) : Type → Type 1
  | done {α : Type} (r : Except Exn α) : Code τ α
  | call {α β : Type} (method : StoreMethod τ β) (next : Except Exn β → Code τ α) : Code τ α
  | transaction {α β : Type} (body : Code τ β) (next : Except Exn β → Code τ α) : Code τ α

namespace Code

variable {τ α : Type} {db : Database τ} {n : ℕ} (E : Engine Exn)

/-- The run on a connection. -/
def run : {α : Type} → Code τ α → Session (Database τ) → Except Exn α × Session (Database τ)
  | _, .done r, s => (r, s)
  | _, .call method next, s =>
    let r := method.body.run E s
    (next r.1).run r.2
  | _, .transaction body next, s =>
    let r := s.block E fun s => body.run s
    (next r.1).run r.2

/-- What is durable after each of the calls a run makes in a block. -/
def durables : {α : Type} → Code τ α → Session (Database τ) → List (Database τ)
  | _, .done _, _ => []
  | _, .call method next, s =>
    let r := method.body.run E s
    r.2.durable :: (next r.1).durables r.2
  | _, .transaction body next, s =>
    let r := s.joined fun s => body.run E s
    body.durables { s with depth := s.depth + 1 } ++ (next r.1).durables r.2

/-- Every method a run in a block calls leaves committing to the block. -/
def CallsJoin : {α : Type} → Code τ α → Session (Database τ) → Prop
  | _, .done _, _ => True
  | _, .call method next, s =>
    let r := method.body.run E s
    method.joinsBlock = true ∧ (next r.1).CallsJoin r.2
  | _, .transaction body next, s =>
    let r := s.joined fun s => body.run E s
    body.CallsJoin { s with depth := s.depth + 1 } ∧ (next r.1).CallsJoin r.2

variable {E}

/-- A run of code that calls only such methods keeps within its
transaction, and so does every call of it. -/
theorem CallsJoin.within {code : Code τ α} {s : Session (Database τ)}
    (hc : code.CallsJoin E s) (hs : s.Within db n) :
    ((code.run E s).2.Within db n ∧ (code.run E s).2.depth = s.depth) ∧
      ∀ d ∈ code.durables E s, d = db := by
  induction code generalizing s with
  | done r => exact ⟨⟨hs, rfl⟩, List.forall_mem_nil _⟩
  | call method next ih =>
    obtain ⟨hm, hrest⟩ := hc
    obtain ⟨hafter, hdepth⟩ := (StoreMethod.joins_body hm).within (E := E) hs
    obtain ⟨⟨hrun, hrundepth⟩, hdurables⟩ := ih _ hrest hafter
    exact ⟨⟨hrun, hrundepth.trans hdepth⟩,
      List.forall_mem_cons.mpr ⟨hafter.durable_eq, hdurables⟩⟩
  | transaction body next ihbody ihnext =>
    obtain ⟨hbody, hrest⟩ := hc
    obtain ⟨hinner, hinnerDurables⟩ := ihbody hbody hs.deeper
    obtain ⟨hafter, hdepth⟩ := hs.joined hinner
    obtain ⟨⟨hrun, hrundepth⟩, hdurables⟩ := ihnext _ hrest hafter
    have heq : (Code.transaction body next).run E s =
        (next (s.joined fun t => body.run E t).1).run E (s.joined fun t => body.run E t).2 := by
      rw [run, Session.block_of_entered hs.entered]
    rw [heq]
    exact ⟨⟨hrun, hrundepth.trans hdepth⟩, List.forall_mem_append.mpr ⟨hinnerDurables, hdurables⟩⟩

end Code

/-! ## The outermost block -/

variable {τ α : Type}

/-- No block is entered on the connection, and no transaction is open. -/
def Session.idle (db : Database τ) : Session (Database τ) := { durable := db }

/-- The outermost block: the run of the code in it, on an idle
connection. -/
def runBlock (E : Engine Exn) (code : Code τ α) (db : Database τ) :
    Except Exn α × Session (Database τ) :=
  (Session.idle db).block E fun s => code.run E s

/-- What is claimed of a block: no call in it makes anything durable, and
an exception that leaves it leaves the database as it was. -/
def Atomic (E : Engine Exn) (code : Code τ α) (db : Database τ) : Prop :=
  (∀ d ∈ code.durables E (Session.idle db).entered, d = db) ∧
    ∀ e, (runBlock E code db).1 = .error e → (runBlock E code db).2.Restored db

/-- The `COMMIT` that ends the block, the second answer of the engine, does
not raise and leave the transaction open. -/
def CommitEnds (E : Engine Exn) : Prop := ∀ e, E.commits 1 ≠ .refused e

/-- **A block is atomic** in every run of it that calls only methods that
join it, and whose `COMMIT` ends the transaction. -/
theorem atomic_of_callsJoin (E : Engine Exn) (code : Code τ α) (db : Database τ)
    (hc : code.CallsJoin E (Session.idle db).entered) (hcommit : CommitEnds E) :
    Atomic E code db := by
  obtain ⟨⟨hrun, -⟩, hdurables⟩ := hc.within (Session.idle db).within_entered
  exact ⟨hdurables, fun e he => Session.owned_of_within rfl hrun hcommit he⟩

/-- **A method that commits ends the transaction it is called in**: what
the block did until then is durable. -/
theorem durable_of_executeAndCommit {E : Engine Exn} {β : Type}
    {statement : Database τ → Except Exn (β × Database τ)} {s : Session (Database τ)} {b : β}
    (hb : ((StoreMethod.executeAndCommit statement).run E s).1 = .ok b) :
    ((StoreMethod.executeAndCommit statement).run E s).2.durable =
      ((StoreMethod.executeAndCommit statement).run E s).2.contents := by
  rcases hr : statement s.contents with e | ⟨c, contents⟩
  · simp only [StoreMethod.executeAndCommit, Work.run, hr] at hb
    cases hb
  · simp only [StoreMethod.executeAndCommit, Work.run, hr] at hb ⊢
    unfold Session.commit at hb ⊢
    rcases hworking : (s.write contents).working with - | w <;> rw [hworking] at hb
    · simp [Session.contents, hworking]
    · dsimp only at hb ⊢
      rcases hanswer : E.commits (s.write contents).answered with - | e | e <;> rw [hanswer] at hb
      · rfl
      · cases hb
      · cases hb

/-- Such a method breaks its block wherever its statement changes something. -/
theorem not_atomic_of_executeAndCommit {E : Engine Exn} {β : Type} {m : StoreMethod τ β}
    {statement : Database τ → Except Exn (β × Database τ)}
    (hm : m.body = StoreMethod.executeAndCommit statement) (next : Except Exn β → Code τ α)
    {db : Database τ} {b : β} (hb : (m.body.run E (Session.idle db).entered).1 = .ok b)
    (hchanged : (m.body.run E (Session.idle db).entered).2.contents ≠ db) :
    ¬ Atomic E (.call m next) db := by
  rintro ⟨hdurables, -⟩
  have hdurable := hdurables _ List.mem_cons_self
  rw [hm] at hb hchanged hdurable
  exact hchanged ((durable_of_executeAndCommit hb).symm.trans hdurable)

/-! ## Two blocks -/

/-- Every `BEGIN` and `COMMIT` succeeds. -/
def steadyEngine : Engine Exn where
  nested := "OperationalError"
  begins _ := none
  commits _ := .committed

/-- A write of another table, under a transaction of the method's own. -/
def exampleEpisode (episode : String) : StoreMethod (List String) Unit where
  method := .insertEpisode
  body := .block (.execute (fun db => .ok ((), { db with others := db.others ++ [episode] })) .done)
    .done
  performs := .transaction List.mem_cons_self
    (@Performs.execute _ _ _ _ _ (.insert .episodes) _ _ List.mem_cons_self rfl .done) .done

/-- A binding that is active. -/
def exampleBinding : SessionBindingRow where
  bindingId := "binding-1"
  subjectId := "s"
  agentId := "a"
  workspaceId := "w"
  hostType := "openclaw"
  sessionKey := "k"
  sessionEpoch := "e"
  taskId := "t"
  actor := "operator"
  reason := "bind"
  source := ""
  evidence := []
  registeredAtUtc := 0
  expiresAtUtc := none

/-- An episode is written and a session bound, and the block raises: both
are there. -/
theorem binding_commits_block :
    ¬ ∀ (τ α : Type) (E : Engine Exn) (code : Code τ α) (db : Database τ), Atomic E code db := by
  intro hall
  let code : Code (List String) Unit :=
    .call (exampleEpisode "n") fun _ => .call (.insertSessionBinding exampleBinding) fun _ =>
      .done (.error "boom")
  have hafter := (hall _ _ steadyEngine code ⟨[], []⟩).2 "boom" rfl
  have hepisodes : (runBlock steadyEngine code ⟨[], []⟩).2.durable.others = ["n"] := rfl
  rw [hafter.1] at hepisodes
  cases hepisodes

/-- Two episodes, one of them in a nested block, and the block raises. -/
theorem atomic_of_episodes :
    let code : Code (List String) Unit :=
      .call (exampleEpisode "n") fun _ =>
        .transaction (.call (exampleEpisode "m") fun _ => .done (.ok ())) fun _ =>
          .done (.error "boom")
    Atomic steadyEngine code ⟨[], []⟩ :=
  atomic_of_callsJoin _ _ _ ⟨rfl, ⟨rfl, trivial⟩, trivial⟩ nofun

end Atmem
