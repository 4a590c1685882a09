import Atmem.Memory.Helpers.Preconditions
/-!
# Submissions that are stale

However connections interleave, a proposal is validated against the store
its transaction works on, so that what is committed names nothing that moved.
But where the slot it adds to is occupied, what it pinned is exchanged for
the records of the slot as they stand, and is not looked at.
-/

namespace Atmem.Memory

open Relational Transactional Checked

variable {E : Engine} {w w' : MemoryWorld} {p : ExtractionProposal} {options : SubmitOptions}
variable {made : List (Call × Answer)} {s s₀ t : Session}

/-! ## Commits -/

/-- The call commits, and answers the row. -/
structure Commits (E : Engine) (w : MemoryWorld) (p : ExtractionProposal) (options : SubmitOptions)
    (row : MemoryProposalRow) : Prop where
  new : Unsubmitted w.store p
  answered : (atomic (submitExtractionProposal E p options) w).1 = .ok row
  committed : row.reviewState = .committed

/-- What is committed is made against the store it is committed to: the
captured sources of what is typed are as they were captured, and neither as it was submitted nor as it was
reconciled does it name what moved. Otherwise no record changes. What is
untyped has no captured source to check. -/
structure NotStale (E : Engine) (w : MemoryWorld) (p : ExtractionProposal)
    (options : SubmitOptions) : Prop where
  unmoved : ∀ row, Commits E w p options row → Unmoved E w.store p.val.scope.val.subjectId p
  reconciled : ∀ row, Commits E w p options row → ∃ prepared,
    prepare E w.store options p = .ok prepared ∧
      Unmoved E w.store p.val.scope.val.subjectId prepared.proposal
  sources : ∀ row, Commits E w p options row → ∃ bodies, verifiedTypedSources E w.store p = .ok bodies
  withheld : (¬ ∃ row, Commits E w p options row) →
    (atomic (submitExtractionProposal E p options) w).2.store.records = w.store.records

/-- A key that was used is answered with its row. -/
theorem exec_submitted_before {row : MemoryProposalRow} (hold : ¬ Unsubmitted w.store p)
    (h : exec (submitExtractionProposal E p options) w = (.ok row, w')) : w' = w := by
  obtain ⟨existing, hexisting⟩ := Option.ne_none_iff_exists'.mp hold
  unfold submitExtractionProposal at h
  dsimp only at h
  rw [exec_bind, exec_readStore] at h
  dsimp only at h
  rw [hexisting] at h
  dsimp only at h
  split at h
  · cases h
  · cases h
    rfl

/-- Where nothing is committed, no record changes. -/
theorem records_of_withheld (h : ¬ ∃ row, Commits E w p options row) :
    (atomic (submitExtractionProposal E p options) w).2.store.records = w.store.records := by
  rcases hrun : exec (submitExtractionProposal E p options) w with ⟨e | row, w'⟩
  · rw [atomic_of_error hrun]
  · rw [atomic_of_ok hrun]
    by_cases hnew : Unsubmitted w.store p
    · obtain ⟨prepared, hsubmitted⟩ := exists_submitted hnew hrun
      refine hsubmitted.records fun hcommitted => h ⟨row, hnew, ?_, hcommitted⟩
      rw [atomic_of_ok hrun]
    · rw [exec_submitted_before hnew hrun]

/-- A submission whose names are not exchanged over their heads is not
stale. -/
theorem notStale (hposed : WellPosed options p)
    (hnames : Retargets E w.store p → Unmoved E w.store p.val.scope.val.subjectId p) :
    NotStale E w p options := by
  have hcommits (row : MemoryProposalRow) (hrow : Commits E w p options row) :
      ∃ w' prepared, Submitted E options p w w' row prepared := by
    have hrun := atomic_eq_ok.mp (Prod.ext hrow.answered rfl)
    obtain ⟨prepared, hsubmitted⟩ := exists_submitted hrow.new hrun
    exact ⟨_, prepared, hsubmitted⟩
  refine ⟨fun row hrow => ?_, fun row hrow => ?_, fun row hrow => ?_, records_of_withheld⟩
  · obtain ⟨_, prepared, hsubmitted⟩ := hcommits row hrow
    rcases (hsubmitted.unmoved hposed (.inl hrow.committed)).2 with hunmoved | hretargets
    · exact hunmoved
    · exact hnames hretargets
  · obtain ⟨_, prepared, hsubmitted⟩ := hcommits row hrow
    exact ⟨prepared, hsubmitted.prepares, (hsubmitted.unmoved hposed (.inl hrow.committed)).1⟩
  · obtain ⟨_, prepared, hsubmitted⟩ := hcommits row hrow
    exact sources_of_prepare hsubmitted.prepares

/-! ## Runs -/

/-- Where a proposal adds to an occupied slot, what it names has not
moved. -/
def Call.NamesKept (E : Engine) (s : Session) : Call → Prop
  | .submitExtractionProposal p _ =>
    Retargets E s.world.store p → Unmoved E s.world.store p.val.scope.val.subjectId p
  | _ => True

/-- **No stale proposal is committed**, whatever other connections call, in
runs whose submissions keep what they name. -/
theorem submissions_not_stale
    (hr : History.Run (Call.body E) (fun made s k => k.Allowed made s ∧ k.NamesKept E s)
      (· = s₀) made t)
    {before after : List (Call × Answer)} {answer : Answer}
    (hcall : made = before ++ (.submitExtractionProposal p options, answer) :: after) :
    Session.RunFrom E s₀ before (Session.after E s₀ before) ∧
      ((Call.submitExtractionProposal p options).body E (Session.after E s₀ before)).1 = answer ∧
      NotStale E (Session.after E s₀ before).world p options := by
  subst hcall
  obtain ⟨hbefore, ⟨hallowed, hkept⟩, hanswer⟩ := hr.at_split
  exact ⟨hbefore.mono (fun _ hs => hs) (fun _ _ _ h => h.1), hanswer,
    notStale (wellPosed_of_allowed hallowed) hkept⟩

/-! ## Colours -/

/-- What the user said. -/
def colourText : String := "my color is blue"

/-- A fact for the slot of the colour, and what it was made against. -/
def colourFields (proposalId fact : String) (evidence : ProposalEvidence)
    (preconditions : List ProposalPrecondition) : ExtractionProposalFields where
  proposalId
  idempotencyKey := proposalId
  scope := hereScope
  action := .add
  memoryClass := .durableFact
  confidence := ⟨1, "1.0"⟩
  reasonCodes := ["new_fact_for_slot"]
  evidence := [evidence]
  fact := some fact
  factKey := some "color"
  preconditions

/-- Where the user said it. -/
def colourEvidence : ProposalEvidence :=
  ⟨⟨"m1", plainEngine.sha256 colourText, 0, 16, plainEngine.sha256 colourText⟩, by decide +kernel⟩

/-- The record of the first colour, as it was pinned. -/
def colourPin (generation : ℕ) : ProposalPreconditionFields :=
  ⟨"rec_0", generation, "active", plainEngine.sha256 "blue"⟩

/-- The record as it is. -/
def freshPin : ProposalPrecondition := ⟨colourPin 0, by decide +kernel⟩

/-- A generation it does not have. -/
def stalePin : ProposalPrecondition := ⟨colourPin 5, by decide +kernel⟩

/-- The first colour. -/
def blue : ExtractionProposal := ⟨colourFields "p1" "blue" colourEvidence [], by decide +kernel⟩

/-- Another one, built against the record as it is. -/
def freshGreen : ExtractionProposal :=
  ⟨colourFields "p2" "green" colourEvidence [freshPin], by decide +kernel⟩

/-- Another one, built against what the record is not. -/
def staleGreen : ExtractionProposal :=
  ⟨colourFields "p2" "green" colourEvidence [stalePin], by decide +kernel⟩

/-- The source comes with the proposal. -/
def colourOptions : SubmitOptions where
  sourceText := colourText

/-- The colours, one after the other. -/
def colourRun (ps : List ExtractionProposal) : List (Call × Answer) × Session :=
  History.play (Call.body plainEngine) (ps.map fun p => .submitExtractionProposal p colourOptions)
    ⟨plainWorld, []⟩

theorem allowed_colour {ps : List (Call × Answer)} :
    (Call.submitExtractionProposal p colourOptions).Allowed ps s :=
  fun _ hcontext => nomatch hcontext

/-- The first colour finds its slot empty. -/
theorem not_retargets_blue : ¬ Retargets plainEngine plainWorld.store blue := by
  have hempty : plainWorld.store.fullSlot blue = [] := by decide +kernel
  exact fun h => h.2.2 hempty

/-- A colour that pins the first as it stands. -/
theorem fresh_green_not_stale :
    NotStale plainEngine (Session.after plainEngine ⟨plainWorld, []⟩ (colourRun [blue]).1).world
      freshGreen colourOptions := by
  have hstart : History.Run (Call.body plainEngine)
      (fun made s k => k.Allowed made s ∧ k.NamesKept plainEngine s) (· = ⟨plainWorld, []⟩) []
      ⟨plainWorld, []⟩ := .start rfl
  have hpinned : Unmoved plainEngine (colourRun [blue]).2.world.store "user-1" freshGreen :=
    preconditionDrift_eq_nil.mp (by decide +kernel)
  have hallowed : History.AllowedInTurn (Call.body plainEngine)
      (fun made s k => k.Allowed made s ∧ k.NamesKept plainEngine s) [] ⟨plainWorld, []⟩
      ([blue, freshGreen].map fun p => .submitExtractionProposal p colourOptions) :=
    ⟨⟨allowed_colour, fun h => absurd h not_retargets_blue⟩, ⟨allowed_colour, fun _ => hpinned⟩,
      trivial⟩
  have hsplit : (colourRun [blue, freshGreen]).1 = (colourRun [blue]).1 ++
      [(.submitExtractionProposal freshGreen colourOptions, _)] := rfl
  exact (submissions_not_stale (hstart.inTurn hallowed) hsplit).2.2

/-- A colour that pins the first as it never stood is committed in its
place. -/
theorem stale_green_commits :
    Session.Run plainEngine (colourRun [blue]).1 (colourRun [blue]).2 ∧
      (∃ row, Commits plainEngine (colourRun [blue]).2.world staleGreen colourOptions row) ∧
      ¬ NotStale plainEngine (colourRun [blue]).2.world staleGreen colourOptions := by
  have hstart : Session.Run plainEngine [] ⟨plainWorld, []⟩ := .start ⟨rfl, rfl⟩
  have hallowed : History.AllowedInTurn (Call.body plainEngine) Call.Allowed [] ⟨plainWorld, []⟩
      ([blue].map fun p => .submitExtractionProposal p colourOptions) := ⟨allowed_colour, trivial⟩
  have hcommitted : (atomic (submitExtractionProposal plainEngine staleGreen colourOptions)
      (colourRun [blue]).2.world).1.toOption.map (·.reviewState) = some .committed := by
    decide +kernel
  obtain ⟨row, hrow, hstate⟩ := Option.map_eq_some_iff.mp hcommitted
  have hnew : Unsubmitted (colourRun [blue]).2.world.store staleGreen := by
    unfold Unsubmitted
    decide +kernel
  have hcommits : Commits plainEngine (colourRun [blue]).2.world staleGreen colourOptions row :=
    ⟨hnew, toOption_eq_some.mp hrow, hstate⟩
  refine ⟨hstart.inTurn hallowed, ⟨row, hcommits⟩, fun h => ?_⟩
  have hdrift := preconditionDrift_eq_nil.mpr (h.unmoved row hcommits)
  exact absurd hdrift (by decide +kernel)

end Atmem.Memory
