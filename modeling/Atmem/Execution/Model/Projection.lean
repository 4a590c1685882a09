import Atmem.Common.Gaps
import Atmem.Contracts.Codec
import Mathlib.Data.Prod.Lex
import Mathlib.Data.String.Basic
/-!
# The projection of an execution

`execution_projection` with `classify_execution`: the events of one execution,
picked out of a collection and sorted, what they say of its parents and its
end, and the numbers a producer's events leave out. An event is a mapping that
holds its body, or is the body itself.
-/

namespace Atmem.Execution

open Gaps
open Json (field)

/-- `str`, `int` and `dict`, of a JSON value. -/
structure Values where
  str : Json → String
  int : Json → Except String ℤ
  dict : Json → Except String Json
  str_str : ∀ s, str (.str s) = s
  int_int : ∀ n, int (.int n) = .ok n
  dict_obj : ∀ kvs, dict (.obj kvs) = .ok (.obj kvs)

variable (V : Values)

/-- A key of a dict, as a text; nothing where it is false. -/
def textOf (body : Json) (key : String) : Option String :=
  if (field body key).truthy then some (V.str (field body key)) else none

/-- `sorted(set(texts))`. -/
def sortedTexts (texts : List String) : List String := texts.dedup.insertionSort (· ≤ ·)

/-! ## The state of an execution -/

/-- `classify_execution`, of the bodies. -/
def classifyExecution (bodies : List Json) : Except String String :=
  match bodies.reverse.find? fun b => field b "event_type" = .str "turn.ended" with
  | some terminal =>
    match terminal.getOr "payload" (.obj []) with
    | .obj payload =>
      if field (.obj payload) "cancelled" = .bool true then .ok "cancelled"
      else if field (.obj payload) "success" = .bool true then .ok "succeeded"
      else .ok "failed"
    | _ => .error "AttributeError"
  | none =>
    let calls (kind : String) : List String :=
      (bodies.filter fun b => field b "event_type" = .str kind).filterMap (textOf V · "tool_call_id")
    if bodies.any fun b => field b "event_type" = .str "execution.waiting" then .ok "waiting"
    else if (calls "tool.requested").any (· ∉ calls "tool.completed") then .ok "waiting"
    else if bodies.isEmpty then .ok "incomplete"
    else .ok "running"

/-! ## Picking out -/

/-- `dict(raw.get("body") or raw)`. -/
def bodyOf (raw : Json) : Except String Json := V.dict (raw.getOr "body" raw)

/-- The execution an event is of: by its `execution_id`, else its `run_id`. -/
def candidateOf (body : Json) : String :=
  V.str (body.getOr "execution_id" (body.getOr "run_id" (.str "")))

/-- An event of the subject and the execution. -/
def selects (subjectId executionId : String) (body : Json) : Bool :=
  field body "subject_id" = .str subjectId && candidateOf V body = executionId

/-- An event, and its body. -/
structure Selected where
  raw : Json
  body : Json
deriving DecidableEq

/-- The events in their order, each with its body. -/
def readEvents (events : List Json) : Except String (List Selected) :=
  events.mapM fun raw => do pure ⟨raw, ← bodyOf V raw⟩

/-- The producer's number, then the number of the ingest. -/
def sortKey (row : Selected) : Except String (ℤ ×ₗ ℤ) := do
  let producer ← V.int (row.body.getOr "producer_sequence" (.int 0))
  let ingest ← V.int (row.raw.getOr "sequence" (.int 0))
  pure (toLex (producer, ingest))

/-- `selected.sort`. -/
def sortSelected (selected : List Selected) : Except String (List Selected) := do
  let keyed ← selected.mapM fun row => do pure (← sortKey V row, row)
  pure ((keyed.insertionSort fun a b => a.1 ≤ b.1).map (·.2))

/-! ## What a producer leaves out -/

/-- `isinstance(value, int)`: a truth value is a number too. -/
def asInt? : Json → Option ℤ
  | .int n => some n
  | .bool b => some (if b then 1 else 0)
  | .null | .float _ | .str _ | .arr _ | .obj _ => none

/-- The producer and the epoch of an event, and its number, where it has all
three. -/
def positionOf (body : Json) : Option ((String × String) × ℤ) := do
  let producer ← textOf V body "producer_instance_id"
  let epoch ← textOf V body "producer_epoch"
  let sequence ← asInt? (field body "producer_sequence")
  pure ((producer, epoch), sequence)

/-- A stretch of a producer's stream that was never delivered, and why. -/
structure CoverageGap where
  reason : String
  producerInstanceId : String
  producerEpoch : String
  firstSequence : ℤ
  lastSequence : ℤ
deriving DecidableEq

/-- `producers`, a list of numbers for each producer and epoch. -/
def producers (positions : List ((String × String) × ℤ)) :
    List ((String × String) × List ℤ) :=
  (positions.map (·.1)).eraseDups.map fun k => (k, (positions.filter (·.1 = k)).map (·.2))

/-- The gaps of one producer and epoch. -/
def gapsOf (p : (String × String) × List ℤ) : List CoverageGap :=
  (gaps (distinct p.2)).map fun g => ⟨"missing_producer_sequence", p.1.1, p.1.2, g.1, g.2⟩

/-- `gaps`. -/
def coverageGaps (bodies : List Json) : List CoverageGap :=
  (producers (bodies.filterMap (positionOf V))).flatMap gapsOf

/-! ## The projection -/

/-- `project`'s view of one execution. -/
structure Projection where
  format : String := "atmem-execution-projection-v1"
  subjectId : String
  executionId : String
  events : List Selected
  eventCount : ℕ
  status : String
  parentExecutionIds : List String
  orphanParentIds : List String
  retryOfAttemptIds : List String
  coverageGaps : List CoverageGap
  ordering : String := "producer_sequence_then_ingest_sequence"
  crossProducerOrdering : String := "incomparable_without_explicit_dependency"
deriving DecidableEq

/-- `execution_projection`. -/
def executionProjection (events : List Json) (subjectId executionId : String) :
    Except String Projection := do
  let read ← readEvents V events
  let ofSubject := read.filter fun row => field row.body "subject_id" = .str subjectId
  let allExecutionIds := (ofSubject.map fun row => candidateOf V row.body).filter (· ≠ "")
  let selected ← sortSelected V (read.filter fun row => selects V subjectId executionId row.body)
  if selected = [] then throw "LookupError: execution not found"
  let bodies := selected.map (·.body)
  let parents := bodies.filterMap (textOf V · "parent_execution_id")
  let retries := bodies.filterMap (textOf V · "retry_of_attempt_id")
  let status ← classifyExecution V bodies
  pure
    { subjectId, executionId, events := selected, eventCount := selected.length, status
      parentExecutionIds := sortedTexts parents
      orphanParentIds := sortedTexts (parents.filter (· ∉ allExecutionIds))
      retryOfAttemptIds := sortedTexts retries
      coverageGaps := coverageGaps V bodies }

end Atmem.Execution
