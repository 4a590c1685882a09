import Atmem.Common.Backtracking
import Mathlib.Data.Nat.Basic
/-!
# Sentence ranges

A source is cut into sentences, these at clauses that could stand alone, and
what is still too long at the line breaks it has. A range is two offsets into
the bytes of the source, which are never copied.
-/

namespace Atmem.ContextEngine

open Backtracking

/-- A source, as its bytes. -/
abbrev Bytes := List UInt8

/-- A range of offsets, the second exclusive. -/
abbrev Range := ℕ × ℕ

/-- The bytes of a text in ASCII. -/
def ascii (text : String) : Bytes := text.toList.map fun c => .ofNat c.toNat

/-- A character in ASCII. -/
def code (c : Char) : UInt8 := .ofNat c.toNat

/-! ## Patterns -/

/-- What `bytes.isspace` and `\s` accept. -/
def isSpace (c : UInt8) : Bool := c = 32 || (9 ≤ c && c ≤ 13)

/-- A line feed. -/
def isNewline (c : UInt8) : Bool := c = 10

/-- An ASCII letter. -/
def isLetter (c : UInt8) : Bool := (65 ≤ c && c ≤ 90) || (97 ≤ c && c ≤ 122)

/-- `\w`. -/
def isWord (c : UInt8) : Bool := isLetter c || (48 ≤ c && c ≤ 57) || c = 95

/-- `re.IGNORECASE`, of one letter. -/
def sameLetter (c d : UInt8) : Bool :=
  c = d || (isLetter c && isLetter d && (c = d + 32 || d = c + 32))

namespace Pattern

/-- `$`: at the end, or before a newline that is last. -/
def atEnd : Pattern UInt8 := .assert fun _ rest => rest = [] || rest = [10]

/-- `\b`. -/
def boundary : Pattern UInt8 :=
  .assert fun before rest => before.any isWord != rest.head?.any isWord

/-- `\s+`. -/
def spaces : Pattern UInt8 := .many false 1 isSpace

/-- A text, in either case, and what follows. -/
def text : Bytes → Pattern UInt8 → Pattern UInt8
  | [], next => next
  | c :: cs, next => .seq (.one (sameLetter c)) (text cs next)

/-- One of some patterns, in order; there is a first. -/
def oneOf : Pattern UInt8 → List (Pattern UInt8) → Pattern UInt8
  | a, [] => a
  | a, b :: as => .alt a (oneOf b as)

/-- Always. -/
def nothing : Pattern UInt8 := .assert fun _ _ => true

/-- A text, in either case. -/
def word (cs : String) : Pattern UInt8 := text (ascii cs) nothing

end Pattern

open Pattern

/-- `.+?(?:[.!?](?=\s|$)|\n+|$)`, where `.` is any byte. -/
def sentence : Pattern UInt8 :=
  .seq (.many true 1 fun _ => true)
    (.alt (.seq (.one fun c => c ∈ ascii ".!?") (.ahead (.alt (.one isSpace) atEnd)))
      (.alt (.many false 1 isNewline) atEnd))

/-- `,\s+(?=(?:and|but|so)\s+.{24,}$)`. -/
def joinedClause : Pattern UInt8 :=
  .seq (.one fun c => c = code ',') (.seq spaces
    (.ahead (.seq (oneOf (word "and") [word "but", word "so"])
      (.seq spaces (.seq (.many false 24 fun c => !isNewline c) atEnd)))))

/-- The subjects a new clause is told by. -/
def subject : Pattern UInt8 :=
  oneOf (.seq (word "support") (.seq spaces (word "tickets")))
    [.seq (word "i") (.seq (.alt (word "'m") (.seq spaces (word "am"))) boundary),
      .seq (word "we") boundary, .seq (word "they") boundary, .seq (word "he") boundary,
      .seq (word "she") boundary,
      .seq (word "the") (.seq spaces (.seq (.many false 1 fun c => isLetter c || c = code '-')
        (.seq spaces (.seq (oneOf (word "is") [word "was", word "has", word "will"])
          boundary))))]

/-- The pattern of `clause`. -/
def clause : Pattern UInt8 :=
  .alt joinedClause (.seq spaces (.ahead (.seq (word "and") (.seq spaces subject))))

/-- `predicate`. -/
def predicate : Pattern UInt8 :=
  .seq boundary (.seq
    (oneOf (word "is") [word "are", word "was", word "were", word "has", word "have", word "had",
      word "fell", word "rose", word "grew", word "became",
      .alt (word "remains") (word "remain"), .seq (.many false 1 isLetter) (word "ed"),
      .seq (.many false 1 isLetter) (word "ing")])
    boundary)

/-- `\\n|\n+`: an escaped newline, or newlines. -/
def lineBreak : Pattern UInt8 :=
  .alt (.seq (.one fun c => c = code '\\') (.one fun c => c = code 'n')) (.many false 1 isNewline)

/-! ## Ranges -/

section

variable (content : Bytes)

/-- `content[start:end]`. -/
def slice (start stop : ℕ) : Bytes := (content.drop start).take (stop - start)

/-- There is a byte at the offset and it is white space. -/
def spaceAt (i : ℕ) : Bool := (content[i]?).any isSpace

/-- The loop that moves the start. -/
def stripStart (start stop : ℕ) : ℕ :=
  if start < stop ∧ spaceAt content start = true then stripStart (start + 1) stop else start
termination_by stop - start

/-- The loop that moves the end. -/
def stripStop (start : ℕ) : ℕ → ℕ
  | 0 => 0
  | stop + 1 =>
    if start < stop + 1 ∧ spaceAt content stop = true then stripStop start stop else stop + 1

/-- A range without the whitespace around it. -/
def strip (r : Range) : Range :=
  let start := stripStart content r.1 r.2
  (start, stripStop content start r.2)

/-- A clause may end here: what is on both sides is long enough, and says
something. -/
def separates (last boundary stop : ℕ) : Bool :=
  last + 24 ≤ boundary && boundary + 24 ≤ stop && search (slice content last boundary) predicate &&
    search (slice content boundary stop) predicate

/-- The loop over the clauses, from the last boundary on. -/
def boundariesFrom (start stop : ℕ) : ℕ → List (ℕ × ℕ) → List ℕ
  | _, [] => [stop]
  | last, clause :: clauses =>
    let boundary := start + clause.2
    if separates content last boundary stop then
      boundary :: boundariesFrom start stop boundary clauses
    else boundariesFrom start stop last clauses

/-- `boundaries`. -/
def boundaries (start stop : ℕ) : List ℕ :=
  start :: boundariesFrom content start stop start (findIter (slice content start stop) clause)

/-- The clauses of a sentence. -/
def clauses (m : Range) : List Range :=
  let (start, stop) := strip content m
  if start < stop then
    let boundaries := boundaries content start stop
    ((boundaries.zip boundaries.tail).map (strip content)).filter fun r => r.1 < r.2
  else []

/-- `values`. -/
def values : List Range := (findIter content sentence).flatMap (clauses content)

/-- `initial`. -/
def initial : List Range :=
  if values content = [] then [(0, content.length)] else values content

/-- The most bytes of one range. -/
def maximum : ℕ := 4096

/-- The last line break of a window that is not in its first half. -/
def windowCut (cursor stop : ℕ) : Option ℕ :=
  let windowEnd := min stop (cursor + maximum)
  (((findIter (slice content cursor windowEnd) lineBreak).map (·.2)).filter
    (maximum / 2 ≤ ·)).getLast?

/-- A window is cut in its second half. -/
theorem windowCut_ge {cursor stop b : ℕ} (h : windowCut content cursor stop = some b) :
    maximum / 2 ≤ b := by
  have hmem := List.mem_of_getLast? h
  exact of_decide_eq_true (List.mem_filter.mp hmem).2

/-- `while end - cursor > maximum`. -/
def bounded (stop cursor : ℕ) : List Range :=
  if stop - cursor > maximum then
    match _h : windowCut content cursor stop with
    | some b => (cursor, cursor + b) :: bounded stop (cursor + b)
    | none => if cursor < stop then [(cursor, stop)] else []
  else if cursor < stop then [(cursor, stop)] else []
termination_by stop - cursor
decreasing_by
  have hge := windowCut_ge content _h
  simp only [maximum] at *
  omega

/-- `_sentence_ranges`. -/
def sentenceRanges : List Range := (initial content).flatMap fun r => bounded content r.2 r.1

end

end Atmem.ContextEngine
