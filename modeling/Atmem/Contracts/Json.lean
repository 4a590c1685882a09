import Mathlib.Data.List.Dedup
import Mathlib.Data.List.TakeWhile
import Mathlib.Data.Nat.Notation
import Atmem.Common.Checked
/-!
# JSON values, and the text of contracts

What a contract serialises to and a column of the store holds: the value
`json.dumps` writes. A number that is not an integer keeps its text. The
checks the contracts run on a text, an identifier of the protocol or a
bounded text, look at what `str.strip` leaves and do not change it.
-/

namespace Atmem

/-- A JSON value; an object keeps the order of its keys. -/
inductive Json
  | null
  | bool (b : Bool)
  | int (n : Int)
  | float (repr : String)
  | str (s : String)
  | arr (xs : List Json)
  | obj (kvs : List (String × Json))

namespace Json

mutual

/-- Equality of two values. -/
def decEq : (a b : Json) → Decidable (a = b)
  | .null, .null => .isTrue rfl
  | .bool a, .bool b => decidable_of_iff (a = b) ⟨congrArg _, fun h => by cases h; rfl⟩
  | .int a, .int b => decidable_of_iff (a = b) ⟨congrArg _, fun h => by cases h; rfl⟩
  | .float a, .float b => decidable_of_iff (a = b) ⟨congrArg _, fun h => by cases h; rfl⟩
  | .str a, .str b => decidable_of_iff (a = b) ⟨congrArg _, fun h => by cases h; rfl⟩
  | .arr a, .arr b =>
    have := decEqList a b
    decidable_of_iff (a = b) ⟨congrArg _, fun h => by cases h; rfl⟩
  | .obj a, .obj b =>
    have := decEqFields a b
    decidable_of_iff (a = b) ⟨congrArg _, fun h => by cases h; rfl⟩
  | .null, .bool _ | .null, .int _ | .null, .float _ | .null, .str _ | .null, .arr _
  | .null, .obj _ | .bool _, .null | .bool _, .int _ | .bool _, .float _ | .bool _, .str _
  | .bool _, .arr _ | .bool _, .obj _ | .int _, .null | .int _, .bool _ | .int _, .float _
  | .int _, .str _ | .int _, .arr _ | .int _, .obj _ | .float _, .null | .float _, .bool _
  | .float _, .int _ | .float _, .str _ | .float _, .arr _ | .float _, .obj _ | .str _, .null
  | .str _, .bool _ | .str _, .int _ | .str _, .float _ | .str _, .arr _ | .str _, .obj _
  | .arr _, .null | .arr _, .bool _ | .arr _, .int _ | .arr _, .float _ | .arr _, .str _
  | .arr _, .obj _ | .obj _, .null | .obj _, .bool _ | .obj _, .int _ | .obj _, .float _
  | .obj _, .str _ | .obj _, .arr _ => .isFalse nofun

/-- Equality of two arrays' elements. -/
def decEqList : (a b : List Json) → Decidable (a = b)
  | [], [] => .isTrue rfl
  | [], _ :: _ | _ :: _, [] => .isFalse nofun
  | x :: xs, y :: ys =>
    have := decEq x y
    have := decEqList xs ys
    decidable_of_iff (x = y ∧ xs = ys) ⟨fun h => by rw [h.1, h.2], fun h => by cases h; simp⟩

/-- Equality of two objects' fields. -/
def decEqFields : (a b : List (String × Json)) → Decidable (a = b)
  | [], [] => .isTrue rfl
  | [], _ :: _ | _ :: _, [] => .isFalse nofun
  | (k, x) :: xs, (l, y) :: ys =>
    have := decEq x y
    have := decEqFields xs ys
    decidable_of_iff (k = l ∧ x = y ∧ xs = ys)
      ⟨fun h => by rw [h.1, h.2.1, h.2.2], fun h => by cases h; simp⟩

end

instance : DecidableEq Json := decEq

/-- `payload.get(key)`; a value that is no object has no fields. -/
def get? (j : Json) (key : String) : Option Json :=
  match j with
  | .obj kvs => kvs.lookup key
  | _ => none

/-- `payload.get(key)`, where `None` stands for a key that is not there. -/
def field (j : Json) (key : String) : Json := (j.get? key).getD .null

/-- `payload[key]`. -/
def get (j : Json) (key : String) : Except String Json :=
  match j.get? key with
  | some v => .ok v
  | none => .error ("KeyError: " ++ key)

/-- `payload[key] = value`: a key that is there keeps its place. -/
def set (j : Json) (key : String) (value : Json) : Json :=
  match j with
  | .obj kvs => .obj (if kvs.any (·.1 == key) then kvs.map fun kv => if kv.1 == key then (key, value)
      else kv else kvs ++ [(key, value)])
  | j => j

/-- `payload.pop(key, None)` of each of the keys. -/
def without (j : Json) (keys : List String) : Json :=
  match j with
  | .obj kvs => .obj (kvs.filter fun kv => kv.1 ∉ keys)
  | j => j

/-- A text or `null`. -/
def ofOption {α : Type} (f : α → Json) : Option α → Json
  | some a => f a
  | none => .null

/-- A list of texts. -/
def strings (xs : List String) : Json := .arr (xs.map .str)

end Json

/-- What is found under a key was kept there. -/
theorem mem_of_lookup {κ α : Type} [BEq κ] [LawfulBEq κ] {entries : List (κ × α)} {key : κ}
    {a : α} (h : entries.lookup key = some a) : (key, a) ∈ entries := by
  obtain ⟨before, after, rfl, -⟩ := List.lookup_eq_some_iff.mp h
  exact List.mem_append_right before List.mem_cons_self

/-! ## Contract text -/

open Checked

/-- A character `str.strip` removes. -/
def isSpace (c : Char) : Bool :=
  let n := c.toNat
  (9 ≤ n && n ≤ 13) || (28 ≤ n && n ≤ 32) || n == 0x85 || n == 0xA0 || n == 0x1680 ||
    (0x2000 ≤ n && n ≤ 0x200A) || n == 0x2028 || n == 0x2029 || n == 0x202F || n == 0x205F ||
    n == 0x3000

/-- The characters `str.strip` leaves. -/
def strip (s : String) : List Char :=
  ((s.toList.dropWhile isSpace).reverse.dropWhile isSpace).reverse

/-- A character `_ID` allows after the first. -/
def isIdentifierChar (c : Char) : Bool :=
  c.isAlphanum || c == '_' || c == '.' || c == ':' || c == '-'

/-- `_ID`, matched in full: a letter, then at most 127 of the characters
above. -/
def isIdentifier : List Char → Bool
  | [] => false
  | c :: cs => c.isAlpha && cs.all isIdentifierChar && decide (cs.length ≤ 127)

/-- `_identifier`, and `_required_id` of the shared contracts. -/
def identifier (name value : String) : Except String Unit :=
  ensure (isIdentifier (strip value)) (name ++ " must be a non-empty protocol identifier")

/-- `_text` of a required field. -/
def text (name value : String) (limit : ℕ) : Except String Unit := do
  ensure (strip value ≠ []) (name ++ " is required")
  ensure ((strip value).length ≤ limit) (name ++ " exceeds " ++ toString limit ++ " characters")

/-- `text or None`, as a truth value: a field that is there and not
empty. -/
def truthy (value : Option String) : Bool :=
  value.any (· ≠ "")

/-- `str(value)` of an optional field. -/
def str (value : Option String) : String := value.getD "None"

/-- `repr` of a text: quoted, with the quote and the backslash escaped. -/
def repr (value : String) : String :=
  let quote := if value.contains '\'' && !value.contains '"' then '"' else '\''
  let escape (c : Char) : List Char :=
    if c = quote ∨ c = '\\' then ['\\', c] else if c = '\n' then ['\\', 'n']
    else if c = '\t' then ['\\', 't'] else if c = '\r' then ['\\', 'r'] else [c]
  String.ofList (quote :: value.toList.flatMap escape ++ [quote])

/-- `sorted(set(values))`, as an error message prints it. -/
def reprSorted (values : List String) : String :=
  "[" ++ ", ".intercalate ((values.dedup.mergeSort (· ≤ ·)).map repr) ++ "]"

/-- What is left is no longer than the text. -/
theorem length_strip_le (s : String) : (strip s).length ≤ s.toList.length := by
  unfold strip
  rw [List.length_reverse]
  refine Nat.le_trans (List.dropWhile_sublist _).length_le ?_
  rw [List.length_reverse]
  exact (List.dropWhile_sublist _).length_le

/-- Nothing is stripped from a text with no space. -/
theorem strip_ofList {cs : List Char} (h : ∀ c ∈ cs, isSpace c = false) :
    strip (String.ofList cs) = cs := by
  have hdrop : ∀ l : List Char, (∀ c ∈ l, isSpace c = false) → l.dropWhile isSpace = l := by
    intro l hl
    cases l with
    | nil => rfl
    | cons c l => rw [List.dropWhile_cons_of_neg (by simp [hl c List.mem_cons_self])]
  unfold strip
  rw [String.toList_ofList, hdrop cs h, hdrop cs.reverse fun c hc => h c (List.mem_reverse.mp hc),
    List.reverse_reverse]

/-- What an identifier is, once stripped. -/
@[simp] theorem identifier_eq_ok {name value : String} :
    identifier name value = .ok () ↔ isIdentifier (strip value) = true := ensure_eq_ok

/-- A text is neither blank nor too long. -/
@[simp] theorem text_eq_ok {name value : String} {limit : ℕ} :
    text name value limit = .ok () ↔ strip value ≠ [] ∧ (strip value).length ≤ limit := by
  rw [text, bind_eq_ok, ensure_eq_ok, ensure_eq_ok]

end Atmem
