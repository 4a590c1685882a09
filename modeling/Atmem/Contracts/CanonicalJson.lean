import Atmem.Contracts.Json
import Atmem.Common.Splitting
import Mathlib.Data.List.Sort
/-!
# Canonical JSON

`canonical_json`: `json.dumps(value, sort_keys=True, separators=(",", ":"))`,
the text that is hashed. It determines the value it was written from, up to
the order of the keys of its objects (`canonicalJson_inj`): every part of it
shows where it ends.
-/

namespace Atmem

open Delimited

namespace Json

/-! ## The text of a value -/

/-- The escapes of one letter, of `ESCAPE_DCT`. -/
def shortEscapes : List (Char × Char) :=
  [('\\', '\\'), ('"', '"'), ('\x08', 'b'), ('\x0c', 'f'), ('\n', 'n'), ('\r', 'r'), ('\t', 't')]

/-- `{:04x}`. -/
def hex4 (n : ℕ) : List Char :=
  [(n / 4096).digitChar, (n / 256 % 16).digitChar, (n / 16 % 16).digitChar, (n % 16).digitChar]

/-- `\uXXXX`. -/
def unicodeEscape (n : ℕ) : List Char := '\\' :: 'u' :: hex4 n

/-- A character of a text, in ASCII; beyond the basic plane, as a surrogate
pair. -/
def escapeAscii (c : Char) : List Char :=
  match shortEscapes.lookup c with
  | some e => ['\\', e]
  | none =>
    let n := c.toNat
    if 32 ≤ n ∧ n ≤ 126 then [c]
    else if n < 0x10000 then unicodeEscape n
    else unicodeEscape (0xD800 + (n - 0x10000) / 1024) ++
      unicodeEscape (0xDC00 + (n - 0x10000) % 1024)

/-- `py_encode_basestring_ascii`. -/
def quote (s : String) : List Char := '"' :: (s.toList.flatMap escapeAscii ++ ['"'])

mutual

/-- `json.dumps` with the separators `,` and `:`. -/
def dumps : Json → List Char
  | .null => "null".toList
  | .bool b => (if b then "true" else "false").toList
  | .int n => (toString n).toList
  | .float repr => repr.toList
  | .str s => quote s
  | .arr [] => ['[', ']']
  | .arr (x :: xs) => '[' :: (dumps x ++ dumpsItems xs)
  | .obj [] => ['{', '}']
  | .obj ((k, x) :: kvs) => '{' :: (quote k ++ ':' :: (dumps x ++ dumpsFields kvs))

/-- The elements after the first. -/
def dumpsItems : List Json → List Char
  | [] => [']']
  | x :: xs => ',' :: (dumps x ++ dumpsItems xs)

/-- The fields after the first. -/
def dumpsFields : List (String × Json) → List Char
  | [] => ['}']
  | (k, x) :: kvs => ',' :: (quote k ++ ':' :: (dumps x ++ dumpsFields kvs))

end

/-- `sorted(items)`: the keys of a dict are distinct. -/
def sortFields (kvs : List (String × Json)) : List (String × Json) :=
  kvs.insertionSort fun a b => a.1 ≤ b.1

mutual

/-- `sort_keys`, at every level. -/
def sortKeys : Json → Json
  | .arr xs => .arr (sortKeysItems xs)
  | .obj kvs => .obj (sortFields (sortKeysFields kvs))
  | .null => .null
  | .bool b => .bool b
  | .int n => .int n
  | .float repr => .float repr
  | .str s => .str s

/-- The same of each element of an array. -/
def sortKeysItems : List Json → List Json
  | [] => []
  | x :: xs => sortKeys x :: sortKeysItems xs

/-- The same of each value of an object. -/
def sortKeysFields : List (String × Json) → List (String × Json)
  | [] => []
  | (k, x) :: kvs => (k, sortKeys x) :: sortKeysFields kvs

end

/-- `canonical_json`. -/
def canonicalJson (j : Json) : String := String.ofList j.sortKeys.dumps

/-! ## What a reader of JSON returns -/

/-- `float.__repr__`: a point or an exponent, or a value that is no
number. -/
def isFloatText (repr : String) : Bool :=
  repr ∈ ["NaN", "Infinity", "-Infinity"] ||
    (repr.toList.all (fun c => c.isDigit || c ∈ ['+', '-', '.', 'e']) &&
      repr.toList.any fun c => c = '.' || c = 'e')

mutual

/-- Every float is written as `repr` writes it, and no object has a key
twice. -/
def Proper : Json → Prop
  | .float repr => isFloatText repr = true
  | .arr xs => ProperItems xs
  | .obj kvs => (kvs.map (·.1)).Nodup ∧ ProperFields kvs
  | .null | .bool _ | .int _ | .str _ => True

/-- Every element is proper. -/
def ProperItems : List Json → Prop
  | [] => True
  | x :: xs => Proper x ∧ ProperItems xs

/-- Every value is proper. -/
def ProperFields : List (String × Json) → Prop
  | [] => True
  | (_, x) :: kvs => Proper x ∧ ProperFields kvs

end

/-! ## Texts -/

/-- The value of a digit of `hex4`. -/
def hexVal (c : Char) : ℕ := if c.isDigit then c.toNat - 48 else c.toNat - 87

/-- Four hexadecimal digits, and what is left. -/
def readHex4 : List Char → Option (ℕ × List Char)
  | a :: b :: c :: d :: s =>
    some (4096 * hexVal a + 256 * hexVal b + 16 * hexVal c + hexVal d, s)
  | _ => none

/-- The character an escape stands for, after `\u` and four digits. -/
def readSurrogate (n : ℕ) (s : List Char) : Option (Char × List Char) :=
  if 0xD800 ≤ n ∧ n < 0xDC00 then
    (readHex4 (s.drop 2)).map fun m =>
      (Char.ofNat (0x10000 + (n - 0xD800) * 1024 + (m.1 - 0xDC00)), m.2)
  else some (Char.ofNat n, s)

/-- One character of a quoted text, and what is left. -/
def readEscaped : List Char → Option (Char × List Char)
  | [] => none
  | [c] => some (c, [])
  | c :: e :: s =>
    if c ≠ '\\' then some (c, e :: s)
    else if e = 'u' then (readHex4 s).bind fun n => readSurrogate n.1 n.2
    else (shortEscapes.find? (·.2 = e)).map fun p => (p.1, s)

theorem hexVal_digitChar : ∀ n < 16, hexVal n.digitChar = n := by decide

/-- Four digits that were written are read. -/
theorem readHex4_hex4 {n : ℕ} (hn : n < 65536) (s : List Char) :
    readHex4 (hex4 n ++ s) = some (n, s) := by
  have h₁ := hexVal_digitChar (n / 4096) (by omega)
  have h₂ := hexVal_digitChar (n / 256 % 16) (by omega)
  have h₃ := hexVal_digitChar (n / 16 % 16) (by omega)
  have h₄ := hexVal_digitChar (n % 16) (by omega)
  simp only [hex4, List.cons_append, List.nil_append, readHex4, h₁, h₂, h₃, h₄]
  congr 2
  omega

/-- A short escape is read back. -/
theorem readEscaped_short : ∀ p ∈ shortEscapes, ∀ s,
    readEscaped ('\\' :: p.2 :: s) = some (p.1, s) := by
  simp [shortEscapes, readEscaped]

/-- A character is no surrogate. -/
theorem char_ranges (c : Char) : c.toNat < 0xD800 ∨ (0xDFFF < c.toNat ∧ c.toNat < 0x110000) :=
  c.valid

/-- A character of the basic plane is read back. -/
theorem readEscaped_unicodeEscape {n : ℕ} (hn : n < 0xD800 ∨ 0xDC00 ≤ n ∧ n < 65536)
    (s : List Char) : readEscaped (unicodeEscape n ++ s) = some (Char.ofNat n, s) := by
  have hread := readHex4_hex4 (n := n) (by omega) s
  have hplain : ¬ (0xD800 ≤ n ∧ n < 0xDC00) := by omega
  simp [unicodeEscape, readEscaped, hread, readSurrogate, hplain]

/-- A surrogate pair is read back as one character. -/
theorem readEscaped_pair {n m : ℕ} (hn : 0xD800 ≤ n ∧ n < 0xDC00) (hm : m < 65536)
    (s : List Char) : readEscaped (unicodeEscape n ++ (unicodeEscape m ++ s)) =
      some (Char.ofNat (0x10000 + (n - 0xD800) * 1024 + (m - 0xDC00)), s) := by
  have hread := readHex4_hex4 (n := n) (by omega) (unicodeEscape m ++ s)
  have hread' := readHex4_hex4 hm s
  simp only [unicodeEscape, List.cons_append] at hread ⊢
  simp [readEscaped, hread, readSurrogate, hn, hread']

/-- **An escaped character is read back**, whatever follows it. -/
theorem readEscaped_escapeAscii (c : Char) (s : List Char) :
    readEscaped (escapeAscii c ++ s) = some (c, s) := by
  have hranges := char_ranges c
  unfold escapeAscii
  split
  · rename_i e he
    exact readEscaped_short (c, e) (mem_of_lookup he) s
  · rename_i hnone
    have hback : c ≠ '\\' := by
      rintro rfl
      exact absurd hnone (by decide)
    dsimp only
    split
    · rcases s with - | ⟨d, s⟩
      · rfl
      · simp [readEscaped, hback]
    · split
      · rw [readEscaped_unicodeEscape (by omega), Char.ofNat_toNat]
      · have hvalue : 0x10000 + (0xD800 + (c.toNat - 0x10000) / 1024 - 0xD800) * 1024 +
            (0xDC00 + (c.toNat - 0x10000) % 1024 - 0xDC00) = c.toNat := by omega
        rw [List.append_assoc, readEscaped_pair (by omega) (by omega), hvalue, Char.ofNat_toNat]

/-- No escape begins another. -/
theorem escapeAscii_selfDelimiting : SelfDelimiting escapeAscii :=
  SelfDelimiting.of_reader readEscaped_escapeAscii

/-- No character's text begins with a bare quote. -/
theorem escapeAscii_ne_quote (c : Char) (s t : List Char) : escapeAscii c ++ s ≠ '"' :: t := by
  intro h
  have hquote : c ≠ '"' := by
    rintro rfl
    exact absurd (List.cons.inj h).1 (by decide)
  unfold escapeAscii at h
  split at h
  · exact absurd (List.cons.inj h).1 (by decide)
  · dsimp only at h
    split at h
    · exact hquote (List.cons.inj h).1
    · split at h <;> exact absurd (List.cons.inj h).1 (by decide)

/-- **A quoted text ends where it says.** -/
theorem quote_inj {k l : String} {s t : List Char} (h : quote k ++ s = quote l ++ t) :
    k = l ∧ s = t := by
  simp only [quote, List.cons_append, List.append_assoc, List.nil_append] at h
  obtain ⟨hkl, hst⟩ := escapeAscii_selfDelimiting.flatMap_inj escapeAscii_ne_quote
    (List.cons.inj h).2
  exact ⟨String.toList_inj.mp hkl, hst⟩

/-! ## Words -/

/-- A character that ends a word. -/
def IsStop (c : Char) : Prop := c = ',' ∨ c = ']' ∨ c = '}'

/-- A value that is written as one word. -/
def IsWord : Json → Prop
  | .null | .bool _ | .int _ | .float _ => True
  | .str _ | .arr _ | .obj _ => False

/-- A character a word may hold. -/
def isWordChar (c : Char) : Bool := c.isAlphanum || c ∈ ['+', '-', '.']

theorem not_isStop {c : Char} (hc : isWordChar c = true) : ¬ IsStop c := by
  rintro (rfl | rfl | rfl) <;> exact absurd hc (by decide)

theorem toString_natCast_chars (n : ℕ) : ∀ c ∈ (toString n).toList, c.isDigit = true := by
  intro c hc
  rw [Nat.toString_eq_ofList_toDigits, String.toList_ofList] at hc
  exact Nat.isDigit_of_mem_toDigits (by decide) (by decide) hc

/-- A number's text names it. -/
theorem toString_nat_inj {n m : ℕ} (h : toString n = toString m) : n = m := by
  rw [Nat.toString_eq_ofList_toDigits, Nat.toString_eq_ofList_toDigits, String.ofList_inj] at h
  rw [← Nat.ofDigitChars_ten_toDigits (n := n), h, Nat.ofDigitChars_ten_toDigits]

/-- A number without a sign is not one with a sign. -/
theorem toString_nat_ne_neg (n m : ℕ) : toString n ≠ "-" ++ toString m := by
  intro h
  have hsign : '-' ∈ (toString n).toList := by
    rw [h, String.toList_append]
    exact List.mem_append_left _ (by decide)
  exact absurd (toString_natCast_chars n '-' hsign) (by decide)

/-- So does that of an integer. -/
theorem toString_int_inj {n m : ℤ} (h : toString n = toString m) : n = m := by
  match n, m with
  | .ofNat n, .ofNat m => rw [toString_nat_inj (n := n) (m := m) h]
  | .ofNat n, .negSucc m => exact absurd h (toString_nat_ne_neg n (m + 1))
  | .negSucc n, .ofNat m => exact absurd h.symm (toString_nat_ne_neg m (n + 1))
  | .negSucc n, .negSucc m =>
    have htext : "-" ++ toString (n + 1) = "-" ++ toString (m + 1) := h
    have hsucc : n + 1 = m + 1 := toString_nat_inj ((String.append_right_inj "-").mp htext)
    rw [Nat.succ.inj hsucc]

/-- The text of an integer: digits, after a sign. -/
theorem toString_int_chars (n : ℤ) :
    (toString n).toList.all (fun c => c.isDigit || c = '-') = true := by
  rw [List.all_eq_true]
  intro c hc
  rcases n with n | n
  · have hdigit := toString_natCast_chars n c hc
    rw [hdigit]
    rfl
  · rw [show toString (Int.negSucc n) = "-" ++ toString (n + 1) from rfl, String.toList_append,
      List.mem_append] at hc
    rcases hc with hc | hc
    · rw [List.mem_singleton.mp hc]
      decide
    · have hdigit := toString_natCast_chars (n + 1) c hc
      rw [hdigit]
      rfl

/-- What a word is of, by its letters. -/
def wordClass (w : List Char) : ℕ :=
  if w.all fun c => c.isDigit || c = '-' then 0
  else if w = "null".toList then 1
  else if w = "true".toList then 2
  else if w = "false".toList then 3
  else 4

theorem wordClass_int (n : ℤ) : wordClass (dumps (.int n)) = 0 := by
  rw [dumps, wordClass, if_pos (toString_int_chars n)]

/-- A float is no integer, and no constant. -/
theorem wordClass_float {repr : String} (h : isFloatText repr = true) :
    wordClass (dumps (.float repr)) = 4 := by
  unfold isFloatText at h
  rw [Bool.or_eq_true, decide_eq_true_iff, Bool.and_eq_true] at h
  rcases h with h | ⟨hall, hany⟩
  · simp only [List.mem_cons, List.not_mem_nil, or_false] at h
    rcases h with rfl | rfl | rfl <;> decide
  · have hletter : ∀ c ∈ repr.toList, c ≠ 'u' ∧ c ≠ 's' := by
      intro c hc
      have hok := List.all_eq_true.mp hall c hc
      constructor <;> rintro rfl <;> exact absurd hok (by decide)
    obtain ⟨d, hd, hpoint⟩ := List.any_eq_true.mp hany
    have hint : ¬ repr.toList.all (fun c => c.isDigit || c = '-') = true := by
      intro hdigits
      have hok := List.all_eq_true.mp hdigits d hd
      rw [Bool.or_eq_true, decide_eq_true_iff, decide_eq_true_iff] at hpoint
      rcases hpoint with rfl | rfl <;> exact absurd hok (by decide)
    have hnull : repr.toList ≠ "null".toList := by
      intro heq
      exact (hletter 'u' (by rw [heq]; decide)).1 rfl
    have htrue : repr.toList ≠ "true".toList := by
      intro heq
      exact (hletter 'u' (by rw [heq]; decide)).1 rfl
    have hfalse : repr.toList ≠ "false".toList := by
      intro heq
      exact (hletter 's' (by rw [heq]; decide)).2 rfl
    rw [dumps, wordClass, if_neg hint, if_neg hnull, if_neg htrue, if_neg hfalse]

/-- The class of the word of a value. -/
def valueClass : Json → ℕ
  | .null => 1
  | .bool b => if b then 2 else 3
  | .float _ => 4
  | .int _ | .str _ | .arr _ | .obj _ => 0

/-- The first character of a word tells its kind. -/
theorem wordClass_dumps {j : Json} (hw : IsWord j) (hp : Proper j) :
    wordClass j.dumps = valueClass j := by
  match j with
  | .null => decide
  | .bool b => cases b <;> decide
  | .int n => exact wordClass_int n
  | .float _ => exact wordClass_float hp

/-- **A word is of one value.** -/
theorem dumps_word_inj {a b : Json} (ha : IsWord a) (hb : IsWord b) (hpa : Proper a)
    (hpb : Proper b) (h : a.dumps = b.dumps) : a = b := by
  have hclass : valueClass a = valueClass b := by
    rw [← wordClass_dumps ha hpa, ← wordClass_dumps hb hpb, h]
  match a, b with
  | .null, .null => rfl
  | .bool x, .bool y => cases x <;> cases y <;> first | rfl | exact absurd hclass (by decide)
  | .int n, .int m =>
    have htext : toString n = toString m := String.toList_inj.mp h
    rw [toString_int_inj htext]
  | .float r, .float q => rw [String.toList_inj.mp h]
  | .null, .bool y | .bool y, .null | .bool y, .int _ | .int _, .bool y | .bool y, .float _
  | .float _, .bool y => cases y <;> simp [valueClass] at hclass
  | .null, .int _ | .null, .float _ | .int _, .null | .int _, .float _ | .float _, .null
  | .float _, .int _ => simp [valueClass] at hclass

/-- A word holds no stop, and no bracket or quote. -/
theorem isWordChar_dumps {j : Json} (hw : IsWord j) (hp : Proper j) :
    ∀ c ∈ j.dumps, isWordChar c = true := by
  intro c hc
  match j with
  | .null =>
    have hall : Json.null.dumps.all isWordChar = true := by decide
    exact List.all_eq_true.mp hall c hc
  | .bool b =>
    have hall : (Json.bool b).dumps.all isWordChar = true := by cases b <;> decide
    exact List.all_eq_true.mp hall c hc
  | .int n =>
    have hok := List.all_eq_true.mp (toString_int_chars n) c hc
    rw [Bool.or_eq_true, decide_eq_true_iff] at hok
    rcases hok with hdigit | rfl
    · simp [isWordChar, Char.isAlphanum, hdigit]
    · decide
  | .float r =>
    have hfloat : isFloatText r = true := hp
    unfold isFloatText at hfloat
    rw [Bool.or_eq_true, decide_eq_true_iff, Bool.and_eq_true] at hfloat
    rcases hfloat with hmem | ⟨hall, -⟩
    · simp only [List.mem_cons, List.not_mem_nil, or_false] at hmem
      have hnames : (Json.float r).dumps.all isWordChar = true := by
        rcases hmem with rfl | rfl | rfl <;> decide
      exact List.all_eq_true.mp hnames c hc
    · have hok := List.all_eq_true.mp hall c hc
      rw [Bool.or_eq_true, decide_eq_true_iff] at hok
      rcases hok with hdigit | hmem
      · simp [isWordChar, Char.isAlphanum, hdigit]
      · simp only [List.mem_cons, List.not_mem_nil, or_false] at hmem
        rcases hmem with rfl | rfl | rfl | rfl <;> decide

theorem dumps_word_ne_nil {j : Json} (hw : IsWord j) (hp : Proper j) : j.dumps ≠ [] := by
  intro hnil
  match j with
  | .null => exact absurd hnil (by decide)
  | .bool b => cases b <;> exact absurd hnil (by decide)
  | .int n =>
    have hempty : (toString n).toList = [] := hnil
    rcases n with n | n
    · rw [show toString (Int.ofNat n) = toString n from rfl, Nat.toString_eq_ofList_toDigits,
        String.toList_ofList] at hempty
      exact Nat.toDigits_ne_nil hempty
    · rw [show toString (Int.negSucc n) = "-" ++ toString (n + 1) from rfl,
        String.toList_append] at hempty
      exact absurd (List.append_eq_nil_iff.mp hempty).1 (by decide)
  | .float r =>
    have hclass := wordClass_float (show isFloatText r = true from hp)
    rw [hnil] at hclass
    exact absurd hclass (by decide)

/-! ## Values -/

/-- The four shapes of a value: a word, a text, an array and an object. -/
def shape : Json → ℕ
  | .str _ => 1
  | .arr _ => 2
  | .obj _ => 3
  | .null | .bool _ | .int _ | .float _ => 0

/-- The shape a first character shows. -/
def shapeOf (c : Char) : ℕ :=
  if c = '"' then 1 else if c = '[' then 2 else if c = '{' then 3 else 0

theorem isWord_of_shape {j : Json} (h : shape j = 0) : IsWord j := by
  match j with
  | .null | .bool _ | .int _ | .float _ => trivial

/-- **The first character shows the shape**, and is no stop. -/
theorem dumps_head {j : Json} (hp : Proper j) :
    ∃ c u, j.dumps = c :: u ∧ shapeOf c = shape j ∧ ¬ IsStop c := by
  by_cases hw : IsWord j
  · rcases hd : j.dumps with - | ⟨c, u⟩
    · exact absurd hd (dumps_word_ne_nil hw hp)
    · have hc : isWordChar c = true := isWordChar_dumps hw hp c (by rw [hd]; exact List.mem_cons_self)
      have hshape : shape j = 0 := by
        match j with
        | .null | .bool _ | .int _ | .float _ => rfl
      refine ⟨c, u, rfl, ?_, not_isStop hc⟩
      have hopen : c ≠ '"' ∧ c ≠ '[' ∧ c ≠ '{' := by
        refine ⟨?_, ?_, ?_⟩ <;> rintro rfl <;> exact absurd hc (by decide)
      rw [hshape, shapeOf, if_neg hopen.1, if_neg hopen.2.1, if_neg hopen.2.2]
  · have hstop : ∀ c ∈ ['"', '[', '{'], ¬ IsStop c := by
      intro c hc
      simp only [List.mem_cons, List.not_mem_nil, or_false] at hc
      unfold IsStop
      rcases hc with rfl | rfl | rfl <;> decide
    match j with
    | .str _ => exact ⟨'"', _, by rw [dumps, quote], rfl, hstop _ (by decide)⟩
    | .arr [] | .arr (_ :: _) => exact ⟨'[', _, by rw [dumps], rfl, hstop _ (by decide)⟩
    | .obj [] | .obj ((_, _) :: _) => exact ⟨'{', _, by rw [dumps], rfl, hstop _ (by decide)⟩
    | .null | .bool _ | .int _ | .float _ => exact absurd trivial hw

/-- No value begins with a mark. -/
theorem dumps_ne_stop {j : Json} (hp : Proper j) {c : Char} (hc : IsStop c) (s t : List Char) :
    j.dumps ++ s ≠ c :: t := by
  intro h
  obtain ⟨d, u, hd, -, hstop⟩ := dumps_head hp
  rw [hd, List.cons_append] at h
  exact hstop ((List.cons.inj h).1 ▸ hc)

/-- The first character tells the shape of a value. -/
theorem shape_eq {a b : Json} (hpa : Proper a) (hpb : Proper b) {s t : List Char}
    (h : a.dumps ++ s = b.dumps ++ t) : shape a = shape b := by
  obtain ⟨c, u, hc, hshape, -⟩ := dumps_head hpa
  obtain ⟨d, v, hd, hshape', -⟩ := dumps_head hpb
  rw [hc, hd, List.cons_append, List.cons_append] at h
  rw [← hshape, ← hshape', (List.cons.inj h).1]

/-- Two words end at the first stop. -/
theorem word_inj {a b : Json} (ha : IsWord a) (hb : IsWord b) (hpa : Proper a) (hpb : Proper b)
    {s t : List Char} (hs : Stops IsStop s) (ht : Stops IsStop t)
    (h : a.dumps ++ s = b.dumps ++ t) : a = b ∧ s = t := by
  obtain ⟨hword, hst⟩ := word_append_inj
    (fun c hc => not_isStop (isWordChar_dumps ha hpa c hc))
    (fun c hc => not_isStop (isWordChar_dumps hb hpb c hc)) hs ht h
  exact ⟨dumps_word_inj ha hb hpa hpb hword, hst⟩

theorem stops_items (xs : List Json) (s : List Char) : Stops IsStop (dumpsItems xs ++ s) := by
  rcases xs with - | ⟨x, xs⟩
  · exact .cons (.inr (.inl rfl))
  · exact .cons (.inl rfl)

theorem stops_fields (kvs : List (String × Json)) (s : List Char) :
    Stops IsStop (dumpsFields kvs ++ s) := by
  rcases kvs with - | ⟨⟨k, x⟩, kvs⟩
  · exact .cons (.inr (.inr rfl))
  · exact .cons (.inl rfl)

mutual

/-- **A value ends where its text says**: the text of a value, up to a
stop, is the text of no other. -/
theorem dumps_inj : ∀ (a b : Json) {s t : List Char}, Proper a → Proper b → Stops IsStop s →
    Stops IsStop t → a.dumps ++ s = b.dumps ++ t → a = b ∧ s = t
  | .str k, b, s, t, hpa, hpb, _, _, h => by
    have hshape := shape_eq hpa hpb h
    match b with
    | .str l =>
      rw [dumps, dumps] at h
      obtain ⟨rfl, hst⟩ := quote_inj h
      exact ⟨rfl, hst⟩
  | .arr [], b, s, t, hpa, hpb, _, _, h => by
    have hshape := shape_eq hpa hpb h
    match b with
    | .arr [] => exact ⟨rfl, (List.cons.inj (List.cons.inj h).2).2⟩
    | .arr (y :: ys) =>
      have hrest := (List.cons.inj h).2.symm
      rw [List.append_eq, List.append_assoc] at hrest
      exact absurd hrest (dumps_ne_stop hpb.1 (.inr (.inl rfl)) _ _)
  | .arr (x :: xs), b, s, t, hpa, hpb, _, _, h => by
    have hshape := shape_eq hpa hpb h
    match b with
    | .arr [] =>
      have hrest := (List.cons.inj h).2
      rw [List.append_eq, List.append_assoc] at hrest
      exact absurd hrest (dumps_ne_stop hpa.1 (.inr (.inl rfl)) _ _)
    | .arr (y :: ys) =>
      -- the elements are read as if a comma came before the first
      have hitems : dumpsItems (x :: xs) ++ s = dumpsItems (y :: ys) ++ t :=
        congrArg (',' :: ·) (List.cons.inj h).2
      obtain ⟨hxy, hst⟩ := dumpsItems_inj (x :: xs) (y :: ys) hpa hpb hitems
      exact ⟨congrArg Json.arr hxy, hst⟩
  | .obj [], b, s, t, hpa, hpb, _, _, h => by
    have hshape := shape_eq hpa hpb h
    match b with
    | .obj [] => exact ⟨rfl, (List.cons.inj (List.cons.inj h).2).2⟩
    | .obj ((l, y) :: ys) => exact absurd (List.cons.inj (List.cons.inj h).2).1 (by decide)
  | .obj ((k, x) :: kvs), b, s, t, hpa, hpb, _, _, h => by
    have hshape := shape_eq hpa hpb h
    match b with
    | .obj [] => exact absurd (List.cons.inj (List.cons.inj h).2).1 (by decide)
    | .obj ((l, y) :: ys) =>
      have hfields : dumpsFields ((k, x) :: kvs) ++ s = dumpsFields ((l, y) :: ys) ++ t :=
        congrArg (',' :: ·) (List.cons.inj h).2
      obtain ⟨hxy, hst⟩ := dumpsFields_inj ((k, x) :: kvs) ((l, y) :: ys) hpa.2 hpb.2 hfields
      exact ⟨congrArg Json.obj hxy, hst⟩
  | .null, b, s, t, hpa, hpb, hs, ht, h => 
    word_inj (isWord_of_shape rfl) (isWord_of_shape (shape_eq hpa hpb h).symm) hpa hpb hs ht h
  | .bool _, b, s, t, hpa, hpb, hs, ht, h =>
    word_inj (isWord_of_shape rfl) (isWord_of_shape (shape_eq hpa hpb h).symm) hpa hpb hs ht h
  | .int _, b, s, t, hpa, hpb, hs, ht, h =>
    word_inj (isWord_of_shape rfl) (isWord_of_shape (shape_eq hpa hpb h).symm) hpa hpb hs ht h
  | .float _, b, s, t, hpa, hpb, hs, ht, h => 
    word_inj (isWord_of_shape rfl) (isWord_of_shape (shape_eq hpa hpb h).symm) hpa hpb hs ht h

/-- The text of an array's elements names them. -/
theorem dumpsItems_inj : ∀ (xs ys : List Json) {s t : List Char}, ProperItems xs → ProperItems ys →
    dumpsItems xs ++ s = dumpsItems ys ++ t → xs = ys ∧ s = t
  | [], [], s, t, _, _, h => ⟨rfl, (List.cons.inj h).2⟩
  | [], y :: ys, s, t, _, _, h => absurd (List.cons.inj h).1 (by decide)
  | x :: xs, [], s, t, _, _, h => absurd (List.cons.inj h).1 (by decide)
  | x :: xs, y :: ys, s, t, hpx, hpy, h => by
    rw [dumpsItems, dumpsItems, List.cons_append, List.cons_append, List.append_assoc,
      List.append_assoc] at h
    obtain ⟨rfl, hrest⟩ := dumps_inj x y hpx.1 hpy.1 (stops_items xs s) (stops_items ys t)
      (List.cons.inj h).2
    obtain ⟨rfl, hst⟩ := dumpsItems_inj xs ys hpx.2 hpy.2 hrest
    exact ⟨rfl, hst⟩

/-- The text of an object's fields names them. -/
theorem dumpsFields_inj : ∀ (xs ys : List (String × Json)) {s t : List Char}, ProperFields xs →
    ProperFields ys → dumpsFields xs ++ s = dumpsFields ys ++ t → xs = ys ∧ s = t
  | [], [], s, t, _, _, h => ⟨rfl, (List.cons.inj h).2⟩
  | [], (l, y) :: ys, s, t, _, _, h => absurd (List.cons.inj h).1 (by decide)
  | (k, x) :: xs, [], s, t, _, _, h => absurd (List.cons.inj h).1 (by decide)
  | (k, x) :: xs, (l, y) :: ys, s, t, hpx, hpy, h => by
    rw [dumpsFields, dumpsFields, List.cons_append, List.cons_append, List.append_assoc,
      List.append_assoc] at h
    obtain ⟨rfl, hvalue⟩ := quote_inj (List.cons.inj h).2
    rw [List.cons_append, List.cons_append, List.append_assoc, List.append_assoc] at hvalue
    obtain ⟨rfl, hrest⟩ := dumps_inj x y hpx.1 hpy.1 (stops_fields xs s) (stops_fields ys t)
      (List.cons.inj hvalue).2
    obtain ⟨rfl, hst⟩ := dumpsFields_inj xs ys hpx.2 hpy.2 hrest
    exact ⟨rfl, hst⟩

end

/-! ## Sorting the keys -/

/-- Sorting keeps the fields. -/
theorem sortFields_perm (kvs : List (String × Json)) : (sortFields kvs).Perm kvs :=
  List.perm_insertionSort _ kvs

theorem sortKeysFields_eq_map (kvs : List (String × Json)) :
    sortKeysFields kvs = kvs.map fun kv => (kv.1, kv.2.sortKeys) := by
  induction kvs with
  | nil => rfl
  | cons kv kvs ih => rw [sortKeysFields, ih, List.map_cons]

/-- The values of an object are proper one by one. -/
theorem properFields_iff {kvs : List (String × Json)} :
    ProperFields kvs ↔ ∀ kv ∈ kvs, Proper kv.2 := by
  induction kvs with
  | nil => simp [ProperFields]
  | cons kv kvs ih => rw [ProperFields, ih, List.forall_mem_cons]

/-- The keys stay, in another order. -/
theorem keys_sorted_perm (kvs : List (String × Json)) :
    ((sortFields (sortKeysFields kvs)).map (·.1)).Perm (kvs.map (·.1)) := by
  have hperm := (sortFields_perm (sortKeysFields kvs)).map (·.1)
  rw [sortKeysFields_eq_map, List.map_map] at hperm
  rw [sortKeysFields_eq_map]
  exact hperm

mutual

/-- Sorting the keys keeps a value proper. -/
theorem proper_sortKeys : ∀ (j : Json), Proper j → Proper j.sortKeys
  | .arr xs, h => properItems_sortKeys xs h
  | .obj kvs, h => by
    refine ⟨(keys_sorted_perm kvs).nodup_iff.mpr h.1, properFields_iff.mpr fun kv hkv => ?_⟩
    exact properFields_iff.mp (properFields_sortKeys kvs h.2) kv
      ((sortFields_perm _).mem_iff.mp hkv)
  | .null, _ => trivial
  | .bool _, _ => trivial
  | .int _, _ => trivial
  | .float _, h => h
  | .str _, _ => trivial

/-- So with each element. -/
theorem properItems_sortKeys : ∀ (xs : List Json), ProperItems xs → ProperItems (sortKeysItems xs)
  | [], _ => trivial
  | x :: xs, h => ⟨proper_sortKeys x h.1, properItems_sortKeys xs h.2⟩

/-- So with each value. -/
theorem properFields_sortKeys : ∀ (kvs : List (String × Json)), ProperFields kvs →
    ProperFields (sortKeysFields kvs)
  | [], _ => trivial
  | (_, x) :: kvs, h => ⟨proper_sortKeys x h.1, properFields_sortKeys kvs h.2⟩

end

/-- Of distinct keys, a key reads the value it stands with. -/
theorem lookup_eq_some_iff_mem {kvs : List (String × Json)} (hkeys : (kvs.map (·.1)).Nodup)
    {k : String} {x : Json} : kvs.lookup k = some x ↔ (k, x) ∈ kvs := by
  induction kvs with
  | nil => simp
  | cons kv kvs ih =>
    obtain ⟨l, y⟩ := kv
    rw [List.map_cons, List.nodup_cons] at hkeys
    rw [List.lookup_cons, List.mem_cons]
    by_cases hk : k = l
    · subst hk
      have hfresh : (k, x) ∉ kvs := fun hmem => hkeys.1 (List.mem_map.mpr ⟨(k, x), hmem, rfl⟩)
      simp [hfresh, eq_comm]
    · have hbeq : (k == l) = false := beq_eq_false_iff_ne.mpr hk
      rw [hbeq]
      simp [hk, ih hkeys.2]

/-- **A key reads the same**, sorted. -/
theorem get?_sortKeys {j : Json} (hp : Proper j) (k : String) :
    j.sortKeys.get? k = (j.get? k).map sortKeys := by
  match j with
  | .null | .bool _ | .int _ | .float _ | .str _ | .arr _ => rfl
  | .obj kvs =>
    have hsorted : ((sortFields (sortKeysFields kvs)).map (·.1)).Nodup :=
      (keys_sorted_perm kvs).nodup_iff.mpr hp.1
    refine Option.ext fun x => ?_
    have hleft : (sortFields (sortKeysFields kvs)).lookup k = some x ↔
        ∃ y, (k, y) ∈ kvs ∧ y.sortKeys = x := by
      rw [lookup_eq_some_iff_mem hsorted, (sortFields_perm _).mem_iff, sortKeysFields_eq_map]
      simp
    have hright : (kvs.lookup k).map sortKeys = some x ↔ ∃ y, (k, y) ∈ kvs ∧ y.sortKeys = x := by
      simp [lookup_eq_some_iff_mem hp.1]
    exact hleft.trans hright.symm

/-- **Canonical JSON determines the value**, up to the order of keys. -/
theorem canonicalJson_inj {a b : Json} (ha : Proper a) (hb : Proper b)
    (h : canonicalJson a = canonicalJson b) : a.sortKeys = b.sortKeys := by
  have hdumps : a.sortKeys.dumps ++ [] = b.sortKeys.dumps ++ [] := by
    rw [String.ofList_inj.mp h]
  have hend : Stops IsStop [] := fun _ hc => absurd hc (Option.not_mem_none _)
  exact (dumps_inj _ _ (proper_sortKeys a ha) (proper_sortKeys b hb) hend hend hdumps).1

/-- The text of an object is not empty. -/
theorem canonicalJson_obj_ne (kvs : List (String × Json)) : canonicalJson (.obj kvs) ≠ "" := by
  intro h
  have hnil : dumps (.obj (sortFields (sortKeysFields kvs))) = [] := by
    rw [← String.toList_ofList (l := dumps (.obj (sortFields (sortKeysFields kvs))))]
    exact congrArg String.toList h
  rcases hfields : sortFields (sortKeysFields kvs) with - | ⟨⟨k, x⟩, rest⟩ <;>
    simp [hfields, dumps] at hnil

/-- **Values of one canonical text** read the same at every key. -/
theorem get?_of_canonicalJson {a b : Json} (ha : Proper a) (hb : Proper b)
    (h : canonicalJson a = canonicalJson b) (k : String) :
    (a.get? k).map sortKeys = (b.get? k).map sortKeys := by
  rw [← get?_sortKeys ha, ← get?_sortKeys hb, canonicalJson_inj ha hb h]

/-! ## Optional texts -/

theorem proper_ofOption (text : Option String) : Proper (.ofOption .str text) := by
  cases text <;> trivial

/-- A text or nothing is told from its value. -/
theorem ofOption_inj {a b : Option String}
    (h : (ofOption .str a).sortKeys = (ofOption .str b).sortKeys) : a = b := by
  cases a <;> cases b <;> simp_all [ofOption, sortKeys]

end Json

/-- `json.loads`: nothing, of a text that is no JSON. -/
structure JsonReader where
  loads : String → Option Json
  proper : ∀ {text j}, loads text = some j → j.Proper

end Atmem
