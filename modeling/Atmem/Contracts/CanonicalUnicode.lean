import Mathlib
import Atmem.Contracts.CanonicalJson
/-!
# Canonical JSON, in Unicode

The text a delegated result is hashed and signed as:
`json.dumps(value, ensure_ascii=False, sort_keys=True)`. It escapes only
what a text cannot hold bare, so it determines the ASCII text of the same
value, and with it the value.
-/

namespace Atmem

namespace Json

/-! ## Lengths -/

theorem length_hex4 (n : ℕ) : (hex4 n).length = 4 := rfl

/-- A character is escaped to twelve at most. -/
theorem length_escapeAscii_le (c : Char) : (escapeAscii c).length ≤ 12 := by
  rw [escapeAscii]
  split
  · simp
  · dsimp only
    split_ifs <;> simp [unicodeEscape, length_hex4]

theorem length_quote_le (s : String) : (quote s).length ≤ 12 * s.toList.length + 2 := by
  have hall : ∀ cs : List Char, (cs.flatMap escapeAscii).length ≤ 12 * cs.length := by
    intro cs
    induction cs with
    | nil => simp
    | cons c cs ih =>
      have hc := length_escapeAscii_le c
      rw [List.flatMap_cons, List.length_append, List.length_cons]
      omega
  have hs := hall s.toList
  rw [quote, List.length_cons, List.length_append, List.length_singleton]
  omega

/-- How long an object is written, field by field. -/
theorem length_dumps_obj_le (kvs : List (String × Json)) : (dumps (.obj kvs)).length ≤
    (kvs.map fun kv => (quote kv.1).length + kv.2.dumps.length + 2).sum + 2 := by
  have hfields : ∀ kvs : List (String × Json), (dumpsFields kvs).length =
      (kvs.map fun kv => (quote kv.1).length + kv.2.dumps.length + 2).sum + 1 := by
    intro kvs
    induction kvs with
    | nil => rfl
    | cons kv kvs ih =>
      obtain ⟨k, x⟩ := kv
      simp only [dumpsFields, List.length_cons, List.length_append, ih, List.map_cons,
        List.sum_cons]
      omega
  cases kvs with
  | nil => simp [dumps]
  | cons kv kvs =>
    obtain ⟨k, x⟩ := kv
    simp only [dumps, List.length_cons, List.length_append, hfields, List.map_cons,
      List.sum_cons]
    omega

/-- How long an object's text is at most. -/
theorem length_dumps_sortFields_le (kvs : List (String × Json)) :
    (dumps (.obj (sortFields kvs))).length ≤
      (kvs.map fun kv => (quote kv.1).length + kv.2.dumps.length + 2).sum + 2 := by
  have hlength := length_dumps_obj_le (sortFields kvs)
  rwa [((sortFields_perm kvs).map _).sum_nat] at hlength

theorem length_dumps_nat_le {n : ℕ} (hn : n ≤ 2 ^ 52) : (dumps (.int n)).length ≤ 16 := by
  have hrepr : (dumps (.int n)).length = n.repr.length := rfl
  rw [hrepr, Nat.length_repr_le_iff (by omega)]
  omega

/-! ## Characters -/

theorem hex4_le (n : ℕ) : ∀ c ∈ hex4 n, c.toNat ≤ 126 := by
  have hdigit : ∀ m : ℕ, m.digitChar.toNat ≤ 126 := by
    intro m
    by_cases hm : m < 16
    · have hall : ∀ k < 16, k.digitChar.toNat ≤ 126 := by decide
      exact hall m hm
    · have hstar : m.digitChar = '*' := by
        unfold Nat.digitChar
        repeat rw [if_neg (by omega)]
      rw [hstar]
      decide
  intro c hc
  simp only [hex4, List.mem_cons, List.not_mem_nil, or_false] at hc
  rcases hc with rfl | rfl | rfl | rfl <;> exact hdigit _

theorem shortEscapes_le : ∀ p ∈ shortEscapes, p.2.toNat ≤ 126 := by decide

theorem isWordChar_le {c : Char} (h : isWordChar c = true) : c.toNat ≤ 126 := by
  simp only [isWordChar, Bool.or_eq_true, decide_eq_true_iff, List.mem_cons, List.not_mem_nil,
    or_false] at h
  rcases h with h | rfl | rfl | rfl
  · simp only [Char.isAlphanum, Char.isAlpha, Char.isUpper, Char.isLower, Char.isDigit,
      Bool.or_eq_true, Bool.and_eq_true, decide_eq_true_iff] at h
    have hval : c.toNat = c.val.toNat := rfl
    rw [hval]
    rcases h with (⟨-, h⟩ | ⟨-, h⟩) | ⟨-, h⟩ <;>
      · have := UInt32.le_iff_toNat_le.mp h
        exact Nat.le_trans this (by decide)
  · decide
  · decide
  · decide

/-- Escapes are printable ASCII. -/
theorem escapeAscii_le (c : Char) : ∀ d ∈ escapeAscii c, d.toNat ≤ 126 := by
  have hunicode (n : ℕ) : ∀ d ∈ unicodeEscape n, d.toNat ≤ 126 := by
    intro d hd
    rw [unicodeEscape, List.mem_cons, List.mem_cons] at hd
    rcases hd with rfl | rfl | hd
    · decide
    · decide
    · exact hex4_le n d hd
  unfold escapeAscii
  split
  · rename_i e he
    intro d hd
    rw [List.mem_cons, List.mem_singleton] at hd
    rcases hd with rfl | rfl
    · decide
    · exact shortEscapes_le _ (mem_of_lookup he)
  · dsimp only
    split_ifs with hplain
    · intro d hd
      rw [List.mem_singleton.mp hd]
      exact hplain.2
    · exact hunicode _
    · intro d hd
      rcases List.mem_append.mp hd with hd | hd <;> exact hunicode _ d hd

/-- So are quoted texts. -/
theorem quote_le (s : String) : ∀ d ∈ quote s, d.toNat ≤ 126 := by
  intro d hd
  rw [quote, List.mem_cons, List.mem_append, List.mem_flatMap, List.mem_singleton] at hd
  rcases hd with rfl | ⟨c, -, hd⟩ | rfl
  · decide
  · exact escapeAscii_le c d hd
  · decide

/-- A text of characters that are written as they are. -/
theorem length_quote_of_plain {s : String} (h : ∀ c ∈ s.toList, escapeAscii c = [c]) :
    (quote s).length = s.toList.length + 2 := by
  have hall : ∀ cs : List Char, (∀ c ∈ cs, escapeAscii c = [c]) → cs.flatMap escapeAscii = cs := by
    intro cs hcs
    induction cs with
    | nil => rfl
    | cons c cs ih =>
      rw [List.flatMap_cons, hcs c List.mem_cons_self,
        ih fun d hd => hcs d (List.mem_cons_of_mem _ hd)]
      rfl
  rw [quote, hall _ h, List.length_cons, List.length_append, List.length_singleton]

mutual

/-- **What is written is ASCII.** -/
theorem dumps_le : ∀ j : Json, Proper j → ∀ c ∈ j.dumps, c.toNat ≤ 126
  | .null, hp => fun c hc => isWordChar_le (isWordChar_dumps (j := .null) trivial hp c hc)
  | .bool b, hp => fun c hc => isWordChar_le (isWordChar_dumps (j := .bool b) trivial hp c hc)
  | .int n, hp => fun c hc => isWordChar_le (isWordChar_dumps (j := .int n) trivial hp c hc)
  | .float r, hp => fun c hc => isWordChar_le (isWordChar_dumps (j := .float r) trivial hp c hc)
  | .str s, _ => quote_le s
  | .arr [], _ => by simp [dumps]
  | .arr (x :: xs), hp => by
    rw [dumps, List.forall_mem_cons, List.forall_mem_append]
    exact ⟨by decide +kernel, dumps_le x hp.1, dumpsItems_le xs hp.2⟩
  | .obj [], _ => by simp [dumps]
  | .obj ((k, x) :: kvs), hp => by
    rw [dumps, List.forall_mem_cons, List.forall_mem_append, List.forall_mem_cons,
      List.forall_mem_append]
    exact ⟨by decide +kernel, quote_le k, by decide +kernel, dumps_le x hp.2.1, dumpsFields_le kvs hp.2.2⟩

/-- So are arrays. -/
theorem dumpsItems_le : ∀ xs : List Json, ProperItems xs → ∀ c ∈ dumpsItems xs, c.toNat ≤ 126
  | [], _ => by simp [dumpsItems]
  | x :: xs, hp => by
    rw [dumpsItems, List.forall_mem_cons, List.forall_mem_append]
    exact ⟨by decide +kernel, dumps_le x hp.1, dumpsItems_le xs hp.2⟩

/-- So are objects. -/
theorem dumpsFields_le : ∀ kvs : List (String × Json), ProperFields kvs →
    ∀ c ∈ dumpsFields kvs, c.toNat ≤ 126
  | [], _ => by simp [dumpsFields]
  | (k, x) :: kvs, hp => by
    rw [dumpsFields, List.forall_mem_cons, List.forall_mem_append, List.forall_mem_cons,
      List.forall_mem_append]
    exact ⟨by decide +kernel, quote_le k, by decide +kernel, dumps_le x hp.1, dumpsFields_le kvs hp.2⟩

end

/-- A text in ASCII has a byte for each character. -/
theorem utf8ByteSize_of_le {cs : List Char} (h : ∀ c ∈ cs, c.toNat ≤ 126) :
    (String.ofList cs).utf8ByteSize = cs.length := by
  induction cs with
  | nil => rfl
  | cons c cs ih =>
    have hc : c.utf8Size = 1 := by
      rw [Char.utf8Size_eq_one_iff]
      exact UInt32.le_iff_toNat_le.mpr ((h c List.mem_cons_self).trans (by decide))
    rw [String.ofList_cons, String.utf8ByteSize_append, String.utf8ByteSize_singleton, hc,
      ih fun d hd => h d (List.mem_cons_of_mem _ hd), List.length_cons, Nat.add_comm]

/-- **Canonical JSON has a byte for each character.** -/
theorem utf8ByteSize_canonicalJson {j : Json} (hp : Proper j) :
    j.canonicalJson.utf8ByteSize = j.sortKeys.dumps.length :=
  utf8ByteSize_of_le (dumps_le _ (proper_sortKeys j hp))

end Json

end Atmem

namespace Atmem

open Delimited

namespace Json

/-- A character of a text, in `ESCAPE`: the control characters, the quote
and the backslash. -/
def escapeUnicode (c : Char) : List Char :=
  match shortEscapes.lookup c with
  | some e => ['\\', e]
  | none => if c.toNat < 32 then unicodeEscape c.toNat else [c]

/-- `py_encode_basestring`. -/
def quoteUnicode (s : String) : List Char := '"' :: (s.toList.flatMap escapeUnicode ++ ['"'])

mutual

/-- `json.dumps` with `ensure_ascii=False`. -/
def dumpsUnicode : Json → List Char
  | .null => "null".toList
  | .bool b => (if b then "true" else "false").toList
  | .int n => (toString n).toList
  | .float repr => repr.toList
  | .str s => quoteUnicode s
  | .arr [] => ['[', ']']
  | .arr (x :: xs) => '[' :: (dumpsUnicode x ++ dumpsUnicodeItems xs)
  | .obj [] => ['{', '}']
  | .obj ((k, x) :: kvs) =>
    '{' :: (quoteUnicode k ++ ':' :: (dumpsUnicode x ++ dumpsUnicodeFields kvs))

/-- The elements after the first. -/
def dumpsUnicodeItems : List Json → List Char
  | [] => [']']
  | x :: xs => ',' :: (dumpsUnicode x ++ dumpsUnicodeItems xs)

/-- The fields after the first. -/
def dumpsUnicodeFields : List (String × Json) → List Char
  | [] => ['}']
  | (k, x) :: kvs => ',' :: (quoteUnicode k ++ ':' :: (dumpsUnicode x ++ dumpsUnicodeFields kvs))

end

/-- The keys sorted, and in Unicode. -/
def canonicalUnicode (j : Json) : String := String.ofList j.sortKeys.dumpsUnicode

/-! ## The ASCII text of a Unicode one -/

/-- A character of a Unicode text, in ASCII: one that is ASCII already
stays. -/
def toAscii (c : Char) : List Char := if c.toNat ≤ 126 then [c] else escapeAscii c

/-- Printable ASCII is escaped to itself. -/
theorem flatMap_toAscii {cs : List Char} (h : ∀ c ∈ cs, c.toNat ≤ 126) :
    cs.flatMap toAscii = cs := by
  induction cs with
  | nil => rfl
  | cons c cs ih =>
    rw [List.flatMap_cons, ih fun d hd => h d (List.mem_cons_of_mem _ hd), toAscii,
      if_pos (h c List.mem_cons_self)]
    rfl

/-- **One character's ASCII text is that of its Unicode text.** -/
theorem flatMap_escapeUnicode (c : Char) : (escapeUnicode c).flatMap toAscii = escapeAscii c := by
  unfold escapeUnicode
  split
  · rename_i e he
    have hle := shortEscapes_le (c, e) (mem_of_lookup he)
    rw [flatMap_toAscii (by simpa using hle)]
    unfold escapeAscii
    rw [he]
  · rename_i hnone
    by_cases hlow : c.toNat < 32
    · rw [if_pos hlow, flatMap_toAscii]
      · unfold escapeAscii
        rw [hnone]
        dsimp only
        rw [if_neg (by omega), if_pos (by omega)]
      · intro d hd
        simp only [unicodeEscape, List.mem_cons] at hd
        rcases hd with rfl | rfl | hd
        · decide
        · decide
        · exact hex4_le _ d hd
    · rw [if_neg hlow, List.flatMap_cons, List.flatMap_nil, List.append_nil, toAscii]
      split
      · unfold escapeAscii
        rw [hnone]
        dsimp only
        rw [if_pos (by omega)]
      · rfl

/-- A text that is quoted and then escaped is the ASCII one. -/
theorem flatMap_quoteUnicode (s : String) : (quoteUnicode s).flatMap toAscii = quote s := by
  have hquote : toAscii '"' = ['"'] := by decide
  rw [quoteUnicode, quote, List.flatMap_cons, List.flatMap_append, List.flatMap_assoc, hquote]
  simp only [flatMap_escapeUnicode, List.flatMap_cons, List.flatMap_nil, hquote]
  rfl

theorem flatMap_toAscii_word {j : Json} (hw : IsWord j) (hp : Proper j) :
    j.dumps.flatMap toAscii = j.dumps :=
  flatMap_toAscii fun _ hc => isWordChar_le (isWordChar_dumps hw hp _ hc)

mutual

/-- **The Unicode text of a value determines its ASCII text.** -/
theorem flatMap_dumpsUnicode : ∀ j : Json, Proper j → j.dumpsUnicode.flatMap toAscii = j.dumps
  | .null, hp => flatMap_toAscii_word (j := .null) trivial hp
  | .bool b, hp => flatMap_toAscii_word (j := .bool b) trivial hp
  | .int n, hp => flatMap_toAscii_word (j := .int n) trivial hp
  | .float r, hp => flatMap_toAscii_word (j := .float r) trivial hp
  | .str s, _ => by rw [dumpsUnicode, dumps, flatMap_quoteUnicode]
  | .arr [], _ => by decide
  | .arr (x :: xs), hp => by
    have hopen : toAscii '[' = ['['] := by decide
    rw [dumpsUnicode, dumps, List.flatMap_cons, List.flatMap_append, hopen,
      flatMap_dumpsUnicode x hp.1, flatMap_dumpsUnicodeItems xs hp.2]
    rfl
  | .obj [], _ => by decide
  | .obj ((k, x) :: kvs), hp => by
    have hopen : toAscii '{' = ['{'] := by decide
    have hcolon : toAscii ':' = [':'] := by decide
    rw [dumpsUnicode, dumps, List.flatMap_cons, List.flatMap_append, List.flatMap_cons,
      List.flatMap_append, hopen, hcolon, flatMap_quoteUnicode, flatMap_dumpsUnicode x hp.2.1,
      flatMap_dumpsUnicodeFields kvs hp.2.2]
    rfl

/-- So with the elements of an array. -/
theorem flatMap_dumpsUnicodeItems : ∀ xs : List Json, ProperItems xs →
    (dumpsUnicodeItems xs).flatMap toAscii = dumpsItems xs
  | [], _ => by decide
  | x :: xs, hp => by
    have hcomma : toAscii ',' = [','] := by decide
    rw [dumpsUnicodeItems, dumpsItems, List.flatMap_cons, List.flatMap_append, hcomma,
      flatMap_dumpsUnicode x hp.1, flatMap_dumpsUnicodeItems xs hp.2]
    rfl

/-- So with the fields of an object. -/
theorem flatMap_dumpsUnicodeFields : ∀ kvs : List (String × Json), ProperFields kvs →
    (dumpsUnicodeFields kvs).flatMap toAscii = dumpsFields kvs
  | [], _ => by decide
  | (k, x) :: kvs, hp => by
    have hcomma : toAscii ',' = [','] := by decide
    have hcolon : toAscii ':' = [':'] := by decide
    rw [dumpsUnicodeFields, dumpsFields, List.flatMap_cons, List.flatMap_append, List.flatMap_cons,
      List.flatMap_append, hcomma, hcolon, flatMap_quoteUnicode, flatMap_dumpsUnicode x hp.1,
      flatMap_dumpsUnicodeFields kvs hp.2]
    rfl

end

/-- **Values of one Unicode text have one ASCII text**, and so are one but
for the order of keys. -/
theorem canonicalJson_of_canonicalUnicode {a b : Json} (ha : Proper a) (hb : Proper b)
    (h : canonicalUnicode a = canonicalUnicode b) : canonicalJson a = canonicalJson b := by
  have hdumps := congrArg (List.flatMap toAscii) (String.ofList_inj.mp h)
  rw [flatMap_dumpsUnicode _ (proper_sortKeys a ha),
    flatMap_dumpsUnicode _ (proper_sortKeys b hb)] at hdumps
  rw [canonicalJson, canonicalJson, hdumps]

end Json

end Atmem
