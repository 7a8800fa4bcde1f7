import Ranging.Json.Value
import Ranging.Proofs.NumberText

/-!
# Strings in the text of a document

A character of a string stands for itself or is escaped, by a letter or by one or two numbers of four
hexadecimal digits. `StringText` says which texts stand for a string, and the reader takes each of
them. What the writer makes of a string is one of these texts.

A string whose characters do not matter is held to less. The numbers in it need not form characters
(`RawString`).
-/

namespace Ranging.Json

/-- A character that stands for itself in a string. -/
structure IsPlain (c : Char) : Prop where
  ne_quote : c ≠ '"'
  ne_backslash : c ≠ '\\'
  not_control : 0x20 ≤ c.toNat

/-- The text between the quotes of a string. -/
inductive RawString : List Char → Prop where
  | nil : RawString []
  | plain {c : Char} {text : List Char} : IsPlain c → RawString text → RawString (c :: text)
  | letter {c : Char} {text : List Char} :
    (simpleEscape? c).isSome → RawString text → RawString ('\\' :: c :: text)
  | number {a b c d : Char} {text : List Char} :
    (hexUnit? a b c d).isSome → RawString text → RawString ('\\' :: 'u' :: a :: b :: c :: d :: text)

/-- The characters of a string, and the text between its quotes. -/
inductive StringText : List Char → List Char → Prop where
  | nil : StringText [] []
  | plain {c : Char} {chars text : List Char} :
    IsPlain c → StringText chars text → StringText (c :: chars) (c :: text)
  | letter {c escaped : Char} {chars text : List Char} :
    simpleEscape? c = some escaped → StringText chars text →
    StringText (escaped :: chars) ('\\' :: c :: text)
  | number {a b c d : Char} {unit : ℕ} {chars text : List Char} :
    hexUnit? a b c d = some unit → isLeading unit = false → isTrailing unit = false →
    StringText chars text →
    StringText (Char.ofNat unit :: chars) ('\\' :: 'u' :: a :: b :: c :: d :: text)
  | pair {a b c d a' b' c' d' : Char} {leading trailing : ℕ} {chars text : List Char} :
    hexUnit? a b c d = some leading → isLeading leading = true →
    hexUnit? a' b' c' d' = some trailing → isTrailing trailing = true → StringText chars text →
    StringText (combine leading trailing :: chars)
      ('\\' :: 'u' :: a :: b :: c :: d :: '\\' :: 'u' :: a' :: b' :: c' :: d' :: text)

/-! ## Reading -/

/-- The second half of a character cannot be taken for the first. -/
theorem isTrailing_eq_false_of_isLeading {unit : ℕ} (h : isLeading unit = true) :
    isTrailing unit = false := by
  rw [isLeading, Bool.and_eq_true, decide_eq_true_eq, decide_eq_true_eq] at h
  rw [isTrailing, Bool.and_eq_false_iff, decide_eq_false_iff_not]
  exact Or.inl (by omega)

/-- A string is read up to its closing quote. -/
theorem StringText.stringBody_eq {chars text : List Char} (h : StringText chars text)
    (rest : List Char) : stringBody (text ++ '"' :: rest) = .ok (chars, rest) := by
  induction h with
  | nil => rfl
  | plain hplain _ ih =>
      obtain ⟨hquote, hbackslash, hcontrol⟩ := hplain
      rw [List.cons_append, stringBody.eq_def]
      split <;> simp_all [prepend, Except.map]
  | letter hletter _ ih =>
      unfold simpleEscape? at hletter
      split at hletter <;> cases hletter <;>
        simp [stringBody, simpleEscape?, ih, prepend, Except.map]
  | number hunit hleading htrailing _ ih =>
      simp [stringBody, hunit, hleading, htrailing, ih, prepend, Except.map]
  | pair hunit hleading hunit' htrailing _ ih =>
      simp [stringBody, hunit, hleading, isTrailing_eq_false_of_isLeading hleading, hunit',
        htrailing, ih, prepend, Except.map]

theorem RawString.skipString_eq {text : List Char} (h : RawString text) (rest : List Char) :
    skipString (text ++ '"' :: rest) = .ok rest := by
  induction h with
  | nil => rfl
  | plain hplain _ ih =>
      obtain ⟨hquote, hbackslash, hcontrol⟩ := hplain
      rw [List.cons_append, skipString.eq_def]
      split <;> simp_all
  | letter hletter _ ih =>
      obtain ⟨escaped, hletter⟩ := Option.isSome_iff_exists.1 hletter
      unfold simpleEscape? at hletter
      split at hletter <;> cases hletter <;> simp [skipString, simpleEscape?, ih]
  | number hunit _ ih => simp [skipString, hunit, ih]

namespace Reader

theorem get_run (text : List Char) :
    (get : Reader (List Char)).run text = .ok (text, text) := rfl

theorem stringText_run {s : String} {text : List Char} (h : StringText s.toList text)
    (rest : List Char) : stringText.run (text ++ '"' :: rest) = .ok (s, rest) := by
  have hlift : (liftM (stringBody (text ++ '"' :: rest)) : Reader (List Char × List Char)).run
      (text ++ '"' :: rest) = .ok ((s.toList, rest), text ++ '"' :: rest) := by
    rw [h.stringBody_eq rest]
    rfl
  rw [stringText, run_bind_of_ok (get_run _), run_bind_of_ok hlift]
  change Except.ok (String.ofList s.toList, rest) = _
  rw [String.ofList_toList]

theorem passString_run {text : List Char} (h : RawString text) (rest : List Char) :
    passString.run (text ++ '"' :: rest) = .ok ((), rest) := by
  have hlift : (liftM (skipString (text ++ '"' :: rest)) : Reader (List Char)).run
      (text ++ '"' :: rest) = .ok (rest, text ++ '"' :: rest) := by
    rw [h.skipString_eq rest]
    rfl
  rw [passString, run_bind_of_ok (get_run _), run_bind_of_ok hlift]
  rfl

end Reader

/-! ## Writing -/

theorem hexValue?_hexDigit {n : ℕ} (h : n < 16) : hexValue? (hexDigit n) = some n := by
  interval_cases n <;> rfl

/-- The numeric escape of a control character gives its number. -/
theorem hexUnit?_hexDigit {n : ℕ} (h : n < 0x20) :
    hexUnit? '0' '0' (hexDigit (n / 16)) (hexDigit (n % 16)) = some n := by
  have hhigh := hexValue?_hexDigit (n := n / 16) (by omega)
  have hlow := hexValue?_hexDigit (n := n % 16) (by omega)
  have hzero : hexValue? '0' = some 0 := rfl
  rw [hexUnit?, hzero, hhigh, hlow]
  change some ((((0 * 16 + 0) * 16 + n / 16) * 16) + n % 16) = some n
  congr 1
  omega

/-- An escaped character stands for the character. -/
theorem StringText.cons_escape (c : Char) {chars text : List Char} (h : StringText chars text) :
    StringText (c :: chars) (escape c ++ text) := by
  unfold escape
  split
  · exact .letter rfl h
  · exact .letter rfl h
  · exact .letter rfl h
  · exact .letter rfl h
  · exact .letter rfl h
  · exact .letter rfl h
  · exact .letter rfl h
  · rename_i hquote hbackslash _ _ _ _ _
    split
    · rename_i hcontrol
      have htrailing : isTrailing c.toNat = false := by
        rw [isTrailing, Bool.and_eq_false_iff, decide_eq_false_iff_not]
        exact Or.inl (by omega)
      have hleading : isLeading c.toNat = false := by
        rw [isLeading, Bool.and_eq_false_iff, decide_eq_false_iff_not]
        exact Or.inl (by omega)
      have hnumber := StringText.number (hexUnit?_hexDigit hcontrol) hleading htrailing h
      rwa [Char.ofNat_toNat] at hnumber
    · rename_i hplain
      exact .plain ⟨hquote, hbackslash, Nat.not_lt.1 hplain⟩ h

/-- What is written for a string stands for it. -/
theorem stringText_flatMap_escape (chars : List Char) :
    StringText chars (chars.flatMap escape) := by
  induction chars with
  | nil => exact .nil
  | cons c chars ih => exact ih.cons_escape c

end Ranging.Json
