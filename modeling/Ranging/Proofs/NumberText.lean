import Ranging.Json.Reader
import Ranging.Json.Value
import Ranging.Proofs.FloatParts
import Ranging.Proofs.ShortestDecimal

/-!
# Numbers in the text of a document

A document writes a number as the digits of a decimal, laid out with a point or an exponent, and the
reader takes the same characters. What number it makes of them is up to the conversion. All that the
reading of documents relies on is `ReadsBack`, which is said of one number and one conversion: the
text that is written for the number is read as this number. Where the conversion is to the nearest
number, this is so for every finite one (`readsBack_nearest`). The digits that are read may then be
others than the ones that were written, with zeros at one end or the other, but their value is the
same.

A number has no closing mark of its own. It ends where a character follows that cannot be part of
it, and `Delimited` says which ones follow a value in a document. Blanks in front of a value make no
difference, because every reader of a value begins by passing over them.
-/

namespace Ranging

namespace Json

/-- Nothing but characters that may stand between tokens. -/
def Blank (text : List Char) : Prop :=
  ∀ c ∈ text, isBlank c = true

theorem Blank.nil : Blank [] := nofun

/-- What may follow a value in a document. -/
def Delimited (rest : List Char) : Prop :=
  ∀ c ∈ rest.head?, isBlank c = true ∨ c = ',' ∨ c = ']' ∨ c = '}'

theorem Delimited.nil : Delimited [] := by
  simp [Delimited]

/-- The reader takes exactly this text and the blanks in front of it, whatever follows, and makes it
this value. -/
def Reader.Takes {α : Type} (r : Reader α) (text : List Char) (value : α) : Prop :=
  ∀ blanks rest, Blank blanks → Delimited rest →
    r.run (blanks ++ (text ++ rest)) = .ok (value, rest)

namespace Reader

/-! ## Single steps -/

section Sequence

variable {α β : Type} {r : Reader α} {next : α → Reader β} {text : List Char}

/-- What is read after a reader that succeeds. -/
theorem run_bind_of_ok {value : α} {rest : List Char} (h : r.run text = .ok (value, rest)) :
    (r >>= next).run text = (next value).run rest := by
  rw [StateT.run_bind, h]
  rfl

/-- A failure ends the reading. -/
theorem run_bind_of_error {failure : Failure} (h : r.run text = .error failure) :
    (r >>= next).run text = .error failure := by
  rw [StateT.run_bind, h]
  rfl

theorem run_map_of_ok {f : α → β} {value : α} {rest : List Char}
    (h : r.run text = .ok (value, rest)) : (f <$> r).run text = .ok (f value, rest) := by
  rw [StateT.run_map, h]
  rfl

end Sequence

theorem next_run {c : Char} (hc : isBlank c = false) (rest : List Char) :
    next.run (c :: rest) = .ok (c, c :: rest) := by
  simp [next, next?, hc]
  rfl

/-- Blanks at the front make no difference to the reader. -/
def SkipsBlanks {α : Type} (r : Reader α) : Prop :=
  ∀ blanks text, Blank blanks → r.run (blanks ++ text) = r.run text

theorem next_skipsBlanks : next.SkipsBlanks := by
  intro blanks text hblanks
  have hdrop : (blanks ++ text).dropWhile isBlank = text.dropWhile isBlank :=
    List.dropWhile_append_of_pos hblanks
  simp [next, next?, hdrop]

theorem SkipsBlanks.bind {α β : Type} {r : Reader α} (h : r.SkipsBlanks) (f : α → Reader β) :
    (r >>= f).SkipsBlanks := by
  intro blanks text hblanks
  rw [StateT.run_bind, StateT.run_bind, h blanks text hblanks]

/-- It is enough to take a text without blanks in front of it. -/
theorem SkipsBlanks.takes {α : Type} {r : Reader α} {text : List Char} {value : α}
    (hr : r.SkipsBlanks) (h : ∀ rest, Delimited rest → r.run (text ++ rest) = .ok (value, rest)) :
    r.Takes text value := by
  intro blanks rest hblanks hrest
  rw [hr blanks _ hblanks]
  exact h rest hrest

/-- The next character stands behind some blanks. -/
theorem next_run_append {c : Char} {blanks : List Char} (hblanks : Blank blanks)
    (hc : isBlank c = false) (rest : List Char) :
    next.run (blanks ++ c :: rest) = .ok (c, c :: rest) :=
  (next_skipsBlanks blanks _ hblanks).trans (next_run hc rest)

theorem drop_run (c : Char) (rest : List Char) : drop.run (c :: rest) = .ok ((), rest) := rfl

theorem punctuation_run {c : Char} (hc : isBlank c = false) (rest : List Char) :
    (punctuation c).run (c :: rest) = .ok ((), rest) := by
  rw [punctuation, run_bind_of_ok (next_run hc rest), if_pos rfl]
  rfl

theorem punctuation_run_append {c : Char} {blanks : List Char} (hblanks : Blank blanks)
    (hc : isBlank c = false) (rest : List Char) :
    (punctuation c).run (blanks ++ c :: rest) = .ok ((), rest) :=
  (next_skipsBlanks.bind _ blanks _ hblanks).trans (punctuation_run hc rest)

theorem optional_run_of_pos {p : Char → Bool} {c : Char} (hc : p c = true) (rest : List Char) :
    (optional p).run (c :: rest) = .ok (some c, rest) := by
  simp [optional, hc]
  rfl

theorem optional_run_of_neg {p : Char → Bool} {text : List Char}
    (h : ∀ c ∈ text.head?, p c = false) : (optional p).run text = .ok (none, text) := by
  cases text with
  | nil => rfl
  | cons c rest =>
      have hc : p c = false := h c rfl
      simp [optional, hc]
      rfl

/-- A run of digits ends before the first character that is none. -/
theorem digits_run (atEnd : Failure) {ds rest : List Char} (hne : ds ≠ [])
    (hds : ∀ c ∈ ds, c.isDigit = true) (hrest : ∀ c ∈ rest.head?, c.isDigit = false) :
    (digits atEnd).run (ds ++ rest) = .ok (ds, rest) := by
  have hspan : (ds ++ rest).span Char.isDigit = (ds, rest) := by
    rw [List.span_eq_takeWhile_dropWhile, List.takeWhile_append_of_pos hds,
      List.dropWhile_append_of_pos hds]
    cases rest with
    | nil => simp
    | cons c rest =>
        have hc : c.isDigit = false := hrest c rfl
        simp [hc]
  have hempty : ds.isEmpty = false := by simpa using hne
  have hget : (get : Reader (List Char)).run (ds ++ rest) = .ok (ds ++ rest, ds ++ rest) := rfl
  rw [digits, run_bind_of_ok hget, hspan]
  dsimp only
  rw [hempty]
  rfl

end Reader

/-! ## Numerals -/

/-- What follows a value ends a number. -/
theorem Delimited.ends_number {rest : List Char} (h : Delimited rest) {c : Char}
    (hc : c ∈ rest.head?) : c.isDigit = false ∧ c ≠ '.' ∧ c ≠ 'e' ∧ c ≠ 'E' := by
  obtain hblank | rfl | rfl | rfl := h c hc
  · simp only [isBlank, Bool.or_eq_true, decide_eq_true_eq] at hblank
    obtain ((rfl | rfl) | rfl) | rfl := hblank <;> decide
  all_goals decide

/-- An exponent as it is written. -/
structure Exponent where
  isUpper : Bool
  /-- Whether the sign is a minus, if there is one. -/
  sign : Option Bool
  digits : List Char

/-- The characters of a number, part by part. -/
structure Numeral where
  negative : Bool
  whole : List Char
  /-- The digits after the point; there is no point without any. -/
  fraction : List Char
  exponent : Option Exponent

namespace Numeral

def signText : Option Bool → List Char
  | none => []
  | some isMinus => [if isMinus then '-' else '+']

def exponentText : Option Exponent → List Char
  | none => []
  | some e => (if e.isUpper then 'E' else 'e') :: (signText e.sign ++ e.digits)

def fractionText (fraction : List Char) : List Char :=
  if fraction = [] then [] else '.' :: fraction

/-- A numeral as it is written. -/
def text (n : Numeral) : List Char :=
  (if n.negative then ['-'] else []) ++
    (n.whole ++ (fractionText n.fraction ++ exponentText n.exponent))

def exponentValue (e : Exponent) : ℤ :=
  if e.sign = some true then -(digitsValue e.digits : ℤ) else digitsValue e.digits

/-- The parts of a numeral as they are read. -/
def parts (n : Numeral) : NumberText where
  negative := n.negative
  whole := n.whole
  fraction := n.fraction
  exponent := n.exponent.map exponentValue

/-- The number that a numeral is converted to, if it is in range. -/
def number? [Conversion] (n : Numeral) : Option Number :=
  Number.ofText? n.parts

/-- A numeral that a document may hold. -/
structure WellFormed (n : Numeral) : Prop where
  whole_ne_nil : n.whole ≠ []
  whole_digits : ∀ c ∈ n.whole, c.isDigit = true
  leading : n.whole.head? = some '0' → n.whole.length = 1
  fraction_digits : ∀ c ∈ n.fraction, c.isDigit = true
  exponent_digits : ∀ e ∈ n.exponent, e.digits ≠ [] ∧ ∀ c ∈ e.digits, c.isDigit = true

end Numeral

namespace Reader

open Numeral

theorem fraction_run (atEnd : Failure) {fraction rest : List Char}
    (hdigits : ∀ c ∈ fraction, c.isDigit = true)
    (hrest : ∀ c ∈ rest.head?, c.isDigit = false ∧ c ≠ '.') :
    (Reader.fraction atEnd).run (fractionText fraction ++ rest) = .ok (fraction, rest) := by
  rw [Reader.fraction, fractionText]
  split
  · rename_i hnil
    subst hnil
    rw [List.nil_append, run_bind_of_ok (optional_run_of_neg _)]
    · rfl
    · intro c hc
      exact decide_eq_false (hrest c hc).2
  · rename_i hne
    rw [List.cons_append, run_bind_of_ok (optional_run_of_pos (decide_eq_true rfl) _)]
    exact digits_run atEnd hne hdigits fun c hc => (hrest c hc).1

theorem exponentSign_run (sign : Option Bool) {text : List Char}
    (h : ∀ c ∈ text.head?, c ≠ '+' ∧ c ≠ '-') :
    (optional fun c => c = '+' || c = '-').run (signText sign ++ text) =
      .ok (sign.map fun isMinus => if isMinus then '-' else '+', text) := by
  cases sign with
  | none =>
      refine optional_run_of_neg fun c hc => ?_
      obtain ⟨hplus, hminus⟩ := h c hc
      simp [hplus, hminus]
  | some isMinus =>
      have hsign : ((if isMinus then '-' else '+') = '+' ||
          (if isMinus then '-' else '+') = '-') = true := by
        cases isMinus <;> rfl
      exact optional_run_of_pos hsign text

theorem exponent?_run (atEnd : Failure) {exponent : Option Exponent} {rest : List Char}
    (hdigits : ∀ e ∈ exponent, e.digits ≠ [] ∧ ∀ c ∈ e.digits, c.isDigit = true)
    (hrest : Delimited rest) :
    (Reader.exponent? atEnd).run (exponentText exponent ++ rest) =
      .ok (exponent.map exponentValue, rest) := by
  rw [Reader.exponent?]
  cases exponent with
  | none =>
      rw [exponentText, List.nil_append, run_bind_of_ok (optional_run_of_neg _)]
      · rfl
      · intro c hc
        obtain ⟨-, -, hlower, hupper⟩ := hrest.ends_number hc
        simp [hlower, hupper]
  | some e =>
      obtain ⟨isUpper, sign, ds⟩ := e
      obtain ⟨hne, hds⟩ := hdigits _ rfl
      have hletter : ((if isUpper then 'E' else 'e') = 'e' ||
          (if isUpper then 'E' else 'e') = 'E') = true := by
        cases isUpper <;> rfl
      have hsign : ∀ c ∈ (ds ++ rest).head?, c ≠ '+' ∧ c ≠ '-' := by
        intro c hc
        rw [List.head?_append_of_ne_nil _ hne] at hc
        have hdigit := hds c (List.mem_of_mem_head? hc)
        constructor <;> rintro rfl <;> exact absurd hdigit (by decide)
      have hend : ∀ c ∈ rest.head?, c.isDigit = false := fun c hc => (hrest.ends_number hc).1
      rw [exponentText, List.cons_append, run_bind_of_ok (optional_run_of_pos hletter _)]
      simp only [Option.isNone_some, Bool.false_eq_true, if_false]
      rw [List.append_assoc, run_bind_of_ok (exponentSign_run sign hsign),
        run_bind_of_ok (digits_run atEnd hne hds hend)]
      rcases sign with _ | _ | _ <;> rfl

theorem sign_run (negative : Bool) {text : List Char} (h : ∀ c ∈ text.head?, c ≠ '-') :
    (optional (· = '-')).run ((if negative then ['-'] else []) ++ text) =
      .ok (if negative then some '-' else none, text) := by
  cases negative with
  | true => exact optional_run_of_pos (decide_eq_true rfl) text
  | false => exact optional_run_of_neg fun c hc => decide_eq_false (h c hc)

/-- An exponent ends the digits in front of it. -/
theorem ends_exponentText (exponent : Option Exponent) {rest : List Char}
    (hrest : ∀ c ∈ rest.head?, c.isDigit = false ∧ c ≠ '.') :
    ∀ c ∈ (exponentText exponent ++ rest).head?, c.isDigit = false ∧ c ≠ '.' := by
  cases exponent with
  | none => exact hrest
  | some e =>
      intro c hc
      obtain rfl : (if e.isUpper then 'E' else 'e') = c := Option.some.inj hc
      cases e.isUpper <;> decide

/-- So does a point. -/
theorem ends_fractionText (fraction : List Char) {rest : List Char}
    (hrest : ∀ c ∈ rest.head?, c.isDigit = false ∧ c ≠ '.') :
    ∀ c ∈ (fractionText fraction ++ rest).head?, c.isDigit = false := by
  rw [fractionText]
  split
  · intro c hc
    exact (hrest c hc).1
  · intro c hc
    obtain rfl : '.' = c := Option.some.inj hc
    decide

/-- A numeral is read part by part. -/
theorem numberText_run (atEnd : Failure) {n : Numeral} (h : n.WellFormed) {rest : List Char}
    (hrest : Delimited rest) :
    (numberText atEnd).run (n.text ++ rest) = .ok (n.parts, rest) := by
  obtain ⟨first, others, hwhole⟩ := List.exists_cons_of_ne_nil h.whole_ne_nil
  have hfirst : first.isDigit = true := h.whole_digits first (by simp [hwhole])
  have hend : ∀ c ∈ rest.head?, c.isDigit = false ∧ c ≠ '.' := by
    intro c hc
    obtain ⟨hdigit, hpoint, -⟩ := hrest.ends_number hc
    exact ⟨hdigit, hpoint⟩
  have hexponent := ends_exponentText n.exponent hend
  have hfraction := ends_fractionText n.fraction hexponent
  have hsign : ∀ c ∈ (n.whole ++ (fractionText n.fraction ++ (exponentText n.exponent ++ rest))).head?,
      c ≠ '-' := by
    intro c hc hminus
    rw [hwhole] at hc
    obtain rfl : first = c := Option.some.inj hc
    rw [hminus] at hfirst
    exact absurd hfirst (by decide)
  have hleading : ¬ (n.whole.head? = some '0' ∧ n.whole.length ≠ 1) :=
    fun hzero => hzero.2 (h.leading hzero.1)
  rw [numberText, Numeral.text]
  simp only [List.append_assoc]
  rw [run_bind_of_ok (sign_run _ hsign),
    run_bind_of_ok (digits_run atEnd h.whole_ne_nil h.whole_digits hfraction), if_neg hleading,
    run_bind_of_ok (fraction_run atEnd h.fraction_digits hexponent),
    run_bind_of_ok (exponent?_run atEnd h.exponent_digits hrest)]
  obtain ⟨negative, whole, fraction, exponent⟩ := n
  cases negative <;> cases exponent <;> rfl

theorem isBlank_of_isDigit {c : Char} (h : c.isDigit = true) : isBlank c = false := by
  rw [isBlank]
  simp only [Bool.or_eq_false_iff, decide_eq_false_iff_not]
  refine ⟨⟨⟨?_, ?_⟩, ?_⟩, ?_⟩ <;> rintro rfl <;> exact absurd h (by decide)

/-- The first character of a numeral announces a number. -/
theorem exists_text_cons {n : Numeral} (h : n.WellFormed) : ∃ c rest, n.text = c :: rest ∧
    (c = '-' || c.isDigit) = true ∧ isBlank c = false := by
  obtain ⟨first, others, hwhole⟩ := List.exists_cons_of_ne_nil h.whole_ne_nil
  have hfirst : first.isDigit = true := h.whole_digits first (by simp [hwhole])
  have hblank := isBlank_of_isDigit hfirst
  rw [Numeral.text, hwhole]
  cases n.negative with
  | true => exact ⟨'-', _, rfl, rfl, rfl⟩
  | false => exact ⟨first, _, rfl, by rw [hfirst, Bool.or_true], hblank⟩

section Converted

variable [Conversion] {n : Numeral}

/-- A numeral is read as its number, and refused if it is out of range. -/
theorem number_run (h : n.WellFormed) {rest : List Char} (hrest : Delimited rest) :
    number.run (n.text ++ rest) = match n.number? with
      | some value => .ok (value, rest)
      | none => .error .malformed := by
  rw [number, run_bind_of_ok (numberText_run .truncated h hrest), Numeral.number?]
  cases Number.ofText? n.parts <;> rfl

theorem float_run (h : n.WellFormed) {rest : List Char} (hrest : Delimited rest) :
    Reader.float.run (n.text ++ rest) = match n.number? with
      | some value => .ok (value.toFloat, rest)
      | none => .error .malformed := by
  have hnumber := number_run h hrest
  obtain ⟨c, others, htext, hc, hblank⟩ := exists_text_cons h
  rw [htext, List.cons_append] at hnumber ⊢
  rw [Reader.float, run_bind_of_ok (next_run hblank _), if_pos hc]
  cases hvalue : n.number? with
  | none =>
      rw [hvalue] at hnumber
      exact run_bind_of_error hnumber
  | some value =>
      rw [hvalue] at hnumber
      rw [run_bind_of_ok hnumber]
      rfl

theorem float_skipsBlanks : Reader.float.SkipsBlanks :=
  next_skipsBlanks.bind _

/-- A numeral in range is read as its number. -/
theorem float_takes (h : n.WellFormed) {value : Number} (hvalue : n.number? = some value) :
    Reader.float.Takes n.text value.toFloat := by
  refine float_skipsBlanks.takes fun rest hrest => ?_
  rw [float_run h hrest, hvalue]

end Converted

end Reader

/-! ## Digits -/

/-- A number has no leading zero, unless it is zero. -/
theorem eq_zero_of_head?_toDigits {n : ℕ} (h : (Nat.toDigits 10 n).head? = some '0') : n = 0 := by
  induction n using Nat.strongRecOn with
  | ind n ih =>
      rw [Nat.toDigits_eq_if (by decide)] at h
      split at h
      · rename_i hlt
        have hchar : n.digitChar = '0' := Option.some.inj h
        have hvalue := Nat.toNat_digitChar_of_lt_ten hlt
        rw [hchar] at hvalue
        have hzero : ('0' : Char).toNat = 48 := rfl
        omega
      · rename_i hge
        rw [List.head?_append_of_ne_nil _ Nat.toDigits_ne_nil] at h
        have hquotient := ih (n / 10) (by omega) h
        omega

theorem digitsValue_eq (ds : List Char) : digitsValue ds = Nat.ofDigitChars 10 ds 0 := rfl

theorem digitsValue_append (ds ds' : List Char) :
    digitsValue (ds ++ ds') = digitsValue ds * 10 ^ ds'.length + digitsValue ds' := by
  rw [digitsValue_eq, Nat.ofDigitChars_append, Nat.ofDigitChars_eq_ofDigitChars_zero, mul_comm]
  rfl

@[simp] theorem digitsValue_toDigits (n : ℕ) : digitsValue (Nat.toDigits 10 n) = n :=
  Nat.ofDigitChars_ten_toDigits

@[simp] theorem digitsValue_replicate_zero (k : ℕ) : digitsValue (List.replicate k '0') = 0 := by
  rw [digitsValue_eq, Nat.ofDigitChars_replicate_zero, mul_zero]

/-! ## What is written -/

namespace Numeral

/-- The digits of a whole number. -/
def ofNat (k : ℕ) : Numeral :=
  ⟨false, Nat.toDigits 10 k, [], none⟩

theorem leading_toDigits {k : ℕ} (h : (Nat.toDigits 10 k).head? = some '0') :
    (Nat.toDigits 10 k).length = 1 := by
  rw [eq_zero_of_head?_toDigits h]
  rfl

theorem isDigit_of_mem_toDigits {k : ℕ} {c : Char} (h : c ∈ Nat.toDigits 10 k) : c.isDigit = true :=
  Nat.isDigit_of_mem_toDigits (by decide) (by decide) h

theorem wellFormed_ofNat (k : ℕ) : (ofNat k).WellFormed where
  whole_ne_nil := Nat.toDigits_ne_nil
  whole_digits _ := isDigit_of_mem_toDigits
  leading := leading_toDigits
  fraction_digits := nofun
  exponent_digits := nofun

theorem text_ofNat (k : ℕ) : (ofNat k).text = (toString k).toList := by
  rw [Nat.toString_eq_ofList_toDigits, String.toList_ofList]
  exact List.append_nil _

/-- The digits of a decimal below one, with zeros in front up to the place before the point. -/
def padded (d : Decimal) : List Char :=
  List.replicate ((-d.exponent).toNat + 1 - d.digitText.length) '0' ++ d.digitText

/-- The digits of a decimal with a point among them and without an exponent. -/
def positional (negative : Bool) (d : Decimal) : Numeral :=
  if 0 ≤ d.exponent then
    ⟨negative, d.digitText ++ List.replicate d.exponent.toNat '0', ['0'], none⟩
  else
    let whole := (padded d).length - (-d.exponent).toNat
    ⟨negative, (padded d).take whole, (padded d).drop whole, none⟩

/-- One digit of a decimal before the point, and an exponent. -/
def scientific (negative : Bool) (d : Decimal) : Numeral :=
  ⟨negative, d.digitText.take 1, d.digitText.drop 1,
    some ⟨false, some (decide (d.leading < 0)), Nat.toDigits 10 d.leading.natAbs⟩⟩

theorem length_padded (d : Decimal) : (-d.exponent).toNat + 1 ≤ (padded d).length := by
  rw [padded, List.length_append, List.length_replicate]
  omega

theorem isDigit_of_mem_padded {d : Decimal} {c : Char} (h : c ∈ padded d) : c.isDigit = true := by
  rcases List.mem_append.1 h with hzero | hdigit
  · rw [List.eq_of_mem_replicate hzero]
    rfl
  · exact isDigit_of_mem_toDigits hdigit

theorem text_positional (negative : Bool) (d : Decimal) : (positional negative d).text =
    (if negative then ['-'] else []) ++ d.positionalText true := by
  rw [positional, Decimal.positionalText]
  split
  · simp [text, fractionText, exponentText]
  · rename_i hexponent
    have hne : (padded d).drop ((padded d).length - (-d.exponent).toNat) ≠ [] := by
      have hlength := length_padded d
      rw [ne_eq, List.drop_eq_nil_iff]
      omega
    simp only [text, fractionText, exponentText, if_neg hne, List.append_nil]
    rfl

theorem text_scientific (negative : Bool) (d : Decimal) : (scientific negative d).text =
    (if negative then ['-'] else []) ++ d.exponentText := by
  rw [scientific, Decimal.exponentText, text]
  congr 1
  rcases d.digitText with _ | ⟨first, _ | ⟨second, others⟩⟩ <;>
    simp [fractionText, exponentText, signText]

/-- Before the point there is one zero, or no leading one. -/
theorem length_take_padded {d : Decimal} (hd : d.exponent < 0)
    (h : ((padded d).take ((padded d).length - (-d.exponent).toNat)).head? = some '0') :
    ((padded d).take ((padded d).length - (-d.exponent).toNat)).length = 1 := by
  have hlength : (padded d).length =
      (-d.exponent).toNat + 1 - d.digitText.length + d.digitText.length := by
    rw [padded, List.length_append, List.length_replicate]
  rw [List.length_take]
  by_cases hshort : d.digitText.length < (-d.exponent).toNat + 1
  · omega
  · exfalso
    have hnone : (-d.exponent).toNat + 1 - d.digitText.length = 0 := by omega
    have hpadded : padded d = d.digitText := by
      rw [padded, hnone]
      rfl
    have hhead : (Nat.toDigits 10 d.digits).head? = some '0' := by
      rw [List.head?_take, hpadded] at h
      split at h
      · cases h
      · exact h
    rw [Decimal.digitText, eq_zero_of_head?_toDigits hhead, Nat.toDigits_zero,
      List.length_singleton] at hshort
    omega

theorem wellFormed_positional (negative : Bool) {d : Decimal} (hd : d.digits = 0 → d.exponent ≤ 0) :
    (positional negative d).WellFormed := by
  have hlength := length_padded d
  rw [positional]
  split
  · rename_i hexponent
    exact {
      whole_ne_nil := by simp [Decimal.digitText, Nat.toDigits_ne_nil]
      whole_digits := by
        intro c hc
        rcases List.mem_append.1 hc with hdigit | hzero
        · exact isDigit_of_mem_toDigits hdigit
        · rw [List.eq_of_mem_replicate hzero]
          rfl
      leading := by
        intro hhead
        change (Nat.toDigits 10 d.digits ++ List.replicate d.exponent.toNat '0').head? = _ at hhead
        rw [List.head?_append_of_ne_nil _ Nat.toDigits_ne_nil] at hhead
        have hzero := eq_zero_of_head?_toDigits hhead
        have hexponent : d.exponent.toNat = 0 := by
          have hle := hd hzero
          omega
        change (Nat.toDigits 10 d.digits ++ List.replicate d.exponent.toNat '0').length = 1
        rw [hexponent, hzero]
        rfl
      fraction_digits := by
        intro c hc
        obtain rfl := List.mem_singleton.1 hc
        rfl
      exponent_digits := nofun }
  · rename_i hexponent
    exact {
      whole_ne_nil := by
        rw [ne_eq, List.take_eq_nil_iff]
        rintro (hzero | hnil)
        · omega
        · rw [hnil, List.length_nil] at hlength
          omega
      whole_digits := fun c hc => isDigit_of_mem_padded (List.mem_of_mem_take hc)
      leading := fun hhead => length_take_padded (by omega) hhead
      fraction_digits := fun c hc => isDigit_of_mem_padded (List.mem_of_mem_drop hc)
      exponent_digits := nofun }

theorem wellFormed_scientific (negative : Bool) (d : Decimal) :
    (scientific negative d).WellFormed where
  whole_ne_nil := by
    rw [scientific, ne_eq, List.take_eq_nil_iff]
    rintro (hzero | hnil)
    · cases hzero
    · exact Nat.toDigits_ne_nil hnil
  whole_digits c hc := isDigit_of_mem_toDigits (List.mem_of_mem_take hc)
  leading _ := by
    have hpos : 0 < (Nat.toDigits 10 d.digits).length := Nat.length_toDigits_pos
    rw [scientific, List.length_take, Decimal.digitText]
    omega
  fraction_digits c hc := isDigit_of_mem_toDigits (List.mem_of_mem_drop hc)
  exponent_digits := by
    intro e he
    obtain rfl := Option.some.inj he
    exact ⟨Nat.toDigits_ne_nil, fun c => isDigit_of_mem_toDigits⟩

theorem digitsValue_padded (d : Decimal) : digitsValue (padded d) = d.digits := by
  rw [padded, digitsValue_append, digitsValue_replicate_zero, Decimal.digitText,
    digitsValue_toDigits, zero_mul, zero_add]

theorem value_positional (negative : Bool) (d : Decimal) :
    (positional negative d).parts.magnitude.value = d.value := by
  rw [positional]
  split
  · rename_i hexponent
    have hdigits : digitsValue (d.digitText ++ List.replicate d.exponent.toNat '0' ++ ['0']) =
        d.digits * 10 ^ d.exponent.toNat * 10 := by
      have hlast : digitsValue ['0'] = 0 := rfl
      rw [digitsValue_append, digitsValue_append, digitsValue_replicate_zero, hlast,
        Decimal.digitText, digitsValue_toDigits, List.length_replicate, List.length_singleton]
      ring
    have hpower : (10 : ℚ) ^ d.exponent = 10 ^ d.exponent.toNat := by
      rw [← zpow_natCast, Int.toNat_of_nonneg hexponent]
    simp only [parts, NumberText.magnitude, hdigits, Option.map_none, Option.getD_none,
      Decimal.value, List.length_singleton]
    push_cast
    rw [hpower, mul_assoc]
    norm_num
  · rename_i hexponent
    have hlength := length_padded d
    simp only [parts, NumberText.magnitude, Option.map_none, Option.getD_none, Decimal.value,
      List.take_append_drop, digitsValue_padded, List.length_drop]
    congr 2
    omega

theorem magnitude_scientific (negative : Bool) (d : Decimal) :
    (scientific negative d).parts.magnitude = d := by
  have hpos : 0 < (Nat.toDigits 10 d.digits).length := Nat.length_toDigits_pos
  have hexponent : (scientific negative d).parts.exponent = some d.leading := by
    simp only [parts, scientific, Option.map_some, exponentValue, digitsValue_toDigits,
      Option.some.injEq, decide_eq_true_eq]
    split <;> omega
  rw [NumberText.magnitude, hexponent, Option.getD_some]
  simp only [parts, scientific, List.take_append_drop, List.length_drop, Decimal.digitText,
    digitsValue_toDigits, Decimal.leading, Decimal.width]
  congr
  omega

/-- The numeral that a document holds for a decimal. -/
def ofDecimal (negative : Bool) (d : Decimal) : Numeral :=
  if -5 ≤ d.leading ∧ d.leading ≤ 15 then positional negative d else scientific negative d

theorem wellFormed_ofDecimal (negative : Bool) {d : Decimal} (hd : d.digits = 0 → d.exponent ≤ 0) :
    (ofDecimal negative d).WellFormed := by
  rw [ofDecimal]
  split
  · exact wellFormed_positional negative hd
  · exact wellFormed_scientific negative d

theorem value_ofDecimal (negative : Bool) (d : Decimal) :
    (ofDecimal negative d).parts.magnitude.value = d.value := by
  rw [ofDecimal]
  split
  · exact value_positional negative d
  · rw [magnitude_scientific]

theorem negative_ofDecimal (negative : Bool) (d : Decimal) :
    (ofDecimal negative d).negative = negative := by
  rw [ofDecimal, positional]
  split
  · split <;> rfl
  · rfl

/-- A document never writes a number like a whole number. -/
theorem isWhole_ofDecimal (negative : Bool) (d : Decimal) :
    (ofDecimal negative d).parts.isWhole = false := by
  rw [ofDecimal, positional]
  split
  · split
    · rfl
    · have hlength := length_padded d
      have hne : ((padded d).drop ((padded d).length - (-d.exponent).toNat)).isEmpty = false := by
        rw [List.isEmpty_eq_false_iff, ne_eq, List.drop_eq_nil_iff]
        omega
      simp only [NumberText.isWhole, parts, hne, Bool.false_and]
  · exact Bool.and_false _

/-- The text of a magnitude in a document. -/
theorem text_ofDecimal (negative : Bool) (m : Magnitude) :
    ((NumberStyle.document (-5) 15).write .binary64 (.finite negative m)).toList =
      (ofDecimal negative
        (if m.significand = 0 then ⟨0, 0⟩ else .shortest .even .binary64 m)).text := by
  rw [NumberStyle.write, String.toList_ofList, ofDecimal]
  change (let d : Decimal := if m.significand = 0 then ⟨0, 0⟩ else .shortest .even .binary64 m;
    let text := if (decide (-5 ≤ d.leading) && decide (d.leading ≤ 15)) = true then
      d.positionalText true else d.exponentText;
    if negative then '-' :: text else text) = _
  generalize (if m.significand = 0 then ⟨0, 0⟩ else Decimal.shortest .even .binary64 m) = d
  simp only [Bool.and_eq_true, decide_eq_true_eq]
  by_cases hplaces : -5 ≤ d.leading ∧ d.leading ≤ 15
  · rw [if_pos hplaces, if_pos hplaces, text_positional]
    cases negative <;> rfl
  · rw [if_neg hplaces, if_neg hplaces, text_scientific]
    cases negative <;> rfl

end Numeral

namespace Numeral

variable [Conversion]

/-- The digits of a word stand for it. -/
theorem number?_ofNat {k : ℕ} (h : k < UInt64.size) : (ofNat k).number? = some (.word k) := by
  have hdigits : (ofNat k).parts.magnitude.digits = k := by
    simp [parts, NumberText.magnitude, ofNat]
  rw [number?, Number.ofText?, if_pos ⟨rfl, nofun, by rwa [hdigits]⟩, hdigits]

/-- With a point or an exponent, a numeral is converted. -/
theorem number?_of_not_isWhole {n : Numeral} (hwhole : n.parts.isWhole = false) :
    n.number? = (Conversion.toFloat? n.parts).map .real := by
  rw [number?, Number.ofText?, hwhole, if_neg fun hall => Bool.false_ne_true hall.1]

end Numeral

section Converted

variable [Conversion]

theorem Reader.natBelow_skipsBlanks (bound : ℕ) : (Reader.natBelow bound).SkipsBlanks :=
  next_skipsBlanks.bind _

/-- A word is read from its digits. -/
theorem Reader.natBelow_takes {k bound : ℕ} (hk : k < bound) (hword : k < UInt64.size) :
    (Reader.natBelow bound).Takes (toString k).toList k := by
  refine (natBelow_skipsBlanks bound).takes fun rest hrest => ?_
  have hnumber := number_run (Numeral.wellFormed_ofNat k) hrest
  rw [Numeral.number?_ofNat hword] at hnumber
  obtain ⟨c, others, htext, hc, hblank⟩ := exists_text_cons (Numeral.wellFormed_ofNat k)
  rw [htext, List.cons_append] at hnumber
  rw [← Numeral.text_ofNat, htext, List.cons_append, natBelow,
    run_bind_of_ok (next_run hblank _), if_pos hc, run_bind_of_ok hnumber]
  dsimp only
  rw [if_pos hk]
  rfl

end Converted

/-- Any decimal with the value of the one that is written for a magnitude is read as this magnitude. -/
theorem toFloat?_of_value {negative : Bool} {m : Magnitude} {d : Decimal}
    (hm : m.significand ≠ 0 → BinaryFormat.binary64.Holds m)
    (hd : d.value =
      (if m.significand = 0 then ⟨0, 0⟩ else Decimal.shortest .even .binary64 m).value) :
    d.toFloat? negative = some (m.toFloat negative) := by
  split at hd
  · rename_i hzero
    have hdigits : d.digits = 0 := by
      have hten : (10 : ℚ) ^ d.exponent ≠ 0 := by positivity
      simp only [Decimal.value, Nat.cast_zero, zero_mul, mul_eq_zero, hten, or_false] at hd
      exact_mod_cast hd
    have hbits : m.toBits .binary64 = 0 := by
      rw [Magnitude.toBits_of_lt (by omega), hzero]
    rw [Decimal.toFloat?, if_pos (Or.inl hdigits), Magnitude.toFloat, Magnitude.toFloat, hbits]
    rfl
  · rename_i hne
    apply Decimal.toFloat?_eq negative (hm hne)
    rw [hd]
    exact Decimal.shortest_contains .even (hm hne) (Nat.le_refl _)

/-- What is written for a finite number is no whole numeral, and its value rounds to the number. -/
theorem exists_numeral {x : Float} (hx : x.isFinite = true) : ∃ n : Numeral, n.WellFormed ∧
    (documentNumber x).toList = n.text ∧ n.parts.isWhole = false ∧
    n.parts.magnitude.toFloat? n.parts.negative = some x := by
  obtain ⟨negative, m, hparts, hholds, rfl⟩ := Binary.exists_ofFloat_eq hx
  rw [documentNumber, hparts, Numeral.text_ofDecimal]
  refine ⟨_, Numeral.wellFormed_ofDecimal _ ?_, rfl, Numeral.isWhole_ofDecimal .., ?_⟩
  · intro hdigits
    split at hdigits
    · rename_i hzero
      rw [if_pos hzero]
    · rename_i hne
      have hcontains := Decimal.shortest_contains .even (hholds hne) (Nat.le_refl _)
      exact absurd hdigits (Decimal.digits_ne_zero (hholds hne) hcontains)
  · rw [Numeral.parts, Numeral.negative_ofDecimal]
    exact toFloat?_of_value hholds (Numeral.value_ofDecimal ..)

/-- What a document holds for a number is read as this number, if it is finite. -/
def ReadsBack [Conversion] (x : Float) : Prop :=
  x.isFinite = true → Reader.float.run (documentNumber x).toList = .ok (x, [])

/-- It is then read in any place. -/
theorem ReadsBack.takes [Conversion] {x : Float} (h : ReadsBack x) (hx : x.isFinite = true) :
    Reader.float.Takes (documentNumber x).toList x := by
  obtain ⟨n, hn, htext, -, -⟩ := exists_numeral hx
  have halone := h hx
  rw [htext, ← List.append_nil n.text, Reader.float_run hn .nil] at halone
  rw [htext]
  cases hvalue : n.number? with
  | none =>
      rw [hvalue] at halone
      cases halone
  | some value =>
      rw [hvalue] at halone
      have hfloat : value.toFloat = x := by
        cases halone
        rfl
      rw [← hfloat]
      exact Reader.float_takes hn hvalue

/-- The conversion to the nearest number reads every finite number back. -/
theorem readsBack_nearest (x : Float) : @ReadsBack .nearest x := by
  let _ : Conversion := .nearest
  intro hx
  obtain ⟨n, hn, htext, hwhole, hvalue⟩ := exists_numeral hx
  have hnumber : n.number? = some (.real x) := by
    rw [Numeral.number?_of_not_isWhole hwhole]
    exact congrArg (Option.map Number.real) hvalue
  have hrun := Reader.float_run hn .nil
  rwa [hnumber, List.append_nil, ← htext] at hrun

/-- What is not finite is written as null, which is no number. -/
theorem Reader.float_run_of_not_isFinite [Conversion] {x : Float} (hx : ¬ x.isFinite = true)
    (rest : List Char) :
    Reader.float.run ((documentNumber x).toList ++ rest) = .error .mismatched := by
  have htext : documentNumber x = "null" := by
    rw [documentNumber]
    obtain hnan | ⟨negative, hinfinite⟩ := Binary.ofFloat_of_not_isFinite hx
    · rw [hnan]
      rfl
    · rw [hinfinite]
      cases negative <;> rfl
  rw [htext]
  rfl

end Json

end Ranging
