import Ranging.Proofs.StringText

/-!
# Passing over the text of a value

`Grammar` describes the texts of JSON values: words, numbers, strings, and brackets around entries, to
any depth and with blanks anywhere between the tokens. The entries of an array are values, and those of
an object have a key in front.

The reader passes over a value without recursion, with a stack of open brackets. Each part of the
grammar is taken with the stack as it is, and leaves it as it was or without the bracket that the part
stands in (`Reader.Passes`). Since no step goes without a character, the length of the text is enough
fuel, and a value is passed over up to its end (`Reader.skip_takes`).
-/

namespace Ranging.Json

open Reader (Bracket)

/-! ## Grammar -/

/-- The character that opens a bracket. -/
def Reader.Bracket.opening : Bracket → Char
  | .array => '['
  | .object => '{'

/-- What an entry has in front of its value: nothing in an array, a name and a colon in an object. -/
inductive KeyText : Bracket → List Char → Prop where
  | none : KeyText .array []
  | name {name after before : List Char} : RawString name → Blank after → Blank before →
    KeyText .object ('"' :: (name ++ '"' :: (after ++ ':' :: before)))

/-- The parts of a value. -/
inductive Part where
  | value
  /-- The entries in a bracket, of which there is at least one. -/
  | entries (bracket : Bracket)

/-- The bracket that ends a part. -/
def Part.closing : Part → List Char
  | .value => []
  | .entries bracket => [bracket.close]

/-- The texts of values, and of the entries in brackets with the blanks behind the last one. -/
inductive Grammar : Part → List Char → Prop where
  | word {s : String} : s ∈ ["null", "true", "false"] → Grammar .value s.toList
  | number {n : Numeral} : n.WellFormed → Grammar .value n.text
  | string {text : List Char} : RawString text → Grammar .value ('"' :: (text ++ ['"']))
  | empty {bracket : Bracket} {blanks : List Char} : Blank blanks →
    Grammar .value (bracket.opening :: (blanks ++ [bracket.close]))
  | bracket {bracket : Bracket} {blanks entries : List Char} : Blank blanks →
    Grammar (.entries bracket) entries →
    Grammar .value (bracket.opening :: (blanks ++ (entries ++ [bracket.close])))
  | last {bracket : Bracket} {key value after : List Char} : KeyText bracket key →
    Grammar .value value → Blank after → Grammar (.entries bracket) (key ++ (value ++ after))
  | more {bracket : Bracket} {key value after before entries : List Char} : KeyText bracket key →
    Grammar .value value → Blank after → Blank before → Grammar (.entries bracket) entries →
    Grammar (.entries bracket) (key ++ (value ++ (after ++ ',' :: (before ++ entries))))

/-- The text of any value. -/
abbrev ValueText (text : List Char) : Prop :=
  Grammar .value text

theorem Delimited.of_blank {blanks rest : List Char} (hblanks : Blank blanks)
    (h : Delimited rest) : Delimited (blanks ++ rest) := by
  cases blanks with
  | nil => exact h
  | cons c blanks =>
      intro d hd
      obtain rfl : c = d := Option.some.inj hd
      exact Or.inl (hblanks c List.mem_cons_self)

theorem delimited_comma (rest : List Char) : Delimited (',' :: rest) := by
  intro c hc
  exact Or.inr (Or.inl (Option.some.inj hc).symm)

theorem delimited_close (bracket : Bracket) (rest : List Char) :
    Delimited (bracket.close :: rest) := by
  intro c hc
  obtain rfl : bracket.close = c := Option.some.inj hc
  cases bracket
  · exact Or.inr (Or.inr (Or.inl rfl))
  · exact Or.inr (Or.inr (Or.inr rfl))

/-- A character that may start an entry: it is no blank and does not end the bracket. -/
structure Starts (c : Char) : Prop where
  not_blank : isBlank c = false
  ne_array : c ≠ ']'
  ne_object : c ≠ '}'

theorem Starts.of_isDigit {c : Char} (h : c.isDigit = true) : Starts c where
  not_blank := Reader.isBlank_of_isDigit h
  ne_array := by
    rintro rfl
    exact absurd h (by decide)
  ne_object := by
    rintro rfl
    exact absurd h (by decide)

theorem Starts.opening (bracket : Bracket) : Starts bracket.opening := by
  cases bracket <;> exact ⟨rfl, by decide, by decide⟩

theorem KeyText.exists_cons {bracket : Bracket} {key value : List Char} (hkey : KeyText bracket key)
    (hvalue : ∃ c others, value = c :: others ∧ Starts c) (rest : List Char) :
    ∃ c others, key ++ (value ++ rest) = c :: others ∧ Starts c := by
  cases hkey with
  | none =>
      obtain ⟨c, others, rfl, hc⟩ := hvalue
      exact ⟨c, others ++ rest, rfl, hc⟩
  | name => exact ⟨'"', _, rfl, rfl, by decide, by decide⟩

/-- No part of a value is empty or starts with a blank or the end of a bracket. -/
theorem Grammar.exists_cons {part : Part} {text : List Char} (h : Grammar part text) :
    ∃ c others, text = c :: others ∧ Starts c := by
  induction h with
  | word hword =>
      simp only [List.mem_cons, List.not_mem_nil, or_false] at hword
      obtain rfl | rfl | rfl := hword
      · exact ⟨'n', "ull".toList, rfl, rfl, by decide, by decide⟩
      · exact ⟨'t', "rue".toList, rfl, rfl, by decide, by decide⟩
      · exact ⟨'f', "alse".toList, rfl, rfl, by decide, by decide⟩
  | number hn =>
      obtain ⟨c, others, htext, hc, -⟩ := Reader.exists_text_cons hn
      rw [Bool.or_eq_true, decide_eq_true_eq] at hc
      refine ⟨c, others, htext, ?_⟩
      rcases hc with rfl | hdigit
      · exact ⟨rfl, by decide, by decide⟩
      · exact .of_isDigit hdigit
  | string => exact ⟨'"', _, rfl, rfl, by decide, by decide⟩
  | empty => exact ⟨_, _, rfl, .opening _⟩
  | bracket => exact ⟨_, _, rfl, .opening _⟩
  | last hkey _ _ ih => exact hkey.exists_cons ih _
  | more hkey _ _ _ _ ih _ => exact hkey.exists_cons ih _

namespace Reader

/-! ## Single steps -/

section Steps

variable {fuel : ℕ} {bracket : Bracket} {brackets : List Bracket} {blanks rest : List Char}

theorem passOpen_skipsBlanks (fuel : ℕ) (brackets : List Bracket) :
    (passOpen fuel true brackets).SkipsBlanks := by
  cases fuel with
  | zero => intro _ _ _; rfl
  | succ fuel => exact next_skipsBlanks.bind _

/-- Take the key of an entry. -/
def passEntryKey (bracket : Bracket) : Reader Unit :=
  if bracket = .object then passKey else pure ()

theorem literal_run (expected rest : List Char) :
    (literal expected).run (expected ++ rest) = .ok ((), rest) := by
  induction expected with
  | nil => rfl
  | cons c expected ih =>
      rw [List.cons_append, literal, run_bind_of_ok (get_run _)]
      simp only [if_true]
      exact ih

/-- A key leaves the value for which it stands. -/
theorem passEntryKey_run {key : List Char} (hkey : KeyText bracket key) (value : List Char) :
    (passEntryKey bracket >>= fun _ => passOpen fuel true brackets).run (key ++ value) =
      (passOpen fuel true brackets).run value := by
  cases hkey with
  | none => rfl
  | @name name after before hname hafter hbefore =>
      have hquote : isBlank '"' = false := rfl
      have hcolon : isBlank ':' = false := rfl
      have hkey : passKey.run ('"' :: (name ++ '"' :: (after ++ ':' :: before)) ++ value) =
          .ok ((), before ++ value) := by
        rw [List.cons_append, List.append_assoc, List.cons_append, List.append_assoc,
          List.cons_append, passKey, run_bind_of_ok (punctuation_run hquote _),
          run_bind_of_ok (passString_run hname _)]
        exact punctuation_run_append hafter hcolon _
      rw [passEntryKey, if_pos rfl, run_bind_of_ok hkey]
      exact passOpen_skipsBlanks fuel brackets before value hbefore

theorem close_not_blank (bracket : Bracket) : isBlank bracket.close = false := by
  cases bracket <;> rfl

theorem passEntry_skipsBlanks :
    (passEntryKey bracket >>= fun _ => passOpen fuel true brackets).SkipsBlanks := by
  cases bracket with
  | array => exact passOpen_skipsBlanks fuel brackets
  | object => exact ((next_skipsBlanks.bind _).bind _).bind _

/-- A bracket without entries. -/
theorem passOpen_empty (hblanks : Blank blanks) :
    (passOpen (fuel + 1) true brackets).run
        (bracket.opening :: (blanks ++ bracket.close :: rest)) =
      (passOpen fuel false brackets).run rest := by
  have hnext := next_run_append hblanks (close_not_blank bracket) rest
  rw [passOpen.eq_def]
  simp only [if_true]
  rw [run_bind_of_ok (next_run (Starts.opening bracket).not_blank _)]
  cases bracket with
  | array => exact (run_bind_of_ok (drop_run _ _)).trans (run_bind_of_ok hnext)
  | object => exact (run_bind_of_ok (drop_run _ _)).trans (run_bind_of_ok hnext)

/-- A bracket in which an entry starts. -/
theorem passOpen_opening (hblanks : Blank blanks) {c : Char} (hc : Starts c) :
    (passOpen (fuel + 1) true brackets).run (bracket.opening :: (blanks ++ c :: rest)) =
      (passEntryKey bracket >>= fun _ => passOpen fuel true (bracket :: brackets)).run (c :: rest) := by
  have hnext := next_run_append hblanks hc.not_blank rest
  rw [passOpen.eq_def]
  simp only [if_true]
  rw [run_bind_of_ok (next_run (Starts.opening bracket).not_blank _)]
  cases bracket with
  | array =>
      refine (run_bind_of_ok (drop_run _ _)).trans ((run_bind_of_ok hnext).trans ?_)
      rw [if_neg hc.ne_array]
      rfl
  | object =>
      refine (run_bind_of_ok (drop_run _ _)).trans ((run_bind_of_ok hnext).trans ?_)
      rw [if_neg hc.ne_object]
      rfl

/-- A comma between two entries. -/
theorem passOpen_comma (hblanks : Blank blanks) :
    (passOpen (fuel + 1) false (bracket :: brackets)).run (blanks ++ ',' :: rest) =
      (passEntryKey bracket >>= fun _ => passOpen fuel true (bracket :: brackets)).run rest := by
  have hcomma : isBlank ',' = false := rfl
  rw [passOpen]
  simp only [Bool.false_eq_true, if_false]
  rw [run_bind_of_ok (next_run_append hblanks hcomma rest), if_pos rfl]
  refine (run_bind_of_ok (drop_run _ _)).trans ?_
  cases bracket <;> rfl

/-- The end of a bracket. -/
theorem passOpen_close (hblanks : Blank blanks) :
    (passOpen (fuel + 1) false (bracket :: brackets)).run (blanks ++ bracket.close :: rest) =
      (passOpen fuel false brackets).run rest := by
  have hcomma : bracket.close ≠ ',' := by cases bracket <;> decide
  rw [passOpen]
  simp only [Bool.false_eq_true, if_false]
  rw [run_bind_of_ok (next_run_append hblanks (close_not_blank bracket) rest), if_neg hcomma, if_pos rfl]
  exact run_bind_of_ok (drop_run _ _)

/-- A value that is no bracket. -/
theorem passOpen_scalar {text : List Char} {c : Char} (hblank : isBlank c = false)
    (harray : c ≠ '[') (hobject : c ≠ '{')
    (hscalar : (passScalar c).run (c :: text ++ rest) = .ok ((), rest)) :
    (passOpen (fuel + 1) true brackets).run (c :: text ++ rest) =
      (passOpen fuel false brackets).run rest := by
  rw [passOpen.eq_def]
  simp only [if_true]
  rw [List.cons_append] at hscalar ⊢
  rw [run_bind_of_ok (next_run hblank _)]
  split
  · exact absurd rfl harray
  · exact absurd rfl hobject
  · exact run_bind_of_ok hscalar

end Steps

/-! ## Whole parts -/

/-- So many steps pass over a part, with the bracket that ends it. -/
def Passes : Part → List Char → ℕ → Prop
  | .value, text, steps => ∀ fuel brackets rest, Delimited rest →
    (passOpen (fuel + steps) true brackets).run (text ++ rest) =
      (passOpen fuel false brackets).run rest
  | .entries bracket, text, steps => ∀ fuel brackets rest,
    (passEntryKey bracket >>= fun _ => passOpen (fuel + steps) true (bracket :: brackets)).run
        (text ++ bracket.close :: rest) =
      (passOpen fuel false brackets).run rest

theorem passes_word {s : String} (h : s ∈ ["null", "true", "false"]) :
    Passes .value s.toList 1 := by
  intro fuel brackets rest _
  simp only [List.mem_cons, List.not_mem_nil, or_false] at h
  obtain rfl | rfl | rfl := h
  · exact passOpen_scalar rfl (by decide) (by decide) (literal_run "null".toList rest)
  · exact passOpen_scalar rfl (by decide) (by decide) (literal_run "true".toList rest)
  · exact passOpen_scalar rfl (by decide) (by decide) (literal_run "false".toList rest)

theorem passes_string {text : List Char} (h : RawString text) :
    Passes .value ('"' :: (text ++ ['"'])) 1 := by
  intro fuel brackets rest _
  have hstring : (passScalar '"').run ('"' :: (text ++ ['"']) ++ rest) = .ok ((), rest) := by
    rw [List.cons_append, List.append_assoc]
    exact (run_bind_of_ok (drop_run _ _)).trans (passString_run h rest)
  exact passOpen_scalar rfl (by decide) (by decide) hstring

theorem passes_number {n : Numeral} (h : n.WellFormed) : Passes .value n.text 1 := by
  intro fuel brackets rest hrest
  obtain ⟨c, others, htext, hc, hblank⟩ := exists_text_cons h
  have hnumber := numberText_run .malformed h hrest
  rw [htext] at hnumber ⊢
  have hne {d : Char} (hd : (decide (d = '-') || d.isDigit) = false) : c ≠ d := by
    rintro rfl
    exact Bool.false_ne_true (hd.symm.trans hc)
  have hscalar : (passScalar c).run (c :: others ++ rest) = .ok ((), rest) := by
    rw [passScalar, if_pos hc]
    · exact run_map_of_ok hnumber
    all_goals exact hne rfl
  exact passOpen_scalar hblank (hne rfl) (hne rfl) hscalar

/-- A value and the blanks behind it, inside of a bracket. -/
theorem Passes.entry {value : List Char} {steps : ℕ} (h : Passes .value value steps)
    {bracket : Bracket} {key : List Char} (hkey : KeyText bracket key) (fuel : ℕ)
    (brackets : List Bracket) {rest : List Char} (hrest : Delimited rest) :
    (passEntryKey bracket >>= fun _ => passOpen (fuel + steps) true (bracket :: brackets)).run
        (key ++ (value ++ rest)) = (passOpen fuel false (bracket :: brackets)).run rest := by
  rw [passEntryKey_run hkey]
  exact h fuel (bracket :: brackets) rest hrest

/-- Every step takes a character, and every part is passed over. -/
theorem exists_passes {part : Part} {text : List Char} (h : Grammar part text) :
    ∃ steps, steps ≤ (text ++ part.closing).length ∧ Passes part text steps := by
  induction h with
  | word hword =>
      refine ⟨1, ?_, passes_word hword⟩
      obtain ⟨c, rest, htext, -⟩ := (Grammar.word hword).exists_cons
      simp [htext]
  | number hn =>
      refine ⟨1, ?_, passes_number hn⟩
      obtain ⟨c, rest, htext, -⟩ := (Grammar.number hn).exists_cons
      simp [htext]
  | string hstring => exact ⟨1, by simp, passes_string hstring⟩
  | @empty bracket blanks hblanks =>
      refine ⟨1, by simp, ?_⟩
      intro fuel brackets rest _
      simpa using passOpen_empty hblanks
  | @bracket bracket blanks entries hblanks hentries ih =>
      obtain ⟨steps, hsteps, hpasses⟩ := ih
      refine ⟨steps + 1, ?_, ?_⟩
      · simp only [Part.closing, List.length_append, List.length_cons, List.length_nil] at hsteps ⊢
        omega
      · intro fuel brackets rest _
        obtain ⟨c, others, rfl, hc⟩ := hentries.exists_cons
        have htext : bracket.opening :: (blanks ++ (c :: others ++ [bracket.close])) ++ rest =
            bracket.opening :: (blanks ++ c :: (others ++ bracket.close :: rest)) := by simp
        rw [htext, ← Nat.add_assoc]
        exact (passOpen_opening hblanks hc).trans (hpasses fuel brackets rest)
  | @last bracket key value after hkey _ hafter ih =>
      obtain ⟨steps, hsteps, hpasses⟩ := ih
      refine ⟨steps + 1, ?_, ?_⟩
      · simp only [Part.closing, List.length_append, List.length_cons, List.length_nil] at hsteps ⊢
        omega
      · intro fuel brackets rest
        have hend := (delimited_close bracket rest).of_blank hafter
        rw [List.append_assoc, List.append_assoc, Nat.add_comm steps, ← Nat.add_assoc,
          hpasses.entry hkey (fuel + 1) brackets hend]
        exact passOpen_close hafter
  | @more bracket key value after before entries hkey _ hafter hbefore hentries ih ih' =>
      obtain ⟨steps, hsteps, hpasses⟩ := ih
      obtain ⟨others, hothers, hpasses'⟩ := ih'
      refine ⟨others + 1 + steps, ?_, ?_⟩
      · simp only [Part.closing, List.length_append, List.length_cons, List.length_nil]
          at hsteps hothers ⊢
        omega
      · intro fuel brackets rest
        have hend := (delimited_comma (before ++ entries ++ bracket.close :: rest)).of_blank hafter
        have htext : key ++ (value ++ (after ++ ',' :: (before ++ entries))) ++ bracket.close :: rest =
            key ++ (value ++ (after ++ ',' :: (before ++ entries ++ bracket.close :: rest))) := by
          simp
        rw [htext, ← Nat.add_assoc, ← Nat.add_assoc, hpasses.entry hkey (fuel + others + 1) brackets hend,
          passOpen_comma hafter, List.append_assoc, passEntry_skipsBlanks before _ hbefore]
        exact hpasses' fuel brackets rest

/-- A value is passed over up to its end. -/
theorem skip_takes {text : List Char} (h : ValueText text) : skip.Takes text () := by
  intro blanks rest hblanks hrest
  obtain ⟨steps, hsteps, hpasses⟩ := exists_passes h
  obtain ⟨fuel, hfuel⟩ : ∃ fuel, (blanks ++ (text ++ rest)).length + 2 = fuel + 1 + steps := by
    refine ⟨(blanks ++ (text ++ rest)).length + 1 - steps, ?_⟩
    simp only [Part.closing, List.append_nil] at hsteps
    simp only [List.length_append]
    omega
  rw [skip, run_bind_of_ok (get_run _), hfuel, passOpen_skipsBlanks _ _ blanks _ hblanks,
    hpasses (fuel + 1) [] rest hrest]
  rfl

end Reader

end Ranging.Json
