import Ranging.Json.Layout
import Ranging.Proofs.ValueText

/-!
# Records in the text of a document

A record is written as an object. `RowText` describes the texts of its members, with blanks anywhere
between the tokens and with any texts of values. Reading goes from member to member, and
`Layout.members_run` says what becomes of those at the front of the text: if each of them is taken by a
field that has not been read before, or has a name that the layout does not know and any JSON value,
they are all taken, and what is read afterwards does not depend on their text any more.

So an object is read if all its members are (`Layout.read_takes_of_reads`). A record that is written
without blanks, with a member for each of its fields, is read back (`Layout.read_takes`), and reading it
fails like the first member that is not taken (`Layout.read_fails`).
-/

namespace Ranging.Json

/-! ## Names that stand for values -/

/-- A string, or an object whose only member has this string as its name and is null. -/
inductive ChoiceText (name : String) : List Char → Prop where
  | string {text : List Char} : StringText name.toList text → ChoiceText name ('"' :: (text ++ ['"']))
  | object {before text colon gap after : List Char} : Blank before → StringText name.toList text →
    Blank colon → Blank gap → Blank after →
    ChoiceText name ('{' :: (before ++ '"' :: (text ++ '"' :: (colon ++ ':' ::
      (gap ++ ("null".toList ++ (after ++ ['}'])))))))

namespace Reader

/-- A name that stands for a value is read as this value. -/
theorem choice_takes [Conversion] {α : Type} {ofName? : String → Option α} {name : String}
    {value : α} (h : ofName? name = some value) {text : List Char} (htext : ChoiceText name text) :
    (choice ofName?).Takes text value := by
  have hquote : isBlank '"' = false := rfl
  have hbrace : isBlank '{' = false := rfl
  have hcolon : isBlank ':' = false := rfl
  have hletter : isBlank 'n' = false := rfl
  have hclose : isBlank '}' = false := rfl
  have hskips : (choice ofName?).SkipsBlanks := next_skipsBlanks.bind _
  refine hskips.takes fun rest _ => ?_
  cases htext with
  | @string text hname =>
      rw [List.cons_append, List.append_assoc, choice, run_bind_of_ok (next_run hquote _)]
      -- After the quote the reader takes a name, and the value that it stands for.
      refine (run_bind_of_ok (drop_run _ _)).trans
        ((run_bind_of_ok (stringText_run hname _)).trans ?_)
      rw [h]
      rfl
  | @object before text colon gap after hbefore hname hafterName hgap hafter =>
      have hnull : next.run (gap ++ 'n' :: ("ull".toList ++ (after ++ '}' :: rest))) =
          .ok ('n', 'n' :: ("ull".toList ++ (after ++ '}' :: rest))) :=
        next_run_append hgap hletter _
      simp only [List.cons_append, List.append_assoc, List.nil_append]
      rw [choice, run_bind_of_ok (next_run hbrace _)]
      refine (run_bind_of_ok (drop_run _ _)).trans
        ((run_bind_of_ok (punctuation_run_append hbefore hquote _)).trans
          ((run_bind_of_ok (stringText_run hname _)).trans ?_))
      rw [h]
      refine (run_bind_of_ok (punctuation_run_append hafterName hcolon _)).trans
        ((run_bind_of_ok hnull).trans ((run_bind_of_ok (literal_run "null".toList _)).trans
          ((run_bind_of_ok (punctuation_run_append hafter hclose _)).trans ?_)))
      rfl

end Reader

/-- A field is read as the change that its value makes. -/
theorem Reader.Takes.map {α β : Type} {r : Reader α} {text : List Char} {value : α}
    (h : r.Takes text value) (f : α → β) : (f <$> r).Takes text (f value) := by
  intro blanks rest hblanks hrest
  exact Reader.run_map_of_ok (h blanks rest hblanks hrest)

/-- The reader fails on this text, whatever follows it. -/
def Reader.Fails {α : Type} (r : Reader α) (text : List Char) (failure : Failure) : Prop :=
  ∀ rest, Delimited rest → r.run (text ++ rest) = .error failure

theorem Reader.Fails.map {α β : Type} {r : Reader α} {text : List Char} {failure : Failure}
    (h : r.Fails text failure) (f : α → β) : (f <$> r).Fails text failure := by
  intro rest hrest
  rw [StateT.run_map, h rest hrest]
  rfl

/-! ## Members -/

/-- What stands in front of a member: blanks, and a comma among them unless it is the first one. -/
inductive LeadText : Bool → List Char → Prop where
  | first {blanks : List Char} : Blank blanks → LeadText true blanks
  | next {before after : List Char} : Blank before → Blank after →
    LeadText false (before ++ ',' :: after)

/-- What stands in front of a later member ends the value before it. -/
theorem LeadText.delimited {lead : List Char} (h : LeadText false lead) (rest : List Char) :
    Delimited (lead ++ rest) := by
  cases h with
  | next hbefore _ =>
      rw [List.append_assoc]
      exact (delimited_comma _).of_blank hbefore

/-- Members in a row, each with its name and the text of its value. -/
inductive RowText : Bool → List (String × List Char) → List Char → Prop where
  | nil {isFirst : Bool} : RowText isFirst [] []
  | cons {isFirst : Bool} {lead spelling colon gap text : List Char} {name : String}
    {value : List Char} {members : List (String × List Char)} :
    LeadText isFirst lead → StringText name.toList spelling → Blank colon → Blank gap →
    RowText false members text →
    RowText isFirst ((name, value) :: members)
      (lead ++ '"' :: (spelling ++ '"' :: (colon ++ ':' :: (gap ++ (value ++ text)))))

/-- An object with these members. -/
inductive ObjectText (members : List (String × List Char)) : List Char → Prop where
  | mk {row blanks : List Char} : RowText true members row → Blank blanks →
    ObjectText members ('{' :: (row ++ (blanks ++ ['}'])))

/-- What follows a member ends its value. -/
theorem RowText.delimited {members : List (String × List Char)} {text rest : List Char}
    (h : RowText false members text) (hrest : Delimited rest) : Delimited (text ++ rest) := by
  cases h with
  | nil => exact hrest
  | cons hlead _ _ _ _ =>
      rw [List.append_assoc]
      exact hlead.delimited _

theorem RowText.length_le {isFirst : Bool} {members : List (String × List Char)} {text : List Char}
    (h : RowText isFirst members text) : members.length ≤ text.length := by
  induction h with
  | nil => exact Nat.zero_le _
  | cons _ _ _ _ _ ih =>
      simp only [List.length_append, List.length_cons]
      omega

namespace Layout

variable {α : Type} {l : Layout α}

/-- Each of some members is taken by a field that has not been read before, or has an unknown name and
any value. They make a change, and the fields that have been read after them are known. -/
inductive Reads (l : Layout α) :
    List String → List (String × List Char) → (α → α) → List String → Prop where
  | nil {seen : List String} : l.Reads seen [] id seen
  | known {seen seen' : List String} {name : String} {value : List Char}
    {members : List (String × List Char)} {f : Field α} {change change' : α → α} :
    seen.contains name = false → l.field? name = some f → f.read.Takes value change →
    l.Reads (name :: seen) members change' seen' →
    l.Reads seen ((name, value) :: members) (change' ∘ change) seen'
  | unknown {seen seen' : List String} {name : String} {value : List Char}
    {members : List (String × List Char)} {change : α → α} :
    l.field? name = none → ValueText value → l.Reads seen members change seen' →
    l.Reads seen ((name, value) :: members) change seen'

section Steps

variable {isFirst : Bool} {lead spelling colon : List Char} {name : String}

/-- A member is read from its name on. -/
theorem members_run_lead (hlead : LeadText isFirst lead) (fuel : ℕ) (value : α) (seen : List String)
    (rest : List Char) :
    (l.members (fuel + 1) isFirst value seen).run (lead ++ '"' :: rest) =
      (l.member value seen >>= fun read => l.members fuel false read.1 read.2).run rest := by
  have hquote : isBlank '"' = false := rfl
  have hcomma : isBlank ',' = false := rfl
  rw [members]
  cases hlead with
  | first hblanks =>
      rw [Reader.run_bind_of_ok (Reader.next_run_append hblanks hquote _)]
      exact Reader.run_bind_of_ok (Reader.punctuation_run hquote rest)
  | @next before after hbefore hafter =>
      rw [List.append_assoc, List.cons_append,
        Reader.run_bind_of_ok (Reader.next_run_append hbefore hcomma _)]
      exact (Reader.run_bind_of_ok (Reader.punctuation_run hcomma _)).trans
        (Reader.run_bind_of_ok (Reader.punctuation_run_append hafter hquote rest))

/-- The name of a member leads to its field. -/
theorem member_run_known {seen : List String} {f : Field α} (hname : StringText name.toList spelling)
    (hcolon : Blank colon) (hseen : seen.contains name = false) (hfield : l.field? name = some f)
    (value : α) (rest : List Char) :
    (l.member value seen).run (spelling ++ '"' :: (colon ++ ':' :: rest)) =
      (f.read >>= fun change => pure (change value, name :: seen)).run rest := by
  have hmark : isBlank ':' = false := rfl
  rw [member, Reader.run_bind_of_ok (Reader.stringText_run hname _), hfield]
  simp only [hseen, Bool.false_eq_true, if_false]
  exact Reader.run_bind_of_ok (Reader.punctuation_run_append hcolon hmark rest)

/-- The value of a member with an unknown name is passed over. -/
theorem member_run_unknown (hname : StringText name.toList spelling) (hcolon : Blank colon)
    (hfield : l.field? name = none) (value : α) (seen : List String) (rest : List Char) :
    (l.member value seen).run (spelling ++ '"' :: (colon ++ ':' :: rest)) =
      (Reader.skip >>= fun _ => pure (value, seen)).run rest := by
  have hmark : isBlank ':' = false := rfl
  rw [member, Reader.run_bind_of_ok (Reader.stringText_run hname _), hfield]
  exact Reader.run_bind_of_ok (Reader.punctuation_run_append hcolon hmark rest)

end Steps

/-- Members that the layout reads are taken, one after the other, and reading goes on after them. -/
theorem members_run (fuel : ℕ) {isFirst : Bool} {members : List (String × List Char)}
    {text : List Char} (hrow : RowText isFirst members text) {seen seen' : List String}
    {change : α → α} (h : l.Reads seen members change seen') (value : α) {rest : List Char}
    (hrest : members ≠ [] → Delimited rest) :
    (l.members (fuel + members.length) isFirst value seen).run (text ++ rest) =
      (l.members fuel (isFirst && members.isEmpty) (change value) seen').run rest := by
  induction hrow generalizing seen change value with
  | nil =>
      cases h
      rw [List.isEmpty_nil, Bool.and_true]
      rfl
  | @cons isFirst lead spelling colon gap text name valueText members hlead hname hcolon hgap hrow ih =>
      have hend := hrow.delimited (hrest (List.cons_ne_nil _ _))
      have htext : lead ++ '"' :: (spelling ++ '"' :: (colon ++ ':' :: (gap ++ (valueText ++ text)))) ++
          rest = lead ++ '"' :: (spelling ++ '"' :: (colon ++ ':' ::
            (gap ++ (valueText ++ (text ++ rest))))) := by simp
      rw [htext, List.length_cons, ← Nat.add_assoc, members_run_lead hlead, List.isEmpty_cons,
        Bool.and_false]
      cases h with
      | @known _ _ _ _ _ f first others hseen hfield htakes hreads =>
          have hmember := (member_run_known hname hcolon hseen hfield value _).trans
            (Reader.run_bind_of_ok (htakes gap _ hgap hend))
          exact (Reader.run_bind_of_ok hmember).trans
            (ih hreads (first value) fun _ => hrest (List.cons_ne_nil _ _))
      | unknown hfield hvalue hreads =>
          have hskip := Reader.skip_takes hvalue gap _ hgap hend
          have hmember := (member_run_unknown hname hcolon hfield value seen _).trans
            (Reader.run_bind_of_ok hskip)
          exact (Reader.run_bind_of_ok hmember).trans
            (ih hreads value fun _ => hrest (List.cons_ne_nil _ _))

/-- Reading an object takes the members that the layout reads, and has not run out of fuel then. -/
theorem exists_read_run [Conversion] {members : List (String × List Char)} {text : List Char}
    (hrow : RowText true members text) {seen : List String} {change : α → α}
    (h : l.Reads [] members change seen) {rest : List Char} (hrest : members ≠ [] → Delimited rest) :
    ∃ fuel, l.read.run ('{' :: (text ++ rest)) =
      (l.members (fuel + 1) members.isEmpty (change l.start) seen).run rest := by
  have hbrace : isBlank '{' = false := rfl
  have hlength := hrow.length_le
  obtain ⟨fuel, hfuel⟩ : ∃ fuel, (text ++ rest).length + 1 = fuel + 1 + members.length := by
    refine ⟨(text ++ rest).length - members.length, ?_⟩
    rw [List.length_append]
    omega
  refine ⟨fuel, ?_⟩
  have hmembers := members_run (fuel + 1) hrow h l.start hrest
  rw [Bool.true_and] at hmembers
  rw [← hmembers, ← hfuel, read, Reader.run_bind_of_ok (Reader.next_run hbrace _)]
  change (Reader.drop >>= fun _ => get >>= fun text =>
    l.members (text.length + 1) true l.start []).run _ = _
  rw [Reader.run_bind_of_ok (Reader.drop_run _ _), Reader.run_bind_of_ok (Reader.get_run _)]

theorem read_skipsBlanks [Conversion] : l.read.SkipsBlanks :=
  Reader.next_skipsBlanks.bind _

/-- An object whose members are all read is taken, if no required field is missing. -/
theorem read_takes_of_reads [Conversion] {members : List (String × List Char)} {text : List Char}
    (htext : ObjectText members text) {seen : List String} {change : α → α}
    (h : l.Reads [] members change seen) (hcomplete : l.isComplete seen = true) :
    l.read.Takes text (change l.start) := by
  refine read_skipsBlanks.takes fun rest _ => ?_
  obtain ⟨hrow, hblanks⟩ := htext
  rename_i row blanks
  have hbrace : isBlank '}' = false := rfl
  have hend : Delimited (blanks ++ '}' :: rest) :=
    (delimited_close .object rest).of_blank hblanks
  obtain ⟨fuel, hread⟩ := exists_read_run hrow h fun _ => hend
  have happend : '{' :: (row ++ (blanks ++ ['}'])) ++ rest =
      '{' :: (row ++ (blanks ++ '}' :: rest)) := by simp
  rw [happend, hread, Layout.members,
    Reader.run_bind_of_ok (Reader.next_run_append hblanks hbrace _), if_pos rfl,
    Reader.run_bind_of_ok (Reader.drop_run _ _), if_pos hcomplete]
  rfl

end Layout

/-! ## Records without blanks -/

/-- A member of an object, and what it changes in the record that is being read. -/
structure Member (α : Type) where
  name : String
  value : Json
  change : α → α

namespace Member

variable {α : Type}

/-- A member as a part of an object. -/
def toPair (m : Member α) : String × Json :=
  (m.name, m.value)

/-- A member with the text of its value. -/
def entry (m : Member α) : String × List Char :=
  (m.name, m.value.compact)

/-- What some members make of a record, one after the other. -/
def changeAll (ms : List (Member α)) (value : α) : α :=
  ms.foldl (fun value m => m.change value) value

/-- Members in a row. The first of an object has no comma in front. -/
def textAll : Bool → List (Member α) → List Char
  | _, [] => []
  | isFirst, m :: ms =>
    (if isFirst then [] else [',']) ++ (quote m.name ++ ':' :: (m.value.compact ++ textAll false ms))

theorem compactMembers_eq (ms : List (Member α)) :
    compactMembers (ms.map toPair) = textAll true ms := by
  induction ms with
  | nil => rfl
  | cons m ms ih =>
      cases ms with
      | nil => simp [textAll, toPair, compactMembers]
      | cons next ms =>
          change quote m.name ++ ':' :: (m.value.compact ++ ',' :: compactMembers _) = _
          rw [ih]
          simp [textAll]

theorem textAll_append (isFirst : Bool) (ms ms' : List (Member α)) :
    textAll isFirst (ms ++ ms') = textAll isFirst ms ++ textAll (isFirst && ms.isEmpty) ms' := by
  induction ms generalizing isFirst with
  | nil => rw [List.isEmpty_nil, Bool.and_true]; rfl
  | cons m ms ih => simp [textAll, ih]

theorem leadText (isFirst : Bool) : LeadText isFirst (if isFirst then [] else [',']) := by
  cases isFirst with
  | true => exact .first .nil
  | false => exact .next .nil .nil

/-- A row without blanks is one of the texts that members may have. -/
theorem rowText (isFirst : Bool) (ms : List (Member α)) :
    RowText isFirst (ms.map entry) (textAll isFirst ms) := by
  induction ms generalizing isFirst with
  | nil => exact .nil
  | cons m ms ih =>
      have hspelling := stringText_flatMap_escape m.name.toList
      have hrow : RowText isFirst ((m.name, m.value.compact) :: ms.map entry) _ :=
        .cons (leadText isFirst) hspelling .nil .nil (ih false)
      simpa [textAll, quote, entry] using hrow

/-- The text of an object. -/
theorem compact_object (ms : List (Member α)) :
    compact (.object (ms.map toPair)) = '{' :: (textAll true ms ++ ['}']) := by
  rw [compact, compactMembers_eq]

end Member

/-- A member is written under the name of a field, which takes its value. -/
def Field.Takes {α : Type} (f : Field α) (m : Member α) : Prop :=
  f.name = m.name ∧ f.read.Takes m.value.compact m.change

namespace Layout

variable {α : Type} {l : Layout α}

/-- Members have the names of the fields that take them. -/
theorem names_eq {fs : List (Field α)} {ms : List (Member α)} (h : List.Forall₂ Field.Takes fs ms) :
    ms.map Member.name = fs.map Field.name := by
  induction h with
  | nil => rfl
  | cons hfield _ ih => rw [List.map_cons, List.map_cons, ih, hfield.1]

section Fields

variable (hnodup : (l.fields.map Field.name).Nodup)

include hnodup

/-- A field has its name to itself. -/
theorem field?_eq {f : Field α} (hf : f ∈ l.fields) : l.field? f.name = some f := by
  rw [field?]
  generalize l.fields = fs at hnodup hf
  induction fs with
  | nil => cases hf
  | cons first fs ih =>
      obtain ⟨hfirst, hrest⟩ := List.nodup_cons.1 hnodup
      rcases List.mem_cons.1 hf with rfl | hmem
      · exact List.find?_cons_of_pos (decide_eq_true rfl)
      · have hne : first.name ≠ f.name := by
          intro heq
          rw [heq] at hfirst
          exact hfirst (List.mem_map_of_mem hmem)
        rw [List.find?_cons_of_neg (by simpa using hne)]
        exact ih hrest hmem

/-- Members that are written for fields of the layout are read. -/
theorem reads_of_takes {fs : List (Field α)} {ms : List (Member α)} {seen : List String}
    (hfields : ∀ f ∈ fs, f ∈ l.fields) (hnames : (seen.reverse ++ fs.map Field.name).Nodup)
    (h : List.Forall₂ Field.Takes fs ms) :
    l.Reads seen (ms.map Member.entry) (Member.changeAll ms) ((ms.map Member.name).reverse ++ seen) := by
  induction h generalizing seen with
  | nil => exact .nil
  | @cons f m fs ms hfield _ ih =>
      have hmem := hfields f List.mem_cons_self
      have hnew : f.name ∉ seen := by
        intro hseen
        have hdisjoint := List.disjoint_of_nodup_append hnames
        exact hdisjoint (List.mem_reverse.2 hseen) List.mem_cons_self
      have hknown : l.field? m.name = some f := by
        rw [← hfield.1]
        exact field?_eq hnodup hmem
      have hrest : l.Reads (m.name :: seen) (ms.map Member.entry) _ _ :=
        ih (fun g hg => hfields g (List.mem_cons_of_mem f hg)) (by rw [← hfield.1]; simpa using hnames)
      rw [List.map_cons, List.map_cons, List.reverse_cons, List.append_assoc, List.singleton_append]
      exact .known (by rw [← hfield.1]; simpa using hnew) hknown hfield.2 hrest

/-- A record is read back if each of its fields is. -/
theorem read_takes [Conversion] {v : Json} {ms : List (Member α)}
    (hv : v = .object (ms.map Member.toPair)) (h : List.Forall₂ Field.Takes l.fields ms) :
    l.read.Takes v.compact (Member.changeAll ms l.start) := by
  subst hv
  have hreads : l.Reads [] _ _ _ := reads_of_takes hnodup (fun _ hf => hf) hnodup h
  have hcomplete : l.isComplete ((ms.map Member.name).reverse ++ []) = true := by
    rw [isComplete, List.all_eq_true, names_eq h]
    intro f hf
    have hname : f.name ∈ l.fields.map Field.name := List.mem_map_of_mem hf
    simp [hname]
  have htext := ObjectText.mk (Member.rowText true ms) .nil
  rw [Member.compact_object]
  exact read_takes_of_reads htext hreads hcomplete

/-- Reading a record fails like the first field that is not read. -/
theorem read_fails [Conversion] {v : Json} {fs fs' : List (Field α)} {f : Field α} {m : Member α}
    {failure : Failure} (ms ms' : List (Member α))
    (hv : v = .object ((ms ++ m :: ms').map Member.toPair))
    (hfields : l.fields = fs ++ f :: fs') (h : List.Forall₂ Field.Takes fs ms)
    (hname : f.name = m.name) (hfails : f.read.Fails m.value.compact failure) :
    l.read.Fails v.compact failure := by
  intro rest _
  subst hv
  have hsplit : (fs.map Field.name ++ f.name :: fs'.map Field.name).Nodup := by
    simpa [hfields] using hnodup
  have hreads : l.Reads [] (ms.map Member.entry) (Member.changeAll ms)
      ((ms.map Member.name).reverse ++ []) := by
    apply reads_of_takes hnodup _ _ h
    · intro g hg
      rw [hfields]
      exact List.mem_append_left _ hg
    · exact hsplit.of_append_left
  have hseen : ((ms.map Member.name).reverse ++ []).contains m.name = false := by
    rw [names_eq h, ← hname]
    have hnew : f.name ∉ fs.map Field.name := by
      intro hmem
      exact List.disjoint_of_nodup_append hsplit hmem List.mem_cons_self
    simpa using hnew
  have hfield : l.field? m.name = some f := by
    rw [← hname]
    exact field?_eq hnodup (by simp [hfields])
  have hend : Delimited (Member.textAll false ms' ++ '}' :: rest) :=
    (Member.rowText false ms').delimited (delimited_close .object rest)
  have hnext : ms.map Member.entry ≠ [] →
      Delimited (Member.textAll (ms.map Member.entry).isEmpty (m :: ms') ++ '}' :: rest) := by
    intro hne
    rw [List.isEmpty_eq_false_iff.2 hne]
    exact (Member.rowText false (m :: ms')).delimited (delimited_close .object rest)
  obtain ⟨fuel, hread⟩ := exists_read_run (Member.rowText true ms) hreads hnext
  have htext : compact (.object ((ms ++ m :: ms').map Member.toPair)) ++ rest =
      '{' :: (Member.textAll true ms ++
        (Member.textAll (ms.map Member.entry).isEmpty (m :: ms') ++ '}' :: rest)) := by
    rw [Member.compact_object, Member.textAll_append]
    simp
  have hmember : Member.textAll (ms.map Member.entry).isEmpty (m :: ms') ++ '}' :: rest =
      (if (ms.map Member.entry).isEmpty then [] else [',']) ++ '"' :: (m.name.toList.flatMap escape ++
        '"' :: ([] ++ ':' :: (m.value.compact ++ (Member.textAll false ms' ++ '}' :: rest)))) := by
    simp [Member.textAll, quote]
  rw [htext, hread, hmember, members_run_lead (Member.leadText _)]
  refine Reader.run_bind_of_error ((member_run_known (stringText_flatMap_escape _) .nil hseen hfield
    _ _).trans (Reader.run_bind_of_error (hfails _ hend)))

end Fields

/-- A text that holds a record and nothing else but blanks around it. -/
theorem parse_append [Conversion] {before text after : List Char} {value : α}
    (hbefore : Blank before) (h : l.read.Takes text value) (hafter : Blank after) :
    l.parse (String.ofList (before ++ (text ++ after))) = .ok value := by
  have hend : Delimited after := by
    simpa using Delimited.nil.of_blank hafter
  have hrest : (after.dropWhile isBlank).isEmpty = true := by
    rw [List.isEmpty_iff, List.dropWhile_eq_nil_iff]
    exact hafter
  rw [parse, String.toList_ofList, h before after hbefore hend]
  change (if (after.dropWhile isBlank).isEmpty then pure value else throw .malformed :
    Except Failure α) = .ok value
  rw [if_pos hrest]
  rfl

theorem parse_of_takes [Conversion] {v : Json} {value : α} (h : l.read.Takes v.compact value) :
    l.parse v.compactText = .ok value := by
  have hparse := parse_append .nil h .nil
  rwa [List.append_nil, List.nil_append] at hparse

theorem parse_of_fails [Conversion] {v : Json} {failure : Failure}
    (h : l.read.Fails v.compact failure) :
    l.parse v.compactText = .error failure := by
  have hread := h [] .nil
  rw [List.append_nil] at hread
  rw [parse, compactText, String.toList_ofList, hread]
  rfl

end Layout

end Ranging.Json
