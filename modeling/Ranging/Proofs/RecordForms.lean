import Mathlib.Data.List.Nodup
import Mathlib.Data.List.Pairwise
import Mathlib.Data.List.Perm.Basic
import Ranging.Proofs.RecordText

/-!
# The forms of a record

An object may hold the fields of a record in any order, with others among them. Each field has a slot
for a value (`Slot`), and `Gives` says that the members of an object give every slot with a value this
value, once, and nothing to the other slots.

The members are read in the order in which they stand, and each one changes the record. Since the
changes of two slots commute, it is the same record that comes out of the slots in their own order, and
the slots without a value change nothing (`Layout.Suits.read_takes_object`). Neither the order of the
members nor the unknown ones have any influence on it.

A record may also be an array of the values of all its fields, which are read in the order of the fields
(`Layout.Suits.read_takes_array`).
-/

namespace Ranging.Json

/-! ## Slots -/

/-- A field of a record with a value for it, or with none. -/
structure Slot (α : Type) where
  name : String
  /-- The texts of the value, if there is one. -/
  texts : Option (List Char → Prop)
  /-- What the value makes of a record. -/
  change : α → α
  change_of_none : texts = none → ∀ a, change a = a

namespace Slot

variable {α β : Type}

/-- The slot of a field that can be read from a record and replaced in it. -/
def ofField (name : String) (value : Option β) (texts : β → List Char → Prop) (field : α → β)
    (replace : β → α → α) (h : ∀ a, replace (field a) a = a) : Slot α where
  name := name
  texts := value.map texts
  change a := replace (value.getD (field a)) a
  change_of_none hnone a := by
    rw [Option.map_eq_none_iff] at hnone
    rw [hnone]
    exact h a

/-- The order of two changes makes no difference. -/
def Commutes (s s' : Slot α) : Prop :=
  ∀ a, s'.change (s.change a) = s.change (s'.change a)

theorem Commutes.refl (s : Slot α) : s.Commutes s := fun _ => rfl

instance : Std.Symm (Commutes (α := α)) where
  symm _ _ h a := (h a).symm

/-- What some slots make of a record. -/
def changeAll (slots : List (Slot α)) (a : α) : α :=
  slots.foldl (fun a s => s.change a) a

theorem changeAll_eq_of_perm {slots slots' : List (Slot α)} (hperm : slots.Perm slots')
    (hcommute : ∀ s ∈ slots, ∀ s' ∈ slots, s.Commutes s') (a : α) :
    changeAll slots a = changeAll slots' a :=
  hperm.foldl_eq' (fun s hs s' hs' a => hcommute s hs s' hs' a) a

/-- A slot without a value is as good as none. -/
theorem changeAll_filter (slots : List (Slot α)) (a : α) :
    changeAll (slots.filter (·.texts.isSome)) a = changeAll slots a := by
  have hstep (a : α) (s : Slot α) :
      (if s.texts.isSome = true then s.change a else a) = s.change a := by
    split
    · rfl
    · rename_i hnone
      exact (s.change_of_none (by simpa using hnone) a).symm
  rw [changeAll, List.foldl_filter]
  simp only [hstep]
  rfl

end Slot

/-- A member gives a slot its value, or has another name than all of them and any value. -/
def Admits {α : Type} (slots : List (Slot α)) (m : String × List Char) : Prop :=
  (∃ s ∈ slots, s.name = m.1 ∧ ∃ texts ∈ s.texts, texts m.2) ∨
    m.1 ∉ slots.map Slot.name ∧ ValueText m.2

/-- Some members of an object give each of these slots its value, if it has one, and give no value to
the others. There may be members with other names. -/
structure Gives {α : Type} (slots : List (Slot α)) (members : List (String × List Char)) : Prop where
  once : ∀ s ∈ slots, s.texts.isSome → (members.map Prod.fst).count s.name = 1
  each : ∀ m ∈ members, Admits slots m

/-- Known members that are given once have different names. -/
theorem Gives.nodup_known {α : Type} {slots : List (Slot α)} {members : List (String × List Char)}
    (h : Gives slots members) :
    ((members.map Prod.fst).filter (· ∈ slots.map Slot.name)).Nodup := by
  rw [List.nodup_iff_count_le_one]
  intro name
  by_cases hname : name ∈ (members.map Prod.fst).filter (· ∈ slots.map Slot.name)
  · obtain ⟨hmember, hslot⟩ := List.mem_filter.1 hname
    obtain ⟨m, hm, rfl⟩ := List.mem_map.1 hmember
    rw [List.count_filter (p := (decide <| · ∈ slots.map Slot.name)) hslot]
    rcases h.each m hm with ⟨s, hs, hname, texts, htexts, -⟩ | ⟨hname, -⟩
    · rw [← hname]
      exact (h.once s hs (Option.isSome_of_mem htexts)).le
    · exact absurd (of_decide_eq_true hslot) hname
  · rw [List.count_eq_zero_of_not_mem hname]
    exact Nat.zero_le 1

/-- A text of a slot's value. -/
def Slot.Holds {α : Type} (s : Slot α) (text : List Char) : Prop :=
  ∃ texts ∈ s.texts, texts text ∧ ValueText text

/-- Values in a row. -/
inductive ItemsText : Bool → List (List Char) → List Char → Prop where
  | nil {isFirst : Bool} : ItemsText isFirst [] []
  | cons {isFirst : Bool} {lead value text : List Char} {values : List (List Char)} :
    LeadText isFirst lead → ItemsText false values text →
    ItemsText isFirst (value :: values) (lead ++ (value ++ text))

/-- What follows a value ends it. -/
theorem ItemsText.delimited {values : List (List Char)} {text rest : List Char}
    (h : ItemsText false values text) (hrest : Delimited rest) : Delimited (text ++ rest) := by
  cases h with
  | nil => exact hrest
  | cons hlead _ =>
      rw [List.append_assoc]
      exact hlead.delimited _

/-- An array of these values. -/
inductive ArrayText (values : List (List Char)) : List Char → Prop where
  | mk {row blanks : List Char} : ItemsText true values row → Blank blanks →
    ArrayText values ('[' :: (row ++ (blanks ++ [']'])))

/-- A record that gives these slots their values, as an object or as an array of all values. -/
inductive RecordText {α : Type} (slots : List (Slot α)) (text : List Char) : Prop where
  | object {members : List (String × List Char)} :
    ObjectText members text → Gives slots members → RecordText slots text
  | array {values : List (List Char)} :
    ArrayText values text → List.Forall₂ Slot.Holds slots values → RecordText slots text

/-- A field takes every text of its slot's value, which is there if the field is required. -/
structure Field.Fits {α : Type} (f : Field α) (s : Slot α) : Prop where
  name_eq : f.name = s.name
  isSome : f.isRequired = true → s.texts.isSome
  takes : ∀ texts ∈ s.texts, ∀ text, texts text → f.read.Takes text s.change

theorem Field.fits_optional {α β : Type} {name : String} {r : Reader β} {assign : β → α → α}
    {value : Option β} {texts : β → List Char → Prop} {field : α → β}
    {h : ∀ a, assign (field a) a = a} (htakes : ∀ b text, texts b text → r.Takes text b) :
    (Field.optional name r assign).Fits (.ofField name value texts field assign h) where
  name_eq := rfl
  isSome := nofun
  takes := by
    rintro _ htexts text htext
    obtain ⟨b, rfl, rfl⟩ := Option.mem_map.1 htexts
    exact (htakes b text htext).map assign

theorem Field.fits_required {α β : Type} {name : String} {r : Reader β} {assign : β → α → α}
    {value : β} {texts : β → List Char → Prop} {field : α → β} {h : ∀ a, assign (field a) a = a}
    (htakes : ∀ text, texts value text → r.Takes text value) :
    (Field.required name r assign).Fits (.ofField name (some value) texts field assign h) where
  name_eq := rfl
  isSome _ := rfl
  takes := by
    rintro _ htexts text htext
    obtain rfl := Option.some.inj htexts
    exact (htakes text htext).map assign

theorem exists_of_forall₂ {α β : Type} {r : α → β → Prop} {as : List α} {bs : List β}
    (h : List.Forall₂ r as bs) {b : β} (hb : b ∈ bs) : ∃ a ∈ as, r a b := by
  induction h with
  | nil => cases hb
  | cons hab _ ih =>
      rcases List.mem_cons.1 hb with rfl | hmem
      · exact ⟨_, List.mem_cons_self, hab⟩
      · obtain ⟨a, ha, hab⟩ := ih hmem
        exact ⟨a, List.mem_cons_of_mem _ ha, hab⟩

namespace Layout

variable {α : Type} {l : Layout α} {slots : List (Slot α)}

/-- The slots are those of the layout's fields. -/
structure Suits (l : Layout α) (slots : List (Slot α)) : Prop where
  names_nodup : (l.fields.map Field.name).Nodup
  fits : List.Forall₂ Field.Fits l.fields slots
  commute : slots.Pairwise Slot.Commutes

namespace Suits

theorem names_eq (h : l.Suits slots) : slots.map Slot.name = l.fields.map Field.name := by
  have hnames : List.Forall₂ (· = ·) (l.fields.map Field.name) (slots.map Slot.name) := by
    rw [List.forall₂_map_left_iff, List.forall₂_map_right_iff]
    exact h.fits.imp fun _ _ hfit => hfit.name_eq
  rw [List.forall₂_eq_eq_eq] at hnames
  exact hnames.symm

theorem exists_field (h : l.Suits slots) {s : Slot α} (hs : s ∈ slots) : ∃ f ∈ l.fields, f.Fits s :=
  exists_of_forall₂ h.fits hs

theorem exists_slot (h : l.Suits slots) {f : Field α} (hf : f ∈ l.fields) : ∃ s ∈ slots, f.Fits s :=
  exists_of_forall₂ h.fits.flip hf

theorem nodup_names (h : l.Suits slots) : (slots.map Slot.name).Nodup := by
  rw [h.names_eq]
  exact h.names_nodup

theorem commutes (h : l.Suits slots) {s s' : Slot α} (hs : s ∈ slots) (hs' : s' ∈ slots) :
    s.Commutes s' :=
  h.commute.forall_of_forall (fun s _ => Slot.Commutes.refl s) hs hs'

theorem field?_eq_none (h : l.Suits slots) {name : String} (hname : name ∉ slots.map Slot.name) :
    l.field? name = none := by
  rw [h.names_eq] at hname
  rw [field?, List.find?_eq_none]
  intro f hf heq
  exact hname (List.mem_map.2 ⟨f, hf, of_decide_eq_true heq⟩)

/-- Members are read if each one gives a value to a slot that has not been read before, or is unknown.
They have been read into the slots in the order in which the members stand. -/
theorem exists_reads (h : l.Suits slots) {members : List (String × List Char)} {seen : List String}
    (heach : ∀ m ∈ members, Admits slots m)
    (hnew : (seen ++ (members.map Prod.fst).filter (· ∈ slots.map Slot.name)).Nodup) :
    ∃ read : List (Slot α),
      l.Reads seen members (Slot.changeAll read) ((read.map Slot.name).reverse ++ seen) ∧
      (∀ s ∈ read, s ∈ slots ∧ s.texts.isSome) ∧
      read.map Slot.name = (members.map Prod.fst).filter (· ∈ slots.map Slot.name) := by
  induction members generalizing seen with
  | nil => exact ⟨[], .nil, nofun, rfl⟩
  | cons m members ih =>
      have hrest : ∀ m ∈ members, Admits slots m := fun m' hm' => heach m' (List.mem_cons_of_mem m hm')
      rw [List.map_cons] at hnew ⊢
      rcases heach m List.mem_cons_self with ⟨s, hs, hname, texts, htexts, htext⟩ | ⟨hname, hvalue⟩
      · have hmem : m.1 ∈ slots.map Slot.name := List.mem_map.2 ⟨s, hs, hname⟩
        obtain ⟨f, hf, hfit⟩ := h.exists_field hs
        have hfield : l.field? m.1 = some f := by
          rw [← hname, ← hfit.name_eq]
          exact field?_eq h.names_nodup hf
        simp only [List.filter_cons, hmem, decide_true, if_true] at hnew ⊢
        have hseen : seen.contains m.1 = false := by
          have hdisjoint := List.disjoint_of_nodup_append hnew
          simpa using fun hseen => hdisjoint hseen List.mem_cons_self
        have hnew : ((m.1 :: seen) ++ _).Nodup := List.nodup_middle.1 hnew
        obtain ⟨read, hreads, hread, hnames⟩ := ih hrest hnew
        refine ⟨s :: read, ?_, ?_, ?_⟩
        · rw [List.map_cons, List.reverse_cons, List.append_assoc, List.singleton_append, hname]
          exact .known hseen hfield (hfit.takes texts htexts m.2 htext) hreads
        · exact List.forall_mem_cons.2 ⟨⟨hs, Option.isSome_of_mem htexts⟩, hread⟩
        · rw [List.map_cons, hnames, hname]
      · simp only [List.filter_cons, hname, decide_false, Bool.false_eq_true, if_false] at hnew ⊢
        obtain ⟨read, hreads, hread, hnames⟩ := ih hrest hnew
        exact ⟨read, .unknown (h.field?_eq_none hname) hvalue hreads, hread, hnames⟩

/-- An object that gives the slots their values is read as the record that they make. -/
theorem read_takes_object [Conversion] (h : l.Suits slots) {members : List (String × List Char)}
    {text : List Char} (htext : ObjectText members text) (hgives : Gives slots members) :
    l.read.Takes text (Slot.changeAll slots l.start) := by
  obtain ⟨read, hreads, hread, hnames⟩ :=
    h.exists_reads hgives.each (List.nodup_append.2 ⟨List.nodup_nil, hgives.nodup_known, nofun⟩)
  have hnodup : (read.map Slot.name).Nodup := by
    rw [hnames]
    exact hgives.nodup_known
  have hall : ∀ s ∈ slots, s.texts.isSome → s ∈ read := by
    intro s hs hsome
    have hmember : s.name ∈ members.map Prod.fst := by
      rw [← List.count_pos_iff, hgives.once s hs hsome]
      exact Nat.one_pos
    have hname : s.name ∈ read.map Slot.name := by
      rw [hnames, List.mem_filter]
      exact ⟨hmember, decide_eq_true (List.mem_map_of_mem hs)⟩
    obtain ⟨s', hs', heq⟩ := List.mem_map.1 hname
    rwa [← List.inj_on_of_nodup_map h.nodup_names (hread s' hs').1 hs heq]
  -- The members have been read into the slots with a value, in another order.
  have hperm : read.Perm (slots.filter (·.texts.isSome)) := by
    refine (List.perm_ext_iff_of_nodup hnodup.of_map (h.nodup_names.of_map.filter _)).2 fun s => ?_
    rw [List.mem_filter]
    exact ⟨hread s, fun hs => hall s hs.1 hs.2⟩
  have hchange : Slot.changeAll read l.start = Slot.changeAll slots l.start := by
    rw [Slot.changeAll_eq_of_perm hperm fun s hs s' hs' => h.commutes (hread s hs).1 (hread s' hs').1,
      Slot.changeAll_filter]
  have hcomplete : l.isComplete ((read.map Slot.name).reverse ++ []) = true := by
    rw [isComplete, List.all_eq_true]
    intro f hf
    obtain ⟨s, hs, hfit⟩ := h.exists_slot hf
    cases hrequired : f.isRequired with
    | false => rfl
    | true =>
        have hname : f.name ∈ read.map Slot.name := by
          rw [hfit.name_eq]
          exact List.mem_map_of_mem (hall s hs (hfit.isSome hrequired))
        simpa using hname
  rw [← hchange]
  exact read_takes_of_reads htext hreads hcomplete

end Suits

/-! ## Arrays -/

/-- An array has another item if something stands in front of its bracket. -/
theorem hasItem_run {isFirst : Bool} {lead : List Char} (hlead : LeadText isFirst lead) {c : Char}
    (hc : Starts c) (rest : List Char) :
    (hasItem isFirst).run (lead ++ c :: rest) = .ok (true, c :: rest) := by
  have hcomma : isBlank ',' = false := rfl
  rw [hasItem]
  cases hlead with
  | first hblanks =>
      rw [Reader.run_bind_of_ok (Reader.next_run_append hblanks hc.not_blank rest), if_neg hc.ne_array]
      rfl
  | @next before after hbefore hafter =>
      have hnext : (Reader.next >>= fun d => if d = ']' then throw .malformed else pure true).run
          (after ++ c :: rest) = .ok (true, c :: rest) := by
        rw [Reader.run_bind_of_ok (Reader.next_run_append hafter hc.not_blank rest), if_neg hc.ne_array]
        rfl
      rw [List.append_assoc, List.cons_append,
        Reader.run_bind_of_ok (Reader.next_run_append hbefore hcomma _)]
      exact (Reader.run_bind_of_ok (Reader.punctuation_run hcomma _)).trans hnext

/-- The values of all fields are taken in their order. -/
theorem items_run {fs : List (Field α)} {values : List (List Char)} {isFirst : Bool} {text : List Char}
    (hfits : List.Forall₂ Field.Fits fs slots) (hvalues : List.Forall₂ Slot.Holds slots values)
    (htext : ItemsText isFirst values text) (value : α) {rest : List Char} (hrest : Delimited rest) :
    (items isFirst value fs).run (text ++ rest) = .ok (Slot.changeAll slots value, rest) := by
  induction hfits generalizing values isFirst text value with
  | nil =>
      cases hvalues
      cases htext
      rfl
  | @cons f s fs slots hfit _ ih =>
      cases hvalues with
      | @cons _ valueText _ values hvalue hvalues =>
          cases htext with
          | @cons _ lead _ text _ hlead htext =>
              obtain ⟨texts, htexts, hmem, hvalueText⟩ := hvalue
              obtain ⟨c, others, rfl, hc⟩ := hvalueText.exists_cons
              have hread := hfit.takes texts htexts _ hmem [] _ .nil (htext.delimited hrest)
              have happend : lead ++ (c :: others ++ text) ++ rest =
                  lead ++ c :: (others ++ (text ++ rest)) := by simp
              rw [happend, items, Reader.run_bind_of_ok (hasItem_run hlead hc _), if_pos rfl]
              exact (Reader.run_bind_of_ok hread).trans (ih hvalues htext (s.change value))

/-- An array of the slots' values is read as the record that they make. -/
theorem Suits.read_takes_array [Conversion] (h : l.Suits slots) {values : List (List Char)}
    {text : List Char} (htext : ArrayText values text)
    (hvalues : List.Forall₂ Slot.Holds slots values) :
    l.read.Takes text (Slot.changeAll slots l.start) := by
  refine read_skipsBlanks.takes fun rest _ => ?_
  obtain ⟨hitems, hblanks⟩ := htext
  rename_i row blanks
  have hopening : isBlank '[' = false := rfl
  have hclose : isBlank ']' = false := rfl
  have hend : Delimited (blanks ++ ']' :: rest) := (delimited_close .array rest).of_blank hblanks
  have happend : '[' :: (row ++ (blanks ++ [']'])) ++ rest =
      '[' :: (row ++ (blanks ++ ']' :: rest)) := by simp
  rw [happend, read, Reader.run_bind_of_ok (Reader.next_run hopening _)]
  refine (Reader.run_bind_of_ok (Reader.drop_run _ _)).trans
    ((Reader.run_bind_of_ok (items_run h.fits hvalues hitems l.start hend)).trans ?_)
  exact Reader.run_bind_of_ok (Reader.punctuation_run_append hblanks hclose rest)

/-- A record is taken in both forms. -/
theorem Suits.read_takes [Conversion] (h : l.Suits slots) {text : List Char}
    (htext : RecordText slots text) : l.read.Takes text (Slot.changeAll slots l.start) := by
  cases htext with
  | object hobject hgives => exact h.read_takes_object hobject hgives
  | array harray hvalues => exact h.read_takes_array harray hvalues

end Layout

end Ranging.Json
