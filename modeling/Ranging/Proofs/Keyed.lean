import Mathlib.Data.Finset.Card
import Mathlib.Data.Finset.Dedup
import Mathlib.Data.List.Nodup
import Mathlib.Data.List.Perm.Subperm
import Ranging.Anchor.Id

/-!
# Lists with one element for each anchor

The table of anchors and the lists that an anchor fills are both lists in which no two elements
have the same key. In such a list a search by key finds an element exactly if it is there.
Replacing one element, by one with the same key or with a key that is new to the list, keeps keys
apart, and changes what a search finds for the two keys involved only.
-/

namespace Ranging.Keyed

variable {α : Type} {key : α → AnchorId} {l : List α}

/-- A search by key finds the one element with that key. -/
theorem find?_eq_some_iff (h : (l.map key).Nodup) {k : AnchorId} {a : α} :
    l.find? (key · = k) = some a ↔ a ∈ l ∧ key a = k := by
  constructor
  · intro ha
    exact ⟨List.mem_of_find?_eq_some ha, by simpa using List.find?_some ha⟩
  · rintro ⟨hmem, rfl⟩
    have hsome : (l.find? (key · = key a)).isSome := by
      rw [List.find?_isSome]
      exact ⟨a, hmem, by simp⟩
    obtain ⟨b, hb⟩ := Option.isSome_iff_exists.1 hsome
    have hkey : key b = key a := by simpa using List.find?_some hb
    rw [hb, List.inj_on_of_nodup_map h (List.mem_of_find?_eq_some hb) hmem hkey]

/-- Identifiers have one byte, so a list with one element for each anchor has at most 256. -/
theorem length_le (h : (l.map key).Nodup) : l.length ≤ 256 := by
  have hinjective : Function.Injective fun k : AnchorId => k.val.toNat := by
    rintro ⟨a⟩ ⟨b⟩ hab
    exact congrArg AnchorId.mk (UInt8.toNat_inj.1 hab)
  have hsubset : (l.map key).map (·.val.toNat) ⊆ List.range 256 := by
    intro n hn
    obtain ⟨k, -, rfl⟩ := List.mem_map.1 hn
    exact List.mem_range.2 k.val.toNat_lt
  have hle := (List.subperm_of_subset (h.map hinjective) hsubset).length_le
  rwa [List.length_map, List.length_map, List.length_range] at hle

/-- There are at most as many elements as possible keys. -/
theorem length_le_card (h : (l.map key).Nodup) {ks : Finset AnchorId} (hks : ∀ a ∈ l, key a ∈ ks) :
    l.length ≤ ks.card := by
  have hsubset : (l.map key).toFinset ⊆ ks := by
    intro k hk
    obtain ⟨a, ha, rfl⟩ := List.mem_map.1 (List.mem_toFinset.1 hk)
    exact hks a ha
  have hle := Finset.card_le_card hsubset
  rwa [List.toFinset_card_of_nodup h, List.length_map] at hle

/-- There are fewer if a possible key is missing. -/
theorem length_lt_card (h : (l.map key).Nodup) {ks : Finset AnchorId} (hks : ∀ a ∈ l, key a ∈ ks)
    {k : AnchorId} (hk : k ∈ ks) (hmissing : ∀ a ∈ l, key a ≠ k) : l.length < ks.card := by
  have herase : ∀ a ∈ l, key a ∈ ks.erase k := by
    intro a ha
    exact Finset.mem_erase.2 ⟨hmissing a ha, hks a ha⟩
  exact Nat.lt_of_le_of_lt (length_le_card h herase) (Finset.card_erase_lt_of_mem hk)

/-- A search fails exactly if the key is not there. -/
theorem find?_eq_none_iff {k : AnchorId} :
    l.find? (key · = k) = none ↔ ∀ a ∈ l, key a ≠ k := by
  simp

/-- Replacing an element by one with the same key leaves the keys as they are. -/
theorem map_set_of_key_eq {i : Nat} {old a : α} (hold : l[i]? = some old) (hkey : key old = key a) :
    (l.set i a).map key = l.map key := by
  obtain ⟨hlt, rfl⟩ := List.getElem?_eq_some_iff.1 hold
  rw [List.map_set, ← hkey, ← List.getElem_map key (h := by simpa using hlt)]
  exact List.set_getElem_self _

/-- An element may be replaced by one with its own key, or with a key of no other element. -/
theorem nodup_set (h : (l.map key).Nodup) {i : Nat} {old a : α} (hold : l[i]? = some old)
    (hkey : key old = key a ∨ ∀ b ∈ l, key b ≠ key a) :
    ((l.set i a).map key).Nodup := by
  rcases hkey with hsame | hnew
  · rwa [map_set_of_key_eq hold hsame]
  · rw [List.map_set]
    refine h.set ?_
    intro hmem
    obtain ⟨b, hb, hbk⟩ := List.mem_map.1 hmem
    exact hnew b hb hbk

theorem nodup_append (h : (l.map key).Nodup) {a : α} (hnew : ∀ b ∈ l, key b ≠ key a) :
    ((l ++ [a]).map key).Nodup := by
  rw [List.map_append, List.nodup_append]
  refine ⟨h, List.nodup_singleton _, ?_⟩
  intro k hk k' hk'
  obtain ⟨b, hb, rfl⟩ := List.mem_map.1 hk
  obtain rfl : k' = key a := by simpa using hk'
  exact hnew b hb

/-- Under another key than the new one, the replaced element is gone and all others are found as
before. -/
theorem find?_set_of_ne (h : (l.map key).Nodup) {i : Nat} {old a : α} (hold : l[i]? = some old)
    (hkey : key old = key a ∨ ∀ b ∈ l, key b ≠ key a) {k : AnchorId} (hk : k ≠ key a) :
    (l.set i a).find? (key · = k) =
      if key old = k then none else l.find? (key · = k) := by
  obtain ⟨hlt, hget⟩ := List.getElem?_eq_some_iff.1 hold
  have hset := nodup_set h hold hkey
  have hmem : ∀ b, key b = k → (b ∈ l.set i a ↔ b ∈ l ∧ key old ≠ k) := by
    intro b hb
    rw [List.mem_iff_getElem?, List.mem_iff_getElem?]
    constructor
    · rintro ⟨j, hj⟩
      have hji : i ≠ j := by
        rintro rfl
        rw [List.getElem?_set_self hlt] at hj
        exact hk (by rw [← hb, ← Option.some.inj hj])
      rw [List.getElem?_set_ne hji] at hj
      refine ⟨⟨j, hj⟩, ?_⟩
      intro hsame
      obtain ⟨hj', hgetj⟩ := List.getElem?_eq_some_iff.1 hj
      have hi : i < (l.map key).length := by simpa using hlt
      have hj : j < (l.map key).length := by simpa using hj'
      have hkeys : (l.map key)[i] = (l.map key)[j] := by
        rw [List.getElem_map, List.getElem_map, hget, hgetj, hsame, hb]
      exact hji ((h.getElem_inj_iff).1 hkeys)
    · rintro ⟨⟨j, hj⟩, hold'⟩
      refine ⟨j, ?_⟩
      rw [List.getElem?_set_ne, hj]
      rintro rfl
      rw [hold] at hj
      exact hold' (by rw [Option.some.inj hj, hb])
  cases hfind : (l.set i a).find? (key · = k) with
  | some b =>
      obtain ⟨hb, hbk⟩ := (find?_eq_some_iff hset).1 hfind
      obtain ⟨hbl, hne⟩ := (hmem b hbk).1 hb
      rw [if_neg hne, (find?_eq_some_iff h).2 ⟨hbl, hbk⟩]
  | none =>
      by_cases hsame : key old = k
      · rw [if_pos hsame]
      · rw [if_neg hsame]
        refine (find?_eq_none_iff.2 ?_).symm
        intro b hb hbk
        exact find?_eq_none_iff.1 hfind b ((hmem b hbk).2 ⟨hb, hsame⟩) hbk

end Ranging.Keyed
