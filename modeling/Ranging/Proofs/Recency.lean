import Mathlib.Data.Finset.Card
import Mathlib.Data.Finset.Dedup
import Mathlib.Data.List.Dedup

/-!
# Keeping what came up last

Events happen one after the other, each of them under a key. A store of bounded size takes in the key
of every event, and when it is full a new key takes the place of one that came up longest ago. That
happens in the table of anchors and in the lists of neighbours, wherever they keep their places.

Such a store is as full as the number of keys allows, and no key outside it came up later than one
inside (`Kept`). Each of the three ways to take in a key preserves this. If no two events happen at the
same time, it says which keys are in the store: those that came up most recently (`Kept.mem_iff`).
-/

namespace Ranging.Recency

variable {ε κ : Type} [DecidableEq κ] {key : ε → κ} {time : ε → Nat}

/-! ## The order in which keys came up -/

/-- The last event of a key. -/
def last? (key : ε → κ) (es : List ε) (k : κ) : Option ε :=
  (es.filter (key · = k)).getLast?

/-- The keys that came up, the last one first. -/
def latest (key : ε → κ) (es : List ε) : List κ :=
  (es.map key).dedup.reverse

theorem last?_concat (es : List ε) (e : ε) (k : κ) :
    last? key (es ++ [e]) k = if key e = k then some e else last? key es k := by
  by_cases hk : key e = k <;> simp [last?, List.filter_append, hk]

theorem mem_of_last? {es : List ε} {k : κ} {e : ε} (h : last? key es k = some e) :
    e ∈ es ∧ key e = k := by
  simpa using List.mem_filter.1 (List.mem_of_getLast? h)

theorem exists_last?_iff {es : List ε} {k : κ} :
    (∃ e, last? key es k = some e) ↔ k ∈ es.map key := by
  rw [← Option.isSome_iff_exists, last?, List.getLast?_isSome, ne_eq, List.filter_eq_nil_iff]
  simp

/-- If no two events happen at the same time, the keys further to the front came up later. -/
theorem pairwise_latest (key : ε → κ) {es : List ε} (h : es.Pairwise (time · < time ·)) :
    (latest key es).Pairwise fun x y =>
      ∀ p q, last? key es x = some p → last? key es y = some q → time q < time p := by
  rw [latest, List.pairwise_reverse]
  induction es with
  | nil => exact List.Pairwise.nil
  | cons e es ih =>
      obtain ⟨he, hes⟩ := List.pairwise_cons.1 h
      -- An event at the front does not matter for a key that comes up again.
      have hlast : ∀ k ∈ es.map key, last? key (e :: es) k = last? key es k := by
        intro k hk
        obtain ⟨p, hp⟩ := exists_last?_iff.2 hk
        rw [hp, last?, List.filter_cons]
        split
        · rw [List.getLast?_cons, ← last?, hp]
          rfl
        · exact hp
      have hrest := (ih hes).imp_of_mem (S := fun x y => ∀ p q, last? key (e :: es) y = some p →
          last? key (e :: es) x = some q → time q < time p) (by
        intro x y hx hy hxy p q hp hq
        rw [hlast y (List.mem_dedup.1 hy)] at hp
        rw [hlast x (List.mem_dedup.1 hx)] at hq
        exact hxy p q hp hq)
      rw [List.map_cons]
      by_cases hagain : key e ∈ es.map key
      · rwa [List.dedup_cons_of_mem hagain]
      · rw [List.dedup_cons_of_notMem hagain]
        refine List.pairwise_cons.2 ⟨?_, hrest⟩
        intro y hy p q hp hq
        rw [hlast y (List.mem_dedup.1 hy)] at hp
        have hnone : es.filter (key · = key e) = [] := by
          rw [List.filter_eq_nil_iff]
          intro e' he' hkey
          exact hagain (List.mem_map.2 ⟨e', he', of_decide_eq_true hkey⟩)
        obtain rfl : e = q := by simpa [last?, hnone] using hq
        exact he p (mem_of_last? hp).1

theorem mem_latest_iff {es : List ε} {k : κ} :
    k ∈ latest key es ↔ ∃ e, last? key es k = some e := by
  rw [latest, List.mem_reverse, List.mem_dedup, exists_last?_iff]

theorem card_take_latest (es : List ε) (n : Nat) :
    ((latest key es).take n).toFinset.card = min n (es.map key).toFinset.card := by
  have hnodup : (latest key es).Nodup := List.nodup_reverse.2 (List.nodup_dedup _)
  rw [List.toFinset_card_of_nodup (hnodup.sublist (List.take_sublist ..)), List.length_take,
    latest, List.length_reverse, List.card_toFinset]

/-- A key that is not among the most recent ones came up before each of them. -/
theorem lt_of_notMem_take_latest {es : List ε} (h : es.Pairwise (time · < time ·)) {n : Nat}
    {x y : κ} (hx : x ∉ (latest key es).take n) (hy : y ∈ (latest key es).take n) {p q : ε}
    (hp : last? key es x = some p) (hq : last? key es y = some q) : time p < time q := by
  have hxdrop : x ∈ (latest key es).drop n := by
    have hxlatest := mem_latest_iff.2 ⟨p, hp⟩
    rw [← List.take_append_drop n (latest key es)] at hxlatest
    exact (List.mem_append.1 hxlatest).resolve_left hx
  have hpairwise := pairwise_latest key h
  rw [← List.take_append_drop n (latest key es)] at hpairwise
  exact (List.pairwise_append.1 hpairwise).2.2 y hy x hxdrop q p hq hp

/-! ## Bounded stores -/

/-- Of the keys that came up, at most `n` are kept: as many as there are and have room, and none that
came up earlier than one that is not kept. -/
structure Kept (key : ε → κ) (time : ε → Nat) (n : Nat) (es : List ε) (kept : Finset κ) : Prop where
  subset : kept ⊆ (es.map key).toFinset
  card : kept.card = min n (es.map key).toFinset.card
  le : ∀ x ∈ kept, ∀ y ∉ kept, ∀ p q, last? key es x = some p → last? key es y = some q →
    time q ≤ time p

theorem toFinset_keys_concat (key : ε → κ) (es : List ε) (e : ε) :
    ((es ++ [e]).map key).toFinset = insert (key e) (es.map key).toFinset := by
  ext k
  simp

namespace Kept

variable {n : Nat} {es : List ε} {kept : Finset κ} {e : ε}

theorem nil : Kept key time n [] ∅ :=
  ⟨Finset.empty_subset _, (Nat.min_zero n).symm, fun _ hx => absurd hx (Finset.notMem_empty _)⟩

/-- A key that has just come up came up last. -/
theorem le_concat {later : Finset κ} (hmem : key e ∈ later) (hordered : ∀ p ∈ es, time p ≤ time e)
    (hle : ∀ x ∈ later, x ≠ key e → ∀ y ∉ later, ∀ p q, last? key es x = some p →
      last? key es y = some q → time q ≤ time p) :
    ∀ x ∈ later, ∀ y ∉ later, ∀ p q, last? key (es ++ [e]) x = some p →
      last? key (es ++ [e]) y = some q → time q ≤ time p := by
  intro x hx y hy p q hp hq
  have hye : key e ≠ y := fun hsame => hy (hsame ▸ hmem)
  rw [last?_concat] at hp hq
  rw [if_neg hye] at hq
  split at hp
  · cases hp
    exact hordered q (mem_of_last? hq).1
  · rename_i hxe
    exact hle x hx (Ne.symm hxe) y hy p q hp hq

/-- A key that is kept comes up again. -/
theorem again (h : Kept key time n es kept) (hkept : key e ∈ kept)
    (hordered : ∀ p ∈ es, time p ≤ time e) : Kept key time n (es ++ [e]) kept := by
  have hall := toFinset_keys_concat key es e
  rw [Finset.insert_eq_of_mem (h.subset hkept)] at hall
  refine ⟨by rw [hall]; exact h.subset, by rw [hall]; exact h.card, ?_⟩
  exact le_concat hkept hordered fun x hx _ => h.le x hx

/-- A new key comes up and there is room. -/
theorem grow (h : Kept key time n es kept) (hnew : key e ∉ kept) (hroom : kept.card < n)
    (hordered : ∀ p ∈ es, time p ≤ time e) :
    Kept key time n (es ++ [e]) (insert (key e) kept) := by
  have hcard := h.card
  have hall : kept = (es.map key).toFinset :=
    Finset.eq_of_subset_of_card_le h.subset (by omega)
  refine ⟨?_, ?_, ?_⟩
  · rw [toFinset_keys_concat, ← hall]
  · rw [toFinset_keys_concat, ← hall, Finset.card_insert_of_notMem hnew]
    omega
  · refine le_concat (Finset.mem_insert_self _ _) hordered ?_
    intro x hx hxe y hy
    exact h.le x (Finset.mem_of_mem_insert_of_ne hx hxe) y fun hykept =>
      hy (Finset.mem_insert_of_mem hykept)

/-- A new key comes up and takes the place of one that came up longest ago. -/
theorem replace (h : Kept key time n es kept) (hnew : key e ∉ kept) (hfull : kept.card = n)
    {victim : κ} (hvictim : victim ∈ kept)
    (holdest : ∀ x ∈ kept, ∀ p q, last? key es x = some p → last? key es victim = some q →
      time q ≤ time p)
    (hordered : ∀ p ∈ es, time p ≤ time e) :
    Kept key time n (es ++ [e]) (insert (key e) (kept.erase victim)) := by
  have hcard := h.card
  have hmore := Finset.card_le_card (Finset.subset_insert (key e) (es.map key).toFinset)
  have hnotErased : key e ∉ kept.erase victim := fun hmem => hnew (Finset.mem_of_mem_erase hmem)
  refine ⟨?_, ?_, ?_⟩
  · rw [toFinset_keys_concat]
    exact Finset.insert_subset_insert _ ((Finset.erase_subset _ _).trans h.subset)
  · rw [toFinset_keys_concat, Finset.card_insert_of_notMem hnotErased,
      Finset.card_erase_add_one hvictim]
    omega
  · refine le_concat (Finset.mem_insert_self _ _) hordered ?_
    intro x hx hxe y hy p q hp hq
    have hxkept := Finset.mem_of_mem_erase (Finset.mem_of_mem_insert_of_ne hx hxe)
    by_cases hyvictim : y = victim
    · subst hyvictim
      exact holdest x hxkept p q hp hq
    · refine h.le x hxkept y (fun hykept => hy ?_) p q hp hq
      exact Finset.mem_insert_of_mem (Finset.mem_erase.2 ⟨hyvictim, hykept⟩)

/-- If no two events happen at the same time, the most recent keys are kept. -/
theorem mem_iff (h : Kept key time n es kept) (hstrict : es.Pairwise (time · < time ·)) (k : κ) :
    k ∈ kept ↔ k ∈ (latest key es).take n := by
  have hcard : kept.card = ((latest key es).take n).toFinset.card := by
    rw [h.card, card_take_latest]
  -- A key that is kept and not recent would have come up before one that is recent and not kept,
  -- since there are as many of the one kind as of the other.
  have hsubset : ((latest key es).take n).toFinset ⊆ kept := by
    by_contra hnot
    obtain ⟨y, hy, hykept⟩ := Finset.not_subset.1 hnot
    obtain ⟨z, hzkept, hz⟩ := Finset.not_subset.1
      fun hall => hykept (Finset.eq_of_subset_of_card_le hall hcard.ge ▸ hy)
    rw [List.mem_toFinset] at hy hz
    obtain ⟨p, hp⟩ := exists_last?_iff.2 (List.mem_toFinset.1 (h.subset hzkept))
    obtain ⟨q, hq⟩ := mem_latest_iff.1 (List.mem_of_mem_take hy)
    have hlt := lt_of_notMem_take_latest hstrict hz hy hp hq
    have hle := h.le z hzkept y hykept p q hp hq
    omega
  rw [← Finset.eq_of_subset_of_card_le hsubset hcard.le, List.mem_toFinset]

end Kept

end Ranging.Recency
