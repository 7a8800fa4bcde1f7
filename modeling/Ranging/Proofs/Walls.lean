import Mathlib.Algebra.Order.Archimedean.Basic
import Mathlib.Tactic.Linarith
import Ranging.Proofs.ExactArithmetic
import Ranging.Simulation.Scene

/-!
# The walls of the tag's box

The tag starts in the middle of the box that the anchors span and is to keep a margin inside it. A
step that leads across a wall of this inner box is reflected there, and at that wall only, so one
has to ask where a reflected step ends.

With exact arithmetic there is a simple answer for steps that are shorter than the margin. Along an
axis on which the anchors are at least three margins apart, a reflected step ends between the walls
(`Axis.advance_mem`), and the tag stays there. With less room a step can end beyond the other wall,
from where the next one leads further out (`Axis.Beyond`), or the walls have even changed sides. Then
there is a path that leaves the box of the anchors. So in `Scene.stays_within` it is the arrangement
of the anchors alone that decides.
-/

namespace Ranging

/-- The axes along which the tag moves. -/
inductive Dimension where
  | x
  | y
  | z
deriving DecidableEq

namespace Point

variable {K : Type}

/-- The coordinate along an axis. -/
def along (p : Point K) : Dimension → K
  | .x => p.x
  | .y => p.y
  | .z => p.z

/-- The displacement by `a` along one axis. -/
def only [Zero K] (a : K) : Dimension → Point K
  | .x => ⟨a, 0, 0⟩
  | .y => ⟨0, a, 0⟩
  | .z => ⟨0, 0, a⟩

theorem along_only [Zero K] (a : K) (d e : Dimension) :
    (only a d).along e = if e = d then a else 0 := by
  cases d <;> cases e <;> rfl

@[simp] theorem along_zipWith (f : K → K → K) (p q : Point K) (d : Dimension) :
    (p.zipWith f q).along d = f (p.along d) (q.along d) := by
  cases d <;> rfl

@[simp] theorem along_diagonal (a : K) (d : Dimension) : (diagonal a).along d = a := by
  cases d <;> rfl

@[simp] theorem along_map (f : K → K) (p : Point K) (d : Dimension) :
    (p.map f).along d = f (p.along d) := by
  cases d <;> rfl

end Point

/-- What a scan for the first of some values in a total order finds: one of them, or the value it
starts with, and nothing that comes before it. -/
theorem foldl_first {α : Type} {r : α → α → Prop} [DecidableRel r] (htotal : ∀ a b, r a b ∨ r b a)
    (htrans : ∀ a b c, r a b → r b c → r a c) (start : α) (xs : List α) {first : α}
    (hfirst : xs.foldl (fun found a => if r found a then found else a) start = first) :
    (first = start ∨ first ∈ xs) ∧ r first start ∧ ∀ a ∈ xs, r first a := by
  induction xs generalizing start with
  | nil =>
      subst hfirst
      simpa using htotal start start
  | cons x xs ih =>
      obtain ⟨hmem, hnext, hxs⟩ := ih _ hfirst
      dsimp only at hmem hnext
      by_cases hle : r start x
      · rw [if_pos hle] at hmem hnext
        refine ⟨hmem.imp_right (List.mem_cons_of_mem _), hnext, List.forall_mem_cons.2 ⟨?_, hxs⟩⟩
        exact htrans _ _ _ hnext hle
      · rw [if_neg hle] at hmem hnext
        have hlt : r x start := (htotal x start).resolve_right hle
        refine ⟨Or.inr ?_, htrans _ _ _ hnext hlt, List.forall_mem_cons.2 ⟨hnext, hxs⟩⟩
        rcases hmem with rfl | hmem
        · exact List.mem_cons_self
        · exact List.mem_cons_of_mem _ hmem

namespace Scene

/-! ## The scene along one axis -/

section Motion

variable {K : Type} [Scalar K]

/-- The tag along one axis. -/
def axis (s : Scene K) (d : Dimension) : Axis K :=
  ⟨s.tag.along d, s.velocity.along d⟩

/-- Let time pass in several steps. -/
def advanceAll (s : Scene K) (steps : List K) : Scene K :=
  steps.foldl advance s

@[simp] theorem advanceAll_nil (s : Scene K) : s.advanceAll [] = s := rfl

@[simp] theorem advanceAll_cons (s : Scene K) (seconds : K) (steps : List K) :
    s.advanceAll (seconds :: steps) = (s.advance seconds).advanceAll steps := rfl

@[simp] theorem advance_low (s : Scene K) (seconds : K) : (s.advance seconds).low = s.low := rfl

@[simp] theorem advance_high (s : Scene K) (seconds : K) : (s.advance seconds).high = s.high := rfl

/-- Each axis advances on its own. -/
theorem axis_advance (s : Scene K) (seconds : K) (d : Dimension) :
    (s.advance seconds).axis d =
      (s.axis d).advance seconds (s.low.along d) (s.high.along d) := by
  cases d <;> rfl

omit [Scalar K] in
/-- A corner is found along each axis on its own. -/
theorem along_foldl_zipWith (choose : K → K → K) (start : Point K) (points : List (Point K))
    (d : Dimension) :
    (points.foldl (Point.zipWith choose) start).along d =
      (points.map (·.along d)).foldl choose (start.along d) := by
  induction points generalizing start with
  | nil => rfl
  | cons p points ih => rw [List.foldl_cons, ih, Point.along_zipWith, List.map_cons, List.foldl_cons]

end Motion

variable {K : Type} [Field K] [LinearOrder K] [FloorRing K]

/-! ## The box of the anchors -/

/-- No coordinate is beyond what can be written down. -/
def Bounded (anchors : List (Point K)) : Prop :=
  ∀ a ∈ anchors, ∀ d, |a.along d| ≤ Scalar.limit

/-- Along an axis, some anchor is not above the point and some anchor is not below it. -/
def Within (anchors : List (Point K)) (d : Dimension) (p : Point K) : Prop :=
  (∃ a ∈ anchors, a.along d ≤ p.along d) ∧ ∃ b ∈ anchors, p.along d ≤ b.along d

/-- Along an axis, some two anchors are so far apart. -/
def Spans (anchors : List (Point K)) (d : Dimension) (width : K) : Prop :=
  ∃ a ∈ anchors, ∃ b ∈ anchors, width ≤ b.along d - a.along d

/-- Along an axis, the anchors at both ends, and what a scene that starts makes of them. -/
structure Ends (anchors : List (Point K)) (d : Dimension) (s : Scene K) (least greatest : K) :
    Prop where
  least_mem : ∃ a ∈ anchors, a.along d = least
  greatest_mem : ∃ b ∈ anchors, b.along d = greatest
  bounds : ∀ a ∈ anchors, least ≤ a.along d ∧ a.along d ≤ greatest
  low : s.low.along d = least + margin
  high : s.high.along d = greatest - margin
  tag : s.tag.along d = (least + greatest) / 2

theorem margin_eq : (margin : K) = 3 / 10 := by
  rw [margin]
  norm_num

section Ordered

variable [IsStrictOrderedRing K] {anchors : List (Point K)} {d : Dimension}

theorem exists_lowCorner (hne : anchors ≠ []) (hbounded : Bounded anchors) (d : Dimension) :
    (∃ a ∈ anchors, a.along d = (lowCorner anchors).along d) ∧
      ∀ a ∈ anchors, (lowCorner anchors).along d ≤ a.along d := by
  obtain ⟨hmem, hstart, hle⟩ := foldl_first (r := (· ≤ ·)) le_total (fun _ _ _ => le_trans)
    Scalar.limit (anchors.map (·.along d)) rfl
  rw [lowCorner, along_foldl_zipWith, Point.along_diagonal]
  refine ⟨?_, fun a ha => hle _ (List.mem_map_of_mem ha)⟩
  rcases hmem with hsame | hmem
  · obtain ⟨a, ha⟩ := List.exists_mem_of_ne_nil anchors hne
    have hlimit := (abs_le.1 (hbounded a ha d)).2
    refine ⟨a, ha, le_antisymm ?_ (hle _ (List.mem_map_of_mem ha))⟩
    exact hlimit.trans_eq hsame.symm
  · exact List.mem_map.1 hmem

theorem exists_highCorner (hne : anchors ≠ []) (hbounded : Bounded anchors) (d : Dimension) :
    (∃ a ∈ anchors, a.along d = (highCorner anchors).along d) ∧
      ∀ a ∈ anchors, a.along d ≤ (highCorner anchors).along d := by
  obtain ⟨hmem, hstart, hle⟩ := foldl_first (r := (· ≥ ·)) (fun a b => le_total b a)
    (fun _ _ _ h h' => le_trans h' h) (-Scalar.limit) (anchors.map (·.along d)) rfl
  rw [highCorner, along_foldl_zipWith, Point.along_diagonal]
  refine ⟨?_, fun a ha => hle _ (List.mem_map_of_mem ha)⟩
  rcases hmem with hsame | hmem
  · obtain ⟨a, ha⟩ := List.exists_mem_of_ne_nil anchors hne
    have hlimit := (abs_le.1 (hbounded a ha d)).1
    refine ⟨a, ha, le_antisymm (hle _ (List.mem_map_of_mem ha)) ?_⟩
    exact hsame.trans_le hlimit
  · exact List.mem_map.1 hmem

/-- Some anchors at both ends decide where the walls are and where the tag starts. -/
theorem exists_ends (hne : anchors ≠ []) (hbounded : Bounded anchors) (velocity : Point K)
    (d : Dimension) : ∃ least greatest, Ends anchors d (start anchors velocity) least greatest := by
  obtain ⟨hleast, hleast_le⟩ := exists_lowCorner hne hbounded d
  obtain ⟨hgreatest, hle_greatest⟩ := exists_highCorner hne hbounded d
  refine ⟨_, _, hleast, hgreatest, fun a ha => ⟨hleast_le a ha, hle_greatest a ha⟩, ?_, ?_, ?_⟩
  · simp [start, Point.add]
  · simp [start, Point.sub]
  · simp only [start, Point.midpoint, Point.scale, Point.add, Point.sub, Point.along_map,
      Point.along_zipWith, Point.along_diagonal]
    norm_num
    ring

omit [IsStrictOrderedRing K] in
/-- Exactly the points between the ends are within. -/
theorem Ends.within_iff {s : Scene K} {least greatest : K} (h : Ends anchors d s least greatest)
    (p : Point K) : Within anchors d p ↔ least ≤ p.along d ∧ p.along d ≤ greatest := by
  constructor
  · rintro ⟨⟨a, ha, hle⟩, b, hb, hge⟩
    exact ⟨(h.bounds a ha).1.trans hle, hge.trans (h.bounds b hb).2⟩
  · rintro ⟨hle, hge⟩
    obtain ⟨a, ha, rfl⟩ := h.least_mem
    obtain ⟨b, hb, rfl⟩ := h.greatest_mem
    exact ⟨⟨a, ha, hle⟩, b, hb, hge⟩

/-- The ends are what is farthest apart. -/
theorem Ends.spans_iff {s : Scene K} {least greatest : K} (h : Ends anchors d s least greatest)
    (width : K) : Spans anchors d width ↔ width ≤ greatest - least := by
  constructor
  · rintro ⟨a, ha, b, hb, hwidth⟩
    have hleast := (h.bounds a ha).1
    have hgreatest := (h.bounds b hb).2
    linarith
  · intro hwidth
    obtain ⟨a, ha, rfl⟩ := h.least_mem
    obtain ⟨b, hb, rfl⟩ := h.greatest_mem
    exact ⟨a, ha, b, hb, hwidth⟩

omit [IsStrictOrderedRing K] in
theorem Ends.le {s : Scene K} {least greatest : K} (h : Ends anchors d s least greatest) :
    least ≤ greatest := by
  obtain ⟨a, ha, rfl⟩ := h.least_mem
  exact (h.bounds a ha).2

end Ordered

/-! ## One step along one axis -/

namespace Axis

/-- Past a wall by so much, and on the way out at unit speed. A negative excess is the distance to
the wall. -/
def Beyond (a : Axis K) (low high excess : K) : Prop :=
  (a.position = high + excess ∧ a.velocity = 1) ∨ (a.position = low - excess ∧ a.velocity = -1)

/-- A step that ends below the lower wall. -/
theorem advance_of_below {a : Axis K} {seconds low high : K}
    (h : a.position + a.velocity * seconds < low) :
    a.advance seconds low high =
      ⟨2 * low - (a.position + a.velocity * seconds), |a.velocity|⟩ := by
  have htwo : (2.0 : K) = 2 := by norm_num
  rw [← htwo]
  exact if_pos h

/-- A step that ends above the upper wall only. -/
theorem advance_of_above {a : Axis K} {seconds low high : K}
    (hlow : ¬ a.position + a.velocity * seconds < low)
    (h : high < a.position + a.velocity * seconds) :
    a.advance seconds low high =
      ⟨2 * high - (a.position + a.velocity * seconds), -|a.velocity|⟩ := by
  have htwo : (2.0 : K) = 2 := by norm_num
  rw [← htwo]
  exact (if_neg hlow).trans (if_pos h)

/-- A step that crosses no wall. -/
theorem advance_of_between {a : Axis K} {seconds low high : K}
    (hlow : ¬ a.position + a.velocity * seconds < low)
    (hhigh : ¬ high < a.position + a.velocity * seconds) :
    a.advance seconds low high = ⟨a.position + a.velocity * seconds, a.velocity⟩ :=
  (if_neg hlow).trans (if_neg hhigh)

variable [IsStrictOrderedRing K] {a : Axis K} {seconds low high : K}

theorem abs_velocity_advance (a : Axis K) (seconds low high : K) :
    |(a.advance seconds low high).velocity| = |a.velocity| := by
  by_cases hlow : a.position + a.velocity * seconds < low
  · rw [advance_of_below hlow, abs_abs]
  · by_cases hhigh : high < a.position + a.velocity * seconds
    · rw [advance_of_above hlow hhigh, abs_neg, abs_abs]
    · rw [advance_of_between hlow hhigh]

/-- With room for one margin between the walls, a step shorter than the margin stays between
them. -/
theorem advance_mem (hroom : low + margin ≤ high) (hfrom : low ≤ a.position ∧ a.position ≤ high)
    (hgentle : |a.velocity * seconds| < margin) :
    low ≤ (a.advance seconds low high).position ∧
      (a.advance seconds low high).position ≤ high := by
  obtain ⟨hdown, hup⟩ := abs_lt.1 hgentle
  obtain ⟨hleast, hgreatest⟩ := hfrom
  by_cases hlow : a.position + a.velocity * seconds < low
  · rw [advance_of_below hlow]
    constructor <;> linarith
  · by_cases hhigh : high < a.position + a.velocity * seconds
    · rw [advance_of_above hlow hhigh]
      constructor <;> linarith
    · rw [advance_of_between hlow hhigh]
      exact ⟨not_lt.1 hlow, not_lt.1 hhigh⟩

/-- A step across a wall of a narrow range ends past the other wall, still on the way out. -/
theorem Beyond.advance {excess : K} (h : a.Beyond low high excess) (hroom : low ≤ high)
    (hcrosses : 0 < excess + seconds) :
    (a.advance seconds low high).Beyond low high (excess + seconds - (high - low)) := by
  rcases h with ⟨hposition, hvelocity⟩ | ⟨hposition, hvelocity⟩
  · have hreached : a.position + a.velocity * seconds = high + (excess + seconds) := by
      rw [hposition, hvelocity]
      ring
    right
    rw [advance_of_above (by linarith) (by linarith), hreached, hvelocity, abs_one]
    exact ⟨by ring, rfl⟩
  · have hreached : a.position + a.velocity * seconds = low - (excess + seconds) := by
      rw [hposition, hvelocity]
      ring
    left
    rw [advance_of_below (by linarith), hreached, hvelocity, abs_neg, abs_one]
    exact ⟨by ring, rfl⟩

end Axis

/-! ## Paths -/

/-- A step during which the tag moves by less than the margin along every axis. -/
def Gentle (s : Scene K) (seconds : K) : Prop :=
  ∀ d, |s.velocity.along d * seconds| < margin

/-- Steps that are gentle one after the other. -/
def GentleAll (s : Scene K) : List K → Prop
  | [] => True
  | seconds :: steps => s.Gentle seconds ∧ (s.advance seconds).GentleAll steps

section Ordered

variable [IsStrictOrderedRing K] {anchors : List (Point K)} {d : Dimension}

theorem abs_velocity_advance (s : Scene K) (seconds : K) (d : Dimension) :
    |(s.advance seconds).velocity.along d| = |s.velocity.along d| := by
  have haxis := congrArg Axis.velocity (s.axis_advance seconds d)
  exact (congrArg abs haxis).trans (Axis.abs_velocity_advance _ _ _ _)

theorem abs_velocity_advanceAll (s : Scene K) (steps : List K) (d : Dimension) :
    |(s.advanceAll steps).velocity.along d| = |s.velocity.along d| := by
  induction steps generalizing s with
  | nil => rfl
  | cons seconds steps ih => rw [advanceAll_cons, ih, abs_velocity_advance]

/-- The tag never changes its speed, so its first velocity tells which steps are gentle. -/
theorem gentleAll_iff {s : Scene K} {steps : List K} :
    s.GentleAll steps ↔ ∀ seconds ∈ steps, s.Gentle seconds := by
  induction steps generalizing s with
  | nil => simp [GentleAll]
  | cons seconds steps ih =>
      have hsame (dt : K) : (s.advance seconds).Gentle dt ↔ s.Gentle dt := by
        simp only [Gentle, abs_mul, abs_velocity_advance]
      simp only [GentleAll, ih, hsame, List.forall_mem_cons]

/-- With room between the walls, a tag between them stays there. -/
theorem advanceAll_mem {s : Scene K} {steps : List K}
    (hroom : s.low.along d + margin ≤ s.high.along d)
    (hstart : s.low.along d ≤ s.tag.along d ∧ s.tag.along d ≤ s.high.along d)
    (hgentle : s.GentleAll steps) :
    s.low.along d ≤ (s.advanceAll steps).tag.along d ∧
      (s.advanceAll steps).tag.along d ≤ s.high.along d := by
  induction steps generalizing s with
  | nil => exact hstart
  | cons seconds steps ih =>
      obtain ⟨hstep, hsteps⟩ := hgentle
      refine ih (s := s.advance seconds) hroom ?_ hsteps
      have hmem := Axis.advance_mem (a := s.axis d) hroom hstart (hstep d)
      rwa [← axis_advance] at hmem

/-- Between walls that are too close, every further step leads further out. -/
theorem beyond_advanceAll {s : Scene K} {excess : K} (seconds : K)
    (h : (s.axis d).Beyond (s.low.along d) (s.high.along d) excess)
    (hroom : s.low.along d ≤ s.high.along d) (hcrosses : 0 < excess + seconds)
    (hgains : s.high.along d - s.low.along d ≤ seconds) (count : Nat) :
    ((s.advanceAll (List.replicate count seconds)).axis d).Beyond (s.low.along d)
      (s.high.along d) (excess + count * (seconds - (s.high.along d - s.low.along d))) := by
  induction count generalizing s excess with
  | zero =>
      rw [Nat.cast_zero, zero_mul, add_zero]
      exact h
  | succ count ih =>
      have hstep := h.advance hroom hcrosses
      rw [← axis_advance] at hstep
      have hexcess : excess + (count + 1 : ℕ) * (seconds - (s.high.along d - s.low.along d)) =
          excess + seconds - (s.high.along d - s.low.along d) +
            count * (seconds - (s.high.along d - s.low.along d)) := by
        push_cast
        ring
      rw [hexcess]
      refine ih (s := s.advance seconds) hstep hroom ?_ hgains
      linarith

omit [IsStrictOrderedRing K] in
theorem velocity_start_only (speed : K) (d : Dimension) :
    (start anchors (Point.only speed d)).velocity.along d = speed := by
  change (Point.only speed d).along d = speed
  rw [Point.along_only, if_pos rfl]

/-- Motion along one axis only. -/
theorem gentle_start_only {speed seconds : K} (h : |speed * seconds| < margin) :
    (start anchors (Point.only speed d)).Gentle seconds := by
  intro e
  change |(Point.only speed d).along e * seconds| < margin
  rw [Point.along_only]
  split_ifs
  · exact h
  · rw [zero_mul, abs_zero, margin_eq]
    norm_num

/-- With the walls on the wrong sides, the step from the middle to the lower end is reflected to
beyond the upper one. -/
theorem Ends.lt_advance {s : Scene K} {least greatest : K} (h : Ends anchors d s least greatest)
    (hvelocity : s.velocity.along d = -1) (hcrossed : greatest - least < 2 * margin) :
    greatest < (s.advance ((greatest - least) / 2)).tag.along d := by
  have hreached : (s.axis d).position + (s.axis d).velocity * ((greatest - least) / 2) = least := by
    rw [axis, h.tag, hvelocity]
    ring
  have hbelow : least < s.low.along d := by
    rw [h.low, margin_eq]
    linarith
  have hstep := s.axis_advance ((greatest - least) / 2) d
  rw [Axis.advance_of_below (hreached.trans_lt hbelow), hreached, h.low] at hstep
  have hposition : (s.advance ((greatest - least) / 2)).tag.along d = 2 * (least + margin) - least :=
    congrArg Axis.position hstep
  linarith

omit [IsStrictOrderedRing K] in
/-- From the middle on the way up, the upper wall is half the range away. -/
theorem Ends.beyond {s : Scene K} {least greatest : K} (h : Ends anchors d s least greatest)
    (hvelocity : s.velocity.along d = 1) :
    (s.axis d).Beyond (s.low.along d) (s.high.along d)
      (-((s.high.along d - s.low.along d) / 2)) := by
  refine Or.inl ⟨?_, hvelocity⟩
  rw [axis, h.tag, h.low, h.high]
  ring

/-- Anchors so close together that the walls have changed sides. -/
theorem exists_leaves_of_crossed (hne : anchors ≠ []) (hbounded : Bounded anchors)
    (hclose : ¬ Spans anchors d (2 * margin)) :
    ∃ velocity steps, (∀ seconds ∈ steps, 0 ≤ seconds) ∧
      (start anchors velocity).GentleAll steps ∧
      ¬ Within anchors d ((start anchors velocity).advanceAll steps).tag := by
  obtain ⟨least, greatest, hends⟩ := exists_ends hne hbounded (Point.only (-1) d) d
  have hwidth := hends.le
  rw [hends.spans_iff, not_le] at hclose
  have hgentle : |-1 * ((greatest - least) / 2)| < margin := by
    rw [abs_lt]
    constructor <;> linarith
  refine ⟨Point.only (-1) d, [(greatest - least) / 2], ?_, ?_, ?_⟩
  · rw [List.forall_mem_singleton]
    linarith
  · exact ⟨gentle_start_only hgentle, trivial⟩
  · have hleaves := hends.lt_advance (velocity_start_only (-1) d) hclose
    rw [hends.within_iff]
    exact fun hwithin => hwithin.2.not_gt hleaves

/-- Anchors so close together that the tag is carried from wall to wall, and further out each
time. -/
theorem exists_leaves_of_narrow (hne : anchors ≠ []) (hbounded : Bounded anchors)
    (hroom : Spans anchors d (2 * margin)) (hclose : ¬ Spans anchors d (3 * margin)) :
    ∃ velocity steps, (∀ seconds ∈ steps, 0 ≤ seconds) ∧
      (start anchors velocity).GentleAll steps ∧
      ¬ Within anchors d ((start anchors velocity).advanceAll steps).tag := by
  obtain ⟨least, greatest, hends⟩ := exists_ends hne hbounded (Point.only 1 d) d
  rw [hends.spans_iff, not_le] at hclose
  rw [hends.spans_iff] at hroom
  have hlow := hends.low
  have hhigh := hends.high
  have hbeyond := hends.beyond (velocity_start_only 1 d)
  -- Any step that is longer than the range does, as often as it takes.
  obtain ⟨seconds, hgains, hshort⟩ : ∃ seconds : K,
      greatest - least - 2 * margin < seconds ∧ seconds < margin :=
    exists_between (by linarith)
  obtain ⟨count, hcount⟩ := exists_nat_gt
    ((margin + (greatest - least - 2 * margin) / 2) / (seconds - (greatest - least - 2 * margin)))
  rw [div_lt_iff₀ (by linarith)] at hcount
  have hgentle : |1 * seconds| < margin := by
    rw [abs_lt]
    constructor <;> linarith
  refine ⟨Point.only 1 d, List.replicate count seconds, ?_, ?_, ?_⟩
  · intro step hmem
    rw [List.eq_of_mem_replicate hmem]
    linarith
  · rw [gentleAll_iff]
    intro step hmem
    rw [List.eq_of_mem_replicate hmem]
    exact gentle_start_only hgentle
  · have hfinal := beyond_advanceAll seconds hbeyond (by linarith) (by linarith)
      (by linarith) count
    rw [hlow, hhigh] at hfinal
    rw [hends.within_iff]
    rintro ⟨hle, hge⟩
    rcases hfinal with ⟨hposition, -⟩ | ⟨hposition, -⟩ <;> rw [axis] at hposition <;> linarith

/-- The tag never changes its speed along an axis, and it starts between the anchors. Along an axis on
which the anchors are three margins apart or more, gentle steps keep it there. Along any other, there
are gentle steps that do not. -/
theorem stays_within (hne : anchors ≠ []) (hbounded : Bounded anchors) :
    (∀ velocity steps d, |((start anchors velocity).advanceAll steps).velocity.along d| =
      |velocity.along d|) ∧
    ∀ d, (∀ velocity, Within anchors d (start anchors velocity).tag) ∧
      (Spans anchors d (3 * margin) → ∀ velocity steps, (start anchors velocity).GentleAll steps →
        Within anchors d ((start anchors velocity).advanceAll steps).tag) ∧
      (¬ Spans anchors d (3 * margin) → ∃ velocity steps, (∀ seconds ∈ steps, 0 ≤ seconds) ∧
        (start anchors velocity).GentleAll steps ∧
        ¬ Within anchors d ((start anchors velocity).advanceAll steps).tag) := by
  refine ⟨fun velocity steps d => abs_velocity_advanceAll _ steps d, fun d => ⟨?_, ?_, ?_⟩⟩
  · intro velocity
    obtain ⟨least, greatest, hends⟩ := exists_ends hne hbounded velocity d
    have hwidth := hends.le
    rw [hends.within_iff, hends.tag]
    constructor <;> linarith
  · intro hspans velocity steps hgentle
    obtain ⟨least, greatest, hends⟩ := exists_ends hne hbounded velocity d
    rw [hends.spans_iff, margin_eq] at hspans
    have hmem := advanceAll_mem (d := d) ?_ ?_ hgentle
    · rw [hends.low, hends.high, margin_eq] at hmem
      rw [hends.within_iff]
      constructor <;> linarith [hmem.1, hmem.2]
    · rw [hends.low, hends.high, margin_eq]
      linarith
    · rw [hends.tag, hends.low, hends.high, margin_eq]
      constructor <;> linarith
  · intro hspans
    by_cases hroom : Spans anchors d (2 * margin)
    · exact exists_leaves_of_narrow hne hbounded hroom hspans
    · exact exists_leaves_of_crossed hne hbounded hroom

end Ordered

section Example

variable {K : Type} [Scalar K]

/-- Two anchors that are four metres apart on the floor, one of them half a metre higher. -/
def shallow : List (Point K) :=
  [⟨0.0, 0.0, 0.0⟩, ⟨4.0, 4.0, 0.5⟩]

/-- Straight down. -/
def downwards : Point K :=
  ⟨0.0, 0.0, -1.5⟩

end Example

/-- Over the floor the tag stays between these anchors. It does not stay between their heights. -/
theorem stays_within_shallow : (shallow (K := ℚ)) ≠ [] ∧ Bounded (shallow (K := ℚ)) ∧
    (∀ velocity steps, (start (shallow (K := ℚ)) velocity).GentleAll steps →
      Within shallow .x ((start shallow velocity).advanceAll steps).tag) ∧
    ∃ velocity steps, (start (shallow (K := ℚ)) velocity).GentleAll steps ∧
      ¬ Within shallow .z ((start shallow velocity).advanceAll steps).tag := by
  have hne : (shallow (K := ℚ)) ≠ [] := List.cons_ne_nil _ _
  have hbounded : Bounded (shallow (K := ℚ)) := by
    intro a ha d
    have hcases : ∀ a ∈ shallow (K := ℚ), ∀ d ∈ [Dimension.x, .y, .z],
        |a.along d| ≤ Scalar.limit := by decide +kernel
    exact hcases a ha d (by cases d <;> decide)
  have hwide : Spans (shallow (K := ℚ)) .x (3 * margin) := by
    unfold Spans
    decide +kernel
  have hflat : ¬ Spans (shallow (K := ℚ)) .z (3 * margin) := by
    unfold Spans
    decide +kernel
  have hstays := stays_within hne hbounded
  obtain ⟨velocity, steps, -, hgentle, hleaves⟩ := (hstays.2 .z).2.2 hflat
  exact ⟨hne, hbounded, (hstays.2 .x).2.1 hwide, velocity, steps, hgentle, hleaves⟩

/-- One step of less than the margin takes the tag above both anchors. From where it was, it has not
gone as far as the margin. Rounding has nothing to do with it. -/
theorem leaves_box :
    (∃ s : Scene Float, s = start shallow downwards ∧
      (∀ d, Scalar.abs (s.velocity.along d * 0.125) < margin) ∧
      (∀ d, Scalar.abs ((s.advance 0.125).tag.along d - s.tag.along d) < margin) ∧
      ∀ a ∈ s.anchors, a.z < (s.advance 0.125).tag.z) ∧
    ∃ s : Scene ℚ, s = start shallow downwards ∧ s.Gentle 0.125 ∧
      (∀ d, |(s.advance 0.125).tag.along d - s.tag.along d| < margin) ∧
      ∀ a ∈ s.anchors, a.z < (s.advance 0.125).tag.z := by
  refine ⟨⟨_, rfl, ?_, ?_, by decide +kernel⟩, ⟨_, rfl, ?_, ?_, by decide +kernel⟩⟩
  · intro d
    cases d <;> decide +kernel
  · intro d
    cases d <;> decide +kernel
  · intro d
    cases d <;> decide +kernel
  · intro d
    cases d <;> decide +kernel

end Scene

end Ranging
