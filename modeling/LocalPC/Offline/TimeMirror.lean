import LocalPC.Offline.SegmentMetrics
import Mathlib.Algebra.Order.Field.Basic
import Mathlib.Tactic.Linarith
import Mathlib.Tactic.NormNum

namespace LocalPC.Offline
open Lib

/-- The class that a segment has when time runs backwards. -/
def SegmentClass.mirrored : SegmentClass → SegmentClass
  | .approach => .recede
  | .recede => .approach
  | .passBy => .passBy
  | .stationary => .stationary
  | .unknown => .unknown

namespace Exact

structure SceneGeometry (K : Type) where
  tsNs : Int
  rangeM : K
  closingSpeedMps : K
  valid : Bool

section Classify
variable {K : Type} [OfNat K 0] [OfScientific K] [Neg K] [Add K] [Sub K]
  [Div K] [LT K] [DecidableLT K]

def validSamples (g : List (SceneGeometry K)) : List (SceneGeometry K) :=
  g.filter fun sg => sg.valid

def trend (abs : K → K) (rangeVariation meanClosing : K) : SegmentClass :=
  if rangeVariation < 0.10 ∧ abs meanClosing < 1.0 then .stationary
  else if 0.5 < meanClosing then .approach
  else if meanClosing < -0.5 then .recede
  else .unknown

/-- The class of `n` valid samples, the closest of which has the position `minIdx`. -/
def verdict (abs : K → K) (dur minDurationS rMin rMax meanClosing : K)
    (minIdx n : Nat) : SegmentClass :=
  if dur < minDurationS then .unknown
  else
    let rangeVariation := if 0 < rMax then (rMax - rMin) / rMax else 0.0
    if 0.15 < rangeVariation ∧ n / 5 < minIdx ∧ minIdx < 4 * n / 5 then .passBy
    else trend abs rangeVariation meanClosing

def classify (ofInt : Int → K) (ofNat : Nat → K) (abs : K → K)
    (g : List (SceneGeometry K)) (minDurationS : K) (classifyUnknownWhenDegraded : Bool) :
    SegmentClass :=
  let samples := validSamples g
  let ranges := samples.map fun sg => sg.rangeM
  match g.head?, g.getLast?, minElement (fun a b => decide (a.1 < b.1)) ranges.zipIdx,
      maxElement (fun a b => decide (a < b)) ranges with
  | some front, some back, some (rMin, minIdx), some rMax =>
      let dur := ofInt (back.tsNs - front.tsNs) / 1e9
      let totalClosing := samples.foldl (fun total sg => total + sg.closingSpeedMps) 0.0
      verdict abs dur minDurationS rMin rMax
        (totalClosing / ofNat ranges.length) minIdx ranges.length
  | _, _, _, _ => if classifyUnknownWhenDegraded then .unknown else .unknown

end Classify

theorem trend_ne_passBy {K : Type} [OfScientific K] [Neg K] [LT K] [DecidableLT K] (abs : K → K)
    (rangeVariation meanClosing : K) :
    (trend abs rangeVariation meanClosing).mirrored ≠ .passBy ∧
      trend abs rangeVariation meanClosing ≠ .passBy := by
  unfold trend
  split
  · exact ⟨SegmentClass.noConfusion, SegmentClass.noConfusion⟩
  split
  · exact ⟨SegmentClass.noConfusion, SegmentClass.noConfusion⟩
  split <;> exact ⟨SegmentClass.noConfusion, SegmentClass.noConfusion⟩

def sample (sg : Offline.SceneGeometry) : SceneGeometry Float :=
  ⟨sg.tsNs, sg.rangeM, sg.closingSpeedMps, sg.valid⟩

theorem classifySegment_eq (g : List Offline.SceneGeometry)
    (minDurationS : Float) (degraded : Bool) :
    Offline.classifySegment g minDurationS degraded =
      classify Float.ofInt Float.ofNat Float.abs (g.map sample) minDurationS degraded := by
  have valid : validSamples (g.map sample) = (g.filter fun sg => sg.valid).map sample :=
    List.filter_map
  have ranges : (fun sg : SceneGeometry Float => sg.rangeM) ∘ sample = fun sg => sg.rangeM := rfl
  unfold Offline.classifySegment classify validRanges lessFloat
  dsimp only
  rw [valid, List.map_map, ranges, List.foldl_map, List.head?_map, List.getLast?_map]
  cases g.head? with
  | none => rfl
  | some front => cases g.getLast? with
    | none => rfl
    | some back =>
        cases minElement _ _ with
        | none => rfl
        | some least => cases maxElement _ _ <;> rfl

section Mirror
variable {K : Type} [Field K]

def SceneGeometry.mirrored (c : Int) (sg : SceneGeometry K) : SceneGeometry K :=
  { sg with tsNs := c - sg.tsNs, closingSpeedMps := -sg.closingSpeedMps }

/-- Time `t` becomes `c - t`, so what came closer goes away. -/
def mirror (c : Int) (g : List (SceneGeometry K)) : List (SceneGeometry K) :=
  (g.map (SceneGeometry.mirrored c)).reverse

theorem validSamples_mirror (c : Int) (g : List (SceneGeometry K)) :
    validSamples (mirror c g) = mirror c (validSamples g) := by
  unfold mirror validSamples
  rw [List.filter_reverse, List.filter_map]
  rfl

theorem ranges_mirror (c : Int) (samples : List (SceneGeometry K)) :
    (mirror c samples).map (fun sg => sg.rangeM) = (samples.map fun sg => sg.rangeM).reverse := by
  unfold mirror
  rw [List.map_reverse, List.map_map]
  rfl

theorem totalClosing_eq [CharZero K] (samples : List (SceneGeometry K)) :
    samples.foldl (fun total sg => total + sg.closingSpeedMps) 0.0 =
      (samples.map fun sg => sg.closingSpeedMps).sum := by
  have zero : (0.0 : K) = 0 := by norm_num
  rw [List.sum_eq_foldl, List.foldl_map, zero]

theorem totalClosing_mirror (c : Int) (samples : List (SceneGeometry K)) :
    ((mirror c samples).map fun sg => sg.closingSpeedMps).sum =
      -(samples.map fun sg => sg.closingSpeedMps).sum := by
  unfold mirror
  rw [List.map_reverse, List.sum_reverse, List.map_map]
  induction samples with
  | nil => simp
  | cons sg rest ih =>
      rw [List.map_cons, List.map_cons, List.sum_cons, List.sum_cons, ih, neg_add]
      rfl

theorem head_mirror (c : Int) (g : List (SceneGeometry K)) :
    (mirror c g).head? = g.getLast?.map (SceneGeometry.mirrored c) := by
  unfold mirror
  rw [List.head?_reverse, List.getLast?_map]

theorem getLast_mirror (c : Int) (g : List (SceneGeometry K)) :
    (mirror c g).getLast? = g.head?.map (SceneGeometry.mirrored c) := by
  unfold mirror
  rw [List.getLast?_reverse, List.head?_map]

end Mirror

section Search
variable {K : Type} [LinearOrder K]

theorem orders_lt {α : Type} (f : α → K) :
    Orders (fun a => some (f a)) fun a b => decide (f a < f b) := by
  intro a b
  simp

theorem minElement_spec {α : Type} (f : α → K) {xs : List α} (some_ : xs ≠ []) :
    ∃ x, minElement (fun a b => decide (f a < f b)) xs = some x ∧ x ∈ xs ∧ ∀ y ∈ xs, f x ≤ f y := by
  cases xs with
  | nil => exact absurd rfl some_
  | cons x xs =>
      obtain ⟨q, at_, least⟩ := foldl_keepLess_le (orders_lt f) xs rfl
      obtain rfl := Option.some_inj.mp at_
      exact ⟨_, rfl, foldl_keepLess_mem xs x, fun y member => least y member _ rfl⟩

theorem maxElement_spec {xs : List K} (some_ : xs ≠ []) :
    ∃ x, maxElement (fun a b => decide (a < b)) xs = some x ∧ x ∈ xs ∧ ∀ y ∈ xs, y ≤ x := by
  obtain ⟨x, found, member, greatest⟩ := minElement_spec (K := Kᵒᵈ) id some_
  exact ⟨x, found, member, greatest⟩

theorem minElement_zipIdx {before after : List K} {r : K} (unique : ∀ x ∈ before ++ after, r < x) :
    minElement (fun a b => decide (a.1 < b.1)) (before ++ r :: after).zipIdx =
      some (r, before.length) := by
  have listed : (r, before.length) ∈ (before ++ r :: after).zipIdx := by
    rw [List.mem_zipIdx_iff_getElem?]
    simp
  obtain ⟨⟨v, i⟩, found, member, least⟩ :=
    minElement_spec (Prod.fst : K × Nat → K) (List.ne_nil_of_mem listed)
  have below : v ≤ r := least _ listed
  rw [List.mem_zipIdx_iff_getElem?] at member
  rw [found]
  rcases lt_trichotomy i before.length with less | rfl | greater
  · rw [List.getElem?_append_left less] at member
    exact absurd below (unique v (List.mem_append_left _ (List.mem_of_getElem? member))).not_ge
  · rw [List.getElem?_append_right le_rfl, Nat.sub_self, List.getElem?_cons_zero, Option.some_inj]
      at member
    rw [member]
  · obtain ⟨j, is⟩ := Nat.exists_eq_add_of_lt greater
    rw [is, List.getElem?_append_right (by omega),
      show before.length + j + 1 - before.length = j + 1 by omega, List.getElem?_cons_succ]
        at member
    exact absurd below (unique v (List.mem_append_right _ (List.mem_of_getElem? member))).not_ge

end Search

section Segment
variable {K : Type} [LinearOrder K]

/-- The samples before and after the one with the least range. -/
structure Closest (g before after : List (SceneGeometry K)) (closest : SceneGeometry K) : Prop where
  samples : validSamples g = before ++ closest :: after
  unique : ∀ sg ∈ before ++ after, closest.rangeM < sg.rangeM

structure Extent (g : List (SceneGeometry K)) (front back : SceneGeometry K) (rMax : K) : Prop where
  first : g.head? = some front
  last : g.getLast? = some back
  member : rMax ∈ (validSamples g).map fun sg => sg.rangeM
  greatest : ∀ r ∈ (validSamples g).map fun sg => sg.rangeM, r ≤ rMax

variable {g before after : List (SceneGeometry K)} {closest front back : SceneGeometry K} {rMax : K}

theorem Closest.length (least : Closest g before after closest) :
    before.length + after.length + 1 = (validSamples g).length := by
  rw [least.samples, List.length_append, List.length_cons]
  omega

theorem Closest.extent (least : Closest g before after closest) :
    ∃ front back rMax, Extent g front back rMax := by
  have listed : closest ∈ validSamples g := by
    rw [least.samples]
    exact List.mem_append_right _ List.mem_cons_self
  have some_ : g ≠ [] := List.ne_nil_of_mem (List.mem_filter.mp listed).1
  have ranges : ((validSamples g).map fun sg => sg.rangeM) ≠ [] :=
    List.ne_nil_of_mem (List.mem_map_of_mem listed)
  obtain ⟨rMax, -, member, greatest⟩ := maxElement_spec ranges
  exact ⟨_, _, rMax, List.head?_eq_some_head some_,
    List.getLast?_eq_some_getLast some_, member, greatest⟩

end Segment

section Classification
variable {K : Type} [Field K] [LinearOrder K]

def classifySegment (g : List (SceneGeometry K)) (minDurationS : K)
    (classifyUnknownWhenDegraded : Bool) : SegmentClass :=
  classify Int.cast Nat.cast abs g minDurationS classifyUnknownWhenDegraded

def LongEnough (g : List (SceneGeometry K)) (minDurationS : K) : Prop :=
  ∃ front back, g.head? = some front ∧ g.getLast? = some back ∧
    minDurationS ≤ ((back.tsNs - front.tsNs : Int) : K) / 1e9

def Varies (samples : List (SceneGeometry K)) (closest : SceneGeometry K) : Prop :=
  ∃ farthest ∈ samples, (∀ sg ∈ samples, sg.rangeM ≤ farthest.rangeM) ∧ 0 < farthest.rangeM ∧
    0.15 < (farthest.rangeM - closest.rangeM) / farthest.rangeM

section Extent
variable {g before after : List (SceneGeometry K)} {closest front back : SceneGeometry K} {rMax : K}

theorem Closest.mirror (c : Int) (least : Closest g before after closest) :
    Closest (mirror c g) (mirror c after) (mirror c before) (closest.mirrored c) where
  samples := by
    rw [validSamples_mirror, least.samples]
    simp [Exact.mirror]
  unique := by
    intro sg member
    simp only [Exact.mirror, List.mem_append, List.mem_reverse, List.mem_map] at member
    rcases member with ⟨old, inside, rfl⟩ | ⟨old, inside, rfl⟩
    · exact least.unique old (List.mem_append_right _ inside)
    · exact least.unique old (List.mem_append_left _ inside)

theorem Extent.mirror (c : Int) (extent : Extent g front back rMax) :
    Extent (mirror c g) (back.mirrored c) (front.mirrored c) rMax where
  first := by rw [head_mirror, extent.last, Option.map_some]
  last := by rw [getLast_mirror, extent.first, Option.map_some]
  member := by
    rw [validSamples_mirror, ranges_mirror]
    exact List.mem_reverse.mpr extent.member
  greatest := by
    rw [validSamples_mirror, ranges_mirror]
    exact fun r inside => extent.greatest r (List.mem_reverse.mp inside)

theorem Extent.longEnough_iff (extent : Extent g front back rMax) (minDurationS : K) :
    LongEnough g minDurationS ↔ minDurationS ≤ ((back.tsNs - front.tsNs : Int) : K) / 1e9 := by
  unfold LongEnough
  rw [extent.first, extent.last]
  simp

theorem Extent.varies_iff (extent : Extent g front back rMax) :
    Varies (validSamples g) closest ↔ 0 < rMax ∧ 0.15 < (rMax - closest.rangeM) / rMax := by
  obtain ⟨farthest, inside, rfl⟩ := List.mem_map.mp extent.member
  have all := List.forall_mem_map.mp extent.greatest
  constructor
  · rintro ⟨other, listed, below, deep⟩
    rwa [le_antisymm (all other listed) (below farthest inside)] at deep
  · exact fun deep => ⟨farthest, inside, all, deep⟩

variable [IsStrictOrderedRing K]

theorem Closest.verdict (least : Closest g before after closest)
    (extent : Extent g front back rMax) (minDurationS : K) (degraded : Bool) :
    classifySegment g minDurationS degraded =
      Exact.verdict abs
        (((back.tsNs - front.tsNs : Int) : K) / 1e9) minDurationS closest.rangeM rMax
        (((validSamples g).map fun sg => sg.closingSpeedMps).sum / (validSamples g).length)
          before.length
        (validSamples g).length := by
  have low : minElement (fun a b => decide (a.1 < b.1))
      ((validSamples g).map fun sg => sg.rangeM).zipIdx =
      some (closest.rangeM, before.length) := by
    have unique : ∀ r ∈ before.map (fun sg => sg.rangeM) ++ after.map (fun sg => sg.rangeM),
        closest.rangeM < r := by
      rw [← List.map_append]
      exact List.forall_mem_map.mpr least.unique
    have found := minElement_zipIdx unique
    rw [List.length_map] at found
    rw [least.samples, List.map_append, List.map_cons, found]
  obtain ⟨r, high, member, greatest⟩ := maxElement_spec (List.ne_nil_of_mem extent.member)
  obtain rfl : r = rMax := le_antisymm (extent.greatest r member) (greatest rMax extent.member)
  unfold classifySegment classify
  dsimp only
  rw [extent.first, extent.last, low, high, totalClosing_eq, List.length_map]

end Extent

variable [IsStrictOrderedRing K]

theorem trend_mirrored (rangeVariation meanClosing : K) :
    trend abs rangeVariation (-meanClosing) = (trend abs rangeVariation meanClosing).mirrored := by
  have half : (0 : K) < 0.5 := by norm_num
  unfold trend
  rw [abs_neg]
  by_cases still : rangeVariation < 0.10 ∧ |meanClosing| < 1.0
  · rw [if_pos still, if_pos still]
    rfl
  · rw [if_neg still, if_neg still]
    rcases lt_or_ge 0.5 meanClosing with comes | slow
    · rw [if_pos comes, if_neg (by linarith), if_pos (neg_lt_neg comes)]
      rfl
    · rcases lt_or_ge meanClosing (-0.5) with goes | near
      · rw [if_neg slow.not_gt, if_pos goes, if_pos (lt_neg.mpr goes)]
        rfl
      · rw [if_neg slow.not_gt, if_neg near.not_gt, if_neg (by linarith), if_neg (by linarith)]
        rfl

theorem middle_iff {a b n : ℕ} (total : a + b + 1 = n) :
    ((n / 5 < a ∧ a < 4 * n / 5) ↔ (n / 5 < b ∧ b < 4 * n / 5)) ↔ ¬ (5 * a = n ∨ 5 * b = n) := by
  omega

theorem verdict_mirrored_iff {dur minDurationS rMin rMax meanClosing : K} {a b n : ℕ}
    (total : a + b + 1 = n) :
    verdict abs dur minDurationS rMin rMax (-meanClosing) b n =
        (verdict abs dur minDurationS rMin rMax meanClosing a n).mirrored ↔
      ¬ (minDurationS ≤ dur ∧ (0 < rMax ∧ 0.15 < (rMax - rMin) / rMax) ∧
        (5 * a = n ∨ 5 * b = n)) := by
  have limit : ¬ (0.15 : K) < 0.0 := by norm_num
  unfold verdict
  dsimp only
  rcases lt_or_ge dur minDurationS with short | long
  · rw [if_pos short, if_pos short]
    exact ⟨fun _ both => short.not_ge both.1, fun _ => rfl⟩
  rw [if_neg long.not_gt, if_neg long.not_gt]
  generalize variation : (if 0 < rMax then (rMax - rMin) / rMax else 0.0) = rangeVariation
  have varies : 0.15 < rangeVariation ↔ 0 < rMax ∧ 0.15 < (rMax - rMin) / rMax := by
    rw [← variation]
    split
    · next pos => simp only [pos, true_and]
    · next none => simp only [none, false_and, limit]
  rw [← varies, trend_mirrored]
  by_cases enough : 0.15 < rangeVariation
  · simp only [long, enough, true_and]
    rw [← middle_iff total]
    obtain ⟨other, other'⟩ := trend_ne_passBy abs rangeVariation meanClosing
    split <;> split
    · next inB inA => exact ⟨fun _ => ⟨fun _ => inB, fun _ => inA⟩, fun _ => rfl⟩
    · next inB notA =>
             exact ⟨fun same => absurd same.symm other, fun same => absurd (same.mpr inB) notA⟩
    · next notB inA => exact ⟨fun same => absurd same other, fun same => absurd (same.mp inA) notB⟩
    · next notB notA =>
             exact ⟨fun _ => ⟨fun inA => absurd inA notA, fun inB => absurd inB notB⟩, fun _ => rfl⟩
  · simp only [enough, false_and, and_false, if_false, not_false_iff]

/-- The class of a segment with one closest sample is mirrored with the samples exactly unless a
minimum that is deep enough lies one fifth from an end. -/
theorem classify_mirrored_iff (c : Int) {g before after : List (SceneGeometry K)}
    {closest : SceneGeometry K} (least : Closest g before after closest)
    (minDurationS : K) (degraded : Bool) :
    classifySegment (mirror c g) minDurationS degraded =
      (classifySegment g minDurationS degraded).mirrored ↔
      ¬ (LongEnough g minDurationS ∧ Varies (validSamples g) closest ∧
        (5 * before.length = (validSamples g).length ∨
          5 * after.length = (validSamples g).length)) := by
  obtain ⟨front, back, rMax, extent⟩ := least.extent
  have lengths : (mirror c (validSamples g)).length = (validSamples g).length := by
    rw [mirror, List.length_reverse, List.length_map]
  have length : (mirror c after).length =
      after.length := by rw [mirror, List.length_reverse, List.length_map]
  have same : (front.mirrored c).tsNs - (back.mirrored c).tsNs = back.tsNs - front.tsNs :=
    sub_sub_sub_cancel_left _ _ _
  rw [(least.mirror c).verdict (extent.mirror c), least.verdict extent, validSamples_mirror,
    totalClosing_mirror, lengths, length, same, neg_div, extent.longEnough_iff, extent.varies_iff]
  exact verdict_mirrored_iff least.length

end Classification

def rangesAt (ranges : List ℚ) : List (SceneGeometry ℚ) :=
  ranges.mapIdx fun i r =>
    { tsNs := i * 1000000000, rangeM := r, closingSpeedMps := 0, valid := true }

theorem middle_closest :
    Closest (rangesAt [10, 10, 5, 10, 10]) (rangesAt [10, 10])
      ((rangesAt [10, 10, 5, 10, 10]).drop 3)
      ⟨2000000000, 5, 0, true⟩ where
  samples := rfl
  unique := by
    simp only [rangesAt, List.mapIdx_cons, List.mapIdx_nil, List.drop_succ_cons,
      List.drop_zero, List.cons_append, List.nil_append, List.forall_mem_cons]
    norm_num

theorem middleMinimum_mirrored :
    classifySegment (mirror 0 (rangesAt [10, 10, 5, 10, 10])) 1 false =
      (classifySegment (rangesAt [10, 10, 5, 10, 10]) 1 false).mirrored :=
  (classify_mirrored_iff 0 middle_closest 1 false).mpr fun both => absurd both.2.2 (by decide)

/-- The second of five samples is the closest; from the other end it is the fourth. -/
theorem secondOfFive_notMirrored :
    classifySegment (rangesAt [10, 5, 10, 10, 10]) 1 false = .unknown ∧
      classifySegment (mirror 0 (rangesAt [10, 5, 10, 10, 10])) 1 false = .passBy := by
  decide +kernel

end Exact
end LocalPC.Offline
