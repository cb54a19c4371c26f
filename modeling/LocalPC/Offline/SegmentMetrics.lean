import LocalPC.Lib.FloatOrder
import LocalPC.Lib.LeastElement
import LocalPC.Offline.SirenPeriods

namespace LocalPC.Offline
open Lib

theorem orders_lessFloat : Orders placeOf lessFloat := by
  intro a b
  rw [← lt_iff_place]
  exact decide_eq_true_iff

theorem minElement_mem {α : Type} {less : α → α → Bool} {xs : List α} {x : α}
    (least : minElement less xs = some x) :
    x ∈ xs := by
  cases xs with
  | nil => cases least
  | cons y ys =>
      rw [← Option.some_inj.mp least]
      exact foldl_keepLess_mem ys y

theorem maxElement_eq {α : Type} (less : α → α → Bool) (xs : List α) :
    maxElement less xs = minElement (fun a b => less b a) xs := by
  cases xs <;> rfl

theorem minElement_map {α β : Type} (f : α → β) (less : β → β → Bool) (xs : List α) :
    minElement less (xs.map f) = (minElement (fun a b => less (f a) (f b)) xs).map f := by
  cases xs with
  | nil => rfl
  | cons x xs =>
      simp only [List.map_cons, minElement, Option.map_some, List.foldl_map, Option.some_inj]
      refine List.foldl_hom f fun best y => ?_
      split <;> rfl

namespace SceneBuilder

def lessRange (a b : SceneGeometry) : Bool := lessFloat a.rangeM b.rangeM

theorem keepLess_invalid {x : SceneGeometry} (invalid : x.valid = false) (best : SceneGeometry) :
    keepLess closer best x = best := by
  unfold keepLess closer
  rw [invalid]
  rfl

theorem foldl_closer_valid (xs : List SceneGeometry) {best : SceneGeometry}
    (valid : best.valid = true) :
    xs.foldl (keepLess closer) best = (xs.filter fun g => g.valid).foldl
      (keepLess lessRange) best := by
  induction xs generalizing best with
  | nil => rfl
  | cons x xs ih =>
      cases validX : x.valid with
      | false =>
          rw [List.filter_cons_of_neg (by rw [validX]; exact Bool.false_ne_true), List.foldl_cons,
            keepLess_invalid validX]
          exact ih valid
      | true =>
          have same : keepLess closer best x = keepLess lessRange best x := by
            unfold keepLess closer
            rw [validX, valid]
            rfl
          have valid' : (keepLess lessRange best x).valid = true := by
            unfold keepLess
            split
            · exact validX
            · exact valid
          rw [List.filter_cons_of_pos validX, List.foldl_cons, List.foldl_cons, same]
          exact ih valid'

theorem foldl_closer_invalid (xs : List SceneGeometry) {best : SceneGeometry}
    (invalid : best.valid = false) :
    xs.foldl (keepLess closer) best =
      (minElement lessRange (xs.filter fun g => g.valid)).getD best := by
  induction xs with
  | nil => rfl
  | cons x xs ih =>
      cases validX : x.valid with
      | false =>
          rw [List.filter_cons_of_neg (by rw [validX]; exact Bool.false_ne_true), List.foldl_cons,
            keepLess_invalid validX]
          exact ih
      | true =>
          have taken : keepLess closer best x = x := by
            unfold keepLess closer
            rw [validX, invalid]
            rfl
          rw [List.filter_cons_of_pos validX, List.foldl_cons, taken]
          exact foldl_closer_valid xs validX

theorem minElement_closer {segGeom : List SceneGeometry} {closest : SceneGeometry}
    (found : minElement lessRange (segGeom.filter fun g => g.valid) = some closest) :
    minElement closer segGeom = some closest := by
  cases segGeom with
  | nil => cases found
  | cons x xs =>
      cases valid : x.valid with
      | true =>
          rw [List.filter_cons_of_pos valid] at found
          rw [← found]
          exact congrArg some (foldl_closer_valid xs valid)
      | false =>
          rw [List.filter_cons_of_neg (by rw [valid]; exact Bool.false_ne_true)] at found
          refine congrArg some ((foldl_closer_invalid xs valid).trans ?_)
          rw [found]
          rfl

theorem map_minElement_lessFloat (samples : List SceneGeometry) :
    minElement lessFloat (samples.map fun g => g.rangeM) =
      (minElement lessRange samples).map fun g => g.rangeM :=
  minElement_map _ _ _

theorem map_maxElement_lessFloat (samples : List SceneGeometry) :
    maxElement lessFloat (samples.map fun g => g.rangeM) =
      (minElement (fun a b => lessRange b a) samples).map fun g => g.rangeM := by
  rw [maxElement_eq]
  exact minElement_map _ _ _

/-- The metrics of the valid samples of a segment, of which there is a first. -/
structure ConsistentMetrics (samples : List SceneGeometry) (first : SceneGeometry)
    (m : SceneSegment.Metrics) : Prop where
  atClosest : m.rangeAtClosestM = m.rangeMinM
  closest : ∃ g ∈ samples, g.rangeM = m.rangeMinM ∧ g.azimuthDeg = m.azimuthAtClosestDeg
  farthest : ∃ g ∈ samples, g.rangeM = m.rangeMaxM
  -- a search that starts at a NaN ends there
  ordered : m.rangeMinM ≤ m.rangeMaxM ↔ first.rangeM.isNaN = false
  between : first.rangeM.isNaN = false →
    ∀ g ∈ samples, g.rangeM.isNaN = false → m.rangeMinM ≤ g.rangeM ∧ g.rangeM ≤ m.rangeMaxM
  closing : m.maxClosingSpeedMps = 0.0 ∨ ∃ g ∈ samples, g.closingSpeedMps = m.maxClosingSpeedMps
  closing_nonneg : 0.0 ≤ m.maxClosingSpeedMps
  closing_le : ∀ g ∈ samples, g.closingSpeedMps.isNaN = false →
    g.closingSpeedMps ≤ m.maxClosingSpeedMps

section Metrics
variable {segGeom rest : List SceneGeometry} {first : SceneGeometry}

theorem segmentMetrics_eq (samples : segGeom.filter (fun g => g.valid) = first :: rest) :
    ∃ closest farthest,
      closest = rest.foldl (keepLess lessRange) first ∧
      farthest = rest.foldl (keepLess fun a b => lessRange b a) first ∧
      segmentMetrics segGeom =
        { rangeMinM := closest.rangeM
          rangeMaxM := farthest.rangeM
          rangeAtClosestM := closest.rangeM
          azimuthAtClosestDeg := closest.azimuthDeg
          maxClosingSpeedMps :=
            (first :: rest).foldl (fun maxCs g => stdMax maxCs g.closingSpeedMps) 0.0 } := by
  refine ⟨_, _, rfl, rfl, ?_⟩
  have least : minElement lessRange (segGeom.filter fun g => g.valid) =
      some (rest.foldl (keepLess lessRange) first) := by
    rw [samples]
    rfl
  have greatest : minElement (fun a b => lessRange b a) (segGeom.filter fun g => g.valid) =
      some (rest.foldl (keepLess fun a b => lessRange b a) first) := by
    rw [samples]
    rfl
  have valid : (rest.foldl (keepLess lessRange) first).valid = true :=
    (List.mem_filter.mp (minElement_mem least)).2
  unfold segmentMetrics validRanges
  simp only [map_minElement_lessFloat, map_maxElement_lessFloat,
    minElement_closer least, if_pos valid, samples]
  rfl

theorem orders_lessRange : Orders (fun g : SceneGeometry => placeOf g.rangeM) lessRange :=
  fun a b => orders_lessFloat a.rangeM b.rangeM

theorem ranges_between (number : first.rangeM.isNaN = false) :
    ∀ g ∈ first :: rest, g.rangeM.isNaN = false →
      (rest.foldl (keepLess lessRange) first).rangeM ≤ g.rangeM ∧
      g.rangeM ≤ (rest.foldl (keepLess fun a b => lessRange b a) first).rangeM := by
  obtain ⟨p, at_⟩ := exists_place number
  obtain ⟨low, atLow, least⟩ := foldl_keepLess_le orders_lessRange rest at_
  obtain ⟨high, atHigh, greatest⟩ :=
    foldl_keepLess_le orders_lessRange.flip rest (Option.map_eq_some_iff.mpr ⟨p, at_, rfl⟩)
  obtain ⟨q, found, rfl⟩ := Option.map_eq_some_iff.mp atHigh
  intro g member numberG
  obtain ⟨r, atG⟩ := exists_place numberG
  rw [le_iff_place, le_iff_place]
  exact ⟨⟨low, atLow, r, atG, least g member r atG⟩,
    ⟨r, atG, q, found, greatest g member _ (Option.map_eq_some_iff.mpr ⟨r, atG, rfl⟩)⟩⟩

theorem ranges_ordered_iff :
    (rest.foldl (keepLess lessRange) first).rangeM ≤
      (rest.foldl (keepLess fun a b => lessRange b a) first).rangeM ↔
      first.rangeM.isNaN = false := by
  constructor
  · intro le
    cases nan : first.rangeM.isNaN with
    | false => rfl
    | true =>
        have stays := foldl_keepLess_none orders_lessRange rest (place_none nan)
        obtain ⟨p, at_, -⟩ := (le_iff_place _ _).mp le
        rw [stays, Option.mem_def, place_none nan] at at_
        cases at_
  · intro number
    have between := @ranges_between rest first number first List.mem_cons_self number
    obtain ⟨p, atP, r, atR, first_⟩ := (le_iff_place _ _).mp between.1
    obtain ⟨r', atR', q, atQ, second⟩ := (le_iff_place _ _).mp between.2
    obtain rfl : r = r' := Option.some_inj.mp (atR.symm.trans atR')
    exact (le_iff_place _ _).mpr ⟨p, atP, q, atQ, first_.trans second⟩

theorem foldl_stdMax (samples : List SceneGeometry) (start : Float) :
    samples.foldl (fun maxCs g => stdMax maxCs g.closingSpeedMps) start =
      (samples.map fun g => g.closingSpeedMps).foldl (keepLess fun a b => lessFloat b a) start := by
  rw [List.foldl_map]
  congr 1
  funext maxCs g
  unfold stdMax keepLess lessFloat
  simp only [decide_eq_true_eq]

theorem closing_spec (samples : List SceneGeometry) :
    let maxCs := samples.foldl (fun maxCs g => stdMax maxCs g.closingSpeedMps) 0.0
    (maxCs = 0.0 ∨ ∃ g ∈ samples, g.closingSpeedMps = maxCs) ∧ 0.0 ≤ maxCs ∧
      ∀ g ∈ samples, g.closingSpeedMps.isNaN = false → g.closingSpeedMps ≤ maxCs := by
  intro maxCs
  have search : maxCs = _ := foldl_stdMax samples 0.0
  have member :=
    @foldl_keepLess_mem _ (fun a b => lessFloat b a) (samples.map fun g => g.closingSpeedMps) 0.0
  obtain ⟨zero, atZero⟩ := exists_place (x := 0.0) (by decide)
  obtain ⟨high, atHigh, greatest⟩ :=
    foldl_keepLess_le orders_lessFloat.flip (samples.map fun g => g.closingSpeedMps)
    (Option.map_eq_some_iff.mpr ⟨zero, atZero, rfl⟩)
  obtain ⟨q, found, rfl⟩ := Option.map_eq_some_iff.mp atHigh
  rw [← search] at member found
  rw [List.mem_cons, List.mem_map] at member
  have above {x : Float} (listed : x ∈ 0.0 :: samples.map fun g => g.closingSpeedMps)
      (number : x.isNaN = false) :
      x ≤ maxCs := by
    obtain ⟨r, atR⟩ := exists_place number
    exact (le_iff_place _ _).mpr
      ⟨r, atR, q, found, greatest x listed _ (Option.map_eq_some_iff.mpr ⟨r, atR, rfl⟩)⟩
  exact ⟨member, above List.mem_cons_self (by decide),
    fun g inside number => above (List.mem_cons_of_mem _ (List.mem_map_of_mem inside)) number⟩

theorem segmentMetrics_consistent (samples : segGeom.filter (fun g => g.valid) = first :: rest) :
    ConsistentMetrics (first :: rest) first (segmentMetrics segGeom) := by
  obtain ⟨closest, farthest, rfl, rfl, metrics⟩ := segmentMetrics_eq samples
  obtain ⟨closing, nonneg, le⟩ := closing_spec (first :: rest)
  rw [metrics]
  exact {
    atClosest := rfl
    closest := ⟨_, foldl_keepLess_mem rest first, rfl, rfl⟩
    farthest := ⟨_, foldl_keepLess_mem rest first, rfl⟩
    ordered := ranges_ordered_iff
    between := ranges_between
    closing := closing
    closing_nonneg := nonneg
    closing_le := le }

end Metrics

def samplesIn (geom : List SceneGeometry) (seg : SceneSegment) : List SceneGeometry :=
  (geometryIn geom seg.tStartNs seg.tEndNs).filter fun g => g.valid

theorem mem_buildSegments {cfg : SceneConfig} {newUuid : Nat → Bytes} {events : List SceneEvent}
    {geom : List SceneGeometry} {seg : SceneSegment}
    (member : seg ∈ buildSegments cfg newUuid events geom) :
    ∃ segmentId interval, seg = segment cfg geom segmentId interval := by
  obtain ⟨n, bound, is⟩ := List.mem_mapIdx.mp member
  exact ⟨_, _, is.symm⟩

theorem ConsistentMetrics.withDuration {samples : List SceneGeometry} {first : SceneGeometry}
    {m : SceneSegment.Metrics}
    (consistent : ConsistentMetrics samples first m) (durationS : Float) :
    ConsistentMetrics samples first { m with durationS } :=
  { consistent with }

/-- Every segment with a valid sample in it describes one closest point, whatever invalid samples
there are. -/
theorem segments_consistent (cfg : SceneConfig) (newUuid : Nat → Bytes) (events : List SceneEvent)
    (geom : List SceneGeometry) :
    ∀ seg ∈ buildSegments cfg newUuid events geom, ∀ first rest,
      samplesIn geom seg = first :: rest →
      ConsistentMetrics (samplesIn geom seg) first seg.metrics := by
  intro seg member first rest samples
  obtain ⟨segmentId, interval, rfl⟩ := mem_buildSegments member
  rw [samples]
  exact (segmentMetrics_consistent samples).withDuration _

def oneSecond : List SceneEvent := [sirenEvent sirenOn 0, sirenEvent sirenOff 1000000000]

theorem oneSecond_segment (geom : List SceneGeometry) :
    segment {} geom [] (0, 1000000000) ∈ buildSegments {} (fun _ => []) oneSecond geom := by
  have one : (intervals oneSecond geom).filter
      (fun i => ¬ i.2 - i.1 < minDurNs {}) = [(0, 1000000000)] := by
    rw [intervals_eq_finish]
    cases lastTime geom <;> rfl
  unfold buildSegments
  rw [one]
  exact List.mem_cons_self

def validSample : SceneGeometry :=
  { tsNs := 5, rangeM := 20.0, closingSpeedMps := 3.0, valid := true }

theorem validSample_consistent :
    let geom := [{}, validSample, { tsNs := 6 }]
    let seg := segment {} geom [] (0, 1000000000)
    ConsistentMetrics (samplesIn geom seg) validSample seg.metrics :=
  segments_consistent {} (fun _ => []) oneSecond [{}, validSample, { tsNs := 6 }] _
    (oneSecond_segment _) validSample [] rfl

def nanSample : SceneGeometry := { rangeM := 0.0 / 0.0, valid := true }

theorem nanSample_unordered :
    ∃ seg ∈ buildSegments {} (fun _ => []) oneSecond [nanSample],
      samplesIn [nanSample] seg ≠ [] ∧ ¬ seg.metrics.rangeMinM ≤ seg.metrics.rangeMaxM := by
  refine ⟨_, oneSecond_segment _, List.cons_ne_nil _ _, fun ordered => ?_⟩
  have consistent : ConsistentMetrics [nanSample] nanSample (segmentMetrics [nanSample]) :=
    segmentMetrics_consistent rfl
  have number := consistent.ordered.mp ordered
  exact absurd number (by decide)

end SceneBuilder
end LocalPC.Offline
