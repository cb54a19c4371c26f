import LocalPC.Offline.ConfigLoader
import LocalPC.Offline.SceneBuilder

namespace LocalPC.Offline
open Lib

inductive SegmentClass
  | approach
  | passBy
  | recede
  | stationary
  | unknown
  deriving DecidableEq, Repr

structure SceneSegment.Metrics where
  rangeMinM : Float := 0
  rangeMaxM : Float := 0
  rangeAtClosestM : Float := 0
  azimuthAtClosestDeg : Float := 0
  maxClosingSpeedMps : Float := 0
  durationS : Float := 0

structure SceneSegment where
  segmentId : Bytes
  eventId : Option Bytes := none
  tStartNs : Int := 0
  tEndNs : Int := 0
  segClass : SegmentClass := .unknown
  confidence : Float := 1.0
  metrics : SceneSegment.Metrics := {}

def maxElement {α : Type} (less : α → α → Bool) : List α → Option α
  | [] => none
  | x :: xs => some (xs.foldl (fun best y => if less best y then y else best) x)

def validRanges (g : List SceneGeometry) : List Float :=
  (g.filter fun sg => sg.valid).map fun sg => sg.rangeM

def lessFloat (a b : Float) : Bool := a < b

def classifySegment (g : List SceneGeometry) (minDurationS : Float)
    (classifyUnknownWhenDegraded : Bool) : SegmentClass :=
  let ranges := validRanges g
  match g.head?, g.getLast?, minElement (fun a b => lessFloat a.1 b.1) ranges.zipIdx,
    maxElement lessFloat ranges with
  | some front, some back, some (rMin, minIdx), some rMax =>
      let dur := Float.ofInt (back.tsNs - front.tsNs) / 1e9
      if dur < minDurationS then .unknown
      else
        let totalClosing :=
          (g.filter fun sg => sg.valid).foldl (fun total sg => total + sg.closingSpeedMps) 0.0
        let meanClosing := totalClosing / Float.ofNat ranges.length
        let rangeVariation := if 0 < rMax then (rMax - rMin) / rMax else 0.0
        if 0.15 < rangeVariation ∧ ranges.length / 5 < minIdx ∧ minIdx < 4 * ranges.length / 5 then
          .passBy
        else if rangeVariation < 0.10 ∧ meanClosing.abs < 1.0 then .stationary
        else if 0.5 < meanClosing then .approach
        else if meanClosing < -0.5 then .recede
        else .unknown
  -- no sample, or none that is valid
  | _, _, _, _ => if classifyUnknownWhenDegraded then .unknown else .unknown

namespace SceneBuilder

def sirenOn : Bytes := ascii "siren_on"
def sirenOff : Bytes := ascii "siren_off"

/-- The body of the loop over the events; the state is `pending_on` and the intervals. -/
def sirenStep (s : Int × List (Int × Int)) (ev : SceneEvent) : Int × List (Int × Int) :=
  let s := if ev.type = sirenOn then (ev.tStartNs, s.2) else s
  if ev.type = sirenOff ∧ 0 ≤ s.1 then (-1, s.2 ++ [(s.1, ev.tStartNs)]) else s

/-- `[on, off)`, and a siren that is still on at the end of the session. -/
def intervals (events : List SceneEvent) (geom : List SceneGeometry) : List (Int × Int) :=
  let s := events.foldl sirenStep (-1, [])
  match geom.getLast? with
  | some back => if 0 ≤ s.1 then s.2 ++ [(s.1, back.tsNs)] else s.2
  | none => s.2

def closer (a b : SceneGeometry) : Bool := a.valid && (!b.valid || lessFloat a.rangeM b.rangeM)

def segmentMetrics (segGeom : List SceneGeometry) : SceneSegment.Metrics :=
  let ranges := validRanges segGeom
  match minElement lessFloat ranges, maxElement lessFloat ranges with
  | some rangeMin, some rangeMax =>
      let metrics : SceneSegment.Metrics := { rangeMinM := rangeMin, rangeMaxM := rangeMax }
      let metrics :=
        match minElement closer segGeom with
        | some closest =>
            if closest.valid then
              { metrics with
                rangeAtClosestM := closest.rangeM, azimuthAtClosestDeg := closest.azimuthDeg }
            else metrics
        | none => metrics
      { metrics with
        maxClosingSpeedMps :=
          (segGeom.filter fun g => g.valid).foldl
            (fun maxCs g => stdMax maxCs g.closingSpeedMps) 0.0 }
  | _, _ => {}

def geometryIn (geom : List SceneGeometry) (t0 t1 : Int) : List SceneGeometry :=
  geom.filter fun g => t0 ≤ g.tsNs ∧ g.tsNs ≤ t1

def segment (cfg : SceneConfig) (geom : List SceneGeometry) (segmentId : Bytes)
    (interval : Int × Int) : SceneSegment :=
  let (t0, t1) := interval
  let segGeom := geometryIn geom t0 t1
  { segmentId
    tStartNs := t0
    tEndNs := t1
    segClass :=
      classifySegment segGeom
        (Float.ofInt cfg.segmentMinDurationMs / 1000.0) cfg.classifyUnknownWhenDegraded
    confidence := if segGeom.isEmpty then 0.3 else 0.9
    metrics := { segmentMetrics segGeom with durationS := Float.ofInt (t1 - t0) / 1e9 } }

def minDurNs (cfg : SceneConfig) : Int := cfg.segmentMinDurationMs * kNsPerMs

def buildSegments (cfg : SceneConfig) (newUuid : Nat → Bytes) (events : List SceneEvent)
    (geom : List SceneGeometry) :
    List SceneSegment :=
  ((intervals events geom).filter fun i => ¬ i.2 - i.1 < minDurNs cfg).mapIdx fun n i =>
    segment cfg geom (newUuid n) i

def linkedEvent (events : List SceneEvent) (seg : SceneSegment) : Option SceneEvent :=
  events.find? fun ev => ev.type = sirenOn ∧
    ((ev.tStartNs - seg.tStartNs).natAbs : Int) < 500 * kNsPerMs

def linkSegment (events : List SceneEvent) (seg : SceneSegment) : SceneSegment :=
  match linkedEvent events seg with
  | some ev => { seg with eventId := some ev.eventId }
  | none => seg

def linkSegmentsToEvents (segs : List SceneSegment)
    (events : List SceneEvent) : List SceneSegment :=
  segs.map (linkSegment events)

end SceneBuilder
end LocalPC.Offline
