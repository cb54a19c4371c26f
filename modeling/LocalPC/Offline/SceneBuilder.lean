import LocalPC.Offline.SceneGeometry

/-!
# Scene events

`SceneBuilder::extract_events` of `scene_builder.cpp`. The ids of the events are made at random;
here `newUuid i` is the one of event `i`.
-/

namespace LocalPC.Offline
open Lib

structure SceneEvent.Geometry where
  rangeM : Float
  azimuthDeg : Float
  egoLatDeg : Float
  egoLonDeg : Float
  srcLatDeg : Float
  srcLonDeg : Float

structure SceneEvent where
  eventId : Bytes
  type : Bytes
  tStartNs : Int
  tEndNs : Int
  sourceTsNs : Int
  sourceEventId : UInt64
  confidence : Float
  flags : List Bytes
  geometryAtEvent : Option SceneEvent.Geometry

def sourceEventTypeStr (t : UInt16) : Bytes :=
  match t with
  | 1 => ascii "siren_on"
  | 2 => ascii "siren_off"
  | 3 => ascii "mode_change"
  | 4 => ascii "user_marker"
  | 5 => ascii "scenario_start"
  | 6 => ascii "scenario_stop"
  | _ => ascii "unknown"

def nearestGeom (geom : List SceneGeometry) (tsNs : Int) : Option SceneGeometry :=
  minElement (fun a b => (a.tsNs - tsNs).natAbs < (b.tsNs - tsNs).natAbs) geom

namespace SceneBuilder

def eventFlags (flags : UInt16) : List Bytes :=
  (if flags &&& 0x01 ≠ 0 then [ascii "manual_trigger"] else []) ++
  (if flags &&& 0x02 ≠ 0 then [ascii "auto_trigger"] else []) ++
  (if flags &&& 0x04 ≠ 0 then [ascii "gps_time_valid"] else [])

def geometryAt (geom : List SceneGeometry) (tsNs : Int) : Option SceneEvent.Geometry :=
  match nearestGeom geom tsNs with
  | none => none
  | some g =>
      if g.valid then
        some
          { rangeM := g.rangeM
            azimuthDeg := g.azimuthDeg
            egoLatDeg := g.egoLatDeg
            egoLonDeg := g.egoLonDeg
            srcLatDeg := g.srcLatDeg
            srcLonDeg := g.srcLonDeg }
      else none

def sceneEvent (eventId : Bytes) (geom : List SceneGeometry) (se : SourceEvent) : SceneEvent where
  eventId := eventId
  type := sourceEventTypeStr se.eventType
  tStartNs := se.tsEgoNs
  tEndNs := wrapInt64 (se.tsEgoNs + if 0 < se.durationNs then se.durationNs else 0)
  sourceTsNs := se.tsNs
  sourceEventId := se.eventId
  confidence := 1.0
  flags := eventFlags se.flags
  geometryAtEvent := geometryAt geom se.tsEgoNs

def extractEvents (newUuid : Nat → Bytes) (srcEvents : List SourceEvent)
    (geom : List SceneGeometry) :
    List SceneEvent :=
  srcEvents.mapIdx fun i se => sceneEvent (newUuid i) geom se

end SceneBuilder
end LocalPC.Offline
