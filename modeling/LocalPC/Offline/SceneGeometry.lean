import LocalPC.Lib.FloatText
import LocalPC.Offline.TimeAligner

namespace LocalPC.Offline
open Lib

def kPI : Float := 3.14159265358979323846
def kDeg : Float := kPI / 180.0
def kRad : Float := 180.0 / kPI
def kA : Float := 6378137.0
def kE2 : Float := 6.69437999014e-3

structure EnuVector where
  eastM : Float
  northM : Float
  upM : Float
  rangeM : Float

def toEcef (lat lon alt : Float) : Float × Float × Float :=
  let rl := lat * kDeg
  let rl2 := lon * kDeg
  let n := kA / Float.sqrt (1.0 - kE2 * Float.sin rl * Float.sin rl)
  ((n + alt) * Float.cos rl * Float.cos rl2, (n + alt) * Float.cos rl * Float.sin rl2,
    (n * (1.0 - kE2) + alt) * Float.sin rl)

def geodeticToEnu (refLat refLon refAlt tgtLat tgtLon tgtAlt : Float) : EnuVector :=
  let (rx, ry, rz) := toEcef refLat refLon refAlt
  let (tx, ty, tz) := toEcef tgtLat tgtLon tgtAlt
  let dx := tx - rx
  let dy := ty - ry
  let dz := tz - rz
  let sl := Float.sin (refLat * kDeg)
  let cl := Float.cos (refLat * kDeg)
  let sl2 := Float.sin (refLon * kDeg)
  let cl2 := Float.cos (refLon * kDeg)
  let eastM := -sl2 * dx + cl2 * dy
  let northM := -sl * cl2 * dx - sl * sl2 * dy + cl * dz
  { eastM
    northM
    upM := cl * cl2 * dx + cl * sl2 * dy + sl * dz
    rangeM := Float.sqrt (eastM * eastM + northM * northM) }

def computeRange (enu : EnuVector) : Float := enu.rangeM

/-- `std::fmod(x, n)`: the remainder of the magnitudes, with the sign of `x`. -/
def fmod (x : Float) (n : Nat) : Float :=
  if x.isFinite then
    let (negative, num, den) := floatParts x
    let r := (Float.ofNat (num % (n * den))).scaleB (-(Nat.log2 den : Int))
    if negative then -r else r
  else 0.0 / 0.0

def computeAzimuth (enu : EnuVector) (egoHeadingDeg : Float) : Float :=
  let bearing := Float.atan2 enu.eastM enu.northM * kRad
  let az := fmod (bearing - egoHeadingDeg) 360
  if az < 0 then az + 360.0 else az

structure SceneGeometry where
  tsNs : Int := 0
  rangeM : Float := 0
  azimuthDeg : Float := 0
  closingSpeedMps : Float := 0
  egoLatDeg : Float := 0
  egoLonDeg : Float := 0
  srcLatDeg : Float := 0
  srcLonDeg : Float := 0
  valid : Bool := false

def computeClosingSpeed (prev cur : SceneGeometry) (dtS : Float) : Float :=
  if dtS < 1e-9 then 0.0 else (prev.rangeM - cur.rangeM) / dtS

namespace SceneCalculator

def geometry (prev : Option SceneGeometry) (s : AlignedSample) : SceneGeometry :=
  let g : SceneGeometry :=
    { tsNs := s.tNs
      egoLatDeg := s.egoLat
      egoLonDeg := s.egoLon
      srcLatDeg := s.srcLat
      srcLonDeg := s.srcLon }
  if s.srcValid && 0 < s.egoFix then
    let enu := geodeticToEnu s.egoLat s.egoLon s.egoAlt s.srcLat s.srcLon s.srcAlt
    let g := { g with
      rangeM := computeRange enu
      azimuthDeg := computeAzimuth enu s.egoHeading.toFloat
      valid := true }
    match prev with
    | none => g
    | some prev =>
        if prev.valid then
          { g with
            closingSpeedMps := computeClosingSpeed prev g (Float.ofInt (g.tsNs - prev.tsNs) / 1e9) }
        else g
  else g

def computeFrom (prev : Option SceneGeometry) : List AlignedSample → List SceneGeometry
  | [] => []
  | s :: samples =>
      let g := geometry prev s
      g :: computeFrom (if g.valid then some g else prev) samples

def compute (samples : List AlignedSample) : List SceneGeometry := computeFrom none samples

theorem geometry_valid (prev : Option SceneGeometry) (s : AlignedSample) :
    (geometry prev s).valid = (s.srcValid && decide (0 < s.egoFix)) := by
  unfold geometry
  cases seen : s.srcValid && decide (0 < s.egoFix) with
  | false => rw [if_neg Bool.false_ne_true]
  | true =>
      rw [if_pos rfl]
      dsimp only
      split
      · rfl
      · split <;> rfl

theorem computeFrom_valid (prev : Option SceneGeometry) (samples : List AlignedSample) :
    (computeFrom prev samples).map SceneGeometry.valid =
      samples.map fun s => s.srcValid && decide (0 < s.egoFix) := by
  induction samples generalizing prev with
  | nil => rfl
  | cons s samples ih => rw [computeFrom, List.map_cons, List.map_cons, geometry_valid, ih]

theorem compute_valid (samples : List AlignedSample) :
    (compute samples).map SceneGeometry.valid = samples.map fun s =>
      s.srcValid && decide (0 < s.egoFix) :=
  computeFrom_valid none samples

end SceneCalculator
end LocalPC.Offline
