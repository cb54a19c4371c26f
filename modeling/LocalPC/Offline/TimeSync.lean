import LocalPC.Offline.StreamValidation

/-!
# Time synchronisation

`time_sync.cpp`, less the texts of the report. The times of the correlation are unbounded. Those of the
fallback and those that `apply_offset` stores are wrapped to 64 bits, and a cast that does not fit gives the
least number, as on x86-64: the source leaves the results undefined.
-/

namespace LocalPC.Offline
open Lib

/-! ## The standard library -/

def minElement {α : Type} (less : α → α → Bool) : List α → Option α
  | [] => none
  | x :: xs => some (xs.foldl (fun best y => if less y best then y else best) x)

/-- `std::sort` by a time. Entries of one time keep their order, which the source leaves open. -/
def sortByTime {α : Type} (tsNs : α → Int) (entries : List α) : List α :=
  entries.mergeSort fun a b => tsNs a ≤ tsNs b

/-- `std::min` and `std::max`, which return the first argument when the two do not compare. -/
def stdMin (a b : Float) : Float := if b < a then b else a
def stdMax (a b : Float) : Float := if a < b then b else a

def wrapInt64 (t : Int) : Int := t.bmod (2 ^ 64)

/-! ## Types -/

structure SyncConfig where
  minConfidence : Float := 0.7
  maxOffsetSearchS : Float := 30.0
  failOnSyncError : Bool := false

structure ClockEstimate where
  offsetNs : Int := 0
  driftPpm : Float := 0
  rmseNs : Float := 0
  confidence : Float := 0
  method : Bytes := ascii "unknown"

inductive SyncStatus
  | syncOk
  | syncDegraded
  | syncFailed
  deriving DecidableEq, Repr

structure SyncReport where
  status : SyncStatus := .syncFailed
  method : Bytes := ascii "unknown"
  offsetNs : Int := 0
  driftPpm : Float := 0
  rmseNs : Float := 0
  confidence : Float := 0
  searchWindowS : Float := 30.0
  alignedValidRange : Option TimeRange := none
  notes : List Bytes := []

def kSirenOn : UInt16 := 1

def emDash : Bytes := [0xE2, 0x80, 0x94]

/-! ## GNSS cross-correlation -/

def good (g : GnssPoint) : Bool := 0 < g.fixQuality && decide (g.hdop < 5)

/-- `while (j + 1 < pts.size() && pts[j+1].ts_ns <= t) ++j;` on the points from `j` on. -/
def advance (t : Int) : List GnssPoint → List GnssPoint
  | p :: next :: rest => if next.tsNs ≤ t then advance t (next :: rest) else p :: next :: rest
  | pts => pts

/-- `n` speeds on the grid of one second, from step `i` on. -/
def resample (t0 : Int) (pts : List GnssPoint) (i : Nat) : Nat → List Float32
  | 0 => []
  | n + 1 =>
      let pts := advance (t0 + i * kNsPerSec) pts
      (pts.head?.map GnssPoint.speedMps).getD 0 :: resample t0 pts (i + 1) n

def sum (xs : List Float) : Float := xs.foldl (· + ·) 0

def correlate (egoSpeed srcSpeed : List Float32) : Option Float :=
  let cnt := Float.ofNat egoSpeed.length
  let mx := sum (egoSpeed.map Float32.toFloat) / cnt
  let my := sum (srcSpeed.map Float32.toFloat) / cnt
  let deviations := List.zipWith (fun x y => (x.toFloat - mx, y.toFloat - my)) egoSpeed srcSpeed
  let denom :=
    Float.sqrt (sum (deviations.map fun d => d.1 * d.1) * sum (deviations.map fun d => d.2 * d.2))
  if denom < 1e-9 then none else some (sum (deviations.map fun d => d.1 * d.2) / denom)

/-- The offsets from `-steps` to `steps` tenths of a second that are in the window. -/
def trialOffsets (steps maxOff : Int) : List Int :=
  ((List.range (2 * steps + 1).toNat).map fun k => (k - steps) * 100000000).filter fun off =>
    (off.natAbs : Int) ≤ maxOff

def searchOffset (egoSpeed : List Float32) (srcOk : List GnssPoint) (t0Ego : Int)
    (trials : List Int) : Float × Int :=
  trials.foldl
    (fun best off =>
      let shifted := srcOk.map fun g => { g with tsNs := g.tsNs - off }
      match correlate egoSpeed (resample t0Ego shifted 0 egoSpeed.length) with
      | none => best
      | some corr => if corr > best.1 then (corr, off) else best)
    (-1e99, 0)

def matchFixes (egoOk srcOk : List GnssPoint) (off : Int) : List (Float × Float) :=
  egoOk.filterMap fun eg =>
    let target := eg.tsNs + off
    match minElement (fun a b => (a.tsNs - target).natAbs < (b.tsNs - target).natAbs) srcOk with
    | none => none
    | some g =>
        if (g.tsNs - target).natAbs > 5 * kNsPerSec then none
        else some (Float.ofInt eg.tsNs, Float.ofInt g.tsNs)

/-- The linear regression `y = a + b * x`: the drift in ppm and the root of the mean squared error. -/
def fitDrift (pairs : List (Float × Float)) : Float × Float :=
  let n := Float.ofNat pairs.length
  let sx := sum (pairs.map Prod.fst)
  let sy := sum (pairs.map Prod.snd)
  let sxx := sum (pairs.map fun p => p.1 * p.1)
  let sxy := sum (pairs.map fun p => p.1 * p.2)
  let b := (n * sxy - sx * sy) / (n * sxx - sx * sx)
  let a := (sy - b * sx) / n
  let sse := sum (pairs.map fun p => (p.2 - (a + b * p.1)) * (p.2 - (a + b * p.1)))
  ((b - 1.0) * 1e6, Float.sqrt (sse / n))

def syncGnssXcorr (egoGps srcGps : List GnssPoint) (searchWindowS : Float) : ClockEstimate :=
  let est : ClockEstimate := { method := ascii "gnss_xcorr" }
  let egoOk := egoGps.filter good
  let srcOk := srcGps.filter good
  match egoOk.head?, egoOk.getLast?, srcOk.head? with
  | some first, some last, some _ =>
      let gridN := ((last.tsNs - first.tsNs).tdiv kNsPerSec).bmod (2 ^ 32) + 1
      if gridN < 5 then est
      else
        let egoSpeed := resample first.tsNs egoOk 0 gridN.toNat
        let maxOff := castInt64 (searchWindowS * Float.ofNat kNsPerSec)
        let best := searchOffset egoSpeed srcOk first.tsNs
          (trialOffsets (castInt (searchWindowS * 2) * 10) maxOff)
        let confidence := stdMax 0.0 (stdMin 1.0 ((best.1 + 1.0) / 2.0))
        let pairs := matchFixes egoOk srcOk best.2
        if 3 ≤ pairs.length then
          { est with
            offsetNs := best.2
            confidence
            driftPpm := (fitDrift pairs).1
            rmseNs := (fitDrift pairs).2 }
        else { est with offsetNs := best.2, confidence }
  -- a stream without a good fix has confidence zero, as has an empty one
  | _, _, _ => est

/-! ## The fallback -/

def sirenOnTimes (srcEvents : List SourceEvent) : List Int :=
  (srcEvents.filter fun e => e.eventType = kSirenOn).map SourceEvent.tsNs

/-- `std::abs(ao - shifted) < 500'000'000LL`, in 64 bits. -/
def hears (shifted ao : Int) : Bool := wrapInt64 (wrapInt64 (ao - shifted)).natAbs < 500000000

def countMatches (sirenOns audioOnsetTs : List Int) (off : Int) : Nat :=
  sirenOns.countP fun son => audioOnsetTs.any (hears (wrapInt64 (son - off)))

def bestMatches (sirenOns audioOnsetTs trials : List Int) : Nat × Int :=
  trials.foldl
    (fun best off =>
      let found := countMatches sirenOns audioOnsetTs off
      if found > best.1 then (found, off) else best)
    (0, 0)

/-- `for (int s = -steps; s <= steps; ++s)`, where the least `int` is its own negative. -/
def fallbackSteps (steps : Int) : List Int :=
  let start := (-steps).bmod (2 ^ 32)
  (List.range (steps - start + 1).toNat).map fun k : Nat => start + k

def syncEventAudioFallback (srcEvents : List SourceEvent) (audioOnsetTs : List Int)
    (searchWindowS : Float) :
    ClockEstimate :=
  let est : ClockEstimate := { method := ascii "event_audio" }
  let sirenOns := sirenOnTimes srcEvents
  if sirenOns = [] ∨ audioOnsetTs = [] then est
  else
    -- unlike in the correlation, an offset outside of the window is not left out
    let trials := (fallbackSteps (castInt (searchWindowS * 10))).map (· * 100000000)
    let best := bestMatches sirenOns audioOnsetTs trials
    let confidence :=
      if best.1 = 0 then 0.0
      else stdMin 1.0 (Float.ofNat best.1 / Float.ofNat sirenOns.length * 0.8)
    { est with offsetNs := best.2, confidence }

/-! ## The synchroniser -/

namespace LogSynchroniser

def inRange (range : TimeRange) (g : GnssPoint) : Bool :=
  range.tStartNs ≤ g.tsNs && g.tsNs ≤ range.tEndNs

def estimate (cfg : SyncConfig) (egoGps srcGps : List GnssPoint) (srcEvents : List SourceEvent)
    (audioOnsetTs : List Int) (validRange : TimeRange) : ClockEstimate × Bool :=
  let est := syncGnssXcorr (egoGps.filter (inRange validRange))
    (srcGps.filter (inRange validRange)) cfg.maxOffsetSearchS
  if est.confidence < cfg.minConfidence then
    let fb := syncEventAudioFallback srcEvents audioOnsetTs cfg.maxOffsetSearchS
    if fb.confidence > est.confidence then (fb, true) else (est, false)
  else (est, false)

def synchronise (cfg : SyncConfig) (egoGps srcGps : List GnssPoint) (srcEvents : List SourceEvent)
    (audioOnsetTs : List Int) (validRange : TimeRange) : SyncReport :=
  let (est, fallback) := estimate cfg egoGps srcGps srcEvents audioOnsetTs validRange
  let rpt : SyncReport :=
    { method := est.method
      offsetNs := est.offsetNs
      driftPpm := est.driftPpm
      rmseNs := est.rmseNs
      confidence := est.confidence
      searchWindowS := cfg.maxOffsetSearchS
      notes := if fallback then [ascii "GNSS xcorr confidence low; used event+audio fallback"]
        else [] }
  if est.confidence ≥ cfg.minConfidence then
    { rpt with
      status := .syncOk
      alignedValidRange := some { tStartNs := validRange.tStartNs, tEndNs := validRange.tEndNs } }
  else if est.confidence ≥ cfg.minConfidence * 0.5 then
    { rpt with
      status := .syncDegraded
      notes := rpt.notes ++
        [ascii "Low confidence sync " ++ emDash ++ ascii " results may be inaccurate"] }
  else
    { rpt with
      status := .syncFailed
      notes := rpt.notes ++
        [ascii "Sync failed " ++ emDash ++ ascii " insufficient overlap or quality"] }

def applyOffsetEvents (offsetNs : Int) (events : List SourceEvent) : List SourceEvent :=
  events.map fun e => { e with tsEgoNs := wrapInt64 (e.tsNs - offsetNs) }

def applyOffsetGnss (offsetNs : Int) (gnss : List GnssPoint) : List GnssPoint :=
  gnss.map fun g => { g with tsNs := wrapInt64 (g.tsNs - offsetNs) }

end LogSynchroniser
end LocalPC.Offline
