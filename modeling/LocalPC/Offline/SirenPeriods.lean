import LocalPC.Offline.SceneSegments

namespace LocalPC.Offline
open Lib

structure OnPeriod where
  first : Int
  /-- The time of the last `siren_on` in the period. -/
  latest : Int
  stop : Int
  deriving DecidableEq, Repr

def OnPeriod.interval (p : OnPeriod) : Int × Int := (p.first, p.stop)

/-- A period that is long enough starts at 0 or later and has no further `siren_on` at a later time. -/
def OnPeriod.Paired (cfg : SceneConfig) (p : OnPeriod) : Prop :=
  SceneBuilder.minDurNs cfg ≤ p.stop - p.first → 0 ≤ p.first ∧ p.latest = p.first

instance (cfg : SceneConfig) (p : OnPeriod) : Decidable (p.Paired cfg) :=
  inferInstanceAs
    (Decidable (SceneBuilder.minDurNs cfg ≤ p.stop - p.first → 0 ≤ p.first ∧ p.latest = p.first))

namespace SceneBuilder

def isOn (ev : SceneEvent) : Bool := ev.type = sirenOn
def isOff (ev : SceneEvent) : Bool := ev.type = sirenOff

section Periods
-- the last time of the geometry, where a siren that is never switched off stops
variable (stop : Option Int)

mutual

/-- The periods in which the latest siren event is `siren_on`; the siren is off at the start. -/
def sirenPeriods : List SceneEvent → List OnPeriod
  | [] => []
  | ev :: rest => if isOn ev then periodsFrom ev.tStartNs ev.tStartNs rest else sirenPeriods rest

def periodsFrom (first latest : Int) : List SceneEvent → List OnPeriod
  | [] => stop.toList.map fun stop => { first, latest, stop }
  | ev :: rest =>
      if isOff ev then { first, latest, stop := ev.tStartNs } :: sirenPeriods rest
      else periodsFrom first (if isOn ev then ev.tStartNs else latest) rest

end

end Periods

def lastTime (geom : List SceneGeometry) : Option Int := geom.getLast?.map SceneGeometry.tsNs

/-- The segments are the periods that are long enough, in time order and without overlaps. -/
structure DescribesPeriods (cfg : SceneConfig) (events : List SceneEvent)
    (geom : List SceneGeometry) (segs : List SceneSegment) : Prop where
  intervals : segs.map (fun s => (s.tStartNs, s.tEndNs)) =
    ((sirenPeriods (lastTime geom) events).map OnPeriod.interval).filter fun i =>
      minDurNs cfg ≤ i.2 - i.1
  ordered : segs.Pairwise fun a b => a.tEndNs ≤ b.tStartNs

def found (p : OnPeriod) : Option (Int × Int) :=
  if 0 ≤ p.latest then some (p.latest, p.stop) else none

def finish (stop : Option Int) (s : Int × List (Int × Int)) : List (Int × Int) :=
  match stop with
  | some t => if 0 ≤ s.1 then s.2 ++ [(s.1, t)] else s.2
  | none => s.2

theorem intervals_eq_finish (events : List SceneEvent) (geom : List SceneGeometry) :
    intervals events geom = finish (lastTime geom) (events.foldl sirenStep (-1, [])) := by
  unfold intervals finish lastTime
  cases geom.getLast? <;> rfl

section Step
variable {ev : SceneEvent}

theorem not_isOff_of_isOn (on : isOn ev = true) : ¬ ev.type = sirenOff := by
  rw [isOn, decide_eq_true_iff] at on
  rw [on]
  decide

theorem sirenStep_on (on : isOn ev = true) (s : Int × List (Int × Int)) :
    sirenStep s ev = (ev.tStartNs, s.2) := by
  have other := not_isOff_of_isOn on
  rw [isOn, decide_eq_true_iff] at on
  rw [sirenStep, if_pos on, if_neg fun off => other off.1]

theorem sirenStep_off (off : isOff ev = true) (s : Int × List (Int × Int)) :
    sirenStep s ev = if 0 ≤ s.1 then (-1, s.2 ++ [(s.1, ev.tStartNs)]) else s := by
  have other : ¬ ev.type = sirenOn :=
    fun on => not_isOff_of_isOn (decide_eq_true on) (of_decide_eq_true off)
  rw [isOff, decide_eq_true_iff] at off
  rw [sirenStep, if_neg other]
  simp only [off, true_and]

theorem sirenStep_other (on : isOn ev = false) (off : isOff ev = false)
    (s : Int × List (Int × Int)) :
    sirenStep s ev = s := by
  rw [isOn, decide_eq_false_iff_not] at on
  rw [isOff, decide_eq_false_iff_not] at off
  rw [sirenStep, if_neg on, if_neg fun both => off both.1]

end Step

theorem finish_foldl (stop : Option Int) (events : List SceneEvent) :
    (∀ pending out, pending < 0 →
      finish stop (events.foldl sirenStep (pending, out)) =
        out ++ (sirenPeriods stop events).filterMap found) ∧
    ∀ first latest out,
      finish stop (events.foldl sirenStep (latest, out)) =
        out ++ (periodsFrom stop first latest events).filterMap found := by
  induction events with
  | nil =>
      refine ⟨fun pending out off => ?_, fun first latest out => ?_⟩
      · cases stop <;> simp [finish, sirenPeriods, off.not_ge]
      · cases stop with
        | none => simp [finish, periodsFrom]
        | some t => by_cases seen : 0 ≤ latest <;> simp [finish, periodsFrom, found, seen]
  | cons ev rest ih =>
      obtain ⟨whenOff, whenOn⟩ := ih
      refine ⟨fun pending out off => ?_, fun first latest out => ?_⟩
      · rw [List.foldl_cons, sirenPeriods]
        cases on : isOn ev with
        | true => rw [sirenStep_on on, if_pos rfl, whenOn ev.tStartNs]
        | false =>
            rw [if_neg Bool.false_ne_true]
            cases ends : isOff ev with
            | true => rw [sirenStep_off ends, if_neg off.not_ge, whenOff _ _ off]
            | false => rw [sirenStep_other on ends, whenOff _ _ off]
      · rw [List.foldl_cons, periodsFrom]
        cases ends : isOff ev with
        | true =>
            rw [sirenStep_off ends, if_pos rfl, List.filterMap_cons, found]
            by_cases seen : 0 ≤ latest
            · rw [if_pos seen, if_pos seen, whenOff _ _ (by norm_num), List.append_assoc]
              rfl
            · rw [if_neg seen, if_neg seen, whenOff _ _ (not_le.mp seen)]
        | false =>
            rw [if_neg Bool.false_ne_true]
            cases on : isOn ev with
            | true => rw [sirenStep_on on, if_pos rfl, whenOn first]
            | false => rw [sirenStep_other on ends, if_neg Bool.false_ne_true, whenOn first]

theorem intervals_eq (events : List SceneEvent) (geom : List SceneGeometry) :
    intervals events geom = (sirenPeriods (lastTime geom) events).filterMap found := by
  rw [intervals_eq_finish,
    (finish_foldl (lastTime geom) events).1 (-1) [] (by norm_num), List.nil_append]

structure InOrder (low : Int) (periods : List OnPeriod) : Prop where
  from_low : ∀ p ∈ periods, low ≤ p.first
  latest : ∀ p ∈ periods, p.first ≤ p.latest
  apart : periods.Pairwise fun p q => p.stop ≤ q.first

theorem inOrder_periods (stop : Option Int) {events : List SceneEvent}
    (sorted : events.Pairwise fun a b => a.tStartNs ≤ b.tStartNs) :
    (∀ low, (∀ ev ∈ events, low ≤ ev.tStartNs) → InOrder low (sirenPeriods stop events)) ∧
    ∀ first latest, first ≤ latest → (∀ ev ∈ events, latest ≤ ev.tStartNs) →
      InOrder first (periodsFrom stop first latest events) := by
  induction events with
  | nil =>
      refine ⟨fun low _ => ⟨by simp [sirenPeriods], by simp [sirenPeriods], by simp [sirenPeriods]⟩,
        fun first latest le _ => ?_⟩
      cases stop <;> exact ⟨by simp [periodsFrom], by simp [periodsFrom, le], by simp [periodsFrom]⟩
  | cons ev rest ih =>
      obtain ⟨after, sorted⟩ := List.pairwise_cons.mp sorted
      obtain ⟨whenOff, whenOn⟩ := ih sorted
      refine ⟨fun low bound => ?_, fun first latest le bound => ?_⟩
      · rw [List.forall_mem_cons] at bound
        rw [sirenPeriods]
        split
        · have := whenOn ev.tStartNs ev.tStartNs le_rfl after
          exact ⟨fun p member => bound.1.trans (this.from_low p member), this.latest, this.apart⟩
        · exact whenOff low bound.2
      · rw [List.forall_mem_cons] at bound
        rw [periodsFrom]
        split
        · have := whenOff ev.tStartNs after
          refine ⟨List.forall_mem_cons.mpr ⟨le_rfl, fun p member => ?_⟩,
            List.forall_mem_cons.mpr ⟨le, this.latest⟩,
              List.pairwise_cons.mpr ⟨this.from_low, this.apart⟩⟩
          exact (le.trans bound.1).trans (this.from_low p member)
        · refine whenOn first _ ?_ ?_
          · split
            · exact le.trans bound.1
            · exact le
          · split
            · exact after
            · exact bound.2

theorem segments_intervals (cfg : SceneConfig) (newUuid : Nat → Bytes) (events : List SceneEvent)
    (geom : List SceneGeometry) :
    (buildSegments cfg newUuid events geom).map (fun s => (s.tStartNs, s.tEndNs)) =
      (intervals events geom).filter fun i => ¬ i.2 - i.1 < minDurNs cfg := by
  rw [buildSegments]
  exact List.ext_getElem (by simp) fun i _ _ => by simp [segment]

theorem filterMap_eq_iff {α β : Type} {f g : α → Option β} {xs : List α}
    (more : ∀ x ∈ xs, (f x).isSome → (g x).isSome) :
    xs.filterMap f = xs.filterMap g ↔ ∀ x ∈ xs, f x = g x := by
  induction xs with
  | nil => simp
  | cons x xs ih =>
      rw [List.forall_mem_cons] at more
      have shorter : (xs.filterMap f).length ≤ (xs.filterMap g).length := by
        rw [List.length_filterMap_eq_countP, List.length_filterMap_eq_countP]
        exact List.countP_mono_left more.2
      rw [List.forall_mem_cons, ← ih more.2, List.filterMap_cons, List.filterMap_cons]
      cases left : f x with
      | none =>
          cases right : g x with
          | none => simp
          | some b =>
              refine iff_of_false (fun same => ?_) (by simp)
              have length : (xs.filterMap f).length = (b :: xs.filterMap g).length :=
                congrArg List.length same
              rw [List.length_cons] at length
              omega
      | some a =>
          obtain ⟨b, right⟩ := Option.isSome_iff_exists.mp (more.1 (by rw [left]; rfl))
          rw [right]
          simp

def kept (cfg : SceneConfig) (p : OnPeriod) : Option (Int × Int) :=
  (found p).filter fun i => minDurNs cfg ≤ i.2 - i.1

def wanted (cfg : SceneConfig) (p : OnPeriod) : Option (Int × Int) :=
  (some p.interval).filter fun i => minDurNs cfg ≤ i.2 - i.1

section Kept
variable {cfg : SceneConfig} {p : OnPeriod}

theorem kept_eq :
    kept cfg p = if 0 ≤ p.latest ∧ minDurNs cfg ≤ p.stop - p.latest then some (p.latest, p.stop)
      else none := by
  unfold kept found
  by_cases seen : 0 ≤ p.latest
  · rw [if_pos seen]
    by_cases long : minDurNs cfg ≤ p.stop - p.latest <;> simp [Option.filter, seen, long]
  · rw [if_neg seen, if_neg fun both => seen both.1]
    rfl

theorem wanted_eq :
    wanted cfg p = if minDurNs cfg ≤ p.stop - p.first then some (p.first, p.stop) else none := by
  unfold wanted OnPeriod.interval
  by_cases long : minDurNs cfg ≤ p.stop - p.first <;> simp [Option.filter, long]

theorem wanted_of_kept (order : p.first ≤ p.latest) (some_ : (kept cfg p).isSome) :
    (wanted cfg p).isSome := by
  rw [kept_eq] at some_
  rw [wanted_eq]
  split at some_
  next both => rw [if_pos (by omega)]; rfl
  · cases some_

theorem kept_eq_wanted_iff (order : p.first ≤ p.latest) :
    kept cfg p = wanted cfg p ↔ p.Paired cfg := by
  unfold OnPeriod.Paired
  rw [kept_eq, wanted_eq]
  by_cases long : minDurNs cfg ≤ p.stop - p.first
  · rw [if_pos long]
    constructor
    · intro same _
      split at same
      next both =>
        have start := congrArg Prod.fst (Option.some.inj same)
        dsimp only at start
        omega
      · cases same
    · intro paired
      obtain ⟨nonneg, same⟩ := paired long
      rw [same, if_pos ⟨nonneg, long⟩]
  · rw [if_neg long, if_neg (by omega)]
    simp [long]

end Kept

theorem segments_kept (cfg : SceneConfig) (newUuid : Nat → Bytes) (events : List SceneEvent)
    (geom : List SceneGeometry) :
    (buildSegments cfg newUuid events geom).map (fun s => (s.tStartNs, s.tEndNs)) =
      (sirenPeriods (lastTime geom) events).filterMap (kept cfg) := by
  rw [segments_intervals, intervals_eq, List.filter_filterMap]
  simp only [not_lt]
  rfl

def sirenEvent (type : Bytes) (tStartNs : Int) : SceneEvent where
  eventId := []
  type := type
  tStartNs := tStartNs
  tEndNs := tStartNs
  sourceTsNs := tStartNs
  sourceEventId := 0
  confidence := 1.0
  flags := []
  geometryAtEvent := none

end SceneBuilder
end LocalPC.Offline
