import LocalPC.Offline.SirenPeriods

namespace LocalPC.Offline
open Lib

def OnPeriod.Starts (cfg : SceneConfig) (p : OnPeriod) : Prop :=
  0 ≤ p.latest ∧ SceneBuilder.minDurNs cfg ≤ p.stop - p.latest

namespace SceneBuilder

def onTimes (events : List SceneEvent) : List Int := (events.filter isOn).map SceneEvent.tStartNs

theorem onTimes_cons (ev : SceneEvent) (rest : List SceneEvent) :
    onTimes (ev :: rest) = if isOn ev then ev.tStartNs :: onTimes rest else onTimes rest := by
  unfold onTimes
  cases on : isOn ev with
  | true => rw [List.filter_cons_of_pos on, if_pos rfl, List.map_cons]
  | false =>
      rw [List.filter_cons_of_neg (by rw [on]; exact Bool.false_ne_true), if_neg Bool.false_ne_true]

theorem isOn_of_isOff {ev : SceneEvent} (off : isOff ev = true) : isOn ev = false := by
  cases on : isOn ev with
  | false => rfl
  | true => exact absurd (of_decide_eq_true off) (not_isOff_of_isOn on)

theorem latest_sublist (stop : Option Int) (events : List SceneEvent) :
    ((sirenPeriods stop events).map OnPeriod.latest).Sublist (onTimes events) ∧
    ∀ first latest, ((periodsFrom stop first latest events).map OnPeriod.latest).Sublist
      (latest :: onTimes events) := by
  induction events with
  | nil =>
      refine ⟨List.Sublist.refl _, fun first latest => ?_⟩
      cases stop with
      | none => exact List.nil_sublist _
      | some t => exact List.Sublist.refl _
  | cons ev rest ih =>
      obtain ⟨whenOff, whenOn⟩ := ih
      refine ⟨?_, fun first latest => ?_⟩
      · rw [sirenPeriods, onTimes_cons]
        cases isOn ev with
        | true => exact whenOn _ _
        | false => exact whenOff
      · rw [periodsFrom, onTimes_cons]
        cases off : isOff ev with
        | true =>
            rw [isOn_of_isOff off]
            exact whenOff.cons_cons latest
        | false =>
            cases isOn ev with
            | true => exact (whenOn first _).cons latest
            | false => exact whenOn first latest

/-- Every segment has the id of the `siren_on` that it starts with. -/
def LinksOwn (events : List SceneEvent) (segs : List SceneSegment) : Prop :=
  ∀ seg ∈ segs, ∃ ev ∈ events, ev.type = sirenOn ∧ ev.tStartNs = seg.tStartNs ∧
    seg.eventId = some ev.eventId

def FirstNear (events : List SceneEvent) (t : Int) : Prop :=
  ∀ ev ∈ events, ev.type = sirenOn → ¬ (t - 500 * kNsPerMs < ev.tStartNs ∧ ev.tStartNs < t)

section Link
variable {events : List SceneEvent}

theorem linkedEvent_iff
    (sorted : events.Pairwise fun a b => a.tStartNs ≤ b.tStartNs) {seg : SceneSegment}
    (own : seg.tStartNs ∈ onTimes events) :
    ∃ ev ∈ events, ev.type = sirenOn ∧ linkedEvent events seg = some ev ∧
      (ev.tStartNs = seg.tStartNs ↔ FirstNear events seg.tStartNs) := by
  obtain ⟨e, member, start⟩ := List.mem_map.mp own
  obtain ⟨listed, on⟩ := List.mem_filter.mp member
  have unit : kNsPerMs = 1000000 := rfl
  have near : (linkedEvent events seg).isSome := by
    rw [linkedEvent, List.find?_isSome]
    refine ⟨e, listed, decide_eq_true ⟨of_decide_eq_true on, ?_⟩⟩
    rw [start, unit]
    omega
  obtain ⟨ev, found⟩ := Option.isSome_iff_exists.mp near
  obtain ⟨good, before, after, split, none⟩ := List.find?_eq_some_iff_append.mp found
  obtain ⟨evOn, evNear⟩ := of_decide_eq_true good
  -- an event that is near is not before the first one
  have first (x : SceneEvent) (inside : x ∈ events) (xOn : x.type = sirenOn)
      (xNear : ((x.tStartNs - seg.tStartNs).natAbs : Int) < 500 * kNsPerMs) : ev.tStartNs ≤
        x.tStartNs := by
    rw [split] at inside sorted
    rcases List.mem_append.mp inside with earlier | later
    · have refused := none x earlier
      rw [decide_eq_true ⟨xOn, xNear⟩] at refused
      cases refused
    · rcases List.mem_cons.mp later with rfl | later
      · exact le_rfl
      · exact List.rel_of_pairwise_cons (List.pairwise_append.mp sorted).2.1 later
  refine ⟨ev, List.mem_of_find?_eq_some found, evOn, found,
    fun same x inside xOn => ?_, fun alone => ?_⟩
  · rintro ⟨late, early⟩
    have := first x inside xOn (by rw [unit] at *; omega)
    omega
  · have notLater := first e listed (of_decide_eq_true on) (by rw [start, unit]; omega)
    have notEarlier := alone ev (List.mem_of_find?_eq_some found) evOn
    rw [unit] at *
    omega

theorem event_eq_of_id (ids : (events.map SceneEvent.eventId).Nodup)
    {a b : SceneEvent} (inA : a ∈ events) (inB : b ∈ events)
    (same : a.eventId = b.eventId) : a = b :=
  List.inj_on_of_nodup_map ids inA inB same

theorem linkSegment_tStartNs (seg : SceneSegment) :
    (linkSegment events seg).tStartNs = seg.tStartNs := by
  unfold linkSegment
  split <;> rfl

theorem linksOwn_map_iff (sorted : events.Pairwise fun a b => a.tStartNs ≤ b.tStartNs)
    (ids : (events.map SceneEvent.eventId).Nodup) {segs : List SceneSegment}
    (own : ∀ seg ∈ segs, seg.tStartNs ∈ onTimes events) :
    LinksOwn events (linkSegmentsToEvents segs events) ↔
      ∀ seg ∈ segs, FirstNear events seg.tStartNs := by
  unfold LinksOwn linkSegmentsToEvents
  rw [List.forall_mem_map]
  refine forall₂_congr fun seg member => ?_
  obtain ⟨ev, listed, on, found, near⟩ := linkedEvent_iff sorted (own seg member)
  rw [← near, linkSegment_tStartNs, linkSegment, found]
  constructor
  · rintro ⟨other, inside, -, start, same⟩
    rw [event_eq_of_id ids listed inside (Option.some.inj same), start]
  · intro start
    exact ⟨ev, listed, on, start, rfl⟩

end Link

theorem segments_starts (cfg : SceneConfig) (newUuid : Nat → Bytes) (events : List SceneEvent)
    (geom : List SceneGeometry) :
    (buildSegments cfg newUuid events geom).map SceneSegment.tStartNs =
      ((sirenPeriods (lastTime geom) events).filter fun p => 0 ≤ p.latest ∧
        minDurNs cfg ≤ p.stop - p.latest).map
        OnPeriod.latest := by
  have intervals := congrArg (List.map Prod.fst) (segments_kept cfg newUuid events geom)
  rw [List.map_map] at intervals
  refine intervals.trans ?_
  rw [List.map_filterMap, ← List.filterMap_eq_filter, List.map_filterMap]
  refine List.filterMap_congr fun p _ => ?_
  rw [kept_eq]
  by_cases starts : 0 ≤ p.latest ∧ minDurNs cfg ≤ p.stop - p.latest <;> simp [Option.guard, starts]

theorem segments_nodup (cfg : SceneConfig) (newUuid : Nat → Bytes) {events : List SceneEvent}
    (times : (onTimes events).Nodup) (geom : List SceneGeometry) :
    ((buildSegments cfg newUuid events geom).map SceneSegment.tStartNs).Nodup := by
  rw [segments_starts]
  refine times.sublist (List.Sublist.trans ?_ (latest_sublist (lastTime geom) events).1)
  exact List.filter_sublist.map _

theorem segments_own (cfg : SceneConfig) (newUuid : Nat → Bytes) (events : List SceneEvent)
    (geom : List SceneGeometry) :
    ∀ seg ∈ buildSegments cfg newUuid events geom, seg.tStartNs ∈ onTimes events := by
  intro seg member
  have start : seg.tStartNs ∈ (buildSegments cfg newUuid events geom).map SceneSegment.tStartNs :=
    List.mem_map_of_mem member
  rw [segments_starts] at start
  exact ((List.filter_sublist.map _).trans (latest_sublist (lastTime geom) events).1).subset start

theorem LinksOwn.pairwise {events : List SceneEvent} {segs : List SceneSegment}
    (own : LinksOwn events segs) (ids : (events.map SceneEvent.eventId).Nodup)
    (starts : (segs.map SceneSegment.tStartNs).Nodup) :
    segs.Pairwise fun a b => a.eventId ≠ b.eventId := by
  refine List.Pairwise.imp_of_mem ?_ (List.pairwise_map.mp starts)
  intro a b inA inB apart same
  obtain ⟨x, listedX, -, startX, idX⟩ := own a inA
  obtain ⟨y, listedY, -, startY, idY⟩ := own b inB
  rw [idX, idY, Option.some_inj] at same
  rw [event_eq_of_id ids listedX listedY same, startY] at startX
  exact apart startX.symm

def namedEvent (eventId : Bytes) (type : Bytes) (tStartNs : Int) : SceneEvent :=
  { sirenEvent type tStartNs with eventId }

def oneSiren : List SceneEvent := [namedEvent [1] sirenOn 0, namedEvent [2] sirenOff 1000000000]

def twoSirens : List SceneEvent :=
  [namedEvent [1] sirenOn 0, namedEvent [2] sirenOff 10000000, namedEvent [3] sirenOn 100000000,
    namedEvent [4] sirenOff 1100000000]

end SceneBuilder
end LocalPC.Offline
