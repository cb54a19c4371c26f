import LocalPC.Lib.LeastElement
import LocalPC.Offline.TimeAligner

namespace LocalPC.Offline
open Lib

section Nearest
variable {α : Type} (key : α → Nat)

def nearer (best y : α) : α := if decide (key y < key best) = true then y else best

theorem foldl_nearer_spec (xs : List α) (best : α) :
    xs.foldl (nearer key) best ∈ best :: xs ∧
      ∀ y ∈ best :: xs, key (xs.foldl (nearer key) best) ≤ key y := by
  have orders : Orders (fun x => some (key x)) (fun y best => decide (key y < key best)) := by
    intro y best
    simp
  obtain ⟨q, found, least⟩ := foldl_keepLess_le orders xs (rfl : some (key best) = _)
  cases found
  exact ⟨foldl_keepLess_mem xs best, fun y member => least y member _ rfl⟩

theorem foldl_nearer_first {xs : List α} {best : α} (least : ∀ y ∈ xs, key best ≤ key y) :
    xs.foldl (nearer key) best = best := by
  induction xs with
  | nil => rfl
  | cons x xs ih =>
      obtain ⟨here, later⟩ := List.forall_mem_cons.mp least
      have kept : nearer key best x = best := if_neg (by simpa using here)
      rw [List.foldl_cons, kept]
      exact ih later

end Nearest

def Nearest (imu : List ImuSample) (tick : Int) (im : ImuSample) : Prop :=
  im ∈ imu ∧ ∀ other ∈ imu, (im.tsNs - tick).natAbs ≤ (other.tsNs - tick).natAbs

theorem Nearest.perm {imu imu' : List ImuSample} {tick : Int} {im : ImuSample}
    (nearest : Nearest imu' tick im) (same : imu'.Perm imu) : Nearest imu tick im :=
  ⟨same.mem_iff.mp nearest.1, fun other member => nearest.2 other (same.mem_iff.mpr member)⟩

def ImuSample.readings (im : ImuSample) :
    Float32 × Float32 × Float32 × Float32 × Float32 × Float32 :=
  (im.accXMps2, im.accYMps2, im.accZMps2, im.gyroXRads, im.gyroYRads, im.gyroZRads)

def AlignedSample.readings (s : AlignedSample) :
    Float32 × Float32 × Float32 × Float32 × Float32 × Float32 :=
  (s.accX, s.accY, s.accZ, s.gyrX, s.gyrY, s.gyrZ)

namespace TimeAligner

theorem findNearestImu_some {joinNs : Int} {imu : List ImuSample} {tick : Int} {im : ImuSample}
    (found : findNearestImu joinNs imu tick = some im) :
    Nearest imu tick im ∧ ((im.tsNs - tick).natAbs : Int) ≤ joinNs := by
  unfold findNearestImu at found
  obtain ⟨least, near⟩ := Option.filter_eq_some_iff.mp found
  refine ⟨?_, by simpa using near⟩
  cases imu with
  | nil => cases least
  | cons x xs =>
      cases least
      exact foldl_nearer_spec (fun im : ImuSample => (im.tsNs - tick).natAbs) xs x

theorem findNearestImu_none {joinNs : Int} {imu : List ImuSample} {tick : Int} {im : ImuSample}
    (none : findNearestImu joinNs imu tick = none) (nearest : Nearest imu tick im) :
    ¬ ((im.tsNs - tick).natAbs : Int) ≤ joinNs := by
  unfold findNearestImu at none
  cases imu with
  | nil => cases nearest.1
  | cons x xs =>
      obtain ⟨member, least⟩ :=
        foldl_nearer_spec (fun im : ImuSample => (im.tsNs - tick).natAbs) xs x
      have far := Option.filter_eq_none_iff.mp none _ rfl
      intro near
      apply far
      rw [decide_eq_true_iff]
      exact (Int.ofNat_le.mpr (least im nearest.1)).trans near

theorem findNearestImu_first {joinNs : Int} {im : ImuSample} {rest : List ImuSample} {tick : Int}
    (nearest : Nearest (im :: rest) tick im) (near : ((im.tsNs - tick).natAbs : Int) ≤ joinNs) :
    findNearestImu joinNs (im :: rest) tick = some im := by
  have first := foldl_nearer_first (fun im : ImuSample => (im.tsNs - tick).natAbs)
    (fun y member => nearest.2 y (List.mem_cons_of_mem _ member))
  unfold findNearestImu minElement
  refine Option.filter_eq_some_iff.mpr ⟨congrArg some first, by simpa using near⟩

theorem readings_align {joinToleranceMs : Int} {ticks : Ticks} {egoGps srcGps : List GnssPoint}
    {traj : List TrajectoryPoint} {imu imu' : List ImuSample}
    (same : align joinToleranceMs ticks egoGps srcGps imu traj =
      align joinToleranceMs ticks egoGps srcGps imu' traj)
    {tick : Int} (member : tick ∈ ticks) {im im' : ImuSample}
    (found : findNearestImu (joinToleranceMs * kNsPerMs) imu tick = some im)
    (found' : findNearestImu (joinToleranceMs * kNsPerMs) imu' tick = some im') :
    im.readings = im'.readings := by
  have samples := List.map_inj_left.mp same tick member
  have kept (traj : List TrajectoryPoint)
      (s : AlignedSample) : (alignTrajectory traj tick s).readings = s.readings := by
    unfold alignTrajectory
    split <;> rfl
  have here := congrArg AlignedSample.readings samples
  rw [kept, kept] at here
  unfold alignImu at here
  rw [found, found'] at here
  exact here

end TimeAligner

theorem sortByTime_perm {α : Type} {tsNs : α → Int} {entries entries' : List α}
    (distinct : (entries.map tsNs).Nodup) (same : entries'.Perm entries) :
    sortByTime tsNs entries' = sortByTime tsNs entries := by
  have sorted (l : List α) : (sortByTime tsNs l).Pairwise fun a b =>
      decide (tsNs a ≤ tsNs b) = true :=
    List.pairwise_mergeSort (fun a b c => by simpa using le_trans)
      (fun a b => by simpa using le_total _ _) l
  refine List.Perm.eq_of_pairwise ?_ (sorted entries') (sorted entries) ?_
  · intro a b member member' le ge
    have listed := same.mem_iff.mp (List.mem_mergeSort.mp member)
    have listed' := List.mem_mergeSort.mp member'
    rw [decide_eq_true_iff] at le ge
    exact List.inj_on_of_nodup_map distinct listed listed' (le_antisymm le ge)
  · exact (List.mergeSort_perm ..).trans (same.trans (List.mergeSort_perm ..).symm)

namespace TimeAligner
variable {joinToleranceMs : Int} {ticks : Ticks}
  {egoGps srcGps : List GnssPoint} {imu : List ImuSample} {traj : List TrajectoryPoint}

/-- The samples are the same for every order in which the streams arrive. -/
def OrderIndependent (joinToleranceMs : Int) (ticks : Ticks)
    (egoGps srcGps : List GnssPoint) (imu : List ImuSample) (traj : List TrajectoryPoint) : Prop :=
  ∀ egoGps' srcGps' imu' traj', egoGps'.Perm egoGps → srcGps'.Perm srcGps →
    imu'.Perm imu → traj'.Perm traj →
    align joinToleranceMs ticks egoGps' srcGps' imu' traj' =
      align joinToleranceMs ticks egoGps srcGps imu traj

/-- All samples that are nearest to a tick, and near enough, have the same readings. -/
def OneReading (joinNs : Int) (ticks : Ticks) (imu : List ImuSample) : Prop :=
  ∀ tick ∈ ticks, ∀ a b, Nearest imu tick a → Nearest imu tick b →
    ((a.tsNs - tick).natAbs : Int) ≤ joinNs →
    a.readings = b.readings

theorem perm_first {im : ImuSample} (member : im ∈ imu) : ∃ rest, (im :: rest).Perm imu := by
  obtain ⟨before, after, rfl⟩ := List.append_of_mem member
  exact ⟨before ++ after, List.perm_middle.symm⟩

theorem OrderIndependent.oneReading
    (independent : OrderIndependent joinToleranceMs ticks egoGps srcGps imu traj) :
    OneReading (joinToleranceMs * kNsPerMs) ticks imu := by
  intro tick member a b nearest nearest' near
  obtain ⟨rest, order⟩ := perm_first nearest.1
  obtain ⟨rest', order'⟩ := perm_first nearest'.1
  have near' : ((b.tsNs - tick).natAbs : Int) ≤ joinToleranceMs * kNsPerMs :=
    (Int.ofNat_le.mpr (nearest'.2 a nearest.1)).trans near
  have one := independent egoGps srcGps (a :: rest) traj (.refl _) (.refl _) order (.refl _)
  have two := independent egoGps srcGps (b :: rest') traj (.refl _) (.refl _) order' (.refl _)
  exact readings_align (one.trans two.symm) member
    (findNearestImu_first (nearest.perm order.symm) near)
    (findNearestImu_first (nearest'.perm order'.symm) near')

theorem alignImu_of_readings {joinNs : Int} {imu imu' : List ImuSample}
    {tick : Int} {im im' : ImuSample} (found : findNearestImu joinNs imu tick = some im)
    (found' : findNearestImu joinNs imu' tick = some im')
    (same : im'.readings = im.readings) (s : AlignedSample) :
    alignImu joinNs imu' tick s = alignImu joinNs imu tick s := by
  simp only [ImuSample.readings, Prod.mk.injEq] at same
  obtain ⟨accX, accY, accZ, gyrX, gyrY, gyrZ⟩ := same
  unfold alignImu
  rw [found, found']
  dsimp only
  rw [accX, accY, accZ, gyrX, gyrY, gyrZ]

theorem alignImu_perm {joinNs : Int} (one : OneReading joinNs ticks imu)
    {imu' : List ImuSample} (same : imu'.Perm imu) {tick : Int} (member : tick ∈ ticks)
    (s : AlignedSample) : alignImu joinNs imu' tick s = alignImu joinNs imu tick s := by
  cases found : findNearestImu joinNs imu tick with
  | none =>
      cases found' : findNearestImu joinNs imu' tick with
      | none => rw [alignImu, alignImu, found, found']
      | some im' =>
          obtain ⟨nearest', near'⟩ := findNearestImu_some found'
          exact absurd near' (findNearestImu_none found (nearest'.perm same))
  | some im =>
      obtain ⟨nearest, near⟩ := findNearestImu_some found
      cases found' : findNearestImu joinNs imu' tick with
      | none => exact absurd near (findNearestImu_none found' (nearest.perm same.symm))
      | some im' =>
          obtain ⟨nearest', near'⟩ := findNearestImu_some found'
          exact alignImu_of_readings found found'
            (one tick member im' im (nearest'.perm same) nearest near') s

theorem OneReading.of_distances {joinNs : Int} {ticks : Ticks} {imu : List ImuSample}
    (apart : ∀ tick ∈ ticks, (imu.map fun im => (im.tsNs - tick).natAbs).Nodup) :
    OneReading joinNs ticks imu := by
  intro tick member a b nearest nearest' _
  have far : (a.tsNs - tick).natAbs = (b.tsNs - tick).natAbs :=
    (nearest.2 b nearest'.1).antisymm (nearest'.2 a nearest.1)
  rw [List.inj_on_of_nodup_map (apart tick member) nearest.1 nearest'.1 far]

end TimeAligner

end LocalPC.Offline
