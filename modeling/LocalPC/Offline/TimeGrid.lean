import LocalPC.Offline.ConfigLoader
import LocalPC.Offline.SyncStage

namespace LocalPC.Offline
open Lib

abbrev NsTime := { t : Int // IsInt64 t }

structure TimeGrid where
  t0 : Int
  t1 : Int
  dtMs : Int
  ticks : Ticks
  deriving DecidableEq, Repr

inductive LoopError
  | signedOverflow
  deriving DecidableEq, Repr

namespace TimeGrid

def tickLoop (dt t1 : Int) : Nat → Int → Ticks → Option (Except LoopError Ticks)
  | 0, _, _ => none
  | fuel + 1, t, ticks =>
      if t ≤ t1 then
        if -2 ^ 63 ≤ t + dt ∧ t + dt < 2 ^ 63 then tickLoop dt t1 fuel (t + dt) (ticks ++ [t])
        else some (.error .signedOverflow)
      else some (.ok ticks)

def build (fuel : Nat) (t0 t1 dtMs : Int) : Option (Except LoopError TimeGrid) :=
  let dt := dtMs * kNsPerMs
  if -2 ^ 63 ≤ dt ∧ dt < 2 ^ 63 then
    (tickLoop dt t1 fuel t0 []).map fun r => r.map fun ticks => { t0, t1, dtMs, ticks }
  else some (.error .signedOverflow)

structure IsGrid (g : TimeGrid) : Prop where
  mem_iff : ∀ t, t ∈ g.ticks ↔ g.t0 ≤ g.t1 ∧ ∃ k : ℕ, t = g.t0 + k * (g.dtMs * kNsPerMs) ∧ t ≤ g.t1
  increasing : g.ticks.Pairwise (· < ·)

/-- The loop ends, without overflow, with this grid. -/
def Builds (t0 t1 dtMs : Int) : Prop :=
  ∃ fuel ticks, build fuel t0 t1 dtMs = some (.ok { t0, t1, dtMs, ticks }) ∧
  IsGrid { t0, t1, dtMs, ticks }

def behind (t0 t1 dtMs : Int) : Int := t0 + ((t1 - t0) / (dtMs * kNsPerMs) + 1) * (dtMs * kNsPerMs)

section Loop
variable {dt t1 : Int}

theorem tickLoop_stop {fuel : Nat} {t : Int} (past : t1 < t) (ticks : Ticks) :
    tickLoop dt t1 (fuel + 1) t ticks = some (.ok ticks) := by
  rw [tickLoop, if_neg past.not_ge]

theorem tickLoop_step {fuel : Nat} {t : Int} (inside : t ≤ t1)
    (fits : IsInt64 (t + dt)) (ticks : Ticks) :
    tickLoop dt t1 (fuel + 1) t ticks = tickLoop dt t1 fuel (t + dt) (ticks ++ [t]) := by
  unfold IsInt64 at fits
  rw [tickLoop, if_pos inside, if_pos fits]

theorem tickLoop_unfit {fuel : Nat} {t : Int} (inside : t ≤ t1)
    (unfit : ¬ IsInt64 (t + dt)) (ticks : Ticks) :
    tickLoop dt t1 (fuel + 1) t ticks = some (.error .signedOverflow) := by
  unfold IsInt64 at unfit
  rw [tickLoop, if_pos inside, if_neg unfit]

theorem tickLoop_not_ok (negative : dt ≤ 0) (fuel : Nat) {t : Int} (inside : t ≤ t1)
    (ticks result : Ticks) :
    tickLoop dt t1 fuel t ticks ≠ some (.ok result) := by
  induction fuel generalizing t ticks with
  | zero => simp [tickLoop]
  | succ fuel ih =>
      by_cases fits : IsInt64 (t + dt)
      · rw [tickLoop_step inside fits]
        exact ih (by omega) _
      · rw [tickLoop_unfit inside fits]
        simp

structure Reaches (dt t1 t : Int) (n : Nat) : Prop where
  inside : ∀ k < n, t + k * dt ≤ t1
  past : t1 < t + n * dt

theorem Reaches.next {t : Int} {n : Nat} (reaches : Reaches dt t1 t (n + 1)) :
    Reaches dt t1 (t + dt) n where
  inside k few := by
    have := reaches.inside (k + 1) (by omega)
    rw [Nat.cast_succ, Int.add_mul] at this
    omega
  past := by
    have := reaches.past
    rw [Nat.cast_succ, Int.add_mul] at this
    omega

theorem tickLoop_ok (positive : 0 < dt) {n : Nat} {t : Int} (low : -2 ^ 63 ≤ t)
    (reaches : Reaches dt t1 t n) (fits : t + n * dt < 2 ^ 63) (ticks : Ticks) :
    tickLoop dt t1 (n + 1) t ticks =
      some (.ok (ticks ++ (List.range n).map fun k : ℕ => t + k * dt)) := by
  induction n generalizing t ticks with
  | zero =>
      have past := reaches.past
      rw [Nat.cast_zero, Int.zero_mul, Int.add_zero] at past
      rw [tickLoop_stop past, List.range_zero, List.map_nil, List.append_nil]
  | succ n ih =>
      have inside := reaches.inside 0 (Nat.succ_pos n)
      rw [Nat.cast_zero, Int.zero_mul, Int.add_zero] at inside
      rw [Nat.cast_succ, Int.add_mul, Int.one_mul] at fits
      have rest : 0 ≤ (n : Int) * dt := Int.mul_nonneg (Int.natCast_nonneg n) positive.le
      rw [tickLoop_step inside ⟨by omega, by omega⟩,
        ih (by omega) reaches.next (by omega), List.range_succ_eq_map, List.map_cons,
          List.map_map, List.append_assoc]
      have shift : (fun k : ℕ => t + dt + k * dt) = (fun k : ℕ => t + k * dt) ∘ Nat.succ := by
        funext k
        rw [Function.comp_apply, Nat.cast_succ, Int.add_mul]
        omega
      rw [shift, Nat.cast_zero, Int.zero_mul, Int.add_zero]
      rfl

theorem tickLoop_overflow {n : Nat} {t : Int} (reaches : Reaches dt t1 t (n + 1))
    (overflows : 2 ^ 63 ≤ t + (n + 1) * dt) (fuel : Nat) (ticks result : Ticks) :
    tickLoop dt t1 fuel t ticks ≠ some (.ok result) := by
  induction fuel generalizing n t ticks with
  | zero => simp [tickLoop]
  | succ fuel ih =>
      have inside := reaches.inside 0 (Nat.succ_pos n)
      rw [Nat.cast_zero, Int.zero_mul, Int.add_zero] at inside
      by_cases fits : IsInt64 (t + dt)
      · rw [tickLoop_step inside fits]
        cases n with
        | zero =>
            have := fits.2
            simp at overflows
            omega
        | succ n =>
            refine ih reaches.next ?_ _
            rw [Nat.cast_succ, Int.add_mul, Int.one_mul] at overflows
            omega
      · rw [tickLoop_unfit inside fits]
        simp

theorem exists_reaches (positive : 0 < dt) {t0 : Int} (some_ : t0 ≤ t1) :
    ∃ n : Nat, Reaches dt t1 t0 (n + 1) ∧ (n : Int) = (t1 - t0) / dt := by
  have nonneg : 0 ≤ (t1 - t0) / dt := Int.ediv_nonneg (by omega) positive.le
  refine ⟨((t1 - t0) / dt).toNat, ⟨fun k few => ?_, ?_⟩, Int.toNat_of_nonneg nonneg⟩
  · have count : (k : Int) ≤ (t1 - t0) / dt := by omega
    have := (Int.le_ediv_iff_mul_le positive).mp count
    omega
  · rw [Nat.cast_succ, Int.toNat_of_nonneg nonneg]
    have := Int.lt_ediv_add_one_mul_self (t1 - t0) positive
    omega

end Loop

theorem isGrid_of_reaches {t0 t1 dtMs : Int} {n : Nat}
    (positive : 0 < dtMs * kNsPerMs) (some_ : t0 ≤ t1)
    (reaches : Reaches (dtMs * kNsPerMs) t1 t0 n) :
    IsGrid { t0, t1, dtMs,
             ticks := (List.range n).map fun k : ℕ => t0 + k * (dtMs * kNsPerMs) } where
  mem_iff t := by
    rw [List.mem_map]
    constructor
    · rintro ⟨k, few, rfl⟩
      exact ⟨some_, k, rfl, reaches.inside k (List.mem_range.mp few)⟩
    · rintro ⟨-, k, rfl, inside⟩
      dsimp only at inside
      refine ⟨k, List.mem_range.mpr ?_, rfl⟩
      by_contra many
      have := Int.mul_le_mul_of_nonneg_right (Int.ofNat_le.mpr (not_lt.mp many)) positive.le
      have past := reaches.past
      omega
  increasing := by
    refine List.pairwise_map.mpr (List.pairwise_lt_range.imp fun {a b} less => ?_)
    have := Int.mul_lt_mul_of_pos_right (Int.ofNat_lt.mpr less) positive
    omega

theorem step_fits {dtMs : Int} (stored : IsInt32 dtMs) : IsInt64 (dtMs * kNsPerMs) := by
  obtain ⟨low, high⟩ := stored
  unfold IsInt64 kNsPerMs
  omega

theorem build_eq {dtMs : Int} (stored : IsInt32 dtMs) (fuel : Nat) (t0 t1 : Int) :
    build fuel t0 t1 dtMs =
      (tickLoop (dtMs * kNsPerMs) t1 fuel t0 []).map fun r => r.map fun ticks =>
        { t0, t1, dtMs, ticks } :=
  if_pos (step_fits stored)

theorem not_builds {t0 t1 dtMs : Int} (stored : IsInt32 dtMs)
    (never : ∀ fuel result, tickLoop (dtMs * kNsPerMs) t1 fuel t0 [] ≠ some (.ok result)) :
    ¬ Builds t0 t1 dtMs := by
  rintro ⟨fuel, ticks, built, -⟩
  rw [build_eq stored] at built
  obtain ⟨r, ran, ok⟩ := Option.map_eq_some_iff.mp built
  cases r with
  | error e => cases ok
  | ok result => exact never fuel result ran

theorem builds_empty {t0 t1 dtMs : Int} (stored : IsInt32 dtMs)
    (empty : t1 < t0) : Builds t0 t1 dtMs := by
  refine ⟨1, [], ?_, fun t => ?_, List.Pairwise.nil⟩
  · rw [build_eq stored, tickLoop_stop empty]
    rfl
  · simp [empty.not_ge]

theorem builds_iff {t0 t1 dtMs : Int} (stored : IsInt32 dtMs)
    (low : -2 ^ 63 ≤ t0) (some_ : t0 ≤ t1) :
    Builds t0 t1 dtMs ↔ 0 < dtMs ∧ behind t0 t1 dtMs < 2 ^ 63 := by
  have unit : 0 < kNsPerMs := by decide
  rcases le_or_gt dtMs 0 with negative | positive
  · refine iff_of_false ?_ fun step => step.1.not_ge negative
    exact not_builds stored fun fuel =>
      tickLoop_not_ok (Int.mul_nonpos_of_nonpos_of_nonneg negative unit.le) fuel some_ []
  · have step : 0 < dtMs * kNsPerMs := Int.mul_pos positive unit
    obtain ⟨n, reaches, count⟩ := exists_reaches step some_
    have last : behind t0 t1 dtMs = t0 + ((n + 1 : ℕ) : Int) * (dtMs * kNsPerMs) := by
      rw [behind, ← count, Nat.cast_succ]
    rw [last]
    constructor
    · intro builds
      refine ⟨positive, ?_⟩
      by_contra overflows
      rw [Nat.cast_succ] at overflows
      exact not_builds stored
        (fun fuel => tickLoop_overflow reaches (not_lt.mp overflows) fuel []) builds
    · rintro ⟨-, fits⟩
      refine ⟨n + 2, _, ?_, isGrid_of_reaches step some_ reaches⟩
      rw [build_eq stored, tickLoop_ok step low reaches fits]
      rfl

end TimeGrid

/-- With the step of a configuration file, the grid is built if it is empty, or if the step is
positive and the first point behind the end can be stored. -/
theorem timeGrid_builds_iff (text : Bytes) (t0 t1 : NsTime) :
    TimeGrid.Builds t0 t1 (fromYaml text).gridDtMs ↔
      t1.1 < t0.1 ∨ 0 < (fromYaml text).gridDtMs ∧
        TimeGrid.behind t0 t1 (fromYaml text).gridDtMs < 2 ^ 63 := by
  have stored := (fromYaml_stored text).gridDtMs
  rcases lt_or_ge t1.1 t0.1 with empty | some_
  · exact iff_of_true (TimeGrid.builds_empty stored empty) (Or.inl empty)
  · rw [TimeGrid.builds_iff stored t0.2.1 some_]
    exact (or_iff_right some_.not_gt).symm

/-- A step of zero is accepted, and the loop stays at its first point. -/
theorem zeroStep_neverBuilds :
    ¬ ∀ (text : Bytes) (t0 t1 : NsTime), TimeGrid.Builds t0 t1 (fromYaml text).gridDtMs := by
  intro always
  have zero : (fromYaml (ascii "grid_dt_ms: 0")).gridDtMs = 0 := by decide
  have builds :=
    always (ascii "grid_dt_ms: 0") ⟨0, by norm_num, by norm_num⟩ ⟨0, by norm_num, by norm_num⟩
  rw [zero, TimeGrid.builds_iff ⟨by norm_num, by norm_num⟩ (by norm_num) le_rfl] at builds
  exact lt_irrefl _ builds.1

end LocalPC.Offline
