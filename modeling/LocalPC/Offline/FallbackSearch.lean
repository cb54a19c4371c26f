import LocalPC.Lib.BestTrial
import LocalPC.Offline.TimeSync

namespace LocalPC.Offline
open Lib

def fallbackConfidence (found total : Nat) : Float :=
  if found = 0 then 0.0 else stdMin 1.0 (Float.ofNat found / Float.ofNat total * 0.8)

def hearsChecked (shifted : Int) : List Int → Option Bool
  | [] => some false
  | ao :: rest => do
      let gap ← signed? 64 (ao - shifted)
      let distance ← signed? 64 gap.natAbs
      if distance < 500000000 then some true else hearsChecked shifted rest

def countChecked (audioOnsetTs : List Int) (off : Int) : List Int → Nat → Option Nat
  | [], found => some found
  | son :: rest, found => do
      let shifted ← signed? 64 (son - off)
      let heard ← hearsChecked shifted audioOnsetTs
      if heard then
        let more ← signed? 32 (found + 1)
        countChecked audioOnsetTs off rest more.toNat
      else countChecked audioOnsetTs off rest found

def searchChecked (sirenOns audioOnsetTs : List Int) (steps : Int) : Option (Nat × Int) :=
  (fallbackSteps steps).foldlM
    (fun best s => do
      let off ← signed? 64 (s * 100000000)
      let found ← countChecked audioOnsetTs off sirenOns 0
      some (if found > best.1 then (found, off) else best))
    (0, 0)

/-- `sync_event_audio_fallback`, `none` where an operation is undefined. -/
def fallbackChecked (srcEvents : List SourceEvent) (audioOnsetTs : List Int)
    (searchWindowS : Float) :
    Option ClockEstimate :=
  let est : ClockEstimate := { method := ascii "event_audio" }
  let sirenOns := sirenOnTimes srcEvents
  if sirenOns = [] ∨ audioOnsetTs = [] then some est
  else do
    -- `max_off`, which the source computes and does not use
    let _ ← signedCast? 64 (searchWindowS * Float.ofNat kNsPerSec)
    let steps ← signedCast? 32 (searchWindowS * 10)
    let _ ← signed? 32 (-steps)
    let best ← searchChecked sirenOns audioOnsetTs steps
    -- the last `++s`
    let _ ← signed? 32 (steps + 1)
    some { est with offsetNs := best.2, confidence := fallbackConfidence best.1 sirenOns.length }

def Close (shifted ao : Int) : Prop := (ao - shifted).natAbs < 500000000

instance (shifted ao : Int) : Decidable (Close shifted ao) := inferInstanceAs (Decidable (_ < _))

/-- The siren_on events that have a close onset once shifted. -/
def matchedAt (sirenOns audioOnsetTs : List Int) (off : Int) : Nat :=
  sirenOns.countP fun son => audioOnsetTs.any fun ao => Close (son - off) ao

def OnsetsInRange (audioOnsetTs : List Int) (shifted : Int) : Prop :=
  ∀ before ao after, audioOnsetTs = before ++ ao :: after →
    (∀ earlier ∈ before, ¬ Close shifted earlier) →
    (ao - shifted).natAbs < 2 ^ 63

structure TrialDefined (sirenOns audioOnsetTs : List Int) (off : Int) : Prop where
  shifts : ∀ son ∈ sirenOns, FitsSigned 64 (son - off)
  onsets : ∀ son ∈ sirenOns, OnsetsInRange audioOnsetTs (son - off)
  count : matchedAt sirenOns audioOnsetTs off < 2 ^ 31

/-- A multiple of 100 ms in the window of `search_window_s * 10` steps to each side. -/
def InWindow (searchWindowS : Float) (k : Int) : Prop :=
  ∀ steps, truncated (searchWindowS * 10) = some steps → (k.natAbs : Int) ≤ steps

/-- No cast, shift, distance or count of the search leaves its type. -/
structure SearchDefined (sirenOns audioOnsetTs : List Int) (searchWindowS : Float) : Prop where
  maxOff : ∃ maxOff,
    truncated (searchWindowS * Float.ofNat kNsPerSec) = some maxOff ∧ FitsSigned 64 maxOff
  steps : ∃ steps, truncated (searchWindowS * 10) = some steps ∧
    -2 ^ 31 < steps ∧ steps < 2 ^ 31 - 1
  trials : ∀ k, InWindow searchWindowS k → TrialDefined sirenOns audioOnsetTs (k * 100000000)

theorem onsetsInRange_cons {shifted ao : Int} {rest : List Int} :
    OnsetsInRange (ao :: rest) shifted ↔
      (ao - shifted).natAbs < 2 ^ 63 ∧ (Close shifted ao ∨ OnsetsInRange rest shifted) := by
  constructor
  · intro inRange
    refine ⟨inRange [] ao rest rfl (by simp), ?_⟩
    by_cases close : Close shifted ao
    · exact Or.inl close
    · refine Or.inr fun before later after split far => inRange (ao :: before) later after ?_ ?_
      · rw [split, List.cons_append]
      · exact List.forall_mem_cons.mpr ⟨close, far⟩
  · rintro ⟨first, others⟩ before later after split far
    cases before with
    | nil =>
        obtain ⟨rfl, -⟩ := List.cons.inj split
        exact first
    | cons earlier before =>
        obtain ⟨rfl, tail⟩ := List.cons.inj split
        obtain ⟨apart, far⟩ := List.forall_mem_cons.mp far
        exact (others.resolve_left apart) before later after tail far

theorem fitsSigned_natAbs {x : Int} :
    FitsSigned 64 x ∧ FitsSigned 64 (x.natAbs : Int) ↔ x.natAbs < 2 ^ 63 := by
  unfold FitsSigned
  rw [show (2 : Int) ^ (64 - 1) = 2 ^ 63 from rfl]
  omega

theorem hearsChecked_cons {shifted ao : Int} {rest : List Int} :
    hearsChecked shifted (ao :: rest) =
      if (ao - shifted).natAbs < 2 ^ 63 then
        if Close shifted ao then some true else hearsChecked shifted rest
      else none := by
  rw [hearsChecked]
  by_cases inRange : (ao - shifted).natAbs < 2 ^ 63
  · obtain ⟨gap, distance⟩ := fitsSigned_natAbs.mpr inRange
    have close : (((ao - shifted).natAbs : Int) < 500000000) = Close shifted ao := by
      unfold Close
      exact propext (by omega)
    rw [if_pos inRange, signed?, if_pos gap, Option.bind_eq_bind, Option.bind_some,
      signed?, if_pos distance, Option.bind_some]
    simp only [close]
  · rw [if_neg inRange]
    by_cases gap : FitsSigned 64 (ao - shifted)
    · have distance : ¬ FitsSigned 64 ((ao - shifted).natAbs : Int) :=
        fun fits => inRange (fitsSigned_natAbs.mp ⟨gap, fits⟩)
      rw [signed?, if_pos gap, Option.bind_eq_bind, Option.bind_some, signed?, if_neg distance]
      rfl
    · rw [signed?, if_neg gap]
      rfl

theorem hearsChecked_eq_some {shifted : Int} {audioOnsetTs : List Int} {heard : Bool} :
    hearsChecked shifted audioOnsetTs = some heard ↔
      OnsetsInRange audioOnsetTs shifted ∧
        audioOnsetTs.any (fun ao => Close shifted ao) = heard := by
  induction audioOnsetTs with
  | nil => simp [hearsChecked, OnsetsInRange]
  | cons ao rest ih =>
      rw [hearsChecked_cons, onsetsInRange_cons, List.any_cons]
      by_cases inRange : (ao - shifted).natAbs < 2 ^ 63
      · rw [if_pos inRange]
        by_cases close : Close shifted ao
        · rw [if_pos close, Option.some.injEq, decide_eq_true close, Bool.true_or]
          exact ⟨fun same => ⟨⟨inRange, Or.inl close⟩, same⟩, And.right⟩
        · rw [if_neg close, ih, decide_eq_false close, Bool.false_or]
          exact and_congr_left'
            ⟨fun later => ⟨inRange, Or.inr later⟩, fun ⟨_, later⟩ => later.resolve_left close⟩
      · rw [if_neg inRange]
        exact ⟨fun undefined => (by cases undefined), fun ⟨⟨near, _⟩, _⟩ => absurd near inRange⟩

theorem countChecked_eq_some {audioOnsetTs : List Int} {off : Int}
    {sirenOns : List Int} {found n : Nat} (start : found < 2 ^ 31) :
    countChecked audioOnsetTs off sirenOns found = some n ↔
      (∀ son ∈ sirenOns, FitsSigned 64 (son - off) ∧ OnsetsInRange audioOnsetTs (son - off)) ∧
        n < 2 ^ 31 ∧ found + matchedAt sirenOns audioOnsetTs off = n := by
  induction sirenOns generalizing found with
  | nil =>
      rw [countChecked, Option.some.injEq]
      constructor
      · rintro rfl
        exact ⟨by simp, start, rfl⟩
      · exact fun ⟨_, _, same⟩ => same
  | cons son rest ih =>
      rw [countChecked, List.forall_mem_cons, matchedAt, List.countP_cons, ← matchedAt]
      simp only [Option.bind_eq_bind, Option.bind_eq_some_iff,
        signed?_eq_some, hearsChecked_eq_some]
      constructor
      · rintro ⟨shifted, ⟨shift, rfl⟩, heard, ⟨onsets, is⟩, counted⟩
        cases heard with
        | true =>
            simp only [if_true, Option.bind_eq_some_iff, signed?_eq_some] at counted
            obtain ⟨more, ⟨fits, rfl⟩, counted⟩ := counted
            obtain ⟨defined, small, total⟩ := (ih (by have := fits.2; omega)).mp counted
            refine ⟨⟨⟨shift, onsets⟩, defined⟩, small, ?_⟩
            rw [if_pos is, ← total]
            omega
        | false =>
            obtain ⟨defined, small, total⟩ := (ih start).mp counted
            exact ⟨⟨⟨shift, onsets⟩, defined⟩,
              small, by rw [if_neg (by rw [is]; decide)]; exact total⟩
      · rintro ⟨⟨⟨shift, onsets⟩, defined⟩, small, total⟩
        refine ⟨son - off, ⟨shift, rfl⟩, _, ⟨onsets, rfl⟩, ?_⟩
        cases heard : audioOnsetTs.any fun ao => Close (son - off) ao with
        | true =>
            rw [if_pos heard] at total
            simp only [if_true, Option.bind_eq_some_iff, signed?_eq_some]
            refine ⟨found + 1, ⟨⟨by omega, by omega⟩, rfl⟩,
              (ih (by omega)).mpr ⟨defined, small, by omega⟩⟩
        | false =>
            rw [if_neg (by rw [heard]; decide)] at total
            exact (ih start).mpr ⟨defined, small, total⟩

theorem countChecked_start {audioOnsetTs : List Int} {off : Int} {sirenOns : List Int} {n : Nat} :
    countChecked audioOnsetTs off sirenOns 0 = some n ↔
      TrialDefined sirenOns audioOnsetTs off ∧ matchedAt sirenOns audioOnsetTs off = n := by
  rw [countChecked_eq_some (by decide), Nat.zero_add]
  constructor
  · rintro ⟨defined, small, rfl⟩
    exact ⟨⟨fun son member => (defined son member).1,
      fun son member => (defined son member).2, small⟩, rfl⟩
  · rintro ⟨defined, rfl⟩
    exact ⟨fun son member => ⟨defined.shifts son member, defined.onsets son member⟩,
      defined.count, rfl⟩

def fallbackGrid (steps : Int) : List Int := (fallbackSteps steps).map (· * 100000000)

theorem fallbackSteps_eq {steps : Int} (least : -2 ^ 31 < steps) (most : steps < 2 ^ 31) :
    fallbackSteps steps = (List.range (2 * steps + 1).toNat).map fun k :
    Nat => (k : Int) - steps := by
  have start : (-steps).bmod (2 ^ 32) = -steps := Int.bmod_eq_of_le (by omega) (by omega)
  have length : steps - -steps + 1 = 2 * steps + 1 := by omega
  rw [fallbackSteps, start, length]
  exact List.map_congr_left fun k _ => by omega

section Grid
variable {steps : Int} (least : -2 ^ 31 < steps) (most : steps < 2 ^ 31)
include least most

theorem mem_fallbackSteps {k : Int} : k ∈ fallbackSteps steps ↔ (k.natAbs : Int) ≤ steps := by
  rw [fallbackSteps_eq least most, List.mem_map]
  constructor
  · rintro ⟨n, member, rfl⟩
    have bound := List.mem_range.mp member
    omega
  · intro bound
    exact ⟨(k + steps).toNat, List.mem_range.mpr (by omega), by omega⟩

theorem mem_fallbackGrid {off : Int} :
    off ∈ fallbackGrid steps ↔ ∃ k : Int, (k.natAbs : Int) ≤ steps ∧ off = k * 100000000 := by
  rw [fallbackGrid, List.mem_map]
  constructor
  · rintro ⟨k, member, rfl⟩
    exact ⟨k, (mem_fallbackSteps least most).mp member, rfl⟩
  · rintro ⟨k, bound, rfl⟩
    exact ⟨k, (mem_fallbackSteps least most).mpr bound, rfl⟩

theorem fallbackGrid_sorted : (fallbackGrid steps).Pairwise (· < ·) := by
  rw [fallbackGrid, fallbackSteps_eq least most, List.map_map, List.pairwise_map]
  exact List.pairwise_lt_range.imp fun less => by
    simp only [Function.comp_apply]
    omega

end Grid

def bestOffset (sirenOns audioOnsetTs : List Int) (steps : Int) : Nat × Int :=
  (fallbackGrid steps).foldl (keepBest (matchedAt sirenOns audioOnsetTs)) (0, 0)

theorem searchChecked_eq_some {sirenOns audioOnsetTs : List Int} {steps : Int}
    (least : -2 ^ 31 < steps) (most : steps < 2 ^ 31) {best : Nat × Int} :
    searchChecked sirenOns audioOnsetTs steps = some best ↔
      (∀ off ∈ fallbackGrid steps, TrialDefined sirenOns audioOnsetTs off) ∧
        bestOffset sirenOns audioOnsetTs steps = best := by
  have trial (before : Nat × Int) (s : Int) (next : Nat × Int) :
      (do let off ← signed? 64 (s * 100000000)
          let found ← countChecked audioOnsetTs off sirenOns 0
          some (if found > before.1 then (found, off) else before)) = some next ↔
        (FitsSigned 64 (s * 100000000) ∧ TrialDefined sirenOns audioOnsetTs (s * 100000000)) ∧
          keepBest (matchedAt sirenOns audioOnsetTs) before (s * 100000000) = next := by
    simp only [Option.bind_eq_bind, Option.bind_eq_some_iff, signed?_eq_some,
      countChecked_start, Option.some.injEq]
    constructor
    · rintro ⟨off, ⟨fits, rfl⟩, found, ⟨defined, rfl⟩, rfl⟩
      exact ⟨⟨fits, defined⟩, rfl⟩
    · rintro ⟨⟨fits, defined⟩, rfl⟩
      exact ⟨_, ⟨fits, rfl⟩, _, ⟨defined, rfl⟩, rfl⟩
  rw [searchChecked, foldlM_eq_some trial, bestOffset, fallbackGrid,
    List.foldl_map, List.forall_mem_map]
  refine and_congr_left' (forall₂_congr fun s member => ?_)
  have bound := (mem_fallbackSteps least most).mp member
  exact and_iff_right ⟨by omega, by omega⟩

def estimateOf (sirenOns audioOnsetTs : List Int) (steps : Int) : ClockEstimate :=
  let best := bestOffset sirenOns audioOnsetTs steps
  { method := ascii "event_audio"
    offsetNs := best.2
    confidence := fallbackConfidence best.1 sirenOns.length }

theorem inWindow_iff {searchWindowS : Float} {steps : Int}
    (whole : truncated (searchWindowS * 10) = some steps) (k : Int) :
    InWindow searchWindowS k ↔ (k.natAbs : Int) ≤ steps := by
  constructor
  · exact fun inside => inside steps whole
  · intro bound other is
    rw [whole] at is
    cases is
    exact bound

theorem fallbackChecked_silent {srcEvents : List SourceEvent}
    {audioOnsetTs : List Int} (searchWindowS : Float)
    (silent : sirenOnTimes srcEvents = [] ∨ audioOnsetTs = []) :
    fallbackChecked srcEvents audioOnsetTs searchWindowS = some { method := ascii "event_audio" } :=
  if_pos silent

theorem fallbackChecked_eq_some {srcEvents : List SourceEvent}
    {audioOnsetTs : List Int} {searchWindowS : Float} {est : ClockEstimate}
    (heard : ¬ (sirenOnTimes srcEvents = [] ∨ audioOnsetTs = [])) :
    fallbackChecked srcEvents audioOnsetTs searchWindowS = some est ↔
      SearchDefined (sirenOnTimes srcEvents) audioOnsetTs searchWindowS ∧
        ∃ steps, truncated (searchWindowS * 10) = some steps ∧
          estimateOf (sirenOnTimes srcEvents) audioOnsetTs steps = est := by
  rw [fallbackChecked]
  dsimp only
  rw [if_neg heard]
  simp only [Option.bind_eq_bind, Option.bind_eq_some_iff, signedCast?_eq_some,
    signed?_eq_some, Option.some.injEq]
  constructor
  · rintro ⟨maxOff, max, steps, ⟨whole, fits⟩, _, ⟨start, rfl⟩, best, searched, _, ⟨last, rfl⟩, rfl⟩
    have least : -2 ^ 31 < steps := by have := start.2; omega
    have most : steps < 2 ^ 31 - 1 := by have := last.2; omega
    obtain ⟨defined, rfl⟩ := (searchChecked_eq_some least (by omega)).mp searched
    refine ⟨⟨⟨maxOff, max⟩, ⟨steps, whole, least, most⟩, fun k inside => defined _ ?_⟩, steps,
      whole, rfl⟩
    exact (mem_fallbackGrid least (by omega)).mpr ⟨k, (inWindow_iff whole k).mp inside, rfl⟩
  · rintro ⟨⟨⟨maxOff, max⟩, ⟨steps, whole, least, most⟩, trials⟩, other, is, rfl⟩
    rw [whole] at is
    cases is
    refine ⟨maxOff, max, steps, ⟨whole, ⟨by omega, by omega⟩⟩, -steps,
      ⟨⟨by omega, by omega⟩, rfl⟩, _,
        (searchChecked_eq_some least (by omega)).mpr ⟨fun off member => ?_, rfl⟩, steps + 1,
          ⟨⟨by omega, by omega⟩, rfl⟩, rfl⟩
    obtain ⟨k, bound, rfl⟩ := (mem_fallbackGrid least (by omega)).mp member
    exact trials k ((inWindow_iff whole k).mpr bound)

theorem hears_eq {shifted ao : Int} (inRange : (ao - shifted).natAbs < 2 ^ 63) :
    hears shifted ao = decide (Close shifted ao) := by
  obtain ⟨gap, distance⟩ := fitsSigned_natAbs.mpr inRange
  rw [hears, wrapInt64, wrapInt64, bmod_of_fits (by decide) gap, bmod_of_fits (by decide) distance]
  unfold Close
  exact decide_eq_decide.mpr (by omega)

theorem any_hears {audioOnsetTs : List Int} {shifted : Int}
    (inRange : OnsetsInRange audioOnsetTs shifted) :
    audioOnsetTs.any (hears shifted) = audioOnsetTs.any fun ao => Close shifted ao := by
  induction audioOnsetTs with
  | nil => rw [List.any_nil, List.any_nil]
  | cons ao rest ih =>
      obtain ⟨near, later⟩ := onsetsInRange_cons.mp inRange
      rw [List.any_cons, List.any_cons, hears_eq near]
      rcases later with close | later
      · rw [decide_eq_true close, Bool.true_or, Bool.true_or]
      · rw [ih later]

theorem countMatches_eq {sirenOns audioOnsetTs : List Int} {off : Int}
    (defined : TrialDefined sirenOns audioOnsetTs off) :
    countMatches sirenOns audioOnsetTs off = matchedAt sirenOns audioOnsetTs off := by
  unfold countMatches matchedAt
  refine List.countP_congr fun son member => ?_
  rw [wrapInt64, bmod_of_fits (by decide) (defined.shifts son member),
    any_hears (defined.onsets son member)]

theorem syncEventAudioFallback_heard {srcEvents : List SourceEvent}
    {audioOnsetTs : List Int} (searchWindowS : Float)
    (heard : ¬ (sirenOnTimes srcEvents = [] ∨ audioOnsetTs = [])) :
    syncEventAudioFallback srcEvents audioOnsetTs searchWindowS =
      let best := bestMatches (sirenOnTimes srcEvents) audioOnsetTs
        (fallbackGrid (castInt (searchWindowS * 10)))
      { method := ascii "event_audio"
        offsetNs := best.2
        confidence := fallbackConfidence best.1 (sirenOnTimes srcEvents).length } := by
  rw [syncEventAudioFallback]
  dsimp only
  rw [if_neg heard]
  rfl

theorem syncEventAudioFallback_eq {srcEvents : List SourceEvent}
    {audioOnsetTs : List Int} {searchWindowS : Float} {est : ClockEstimate}
    (returned : fallbackChecked srcEvents audioOnsetTs searchWindowS = some est) :
    syncEventAudioFallback srcEvents audioOnsetTs searchWindowS = est := by
  by_cases silent : sirenOnTimes srcEvents = [] ∨ audioOnsetTs = []
  · rw [fallbackChecked_silent searchWindowS silent] at returned
    cases returned
    exact if_pos silent
  · obtain ⟨⟨-, ⟨steps, whole, least, most⟩, trials⟩, _, is, rfl⟩ :=
      (fallbackChecked_eq_some silent).mp returned
    rw [whole] at is
    cases is
    have cast : castInt (searchWindowS * 10) = steps :=
      castSigned_eq (signedCast?_eq_some.mpr ⟨whole, by constructor <;> omega⟩)
    have found : bestMatches (sirenOnTimes srcEvents) audioOnsetTs (fallbackGrid steps) =
        bestOffset (sirenOnTimes srcEvents) audioOnsetTs steps := by
      unfold bestMatches bestOffset
      refine List.foldl_ext _ _ _ fun best off member => ?_
      obtain ⟨k, bound, rfl⟩ := (mem_fallbackGrid least (by omega)).mp member
      dsimp only
      rw [countMatches_eq (trials k ((inWindow_iff whole k).mpr bound))]
      rfl
    rw [syncEventAudioFallback_heard searchWindowS silent, cast, found]
    rfl

end LocalPC.Offline
