import LocalPC.Lib.FloatArithmetic
import LocalPC.Offline.FallbackSearch

namespace LocalPC.Offline
open Lib

theorem matchedAt_le (sirenOns audioOnsetTs : List Int) (off : Int) :
    matchedAt sirenOns audioOnsetTs off ≤ sirenOns.length :=
  List.countP_le_length

theorem matchedAt_silent {sirenOns audioOnsetTs : List Int}
    (silent : sirenOns = [] ∨ audioOnsetTs = []) (off : Int) :
    matchedAt sirenOns audioOnsetTs off = 0 := by
  rcases silent with rfl | rfl
  · rfl
  · exact List.countP_eq_zero.mpr (by simp)

theorem bestOffset_spec (sirenOns audioOnsetTs : List Int) (steps : Int) :
    let best := bestOffset sirenOns audioOnsetTs steps
    let matched := matchedAt sirenOns audioOnsetTs
    (best.2 = 0 ∨ best.2 ∈ fallbackGrid steps) ∧
      (∀ off ∈ fallbackGrid steps, matched off ≤ matched best.2) ∧
      (best.1 = 0 ↔ ∀ off ∈ fallbackGrid steps, matched off = 0) ∧ best.1 ≤ sirenOns.length := by
  intro best matched
  rcases @foldl_keepBest _ _ _ matched (fallbackGrid steps) (0, 0) with ⟨kept, none⟩ |
      ⟨more, before, after, first⟩
  · have is : best = (0, 0) := kept
    have silent (off : Int) (member : off ∈ fallbackGrid steps) : matched off = 0 :=
      Nat.le_zero.mp (none off member)
    rw [is]
    exact ⟨Or.inl rfl, fun off member => (silent off member).trans_le (Nat.zero_le _),
      ⟨fun _ => silent, fun _ => rfl⟩, Nat.zero_le _⟩
  · have member : best.2 ∈ fallbackGrid steps := by
      rw [first.split]
      exact List.mem_append_right _ List.mem_cons_self
    have scored : best.1 = matched best.2 := first.scored
    refine ⟨Or.inr member, fun off listed => (first.le listed).trans_eq scored,
      ⟨fun zero => ?_, fun silent => ?_⟩, ?_⟩
    · exact absurd zero (ne_of_gt more)
    · exact scored.trans (silent _ member)
    · exact scored.trans_le (matchedAt_le _ _ _)

theorem searchDefined_of_small {sirenOns audioOnsetTs : List Int}
    {searchWindowS : Float} {steps maxOff : Int}
    (whole : truncated (searchWindowS * 10) = some steps) (least : -2 ^ 31 < steps)
    (most : steps < 2 ^ 31 - 1)
    (max : truncated (searchWindowS * Float.ofNat kNsPerSec) = some maxOff)
    (fits : FitsSigned 64 maxOff) (sirens : ∀ son ∈ sirenOns, son.natAbs < 2 ^ 61)
    (onsets : ∀ ao ∈ audioOnsetTs, ao.natAbs < 2 ^ 61) (few : sirenOns.length < 2 ^ 31) :
    SearchDefined sirenOns audioOnsetTs searchWindowS := by
  refine ⟨⟨maxOff, max, fits⟩, ⟨steps, whole, least, most⟩, fun k inside => ⟨fun son member => ?_,
    fun son member before ao after split _ => ?_, (matchedAt_le _ _ _).trans_lt few⟩⟩
  · have bound := (inWindow_iff whole k).mp inside
    have early := sirens son member
    constructor
    · rw [show (2 : Int) ^ (64 - 1) = 2 ^ 63 from rfl]
      omega
    · rw [show (2 : Int) ^ (64 - 1) = 2 ^ 63 from rfl]
      omega
  · have bound := (inWindow_iff whole k).mp inside
    have early := sirens son member
    have listed : ao ∈
        audioOnsetTs := by rw [split]; exact List.mem_append_right _ List.mem_cons_self
    have near := onsets ao listed
    omega

section Shifted
variable {sirenOns audioOnsetTs : List Int} {d : Int}

theorem matchedAt_eq_length_iff (heard : sirenOns ≠ [])
    (shifted : ∀ t, t ∈ audioOnsetTs ↔ t + d ∈ sirenOns) (off : Int) :
    matchedAt sirenOns audioOnsetTs off = sirenOns.length ↔ (off - d).natAbs < 500000000 := by
  rw [matchedAt, List.countP_eq_length]
  constructor
  · intro all
    -- the earliest event has no onset before it, and the latest none after it
    have first := all _ (List.min_mem heard)
    have last := all _ (List.max_mem heard)
    rw [List.any_eq_true] at first last
    obtain ⟨ao, member, close⟩ := first
    obtain ⟨ao', member', close'⟩ := last
    have later := List.min_le_of_mem ((shifted ao).mp member)
    have earlier := List.le_max_of_mem ((shifted ao').mp member')
    rw [decide_eq_true_iff, Close] at close close'
    omega
  · intro near son member
    rw [List.any_eq_true]
    refine ⟨son - d, (shifted _).mpr (by simpa using member), ?_⟩
    rw [decide_eq_true_iff, Close]
    omega

theorem matchedAt_eq_length_of_grid {j k : Int} (heard : sirenOns ≠ [])
    (shifted : ∀ t, t ∈ audioOnsetTs ↔ t + k * 100000000 ∈ sirenOns) :
    matchedAt sirenOns audioOnsetTs (j * 100000000) = sirenOns.length ↔ (j - k).natAbs ≤ 4 := by
  rw [matchedAt_eq_length_iff heard shifted]
  omega

theorem bestOffset_shifted {k steps : Int} (least : -2 ^ 31 < steps)
    (most : steps < 2 ^ 31) (heard : sirenOns ≠ [])
    (shifted : ∀ t, t ∈ audioOnsetTs ↔ t + k * 100000000 ∈ sirenOns)
    (inWindow : (k.natAbs : Int) ≤ steps) :
    (bestOffset sirenOns audioOnsetTs steps).2 = max (-steps) (k - 4) * 100000000 := by
  have full (j : Int) := @matchedAt_eq_length_of_grid _ _ j k heard shifted
  have tried (j : Int) (bound : (j.natAbs : Int) ≤ steps) : j * 100000000 ∈ fallbackGrid steps :=
    (mem_fallbackGrid least most).mpr ⟨j, bound, rfl⟩
  have found : matchedAt sirenOns audioOnsetTs (k * 100000000) = sirenOns.length :=
    (full k).mpr (by simp)
  have some_ : 0 < sirenOns.length := List.length_pos_iff.mpr heard
  rw [bestOffset]
  rcases @foldl_keepBest _ _ _ (matchedAt sirenOns audioOnsetTs) (fallbackGrid steps) (0, 0) with
    ⟨-, none⟩ | ⟨-, before, after, first⟩
  · have missed := none _ (tried k inWindow)
    rw [found] at missed
    exact absurd missed some_.not_ge
  · generalize (fallbackGrid steps).foldl (keepBest (matchedAt sirenOns audioOnsetTs))
      (0, 0) = best at first ⊢
    have all : sirenOns.length ≤ best.1 := found ▸ first.le (tried k inWindow)
    have member : best.2 ∈ fallbackGrid steps := by
      rw [first.split]
      exact List.mem_append_right _ List.mem_cons_self
    obtain ⟨j, bound, is⟩ := (mem_fallbackGrid least most).mp member
    have scored : matchedAt sirenOns audioOnsetTs (j * 100000000) = sirenOns.length :=
      le_antisymm (matchedAt_le _ _ _) (by rw [← is, ← first.scored]; exact all)
    have near := (full j).mp scored
    have start : (max (-steps) (k - 4)).natAbs ≤ steps := by omega
    rw [is]
    by_contra other
    -- an earlier offset matches all events as well
    have smaller : max (-steps) (k - 4) * 100000000 < best.2 := by rw [is]; omega
    have less :=
      first.earlier _ (first.mem_before (fallbackGrid_sorted least most) (tried _ start) smaller)
    rw [(full _).mpr (by omega), first.scored] at less
    exact absurd less (matchedAt_le _ _ _).not_gt

theorem onsets_ne_nil (heard : sirenOns ≠ []) (shifted : ∀ t, t ∈ audioOnsetTs ↔ t + d ∈ sirenOns) :
    audioOnsetTs ≠ [] := by
  obtain ⟨son, member⟩ := List.exists_mem_of_ne_nil _ heard
  exact List.ne_nil_of_mem ((shifted (son - d)).mpr (by rwa [Int.sub_add_cancel]))

end Shifted

/-- Onsets that are exactly the siren_on times less an offset in the window: the fallback returns an
offset within 50 ms of it if and only if no operation overflows and it is the first of the window. -/
theorem fallback_accurate_iff {srcEvents : List SourceEvent} {audioOnsetTs : List Int}
    {searchWindowS : Float} {k : Int} (heard : sirenOnTimes srcEvents ≠ [])
    (shifted : ∀ t, t ∈ audioOnsetTs ↔ t + k * 100000000 ∈ sirenOnTimes srcEvents)
    (inWindow : InWindow searchWindowS k) :
    (∃ est, fallbackChecked srcEvents audioOnsetTs searchWindowS = some est ∧
        (est.offsetNs - k * 100000000).natAbs ≤ 50000000) ↔
      SearchDefined (sirenOnTimes srcEvents) audioOnsetTs searchWindowS ∧
        truncated (searchWindowS * 10) = some (-k) := by
  have both : ¬ (sirenOnTimes srcEvents = [] ∨ audioOnsetTs = []) :=
    not_or.mpr ⟨heard, onsets_ne_nil heard shifted⟩
  have offset {steps : Int} (whole : truncated (searchWindowS * 10) = some steps)
      (least : -2 ^ 31 < steps)
      (most : steps < 2 ^ 31 - 1) :
        (estimateOf (sirenOnTimes srcEvents) audioOnsetTs steps).offsetNs =
        max (-steps) (k - 4) * 100000000 :=
    bestOffset_shifted least (by omega) heard shifted (inWindow steps whole)
  constructor
  · rintro ⟨est, returned, near⟩
    obtain ⟨defined, steps, whole, rfl⟩ := (fallbackChecked_eq_some both).mp returned
    obtain ⟨_, is, least, most⟩ := defined.steps
    rw [whole] at is
    cases is
    rw [offset whole least most] at near
    have inside := inWindow steps whole
    refine ⟨defined, ?_⟩
    rw [whole, Option.some.injEq]
    omega
  · rintro ⟨defined, whole⟩
    obtain ⟨_, is, least, most⟩ := defined.steps
    rw [whole] at is
    cases is
    refine ⟨_, (fallbackChecked_eq_some both).mpr ⟨defined, -k, whole, rfl⟩, ?_⟩
    rw [offset whole least most]
    omega

theorem truncated_halfMinute :
    truncated (30 * 10) = some 300 ∧ truncated (30 * Float.ofNat kNsPerSec) = some 30000000000 := by
  decide +kernel

theorem searchDefined_halfMinute {sirenOns audioOnsetTs : List Int}
    (sirens : ∀ son ∈ sirenOns, son.natAbs < 2 ^ 61)
    (onsets : ∀ ao ∈ audioOnsetTs, ao.natAbs < 2 ^ 61) (few : sirenOns.length < 2 ^ 31) :
    SearchDefined sirenOns audioOnsetTs 30 :=
  searchDefined_of_small truncated_halfMinute.1 (by decide) (by decide) truncated_halfMinute.2
    (by decide) sirens onsets few

theorem earliestOffset_found :
    ∃ srcEvents audioOnsetTs, sirenOnTimes srcEvents = [40000000000] ∧
      audioOnsetTs = [70000000000] ∧
      ∃ est, fallbackChecked srcEvents audioOnsetTs 30 = some est ∧
        (est.offsetNs - (-300) * 100000000).natAbs ≤ 50000000 := by
  refine ⟨[{ eventType := kSirenOn, tsNs := 40000000000 }], _, rfl, rfl, ?_⟩
  refine (fallback_accurate_iff (by decide) ?_ ?_).mpr
    ⟨searchDefined_halfMinute (by decide) (by decide) (by decide), ?_⟩
  · intro t
    simp [sirenOnTimes]
    omega
  · exact (inWindow_iff truncated_halfMinute.1 _).mpr (by decide)
  · exact truncated_halfMinute.1

/-- An onset 1.5 s after the only event: the search ends at 1.9 s. -/
theorem laterOffset_missed :
    ∃ srcEvents audioOnsetTs, sirenOnTimes srcEvents = [10000000000] ∧
      audioOnsetTs = [11500000000] ∧
      ∃ est, fallbackChecked srcEvents audioOnsetTs 30 = some est ∧ est.offsetNs = -1900000000 ∧
        ¬ (est.offsetNs - (-1500000000)).natAbs ≤ 50000000 := by
  have shifted (t : Int) : t ∈ [(11500000000 : Int)] ↔
      t + -15 * 100000000 ∈ [(10000000000 : Int)] := by
    simp
    omega
  have offset :=
    @bestOffset_shifted [10000000000] _ (-15) 300 (by decide) (by decide)
      (by decide) shifted (by decide)
  have missed : (estimateOf [10000000000] [11500000000] 300).offsetNs = -1900000000 := by
    rw [estimateOf, offset]
    decide
  refine ⟨[{ eventType := kSirenOn, tsNs := 10000000000 }], _, rfl, rfl,
    estimateOf [10000000000] [11500000000] 300,
      (fallbackChecked_eq_some (by decide)).mpr ⟨?_, 300, truncated_halfMinute.1, rfl⟩, missed, ?_⟩
  · exact searchDefined_halfMinute (by decide) (by decide) (by decide)
  · rw [missed]
    decide

theorem exists_fourFifths : ∃ v : ℚ, HasValue 0.8 v ∧ rounded v = v ∧ 2 ^ (-1 : ℤ) ≤ v ∧ v < 1 :=
  ⟨(7205759403792794 : ℕ) * 2 ^ (-53 : ℤ),
    ⟨7205759403792794, -53, by norm_num, rfl, by norm_num, by norm_num, rfl⟩,
      rounded_eq_self (by norm_num) (by norm_num), by norm_num, by norm_num⟩

theorem hasValue_share {found total : Nat} (some_ : 0 < found) (le : found ≤ total)
    (word : total < 2 ^ 64) :
    ∃ share : ℚ, HasValue (Float.ofNat found / Float.ofNat total) share ∧
      2 ^ (-64 : ℤ) ≤ share ∧ share ≤ 1 := by
  have left := word_mem some_ (le.trans_lt word)
  have right := word_mem (some_.trans_le le) word
  obtain ⟨low, high⟩ := rounded_mem left.1 left.2
  obtain ⟨low', high'⟩ := rounded_mem right.1 right.2
  have positive : 0 < rounded total := (two_zpow_pos 0).trans_le low'
  have above : 2 ^ (-64 : ℤ) ≤ rounded found / rounded total := by
    rw [le_div_iff₀ positive, zpow_neg, inv_mul_le_iff₀ (two_zpow_pos 64)]
    rw [zpow_zero] at low
    exact high'.trans (le_mul_of_one_le_right (two_zpow_pos 64).le low)
  have below : rounded found / rounded total ≤ 2 ^ (0 : ℤ) := by
    rw [zpow_zero, div_le_one positive]
    exact rounded_mono (Nat.cast_pos.mpr some_) (Nat.cast_le.mpr le)
  obtain ⟨least, most⟩ := rounded_mem above below
  refine ⟨_, (hasValue_ofNat some_ (le.trans_lt word)).div (hasValue_ofNat (some_.trans_le le) word)
    (inRange_of_between above below (by norm_num) (by norm_num)), least, ?_⟩
  rwa [zpow_zero] at most

theorem fallbackConfidence_mem {found total : Nat} (le : found ≤ total) (word : total < 2 ^ 64) :
    (fallbackConfidence found total = 0 ↔ found = 0) ∧ 0 ≤ fallbackConfidence found total ∧
      fallbackConfidence found total ≤ 0.8 := by
  unfold fallbackConfidence
  rcases found.eq_zero_or_pos with none | some_
  · rw [if_pos none]
    exact ⟨⟨fun _ => none, fun _ => rfl⟩, by decide +kernel, by decide +kernel⟩
  · obtain ⟨share, value, least, most⟩ := hasValue_share some_ le word
    obtain ⟨fifths, value', fixed, low, high⟩ := exists_fourFifths
    have positive : 0 < share := (two_zpow_pos _).trans_le least
    have scaled : share * fifths ≤ fifths :=
      mul_le_of_le_one_left ((two_zpow_pos _).le.trans low) most
    have above : 2 ^ (-65 : ℤ) ≤ share * fifths := by
      calc (2 : ℚ) ^ (-65 : ℤ) = 2 ^ (-64 : ℤ) * 2 ^ (-1 : ℤ) := by norm_num
        _ ≤ share * fifths := mul_le_mul least low (two_zpow_pos _).le positive.le
    have below : share * fifths ≤ 2 ^ (0 : ℤ) := by
      rw [zpow_zero]
      exact scaled.trans high.le
    have product := value.mul value' (inRange_of_between above below (by norm_num) (by norm_num))
    have most' : rounded (share * fifths) ≤ fifths :=
      (rounded_mono ((two_zpow_pos _).trans_le above) scaled).trans_eq fixed
    have small : Float.ofNat found / Float.ofNat total * 0.8 < 1.0 :=
      (product.lt_iff hasValue_one).mpr (most'.trans_lt high)
    rw [if_neg some_.ne', stdMin, if_pos small]
    exact ⟨⟨fun zero => absurd zero product.ne_zero, fun none => absurd none some_.ne'⟩,
      product.nonneg, (product.le_iff value').mpr most'⟩

/-- An offset of the window with the most matches; the confidence is zero exactly when no offset
matches. -/
structure Maximises (sirenOns audioOnsetTs : List Int) (searchWindowS : Float)
    (est : ClockEstimate) : Prop where
  tried : est.offsetNs = 0 ∨ ∃ k, InWindow searchWindowS k ∧ est.offsetNs = k * 100000000
  most : ∀ k, InWindow searchWindowS k →
    matchedAt sirenOns audioOnsetTs (k * 100000000) ≤ matchedAt sirenOns audioOnsetTs est.offsetNs
  zero : est.confidence = 0 ↔ ∀ k, InWindow searchWindowS k →
    matchedAt sirenOns audioOnsetTs (k * 100000000) = 0
  bounds : 0 ≤ est.confidence ∧ est.confidence ≤ 0.8

theorem maximises_silent {sirenOns audioOnsetTs : List Int} (searchWindowS : Float)
    (silent : sirenOns = [] ∨ audioOnsetTs = []) :
    Maximises sirenOns audioOnsetTs searchWindowS { method := ascii "event_audio" } where
  tried := Or.inl rfl
  most k _ := by rw [matchedAt_silent silent, matchedAt_silent silent]
  zero := iff_of_true rfl fun k _ => matchedAt_silent silent _
  bounds := by decide +kernel

theorem maximises_estimateOf {sirenOns audioOnsetTs : List Int}
    {searchWindowS : Float} {steps : Int} (whole : truncated (searchWindowS * 10) = some steps)
    (least : -2 ^ 31 < steps) (most : steps < 2 ^ 31) (sized : sirenOns.length < 2 ^ 64) :
    Maximises sirenOns audioOnsetTs searchWindowS (estimateOf sirenOns audioOnsetTs steps) := by
  obtain ⟨tried, best, silent, all⟩ := bestOffset_spec sirenOns audioOnsetTs steps
  obtain ⟨zero, nonneg, le⟩ := fallbackConfidence_mem all sized
  have listed (k : Int) (inside : InWindow searchWindowS k) : k * 100000000 ∈ fallbackGrid steps :=
    (mem_fallbackGrid least most).mpr ⟨k, (inWindow_iff whole k).mp inside, rfl⟩
  refine ⟨tried.imp_right fun member => ?_,
    fun k inside => best _ (listed k inside), ?_, nonneg, le⟩
  · obtain ⟨k, bound, is⟩ := (mem_fallbackGrid least most).mp member
    exact ⟨k, (inWindow_iff whole k).mpr bound, is⟩
  · refine (zero.trans silent).trans
      ⟨fun none k inside => none _ (listed k inside), fun none off member => ?_⟩
    obtain ⟨k, bound, rfl⟩ := (mem_fallbackGrid least most).mp member
    exact none k ((inWindow_iff whole k).mpr bound)

/-- The fallback returns an offset of the window with the most matches if and only if there is
nothing to match or no operation of the search overflows. -/
theorem fallback_maximises_iff {srcEvents : List SourceEvent}
    (audioOnsetTs : List Int) (searchWindowS : Float) (sized : srcEvents.length < 2 ^ 64) :
    (∃ est, fallbackChecked srcEvents audioOnsetTs searchWindowS = some est ∧
        Maximises (sirenOnTimes srcEvents) audioOnsetTs searchWindowS est) ↔
      (sirenOnTimes srcEvents = [] ∨ audioOnsetTs = []) ∨
        SearchDefined (sirenOnTimes srcEvents) audioOnsetTs searchWindowS := by
  by_cases silent : sirenOnTimes srcEvents = [] ∨ audioOnsetTs = []
  · refine iff_of_true
      ⟨_, fallbackChecked_silent searchWindowS silent, maximises_silent searchWindowS silent⟩
        (Or.inl silent)
  · rw [or_iff_right silent]
    constructor
    · rintro ⟨est, returned, -⟩
      exact ((fallbackChecked_eq_some silent).mp returned).1
    · intro defined
      obtain ⟨steps, whole, least, most⟩ := defined.steps
      have word : (sirenOnTimes srcEvents).length < 2 ^ 64 :=
        (List.length_map _).trans_lt ((List.length_filter_le _ _).trans_lt sized)
      exact ⟨_, (fallbackChecked_eq_some silent).mpr ⟨defined, steps, whole, rfl⟩,
        maximises_estimateOf whole least (by omega) word⟩

theorem twoEvents_maximised :
    ∃ est, fallbackChecked [{ eventType := kSirenOn, tsNs := 10000000000 },
        { eventType := kSirenOn, tsNs := 20000000000 }] [11500000000] 30 = some est ∧
      Maximises [10000000000, 20000000000] [11500000000] 30 est :=
  (fallback_maximises_iff _ _ (by norm_num)).mpr
    (Or.inr (searchDefined_halfMinute (by decide) (by decide) (by decide)))

/-- In a window of 3e8 s the number of steps does not fit an `int`. An event and an onset at the
same time match without an offset; the conversion of x86-64 leaves one offset to try, and no match. -/
theorem hugeWindow_undefined :
    ∃ srcEvents, sirenOnTimes srcEvents = [10000000000] ∧
      (¬ ∃ est, fallbackChecked srcEvents [10000000000] 300000000 = some est ∧
        Maximises [10000000000] [10000000000] 300000000 est) ∧
      InWindow 300000000 0 ∧ matchedAt [10000000000] [10000000000] (0 * 100000000) = 1 ∧
      (syncEventAudioFallback srcEvents [10000000000] 300000000).confidence = 0 := by
  have whole : truncated (300000000 * 10) = some 3000000000 := by decide +kernel
  refine ⟨[{ eventType := kSirenOn, tsNs := 10000000000 }], rfl, ?_,
    (inWindow_iff whole 0).mpr (by decide), by decide, ?_⟩
  · rintro ⟨est, returned, -⟩
    obtain ⟨-, ⟨steps, is, -, most⟩, -⟩ := ((fallbackChecked_eq_some (by decide)).mp returned).1
    rw [whole] at is
    cases is
    exact absurd most (by decide)
  · have least : castInt (300000000 * 10) = -2147483648 := by decide +kernel
    have one : fallbackGrid (-2147483648) = [-214748364800000000] := by decide
    rw [syncEventAudioFallback_heard _ (by decide), least, one]
    decide

end LocalPC.Offline
