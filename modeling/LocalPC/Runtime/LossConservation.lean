import LocalPC.Runtime.ContractSeq
import LocalPC.Runtime.FrameConservation

namespace LocalPC.Runtime
open Lib Contract

def addChecked (a b : UInt64) : Option UInt64 :=
  if a.toNat + b.toNat < 2 ^ 64 then some (a + b) else none

def subChecked (a b : UInt64) : Option UInt64 := if b ≤ a then some (a - b) else none

theorem addChecked_of_lt {a b : UInt64} (fits : a.toNat + b.toNat < 2 ^ 64) :
    addChecked a b = some (a + b) := if_pos fits

theorem subChecked_of_le {a b : UInt64} (le : b ≤ a) : subChecked a b = some (a - b) := if_pos le

/-- The number of positions after the first whose number is larger than all before it. -/
def newHighs (seqs : List UInt64) : Nat :=
  ((List.range seqs.length).filter fun i =>
    1 ≤ i && seqs[i]?.all fun seq => (seqs.take i).all fun earlier => earlier < seq).length

theorem newHighs_concat (seqs : List UInt64) (seq : UInt64) :
    newHighs (seqs ++ [seq]) =
      newHighs seqs + (1 ≤ seqs.length && seqs.all fun earlier => earlier < seq).toNat := by
  have before : ∀ i ∈ List.range seqs.length,
      (1 ≤ i && (seqs ++ [seq])[i]?.all fun seq' =>
        ((seqs ++ [seq]).take i).all fun earlier => earlier < seq') =
        (1 ≤ i && seqs[i]?.all fun seq' => (seqs.take i).all fun earlier => earlier < seq') := by
    intro i member
    have bound := List.mem_range.mp member
    rw [List.take_append_of_le_length bound.le, List.getElem?_append_left bound]
  unfold newHighs
  rw [List.length_append, List.length_singleton, List.range_succ,
    List.filter_append, List.length_append, List.filter_congr before, List.filter_singleton,
      List.take_left, List.getElem?_concat_length, Option.all_some]
  congr 1
  cases (1 ≤ seqs.length && seqs.all fun earlier => earlier < seq) <;> rfl

namespace RuntimeService
variable {config : RuntimeConfig}

def trackContractSeqChecked (seq : UInt64) (s : RuntimeService config) :
    Option (RuntimeService config) :=
  if !s.seqInitialized then some { s with seqInitialized := true, lastSeq := seq }
  else if seq ≤ s.lastSeq then some { s with diagnostics := s.diagnostics.onOutOfOrder }
  else do
    let next ← addChecked s.lastSeq 1
    if next < seq then
      let above ← subChecked seq s.lastSeq
      let lost ← subChecked above 1
      let packetsLost ← addChecked s.diagnostics.packetsLost lost
      return { s with
        diagnostics := { s.diagnostics with seqGaps := s.diagnostics.seqGaps + 1, packetsLost }
        lastSeq := seq }
    else return { s with lastSeq := seq }

def trackAll (seqs : List UInt64) (s : RuntimeService config) : RuntimeService config :=
  seqs.foldl (fun s seq => s.trackContractSeq seq) s

def trackAllChecked (seqs : List UInt64) (s : RuntimeService config) :
    Option (RuntimeService config) :=
  seqs.foldlM (fun s seq => s.trackContractSeqChecked seq) s

theorem trackContractSeq_initialized (seq : UInt64) {s : RuntimeService config}
    (initialized : s.seqInitialized = true) :
    (s.trackContractSeq seq).seqInitialized = true ∧
    (s.trackContractSeq seq).lastSeq = (if seq ≤ s.lastSeq then s.lastSeq else seq) ∧
    (s.trackContractSeq seq).diagnostics.outOfOrder =
      s.diagnostics.outOfOrder + (decide (seq ≤ s.lastSeq)).toNat := by
  unfold trackContractSeq
  rw [initialized, Bool.not_true, if_neg Bool.false_ne_true]
  by_cases late : seq ≤ s.lastSeq
  · rw [if_pos late, if_pos late, decide_eq_true late]
    exact ⟨rfl, rfl, rfl⟩
  · rw [if_neg late, if_neg late, decide_eq_false late]
    split
    · exact ⟨rfl, rfl, rfl⟩
    · exact ⟨rfl, rfl, rfl⟩

theorem trackContractSeqChecked_eq (seq : UInt64) {s : RuntimeService config}
    (initialized : s.seqInitialized = true) :
    s.trackContractSeqChecked seq =
      if s.diagnostics.packetsLost.toNat + (skippedBy (some s.lastSeq) seq).toNat < 2 ^ 64 then
        some (s.trackContractSeq seq)
      else none := by
  unfold trackContractSeqChecked trackContractSeq
  rw [initialized, Bool.not_true, if_neg Bool.false_ne_true, if_neg Bool.false_ne_true]
  have small := s.diagnostics.packetsLost.toNat_lt
  by_cases late : seq ≤ s.lastSeq
  · rw [if_pos late, if_pos late, skippedBy, if_pos late, if_pos (by simpa using small)]
  · have higher := late
    have skipped := skippedBy_toNat s.lastSeq seq
    rw [UInt64.le_iff_toNat_le] at higher
    have bound := seq.toNat_lt
    have next : (s.lastSeq + 1).toNat = s.lastSeq.toNat + 1 := by
      rw [UInt64.toNat_add, UInt64.toNat_one]
      omega
    have noWrap : addChecked s.lastSeq 1 = some (s.lastSeq + 1) :=
      addChecked_of_lt (by rw [UInt64.toNat_one]; omega)
    rw [if_neg late, if_neg late, noWrap, Option.bind_eq_bind, Option.bind_some]
    by_cases gap : s.lastSeq + 1 < seq
    · have above : s.lastSeq ≤ seq := UInt64.le_iff_toNat_le.mpr (by omega)
      have one : (1 : UInt64) ≤ seq - s.lastSeq := by
        rw [UInt64.le_iff_toNat_le, UInt64.toNat_sub_of_le _ _ above, UInt64.toNat_one]
        omega
      rw [if_pos gap, if_pos gap, subChecked_of_le above, Option.bind_some,
        subChecked_of_le one, Option.bind_some, skippedBy, if_neg late]
      unfold addChecked
      split
      · rfl
      · rfl
    · have none : skippedBy (some s.lastSeq) seq = 0 := by
        rw [← UInt64.toNat_inj, skippedBy_toNat, UInt64.toNat_zero]
        rw [UInt64.lt_iff_toNat_lt, next] at gap
        omega
      rw [if_neg gap, if_neg gap, none, UInt64.toNat_zero, Nat.add_zero, if_pos small]
      rfl

structure Counted (before : DiagnosticsCollector) (seqs : List UInt64) (first : UInt64) (lost : Nat)
    (s : RuntimeService config) : Prop where
  initialized : s.seqInitialized = true
  member : s.lastSeq ∈ seqs
  highest : ∀ seq ∈ seqs, seq ≤ s.lastSeq
  balance : lost + first.toNat + newHighs seqs = s.lastSeq.toNat
  packetsLost : s.diagnostics.packetsLost = before.packetsLost + UInt64.ofNat lost
  outOfOrder : s.diagnostics.outOfOrder + newHighs seqs + 1 = before.outOfOrder + seqs.length

theorem Counted.step {before : DiagnosticsCollector} {seqs : List UInt64}
    {first : UInt64} {lost : Nat} {s : RuntimeService config}
    (counted : Counted before seqs first lost s) (seq : UInt64) :
    Counted before (seqs ++ [seq]) first (lost + (skippedBy (some s.lastSeq) seq).toNat)
      (s.trackContractSeq seq) := by
  obtain ⟨initialized, lastSeq, outOfOrder⟩ := trackContractSeq_initialized seq counted.initialized
  have packetsLost := (trackContractSeq_spec seq s).2.1
  rw [show s.highestSeq = some s.lastSeq from if_pos counted.initialized] at packetsLost
  have nonempty : 1 ≤ seqs.length := List.length_pos_of_mem counted.member
  have newHigh : (1 ≤ seqs.length && seqs.all fun earlier => earlier < seq) =
      decide (¬ seq ≤ s.lastSeq) := by
    rw [decide_eq_true nonempty, Bool.true_and, Bool.eq_iff_iff, List.all_eq_true,
      decide_eq_true_iff, UInt64.not_le]
    simp only [decide_eq_true_iff]
    exact ⟨fun above => above _ counted.member,
      fun above x member => UInt64.lt_of_le_of_lt (counted.highest x member) above⟩
  have skipped := skippedBy_toNat s.lastSeq seq
  have total : newHighs (seqs ++ [seq]) = newHighs seqs + (decide (¬ seq ≤ s.lastSeq)).toNat := by
    rw [newHighs_concat, newHigh]
  have balance := counted.balance
  have earlier := counted.outOfOrder
  refine ⟨initialized, ?_, ?_, ?_, ?_, ?_⟩
  · rw [lastSeq]
    split
    · exact List.mem_append_left _ counted.member
    · exact List.mem_append_right _ List.mem_cons_self
  · intro x member
    rw [lastSeq]
    rcases List.mem_append.mp member with old | new
    · have below := counted.highest x old
      split
      · exact below
      · rename_i higher
        exact UInt64.le_trans below (UInt64.le_of_lt (UInt64.not_le.mp higher))
    · rw [List.mem_singleton.mp new]
      split
      · assumption
      · exact UInt64.le_refl _
  · rw [lastSeq]
    by_cases late : seq ≤ s.lastSeq
    · rw [if_pos late]
      simp only [late, not_true_eq_false, decide_false, Bool.toNat_false] at total
      rw [UInt64.le_iff_toNat_le] at late
      omega
    · rw [if_neg late]
      simp only [late, not_false_eq_true, decide_true, Bool.toNat_true] at total
      rw [UInt64.le_iff_toNat_le] at late
      omega
  · rw [packetsLost, counted.packetsLost, UInt64.ofNat_add, UInt64.ofNat_toNat, UInt64.add_assoc]
  · rw [outOfOrder, List.length_append, List.length_singleton]
    by_cases late : seq ≤ s.lastSeq
    · simp only [late, not_true_eq_false, decide_false, decide_true, Bool.toNat_false,
        Bool.toNat_true] at total ⊢
      omega
    · simp only [late, not_false_eq_true, decide_true, decide_false, Bool.toNat_true,
        Bool.toNat_false] at total ⊢
      omega

theorem trackAll_concat (seqs : List UInt64) (seq : UInt64) (s : RuntimeService config) :
    s.trackAll (seqs ++ [seq]) = (s.trackAll seqs).trackContractSeq seq := by
  rw [trackAll, List.foldl_append]
  rfl

theorem trackAllChecked_concat (seqs : List UInt64) (seq : UInt64) (s : RuntimeService config) :
    s.trackAllChecked (seqs ++ [seq]) =
      (s.trackAllChecked seqs).bind (trackContractSeqChecked seq) := by
  rw [trackAllChecked, List.foldlM_append]
  show (trackAllChecked seqs s).bind _ = _
  simp

theorem counted_trackAll {s : RuntimeService config} (fresh : s.seqInitialized = false)
    (first : UInt64) (rest : List UInt64) :
    ∃ lost, Counted s.diagnostics (first :: rest) first lost (s.trackAll (first :: rest)) ∧
      s.trackAllChecked (first :: rest) =
        if s.diagnostics.packetsLost.toNat + lost < 2 ^ 64 then some (s.trackAll (first :: rest))
        else none := by
  induction rest using List.reverseRecOn with
  | nil =>
      have small := s.diagnostics.packetsLost.toNat_lt
      have one : s.trackAll [first] = { s with seqInitialized := true, lastSeq := first } := by
        simp [trackAll, trackContractSeq, fresh]
      refine ⟨0, ?_, ?_⟩
      · rw [one]
        exact ⟨rfl, List.mem_singleton_self _, by simp, by simp [newHighs],
          (UInt64.add_zero _).symm, by simp [newHighs]⟩
      · rw [if_pos (by simpa using small), one]
        simp [trackAllChecked, trackContractSeqChecked, fresh]
  | append_singleton rest seq ih =>
      obtain ⟨lost, counted, checked⟩ := ih
      let mid := s.trackAll (first :: rest)
      have later : mid.diagnostics.packetsLost = s.diagnostics.packetsLost + UInt64.ofNat lost :=
        counted.packetsLost
      refine ⟨lost + (skippedBy (some mid.lastSeq) seq).toNat, ?_, ?_⟩
      · rw [← List.cons_append, trackAll_concat]
        exact counted.step seq
      · rw [← List.cons_append, trackAllChecked_concat, trackAll_concat, checked]
        by_cases fits : s.diagnostics.packetsLost.toNat + lost < 2 ^ 64
        · have count : mid.diagnostics.packetsLost.toNat =
              s.diagnostics.packetsLost.toNat + lost := by
            rw [later, UInt64.toNat_add, UInt64.toNat_ofNat',
              Nat.add_mod_mod, Nat.mod_eq_of_lt fits]
          rw [if_pos fits, Option.bind_some, trackContractSeqChecked_eq seq counted.initialized]
          show (if mid.diagnostics.packetsLost.toNat + _ < _ then _ else _) = _
          rw [count, Nat.add_assoc]
        · rw [if_neg fits, Option.bind_none, if_neg (by omega)]

/-- The numbers lost in a session: those between the first and the highest one, less the new highest
ones. -/
def lostIn (first highest : UInt64) (rest : List UInt64) : Nat :=
  highest.toNat - first.toNat - newHighs (first :: rest)

/-- The counts after the numbers of a session against those before it. -/
structure ConservesLoss (s tracked : RuntimeService config) (first highest : UInt64)
    (rest : List UInt64) : Prop where
  lastSeq : tracked.lastSeq = highest
  newHighs : first.toNat + newHighs (first :: rest) ≤ highest.toNat
  packetsLost : tracked.diagnostics.packetsLost.toNat =
    s.diagnostics.packetsLost.toNat + lostIn first highest rest
  outOfOrder : tracked.diagnostics.outOfOrder + Runtime.newHighs (first :: rest) =
    s.diagnostics.outOfOrder + rest.length

theorem startRecording_ok {io : StartIo} {s s' : RuntimeService config}
    (started : s.startRecording io = (.kOk, s')) :
    s'.seqInitialized = false ∧ s'.diagnostics = s.diagnostics := by
  rcases startRecording_cases io s with ⟨-, made⟩ | ⟨-, sessions, -, made⟩ |
      ⟨-, -, sessions, -, -, made⟩
  · rw [made] at started
    cases started
  · rw [made] at started
    cases started
  · rw [made] at started
    cases started
    exact ⟨rfl, rfl⟩

theorem startRecording_of_opens (io : StartIo) {s : RuntimeService config}
    (idle : s.state ≠ .kRecording) (opened : opens config io = true) :
    ∃ s', s.startRecording io = (.kOk, s') := by
  have made : s.sessions.start config io.clock =
      (.kOk, { active := some (.fresh config io.clock s.sessions.ids),
               ids := s.sessions.ids + 1 }) :=
    if_neg idle
  simp only [startRecording, made, opened, Bool.not_true, Bool.false_eq_true, if_false]
  exact ⟨_, rfl⟩

/-- Of the numbers of a session the highest one is kept and those out of order are counted. As long
as those lost before and in the session can be counted together, no computation wraps and the lost
ones are counted too. -/
theorem lossConserved {io : StartIo} {s s' : RuntimeService config}
    (started : s.startRecording io = (.kOk, s')) {first highest : UInt64} {rest : List UInt64}
    (member : highest ∈ first :: rest) (upper : ∀ seq ∈ first :: rest, seq ≤ highest) :
    (s'.trackAll (first :: rest)).lastSeq = highest ∧
    (s'.trackAll (first :: rest)).diagnostics.outOfOrder + newHighs (first :: rest) =
      s.diagnostics.outOfOrder + rest.length ∧
    (s.diagnostics.packetsLost.toNat + lostIn first highest rest < 2 ^ 64 →
      s'.trackAllChecked (first :: rest) = some (s'.trackAll (first :: rest)) ∧
      ConservesLoss s (s'.trackAll (first :: rest)) first highest rest) ∧
    (2 ^ 64 ≤ s.diagnostics.packetsLost.toNat + lostIn first highest rest →
      s'.trackAllChecked (first :: rest) = none) := by
  obtain ⟨fresh, same⟩ := startRecording_ok started
  obtain ⟨lost, counted, checked⟩ := counted_trackAll fresh first rest
  rw [same] at counted checked
  have lastSeq : (s'.trackAll (first :: rest)).lastSeq = highest :=
    UInt64.le_antisymm (upper _ counted.member) (counted.highest highest member)
  have balance := counted.balance
  rw [lastSeq] at balance
  have lostHere : lostIn first highest rest = lost := by
    unfold lostIn
    omega
  have outOfOrder : (s'.trackAll (first :: rest)).diagnostics.outOfOrder +
      newHighs (first :: rest) =
      s.diagnostics.outOfOrder + rest.length := Nat.succ.inj counted.outOfOrder
  rw [lostHere]
  refine ⟨lastSeq, outOfOrder, fun fits => ⟨?_, lastSeq, by omega, ?_, outOfOrder⟩, fun full => ?_⟩
  · rw [checked, if_pos fits]
  · rw [counted.packetsLost, lostHere, UInt64.toNat_add, UInt64.toNat_ofNat',
      Nat.add_mod_mod, Nat.mod_eq_of_lt fits]
  · rw [checked, if_neg (not_lt.mpr full)]

end RuntimeService

namespace Daemon

theorem firstSession_conserves :
    ∃ s', RuntimeService.startRecording cleanStart ({} : RuntimeService {}) = (.kOk, s') ∧
    s'.trackAllChecked [5, 9, 7, 9] = some (s'.trackAll [5, 9, 7, 9]) ∧
    RuntimeService.ConservesLoss {} (s'.trackAll [5, 9, 7, 9]) 5 9 [9, 7, 9] := by
  have idle : ({} : RuntimeService {}).state ≠ .kRecording := by decide
  obtain ⟨s', started⟩ := RuntimeService.startRecording_of_opens cleanStart idle (by decide)
  have member : (9 : UInt64) ∈ 5 :: [9, 7, 9] := by simp
  have conserved := RuntimeService.lossConserved started member (by simp)
  exact ⟨s', started, conserved.2.2.1 (by decide)⟩

def extremeEvents : List Event :=
  acceptOne (sealFrame 100 0 10 11 []) ++ acceptOne (sealFrame 100 18446744073709551615 12 13 [])

theorem extremeEvents_run :
    (extremeEvents.foldlM step ({} : Daemon {})).isSome = true := by decide +kernel

theorem extremeEvents_allowed :
    Machine.AllowedAlong WritesSucceed step ({} : Daemon {}) extremeEvents := by
  decide +kernel

theorem extremeEvents_lost :
    (after {} extremeEvents).service.diagnostics.packetsLost = 18446744073709551614 ∧
    (after {} extremeEvents).service.state ≠ .kRecording := by
  decide +kernel

/-- In the session that follows two more frames are lost, and the count wraps. -/
theorem extremeEvents_wrap :
    ¬ ∀ (config : RuntimeConfig) (d : Daemon config), (daemonMachine config).Reach WritesSucceed d →
    ∀ io s', d.service.startRecording io = (.kOk, s') →
    ∀ first highest rest, highest ∈ first :: rest → (∀ seq ∈ first :: rest, seq ≤ highest) →
      s'.trackAllChecked (first :: rest) = some (s'.trackAll (first :: rest)) ∧
      RuntimeService.ConservesLoss d.service (s'.trackAll (first :: rest)) first highest rest := by
  intro always
  have reached : (daemonMachine {}).Reach WritesSucceed (after {} extremeEvents) :=
    reach_after extremeEvents_run extremeEvents_allowed
  obtain ⟨lost, idle⟩ := extremeEvents_lost
  generalize after {} extremeEvents = d at reached lost idle
  obtain ⟨s', started⟩ := RuntimeService.startRecording_of_opens cleanStart idle (by decide)
  obtain ⟨-, conserves⟩ := always {} d reached cleanStart s' started 0 3 [3] (by simp) (by simp)
  have count := conserves.packetsLost
  rw [lost] at count
  have bound := (s'.trackAll [0, 3]).diagnostics.packetsLost.toNat_lt
  rw [count] at bound
  exact absurd bound (by decide)

end Daemon
end LocalPC.Runtime
