import LocalPC.Runtime.RuntimeService

namespace LocalPC.Runtime

def raiseSeq (highest : Option UInt64) (seq : UInt64) : Option UInt64 :=
  match highest with
  | none => some seq
  | some last => if seq ≤ last then some last else some seq

def skippedBy (highest : Option UInt64) (seq : UInt64) : UInt64 :=
  match highest with
  | none => 0
  | some last => if seq ≤ last then 0 else seq - last - 1

def trackSeqs (seqs : List UInt64) : Option UInt64 × UInt64 :=
  seqs.foldl (fun track seq => (raiseSeq track.1 seq, track.2 + skippedBy track.1 seq)) (none, 0)

theorem trackSeqs_append (seqs : List UInt64) (seq : UInt64) :
    trackSeqs (seqs ++ [seq]) =
      (raiseSeq (trackSeqs seqs).1 seq, (trackSeqs seqs).2 + skippedBy (trackSeqs seqs).1 seq) := by
  rw [trackSeqs, List.foldl_append]
  rfl

theorem skippedBy_toNat (highest seq : UInt64) :
    (skippedBy (some highest) seq).toNat = seq.toNat - (highest.toNat + 1) := by
  have := highest.toNat_lt
  have := seq.toNat_lt
  unfold skippedBy
  dsimp only
  split
  · rename_i late
    rw [UInt64.le_iff_toNat_le] at late
    simp only [UInt64.reduceToNat]
    omega
  · rename_i higher
    rw [UInt64.le_iff_toNat_le] at higher
    simp only [UInt64.toNat_sub, UInt64.reduceToNat]
    omega

theorem succ_of_not_gap {last seq : UInt64} (higher : ¬ seq ≤ last)
    (noGap : ¬ last + 1 < seq) : seq = last + 1 := by
  rw [UInt64.le_iff_toNat_le] at higher
  have bound := seq.toNat_lt
  have next : (last + 1).toNat = last.toNat + 1 := by
    rw [UInt64.toNat_add, UInt64.toNat_one]
    omega
  rw [UInt64.lt_iff_toNat_lt, next] at noGap
  apply UInt64.toNat_inj.mp
  omega

namespace RuntimeService
variable {config : RuntimeConfig}

def highestSeq (s : RuntimeService config) : Option UInt64 :=
  if s.seqInitialized then some s.lastSeq else none

theorem trackContractSeq_spec (seq : UInt64) (s : RuntimeService config) :
    (s.trackContractSeq seq).highestSeq = raiseSeq s.highestSeq seq ∧
    (s.trackContractSeq seq).diagnostics.packetsLost =
      s.diagnostics.packetsLost + skippedBy s.highestSeq seq ∧
    (s.trackContractSeq seq).diagnostics.packetsWritten = s.diagnostics.packetsWritten ∧
    (s.trackContractSeq seq).diagnostics.badPackets = s.diagnostics.badPackets := by
  by_cases initialized : s.seqInitialized = true
  · have highest : s.highestSeq = some s.lastSeq := if_pos initialized
    rw [highest]
    by_cases late : seq ≤ s.lastSeq
    · have step : s.trackContractSeq seq =
          { s with diagnostics := s.diagnostics.onOutOfOrder } := by
        simp [trackContractSeq, initialized, late]
      rw [step]
      exact ⟨highest.trans
        (if_pos late).symm, by simp [DiagnosticsCollector.onOutOfOrder, skippedBy, late], rfl, rfl⟩
    · by_cases gap : s.lastSeq + 1 < seq
      · have step : s.trackContractSeq seq =
            { s with
              diagnostics := s.diagnostics.onSeqGap (seq - s.lastSeq - 1), lastSeq := seq } := by
          simp [trackContractSeq, initialized, late, gap]
        rw [step]
        exact ⟨(if_pos initialized).trans (if_neg late).symm,
          by simp [DiagnosticsCollector.onSeqGap, skippedBy, late], rfl, rfl⟩
      · have step : s.trackContractSeq seq = { s with lastSeq := seq } := by
          simp [trackContractSeq, initialized, late, gap]
        have none : skippedBy (some s.lastSeq) seq = 0 := by
          rw [skippedBy, if_neg late, succ_of_not_gap late gap, UInt64.add_comm,
            UInt64.add_sub_cancel, UInt64.sub_self]
        rw [step, none, UInt64.add_zero]
        exact ⟨(if_pos initialized).trans (if_neg late).symm, rfl, rfl, rfl⟩
  · have highest : s.highestSeq = none := if_neg initialized
    have step : s.trackContractSeq seq = { s with seqInitialized := true, lastSeq := seq } := by
      simp [trackContractSeq, initialized]
    rw [step, highest]
    exact ⟨rfl, (UInt64.add_zero _).symm, rfl, rfl⟩

theorem countFrame_spec (header : LocalPC.Contract.EgoFrameHeader) (s : RuntimeService config) :
    (s.countFrame header).highestSeq = raiseSeq s.highestSeq header.seq ∧
    (s.countFrame header).diagnostics.packetsLost =
      s.diagnostics.packetsLost + skippedBy s.highestSeq header.seq ∧
    (s.countFrame header).diagnostics.packetsWritten = s.diagnostics.packetsWritten ∧
    (s.countFrame header).diagnostics.badPackets = s.diagnostics.badPackets := by
  have timed (r : RuntimeService config) : (r.trackTime header.t0Ns).highestSeq = r.highestSeq ∧
      (r.trackTime header.t0Ns).diagnostics.packetsLost = r.diagnostics.packetsLost ∧
      (r.trackTime header.t0Ns).diagnostics.packetsWritten = r.diagnostics.packetsWritten ∧
      (r.trackTime header.t0Ns).diagnostics.badPackets = r.diagnostics.badPackets := by
    unfold trackTime
    dsimp only
    split <;> exact ⟨rfl, rfl, rfl, rfl⟩
  have tracked :=
    trackContractSeq_spec header.seq { s with diagnostics := s.diagnostics.onPacketReceived }
  obtain ⟨highest, lost, written, bad⟩ :=
    timed (trackContractSeq header.seq { s with diagnostics := s.diagnostics.onPacketReceived })
  unfold countFrame
  rw [highest, lost, written, bad]
  exact tracked

end RuntimeService
end LocalPC.Runtime
