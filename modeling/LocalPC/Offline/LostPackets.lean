import LocalPC.Offline.PacketLoss
import Mathlib.Data.List.Range

namespace LocalPC.Offline
open Lib Contract LocalPC.Runtime

def missingSeqs (pkts : List RawPacket) (first last : UInt32) : List Nat :=
  (List.range' first.toNat (last.toNat - first.toNat + 1)).filter fun n =>
    !(pkts.filter packetOk).any fun raw => raw.header.seq.toNat = n

/-- The scan ends, with one loss for each of these numbers. -/
def LostOnce (cfg : Config) (pkts : List RawPacket) (first last : RawPacket) : Prop :=
  ∃ acc, ScanAccumulator.feedAll cfg pkts {} = some acc ∧
    acc.sv.packetsLost.toNat = (missingSeqs pkts first.header.seq last.header.seq).length

theorem gapBetween_increasing {previous seq : UInt32} (higher : previous < seq) :
    gapBetween previous seq = UInt64.ofNat (seq.toNat - previous.toNat - 1) := by
  rw [UInt32.lt_iff_toNat_lt] at higher
  have bound := seq.toNat_lt
  have next : (previous + 1).toNat = previous.toNat + 1 := by
    rw [UInt32.toNat_add, UInt32.toNat_one]
    omega
  apply UInt64.toNat_inj.mp
  rw [gapBetween_toNat, next, UInt64.toNat_ofNat']
  omega

theorem length_le_of_increasing {previous : UInt32} {rest : List UInt32}
    (increasing : (previous :: rest).Pairwise (· < ·)) :
    previous.toNat + rest.length ≤ ((previous :: rest).getLast (List.cons_ne_nil _ _)).toNat := by
  induction rest generalizing previous with
  | nil => simp
  | cons next rest ih =>
      have higher : previous < next := List.rel_of_pairwise_cons increasing List.mem_cons_self
      have later := ih increasing.of_cons
      rw [UInt32.lt_iff_toNat_lt] at higher
      rw [List.getLast_cons_cons, List.length_cons]
      omega

theorem le_getLast_of_increasing {previous : UInt32} {rest : List UInt32}
    (increasing : (previous :: rest).Pairwise (· < ·)) {seq : UInt32}
    (member : seq ∈ previous :: rest) :
    seq ≤ (previous :: rest).getLast (List.cons_ne_nil _ _) := by
  induction rest generalizing previous seq with
  | nil =>
      rw [List.mem_singleton.mp member]
      exact UInt32.le_refl _
  | cons next rest ih =>
      rw [List.getLast_cons_cons]
      rcases List.mem_cons.mp member with rfl | later
      · have higher : seq < next := List.rel_of_pairwise_cons increasing List.mem_cons_self
        exact UInt32.le_trans (UInt32.le_of_lt higher) (ih increasing.of_cons List.mem_cons_self)
      · exact ih increasing.of_cons later

theorem lost_increasing (streamId : String) (previous : UInt32) (prevT : Int)
    (rest : List (UInt32 × Int)) (increasing : (previous :: rest.map Prod.fst).Pairwise (· < ·))
    (sv : StreamValidation) :
    (checkSeqGaps streamId ((previous, prevT) :: rest) sv).packetsLost =
      sv.packetsLost + UInt64.ofNat
        (((previous :: rest.map Prod.fst).getLast (List.cons_ne_nil _ _)).toNat
          - previous.toNat - rest.length) := by
  induction rest generalizing previous prevT sv with
  | nil => simp [checkSeqGaps]
  | cons next rest ih =>
      obtain ⟨seq, t⟩ := next
      have higher : previous < seq := List.rel_of_pairwise_cons increasing List.mem_cons_self
      have onward : (seq :: rest.map Prod.fst).Pairwise (· < ·) := increasing.of_cons
      have long := length_le_of_increasing onward
      have later := ih seq t onward (sv.seqGap streamId (previous + 1) seq t prevT)
      rw [lost_seqGap, gapBetween_increasing higher, UInt64.add_assoc, ← UInt64.ofNat_add] at later
      refine later.trans ?_
      rw [UInt32.lt_iff_toNat_lt] at higher
      rw [List.length_map] at long
      simp only [List.map_cons, List.getLast_cons_cons, List.length_cons]
      congr 2
      omega

theorem length_leftOut {first last : Nat} {seqs : List Nat} (increasing : seqs.Pairwise (· < ·))
    (inside : ∀ n ∈ seqs, first ≤ n ∧ n ≤ last) :
    ((List.range' first (last - first + 1)).filter fun n => !decide (n ∈ seqs)).length +
      seqs.length =
      last - first + 1 := by
  have present :
      ((List.range' first (last - first + 1)).filter fun n => decide (n ∈ seqs)).Perm seqs := by
    refine (List.perm_ext_iff_of_nodup (List.Nodup.filter _ List.nodup_range') ?_).mpr fun n => ?_
    · exact increasing.imp fun lower => Nat.ne_of_lt lower
    · rw [List.mem_filter, decide_eq_true_iff, List.mem_range'_1]
      refine and_iff_right_of_imp fun member => ?_
      obtain ⟨above, below⟩ := inside n member
      omega
  have split :=
    List.length_eq_length_filter_add (l := List.range' first (last - first + 1)) fun n =>
      decide (n ∈ seqs)
  rw [List.length_range', present.length_eq] at split
  omega

section Scan
variable {pkts : List RawPacket} {first last : RawPacket}

theorem head?_filter_of_head {p : RawPacket → Bool}
    (head : pkts.head? = some first) (ok : p first = true) :
    (pkts.filter p).head? = some first := by
  cases pkts with
  | nil => cases head
  | cons raw rest =>
      cases head
      rw [List.filter_cons_of_pos ok, List.head?_cons]

theorem getLast?_filter_of_getLast {p : RawPacket → Bool}
    (final : pkts.getLast? = some last) (ok : p last = true) :
    (pkts.filter p).getLast? = some last := by
  rw [List.getLast?_eq_head?_reverse] at final ⊢
  rw [← List.filter_reverse]
  exact head?_filter_of_head final ok

theorem missingSeqs_eq (pkts : List RawPacket) (first last : UInt32) :
    missingSeqs pkts first last =
      (List.range' first.toNat (last.toNat - first.toNat + 1)).filter fun n =>
      !decide (n ∈ (pkts.filter packetOk).map fun raw => raw.header.seq.toNat) := by
  refine List.filter_congr fun n _ => ?_
  rw [List.any_eq]
  simp [List.mem_map]

theorem length_leftOut_increasing {previous : UInt32} {rest : List UInt32}
    (increasing : (previous :: rest).Pairwise (· < ·)) {last : UInt32}
    (final : (previous :: rest).getLast (List.cons_ne_nil _ _) = last) :
    ((List.range' previous.toNat (last.toNat - previous.toNat + 1)).filter fun n =>
      !decide (n ∈ (previous :: rest).map UInt32.toNat)).length =
        last.toNat - previous.toNat - rest.length := by
  have long := length_le_of_increasing increasing
  have sorted : ((previous :: rest).map UInt32.toNat).Pairwise (· < ·) :=
    List.pairwise_map.mpr (increasing.imp UInt32.lt_iff_toNat_lt.mp)
  have inside : ∀ n ∈ (previous :: rest).map UInt32.toNat, previous.toNat ≤ n ∧ n ≤ last.toNat := by
    intro n member
    obtain ⟨seq, listed, rfl⟩ := List.mem_map.mp member
    constructor
    · rcases List.mem_cons.mp listed with rfl | later
      · exact le_rfl
      · exact (UInt32.lt_iff_toNat_lt.mp (List.rel_of_pairwise_cons increasing later)).le
    · rw [← final]
      exact UInt32.le_iff_toNat_le.mp (le_getLast_of_increasing increasing listed)
  have total := length_leftOut sorted inside
  rw [List.length_map, List.length_cons] at total
  rw [final] at long
  omega

theorem lost_feedAll {cfg : Config} {acc : ScanAccumulator}
    (fed : ScanAccumulator.feedAll cfg pkts {} = some acc) (head : pkts.head? = some first)
    (final : pkts.getLast? = some last)
    (increasing : (pkts.map fun raw => raw.header.seq).Pairwise (· < ·))
    (firstOk : packetOk first = true) (lastOk : packetOk last = true) :
    acc.sv.packetsLost = UInt64.ofNat ((missingSeqs pkts first.header.seq last.header.seq).length +
      pkts.countP (!packetOk ·)) := by
  have lost := (@ScanAccumulator.tracked_of_feedAll cfg pkts true acc fed).loss.1
  have begins := head?_filter_of_head head firstOk
  have ends := getLast?_filter_of_getLast final lastOk
  have sorted := (increasing.sublist (List.Sublist.map _ List.filter_sublist) :
    ((pkts.filter packetOk).map fun raw => raw.header.seq).Pairwise (· < ·))
  rw [lost, seqTs, missingSeqs_eq]
  cases intact : pkts.filter packetOk with
  | nil =>
      rw [intact] at begins
      cases begins
  | cons raw rest =>
      rw [intact] at begins ends sorted
      cases begins
      let times := rest.map fun raw => (raw.header.seq, toInt64 raw.header.tsNs)
      have seqs : times.map Prod.fst = rest.map fun raw => raw.header.seq := by
        simp [times, Function.comp_def]
      have onward : (first.header.seq :: times.map Prod.fst).Pairwise (· < ·) := by
        rw [seqs]
        exact sorted
      have lastSeq : (first.header.seq :: times.map Prod.fst).getLast
          (List.cons_ne_nil _ _) = last.header.seq := by
        apply Option.some.inj
        rw [← List.getLast?_eq_some_getLast, seqs]
        show ((first :: rest).map fun raw => raw.header.seq).getLast? = _
        rw [List.getLast?_map, ends, Option.map_some]
      have gaps :=
        lost_increasing "ego" first.header.seq (toInt64 first.header.tsNs) times onward {}
      have leftOut := length_leftOut_increasing onward lastSeq
      rw [lastSeq] at gaps
      have numbers : (first :: rest).map (fun raw => raw.header.seq.toNat) =
          (first.header.seq :: times.map Prod.fst).map UInt32.toNat := by
        rw [seqs]
        simp [Function.comp_def]
      rw [numbers, leftOut, List.length_map, UInt64.ofNat_add]
      show (checkSeqGaps "ego"
        ((first.header.seq, toInt64 first.header.tsNs) :: times) {}).packetsLost + _ = _
      rw [gaps]
      exact congrArg (· + _) (UInt64.zero_add _)

theorem losses_lt
    (increasing : (pkts.map fun raw => raw.header.seq).Pairwise (· < ·)) (first last : UInt32) :
    (missingSeqs pkts first last).length + pkts.countP (!packetOk ·) < 2 ^ 64 := by
  have missing : (missingSeqs pkts first last).length ≤ last.toNat - first.toNat + 1 :=
    (List.length_filter_le ..).trans_eq (List.length_range' ..)
  have bad : pkts.countP (!packetOk ·) ≤ pkts.length := List.countP_le_length
  have short : pkts.length ≤ 2 ^ 32 := by
    cases pkts with
    | nil => exact Nat.zero_le _
    | cons raw rest =>
        have long := length_le_of_increasing increasing
        have below :=
          UInt32.toNat_lt
            (List.getLast _ (List.cons_ne_nil raw.header.seq (rest.map fun raw => raw.header.seq)))
        rw [List.length_map] at long
        rw [List.length_cons]
        exact Nat.succ_le_of_lt (lt_of_le_of_lt (le_of_add_le_right long) below)
  have below := last.toNat_lt
  omega

theorem LostOnce.intact {cfg : Config} (once : LostOnce cfg pkts first last)
    (head : pkts.head? = some first) (final : pkts.getLast? = some last)
    (increasing : (pkts.map fun raw => raw.header.seq).Pairwise (· < ·))
    (firstOk : packetOk first = true) (lastOk : packetOk last = true) :
    ∀ raw ∈ pkts, packetOk raw = true := by
  obtain ⟨acc, fed, count⟩ := once
  have few := losses_lt increasing first.header.seq last.header.seq
  rw [lost_feedAll fed head final increasing firstOk lastOk, UInt64.toNat_ofNat_of_lt' few] at count
  have bad : pkts.countP (!packetOk ·) = 0 := Nat.left_eq_add.mp count.symm
  intro raw member
  have counted := List.countP_eq_zero.mp bad raw member
  simpa using counted

/-- The scan counts each lost packet once if and only if no packet is bad and none traps. -/
theorem lostOnce_iff {cfg : Config} (head : pkts.head? = some first)
    (final : pkts.getLast? = some last)
    (increasing : (pkts.map fun raw => raw.header.seq).Pairwise (· < ·))
    (firstOk : packetOk first = true) (lastOk : packetOk last = true) :
    LostOnce cfg pkts first last ↔
      (∀ raw ∈ pkts, packetOk raw = true) ∧ ∀ raw ∈ pkts, audioTraps raw = false := by
  constructor
  · intro once
    have intact := once.intact head final increasing firstOk lastOk
    obtain ⟨acc, fed, -⟩ := once
    have untrapped := (ScanAccumulator.feedAll_isSome cfg pkts {}).mp (by rw [fed]; rfl)
    exact ⟨intact, fun raw member => untrapped raw member (intact raw member)⟩
  · rintro ⟨intact, untrapped⟩
    obtain ⟨acc, fed⟩ := Option.isSome_iff_exists.mp
      ((ScanAccumulator.feedAll_isSome cfg pkts {}).mpr fun raw member _ => untrapped raw member)
    have few := losses_lt increasing first.header.seq last.header.seq
    have bad : pkts.countP (!packetOk ·) = 0 := by
      rw [List.countP_eq_zero]
      intro raw member
      simp [intact raw member]
    refine ⟨acc, fed, ?_⟩
    rw [lost_feedAll fed head final increasing firstOk lastOk,
      UInt64.toNat_ofNat_of_lt' few, bad, Nat.add_zero]

end Scan

def intactPacket (seq : UInt64) : RawPacket := packetOf (sealFrame 100 seq 10 11 [])

def damagedPacket (seq : UInt64) : RawPacket :=
  { packetOf (sealFrame 100 seq 10 11 [0]) with payload := [1] }

theorem intactPacket_ok (seq : UInt64) : packetOk (intactPacket seq) = true :=
  packetOk_packetOf (@sealFrame_accepted 0 100 seq 10 11 [] (Nat.zero_le _))

theorem damagedPacket_bad : packetOk (damagedPacket 2) = false := by
  have contract : packetOk (damagedPacket 2) = contractOk (damagedPacket 2) := rfl
  rw [contract, ← Bool.not_eq_true, contractOk_iff]
  rintro ⟨-, -, payload, -⟩
  exact absurd (payload (by decide)) (by decide)

theorem lostOnce_twoPackets :
    ∃ cfg, LostOnce cfg [intactPacket 1, intactPacket 3] (intactPacket 1) (intactPacket 3) := by
  refine ⟨{}, (lostOnce_iff rfl rfl (by decide) (intactPacket_ok 1) (intactPacket_ok 3)).mpr
    ⟨?_, ?_⟩⟩
  · simp [intactPacket_ok]
  · decide

/-- Of the packets 1, 2 and 3 the second is bad: it is counted, and the gap that it leaves. -/
theorem damagedPacket_lostTwice : ¬ ∀ cfg pkts (first last : RawPacket),
    pkts.head? = some first → pkts.getLast? = some last →
      (pkts.map fun raw => raw.header.seq).Pairwise (· < ·) →
    packetOk first = true → packetOk last = true → LostOnce cfg pkts first last := by
  intro always
  have increasing :
      ([intactPacket 1, damagedPacket 2, intactPacket 3].map fun raw => raw.header.seq).Pairwise
        (· < ·) := by
    decide
  have once := always {} _ _ _ rfl rfl increasing (intactPacket_ok 1) (intactPacket_ok 3)
  have intact := once.intact rfl rfl increasing (intactPacket_ok 1) (intactPacket_ok 3)
  have second := intact (damagedPacket 2) (by simp)
  rw [damagedPacket_bad] at second
  cases second

end LocalPC.Offline
