import LocalPC.Runtime.ContractSeq
import LocalPC.Offline.LogValidator

namespace LocalPC.Offline
open Lib Contract LocalPC.Runtime

def LogHolds (frames : List Bytes) (chunks : List ChunkInfo) (dir : Dir) : Prop :=
  ∃ segments : List (List Bytes), segments.flatten = frames ∧
    List.Forall₂ (fun chunk segment => dir.lookup chunk.path = some segment.flatten) chunks segments

def receiveAll {config : RuntimeConfig} (frames : List (ContractFrame config.maxPayloadBytes))
    (s : RuntimeService config) : RuntimeService config :=
  frames.foldl (fun s frame => s.countFrame frame.header) s

/-- The scan of the log of these frames reports the packet loss that the runtime has added. -/
def SamePacketLoss (config : RuntimeConfig) (cfg : Config)
    (frames : List (ContractFrame config.maxPayloadBytes)) : Prop :=
  ∀ s : RuntimeService config, s.seqInitialized = false →
  ∀ (manifest : EgoManifest) (dir : Dir),
    LogHolds (frames.map ContractFrame.bytes) manifest.chunks dir →
    ∃ sv, scanEgo cfg manifest dir = some sv ∧
      sv.packetsLost = (receiveAll frames s).diagnostics.packetsLost - s.diagnostics.packetsLost

/-- The packet that a frame is read as, less its place. -/
def packetOf (frame : Bytes) : RawPacket := contractPackets.ofPlacement 0 ⟨0, 0, frame⟩

theorem packetOk_packetOf {m : UInt32} {frame : Bytes} (accepted : Accepted m frame) :
    packetOk (packetOf frame) = true :=
  contractOk_of_accepted (p := ⟨0, 0, frame⟩) accepted 0

theorem LogHolds.holdsFrames {frames : List Bytes} {chunks : List ChunkInfo} {dir : Dir}
    (log : LogHolds frames chunks dir) (accepted : ∀ frame ∈ frames, ∃ m, Accepted m frame) :
    HoldsFrames chunks dir := by
  obtain ⟨segments, rfl, files⟩ := log
  intro chunk listed bytes found
  obtain ⟨i, rfl⟩ := List.mem_iff_get.mp listed
  have bound : i < segments.length := files.length_eq ▸ i.isLt
  have file := files.get i.isLt bound
  refine ⟨segments.get ⟨i, bound⟩, fun frame inside => accepted frame ?_,
    Option.some.inj (found.symm.trans file)⟩
  exact List.mem_flatten.mpr ⟨_, List.get_mem .., inside⟩

theorem packets_of_logHolds {frames : List Bytes} {chunks : List ChunkInfo} {dir : Dir}
    (log : LogHolds frames chunks dir) (accepted : ∀ frame ∈ frames, ∃ m, Accepted m frame) :
    ∃ places : List (Int × Placement UInt8), places.map (fun place => place.2.record) = frames ∧
      (EgoLogReader.create dir chunks).packets dir =
        places.map fun place => contractPackets.ofPlacement place.1 place.2 := by
  have holds := log.holdsFrames accepted
  obtain ⟨segments, rfl, files⟩ := log
  show ∃ places : List (Int × Placement UInt8), _ ∧ chunks.flatMap _ = _
  have all (chunks' : List ChunkInfo) (segments' : List (List Bytes))
      (inside : ∀ segment ∈ segments', segment ∈ segments)
      (files' : List.Forall₂
        (fun chunk segment => dir.lookup chunk.path = some segment.flatten) chunks' segments') :
      ∃ places : List (Int × Placement UInt8),
        places.map (fun place => place.2.record) = segments'.flatten ∧
        chunks'.flatMap ((EgoLogReader.create dir chunks).chunkPackets dir) =
          places.map fun place => contractPackets.ofPlacement place.1 place.2 := by
    induction files' with
    | nil => exact ⟨[], rfl, rfl⟩
    | @cons chunk segment chunks' segments' file files' ih =>
        obtain ⟨here, later⟩ := List.forall_mem_cons.mp inside
        obtain ⟨places, records, packets⟩ := ih later
        have valid : ∀ frame ∈ segment, ∃ m, Accepted m frame :=
          fun frame member => accepted frame (List.mem_flatten.mpr ⟨segment, here, member⟩)
        refine ⟨(SegmentedLog.placeFrom 0 0 segment).map
          (fun p => ((chunk.chunkId : Int), p)) ++ places, ?_, ?_⟩
        · rw [List.map_append, List.map_map, records, List.flatten_cons]
          exact congrArg (· ++ _) (SegmentedLog.map_record_placeFrom 0 0 segment)
        · rw [List.flatMap_cons, chunkPackets_of_frames holds valid file, packets,
            List.map_append, List.map_map]
          rfl
  exact all chunks segments (fun _ member => member) files

def skippedAfter (highest : UInt64) : List UInt64 → UInt64
  | [] => 0
  | seq :: rest =>
      skippedBy (some highest) seq + skippedAfter (if seq ≤ highest then highest else seq) rest

def gapBetween (previous seq : UInt32) : UInt64 :=
  if seq ≠ previous + 1 ∧ previous + 1 < seq then (seq - (previous + 1)).toUInt64 else 0

def gapsAfter (previous : UInt64) : List UInt64 → UInt64
  | [] => 0
  | seq :: rest => gapBetween previous.toUInt32 seq.toUInt32 + gapsAfter seq rest

theorem lost_seqGap (streamId : String) (previous seq : UInt32) (t prevT : Int)
    (sv : StreamValidation) :
    (sv.seqGap streamId (previous + 1) seq t prevT).packetsLost =
      sv.packetsLost + gapBetween previous seq := by
  unfold StreamValidation.seqGap gapBetween
  split
  · rfl
  · exact (UInt64.add_zero _).symm

theorem lost_checkSeqGaps (streamId : String) (previous : UInt64) (prevT : Int)
    (rest : List (UInt64 × Int)) (sv : StreamValidation) :
    (checkSeqGaps streamId
      ((previous.toUInt32, prevT) :: rest.map fun x => (x.1.toUInt32, x.2)) sv).packetsLost =
      sv.packetsLost + gapsAfter previous (rest.map Prod.fst) := by
  induction rest generalizing previous prevT sv with
  | nil => exact (UInt64.add_zero _).symm
  | cons next rest ih =>
      rw [List.map_cons, List.map_cons, gapsAfter, ← UInt64.add_assoc,
        ← lost_seqGap streamId previous.toUInt32 next.1.toUInt32 next.2 prevT]
      exact ih next.1 next.2 _

section Runtime
variable {config : RuntimeConfig}

theorem lost_receiveAll {s : RuntimeService config} {highest : UInt64}
    (seen : s.highestSeq = some highest) (frames : List (ContractFrame config.maxPayloadBytes)) :
    (receiveAll frames s).diagnostics.packetsLost =
      s.diagnostics.packetsLost + skippedAfter highest
        (frames.map fun frame => frame.header.seq) := by
  induction frames generalizing s highest with
  | nil => exact (UInt64.add_zero _).symm
  | cons frame frames ih =>
      obtain ⟨raised, lost, -, -⟩ := RuntimeService.countFrame_spec frame.header s
      have next : (s.countFrame frame.header).highestSeq =
          some (if frame.header.seq ≤ highest then highest else frame.header.seq) := by
        rw [raised, seen, raiseSeq]
        split <;> rfl
      have counted := ih next
      rw [lost, seen] at counted
      rw [List.map_cons, skippedAfter, ← UInt64.add_assoc]
      exact counted

theorem lost_receiveAll_first {s : RuntimeService config} (fresh : s.seqInitialized = false)
    (frame : ContractFrame config.maxPayloadBytes)
    (frames : List (ContractFrame config.maxPayloadBytes)) :
    (receiveAll (frame :: frames) s).diagnostics.packetsLost =
      s.diagnostics.packetsLost + skippedAfter frame.header.seq
        (frames.map fun frame => frame.header.seq) := by
  have none : s.highestSeq = Option.none := if_neg (by rw [fresh]; decide)
  obtain ⟨raised, lost, -, -⟩ := RuntimeService.countFrame_spec frame.header s
  rw [none] at raised lost
  have counted := lost_receiveAll raised frames
  rw [lost, skippedBy, UInt64.add_zero] at counted
  exact counted

end Runtime

section Scan
variable {m : UInt32} {frames : List (ContractFrame m)} {manifest : EgoManifest} {dir : Dir}

theorem scanEgo_frames (cfg : Config)
    (log : LogHolds (frames.map ContractFrame.bytes) manifest.chunks dir) :
    ((scanEgo cfg manifest dir).isSome = true ↔
      ∀ frame ∈ frames, audioTraps (packetOf frame.bytes) = false) ∧
    ∀ sv, scanEgo cfg manifest dir = some sv →
      sv.packetsLost = match frames.map fun frame => frame.header.seq with
        | [] => 0
        | first :: rest => gapsAfter first rest := by
  have accepted : ∀ bytes ∈ frames.map ContractFrame.bytes, ∃ m, Accepted m bytes := by
    intro bytes member
    obtain ⟨frame, -, rfl⟩ := List.mem_map.mp member
    exact ⟨m, frame.accepted⟩
  obtain ⟨places, records, packets⟩ := packets_of_logHolds log accepted
  have recorded : ∀ place ∈ places, ∃ frame ∈ frames, frame.bytes = place.2.record := by
    intro place member
    exact List.mem_map.mp (records ▸ List.mem_map_of_mem member)
  have intact : ∀ raw ∈ places.map fun place => contractPackets.ofPlacement place.1 place.2,
      packetOk raw = true := by
    intro raw member
    obtain ⟨place, placed, rfl⟩ := List.mem_map.mp member
    obtain ⟨frame, -, same⟩ := recorded place placed
    exact contractOk_of_accepted (same ▸ frame.accepted) place.1
  have sameTraps (place : Int × Placement UInt8) :
      audioTraps (contractPackets.ofPlacement place.1 place.2) =
        audioTraps (packetOf place.2.record) := rfl
  rw [scanEgo_eq, packets]
  constructor
  · rw [Option.isSome_map, ScanAccumulator.feedAll_isSome]
    constructor
    · intro untrapped frame member
      obtain ⟨place, placed, same⟩ := List.mem_map.mp (records ▸ List.mem_map_of_mem member)
      have passed :=
        untrapped _ (List.mem_map_of_mem placed) (intact _ (List.mem_map_of_mem placed))
      rwa [sameTraps, same] at passed
    · intro untrapped raw member _
      obtain ⟨place, placed, rfl⟩ := List.mem_map.mp member
      obtain ⟨frame, listed, same⟩ := recorded place placed
      rw [sameTraps, ← same]
      exact untrapped frame listed
  · intro sv scanned
    obtain ⟨acc, fed, rfl⟩ := Option.map_eq_some_iff.mp scanned
    have lost := (ScanAccumulator.tracked_of_feedAll fed).loss.1
    have noBad : (places.map fun place => contractPackets.ofPlacement place.1 place.2).countP
        (!packetOk ·) = 0 := by
      refine List.countP_eq_zero.mpr fun raw member => ?_
      rw [intact raw member]
      decide
    have seqs : seqTs (places.map fun place => contractPackets.ofPlacement place.1 place.2) =
        (frames.map fun frame => (frame.header.seq, toInt64 frame.header.t0Ns)).map fun x =>
          (x.1.toUInt32, x.2) := by
      have header (place : Int × Placement UInt8) :
          EgoFrameHeader.decode (place.2.record.take egoFrameHeaderSize) =
            EgoFrameHeader.decode place.2.record :=
        EgoFrameHeader.decode_take _ _ le_rfl
      have each := congrArg (List.map fun bytes =>
        ((EgoFrameHeader.decode bytes).seq.toUInt32, toInt64 (EgoFrameHeader.decode bytes).t0Ns))
          records
      rw [List.map_map, List.map_map] at each
      rw [seqTs, List.filter_eq_self.mpr intact, List.map_map, List.map_map]
      refine Eq.trans (List.map_congr_left fun place _ => ?_) each
      show ((EgoFrameHeader.decode (place.2.record.take egoFrameHeaderSize)).seq.toUInt32,
        toInt64 (EgoFrameHeader.decode (place.2.record.take egoFrameHeaderSize)).t0Ns) = _
      rw [header]
      rfl
    rw [lost, noBad, seqs]
    show (checkSeqGaps _ _ _).packetsLost + 0 = _
    rw [UInt64.add_zero]
    cases frames with
    | nil => rfl
    | cons first rest =>
        rw [List.map_cons, List.map_cons, List.map_cons, lost_checkSeqGaps, List.map_map]
        exact UInt64.zero_add _

end Scan

/-- A frame that skips nothing is not above the successor of the frame before it in the low bits;
one that skips numbers follows the highest frame, and the low bits do not wrap on the way. -/
def StaysInStep (highest previous seq : UInt64) : Prop :=
  if seq.toNat ≤ highest.toNat + 1 then seq.toUInt32 ≤ previous.toUInt32 + 1
  else previous.toUInt32 = highest.toUInt32 ∧
    (previous.toUInt32 + 1).toNat + (seq - highest - 1).toNat < 2 ^ 32

instance (highest previous seq : UInt64) : Decidable (StaysInStep highest previous seq) :=
  inferInstanceAs (Decidable (ite _ _ _))

def InStepAfter (highest previous : UInt64) : List UInt64 → Prop
  | [] => True
  | seq :: rest =>
      StaysInStep highest previous seq ∧
        InStepAfter (if seq ≤ highest then highest else seq) seq rest

def InStep : List UInt64 → Prop
  | [] => True
  | first :: rest => InStepAfter first first rest

theorem gapBetween_toNat (previous seq : UInt32) :
    (gapBetween previous seq).toNat = seq.toNat - (previous + 1).toNat := by
  have := seq.toNat_lt
  have := (previous + 1).toNat_lt
  unfold gapBetween
  split
  · rename_i gap
    have higher := UInt32.lt_iff_toNat_lt.mp gap.2
    rw [UInt32.toNat_toUInt64, UInt32.toNat_sub]
    omega
  · rename_i noGap
    have low : seq.toNat ≤ (previous + 1).toNat := by
      by_contra above
      have higher := not_le.mp above
      exact noGap ⟨fun same => by rw [same] at higher; exact absurd higher (lt_irrefl _),
        UInt32.lt_iff_toNat_lt.mpr higher⟩
    simp only [UInt64.reduceToNat]
    omega

theorem gap_eq_skipped_iff (highest previous seq : UInt64) :
    gapBetween previous.toUInt32 seq.toUInt32 = skippedBy (some highest) seq ↔
      StaysInStep highest previous seq := by
  have := highest.toNat_lt
  have := seq.toNat_lt
  have next : (previous.toUInt32 + 1).toNat = (previous.toNat % 2 ^ 32 + 1) % 2 ^ 32 := by
    rw [UInt32.toNat_add, UInt64.toNat_toUInt32, UInt32.toNat_one]
  rw [← UInt64.toNat_inj, gapBetween_toNat, skippedBy_toNat, UInt64.toNat_toUInt32, next]
  unfold StaysInStep
  split
  · rename_i low
    rw [UInt32.le_iff_toNat_le, UInt64.toNat_toUInt32, next]
    omega
  · rename_i above
    have skipped : (seq - highest - 1).toNat = seq.toNat - (highest.toNat + 1) := by
      simp only [UInt64.toNat_sub, UInt64.reduceToNat]
      omega
    rw [← UInt32.toNat_inj, UInt64.toNat_toUInt32, UInt64.toNat_toUInt32, next, skipped]
    omega

theorem agree_iff_inStepAfter (highest previous : UInt64) (seqs : List UInt64) :
    (∀ seen, seen <+: seqs → gapsAfter previous seen = skippedAfter highest seen) ↔
      InStepAfter highest previous seqs := by
  induction seqs generalizing highest previous with
  | nil => exact ⟨fun _ => trivial, fun _ seen part => by rw [List.prefix_nil.mp part]; rfl⟩
  | cons seq rest ih =>
      rw [InStepAfter, ← ih, ← gap_eq_skipped_iff]
      constructor
      · intro agree
        have here : gapBetween previous.toUInt32 seq.toUInt32 = skippedBy (some highest) seq := by
          have first := agree [seq] ((List.prefix_cons_inj seq).mpr List.nil_prefix)
          rwa [gapsAfter, skippedAfter, gapsAfter, skippedAfter, UInt64.add_zero, UInt64.add_zero]
            at first
        refine ⟨here, fun seen part => ?_⟩
        have longer := agree (seq :: seen) ((List.prefix_cons_inj seq).mpr part)
        rw [gapsAfter, skippedAfter, here] at longer
        simpa using longer
      · rintro ⟨here, later⟩ seen part
        cases seen with
        | nil => rfl
        | cons head seen =>
            obtain ⟨rfl, inside⟩ := List.cons_prefix_cons.mp part
            rw [gapsAfter, skippedAfter, here, later seen inside]

def SameCount : List UInt64 → Prop
  | [] => True
  | first :: rest => gapsAfter first rest = skippedAfter first rest

instance : (seqs : List UInt64) → Decidable (SameCount seqs)
  | [] => inferInstanceAs (Decidable True)
  | _ :: _ => inferInstanceAs (Decidable (_ = _))

theorem logHolds_single (frames : List Bytes) :
    LogHolds frames [{ path := [99] }] (AList.singleton [99] frames.flatten) :=
  ⟨[frames], List.flatten_singleton, .cons rfl .nil⟩

theorem samePacketLoss_iff {config : RuntimeConfig} {cfg : Config}
    {frames : List (ContractFrame config.maxPayloadBytes)} :
    SamePacketLoss config cfg frames ↔
      SameCount (frames.map fun frame => frame.header.seq) ∧
        ∀ frame ∈ frames, audioTraps (packetOf frame.bytes) = false := by
  have runtime (s : RuntimeService config) (fresh : s.seqInitialized = false) :
      (receiveAll frames s).diagnostics.packetsLost - s.diagnostics.packetsLost =
        match frames.map fun frame => frame.header.seq with
        | [] => 0
        | first :: rest => skippedAfter first rest := by
    cases frames with
    | nil => exact UInt64.sub_self _
    | cons first rest =>
        rw [lost_receiveAll_first fresh, UInt64.add_comm, UInt64.add_sub_cancel]
        rfl
  constructor
  · intro same
    let manifest : EgoManifest := { chunks := [{ path := [99] }] }
    have log : LogHolds (frames.map ContractFrame.bytes) manifest.chunks _ := logHolds_single _
    obtain ⟨sv, scanned, lost⟩ := same {} rfl manifest _ log
    obtain ⟨returns, counts⟩ := scanEgo_frames cfg log
    refine ⟨?_, returns.mp (by rw [scanned]; rfl)⟩
    rw [counts sv scanned, runtime {} rfl] at lost
    cases seqs : frames.map fun frame => frame.header.seq with
    | nil => trivial
    | cons first rest =>
        rw [seqs] at lost
        exact lost
  · rintro ⟨same, untrapped⟩ s fresh manifest dir log
    obtain ⟨returns, counts⟩ := scanEgo_frames cfg log
    obtain ⟨sv, scanned⟩ := Option.isSome_iff_exists.mp (returns.mpr untrapped)
    refine ⟨sv, scanned, ?_⟩
    rw [counts sv scanned, runtime s fresh]
    cases seqs : frames.map fun frame => frame.header.seq with
    | nil => rfl
    | cons first rest =>
        rw [seqs] at same
        exact same

/-- After every part of a recording, runtime and scan report the same loss if and only if every
frame stays in step and none traps the scan. -/
theorem packetLoss_agrees_iff (config : RuntimeConfig) (cfg : Config)
    (frames : List (ContractFrame config.maxPayloadBytes)) :
    (∀ seen, seen <+: frames → SamePacketLoss config cfg seen) ↔
      InStep (frames.map fun frame => frame.header.seq) ∧
        ∀ frame ∈ frames, audioTraps (packetOf frame.bytes) = false := by
  simp only [samePacketLoss_iff]
  cases frames with
  | nil => simp [SameCount, InStep]
  | cons first rest =>
      rw [List.map_cons, InStep, ← agree_iff_inStepAfter]
      constructor
      · intro same
        refine ⟨fun seen part => ?_, (same _ List.prefix_rfl).2⟩
        obtain ⟨frames, inside, rfl⟩ := List.prefix_map_iff.mp part
        exact (same (first :: frames) ((List.prefix_cons_inj first).mpr inside)).1
      · rintro ⟨agree, untrapped⟩ seen part
        refine ⟨?_, fun frame member => untrapped frame (part.subset member)⟩
        cases seen with
        | nil => trivial
        | cons head seen =>
            obtain ⟨rfl, inside⟩ := List.cons_prefix_cons.mp part
            exact agree _ (inside.map _)

def overtakenFrames : List (ContractFrame 65536) :=
  [2, 1, 3].map fun seq => ⟨sealFrame 100 seq 10 11 [], sealFrame_accepted _ _ _ _ (Nat.zero_le _)⟩

theorem overtakenFrames_count :
    ¬ SameCount (overtakenFrames.map fun frame => frame.header.seq) := by decide

theorem overtakenFrames_disagree : ¬ ∀ config cfg frames, SamePacketLoss config cfg frames :=
  fun same =>
  overtakenFrames_count (samePacketLoss_iff.mp (same {} {} overtakenFrames)).1

end LocalPC.Offline
