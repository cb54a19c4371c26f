import Mathlib.Data.Int.Basic
import LocalPC.Lib.Framing
import LocalPC.Lib.SegmentedLog
import LocalPC.Lib.SortedRange
import LocalPC.Lib.Visit
import LocalPC.Contract.FrameHeader
import LocalPC.Runtime.SessionDirectory
import LocalPC.Runtime.ContractFrameIo

/-!
# The log reader of the pipeline

`ego_log_reader.cpp`: the sequential scan over the chunks of a manifest in either packet format,
the index, and access by time. The two chunk scanners differ in their header only. Signed machine
integers are integers here; where the source converts to one, the value is wrapped.
-/

namespace LocalPC.Offline
open Lib Contract LocalPC.Runtime

@[irreducible] def toInt64 (x : UInt64) : Int :=
  if x.toNat < 9223372036854775808 then x.toNat else x.toNat - 18446744073709551616

@[irreducible] def toInt32 (n : Nat) : Int :=
  if n % 4294967296 < 2147483648 then (n % 4294967296 : Nat)
  else (n % 4294967296 : Nat) - 4294967296

def kMagic : UInt32 := 0x45574F48
def kHeaderSize : Nat := 34

structure PacketHeader where
  magic : UInt32 := 0
  protocolVersion : UInt16 := 0
  payloadVersion : UInt16 := 0
  type : UInt16 := 0
  payloadSize : UInt32 := 0
  tsNs : UInt64 := 0
  seq : UInt32 := 0
  statusFlags : UInt32 := 0
  checksum : UInt32 := 0
  deriving DecidableEq, Repr, Inhabited

def PacketHeader.decode (bytes : Bytes) : PacketHeader where
  magic := u32At 0 bytes
  protocolVersion := u16At 4 bytes
  payloadVersion := u16At 6 bytes
  type := u16At 8 bytes
  payloadSize := u32At 10 bytes
  tsNs := u64At 14 bytes
  seq := u32At 22 bytes
  statusFlags := u32At 26 bytes
  checksum := u32At 30 bytes

structure RawPacket where
  header : PacketHeader := {}
  contractHeader : EgoFrameHeader := default
  isContract : Bool := false
  payload : Bytes
  chunkId : Int
  fileOffset : Nat
  deriving DecidableEq, Repr

/-! ## Packets of a chunk -/

structure PacketFormat where
  headerSize : Nat
  magic : UInt32
  sizeOffset : Nat
  sizeInside : sizeOffset + 4 ≤ headerSize
  packet : (chunkId : Int) → (fileOffset : Nat) → (header payload : Bytes) → RawPacket

namespace PacketFormat

def payloadSize (F : PacketFormat) (bytes : Bytes) : Nat := (u32At F.sizeOffset bytes).toNat

theorem payloadSize_append (F : PacketFormat) (front back : Bytes)
    (fits : F.headerSize ≤ front.length) :
    F.payloadSize (front ++ back) = F.payloadSize front := by
  have inside := F.sizeInside
  rw [payloadSize, payloadSize, u32At, u32At, field_append_left _ _ _ _ (by omega)]

theorem magic_append (F : PacketFormat) (front back : Bytes) (fits : F.headerSize ≤ front.length) :
    u32At 0 (front ++ back) = u32At 0 front := by
  have inside := F.sizeInside
  rw [u32At, u32At, field_append_left _ _ _ _ (by omega)]

def stream (F : PacketFormat) : RecordFormat UInt8 where
  size? b :=
    if b.length < F.headerSize then none
    else if u32At 0 b ≠ F.magic then none
    else if b.length < F.headerSize + F.payloadSize b then none
    else some (F.headerSize + F.payloadSize b)
  size_pos := by
    intro b n found
    have inside := F.sizeInside
    split_ifs at found
    cases found
    omega
  size_le := by
    intro b n found
    split_ifs at found with short magic large
    cases found
    exact not_lt.mp large
  size_stable := by
    intro b n found rest
    split_ifs at found with short magic large
    cases found
    have whole : b = b.take (F.headerSize + F.payloadSize b) ++ b.drop
        (F.headerSize + F.payloadSize b) :=
      (List.take_append_drop ..).symm
    have length : (b.take (F.headerSize + F.payloadSize b)).length =
        F.headerSize + F.payloadSize b := by
      rw [List.length_take]
      omega
    have fits : F.headerSize ≤ (b.take (F.headerSize + F.payloadSize b)).length := by omega
    have size : F.payloadSize (b.take (F.headerSize + F.payloadSize b)) = F.payloadSize b := by
      conv_rhs => rw [whole]
      rw [F.payloadSize_append _ _ fits]
    have head : u32At 0 (b.take (F.headerSize + F.payloadSize b)) = u32At 0 b := by
      conv_rhs => rw [whole]
      rw [F.magic_append _ _ fits]
    rw [F.payloadSize_append _ _ fits, F.magic_append _ _ fits, size, head,
      List.length_append, length, if_neg (by omega), if_neg magic, if_neg (by omega)]

def scanChunk {σ : Type*} (F : PacketFormat) (chunkId : Int) (cb : RawPacket → σ → Bool × σ)
    (fileOffset : Nat) (rest : Bytes) (state : σ) : σ :=
  if rest.length < F.headerSize then state
  else if u32At 0 rest ≠ F.magic then state
  else if rest.length < F.headerSize + F.payloadSize rest then state
  else
    let payload := (rest.drop F.headerSize).take (F.payloadSize rest)
    match cb (F.packet chunkId fileOffset (rest.take F.headerSize) payload) state with
    | (false, state) => state
    | (true, state) =>
        F.scanChunk chunkId cb (fileOffset + F.headerSize + F.payloadSize rest)
          (rest.drop (F.headerSize + F.payloadSize rest)) state
termination_by rest.length
decreasing_by
  have inside := F.sizeInside
  simp only [List.length_drop]
  omega

def ofPlacement (F : PacketFormat) (chunkId : Int) (p : Placement UInt8) : RawPacket :=
  F.packet chunkId p.offset (p.record.take F.headerSize) (p.record.drop F.headerSize)

def packets (F : PacketFormat) (chunkId : Int) (bytes : Bytes) : List RawPacket :=
  (SegmentedLog.placeFrom 0 0 (F.stream.records bytes)).map (F.ofPlacement chunkId)

variable {F : PacketFormat}

theorem stream_some {b : Bytes} {n : Nat} (found : F.stream.size? b = some n) :
    F.headerSize ≤ b.length ∧ u32At 0 b = F.magic ∧
      n = F.headerSize + F.payloadSize b ∧ n ≤ b.length := by
  have bound := F.stream.size_le found
  simp only [stream] at found
  split_ifs at found with short magic large
  exact ⟨not_lt.mp short, not_not.mp magic, (Option.some.inj found).symm, bound⟩

theorem scanChunk_stop {σ : Type*} {b : Bytes} (stop : F.stream.size? b = none) (chunkId : Int)
    (cb : RawPacket → σ → Bool × σ) (fileOffset : Nat) (state : σ) :
    F.scanChunk chunkId cb fileOffset b state = state := by
  rw [scanChunk]
  simp only [stream] at stop
  split_ifs at stop with short magic large
  · rw [if_pos short]
  · rw [if_neg short, if_pos magic]
  · rw [if_neg short, if_neg magic, if_pos large]

theorem scanChunk_step {σ : Type*} {b : Bytes} {n : Nat}
    (found : F.stream.size? b = some n) (chunkId : Int) (cb : RawPacket → σ → Bool × σ)
    (fileOffset : Nat) (state : σ) :
    F.scanChunk chunkId cb fileOffset b state =
      match cb (F.ofPlacement chunkId ⟨0, fileOffset, b.take n⟩) state with
      | (false, state) => state
      | (true, state) =>
          F.scanChunk chunkId cb (fileOffset + (b.take n).length) (b.drop n) state := by
  obtain ⟨long, magic, rfl, fits⟩ := stream_some found
  have header : (b.take (F.headerSize + F.payloadSize b)).take F.headerSize =
      b.take F.headerSize := by
    rw [List.take_take, Nat.min_eq_left (Nat.le_add_right ..)]
  have payload : (b.take (F.headerSize + F.payloadSize b)).drop F.headerSize =
      (b.drop F.headerSize).take (F.payloadSize b) := by
    rw [List.drop_take, Nat.add_sub_cancel_left]
  have length : (b.take (F.headerSize + F.payloadSize b)).length =
      F.headerSize + F.payloadSize b := by
    rw [List.length_take, Nat.min_eq_left fits]
  rw [scanChunk, if_neg (not_lt.mpr long), if_neg (not_not.mpr magic), if_neg (not_lt.mpr fits)]
  simp only [ofPlacement, header, payload, length, Nat.add_assoc]

theorem scanChunk_eq {σ : Type*} {cb : RawPacket → σ → Bool × σ} (chunkId : Int)
    (bytes : Bytes) (state : σ) :
    F.scanChunk chunkId cb 0 bytes state = (visit cb (F.packets chunkId bytes) state).2 := by
  have go (fileOffset : Nat) : F.scanChunk chunkId cb fileOffset bytes state = (visit cb
      ((SegmentedLog.placeFrom 0 fileOffset (F.stream.records bytes)).map (F.ofPlacement chunkId))
        state).2 := by
    induction bytes using RecordFormat.stream_induction
      (F := F.stream) generalizing fileOffset state with
    | stop b h =>
        rw [scanChunk_stop h, RecordFormat.records_of_none h]
        rfl
    | step b n h ih =>
        rw [scanChunk_step h, RecordFormat.records_of_some h, SegmentedLog.placeFrom, List.map_cons]
        rcases answer : cb
            (F.ofPlacement chunkId ⟨0, fileOffset, b.take n⟩) state with ⟨_ | _, after⟩
        · rw [visit_cons_false answer]
        · rw [visit_cons_true answer]
          exact ih _ _
  exact go 0

theorem scanChunk_all {σ : Type*} (chunkId : Int) (see : RawPacket → σ → σ)
    (b : Bytes) (state : σ) :
    F.scanChunk chunkId (fun p s => (true, see p s)) 0 b state =
      (F.packets chunkId b).foldl (fun s p => see p s) state := by
  rw [scanChunk_eq, visit_all]

end PacketFormat

/-! ## The two formats -/

def legacyPackets : PacketFormat where
  headerSize := kHeaderSize
  magic := kMagic
  sizeOffset := 10
  sizeInside := by decide
  packet chunkId fileOffset header payload :=
    { header := PacketHeader.decode header, payload, chunkId, fileOffset }

def contractPackets : PacketFormat where
  headerSize := egoFrameHeaderSize
  magic := egoFrameMagic
  sizeOffset := 56
  sizeInside := by decide
  packet chunkId fileOffset header payload :=
    let hdr := EgoFrameHeader.decode header
    { contractHeader := hdr
      isContract := true
      header :=
        { tsNs := hdr.t0Ns, seq := hdr.seq.toUInt32, type := hdr.frameType.toUInt16,
          payloadSize := hdr.payloadSize }
      payload, chunkId, fileOffset }

theorem contractPackets_isRecord {m : UInt32} {frame : Bytes} (accepted : Accepted m frame) :
    contractPackets.stream.IsRecord frame := by
  obtain ⟨long, magic, -, -, size, -, -⟩ := accepted_iff.mp accepted
  have length : frame.length = contractPackets.headerSize + contractPackets.payloadSize frame :=
    size
  have head : u32At 0 frame = contractPackets.magic := magic
  simp only [RecordFormat.IsRecord, PacketFormat.stream]
  have fits : contractPackets.headerSize ≤ frame.length := long
  rw [if_neg (not_lt.mpr fits), if_neg (not_not.mpr head), if_neg (by omega), ← length]

theorem packets_flatten {m : UInt32} {frames : List Bytes}
    (accepted : ∀ frame ∈ frames, Accepted m frame) (chunkId : Int) :
    contractPackets.packets chunkId frames.flatten =
      (SegmentedLog.placeFrom 0 0 frames).map (contractPackets.ofPlacement chunkId) := by
  rw [PacketFormat.packets, RecordFormat.records_of_flatten fun frame member =>
    contractPackets_isRecord (accepted frame member)]

def scanLegacyChunk {σ : Type*} (chunkId : Int) (cb : RawPacket → σ → Bool × σ)
    (bytes : Bytes) (state : σ) : σ :=
  legacyPackets.scanChunk chunkId cb 0 bytes state

def scanContractChunk {σ : Type*} (chunkId : Int) (cb : RawPacket → σ → Bool × σ)
    (bytes : Bytes) (state : σ) : σ :=
  contractPackets.scanChunk chunkId cb 0 bytes state

/-! ## The reader -/

inductive EgoBinFormat
  | kUnknown
  | kLegacy
  | kContract
  deriving DecidableEq, Repr

structure ChunkInfo where
  path : Bytes
  firstTsNs : Int := 0
  lastTsNs : Int := 0
  packetCount : UInt64 := 0
  chunkId : Int := 0

structure IndexEntry where
  offset : Nat := 0
  tsNs : Int := 0
  type : UInt16 := 0
  seq : UInt32 := 0
  chunkId : Int := 0
  deriving DecidableEq, Repr

def detectFormat (dir : Dir) (path : Bytes) : EgoBinFormat :=
  match dir.lookup path with
  | none => .kUnknown
  | some bytes =>
      if u32At 0 bytes = egoFrameMagic then .kContract
      else if u32At 0 bytes = kMagic then .kLegacy
      else .kUnknown

structure EgoLogReader where
  format : EgoBinFormat
  chunks : List ChunkInfo
  index : List IndexEntry := []
  indexBuilt : Bool := false

namespace EgoLogReader

/-- The constructor: the format of the first chunk is taken for all of them. -/
def create (dir : Dir) (chunks : List ChunkInfo) : EgoLogReader where
  format :=
    match chunks with
    | [] => .kUnknown
    | first :: _ => detectFormat dir first.path
  chunks := chunks

def formatOf (reader : EgoLogReader) (dir : Dir) (chunk : ChunkInfo) : EgoBinFormat :=
  if reader.format = .kUnknown then detectFormat dir chunk.path else reader.format

def scan {σ : Type*} (reader : EgoLogReader) (dir : Dir)
    (cb : RawPacket → σ → Bool × σ) (state : σ) : σ :=
  reader.chunks.foldl (fun state chunk =>
    match dir.lookup chunk.path with
    | none => state
    | some bytes =>
        if reader.formatOf dir chunk = .kContract then
          scanContractChunk chunk.chunkId cb bytes state
        else scanLegacyChunk chunk.chunkId cb bytes state) state

def entryOf (pkt : RawPacket) : IndexEntry where
  offset := pkt.fileOffset
  tsNs := toInt64 pkt.header.tsNs
  type := pkt.header.type
  seq := pkt.header.seq
  chunkId := pkt.chunkId

@[simp] theorem entryOf_tsNs (pkt : RawPacket) : (entryOf pkt).tsNs = toInt64 pkt.header.tsNs := rfl

/-! ### The index -/

def indexColumn (col : Nat) (tok : Bytes) (e : IndexEntry) : Except StdException IndexEntry :=
  match col with
  | 0 => do return { e with offset := (← stoull tok).toNat }
  | 1 => do return { e with tsNs := ← stoll tok }
  | 2 => do return { e with type := (← stoul tok).toUInt16 }
  | 3 => do return { e with seq := (← stoul tok).toUInt32 }
  | 4 => do return { e with chunkId := ← stoi tok }
  | _ => return e

def indexColumns : Nat → List Bytes → IndexEntry → Except StdException IndexEntry
  | _, [], e => return e
  | col, tok :: toks, e => do indexColumns (col + 1) toks (← indexColumn col tok e)

def indexEntries (file : Bytes) : Except StdException (List IndexEntry) :=
  ((getlines newline file).tail.filter (· ≠ [])).mapM fun line =>
    indexColumns 0 (getlines comma line) {}

def loadIndex (reader : EgoLogReader) (file : Bytes) : Except StdException EgoLogReader := do
  let index ← indexEntries file
  return { reader with index, indexBuilt := !index.isEmpty }

def unsortedIndex (reader : EgoLogReader) (dir : Dir) : List IndexEntry :=
  reader.scan dir (fun pkt index => (true, index ++ [entryOf pkt])) []

/-- What `std::sort` by time may leave of `entries`; it does not fix the order of equal times. -/
def IsSorted (entries index : List IndexEntry) : Prop :=
  index.Perm entries ∧ SortedBy IndexEntry.tsNs index

/-- `build_index` of a reader: from the index file if there is one, else by a scan. -/
inductive BuildIndex (reader : EgoLogReader) (dir : Dir) (indexPath : Bytes) :
    Except StdException EgoLogReader → Prop
  | file (bytes : Bytes) (named : indexPath ≠ []) (found : dir.lookup indexPath = some bytes) :
      BuildIndex reader dir indexPath (reader.loadIndex bytes)
  | scan (index : List IndexEntry) (absent : indexPath = [] ∨ dir.lookup indexPath = none)
      (sorted : IsSorted (reader.unsortedIndex dir) index) :
      BuildIndex reader dir indexPath (.ok { reader with index, indexBuilt := true })

/-! ### Access by time -/

def readEntry (reader : EgoLogReader) (dir : Dir) (e : IndexEntry) : Option RawPacket := do
  let chunk ← reader.chunks.find? fun c => c.chunkId = e.chunkId
  let bytes ← dir.lookup chunk.path
  let rest := bytes.drop e.offset
  if rest.length < kHeaderSize then none
  else
    let hdr := PacketHeader.decode rest
    if (rest.drop kHeaderSize).length < hdr.payloadSize.toNat then none
    else
      return { header := hdr, chunkId := e.chunkId, fileOffset := e.offset,
               payload := (rest.drop kHeaderSize).take hdr.payloadSize.toNat }

/-- `read_range`. An iterator that starts behind the end of its range never meets it; that is
undefined, and has no result here. -/
def readRange (reader : EgoLogReader) (dir : Dir) (tStart tEnd : Int) : Option (List RawPacket) :=
  if !reader.indexBuilt then
    some (reader.scan dir (fun pkt result =>
      (true, if tStart ≤ toInt64 pkt.header.tsNs ∧ toInt64 pkt.header.tsNs ≤ tEnd then result ++
        [pkt]
        else result)) [])
  else
    let lo := lowerBound IndexEntry.tsNs tStart reader.index
    let hi := upperBound IndexEntry.tsNs tEnd reader.index
    if hi < lo then none
    else some (((reader.index.drop lo).take (hi - lo)).filterMap (reader.readEntry dir))

/-! ### What a scan sees -/

def chunkPackets (reader : EgoLogReader) (dir : Dir) (chunk : ChunkInfo) : List RawPacket :=
  match dir.lookup chunk.path with
  | none => []
  | some bytes =>
      (if reader.formatOf dir chunk = .kContract then contractPackets else legacyPackets).packets
        chunk.chunkId bytes

/-- All packets of the log, in the order of a scan that is not stopped. -/
def packets (reader : EgoLogReader) (dir : Dir) : List RawPacket :=
  reader.chunks.flatMap (reader.chunkPackets dir)

theorem scan_eq {σ : Type*} {cb : RawPacket → σ → Bool × σ} (reader : EgoLogReader)
    (dir : Dir) (state : σ) :
    reader.scan dir cb state =
      visitEach cb (reader.chunks.map (reader.chunkPackets dir)) state := by
  unfold scan visitEach
  rw [List.foldl_map]
  congr 1
  funext state chunk
  unfold chunkPackets
  cases dir.lookup chunk.path with
  | none => rfl
  | some bytes =>
      dsimp only
      split
      · exact PacketFormat.scanChunk_eq chunk.chunkId bytes state
      · exact PacketFormat.scanChunk_eq chunk.chunkId bytes state

theorem scan_all {σ : Type*} (reader : EgoLogReader) (dir : Dir)
    (see : RawPacket → σ → σ) (state : σ) :
    reader.scan dir (fun pkt s => (true, see pkt s)) state =
      (reader.packets dir).foldl (fun s pkt => see pkt s) state := by
  rw [scan_eq, visitEach, packets, List.foldl_flatMap, List.foldl_map]
  simp only [visit_all]

theorem scan_collect {α : Type*} (reader : EgoLogReader) (dir : Dir) (pick : RawPacket → Option α) :
    reader.scan dir (fun pkt seen => (true, seen ++ (pick pkt).toList)) [] =
      (reader.packets dir).filterMap pick := by
  rw [scan_all]
  have go (pkts : List RawPacket) (seen : List α) :
      pkts.foldl (fun seen pkt => seen ++ (pick pkt).toList) seen =
        seen ++ pkts.filterMap pick := by
    induction pkts generalizing seen with
    | nil => simp
    | cons pkt pkts ih =>
        rw [List.foldl_cons, ih, List.append_assoc, List.filterMap_cons]
        cases pick pkt <;> rfl
  exact go _ []

def sortedIndex (reader : EgoLogReader) (dir : Dir) : List IndexEntry :=
  (reader.unsortedIndex dir).mergeSort fun a b => a.tsNs ≤ b.tsNs

theorem isSorted_sortedIndex (reader : EgoLogReader) (dir : Dir) :
    IsSorted (reader.unsortedIndex dir) (reader.sortedIndex dir) := by
  refine ⟨List.mergeSort_perm _ _, ?_⟩
  have trans (a b c : IndexEntry) : decide (a.tsNs ≤ b.tsNs) = true →
      decide (b.tsNs ≤ c.tsNs) = true →
      decide (a.tsNs ≤ c.tsNs) = true := by
    simpa using fun ab bc => le_trans ab bc
  have total (a b : IndexEntry) : (decide (a.tsNs ≤ b.tsNs) || decide (b.tsNs ≤ a.tsNs)) =
      true := by
    simpa using le_total a.tsNs b.tsNs
  exact (List.pairwise_mergeSort trans total (reader.unsortedIndex dir)).imp
    fun le => by simpa using le

theorem unsortedIndex_eq (reader : EgoLogReader) (dir : Dir) :
    reader.unsortedIndex dir = (reader.packets dir).map entryOf := by
  rw [← List.filterMap_eq_map]
  exact reader.scan_collect dir (some ∘ entryOf)

theorem readRange_scan {reader : EgoLogReader} (fresh : reader.indexBuilt = false)
    (dir : Dir) (tStart tEnd : Int) :
    reader.readRange dir tStart tEnd = some ((reader.packets dir).filter fun pkt =>
      tStart ≤ toInt64 pkt.header.tsNs ∧ toInt64 pkt.header.tsNs ≤ tEnd) := by
  simp only [readRange, fresh, Bool.not_false, if_true]
  rw [← List.filterMap_eq_filter, ← scan_collect]
  refine congrArg
    some (congrArg (fun cb => reader.scan dir cb []) (funext fun pkt => funext fun result => ?_))
  by_cases inside : tStart ≤ toInt64 pkt.header.tsNs ∧ toInt64 pkt.header.tsNs ≤ tEnd
  · simp [Option.guard, inside]
  · simp only [Option.guard, inside, decide_false, Bool.false_eq_true, if_false,
      Option.toList_none, List.append_nil]

end EgoLogReader
end LocalPC.Offline
