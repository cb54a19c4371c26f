import LocalPC.Offline.ScanAccumulator
import LocalPC.Protocol.Serialization

namespace LocalPC.Offline
open Lib

structure ParseResult where
  status : ParseStatus := .ok
  header : PacketHeader := {}
  payload : Bytes := []
  error : String := ""
  deriving DecidableEq, Repr

/-- `parse_from_buffer`, with the number of bytes consumed. -/
def BinaryParser.parseFromBuffer (data : Bytes) : Nat × ParseResult :=
  if data.length < kHeaderSize then
    (0, { status := .truncated, error := "buffer too small for header" })
  else
    let out : ParseResult := { header := PacketHeader.decode data }
    if out.header.magic ≠ kMagic then (0, { out with status := .badMagic, error := "bad magic" })
    else if out.header.protocolVersion ≠ kProtocolVersion then
      (0, { out with status := .badVersion, error := "bad protocol_version" })
    else if kMaxPayloadSize < out.header.payloadSize then
      (0, { out with status := .sizeExceeded, error := "payload_size exceeds limit" })
    else
      let total := kHeaderSize + out.header.payloadSize.toNat
      if data.length < total then
        (0, { out with status := .truncated, error := "buffer too small for payload" })
      else
        let out := { out with payload := (data.take total).drop kHeaderSize }
        if 0 < out.header.payloadSize ∧
          crc32 (out.payload.take out.header.payloadSize.toNat) ≠ out.header.checksum then
          (0, { out with status := .crcFail, error := "CRC32 mismatch" })
        else (total, out)

structure LegacyPacket where
  header : Protocol.PacketHeader
  payload : Bytes
  magic : header.magic = Protocol.kPacketMagic
  version : header.protocolVersion = Protocol.kProtocolVersion
  small : payload.length ≤ kMaxPayloadSize.toNat

namespace LegacyPacket

def bytes (packet : LegacyPacket) : Bytes := Protocol.serializePacket packet.header packet.payload

def readHeader (packet : LegacyPacket) : PacketHeader where
  magic := packet.header.magic
  protocolVersion := packet.header.protocolVersion
  payloadVersion := packet.header.payloadVersion
  type := packet.header.type
  payloadSize := UInt32.ofNat packet.payload.length
  tsNs := packet.header.tsNs
  seq := packet.header.seq
  statusFlags := packet.header.statusFlags
  checksum := Protocol.crc32 packet.payload

variable (packet : LegacyPacket)

theorem length_bytes : packet.bytes.length = kHeaderSize + packet.payload.length :=
  Protocol.length_serializePacket ..

theorem payloadSize_toNat : packet.readHeader.payloadSize.toNat = packet.payload.length := by
  have small := packet.small
  exact UInt32.toNat_ofNat_of_lt' (lt_of_le_of_lt small (by decide))

theorem readHeader_magic : packet.readHeader.magic = kMagic := packet.magic
theorem readHeader_version : packet.readHeader.protocolVersion = kProtocolVersion := packet.version

theorem readHeader_small : ¬ kMaxPayloadSize < packet.readHeader.payloadSize := by
  have small := packet.small
  have size := packet.payloadSize_toNat
  rw [UInt32.lt_iff_toNat_lt]
  omega

theorem decode_serializeHeader (rest : Bytes) :
    PacketHeader.decode
      (Protocol.serializeHeader (Protocol.sentHeader packet.header packet.payload) ++ rest) =
      packet.readHeader := by
  obtain ⟨magic, protocolVersion, payloadVersion, type, payloadSize, tsNs, seq,
      statusFlags, checksum⟩ :=
    Protocol.field_serializeHeader (Protocol.sentHeader packet.header packet.payload) rest
  simp only [PacketHeader.decode, u16At, u32At, u64At, magic, protocolVersion, payloadVersion,
    type, payloadSize, tsNs, seq, statusFlags, checksum, UInt16.ofNat_toNat,
      UInt32.ofNat_toNat, UInt64.ofNat_toNat]
  rfl

theorem decode_bytes (rest : Bytes) :
    PacketHeader.decode (packet.bytes ++ rest) = packet.readHeader := by
  rw [bytes, Protocol.serializePacket, List.append_assoc]
  exact packet.decode_serializeHeader _

theorem checksum_eq : crc32 packet.payload = packet.readHeader.checksum :=
  (crc32_eq packet.payload).trans (protocolCrc32_eq packet.payload).symm

theorem parseFromBuffer_bytes (rest : Bytes) :
    BinaryParser.parseFromBuffer (packet.bytes ++ rest) =
      (kHeaderSize + packet.payload.length,
        { header := packet.readHeader, payload := packet.payload }) := by
  have length : (packet.bytes ++ rest).length =
      kHeaderSize + packet.payload.length + rest.length := by
    rw [List.length_append, packet.length_bytes]
  have size := packet.payloadSize_toNat
  have payload : ((packet.bytes ++ rest).take (kHeaderSize + packet.payload.length)).drop
      kHeaderSize = packet.payload := by
    rw [← packet.length_bytes, List.take_left]
    exact List.drop_left' (Protocol.length_serializeHeader _)
  unfold BinaryParser.parseFromBuffer
  rw [if_neg (by omega), packet.decode_bytes]
  dsimp only
  rw [if_neg (not_not.mpr packet.readHeader_magic), if_neg (not_not.mpr packet.readHeader_version),
    if_neg packet.readHeader_small, size, if_neg (by omega), payload, List.take_length,
    if_neg (fun wrong => wrong.2 packet.checksum_eq)]

theorem isRecord_bytes : legacyPackets.stream.IsRecord packet.bytes := by
  have head := packet.decode_bytes []
  rw [List.append_nil] at head
  have magic : u32At 0 packet.bytes = legacyPackets.magic :=
    (congrArg PacketHeader.magic head).trans packet.magic
  have size : legacyPackets.payloadSize packet.bytes = packet.payload.length :=
    (congrArg (fun h : PacketHeader => h.payloadSize.toNat) head).trans packet.payloadSize_toNat
  have length : packet.bytes.length = legacyPackets.headerSize + packet.payload.length :=
    packet.length_bytes
  simp only [RecordFormat.IsRecord, PacketFormat.stream, size]
  rw [if_neg (by omega), if_neg (not_not.mpr magic), if_neg (by omega), ← length]

/-- The packet that a scan reads at an offset of a chunk. -/
def raw (chunkId : Int) (fileOffset : Nat) : RawPacket :=
  { header := packet.readHeader, payload := packet.payload, chunkId, fileOffset }

theorem ofPlacement_bytes (chunkId : Int) (segment offset : Nat) :
    legacyPackets.ofPlacement chunkId ⟨segment, offset, packet.bytes⟩ =
      packet.raw chunkId offset := by
  have header : PacketHeader.decode (packet.bytes.take kHeaderSize) = packet.readHeader := by
    have head := packet.decode_serializeHeader []
    rw [List.append_nil] at head
    have length :
        (Protocol.serializeHeader (Protocol.sentHeader packet.header packet.payload)).length =
          kHeaderSize :=
      Protocol.length_serializeHeader _
    rw [bytes, Protocol.serializePacket, List.take_left' length]
    exact head
  have payload : packet.bytes.drop kHeaderSize = packet.payload :=
    List.drop_left' (Protocol.length_serializeHeader _)
  show legacyPackets.packet chunkId offset (packet.bytes.take kHeaderSize)
    (packet.bytes.drop kHeaderSize) = _
  rw [payload, raw, ← header]
  rfl

theorem validate_raw (chunkId : Int) (fileOffset : Nat) :
    BinaryParser.validate (packet.raw chunkId fileOffset) = .ok := by
  have size := packet.payloadSize_toNat
  have header : (packet.raw chunkId fileOffset).header = packet.readHeader := rfl
  have payload : (packet.raw chunkId fileOffset).payload = packet.payload := rfl
  unfold BinaryParser.validate
  rw [header, payload, if_neg (not_not.mpr packet.readHeader_magic),
    if_neg (not_not.mpr packet.readHeader_version), if_neg packet.readHeader_small, size,
      if_neg (lt_irrefl _), List.take_length,
    if_neg (fun wrong => wrong.2 packet.checksum_eq)]

end LegacyPacket

def deliveredPackets (chunkId : Int) (bytes : Bytes) : List RawPacket :=
  scanLegacyChunk chunkId (fun pkt seen => (true, seen ++ [pkt])) bytes []

def rawPackets (chunkId : Int) (fileOffset : Nat) : List LegacyPacket → List RawPacket
  | [] => []
  | packet :: rest =>
      packet.raw chunkId fileOffset :: rawPackets chunkId (fileOffset + packet.bytes.length) rest

theorem deliveredPackets_flatten (chunkId : Int) (packets : List LegacyPacket) :
    deliveredPackets chunkId (packets.map LegacyPacket.bytes).flatten =
      rawPackets chunkId 0 packets := by
  have kept (pkts start : List RawPacket) : pkts.foldl
      (fun s p => s ++ [p]) start = start ++ pkts := by
    induction pkts generalizing start with
    | nil => simp
    | cons p pkts ih => rw [List.foldl_cons, ih, List.append_assoc, List.singleton_append]
  have records : ∀ r ∈ packets.map LegacyPacket.bytes, legacyPackets.stream.IsRecord r := by
    intro r member
    obtain ⟨packet, -, rfl⟩ := List.mem_map.mp member
    exact packet.isRecord_bytes
  have placed (fileOffset : Nat) :
      (SegmentedLog.placeFrom 0 fileOffset (packets.map LegacyPacket.bytes)).map
      (legacyPackets.ofPlacement chunkId) = rawPackets chunkId fileOffset packets := by
    clear records
    induction packets generalizing fileOffset with
    | nil => rfl
    | cons packet rest ih =>
        rw [List.map_cons, SegmentedLog.placeFrom, List.map_cons, ih,
          packet.ofPlacement_bytes, rawPackets]
  rw [deliveredPackets, scanLegacyChunk,
    PacketFormat.scanChunk_all chunkId (fun p s => s ++ [p]), kept, List.nil_append,
      PacketFormat.packets, RecordFormat.records_of_flatten records, placed]

/-- What the recorder serializes comes back, alone before any other bytes and in a chunk of such
packets. -/
theorem legacy_roundTrip :
    (∀ (packet : LegacyPacket) (trailing : Bytes),
      BinaryParser.parseFromBuffer (packet.bytes ++ trailing) =
        (34 + packet.payload.length,
          { status := .ok, header := packet.readHeader, payload := packet.payload })) ∧
    ∀ (chunkId : Int) (packets : List LegacyPacket),
      deliveredPackets chunkId (packets.map LegacyPacket.bytes).flatten =
        rawPackets chunkId 0 packets ∧
      ∀ raw ∈ rawPackets chunkId 0 packets, BinaryParser.validate raw = .ok := by
  refine ⟨fun packet trailing => packet.parseFromBuffer_bytes trailing, fun chunkId packets =>
    ⟨deliveredPackets_flatten chunkId packets, ?_⟩⟩
  have valid (fileOffset : Nat) : ∀ raw ∈ rawPackets chunkId fileOffset packets,
      BinaryParser.validate raw = .ok := by
    induction packets generalizing fileOffset with
    | nil => nofun
    | cons packet rest ih =>
        intro raw member
        rcases List.mem_cons.mp member with rfl | member
        · exact packet.validate_raw chunkId fileOffset
        · exact ih _ raw member
  exact valid 0

def samplePackets : List LegacyPacket :=
  [{ header := { type := 2, tsNs := 1000000000, seq := 41 }
     payload := [1, 2, 3]
     magic := rfl
     version := rfl
     small := by decide },
   { header := { type := 7, tsNs := 1010000000, seq := 42, statusFlags := 5 }
     payload := []
     magic := rfl
     version := rfl
     small := by decide }]

theorem samplePackets_roundTrip : (samplePackets.map LegacyPacket.bytes).flatten.length = 71 ∧
    deliveredPackets 0 (samplePackets.map LegacyPacket.bytes).flatten =
      rawPackets 0 0 samplePackets ∧
    ∀ raw ∈ rawPackets 0 0 samplePackets, BinaryParser.validate raw = .ok :=
  ⟨by decide, legacy_roundTrip.2 0 samplePackets⟩

end LocalPC.Offline
