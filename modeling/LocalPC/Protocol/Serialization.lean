import LocalPC.Protocol.Checksum

/-!
# Legacy packets

`protocol/types.hpp` and `protocol/serialization.hpp`: the header of a legacy packet, written field by
field, and the packet around it. A thrown `runtime_error` is an error with its text.
-/

namespace LocalPC.Protocol
open Lib

def kPacketMagic : UInt32 := 0x45574F48
def kProtocolVersion : UInt16 := 1
def kPayloadVersion : UInt16 := 1
def kPacketHeaderSize : Nat := 34

structure PacketHeader where
  magic : UInt32 := kPacketMagic
  protocolVersion : UInt16 := kProtocolVersion
  payloadVersion : UInt16 := kPayloadVersion
  type : UInt16 := 7
  payloadSize : UInt32 := 0
  tsNs : UInt64 := 0
  seq : UInt32 := 0
  statusFlags : UInt32 := 0
  checksum : UInt32 := 0
  deriving DecidableEq, Repr

structure Packet where
  header : PacketHeader
  payload : Bytes
  deriving DecidableEq, Repr

def serializeHeader (header : PacketHeader) : Bytes :=
  leBytes 4 header.magic.toNat ++ leBytes 2 header.protocolVersion.toNat ++
    leBytes 2 header.payloadVersion.toNat ++
  leBytes 2 header.type.toNat ++ leBytes 4 header.payloadSize.toNat ++
    leBytes 8 header.tsNs.toNat ++
  leBytes 4 header.seq.toNat ++ leBytes 4 header.statusFlags.toNat ++
    leBytes 4 header.checksum.toNat

def sentHeader (header : PacketHeader) (payload : Bytes) : PacketHeader :=
  { header with payloadSize := UInt32.ofNat payload.length, checksum := crc32 payload }

def serializePacket (header : PacketHeader) (payload : Bytes) : Bytes :=
  serializeHeader (sentHeader header payload) ++ payload

/-! ## Reading -/

def readPod (width : Nat) (data : Bytes) (offset : Nat) : Except String Nat :=
  if data.length < offset + width then .error "decode overflow" else .ok (field offset width data)

def deserializeHeader (bytes : Bytes) : Except String PacketHeader := do
  if bytes.length < kPacketHeaderSize then throw "header too small"
  let magic ← readPod 4 bytes 0
  let protocolVersion ← readPod 2 bytes 4
  let payloadVersion ← readPod 2 bytes 6
  let type ← readPod 2 bytes 8
  let payloadSize ← readPod 4 bytes 10
  let tsNs ← readPod 8 bytes 14
  let seq ← readPod 4 bytes 22
  let statusFlags ← readPod 4 bytes 26
  let checksum ← readPod 4 bytes 30
  return {
    magic := UInt32.ofNat magic
    protocolVersion := UInt16.ofNat protocolVersion
    payloadVersion := UInt16.ofNat payloadVersion
    type := UInt16.ofNat type
    payloadSize := UInt32.ofNat payloadSize
    tsNs := UInt64.ofNat tsNs
    seq := UInt32.ofNat seq
    statusFlags := UInt32.ofNat statusFlags
    checksum := UInt32.ofNat checksum }

def deserializePacket (bytes : Bytes) : Except String Packet := do
  let header ← deserializeHeader bytes
  if kPacketHeaderSize + header.payloadSize.toNat ≠ bytes.length then throw "packet size mismatch"
  return { header, payload := bytes.drop kPacketHeaderSize }

theorem length_serializeHeader (header : PacketHeader) :
    (serializeHeader header).length = kPacketHeaderSize := by
  simp [serializeHeader, kPacketHeaderSize]

theorem length_serializePacket (header : PacketHeader) (payload : Bytes) :
    (serializePacket header payload).length = kPacketHeaderSize + payload.length := by
  rw [serializePacket, List.length_append, length_serializeHeader]

theorem field_serializeHeader (header : PacketHeader) (rest : Bytes) :
    field 0 4 (serializeHeader header ++ rest) = header.magic.toNat ∧
    field 4 2 (serializeHeader header ++ rest) = header.protocolVersion.toNat ∧
    field 6 2 (serializeHeader header ++ rest) = header.payloadVersion.toNat ∧
    field 8 2 (serializeHeader header ++ rest) = header.type.toNat ∧
    field 10 4 (serializeHeader header ++ rest) = header.payloadSize.toNat ∧
    field 14 8 (serializeHeader header ++ rest) = header.tsNs.toNat ∧
    field 22 4 (serializeHeader header ++ rest) = header.seq.toNat ∧
    field 26 4 (serializeHeader header ++ rest) = header.statusFlags.toNat ∧
    field 30 4 (serializeHeader header ++ rest) = header.checksum.toNat := by
  have behind (n w k : Nat) (le : w ≤ k) : (leBytes w n).drop k = [] :=
    List.drop_of_length_le (by simpa)
  refine ⟨?_, ?_, ?_, ?_, ?_, ?_, ?_, ?_, ?_⟩
  all_goals simp [serializeHeader, field, List.drop_append, behind, leNat_leBytes]

theorem deserializePacket_serializePacket (header : PacketHeader) {payload : Bytes}
    (small : payload.length < 2 ^ 32) :
    deserializePacket (serializePacket header payload) =
      .ok { header := sentHeader header payload, payload } := by
  let sent := sentHeader header payload
  have length : (serializeHeader sent ++ payload).length = kPacketHeaderSize + payload.length :=
    length_serializePacket header payload
  have pod (width offset : Nat) (inside : offset + width ≤ kPacketHeaderSize) :
      readPod width (serializeHeader sent ++ payload) offset =
        .ok (field offset width (serializeHeader sent ++ payload)) :=
    if_neg (by omega)
  obtain ⟨magic, protocolVersion, payloadVersion, type, payloadSize, tsNs, seq,
      statusFlags, checksum⟩ :=
    field_serializeHeader sent payload
  have head : deserializeHeader (serializeHeader sent ++ payload) = .ok sent := by
    unfold deserializeHeader
    rw [if_neg (by omega)]
    simp only [pod 4 0 (by decide), pod 2 4 (by decide), pod 2 6 (by decide),
      pod 2 8 (by decide), pod 4 10 (by decide), pod 8 14 (by decide), pod 4 22 (by decide),
        pod 4 26 (by decide), pod 4 30 (by decide),
      magic, protocolVersion, payloadVersion, type, payloadSize, tsNs, seq, statusFlags, checksum]
    simp [sent, pure, Except.pure, bind, Except.bind]
  have size : sent.payloadSize.toNat = payload.length := UInt32.toNat_ofNat_of_lt' small
  show deserializePacket (serializeHeader sent ++ payload) = _
  unfold deserializePacket
  rw [head]
  simp only [bind, Except.bind]
  rw [if_neg (by omega)]
  rw [List.drop_left' (length_serializeHeader sent)]
  rfl

end LocalPC.Protocol
