import LocalPC.Protocol.Serialization

namespace LocalPC.Protocol
open Lib

def isKnownPacketType (type : UInt16) : Bool := decide (1 ≤ type) && decide (type ≤ 8)

structure ValidationResult where
  accepted : Bool := false
  reason : String := "unknown"
  deriving DecidableEq, Repr

def validatePacketVerbose (header : PacketHeader) (payload : Bytes)
    (maxPayloadBytes : UInt32 := 8192) :
    ValidationResult :=
  if header.magic ≠ kPacketMagic then { accepted := false, reason := "invalid magic" }
  else if header.protocolVersion ≠ kProtocolVersion then
    { accepted := false, reason := "unsupported protocol_version" }
  else if header.payloadVersion ≠ kPayloadVersion then
    { accepted := false, reason := "unsupported payload_version" }
  else if ¬ isKnownPacketType header.type then
    { accepted := false, reason := "unknown packet type" }
  else if maxPayloadBytes < header.payloadSize then
    { accepted := false, reason := "payload_size exceeds limit" }
  else if header.payloadSize.toNat ≠ payload.length then
    { accepted := false, reason := "payload_size mismatch" }
  else if header.checksum ≠ crc32 payload then { accepted := false, reason := "checksum mismatch" }
  else { accepted := true, reason := "ok" }

theorem validatePacketVerbose_accepted_iff (header : PacketHeader) (payload : Bytes)
    (maxPayloadBytes : UInt32) :
    (validatePacketVerbose header payload maxPayloadBytes).accepted = true ↔
      header.magic = kPacketMagic ∧ header.protocolVersion = kProtocolVersion ∧
        header.payloadVersion = kPayloadVersion ∧ isKnownPacketType header.type = true ∧
          header.payloadSize ≤ maxPayloadBytes ∧ header.payloadSize.toNat = payload.length ∧
            header.checksum = crc32 payload := by
  have limit : header.payloadSize ≤ maxPayloadBytes ↔ ¬ maxPayloadBytes < header.payloadSize :=
    UInt32.not_lt.symm
  rw [limit]
  unfold validatePacketVerbose
  repeat' split
  all_goals simp_all

theorem validatePacketVerbose_sent {header : PacketHeader} {payload : Bytes}
    {maxPayloadBytes : UInt32} (magic : header.magic = kPacketMagic)
    (protocolVersion : header.protocolVersion = kProtocolVersion)
    (payloadVersion : header.payloadVersion = kPayloadVersion)
    (known : isKnownPacketType header.type = true)
    (small : payload.length ≤ maxPayloadBytes.toNat) :
    (validatePacketVerbose (sentHeader header payload) payload maxPayloadBytes).accepted =
      true := by
  have word := maxPayloadBytes.toNat_lt
  have size : (sentHeader header payload).payloadSize.toNat = payload.length :=
    UInt32.toNat_ofNat_of_lt' (lt_of_le_of_lt small word)
  have inside : (sentHeader header payload).payloadSize ≤ maxPayloadBytes := by
    rw [UInt32.le_iff_toNat_le, size]
    exact small
  exact (validatePacketVerbose_accepted_iff ..).mpr
    ⟨magic, protocolVersion, payloadVersion, known, inside, size, rfl⟩

end LocalPC.Protocol
