import Mathlib.Data.List.Basic
import LocalPC.Contract.Crc32

namespace LocalPC.Contract
open Lib

def egoFrameMagic : UInt32 := 0x314F4745
def egoFrameHeaderSize : Nat := 72

structure EgoFrameHeader where
  magic : UInt32
  protocolVer : UInt16
  headerSize : UInt16
  frameType : UInt32
  flags : UInt32
  sessionIdHi : UInt64
  sessionIdLo : UInt64
  seq : UInt64
  t0Ns : UInt64
  t1Ns : UInt64
  payloadSize : UInt32
  payloadCrc32 : UInt32
  headerCrc32 : UInt32
  reserved0 : UInt32
  deriving DecidableEq, Repr, Inhabited

def egoProtocolVersion : UInt16 := 2

def flagPayloadBinary : UInt32 := 2

def makeFrameHeader (frameType flags : UInt32) (sessionIdHi sessionIdLo seq t0Ns t1Ns : UInt64)
    (payloadSize payloadCrc32 : UInt32) : EgoFrameHeader where
  magic := egoFrameMagic
  protocolVer := egoProtocolVersion
  headerSize := 72
  frameType := frameType
  flags := flags
  sessionIdHi := sessionIdHi
  sessionIdLo := sessionIdLo
  seq := seq
  t0Ns := t0Ns
  t1Ns := t1Ns
  payloadSize := payloadSize
  payloadCrc32 := payloadCrc32
  headerCrc32 := 0
  reserved0 := 0

def frameSessionStarted : UInt32 := 1
def frameSessionEnded : UInt32 := 900

namespace EgoFrameHeader

/-- `memcpy(&header, bytes, sizeof(header))` into a zero-initialised header. -/
def decode (bytes : Bytes) : EgoFrameHeader where
  magic := u32At 0 bytes
  protocolVer := u16At 4 bytes
  headerSize := u16At 6 bytes
  frameType := u32At 8 bytes
  flags := u32At 12 bytes
  sessionIdHi := u64At 16 bytes
  sessionIdLo := u64At 24 bytes
  seq := u64At 32 bytes
  t0Ns := u64At 40 bytes
  t1Ns := u64At 48 bytes
  payloadSize := u32At 56 bytes
  payloadCrc32 := u32At 60 bytes
  headerCrc32 := u32At 64 bytes
  reserved0 := u32At 68 bytes

def encode (h : EgoFrameHeader) : Bytes :=
  leBytes 4 h.magic.toNat ++ leBytes 2 h.protocolVer.toNat ++ leBytes 2 h.headerSize.toNat ++
  leBytes 4 h.frameType.toNat ++ leBytes 4 h.flags.toNat ++
  leBytes 8 h.sessionIdHi.toNat ++ leBytes 8 h.sessionIdLo.toNat ++
  leBytes 8 h.seq.toNat ++ leBytes 8 h.t0Ns.toNat ++ leBytes 8 h.t1Ns.toNat ++
  leBytes 4 h.payloadSize.toNat ++ leBytes 4 h.payloadCrc32.toNat ++
  leBytes 4 h.headerCrc32.toNat ++ leBytes 4 h.reserved0.toNat

@[simp] theorem encode_length (h : EgoFrameHeader) : h.encode.length = egoFrameHeaderSize := by
  simp [encode, egoFrameHeaderSize]

theorem encode_decode (bytes : Bytes) (fits : egoFrameHeaderSize ≤ bytes.length) :
    (decode bytes).encode = bytes.take egoFrameHeaderSize := by
  unfold egoFrameHeaderSize at *
  have split (i n : Nat) : bytes.take i ++ (bytes.drop i).take n = bytes.take (i + n) :=
    List.take_add.symm
  have start : bytes.take 4 = (bytes.drop 0).take 4 := by simp
  simp only [encode, decode]
  rw [leBytes_u32At 0 _ (by omega), leBytes_u16At 4 _ (by omega), leBytes_u16At 6 _ (by omega),
    leBytes_u32At 8 _ (by omega), leBytes_u32At 12 _ (by omega), leBytes_u64At 16 _ (by omega),
    leBytes_u64At 24 _ (by omega), leBytes_u64At 32 _ (by omega), leBytes_u64At 40 _ (by omega),
    leBytes_u64At 48 _ (by omega), leBytes_u32At 56 _ (by omega), leBytes_u32At 60 _ (by omega),
    leBytes_u32At 64 _ (by omega), leBytes_u32At 68 _ (by omega), ← start]
  simp only [split]

theorem decode_encode (h : EgoFrameHeader) (rest : Bytes) : decode (h.encode ++ rest) = h := by
  have behind (n w k : Nat) (le : w ≤ k) : (leBytes w n).drop k = [] :=
    List.drop_of_length_le (by simpa)
  cases h
  simp only [decode, encode, u16At, u32At, u64At, field]
  simp [List.drop_append, behind, ofNat_leNat_leBytes_u16, ofNat_leNat_leBytes_u32,
    ofNat_leNat_leBytes_u64]

theorem decode_take (bytes : Bytes) (size : Nat) (fits : egoFrameHeaderSize ≤ size) :
    decode (bytes.take size) = decode bytes := by
  unfold egoFrameHeaderSize at fits
  have inside (offset width : Nat) (le : offset + width ≤ 72) :
      field offset width (bytes.take size) = field offset width bytes :=
    field_take _ _ _ _ (le.trans fits)
  simp [decode, u16At, u32At, u64At, inside]

theorem decode_append (front back : Bytes) (fits : egoFrameHeaderSize ≤ front.length) :
    decode (front ++ back) = decode front := by
  have front_eq : front = (front ++ back).take front.length := by simp
  rw [← decode_take (front ++ back) front.length fits, ← front_eq]

end EgoFrameHeader
end LocalPC.Contract
