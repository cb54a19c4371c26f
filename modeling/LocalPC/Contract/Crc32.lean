import LocalPC.Lib.Crc
import LocalPC.Lib.LittleEndian

namespace LocalPC.Contract
open Lib

/-- One bit of `ego_contract::Crc32`: the polynomial is masked in when the low bit is set. -/
def crc32Bit (crc : UInt32) : UInt32 :=
  let mask := 0 - (crc &&& 1)
  (crc >>> 1) ^^^ (0xEDB88320 &&& mask)

def crc32Byte (crc : UInt32) (byte : UInt8) : UInt32 :=
  crc32Bit^[8] (crc ^^^ byte.toUInt32)

def crc32 (data : Bytes) : UInt32 :=
  ~~~(data.foldl crc32Byte 0xFFFFFFFF)

-- The check value of CRC-32: the digits "123456789".
example : crc32 [49, 50, 51, 52, 53, 54, 55, 56, 57] = 0xCBF43926 := by decide +kernel

theorem crc32Bit_toBitVec (v : UInt32) :
    (crc32Bit v).toBitVec = Crc.bitStep 0xEDB88320#32 v.toBitVec := by
  have low := Crc.low_bit v
  unfold crc32Bit Crc.bitStep
  cases bit : v.toBitVec.getLsbD 0 with
  | true =>
      rw [bit] at low
      have odd : v &&& 1 = 1 := UInt32.toBitVec_inj.mp low
      rw [odd, if_pos rfl]
      exact BitVec.xor_comm ..
  | false =>
      rw [bit] at low
      have even : v &&& 1 = 0 := UInt32.toBitVec_inj.mp low
      rw [even, if_neg Bool.false_ne_true]
      exact BitVec.xor_zero

end LocalPC.Contract
