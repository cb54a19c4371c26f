import LocalPC.Lib.Crc
import LocalPC.Contract.Crc32
import LocalPC.Protocol.Checksum

namespace LocalPC.Offline
open Lib Contract

def crc32TableBit (v : UInt32) : UInt32 :=
  if (v &&& 1) ≠ 0 then (0xEDB88320 : UInt32) ^^^ (v >>> 1) else v >>> 1

def crc32Table (i : UInt32) : UInt32 := crc32TableBit^[8] i

def crc32Tbl : List UInt32 := (List.range 256).map fun i => crc32Table (UInt32.ofNat i)

def crc32Step (val : UInt32) (byte : UInt8) : UInt32 :=
  crc32Table ((val ^^^ byte.toUInt32) &&& 0xFF) ^^^ (val >>> 8)

def crc32 (data : Bytes) : UInt32 := data.foldl crc32Step 0xFFFFFFFF ^^^ 0xFFFFFFFF

theorem crc32TableBit_toBitVec (v : UInt32) :
    (crc32TableBit v).toBitVec = Crc.bitStep 0xEDB88320#32 v.toBitVec := by
  have low := Crc.low_bit v
  unfold crc32TableBit Crc.bitStep
  cases bit : v.toBitVec.getLsbD 0 with
  | true =>
      rw [bit] at low
      have odd : v &&& 1 ≠ 0 :=
        fun even => absurd (low.symm.trans (congrArg UInt32.toBitVec even)) (by decide)
      rw [if_pos odd, if_pos rfl]
      rfl
  | false =>
      rw [bit] at low
      have even : v &&& 1 = 0 := UInt32.toBitVec_inj.mp low
      rw [if_neg (not_not.mpr even), if_neg Bool.false_ne_true]
      rfl

theorem crc32Bit_eq (v : UInt32) : crc32Bit v = crc32TableBit v :=
  UInt32.toBitVec_inj.mp ((crc32Bit_toBitVec v).trans (crc32TableBit_toBitVec v).symm)

theorem protocolBit_eq (v : UInt32) : Protocol.crc32Bit v = crc32TableBit v :=
  UInt32.toBitVec_inj.mp ((Protocol.crc32Bit_toBitVec v).trans (crc32TableBit_toBitVec v).symm)

theorem iterate_toBitVec (n : Nat) (v : UInt32) :
    (crc32TableBit^[n] v).toBitVec = (Crc.bitStep 0xEDB88320#32)^[n] v.toBitVec := by
  induction n generalizing v with
  | zero => rfl
  | succ n ih =>
      rw [Function.iterate_succ_apply, ih, crc32TableBit_toBitVec, Function.iterate_succ_apply]

theorem crc32Byte_eq (val : UInt32) (byte : UInt8) : crc32Byte val byte = crc32Step val byte := by
  have step : crc32Bit = crc32TableBit := funext crc32Bit_eq
  unfold crc32Byte crc32Step crc32Table
  rw [step]
  apply UInt32.toBitVec_inj.mp
  show (crc32TableBit^[8] (val ^^^ byte.toUInt32)).toBitVec =
    (crc32TableBit^[8] ((val ^^^ byte.toUInt32) &&& 0xFF)).toBitVec ^^^ (val.toBitVec >>> 8)
  rw [iterate_toBitVec, iterate_toBitVec]
  have mask : ∀ i, (255#32).getLsbD i = decide (i < 8) := by
    intro i
    by_cases inside : i < 32
    · revert i
      decide
    · rw [BitVec.getLsbD_of_ge _ _ (not_lt.mp inside), decide_eq_false (by omega)]
  have shifted : (val ^^^ byte.toUInt32).toBitVec >>> 8 = val.toBitVec >>> 8 := by
    show (val.toBitVec ^^^ byte.toBitVec.setWidth 32) >>> 8 = _
    apply BitVec.eq_of_getLsbD_eq
    intro i _
    rw [BitVec.getLsbD_ushiftRight, BitVec.getLsbD_ushiftRight, BitVec.getLsbD_xor,
      BitVec.getLsbD_setWidth, BitVec.getLsbD_of_ge byte.toBitVec _ (Nat.le_add_right 8 i),
        Bool.and_false, Bool.xor_false]
  rw [← shifted]
  refine Crc.iterate_split _ 8 _ _ ?_ ?_
  · intro i small
    show (_ &&& 255#32).getLsbD i = _
    rw [BitVec.getLsbD_and, mask, decide_eq_true small, Bool.and_true]
  · intro i big
    show (_ &&& 255#32).getLsbD i = _
    rw [BitVec.getLsbD_and, mask, decide_eq_false (by omega), Bool.and_false]

theorem crc32_eq (data : Bytes) : crc32 data = Contract.crc32 data := by
  have step : crc32Byte = crc32Step := funext fun val => funext fun byte => crc32Byte_eq val byte
  have flip (x : UInt32) : x ^^^ 0xFFFFFFFF = ~~~x := by
    exact UInt32.xor_neg_one
  unfold crc32 Contract.crc32
  rw [step]
  exact flip _

theorem protocolCrc32_eq (data : Bytes) : Protocol.crc32 data = Contract.crc32 data := by
  have bit : Protocol.crc32Bit = crc32Bit :=
    funext fun v => (protocolBit_eq v).trans (crc32Bit_eq v).symm
  have byte : Protocol.crc32Byte = crc32Byte := by
    funext crc byte
    rw [Protocol.crc32Byte, bit, crc32Byte]
  rw [Protocol.crc32, byte, Contract.crc32]

/-- The three programs compute one function. -/
theorem crc32_same (data : Bytes) :
    Contract.crc32 data = Protocol.crc32 data ∧ crc32 data = Protocol.crc32 data ∧
    ∀ i : Fin 256, crc32Tbl[i.val]? = some (Protocol.crc32Bit^[8] (UInt32.ofNat i)) ∧
      crc32Tbl[i.val]? = some (Contract.crc32Bit^[8] (UInt32.ofNat i)) := by
  have branching : Protocol.crc32Bit = crc32TableBit := funext protocolBit_eq
  have masked : Contract.crc32Bit = crc32TableBit := funext crc32Bit_eq
  refine ⟨(protocolCrc32_eq data).symm,
    (crc32_eq data).trans (protocolCrc32_eq data).symm, fun i => ?_⟩
  rw [branching, masked, crc32Tbl, List.getElem?_map, List.getElem?_range i.isLt, Option.map_some]
  exact ⟨rfl, rfl⟩

end LocalPC.Offline
