import LocalPC.Runtime.ContractFrameIo

namespace LocalPC.Runtime
open Lib Contract

def byteBits (byte : UInt8) : List Bool := (List.range 8).map byte.toBitVec.getLsbD

def payloadBits (payload : Bytes) : List Bool := payload.flatMap byteBits

/-- The frame with an error pattern added to its payload. -/
def corrupt (frame errors : Bytes) : Bytes :=
  frame.take egoFrameHeaderSize ++ List.zipWith (· ^^^ ·) (frame.drop egoFrameHeaderSize) errors

theorem length_byteBits (byte : UInt8) : (byteBits byte).length = 8 := by
  simp [byteBits]

theorem word_byteBits (byte : UInt8) :
    (Crc.word (byteBits byte) : BitVec 32) = byte.toBitVec.setWidth 32 := by
  refine BitVec.eq_of_getLsbD_eq fun i inside => ?_
  rw [Crc.getLsbD_word (by rw [length_byteBits]; decide), BitVec.getLsbD_setWidth,
    List.getD_eq_getElem?_getD, byteBits, List.getElem?_map]
  by_cases small : i < 8
  · rw [List.getElem?_range small]
    simp [inside]
  · rw [List.getElem?_eq_none (by simpa using small),
      BitVec.getLsbD_of_ge byte.toBitVec i (not_lt.mp small)]
    simp

theorem crc32Byte_toBitVec (crc : UInt32) (byte : UInt8) :
    (crc32Byte crc byte).toBitVec =
      (byteBits byte).foldl (Crc.feed 0xEDB88320#32) crc.toBitVec := by
  have steps (n : Nat) (v : UInt32) : (crc32Bit^[n] v).toBitVec =
      (Crc.bitStep 0xEDB88320#32)^[n] v.toBitVec := by
    induction n generalizing v with
    | zero => rfl
    | succ n ih =>
        rw [Function.iterate_succ_apply, ih, crc32Bit_toBitVec, Function.iterate_succ_apply]
  rw [Crc.foldl_feed _ (by rw [length_byteBits]; decide), length_byteBits,
    word_byteBits, crc32Byte, steps]
  rfl

theorem foldl_crc32Byte (data : Bytes) (crc : UInt32) :
    (data.foldl crc32Byte crc).toBitVec =
      (payloadBits data).foldl (Crc.feed 0xEDB88320#32) crc.toBitVec := by
  induction data generalizing crc with
  | nil => rfl
  | cons byte data ih =>
      rw [List.foldl_cons, ih, crc32Byte_toBitVec, payloadBits, payloadBits,
        List.flatMap_cons, List.foldl_append]

theorem length_payloadBits (payload : Bytes) :
    (payloadBits payload).length = 8 * payload.length := by
  induction payload with
  | nil => rfl
  | cons byte payload ih =>
      rw [payloadBits, List.flatMap_cons, List.length_append, length_byteBits,
        ← payloadBits, ih, List.length_cons]
      omega

theorem payloadBits_xor {payload errors : Bytes} (same : errors.length = payload.length) :
    payloadBits (List.zipWith (· ^^^ ·) payload errors) = List.zipWith xor (payloadBits payload)
      (payloadBits errors) := by
  have byte (a b : UInt8) : byteBits (a ^^^ b) = List.zipWith xor (byteBits a) (byteBits b) := by
    refine List.ext_getElem (by simp [byteBits]) fun i _ _ => ?_
    simp [byteBits]
  induction payload generalizing errors with
  | nil => rfl
  | cons a payload ih =>
      cases errors with
      | nil => cases same
      | cons e errors =>
          have rest := ih (Nat.succ.inj same)
          unfold payloadBits at rest ⊢
          rw [List.zipWith_cons_cons, List.flatMap_cons, List.flatMap_cons,
            List.flatMap_cons, byte, rest,
              List.zipWith_append (by rw [length_byteBits, length_byteBits])]

theorem crc32_xor_ne {payload errors : Bytes} (same : errors.length = payload.length)
    (some_ : true ∈ payloadBits errors) {start : Nat}
    (burst : ∀ i : Nat, (payloadBits errors)[i]? = some true → start ≤ i ∧ i < start + 32) :
    crc32 (List.zipWith (· ^^^ ·) payload errors) ≠ crc32 payload := by
  intro equal
  have registers : ((List.zipWith (· ^^^ ·) payload errors).foldl crc32Byte 0xFFFFFFFF).toBitVec =
      (payload.foldl crc32Byte 0xFFFFFFFF).toBitVec :=
        congrArg UInt32.toBitVec (UInt32.not_inj.mp equal)
  have lengths : (payloadBits errors).length = (payloadBits payload).length := by
    rw [length_payloadBits, length_payloadBits, same]
  have linear := Crc.foldl_feed_xor 0xEDB88320#32 lengths (0xFFFFFFFF : UInt32).toBitVec 0#32
  rw [BitVec.xor_zero, ← payloadBits_xor same, ← foldl_crc32Byte, registers, ← foldl_crc32Byte]
    at linear
  have left := Crc.foldl_feed_burst 0xEDB88320#32 (by decide) some_ burst
  refine left ?_
  have cancelled := congrArg ((payload.foldl crc32Byte 0xFFFFFFFF).toBitVec ^^^ ·) linear
  simpa [← BitVec.xor_assoc] using cancelled.symm

/-- A frame whose payload was changed within 32 bits is rejected. -/
theorem corrupt_rejected {m : UInt32} {frame errors : Bytes} (accepted : Accepted m frame)
    (size : egoFrameHeaderSize + errors.length = frame.length)
    (some_ : true ∈ payloadBits errors) {start : Nat}
    (burst : ∀ i : Nat, (payloadBits errors)[i]? = some true → start ≤ i ∧ i < start + 32) :
    ¬ Accepted m (corrupt frame errors) := by
  intro wrong
  obtain ⟨long, -, -, -, length, payload, -⟩ := accepted_iff.mp accepted
  obtain ⟨-, -, -, -, -, payload', -⟩ := accepted_iff.mp wrong
  have headLength : (frame.take egoFrameHeaderSize).length = egoFrameHeaderSize := by
    rw [List.length_take, Nat.min_eq_left long]
  have header : EgoFrameHeader.decode (corrupt frame errors) = EgoFrameHeader.decode frame := by
    rw [corrupt, EgoFrameHeader.decode_append _ _ headLength.ge,
      EgoFrameHeader.decode_take _ _ le_rfl]
  have nonempty : 0 < (EgoFrameHeader.decode frame).payloadSize.toNat := by
    have bits := List.length_pos_of_mem some_
    rw [length_payloadBits] at bits
    omega
  have same : errors.length = (frame.drop egoFrameHeaderSize).length := by
    rw [List.length_drop]
    omega
  rw [header] at payload'
  have equal := (payload' nonempty).trans (payload nonempty).symm
  rw [corrupt, List.drop_left' headLength] at equal
  exact crc32_xor_ne same some_ burst equal

theorem corrupt_rejected_twoBits :
    ¬ Accepted 1024 (corrupt (sealFrame 1 0 0 0 [1, 2, 3]) [0, 0x80, 1]) := by
  have burst : ∀ i : Nat, (payloadBits [0, 0x80, 1])[i]? = some true → 15 ≤ i ∧ i < 15 + 32 := by
    intro i found
    have inside := (List.getElem?_eq_some_iff.mp found).1
    revert found
    revert i
    decide
  exact corrupt_rejected (sealFrame_accepted 1 0 0 0 (by decide)) (by decide) (by decide) burst

end LocalPC.Runtime
