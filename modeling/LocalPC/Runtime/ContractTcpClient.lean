import Mathlib.Data.List.TakeWhile
import LocalPC.Lib.PieceStream
import LocalPC.Runtime.ContractFrameIo

/-!
# The TCP client

`contract_tcp_client.cpp`: the receive loop of a connection that nobody stops, up to the end of what
the peer sends. It is a second decoder of the frame format, beside `ForEachContractFrame`.
-/

namespace LocalPC.Runtime
open Lib Contract PieceStream

/-- What the receive loop leaves: the state of the handler, the frame counter and `last_error_`. -/
structure Received (σ : Type*) where
  state : σ
  framesReceived : Nat
  lastError : String

/-- The rest of one turn of `ReceiveLoop`, behind the header: the frame, or the error. -/
def receivePayload (maxPayloadBytes : UInt32) (head : Bytes) (pieces : List Bytes) :
    Except String Bytes × List Bytes :=
  let header := EgoFrameHeader.decode head
  if header.magic ≠ egoFrameMagic ∨ header.headerSize.toNat ≠ egoFrameHeaderSize then
    (.error "bad frame header", pieces)
  else if maxPayloadBytes < header.payloadSize then (.error "payload too large", pieces)
  else
    -- an empty payload is read without a call of `recv`
    match readExact header.payloadSize.toNat pieces with
    | (none, left) => (.error "read payload failed", left)
    | (some payload, left) =>
        if crc32 payload ≠ header.payloadCrc32 then (.error "payload crc mismatch", left)
        else if crc32 { header with headerCrc32 := 0 }.encode ≠ header.headerCrc32 then
          (.error "header crc mismatch", left)
        else (.ok (header.encode ++ payload), left)

def receiveFrame (maxPayloadBytes : UInt32) (pieces : List Bytes) :
    Except String Bytes × List Bytes :=
  match readExact egoFrameHeaderSize pieces with
  | (none, left) => (.error "read header failed", left)
  | (some head, left) => receivePayload maxPayloadBytes head left

def Checksummed (frame : Bytes) : Prop :=
  crc32 (frame.drop egoFrameHeaderSize) = (EgoFrameHeader.decode frame).payloadCrc32

instance (frame : Bytes) : Decidable (Checksummed frame) := inferInstanceAs (Decidable (_ = _))

theorem receiveFrame_ok {m : UInt32} {pieces left : List Bytes} {frame : Bytes}
    (received : receiveFrame m pieces = (.ok frame, left)) :
    Accepted m frame ∧ Checksummed frame ∧ frame ++ left.flatten = pieces.flatten := by
  unfold receiveFrame at received
  split at received
  · cases received
  next head behind headRead =>
    obtain ⟨headSplit, headLength⟩ := readExact_some headRead
    unfold receivePayload at received
    dsimp only at received
    by_cases header : (EgoFrameHeader.decode head).magic ≠ egoFrameMagic ∨
        (EgoFrameHeader.decode head).headerSize.toNat ≠ egoFrameHeaderSize
    · rw [if_pos header] at received
      cases received
    by_cases large : m < (EgoFrameHeader.decode head).payloadSize
    · rw [if_neg header, if_pos large] at received
      cases received
    rw [if_neg header, if_neg large] at received
    cases payloadRead : readExact (EgoFrameHeader.decode head).payloadSize.toNat behind with
    | mk payload after =>
      cases payload with
      | none =>
          rw [payloadRead] at received
          cases received
      | some payload =>
      obtain ⟨payloadSplit, payloadLength⟩ := readExact_some payloadRead
      rw [payloadRead] at received
      dsimp only at received
      split at received
      · cases received
      next payloadCheck =>
      split at received
      · cases received
      next headerCheck =>
      cases received
      have whole : (EgoFrameHeader.decode head).encode = head := by
        rw [EgoFrameHeader.encode_decode head headLength.ge, ← headLength, List.take_length]
      have decoded : EgoFrameHeader.decode (head ++ payload) = EgoFrameHeader.decode head :=
        EgoFrameHeader.decode_append _ _ headLength.ge
      have behindHead : (head ++ payload).drop egoFrameHeaderSize = payload :=
        List.drop_left' headLength
      push Not at header
      rw [whole, accepted_iff, Checksummed, decoded, behindHead]
      refine ⟨⟨?_, header.1, header.2, UInt32.not_lt.mp large, ?_, fun _ => not_not.mp payloadCheck,
        not_not.mp headerCheck⟩, not_not.mp payloadCheck, ?_⟩
      · rw [List.length_append, headLength]
        exact Nat.le_add_right ..
      · rw [List.length_append, headLength, payloadLength]
      · rw [List.append_assoc, payloadSplit, headSplit]

def receiveLoop {σ : Type*} (maxPayloadBytes : UInt32)
    (handler : Bytes → σ → σ) (pieces : List Bytes) (framesReceived : Nat)
    (state : σ) : Received σ :=
  match _received : receiveFrame maxPayloadBytes pieces with
  | (.error error, _) => ⟨state, framesReceived, error⟩
  | (.ok frame, left) =>
      receiveLoop maxPayloadBytes handler left (framesReceived + 1) (handler frame state)
termination_by pieces.flatten.length
decreasing_by
  obtain ⟨accepted, -, split⟩ := receiveFrame_ok _received
  have long := accepted.long
  have length := congrArg List.length split
  rw [List.length_append] at length
  unfold egoFrameHeaderSize at long
  omega

/-! ## One frame -/

theorem Accepted.checksummed_iff {m : UInt32} {frame : Bytes} (accepted : Accepted m frame) :
    Checksummed frame ↔
      ((EgoFrameHeader.decode frame).payloadSize = 0 →
        (EgoFrameHeader.decode frame).payloadCrc32 = 0) := by
  obtain ⟨-, -, -, -, size, payload, -⟩ := accepted_iff.mp accepted
  unfold Checksummed
  by_cases empty : (EgoFrameHeader.decode frame).payloadSize = 0
  · have nothing : frame.drop egoFrameHeaderSize = [] := by
      rw [List.drop_eq_nil_iff, size, empty]
      exact le_rfl
    have zero : crc32 [] = 0 := by decide
    rw [nothing, zero]
    exact ⟨fun same _ => same.symm, fun same => (same empty).symm⟩
  · have some_ : 0 < (EgoFrameHeader.decode frame).payloadSize.toNat := by
      rw [Nat.pos_iff_ne_zero]
      exact fun zero => empty (UInt32.toNat_inj.mp zero)
    exact ⟨fun _ zero => absurd zero empty, fun _ => payload some_⟩

theorem receiveFrame_some {m : UInt32} {pieces : List Bytes} (nonempty : [] ∉ pieces) {n : Nat}
    (found : (contractFormat m).size? pieces.flatten = some n) :
    if Checksummed (pieces.flatten.take n) then
      ∃ left, receiveFrame m pieces = (.ok (pieces.flatten.take n), left) ∧
        left.flatten = pieces.flatten.drop n ∧ [] ∉ left
    else ∃ error, (receiveFrame m pieces).1 = .error error := by
  have accepted := isRecord_iff.mp (RecordFormat.IsRecord.take found)
  have bound := (contractFormat m).size_le found
  obtain ⟨long, magic, headerSize, small, size, -, check⟩ := accepted_iff.mp accepted
  have length : (pieces.flatten.take n).length =
      n := by rw [List.length_take, Nat.min_eq_left bound]
  have header : EgoFrameHeader.decode (pieces.flatten.take egoFrameHeaderSize) =
      EgoFrameHeader.decode (pieces.flatten.take n) := by
    rw [← EgoFrameHeader.decode_take (pieces.flatten.take n) _ le_rfl, List.take_take,
      Nat.min_eq_left (long.trans_eq length)]
  have headRead := readExact_spec egoFrameHeaderSize nonempty
  rw [if_pos ((long.trans_eq length).trans bound)] at headRead
  obtain ⟨behind, headRead, headLeft, others⟩ := headRead
  have payloadRead :=
    readExact_spec (EgoFrameHeader.decode (pieces.flatten.take n)).payloadSize.toNat others
  rw [headLeft, List.length_drop, if_pos (by omega)] at payloadRead
  obtain ⟨left, payloadRead, payloadLeft, rest⟩ := payloadRead
  have payload : (pieces.flatten.drop egoFrameHeaderSize).take
      (EgoFrameHeader.decode (pieces.flatten.take n)).payloadSize.toNat =
        (pieces.flatten.take n).drop egoFrameHeaderSize := by
    rw [List.drop_take]
    congr 1
    omega
  rw [payload] at payloadRead
  have turn : receiveFrame m pieces =
      if Checksummed (pieces.flatten.take n) then (.ok (pieces.flatten.take n), left)
      else (.error "payload crc mismatch", left) := by
    have joined : (EgoFrameHeader.decode (pieces.flatten.take n)).encode ++
        (pieces.flatten.take n).drop egoFrameHeaderSize = pieces.flatten.take n := by
      rw [EgoFrameHeader.encode_decode _ long, List.take_append_drop]
    unfold receiveFrame
    rw [headRead]
    dsimp only
    unfold receivePayload
    rw [header]
    dsimp only
    rw [if_neg (by simp [magic, headerSize]), if_neg (UInt32.not_lt.mpr small), payloadRead]
    dsimp only
    rw [if_neg (not_not.mpr check), joined]
    by_cases right : Checksummed (pieces.flatten.take n)
    · rw [if_pos right, if_neg (not_not.mpr (show _ = _ from right))]
    · rw [if_neg right, if_pos (show _ ≠ _ from right)]
  rw [turn]
  split
  · exact ⟨left, rfl, by rw [payloadLeft, List.drop_drop]; congr 1; omega, rest⟩
  · exact ⟨_, rfl⟩

theorem receiveFrame_none {m : UInt32} {pieces : List Bytes}
    (stop : (contractFormat m).size? pieces.flatten = none) :
    ∃ error, (receiveFrame m pieces).1 = .error error := by
  cases received : (receiveFrame m pieces).1 with
  | error error => exact ⟨error, rfl⟩
  | ok frame =>
      have result : receiveFrame m pieces = (.ok frame, (receiveFrame m pieces).2) :=
        Prod.ext received rfl
      obtain ⟨accepted, -, split⟩ := receiveFrame_ok result
      rw [← split, (isRecord_iff.mpr accepted).size_append] at stop
      cases stop

/-! ## The loop -/

section Loop
variable {σ : Type*} {m : UInt32} {handler : Bytes → σ → σ}

theorem receiveLoop_error {pieces : List Bytes} {error : String}
    (failed : (receiveFrame m pieces).1 = .error error) (framesReceived : Nat) (state : σ) :
    receiveLoop m handler pieces framesReceived state = ⟨state, framesReceived, error⟩ := by
  rw [receiveLoop]
  split
  next received =>
    rw [received] at failed
    cases failed
    rfl
  next received =>
    rw [received] at failed
    cases failed

theorem receiveLoop_frame {pieces left : List Bytes} {frame : Bytes}
    (received : receiveFrame m pieces = (.ok frame, left)) (framesReceived : Nat) (state : σ) :
    receiveLoop m handler pieces framesReceived state =
      receiveLoop m handler left (framesReceived + 1) (handler frame state) := by
  rw [receiveLoop]
  split
  next failed => cases received.symm.trans failed
  next again =>
    cases received.symm.trans again
    rfl

theorem receiveLoop_state {sent : Bytes} {pieces : List Bytes} (whole : pieces.flatten = sent)
    (nonempty : [] ∉ pieces) (framesReceived : Nat) (state : σ) :
    (receiveLoop m handler pieces framesReceived state).state =
      (((contractFormat m).records sent).takeWhile (fun frame => Checksummed frame)).foldl
        (fun state frame => handler frame state) state := by
  induction sent using RecordFormat.stream_induction
    (F := contractFormat m) generalizing pieces framesReceived state with
  | stop sent none =>
      subst whole
      obtain ⟨error, failed⟩ := receiveFrame_none none
      rw [receiveLoop_error failed, RecordFormat.records_of_none none]
      rfl
  | step sent n found ih =>
      subst whole
      have turn := receiveFrame_some nonempty found
      rw [RecordFormat.records_of_some found, List.takeWhile_cons]
      split at turn
      next right =>
        obtain ⟨left, received, rest, others⟩ := turn
        rw [receiveLoop_frame received, ih rest others]
        simp [right]
      next wrong =>
        obtain ⟨error, failed⟩ := turn
        rw [receiveLoop_error failed]
        simp [wrong]

end Loop

/-! ## Both decoders -/

/-- The frames that the client hands over, however the bytes arrive, are those of the file reader. -/
def SameFrames (m : UInt32) (sent : Bytes) : Prop :=
  ∀ arrival : Pieces sent,
    (receiveLoop m (fun frame frames => frames ++ [frame]) arrival.pieces 0 []).state =
      (forEachContractFrame m (fun frame frames => (true, frames ++ [frame])) sent []).state

theorem foldl_concat (frames seen : List Bytes) :
    frames.foldl (fun frames frame => frames ++ [frame]) seen = seen ++ frames := by
  induction frames generalizing seen with
  | nil => simp
  | cons frame frames ih => rw [List.foldl_cons, ih, List.append_assoc, List.singleton_append]

theorem sameFrames_iff_checksummed (m : UInt32) (sent : Bytes) :
    SameFrames m sent ↔ ∀ frame ∈ (contractFormat m).records sent, Checksummed frame := by
  have received (arrival : Pieces sent) :
      (receiveLoop m (fun frame frames => frames ++ [frame]) arrival.pieces 0 []).state =
        ((contractFormat m).records sent).takeWhile (fun frame => Checksummed frame) := by
    rw [receiveLoop_state arrival.whole arrival.nonempty, foldl_concat, List.nil_append]
  have scanned :
      (forEachContractFrame m (fun frame frames => (true, frames ++ [frame])) sent []).state =
      (contractFormat m).records sent := by
    rw [(forEachContractFrame_all m (fun frame frames => frames ++ [frame]) sent []).1,
      foldl_concat, List.nil_append]
  constructor
  · intro same frame member
    obtain ⟨arrival⟩ : Nonempty (Pieces sent) := Pieces.exists sent
    have equal := same arrival
    rw [received, scanned, List.takeWhile_eq_self_iff] at equal
    simpa using equal frame member
  · intro right arrival
    rw [received, scanned, List.takeWhile_eq_self_iff]
    simpa using right

/-- The frames at the head of `sent` end with one that has no payload, but a payload checksum. -/
def EmptyPayloadChecksum (m : UInt32) (sent : Bytes) : Prop :=
  ∃ frames frame rest, sent = List.flatten frames ++ frame ++ rest ∧
    (∀ f ∈ frames, Accepted m f) ∧ Accepted m frame ∧
    (EgoFrameHeader.decode frame).payloadSize = 0 ∧ (EgoFrameHeader.decode frame).payloadCrc32 ≠ 0

theorem not_sameFrames {m : UInt32} {sent : Bytes} (odd : EmptyPayloadChecksum m sent) :
    ¬ SameFrames m sent := by
  obtain ⟨frames, frame, rest, rfl, earlier, accepted, empty, checksum⟩ := odd
  intro same
  have right := (sameFrames_iff_checksummed m _).mp same
  have listed : frame ∈ (contractFormat m).records (frames.flatten ++ frame ++ rest) := by
    rw [List.append_assoc, RecordFormat.records_append fun f member =>
      isRecord_iff.mpr (earlier f member), RecordFormat.records_cons (isRecord_iff.mpr accepted)]
    simp
  exact checksum (accepted.checksummed_iff.mp (right frame listed) empty)

/-- The two decoders agree unless there is such a frame. -/
theorem sameFrames_iff (m : UInt32) (sent : Bytes) :
    SameFrames m sent ↔ ¬ EmptyPayloadChecksum m sent := by
  constructor
  · exact fun same odd => not_sameFrames odd same
  · intro none
    rw [sameFrames_iff_checksummed]
    intro frame member
    have accepted (f : Bytes) (listed : f ∈ (contractFormat m).records sent) : Accepted m f :=
      isRecord_iff.mp (RecordFormat.isRecord_of_mem_records sent f listed)
    refine (accepted frame member).checksummed_iff.mpr fun empty => ?_
    by_contra checksum
    obtain ⟨before, after, split⟩ := List.append_of_mem member
    refine none ⟨before, frame,
      after.flatten ++ (contractFormat m).remainder sent, ?_, fun f listed => ?_,
        accepted frame member, empty, checksum⟩
    · have whole := RecordFormat.records_flatten (F := contractFormat m) sent
      rw [split] at whole
      simpa using whole.symm
    · exact accepted f (by rw [split]; exact List.mem_append_left _ listed)

/-- A frame without payload whose header says that the payload's checksum is 1. -/
def oddFrame : Bytes :=
  let header := makeFrameHeader frameSessionStarted flagPayloadBinary 0 0 1 10 11 0 1
  { header with headerCrc32 := crc32 header.encode }.encode

theorem oddFrame_accepted : Accepted 65536 oddFrame := by
  rw [← List.append_nil oddFrame, oddFrame, accepted_iff, EgoFrameHeader.decode_encode]
  exact ⟨by simp, rfl, rfl, by decide, by simp [makeFrameHeader],
    fun nonempty => absurd nonempty (by decide), rfl⟩

theorem oddFrame_lost : ¬ SameFrames 65536 oddFrame := by
  have decoded : (EgoFrameHeader.decode oddFrame).payloadSize = 0 ∧
      (EgoFrameHeader.decode oddFrame).payloadCrc32 = 1 := by
    rw [← List.append_nil oddFrame, oddFrame, EgoFrameHeader.decode_encode]
    exact ⟨rfl, rfl⟩
  refine not_sameFrames ⟨[], oddFrame, [], by simp, by simp, oddFrame_accepted, decoded.1, ?_⟩
  rw [decoded.2]
  decide

end LocalPC.Runtime
