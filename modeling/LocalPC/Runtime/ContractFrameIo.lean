import LocalPC.Lib.Framing
import LocalPC.Contract.FrameHeader

/-!
# Reading contract frames

`contract_frame_io.cpp`: the frame parser, the frame validator and the loop over a byte string.
A position in the input is modelled by the bytes from there on.
-/

namespace LocalPC.Runtime
open Lib Contract

def parseFrameAt (maxPayload : UInt32) (rest : Bytes) : Except (Option String) Bytes :=
  if rest.length < egoFrameHeaderSize then
    if rest = [] then .error none else .error (some "truncated frame header")
  else
    let header := EgoFrameHeader.decode rest
    if header.magic ≠ egoFrameMagic ∨ header.headerSize.toNat ≠ egoFrameHeaderSize then
      .error (some "bad frame magic or header_size")
    else if maxPayload < header.payloadSize then
      .error (some "payload too large")
    else
      let frameSize := egoFrameHeaderSize + header.payloadSize.toNat
      if rest.length < frameSize then .error (some "truncated frame payload")
      else .ok (rest.take frameSize)

def validateContractFrame (frameBytes : Bytes) (maxPayloadBytes : UInt32) : Except String Unit :=
  if frameBytes.length < egoFrameHeaderSize then .error "frame too short"
  else
    let header := EgoFrameHeader.decode frameBytes
    if header.magic ≠ egoFrameMagic ∨ header.headerSize.toNat ≠ egoFrameHeaderSize then
      .error "bad header"
    else if maxPayloadBytes < header.payloadSize then .error "payload too large"
    else if frameBytes.length ≠ egoFrameHeaderSize + header.payloadSize.toNat then
      .error "frame size mismatch"
    else if 0 < header.payloadSize.toNat ∧
        crc32 (frameBytes.drop egoFrameHeaderSize) ≠ header.payloadCrc32 then
      .error "payload crc mismatch"
    else if crc32 { header with headerCrc32 := 0 }.encode ≠ header.headerCrc32 then
      .error "header crc mismatch"
    else .ok ()

def Accepted (maxPayloadBytes : UInt32) (frame : Bytes) : Prop :=
  validateContractFrame frame maxPayloadBytes = .ok ()

/-- A frame that carries the proof of its own acceptance. -/
structure ContractFrame (maxPayloadBytes : UInt32) where
  bytes : Bytes
  accepted : Accepted maxPayloadBytes bytes

def ContractFrame.header {m : UInt32} (frame : ContractFrame m) : EgoFrameHeader :=
  EgoFrameHeader.decode frame.bytes

structure FrameScan (σ : Type*) where
  ok : Bool
  error : Option String
  state : σ

theorem parseFrameAt_ok {m : UInt32} {rest frame : Bytes}
    (parsed : parseFrameAt m rest = .ok frame) :
    egoFrameHeaderSize ≤ rest.length ∧
    (EgoFrameHeader.decode rest).magic = egoFrameMagic ∧
    (EgoFrameHeader.decode rest).headerSize.toNat = egoFrameHeaderSize ∧
    (EgoFrameHeader.decode rest).payloadSize ≤ m ∧
    egoFrameHeaderSize + (EgoFrameHeader.decode rest).payloadSize.toNat ≤ rest.length ∧
    frame = rest.take (egoFrameHeaderSize + (EgoFrameHeader.decode rest).payloadSize.toNat) := by
  unfold parseFrameAt at parsed
  split at parsed
  · split at parsed <;> cases parsed
  · rename_i long
    dsimp only at parsed
    split_ifs at parsed with header large short
    push Not at header
    exact ⟨by omega, header.1, header.2, UInt32.not_lt.mp large, by omega,
      (Except.ok.inj parsed).symm⟩

theorem parseFrameAt_length {m : UInt32} {rest frame : Bytes}
    (parsed : parseFrameAt m rest = .ok frame) :
    frame.length = egoFrameHeaderSize + (EgoFrameHeader.decode rest).payloadSize.toNat := by
  obtain ⟨-, -, -, -, fits, rfl⟩ := parseFrameAt_ok parsed
  simpa using fits

def forEachContractFrame {σ : Type*} (maxPayloadBytes : UInt32) (handler : Bytes → σ → Bool × σ)
    (bytes : Bytes) (state : σ) : FrameScan σ :=
  if bytes = [] then ⟨true, none, state⟩
  else
    match _parsed : parseFrameAt maxPayloadBytes bytes with
    | .error error => ⟨bytes.isEmpty, error, state⟩
    | .ok frame =>
        match validateContractFrame frame maxPayloadBytes with
        | .error error => ⟨false, some error, state⟩
        | .ok () =>
            match handler frame state with
            | (false, state) => ⟨false, none, state⟩
            | (true, state) =>
                forEachContractFrame maxPayloadBytes handler (bytes.drop frame.length) state
termination_by bytes.length
decreasing_by
  have size := parseFrameAt_length _parsed
  have long := (parseFrameAt_ok _parsed).1
  unfold egoFrameHeaderSize at size long
  simp only [List.length_drop]
  omega

def countContractFramesInBytes (bytes : Bytes) (maxPayloadBytes : UInt32) : Nat :=
  (forEachContractFrame maxPayloadBytes (fun _ count => (true, count + 1)) bytes 0).state

/-! ## The frame format -/

theorem accepted_iff {m : UInt32} {frame : Bytes} :
    Accepted m frame ↔
      egoFrameHeaderSize ≤ frame.length ∧
      (EgoFrameHeader.decode frame).magic = egoFrameMagic ∧
      (EgoFrameHeader.decode frame).headerSize.toNat = egoFrameHeaderSize ∧
      (EgoFrameHeader.decode frame).payloadSize ≤ m ∧
      frame.length = egoFrameHeaderSize + (EgoFrameHeader.decode frame).payloadSize.toNat ∧
      (0 < (EgoFrameHeader.decode frame).payloadSize.toNat →
        crc32 (frame.drop egoFrameHeaderSize) = (EgoFrameHeader.decode frame).payloadCrc32) ∧
      crc32 { EgoFrameHeader.decode frame with headerCrc32 := 0 }.encode =
        (EgoFrameHeader.decode frame).headerCrc32 := by
  unfold Accepted validateContractFrame
  dsimp only
  constructor
  · intro accepted
    split_ifs at accepted with short header large size payload check
    push Not at header
    exact ⟨by omega, header.1, header.2, UInt32.not_lt.mp large, not_not.mp size,
      not_and_not_right.mp payload, not_not.mp check⟩
  · rintro ⟨long, magic, headerSize, small, size, payload, check⟩
    rw [if_neg (by omega), if_neg (by simp [magic, headerSize]), if_neg (UInt32.not_lt.mpr small),
      if_neg (not_not.mpr size), if_neg (not_and_not_right.mpr payload), if_neg (not_not.mpr check)]

theorem Accepted.parse {m : UInt32} {frame : Bytes} (accepted : Accepted m frame) (rest : Bytes) :
    parseFrameAt m (frame ++ rest) = .ok frame := by
  obtain ⟨long, magic, headerSize, small, size, -, -⟩ := accepted_iff.mp accepted
  unfold parseFrameAt
  rw [if_neg (by simp only [List.length_append]; omega), EgoFrameHeader.decode_append _ _ long]
  dsimp only
  rw [if_neg (by simp [magic, headerSize]), if_neg (UInt32.not_lt.mpr small),
    if_neg (by simp only [List.length_append]; omega), ← size, List.take_left]

theorem Accepted.long {m : UInt32} {frame : Bytes} (accepted : Accepted m frame) :
    egoFrameHeaderSize ≤ frame.length := (accepted_iff.mp accepted).1

/-- A sender's frame: the header of `make_frame_header` with both checksums, and the payload. -/
def sealFrame (frameType : UInt32) (seq t0Ns t1Ns : UInt64) (payload : Bytes) : Bytes :=
  let payloadCrc := if payload = [] then 0 else crc32 payload
  let header := makeFrameHeader frameType flagPayloadBinary 0 0 seq t0Ns t1Ns
    (UInt32.ofNat payload.length) payloadCrc
  { header with headerCrc32 := crc32 header.encode }.encode ++ payload

theorem sealFrame_accepted {m : UInt32} (frameType : UInt32)
    (seq t0Ns t1Ns : UInt64) {payload : Bytes} (small : payload.length ≤ m.toNat) :
    Accepted m (sealFrame frameType seq t0Ns t1Ns payload) := by
  have bound := m.toNat_lt
  have size : (UInt32.ofNat payload.length).toNat = payload.length := by
    rw [UInt32.toNat_ofNat']
    omega
  rw [accepted_iff, sealFrame, EgoFrameHeader.decode_encode]
  refine ⟨by simp, rfl, rfl, ?_, ?_, fun nonempty => ?_, rfl⟩
  · rw [UInt32.le_iff_toNat_le]
    exact size.trans_le small
  · simp [makeFrameHeader, size]
  · have payload_ne : payload ≠ [] := by
      rintro rfl
      exact absurd nonempty (lt_irrefl 0)
    rw [List.drop_left' (EgoFrameHeader.encode_length _)]
    simp [makeFrameHeader, payload_ne]

def contractFormat (m : UInt32) : RecordFormat UInt8 where
  size? b :=
    match parseFrameAt m b with
    | .error _ => none
    | .ok frame =>
        match validateContractFrame frame m with
        | .error _ => none
        | .ok () => some frame.length
  size_pos := by
    intro b n found
    split at found
    · cases found
    · rename_i frame parsed
      split at found
      · cases found
      · have size := parseFrameAt_length parsed
        unfold egoFrameHeaderSize at size
        cases found
        omega
  size_le := by
    intro b n found
    split at found
    · cases found
    · rename_i frame parsed
      split at found
      · cases found
      · cases found
        obtain ⟨-, -, -, -, fits, rfl⟩ := parseFrameAt_ok parsed
        simp
  size_stable := by
    intro b n found rest
    split at found
    · cases found
    · rename_i frame parsed
      split at found
      · cases found
      · rename_i valid
        cases found
        have prefixed : b.take frame.length = frame := by
          have size := parseFrameAt_length parsed
          obtain ⟨-, -, -, -, -, frame_eq⟩ := parseFrameAt_ok parsed
          rw [size, ← frame_eq]
        rw [prefixed, Accepted.parse valid]
        dsimp only
        rw [valid]

theorem isRecord_iff {m : UInt32} {frame : Bytes} :
    (contractFormat m).IsRecord frame ↔ Accepted m frame := by
  constructor
  · intro record
    unfold RecordFormat.IsRecord contractFormat at record
    dsimp only at record
    split at record
    · cases record
    · rename_i parsedFrame parsed
      split at record
      · cases record
      · rename_i valid
        have same : parsedFrame = frame := by
          have size := Option.some.inj record
          obtain ⟨-, -, -, -, -, frame_eq⟩ := parseFrameAt_ok parsed
          have lengths := parseFrameAt_length parsed
          rw [frame_eq, ← lengths, size, List.take_length]
        rwa [← same]
  · intro accepted
    have parsed := accepted.parse []
    rw [List.append_nil] at parsed
    unfold RecordFormat.IsRecord contractFormat
    simp only [parsed]
    rw [show validateContractFrame frame m = .ok () from accepted]

/-! ## The loop -/

section Loop
variable {σ : Type*} (m : UInt32) (handler : Bytes → σ → Bool × σ)

theorem forEachContractFrame_nil (state : σ) :
    forEachContractFrame m handler [] state = ⟨true, none, state⟩ := by
  rw [forEachContractFrame, if_pos rfl]

theorem forEachContractFrame_stop {bytes : Bytes} (rest : bytes ≠ [])
    (none : (contractFormat m).size? bytes = none) (state : σ) :
    (forEachContractFrame m handler bytes state).ok = false ∧
      (forEachContractFrame m handler bytes state).state = state := by
  rw [forEachContractFrame, if_neg rest]
  unfold contractFormat at none
  dsimp only at none
  split at none
  · rename_i error parsed
    split
    · simp [rest]
    · simp_all
  · rename_i frame parsed
    split
    · simp_all
    · rename_i frame' parsed'
      cases parsed.symm.trans parsed'
      split at none
      · rename_i error invalid
        simp
      · cases none

theorem forEachContractFrame_step {bytes : Bytes} {n : Nat}
    (found : (contractFormat m).size? bytes = some n) (state : σ) :
    forEachContractFrame m handler bytes state =
      if (handler (bytes.take n) state).1 then
        forEachContractFrame m handler (bytes.drop n) (handler (bytes.take n) state).2
      else ⟨false, none, (handler (bytes.take n) state).2⟩ := by
  have rest : bytes ≠ [] := by
    rintro rfl
    simp at found
  rw [forEachContractFrame, if_neg rest]
  unfold contractFormat at found
  dsimp only at found
  split at found
  · cases found
  · rename_i frame parsed
    split at found
    · cases found
    · rename_i valid
      cases found
      have frame_eq : bytes.take frame.length = frame := by
        have size := parseFrameAt_length parsed
        obtain ⟨-, -, -, -, -, frame_eq⟩ := parseFrameAt_ok parsed
        rw [size, ← frame_eq]
      rw [frame_eq]
      split
      · simp_all
      · rename_i frame' parsed'
        cases parsed.symm.trans parsed'
        rw [valid]
        dsimp only
        rcases result : handler frame state with ⟨go, after⟩
        cases go <;> simp

theorem forEachContractFrame_all (step : Bytes → σ → σ) (bytes : Bytes) (state : σ) :
    (forEachContractFrame m (fun frame s => (true, step frame s)) bytes state).state =
        ((contractFormat m).records bytes).foldl (fun s frame => step frame s) state ∧
    ((forEachContractFrame m (fun frame s => (true, step frame s)) bytes state).ok = true ↔
        (contractFormat m).Whole bytes) := by
  induction bytes using RecordFormat.stream_induction
    (F := contractFormat m) generalizing state with
  | stop bytes none =>
      unfold RecordFormat.Whole
      rw [RecordFormat.records_of_none none, RecordFormat.remainder_of_none none]
      by_cases empty : bytes = []
      · subst empty
        simp [forEachContractFrame_nil]
      · have stop :=
          forEachContractFrame_stop m (fun frame s => (true, step frame s)) empty none state
        simp [stop.1, stop.2, empty]
  | step bytes n found ih =>
      unfold RecordFormat.Whole at ih ⊢
      rw [RecordFormat.records_of_some found, RecordFormat.remainder_of_some found,
        forEachContractFrame_step m _ found state]
      exact ih _

end Loop

/-- The loop with a handler that keeps every frame. -/
def deliveredFrames (m : UInt32) (bytes : Bytes) : FrameScan (List Bytes) :=
  forEachContractFrame m (fun frame frames => (true, frames ++ [frame])) bytes []

theorem deliveredFrames_state (m : UInt32) (bytes : Bytes) :
    (deliveredFrames m bytes).state = (contractFormat m).records bytes := by
  have kept (frames start : List Bytes) : frames.foldl
      (fun s frame => s ++ [frame]) start = start ++ frames := by
    induction frames generalizing start with
    | nil => simp
    | cons frame frames ih => rw [List.foldl_cons, ih, List.append_assoc, List.singleton_append]
  rw [deliveredFrames,
    (forEachContractFrame_all m (fun frame frames => frames ++ [frame]) bytes []).1, kept,
      List.nil_append]

/-- The delivered frames are the longest sequence of accepted frames at the head of the input. -/
theorem deliveredFrames_grammar (m : UInt32) (bytes : Bytes) :
    (∀ frame ∈ (deliveredFrames m bytes).state, Accepted m frame) ∧
    (deliveredFrames m bytes).state.flatten <+: bytes ∧
    (∀ frames : List Bytes, (∀ frame ∈ frames, Accepted m frame) → frames.flatten <+: bytes →
      frames <+: (deliveredFrames m bytes).state) ∧
    ((deliveredFrames m bytes).ok = true ↔ (deliveredFrames m bytes).state.flatten = bytes) ∧
    ∀ frames : List Bytes, (∀ frame ∈ frames, Accepted m frame) → bytes = frames.flatten →
      (deliveredFrames m bytes).state = frames := by
  have split := RecordFormat.records_flatten (F := contractFormat m) bytes
  have records (frames : List Bytes) (valid : ∀ frame ∈ frames, Accepted m frame) :
      ∀ frame ∈ frames, (contractFormat m).IsRecord frame :=
        fun frame member => isRecord_iff.mpr (valid frame member)
  rw [deliveredFrames_state]
  refine ⟨?_, ⟨_, split⟩, ?_, ?_, ?_⟩
  · intro frame member
    exact isRecord_iff.mp (RecordFormat.isRecord_of_mem_records bytes frame member)
  · intro frames valid pre
    exact RecordFormat.prefix_records (records frames valid) pre
  · refine (forEachContractFrame_all m (fun frame frames => frames ++ [frame]) bytes []).2.trans ?_
    unfold RecordFormat.Whole
    constructor
    · intro empty
      rwa [empty, List.append_nil] at split
    · intro whole
      rw [whole] at split
      exact List.append_right_eq_self.mp split
  · rintro frames valid rfl
    exact RecordFormat.records_of_flatten (records frames valid)

theorem countContractFramesInBytes_eq (bytes : Bytes) (m : UInt32) :
    countContractFramesInBytes bytes m = ((contractFormat m).records bytes).length := by
  have counted (frames : List Bytes) (start : Nat) :
      frames.foldl (fun s _ => s + 1) start = start + frames.length := by
    induction frames generalizing start with
    | nil => rfl
    | cons frame frames ih => simp only [List.foldl_cons, ih, List.length_cons]; omega
  unfold countContractFramesInBytes
  rw [(forEachContractFrame_all m (fun _ count => count + 1) bytes 0).1, counted, Nat.zero_add]

end LocalPC.Runtime
