import LocalPC.Lib.BufferedLoop
import LocalPC.Protocol.Validation

/-!
# SC589 unwrapping

`sc589_unwrap.hpp`: a byte stream is searched for packets, bare or wrapped in frames with an outer
checksum. Every `Feed` appends to the buffer and runs the loop until it waits for more bytes.
-/

namespace LocalPC.Runtime
open Lib Protocol

inductive UnwrapPolicy where
  | kOff | kOn | kAuto
  deriving DecidableEq, Repr

structure UnwrapStats where
  framesSeen : UInt64 := 0
  packetsEmitted : UInt64 := 0
  packetsRejected : UInt64 := 0
  rejectCrcOuter : UInt64 := 0
  syncLosses : UInt64 := 0
  deriving DecidableEq, Repr

structure Sc589Unwrap where
  policy : UnwrapPolicy := .kAuto
  maxPayloadBytes : UInt32 := 8192
  buffer : Bytes := []
  stats : UnwrapStats := {}
  handled : List Bytes := []
  deriving DecidableEq, Repr

namespace Sc589Unwrap

def kSof : Bytes := [0xA5, 0x5A]

def startsWithSof (buffer : Bytes) : Bool := decide (2 ≤ buffer.length) && buffer.take 2 == kSof

def startsWithPacketMagic (buffer : Bytes) : Bool :=
  if buffer.length < 4 then false else u32At 0 buffer == kPacketMagic

def dropFront (count : Nat) (syncLoss : Bool) (u : Sc589Unwrap) : Sc589Unwrap :=
  { u with
    buffer := u.buffer.drop count
    stats := if syncLoss then { u.stats with syncLosses := u.stats.syncLosses + 1 } else u.stats }

def countRejected (u : Sc589Unwrap) : Sc589Unwrap :=
  { u with stats := { u.stats with packetsRejected := u.stats.packetsRejected + 1 } }

def countFrame (u : Sc589Unwrap) : Sc589Unwrap :=
  { u with stats := { u.stats with framesSeen := u.stats.framesSeen + 1 } }

def countCrcOuter (u : Sc589Unwrap) : Sc589Unwrap :=
  { u with stats := { u.stats with rejectCrcOuter := u.stats.rejectCrcOuter + 1 } }

def validPacket (maxPayloadBytes : UInt32) (packet : Bytes) : Bool :=
  match deserializePacket packet with
  | .error _ => false
  | .ok parsed => (validatePacketVerbose parsed.header parsed.payload maxPayloadBytes).accepted

def emit (packet : Bytes) (u : Sc589Unwrap) : Sc589Unwrap :=
  if validPacket u.maxPayloadBytes packet then
    { u with
      handled := u.handled ++ [packet]
      stats := { u.stats with packetsEmitted := u.stats.packetsEmitted + 1 } }
  else u.countRejected

def tryConsumePacketOnly (u : Sc589Unwrap) : Option Sc589Unwrap :=
  if u.buffer.length < kPacketHeaderSize then none
  else
    match deserializeHeader (u.buffer.take kPacketHeaderSize) with
    | .error _ => some (u.countRejected.dropFront 1 true)
    | .ok header =>
        if header.magic ≠ kPacketMagic ∨ u.maxPayloadBytes < header.payloadSize then
          some (u.countRejected.dropFront 1 true)
        else
          let packetSize := kPacketHeaderSize + header.payloadSize.toNat
          if u.buffer.length < packetSize then none
          else some ((u.dropFront packetSize false).countFrame.emit (u.buffer.take packetSize))

def kMinWrappedLen : Nat := 1 + kPacketHeaderSize + 4

def tryConsumeWrappedFrame (u : Sc589Unwrap) : Option Sc589Unwrap :=
  if ¬ startsWithSof u.buffer ∨ u.buffer.length < 4 then none
  else
    let wrappedLen := (u16At 2 u.buffer).toNat
    let totalFrameSize := 4 + wrappedLen
    if wrappedLen < kMinWrappedLen ∨ 4096 < totalFrameSize then
      some (u.countRejected.dropFront 1 true)
    else if u.buffer.length < totalFrameSize then none
    else
      let innerSize := wrappedLen - 1 - 4
      let crcOffset := 4 + wrappedLen - 4
      let expectedCrc := u32At crcOffset u.buffer
      let crcRegion := (u.buffer.drop 4).take (1 + innerSize)
      if Protocol.crc32 crcRegion ≠ expectedCrc then
        some (u.countCrcOuter.countRejected.dropFront 1 true)
      else
        let innerPacket := (u.buffer.drop 5).take innerSize
        some ((u.dropFront totalFrameSize false).countFrame.emit innerPacket)

def consumeStep (u : Sc589Unwrap) : Option Sc589Unwrap :=
  match u.policy with
  | .kOff => u.tryConsumePacketOnly
  | .kOn => u.tryConsumeWrappedFrame
  | .kAuto =>
      if u.buffer.isEmpty then none
      else if startsWithSof u.buffer then u.tryConsumeWrappedFrame
      else if startsWithPacketMagic u.buffer then u.tryConsumePacketOnly
      else some (u.dropFront 1 true)

/-- `buffer_.insert(buffer_.end(), data, data + size)`. -/
def insert (u : Sc589Unwrap) (chunk : Bytes) : Sc589Unwrap := { u with buffer := u.buffer ++ chunk }

/-! ## Turns take bytes -/

structure Takes (u next : Sc589Unwrap) : Prop where
  policy : next.policy = u.policy
  maxPayloadBytes : next.maxPayloadBytes = u.maxPayloadBytes
  shorter : next.buffer.length < u.buffer.length

section
variable {u next : Sc589Unwrap}

@[simp] theorem emit_policy (packet : Bytes) (u : Sc589Unwrap) :
    (u.emit packet).policy = u.policy := by
  rw [emit]
  split <;> rfl

@[simp] theorem emit_maxPayloadBytes (packet : Bytes) (u : Sc589Unwrap) :
    (u.emit packet).maxPayloadBytes = u.maxPayloadBytes := by
  rw [emit]
  split <;> rfl

@[simp] theorem emit_buffer (packet : Bytes) (u : Sc589Unwrap) :
    (u.emit packet).buffer = u.buffer := by
  rw [emit]
  split <;> rfl

theorem takes_dropFront {count : Nat} (syncLoss : Bool) (positive : 0 < count)
    (nonempty : 0 < u.buffer.length) {start : Sc589Unwrap} (policy : start.policy = u.policy)
    (limit : start.maxPayloadBytes = u.maxPayloadBytes) (buffer : start.buffer = u.buffer) :
    Takes u (start.dropFront count syncLoss) where
  policy := policy
  maxPayloadBytes := limit
  shorter := by
    show (start.buffer.drop count).length < u.buffer.length
    rw [buffer, List.length_drop]
    omega

theorem Takes.emitted (packet : Bytes) (takes : Takes u next) :
    Takes u (next.countFrame.emit packet) where
  policy := (emit_policy ..).trans takes.policy
  maxPayloadBytes := (emit_maxPayloadBytes ..).trans takes.maxPayloadBytes
  shorter := by
    rw [emit_buffer]
    exact takes.shorter

theorem tryConsumePacketOnly_takes (turn : u.tryConsumePacketOnly = some next) : Takes u next := by
  unfold tryConsumePacketOnly at turn
  split at turn
  · cases turn
  next header =>
    have nonempty : 0 < u.buffer.length := by
      rw [kPacketHeaderSize] at header
      omega
    split at turn
    · cases turn
      exact takes_dropFront true Nat.one_pos nonempty rfl rfl rfl
    split at turn
    · cases turn
      exact takes_dropFront true Nat.one_pos nonempty rfl rfl rfl
    · dsimp only at turn
      split at turn
      · cases turn
      · cases turn
        exact (takes_dropFront false (Nat.add_pos_left (by decide) _) nonempty rfl rfl rfl).emitted
          _

theorem tryConsumeWrappedFrame_takes (turn : u.tryConsumeWrappedFrame = some next) :
    Takes u next := by
  unfold tryConsumeWrappedFrame at turn
  split at turn
  · cases turn
  next head =>
    have nonempty : 0 < u.buffer.length := by omega
    dsimp only at turn
    split at turn
    · cases turn
      exact takes_dropFront true Nat.one_pos nonempty rfl rfl rfl
    split at turn
    · cases turn
    split at turn
    · cases turn
      exact takes_dropFront true Nat.one_pos nonempty rfl rfl rfl
    · cases turn
      exact (takes_dropFront false (Nat.add_pos_left (by decide) _) nonempty rfl rfl rfl).emitted _

theorem consumeStep_takes (turn : u.consumeStep = some next) : Takes u next := by
  unfold consumeStep at turn
  split at turn
  · exact tryConsumePacketOnly_takes turn
  · exact tryConsumeWrappedFrame_takes turn
  · split at turn
    · cases turn
    next nonempty =>
      split at turn
      · exact tryConsumeWrappedFrame_takes turn
      split at turn
      · exact tryConsumePacketOnly_takes turn
      · cases turn
        apply takes_dropFront true Nat.one_pos _ rfl rfl rfl
        simpa [List.length_pos_iff] using nonempty

end

def loop : BufferedLoop Sc589Unwrap UInt8 where
  step := consumeStep
  extend := insert
  pending u := u.buffer.length
  shrinks turn := (consumeStep_takes turn).shorter
  extend_nil u := by rw [insert, List.append_nil]
  extend_append u front back := by simp only [insert, List.append_assoc]

def consume (u : Sc589Unwrap) : Sc589Unwrap := loop.consume u

def feed (u : Sc589Unwrap) (chunk : Bytes) : Sc589Unwrap := (u.insert chunk).consume

def feedAll (u : Sc589Unwrap) (chunks : List Bytes) : Sc589Unwrap := chunks.foldl feed u

def finalize (u : Sc589Unwrap) : Sc589Unwrap :=
  if u.buffer.isEmpty then u
  else if u.policy = .kOff then u.tryConsumePacketOnly.getD u
  else u

/-! ## Which turns are decided by what has arrived -/

section
variable {u next : Sc589Unwrap} {buffer more : Bytes}

theorem startsWithSof_iff : startsWithSof buffer = true ↔ kSof <+: buffer := by
  rw [startsWithSof, Bool.and_eq_true, decide_eq_true_eq, beq_iff_eq, List.prefix_iff_eq_take]
  constructor
  · intro sof
    exact sof.2.symm
  · intro sof
    have length := congrArg List.length sof
    have two : kSof.length = 2 := rfl
    rw [List.length_take, two] at length
    exact ⟨by omega, sof.symm⟩

def magicBytes : Bytes := [0x48, 0x4F, 0x57, 0x45]

theorem startsWithPacketMagic_iff :
    startsWithPacketMagic buffer = true ↔ magicBytes <+: buffer := by
  rw [startsWithPacketMagic, List.prefix_iff_eq_take]
  constructor
  · intro magic
    split at magic
    · cases magic
    next four =>
      have bytes := leBytes_u32At 0 buffer (by omega)
      rw [beq_iff_eq.mp magic] at bytes
      exact bytes
  · intro magic
    have length := congrArg List.length magic
    have four : magicBytes.length = 4 := rfl
    rw [List.length_take, four] at length
    rw [if_neg (by omega), beq_iff_eq, u32At]
    show UInt32.ofNat (leNat (buffer.take 4)) = kPacketMagic
    rw [show buffer.take 4 = magicBytes from magic.symm]
    decide

theorem startsWithSof_append (sof : startsWithSof buffer = true) :
    startsWithSof (buffer ++ more) = true :=
  startsWithSof_iff.mpr ((startsWithSof_iff.mp sof).trans (List.prefix_append _ _))

theorem startsWithPacketMagic_append (magic : startsWithPacketMagic buffer = true) :
    startsWithPacketMagic (buffer ++ more) = true :=
  startsWithPacketMagic_iff.mpr
    ((startsWithPacketMagic_iff.mp magic).trans (List.prefix_append _ _))

theorem not_startsWithSof_of_magic (magic : startsWithPacketMagic buffer = true) :
    ¬ startsWithSof buffer = true := by
  intro sof
  obtain ⟨rest, rfl⟩ := startsWithPacketMagic_iff.mp magic
  obtain ⟨other, same⟩ := startsWithSof_iff.mp sof
  exact absurd (List.cons.inj same).1 (by decide)

/-! The turns, policy by policy. -/

theorem consumeStep_off (off : u.policy = .kOff) : u.consumeStep = u.tryConsumePacketOnly := by
  rw [consumeStep, off]

theorem consumeStep_on (on : u.policy = .kOn) : u.consumeStep = u.tryConsumeWrappedFrame := by
  rw [consumeStep, on]

theorem consumeStep_empty (auto : u.policy = .kAuto) (empty : u.buffer = []) :
    u.consumeStep = none := by
  rw [consumeStep, auto]
  exact if_pos (by rw [empty]; rfl)

theorem consumeStep_sof (auto : u.policy = .kAuto) (sof : startsWithSof u.buffer = true) :
    u.consumeStep = u.tryConsumeWrappedFrame := by
  have filled : ¬ u.buffer.isEmpty = true := by
    intro empty
    rw [List.isEmpty_iff.mp empty] at sof
    cases sof
  rw [consumeStep, auto]
  exact (if_neg filled).trans (if_pos sof)

theorem consumeStep_magic
    (auto : u.policy = .kAuto) (magic : startsWithPacketMagic u.buffer = true) :
    u.consumeStep = u.tryConsumePacketOnly := by
  have filled : ¬ u.buffer.isEmpty = true := by
    intro empty
    rw [List.isEmpty_iff.mp empty] at magic
    cases magic
  rw [consumeStep, auto]
  exact (if_neg filled).trans ((if_neg (not_startsWithSof_of_magic magic)).trans (if_pos magic))

theorem consumeStep_drop (auto : u.policy = .kAuto) (filled : u.buffer ≠ [])
    (noSof : ¬ startsWithSof u.buffer = true) (noMagic : ¬ startsWithPacketMagic u.buffer = true) :
    u.consumeStep = some (u.dropFront 1 true) := by
  rw [consumeStep, auto]
  exact (if_neg (List.isEmpty_iff.not.mpr filled)).trans ((if_neg noSof).trans (if_neg noMagic))

theorem dropFront_insert {count : Nat} (inside : count ≤ u.buffer.length) (syncLoss : Bool) :
    (u.insert more).dropFront count syncLoss = (u.dropFront count syncLoss).insert more := by
  simp only [dropFront, insert, List.drop_append_of_le_length inside]

theorem emit_insert (packet : Bytes) :
    (u.insert more).emit packet = (u.emit packet).insert more := by
  unfold emit
  show (if validPacket u.maxPayloadBytes packet then _ else _) = _
  split <;> rfl

theorem tryConsumePacketOnly_insert (turn : u.tryConsumePacketOnly = some next) :
    (u.insert more).tryConsumePacketOnly = some (next.insert more) := by
  have length : (u.insert more).buffer.length = u.buffer.length + more.length := List.length_append
  unfold tryConsumePacketOnly at turn ⊢
  split at turn
  · cases turn
  next header =>
    have head : (u.insert more).buffer.take kPacketHeaderSize = u.buffer.take kPacketHeaderSize :=
      List.take_append_of_le_length (not_lt.mp header)
    have one : 1 ≤ u.buffer.length := by
      rw [kPacketHeaderSize] at header
      omega
    rw [if_neg (by omega), head]
    split at turn
    next thrown =>
      cases turn
      exact congrArg some (@dropFront_insert u.countRejected more 1 one true)
    next parsed =>
      split at turn
      next bad =>
        cases turn
        refine (if_pos bad).trans ?_
        exact congrArg some (@dropFront_insert u.countRejected more 1 one true)
      next good =>
        refine (if_neg good).trans ?_
        dsimp only at turn ⊢
        split at turn
        · cases turn
        next whole =>
          cases turn
          have packet : (u.insert more).buffer.take (kPacketHeaderSize + _) =
              u.buffer.take (kPacketHeaderSize + _) :=
            List.take_append_of_le_length (not_lt.mp whole)
          rw [if_neg (by omega), packet, dropFront_insert (not_lt.mp whole)]
          exact congrArg some (@emit_insert (u.dropFront _ false).countFrame more _)

theorem tryConsumeWrappedFrame_insert (turn : u.tryConsumeWrappedFrame = some next) :
    (u.insert more).tryConsumeWrappedFrame = some (next.insert more) := by
  have length : (u.insert more).buffer.length = u.buffer.length + more.length := List.length_append
  unfold tryConsumeWrappedFrame at turn ⊢
  split at turn
  · cases turn
  next head =>
    rw [not_or, not_not, not_lt] at head
    obtain ⟨sof, four⟩ := head
    have one : 1 ≤ u.buffer.length := by omega
    have longer :
        ¬ (¬ startsWithSof (u.insert more).buffer = true ∨ (u.insert more).buffer.length < 4) := by
      rw [not_or, not_not]
      exact ⟨startsWithSof_append sof, by omega⟩
    have announced : u16At 2 (u.insert more).buffer = u16At 2 u.buffer := by
      rw [u16At, u16At]
      exact congrArg UInt16.ofNat (field_append_left _ _ _ _ four)
    rw [if_neg longer, announced]
    dsimp only at turn ⊢
    split at turn
    next wrong =>
      cases turn
      rw [if_pos wrong]
      exact congrArg some (@dropFront_insert u.countRejected more 1 one true)
    next right =>
      rw [if_neg right]
      split at turn
      · cases turn
      next whole =>
        rw [not_or, not_lt, kMinWrappedLen, kPacketHeaderSize] at right
        have crc : u32At (4 + (u16At 2 u.buffer).toNat - 4) (u.insert more).buffer =
            u32At (4 + (u16At 2 u.buffer).toNat - 4) u.buffer := by
          rw [u32At, u32At]
          exact congrArg UInt32.ofNat (field_append_left _ _ _ _ (by omega))
        have part (start size : Nat) (inside : start + size ≤ u.buffer.length) :
            ((u.insert more).buffer.drop start).take size = (u.buffer.drop start).take size := by
          show ((u.buffer ++ more).drop start).take size = _
          rw [List.drop_append_of_le_length (by omega),
            List.take_append_of_le_length (by rw [List.length_drop]; omega)]
        rw [if_neg (by omega), crc, part 4 _ (by omega), part 5 _ (by omega)]
        split at turn
        next mismatch =>
          cases turn
          rw [if_pos mismatch]
          exact congrArg some (@dropFront_insert u.countCrcOuter.countRejected more 1 one true)
        next intact =>
          cases turn
          rw [if_neg intact, dropFront_insert (not_lt.mp whole)]
          exact congrArg some (@emit_insert (u.dropFront _ false).countFrame more _)

/-- Only a beginning of a start marker or of a packet magic is in the buffer, and the bytes that
come next complete it. -/
def CutMarker (buffer more : Bytes) : Prop :=
  buffer ≠ [] ∧ startsWithSof buffer = false ∧ startsWithPacketMagic buffer = false ∧
    (startsWithSof (buffer ++ more) = true ∨ startsWithPacketMagic (buffer ++ more) = true)

theorem decided (whole : u.policy = .kAuto → ¬ CutMarker u.buffer more) : loop.Decided u more := by
  intro next turn
  change u.consumeStep = some next at turn
  change (u.insert more).consumeStep = some (next.insert more)
  cases policy : u.policy with
  | kOff =>
      have longer : (u.insert more).policy = .kOff := policy
      rw [consumeStep_off policy] at turn
      exact (consumeStep_off longer).trans (tryConsumePacketOnly_insert turn)
  | kOn =>
      have longer : (u.insert more).policy = .kOn := policy
      rw [consumeStep_on policy] at turn
      exact (consumeStep_on longer).trans (tryConsumeWrappedFrame_insert turn)
  | kAuto =>
      have longer : (u.insert more).policy = .kAuto := policy
      by_cases empty : u.buffer = []
      · rw [consumeStep_empty policy empty] at turn
        cases turn
      by_cases sof : startsWithSof u.buffer = true
      · rw [consumeStep_sof policy sof] at turn
        exact (consumeStep_sof longer (startsWithSof_append sof)).trans
          (tryConsumeWrappedFrame_insert turn)
      by_cases magic : startsWithPacketMagic u.buffer = true
      · rw [consumeStep_magic policy magic] at turn
        exact (consumeStep_magic longer (startsWithPacketMagic_append magic)).trans
          (tryConsumePacketOnly_insert turn)
      · rw [consumeStep_drop policy empty sof magic] at turn
        cases turn
        have settled :
            ¬ (startsWithSof (u.buffer ++ more) = true ∨
              startsWithPacketMagic (u.buffer ++ more) = true) :=
          fun completed => whole policy
            ⟨empty, Bool.eq_false_of_not_eq_true sof, Bool.eq_false_of_not_eq_true magic, completed⟩
        have filled : u.buffer ++ more ≠ [] := fun none => empty (List.append_eq_nil_iff.mp none).1
        refine (consumeStep_drop longer filled (not_or.mp settled).1 (not_or.mp settled).2).trans ?_
        exact congrArg some (dropFront_insert (List.length_pos_iff.mpr empty) true)

/-! ## Independence of the cuts -/

/-- No `Feed` of the chunks but the last leaves the loop at the beginning of a marker or magic that
the chunks behind it complete. -/
def NoCutMarker (u : Sc589Unwrap) : List Bytes → Prop
  | [] => True
  | chunk :: chunks =>
      (∀ t, loop.Passes (u.insert chunk) t → ¬ CutMarker t.buffer chunks.flatten) ∧
        NoCutMarker (u.feed chunk) chunks

theorem passes_policy {t : Sc589Unwrap} (passes : loop.Passes u t) : t.policy = u.policy := by
  induction passes with
  | here => rfl
  | next turn _ ih => exact ih.trans (consumeStep_takes turn).policy

theorem feed_policy (u : Sc589Unwrap) (chunk : Bytes) : (u.feed chunk).policy = u.policy :=
  @BufferedLoop.consume_invariant _ _ loop (u.insert chunk) (fun t => t.policy = u.policy)
    (fun _ _ turn same => (consumeStep_takes turn).policy.trans same) rfl

theorem allDecided {chunks : List Bytes} (whole : u.policy = .kAuto → NoCutMarker u chunks) :
    loop.AllDecided u chunks := by
  induction chunks generalizing u with
  | nil => trivial
  | cons chunk chunks ih =>
      constructor
      · intro t passes
        exact decided fun auto => (whole ((passes_policy passes).symm.trans auto)).1 t passes
      · exact ih fun auto => (whole ((feed_policy u chunk).symm.trans auto)).2

theorem noCutMarker_last (u : Sc589Unwrap) (chunk : Bytes) : NoCutMarker u [chunk] := by
  refine ⟨fun t _ cut => ?_, trivial⟩
  obtain ⟨-, sof, magic, completed⟩ := cut
  rw [List.flatten_nil, List.append_nil, sof, magic] at completed
  exact absurd completed (by decide)

def start (policy : UnwrapPolicy) (maxPayloadBytes : UInt32) : Sc589Unwrap :=
  { policy := policy, maxPayloadBytes := maxPayloadBytes }

theorem consumeStep_start (policy : UnwrapPolicy) (maxPayloadBytes : UInt32) :
    (start policy maxPayloadBytes).consumeStep = none := by
  cases policy <;> rfl

/-- Two ways of cutting a stream hand over the same packets when neither drops a marker that it
cuts; with the policies `kOff` and `kOn` any two ways do. -/
theorem handled_feedAll_eq (policy : UnwrapPolicy) (maxPayloadBytes : UInt32)
    {chunks₁ chunks₂ : List Bytes} (same : chunks₁.flatten = chunks₂.flatten)
    (whole₁ : policy = .kAuto → NoCutMarker (start policy maxPayloadBytes) chunks₁)
    (whole₂ : policy = .kAuto → NoCutMarker (start policy maxPayloadBytes) chunks₂) :
    ((start policy maxPayloadBytes).feedAll chunks₁).handled =
      ((start policy maxPayloadBytes).feedAll chunks₂).handled := by
  have waits := consumeStep_start policy maxPayloadBytes
  have first := BufferedLoop.feedAll_eq_feed waits (allDecided whole₁)
  have second := BufferedLoop.feedAll_eq_feed waits (allDecided whole₂)
  rw [same] at first
  exact congrArg handled (first.trans second.symm)

/-! ## Bytes that start nothing -/

/-- Neither the first byte of the start marker nor that of the packet magic occurs. -/
def Clean (bytes : Bytes) : Prop := ∀ b ∈ bytes, b ≠ 0xA5 ∧ b ≠ 0x48

instance (bytes : Bytes) : Decidable (Clean bytes) := inferInstanceAs (Decidable (∀ b ∈ bytes, _))

def Inert : Bytes → Bytes → Prop
  | [], _ => True
  | b :: bytes, rest =>
      (¬ startsWithSof (b :: bytes ++ rest) = true ∧
        ¬ startsWithPacketMagic (b :: bytes ++ rest) = true) ∧
        Inert bytes rest

theorem not_startsWithSof_cons {b : UInt8} (other : b ≠ 0xA5) (rest : Bytes) :
    ¬ startsWithSof (b :: rest) = true := by
  intro sof
  obtain ⟨behind, same⟩ := startsWithSof_iff.mp sof
  exact other (List.cons.inj same).1.symm

theorem not_startsWithPacketMagic_cons {b : UInt8} (other : b ≠ 0x48) (rest : Bytes) :
    ¬ startsWithPacketMagic (b :: rest) = true := by
  intro magic
  obtain ⟨behind, same⟩ := startsWithPacketMagic_iff.mp magic
  exact other (List.cons.inj same).1.symm

theorem Clean.inert {bytes : Bytes} (clean : Clean bytes) (rest : Bytes) : Inert bytes rest := by
  induction bytes with
  | nil => trivial
  | cons b bytes ih =>
      have head := clean b List.mem_cons_self
      exact ⟨⟨not_startsWithSof_cons head.1 _, not_startsWithPacketMagic_cons head.2 _⟩,
        ih fun c mem => clean c (List.mem_cons_of_mem _ mem)⟩

theorem Inert.split {front back rest : Bytes} (inert : Inert (front ++ back) rest) :
    Inert front [] ∧ Inert back rest := by
  induction front with
  | nil => exact ⟨trivial, inert⟩
  | cons b front ih =>
      obtain ⟨⟨noSof, noMagic⟩, tail⟩ := inert
      have longer : b :: (front ++ back) ++ rest = (b :: front ++ []) ++ (back ++ rest) := by simp
      refine ⟨⟨⟨fun sof => noSof ?_, fun magic => noMagic ?_⟩, (ih tail).1⟩, (ih tail).2⟩
      · exact longer ▸ startsWithSof_append sof
      · exact longer ▸ startsWithPacketMagic_append magic

theorem consume_inert {bytes rest : Bytes} (auto : u.policy = .kAuto) (inert : Inert bytes rest)
    (buffer : u.buffer = bytes ++ rest) :
    ∃ stats, u.consume = { u with buffer := rest, stats := stats }.consume := by
  induction bytes generalizing u with
  | nil => exact ⟨u.stats, congrArg consume (by rw [← buffer.trans (List.nil_append rest)])⟩
  | cons b bytes ih =>
      obtain ⟨⟨noSof, noMagic⟩, tail⟩ := inert
      have turn : u.consumeStep = some (u.dropFront 1 true) := by
        apply consumeStep_drop auto
        · rw [buffer]
          exact List.cons_ne_nil _ _
        · rw [buffer]
          exact noSof
        · rw [buffer]
          exact noMagic
      have dropped : (u.dropFront 1 true).buffer = bytes ++ rest := by
        rw [dropFront, buffer]
        rfl
      obtain ⟨stats, same⟩ := @ih (u.dropFront 1 true) auto tail dropped
      exact ⟨stats, (BufferedLoop.consume_of_some turn).trans same⟩

theorem consume_empty (auto : u.policy = .kAuto) (empty : u.buffer = []) : u.consume = u :=
  BufferedLoop.consume_of_none (consumeStep_empty auto empty)

/-! ## A packet whose magic is cut -/

def barePacket : Bytes := serializePacket {} []

theorem feed_barePacket :
    ((start .kAuto 8192).feed barePacket) =
      { start .kAuto 8192 with
        stats := { framesSeen := 1, packetsEmitted := 1 }, handled := [barePacket] } := by
  have turn : ((start .kAuto 8192).insert barePacket).consumeStep =
      some { start .kAuto 8192 with
        stats := { framesSeen := 1, packetsEmitted := 1 }, handled := [barePacket] } := by
    decide
  exact (BufferedLoop.consume_of_some turn).trans (consume_empty rfl rfl)

set_option maxRecDepth 4000 in
theorem feedAll_cutPacket :
    ((start .kAuto 8192).feedAll [[0x48], barePacket.tail]).handled = [] := by
  have turn : ((start .kAuto 8192).insert [0x48]).consumeStep =
      some { start .kAuto 8192 with stats := { syncLosses := 1 } } := by decide
  have first : (start .kAuto 8192).feed [0x48] =
      { start .kAuto 8192 with stats := { syncLosses := 1 } } :=
    (BufferedLoop.consume_of_some turn).trans (consume_empty rfl rfl)
  have clean : Clean barePacket.tail := by decide
  obtain ⟨stats, dropped⟩ :=
    @consume_inert ({ start .kAuto 8192 with stats := { syncLosses := 1 } }.insert barePacket.tail)
    barePacket.tail [] rfl (clean.inert []) (List.append_nil _).symm
  show (((start .kAuto 8192).feed [0x48]).feed barePacket.tail).handled = []
  rw [first, feed, dropped, consume_empty rfl rfl]
  rfl

theorem cutPacket_lost :
    [[0x48], barePacket.tail].flatten = [barePacket].flatten ∧
      ((start .kAuto 8192).feedAll [[0x48], barePacket.tail]).handled ≠
        ((start .kAuto 8192).feedAll [barePacket]).handled := by
  refine ⟨by decide, ?_⟩
  rw [feedAll_cutPacket]
  show [] ≠ ((start .kAuto 8192).feed barePacket).handled
  rw [feed_barePacket]
  exact (List.cons_ne_nil _ _).symm

theorem twoPackets_handled_eq :
    ((start .kAuto 8192).feedAll [barePacket, barePacket]).handled =
      ((start .kAuto 8192).feedAll [barePacket ++ barePacket]).handled := by
  have turn : ((start .kAuto 8192).insert barePacket).consumeStep =
      some { start .kAuto 8192 with
        stats := { framesSeen := 1, packetsEmitted := 1 }, handled := [barePacket] } := by
    decide
  refine handled_feedAll_eq .kAuto 8192 (by simp)
    (fun _ => ⟨fun t passes cut => ?_, noCutMarker_last _ _⟩)
    (fun _ => noCutMarker_last _ _)
  cases passes with
  | here => exact absurd cut.2.2.1 (by decide)
  | next step later =>
      obtain rfl := Option.some.inj (turn.symm.trans step)
      cases later with
      | here => exact cut.1 rfl
      | next none _ =>
          have stopped := @consumeStep_empty
            { start .kAuto 8192 with
              stats := { framesSeen := 1, packetsEmitted := 1 }, handled := [barePacket] } rfl rfl
          exact absurd (stopped.symm.trans none) (by simp)

end

end Sc589Unwrap

end LocalPC.Runtime
