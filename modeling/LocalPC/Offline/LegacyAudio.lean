import LocalPC.Offline.Demuxers

namespace LocalPC.Offline
open Lib

theorem AudioBlockHeader.decode_take (payload : Bytes) :
    AudioBlockHeader.decode (payload.take AudioBlockHeader.size) =
      AudioBlockHeader.decode payload := by
  have inside (offset width : Nat) (le : offset + width ≤ 10) :
      field offset width (payload.take 10) = field offset width payload :=
    field_take _ _ _ _ le
  simp [AudioBlockHeader.decode, AudioBlockHeader.size, u8At, u32At, inside]

namespace PacketDemuxer

section
variable (tsNs : Int) (payload : Bytes) (size : Nat) (out : DecodedEgoStreams) (block : AudioBlock)

/-- The number of samples that a payload announces. -/
def announcedSamples : Nat :=
  (AudioBlockHeader.decode payload).channels.toNat *
    (AudioBlockHeader.decode payload).frameCount.toNat

/-- Decoding the payload as an audio packet appends `block`. -/
def Emits : Prop :=
  ∃ out', demux 1 tsNs payload size out = .ok (true, out') ∧ out'.audio = out.audio ++ [block]

/-- `block` has all the samples that it counts, and they are those of the payload. -/
structure CompleteBlock : Prop where
  channels : block.channels = (AudioBlockHeader.decode payload).channels
  frames : block.frameCount = (AudioBlockHeader.decode payload).frameCount
  count : block.samples.length = block.channels.toNat * block.frameCount.toNat
  room : AudioBlockHeader.size + 2 * (block.channels.toNat * block.frameCount.toNat) ≤ size
  sample : ∀ i, i < block.samples.length →
    block.samples[i]? = some (i16 (AudioBlockHeader.size + 2 * i) payload)

def audioBlock : AudioBlock where
  tsNs := tsNs
  channels := (AudioBlockHeader.decode payload).channels
  sampleRateHz := (AudioBlockHeader.decode payload).sampleRateHz
  frameCount := (AudioBlockHeader.decode payload).frameCount
  samples := samplesOf (announcedSamples payload % 2 ^ 32)
    ((payload.drop AudioBlockHeader.size).take (2 * announcedSamples payload % 2 ^ 32))

end

variable {tsNs : Int} {payload : Bytes} {size : Nat} {out : DecodedEgoStreams} {block : AudioBlock}

theorem demux_audio_eq (fits : size ≤ payload.length) :
    demux 1 tsNs payload size out =
      .ok (true, if size < AudioBlockHeader.size + 2 * announcedSamples payload % 2 ^ 32 then out
        else { out with audio := out.audio ++ [audioBlock tsNs payload] }) := by
  have samples : ((AudioBlockHeader.decode payload).channels.toUInt32 *
      (AudioBlockHeader.decode payload).frameCount).toNat = announcedSamples payload % 2 ^ 32 := by
    simp [UInt32.toNat_mul, announcedSamples]
  have bytes : ((AudioBlockHeader.decode payload).channels.toUInt32 *
      (AudioBlockHeader.decode payload).frameCount * 2).toNat =
        2 * announcedSamples payload % 2 ^ 32 := by
    rw [UInt32.toNat_mul, samples, UInt32.toNat_ofNat, Nat.mod_mul_mod, Nat.mul_comm]
  have known : EgoPacketType.ofCode 1 = some .kAudioBlock := rfl
  simp only [demux, known, handler, demuxAudio]
  rw [withRecord_eq fits, AudioBlockHeader.decode_take]
  simp only [samples, bytes]
  by_cases header : size < AudioBlockHeader.size
  · rw [if_pos header, if_pos (by omega)]
    rfl
  rw [if_neg header]
  by_cases short : size < AudioBlockHeader.size + 2 * announcedSamples payload % 2 ^ 32
  · rw [if_pos short, if_pos short]
    rfl
  · rw [if_neg short, if_neg short, copy_ok (by omega)]
    rfl

theorem emits_iff (fits : size ≤ payload.length) :
    Emits tsNs payload size out block ↔
      AudioBlockHeader.size + 2 * announcedSamples payload % 2 ^ 32 ≤ size ∧
        block = audioBlock tsNs payload := by
  constructor
  · rintro ⟨out', decoded, appended⟩
    rw [demux_audio_eq fits, Except.ok.injEq, Prod.mk.injEq] at decoded
    obtain ⟨-, rfl⟩ := decoded
    split at appended
    next short => exact absurd (congrArg List.length appended) (by simp)
    next whole =>
      have last := List.append_cancel_left appended
      exact ⟨not_lt.mp whole, (List.cons.inj last).1.symm⟩
  · rintro ⟨whole, rfl⟩
    exact ⟨_, by rw [demux_audio_eq fits, if_neg (not_lt.mpr whole)], rfl⟩

theorem audioBlock_sample {i : Nat} (inside : 2 * i + 2 ≤ 2 * announcedSamples payload % 2 ^ 32) :
    (audioBlock tsNs payload).samples[i]? = some (i16 (AudioBlockHeader.size + 2 * i) payload) := by
  have counted : i < announcedSamples payload % 2 ^ 32 := by omega
  have shifted : field (2 * i) 2 (payload.drop AudioBlockHeader.size) =
      field (AudioBlockHeader.size + 2 * i) 2 payload := by
    simp only [field, List.drop_drop]
  simp only [audioBlock, samplesOf, List.getElem?_map, List.getElem?_range counted,
    Option.map_some, i16, u16At]
  rw [field_take _ _ _ _ inside, shifted]

theorem audioBlock_complete_iff
    (fits : AudioBlockHeader.size + 2 * announcedSamples payload % 2 ^ 32 ≤ size)
    (word : size < 2 ^ 32) :
    CompleteBlock payload size (audioBlock tsNs payload) ↔
      2 * announcedSamples payload < 2 ^ 32 := by
  have length : (audioBlock tsNs payload).samples.length = announcedSamples payload % 2 ^ 32 := by
    simp [audioBlock, samplesOf]
  constructor
  · intro complete
    have room : AudioBlockHeader.size + 2 * announcedSamples payload ≤ size := complete.room
    omega
  · intro small
    refine ⟨rfl, rfl, ?_, ?_, ?_⟩
    · rw [length]
      exact Nat.mod_eq_of_lt (by omega)
    · show AudioBlockHeader.size + 2 * announcedSamples payload ≤ size
      omega
    · intro i counted
      rw [length] at counted
      exact audioBlock_sample (by omega)

/-- Every block that an audio payload emits is complete exactly when the byte count of its samples
fits a 32-bit word, or the payload is too short even for the wrapped byte count. -/
theorem audio_complete_iff (tsNs : Int) (payload : Bytes) (size : UInt32) (out : DecodedEgoStreams)
    (fits : size.toNat ≤ payload.length) :
    (∀ block, Emits tsNs payload size.toNat out block → CompleteBlock payload size.toNat block) ↔
      2 * announcedSamples payload < 2 ^ 32 ∨
        size.toNat < AudioBlockHeader.size + 2 * announcedSamples payload % 2 ^ 32 := by
  simp only [emits_iff fits]
  constructor
  · intro complete
    rw [or_iff_not_imp_right, not_lt]
    intro whole
    exact (audioBlock_complete_iff whole size.toNat_lt).mp (complete _ ⟨whole, rfl⟩)
  · rintro announced block ⟨whole, rfl⟩
    apply (audioBlock_complete_iff whole size.toNat_lt).mpr
    exact announced.resolve_right (not_lt.mpr whole)

/-- The header of two channels of 2^31 frames, whose samples would take 2^33 bytes. -/
def wrappedAudio : Bytes := [2, 16] ++ leBytes 4 16000 ++ leBytes 4 (2 ^ 31)

theorem wrappedAudio_complete_iff :
    (∀ block, Emits 0 wrappedAudio (10 : UInt32).toNat {} block →
        CompleteBlock wrappedAudio (10 : UInt32).toNat block) ↔
      2 * announcedSamples wrappedAudio < 2 ^ 32 ∨
        (10 : UInt32).toNat < AudioBlockHeader.size + 2 * announcedSamples wrappedAudio % 2 ^ 32 :=
  audio_complete_iff 0 wrappedAudio 10 {} (by decide)

/-- The header alone is emitted as a block of 2^31 frames without any sample. -/
theorem wrappedAudio_incomplete :
    ∃ block, Emits 0 wrappedAudio wrappedAudio.length {} block ∧ block.samples = [] ∧
      block.channels.toNat * block.frameCount.toNat = 2 ^ 32 ∧
      ¬ CompleteBlock wrappedAudio wrappedAudio.length block := by
  have count : announcedSamples wrappedAudio = 2 ^ 32 := by decide
  have whole : AudioBlockHeader.size + 2 * announcedSamples wrappedAudio % 2 ^ 32 ≤
      wrappedAudio.length := by
    rw [count]
    decide
  refine ⟨audioBlock 0 wrappedAudio, (emits_iff le_rfl).mpr ⟨whole, rfl⟩, ?_, count, ?_⟩
  · simp [audioBlock, samplesOf, count]
  · intro complete
    have small := (audioBlock_complete_iff whole (by decide)).mp complete
    omega

end PacketDemuxer

end LocalPC.Offline
