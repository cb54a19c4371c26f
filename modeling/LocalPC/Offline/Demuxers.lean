import LocalPC.Lib.BoundedRead
import LocalPC.Lib.Text
import LocalPC.Contract.FrameHeader
import LocalPC.Offline.DecodedStreams
import LocalPC.Offline.EgoLogReader

/-!
# The payload demuxers

`packet_demuxer.cpp`, `source_demuxer.cpp` and `contract_demuxer.cpp`. Every byte that a demuxer
copies out of the payload goes through `copy`, so a demuxer stays inside the payload exactly when
its run is `InBounds`. All copies lie inside the payload but one: the PCM copy of a contract audio
block has a length that no size check covers.
-/

namespace LocalPC.Offline
open Lib Contract

/-- `samples.resize(n); memcpy(samples.data(), pcm, pcm.size());`: samples that are not copied stay
zero. -/
def samplesOf (n : Nat) (pcm : Bytes) : List Int16 := (List.range n).map fun i => i16 (2 * i) pcm

/-! ## Ego packets -/

namespace PacketDemuxer

def demuxAudio (ts : Int) (p : Bytes) (sz : Nat) (out : DecodedEgoStreams) :
    Reading DecodedEgoStreams :=
  withRecord AudioBlockHeader.size p sz out fun raw => do
    let hdr := AudioBlockHeader.decode raw
    -- both the product and the byte count are `uint32_t`
    let nSamples : UInt32 := hdr.channels.toUInt32 * hdr.frameCount
    if sz < AudioBlockHeader.size + (nSamples * 2).toNat then return out
    let pcm ← copy p AudioBlockHeader.size (nSamples * 2).toNat
    let blk : AudioBlock :=
      { tsNs := ts, channels := hdr.channels, sampleRateHz := hdr.sampleRateHz,
        frameCount := hdr.frameCount, samples := samplesOf nSamples.toNat pcm }
    return { out with audio := out.audio ++ [blk] }

def demuxCan (_ts : Int) (_p : Bytes) (_sz : Nat) (out : DecodedEgoStreams) :
    Reading DecodedEgoStreams :=
  return out

def demuxImu (ts : Int) (p : Bytes) (sz : Nat) (out : DecodedEgoStreams) :
    Reading DecodedEgoStreams :=
  withRecord ImuPayload.size p sz out fun bytes =>
    let raw := ImuPayload.decode bytes
    let s : ImuSample :=
      { tsNs := ts, accXMps2 := raw.accXMps2, accYMps2 := raw.accYMps2, accZMps2 := raw.accZMps2,
        gyroXRads := raw.gyroXRads, gyroYRads := raw.gyroYRads, gyroZRads := raw.gyroZRads }
    return { out with imu := out.imu ++ [s] }

def demuxMotion (ts : Int) (p : Bytes) (sz : Nat) (out : DecodedEgoStreams) :
    Reading DecodedEgoStreams :=
  withRecord MotionStatePayload.size p sz out fun bytes =>
    let raw := MotionStatePayload.decode bytes
    let m : MotionSample :=
      { tsNs := ts, speedMps := raw.speedMps, steeringAngleDeg := raw.steeringAngleDeg,
        yawRateRads := raw.yawRateRads, accelerationMps2 := raw.accelerationMps2 }
    return { out with motion := out.motion ++ [m] }

def demuxGps (ts : Int) (p : Bytes) (sz : Nat) (out : DecodedEgoStreams) :
    Reading DecodedEgoStreams :=
  withRecord GpsFixPayload.size p sz out fun bytes =>
    let raw := GpsFixPayload.decode bytes
    let g : GnssPoint :=
      { tsNs := ts, latitudeDeg := raw.latitudeDeg, longitudeDeg := raw.longitudeDeg,
        altitudeM := raw.altitudeM, speedMps := raw.speedMps, headingDeg := raw.headingDeg,
        fixQuality := raw.fixQuality, satellites := raw.satellites, hdop := raw.hdop }
    return { out with gps := out.gps ++ [g] }

def sessionFrameGps (ts : Int) (raw : SessionFramePayload)
    (out : DecodedEgoStreams) : DecodedEgoStreams :=
  if raw.gpsFixQuality > 0 && (raw.gpsLatDeg != 0 || raw.gpsLonDeg != 0) then
    let g : GnssPoint :=
      { tsNs := ts, latitudeDeg := raw.gpsLatDeg, longitudeDeg := raw.gpsLonDeg,
        altitudeM := raw.gpsAltM, speedMps := raw.gpsSpeedMps, headingDeg := raw.gpsHeadingDeg,
        fixQuality := raw.gpsFixQuality, satellites := raw.gpsSatellites, hdop := raw.gpsHdop }
    { out with gps := out.gps ++ [g] }
  else out

def sessionFrameImu (ts : Int) (raw : SessionFramePayload)
    (out : DecodedEgoStreams) : DecodedEgoStreams :=
  if raw.imuAccXMps2 != 0 || raw.imuAccYMps2 != 0 || raw.imuAccZMps2 != 0 then
    let s : ImuSample :=
      { tsNs := ts, accXMps2 := raw.imuAccXMps2, accYMps2 := raw.imuAccYMps2,
        accZMps2 := raw.imuAccZMps2, gyroXRads := raw.imuGyroXRads,
        gyroYRads := raw.imuGyroYRads, gyroZRads := raw.imuGyroZRads }
    { out with imu := out.imu ++ [s] }
  else out

def demuxSessionFrame (ts : Int) (p : Bytes) (sz : Nat) (out : DecodedEgoStreams) :
    Reading DecodedEgoStreams :=
  let out := { out with sessionFrameCount := out.sessionFrameCount + 1 }
  withRecord SessionFramePayload.size p sz out fun bytes =>
    let raw := SessionFramePayload.decode bytes
    return sessionFrameImu ts raw (sessionFrameGps ts raw out)

def demuxDiagnostics (_ts : Int) (_p : Bytes) (_sz : Nat) (out : DecodedEgoStreams) :
    Reading DecodedEgoStreams :=
  return out

def demuxSessionMeta (_ts : Int) (_p : Bytes) (_sz : Nat) (out : DecodedEgoStreams) :
    Reading DecodedEgoStreams :=
  return out

def handler : EgoPacketType → Int → Bytes → Nat → DecodedEgoStreams → Reading DecodedEgoStreams
  | .kAudioBlock => demuxAudio
  | .kCanFrame => demuxCan
  | .kImuSample => demuxImu
  | .kMotionState => demuxMotion
  | .kGpsFix => demuxGps
  | .kSessionFrame => demuxSessionFrame
  | .kDiagnostics => demuxDiagnostics
  | .kSessionMeta => demuxSessionMeta

def demux (type : UInt16) (tsNs : Int) (payload : Bytes) (size : Nat) (out : DecodedEgoStreams) :
    Reading (Bool × DecodedEgoStreams) :=
  match EgoPacketType.ofCode type with
  | some known => do
      let out ← handler known tsNs payload size out
      return (true, out)
  | none => return (false, out)

theorem handler_inBounds (type : EgoPacketType) (ts : Int) {p : Bytes} {sz : Nat}
    (out : DecodedEgoStreams) (fits : sz ≤ p.length) : InBounds (handler type ts p sz out) := by
  cases type with
  | kAudioBlock =>
      refine withRecord_inBounds fits fun header => ?_
      dsimp only
      split
      · exact inBounds_pure _
      next large =>
        refine InBounds.bind (copy_inBounds_iff.mpr ?_) fun pcm _ => inBounds_pure _
        omega
  | kImuSample => exact withRecord_inBounds fits fun _ => inBounds_pure _
  | kMotionState => exact withRecord_inBounds fits fun _ => inBounds_pure _
  | kGpsFix => exact withRecord_inBounds fits fun _ => inBounds_pure _
  | kSessionFrame => exact withRecord_inBounds fits fun _ => inBounds_pure _
  | kCanFrame | kDiagnostics | kSessionMeta => exact inBounds_pure _

theorem demux_inBounds (type : UInt16) (ts : Int) {p : Bytes} {sz : Nat} (out : DecodedEgoStreams)
    (fits : sz ≤ p.length) : InBounds (demux type ts p sz out) := by
  unfold demux
  split
  · exact (handler_inBounds _ ts out fits).bind fun _ _ => inBounds_pure _
  · exact inBounds_pure _

end PacketDemuxer

/-! ## Source packets -/

namespace SourceDemuxer

def demuxEvent (tsNs : Int) (p : Bytes) (sz : Nat) (out : DecodedSourceStreams) :
    Reading DecodedSourceStreams :=
  withRecord SourceEventPayload.size p sz out fun bytes =>
    let raw := SourceEventPayload.decode bytes
    let ev : SourceEvent :=
      { tsNs := tsNs, eventId := raw.eventId, eventType := raw.eventType, flags := raw.flags,
        durationNs := toInt64 raw.durationNs }
    return { out with events := out.events ++ [ev] }

def demuxGnss (tsNs : Int) (p : Bytes) (sz : Nat) (out : DecodedSourceStreams) :
    Reading DecodedSourceStreams :=
  withRecord GpsFixPayload.size p sz out fun bytes =>
    let raw := GpsFixPayload.decode bytes
    let g : GnssPoint :=
      { tsNs := tsNs, latitudeDeg := raw.latitudeDeg, longitudeDeg := raw.longitudeDeg,
        altitudeM := raw.altitudeM, speedMps := raw.speedMps, headingDeg := raw.headingDeg,
        fixQuality := raw.fixQuality, satellites := raw.satellites, hdop := raw.hdop }
    return { out with gnss := out.gnss ++ [g] }

def demuxRtk (tsNs : Int) (p : Bytes) (sz : Nat) (out : DecodedSourceStreams) :
    Reading DecodedSourceStreams :=
  withRecord SourceRtkStatusPayload.size p sz out fun bytes =>
    let raw := SourceRtkStatusPayload.decode bytes
    let s : RtkStatus :=
      { tsNs := tsNs, fixType := raw.fixType, correctionAgeS := raw.correctionAgeS,
        baselineMm := raw.baselineMm, solutionStatus := raw.solutionStatus }
    return { out with rtk := out.rtk ++ [s] }

/-- The `read_str` closure: the string that it leaves in `dst`, and the new `off`. A length that is
refused has already been stepped over. -/
def readStr (p : Bytes) (sz off : Nat) : Reading (Bytes × Nat) := do
  if off + 2 > sz then return ([], off)
  let bytes ← copy p off 2
  let len := (u16At 0 bytes).toNat
  let off := off + 2
  if len > 64 ∨ off + len > sz then return ([], off)
  let str ← copy p off len
  return (str, off + len)

def demuxScenarioMeta (tsNs : Int) (p : Bytes) (sz : Nat) (out : DecodedSourceStreams) :
    Reading DecodedSourceStreams := do
  if sz < 2 then return out
  let (scenarioId, off) ← readStr p sz 0
  let (sourceId, off) ← readStr p sz off
  let (configVersion, _) ← readStr p sz off
  let m : ScenarioMeta :=
    { tsNs := tsNs, scenarioId := scenarioId, sourceId := sourceId, configVersion := configVersion }
  return { out with scenarioMetas := out.scenarioMetas ++ [m] }

def demuxDiagnostics (tsNs : Int) (p : Bytes) (sz : Nat) (out : DecodedSourceStreams) :
    Reading DecodedSourceStreams :=
  withRecord SourceDiagnosticsHeader.size p sz out fun bytes => do
    let raw := SourceDiagnosticsHeader.decode bytes
    let d : Diagnostics :=
      { tsNs := tsNs, healthState := raw.healthState, sirenState := raw.sirenState,
        batteryPct := raw.batteryPct, diskFreePct := raw.diskFreePct,
        temperatureC := raw.temperatureC.toFloat32 * 0.1 }
    if raw.messageLen > 0 ∧ SourceDiagnosticsHeader.size + raw.messageLen.toNat ≤ sz then
      let message ← copy p SourceDiagnosticsHeader.size raw.messageLen.toNat
      return { out with diagnostics := out.diagnostics ++ [{ d with message := message }] }
    return { out with diagnostics := out.diagnostics ++ [d] }

def handler :
    SourcePacketType → Int → Bytes → Nat → DecodedSourceStreams → Reading DecodedSourceStreams
  | .kSourceEvent => demuxEvent
  | .kSourceGnssFix => demuxGnss
  | .kSourceRtkStatus => demuxRtk
  | .kSourceScenarioMeta => demuxScenarioMeta
  | .kSourceDiagnostics => demuxDiagnostics

/-- Returns false and appends a warning for unknown types. -/
def demux (type : UInt16) (tsNs : Int) (payload : Bytes) (size : Nat) (out : DecodedSourceStreams) :
    Reading (Bool × DecodedSourceStreams) :=
  match SourcePacketType.ofCode type with
  | some known => do
      let out ← handler known tsNs payload size out
      return (true, out)
  | none =>
      let warning := ascii "Unknown source packet type: " ++ decimal type.toNat
      return (false, { out with warnings := out.warnings ++ [warning] })

theorem readStr_inBounds {p : Bytes} {sz : Nat} (off : Nat) (fits : sz ≤ p.length) :
    InBounds (readStr p sz off) := by
  unfold readStr
  split
  · exact inBounds_pure _
  next room =>
    refine InBounds.bind (copy_inBounds_iff.mpr (by omega)) fun bytes _ => ?_
    dsimp only
    split
    · exact inBounds_pure _
    next whole =>
      refine InBounds.bind (copy_inBounds_iff.mpr ?_) fun str _ => inBounds_pure _
      omega

theorem handler_inBounds (type : SourcePacketType) (ts : Int) {p : Bytes} {sz : Nat}
    (out : DecodedSourceStreams) (fits : sz ≤ p.length) : InBounds (handler type ts p sz out) := by
  cases type with
  | kSourceEvent => exact withRecord_inBounds fits fun _ => inBounds_pure _
  | kSourceGnssFix => exact withRecord_inBounds fits fun _ => inBounds_pure _
  | kSourceRtkStatus => exact withRecord_inBounds fits fun _ => inBounds_pure _
  | kSourceScenarioMeta =>
      simp only [handler, demuxScenarioMeta]
      split
      · exact inBounds_pure _
      · refine (readStr_inBounds 0 fits).bind fun first _ => ?_
        refine (readStr_inBounds first.2 fits).bind fun second _ => ?_
        exact (readStr_inBounds second.2 fits).bind fun _ _ => inBounds_pure _
  | kSourceDiagnostics =>
      refine withRecord_inBounds fits fun header => ?_
      dsimp only
      split
      next message =>
        exact InBounds.bind (copy_inBounds_iff.mpr (message.2.trans fits)) fun _ _ =>
          inBounds_pure _
      · exact inBounds_pure _

theorem demux_inBounds (type : UInt16) (ts : Int) {p : Bytes} {sz : Nat}
    (out : DecodedSourceStreams) (fits : sz ≤ p.length) : InBounds (demux type ts p sz out) := by
  unfold demux
  split
  · exact (handler_inBounds _ ts out fits).bind fun _ _ => inBounds_pure _
  · exact inBounds_pure _

end SourceDemuxer

/-! ## Contract frames -/

namespace ContractDemuxer

def radToDeg (rad : Float32) : Float32 := rad * 180 / 3.14159265

def demuxAudioBlock (payload : Bytes) (size : Nat) (out : DecodedEgoStreams) :
    Reading DecodedEgoStreams :=
  withRecord AudioBlockBinaryHeader.size payload size out fun bytes => do
    let ah := AudioBlockBinaryHeader.decode bytes
    if size < AudioBlockBinaryHeader.size + ah.dataSize.toNat then return out
    -- the sample count is a `uint32_t`, the byte count a `size_t`
    let n : UInt32 := ah.channelsCount.toUInt32 * ah.framesCount
    let pcm ← copy payload AudioBlockBinaryHeader.size (n.toNat * 2)
    let blk : AudioBlock :=
      { tsNs := toInt64 ah.t0Ns, channels := ah.channelsCount.toUInt8,
        sampleRateHz := ah.sampleRateHz, frameCount := ah.framesCount,
        samples := samplesOf n.toNat pcm }
    return { out with audio := out.audio ++ [blk] }

def demuxImuWindow (payload : Bytes) (size : Nat) (out : DecodedEgoStreams) :
    Reading DecodedEgoStreams :=
  withRecord ImuWindowPacket.size payload size out fun bytes =>
    let raw := ImuWindowPacket.decode bytes
    let s : ImuSample :=
      { tsNs := toInt64 raw.t0Ns, accXMps2 := raw.accelMeanXMps2, accYMps2 := raw.accelMeanYMps2,
        accZMps2 := raw.accelMeanZMps2, gyroXRads := raw.gyroMeanXRadS,
        gyroYRads := raw.gyroMeanYRadS, gyroZRads := raw.gyroMeanZRadS }
    return { out with imu := out.imu ++ [s] }

def demuxTrajectory (payload : Bytes) (size : Nat) (out : DecodedEgoStreams) :
    Reading DecodedEgoStreams :=
  withRecord TrajectoryPointPacket.size payload size out fun bytes =>
    let raw := TrajectoryPointPacket.decode bytes
    let tp : TrajectoryPoint :=
      { tsNs := toInt64 raw.tNs, yawDeg := radToDeg raw.yawRad, velNMps := raw.vxMps,
        velEMps := raw.vyMps }
    let m : MotionSample :=
      { tsNs := toInt64 raw.tNs, speedMps := raw.vehicleSpeedMps, yawRateRads := raw.yawRateRadS }
    return { out with trajectory := out.trajectory ++ [tp], motion := out.motion ++ [m] }

def demuxGpsFix (payload : Bytes) (size : Nat) (out : DecodedEgoStreams) :
    Reading DecodedEgoStreams :=
  withRecord GpsFixPacket.size payload size out fun bytes =>
    let raw := GpsFixPacket.decode bytes
    let g : GnssPoint :=
      { tsNs := toInt64 raw.tNs, latitudeDeg := raw.latDeg, longitudeDeg := raw.lonDeg,
        altitudeM := raw.altM, speedMps := raw.speedMps, headingDeg := radToDeg raw.headingRad }
    return { out with gps := out.gps ++ [g] }

def demuxFrame (frameType : UInt32) (payload : Bytes) (size : Nat) (out : DecodedEgoStreams) :
    Reading DecodedEgoStreams :=
  match FrameType.ofCode frameType with
  | some .kAudioBlock => demuxAudioBlock payload size out
  | some .kImuWindow => demuxImuWindow payload size out
  | some .kTrajectory => demuxTrajectory payload size out
  | some .kGpsFix => demuxGpsFix payload size out
  | _ => return out

def demux (header : EgoFrameHeader) (payload : Bytes) (size : Nat) (out : DecodedEgoStreams) :
    Reading (Bool × DecodedEgoStreams) := do
  let out ← demuxFrame header.frameType payload size out
  return (true, out)

/-- The size checks let an audio payload pass whose PCM samples, `channels_count * frames_count` of
them modulo 2^32, end behind it. -/
def AudioOverrun (payload : Bytes) : Prop :=
  let ah := AudioBlockBinaryHeader.decode payload
  48 + ah.dataSize.toNat ≤ payload.length ∧
    payload.length < 48 + 2 * (ah.channelsCount.toNat * ah.framesCount.toNat % 2 ^ 32)

instance (payload : Bytes) : Decidable (AudioOverrun payload) :=
  inferInstanceAs (Decidable (_ ∧ _))

theorem decode_take (payload : Bytes) :
    AudioBlockBinaryHeader.decode (payload.take AudioBlockBinaryHeader.size) =
      AudioBlockBinaryHeader.decode payload := by
  have inside (offset width : Nat) (le : offset + width ≤ 48) :
      field offset width (payload.take 48) = field offset width payload :=
    field_take _ _ _ _ le
  simp [AudioBlockBinaryHeader.decode, AudioBlockBinaryHeader.size, u16At, u32At, u64At, inside]

theorem demuxAudioBlock_inBounds_iff (payload : Bytes) (out : DecodedEgoStreams) :
    InBounds (demuxAudioBlock payload payload.length out) ↔ ¬ AudioOverrun payload := by
  rw [demuxAudioBlock, withRecord_eq le_rfl, decode_take, AudioOverrun]
  set ah := AudioBlockBinaryHeader.decode payload
  have samples : (ah.channelsCount.toUInt32 * ah.framesCount).toNat =
      ah.channelsCount.toNat * ah.framesCount.toNat % 2 ^ 32 := by
    simp [UInt32.toNat_mul]
  dsimp only
  split
  next short =>
    simp only [AudioBlockBinaryHeader.size] at short
    exact iff_of_true (inBounds_ok _) fun overrun => by omega
  split
  next cut =>
    simp only [AudioBlockBinaryHeader.size] at cut
    exact iff_of_true (inBounds_pure _) fun overrun => by omega
  next whole =>
    simp only [AudioBlockBinaryHeader.size] at whole
    refine (inBounds_map_iff.trans copy_inBounds_iff).trans ?_
    rw [samples, AudioBlockBinaryHeader.size]
    omega

theorem demux_inBounds_iff (header : EgoFrameHeader) (payload : Bytes) (out : DecodedEgoStreams) :
    InBounds (demux header payload payload.length out) ↔
      ¬ (header.frameType = 100 ∧ AudioOverrun payload) := by
  have block : header.frameType = 100 ↔ FrameType.ofCode header.frameType = some .kAudioBlock :=
    (@FrameType.ofCode_eq_some_iff _ .kAudioBlock).symm
  rw [block]
  refine inBounds_map_iff.trans ?_
  rw [demuxFrame]
  split
  next audio => rw [demuxAudioBlock_inBounds_iff, audio, and_iff_right rfl]
  next other =>
    exact iff_of_true (withRecord_inBounds le_rfl fun _ => inBounds_pure _) (by simp [other])
  next other =>
    exact iff_of_true (withRecord_inBounds le_rfl fun _ => inBounds_pure _) (by simp [other])
  next other =>
    exact iff_of_true (withRecord_inBounds le_rfl fun _ => inBounds_pure _) (by simp [other])
  next other _ _ _ => exact iff_of_true (inBounds_pure _) fun overrun => other overrun.1

end ContractDemuxer

/-! ## All demuxers -/

/-- Decoding a payload as any frame or packet copies no byte from outside the payload, except for an
audio block frame with an overrun. -/
theorem demuxers_inBounds_iff (header : EgoFrameHeader) (type : UInt16)
    (tsNs : Int) (payload : Bytes) (ego : DecodedEgoStreams) (source : DecodedSourceStreams) :
    (InBounds (ContractDemuxer.demux header payload payload.length ego) ∧
      InBounds (PacketDemuxer.demux type tsNs payload payload.length ego) ∧
      InBounds (SourceDemuxer.demux type tsNs payload payload.length source)) ↔
      ¬ (header.frameType = 100 ∧ ContractDemuxer.AudioOverrun payload) := by
  rw [ContractDemuxer.demux_inBounds_iff]
  refine and_iff_left ⟨?_, ?_⟩
  · exact PacketDemuxer.demux_inBounds type tsNs ego le_rfl
  · exact SourceDemuxer.demux_inBounds type tsNs source le_rfl

/-- The header of an audio block of one sample that announces no data, and nothing behind it. -/
def headerOnlyAudio : Bytes :=
  leBytes 8 1 ++ leBytes 8 0 ++ leBytes 8 0 ++ leBytes 4 48000 ++ leBytes 2 1 ++ leBytes 2 2 ++
    leBytes 4 1 ++ leBytes 4 0 ++ leBytes 4 0 ++ leBytes 4 0

def headerOnlyAudioFrame : EgoFrameHeader :=
  makeFrameHeader 100 flagPayloadBinary 0 0 0 0 0 48 (Contract.crc32 headerOnlyAudio)

theorem headerOnlyAudio_outOfBounds :
    ¬ InBounds (ContractDemuxer.demux headerOnlyAudioFrame headerOnlyAudio
      headerOnlyAudio.length {}) := by
  rw [ContractDemuxer.demux_inBounds_iff, not_not]
  decide

end LocalPC.Offline
