import LocalPC.Lib.LittleEndian

/-!
# Payload layouts and decoded streams

The packed payload structures of both log formats (`protocol.hpp`, `contract_demuxer.cpp`), and the
records that the demuxers append. A structure is read from its bytes field by field; its size is
the `sizeof` of the source.
-/

namespace LocalPC.Offline
open Lib

def i16 (offset : Nat) (raw : Bytes) : Int16 := (u16At offset raw).toInt16
def f32 (offset : Nat) (raw : Bytes) : Float32 := .ofBits (u32At offset raw)
def f64 (offset : Nat) (raw : Bytes) : Float := .ofBits (u64At offset raw)

/-! ## Packet types -/

inductive EgoPacketType where
  | kAudioBlock | kCanFrame | kImuSample | kMotionState | kGpsFix | kSessionFrame | kDiagnostics
  | kSessionMeta
  deriving DecidableEq, Repr

def EgoPacketType.ofCode : UInt16 → Option EgoPacketType
  | 1 => some .kAudioBlock
  | 2 => some .kCanFrame
  | 3 => some .kImuSample
  | 4 => some .kMotionState
  | 5 => some .kGpsFix
  | 6 => some .kSessionFrame
  | 7 => some .kDiagnostics
  | 8 => some .kSessionMeta
  | _ => none

inductive SourcePacketType where
  | kSourceEvent | kSourceGnssFix | kSourceRtkStatus | kSourceScenarioMeta | kSourceDiagnostics
  deriving DecidableEq, Repr

def SourcePacketType.ofCode : UInt16 → Option SourcePacketType
  | 101 => some .kSourceEvent
  | 102 => some .kSourceGnssFix
  | 103 => some .kSourceRtkStatus
  | 104 => some .kSourceScenarioMeta
  | 105 => some .kSourceDiagnostics
  | _ => none

inductive FrameType where
  | kSessionStarted | kConfigSnapshot | kAudioBlock | kImuWindow
  | kCanDecoded | kCanRaw | kTrajectory
  | kGpsFix | kSystemStatus | kSessionEnded
  deriving DecidableEq, Repr

def FrameType.ofCode : UInt32 → Option FrameType
  | 1 => some .kSessionStarted
  | 2 => some .kConfigSnapshot
  | 100 => some .kAudioBlock
  | 101 => some .kImuWindow
  | 102 => some .kCanDecoded
  | 103 => some .kCanRaw
  | 104 => some .kTrajectory
  | 105 => some .kGpsFix
  | 201 => some .kSystemStatus
  | 900 => some .kSessionEnded
  | _ => none

def FrameType.code : FrameType → UInt32
  | .kSessionStarted => 1
  | .kConfigSnapshot => 2
  | .kAudioBlock => 100
  | .kImuWindow => 101
  | .kCanDecoded => 102
  | .kCanRaw => 103
  | .kTrajectory => 104
  | .kGpsFix => 105
  | .kSystemStatus => 201
  | .kSessionEnded => 900

theorem FrameType.ofCode_eq_some_iff {code : UInt32} {type : FrameType} :
    ofCode code = some type ↔ code = type.code := by
  constructor
  · intro found
    unfold ofCode at found
    split at found <;> cases found <;> rfl
  · rintro rfl
    cases type <;> rfl

/-! ## Payloads of the ego packets -/

structure AudioBlockHeader where
  channels : UInt8
  bitsPerSample : UInt8
  sampleRateHz : UInt32
  frameCount : UInt32

def AudioBlockHeader.size : Nat := 10

def AudioBlockHeader.decode (raw : Bytes) : AudioBlockHeader where
  channels := u8At 0 raw
  bitsPerSample := u8At 1 raw
  sampleRateHz := u32At 2 raw
  frameCount := u32At 6 raw

structure ImuPayload where
  accXMps2 : Float32
  accYMps2 : Float32
  accZMps2 : Float32
  gyroXRads : Float32
  gyroYRads : Float32
  gyroZRads : Float32
  tempC : Float32

def ImuPayload.size : Nat := 28

def ImuPayload.decode (raw : Bytes) : ImuPayload where
  accXMps2 := f32 0 raw
  accYMps2 := f32 4 raw
  accZMps2 := f32 8 raw
  gyroXRads := f32 12 raw
  gyroYRads := f32 16 raw
  gyroZRads := f32 20 raw
  tempC := f32 24 raw

structure MotionStatePayload where
  speedMps : Float32
  steeringAngleDeg : Float32
  yawRateRads : Float32
  accelerationMps2 : Float32
  gear : UInt8
  brakeActive : UInt8

def MotionStatePayload.size : Nat := 20

def MotionStatePayload.decode (raw : Bytes) : MotionStatePayload where
  speedMps := f32 0 raw
  steeringAngleDeg := f32 4 raw
  yawRateRads := f32 8 raw
  accelerationMps2 := f32 12 raw
  gear := u8At 16 raw
  brakeActive := u8At 17 raw

/-- `GpsFixPayload` of the ego packets; `SourceGnssFixPayload` has the same layout. -/
structure GpsFixPayload where
  latitudeDeg : Float
  longitudeDeg : Float
  altitudeM : Float
  speedMps : Float32
  headingDeg : Float32
  fixQuality : UInt8
  satellites : UInt8
  hdop : Float32

def GpsFixPayload.size : Nat := 40

def GpsFixPayload.decode (raw : Bytes) : GpsFixPayload where
  latitudeDeg := f64 0 raw
  longitudeDeg := f64 8 raw
  altitudeM := f64 16 raw
  speedMps := f32 24 raw
  headingDeg := f32 28 raw
  fixQuality := u8At 32 raw
  satellites := u8At 33 raw
  hdop := f32 34 raw

structure SessionFramePayload where
  gpsLatDeg : Float
  gpsLonDeg : Float
  gpsAltM : Float
  gpsSpeedMps : Float32
  gpsHeadingDeg : Float32
  gpsFixQuality : UInt8
  gpsSatellites : UInt8
  gpsHdop : Float32
  imuAccXMps2 : Float32
  imuAccYMps2 : Float32
  imuAccZMps2 : Float32
  imuGyroXRads : Float32
  imuGyroYRads : Float32
  imuGyroZRads : Float32
  recordActive : UInt8
  syncLocked : UInt8
  statusWord : UInt16
  frameIndex : UInt32

def SessionFramePayload.size : Nat := 70

def SessionFramePayload.decode (raw : Bytes) : SessionFramePayload where
  gpsLatDeg := f64 0 raw
  gpsLonDeg := f64 8 raw
  gpsAltM := f64 16 raw
  gpsSpeedMps := f32 24 raw
  gpsHeadingDeg := f32 28 raw
  gpsFixQuality := u8At 32 raw
  gpsSatellites := u8At 33 raw
  gpsHdop := f32 34 raw
  imuAccXMps2 := f32 38 raw
  imuAccYMps2 := f32 42 raw
  imuAccZMps2 := f32 46 raw
  imuGyroXRads := f32 50 raw
  imuGyroYRads := f32 54 raw
  imuGyroZRads := f32 58 raw
  recordActive := u8At 62 raw
  syncLocked := u8At 63 raw
  statusWord := u16At 64 raw
  frameIndex := u32At 66 raw

/-! ## Payloads of the source packets -/

structure SourceEventPayload where
  eventId : UInt64
  eventType : UInt16
  flags : UInt16
  durationNs : UInt64

def SourceEventPayload.size : Nat := 24

def SourceEventPayload.decode (raw : Bytes) : SourceEventPayload where
  eventId := u64At 0 raw
  eventType := u16At 8 raw
  flags := u16At 10 raw
  durationNs := u64At 12 raw

structure SourceRtkStatusPayload where
  fixType : UInt8
  correctionAgeS : UInt8
  baselineMm : UInt32
  solutionStatus : UInt16

def SourceRtkStatusPayload.size : Nat := 16

def SourceRtkStatusPayload.decode (raw : Bytes) : SourceRtkStatusPayload where
  fixType := u8At 0 raw
  correctionAgeS := u8At 1 raw
  baselineMm := u32At 2 raw
  solutionStatus := u16At 6 raw

structure SourceDiagnosticsHeader where
  healthState : UInt8
  sirenState : UInt8
  batteryPct : UInt8
  diskFreePct : UInt8
  temperatureC : Int16
  messageLen : UInt16

def SourceDiagnosticsHeader.size : Nat := 8

def SourceDiagnosticsHeader.decode (raw : Bytes) : SourceDiagnosticsHeader where
  healthState := u8At 0 raw
  sirenState := u8At 1 raw
  batteryPct := u8At 2 raw
  diskFreePct := u8At 3 raw
  temperatureC := i16 4 raw
  messageLen := u16At 6 raw

/-! ## Payloads of the contract frames -/

structure AudioBlockBinaryHeader where
  audioBlockId : UInt64
  t0Ns : UInt64
  t1Ns : UInt64
  sampleRateHz : UInt32
  channelsCount : UInt16
  bytesPerSample : UInt16
  framesCount : UInt32
  layout : UInt32
  dataSize : UInt32

def AudioBlockBinaryHeader.size : Nat := 48

def AudioBlockBinaryHeader.decode (raw : Bytes) : AudioBlockBinaryHeader where
  audioBlockId := u64At 0 raw
  t0Ns := u64At 8 raw
  t1Ns := u64At 16 raw
  sampleRateHz := u32At 24 raw
  channelsCount := u16At 28 raw
  bytesPerSample := u16At 30 raw
  framesCount := u32At 32 raw
  layout := u32At 36 raw
  dataSize := u32At 40 raw

structure ImuWindowPacket where
  windowId : UInt64
  t0Ns : UInt64
  t1Ns : UInt64
  sampleCount : UInt16
  flags : UInt16
  accelMeanXMps2 : Float32
  accelMeanYMps2 : Float32
  accelMeanZMps2 : Float32
  gyroMeanXRadS : Float32
  gyroMeanYRadS : Float32
  gyroMeanZRadS : Float32

/-- The velocity and angle increments behind the means are not decoded. -/
def ImuWindowPacket.size : Nat := 76

def ImuWindowPacket.decode (raw : Bytes) : ImuWindowPacket where
  windowId := u64At 0 raw
  t0Ns := u64At 8 raw
  t1Ns := u64At 16 raw
  sampleCount := u16At 24 raw
  flags := u16At 26 raw
  accelMeanXMps2 := f32 28 raw
  accelMeanYMps2 := f32 32 raw
  accelMeanZMps2 := f32 36 raw
  gyroMeanXRadS := f32 40 raw
  gyroMeanYRadS := f32 44 raw
  gyroMeanZRadS := f32 48 raw

structure TrajectoryPointPacket where
  tNs : UInt64
  xM : Float32
  yM : Float32
  zM : Float32
  vxMps : Float32
  vyMps : Float32
  vzMps : Float32
  yawRad : Float32
  pitchRad : Float32
  rollRad : Float32
  yawRateRadS : Float32
  pathSM : Float32
  vehicleSpeedMps : Float32
  flags : UInt32

def TrajectoryPointPacket.size : Nat := 64

def TrajectoryPointPacket.decode (raw : Bytes) : TrajectoryPointPacket where
  tNs := u64At 0 raw
  xM := f32 8 raw
  yM := f32 12 raw
  zM := f32 16 raw
  vxMps := f32 20 raw
  vyMps := f32 24 raw
  vzMps := f32 28 raw
  yawRad := f32 32 raw
  pitchRad := f32 36 raw
  rollRad := f32 40 raw
  yawRateRadS := f32 44 raw
  pathSM := f32 48 raw
  vehicleSpeedMps := f32 52 raw
  flags := u32At 56 raw

structure GpsFixPacket where
  tNs : UInt64
  latDeg : Float
  lonDeg : Float
  altM : Float
  speedMps : Float32
  headingRad : Float32
  hAccM : Float32
  vAccM : Float32
  fixType : UInt8
  rtkStatus : UInt8
  satellites : UInt8
  flags : UInt32

def GpsFixPacket.size : Nat := 56

def GpsFixPacket.decode (raw : Bytes) : GpsFixPacket where
  tNs := u64At 0 raw
  latDeg := f64 8 raw
  lonDeg := f64 16 raw
  altM := f64 24 raw
  speedMps := f32 32 raw
  headingRad := f32 36 raw
  hAccM := f32 40 raw
  vAccM := f32 44 raw
  fixType := u8At 48 raw
  rtkStatus := u8At 49 raw
  satellites := u8At 50 raw
  flags := u32At 52 raw

/-! ## Decoded records -/

structure GnssPoint where
  tsNs : Int := 0
  latitudeDeg : Float := 0
  longitudeDeg : Float := 0
  altitudeM : Float := 0
  speedMps : Float32 := 0
  headingDeg : Float32 := 0
  fixQuality : UInt8 := 0
  satellites : UInt8 := 0
  hdop : Float32 := 99.9
  deriving DecidableEq

structure ImuSample where
  tsNs : Int := 0
  accXMps2 : Float32 := 0
  accYMps2 : Float32 := 0
  accZMps2 : Float32 := 0
  gyroXRads : Float32 := 0
  gyroYRads : Float32 := 0
  gyroZRads : Float32 := 0
  deriving DecidableEq

structure TrajectoryPoint where
  tsNs : Int := 0
  latitudeDeg : Float := 0
  longitudeDeg : Float := 0
  altitudeM : Float := 0
  velNMps : Float32 := 0
  velEMps : Float32 := 0
  velDMps : Float32 := 0
  rollDeg : Float32 := 0
  pitchDeg : Float32 := 0
  yawDeg : Float32 := 0
  solutionType : UInt8 := 0
  deriving DecidableEq

structure AudioBlock where
  tsNs : Int := 0
  channels : UInt8 := 0
  sampleRateHz : UInt32 := 0
  frameCount : UInt32 := 0
  samples : List Int16 := []
  deriving DecidableEq

structure MotionSample where
  tsNs : Int := 0
  speedMps : Float32 := 0
  steeringAngleDeg : Float32 := 0
  yawRateRads : Float32 := 0
  accelerationMps2 : Float32 := 0
  deriving DecidableEq

/-- The streams of the ego log. No demuxer fills `rtk`, so it has no records here. -/
structure DecodedEgoStreams where
  gps : List GnssPoint := []
  imu : List ImuSample := []
  trajectory : List TrajectoryPoint := []
  audio : List AudioBlock := []
  motion : List MotionSample := []
  sessionFrameCount : UInt64 := 0
  deriving DecidableEq

structure SourceEvent where
  tsNs : Int := 0
  tsEgoNs : Int := 0
  eventId : UInt64 := 0
  eventType : UInt16 := 0
  flags : UInt16 := 0
  durationNs : Int := 0
  deriving DecidableEq

structure RtkStatus where
  tsNs : Int := 0
  fixType : UInt8 := 0
  correctionAgeS : UInt8 := 0
  baselineMm : UInt32 := 0
  solutionStatus : UInt16 := 0
  deriving DecidableEq

structure ScenarioMeta where
  tsNs : Int := 0
  scenarioId : Bytes := []
  sourceId : Bytes := []
  configVersion : Bytes := []
  deriving DecidableEq

structure Diagnostics where
  tsNs : Int := 0
  healthState : UInt8 := 0
  sirenState : UInt8 := 0
  batteryPct : UInt8 := 255
  diskFreePct : UInt8 := 0
  temperatureC : Float32 := 0
  message : Bytes := []
  deriving DecidableEq

structure DecodedSourceStreams where
  events : List SourceEvent := []
  gnss : List GnssPoint := []
  rtk : List RtkStatus := []
  scenarioMetas : List ScenarioMeta := []
  diagnostics : List Diagnostics := []
  warnings : List Bytes := []
  deriving DecidableEq

end LocalPC.Offline
