import LocalPC.Lib.LittleEndian
import LocalPC.Lib.Framing
import LocalPC.Contract.Crc32
import LocalPC.Contract.FrameHeader
import LocalPC.Protocol.Checksum
import LocalPC.Protocol.Serialization
import LocalPC.Runtime.ContractFrameIo
import LocalPC.Runtime.FrameCorruption
import LocalPC.Lib.PieceStream
import LocalPC.Runtime.ContractTcpClient
import LocalPC.Lib.Text
import LocalPC.Lib.Runs
import LocalPC.Lib.SortedRange
import LocalPC.Runtime.SessionDirectory
import LocalPC.Runtime.SessionIntegrity
import LocalPC.Runtime.CleanSession
import LocalPC.Lib.SegmentedLog
import LocalPC.Runtime.ChunkWriter
import LocalPC.Runtime.ChunkLog
import LocalPC.Runtime.ChunkWriterInvariant
import LocalPC.Runtime.ChunkWriterRuns
import LocalPC.Runtime.ChunkNumbers
import LocalPC.Runtime.Recording
import LocalPC.Lib.BoundedRead
import LocalPC.Lib.FloatText
import LocalPC.Offline.DecodedStreams
import LocalPC.Offline.JsonWriter
import LocalPC.Offline.JsonReader
import LocalPC.Offline.JsonRuns
import LocalPC.Offline.JsonScalars
import LocalPC.Offline.JsonText
import LocalPC.Offline.JsonCut
import LocalPC.Offline.JsonReports
import LocalPC.Offline.EgoLogReader
import LocalPC.Offline.Demuxers
import LocalPC.Offline.ReadRange
import LocalPC.Offline.IndexFile
import LocalPC.Offline.RoundTrip
import LocalPC.Offline.Manifest
import LocalPC.Lib.Crc
import LocalPC.Lib.Neighbours
import LocalPC.Offline.Checksum
import LocalPC.Offline.StreamValidation
import LocalPC.Offline.ScanAccumulator
import LocalPC.Offline.ScanArithmetic
import LocalPC.Offline.GapEvents
import LocalPC.Offline.LegacyPackets
import LocalPC.Offline.LogValidator
import LocalPC.Offline.SingleScan
import LocalPC.Offline.GapMonitors
import LocalPC.Offline.Truncation
import LocalPC.Offline.Mdf4Writer
import LocalPC.Offline.Mdf4Layout
import LocalPC.Offline.Mdf4Blocks
import LocalPC.Offline.Mdf4Reader
import LocalPC.Offline.Mdf4Export
import LocalPC.Lib.Sha256
import LocalPC.Offline.Sha256Sidecar
import LocalPC.Runtime.Diagnostics
import LocalPC.Runtime.PacketBuffer
import LocalPC.Runtime.SessionManager
import LocalPC.Runtime.ChunkFiles
import LocalPC.Runtime.SegmentRuns
import LocalPC.Runtime.RuntimeService
import LocalPC.Runtime.Daemon
import LocalPC.Runtime.DaemonInvariant
import LocalPC.Runtime.FinishedSessions
import LocalPC.Runtime.Finalization
import LocalPC.Runtime.FrameConservation
import LocalPC.Runtime.FrameLoss
import LocalPC.Runtime.AcceptedFrames
import LocalPC.Runtime.AutoStart
import LocalPC.Runtime.SessionMetadata
import LocalPC.Offline.MetadataLoader
import LocalPC.Lib.BestTrial
import LocalPC.Lib.Intervals
import LocalPC.Lib.FloatRounding
import LocalPC.Lib.FloatArithmetic
import LocalPC.Lib.SignedInt
import LocalPC.Offline.TimeSync
import LocalPC.Offline.FallbackSearch
import LocalPC.Offline.FallbackOffset
import LocalPC.Offline.ValidRanges
import LocalPC.Offline.TimeAligner
import LocalPC.Offline.ArrivalOrder
import LocalPC.Offline.ExactInterpolation
import LocalPC.Offline.SceneGeometry
import LocalPC.Offline.SceneBuilder
import LocalPC.Offline.SyncStage
import LocalPC.Lib.Visit
import LocalPC.Offline.StoppedScan
import LocalPC.Offline.ConfigLoader
import LocalPC.Offline.TimeGrid
import LocalPC.Offline.ChannelBuilder
import LocalPC.Offline.PreparedGroups
import LocalPC.Offline.SpeedChannels
import LocalPC.Offline.SceneSegments
import LocalPC.Offline.SirenPeriods
import LocalPC.Offline.LinkedSegments
import LocalPC.Lib.FloatOrder
import LocalPC.Lib.LeastElement
import LocalPC.Offline.SegmentMetrics
import LocalPC.Offline.TimeMirror
import LocalPC.Offline.BlockAlignment
import LocalPC.Offline.DataQuality
import LocalPC.Offline.LogFormats
import LocalPC.Runtime.SessionCounters
import LocalPC.Runtime.LossConservation
import LocalPC.Runtime.PacketFifo
import LocalPC.Runtime.FileIngest
import LocalPC.Offline.LegacyAudio
import LocalPC.Offline.ScenarioMeta
import LocalPC.Protocol.TransportGuard
import LocalPC.Runtime.Sc589Unwrap
import LocalPC.Runtime.Sc589Recovery
import LocalPC.Offline.S3Uploader
import LocalPC.Offline.CutDocuments
import LocalPC.Lib.FileOps
import LocalPC.Runtime.FileTrace
import LocalPC.Offline.KilledRecorder
import LocalPC.Runtime.FrameOrder
import LocalPC.Runtime.StopProgress
import LocalPC.Lib.RotatingLog
import LocalPC.Runtime.ErrorLog
import LocalPC.Runtime.ControlIpc
import LocalPC.Offline.ExportedTables
import LocalPC.Offline.RecordedSession
import LocalPC.Offline.UploadedObjects
import LocalPC.Offline.FullRuns
import LocalPC.Offline.SessionRuns
import LocalPC.Runtime.SealedSessions
import LocalPC.Offline.DaemonSessions
import LocalPC.Offline.UploadedSessions
import LocalPC.Offline.ExportValidation
import LocalPC.Offline.TriggeredRuns
