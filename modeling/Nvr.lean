import Nvr.Lib.ByteFile
import Nvr.Lib.WordRecord
import Nvr.Lib.FixedWidth
import Nvr.Lib.FileStore
import Nvr.Storage.Types
import Nvr.Storage.Device
import Nvr.Storage.BasketFile
import Nvr.Storage.Basket
import Nvr.Lib.Tiling
import Nvr.Lib.Run
import Nvr.Lib.Custody
import Nvr.Proofs.BasketStep
import Nvr.Proofs.BasketLayout
import Nvr.Storage.BasketRead
import Nvr.Proofs.FrameStream
import Nvr.Proofs.Playback
import Nvr.Proofs.RoundTrip
import Nvr.Storage.BasketScan
import Nvr.Proofs.ScanIframe
import Nvr.Storage.Disk
import Nvr.Storage.DiskLoad
import Nvr.Proofs.DiskStep
import Nvr.Proofs.Loaded
import Nvr.Proofs.DiskMoves
import Nvr.Proofs.Ownership
import Nvr.Storage.Mng
import Nvr.Proofs.Readers
import Nvr.Proofs.Tables
import Nvr.Proofs.FileLog
import Nvr.Proofs.Discards
import Nvr.Proofs.Overwriting
import Nvr.Server.Rec
import Nvr.Proofs.AlarmHold
import Nvr.Server.ParamSys
import Nvr.Proofs.ConfigSave
import Nvr.Lib.NalPayload
import Nvr.Rtsp.H264
import Nvr.Proofs.Packetize
import Nvr.Proofs.FreeSpace
import Nvr.Rtsp.Session
import Nvr.Proofs.SessionPairs
import Nvr.Rtsp.Parse
import Nvr.Proofs.Segmentation
import Nvr.Lib.RingBuffer
import Nvr.AvPool.Pool
import Nvr.Proofs.PoolRecord
import Nvr.Proofs.PoolChain
import Nvr.AvPool.Read
import Nvr.Proofs.PoolRead
import Nvr.Proofs.PoolOldestI
import Nvr.Proofs.PoolReader
import Nvr.Private.Syscfg
import Nvr.Proofs.SyscfgSaves
import Nvr.Lib.FirstMatch
import Nvr.Ipnc.Search
import Nvr.Proofs.SearchSessions
import Nvr.Ipnc.Handles
import Nvr.Proofs.CameraHandles
import Nvr.Storage.Query
import Nvr.Proofs.Ranges
import Nvr.Proofs.ClippedQuery
import Nvr.Storage.BasketSeek
import Nvr.Proofs.SeekInside
import Nvr.Proofs.SessionRange
import Nvr.Server.Channel
import Nvr.Proofs.StreamCounts
import Nvr.Lib.Collect
import Nvr.Update.File
import Nvr.Update.Receive
import Nvr.Proofs.UpgradeFile
import Nvr.Proofs.Upgrade
import Nvr.Server.LibCommon
import Nvr.Proofs.CommandAnswers
import Nvr.Proofs.GopSteps
import Nvr.Lib.Floor
import Nvr.Proofs.TimeSeek
import Nvr.Storage.Record
import Nvr.Proofs.FormatRestart
import Nvr.Proofs.HeaderText
import Nvr.Proofs.Framing
import Nvr.Lib.Iterate
import Nvr.Proofs.PoolWrap
import Nvr.Proofs.PoolLoops
import Nvr.Storage.RecordQuery
import Nvr.Proofs.QueryAnswer
import Nvr.Proofs.StartEnds
import Nvr.Storage.Find
import Nvr.Proofs.Calendar
import Nvr.Proofs.EntryTable
import Nvr.Proofs.StoredBaskets
import Nvr.Proofs.DamagedTable
import Nvr.Player.AudioPlay
import Nvr.Proofs.AudioChunks
import Nvr.Lib.Alternate
import Nvr.Proofs.RecCtrl
import Nvr.Server.Alarm
import Nvr.Proofs.AlarmEvents
import Nvr.Proofs.RecModes
import Nvr.Server.ParamImport
import Nvr.Proofs.ConfigImport
import Nvr.Server.SmartSearch
import Nvr.Proofs.SmartHeartbeats
import Nvr.Server.NetSearch
import Nvr.Proofs.CameraAssignment
import Nvr.Player.Stream
import Nvr.Proofs.ReplayQueue
import Nvr.Update.Pointers
import Nvr.Proofs.BadUpgrade
import Nvr.Player.AudioThread
import Nvr.Lib.BitString
import Nvr.Proofs.AudioRequests
import Nvr.Lib.LapRing
import Nvr.Player.AudioRing
import Nvr.Proofs.AudioRing
import Nvr.Lib.BlockCopy
import Nvr.Player.TileCopy
import Nvr.Proofs.TileRoundTrip
import Nvr.Update.Describe
import Nvr.Proofs.DesScan
import Nvr.Lib.EqualRuns
import Nvr.RtspClient.Sink
import Nvr.Proofs.SinkFrames
import Nvr.Lib.ExpGolomb
import Nvr.RtspClient.BitVector
import Nvr.Proofs.BitReads
import Nvr.Lib.EmulationPrevention
import Nvr.RtspClient.Rbsp
import Nvr.Proofs.RbspBytes
import Nvr.RtspClient.H264Parse
import Nvr.Lib.BitGrammar
import Nvr.RtspClient.SpsSyntax
import Nvr.Proofs.SpsReader
import Nvr.Proofs.SpsFields
import Nvr.Proofs.SpsInside
import Nvr.Proofs.SpsResolution
import Nvr.Player.Decode
import Nvr.Proofs.FrameDrops
import Nvr.Player.Occupancy
import Nvr.Proofs.DecoderCount
import Nvr.Gui.RecInfoBar
import Nvr.Proofs.TimelineWindow
import Nvr.Player.AudioRecord
import Nvr.Proofs.AudioRecording
import Nvr.Lib.Buffer
import Nvr.Platform.Talk
import Nvr.Proofs.TalkFraming
import Nvr.Storage.Export
import Nvr.Proofs.ExportThread
import Nvr.Ipnc.Rpc
import Nvr.Proofs.RpcAnswers
import Nvr.Storage.StorageLib
import Nvr.Proofs.SharedMemory
import Nvr.Storage.ReadSessions
import Nvr.Proofs.FormatSessions
import Nvr.Platform.P2pTutk
import Nvr.Proofs.P2pSessions
import Nvr.Proofs.DisplayBuffers
import Nvr.Lib.Slot
import Nvr.Lib.Fairness
import Nvr.Lib.Mailbox
import Nvr.Player.Control
import Nvr.Proofs.StreamStates
import Nvr.Proofs.PlayerTokens
import Nvr.Proofs.PlayerTurns
import Nvr.Proofs.PlayerControl
import Nvr.Proofs.PlayerRuns
import Nvr.Lib.Marker
import Nvr.Proofs.PlayerRest
import Nvr.Proofs.PlayerStatus
import Nvr.Proofs.SplitScreens
import Nvr.Proofs.Base64Text
import Nvr.Proofs.BufQueues
