import PS3Moonlight.Lib.DropQueue
import PS3Moonlight.Lib.Ring
import PS3Moonlight.Audio.RingBuffer
import PS3Moonlight.Lib.Loop
import PS3Moonlight.Video.Basic
import PS3Moonlight.Video.FrameRing
import PS3Moonlight.Lib.Bytes
import PS3Moonlight.Video.AnnexB
import PS3Moonlight.Video.FrameHistory
import PS3Moonlight.Video.Submit
import PS3Moonlight.Video.SubmitMemory
import PS3Moonlight.Video.Delivery
import PS3Moonlight.Video.AvccWalk
import PS3Moonlight.Video.AvccRecords
import PS3Moonlight.Video.ReturnCode
import PS3Moonlight.Audio.SpuOpus
import PS3Moonlight.Audio.SpuOpusMatching
import PS3Moonlight.Lib.Marker
import PS3Moonlight.Handshake.Http
import PS3Moonlight.Handshake.Pair
import PS3Moonlight.Handshake.PairSecurity
import PS3Moonlight.Handshake.PairForgery
import PS3Moonlight.Ui.Attempt
import PS3Moonlight.Ui.Cancellation
import PS3Moonlight.Audio.Channels
import PS3Moonlight.Audio.SpuShutdown
import PS3Moonlight.Lib.Decimal
import PS3Moonlight.Handshake.Launch
import PS3Moonlight.Handshake.AppList
import PS3Moonlight.Handshake.Transfer
import PS3Moonlight.Handshake.Credentials
import PS3Moonlight.Handshake.UniqueId
import PS3Moonlight.Handshake.ServerInfo
import PS3Moonlight.Handshake.HexCodec
import PS3Moonlight.Handshake.PairRequests
import PS3Moonlight.Lib.Lines
import PS3Moonlight.Ui.Config
import PS3Moonlight.Ui.Selection
import PS3Moonlight.Ui.SettingsMenu
import PS3Moonlight.Ui.ConfigRoundTrip
import PS3Moonlight.Ui.TargetIp
import PS3Moonlight.Audio.SpuOpusCall
import PS3Moonlight.Audio.Playback
import PS3Moonlight.Lib.Cbc
import PS3Moonlight.Lib.Memory
import PS3Moonlight.Lib.Aes
import PS3Moonlight.Crypto.SpuAes
import PS3Moonlight.Lib.BlockHash
import PS3Moonlight.Lib.Sha256
import PS3Moonlight.Crypto.SpuSha256
import PS3Moonlight.Crypto.SpuCrypto
import PS3Moonlight.Audio.SpuInit
import PS3Moonlight.Lib.KeyStream
import PS3Moonlight.Input.Keycode
import PS3Moonlight.Input.Keyboard
import PS3Moonlight.Input.Mouse
import PS3Moonlight.Input.Faithful
import PS3Moonlight.Input.Controller
import PS3Moonlight.Lib.KeyedFold
import PS3Moonlight.Ui.ConfigOrder
import PS3Moonlight.Ui.ConfigLines
import PS3Moonlight.Ui.Ranges
import PS3Moonlight.Lib.Ledger
import PS3Moonlight.Video.Setup
import PS3Moonlight.Audio.Setup
import PS3Moonlight.Lib.LogField
import PS3Moonlight.Lib.Elimination
import PS3Moonlight.Lib.ErasureCode
import PS3Moonlight.Lib.Serial
import PS3Moonlight.Fec.Galois
import PS3Moonlight.Fec.InvertMat
import PS3Moonlight.Fec.ReedSolomon
import PS3Moonlight.Fec.Reconstruct
import PS3Moonlight.Connection.AppVersion
import PS3Moonlight.Audio.RtpQueue
import PS3Moonlight.Audio.RtpOrder
import PS3Moonlight.Audio.RtpRuns
import PS3Moonlight.Audio.RtpPackets
import PS3Moonlight.Audio.RtpSender
import PS3Moonlight.Audio.RtpRecovery
import PS3Moonlight.Audio.RtpFaithful
import PS3Moonlight.Lib.Batching
import PS3Moonlight.Threads.LinkedBlockingQueue
import PS3Moonlight.Input.Packets
import PS3Moonlight.Input.SendThread
import PS3Moonlight.Input.SendOwnership
import PS3Moonlight.Input.SendBatches
import PS3Moonlight.Input.SendMagic
import PS3Moonlight.Input.SendInvariant
import PS3Moonlight.Input.SendCurrent
import PS3Moonlight.Input.SendCalls
import PS3Moonlight.Input.SendFaithful
import PS3Moonlight.Input.SendRequests
import PS3Moonlight.Video.RtpQueue
import PS3Moonlight.Video.RtpStage
import PS3Moonlight.Video.RtpWindow
import PS3Moonlight.Video.RtpBlocks
import PS3Moonlight.Video.RtpFrames
import PS3Moonlight.Video.RtpDelivery
