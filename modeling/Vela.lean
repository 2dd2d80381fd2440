import Vela.Foundation.Machine
import Vela.Foundation.SerialNumber
import Vela.Foundation.UnorderedMap
import Vela.Network.RtpPacket
import Vela.Network.Datagram
import Vela.Sfu.Participant
import Vela.Sfu.Room
import Vela.Sfu.Remb
import Vela.Sfu.SFUServer
import Vela.Sfu.Forwarding
import Vela.Sfu.Interleaving
import Vela.Signaling.DtlsSrtp
import Vela.Signaling.RtpTransport
import Vela.Signaling.SecuredTransport
import Vela.SfuApp.Server
import Vela.SfuApp.Lifecycle
import Vela.Network.RTPHandler
import Vela.Network.Fragmentation
import Vela.Network.JitterBuffer
import Vela.Network.JitterBufferSteps
import Vela.Network.JitterBufferKeys
import Vela.Network.JitterBufferCompleteness
import Vela.Network.ReceivedUnits
import Vela.Network.LossyDelivery
import Vela.Network.TransparentDelivery
import Vela.Sfu.Registry
import Vela.SfuApp.Admission
import Vela.Common.JsonFields
import Vela.SignalingServer.RoomManager
import Vela.SignalingServer.Registry
import Vela.SignalingServer.Roster
import Vela.SignalingServer.Server
import Vela.SignalingServer.Relay
import Vela.SfuApp.MessageHandler
import Vela.Signaling.SignalingClient
import Vela.Signaling.MalformedFrames
import Vela.Foundation.Bracket
import Vela.Media.ReceiveRouter
import Vela.Media.StreamCallbacks
import Vela.Foundation.InsertionMap
import Vela.Foundation.ScriptValues
import Vela.Web.Server
import Vela.Web.Membership
import Vela.Web.Mesh
import Vela.Foundation.PercentDecoding
import Vela.Foundation.PosixPath
import Vela.Web.StaticFiles
import Vela.Web.Requests
import Vela.Network.WireFormat
import Vela.Network.PayloadGrammar
import Vela.Network.AnnexBScan
import Vela.Network.PacketStream
import Vela.Network.Departures
import Vela.Web.PublicFolder
import Vela.Common.Clock
import Vela.Media.AVSync
import Vela.Web.Farewells
import Vela.Web.MeshClient
import Vela.Network.PacketAccounting
import Vela.Foundation.MaximalRuns
import Vela.Network.AudioDelivery
import Vela.Network.GapReports
import Vela.Media.CaptureTimestamps
import Vela.Metrics.LossEstimator
import Vela.Signaling.ClientLifecycle
import Vela.Signaling.WebSocketFrames
import Vela.SignalingServer.FailedJoin
import Vela.Foundation.Ranks
import Vela.Metrics.LatencyHistogram
import Vela.Audio.AudioCapture
import Vela.Foundation.Substring
import Vela.Signaling.FingerprintBundle
import Vela.Network.NalScan
import Vela.Audio.AudioPlayback
import Vela.Common.FramePool
import Vela.Common.VideoFrame
import Vela.Foundation.Stores
import Vela.Capture.PixelConvert
import Vela.Capture.Nv12
import Vela.Capture.Bgra
import Vela.Foundation.Parts
import Vela.Media.LoneReceiver
import Vela.Media.StreamTasks
import Vela.Media.StreamIsolation
import Vela.Network.Hops
import Vela.Media.VideoDelivery
import Vela.Codec.Encoders
import Vela.Media.SendPipeline
import Vela.Media.GroupCall
import Vela.Signaling.Messages
import Vela.Signaling.Conversation
import Vela.Foundation.Segments
import Vela.Signaling.ReceiveLoop
import Vela.Network.AudioPlayout
import Vela.Media.ReceivePipeline
import Vela.Media.LoopbackCall
import Vela.Signaling.SecureLink
import Vela.Sfu.Linearization
import Vela.SfuApp.SecureCall
import Vela.SfuApp.Negotiation
import Vela.SfuApp.Agreement
