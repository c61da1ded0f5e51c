import Pronet.Library.Runs
import Pronet.Msg.User
import Pronet.Msg.Server
import Pronet.Msg.ServerTables
import Pronet.Msg.ServerUsers
import Pronet.Msg.C2s
import Pronet.Msg.LoginSystem
import Pronet.Msg.LinkFrames
import Pronet.Msg.LoginAgreement
import Pronet.Library.Ranges
import Pronet.Msg.Receive
import Pronet.Shared.SgiAlloc
import Pronet.Shared.SgiAllocSpec
import Pronet.Shared.SgiPool
import Pronet.Shared.SgiPoolInv
import Pronet.Shared.SgiPoolRun
import Pronet.Library.Framing
import Pronet.Net.RecvPool
import Pronet.Rtp.Packet
import Pronet.Rtp.TcpSession
import Pronet.Rtp.TcpFraming
import Pronet.Rtp.SendReceive
import Pronet.Net.TcpTransport
import Pronet.Net.TransportWrites
import Pronet.Util.TimerFactory
import Pronet.Util.TimerInvariant
import Pronet.Net.HubSockets
import Pronet.Net.HandOver
import Pronet.Library.Alternation
import Pronet.Msg.ServerObserver
import Pronet.Msg.C2sTables
import Pronet.Msg.MsgServer
import Pronet.Msg.Accounting
import Pronet.Net.RecvQueue
import Pronet.Msg.Encode
import Pronet.Msg.SessionOwnership
import Pronet.Net.SendOwed
import Pronet.Rtp.Bucket
import Pronet.Rtp.SessionWrapper
import Pronet.Rtp.WrapperSend
import Pronet.Msg.ClientQueue
import Pronet.Msg.ClientQueueRun
import Pronet.Msg.Routing
import Pronet.Msg.RoutingSpec
import Pronet.Msg.LoginFirst
import Pronet.Msg.Authentic
import Pronet.Net.HandshakeRun
import Pronet.Net.Connector
import Pronet.Net.ServiceHandshake
import Pronet.Net.HandshakeAgreement
import Pronet.Net.HubPipes
import Pronet.Util.TimerFiring
import Pronet.Net.ReactorMasks
import Pronet.Net.ReactorsAgree
import Pronet.Net.ReactorPair
import Pronet.Net.NotifyPipe
import Pronet.Net.SslTransport
import Pronet.Net.SslWrites
import Pronet.Net.SuspendRecv
import Pronet.Util.Reorder
import Pronet.Util.ReorderRun
import Pronet.Library.Beats
import Pronet.Util.HeartbeatPhase
import Pronet.Util.ConfigStream
import Pronet.Util.LossRate
import Pronet.Util.ConfigScan
import Pronet.Util.ConfigLines
import Pronet.Util.ConfigGrammar
import Pronet.Util.ConfigRoundTrip
import Pronet.Library.Ledger
import Pronet.Rtp.BucketLedger
import Pronet.Rtp.VideoLedger
import Pronet.Library.Excerpts
import Pronet.Rtp.VideoFrames
import Pronet.Net.FdLink
import Pronet.Net.FdDelivery
import Pronet.Rtp.SessionEvents
import Pronet.Rtp.SessionProtocol
import Pronet.Rtp.UdpBinding
import Pronet.Rtp.HeaderParser
import Pronet.Rtp.PortAllocator
import Pronet.Rtp.InPlace
import Pronet.Library.Numerals
import Pronet.Rtp.Keepalive
import Pronet.Util.Scanf
import Pronet.Msg.UserText
import Pronet.Library.OrderedMultimap
import Pronet.Util.ConfigStore
import Pronet.Rtp.SendTicks
import Pronet.Msg.LoginMessage
import Pronet.Library.Monitor
import Pronet.Net.SslHandshakeRun
import Pronet.Util.CommandTask
import Pronet.Util.ConfigFile
import Pronet.Util.ConfigFileRoundTrip
import Pronet.Util.RecursiveMutex
import Pronet.Util.RwMutex
import Pronet.Util.ThreadCondition
import Pronet.Library.Deferred
import Pronet.Net.ServiceHost
import Pronet.Rtp.RtpService
import Pronet.Rtp.RtpServiceRun
import Pronet.Rtp.SessionHandshake
import Pronet.Net.TpReactorRun
