import Fips.Lib.Chunks
import Fips.Lib.Exec
import Fips.Lib.ExactCodec
import Fips.Lib.Heap
import Fips.Lib.Promises
import Fips.Lib.Hex
import Fips.Lib.JsMap
import Fips.Lib.LittleEndian
import Fips.Lib.Run
import Fips.Lib.TwoRuns
import Fips.Lib.KeyedCounter
import Fips.Lib.Versions
import Fips.Lib.RootedTree
import Fips.Lib.SlidingWindow
import Fips.Codec.Binary
import Fips.Codec.Prefix
import Fips.Crypto.Suite
import Fips.Crypto.Toy
import Fips.Crypto.Replay
import Fips.Crypto.ReplayModel
import Fips.Mmp.ReceiverReports
import Fips.Mmp.ReportAccounting
import Fips.Noise.SymmetricState
import Fips.Noise.Handshake
import Fips.Noise.Agreement
import Fips.Noise.Exchange
import Fips.Noise.Rejection
import Fips.Fmp.Wire
import Fips.Fmp.Link
import Fips.Fmp.Handshake
import Fips.Fmp.Rejection
import Fips.Fmp.Channel
import Fips.Fmp.Nonces
import Fips.Protocol.Session
import Fips.Protocol.Link
import Fips.Protocol.Discovery
import Fips.Protocol.Filter
import Fips.Fsp.Wire
import Fips.Fsp.DirectTransport
import Fips.Fsp.Reassembly
import Fips.Fsp.Session
import Fips.Fsp.Handshake
import Fips.Fsp.Rejection
import Fips.Fsp.Evolution
import Fips.Fsp.Records
import Fips.Fsp.Nonces
import Fips.Fsp.Closing
import Fips.Node.Session
import Fips.Node.SessionManager
import Fips.Node.Receipt
import Fips.Node.Transitions
import Fips.Node.Objects
import Fips.Node.Epochs
import Fips.Node.Stored
import Fips.Node.SetupAtomicity
import Fips.Node.PeerAdmission
import Fips.Node.IdentityBinding
import Fips.Node.RemoteKeys
import Fips.Node.Arrivals
import Fips.Node.Delivery
import Fips.Node.PreviousEpoch
import Fips.Node.EarlyRecords
import Fips.Node.PeerState
import Fips.Node.PacketProcessor
import Fips.Protocol.Tree
import Fips.Node.LearnedRoutes
import Fips.Node.OriginLookups
import Fips.Node.LookupRegistry
import Fips.Node.Routing
import Fips.Node.RoutingStep
import Fips.Node.RoutingFrame
import Fips.Node.TreeState
import Fips.Node.Spanning
import Fips.Node.TreeVersions
import Fips.Node.TreeRouting
import Fips.Node.TreeFrames
import Fips.Node.Transit
import Fips.Node.RoutedFrames
import Fips.Node.Flooding
import Fips.Node.SplitHorizon
import Fips.Protocol.Exactness
import Fips.Transport.WebSocketRecords
import Fips.Node.Demultiplexing
import Fips.Node.FilterAnnouncements
import Fips.Node.RoleMessages
import Fips.Protocol.Membership
import Fips.Node.FilterAggregates
import Fips.Node.RouteTable
import Fips.Lib.SmoothRoundRobin
import Fips.Node.RouteShares
import Fips.Node.RouteLikeness
import Fips.Node.RouteQueries
import Fips.Node.PendingResponders
import Fips.Lib.HopLimit
import Fips.Node.FloodBounds
import Fips.Lib.TextCoding
import Fips.Transport.Ethernet
import Fips.Transport.EthernetFrames
import Fips.Lib.UnitStrings
import Fips.Node.SocketAddr
import Fips.Node.RecentPeers
import Fips.Node.RecentPeersClosure
import Fips.Node.RecentPeersObjects
import Fips.Lib.BestPerKey
import Fips.Node.RecentPeersOrder
import Fips.Transport.WebRtcConfig
import Fips.Transport.WebRtcSignal
import Fips.Transport.WebRtcTransport
import Fips.Transport.WebRtcFrames
import Fips.Transport.WebRtcCapacity
import Fips.Transport.WebRtcOffers
import Fips.Transport.WebRtcSignals
import Fips.Node.Lifecycle
import Fips.Node.LifecycleRuns
import Fips.Node.LifecycleOrder
import Fips.Node.LifecycleEpochs
import Fips.Fmp.Remote
import Fips.Node.Connects
import Fips.Node.CarrierBinding
import Fips.Node.CarrierPackets
import Fips.Node.CarrierMsg1
import Fips.Node.CarrierMsg2
import Fips.Node.CarrierFrames
import Fips.Node.CarrierRuns
import Fips.Transport.WebSocketTransport
import Fips.Transport.WebSocketSeeds
import Fips.Transport.WebSocketTimers
import Fips.Transport.WebSocketHints
