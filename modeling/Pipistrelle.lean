import Pipistrelle.Lib.Outcome
import Pipistrelle.Codec.Reader
import Pipistrelle.Codec.Packet
import Pipistrelle.Codec.Properties
import Pipistrelle.Codec.PacketCodec
import Pipistrelle.Codec.PropertyRoundTrip
import Pipistrelle.Codec.Framing
import Pipistrelle.Codec.RoundTrip
import Pipistrelle.Lib.ChunkedDecode
import Pipistrelle.Codec.Panics
import Pipistrelle.Connection.MainLoop
import Pipistrelle.Codec.Overrun
import Pipistrelle.Connection.WholeFrame
import Pipistrelle.Lib.Assoc
import Pipistrelle.Lib.PathTree
import Pipistrelle.Router.Trie
import Pipistrelle.Router.Refinement
import Pipistrelle.Router.Matching
import Pipistrelle.Auth.AuthConfig
import Pipistrelle.Auth.ReadAcl
import Pipistrelle.Broker.ClientPacket
import Pipistrelle.Broker.Connect
import Pipistrelle.Broker.Frame
import Pipistrelle.Lib.Run
import Pipistrelle.Broker.Network
import Pipistrelle.Broker.Takeover
import Pipistrelle.Broker.Persistence
import Pipistrelle.Broker.WriteOrder
import Pipistrelle.Broker.Ledger
import Pipistrelle.Broker.Provenance
import Pipistrelle.Connection.Handshake
import Pipistrelle.Codec.Reencode
import Pipistrelle.Broker.Delivery
import Pipistrelle.Lib.RoundRobin
import Pipistrelle.Broker.SharedGroups
import Pipistrelle.Lib.LastWrites
import Pipistrelle.Router.Replay
import Pipistrelle.Broker.Recovery
import Pipistrelle.Broker.PacketIds
import Pipistrelle.Broker.InFlight
import Pipistrelle.Lib.TidyTree
import Pipistrelle.Router.Invariant
import Pipistrelle.Router.Undo
import Pipistrelle.Codec.PropertyBlock
import Pipistrelle.Codec.WillSection
import Pipistrelle.Broker.Forwarding
import Pipistrelle.Codec.Strictness
import Pipistrelle.Broker.Replies
import Pipistrelle.Connection.AfterDisconnect
import Pipistrelle.Broker.GrantedQos
import Pipistrelle.Auth.SharedAcl
import Pipistrelle.Connection.WebSocket
import Pipistrelle.Connection.WebSocketFlush
import Pipistrelle.Broker.Bridge
import Pipistrelle.Broker.Outbox
import Pipistrelle.Connection.ClientStream
import Pipistrelle.Connection.OverWebSocket
import Pipistrelle.Connection.Server
import Pipistrelle.Connection.BridgeLink
import Pipistrelle.Connection.BridgeReads
import Pipistrelle.Connection.Writer
import Pipistrelle.Broker.Shutdown
import Pipistrelle.Broker.Threads
import Pipistrelle.Broker.ThreadSafety
import Pipistrelle.Broker.Retired
import Pipistrelle.Auth.Credentials
import Pipistrelle.Broker.Admission
import Pipistrelle.Lib.TextReader
import Pipistrelle.Broker.Metrics
