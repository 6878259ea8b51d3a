import RustProxy.Base.Transition
import RustProxy.Base.Table
import RustProxy.Base.Spawn
import RustProxy.Base.Exec
import RustProxy.Base.Fallible
import RustProxy.Base.Ring
import RustProxy.Base.BigEndian
import RustProxy.Base.Digits
import RustProxy.Base.Calls
import RustProxy.Base.Logged
import RustProxy.Base.Prefixed
import RustProxy.Base.Pieces
import RustProxy.Base.Slice
import RustProxy.Base.Places
import RustProxy.Base.Permits
import RustProxy.Address
import RustProxy.Text
import RustProxy.AsyncStream
import RustProxy.PollLog
import RustProxy.Location
import RustProxy.Literals
import RustProxy.LocationText
import RustProxy.AddressScan
import RustProxy.Resolver
import RustProxy.ResolverCache
import RustProxy.StreamReader
import RustProxy.ReaderCursor
import RustProxy.Relay.CopyBidirectional
import RustProxy.Relay.Steps
import RustProxy.Relay.Lossless
import RustProxy.Relay.Handover
import RustProxy.Relay.Wakeups
import RustProxy.Hysteria2.Udp
import RustProxy.Hysteria2.Cases
import RustProxy.Hysteria2.Destination
import RustProxy.Hysteria2.Reassembly
import RustProxy.Hysteria2.Tasks
import RustProxy.Hysteria2.Connection
import RustProxy.Hysteria2.SessionCache
import RustProxy.Hysteria2.AnyOrder
import RustProxy.Hysteria2.Sender
import RustProxy.Hysteria2.Loss
import RustProxy.Hysteria2.IdleSessions
import RustProxy.Hysteria2.Attribution
import RustProxy.Hysteria2.Fragmentation
import RustProxy.Hysteria2.TcpRequest
import RustProxy.Hysteria2.Header
import RustProxy.Hysteria2.Varints
import RustProxy.MessageStream.SlideBuffer
import RustProxy.MessageStream.UotAddress
import RustProxy.MessageStream.Frame
import RustProxy.MessageStream.PacketAddr
import RustProxy.MessageStream.PacketReader
import RustProxy.MessageStream.PacketWriter
import RustProxy.MessageStream.PacketCalls
import RustProxy.MessageStream.Arrivals
import RustProxy.MessageStream.PacketDelivery
import RustProxy.MessageStream.PacketEnds
import RustProxy.MessageStream.Vless
import RustProxy.MessageStream.VlessReader
import RustProxy.MessageStream.VlessCalls
import RustProxy.MessageStream.VlessRoundTrip
import RustProxy.UdpRelay.Routing
import RustProxy.UdpRelay.Release
import RustProxy.UdpRelay.Families
import RustProxy.UdpRelay.MessageCopy
import RustProxy.UdpRelay.MessageRelay
import RustProxy.UdpRelay.RelayEnds
import RustProxy.UdpRelay.MessageWakeups
import RustProxy.MessageStream.StreamWakeups
import RustProxy.UdpRelay.Association
import RustProxy.UdpRelay.AssociationEnds
import RustProxy.UdpRelay.Forwarding
import RustProxy.UdpRelay.Forwards
import RustProxy.UdpRelay.Responses
import RustProxy.Base.Leases
import RustProxy.UdpRelay.Sockets
import RustProxy.AnyTls.Types
import RustProxy.AnyTls.Codec
import RustProxy.AnyTls.Padding
import RustProxy.AnyTls.PaddedWrites
import RustProxy.AnyTls.FrameWriter
import RustProxy.AnyTls.Wire
import RustProxy.AnyTls.Server
import RustProxy.AnyTls.Fallback
import RustProxy.AnyTls.Stream
import RustProxy.AnyTls.Opening
import RustProxy.AnyTls.Session
import RustProxy.AnyTls.Cases
import RustProxy.AnyTls.Names
import RustProxy.AnyTls.FrameSizes
import RustProxy.AnyTls.Closing
import RustProxy.AnyTls.Isolation
import RustProxy.AnyTls.Orphans
import RustProxy.AnyTls.Inbound
import RustProxy.AnyTls.Outbound
import RustProxy.AnyTls.ClientFin
import RustProxy.AnyTls.Held
import RustProxy.AnyTls.StreamRelay
import RustProxy.AnyTls.HalfClose
import RustProxy.AnyTls.EndToEnd
import RustProxy.AnyTls.Conversation
import RustProxy.AnyTls.Settings
import RustProxy.AnyTls.PeerReads
import RustProxy.AnyTls.Backpressure
import RustProxy.Base.Takes
import RustProxy.AnyTls.Dispatch
import RustProxy.Utf8
import RustProxy.Hysteria2.WireRoundTrip
import RustProxy.Accepting
import RustProxy.Hysteria2.Provenance
