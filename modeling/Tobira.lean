import Tobira.Framework.Machine
import Tobira.Framework.Run
import Tobira.Framework.Halt
import Tobira.Framework.Room
import Tobira.Framework.Mutex
import Tobira.Framework.Lines
import Tobira.Framework.Pipe
import Tobira.Framework.Pump
import Tobira.Framework.Watchdog
import Tobira.Framework.Text
import Tobira.Framework.Str
import Tobira.Framework.Net
import Tobira.Framework.SocketText
import Tobira.Framework.Url
import Tobira.Framework.Encodings
import Tobira.Framework.Base64
import Tobira.Framework.Protobuf
import Tobira.Framework.Json
import Tobira.Framework.Whatwg
import Tobira.Framework.Form
import Tobira.Framework.Parts
import Tobira.Config
import Tobira.Transport.Varint
import Tobira.Buf
import Tobira.Transport.Frame
import Tobira.Transport.Codec
import Tobira.Transport.Hunk
import Tobira.Transport.Reader
import Tobira.Transport.Reassembly
import Tobira.Transport.GrpcToRaw
import Tobira.Transport.Sender
import Tobira.Transport.RoundTrip
import Tobira.Pool.Model
import Tobira.Pool.Steps
import Tobira.Pool.Effects
import Tobira.Pool.Hops
import Tobira.Pool.Invariant
import Tobira.Pool.History
import Tobira.Pool.Handshakes
import Tobira.Pool.Evict
import Tobira.Pool.Later
import Tobira.Pool.Leak
import Tobira.Pool.Reconnect
import Tobira.Pool.Fairness
import Tobira.Pool.Idle
import Tobira.Vmess.Auth
import Tobira.Vmess.Kdf
import Tobira.Vmess.Validator
import Tobira.Vmess.Identity
import Tobira.Vmess.UuidText
import Tobira.Vmess.AuthId
import Tobira.Relay.Auth
import Tobira.Relay.TcpRelay
import Tobira.Relay.ViaCore
import Tobira.Relay.Steps
import Tobira.Relay.Request
import Tobira.Relay.Flow
import Tobira.Relay.HalfClose
import Tobira.Relay.Returns
import Tobira.Relay.ViaRoom
import Tobira.Relay.Codecs
import Tobira.Relay.Tunnel
import Tobira.Relay.TunnelSteps
import Tobira.Relay.TunnelFlow
import Tobira.Relay.GrpcRelay
import Tobira.Relay.TunnelIdle
import Tobira.Relay.TunnelReturns
import Tobira.Relay.Transparency
import Tobira.Relay.TcpIdle
import Tobira.Subscription.Process
import Tobira.Subscription.Parser
import Tobira.Subscription.Reader
import Tobira.Subscription.Envelope
import Tobira.Subscription.Numbers
import Tobira.Subscription.Dedup
import Tobira.Subscription.Rename
import Tobira.Subscription.Select
import Tobira.Subscription.Family
import Tobira.Subscription.Cache
import Tobira.Subscription.Reload
import Tobira.Subscription.Merge
import Tobira.Subscription.Tagging
import Tobira.Subscription.Selection
import Tobira.Subscription.Outage
import Tobira.Subscription.Manager
import Tobira.Subscription.Routing
import Tobira.Http.Links
import Tobira.Http.Pipeline
import Tobira.Http.Render
import Tobira.Http.Server
import Tobira.Http.BasicAuth
import Tobira.Http.Paths
import Tobira.Relay.ServicePath
import Tobira.Relay.Inbound
import Tobira.Relay.TcpInbound
import Tobira.Http.Chain
import Tobira.Http.Shadowrocket
import Tobira.Http.Standard
import Tobira.Daemon.Model
import Tobira.Daemon.Reload
import Tobira.Daemon.Endpoints
import Tobira.Daemon.Loop
import Tobira.Daemon.Served
import Tobira.Relay.Carried
import Tobira.Relay.Chain
