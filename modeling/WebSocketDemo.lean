import WebSocketDemo.Lib.ByteOrder
import WebSocketDemo.Lib.Transition
import WebSocketDemo.WebsocketRequest
import WebSocketDemo.WebsocketRespond
import WebSocketDemo.Base64
import WebSocketDemo.Sha1
import WebSocketDemo.Lib.Text
import WebSocketDemo.Handshake
import WebSocketDemo.Lib.PrefixDecoder
import WebSocketDemo.Lib.Rfc6455
import WebSocketDemo.NetworkInterface
import WebSocketDemo.EpollLoop
import WebSocketDemo.FrameCodec
import WebSocketDemo.Effects
import WebSocketDemo.Connection
import WebSocketDemo.Account
import WebSocketDemo.Broadcast
import WebSocketDemo.Closing
import WebSocketDemo.EndOfStream
import WebSocketDemo.Fragments
import WebSocketDemo.Interest
import WebSocketDemo.Lib.Http
import WebSocketDemo.Overflow
import WebSocketDemo.UpgradeRequest
import WebSocketDemo.Descriptors
import WebSocketDemo.Invariants
import WebSocketDemo.Parsing
import WebSocketDemo.Admission
import WebSocketDemo.Grouping
import WebSocketDemo.Erasure
import WebSocketDemo.Isolation
import WebSocketDemo.Residual
import WebSocketDemo.Headers
import WebSocketDemo.Batched
import WebSocketDemo.ClientFrames
import WebSocketDemo.StringCommon
import WebSocketDemo.HttpClient
import WebSocketDemo.HttpRequest
import WebSocketDemo.HttpResponse
import WebSocketDemo.ParseParams
import WebSocketDemo.UrlCodec
import WebSocketDemo.TcpSocket
import WebSocketDemo.Lib.Decimal
import WebSocketDemo.Lib.UrlEncoded
import WebSocketDemo.Lib.BlockStream
import WebSocketDemo.Lib.Fips180
import WebSocketDemo.MessageDigest
import WebSocketDemo.Lib.Rfc4648
import WebSocketDemo.Base64Codec
import WebSocketDemo.ScriptClient
import WebSocketDemo.ClientHandshake
import WebSocketDemo.Service
import WebSocketDemo.System
import WebSocketDemo.Delivery
import WebSocketDemo.Progress
import WebSocketDemo.Completion
import WebSocketDemo.Echo
import WebSocketDemo.Lib.Scanf
import WebSocketDemo.Configure
import WebSocketDemo.ConfigurationFile
import WebSocketDemo.QueryString
