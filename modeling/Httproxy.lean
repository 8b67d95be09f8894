import Httproxy.Server.UploadOrder
import Httproxy.Server.TunnelIdle
import Httproxy.Rotation
import Httproxy.Warp.H3
import Httproxy.Warp.Status
import Httproxy.Warp.Connect
import Httproxy.Warp.StatusSafety
import Httproxy.Server.Upstream
import Httproxy.Shaper.Traffic
import Httproxy.Server.Replay
import Httproxy.Server.FrameDecoder
import Httproxy.Server.TunnelServe
import Httproxy.Server.Opening
import Httproxy.Server.Directory
import Httproxy.Warp.Bypass
import Httproxy.Warp.Spki
import Httproxy.Warp.Register
import Httproxy.Server.CookieScan
import Httproxy.Client.Forwarding
import Httproxy.Client.DownloadQueue
import Httproxy.Client.Resumption
import Httproxy.UploadPath
import Httproxy.UploadBacklog
import Httproxy.UploadBytes
import Httproxy.UploadReorder
import Httproxy.Session
import Httproxy.Server.TokenCodec
import Httproxy.Shaper.JsonLine
import Httproxy.Shaper.Sizes
import Httproxy.Shaper.ReadError
import Httproxy.Shaper.BufPool
import Httproxy.Shaper.Stages
import Httproxy.Server.UploadBuffer
import Httproxy.Dns.StreamTransport
import Httproxy.Dns.HappyEyeballs
import Httproxy.Dns.Refresh
import Httproxy.Warp.Client
import Httproxy.Server.Connect
import Httproxy.Client.DownloadLoop
import Httproxy.Client.Relay
import Httproxy.Tampering
import Httproxy.RotationTrail
import Httproxy.DownloadPath
import Httproxy.DownloadProgress
