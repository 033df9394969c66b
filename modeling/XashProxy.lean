import XashProxy.BridgeIdle
import XashProxy.BridgeShutdown
import XashProxy.BridgeTeardown
import XashProxy.BridgeRelay
import XashProxy.BridgeTimer
import XashProxy.BridgeForward
import XashProxy.SessionCleanup
import XashProxy.SessionRecovery
import XashProxy.WsMessages
import XashProxy.FrameLoop
import XashProxy.FrameCancel
import XashProxy.NetOrder
import XashProxy.TabWatchdog
import XashProxy.TabReload
import XashProxy.TabRejoin
import XashProxy.TabBacklog
import XashProxy.TabQueue
import XashProxy.TransportStranded
import XashProxy.TransportGenerations
import XashProxy.TransportSignaling
import XashProxy.TransportCandidates
import XashProxy.TransportPeers
import XashProxy.TransportSockets
import XashProxy.TransportBackoff
import XashProxy.PipelineOrder
import XashProxy.DtlsNumbers
import XashProxy.DtlsDelivery
