import Monolake.Foundation.Runs
import Monolake.Foundation.Latest
import Monolake.Orchestrator.ServiceExecutor
import Monolake.Orchestrator.Serve
import Monolake.Orchestrator.SiteOperations
import Monolake.Orchestrator.SlotDiscipline
import Monolake.Orchestrator.Deployment
import Monolake.Orchestrator.ExecutorRefinement
import Monolake.Orchestrator.ServePairing
import Monolake.Orchestrator.WorkerManager
import Monolake.Config.Manager
import Monolake.Config.Reload
import Monolake.Config.Attempts
import Monolake.Config.HotReload
import Monolake.ProxyProtocol.Call
import Monolake.ProxyProtocol.Cuts
import Monolake.ProxyProtocol.Arrival
import Monolake.Cancel.LinkedList
import Monolake.Cancel.ListRefinement
import Monolake.Cancel.ListWalk
import Monolake.Cancel.Canceller
import Monolake.Cancel.Registration
import Monolake.Cancel.WakeUps
import Monolake.Http.H2Response
import Monolake.Http.H2Accounting
import Monolake.Http.H1Framing
import Monolake.Http.ConnectionReuse
import Monolake.Http.Persistence
import Monolake.Http.Address
import Monolake.Http.Upstream
import Monolake.Thrift.Proxy
import Monolake.Http.OpenId
import Monolake.Http.UpstreamSend
import Monolake.Http.OpenIdSessions
import Monolake.Orchestrator.AbortPrecommit
import Monolake.ProxyProtocol.Bounds
import Monolake.ProxyProtocol.Termination
import Monolake.Common.Detect
import Monolake.ProxyProtocol.Conservation
import Monolake.ProxyProtocol.HeaderSize
import Monolake.Common.Selector
import Monolake.Common.WeightedSelection
import Monolake.Common.Selection
import Monolake.Http.RoundRobin
import Monolake.Http.RouteErrors
import Monolake.Http.Rewrite
import Monolake.Http.ConnectionOptions
import Monolake.Http.Content
import Monolake.Cancel.SlotReuse
import Monolake.Foundation.Future
import Monolake.Http.Accompany
import Monolake.Http.ContentResponse
import Monolake.Http.HandlerStack
import Monolake.Http.OpenIdSafety
import Monolake.Common.DetectService
import Monolake.Config.L7Factory
import Monolake.Config.LostWorkers
import Monolake.Config.Sites
import Monolake.Http.Connection
import Monolake.Orchestrator.DispatchProgress
import Monolake.Config.ReloadLinearized
import Monolake.Config.ReloadProgress
import Monolake.Config.ServedMeanwhile
import Monolake.Http.Conversation
import Monolake.Config.CommitSafety
