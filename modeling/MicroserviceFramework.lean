import MicroserviceFramework.Library.Machine
import MicroserviceFramework.Library.Wire
import MicroserviceFramework.Platform.ReceiveLoop
import MicroserviceFramework.Platform.ReceiveStates
import MicroserviceFramework.Platform.Rejection
import MicroserviceFramework.Platform.DispatchIntegrity
import MicroserviceFramework.Platform.SharedConnection
import MicroserviceFramework.Auth.Tokens
import MicroserviceFramework.Gateway.Isolation
import MicroserviceFramework.Auth.LoginQuery
import MicroserviceFramework.Platform.Reconnect
import MicroserviceFramework.Platform.Callbacks
import MicroserviceFramework.Config.Refinement
import MicroserviceFramework.Config.UniqueRows
import MicroserviceFramework.Config.CConfigClient
import MicroserviceFramework.Platform.BufferBounds
import MicroserviceFramework.Platform.Delivery
import MicroserviceFramework.Platform.FailedSends
import MicroserviceFramework.Register.Registry
import MicroserviceFramework.Register.CRegisterClient
import MicroserviceFramework.Register.Discovery
import MicroserviceFramework.Library.Snapshots
import MicroserviceFramework.Services.Pairing
import MicroserviceFramework.Services.RoutingId
import MicroserviceFramework.Gateway.Unregistering
import MicroserviceFramework.Gateway.Balancing
import MicroserviceFramework.Platform.PeriodicTimers
import MicroserviceFramework.Platform.ConnectionFlags
import MicroserviceFramework.Platform.TaskDispatch
import MicroserviceFramework.Auth.LoginAnswers
import MicroserviceFramework.Config.ConfigPages
import MicroserviceFramework.Config.EditFreshness
import MicroserviceFramework.Config.OwnConfig
import MicroserviceFramework.Register.CacheFile
import MicroserviceFramework.Library.Collected
import MicroserviceFramework.Gateway.Backends
import MicroserviceFramework.Config.RejectedConfig
import MicroserviceFramework.Config.ConfigKeys
import MicroserviceFramework.Library.Pages
import MicroserviceFramework.Config.Pagination
import MicroserviceFramework.Auth.TokenLifetime
import MicroserviceFramework.Library.BoundedQueue
import MicroserviceFramework.Log.CLogClient
import MicroserviceFramework.Log.LogQueue
import MicroserviceFramework.Library.Ledger
import MicroserviceFramework.Log.LogDelivery
import MicroserviceFramework.Log.LogOrigin
import MicroserviceFramework.Library.Countdown
import MicroserviceFramework.Register.GetServices
import MicroserviceFramework.Register.MalformedResponses
import MicroserviceFramework.Mysql.GeneratedSql
import MicroserviceFramework.Mysql.PreparedSql
import MicroserviceFramework.Config.EditRoundTrip
import MicroserviceFramework.Config.ProtoReload
import MicroserviceFramework.Services.RowLifetime
import MicroserviceFramework.Auth.UserDirectory
import MicroserviceFramework.Library.Base64
import MicroserviceFramework.Auth.Passwords
import MicroserviceFramework.Log.LogPipeline
import MicroserviceFramework.Register.Freshness
import MicroserviceFramework.Library.Message
import MicroserviceFramework.Auth.CAuthHandle
import MicroserviceFramework.Register.Restarts
import MicroserviceFramework.Gateway.Cluster
import MicroserviceFramework.Config.Rollout
import MicroserviceFramework.Gateway.Wires
import MicroserviceFramework.Gateway.TlsSwitch
