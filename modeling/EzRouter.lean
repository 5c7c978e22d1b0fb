import EzRouter.Foundation.Transition
import EzRouter.Foundation.Slots
import EzRouter.Foundation.SlotMap
import EzRouter.Foundation.Bytes
import EzRouter.Foundation.Framing
import EzRouter.Foundation.Reader
import EzRouter.Foundation.Ring
import EzRouter.Foundation.CondVar
import EzRouter.Protocol.Codec
import EzRouter.Protocol.CodecLaws
import EzRouter.Config.CJson
import EzRouter.Config.Store
import EzRouter.Config.Save
import EzRouter.Config.CJsonPrint
import EzRouter.Config.CJsonText
import EzRouter.Config.CJsonParse
import EzRouter.Config.CJsonAccepts
import EzRouter.Config.CJsonRoundTrip
import EzRouter.Config.SavedText
import EzRouter.Ipc.Server
import EzRouter.Ipc.Fragmentation
import EzRouter.Ipc.Sdk
import EzRouter.Ipc.Registry
import EzRouter.Ipc.RegistryRefinement
import EzRouter.Ipc.Identity
import EzRouter.Ipc.Dispatcher
import EzRouter.Ipc.SendLoop
import EzRouter.Ipc.AckStream
import EzRouter.Ipc.Session
import EzRouter.Ipc.SessionAcks
import EzRouter.Ipc.RegisterText
import EzRouter.Ipc.Thread
import EzRouter.Ipc.Supervisor
import EzRouter.Ipc.Progress
import EzRouter.Process.Spawn
import EzRouter.Process.Children
import EzRouter.Process.Shutdown
import EzRouter.Router.EventQueue
import EzRouter.Router.QueueDrops
import EzRouter.Router.QueueWakeups
import EzRouter.Router.QueueTimeouts
import EzRouter.Router.Plugin
import EzRouter.Router.Fanout
import EzRouter.Router.RouteService
import EzRouter.Router.MessageText
import EzRouter.Router.Ports
import EzRouter.Router.Reactor
import EzRouter.Router.Startup
import EzRouter.Router.ReactorInvariants
import EzRouter.Router.EventBatch
import EzRouter.Router.Lifecycle
import EzRouter.Process.SocketFiles
import EzRouter.Router.Names
import EzRouter.Router.Frees
import EzRouter.Router.TableAgreement
import EzRouter.Router.Broadcast
import EzRouter.Router.PortSend
import EzRouter.Router.Delivery
import EzRouter.Router.Pipeline
import EzRouter.Router.ByteStream
import EzRouter.Router.Backlog
import EzRouter.Router.FilterChain
