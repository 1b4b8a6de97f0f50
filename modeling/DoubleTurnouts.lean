import DoubleTurnouts.Lib.Bytes
import DoubleTurnouts.Lib.Decimal
import DoubleTurnouts.Lib.Run
import DoubleTurnouts.Network.Buffer
import DoubleTurnouts.UnitManager.TcpComm
import DoubleTurnouts.HybridComm.PzmqData
import DoubleTurnouts.InfraController.StackFlowUtil
import DoubleTurnouts.Lib.Lease
import DoubleTurnouts.UnitManager.RemoteServer
import DoubleTurnouts.UnitManager.PortRegistry
import DoubleTurnouts.Lib.Utf8
import DoubleTurnouts.Lib.LossyUtf8
import DoubleTurnouts.UnitManager.Dispatch
import DoubleTurnouts.InfraController.Channel
import DoubleTurnouts.InfraController.StackFlow
import DoubleTurnouts.InfraController.EvenLoop
import DoubleTurnouts.Node.Llm
import DoubleTurnouts.Node.Control
import DoubleTurnouts.Lib.Effect
import DoubleTurnouts.Node.Inference
import DoubleTurnouts.Node.EventThread
import DoubleTurnouts.Node.Replies
import DoubleTurnouts.Node.Ready
import DoubleTurnouts.Node.Streams
import DoubleTurnouts.Sample.Dumps
import DoubleTurnouts.Sample.ResponseStream
import DoubleTurnouts.System.TextPath
import DoubleTurnouts.Lib.JsonText
import DoubleTurnouts.System.Parsers
import DoubleTurnouts.System.Registration
import DoubleTurnouts.UnitManager.Reachable
import DoubleTurnouts.Node.Tables
import DoubleTurnouts.System.LiveIds
import DoubleTurnouts.System.KeyValue
import DoubleTurnouts.Lib.Endian
import DoubleTurnouts.Network.BufferDeque
import DoubleTurnouts.Network.TcpConnection
import DoubleTurnouts.HybridComm.RpcServer
import DoubleTurnouts.HybridComm.RpcClient
import DoubleTurnouts.System.UnitCall
import DoubleTurnouts.Network.EventLoop
import DoubleTurnouts.Network.TcpServer
import DoubleTurnouts.UnitManager.SessionIds
import DoubleTurnouts.UnitManager.SessionEndpoints
import DoubleTurnouts.Network.Lifecycle
import DoubleTurnouts.UnitManager.Sessions
import DoubleTurnouts.HybridComm.SocketLife
import DoubleTurnouts.UnitManager.UnitPointers
import DoubleTurnouts.InfraController.Subscriptions
import DoubleTurnouts.InfraController.Endpoints
import DoubleTurnouts.Node.Answering
import DoubleTurnouts.Node.ChunkText
import DoubleTurnouts.Node.Numbering
import DoubleTurnouts.Node.Shutdown
import DoubleTurnouts.System.Splice
import DoubleTurnouts.Lib.PlainJson
import DoubleTurnouts.System.PlainRead
import DoubleTurnouts.Node.StreamLaw
import DoubleTurnouts.HybridComm.SizedParam
import DoubleTurnouts.InfraController.ControlPath
import DoubleTurnouts.Node.OutputModes
import DoubleTurnouts.Network.GracefulShutdown
import DoubleTurnouts.Network.Poller
import DoubleTurnouts.InfraController.CodePoints
import DoubleTurnouts.System.UrlRendering
import DoubleTurnouts.System.WorkIds
import DoubleTurnouts.System.ReplyLines
import DoubleTurnouts.Network.ReadControl
import DoubleTurnouts.Network.Connector
import DoubleTurnouts.Network.ChannelOwners
import DoubleTurnouts.Lib.BatchLoop
import DoubleTurnouts.Lib.FdTable
import DoubleTurnouts.Network.Accepting
import DoubleTurnouts.Network.EventLoopThread
import DoubleTurnouts.Network.EventLoopThreadPool
import DoubleTurnouts.Network.TcpClient
import DoubleTurnouts.Network.ClientLife
import DoubleTurnouts.Network.ClientEnd
import DoubleTurnouts.Network.PollEvents
import DoubleTurnouts.System.UnitChain
