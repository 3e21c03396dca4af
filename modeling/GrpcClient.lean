import GrpcClient.Lib.Except
import GrpcClient.Lib.Transition
import GrpcClient.Lib.Mailbox
import GrpcClient.Lib.Update
import GrpcClient.Lib.Words
import GrpcClient.Lib.Mutex
import GrpcClient.Lib.Script
import GrpcClient.Lib.Progress
import GrpcClient.Lib.SearchTree
import GrpcClient.TaskQueue
import GrpcClient.Records
import GrpcClient.QueueThreads
import GrpcClient.QueueWaits
import GrpcClient.QueueAtomic
import GrpcClient.QueueProgress
import GrpcClient.Engine
import GrpcClient.Client
import GrpcClient.Worker
import GrpcClient.ClientInvariant
import GrpcClient.ClientOps
import GrpcClient.EngineOps
import GrpcClient.Change
import GrpcClient.Waits
import GrpcClient.TaskTree
import GrpcClient.Ownership
import GrpcClient.Pipeline
import GrpcClient.Wakeup
import GrpcClient.Correlation
import GrpcClient.Contexts
import GrpcClient.Streams
import GrpcClient.Busy
import GrpcClient.Connections
import GrpcClient.InitWorker
import GrpcClient.Blocking
import GrpcClient.Messages
import GrpcClient.Orphans
import GrpcClient.Load
import GrpcClient.LoadSequence
import GrpcClient.CallOptions
import GrpcClient.Metadata
import GrpcClient.ConnectOptions
import GrpcClient.GrpcCalls
import GrpcClient.CallOrder
import GrpcClient.CallSequence
import GrpcClient.Sessions
import GrpcClient.Answers
import GrpcClient.Progress
import GrpcClient.Delivery
import GrpcClient.LuaCalls
import GrpcClient.WorkerSteps
import GrpcClient.LuaChange
import GrpcClient.LuaReturns
import GrpcClient.LuaResults
import GrpcClient.LuaProgress
import GrpcClient.LuaDelivery
