import Insist.Lib.Leb128
import Insist.MiniRpc.Message
import Insist.MiniRpc.Framing
import Insist.Lib.Machine
import Insist.Lib.Proto3
import Insist.Lib.Simt
import Insist.Lib.Grid
import Insist.Lib.Frame
import Insist.Lib.Strided
import Insist.Lib.OnlineSoftmax
import Insist.Lib.StreamParser
import Insist.Lib.PrefixCode
import Insist.Lib.Halving
import Insist.Lib.Checked
import Insist.Lib.Quantile
import Insist.Lib.Share
import Insist.Lib.Grouping
import Insist.Lib.Assigning
import Insist.Lib.Answers
import Insist.MiniRpc.ProtobufWire
import Insist.MiniRpc.Varint
import Insist.MiniRpc.RoundTrip
import Insist.MiniRpc.Schema
import Insist.MiniRpc.Records
import Insist.MiniRpc.DecodeSafety
import Insist.MiniRpc.Merge
import Insist.MiniRpc.Provenance
import Insist.MiniRpc.Session
import Insist.MiniRpc.SessionSteps
import Insist.MiniRpc.MessageStream
import Insist.MiniRpc.Endpoint
import Insist.MiniRpc.Normalise
import Insist.MiniRpc.RecordOrder
import Insist.MiniRpc.SessionClose
import Insist.MiniRpc.SessionPool
import Insist.MiniRpc.Receive
import Insist.MiniRpc.EndOfStream
import Insist.MiniRpc.Send
import Insist.MiniRpc.Connection
import Insist.MiniRpc.WriteHandlers
import Insist.MiniRpc.WriteQueue
import Insist.MiniRpc.Calm
import Insist.MiniRpc.DemoServer
import Insist.MiniRpc.Client
import Insist.MiniRpc.ClientRequests
import Insist.MiniRpc.Rpc
import Insist.MiniRpc.Delivery
import Insist.MiniRpc.Settled
import Insist.MiniRpc.DemoWorld
import Insist.MiniRpc.Progress
import Insist.MiniRpc.DemoProgress
import Insist.MiniRpc.DemoOrder
import Insist.MiniRpc.ClientMain
import Insist.MiniRpc.Resume
import Insist.MiniRpc.ClientLoop
import Insist.MiniRpc.ClientProgress
import Insist.MiniRpc.EventLoop
import Insist.MiniRpc.PostedTasks
import Insist.MiniRpc.ClientWorld
import Insist.MiniRpc.Reconnect
import Insist.MiniRpc.ServerWorld
import Insist.MiniRpc.Lifetime
import Insist.MiniRpc.Registry
import Insist.MiniRpc.Wakeup
import Insist.MiniRpc.Lifecycle
import Insist.MiniRpc.ReceiveBound
import Insist.MiniRpc.HandlerTable
import Insist.MiniRpc.ServerStart
import Insist.MiniRpc.SessionStart
import Insist.MiniRpc.Dispatch
import Insist.Kernels.FloatOps
import Insist.Kernels.Softmax
import Insist.Kernels.SoftmaxPhases
import Insist.Kernels.SoftmaxLaunch
import Insist.Kernels.SoftmaxRace
import Insist.Kernels.SoftmaxNormal
import Insist.Kernels.Attention
import Insist.Kernels.AttentionScan
import Insist.Kernels.AttentionTiles
import Insist.Kernels.AttentionLaunch
import Insist.Kernels.AttentionReal
import Insist.Kernels.Reduction
import Insist.Kernels.ReductionBlock
import Insist.Kernels.ReductionLaunch
import Insist.Kernels.AttentionRows
import Insist.Kernels.Offsets
import Insist.Benchmark.Percentile
import Insist.Benchmark.Launch
import Insist.Benchmark.VectorAdd
import Insist.Benchmark.SoftmaxBench
import Insist.Benchmark.Roofline
import Insist.Benchmark.Arguments
import Insist.Benchmark.CpuOnly
import Insist.Benchmark.CpuOnlyReport
import Insist.Benchmark.CpuOnlyServers
