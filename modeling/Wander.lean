import Wander.Lib.GoMap
import Wander.Lib.Heap
import Wander.Structs.Evaluation
import Wander.Delayheap.DelayHeap
import Wander.Nomad.EvalBroker
import Wander.Nomad.EvalBrokerInvariant
import Wander.Nomad.BlockedEvals
import Wander.Nomad.BlockedEvalsWakeup
import Wander.Lib.Except
import Wander.Lib.Strings
import Wander.Structs.Job
import Wander.Structs.Alloc
import Wander.Structs.Bitmap
import Wander.Structs.Node
import Wander.Structs.Plan
import Wander.State.StateStore
import Wander.Nomad.JobEndpoint
import Wander.Nomad.JobEndpointLeader
import Wander.Nomad.PlanApply
import Wander.Nomad.CoreSched
import Wander.Scheduler.Context
import Wander.Scheduler.PropertySet
import Wander.Scheduler.Feasible
import Wander.State.Paginator
import Wander.Scheduler.ReconcileUtil
import Wander.State.AllocUpdates
import Wander.State.JobSummaries
import Wander.State.DeploymentCounters
import Wander.Scheduler.Reconcile
import Wander.Structs.NetworkIndex
import Wander.Drainer.WatchJobs
import Wander.Nomad.EvalBrokerScan
import Wander.Scheduler.Preemption
import Wander.Scheduler.Spread
import Wander.Scheduler.Stack
import Wander.Scheduler.TasksUpdated
import Wander.Scheduler.DeviceChecker
import Wander.Structs.DeviceAccounter
import Wander.Scheduler.DeviceAllocator
import Wander.Lib.Filepath
import Wander.Helper.Escapingfs
import Wander.Helper.Escapingio
import Wander.Nomad.Heartbeat
import Wander.Structs.CSI
import Wander.Nomad.EvalBrokerStats
import Wander.Lib.Windows
import Wander.Scheduler.ReconcileLater
import Wander.Lib.GoInt
import Wander.Structs.Reschedule
import Wander.Lib.Float64
import Wander.Client.Restarts
import Wander.Client.TaskLifecycle
import Wander.Stream.EventBuffer
import Wander.Lib.PrefixCode
import Wander.Structs.ACL
import Wander.Structs.Diff
import Wander.Structs.Funcs
import Wander.Drainer.DrainerUtil
import Wander.Cpuset.CPUSet
import Wander.Lib.Iterator
import Wander.Lib.Transducer
import Wander.Scheduler.Select
import Wander.Lib.HeapOrder
import Wander.Delayheap.DelayHeapOrder
import Wander.Kheap.ScoreHeap
import Wander.Delayheap.DelayQueue
import Wander.Scheduler.SystemUtil
