import PlatIF.Ioc.Count
import PlatIF.Ioc.LockBalance
import PlatIF.Ioc.Barrier
import PlatIF.Ioc.Deadlock
import PlatIF.Ioc.StopAsync
import PlatIF.Ioc.Overlap
import PlatIF.Ioc.TotalOrder
import PlatIF.Ioc.PostOrder
import PlatIF.Ioc.SyncOption
import PlatIF.Ioc.DrainLoop
import PlatIF.Evt.Payload
import PlatIF.Evt.Rep
import PlatIF.Evt.CallFlow
import PlatIF.Evt.WaitCycle
import PlatIF.Evt.Bounds
import PlatIF.Evt.Integrity
import PlatIF.Evt.InitFailure
import PlatIF.Evt.SeqNum
import PlatIF.Ioc.CacheSafe
import PlatIF.Ioc.UnsubResult
import PlatIF.Ioc.Keys
import PlatIF.Ioc.SubFailure
import PlatIF.Ioc.TimedLock
import PlatIF.Ioc.WakeUp
import PlatIF.Ioc.PostOutcome
import PlatIF.Evt.Undo
import PlatIF.Evt.Publish
import PlatIF.Evt.Procer
import PlatIF.Evt.WakeUp
import PlatIF.Evt.StopBarrier
import PlatIF.Evt.Settle
import PlatIF.Evt.Faults
import PlatIF.Ioc.Broker
import PlatIF.Ioc.Routing
import PlatIF.Ioc.Settle
import PlatIF.Ioc.Modes
import PlatIF.Ioc.Threads
