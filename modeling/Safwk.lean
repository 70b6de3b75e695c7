import Safwk.Library.Transition
import Safwk.Library.Trace
import Safwk.Library.Threads
import Safwk.BootPool
import Safwk.BootDeadlock
import Safwk.BootOrder
import Safwk.AbilityLifecycle
import Safwk.OnStartOnce
import Safwk.LifecycleConsistency
import Safwk.ListenerManager
import Safwk.ListenerCalls
import Safwk.SubscriptionFailures
import Safwk.StartNotices
import Safwk.ListenerThreads
import Safwk.ListenerHistory
import Safwk.SubscriptionRaces
import Safwk.NoticeOrder
import Safwk.SamgrCallbacks
import Safwk.StaleCallbacks
import Safwk.LostNotices
import Safwk.OnStopOnce
import Safwk.AbilityRegistry
import Safwk.TrustedAbilities
import Safwk.BootSelection
import Safwk.CacheEntries
import Safwk.IdealCache
import Safwk.CacheSurvival
import Safwk.ApiCacheManager
import Safwk.CacheIsolation
import Safwk.CacheInvalidation
import Safwk.CacheSoundness
import Safwk.Library.SortedMap
import Safwk.Library.Fifo
import Safwk.OnDemandReason
import Safwk.ReasonParcel
import Safwk.WantVector
import Safwk.ReasonConversion
import Safwk.ExtraDataParcel
import Safwk.Library.Signed
import Safwk.Library.Cut
import Safwk.Library.Decimal
import Safwk.Library.Effects
import Safwk.Json
import Safwk.StartReason
import Safwk.ReasonDetermined
import Safwk.SaMain
import Safwk.EventGrammar
import Safwk.StartPaths
import Safwk.ManagerStub
import Safwk.FfrtStatistics
import Safwk.FfrtCleanUp
import Safwk.FfrtParser
import Safwk.UnusedAbilities
import Safwk.DependencyWait
import Safwk.TickWrap
import Safwk.SvcControl
import Safwk.Library.Budget
import Safwk.AbilityRequests
import Safwk.RequestLifecycles
import Safwk.RequestReasons
import Safwk.RequestProgress
import Safwk.RequestIsolation
import Safwk.RequestCounts
import Safwk.Library.Grounds
import Safwk.BootDependencies
import Safwk.DependencyOrder
import Safwk.PhaseDependencies
import Safwk.BootProgress
import Safwk.StubDescriptors
import Safwk.IdleTimer
import Safwk.IdleSweeps
import Safwk.Library.Ownership
import Safwk.RustAbilities
import Safwk.RustHolders
import Safwk.RustAccess
import Safwk.RustOwnership
import Safwk.Library.Framing
import Safwk.IpcStatistics
