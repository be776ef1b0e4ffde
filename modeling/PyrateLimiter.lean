import PyrateLimiter.AdmittedHistory
import PyrateLimiter.AsyncAcquire
import PyrateLimiter.AsyncLocks
import PyrateLimiter.AwaitableAgreement
import PyrateLimiter.AwaitableStages
import PyrateLimiter.BackendSessions
import PyrateLimiter.Backends
import PyrateLimiter.BlockingRetry
import PyrateLimiter.Bucket
import PyrateLimiter.BucketEquivalence
import PyrateLimiter.BucketFactory
import PyrateLimiter.BucketSimulation
import PyrateLimiter.CallAccounting
import PyrateLimiter.CombinedLock
import PyrateLimiter.DeadlineBudget
import PyrateLimiter.Decorator
import PyrateLimiter.EventLoop
import PyrateLimiter.EventLoopRecords
import PyrateLimiter.Foundations.Bisect
import PyrateLimiter.Foundations.ExclusiveLock
import PyrateLimiter.Foundations.FairLocks
import PyrateLimiter.Foundations.LockOrder
import PyrateLimiter.Foundations.OrderBy
import PyrateLimiter.Foundations.SortedSets
import PyrateLimiter.Foundations.Transactions
import PyrateLimiter.Foundations.TransitionSystem
import PyrateLimiter.Foundations.WindowLog
import PyrateLimiter.HistoryBucket
import PyrateLimiter.HttpSessions
import PyrateLimiter.InMemoryBucket
import PyrateLimiter.LeakTask
import PyrateLimiter.LeakerRace
import PyrateLimiter.LeakerThread
import PyrateLimiter.Limiter
import PyrateLimiter.LimiterLocks
import PyrateLimiter.LimiterThreads
import PyrateLimiter.MultiprocessBucket
import PyrateLimiter.PostgresBucket
import PyrateLimiter.PostgresClients
import PyrateLimiter.PostgresLeaks
import PyrateLimiter.PostgresPut
import PyrateLimiter.PostgresWaiting
import PyrateLimiter.ProcessThreads
import PyrateLimiter.Rate
import PyrateLimiter.RatesSetter
import PyrateLimiter.RealTime
import PyrateLimiter.RedisBucket
import PyrateLimiter.RedisClients
import PyrateLimiter.RedisLeak
import PyrateLimiter.RedisTasks
import PyrateLimiter.RedisTimeouts
import PyrateLimiter.RetryLoops
import PyrateLimiter.RetryOrder
import PyrateLimiter.RetryProgress
import PyrateLimiter.RoutedKeys
import PyrateLimiter.RoutedLimiter
import PyrateLimiter.Sessions
import PyrateLimiter.SharedBackends
import PyrateLimiter.SqliteBucket
import PyrateLimiter.SqliteFailingRate
import PyrateLimiter.SqliteTransactions
import PyrateLimiter.WeightedPut
