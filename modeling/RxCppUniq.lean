import RxCppUniq.Base.Status
import RxCppUniq.Base.Scheduler
import RxCppUniq.Theory.Crew
import RxCppUniq.Theory.Total
import RxCppUniq.Theory.Component
import RxCppUniq.Theory.Open
import RxCppUniq.Theory.Frames
import RxCppUniq.Theory.Link
import RxCppUniq.Theory.Modes
import RxCppUniq.Theory.Promises
import RxCppUniq.Reactive.RequestBalance
import RxCppUniq.Reactive.Stream
import RxCppUniq.Reactive.Chaining
import RxCppUniq.Reactive.Prefetch
import RxCppUniq.Reactive.Merge
import RxCppUniq.Reactive.Concat
import RxCppUniq.Reactive.FlatMap
import RxCppUniq.Reactive.Generating
import RxCppUniq.Reactive.Single
import RxCppUniq.Reactive.Async
import RxCppUniq.Reactive.AsyncChain
import RxCppUniq.Flow.AsyncRuns
import RxCppUniq.Flow.AsyncCancel
import RxCppUniq.Flow.ChainRuns
import RxCppUniq.Flow.ChainingStrict
import RxCppUniq.Flow.ConcatCancel
import RxCppUniq.Flow.ConcatHandover
import RxCppUniq.Flow.ConcatStrict
import RxCppUniq.Flow.FlatMapBalances
import RxCppUniq.Flow.FlatMapDemand
import RxCppUniq.Flow.FlatMapDestruction
import RxCppUniq.Flow.FlatMapRuns
import RxCppUniq.Flow.MergeBooks
import RxCppUniq.Flow.MergeCounter
import RxCppUniq.Flow.MergeFairness
import RxCppUniq.Flow.MergeLedger
import RxCppUniq.Flow.MergeOrigins
import RxCppUniq.Flow.MergeRounds
import RxCppUniq.Flow.MergeRoundRobin
import RxCppUniq.Flow.MergeShutdown
import RxCppUniq.Flow.MergeStrict
import RxCppUniq.Flow.Metered
import RxCppUniq.Flow.PrefetchAhead
import RxCppUniq.Flow.PrefetchCancel
import RxCppUniq.Flow.PrefetchStrict
import RxCppUniq.Flow.SelfLock
import RxCppUniq.Flow.SingleNotices
import RxCppUniq.Flow.Strictness
import RxCppUniq.Scheduling.Workers
import RxCppUniq.Scheduling.Closures
import RxCppUniq.Scheduling.Idle
import RxCppUniq.Scheduling.WakeUp
import RxCppUniq.Scheduling.Shutdown
import RxCppUniq.Flow.GeneratingRuns
import RxCppUniq.Flow.BufferChunks
import RxCppUniq.Flow.BufferDemand
import RxCppUniq.Flow.Pipelines
import RxCppUniq.Flow.PipelineLaws
import RxCppUniq.Flow.Consumers
import RxCppUniq.Flow.PrefetchListing
import RxCppUniq.Flow.ConcatListing
import RxCppUniq.Values.TypeSafety
import RxCppUniq.Values.Network
