import TradingExchange.Library.Loop
import TradingExchange.Library.Run
import TradingExchange.Library.Lists
import TradingExchange.Library.LinkedList
import TradingExchange.Library.Lots
import TradingExchange.Library.Ladder
import TradingExchange.Library.LadderLaws
import TradingExchange.Library.Taken
import TradingExchange.Library.Allocation
import TradingExchange.Library.Bytes
import TradingExchange.Library.Text
import TradingExchange.Library.Rounding
import TradingExchange.Library.Decimal
import TradingExchange.Library.Tape
import TradingExchange.Library.Work
import TradingExchange.Library.Allocator
import TradingExchange.Model.IntrusiveQueue
import TradingExchange.Model.Queues
import TradingExchange.Model.Order
import TradingExchange.Model.MemPool
import TradingExchange.Model.MemPoolSeparateFreeStructure
import TradingExchange.Model.Leases
import TradingExchange.Model.ByteMemPool
import TradingExchange.Model.OrderBook
import TradingExchange.Model.Calls
import TradingExchange.Model.Passes
import TradingExchange.Model.Session
import TradingExchange.Model.Tally
import TradingExchange.Model.Depth
import TradingExchange.Model.Driver
import TradingExchange.Model.Watch
import TradingExchange.Model.Log
import TradingExchange.Model.Format
import TradingExchange.Model.Generator
import TradingExchange.Model.Program
import TradingExchange.Model.Work
import TradingExchange.Model.Places
import TradingExchange.Model.Benchmark
import TradingExchange.Abstract.PureBook
import TradingExchange.Abstract.Laws
import TradingExchange.Abstract.Market
import TradingExchange.Abstract.Containers
import TradingExchange.Abstract.Reader
import TradingExchange.Abstract.Reading
import TradingExchange.Abstract.Bag
import TradingExchange.Refinement.Queue
import TradingExchange.Refinement.FreeList
import TradingExchange.Refinement.Leases
import TradingExchange.Refinement.ByteMemPool
import TradingExchange.Refinement.View
import TradingExchange.Refinement.Level
import TradingExchange.Refinement.Matching
import TradingExchange.Refinement.Book
import TradingExchange.Refinement.Runs
import TradingExchange.Refinement.Closing
import TradingExchange.Refinement.Determinacy
import TradingExchange.Refinement.Passes
import TradingExchange.Refinement.Filling
import TradingExchange.Refinement.Session
import TradingExchange.Refinement.Market
import TradingExchange.Refinement.Log
import TradingExchange.Refinement.Origins
import TradingExchange.Refinement.Benchmark
import TradingExchange.Properties.Invariants
import TradingExchange.Properties.Safety
import TradingExchange.Properties.Lifecycle
import TradingExchange.Properties.Cancellation
import TradingExchange.Properties.Withdrawal
import TradingExchange.Properties.Leaks
import TradingExchange.Properties.Exhaustion
import TradingExchange.Properties.Depth
import TradingExchange.Properties.Composition
import TradingExchange.Properties.Outcome
import TradingExchange.Properties.BestExecution
import TradingExchange.Properties.Tracking
import TradingExchange.Properties.Mirror
import TradingExchange.Properties.Priority
import TradingExchange.Properties.Arrivals
import TradingExchange.Properties.Simulation
import TradingExchange.Properties.Noninterference
import TradingExchange.Properties.Conservation
import TradingExchange.Properties.Pools
import TradingExchange.Properties.Undisturbed
import TradingExchange.Properties.Queues
import TradingExchange.Properties.Format
import TradingExchange.Properties.Log
import TradingExchange.Properties.LogText
import TradingExchange.Properties.BookText
import TradingExchange.Properties.Generator
import TradingExchange.Properties.Printing
import TradingExchange.Properties.Program
import TradingExchange.Properties.Work
import TradingExchange.Properties.Alike
import TradingExchange.Properties.Rebuild
import TradingExchange.Properties.Benchmark
import TradingExchange.Properties.Blind
import TradingExchange.Properties.Pressure
