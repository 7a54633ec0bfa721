/-
**The benchmarks of the pools.**

`mem_pool_benchmark.cpp` and `mem_pool_separate_free_structure_benchmark.cpp` are one program for
two pools: the same loops over a pool, over `new` and `delete`, and over `malloc` and `free`. Each
loop is written once here, for an `Allocator`; the functions of the source are its instances, and
`runBenchmark` makes the calls of `run_benchmark`. The clock is left out.

Reading through a null pointer, or through one that is not live, and giving such a pointer back, are
failures, and so is an index beyond a vector: a run that returns has done none of this.

Of the heap nothing is known but that it hands out addresses of its own. It is one with memory for
every request: `malloc` may return null, and the loops write through what it returns without asking;
what they do when memory runs out is not modelled.

What the random engine draws is an argument: the shuffled indices, and a `ChurnDraw` for each pass of
a churn.
-/

import TradingExchange.Library.Allocator
import TradingExchange.Model.Leases

namespace TradingExchange

/-! ### Allocators -/

/-- A pool whose objects can be read. -/
class ObjectPool (Pool : Type) (T : outParam Type) (numElems : outParam UInt64)
    extends SlotPool Pool T numElems where
  deref : Pool → Slot numElems → T

instance {Storage T : Type} [PoolStorage Storage T] {numElems : UInt64} :
    ObjectPool (MemPool Storage numElems) T numElems where
  deref := MemPool.deref

instance {Storage T : Type} [BlockStorage Storage T] {numElems : UInt64} :
    ObjectPool (MemPoolSeparateFreeStructure Storage numElems) T numElems where
  deref := MemPoolSeparateFreeStructure.deref

/-- A pool as an allocator. -/
def poolAllocator (Pool : Type) {T : Type} {numElems : UInt64} [ObjectPool Pool T numElems] :
    Allocator (Leased Pool numElems) (Slot numElems) T where
  allocate := fun leased value =>
    let (slot, pool) := SlotPool.allocate leased.pool value
    (slot, ⟨pool, slot.toList ++ leased.live⟩)
  read := fun leased slot =>
    if slot ∈ leased.live then some (ObjectPool.deref leased.pool slot) else none
  deallocate := fun leased slot =>
    if slot ∈ leased.live then
      some ⟨SlotPool.deallocate leased.pool slot, leased.live.erase slot⟩
    else none

/-- What a program holds of the heap: addresses that are all below `next`. -/
structure Heap (T : Type) where
  next : Nat := 0
  cells : List (Nat × T) := []

/-- `new` and `delete`, or `malloc` and `free`, as long as there is memory. -/
def heapAllocator (T : Type) : Allocator (Heap T) Nat T where
  allocate := fun heap value => (some heap.next, ⟨heap.next + 1, (heap.next, value) :: heap.cells⟩)
  read := fun heap ptr => heap.cells.lookup ptr
  deallocate := fun heap ptr =>
    if (heap.cells.lookup ptr).isSome then
      some { heap with cells := heap.cells.eraseP fun cell => cell.1 == ptr }
    else none

/-! ### The loops -/

/-- `Order` of the benchmarks. -/
structure BenchmarkOrder where
  orderId : UInt64
  price : UInt64
  qty : UInt64
  side : UInt64
deriving DecidableEq, Repr

namespace BenchmarkOrder

/-- `Order{i, i * 100, i * 10, i & 1}`. -/
def numbered (i : Nat) : BenchmarkOrder :=
  let i := UInt64.ofNat i
  ⟨i, i * 100, i * 10, i &&& 1⟩

/-- The orders of a loop over `i < n`. -/
def upTo (n : UInt64) : List BenchmarkOrder := (List.range n.toNat).map numbered

end BenchmarkOrder

/-- What the loops change: what is allocated, and `sink`. -/
structure Bench (State : Type) where
  state : State
  sink : UInt64

/-- What a pass of a churn draws: whether `coin(rng) == 0`, and an index up to a largest one. -/
structure ChurnDraw where
  coin : Bool
  pick : (max : Nat) → Fin (max + 1)

/-- What a churn changes: `live` is its vector of pointers. -/
structure Churn (State Ptr : Type) where
  bench : Bench State
  live : List (Option Ptr)

namespace Benchmark

/-! ### The cache -/

/-- `g_flush_buffer.size()`: 64 MB. -/
def flushBufferSize : Nat := 64 <<< 20

/-- `g_flush_buffer[i]`: the vector is zeroed, and nothing writes to it. -/
def flushBuffer (_i : Nat) : Int8 := 0

/-- `evict_cache`, on `sink`: every 128th byte is read, and their sum is added. -/
def evictCache (sink : UInt64) : UInt64 :=
  let indices := (List.range (flushBufferSize / 128)).map fun k => 128 * k
  let s := indices.foldl (fun s i => s + flushBuffer i) 0
  sink + s.toInt64.toUInt64

/-! ### Any way of allocating -/

section Loops

variable {State Ptr : Type} (allocator : Allocator State Ptr BenchmarkOrder)

/-- `sink += ptr->order_id`, and the pointer is given back. -/
def dealloc (bench : Bench State) (ptr : Option Ptr) : Option (Bench State) := do
  let order ← allocator.deref bench.state ptr
  let state ← allocator.release bench.state ptr
  return ⟨state, bench.sink + order.orderId⟩

/-- A burst of allocations: `ptrs[i]` for each `i < n`. -/
def benchAllocate (state : State) (n : UInt64) : List (Option Ptr) × State :=
  allocator.allocateEach state (BenchmarkOrder.upTo n)

/-- The pointers at some indices are given back, in order. -/
def benchDeallocRandom (ptrs : List (Option Ptr)) : Bench State → List Nat → Option (Bench State)
  | bench, [] => some bench
  | bench, idx :: later => do
    let ptr ← ptrs[idx]?
    let bench ← dealloc allocator bench ptr
    benchDeallocRandom ptrs bench later

/-- A burst of deallocations: `ptrs[i]` for each `i < n`. -/
def benchDeallocate (ptrs : List (Option Ptr)) (bench : Bench State) (n : UInt64) :
    Option (Bench State) :=
  benchDeallocRandom allocator ptrs bench (List.range n.toNat)

/-- One pass of a churn. -/
def churnPass (churn : Churn State Ptr) (i : Nat) (draw : ChurnDraw) : Option (Churn State Ptr) :=
  if draw.coin && !churn.live.isEmpty then do
    let idx := (draw.pick (churn.live.length - 1)).val
    let ptr ← churn.live[idx]?
    let bench ← dealloc allocator churn.bench ptr
    return ⟨bench, swapRemove churn.live idx⟩
  else
    let (ptr, state) := allocator.allocate churn.bench.state (.numbered i)
    some ⟨{ churn.bench with state := state }, churn.live ++ ptr.toList.map some⟩

/-- Passes of a churn, one for each `i`. -/
def churnPasses (draws : Nat → ChurnDraw) : Churn State Ptr → List Nat → Option (Churn State Ptr)
  | churn, [] => some churn
  | churn, i :: later => do
    let churn ← churnPass allocator churn i (draws i)
    churnPasses draws churn later

/-- The state of a churn after so many passes. The vector is filled up to `ops / 2`, and no pointer
is looked at. -/
def churnUpTo (bench : Bench State) (ops : UInt64) (draws : Nat → ChurnDraw) (passes : Nat) :
    Option (Churn State Ptr) :=
  let (live, state) := allocator.allocateEach bench.state (BenchmarkOrder.upTo (ops / 2))
  churnPasses allocator draws ⟨{ bench with state := state }, live⟩ (List.range passes)

/-- A churn of `ops` passes; what is live then is given back. -/
def benchChurn (bench : Bench State) (ops : UInt64) (draws : Nat → ChurnDraw) :
    Option (Bench State) := do
  let churn ← churnUpTo allocator bench ops draws ops.toNat
  let state ← allocator.releaseEach churn.bench.state churn.live
  return { churn.bench with state := state }

/-- `kColdSamples`. -/
def coldSamples : UInt64 := 256

/-- The cache is evicted before each allocation. -/
def coldPasses : Bench State → List BenchmarkOrder → List (Option Ptr) × Bench State
  | bench, [] => ([], bench)
  | bench, order :: later =>
    let (ptr, state) := allocator.allocate bench.state order
    let (ptrs, bench) := coldPasses ⟨state, evictCache bench.sink⟩ later
    (ptr :: ptrs, bench)

/-- Cold allocations into a vector of null pointers of some size. -/
def benchAllocateCold (bench : Bench State) (size : UInt64) :
    Option (List (Option Ptr) × Bench State) := do
  let count := min size coldSamples
  let (ptrs, bench) := coldPasses allocator bench (BenchmarkOrder.upTo count)
  -- `total / count`
  guard (count ≠ 0)
  return (ptrs ++ List.replicate (size.toNat - count.toNat) none, bench)

/-- The tests of `run_benchmark` with one way of allocating: `sink`, and what is allocated at the end
of each of the three. Each starts with nothing allocated. -/
def measure (fresh : State) (sink n : UInt64) (order : List Nat) (draws : Nat → ChurnDraw) :
    Option (UInt64 × List State) := do
  let (ptrs, state) := benchAllocate allocator fresh n
  let bench ← benchDeallocate allocator ptrs ⟨state, sink⟩ n
  let (ptrs, state) := benchAllocate allocator bench.state n
  let bench ← benchDeallocRandom allocator ptrs ⟨state, bench.sink⟩ order
  let churned ← benchChurn allocator ⟨fresh, bench.sink⟩ n draws
  let (ptrs, sampled) ← benchAllocateCold allocator ⟨fresh, churned.sink⟩ (min n coldSamples)
  let cold ← allocator.releaseEach sampled.state ptrs
  return (sampled.sink, [bench.state, churned.state, cold])

end Loops

/-! ### A pool -/

section Pool

variable (Pool : Type) {numElems : UInt64} [ObjectPool Pool BenchmarkOrder numElems]

/-- `bench_pool_allocate`. -/
def benchPoolAllocate := benchAllocate (poolAllocator Pool)

/-- `bench_pool_deallocate`. -/
def benchPoolDeallocate := benchDeallocate (poolAllocator Pool)

/-- `bench_pool_dealloc_random`. -/
def benchPoolDeallocRandom := benchDeallocRandom (poolAllocator Pool)

/-- `bench_pool_churn`. -/
def benchPoolChurn := benchChurn (poolAllocator Pool)

/-- `bench_pool_allocate_cold`. -/
def benchPoolAllocateCold := benchAllocateCold (poolAllocator Pool)

end Pool

/-! ### `new` and `delete` -/

/-- `bench_new_allocate`. -/
def benchNewAllocate := benchAllocate (heapAllocator BenchmarkOrder)

/-- `bench_new_deallocate`. -/
def benchNewDeallocate := benchDeallocate (heapAllocator BenchmarkOrder)

/-- `bench_new_dealloc_random`. -/
def benchNewDeallocRandom := benchDeallocRandom (heapAllocator BenchmarkOrder)

/-- `bench_new_churn`. -/
def benchNewChurn := benchChurn (heapAllocator BenchmarkOrder)

/-- `bench_new_allocate_cold`. -/
def benchNewAllocateCold := benchAllocateCold (heapAllocator BenchmarkOrder)

/-! ### `malloc` and `free` -/

/-- `bench_malloc_allocate`. -/
def benchMallocAllocate := benchAllocate (heapAllocator BenchmarkOrder)

/-- `bench_malloc_deallocate`. -/
def benchMallocDeallocate := benchDeallocate (heapAllocator BenchmarkOrder)

/-- `bench_malloc_dealloc_random`. -/
def benchMallocDeallocRandom := benchDeallocRandom (heapAllocator BenchmarkOrder)

/-- `bench_malloc_churn`. -/
def benchMallocChurn := benchChurn (heapAllocator BenchmarkOrder)

/-- `bench_malloc_allocate_cold`. -/
def benchMallocAllocateCold := benchAllocateCold (heapAllocator BenchmarkOrder)

/-! ### `run_benchmark` -/

/-- `run_benchmark`: `sink`, and what is allocated in the pools, by `new` and by `malloc` at the end
of each test. Nothing is known of the heap when nothing is allocated, so each test on it starts from
none. The engines of the three churns have one seed; what they draw is an argument each. -/
def runBenchmark (Pool : Type) {n : UInt64} [ObjectPool Pool BenchmarkOrder n]
    (pool : Leased Pool n) (sink : UInt64) (randomOrder : List Nat)
    (rngPool rngNew rngMalloc : Nat → ChurnDraw) :
    Option (UInt64 × List (Leased Pool n) × List (Heap BenchmarkOrder) ×
      List (Heap BenchmarkOrder)) := do
  let coldN := min n coldSamples
  let (poolPtrs, filled) := benchPoolAllocate Pool pool n
  let bench ← benchPoolDeallocate Pool poolPtrs ⟨filled, sink⟩ n
  let (poolPtrs, filled) := benchPoolAllocate Pool bench.state n
  let pool₁ ← benchPoolDeallocRandom Pool poolPtrs ⟨filled, bench.sink⟩ randomOrder
  let pool₂ ← benchPoolChurn Pool ⟨pool, pool₁.sink⟩ n rngPool
  let (poolColdPtrs, sampled) ← benchPoolAllocateCold Pool ⟨pool, pool₂.sink⟩ coldN
  let pool₃ ← (poolAllocator Pool).releaseEach sampled.state poolColdPtrs
  let (newPtrs, filled) := benchNewAllocate {} n
  let bench ← benchNewDeallocate newPtrs ⟨filled, sampled.sink⟩ n
  let (newPtrs, filled) := benchNewAllocate bench.state n
  let new₁ ← benchNewDeallocRandom newPtrs ⟨filled, bench.sink⟩ randomOrder
  let new₂ ← benchNewChurn ⟨{}, new₁.sink⟩ n rngNew
  let (newColdPtrs, sampled) ← benchNewAllocateCold ⟨{}, new₂.sink⟩ coldN
  let new₃ ← (heapAllocator BenchmarkOrder).releaseEach sampled.state newColdPtrs
  let (mallocPtrs, filled) := benchMallocAllocate {} n
  let bench ← benchMallocDeallocate mallocPtrs ⟨filled, sampled.sink⟩ n
  let (mallocPtrs, filled) := benchMallocAllocate bench.state n
  let malloc₁ ← benchMallocDeallocRandom mallocPtrs ⟨filled, bench.sink⟩ randomOrder
  let malloc₂ ← benchMallocChurn ⟨{}, malloc₁.sink⟩ n rngMalloc
  let (mallocColdPtrs, sampled) ← benchMallocAllocateCold ⟨{}, malloc₂.sink⟩ coldN
  let malloc₃ ← (heapAllocator BenchmarkOrder).releaseEach sampled.state mallocColdPtrs
  return (sampled.sink, [pool₁.state, pool₂.state, pool₃], [new₁.state, new₂.state, new₃],
    [malloc₁.state, malloc₂.state, malloc₃])

end Benchmark

end TradingExchange
