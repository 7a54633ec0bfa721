/-
**What the benchmarks do to the pools.**

`benchmarks_agree`: for a pool of any size, any shuffled order and whatever a churn draws, the loops
of a benchmark return. None reads through a null pointer or through one that was given back, and none
gives a pointer back twice; after each test nothing is live, in either pool and on the heap. Both
pools read the same objects, since both hand out pointers as long as there are elements, and not
longer; the heap's tests read the same as the pools' if the churn never holds more than a pool does.
The heap is one with memory for every request (`heapAllocator`).

`runBenchmark_returns` is the same for `run_benchmark` as a whole, which measures a pool, `new` and
`malloc` one after the other.
-/

import TradingExchange.Refinement.Benchmark

namespace TradingExchange

open Benchmark

/-- A churn that never holds more objects than a pool has elements. -/
def ChurnFits (n : UInt64) (draws : Nat → ChurnDraw) : Prop :=
  ∀ passes ≤ n.toNat, ∀ churn,
    churnUpTo (heapAllocator BenchmarkOrder) ⟨{}, 0⟩ n draws passes = some churn →
    churn.live.length ≤ n.toNat

/-! ### Bags -/

/-- What a bag holds does not depend on `sink`. -/
theorem Bag.live_churn (room : Nat → Bool) (draws : Nat → ChurnDraw) (sink sink' n : UInt64)
    (count : Nat) : (Bag.churn room draws sink n count).live =
      (Bag.churn room draws sink' n count).live := by
  induction count with
  | zero => rfl
  | succ count ih =>
    rw [churn_succ, churn_succ]
    unfold Bag.pass
    rw [ih]
    split
    · rfl
    · split
      · rfl
      · exact ih

/-- **A churn that fits is the same in a pool as on the heap.** -/
theorem ChurnFits.churn_eq {n : UInt64} {draws : Nat → ChurnDraw} (fits : ChurnFits n draws)
    (sink : UInt64) : Bag.churn (fun held => decide (held < n.toNat)) draws sink n n.toNat =
      Bag.churn (fun _ => true) draws sink n n.toNat := by
  refine Bag.churn_unbounded sink n n.toNat fun passes within held less => decide_eq_true ?_
  obtain ⟨churn, pairs, ran, points⟩ :=
    heapAllocator_lawful.churnUpTo HeapHeld.nothing (fun _ _ => rfl) 0 draws passes
  have most := fits passes within churn ran
  rw [points.live, List.length_map] at most
  rw [Bag.live_churn _ _ sink 0, points.objects, List.length_map] at less
  exact Nat.lt_of_lt_of_le less most

/-! ### The storage of the benchmarks -/

/-- The link of a free element is written over the order's id. -/
instance orderOverlay : PoolStorage BenchmarkOrder BenchmarkOrder where
  zeroed := ⟨0, 0, 0, 0⟩
  construct := fun _ order => order
  object := id
  nextFree := BenchmarkOrder.orderId
  setNextFree := fun order index => { order with orderId := index }
  object_construct := fun _ _ => rfl
  nextFree_setNextFree := fun _ _ => rfl

/-- An order in a block. -/
instance orderBlock : BlockStorage BenchmarkOrder BenchmarkOrder where
  zeroed := ⟨0, 0, 0, 0⟩
  construct := fun _ order => order
  object := id
  object_construct := fun _ _ => rfl

/-- Every other pass frees the first object, if there is one. -/
def alternating (i : Nat) : ChurnDraw where
  coin := i % 2 == 0
  pick := fun _ => 0

theorem churnFits_alternating : ChurnFits 3 alternating := by
  intro passes within churn ran
  have most : ∀ passes < 4, ∀ held ∈ (churnUpTo (heapAllocator BenchmarkOrder) ⟨{}, 0⟩ 3 alternating
      passes).map fun churn => churn.live.length, held ≤ 3 := by
    decide +kernel
  exact most passes (Nat.lt_succ_of_le within) _ (Option.mem_map_of_mem _ ran)

/-! ### Measurements -/

variable {Storage Storage' : Type} [PoolStorage Storage BenchmarkOrder]
  [BlockStorage Storage' BenchmarkOrder]

/-- A pool that was made has elements. -/
theorem Leased.size_pos {n : UInt64} {leased : Leased (MemPool Storage n) n}
    (created : Leased.new (MemPool Storage n) = some leased) : 0 < n := by
  obtain ⟨pool, made, -⟩ := Option.map_eq_some_iff.mp created
  by_contra zero
  exact Option.some_ne_none _ (made.symm.trans (if_neg zero))

/-- **`run_benchmark` returns with either pool**, adds the same to `sink`, and leaves nothing
allocated. -/
theorem runBenchmark_returns {n : UInt64} {leased : Leased (MemPool Storage n) n}
    {leased' : Leased (MemPoolSeparateFreeStructure Storage' n) n}
    (created : Leased.new (MemPool Storage n) = some leased)
    (created' : Leased.new (MemPoolSeparateFreeStructure Storage' n) = some leased')
    {order : List Nat} (shuffled : order.Perm (List.range n.toNat)) (sink : UInt64)
    (rngPool rngNew rngMalloc : Nat → ChurnDraw) :
    ∃ last pools pools' news mallocs,
      runBenchmark (MemPool Storage n) leased sink order rngPool rngNew rngMalloc =
        some (last, pools, news, mallocs) ∧
      runBenchmark (MemPoolSeparateFreeStructure Storage' n) leased' sink order rngPool rngNew
        rngMalloc = some (last, pools', news, mallocs) ∧
      (∀ leased ∈ pools, leased.live = []) ∧ (∀ leased ∈ pools', leased.live = []) ∧
      (∀ heap ∈ news, heap.cells = []) ∧ ∀ heap ∈ mallocs, heap.cells = [] := by
  have positive := Leased.size_pos created
  have room : ∀ k < n.toNat, decide (k < n.toNat) = true := fun k less => decide_eq_true less
  obtain ⟨pools, ran, empty⟩ := poolAllocator_lawful.measure (PoolHeld.new created) positive room
    shuffled sink rngPool
  obtain ⟨pools', ran', empty'⟩ := poolAllocator_lawful.measure (PoolHeld.new created') positive
    room shuffled sink rngPool
  -- Both pools hand the same `sink` on, so the tests on the heap are the same.
  generalize (Bag.churn _ rngPool _ n n.toNat).sink = pooled at ran ran'
  obtain ⟨news, newRan, deleted⟩ := heapAllocator_lawful.measure HeapHeld.nothing positive
    (fun _ _ => rfl) shuffled pooled rngNew
  generalize (Bag.churn _ rngNew _ n n.toNat).sink = handed at newRan
  obtain ⟨mallocs, mallocRan, freed⟩ := heapAllocator_lawful.measure HeapHeld.nothing positive
    (fun _ _ => rfl) shuffled handed rngMalloc
  generalize (Bag.churn _ rngMalloc _ n n.toNat).sink = last at mallocRan
  refine ⟨last, pools, pools', news, mallocs, ?_, ?_,
    fun leased member => (empty leased member).live_nil,
    fun leased member => (empty' leased member).live_nil, fun heap member => ?_,
    fun heap member => ?_⟩
  · simp only [runBenchmark_eq, ran, newRan, Option.bind_eq_bind, Option.bind_some, mallocRan]
    rfl
  · simp only [runBenchmark_eq, ran', newRan, Option.bind_eq_bind, Option.bind_some, mallocRan]
    rfl
  · exact List.perm_nil.mp (deleted heap member).cells
  · exact List.perm_nil.mp (freed heap member).cells

/-- **The benchmarks return, leave nothing behind, and read the same in both pools.** -/
theorem benchmarks_agree {n : UInt64} {leased : Leased (MemPool Storage n) n}
    {leased' : Leased (MemPoolSeparateFreeStructure Storage' n) n}
    (created : Leased.new (MemPool Storage n) = some leased)
    (created' : Leased.new (MemPoolSeparateFreeStructure Storage' n) = some leased')
    {order : List Nat} (shuffled : order.Perm (List.range n.toNat)) (sink : UInt64)
    (draws : Nat → ChurnDraw) :
    ∃ total pools pools' heapTotal heaps,
      measure (poolAllocator (MemPool Storage n)) leased sink n order draws =
        some (total, pools) ∧
      measure (poolAllocator (MemPoolSeparateFreeStructure Storage' n)) leased' sink n order draws =
        some (total, pools') ∧
      measure (heapAllocator BenchmarkOrder) {} sink n order draws = some (heapTotal, heaps) ∧
      (∀ leased ∈ pools, leased.live = []) ∧ (∀ leased ∈ pools', leased.live = []) ∧
      (∀ heap ∈ heaps, heap.cells = []) ∧ (ChurnFits n draws → heapTotal = total) ∧
      total = (Bag.churn (fun held => decide (held < n.toNat)) draws
        (sink + ids (List.range n.toNat) + ids (List.range n.toNat)) n n.toNat).sink := by
  have positive := Leased.size_pos created
  have room : ∀ k < n.toNat, decide (k < n.toNat) = true := fun k less => decide_eq_true less
  obtain ⟨pools, ran, empty⟩ := poolAllocator_lawful.measure (PoolHeld.new created) positive room
    shuffled sink draws
  obtain ⟨pools', ran', empty'⟩ := poolAllocator_lawful.measure (PoolHeld.new created') positive
    room shuffled sink draws
  obtain ⟨heaps, heapRan, freed⟩ := heapAllocator_lawful.measure HeapHeld.nothing positive
    (fun _ _ => rfl) shuffled sink draws
  refine ⟨_, pools, pools', _, heaps, ran, ran', heapRan, fun leased member => ?_,
    fun leased member => ?_, fun heap member => ?_, fun fits => ?_, rfl⟩
  · exact (empty leased member).live_nil
  · exact (empty' leased member).live_nil
  · exact List.perm_nil.mp (freed heap member).cells
  · rw [fits.churn_eq]

/-- Pools of three and a shuffle of three: the ids of two bursts and of a churn that frees every other
time add up to 7. -/
theorem benchmarks_agree_sample :
    ∃ leased leased' pools pools' heaps,
      Leased.new (MemPool BenchmarkOrder 3) = some leased ∧
      Leased.new (MemPoolSeparateFreeStructure BenchmarkOrder 3) = some leased' ∧
      measure (poolAllocator (MemPool BenchmarkOrder 3)) leased 0 3 [2, 0, 1] alternating =
        some (7, pools) ∧
      measure (poolAllocator (MemPoolSeparateFreeStructure BenchmarkOrder 3)) leased' 0 3 [2, 0, 1]
        alternating = some (7, pools') ∧
      measure (heapAllocator BenchmarkOrder) {} 0 3 [2, 0, 1] alternating = some (7, heaps) ∧
      (∀ leased ∈ pools, leased.live = []) ∧ (∀ leased ∈ pools', leased.live = []) ∧
      ∀ heap ∈ heaps, heap.cells = [] := by
  obtain ⟨total, pools, pools', heapTotal, heaps, ran, ran', heapRan, empty, empty', freed, same,
      sum⟩ :=
    benchmarks_agree (rfl : Leased.new (MemPool BenchmarkOrder 3) = some _)
      (rfl : Leased.new (MemPoolSeparateFreeStructure BenchmarkOrder 3) = some _)
      (by decide : [2, 0, 1].Perm (List.range (3 : UInt64).toNat)) 0 alternating
  obtain rfl := same churnFits_alternating
  have seven : (Bag.churn (fun held => decide (held < (3 : UInt64).toNat)) alternating
      (0 + ids (List.range (3 : UInt64).toNat) + ids (List.range (3 : UInt64).toNat)) 3
      (3 : UInt64).toNat).sink = 7 := by
    decide +kernel
  obtain rfl := sum.trans seven
  exact ⟨_, _, pools, pools', heaps, rfl, rfl, ran, ran', heapRan, empty, empty', freed⟩

end TradingExchange
