/-
**The loops of the benchmarks, over any allocator.**

Over a lawful allocator with room for `n` objects no loop of the benchmarks fails: each pointer that
is read is held, and each that is given back is held until then. What `sink` is in the end is what the
bag says (`Lawful.measure`), and nothing is held any more.

Both pools are such allocators, with room for their elements (`poolAllocator_lawful`), and so is the
heap, with room for any number of objects (`heapAllocator_lawful`).
-/

import TradingExchange.Abstract.Bag
import TradingExchange.Refinement.Leases

namespace TradingExchange

open Benchmark BenchmarkOrder

namespace Benchmark

/-- The sum of the ids in a loop over some indices. -/
def ids (indices : List Nat) : UInt64 := UInt64.ofNat indices.sum

theorem ids_cons (index : Nat) (later : List Nat) :
    ids (index :: later) = UInt64.ofNat index + ids later := by
  rw [ids, List.sum_cons, UInt64.ofNat_add, ids]

theorem ids_perm {one two : List Nat} (same : one.Perm two) : ids one = ids two :=
  congrArg UInt64.ofNat same.sum_nat

/-- The number of cold samples is `n` or `kColdSamples`. -/
theorem min_coldSamples (n : UInt64) :
    n ≤ coldSamples ∧ min n coldSamples = n ∨
      coldSamples < n ∧ min n coldSamples = coldSamples := by
  by_cases less : n ≤ coldSamples
  · exact .inl ⟨less, if_pos less⟩
  · exact .inr ⟨UInt64.not_le.mp less, if_neg less⟩

/-- **Evicting the cache leaves `sink` as it is**: the buffer holds zeros only. -/
theorem evictCache_eq (sink : UInt64) : evictCache sink = sink := by
  have zeros : ∀ indices : List Nat, indices.foldl (fun s i => s + flushBuffer i) 0 = 0 := by
    intro indices
    induction indices with
    | nil => rfl
    | cons i later ih => exact ih
  rw [evictCache, zeros]
  exact UInt64.add_zero sink

/-- Cold allocations are allocations. -/
theorem coldPasses_eq {State Ptr : Type} (allocator : Allocator State Ptr BenchmarkOrder)
    (bench : Bench State) (orders : List BenchmarkOrder) :
    coldPasses allocator bench orders = ((allocator.allocateEach bench.state orders).1,
      ⟨(allocator.allocateEach bench.state orders).2, bench.sink⟩) := by
  induction orders generalizing bench with
  | nil => rfl
  | cons order later ih =>
    simp only [coldPasses, ih, evictCache_eq]
    rfl

end Benchmark

/-! ### Any allocator -/

namespace Allocator.Lawful

variable {State Ptr : Type} {allocator : Allocator State Ptr BenchmarkOrder} {room : Nat → Bool}
  {Held : State → List (Ptr × BenchmarkOrder) → Prop} {state fresh : State}
  {held : List (Ptr × BenchmarkOrder)} {n : UInt64}

theorem dealloc (lawful : allocator.Lawful room Held) (sink : UInt64) {ptr : Ptr}
    {order : BenchmarkOrder} (holds : Held state ((ptr, order) :: held)) :
    ∃ after, Benchmark.dealloc allocator ⟨state, sink⟩ (some ptr) =
      some ⟨after, sink + order.orderId⟩ ∧ Held after held := by
  obtain ⟨after, released, rest⟩ := lawful.deallocate holds
  refine ⟨after, ?_, rest⟩
  simp only [Benchmark.dealloc, Allocator.deref, Allocator.release, lawful.read holds, released]
  rfl

/-- **A vector of numbered orders is given back in any order**, and the sum of the ids is added. -/
theorem benchDeallocRandom (lawful : allocator.Lawful room Held) (sink : UInt64)
    {pairs : List (Ptr × BenchmarkOrder)}
    (numbers : ∀ idx pair, pairs[idx]? = some pair → pair.2.orderId = UInt64.ofNat idx)
    {order : List Nat} (inside : ∀ idx ∈ order, idx < pairs.length)
    (holds : Held state (order.filterMap fun idx => pairs[idx]?)) :
    ∃ after, Benchmark.benchDeallocRandom allocator (pairs.map fun pair => some pair.1)
        ⟨state, sink⟩ order = some ⟨after, sink + ids order⟩ ∧ Held after [] := by
  induction order generalizing state sink with
  | nil => exact ⟨state, by rw [Benchmark.benchDeallocRandom]; simp [ids], holds⟩
  | cons idx later ih =>
    obtain ⟨here, rest⟩ := List.forall_mem_cons.mp inside
    obtain ⟨⟨ptr, value⟩, found⟩ : ∃ pair, pairs[idx]? = some pair :=
      ⟨_, List.getElem?_eq_getElem here⟩
    rw [List.filterMap_cons_some found] at holds
    obtain ⟨next, released, holds⟩ := lawful.dealloc sink holds
    obtain ⟨after, ran, ends⟩ := ih (sink + value.orderId) rest holds
    refine ⟨after, ?_, ends⟩
    have number : value.orderId = UInt64.ofNat idx := numbers idx _ found
    rw [Benchmark.benchDeallocRandom, List.getElem?_map, found]
    simp only [Option.map_some, Option.bind_eq_bind, Option.bind_some, released]
    rw [ran, number, ids_cons, UInt64.add_assoc]

/-- The orders of a loop, each with its pointer. -/
theorem allocated (lawful : allocator.Lawful room Held) (holds : Held fresh [])
    (enough : ∀ k < n.toNat, room k = true) :
    ∃ (pairs : List (Ptr × BenchmarkOrder)) (after : State),
      allocator.allocateEach fresh (upTo n) = (pairs.map fun pair => some pair.1, after) ∧
      pairs.map Prod.snd = upTo n ∧ Held after pairs := by
  have count : (upTo n).length = n.toNat := by rw [upTo, List.length_map, List.length_range]
  obtain ⟨ptrs, after, ran, length, holds⟩ := lawful.allocateEach holds (upTo n)
    fun more less => by
      rw [List.length_nil, Nat.zero_add]
      exact enough more (count ▸ less)
  refine ⟨ptrs.zip (upTo n), after, ?_, List.map_snd_zip (Nat.le_of_eq length.symm), holds⟩
  have firsts := congrArg (List.map some) (List.map_fst_zip (Nat.le_of_eq length))
  rw [ran, ← firsts, List.map_map]
  rfl

/-! ### Churning -/

/-- The vector of a churn points to the objects of a bag, and nothing else is held. -/
structure Points (Held : State → List (Ptr × BenchmarkOrder) → Prop) (churn : Churn State Ptr)
    (bag : Bag) (pairs : List (Ptr × BenchmarkOrder)) : Prop where
  held : Held churn.bench.state pairs
  live : churn.live = pairs.map fun pair => some pair.1
  objects : bag.live = pairs.map Prod.snd
  sink : bag.sink = churn.bench.sink

/-- A pass that removes the object at an index. -/
theorem Points.removes (lawful : allocator.Lawful room Held) {churn : Churn State Ptr} {bag : Bag}
    {pairs : List (Ptr × BenchmarkOrder)} (points : Points Held churn bag pairs) {index : Nat}
    (inside : index < pairs.length) :
    ∃ bench, (do
        let ptr ← churn.live[index]?
        Benchmark.dealloc allocator churn.bench ptr) = some bench ∧
      Points Held ⟨bench, swapRemove churn.live index⟩
        ⟨bag.sink + (bag.live[index]?.map BenchmarkOrder.orderId).getD 0, swapRemove bag.live index⟩
        (swapRemove pairs index) := by
  have found : pairs[index]? = some pairs[index] := List.getElem?_eq_getElem inside
  have ptr : churn.live[index]? = some (some pairs[index].1) := by
    rw [points.live, List.getElem?_map, found, Option.map_some]
  have object : bag.live[index]? = some pairs[index].2 := by
    rw [points.objects, List.getElem?_map, found, Option.map_some]
  obtain ⟨read, after, released, rest⟩ := lawful.removeAt points.held inside
  refine ⟨⟨after, churn.bench.sink + pairs[index].2.orderId⟩, ?_, rest, ?_, ?_, ?_⟩
  · simp only [ptr, Option.bind_eq_bind, Option.bind_some, Benchmark.dealloc, Allocator.deref,
      Allocator.release, read, released]
    rfl
  · show swapRemove churn.live index = _
    rw [points.live, swapRemove_map]
  · show swapRemove bag.live index = _
    rw [points.objects, swapRemove_map]
  · show bag.sink + (bag.live[index]?.map orderId).getD 0 = churn.bench.sink + pairs[index].2.orderId
    rw [object, points.sink]
    rfl

/-- A pass that allocates, if there is room. -/
theorem Points.adds (lawful : allocator.Lawful room Held) {churn : Churn State Ptr} {bag : Bag}
    {pairs : List (Ptr × BenchmarkOrder)} (points : Points Held churn bag pairs)
    (order : BenchmarkOrder) :
    ∃ ptr after pairs', allocator.allocate churn.bench.state order = (ptr, after) ∧
      Points Held ⟨{ churn.bench with state := after }, churn.live ++ ptr.toList.map some⟩
        (if room bag.live.length then { bag with live := bag.live ++ [order] } else bag) pairs' := by
  have count : bag.live.length = pairs.length := by rw [points.objects, List.length_map]
  rw [count]
  cases fits : room pairs.length with
  | true =>
    obtain ⟨ptr, after, ran, holds⟩ := lawful.allocate order points.held fits
    refine ⟨some ptr, after, pairs ++ [(ptr, order)], ran, ?_, ?_, ?_, points.sink⟩
    · exact lawful.perm holds (List.perm_append_singleton _ _).symm
    · rw [List.map_append, points.live]
      rfl
    · show bag.live ++ [order] = _
      rw [List.map_append, points.objects]
      rfl
  | false =>
    obtain ⟨after, ran, holds⟩ := lawful.full order points.held fits
    refine ⟨none, after, pairs, ran, holds, ?_, points.objects, points.sink⟩
    show churn.live ++ [] = _
    rw [List.append_nil, points.live]

/-- **A pass of a churn does not fail**, and is the bag's. -/
theorem churnPass (lawful : allocator.Lawful room Held) {churn : Churn State Ptr} {bag : Bag}
    {pairs : List (Ptr × BenchmarkOrder)} (points : Points Held churn bag pairs) (i : Nat)
    (draw : ChurnDraw) : ∃ next pairs', Benchmark.churnPass allocator churn i draw = some next ∧
      Points Held next (bag.pass room i draw) pairs' := by
  have count : churn.live.length = pairs.length := by rw [points.live, List.length_map]
  have count' : bag.live.length = churn.live.length := by rw [points.objects, List.length_map, count]
  have empty : bag.live.isEmpty = churn.live.isEmpty := by
    rw [points.objects, points.live, List.isEmpty_map, List.isEmpty_map]
  unfold Benchmark.churnPass Bag.pass
  rw [empty]
  by_cases removes : (draw.coin && !churn.live.isEmpty) = true
  · rw [if_pos removes, if_pos removes, count']
    have inside : (draw.pick (churn.live.length - 1)).val < pairs.length := by
      rw [Bool.and_eq_true, Bool.not_eq_true', List.isEmpty_eq_false_iff] at removes
      have := List.length_pos_iff.mpr removes.2
      omega
    obtain ⟨bench, ran, points⟩ := points.removes lawful inside
    refine ⟨_, _, ?_, points⟩
    simp only [← bind_assoc, ran]
    rfl
  · rw [if_neg removes, if_neg removes]
    obtain ⟨ptr, after, pairs', ran, points⟩ := points.adds lawful (numbered i)
    refine ⟨_, pairs', ?_, points⟩
    rw [ran]

/-- **The passes of a churn do not fail**, and are the bag's. -/
theorem churnPasses (lawful : allocator.Lawful room Held) {churn : Churn State Ptr} {bag : Bag}
    {pairs : List (Ptr × BenchmarkOrder)} (points : Points Held churn bag pairs)
    (draws : Nat → ChurnDraw) (indices : List Nat) :
    ∃ last pairs', Benchmark.churnPasses allocator draws churn indices = some last ∧
      Points Held last (bag.passes room draws indices) pairs' := by
  induction indices generalizing churn bag pairs with
  | nil => exact ⟨churn, pairs, rfl, points⟩
  | cons i later ih =>
    obtain ⟨next, pairs', went, points⟩ := lawful.churnPass points i (draws i)
    obtain ⟨last, pairs'', ran, ends⟩ := ih points
    refine ⟨last, pairs'', ?_, ends⟩
    rw [Benchmark.churnPasses, went]
    exact ran

/-- **A churn from nothing held is the bag's**, if there is room to fill the vector. -/
theorem churnUpTo (lawful : allocator.Lawful room Held) (holds : Held fresh [])
    (enough : ∀ k < (n / 2).toNat, room k = true) (sink : UInt64) (draws : Nat → ChurnDraw)
    (passes : Nat) :
    ∃ churn pairs, Benchmark.churnUpTo allocator ⟨fresh, sink⟩ n draws passes = some churn ∧
      Points Held churn (Bag.churn room draws sink n passes) pairs := by
  obtain ⟨pairs, state, filled, objects, holds⟩ := lawful.allocated holds enough
  have points : Points Held ⟨⟨state, sink⟩, pairs.map fun pair => some pair.1⟩
      ⟨sink, upTo (n / 2)⟩ pairs := ⟨holds, rfl, objects.symm, rfl⟩
  rw [Benchmark.churnUpTo]
  simp only [filled]
  exact lawful.churnPasses points draws (List.range passes)

/-! ### A measurement -/

/-- **What is allocated is given back in any order**, and every id is added to `sink` once. -/
theorem allocateAndDealloc (lawful : allocator.Lawful room Held) (holds : Held state [])
    (enough : ∀ k < n.toNat, room k = true) {order : List Nat}
    (shuffled : order.Perm (List.range n.toNat)) (sink : UInt64) :
    ∃ ptrs filled after, benchAllocate allocator state n = (ptrs, filled) ∧
      Benchmark.benchDeallocRandom allocator ptrs ⟨filled, sink⟩ order =
        some ⟨after, sink + ids (List.range n.toNat)⟩ ∧ Held after [] := by
  obtain ⟨pairs, filled, ran, objects, holds⟩ := lawful.allocated holds enough
  have length : pairs.length = n.toNat := by
    have same := congrArg List.length objects
    rwa [List.length_map, upTo, List.length_map, List.length_range] at same
  have numbers : ∀ idx pair, pairs[idx]? = some pair → pair.2.orderId = UInt64.ofNat idx := by
    intro idx pair found
    have object : (upTo n)[idx]? = some pair.2 := by rw [← objects, List.getElem?_map, found]; rfl
    have inside : idx < n.toNat := length ▸ (List.getElem?_eq_some_iff.mp found).1
    rw [upTo, List.getElem?_map, List.getElem?_range inside, Option.map_some] at object
    rw [← Option.some.inj object]
    rfl
  have all : pairs.Perm (order.filterMap fun idx => pairs[idx]?) := by
    have same := (shuffled.filterMap fun idx => pairs[idx]?).symm
    rwa [← length, filterMap_range] at same
  obtain ⟨after, released, ends⟩ := lawful.benchDeallocRandom sink numbers (fun idx member => by
    rw [length]
    exact List.mem_range.mp (shuffled.subset member)) (lawful.perm holds all)
  exact ⟨_, filled, after, ran, ids_perm shuffled ▸ released, ends⟩

/-- **A churn gives back all that it holds**, and its `sink` is the bag's. -/
theorem benchChurn (lawful : allocator.Lawful room Held) (holds : Held fresh [])
    (enough : ∀ k < (n / 2).toNat, room k = true) (sink : UInt64) (draws : Nat → ChurnDraw) :
    ∃ after, Benchmark.benchChurn allocator ⟨fresh, sink⟩ n draws =
      some ⟨after, (Bag.churn room draws sink n n.toNat).sink⟩ ∧ Held after [] := by
  obtain ⟨churn, pairs, ran, points⟩ := lawful.churnUpTo holds enough sink draws n.toNat
  obtain ⟨after, released, ends⟩ := lawful.releaseEach points.held
  refine ⟨after, ?_, ends⟩
  rw [points.sink]
  simp only [Benchmark.benchChurn, ran, points.live, released, Option.bind_eq_bind, Option.bind_some]
  rfl

/-- **Cold allocations do not fail**: they fill a vector that is not longer than `kColdSamples`. -/
theorem benchAllocateCold (lawful : allocator.Lawful room Held) (holds : Held fresh [])
    (positive : 0 < n) (enough : ∀ k < n.toNat, room k = true) (sink : UInt64) :
    ∃ (pairs : List (Ptr × BenchmarkOrder)) (filled : State),
      Benchmark.benchAllocateCold allocator ⟨fresh, sink⟩ (min n coldSamples) =
        some (pairs.map fun pair => some pair.1, ⟨filled, sink⟩) ∧ Held filled pairs := by
  have same : min (min n coldSamples) coldSamples = min n coldSamples := by
    rcases min_coldSamples n with ⟨less, same⟩ | ⟨-, same⟩ <;> rw [same]
    · exact same
    · exact if_pos (UInt64.le_refl _)
  have fewer : (min n coldSamples).toNat ≤ n.toNat := by
    rcases min_coldSamples n with ⟨-, same⟩ | ⟨less, same⟩ <;> rw [same]
    exact Nat.le_of_lt (UInt64.lt_iff_toNat_lt.mp less)
  have samples : min n coldSamples ≠ 0 := by
    rcases min_coldSamples n with ⟨-, same⟩ | ⟨-, same⟩ <;> rw [same]
    · exact (UInt64.ne_of_lt positive).symm
    · decide
  obtain ⟨pairs, filled, sampled, -, heldCold⟩ :=
    lawful.allocated holds fun k less => enough k (Nat.lt_of_lt_of_le less fewer)
  refine ⟨pairs, filled, ?_, heldCold⟩
  rw [Benchmark.benchAllocateCold, same, coldPasses_eq, sampled, Nat.sub_self]
  simp only [guard, if_pos samples, List.replicate_zero, List.append_nil]
  rfl

/-- **A measurement does not fail**, and nothing is held after any of its tests. -/
theorem measure (lawful : allocator.Lawful room Held) (holds : Held fresh []) (positive : 0 < n)
    (enough : ∀ k < n.toNat, room k = true) {order : List Nat}
    (shuffled : order.Perm (List.range n.toNat)) (sink : UInt64) (draws : Nat → ChurnDraw) :
    ∃ states, Benchmark.measure allocator fresh sink n order draws =
        some ((Bag.churn room draws (sink + ids (List.range n.toNat) + ids (List.range n.toNat)) n
          n.toNat).sink, states) ∧
      ∀ state ∈ states, Held state [] := by
  obtain ⟨ptrs, filled, one, ran, released, holds₁⟩ :=
    lawful.allocateAndDealloc holds enough (.refl _) sink
  obtain ⟨ptrs', filled', two, ran', released', holds₂⟩ :=
    lawful.allocateAndDealloc holds₁ enough shuffled (sink + ids (List.range n.toNat))
  have half : (n / 2).toNat ≤ n.toNat := by
    rw [UInt64.toNat_div]
    exact Nat.div_le_self ..
  obtain ⟨three, churned, holds₃⟩ := lawful.benchChurn holds
    (fun k less => enough k (Nat.lt_of_lt_of_le less half))
    (sink + ids (List.range n.toNat) + ids (List.range n.toNat)) draws
  obtain ⟨pairs, cold, sampled, heldCold⟩ := lawful.benchAllocateCold holds positive enough
    (Bag.churn room draws (sink + ids (List.range n.toNat) + ids (List.range n.toNat)) n n.toNat).sink
  obtain ⟨four, emptied, holds₄⟩ := lawful.releaseEach heldCold
  refine ⟨[two, three, four], ?_, ?_⟩
  · unfold Benchmark.measure benchDeallocate
    simp only [ran, released, ran', released', churned, sampled, emptied, Option.bind_eq_bind,
      Option.bind_some]
    rfl
  · rintro state (_ | ⟨_, _ | ⟨_, _ | ⟨_, member⟩⟩⟩)
    · exact holds₂
    · exact holds₃
    · exact holds₄
    · cases member

end Allocator.Lawful

/-- **`run_benchmark` measures a pool, `new` and `malloc`**, and passes `sink` on. -/
theorem Benchmark.runBenchmark_eq (Pool : Type) {n : UInt64} [ObjectPool Pool BenchmarkOrder n]
    (pool : Leased Pool n) (sink : UInt64) (randomOrder : List Nat)
    (rngPool rngNew rngMalloc : Nat → ChurnDraw) :
    runBenchmark Pool pool sink randomOrder rngPool rngNew rngMalloc = do
      let pools ← measure (poolAllocator Pool) pool sink n randomOrder rngPool
      let news ← measure (heapAllocator BenchmarkOrder) {} pools.1 n randomOrder rngNew
      let mallocs ← measure (heapAllocator BenchmarkOrder) {} news.1 n randomOrder rngMalloc
      return (mallocs.1, pools.2, news.2, mallocs.2) := by
  simp only [measure, bind_assoc, pure_bind]
  rfl

/-! ### The pools -/

/-- A pool whose objects stay as they are while they are live. -/
class LawfulObjectPool (Pool : Type) (T : outParam Type) (numElems : outParam UInt64)
    [ObjectPool Pool T numElems] : Prop where
  deref_allocate : ∀ {pool after : Pool} {slot : Slot numElems} (value : T),
    SlotPool.allocate pool value = (some slot, after) →
    ObjectPool.deref after slot = value ∧
      ∀ other, other ≠ slot → ObjectPool.deref after other = ObjectPool.deref pool other
  deref_deallocate : ∀ (pool : Pool) {slot other : Slot numElems}, other ≠ slot →
    ObjectPool.deref (SlotPool.deallocate pool slot) other = ObjectPool.deref pool other

instance {Storage T : Type} [PoolStorage Storage T] {numElems : UInt64} :
    LawfulObjectPool (MemPool Storage numElems) T numElems where
  deref_allocate := by
    intro pool after slot value (ran : MemPool.allocate pool value = _)
    unfold MemPool.allocate at ran
    split at ran
    · obtain ⟨same, rfl⟩ := Prod.mk.inj ran
      rw [Option.some.inj same]
      refine ⟨?_, fun other different => MemPool.deref_congr (MemPool.setElement_of_ne _ _ different)⟩
      show PoolStorage.object _ = value
      rw [MemPool.setElement_self, PoolStorage.object_construct]
    · cases (Prod.mk.inj ran).1
  deref_deallocate := fun pool _ _ different =>
    MemPool.deref_congr (pool.store_deallocate_of_ne different)

instance {Storage T : Type} [BlockStorage Storage T] {numElems : UInt64} :
    LawfulObjectPool (MemPoolSeparateFreeStructure Storage numElems) T numElems where
  deref_allocate := by
    intro pool after slot value (ran : MemPoolSeparateFreeStructure.allocate pool value = _)
    unfold MemPoolSeparateFreeStructure.allocate at ran
    split at ran
    · obtain ⟨same, rfl⟩ := Prod.mk.inj ran
      rw [Option.some.inj same]
      refine ⟨?_, fun other different => ?_⟩
      · show BlockStorage.object _ = value
        rw [MemPoolSeparateFreeStructure.setBlock_self, BlockStorage.object_construct]
      · show BlockStorage.object _ = BlockStorage.object _
        rw [MemPoolSeparateFreeStructure.setBlock_of_ne _ different]
    · cases (Prod.mk.inj ran).1
  deref_deallocate := by
    intro pool slot other different
    have kept : (pool.deallocate slot).store other = pool.store other :=
      MemPoolSeparateFreeStructure.setBlock_of_ne _ different
    show BlockStorage.object ((pool.deallocate slot).store other).storage = _
    rw [kept]
    rfl

section Pools

variable {Pool T : Type} {numElems : UInt64} [ObjectPool Pool T numElems]
  [LawfulSlotPool Pool T numElems]

/-- The live slots of a pool, each with its object. -/
structure PoolHeld (leased : Leased Pool numElems) (held : List (Slot numElems × T)) : Prop where
  shows : ∃ free, leased.Shows free
  slots : (held.map Prod.fst).Perm leased.live
  objects : ∀ object ∈ held, ObjectPool.deref leased.pool object.1 = object.2

variable {leased : Leased Pool numElems} {held : List (Slot numElems × T)}

theorem PoolHeld.length (holds : PoolHeld leased held) : held.length = leased.live.length := by
  rw [← holds.slots.length_eq, List.length_map]

theorem PoolHeld.nodup (holds : PoolHeld leased held) : (held.map Prod.fst).Nodup := by
  obtain ⟨free, shown⟩ := holds.shows
  exact holds.slots.nodup_iff.mpr (List.nodup_append.mp shown.nodup).1

theorem PoolHeld.mem_live (holds : PoolHeld leased held) {object : Slot numElems × T}
    (member : object ∈ held) : object.1 ∈ leased.live :=
  holds.slots.subset (List.mem_map_of_mem member)

/-- A new pool holds nothing. -/
theorem PoolHeld.new (created : Leased.new Pool = some leased) : PoolHeld leased [] := by
  refine ⟨⟨_, Leased.Shows.new created⟩, ?_, fun _ member => absurd member List.not_mem_nil⟩
  obtain ⟨pool, -, rfl⟩ := Option.map_eq_some_iff.mp created
  exact .refl _

/-- A pool that holds nothing has no live slot. -/
theorem PoolHeld.live_nil (holds : PoolHeld leased []) : leased.live = [] :=
  List.perm_nil.mp holds.slots.symm

/-- A pool whose slots are all live returns null. -/
theorem PoolHeld.full (holds : PoolHeld leased held) (value : T)
    (all : held.length = numElems.toNat) :
    ∃ after, (poolAllocator Pool).allocate leased value = (none, after) ∧ PoolHeld after held := by
  obtain ⟨free, shown⟩ := holds.shows
  have empty : free = [] := by
    have count := shown.length
    rw [← holds.length, all] at count
    exact List.length_eq_zero_iff.mp (Nat.add_eq_left.mp count)
  subst empty
  have refused := LawfulSlotPool.allocate_nil value shown.lists
  refine ⟨leased, ?_, holds⟩
  simp only [poolAllocator, refused, Option.toList_none, List.nil_append]

variable [LawfulObjectPool Pool T numElems]

/-- A pool with a slot that is not live hands one out, and no object that is held changes. -/
theorem PoolHeld.allocate (holds : PoolHeld leased held) (value : T)
    (fits : held.length < numElems.toNat) :
    ∃ slot after, (poolAllocator Pool).allocate leased value = (some slot, after) ∧
      PoolHeld after ((slot, value) :: held) := by
  obtain ⟨free, shown⟩ := holds.shows
  cases free with
  | nil =>
    have all := shown.length
    rw [List.length_nil, Nat.add_zero, ← holds.length] at all
    exact absurd all (Nat.ne_of_lt fits)
  | cons slot free =>
    obtain ⟨pool, allocated, -⟩ := LawfulSlotPool.allocate_cons value shown.lists
    have legal : leased.Legal (.allocate value) := trivial
    obtain ⟨after, ran, shows, -⟩ := shown.step legal
    obtain rfl : ⟨pool, slot :: leased.live⟩ = after := by
      rw [Leased.step, allocated] at ran
      exact (Prod.mk.inj (Except.ok.inj ran)).2
    obtain ⟨here, others⟩ := LawfulObjectPool.deref_allocate value allocated
    refine ⟨slot, _, by simp only [poolAllocator, allocated]; rfl, ⟨_, shows⟩,
      holds.slots.cons slot, List.forall_mem_cons.mpr ⟨here, fun object member => ?_⟩⟩
    have different : object.1 ≠ slot := fun same =>
      shown.not_free (holds.mem_live member) (same ▸ List.mem_cons_self)
    rw [← holds.objects object member]
    exact others _ different

/-- A slot that is given back is not live, and no other object changes. -/
theorem PoolHeld.deallocate {slot : Slot numElems} {value : T}
    (holds : PoolHeld leased ((slot, value) :: held)) :
    ∃ after, (poolAllocator Pool).deallocate leased slot = some after ∧ PoolHeld after held := by
  obtain ⟨free, shown⟩ := holds.shows
  have live : slot ∈ leased.live := holds.mem_live List.mem_cons_self
  have legal : leased.Legal (.deallocate slot : PoolAction T numElems) := live
  obtain ⟨after, ran, shows, -⟩ := shown.step legal
  obtain rfl : ⟨SlotPool.deallocate leased.pool slot, leased.live.erase slot⟩ = after :=
    (Prod.mk.inj (Except.ok.inj ran)).2
  have idle : slot ∉ held.map Prod.fst := (List.nodup_cons.mp holds.nodup).1
  refine ⟨_, if_pos live, ⟨_, shows⟩, ?_, fun object member => ?_⟩
  · have rest := holds.slots.erase slot
    rwa [List.map_cons, List.erase_cons_head] at rest
  · have different : object.1 ≠ slot := fun same => idle (same ▸ List.mem_map_of_mem member)
    rw [← holds.objects object (List.mem_cons_of_mem _ member)]
    exact LawfulObjectPool.deref_deallocate leased.pool different

/-- **A pool is an allocator with room for its elements.** -/
theorem poolAllocator_lawful :
    (poolAllocator Pool).Lawful (fun held => decide (held < numElems.toNat)) PoolHeld where
  perm := fun holds same => ⟨holds.shows, (same.symm.map _).trans holds.slots,
    fun object member => holds.objects object (same.symm.subset member)⟩
  allocate := fun value holds fits => holds.allocate value (of_decide_eq_true fits)
  full := fun value holds fits => by
    have many := Nat.le_of_not_lt (of_decide_eq_false fits)
    obtain ⟨free, shown⟩ := holds.shows
    have few := Nat.le_of_add_right_le (Nat.le_of_eq shown.length)
    exact holds.full value (Nat.le_antisymm (holds.length ▸ few) many)
  read := fun holds => by
    have member := holds.mem_live List.mem_cons_self
    show (if _ then some _ else none) = _
    rw [if_pos member, holds.objects _ List.mem_cons_self]
  deallocate := fun holds => holds.deallocate

end Pools

/-! ### The heap -/

section Heap

variable {T : Type} {heap : Heap T} {held : List (Nat × T)}

/-- The cells of the heap are what is held, each at an address of its own. -/
structure HeapHeld (heap : Heap T) (held : List (Nat × T)) : Prop where
  cells : heap.cells.Perm held
  distinct : (held.map Prod.fst).Nodup
  below : ∀ object ∈ held, object.1 < heap.next

theorem HeapHeld.nothing : HeapHeld ({} : Heap T) [] :=
  ⟨.refl _, List.nodup_nil, fun _ member => absurd member List.not_mem_nil⟩

/-- An address that is held is found where it was put. -/
theorem HeapHeld.split {ptr : Nat} {value : T} (holds : HeapHeld heap ((ptr, value) :: held)) :
    ∃ front back, heap.cells = front ++ (ptr, value) :: back ∧ (∀ cell ∈ front, cell.1 ≠ ptr) ∧
      (front ++ back).Perm held := by
  obtain ⟨front, back, parts⟩ := List.append_of_mem (holds.cells.symm.subset List.mem_cons_self)
  have rest : (front ++ back).Perm held := by
    have same := holds.cells
    rw [parts] at same
    exact (List.perm_middle.symm.trans same).cons_inv
  have idle : ptr ∉ held.map Prod.fst := (List.nodup_cons.mp holds.distinct).1
  refine ⟨front, back, parts, fun cell member same => idle (same ▸ ?_), rest⟩
  exact List.mem_map_of_mem (rest.subset (List.mem_append_left _ member))

theorem HeapHeld.lookup {ptr : Nat} {value : T} (holds : HeapHeld heap ((ptr, value) :: held)) :
    heap.cells.lookup ptr = some value := by
  obtain ⟨front, back, parts, others, -⟩ := holds.split
  rw [parts, List.lookup_eq_some_iff]
  exact ⟨front, back, rfl, fun cell member => bne_iff_ne.mpr (others cell member).symm⟩

/-- **The heap is an allocator with room for any number of objects.** -/
theorem heapAllocator_lawful : (heapAllocator T).Lawful (fun _ => true) HeapHeld where
  perm := fun holds same => ⟨holds.cells.trans same, (same.map _).nodup_iff.mp holds.distinct,
    fun object member => holds.below object (same.symm.subset member)⟩
  allocate := by
    intro heap held value holds _
    refine ⟨heap.next, _, rfl, holds.cells.cons _, ?_, ?_⟩
    · refine List.nodup_cons.mpr ⟨fun member => ?_, holds.distinct⟩
      obtain ⟨object, inside, same⟩ := List.mem_map.mp member
      exact Nat.ne_of_lt (holds.below object inside) same
    · refine List.forall_mem_cons.mpr ⟨Nat.lt_succ_self _, fun object member => ?_⟩
      exact Nat.lt_succ_of_lt (holds.below object member)
  full := fun _ _ never => Bool.noConfusion never
  read := fun holds => holds.lookup
  deallocate := by
    intro heap ptr value held holds
    obtain ⟨front, back, parts, others, rest⟩ := holds.split
    refine ⟨{ heap with cells := front ++ back }, ?_, rest, holds.distinct.of_cons,
      fun object member => holds.below object (List.mem_cons_of_mem _ member)⟩
    have erased : heap.cells.eraseP (fun cell => cell.1 == ptr) = front ++ back := by
      rw [parts, List.eraseP_append_right _ fun cell member => by
        rw [beq_iff_eq]
        exact others cell member]
      exact congrArg (front ++ ·) (List.eraseP_cons_of_pos (beq_self_eq_true ptr))
    show (if (heap.cells.lookup ptr).isSome then _ else none) = _
    rw [holds.lookup, erased]
    rfl

end Heap

end TradingExchange
