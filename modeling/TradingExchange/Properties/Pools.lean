/-
**What the pools promise their clients.**

A client allocates, writes to what it was given and gives it back, in any order.

* `pool_sound`: the free list of a `MemPool` ends, visits each slot that is not live once, and no
  other, and the flags say the same; so the pool is exhausted exactly when all its slots are live;
* `pools_agree`: `MemPool` and `MemPoolSeparateFreeStructure` hand out the same slots, those of a
  stack.
-/

import TradingExchange.Refinement.Leases

namespace TradingExchange

variable {Storage Storage' T : Type} [PoolStorage Storage T] [BlockStorage Storage' T]
  {numElems : UInt64}

/-- A `uint64_t` and a link: the same word. -/
instance wordStorage : PoolStorage UInt64 UInt64 where
  zeroed := 0
  construct := fun _ value => value
  object := id
  nextFree := id
  setNextFree := fun _ index => index
  object_construct := fun _ _ => rfl
  nextFree_setNextFree := fun _ _ => rfl

/-- A `uint64_t` in a block. -/
instance wordBlock : BlockStorage UInt64 UInt64 where
  zeroed := 0
  construct := fun _ value => value
  object := id
  object_construct := fun _ _ => rfl

/-! ### Allocating on -/

section AllocateAll

variable {Pool : Type} [SlotPool Pool T numElems] [LawfulSlotPool Pool T numElems]

/-- **As many allocations succeed as there are free slots.** -/
theorem countP_allocateAll {pool : Pool} {free : List (Slot numElems)}
    (lists : LawfulSlotPool.Lists pool free) (values : List T) :
    (Leased.allocateAll pool values).countP Option.isSome = min values.length free.length := by
  induction values generalizing pool free with
  | nil => exact (Nat.zero_min _).symm
  | cons value values ih =>
    rw [Leased.allocateAll]
    cases free with
    | nil =>
      rw [LawfulSlotPool.allocate_nil value lists]
      have nothing := ih lists
      rw [List.length_nil, Nat.min_zero] at nothing
      rw [List.length_nil, Nat.min_zero, List.countP_cons_of_neg Bool.false_ne_true, nothing]
    | cons slot free =>
      obtain ⟨after, allocated, rest⟩ := LawfulSlotPool.allocate_cons value lists
      rw [allocated, List.countP_cons_of_pos rfl, ih rest, List.length_cons, List.length_cons,
        Nat.succ_min_succ]

end AllocateAll

/-! ### The free list -/

/-- The free list lists the slots that are not live, and `allocate` returns null only without any. -/
structure PoolSound (leased : Leased (MemPool Storage numElems) numElems) : Prop where
  distinct : leased.live.Nodup
  list : ∃ free, Chain Slot.index leased.pool.link numElems leased.pool.nextFreeIndex free ∧
    free.Nodup ∧ (∀ slot, slot ∈ free ↔ (leased.pool.store slot).isFreeOrInUse = true) ∧
      ∀ slot, slot ∈ free ↔ slot ∉ leased.live
  null : ∀ value, (leased.pool.allocate value).1 = none ↔ leased.live.length = numElems.toNat
  unused : ∀ value slot, (leased.pool.allocate value).1 = some slot → slot ∉ leased.live
  room : ∀ values, (Leased.allocateAll leased.pool values).countP Option.isSome =
    min values.length (numElems.toNat - leased.live.length)

/-- What shows a list of free slots is sound. -/
theorem Leased.Shows.sound {leased : Leased (MemPool Storage numElems) numElems}
    {free : List (Slot numElems)} (shown : leased.Shows free) : PoolSound leased := by
  have list : leased.pool.FreeList free := shown.lists
  have length := shown.length
  refine ⟨(List.nodup_append.mp shown.nodup).1,
    ⟨free, list.chain, list.nodup, fun slot => (list.flags slot).symm, shown.mem_free⟩,
    fun value => ?_, fun value slot allocated => ?_, fun values => ?_⟩
  · cases free with
    | nil =>
      rw [list.allocate_nil value]
      exact iff_of_true rfl length
    | cons slot free =>
      obtain ⟨after, allocated, -⟩ := list.allocate_cons value
      rw [allocated, List.length_cons] at *
      exact iff_of_false (Option.some_ne_none slot) (by omega)
  · cases free with
    | nil =>
      rw [list.allocate_nil value] at allocated
      exact absurd allocated (Option.some_ne_none slot).symm
    | cons first free =>
      obtain ⟨after, returned, -⟩ := list.allocate_cons value
      rw [returned] at allocated
      obtain rfl := Option.some.inj allocated
      exact (shown.mem_free first).mp List.mem_cons_self
  · have free_length : free.length = numElems.toNat - leased.live.length := by omega
    rw [countP_allocateAll shown.lists values, free_length]

/-- **Whatever its clients do, the free list of a pool is what is not live.** -/
theorem pool_sound {start leased : Leased (MemPool Storage numElems) numElems}
    {actions : List (PoolAction T numElems)} {replies : List (Option (Slot numElems))}
    (created : Leased.new (MemPool Storage numElems) = some start)
    (run : Run Leased.step Leased.Legal start actions replies leased) : PoolSound leased :=
  ((Leased.Shows.new created).run run).2.sound

/-- One of two slots is given back and handed out again. -/
theorem pool_sound_sample : ∃ leased : Leased (MemPool UInt64 2) 2,
    leased.live.map Fin.val = [0, 1] ∧ PoolSound leased := by
  have played : ((Leased.new (MemPool UInt64 2)).bind fun start =>
      (execute Leased.step Leased.Legal start [.allocate 7, .allocate 8, .write ⟨0, by decide⟩ 5,
        .deallocate ⟨0, by decide⟩, .allocate 9]).map fun result =>
          result.2.live.map Fin.val) = some [0, 1] := by
    decide +kernel
  obtain ⟨start, created, played⟩ := Option.bind_eq_some_iff.mp played
  obtain ⟨⟨replies, leased⟩, ran, live⟩ := Option.map_eq_some_iff.mp played
  exact ⟨leased, live, pool_sound created (.of_execute ran)⟩

/-! ### Two pools -/

/-- **The two pools hand out the same slots, those of a stack.** -/
theorem pools_agree {start : Leased (MemPool Storage numElems) numElems}
    {start' : Leased (MemPoolSeparateFreeStructure Storage' numElems) numElems}
    (created : Leased.new (MemPool Storage numElems) = some start)
    (created' : Leased.new (MemPoolSeparateFreeStructure Storage' numElems) = some start')
    (actions : List (PoolAction T numElems)) (replies : List (Option (Slot numElems))) :
    ((∃ last, Run Leased.step Leased.Legal start actions replies last) ↔
        ∃ last, Run Leased.step Leased.Legal start' actions replies last) ∧
      ∀ last, Run Leased.step Leased.Legal start actions replies last →
        replies = (replay SlotStack.step (SlotStack.full numElems) actions).1 := by
  have shown := Leased.Shows.new created
  have shown' := Leased.Shows.new created'
  have live : start'.live = start.live := by
    obtain ⟨pool, -, rfl⟩ := Option.map_eq_some_iff.mp created
    obtain ⟨pool', -, rfl⟩ := Option.map_eq_some_iff.mp created'
    rfl
  refine ⟨⟨fun ⟨last, run⟩ => ?_, fun ⟨last, run⟩ => ?_⟩, fun last run => (shown.run run).1⟩
  · obtain ⟨last', run', -⟩ := shown.lockstep shown' live run
    exact ⟨last', run'⟩
  · obtain ⟨last', run', -⟩ := shown'.lockstep shown live.symm run
    exact ⟨last', run'⟩

/-- Both pools are exhausted, given back in another order and refilled. -/
theorem pools_agree_sample :
    ∃ (start : Leased (MemPoolSeparateFreeStructure UInt64 2) 2) (last : Leased _ 2),
      Leased.new (MemPoolSeparateFreeStructure UInt64 2) = some start ∧
      Run Leased.step Leased.Legal start [.allocate 7, .allocate 8, .allocate 9,
        .deallocate ⟨0, by decide⟩, .deallocate ⟨1, by decide⟩, .allocate 3, .allocate 4]
        [some ⟨0, by decide⟩, some ⟨1, by decide⟩, none, none, none, some ⟨1, by decide⟩,
          some ⟨0, by decide⟩] last := by
  have played : ((Leased.new (MemPool UInt64 2)).bind fun start =>
      (execute Leased.step Leased.Legal start [.allocate 7, .allocate 8, .allocate 9,
        .deallocate ⟨0, by decide⟩, .deallocate ⟨1, by decide⟩, .allocate 3, .allocate 4]).map
        Prod.fst) = some [some ⟨0, by decide⟩, some ⟨1, by decide⟩, none, none, none,
          some ⟨1, by decide⟩, some ⟨0, by decide⟩] := by
    decide +kernel
  obtain ⟨start, created, played⟩ := Option.bind_eq_some_iff.mp played
  obtain ⟨⟨replies, leased⟩, ran, same⟩ := Option.map_eq_some_iff.mp played
  obtain rfl : replies = _ := same
  have created' : Leased.new (MemPoolSeparateFreeStructure UInt64 2) =
      some ⟨MemPoolSeparateFreeStructure.fresh, []⟩ := rfl
  obtain ⟨last, run⟩ := (pools_agree created created' _ _).1.mp ⟨leased, .of_execute ran⟩
  exact ⟨_, last, created', run⟩

end TradingExchange
