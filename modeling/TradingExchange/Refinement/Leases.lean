/-
**Both pools are stacks of slots.**

`LawfulSlotPool` says what a pool has to keep: some relation `Lists` between the pool and the free
slots in order, under which `allocate` takes the first and `deallocate` adds one in front. For
`MemPool` it is `FreeList`; for `MemPoolSeparateFreeStructure` it is the chain of the blocks' own
links, which says nothing about the links of blocks in use.

* `Leased.Shows.step`: every legal action of a client is the stack's;
* `Leased.Shows.run`: so a run returns what the stack returns;
* `Leased.Shows.lockstep`: and a run on one pool is a run on the other.
-/

import TradingExchange.Abstract.Containers
import TradingExchange.Refinement.FreeList

namespace TradingExchange

/-- A pool whose free slots are listed in order. -/
class LawfulSlotPool (Pool : Type) (T : outParam Type) (numElems : outParam UInt64)
    [SlotPool Pool T numElems] where
  Lists : Pool → List (Slot numElems) → Prop
  new_lists : ∀ {pool : Pool}, SlotPool.new = some pool → Lists pool (SlotStack.full numElems)
  allocate_nil : ∀ {pool : Pool} (value : T), Lists pool [] →
    SlotPool.allocate pool value = (none, pool)
  allocate_cons : ∀ {pool : Pool} {slot : Slot numElems} {free : List (Slot numElems)} (value : T),
    Lists pool (slot :: free) →
    ∃ after, SlotPool.allocate pool value = (some slot, after) ∧ Lists after free
  deallocate : ∀ {pool : Pool} {slot : Slot numElems} {free : List (Slot numElems)},
    Lists pool free → slot ∉ free → Lists (SlotPool.deallocate pool slot) (slot :: free)
  write : ∀ {pool : Pool} {slot : Slot numElems} {free : List (Slot numElems)} (value : T),
    Lists pool free → slot ∉ free → Lists (SlotPool.write pool slot value) free

instance {Storage T : Type} [PoolStorage Storage T] {numElems : UInt64} :
    LawfulSlotPool (MemPool Storage numElems) T numElems where
  Lists := MemPool.FreeList
  new_lists := by
    intro pool created
    simp only [SlotPool.new, MemPool.new] at created
    split at created
    · exact Option.some.inj created ▸ MemPool.FreeList.fresh
    · exact absurd created (Option.some_ne_none _).symm
  allocate_nil := fun value list => list.allocate_nil value
  allocate_cons := fun value list => by
    obtain ⟨after, allocated, rest, -⟩ := list.allocate_cons value
    exact ⟨after, allocated, rest⟩
  deallocate := fun list used => list.deallocate used
  write := fun value list used => list.write value used

/-! ### The other pool -/

namespace MemPoolSeparateFreeStructure

variable {Storage T : Type} [BlockStorage Storage T] {numElems : UInt64}
  {pool pool' : MemPoolSeparateFreeStructure Storage numElems} {slot : Slot numElems}
  {free : List (Slot numElems)}

/-- The link of a block. -/
def link (pool : MemPoolSeparateFreeStructure Storage numElems) (slot : Slot numElems) : UInt64 :=
  (pool.store slot).nextFree

/-- The links of the free blocks list them in order. -/
def FreeList (pool : MemPoolSeparateFreeStructure Storage numElems)
    (free : List (Slot numElems)) : Prop :=
  Chain Slot.index pool.link numElems pool.nextFreeIndex free

theorem setBlock_self (block : Block Storage) : (pool.setBlock slot block).store slot = block :=
  Function.update_self ..

theorem setBlock_of_ne {other : Slot numElems} (block : Block Storage) (different : other ≠ slot) :
    (pool.setBlock slot block).store other = pool.store other :=
  Function.update_of_ne different ..

namespace FreeList

theorem allocate_nil (list : FreeList pool []) (value : T) :
    pool.allocate value = (none, pool) := by
  have stop : pool.nextFreeIndex = numElems := list
  rw [allocate, dif_neg]
  rw [stop]
  exact UInt64.lt_irrefl numElems

theorem allocate_cons (list : FreeList pool (slot :: free)) (value : T) :
    ∃ pool', pool.allocate value = (some slot, pool') ∧ FreeList pool' free := by
  obtain ⟨head, rest⟩ := list
  have inside : pool.nextFreeIndex < numElems := head ▸ slot.index_lt
  have here := Slot.mk_index head (UInt64.lt_iff_toNat_lt.mp inside)
  have allocated : pool.allocate value = (some slot,
      ({ pool with nextFreeIndex := pool.link slot }).setBlock slot { pool.store slot with
        storage := BlockStorage.construct (pool.store slot).storage value }) := by
    simp only [allocate, dif_pos inside, here]
    rfl
  -- a block in use keeps its link, so the chain is the one that was there
  refine ⟨_, allocated, rest.congr fun other _ => ?_⟩
  by_cases same : other = slot
  · rw [link, same, setBlock_self]
    rfl
  · rw [link, setBlock_of_ne _ same]
    rfl

theorem deallocate (list : FreeList pool free) (used : slot ∉ free) :
    FreeList (pool.deallocate slot) (slot :: free) := by
  have self : (pool.deallocate slot).store slot =
      { pool.store slot with nextFree := pool.nextFreeIndex } := setBlock_self _
  refine ⟨rfl, ?_⟩
  rw [link, self]
  exact list.congr fun other member => by
    have kept : (pool.deallocate slot).store other = pool.store other :=
      setBlock_of_ne _ (ne_of_mem_of_not_mem member used)
    rw [link, link, kept]

theorem write (list : FreeList pool free) (value : T) (used : slot ∉ free) :
    FreeList (pool.write slot value) free :=
  list.congr fun other member => by
    have kept : (pool.write slot value).store other = pool.store other :=
      setBlock_of_ne _ (ne_of_mem_of_not_mem member used)
    rw [link, link, kept]

end FreeList

instance : LawfulSlotPool (MemPoolSeparateFreeStructure Storage numElems) T numElems where
  Lists := FreeList
  new_lists := by
    intro pool created
    simp only [SlotPool.new, new] at created
    split at created
    · exact Option.some.inj created ▸ chain_finRange fun _ => rfl
    · exact absurd created (Option.some_ne_none _).symm
  allocate_nil := fun value list => FreeList.allocate_nil list value
  allocate_cons := fun value list => FreeList.allocate_cons list value
  deallocate := fun list used => FreeList.deallocate list used
  write := fun value list used => FreeList.write list value used

end MemPoolSeparateFreeStructure

/-! ### Clients -/

namespace Leased

variable {Pool Other T : Type} {numElems : UInt64} [SlotPool Pool T numElems]
  [SlotPool Other T numElems] {leased last : Leased Pool numElems} {action : PoolAction T numElems}
  {free : List (Slot numElems)} {actions : List (PoolAction T numElems)}
  {replies : List (Option (Slot numElems))}

/-- Which slots are live after an action that returned `reply`. -/
def liveAfter (live : List (Slot numElems)) (reply : Option (Slot numElems)) :
    PoolAction T numElems → List (Slot numElems)
  | .allocate _ => reply.toList ++ live
  | .deallocate slot => live.erase slot
  | .write .. => live

variable [LawfulSlotPool Pool T numElems] [LawfulSlotPool Other T numElems]

/-- The pool lists the free slots, and every slot is either live or free. -/
structure Shows (leased : Leased Pool numElems) (free : List (Slot numElems)) : Prop where
  lists : LawfulSlotPool.Lists leased.pool free
  split : (leased.live ++ free).Perm (List.finRange numElems.toNat)

theorem Shows.nodup (shown : leased.Shows free) : (leased.live ++ free).Nodup :=
  shown.split.nodup_iff.mpr (List.nodup_finRange _)

/-- A live slot is not free. -/
theorem Shows.not_free (shown : leased.Shows free) {slot : Slot numElems}
    (member : slot ∈ leased.live) : slot ∉ free :=
  fun inside => (List.nodup_append.mp shown.nodup).2.2 slot member slot inside rfl

/-- A slot is free exactly if it is not live. -/
theorem Shows.mem_free (shown : leased.Shows free) (slot : Slot numElems) :
    slot ∈ free ↔ slot ∉ leased.live := by
  refine ⟨fun inside member => shown.not_free member inside, fun idle => ?_⟩
  have all := shown.split.symm.subset (List.mem_finRange slot)
  exact (List.mem_append.mp all).resolve_left idle

theorem Shows.length (shown : leased.Shows free) :
    leased.live.length + free.length = numElems.toNat := by
  rw [← List.length_append, shown.split.length_eq, List.length_finRange]

theorem Shows.new (created : Leased.new Pool = some leased) :
    leased.Shows (SlotStack.full numElems) := by
  obtain ⟨pool, made, rfl⟩ := Option.map_eq_some_iff.mp created
  exact ⟨LawfulSlotPool.new_lists made, .refl _⟩

/-- **Every legal action of a client is the stack's.** -/
theorem Shows.step (shown : leased.Shows free) (legal : leased.Legal action) :
    ∃ after, leased.step action = .ok ((SlotStack.step free action).1, after) ∧
      after.Shows (SlotStack.step free action).2 ∧
      after.live = liveAfter leased.live (SlotStack.step free action).1 action := by
  cases action with
  | allocate value =>
    cases free with
    | nil =>
      have refused := LawfulSlotPool.allocate_nil value shown.lists
      exact ⟨leased, by rw [Leased.step, refused]; rfl, shown, rfl⟩
    | cons slot free =>
      obtain ⟨after, allocated, lists⟩ := LawfulSlotPool.allocate_cons value shown.lists
      refine ⟨⟨after, slot :: leased.live⟩, by rw [Leased.step, allocated]; rfl, ⟨lists, ?_⟩, rfl⟩
      exact List.perm_middle.symm.trans shown.split
  | deallocate slot =>
    have used := shown.not_free legal
    refine ⟨_, rfl, ⟨LawfulSlotPool.deallocate shown.lists used, ?_⟩, rfl⟩
    refine List.perm_middle.trans (((List.perm_cons_erase legal).append_right free).symm.trans ?_)
    exact shown.split
  | write slot value =>
    exact ⟨_, rfl, ⟨LawfulSlotPool.write value shown.lists (shown.not_free legal), shown.split⟩, rfl⟩

/-- **A run on a pool returns what the stack returns.** -/
theorem Shows.run (shown : leased.Shows free)
    (run : Run Leased.step Leased.Legal leased actions replies last) :
    replies = (replay SlotStack.step free actions).1 ∧
      last.Shows (replay SlotStack.step free actions).2 :=
  run.refines (fun _ _ _ shown legal => by
    obtain ⟨after, ran, shown, -⟩ := shown.step legal
    exact ⟨after, ran, shown⟩) shown

/-- **A run on a pool is a run on another.** -/
theorem Shows.lockstep {other : Leased Other numElems} (shown : leased.Shows free)
    (shown' : other.Shows free) (live : other.live = leased.live)
    (run : Run Leased.step Leased.Legal leased actions replies last) :
    ∃ last' : Leased Other numElems, Run Leased.step Leased.Legal other actions replies last' ∧
      last'.live = last.live := by
  have follows : ∀ (first : Leased Pool numElems) (second : Leased Other numElems) action reply next,
      (∃ free, first.Shows free ∧ second.Shows free ∧ second.live = first.live) →
      first.Legal action → first.step action = .ok (reply, next) →
      ∃ next' : Leased Other numElems, second.Legal (id action) ∧
        second.step (id action) = .ok (reply, next') ∧
        ∃ free, next.Shows free ∧ next'.Shows free ∧ next'.live = next.live := by
    rintro first second action reply next ⟨free, one, two, live⟩ legal ran
    have legal' : second.Legal action := by
      cases action with
      | allocate => trivial
      | deallocate slot => exact (show slot ∈ second.live from live ▸ legal)
      | write slot value => exact (show slot ∈ second.live from live ▸ legal)
    obtain ⟨after, returned, one, left⟩ := one.step legal
    obtain ⟨rfl, rfl⟩ := Prod.mk.inj (Except.ok.inj (ran.symm.trans returned))
    obtain ⟨after', returned', two, left'⟩ := two.step legal'
    exact ⟨after', legal', returned', _, one, two, by rw [left', left, live]⟩
  obtain ⟨last', ran, -, -, -, live⟩ := run.lockstep _ id follows ⟨free, shown, shown', live⟩
  rw [List.map_id] at ran
  exact ⟨last', ran, live⟩

end Leased

end TradingExchange
