/-
**The free list of a pool.**

`FreeList pool free`: following the links from `next_free_index` visits exactly `free`, in order,
and stops at the sentinel; the flags of the elements tell the same. A fresh pool lists all slots in
order, `allocate` takes the head and `deallocate` pushes a slot that is not on the list. Writing to
an object in use leaves the list alone.
-/

import Mathlib.Data.List.FinRange
import Mathlib.Data.UInt
import TradingExchange.Library.LinkedList
import TradingExchange.Model.MemPool

namespace TradingExchange

open PoolStorage

namespace Slot

variable {numElems : UInt64}

theorem index_toNat (slot : Slot numElems) : slot.index.toNat = slot.val :=
  UInt64.toNat_ofNat_of_lt' (slot.isLt.trans (UInt64.toNat_lt numElems))

theorem index_injective : Function.Injective (index : Slot numElems → UInt64) := by
  intro first second same
  rw [← UInt64.toNat_inj, index_toNat, index_toNat] at same
  exact Fin.ext same

theorem index_lt (slot : Slot numElems) : slot.index < numElems := by
  rw [UInt64.lt_iff_toNat_lt, index_toNat]
  exact slot.isLt

theorem index_ne (slot : Slot numElems) : slot.index ≠ numElems := fun same =>
  UInt64.lt_irrefl numElems (by simpa only [same] using slot.index_lt)

/-- An index names the slot it is the index of. -/
theorem mk_index {slot : Slot numElems} {index : UInt64} (names : index = slot.index)
    (inside : index.toNat < numElems.toNat) : (⟨index.toNat, inside⟩ : Slot numElems) = slot := by
  subst names
  exact Fin.ext slot.index_toNat

end Slot

/-- **Slots that are each linked to the next are chained in order**, up to the sentinel. -/
theorem chain_finRange {numElems : UInt64} {link : Slot numElems → UInt64}
    (linked : ∀ slot, link slot = slot.index + 1) :
    Chain Slot.index link numElems 0 (List.finRange numElems.toNat) := by
  have tail : ∀ count ≤ numElems.toNat,
      Chain Slot.index link numElems (UInt64.ofNat (numElems.toNat - count))
        ((List.finRange numElems.toNat).drop (numElems.toNat - count)) := by
    intro count
    induction count with
    | zero =>
      intro _
      rw [Nat.sub_zero, List.drop_of_length_le (by rw [List.length_finRange])]
      exact UInt64.ofNat_toNat
    | succ count ih =>
      intro within
      have inside : numElems.toNat - (count + 1) < (List.finRange numElems.toNat).length := by
        rw [List.length_finRange]
        omega
      have next : numElems.toNat - (count + 1) + 1 = numElems.toNat - count := by omega
      rw [List.drop_eq_getElem_cons inside, next]
      refine ⟨?_, ?_⟩
      · rw [List.getElem_finRange]
        rfl
      · rw [List.getElem_finRange]
        have step : link (Fin.cast List.length_finRange ⟨numElems.toNat - (count + 1), inside⟩) =
            UInt64.ofNat (numElems.toNat - count) := by
          rw [linked, ← next, UInt64.ofNat_add]
          rfl
        rw [step]
        exact ih (Nat.le_of_succ_le within)
  have all := tail numElems.toNat le_rfl
  rwa [Nat.sub_self] at all

namespace MemPool

variable {Storage T : Type} [PoolStorage Storage T] {numElems : UInt64}

/-- The link of a slot, read from its storage. -/
def link (pool : MemPool Storage numElems) (slot : Slot numElems) : UInt64 :=
  nextFree (pool.store slot).object

/-- What `allocate` does if the free list begins with a slot. -/
theorem allocate_head {pool : MemPool Storage numElems} {slot : Slot numElems}
    (head : pool.nextFreeIndex = slot.index) (value : T) : pool.allocate value = (some slot,
      ({ pool with nextFreeIndex := pool.link slot }).setElement slot
        ⟨false, construct (pool.store slot).object value⟩) := by
  have inside : pool.nextFreeIndex < numElems := head ▸ slot.index_lt
  have here := Slot.mk_index head (UInt64.lt_iff_toNat_lt.mp inside)
  simp only [allocate, dif_pos inside, here]
  rfl

/-- The free list and the flags agree on `free`. -/
structure FreeList (pool : MemPool Storage numElems) (free : List (Slot numElems)) : Prop where
  chain : Chain Slot.index pool.link numElems pool.nextFreeIndex free
  flags : ∀ slot, (pool.store slot).isFreeOrInUse = true ↔ slot ∈ free

@[simp] theorem setElement_self (pool : MemPool Storage numElems) (slot : Slot numElems)
    (element : Element Storage) : (pool.setElement slot element).store slot = element :=
  Function.update_self ..

theorem setElement_of_ne (pool : MemPool Storage numElems) {slot other : Slot numElems}
    (element : Element Storage) (different : other ≠ slot) :
    (pool.setElement slot element).store other = pool.store other :=
  Function.update_of_ne different ..

@[simp] theorem setElement_setElement (pool : MemPool Storage numElems) (slot : Slot numElems)
    (first second : Element Storage) :
    (pool.setElement slot first).setElement slot second = pool.setElement slot second := by
  simp [setElement]

@[simp] theorem deref_write_self (pool : MemPool Storage numElems) (slot : Slot numElems)
    (value : T) : (pool.write slot value).deref slot = value := by
  rw [deref, write, setElement_self]
  exact object_construct ..

/-- A new object is what it was constructed from. -/
theorem deref_allocated {pool after : MemPool Storage numElems} {slot : Slot numElems} {value : T}
    (done : pool.allocate value = (some slot, after)) : after.deref slot = value := by
  rw [allocate] at done
  split at done
  · obtain ⟨taken, rfl⟩ := Prod.mk.inj done
    obtain rfl := Option.some.inj taken
    rw [deref, setElement_self]
    exact object_construct ..
  · cases done

theorem store_write_of_ne (pool : MemPool Storage numElems) {slot other : Slot numElems}
    (value : T) (different : other ≠ slot) :
    (pool.write slot value).store other = pool.store other :=
  pool.setElement_of_ne _ different

theorem store_deallocate_of_ne (pool : MemPool Storage numElems) {slot other : Slot numElems}
    (different : other ≠ slot) : (pool.deallocate slot).store other = pool.store other :=
  pool.setElement_of_ne _ different

theorem deref_congr {pool pool' : MemPool Storage numElems} {slot : Slot numElems}
    (same : pool'.store slot = pool.store slot) : pool'.deref slot = pool.deref slot := by
  rw [deref, deref, same]

/-- Writing to an object does not change a flag. -/
theorem isFreeOrInUse_write (pool : MemPool Storage numElems) (slot other : Slot numElems)
    (value : T) : ((pool.write slot value).store other).isFreeOrInUse =
      (pool.store other).isFreeOrInUse := by
  by_cases same : other = slot
  · subst same
    rw [write, setElement_self]
  · rw [write, setElement_of_ne _ _ same]

namespace FreeList

variable {pool pool' : MemPool Storage numElems} {slot : Slot numElems}
  {free : List (Slot numElems)}

/-- A free list visits no slot twice. -/
theorem nodup (list : FreeList pool free) : free.Nodup :=
  list.chain.nodup Slot.index_injective Slot.index_ne

/-- The list depends on the head, on the flags and on the storage of free slots. -/
theorem congr (list : FreeList pool free) (head : pool'.nextFreeIndex = pool.nextFreeIndex)
    (flags : ∀ slot, (pool'.store slot).isFreeOrInUse = (pool.store slot).isFreeOrInUse)
    (same : ∀ slot ∈ free, pool'.store slot = pool.store slot) : FreeList pool' free := by
  refine ⟨?_, fun slot => by rw [flags]; exact list.flags slot⟩
  rw [head]
  exact list.chain.congr fun slot member => by rw [link, link, same slot member]

theorem write (list : FreeList pool free) (value : T) (used : slot ∉ free) :
    FreeList (pool.write slot value) free :=
  list.congr rfl (fun _ => isFreeOrInUse_write ..)
    fun _ member => store_write_of_ne _ _ (ne_of_mem_of_not_mem member used)

/-- **An empty free list refuses to allocate.** -/
theorem allocate_nil (list : FreeList pool []) (value : T) :
    pool.allocate value = (none, pool) := by
  have stop : pool.nextFreeIndex = numElems := list.chain
  rw [allocate, dif_neg]
  rw [stop]
  exact UInt64.lt_irrefl numElems

/-- **Allocating takes the head of the free list.** -/
theorem allocate_cons (list : FreeList pool (slot :: free)) (value : T) :
    ∃ pool', pool.allocate value = (some slot, pool') ∧ FreeList pool' free ∧
      pool'.deref slot = value ∧ ∀ other, other ≠ slot → pool'.store other = pool.store other := by
  obtain ⟨head, rest⟩ := list.chain
  have nodup := List.nodup_cons.mp list.nodup
  refine ⟨_, allocate_head head value, ⟨?_, fun other => ?_⟩, ?_, fun other different =>
    setElement_of_ne _ _ different⟩
  · refine rest.congr fun other member => ?_
    rw [link, link, setElement_of_ne _ _ (ne_of_mem_of_not_mem member nodup.1)]
    rfl
  · by_cases same : other = slot
    · subst same
      rw [setElement_self]
      exact iff_of_false Bool.false_ne_true nodup.1
    · rw [setElement_of_ne _ _ same]
      exact (list.flags other).trans (List.mem_cons.trans (or_iff_right same))
  · rw [deref, setElement_self]
    exact object_construct ..

/-- **Deallocating pushes the slot.** -/
theorem deallocate (list : FreeList pool free) (used : slot ∉ free) :
    FreeList (pool.deallocate slot) (slot :: free) := by
  have self : (pool.deallocate slot).store slot =
      ⟨true, setNextFree (pool.store slot).object pool.nextFreeIndex⟩ := setElement_self ..
  refine ⟨⟨rfl, ?_⟩, fun slot' => ?_⟩
  · rw [link, self, nextFree_setNextFree]
    exact list.chain.congr fun slot' member => by
      rw [link, link, store_deallocate_of_ne _ (ne_of_mem_of_not_mem member used)]
  · by_cases same : slot' = slot
    · subst same
      rw [self]
      exact iff_of_true rfl List.mem_cons_self
    · rw [store_deallocate_of_ne _ same, list.flags, List.mem_cons, or_iff_right same]

/-- **A fresh pool lists all slots in order.** -/
theorem fresh : FreeList (fresh : MemPool Storage numElems) (List.finRange numElems.toNat) := by
  refine ⟨chain_finRange fun slot => ?_, fun slot => iff_of_true rfl (List.mem_finRange slot)⟩
  rw [link, MemPool.fresh, nextFree_setNextFree]

end FreeList

end MemPool

end TradingExchange
