/-
**`MemPool<T>`: a pool of slots with an intrusive free list.**

An `Element` is a flag and object storage. While a slot is in use the storage holds a `T`; while it
is free its first bytes hold the index of the next free slot. `PoolStorage` is that overlay: what
writing the object and writing the link do to the storage, and what can be read back. Nothing is
promised about the object after a link was written over it, nor about the link after an object was
constructed.

A slot is an index below the number of elements, and a pointer into the pool is its slot.
`deallocate` trusts its argument, as the source does: it does not look at the flag.
-/

import Mathlib.Logic.Function.Basic

namespace TradingExchange

/-- Object storage that holds a `T` or a free-list link. -/
class PoolStorage (Storage : Type) (T : outParam Type) where
  /-- The storage of a new element, all bytes zero. -/
  zeroed : Storage
  construct : Storage → T → Storage
  object : Storage → T
  nextFree : Storage → UInt64
  setNextFree : Storage → UInt64 → Storage
  object_construct : ∀ storage value, object (construct storage value) = value
  nextFree_setNextFree : ∀ storage index, nextFree (setNextFree storage index) = index

/-- `MemPool<T>::Element`. -/
structure Element (Storage : Type) where
  isFreeOrInUse : Bool := true
  object : Storage
deriving DecidableEq, Repr

/-- An element of a pool. -/
abbrev Slot (numElems : UInt64) : Type := Fin numElems.toNat

instance {numElems : UInt64} (slot : Slot numElems) (slots : List (Slot numElems)) :
    Decidable (slot ∈ slots) := inferInstance

/-- The index of an element. -/
def Slot.index {numElems : UInt64} (slot : Slot numElems) : UInt64 := UInt64.ofNat slot.val

/-- `MemPool<T>` with `num_elems` elements. -/
structure MemPool (Storage : Type) (numElems : UInt64) where
  store : Slot numElems → Element Storage
  nextFreeIndex : UInt64

namespace MemPool

variable {Storage T : Type} [PoolStorage Storage T] {numElems : UInt64}

open PoolStorage

/-- The elements as the constructor's loop leaves them: free, each linked to the next. -/
def fresh : MemPool Storage numElems where
  store := fun slot => { object := setNextFree zeroed (slot.index + 1) }
  nextFreeIndex := 0

/-- `MemPool(num_elems)`; the assertion on `num_elems` aborts. -/
def new (numElems : UInt64) : Option (MemPool Storage numElems) :=
  if numElems > 0 then some fresh else none

/-- Replace an element. -/
def setElement (pool : MemPool Storage numElems) (slot : Slot numElems)
    (element : Element Storage) : MemPool Storage numElems :=
  { pool with store := Function.update pool.store slot element }

/-- `*ptr`. -/
def deref (pool : MemPool Storage numElems) (slot : Slot numElems) : T :=
  object (pool.store slot).object

/-- `*ptr = value`. -/
def write (pool : MemPool Storage numElems) (slot : Slot numElems) (value : T) :
    MemPool Storage numElems :=
  pool.setElement slot
    { pool.store slot with object := construct (pool.store slot).object value }

/-- Take the first free slot and construct an object in it, or return null. -/
def allocate (pool : MemPool Storage numElems) (value : T) :
    Option (Slot numElems) × MemPool Storage numElems :=
  if inside : pool.nextFreeIndex < numElems then
    let slot : Slot numElems := ⟨pool.nextFreeIndex.toNat, UInt64.lt_iff_toNat_lt.mp inside⟩
    let element := pool.store slot
    let pool := { pool with nextFreeIndex := nextFree element.object }
    (some slot, pool.setElement slot ⟨false, construct element.object value⟩)
  else (none, pool)

/-- Mark a slot free and push it onto the free list. -/
def deallocate (pool : MemPool Storage numElems) (slot : Slot numElems) :
    MemPool Storage numElems :=
  let pool' := pool.setElement slot
    ⟨true, setNextFree (pool.store slot).object pool.nextFreeIndex⟩
  { pool' with nextFreeIndex := slot.index }

end MemPool

end TradingExchange
