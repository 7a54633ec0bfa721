/-
**`MemPoolSeparateFreeStructure<T>`: a pool whose links stand beside the objects.**

A `Block` is storage for a `T`, and a link of its own. Nothing tells whether a block is in use: the
link of a block in use is what it was when the block was handed out, and the storage of a free block
is what it was when the block was given back. `BlockStorage` is that storage.

Slots are those of `MemPool`. The storage is the first member of a block, so a pointer to the object
is a pointer to its block.
-/

import TradingExchange.Model.MemPool

namespace TradingExchange

/-- Storage that a `T` is constructed in. -/
class BlockStorage (Storage : Type) (T : outParam Type) where
  /-- The storage of a new block, all bytes zero. -/
  zeroed : Storage
  construct : Storage → T → Storage
  object : Storage → T
  object_construct : ∀ storage value, object (construct storage value) = value

/-- `MemPoolSeparateFreeStructure<T>::Block`. -/
structure Block (Storage : Type) where
  storage : Storage
  nextFree : UInt64 := 0
deriving DecidableEq, Repr

/-- `MemPoolSeparateFreeStructure<T>` with `num_elems` blocks. -/
structure MemPoolSeparateFreeStructure (Storage : Type) (numElems : UInt64) where
  store : Slot numElems → Block Storage
  nextFreeIndex : UInt64

namespace MemPoolSeparateFreeStructure

variable {Storage T : Type} [BlockStorage Storage T] {numElems : UInt64}

open BlockStorage

/-- The blocks as the constructor's loop leaves them: each linked to the next. -/
def fresh : MemPoolSeparateFreeStructure Storage numElems where
  store := fun slot => { storage := zeroed, nextFree := slot.index + 1 }
  nextFreeIndex := 0

/-- `MemPoolSeparateFreeStructure(num_elems)`; the assertion on `num_elems` aborts. -/
def new (numElems : UInt64) : Option (MemPoolSeparateFreeStructure Storage numElems) :=
  if numElems > 0 then some fresh else none

/-- Replace a block. -/
def setBlock (pool : MemPoolSeparateFreeStructure Storage numElems) (slot : Slot numElems)
    (block : Block Storage) : MemPoolSeparateFreeStructure Storage numElems :=
  { pool with store := Function.update pool.store slot block }

/-- `*ptr`. -/
def deref (pool : MemPoolSeparateFreeStructure Storage numElems) (slot : Slot numElems) : T :=
  object (pool.store slot).storage

/-- `*ptr = value`. -/
def write (pool : MemPoolSeparateFreeStructure Storage numElems) (slot : Slot numElems)
    (value : T) : MemPoolSeparateFreeStructure Storage numElems :=
  pool.setBlock slot
    { pool.store slot with storage := construct (pool.store slot).storage value }

/-- Take the first free slot and construct an object in it, or return null. -/
def allocate (pool : MemPoolSeparateFreeStructure Storage numElems) (value : T) :
    Option (Slot numElems) × MemPoolSeparateFreeStructure Storage numElems :=
  if inside : pool.nextFreeIndex < numElems then
    let slot : Slot numElems := ⟨pool.nextFreeIndex.toNat, UInt64.lt_iff_toNat_lt.mp inside⟩
    let block := pool.store slot
    let pool := { pool with nextFreeIndex := block.nextFree }
    (some slot, pool.setBlock slot { block with storage := construct block.storage value })
  else (none, pool)

/-- Push a slot onto the free list. -/
def deallocate (pool : MemPoolSeparateFreeStructure Storage numElems) (slot : Slot numElems) :
    MemPoolSeparateFreeStructure Storage numElems :=
  let pool' := pool.setBlock slot { pool.store slot with nextFree := pool.nextFreeIndex }
  { pool' with nextFreeIndex := slot.index }

end MemPoolSeparateFreeStructure

end TradingExchange
