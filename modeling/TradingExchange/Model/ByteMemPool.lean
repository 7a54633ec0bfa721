/-
**`MemPool<T>`, byte by byte.**

The elements of a pool stand one after another in memory, from the address of `store_[0]` on. An
element begins with its flag; its object storage is aligned for a `T` and for a link, and large
enough for either, and both begin with its first byte. A pointer to an object is the address of that
byte, and `deallocate` goes back from it to the element and to the index.

Addresses are not bounded, so nothing here depends on where a pool is. Constructors and destructors
are those of `T`: a constructor leaves some bytes in the object, and a destructor makes something of
the bytes of the object.

`Tenancy` is a pool with its clients: beside the pool it keeps, for every pointer that was returned by
`allocate` and not deallocated since, the bytes that were last constructed or written there.
-/

import Mathlib.Logic.Function.Basic
import TradingExchange.Library.Bytes
import TradingExchange.Library.Run

namespace TradingExchange

/-- What a pool uses of its `T`. -/
structure ObjectType where
  sizeOf : Nat
  alignOf : Nat
  /-- What the destructor leaves of the bytes of an object. -/
  destroy : Bytes sizeOf → Bytes sizeOf

namespace ObjectType

variable (T : ObjectType)

/-- `Element::kStorageSize`. -/
def kStorageSize : Nat := if T.sizeOf > 8 then T.sizeOf else 8

/-- `alignof(Element)`: the stricter of the two alignments of the object storage. -/
def alignment : Nat := max T.alignOf 8

/-- `offsetof(Element, object)`: the flag is one byte, and the storage is aligned. -/
def objectOffset : Nat := T.alignment

/-- `sizeof(Element)`: a whole number of alignments. -/
def elementSize : Nat :=
  (T.objectOffset + T.kStorageSize + T.alignment - 1) / T.alignment * T.alignment

end ObjectType

/-- `MemPool<T>` with `num_elems` elements, in the memory that it is part of. -/
structure ByteMemPool (T : ObjectType) (numElems : UInt64) where
  memory : ByteMemory
  /-- `&store_[0]`. -/
  store : Nat
  nextFreeIndex : UInt64

namespace ByteMemPool

variable {T : ObjectType} {numElems : UInt64}

/-- `&store_[index]`. -/
def elementAt (pool : ByteMemPool T numElems) (index : Nat) : Nat :=
  pool.store + index * T.elementSize

/-- `&store_[index].object`. -/
def objectAt (pool : ByteMemPool T numElems) (index : Nat) : Nat :=
  pool.elementAt index + T.objectOffset

/-- The pool, with other bytes in memory. -/
def withMemory (pool : ByteMemPool T numElems) (memory : ByteMemory) : ByteMemPool T numElems :=
  { pool with memory }

/-- `elem.is_free_or_in_use_ = flag`. -/
def setFlag (pool : ByteMemPool T numElems) (elem : Nat) (flag : Bool) : ByteMemPool T numElems :=
  pool.withMemory (pool.memory.store elem fun _ : Fin 1 => if flag then 1 else 0)

/-- `next_free_of(elem)`. -/
def nextFreeOf (pool : ByteMemPool T numElems) (elem : Nat) : UInt64 :=
  pool.memory.loadWord (elem + T.objectOffset)

/-- `next_free_of(elem) = index`. -/
def setNextFreeOf (pool : ByteMemPool T numElems) (elem : Nat) (index : UInt64) :
    ByteMemPool T numElems :=
  pool.withMemory (pool.memory.storeWord (elem + T.objectOffset) index)

/-- The bytes of an object. -/
def read (pool : ByteMemPool T numElems) (ptr : Nat) : Bytes T.sizeOf :=
  pool.memory.load ptr T.sizeOf

/-- `new (ptr) T`, which leaves these bytes. -/
def construct (pool : ByteMemPool T numElems) (ptr : Nat) (value : Bytes T.sizeOf) :
    ByteMemPool T numElems :=
  pool.withMemory (pool.memory.store ptr value)

/-- `ptr->~T()`. -/
def destroy (pool : ByteMemPool T numElems) (ptr : Nat) : ByteMemPool T numElems :=
  pool.withMemory (pool.memory.store ptr (T.destroy (pool.read ptr)))

/-- A client writes a byte of an object. -/
def write (pool : ByteMemPool T numElems) (ptr : Nat) (offset : Fin T.sizeOf) (byte : UInt8) :
    ByteMemPool T numElems :=
  pool.withMemory (pool.memory.store (ptr + offset) fun _ : Fin 1 => byte)

/-! ### The operations -/

/-- `Element()`: all bytes zero, but for the flag. -/
def initialise (pool : ByteMemPool T numElems) (elem : Nat) : ByteMemPool T numElems :=
  (pool.withMemory (pool.memory.store elem fun _ : Fin T.elementSize => 0)).setFlag elem true

/-- One pass of the constructor's loop. -/
def linkNext (pool : ByteMemPool T numElems) (index : Nat) : ByteMemPool T numElems :=
  (pool.setFlag (pool.elementAt index) true).setNextFreeOf (pool.elementAt index)
    (UInt64.ofNat (index + 1))

/-- `MemPool(num_elems)`, with the elements from `store` on; the assertion on `num_elems` aborts. -/
def new (T : ObjectType) (numElems : UInt64) (memory : ByteMemory) (store : Nat) :
    Option (ByteMemPool T numElems) :=
  let indices := List.range numElems.toNat
  let pool : ByteMemPool T numElems := { memory, store, nextFreeIndex := 0 }
  let pool := indices.foldl (fun pool index => pool.initialise (pool.elementAt index)) pool
  if numElems > 0 then some (indices.foldl linkNext pool) else none

/-- Take the first free element and construct an object in it, or return null. -/
def allocate (pool : ByteMemPool T numElems) (value : Bytes T.sizeOf) :
    Option Nat × ByteMemPool T numElems :=
  if pool.nextFreeIndex ≥ numElems then (none, pool)
  else
    let elem := pool.elementAt pool.nextFreeIndex.toNat
    let pool := { pool with nextFreeIndex := pool.nextFreeOf elem }
    let pool := pool.setFlag elem false
    (some (elem + T.objectOffset), pool.construct (elem + T.objectOffset) value)

/-- Destroy an object, mark its element free and push it onto the free list. -/
def deallocate (pool : ByteMemPool T numElems) (ptr : Nat) : ByteMemPool T numElems :=
  let elem := ptr - T.objectOffset
  let pool := pool.destroy ptr
  let pool := pool.setFlag elem true
  let pool := pool.setNextFreeOf elem pool.nextFreeIndex
  { pool with nextFreeIndex := UInt64.ofNat ((elem - pool.store) / T.elementSize) }

end ByteMemPool

/-! ### Clients -/

/-- What a client may do. -/
inductive ByteAction (T : ObjectType) where
  | allocate (value : Bytes T.sizeOf)
  | deallocate (ptr : Nat)
  | write (ptr : Nat) (offset : Fin T.sizeOf) (byte : UInt8)

/-- A pool, and the bytes last constructed or written at every live pointer. -/
structure Tenancy (T : ObjectType) (numElems : UInt64) where
  pool : ByteMemPool T numElems
  live : Nat → Option (Bytes T.sizeOf) := fun _ => none

namespace Tenancy

variable {T : ObjectType} {numElems : UInt64}

section Put

variable (tenancy : Tenancy T numElems) (pool : ByteMemPool T numElems)

/-- What an action on one object leaves: the bytes that are there, or none if it is not live. -/
def put (ptr : Nat) (bytes : Option (Bytes T.sizeOf)) : Tenancy T numElems where
  pool := pool
  live := Function.update tenancy.live ptr bytes

@[simp] theorem put_pool (ptr : Nat) (bytes : Option (Bytes T.sizeOf)) :
    (tenancy.put pool ptr bytes).pool = pool := rfl

@[simp] theorem put_live_self (ptr : Nat) (bytes : Option (Bytes T.sizeOf)) :
    (tenancy.put pool ptr bytes).live ptr = bytes := Function.update_self ..

theorem put_live_of_ne {ptr other : Nat} (bytes : Option (Bytes T.sizeOf))
    (different : other ≠ ptr) : (tenancy.put pool ptr bytes).live other = tenancy.live other :=
  Function.update_of_ne different ..

end Put

/-- One action, with what `allocate` returns. -/
def step (tenancy : Tenancy T numElems) :
    ByteAction T → Except Fault (Option Nat × Tenancy T numElems)
  | .allocate value =>
    match tenancy.pool.allocate value with
    | (none, pool) => .ok (none, { tenancy with pool })
    | (some ptr, pool) => .ok (some ptr, tenancy.put pool ptr (some value))
  | .deallocate ptr => .ok (none, tenancy.put (tenancy.pool.deallocate ptr) ptr none)
  | .write ptr offset byte =>
    let bytes := (tenancy.live ptr).map fun bytes => Function.update bytes offset byte
    .ok (none, tenancy.put (tenancy.pool.write ptr offset byte) ptr bytes)

/-- Only live objects are deallocated or written to. -/
def Legal (tenancy : Tenancy T numElems) : ByteAction T → Prop
  | .allocate _ => True
  | .deallocate ptr => (tenancy.live ptr).isSome
  | .write ptr _ _ => (tenancy.live ptr).isSome

instance (tenancy : Tenancy T numElems) : DecidablePred tenancy.Legal
  | .allocate _ => inferInstanceAs (Decidable True)
  | .deallocate ptr => inferInstanceAs (Decidable ((tenancy.live ptr).isSome = true))
  | .write ptr _ _ => inferInstanceAs (Decidable ((tenancy.live ptr).isSome = true))

end Tenancy

end TradingExchange
