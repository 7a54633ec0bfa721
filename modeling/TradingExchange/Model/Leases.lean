/-
**Clients of a pool.**

`SlotPool` is the interface that both pools have. A client allocates, writes to what it was given,
and gives it back; `Leased` keeps beside the pool which slots are live: returned by `allocate`, and
not deallocated since. An action is `Legal` if it deallocates or writes to a live slot only.
-/

import TradingExchange.Library.Run
import TradingExchange.Model.MemPoolSeparateFreeStructure

namespace TradingExchange

/-- A pool of `numElems` slots for objects of type `T`. -/
class SlotPool (Pool : Type) (T : outParam Type) (numElems : outParam UInt64) where
  /-- The constructor. -/
  new : Option Pool
  allocate : Pool → T → Option (Slot numElems) × Pool
  deallocate : Pool → Slot numElems → Pool
  /-- What a client does through a pointer it was given. -/
  write : Pool → Slot numElems → T → Pool

instance {Storage T : Type} [PoolStorage Storage T] {numElems : UInt64} :
    SlotPool (MemPool Storage numElems) T numElems where
  new := MemPool.new numElems
  allocate := MemPool.allocate
  deallocate := MemPool.deallocate
  write := MemPool.write

instance {Storage T : Type} [BlockStorage Storage T] {numElems : UInt64} :
    SlotPool (MemPoolSeparateFreeStructure Storage numElems) T numElems where
  new := MemPoolSeparateFreeStructure.new numElems
  allocate := MemPoolSeparateFreeStructure.allocate
  deallocate := MemPoolSeparateFreeStructure.deallocate
  write := MemPoolSeparateFreeStructure.write

/-- What a client may do. -/
inductive PoolAction (T : Type) (numElems : UInt64) where
  | allocate (value : T)
  | deallocate (slot : Slot numElems)
  | write (slot : Slot numElems) (value : T)

/-- A pool and the slots that are live. -/
structure Leased (Pool : Type) (numElems : UInt64) where
  pool : Pool
  live : List (Slot numElems) := []

namespace Leased

variable {Pool T : Type} {numElems : UInt64} [SlotPool Pool T numElems]

/-- A client of a new pool. -/
def new (Pool : Type) {T : Type} {numElems : UInt64} [SlotPool Pool T numElems] :
    Option (Leased Pool numElems) :=
  (SlotPool.new : Option Pool).map fun pool => { pool := pool }

/-- One action, with what `allocate` returns. -/
def step (leased : Leased Pool numElems) :
    PoolAction T numElems → Except Fault (Option (Slot numElems) × Leased Pool numElems)
  | .allocate value =>
    let (slot, pool) := SlotPool.allocate leased.pool value
    .ok (slot, ⟨pool, slot.toList ++ leased.live⟩)
  | .deallocate slot =>
    .ok (none, ⟨SlotPool.deallocate leased.pool slot, leased.live.erase slot⟩)
  | .write slot value => .ok (none, { leased with pool := SlotPool.write leased.pool slot value })

/-- Only live slots are deallocated or written to. -/
def Legal (leased : Leased Pool numElems) : PoolAction T numElems → Prop
  | .allocate _ => True
  | .deallocate slot => slot ∈ leased.live
  | .write slot _ => slot ∈ leased.live

/-- Allocate as often as there are values, with what each call returns. -/
def allocateAll (pool : Pool) : List T → List (Option (Slot numElems))
  | [] => []
  | value :: values =>
    let (slot, pool) := SlotPool.allocate pool value
    slot :: allocateAll pool values

instance (leased : Leased Pool numElems) :
    DecidablePred (leased.Legal : PoolAction T numElems → Prop)
  | .allocate _ => inferInstanceAs (Decidable True)
  | .deallocate slot => inferInstanceAs (Decidable (slot ∈ leased.live))
  | .write slot _ => inferInstanceAs (Decidable (slot ∈ leased.live))

end Leased

end TradingExchange
