/-
**What the pools and the queues are for, without links.**

* `SlotStack`: the free slots of a pool are a stack, `allocate` pops and `deallocate` pushes. What
  is written to an object is no matter of the stack.
* `Lines`: each name of a family of queues has a list of items, `append` adds at the end, `remove`
  deletes, and `pop` takes the first. What one name has is no matter of another
  (`Lines.step_of_ne`).
-/

import TradingExchange.Model.Leases
import TradingExchange.Model.Queues

namespace TradingExchange

/-! ### A stack of slots -/

namespace SlotStack

variable {T : Type} {numElems : UInt64}

/-- All slots in order, the first on top. -/
def full (numElems : UInt64) : List (Slot numElems) := List.finRange numElems.toNat

/-- One action, with what `allocate` returns. -/
def step (free : List (Slot numElems)) :
    PoolAction T numElems → Option (Slot numElems) × List (Slot numElems)
  | .allocate _ => (free.head?, free.tail)
  | .deallocate slot => (none, slot :: free)
  | .write .. => (none, free)

end SlotStack

/-! ### Lists by name -/

namespace Lines

variable {Name Item : Type} [DecidableEq Name] [DecidableEq Item]

/-- No items. -/
def empty : Name → List Item := fun _ => []

/-- One operation, with what `pop` returns. -/
def step (lines : Name → List Item) :
    QueueAction Name Item → Option Item × (Name → List Item)
  | .append name item => (none, Function.update lines name (lines name ++ [item]))
  | .remove name item => (none, Function.update lines name ((lines name).erase item))
  | .pop name => ((lines name).head?, Function.update lines name (lines name).tail)

/-- The lists' operation is on one list. -/
theorem step_of_ne (lines : Name → List Item) {action : QueueAction Name Item} {other : Name}
    (different : other ≠ action.name) : (step lines action).2 other = lines other := by
  cases action <;> exact Function.update_of_ne different ..

end Lines

end TradingExchange
