/-
**A family of queues over shared items.**

The links of an `IntrusiveQueue` are in its items, so several queues over one set of items write to
the same memory. `Queues` is such a family: the headers, by name, and the memory of the items.

An item is what a `T*` points to: `Addressed` gives it an address, which is not null and is its own.
A client appends items that are in no queue, removes an item from the queue it is in, and pops
(`Queues.Legal`). What is in a queue is read by walking from its head along the links.
-/

import Mathlib.Data.Fintype.Defs
import Mathlib.Logic.Function.Basic
import TradingExchange.Library.LinkedList
import TradingExchange.Library.Run
import TradingExchange.Model.IntrusiveQueue

namespace TradingExchange

/-- Items that are known by their addresses. -/
class Addressed (Item : Type) where
  address : Item → UInt64
  address_injective : Function.Injective address
  address_ne_null : ∀ item, address item ≠ 0

/-- Queues over items in one memory. -/
structure Queues (Name Memory Item : Type) where
  memory : Memory
  queue : Name → IntrusiveQueue Item := fun _ => {}

/-- An operation on a queue of the family. -/
inductive QueueAction (Name Item : Type) where
  | append (name : Name) (item : Item)
  | remove (name : Name) (item : Item)
  | pop (name : Name)

/-- The queue that is operated on. -/
def QueueAction.name {Name Item : Type} : QueueAction Name Item → Name
  | .append name _ => name
  | .remove name _ => name
  | .pop name => name

namespace Queues

variable {Name Memory Item : Type}

section Put

variable [DecidableEq Name] (queues : Queues Name Memory Item)

/-- What an operation on one queue leaves. -/
def put (name : Name) (queue : IntrusiveQueue Item) (memory : Memory) :
    Queues Name Memory Item where
  memory := memory
  queue := Function.update queues.queue name queue

@[simp] theorem put_queue_self (name : Name) (queue : IntrusiveQueue Item) (memory : Memory) :
    (queues.put name queue memory).queue name = queue := Function.update_self ..

theorem put_queue_of_ne {name other : Name} (queue : IntrusiveQueue Item) (memory : Memory)
    (different : other ≠ name) : (queues.put name queue memory).queue other = queues.queue other :=
  Function.update_of_ne different ..

theorem put_eq_self (name : Name) :
    queues.put name (queues.queue name) queues.memory = queues := by
  simp [put]

end Put

variable [NodeMemory Memory Item]

open NodeMemory

/-- The items of a queue from its head on. No list of distinct items is longer than addresses are
many. -/
def forward (queues : Queues Name Memory Item) (name : Name) : List Item :=
  follow (fun item => (getNode queues.memory item).next) UInt64.size (queues.queue name).head

/-- The items of a queue from its tail back. -/
def backward (queues : Queues Name Memory Item) (name : Name) : List Item :=
  follow (fun item => (getNode queues.memory item).prev) UInt64.size (queues.queue name).tail

/-- Items in no queue are appended, and items are removed from the queue they are in. -/
def Legal (queues : Queues Name Memory Item) : QueueAction Name Item → Prop
  | .append _ item => ∀ name, item ∉ queues.forward name
  | .remove name item => item ∈ queues.forward name
  | .pop _ => True

instance [DecidableEq Item] [Fintype Name] (queues : Queues Name Memory Item) :
    DecidablePred queues.Legal
  | .append _ item => inferInstanceAs (Decidable (∀ name, item ∉ queues.forward name))
  | .remove name item => inferInstanceAs (Decidable (item ∈ queues.forward name))
  | .pop _ => inferInstanceAs (Decidable True)

/-- One operation, with what `pop` returns. -/
def step [DecidableEq Name] (queues : Queues Name Memory Item) :
    QueueAction Name Item → Except Fault (Option Item × Queues Name Memory Item)
  | .append name item =>
    match (queues.queue name).append queues.memory item with
    | .error fault => .error fault
    | .ok (queue, memory) => .ok (none, queues.put name queue memory)
  | .remove name item =>
    let (queue, memory) := (queues.queue name).remove queues.memory item
    .ok (none, queues.put name queue memory)
  | .pop name =>
    let (item, queue, memory) := (queues.queue name).pop queues.memory
    .ok (item, queues.put name queue memory)

end Queues

end TradingExchange
