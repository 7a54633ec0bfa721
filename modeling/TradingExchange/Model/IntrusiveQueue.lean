/-
**`IntrusiveQueue<T>`: a FIFO queue threaded through its items.**

The source keeps the links in the items themselves (`T::list_node`, reached through `get_node`), so
a queue header is only `head_`, `tail_` and `size_`, and every operation also changes the memory the
items live in. `NodeMemory` is that memory as the queue sees it: one node per item, read and
written independently. An `Item` is an item's address, a nullable `T*` is an `Option Item`.

The operations follow the source statement by statement: `append` writes the old tail's `next`
before the new item's links, and `remove` reads the item's `next` again after it has written its
predecessor, as the reference `node` does.
-/

import TradingExchange.Library.Loop

namespace TradingExchange

/-- `IntrusiveQueue<T>::Node`. -/
structure Node (Item : Type) where
  next : Option Item := none
  prev : Option Item := none
deriving DecidableEq, Repr

/-- The memory the items live in, seen through `get_node`. -/
class NodeMemory (Memory : Type) (Item : outParam Type) where
  getNode : Memory → Item → Node Item
  setNode : Memory → Item → Node Item → Memory
  getNode_setNode_self : ∀ memory item node, getNode (setNode memory item node) item = node
  getNode_setNode_of_ne : ∀ memory item node other, other ≠ item →
    getNode (setNode memory item node) other = getNode memory other

/-- The header of an `IntrusiveQueue<T>`. -/
structure IntrusiveQueue (Item : Type) where
  head : Option Item := none
  tail : Option Item := none
  size : UInt64 := 0
deriving DecidableEq, Repr

namespace IntrusiveQueue

variable {Memory Item : Type} [NodeMemory Memory Item]

open NodeMemory

/-- `get_node(item).next = next`. -/
def setNext (memory : Memory) (item : Item) (next : Option Item) : Memory :=
  setNode memory item { getNode memory item with next := next }

/-- `get_node(item).prev = prev`. -/
def setPrev (memory : Memory) (item : Item) (prev : Option Item) : Memory :=
  setNode memory item { getNode memory item with prev := prev }

def peek (queue : IntrusiveQueue Item) : Option Item := queue.head

def empty (queue : IntrusiveQueue Item) : Bool := queue.size == 0

/-- Add an item at the tail. -/
def append (queue : IntrusiveQueue Item) (memory : Memory) (item : Item) :
    Except Fault (IntrusiveQueue Item × Memory) :=
  match queue.head with
  | none =>
    .ok ({ head := some item, tail := some item, size := queue.size + 1 }, setNode memory item {})
  | some _ =>
    match queue.tail with
    | none => .error .nullDereference
    | some tail =>
      let memory := setNext memory tail (some item)
      let memory := setPrev memory item (some tail)
      let memory := setNext memory item none
      .ok ({ queue with tail := some item, size := queue.size + 1 }, memory)

/-- `remove`'s first half: the predecessor, or the head, skips `item`. -/
def unlinkPrev (queue : IntrusiveQueue Item) (memory : Memory) (item : Item) :
    IntrusiveQueue Item × Memory :=
  match (getNode memory item).prev with
  | some prev => (queue, setNext memory prev (getNode memory item).next)
  | none => ({ queue with head := (getNode memory item).next }, memory)

/-- `remove`'s second half: the successor, or the tail, skips `item`. -/
def unlinkNext (queue : IntrusiveQueue Item) (memory : Memory) (item : Item) :
    IntrusiveQueue Item × Memory :=
  match (getNode memory item).next with
  | some next => (queue, setPrev memory next (getNode memory item).prev)
  | none => ({ queue with tail := (getNode memory item).prev }, memory)

/-- Unlink an item, trusting its links. -/
def remove (queue : IntrusiveQueue Item) (memory : Memory) (item : Item) :
    IntrusiveQueue Item × Memory :=
  let (queue, memory) := unlinkPrev queue memory item
  let (queue, memory) := unlinkNext queue memory item
  ({ queue with size := queue.size - 1 }, setNode memory item {})

/-- Unlink and return the head, or null. -/
def pop (queue : IntrusiveQueue Item) (memory : Memory) :
    Option Item × IntrusiveQueue Item × Memory :=
  match queue.head with
  | none => (none, queue, memory)
  | some item => (some item, remove queue memory item)

end IntrusiveQueue

end TradingExchange
