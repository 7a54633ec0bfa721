/-
**Queues that share their memory are lists.**

* `Queues.Holds`: each queue shows a list of distinct items, and no item is in two of them. This is
  what makes an operation on one queue leave the others alone: its writes go to the nodes of its own
  items.
* `Queues.Holds.step`: every legal operation returns, and is the lists' operation.
* `queues_are_lists`: so the walks from the head and from the tail, and the size, are the lists'
  after every run, and `pop` returns what the lists' does.
-/

import Mathlib.Data.Fintype.Card
import TradingExchange.Abstract.Containers
import TradingExchange.Refinement.Queue

namespace TradingExchange

open NodeMemory

variable {Name Memory Item : Type} [NodeMemory Memory Item]

/-- **Distinct items are fewer than a size can count**: null is the address of none. -/
theorem Addressed.length_lt [Addressed Item] {items : List Item} (nodup : items.Nodup) :
    items.length < UInt64.size := by
  let place : Item → Fin (2 ^ 64 - 1) := fun item =>
    ⟨(Addressed.address item).toNat - 1, by
      have bound := (Addressed.address item).toNat_lt
      omega⟩
  have injective : Function.Injective place := by
    intro first second same
    have positive : ∀ item : Item, 0 < (Addressed.address item).toNat := by
      intro item
      refine Nat.pos_of_ne_zero fun zero => Addressed.address_ne_null item ?_
      exact UInt64.toNat_inj.mp zero
    have places : (Addressed.address first).toNat - 1 = (Addressed.address second).toNat - 1 :=
      congrArg Fin.val same
    have one := positive first
    have two := positive second
    exact Addressed.address_injective (UInt64.toNat_inj.mp (by omega))
  have length := (nodup.map injective).length_le_card
  rw [List.length_map, Fintype.card_fin] at length
  exact Nat.lt_of_le_of_lt length (by decide)

namespace Queues

variable {queues : Queues Name Memory Item} {lines : Name → List Item}

/-- **Each queue shows its own list.** -/
structure Holds (queues : Queues Name Memory Item) (lines : Name → List Item) : Prop where
  each : ∀ name, Shows queues.memory (queues.queue name) (lines name)
  nodup : ∀ name, (lines name).Nodup
  apart : ∀ name other, other ≠ name → ∀ item ∈ lines other, item ∉ lines name

/-- New queues hold nothing. -/
theorem holds_new (memory : Memory) : Holds ({ memory } : Queues Name Memory Item) Lines.empty where
  each _ := Shows.nil memory
  nodup _ := List.nodup_nil
  apart _ _ _ _ member := absurd member List.not_mem_nil

/-! ### Reading -/

/-- What is read from a queue is a list: forward, backward and counted. -/
structure Agrees (queues : Queues Name Memory Item) (name : Name) (line : List Item) : Prop where
  forward : queues.forward name = line
  backward : (queues.backward name).reverse = line
  size : (queues.queue name).size.toNat = line.length
  empty : (queues.queue name).empty = true ↔ line = []
  peek : (queues.queue name).peek = line.head?

theorem Holds.agrees [Addressed Item] (holds : queues.Holds lines) (name : Name) :
    queues.Agrees name (lines name) := by
  have shown := holds.each name
  have short := Nat.le_of_lt (Addressed.length_lt (holds.nodup name))
  refine ⟨?_, ?_, shown.size, shown.empty_iff, shown.peek_eq⟩
  · have chain := shown.linked.forward
    rw [← shown.head] at chain
    exact chain.follow short
  · have chain := shown.linked.backward
    rw [← shown.tail] at chain
    have back : queues.backward name = (lines name).reverse :=
      chain.follow (by rwa [List.length_reverse])
    rw [back, List.reverse_reverse]

/-! ### Operations -/

variable [DecidableEq Name]

/-- **An operation that writes to the nodes of its own items leaves the other queues alone.** -/
theorem Holds.put (holds : queues.Holds lines) {name : Name} {queue : IntrusiveQueue Item}
    {memory : Memory} {line written : List Item} (shown : Shows memory queue line)
    (nodup : line.Nodup) (relinked : Relinked written queues.memory memory)
    (within : ∀ item ∈ line, item ∈ written)
    (outside : ∀ other, other ≠ name → ∀ item ∈ lines other, item ∉ written) :
    (queues.put name queue memory).Holds (Function.update lines name line) := by
  have self : Function.update lines name line name = line := Function.update_self ..
  have others : ∀ other, other ≠ name → Function.update lines name line other = lines other :=
    fun other different => Function.update_of_ne different ..
  refine ⟨fun other => ?_, fun other => ?_, fun first second different item member => ?_⟩
  · by_cases same : other = name
    · subst same
      rwa [put_queue_self, self]
    · rw [put_queue_of_ne queues _ _ same, others other same]
      exact (holds.each other).frame relinked (outside other same)
  · by_cases same : other = name
    · subst same
      rwa [self]
    · rw [others other same]
      exact holds.nodup other
  · by_cases one : first = name
    · subst one
      rw [self]
      rw [others second different] at member
      exact fun inside => outside second different item member (within item inside)
    · rw [others first one]
      by_cases two : second = name
      · subst two
        rw [self] at member
        exact fun inside => outside first one item inside (within item member)
      · rw [others second two] at member
        exact holds.apart first second different item member

variable [DecidableEq Item]

/-- The item leaves a queue: it was removed, or popped. -/
def Leaves (action : QueueAction Name Item) (reply : Option Item) (item : Item) : Prop :=
  (∃ name, action = .remove name item) ∨ reply = some item

/-- Removing an item from anywhere in a queue: then it is in none. -/
theorem Holds.remove (holds : queues.Holds lines) {name : Name} {front later : List Item}
    {item : Item} (line : lines name = front ++ item :: later) :
    (queues.put name ((queues.queue name).remove queues.memory item).1
        ((queues.queue name).remove queues.memory item).2).Holds
      (Function.update lines name (front ++ later)) ∧
    getNode ((queues.queue name).remove queues.memory item).2 item = {} ∧
    ∀ other, item ∉ Function.update lines name (front ++ later) other := by
  have shown := holds.each name
  have nodup := holds.nodup name
  rw [line] at shown nodup
  obtain ⟨removed, cleared, relinked⟩ := shown.remove nodup
  have fewer : (front ++ later).Sublist (front ++ item :: later) :=
    (List.sublist_cons_self item later).append_left front
  refine ⟨holds.put removed (nodup.sublist fewer) relinked (fun _ => fewer.mem) ?_, cleared,
    fun other => ?_⟩
  · rw [← line]
    exact fun other different => holds.apart name other different
  · by_cases same : other = name
    · subst same
      rw [Function.update_self]
      exact (List.nodup_cons.mp (List.perm_middle.nodup_iff.mp nodup)).1
    · rw [Function.update_of_ne same]
      refine holds.apart other name (Ne.symm same) item ?_
      rw [line]
      exact List.mem_append_right _ List.mem_cons_self

/-- Appending an item that is in no queue. -/
theorem Holds.append [Addressed Item] (holds : queues.Holds lines) (name : Name) {item : Item}
    (absent : ∀ other, item ∉ lines other) : ∃ queue memory,
      (queues.queue name).append queues.memory item = .ok (queue, memory) ∧
      (queues.put name queue memory).Holds
        (Function.update lines name (lines name ++ [item])) := by
  have nodup : (item :: lines name).Nodup :=
    List.nodup_cons.mpr ⟨absent name, holds.nodup name⟩
  obtain ⟨queue, memory, appended, shown, relinked⟩ :=
    (holds.each name).append (absent name) (holds.nodup name) (Addressed.length_lt nodup)
  have perm : (lines name ++ [item]).Perm (item :: lines name) :=
    List.perm_append_singleton item (lines name)
  refine ⟨queue, memory, appended,
    holds.put shown (perm.nodup_iff.mpr nodup) relinked (fun _ => (perm.subset ·)) ?_⟩
  intro other different member inside written
  rcases List.mem_cons.mp written with rfl | own
  · exact absent other inside
  · exact holds.apart name other different member inside own

/-- **Every legal operation is the lists' operation**, and takes the links from an item that leaves. -/
theorem Holds.step [Addressed Item] (holds : queues.Holds lines) {action : QueueAction Name Item}
    (legal : queues.Legal action) :
    ∃ next, queues.step action = .ok ((Lines.step lines action).1, next) ∧
      next.Holds (Lines.step lines action).2 ∧
      ∀ item, Leaves action (Lines.step lines action).1 item →
        getNode next.memory item = {} ∧ ∀ name, item ∉ (Lines.step lines action).2 name := by
  have forward := fun name => (holds.agrees name).forward
  cases action with
  | append name item =>
    have absent : ∀ other, item ∉ lines other := fun other => forward other ▸ legal other
    obtain ⟨queue, memory, appended, kept⟩ := holds.append name absent
    refine ⟨queues.put name queue memory, by rw [Queues.step, appended]; rfl, kept, ?_⟩
    rintro other (⟨_, same⟩ | popped)
    · cases same
    · cases popped
  | remove name item =>
    have member : item ∈ lines name := forward name ▸ legal
    obtain ⟨front, later, line⟩ := List.append_of_mem member
    have rest : (lines name).erase item = front ++ later := by
      have nodup := holds.nodup name
      rw [line] at nodup ⊢
      have fresh : item ∉ front := fun inside =>
        (List.nodup_append.mp nodup).2.2 item inside item List.mem_cons_self rfl
      rw [List.erase_append_right _ fresh, List.erase_cons_head]
    obtain ⟨next, cleared, gone⟩ := holds.remove line
    rw [← rest] at next gone
    refine ⟨_, rfl, next, fun other leaves => ?_⟩
    rcases leaves with ⟨name', same⟩ | popped
    · cases same
      exact ⟨cleared, gone⟩
    · cases popped
  | pop name =>
    have head : (queues.queue name).head = (lines name).head? := (holds.each name).head
    cases line : lines name with
    | nil =>
      rw [line] at head
      have kept : Function.update lines name [] = lines := by
        rw [← line]
        exact Function.update_eq_self name lines
      have same : Lines.step lines (.pop name) = (none, lines) := by
        simp [Lines.step, line, kept]
      refine ⟨queues, ?_, by rwa [same], fun item leaves => ?_⟩
      · simp [Queues.step, IntrusiveQueue.pop, head, same, put_eq_self]
      · rcases leaves with ⟨_, removed⟩ | popped
        · cases removed
        · rw [same] at popped
          cases popped
    | cons item later =>
      rw [line] at head
      have same : Lines.step lines (.pop name) = (some item, Function.update lines name later) := by
        simp [Lines.step, line]
      have split : lines name = [] ++ item :: later := line
      obtain ⟨next, cleared, gone⟩ := holds.remove split
      refine ⟨_, ?_, by rwa [same], fun other leaves => ?_⟩
      · simp only [Queues.step, IntrusiveQueue.pop, head, List.head?_cons, same]
      · rw [same] at leaves ⊢
        rcases leaves with ⟨_, removed⟩ | popped
        · cases removed
        · cases popped
          exact ⟨cleared, gone⟩

/-- What one operation leaves of the others' queues, and of an item that leaves. -/
structure Separate (queues : Queues Name Memory Item) (action : QueueAction Name Item)
    (reply : Option Item) (next : Queues Name Memory Item) : Prop where
  others : ∀ other, other ≠ action.name → next.queue other = queues.queue other ∧
    next.forward other = queues.forward other ∧
    ∀ item ∈ queues.forward other, getNode next.memory item = getNode queues.memory item
  leaves : ∀ item, Leaves action reply item →
    getNode next.memory item = {} ∧ ∀ name, next.Legal (.append name item)

/-- **A legal operation returns, and stays within its queue.** -/
theorem Holds.separate [Addressed Item] (holds : queues.Holds lines)
    {action : QueueAction Name Item} (legal : queues.Legal action) :
    ∃ reply next, queues.step action = .ok (reply, next) ∧ queues.Separate action reply next := by
  obtain ⟨next, done, kept, leaves⟩ := holds.step legal
  have forward := fun name => (kept.agrees name).forward
  refine ⟨_, next, done, fun other different => ?_, fun item left => ?_⟩
  · have shown := kept.each other
    rw [Lines.step_of_ne lines different] at shown
    obtain ⟨queue, nodes⟩ := shown.unique (holds.each other)
    rw [forward, Lines.step_of_ne lines different, (holds.agrees other).forward]
    exact ⟨queue, rfl, nodes⟩
  · obtain ⟨cleared, gone⟩ := leaves item left
    exact ⟨cleared, fun _ name => forward name ▸ gone name⟩

end Queues

/-- **A family of queues over shared items is a family of lists.** -/
theorem queues_are_lists [DecidableEq Name] [DecidableEq Item] [Addressed Item] {memory : Memory}
    {actions : List (QueueAction Name Item)} {replies : List (Option Item)}
    {queues : Queues Name Memory Item}
    (run : Run Queues.step Queues.Legal { memory } actions replies queues) :
    replies = (replay Lines.step Lines.empty actions).1 ∧
    (∀ name, queues.Agrees name ((replay Lines.step Lines.empty actions).2 name)) ∧
    ∀ action, queues.Legal action →
      ∃ reply next, queues.step action = .ok (reply, next) ∧ queues.Separate action reply next := by
  obtain ⟨same, holds⟩ := run.refines (fun queues lines action holds legal => by
    obtain ⟨next, done, kept, -⟩ := Queues.Holds.step holds legal
    exact ⟨next, done, kept⟩) (Queues.holds_new memory)
  exact ⟨same, holds.agrees, fun action legal => holds.separate legal⟩

/-- Items with one node each. -/
instance nodeTable [DecidableEq Item] : NodeMemory (Item → Node Item) Item where
  getNode memory item := memory item
  setNode memory item node := Function.update memory item node
  getNode_setNode_self _ _ _ := Function.update_self ..
  getNode_setNode_of_ne _ _ _ _ different := Function.update_of_ne different ..

/-- Five items, one after another. -/
instance fiveItems : Addressed (Fin 5) where
  address item := UInt64.ofNat (item.val + 1)
  address_injective := by decide
  address_ne_null := by decide

/-- Two queues: an item goes from the head of one to the other, which is popped once. -/
theorem queues_are_lists_sample :
    ∃ queues : Queues Bool (Fin 5 → Node (Fin 5)) (Fin 5), ∃ replies : List (Option (Fin 5)),
      replies = [none, none, none, none, none, some 1] ∧
      queues.Agrees true [2] ∧ queues.Agrees false [0] := by
  let actions : List (QueueAction Bool (Fin 5)) :=
    [.append true 0, .append false 1, .append true 2, .remove true 0, .append false 0, .pop false]
  let start : Queues Bool (Fin 5 → Node (Fin 5)) (Fin 5) := { memory := fun _ => {} }
  have played : (execute Queues.step Queues.Legal start actions).isSome = true := by
    decide +kernel
  obtain ⟨⟨replies, queues⟩, ran⟩ := Option.isSome_iff_exists.mp played
  obtain ⟨same, agrees, -⟩ := queues_are_lists (.of_execute ran)
  exact ⟨queues, replies, same, agrees true, agrees false⟩

end TradingExchange
