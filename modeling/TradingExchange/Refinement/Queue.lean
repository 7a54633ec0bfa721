/-
**An intrusive queue shows a list.**

`Shows memory queue items`: the header and the links of `queue` describe the list `items`. The
operations do to the list what their names promise: `append_shows`, `remove_shows` (from anywhere in
the queue), and `peek` is the head of the list.

`Relinked items before after` says that only the nodes of `items` were written in between. It is
the frame of every operation: a queue over other items, and everything in memory that is not a
node, is untouched.
-/

import Mathlib.Data.List.Basic
import TradingExchange.Library.LinkedList
import TradingExchange.Model.IntrusiveQueue

namespace TradingExchange

open NodeMemory IntrusiveQueue

variable {Memory Item : Type} [NodeMemory Memory Item]

/-- Only nodes of `items` were written. -/
inductive Relinked (items : List Item) (before : Memory) : Memory → Prop where
  | refl : Relinked items before before
  | write {after : Memory} {item : Item} (node : Node Item) (member : item ∈ items)
      (earlier : Relinked items before after) : Relinked items before (setNode after item node)

namespace Relinked

variable {items others : List Item} {before after : Memory}

theorem getNode_eq (relinked : Relinked items before after) {item : Item} (apart : item ∉ items) :
    getNode after item = getNode before item := by
  induction relinked with
  | refl => rfl
  | write node member _ ih =>
    rw [getNode_setNode_of_ne _ _ _ _ (ne_of_mem_of_not_mem member apart).symm, ih]

theorem setNext {item : Item} (next : Option Item) (member : item ∈ items)
    (relinked : Relinked items before after) :
    Relinked items before (IntrusiveQueue.setNext after item next) :=
  .write _ member relinked

theorem setPrev {item : Item} (prev : Option Item) (member : item ∈ items)
    (relinked : Relinked items before after) :
    Relinked items before (IntrusiveQueue.setPrev after item prev) :=
  .write _ member relinked

end Relinked

/-! ### What the writes leave in the nodes -/

section Nodes

variable [DecidableEq Item] (memory : Memory) (item other : Item)

theorem getNode_setNode (node : Node Item) :
    getNode (setNode memory item node) other = if other = item then node else getNode memory other := by
  split
  · next same => rw [same, getNode_setNode_self]
  · next different => exact getNode_setNode_of_ne _ _ _ _ different

theorem getNode_setNext (next : Option Item) :
    getNode (setNext memory item next) other =
      if other = item then { getNode memory item with next := next } else getNode memory other :=
  getNode_setNode ..

theorem getNode_setPrev (prev : Option Item) :
    getNode (setPrev memory item prev) other =
      if other = item then { getNode memory item with prev := prev } else getNode memory other :=
  getNode_setNode ..

end Nodes

/-- The queue's header and links describe the list. -/
structure Shows (memory : Memory) (queue : IntrusiveQueue Item) (items : List Item) : Prop where
  head : queue.head = items.head?
  tail : queue.tail = items.getLast?
  size : queue.size.toNat = items.length
  linked : Linked (fun item => (getNode memory item).next) (fun item => (getNode memory item).prev)
    none none items

namespace Shows

variable {memory after : Memory} {queue : IntrusiveQueue Item} {items : List Item}

theorem nil (memory : Memory) : Shows memory {} ([] : List Item) := ⟨rfl, rfl, rfl, trivial⟩

theorem peek_eq (shown : Shows memory queue items) : queue.peek = items.head? := shown.head

theorem empty_iff (shown : Shows memory queue items) : queue.empty = true ↔ items = [] := by
  rw [IntrusiveQueue.empty, beq_iff_eq, ← UInt64.toNat_inj, shown.size]
  exact List.length_eq_zero_iff

/-- **The header and the links are determined by the items.** -/
theorem unique {queue' : IntrusiveQueue Item} (one : Shows memory queue items)
    (two : Shows after queue' items) :
    queue = queue' ∧ ∀ item ∈ items, getNode memory item = getNode after item := by
  constructor
  · have size : queue.size = queue'.size := UInt64.toNat_inj.mp (one.size.trans two.size.symm)
    obtain ⟨head, tail, count⟩ := queue
    obtain ⟨head', tail', count'⟩ := queue'
    rw [show head = head' from one.head.trans two.head.symm,
      show tail = tail' from one.tail.trans two.tail.symm, show count = count' from size]
  · intro item member
    obtain ⟨front, later, rfl⟩ := List.append_of_mem member
    obtain ⟨back, forth⟩ := one.linked.node
    obtain ⟨back', forth'⟩ := two.linked.node
    calc getNode memory item
        = ⟨(getNode memory item).next, (getNode memory item).prev⟩ := rfl
      _ = ⟨(getNode after item).next, (getNode after item).prev⟩ := by
        rw [forth, back, forth', back']
      _ = getNode after item := rfl

theorem congr (shown : Shows memory queue items)
    (same : ∀ item ∈ items, getNode after item = getNode memory item) : Shows after queue items :=
  ⟨shown.head, shown.tail, shown.size, shown.linked.congr fun item member =>
    ⟨by rw [same item member], by rw [same item member]⟩⟩

theorem frame {others : List Item} (shown : Shows memory queue items)
    (relinked : Relinked others memory after) (apart : ∀ item ∈ items, item ∉ others) :
    Shows after queue items :=
  shown.congr fun item member => relinked.getNode_eq (apart item member)

variable [DecidableEq Item]

/-- **Appending adds at the end.** -/
theorem append (shown : Shows memory queue items) {item : Item} (fresh : item ∉ items)
    (nodup : items.Nodup) (room : items.length + 1 < UInt64.size) :
    ∃ queue' after, queue.append memory item = .ok (queue', after) ∧
      Shows after queue' (items ++ [item]) ∧ Relinked (item :: items) memory after := by
  have size : (queue.size + 1).toNat = items.length + 1 := by
    rw [UInt64.toNat_add, shown.size]
    exact Nat.mod_eq_of_lt room
  rcases List.eq_nil_or_concat' items with rfl | ⟨front, last, rfl⟩
  · have head : queue.head = none := shown.head
    refine ⟨_, _, by rw [IntrusiveQueue.append, head], ⟨rfl, rfl, size, ?_⟩,
      .write _ List.mem_cons_self .refl⟩
    refine ⟨?_, ?_, trivial⟩
    · simp only [getNode_setNode_self]
    · simp only [getNode_setNode_self, List.head?_nil, Option.or_none]
  · have tail : queue.tail = some last := by rw [shown.tail, List.getLast?_concat]
    have different : last ≠ item := fun same => fresh (same ▸ List.mem_concat_self)
    obtain ⟨first, head⟩ : ∃ first, queue.head = some first := by
      rw [shown.head]
      cases front with
      | nil => exact ⟨last, rfl⟩
      | cons first _ => exact ⟨first, rfl⟩
    refine ⟨_, _, by rw [IntrusiveQueue.append, head, tail], ⟨?_, ?_, ?_, ?_⟩, ?_⟩
    · rw [List.head?_append, ← shown.head, head]
      rfl
    · exact List.getLast?_concat.symm
    · rw [List.length_append]
      exact size
    · refine shown.linked.link_last nodup (fun other member => ?_) (fun other member => ?_) ?_ ?_
      · have apart : other ≠ item := fun same => fresh (same ▸ member)
        simp only [getNode_setNext, getNode_setPrev, if_neg apart, List.getLast?_concat,
          Option.some.injEq]
        by_cases same : other = last
        · rw [if_pos same, if_pos same.symm]
        · rw [if_neg same, if_neg (Ne.symm same)]
      · have apart : other ≠ item := fun same => fresh (same ▸ member)
        simp only [getNode_setNext, getNode_setPrev, if_neg apart]
        split
        · next same => rw [same]
        · rfl
      · simp only [getNode_setNext, if_true]
      · simp only [getNode_setNext, getNode_setPrev, if_true, List.getLast?_concat]
    · exact ((Relinked.refl.setNext _ (List.mem_cons_of_mem _ List.mem_concat_self)).setPrev _
        List.mem_cons_self).setNext _ List.mem_cons_self

end Shows

section Nodes

variable [DecidableEq Item] (queue : IntrusiveQueue Item) (memory : Memory) (item other : Item)

theorem getNode_unlinkPrev :
    getNode (queue.unlinkPrev memory item).2 other =
      if (getNode memory item).prev = some other then
        { getNode memory other with next := (getNode memory item).next }
      else getNode memory other := by
  rw [unlinkPrev.eq_def]
  cases (getNode memory item).prev with
  | none => rfl
  | some prev =>
    simp only [getNode_setNext, Option.some.injEq, @eq_comm _ prev]
    split
    · next same => rw [same]
    · rfl

theorem getNode_unlinkNext :
    getNode (queue.unlinkNext memory item).2 other =
      if (getNode memory item).next = some other then
        { getNode memory other with prev := (getNode memory item).prev }
      else getNode memory other := by
  rw [unlinkNext.eq_def]
  cases (getNode memory item).next with
  | none => rfl
  | some next =>
    simp only [getNode_setPrev, Option.some.injEq, @eq_comm _ next]
    split
    · next same => rw [same]
    · rfl

/-- What `remove` leaves in the nodes, for an item that is not its own predecessor. -/
theorem getNode_remove (apart : (getNode memory item).prev ≠ some item) :
    getNode (queue.remove memory item).2 other =
      if other = item then {} else
        { next := if (getNode memory item).prev = some other then (getNode memory item).next
            else (getNode memory other).next,
          prev := if (getNode memory item).next = some other then (getNode memory item).prev
            else (getNode memory other).prev } := by
  simp only [IntrusiveQueue.remove, getNode_setNode, getNode_unlinkNext, getNode_unlinkPrev,
    if_neg apart]
  split
  · rfl
  · split <;> split <;> rfl

end Nodes

section Header

variable (queue : IntrusiveQueue Item) (memory : Memory) (item : Item)

theorem remove_head :
    (queue.remove memory item).1.head =
      match (getNode memory item).prev with
      | some _ => queue.head
      | none => (getNode memory item).next := by
  simp only [IntrusiveQueue.remove, unlinkNext]
  rw [unlinkPrev.eq_def]
  cases (getNode memory item).prev <;> split <;> rfl

/-- The tail is written only when the item has no successor. -/
theorem remove_tail (middle : getNode (queue.unlinkPrev memory item).2 item = getNode memory item) :
    (queue.remove memory item).1.tail =
      match (getNode memory item).next with
      | some _ => queue.tail
      | none => (getNode memory item).prev := by
  have first : (queue.unlinkPrev memory item).1.tail = queue.tail := by
    rw [unlinkPrev.eq_def]
    split <;> rfl
  simp only [IntrusiveQueue.remove]
  rw [unlinkNext.eq_def, middle]
  cases (getNode memory item).next with
  | none => rfl
  | some next => exact first

theorem remove_size : (queue.remove memory item).1.size = queue.size - 1 := by
  have first : (queue.unlinkPrev memory item).1.size = queue.size := by
    rw [unlinkPrev.eq_def]
    split <;> rfl
  simp only [IntrusiveQueue.remove]
  rw [unlinkNext.eq_def]
  split <;> exact congrArg (· - 1) first

end Header

theorem Relinked.remove {items : List Item} {before after : Memory} {item : Item}
    (queue : IntrusiveQueue Item) (relinked : Relinked items before after) (member : item ∈ items)
    (back : ∀ prev, (getNode after item).prev = some prev → prev ∈ items)
    (front : ∀ next, (getNode (queue.unlinkPrev after item).2 item).next = some next →
      next ∈ items) :
    Relinked items before (queue.remove after item).2 := by
  rw [IntrusiveQueue.remove]
  refine .write _ member ?_
  have first : Relinked items before (queue.unlinkPrev after item).2 := by
    rw [unlinkPrev.eq_def]
    cases found : (getNode after item).prev with
    | none => exact relinked
    | some prev => exact relinked.setNext _ (back prev found)
  rw [unlinkNext.eq_def]
  split
  · next next found => exact first.setPrev _ (front next found)
  · exact first

namespace Shows

variable [DecidableEq Item] {memory : Memory} {queue : IntrusiveQueue Item}

/-- **Removing deletes one item, wherever it stands**, and clears its links. -/
theorem remove {front later : List Item} {item : Item}
    (shown : Shows memory queue (front ++ item :: later)) (nodup : (front ++ item :: later).Nodup) :
    Shows (queue.remove memory item).2 (queue.remove memory item).1 (front ++ later) ∧
      getNode (queue.remove memory item).2 item = {} ∧
      Relinked (front ++ item :: later) memory (queue.remove memory item).2 := by
  obtain ⟨back, ahead⟩ := shown.linked.node
  obtain ⟨nodupFront, nodupRest, disjoint⟩ := List.nodup_append.mp nodup
  have fresh := (List.nodup_cons.mp nodupRest).1
  have apart : (getNode memory item).prev ≠ some item := by
    rw [back]
    exact fun same => disjoint item (List.mem_of_getLast? same) item List.mem_cons_self rfl
  have node := fun other => getNode_remove queue memory item other apart
  have prevMember : ∀ prev, (getNode memory item).prev = some prev → prev ∈ front :=
    fun prev found => List.mem_of_getLast? (back ▸ found)
  have nextMember : ∀ next, (getNode memory item).next = some next → next ∈ later :=
    fun next found => List.mem_of_head? (ahead ▸ found)
  have middle : getNode (queue.unlinkPrev memory item).2 item = getNode memory item := by
    rw [getNode_unlinkPrev, if_neg apart]
  refine ⟨⟨?_, ?_, ?_, ?_⟩, by rw [node, if_pos rfl], ?_⟩
  · rw [remove_head, back, ahead, shown.head]
    cases front with
    | nil => rfl
    | cons first front =>
      rw [List.getLast?_cons]
      rfl
  · rw [remove_tail _ _ _ middle, back, ahead, shown.tail]
    cases later with
    | nil =>
      rw [List.append_nil]
      rfl
    | cons next later =>
      rw [List.getLast?_append, List.getLast?_append, List.getLast?_cons_cons, List.getLast?_cons]
      rfl
  · have size := shown.size
    have bound := UInt64.toNat_lt queue.size
    rw [List.length_append, List.length_cons] at size
    rw [remove_size, UInt64.toNat_sub_of_le, size, List.length_append]
    · rfl
    · rw [UInt64.le_iff_toNat_le, size]
      exact Nat.le_add_left 1 _
  · refine shown.linked.unlink nodup (fun other different => ?_) (fun other different => ?_)
    · simp only [node, if_neg different]
    · simp only [node, if_neg different]
  · refine Relinked.refl.remove queue (List.mem_append_right _ List.mem_cons_self) ?_ ?_
    · exact fun prev found => List.mem_append_left _ (prevMember prev found)
    · rw [middle]
      exact fun next found =>
        List.mem_append_right _ (List.mem_cons_of_mem _ (nextMember next found))

end Shows

end TradingExchange
