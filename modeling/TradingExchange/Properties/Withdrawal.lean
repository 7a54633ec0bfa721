/-
**What cancelling a resting order does.**

* `cancel_exact`: wherever the order stands in its level, `cancelOrder` takes it out and does nothing
  else: the others stay in order and linked, a level goes exactly when it is empty, and the only
  words of memory that change are the links of the two neighbours and the order's own record. Its
  slot is the next one that the pool hands out.
* `cancel_restores`: cancelling an order that came to rest without a match undoes `addOrder`. Only the
  object bytes of the slot can tell, and the slot is free.
-/

import TradingExchange.Refinement.Filling

namespace TradingExchange

open Lots Ladder NodeMemory

variable {poolSize : UInt64} {book after : OrderBook poolSize} {view : View poolSize}
  {slot : Slot poolSize}

/-! ### Cancelling -/

/-- The links of `other` when an item with the links `node` is taken out beside it. -/
def Node.skip {Item : Type} [DecidableEq Item] (node : Node Item) (other : Item)
    (links : Node Item) : Node Item where
  next := if node.prev = some other then node.next else links.next
  prev := if node.next = some other then node.prev else links.prev

/-- The order in `slot` was taken out of `level`, from between `front` and `later`, and nothing else
happened. -/
structure TakenOut (before after : OrderBook poolSize) (slot : Slot poolSize)
    (level : PriceLevel poolSize) (front later : List (Slot poolSize)) : Prop where
  unlinked : slot ∉ after.resting
  left : ∀ level',
    (after.levels (before.order slot).isBuySide)[(before.order slot).price]? = some level' →
    Shows after.orderPool level' (front ++ later) ∧ level'.size.toNat + 1 = level.size.toNat
  erased : (before.order slot).price ∉ after.levels (before.order slot).isBuySide ↔
    front ++ later = []
  elsewhere : ∀ isBuySide price,
    ¬ (isBuySide = (before.order slot).isBuySide ∧ price = (before.order slot).price) →
    (after.levels isBuySide)[price]? = (before.levels isBuySide)[price]?
  frame : ∀ other, other ∉ front ++ slot :: later →
    after.orderPool.store other = before.orderPool.store other
  others : ∀ other, other ≠ slot → after.order other = { before.order other with
    listNode := (before.order slot).listNode.skip other (before.order other).listNode }
  own : after.order slot =
    { before.order slot with orderId := before.orderPool.nextFreeIndex, listNode := {} }
  inUse : ∀ other, after.InUse other ↔ before.InUse other ∧ other ≠ slot
  next : after.orderPool.nextFreeIndex = slot.index ∧
    ∀ value, (after.orderPool.allocate value).1 = some slot
  symbol : after.symbol = before.symbol

/-- What `remove` leaves in the record of another order. -/
theorem Shows.deref_remove {pool : OrderPool poolSize} {level : PriceLevel poolSize}
    {front later : List (Slot poolSize)} (shown : Shows pool level (front ++ slot :: later))
    (nodup : (front ++ slot :: later).Nodup) {other : Slot poolSize} (different : other ≠ slot) :
    (level.remove pool slot).2.deref other = { pool.deref other with
      listNode := (pool.deref slot).listNode.skip other (pool.deref other).listNode } := by
  obtain ⟨-, -, relinked⟩ := shown.remove nodup
  have apart : (getNode pool slot).prev ≠ some slot := by
    intro same
    rw [shown.linked.node.1] at same
    obtain ⟨-, -, disjoint⟩ := List.nodup_append.mp nodup
    exact disjoint slot (List.mem_of_getLast? same) slot List.mem_cons_self rfl
  have links := getNode_remove level pool slot other apart
  rw [if_neg different] at links
  rw [relinked.deref_eq]
  exact congrArg (fun node => { pool.deref other with listNode := node }) links

/-- **Cancelling a resting order takes it out of its level, and does nothing else.** -/
theorem cancel_exact (reachable : book.Reachable) (resting : slot ∈ book.resting) :
    ∃ level front later,
      (book.levels (book.order slot).isBuySide)[(book.order slot).price]? = some level ∧
      book.ordersAt (book.order slot).isBuySide (book.order slot).price = front ++ slot :: later ∧
      Shows book.orderPool level (front ++ slot :: later) ∧
      TakenOut book (book.cancelOrder (some slot)) slot level front later := by
  obtain ⟨view, represents⟩ := reachable.represents
  have linked := (represents.mem_resting slot).mp resting
  obtain ⟨level, front, later, found, orders, shown, nodup⟩ := represents.placed linked
  refine ⟨level, front, later, found, orders, shown, ?_⟩
  have cancelled := represents.cancelOrder linked
  obtain ⟨removed, -, relinked⟩ := shown.remove nodup
  let left := level.remove book.orderPool slot
  have pool := OrderBook.cancelOrder_pool found
  have own := OrderBook.cancelOrder_level found
  have apart : slot ∉ front ++ later :=
    (List.nodup_cons.mp (List.perm_middle.nodup_iff.mp nodup)).1
  have kept : ∀ other, other ≠ slot →
      (book.cancelOrder (some slot)).orderPool.store other = left.2.store other := by
    intro other different
    rw [pool]
    exact MemPool.store_deallocate_of_ne _ different
  have empty := removed.empty_iff
  refine ⟨?_, fun level' found' => ?_, ?_, fun isBuySide price elsewhere => ?_,
    fun other outside => ?_, fun other different => ?_, cancelled.record, fun other => ?_, ?_,
    cancelled.symbol⟩
  · rw [cancelled.represents.mem_resting, View.linked_cancel]
    simp
  · rw [own] at found'
    split at found'
    · exact absurd found' (Option.some_ne_none _).symm
    · obtain rfl := Option.some.inj found'
      refine ⟨removed.congr fun other member => ?_, ?_⟩
      · have different := ne_of_mem_of_not_mem member apart
        exact congrArg Order.listNode (MemPool.deref_congr (kept other different))
      · rw [removed.size, shown.size]
        simp
        omega
  · rw [Std.ExtTreeMap.mem_iff_isSome_getElem?, own, ← empty]
    split
    · next alone => simp [alone]
    · next shared => simp [shared]
  · exact OrderBook.cancelOrder_elsewhere found elsewhere
  · rw [kept other (by rintro rfl; exact outside (by simp)), relinked.store_eq outside]
  · have same : (book.cancelOrder (some slot)).order other = left.2.deref other :=
      MemPool.deref_congr (kept other different)
    rw [same]
    exact shown.deref_remove nodup different
  · rw [cancelled.represents.inUse_iff, represents.inUse_iff, View.cancel, List.mem_cons, not_or,
      and_comm]
  · have list := cancelled.represents.pool.list
    refine ⟨list.chain.1, fun value => ?_⟩
    obtain ⟨after, allocated, -⟩ := list.allocate_cons value
    rw [allocated]

/-- The second of three bids at a price is cancelled. -/
theorem cancel_exact_sample : ∃ book : OrderBook 3, ∃ level front later,
    (book.ordersAt true 10).map Fin.val = [0, 1, 2] ∧
    TakenOut book (book.cancelOrder (some ⟨1, by decide⟩)) ⟨1, by decide⟩ level front later := by
  have played : (OrderBook.play "X" 3 [.addOrder ⟨1, 1, 5, 10, true, .limit⟩,
      .addOrder ⟨2, 2, 6, 10, true, .limit⟩, .addOrder ⟨3, 3, 7, 10, true, .limit⟩]).map
      (fun result => ((result.2.ordersAt true 10).map Fin.val,
        decide ((⟨1, by decide⟩ : Slot 3) ∈ result.2.resting))) = some ([0, 1, 2], true) := by
    decide +kernel
  obtain ⟨⟨replies, book⟩, ran, facts⟩ := Option.map_eq_some_iff.mp played
  obtain ⟨orders, resting⟩ := Prod.mk.inj facts
  obtain ⟨level, front, later, -, -, -, taken⟩ :=
    cancel_exact (OrderBook.reachable_of_play ran) (of_decide_eq_true resting)
  exact ⟨book, level, front, later, orders, taken⟩

/-! ### Adding and cancelling -/

/-- Nobody who reads the book can tell it from the one before: `slot` is free in both, and what is
left in its object bytes is the only difference. -/
structure Restored (before after : OrderBook poolSize) (slot : Slot poolSize) : Prop where
  symbol : after.symbol = before.symbol
  levels : ∀ isBuySide, after.levels isBuySide = before.levels isBuySide
  others : ∀ other, other ≠ slot → after.orderPool.store other = before.orderPool.store other
  inUse : ∀ other, after.InUse other ↔ before.InUse other
  head : after.orderPool.nextFreeIndex = before.orderPool.nextFreeIndex
  links : ∀ other, after.orderPool.link other = before.orderPool.link other
  list : ∃ free, before.orderPool.FreeList free ∧ after.orderPool.FreeList free

/-- **Cancelling an order that was put to rest whole undoes adding it.** -/
theorem View.cancel_add {request : Request} {free : List (Slot poolSize)}
    (found : view.free = slot :: free) (apart : slot ∉ view.linked)
    (unmatched : view.available request = 0) : (view.add request).2.cancel slot = view := by
  rw [View.add_cons found, View.cancel, View.closes_eq_nil unmatched]
  have book : (view.book.add (request.ticket slot) request.size.toNat request.price
      request.isBuySide request.orderType).cancel (fun ticket => ticket.ref = slot) = view.book := by
    refine PureBook.cancel_add (decide_eq_true rfl) (fun side lot member => ?_) unmatched
    refine decide_eq_false fun same => apart ?_
    exact View.mem_linked.mpr ⟨side, same ▸ ref_mem member⟩
  simp only [book, List.reverse_nil, List.nil_append, ← found]

/-- **Two books that represent one view differ in the memory of unlinked slots at most.** -/
theorem Represents.restored (represents : Represents book view) (again : Represents after view)
    (symbol : after.symbol = book.symbol) (free : slot ∈ view.free)
    (frame : ∀ other, other ≠ slot → other ∉ view.linked →
      after.orderPool.store other = book.orderPool.store other) : Restored book after slot := by
  have sides : ∀ side, book.levels side = after.levels side ∧
      ∀ slot ∈ view.slots side, book.order slot = after.order slot := by
    intro side
    have shown := again.sides side
    rw [symbol] at shown
    exact (represents.sides side).unique (view.book.sorted side) shown
  have inUse : ∀ other, after.InUse other ↔ book.InUse other := by
    intro other
    rw [again.inUse_iff, represents.inUse_iff]
  obtain ⟨head, links⟩ := represents.pool.list.unique_links again.pool.list
  have others : ∀ other, other ≠ slot →
      after.orderPool.store other = book.orderPool.store other := by
    intro other different
    by_cases linked : other ∈ view.linked
    · obtain ⟨side, member⟩ := View.mem_linked.mp linked
      refine store_ext (Bool.eq_iff_iff.mpr ?_) ((sides side).2 other member).symm
      rw [again.pool.list.flags, represents.pool.list.flags]
    · exact frame other different linked
  refine ⟨symbol, fun side => (sides side).1.symm, others, inUse, head.symm, fun other => ?_,
    view.free, represents.pool.list, again.pool.list⟩
  by_cases same : other = slot
  · subst same
    exact (links other free).symm
  · rw [MemPool.link, MemPool.link, others other same]

/-- **Adding an order that matches nothing, and cancelling it, changes nothing.** -/
theorem cancel_restores (reachable : book.Reachable) {request : Request}
    (added : request.addTo book = .ok (some slot, after))
    (unmatched : book.matched (.addOrder request) = 0) (rests : slot ∈ after.resting) :
    Restored book (after.cancelOrder (some slot)) slot := by
  obtain ⟨view, represents⟩ := reachable.represents
  cases found : view.free with
  | nil =>
    rw [represents.addOrder_refused found] at added
    exact absurd (Prod.mk.inj (Except.ok.inj added)).1 (Option.some_ne_none slot).symm
  | cons first free =>
    obtain ⟨after', ran, effect⟩ := represents.addOrder request found
    obtain ⟨same, rfl⟩ := Prod.mk.inj (Except.ok.inj (added.symm.trans ran))
    obtain rfl := Option.some.inj same
    have adds : view.addedBy (.addOrder request) = some slot := by
      rw [View.addedBy, View.add_cons found]
    have linked : slot ∈ (view.add request).2.linked :=
      (effect.represents.mem_resting slot).mp rests
    have unreachable : view.available request = 0 := by
      obtain ⟨size, node, remainder, record⟩ := effect.record
      have positive := effect.represents.size_pos linked
      rw [record] at positive
      rw [represents.matched_addOrder adds] at unmatched
      simp only at positive
      omega
    have cancelled := effect.represents.cancelOrder linked
    have again := cancelled.represents
    rw [View.cancel_add found effect.apart unreachable] at again
    refine represents.restored again (cancelled.symbol.trans effect.symbol)
      (found ▸ List.mem_cons_self) fun other different idle => ?_
    have new : some other ≠ some slot := fun same => different (Option.some.inj same)
    have unlinked : other ∉ (view.add request).2.linked := by
      intro member
      have source : other ∈ view.linked ∨ view.addedBy (.addOrder request) = some other :=
        View.mem_linked_of_step member
      rcases source with old | added
      · exact idle old
      · exact new (added.symm.trans adds)
    exact (cancelled.frame other unlinked).trans (effect.changed.frame other idle new)

/-- A second bid at a price is added and cancelled: it took the last slot. -/
theorem cancel_restores_sample : ∃ book after : OrderBook 2,
    Request.addTo ⟨2, 2, 6, 10, true, .limit⟩ book = .ok (some ⟨1, by decide⟩, after) ∧
    Restored book (after.cancelOrder (some ⟨1, by decide⟩)) ⟨1, by decide⟩ := by
  have played : (OrderBook.play "X" 2 [.addOrder ⟨1, 1, 5, 10, true, .limit⟩]).bind
      (fun result => (Request.addTo ⟨2, 2, 6, 10, true, .limit⟩ result.2).toOption.map fun added =>
        (added.1.map Fin.val, result.2.matched (.addOrder ⟨2, 2, 6, 10, true, .limit⟩),
          decide ((⟨1, by decide⟩ : Slot 2) ∈ added.2.resting))) = some (some 1, 0, true) := by
    decide +kernel
  obtain ⟨⟨replies, book⟩, ran, added⟩ := Option.bind_eq_some_iff.mp played
  obtain ⟨⟨slot, after⟩, done, facts⟩ := Option.map_eq_some_iff.mp added
  obtain ⟨named, unmatched, rests⟩ : slot.map Fin.val = some 1 ∧ _ ∧ _ := by
    simpa only [Prod.mk.injEq] using facts
  obtain ⟨slot, rfl, same⟩ := Option.map_eq_some_iff.mp named
  obtain rfl : slot = ⟨1, by decide⟩ := Fin.ext same
  have done := ok_of_toOption done
  exact ⟨book, after, done, cancel_restores (OrderBook.reachable_of_play ran) done unmatched
    (of_decide_eq_true rests)⟩

end TradingExchange
