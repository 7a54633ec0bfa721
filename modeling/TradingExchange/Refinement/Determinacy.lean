/-
**A book is determined by its view, and by the book it descends from.**

The view fixes the price maps, the links, the records of the resting orders and the free list. It
says nothing about records in slots that are not linked: those are either as they were before, or of
orders that were closed since (`Closed`). So two books that descend from the same book by matching,
and represent the same view, are equal to the last word (`Descends.unique`), whatever loops led to
them.
-/

import TradingExchange.Abstract.Laws
import TradingExchange.Refinement.Closing

namespace TradingExchange

open Lots Ladder NodeMemory

variable {poolSize : UInt64}

/-! ### What the view determines -/

section Unique

variable {pool pool' : OrderPool poolSize} {symbol : String} {isBuySide : Bool} {price : UInt64}

theorem LevelShown.unique {level level' : PriceLevel poolSize}
    {lots : List (Lot (Ticket (Slot poolSize)))}
    (one : LevelShown pool symbol isBuySide price level lots)
    (two : LevelShown pool' symbol isBuySide price level' lots) :
    level = level' ∧ ∀ lot ∈ lots, pool.deref lot.tag.ref = pool'.deref lot.tag.ref := by
  obtain ⟨same, links⟩ := one.queue.unique two.queue
  refine ⟨same, fun lot member => ?_⟩
  have records := (two.records lot member).eq_of_lot (one.records lot member)
  rwa [show (pool.deref lot.tag.ref).listNode = (pool'.deref lot.tag.ref).listNode from
    links _ (ref_mem member)] at records

/-- **A price map is determined by the ladder**, and so are the records of its orders. -/
theorem SideShown.unique {map map' : PriceLevels poolSize}
    {levels : List (Level UInt64 (Ticket (Slot poolSize)))} (sorted : Sorted (better isBuySide) levels)
    (one : SideShown pool symbol isBuySide map levels)
    (two : SideShown pool' symbol isBuySide map' levels) :
    map = map' ∧ ∀ slot ∈ refs (flat levels), pool.deref slot = pool'.deref slot := by
  constructor
  · refine Std.ExtTreeMap.ext_getElem? fun price => ?_
    have here := one price
    have here' := two price
    cases found : map[price]? with
    | none =>
      cases found' : map'[price]? with
      | none => rfl
      | some level' =>
        rw [found] at here
        rw [found'] at here'
        exact absurd here here'.1
    | some level =>
      cases found' : map'[price]? with
      | none =>
        rw [found] at here
        rw [found'] at here'
        exact absurd here' here.1
      | some level' =>
        rw [found] at here
        rw [found'] at here'
        rw [(here.2.unique here'.2).1]
  · intro slot member
    obtain ⟨lot, found, rfl⟩ := mem_refs.mp member
    obtain ⟨level, inside, at_level⟩ := mem_flat.mp found
    obtain ⟨queue, -, shown⟩ := one.level (List.mem_map_of_mem inside)
    obtain ⟨queue', -, shown'⟩ := two.level (List.mem_map_of_mem inside)
    refine (shown.unique shown').2 lot ?_
    rwa [sorted.lotsAt_level inside]

/-- **The free list is determined by its slots.** -/
theorem MemPool.FreeList.unique_links {free : List (Slot poolSize)} (one : pool.FreeList free)
    (two : pool'.FreeList free) : pool.nextFreeIndex = pool'.nextFreeIndex ∧
      ∀ slot ∈ free, (pool.deref slot).orderId = (pool'.deref slot).orderId :=
  one.chain.link_eq two.chain

theorem store_ext {slot : Slot poolSize}
    (flags : (pool.store slot).isFreeOrInUse = (pool'.store slot).isFreeOrInUse)
    (records : pool.deref slot = pool'.deref slot) : pool.store slot = pool'.store slot := by
  have objects : (pool.store slot).object = (pool'.store slot).object := records
  cases one : pool.store slot
  cases two : pool'.store slot
  rw [one, two] at flags objects
  rw [Element.mk.injEq]
  exact ⟨flags, objects⟩

end Unique

/-! ### Books that descend from a book -/

/-- A record of an order that was at most reduced. -/
def Retained (before after : Order (Slot poolSize)) : Prop :=
  ∃ size node, after = { before with size := size, listNode := node }

theorem Retained.trans {first second third : Order (Slot poolSize)} (one : Retained first second)
    (two : Retained second third) : Retained first third := by
  obtain ⟨_, _, rfl⟩ := one
  obtain ⟨size, node, rfl⟩ := two
  exact ⟨size, node, rfl⟩

theorem Retained.closed {first second third : Order (Slot poolSize)} (one : Retained first second)
    (two : Closed second third) : Closed first third := by
  obtain ⟨_, _, rfl⟩ := one
  obtain ⟨link, rfl⟩ := two
  exact ⟨link, rfl⟩

/-- The book `after` came from `before` by matching: no order was added or cancelled. -/
structure Descends (before after : OrderBook poolSize) (view view' : View poolSize) : Prop where
  represents : Represents after view'
  symbol : after.symbol = before.symbol
  frame : ∀ slot, slot ∉ view.linked → after.orderPool.store slot = before.orderPool.store slot
  linked : view'.linked ⊆ view.linked
  free : view.free ⊆ view'.free
  freed : ∀ slot ∈ view.linked, slot ∉ view'.linked →
    slot ∈ view'.free ∧ Closed (before.order slot) (after.order slot)
  retained : ∀ slot ∈ view'.linked, Retained (before.order slot) (after.order slot)

namespace Descends

variable {before middle after after' : OrderBook poolSize} {view view' view'' : View poolSize}

theorem trans (one : Descends before middle view view')
    (two : Descends middle after view' view'') : Descends before after view view'' := by
  refine ⟨two.represents, two.symbol.trans one.symbol, fun slot outside => ?_,
    fun slot member => one.linked (two.linked member),
    fun slot member => two.free (one.free member), fun slot member gone => ?_, fun slot member => ?_⟩
  · exact (two.frame slot fun inside => outside (one.linked inside)).trans (one.frame slot outside)
  · by_cases between : slot ∈ view'.linked
    · obtain ⟨freed, closed⟩ := two.freed slot between gone
      exact ⟨freed, (one.retained slot between).closed closed⟩
    · obtain ⟨freed, closed⟩ := one.freed slot member between
      refine ⟨two.free freed, ?_⟩
      rw [show after.order slot = middle.order slot from MemPool.deref_congr (two.frame slot between)]
      exact closed
  · exact (one.retained slot (two.linked member)).trans (two.retained slot member)

/-- **Descendants of one book that represent one view are equal.** -/
theorem unique (one : Descends before after view view') (two : Descends before after' view view') :
    after = after' := by
  obtain ⟨head, links⟩ := one.represents.pool.list.unique_links two.represents.pool.list
  have symbol : after'.symbol = after.symbol := two.symbol.trans one.symbol.symm
  have sides : ∀ side, after.levels side = after'.levels side ∧
      ∀ slot ∈ view'.slots side, after.order slot = after'.order slot := fun side => by
    have shown' := two.represents.sides side
    rw [symbol] at shown'
    exact (one.represents.sides side).unique (view'.book.sorted side) shown'
  have records : ∀ slot, slot ∈ view.linked → after.order slot = after'.order slot := by
    intro slot member
    by_cases left : slot ∈ view'.linked
    · obtain ⟨side, inside⟩ := View.mem_linked.mp left
      exact (sides side).2 slot inside
    · obtain ⟨freed, link, closed⟩ := one.freed slot member left
      obtain ⟨-, link', closed'⟩ := two.freed slot member left
      have same : link = link' := by
        have same := links slot freed
        rwa [show after.orderPool.deref slot = _ from closed,
          show after'.orderPool.deref slot = _ from closed'] at same
      rw [closed, closed', same]
  have stores : after.orderPool.store = after'.orderPool.store := by
    funext slot
    by_cases member : slot ∈ view.linked
    · refine store_ext (Bool.eq_iff_iff.mpr ?_) (records slot member)
      rw [one.represents.pool.list.flags, two.represents.pool.list.flags]
    · rw [one.frame slot member, two.frame slot member]
  obtain ⟨bids, -⟩ := sides true
  obtain ⟨asks, -⟩ := sides false
  obtain ⟨name, ⟨store, next⟩, bidLevels, askLevels⟩ := after
  obtain ⟨name', ⟨store', next'⟩, bidLevels', askLevels'⟩ := after'
  rw [OrderBook.mk.injEq, MemPool.mk.injEq]
  exact ⟨symbol.symm, ⟨stores, head⟩, bids, asks⟩

end Descends

/-! ### Matching -/

section Matching

variable {book : OrderBook poolSize} {view : View poolSize}

/-- An order that is left after matching was there before, at the same price. -/
theorem View.lotsAt_matchOrder {isBuySide side : Bool} {price limit : UInt64} {amount : Nat}
    {type : OrderType} {lot : Lot (Ticket (Slot poolSize))}
    (member : lot ∈ lotsAt ((view.matchOrder isBuySide limit amount type).book.levels side) price) :
    ∃ earlier ∈ lotsAt (view.book.levels side) price, earlier.tag = lot.tag := by
  rw [View.matchOrder] at member
  by_cases own : side = isBuySide
  · subst own
    rw [PureBook.matchOrder_self] at member
    exact ⟨lot, member, rfl⟩
  · obtain rfl := Bool.eq_not_of_ne own
    rw [PureBook.matchOrder_not] at member
    obtain ⟨earlier, found, tag, -⟩ := PureBook.mem_lotsAt_swept member
    exact ⟨earlier, found, tag⟩

/-- **Matching leads to a book that descends from the one before.** -/
theorem Represents.descends (represents : Represents book view) (isBuySide : Bool) (price : UInt64)
    (size : UInt32) (type : OrderType) (totalMatched : UInt32) :
    ∃ result, book.matchOrder isBuySide price size type totalMatched = .ok result ∧
      result.totalMatched.toNat = totalMatched.toNat +
        min (size.toNat - totalMatched.toNat) (view.book.available isBuySide price type) ∧
      Descends book result.book view
        (view.matchOrder isBuySide price (size.toNat - totalMatched.toNat) type) := by
  obtain ⟨result, ran, total, effect⟩ :=
    represents.matching isBuySide price size type totalMatched
  refine ⟨result, ran, total, effect.represents, effect.symbol,
    fun slot outside => effect.changed.frame slot outside (Option.some_ne_none slot),
    fun slot member => ?_, fun slot member => List.mem_append_right _ member,
    fun slot member gone => ?_, fun slot member => ?_⟩
  · have before : slot ∈ view.linked ∨
        view.addedBy (.matchOrder isBuySide price size type totalMatched) = some slot :=
      View.mem_linked_of_step member
    exact before.resolve_right (Option.some_ne_none slot).symm
  · have closed : slot ∈ view.closedBy (.matchOrder isBuySide price size type totalMatched) := by
      rcases View.mem_linked_step (.matchOrder isBuySide price size type totalMatched) member with
        left | closed | cancelled
      · exact absurd left gone
      · exact closed
      · cases cancelled
    exact ⟨List.mem_append_left _ (List.mem_reverse.mpr closed), effect.changed.closed slot closed⟩
  · obtain ⟨side, limit, lot, found, rfl⟩ := View.exists_lot member
    obtain ⟨earlier, found', tag⟩ := View.lotsAt_matchOrder found
    have now := effect.represents.filed found
    have early := represents.filed found'
    rw [effect.symbol] at now
    have same := early.eq_of_tag now tag.symm
    rw [tag] at same
    exact ⟨_, _, same⟩

/-- Matching in two parts leads to the view of matching the sum. -/
theorem View.matchOrder_matchOrder (view : View poolSize) (isBuySide : Bool) (price : UInt64)
    (amount more : Nat) (type : OrderType) :
    (view.matchOrder isBuySide price amount type).matchOrder isBuySide price more type =
      view.matchOrder isBuySide price (amount + more) type := by
  simp only [matchOrder, PureBook.matchOrder_matchOrder, PureBook.closes_add, List.map_append,
    List.reverse_append, List.append_assoc]

end Matching

end TradingExchange
