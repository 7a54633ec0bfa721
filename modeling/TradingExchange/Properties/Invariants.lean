/-
**What holds of every reachable book.**

* `never_crossed`: every bid price is below every ask price;
* `well_formed`: the price maps, the links, the records and the pool describe one and the same set
  of resting orders (`WellFormed`), so the pool bounds the number of resting orders.
-/

import TradingExchange.Refinement.Runs

namespace TradingExchange

open Lots Ladder

variable {poolSize : UInt64} {book : OrderBook poolSize}

/-- **The book is never crossed or locked.** -/
theorem never_crossed (reachable : book.Reachable) :
    ∀ bid ∈ book.bidLevels, ∀ ask ∈ book.askLevels, bid < ask := by
  obtain ⟨view, represents⟩ := reachable.represents
  intro bid bidMember ask askMember
  have bidPrice := ((represents.sides true).mem_iff bid).mp bidMember
  have askPrice := ((represents.sides false).mem_iff ask).mp askMember
  exact view.book.uncrossed true bid bidPrice ask askPrice

/-- The book after a bid at 10 and an ask at 20. -/
theorem never_crossed_sample : ∃ book : OrderBook 2, 10 ∈ book.bidLevels ∧ 20 ∈ book.askLevels ∧
    ∀ bid ∈ book.bidLevels, ∀ ask ∈ book.askLevels, bid < ask := by
  have played : (OrderBook.play "X" 2 [.addOrder ⟨1, 1, 5, 10, true, .limit⟩,
      .addOrder ⟨2, 2, 5, 20, false, .limit⟩]).map (fun result =>
        decide (10 ∈ result.2.bidLevels ∧ 20 ∈ result.2.askLevels)) = some true := by
    decide +kernel
  obtain ⟨⟨replies, book⟩, ran, prices⟩ := Option.map_eq_some_iff.mp played
  obtain ⟨bid, ask⟩ := of_decide_eq_true prices
  exact ⟨book, bid, ask, never_crossed (OrderBook.reachable_of_play ran)⟩

/-- A level, its orders and their slots agree. -/
structure LevelWellFormed (book : OrderBook poolSize) (isBuySide : Bool) (price : UInt64)
    (level : PriceLevel poolSize) (orders : List (Slot poolSize)) : Prop where
  inhabited : orders ≠ []
  forward : Chain some (fun slot => (book.order slot).listNode.next) none level.head orders
  backward : Chain some (fun slot => (book.order slot).listNode.prev) none level.tail orders.reverse
  size : level.size.toNat = orders.length
  nodup : orders.Nodup
  records : ∀ slot ∈ orders, (book.order slot).price = price ∧
    (book.order slot).isBuySide = isBuySide ∧ 0 < (book.order slot).size

/-- The representation invariant of a book. -/
structure WellFormed (book : OrderBook poolSize) : Prop where
  levels : ∀ isBuySide (price : UInt64) level, (book.levels isBuySide)[price]? = some level →
    LevelWellFormed book isBuySide price level (book.ordersOf level)
  apart : ∀ isBuySide (price : UInt64) level isBuySide' (price' : UInt64) level',
    (book.levels isBuySide)[price]? = some level → (book.levels isBuySide')[price']? = some level' →
    (isBuySide, price) ≠ (isBuySide', price') → ∀ slot ∈ book.ordersOf level,
      slot ∉ book.ordersOf level'
  pool : ∃ free, book.orderPool.FreeList free ∧
    ∀ slot ∈ book.resting, book.InUse slot ∧ slot ∉ free
  sizes : ((book.bidLevels.toList ++ book.askLevels.toList).map fun entry =>
    entry.2.size.toNat).sum ≤ poolSize.toNat

section WellFormed

variable {view : View poolSize}

theorem Represents.level (represents : Represents book view) {isBuySide : Bool} {price : UInt64}
    {level : PriceLevel poolSize} (found : (book.levels isBuySide)[price]? = some level) :
    LevelWellFormed book isBuySide price level (book.ordersOf level) := by
  obtain ⟨inhabited, shown⟩ := represents.entry found
  have orders := represents.ordersOf found
  rw [orders]
  have forward := shown.queue.linked.forward
  have backward := shown.queue.linked.backward
  rw [← shown.queue.head] at forward
  rw [← shown.queue.tail] at backward
  refine ⟨?_, forward, backward, shown.queue.size,
    forward.nodup (Option.some_injective _) fun item => Option.some_ne_none item, fun slot member => ?_⟩
  · rwa [ne_eq, ← List.length_eq_zero_iff, length_refs, List.length_eq_zero_iff]
  · obtain ⟨lot, inside, rfl⟩ := mem_refs.mp member
    have filed := shown.records lot inside
    refine ⟨filed.price, filed.isBuySide, UInt32.lt_iff_toNat_lt.mpr ?_⟩
    have size : (book.order lot.tag.ref).size.toNat = lot.size := filed.size
    rw [size]
    exact lot.positive

/-- Orders of different levels are in different slots. -/
theorem Represents.apart (represents : Represents book view) {isBuySide isBuySide' : Bool}
    {price price' : UInt64} {level level' : PriceLevel poolSize}
    (found : (book.levels isBuySide)[price]? = some level)
    (found' : (book.levels isBuySide')[price']? = some level')
    (different : (isBuySide, price) ≠ (isBuySide', price')) :
    ∀ slot ∈ book.ordersOf level, slot ∉ book.ordersOf level' := by
  rw [represents.ordersOf found, represents.ordersOf found']
  intro slot member inside
  by_cases same : isBuySide = isBuySide'
  · subst same
    exact represents.prices_apart (fun equal => different (by rw [equal])) member inside
  · obtain rfl := Bool.eq_not_of_ne (Ne.symm same)
    refine represents.sides_apart (refs_lotsAt_sublist.subset member) (refs_lotsAt_sublist.subset inside)

theorem Represents.sizes (represents : Represents book view) :
    ((book.bidLevels.toList ++ book.askLevels.toList).map fun entry =>
      entry.2.size.toNat).sum ≤ poolSize.toNat := by
  have count : ((book.bidLevels.toList ++ book.askLevels.toList).map fun entry =>
      entry.2.size.toNat) =
      (book.bidLevels.toList ++ book.askLevels.toList).map fun entry =>
        (book.ordersOf entry.2).length := by
    refine List.map_congr_left fun entry member => ?_
    rcases List.mem_append.mp member with bid | ask
    · have found : (book.levels true)[entry.1]? = some entry.2 :=
        Std.ExtTreeMap.mem_toList_iff_getElem?_eq_some.mp bid
      exact (represents.level found).size
    · have found : (book.levels false)[entry.1]? = some entry.2 :=
        Std.ExtTreeMap.mem_toList_iff_getElem?_eq_some.mp ask
      exact (represents.level found).size
  rw [count, ← List.length_flatMap, List.flatMap_append]
  have nodup := represents.resting_perm.nodup_iff.mpr represents.pool.linked_nodup
  have length := nodup.length_le_card
  rwa [Fintype.card_fin] at length

end WellFormed

/-- **The representation invariant.** -/
theorem well_formed (reachable : book.Reachable) : WellFormed book := by
  obtain ⟨view, represents⟩ := reachable.represents
  refine ⟨fun _ _ _ => represents.level, fun _ _ _ _ _ _ => represents.apart,
    ⟨view.free, represents.pool.list, fun slot member => ?_⟩, represents.sizes⟩
  have used := represents.pool.not_free ((represents.mem_resting slot).mp member)
  exact ⟨Bool.eq_false_iff.mpr fun free => used ((represents.pool.list.flags slot).mp free), used⟩

/-- A bid with two orders and an ask. -/
theorem well_formed_sample : ∃ book : OrderBook 3, book.resting.map Fin.val = [0, 1, 2] ∧
    WellFormed book := by
  have played : (OrderBook.play "X" 3 [.addOrder ⟨1, 1, 5, 10, true, .limit⟩,
      .addOrder ⟨2, 2, 5, 10, true, .limit⟩, .addOrder ⟨3, 3, 5, 20, false, .limit⟩]).map
      (fun result => result.2.resting.map Fin.val) = some [0, 1, 2] := by
    decide +kernel
  obtain ⟨⟨replies, book⟩, ran, resting⟩ := Option.map_eq_some_iff.mp played
  exact ⟨book, resting, well_formed (OrderBook.reachable_of_play ran)⟩

end TradingExchange
