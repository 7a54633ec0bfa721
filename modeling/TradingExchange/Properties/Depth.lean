/-
**The depth that `toString` shows.**

The walk along a level adds sizes in 32 bits, so it returns the sum modulo `2^32`
(`Represents.totalSize`). A row shows the exact sum on a side if and only if that sum fits
(`depth_exact_iff`), and two resting orders are enough that it does not (`depth_wraps`).
-/

import TradingExchange.Library.Lists
import TradingExchange.Model.Depth
import TradingExchange.Refinement.Runs

namespace TradingExchange

open Lots Ladder

variable {poolSize : UInt64} {book : OrderBook poolSize} {view : View poolSize}

/-! ### The walk -/

/-- **Walking a list of orders adds their sizes, modulo `2^32`.** -/
theorem OrderBook.totalSize_chain {start : Option (Slot poolSize)} {orders : List (Slot poolSize)}
    (total : UInt32) {fuel : Nat}
    (chain : Chain some (fun slot => (book.order slot).listNode.next) none start orders)
    (enough : orders.length < fuel) :
    ∃ last, Loop.run book.totalSizePass fuel ⟨start, total⟩ = .ok last ∧
      last.totalSize.toNat = (total.toNat +
        (orders.map fun slot => (book.order slot).size.toNat).sum) % UInt32.size := by
  refine Loop.run_total List.length
    (fun orders (walk : OrderBook.SizeWalk poolSize) =>
      Chain some (fun slot => (book.order slot).listNode.next) none walk.order orders)
    (fun orders walk (last : OrderBook.SizeWalk poolSize) =>
      last.totalSize.toNat = (walk.totalSize.toNat +
        (orders.map fun slot => (book.order slot).size.toNat).sum) % UInt32.size)
    ?_ fuel orders ⟨start, total⟩ chain enough
  rintro (_ | ⟨order, orders⟩) ⟨start, total⟩ chain
  · obtain rfl : start = none := chain
    refine .inl ⟨_, rfl, ?_⟩
    rw [List.map_nil, List.sum_nil, Nat.add_zero, Nat.mod_eq_of_lt total.toNat_lt]
  · obtain ⟨rfl, rest⟩ := chain
    refine .inr ⟨orders, _, rfl, rest, Nat.lt_succ_self _, fun last reached => ?_⟩
    rw [reached, UInt32.toNat_add, List.map_cons, List.sum_cons, Nat.mod_add_mod, Nat.add_assoc]

theorem LevelShown.totalSize {isBuySide : Bool} {price : UInt64} {level : PriceLevel poolSize}
    {lots : List (Lot (Ticket (Slot poolSize)))}
    (shown : LevelShown book.orderPool book.symbol isBuySide price level lots) :
    ∃ total, book.totalSize level = .ok total ∧ total.toNat =
      ((book.ordersOf level).map fun slot => (book.order slot).size.toNat).sum % UInt32.size := by
  have chain := shown.queue.linked.forward
  rw [← shown.queue.head] at chain
  have nodup := chain.nodup (Option.some_injective _) fun item => Option.some_ne_none item
  have length := nodup.length_le_card
  rw [Fintype.card_fin] at length
  obtain ⟨last, ran, reached⟩ :=
    OrderBook.totalSize_chain 0 chain (Nat.lt_succ_of_le length)
  rw [UInt32.toNat_zero, Nat.zero_add] at reached
  exact ⟨last.totalSize, by rw [OrderBook.totalSize, ran]; rfl, shown.ordersOf ▸ reached⟩

/-! ### Rows -/

/-- **A row shows the sum of the sizes at its price, modulo `2^32`.** -/
theorem Represents.countAt (represents : Represents book view) (isBuySide : Bool)
    (price : UInt64) :
    ∃ count, book.countAt isBuySide price = .ok count ∧
      (count.getD 0).toNat = book.depthAt isBuySide price % UInt32.size := by
  rw [OrderBook.countAt, OrderBook.depthAt, OrderBook.ordersAt]
  cases found : (book.levels isBuySide)[price]? with
  | none => exact ⟨none, rfl, rfl⟩
  | some level =>
    obtain ⟨total, ran, sum⟩ := (represents.entry found).2.totalSize
    exact ⟨some total, by simp only [ran]; rfl, sum⟩

theorem Represents.rowAt (represents : Represents book view) (price : UInt64) :
    ∃ row, book.rowAt price = .ok row ∧ row.price = price ∧ ∀ isBuySide,
      (row.count isBuySide).toNat = book.depthAt isBuySide row.price % UInt32.size := by
  obtain ⟨bidCount, bids, bidSum⟩ := represents.countAt true price
  obtain ⟨askCount, asks, askSum⟩ := represents.countAt false price
  refine ⟨⟨price, bidCount, askCount⟩, by rw [OrderBook.rowAt, bids, asks]; rfl, rfl, fun side => ?_⟩
  cases side with
  | true => exact bidSum
  | false => exact askSum

theorem mem_shownPrices {price : UInt64} :
    price ∈ book.shownPrices.toList ↔ price ∈ book.bidLevels ∨ price ∈ book.askLevels := by
  rw [Std.ExtTreeSet.mem_toList, OrderBook.shownPrices, Std.ExtTreeSet.mem_insertMany_list,
    Std.ExtTreeSet.mem_insertMany_list, List.contains_iff_mem, List.contains_iff_mem,
    Std.ExtTreeMap.mem_keys, Std.ExtTreeMap.mem_keys]
  simp only [Std.ExtTreeSet.not_mem_empty, false_or]

/-- **A row shows the exact depth of a side exactly if the depth is below `2^32`.** There is one row
for each price of the book, highest price first. -/
theorem depth_exact_iff (reachable : book.Reachable) :
    ∃ text, book.toString = .ok text ∧
      (text.rows.map DepthRow.price).Pairwise (· > ·) ∧
      (∀ price, price ∈ text.rows.map DepthRow.price ↔
        price ∈ book.bidLevels ∨ price ∈ book.askLevels) ∧
      ∀ row ∈ text.rows, ∀ isBuySide,
        (row.count isBuySide).toNat = book.depthAt isBuySide row.price ↔
          book.depthAt isBuySide row.price < UInt32.size := by
  obtain ⟨view, represents⟩ := reachable.represents
  obtain ⟨rows, ran, prices, counts⟩ := mapM_ok represents.rowAt book.shownPrices.toList
  refine ⟨⟨book.symbol, rows, _⟩, by rw [OrderBook.toString, ran]; rfl, ?_, fun price => ?_,
    fun row member side => ?_⟩
  · rw [prices]
    exact Std.ExtTreeSet.ordered_toList.imp fun less => Std.compare_eq_lt.mp less
  · rw [prices, mem_shownPrices]
  · rw [counts row member side]
    exact ⟨fun same => same ▸ Nat.mod_lt _ (by decide), Nat.mod_eq_of_lt⟩

/-- Bids of 5 and 6 at one price beside an ask of 7. -/
theorem depth_exact_iff_sample : ∃ book : OrderBook 3, book.depthAt true 10 = 11 ∧
    ∃ text, book.toString = .ok text ∧ ∃ row ∈ text.rows, row.price = 10 ∧ row.count true = 11 := by
  have played : (OrderBook.play "X" 3 [.addOrder ⟨1, 1, 5, 10, true, .limit⟩,
      .addOrder ⟨2, 2, 7, 20, false, .limit⟩, .addOrder ⟨3, 3, 6, 10, true, .limit⟩]).map
        (fun result => (result.2.depthAt true 10, decide (10 ∈ result.2.bidLevels))) =
      some (11, true) := by
    decide +kernel
  obtain ⟨⟨replies, book⟩, ran, facts⟩ := Option.map_eq_some_iff.mp played
  obtain ⟨depth, inside⟩ := Prod.mk.inj facts
  obtain ⟨text, shown, -, prices, exact⟩ := depth_exact_iff (OrderBook.reachable_of_play ran)
  obtain ⟨row, member, price⟩ :=
    List.mem_map.mp ((prices 10).mpr (.inl (of_decide_eq_true inside)))
  have count := exact row member true
  rw [price, show book.depthAt true 10 = 11 from depth] at count
  exact ⟨book, depth, text, shown, row, member, price, UInt32.toNat_inj.mp (count.mpr (by decide))⟩

/-- Two bids of `2^31` at one price are shown as nothing. -/
theorem depth_wraps : ∃ book : OrderBook 2, book.Reachable ∧ ∃ text, book.toString = .ok text ∧
    text.rows = [⟨10, some 0, none⟩] ∧ book.depthAt true 10 = 4294967296 := by
  have played : (OrderBook.play "X" 2 [.addOrder ⟨1, 1, 2147483648, 10, true, .limit⟩,
      .addOrder ⟨2, 2, 2147483648, 10, true, .limit⟩]).map (fun result =>
        (result.2.toString.toOption.map BookText.rows, result.2.depthAt true 10)) =
      some (some [⟨10, some 0, none⟩], 4294967296) := by
    decide +kernel
  obtain ⟨⟨replies, book⟩, ran, both⟩ := Option.map_eq_some_iff.mp played
  obtain ⟨shown, depth⟩ := Prod.mk.inj both
  obtain ⟨text, returned, rows⟩ := Option.map_eq_some_iff.mp shown
  exact ⟨book, OrderBook.reachable_of_play ran, text, ok_of_toOption returned, rows, depth⟩

end TradingExchange
