/-
**A book can be rebuilt from the orders that rest in it.**

The orders of a book, sent to a fresh one as limit orders with what is left of their sizes, are all
accepted and match nothing (`Call.Quiet`): the book they came from was not crossed. They may be sent
in any order that keeps each line as it is. The fresh book then reads as the old one, and prints as
it (`rebuild`); the pool has to be no larger than the number of orders.

They are sent as limit orders because an order that was sent as a market order may rest too, and it
would match anything on the other side if it were sent as one again.
-/

import TradingExchange.Properties.Alike
import TradingExchange.Properties.Arrivals

namespace TradingExchange

open Lots Ladder

variable {poolSize poolSize' : UInt64} {book : OrderBook poolSize} {view : View poolSize}

/-- The limit order that would rest as this one does. -/
def Order.request {Item : Type} (order : Order Item) : Request where
  orderId := order.orderId
  clientId := order.clientId
  size := order.size
  price := order.price
  isBuySide := order.isBuySide
  orderType := .limit

/-- A record as that of a limit order. -/
def Order.limited {Item : Type} (order : Order Item) : Order Item := { order with orderType := .limit }

namespace OrderBook

variable (book : OrderBook poolSize)

/-- The limit order that would rest as the one in a slot does. -/
def request (slot : Slot poolSize) : Request := (book.order slot).request

/-- The record in a slot, without links, as that of a limit order. -/
def limited (slot : Slot poolSize) : Order Unit := (book.entry slot).limited

end OrderBook

/-! ### Lots -/

section Lots

variable {Ref Other : Type} {symbol : String} {isBuySide : Bool} {price : UInt64}

/-- What a record shows of a lot, as that of a limit order. -/
def Lot.limited (symbol : String) (isBuySide : Bool) (price : UInt64) (lot : Lot (Ticket Ref)) :
    Order Unit := (lot.entry symbol isBuySide price).limited

theorem Lots.total_eq {lots : List (Lot (Ticket Ref))} (fits : Fits lots) :
    (lots.map fun lot => (lot.limited symbol isBuySide price).size.toNat).sum = total lots := by
  refine congrArg List.sum (List.map_congr_left fun lot member => ?_)
  exact UInt32.toNat_ofNat_of_lt' (fits lot member)

/-- Lines that show the same limit orders have the same total. -/
theorem Lots.total_congr {lots : List (Lot (Ticket Ref))} {lots' : List (Lot (Ticket Other))}
    (fits : Fits lots) (fits' : Fits lots')
    (same : lots'.map (Lot.limited symbol isBuySide price) =
      lots.map (Lot.limited symbol isBuySide price)) : total lots' = total lots := by
  have sizes := congrArg (fun orders => (orders.map fun order => order.size.toNat).sum) same
  simp only [List.map_map] at sizes
  exact (total_eq fits').symm.trans (sizes.trans (total_eq fits))

end Lots

namespace Represents

theorem request (represents : Represents book view) {isBuySide : Bool} {price : UInt64}
    {lot : Lot (Ticket (Slot poolSize))} (member : lot ∈ lotsAt (view.book.levels isBuySide) price) :
    ((book.request lot.tag.ref).order book.symbol : Order (Slot poolSize')).bare =
      lot.limited book.symbol isBuySide price := by
  have filed := (represents.filed member).entry
  have shown : (book.entry lot.tag.ref).limited = lot.limited book.symbol isBuySide price :=
    congrArg Order.limited filed
  have symbol : (book.order lot.tag.ref).symbol = book.symbol := (represents.filed member).symbol
  rw [← shown, ← symbol]
  rfl

/-- The limit orders that are read at a price. -/
theorem limited (represents : Represents book view) (isBuySide : Bool) (price : UInt64) :
    book.readAt book.limited isBuySide price =
      (view.book.lineAt isBuySide price).map (List.map (Lot.limited book.symbol isBuySide price)) :=
  represents.readAt _ fun _ member => congrArg Order.limited (represents.filed member).entry

/-- **The orders of a book do not cross**, sent to a fresh book. -/
theorem residue_apart (represents : Represents book view) {batch : List Request}
    (all : batch ⊆ book.resting.map book.request) : (View.fresh poolSize').Apart batch := by
  have listed : ∀ side price, (View.fresh poolSize').Quoted batch side price →
      price ∈ prices (view.book.levels side) := by
    intro side price quoted
    rcases quoted with inside | ⟨request, member, rfl, rfl⟩
    · exact absurd inside List.not_mem_nil
    · obtain ⟨slot, resting, rfl⟩ := List.mem_map.mp (all member)
      obtain ⟨side, price, lot, found, rfl⟩ :=
        View.exists_lot ((represents.mem_resting slot).mp resting)
      have filed := represents.filed found
      have here : (book.request lot.tag.ref).price = price := filed.price
      have own : (book.request lot.tag.ref).isBuySide = side := filed.isBuySide
      rw [here, own]
      exact lotsAt_ne_nil.mp (List.ne_nil_of_mem found)
  exact fun side price other here there =>
    view.book.uncrossed side price (listed side price here) other (listed _ other there)

/-- What is read at a price, and printed, where one book shows the limit orders of another. -/
theorem rebuilt (represents : Represents book view) {after : OrderBook poolSize'}
    {last : View poolSize'} (shown : Represents after last) (symbol : after.symbol = book.symbol)
    (same : ∀ isBuySide price,
      (lotsAt (last.book.levels isBuySide) price).map (Lot.entry book.symbol isBuySide price) =
        (lotsAt (view.book.levels isBuySide) price).map (Lot.limited book.symbol isBuySide price)) :
    (∀ isBuySide price,
      after.readAt after.entry isBuySide price = book.readAt book.limited isBuySide price) ∧
      after.text = book.text := by
  have empty : ∀ isBuySide price, lotsAt (last.book.levels isBuySide) price = [] ↔
      lotsAt (view.book.levels isBuySide) price = [] := by
    intro isBuySide price
    rw [← List.map_eq_nil_iff, same, List.map_eq_nil_iff]
  have counts : ∀ isBuySide price, after.countAt isBuySide price = book.countAt isBuySide price := by
    intro isBuySide price
    have limited := congrArg (List.map Order.limited) (same isBuySide price)
    rw [List.map_map, List.map_map] at limited
    have total := Lots.total_congr (fun lot member => (represents.filed member).fits)
      (fun lot member => (shown.filed member).fits) limited
    rw [shown.countAt_eq, represents.countAt_eq, PureBook.lineAt, PureBook.lineAt]
    simp only [empty]
    split
    · rfl
    · exact congrArg (fun total => Except.ok (some (UInt32.ofNat total))) total
  refine ⟨fun isBuySide price => ?_, ?_⟩
  · rw [shown.entries, represents.limited, symbol, PureBook.lineAt, PureBook.lineAt]
    simp only [empty]
    split
    · rfl
    · exact congrArg some (same isBuySide price)
  · rw [OrderBook.text, OrderBook.text, OrderBook.toString_congr symbol counts]

end Represents

/-- **A fresh book that is sent the orders of a book reads and prints as that book**, and on the way
no call serves an order. -/
theorem rebuild (reachable : book.Reachable) {batch : List Request}
    (all : batch.Perm (book.resting.map book.request))
    (lines : ∀ isBuySide price,
      arrivalsAt batch isBuySide price = (book.ordersAt isBuySide price).map book.request)
    {fresh : OrderBook poolSize'} (new : OrderBook.new book.symbol poolSize' = some fresh)
    (room : batch.length ≤ poolSize'.toNat) :
    ∃ (slots : List (Slot poolSize')) (after : OrderBook poolSize'),
      Run OrderBook.call Call.Quiet fresh (batch.map .addOrder)
        (slots.map fun slot => .order (some slot)) after ∧
      (∀ isBuySide price,
        after.readAt after.entry isBuySide price = book.readAt book.limited isBuySide price) ∧
      after.text = book.text := by
  obtain ⟨view, represents⟩ := reachable.represents
  have limits : ∀ request ∈ batch, request.orderType = .limit := by
    intro request member
    obtain ⟨slot, -, rfl⟩ := List.mem_map.mp (all.subset member)
    rfl
  have free : (View.fresh poolSize').free.length = poolSize'.toNat := List.length_finRange
  obtain ⟨slots, after, last, run, shown, symbol, records⟩ :=
    (represents_new new).arrivals limits (represents.residue_apart all.subset) (free ▸ room)
  have named : fresh.symbol = book.symbol := OrderBook.symbol_new new
  rw [named] at symbol records
  refine ⟨slots, after, run, represents.rebuilt shown symbol fun isBuySide price => ?_⟩
  have shows := congrArg (List.map Order.bare) (records isBuySide price)
  have nothing : (View.fresh poolSize').recordsAt book.symbol isBuySide price = [] := rfl
  rw [nothing, lines, represents.ordersAt, refs_eq, List.nil_append, View.recordsAt, List.map_map,
    List.map_map, List.map_map, List.map_map] at shows
  refine shows.trans (List.map_congr_left fun lot member => ?_)
  exact represents.request member

/-- Two bids, of which one is partly filled, and a market order that rests are sent to a pool that is
just large enough. -/
theorem rebuild_sample : ∃ (book : OrderBook 4) (fresh after : OrderBook 3)
    (batch : List Request) (slots : List (Slot 3)),
    batch.map Request.size = [3, 6, 7] ∧
      Run OrderBook.call Call.Quiet fresh (batch.map .addOrder)
        (slots.map fun slot => .order (some slot)) after ∧
      after.readAt after.entry true 10 = book.readAt book.limited true 10 ∧
      after.text = book.text := by
  let bids : List Request := [⟨1, 1, 3, 10, true, .limit⟩, ⟨2, 2, 7, 10, true, .limit⟩]
  let ask : Request := ⟨4, 4, 6, 12, false, .limit⟩
  let batch : List Request := [⟨1, 1, 3, 10, true, .limit⟩, ask, ⟨2, 2, 7, 10, true, .limit⟩]
  let calls : List (Call 4) := [.addOrder ⟨4, 4, 6, 12, false, .market⟩,
    .addOrder ⟨1, 1, 5, 10, true, .limit⟩, .addOrder ⟨2, 2, 7, 10, true, .limit⟩,
    .addOrder ⟨3, 3, 2, 10, false, .limit⟩]
  have played : (OrderBook.play "X" 4 calls).map (fun result =>
      ([(result.2.levels true).keys, (result.2.levels false).keys], result.2.symbol,
        [result.2.resting.map result.2.request, (result.2.ordersAt true 10).map result.2.request,
          (result.2.ordersAt false 12).map result.2.request])) =
      some ([[10], [12]], "X", [bids ++ [ask], bids, [ask]]) := by
    decide +kernel
  obtain ⟨⟨replies, book⟩, ran, facts⟩ := Option.map_eq_some_iff.mp played
  simp only [Prod.mk.injEq, List.cons.injEq, and_true] at facts
  obtain ⟨⟨keys, keys'⟩, symbol, all, lines, lines'⟩ := facts
  have missing : ∀ isBuySide price, price ∉ (book.levels isBuySide).keys →
      book.ordersAt isBuySide price = [] := by
    intro isBuySide price missing
    rw [Std.ExtTreeMap.mem_keys] at missing
    rw [OrderBook.ordersAt, Std.ExtTreeMap.getElem?_eq_none missing]
    rfl
  have agree : ∀ isBuySide price,
      arrivalsAt batch isBuySide price = (book.ordersAt isBuySide price).map book.request := by
    intro isBuySide price
    cases isBuySide with
    | true =>
      by_cases here : price = 10
      · subst here
        rw [lines]
        decide
      · rw [missing true price (keys ▸ fun member => here (List.mem_singleton.mp member))]
        simp [arrivalsAt, batch, ask, Ne.symm here]
    | false =>
      by_cases here : price = 12
      · subst here
        rw [lines']
        decide
      · rw [missing false price (keys' ▸ fun member => here (List.mem_singleton.mp member))]
        simp [arrivalsAt, batch, ask, Ne.symm here]
  have reordered : batch.Perm (book.resting.map book.request) := by
    rw [all]
    decide
  obtain ⟨fresh, new⟩ : ∃ fresh, OrderBook.new book.symbol 3 = some fresh := ⟨_, rfl⟩
  obtain ⟨slots, after, run, same, text⟩ :=
    rebuild (OrderBook.reachable_of_play ran) reordered agree new (by decide)
  exact ⟨book, fresh, after, batch, slots, rfl, run, same true 10, text⟩

end TradingExchange
