/-
**Orders that do not cross may arrive in any order.**

A batch of limit orders builds up the book. If no bid among book and batch reaches an ask among them,
nothing is ever matched: each order joins the line at its own price, so what a level holds in the end
is what it held, and the orders of the batch at its price as they came (`Represents.arrivals`). Two
orders of arrival that agree price by price lead to the same levels, in other slots perhaps
(`arrivals_commute`).
-/

import TradingExchange.Abstract.Laws
import TradingExchange.Refinement.Passes
import TradingExchange.Refinement.Runs

namespace TradingExchange

open Lots Ladder

variable {poolSize : UInt64} {book : OrderBook poolSize} {view : View poolSize}

/-! ### Batches -/

/-- The orders of a batch that come to rest at a price of a side, as they come. -/
def arrivalsAt (batch : List Request) (isBuySide : Bool) (price : UInt64) : List Request :=
  batch.filter fun request =>
    0 < request.size && request.isBuySide == isBuySide && request.price == price

namespace OrderBook

/-- The prices of a side, in the book and in the batch. -/
def quotes (book : OrderBook poolSize) (batch : List Request) (isBuySide : Bool) : List UInt64 :=
  (book.levels isBuySide).keys ++
    (batch.filter fun request => request.isBuySide == isBuySide).map Request.price

/-- Every bid among book and batch is below every ask among them. -/
def Apart (book : OrderBook poolSize) (batch : List Request) : Prop :=
  ∀ bid ∈ book.quotes batch true, ∀ ask ∈ book.quotes batch false, bid < ask

instance (book : OrderBook poolSize) (batch : List Request) : Decidable (book.Apart batch) :=
  decidable_of_iff ((book.quotes batch true).all fun bid =>
    (book.quotes batch false).all fun ask => bid < ask) (by simp [Apart])

/-- How many slots are free. -/
def room (book : OrderBook poolSize) : Nat :=
  (List.finRange poolSize.toNat).countP fun slot => !decide (book.InUse slot)

/-- A record without its links. -/
def unlinked (book : OrderBook poolSize) (slot : Slot poolSize) : Order (Slot poolSize) :=
  { book.order slot with listNode := {} }

end OrderBook

/-! ### Views -/

/-- The record of a lot that rests at a price of a side, without links. -/
def recordOf (symbol : String) (isBuySide : Bool) (price : UInt64)
    (lot : Lot (Ticket (Slot poolSize))) : Order (Slot poolSize) where
  orderId := lot.tag.orderId
  clientId := lot.tag.clientId
  symbol := symbol
  size := UInt32.ofNat lot.size
  price := price
  isBuySide := isBuySide
  orderType := lot.tag.orderType

/-- A record shows its lot. -/
theorem Filed.record {symbol : String} {isBuySide : Bool} {price : UInt64}
    {order : Order (Slot poolSize)} {lot : Lot (Ticket (Slot poolSize))}
    (filed : Filed symbol isBuySide price order lot) :
    { order with listNode := {} } = recordOf symbol isBuySide price lot := by
  obtain ⟨orderId, clientId, name, size, limit, side, type⟩ := filed
  cases order
  simp only at orderId clientId name size limit side type
  simp [recordOf, orderId, clientId, name, ← size, limit, side, type]

namespace View

/-- What rests at a price of a side. -/
def recordsAt (view : View poolSize) (symbol : String) (isBuySide : Bool) (price : UInt64) :
    List (Order (Slot poolSize)) :=
  (lotsAt (view.book.levels isBuySide) price).map (recordOf symbol isBuySide price)

/-- A price of a side, in the ladder or in the batch. -/
def Quoted (view : View poolSize) (batch : List Request) (isBuySide : Bool) (price : UInt64) :
    Prop :=
  price ∈ prices (view.book.levels isBuySide) ∨
    ∃ request ∈ batch, request.isBuySide = isBuySide ∧ request.price = price

/-- No price of one side reaches one of the other. -/
def Apart (view : View poolSize) (batch : List Request) : Prop :=
  ∀ isBuySide price other, view.Quoted batch isBuySide price → view.Quoted batch (!isBuySide) other →
    better (!isBuySide) price other

variable {request : Request} {batch : List Request} {slot : Slot poolSize}
  {free : List (Slot poolSize)}

/-- The first order of the batch finds nothing. -/
theorem Apart.available (apart : view.Apart (request :: batch))
    (limit : request.orderType = .limit) : view.available request = 0 := by
  refine PureBook.available_eq_zero fun other member => ?_
  have beyond : better (!request.isBuySide) request.price other :=
    apart _ _ _ (.inr ⟨request, List.mem_cons_self, rfl, rfl⟩) (.inl member)
  simp [inReach, limit, beyond]

/-- **The first order of the batch joins those at its price.** -/
theorem recordsAt_add (symbol : String) (unmatched : view.available request = 0)
    (found : view.free = slot :: free) (isBuySide : Bool) (price : UInt64) :
    (view.add request).2.recordsAt symbol isBuySide price =
      view.recordsAt symbol isBuySide price ++
        (arrivalsAt [request] isBuySide price).map (fun request => request.order symbol) := by
  rw [View.add_cons found, recordsAt, PureBook.lotsAt_add _ unmatched, List.map_append]
  refine congrArg (recordsAt view symbol isBuySide price ++ ·) ?_
  by_cases joins : 0 < request.size.toNat ∧ isBuySide = request.isBuySide ∧ price = request.price
  · obtain ⟨positive, rfl, rfl⟩ := joins
    have positive' : 0 < request.size := UInt32.lt_iff_toNat_lt.mpr positive
    simp [arrivalsAt, positive, positive', recordOf, Request.order, Request.ticket]
  · rw [dif_neg joins]
    have not : ¬ (0 < request.size ∧ request.isBuySide = isBuySide ∧ request.price = price) := by
      rintro ⟨positive, rfl, rfl⟩
      exact joins ⟨UInt32.lt_iff_toNat_lt.mp positive, rfl, rfl⟩
    have empty : arrivalsAt [request] isBuySide price = [] := by
      rw [arrivalsAt, List.filter_eq_nil_iff]
      simpa using not
    rw [empty]
    rfl

/-- Fewer quotes are apart as well. -/
theorem Apart.mono {next : View poolSize} {batch' : List Request} (apart : view.Apart batch)
    (quoted : ∀ side price, next.Quoted batch' side price → view.Quoted batch side price) :
    next.Apart batch' := fun side price other here there =>
  apart side price other (quoted side price here) (quoted _ other there)

theorem Apart.perm {batch' : List Request} (apart : view.Apart batch)
    (reordered : batch.Perm batch') : view.Apart batch' := by
  refine apart.mono fun side price quoted => ?_
  rcases quoted with inside | ⟨request, member, same⟩
  · exact .inl inside
  · exact .inr ⟨request, reordered.symm.subset member, same⟩

/-- The rest of the batch is still apart. -/
theorem Apart.step (apart : view.Apart (request :: batch)) (limit : request.orderType = .limit)
    (found : view.free = slot :: free) : (view.add request).2.Apart batch := by
  refine apart.mono fun side price quoted => ?_
  rcases quoted with inside | ⟨later, member, same⟩
  · rw [← lotsAt_ne_nil, View.add_cons found, PureBook.lotsAt_add _ (apart.available limit)] at inside
    by_cases joins : 0 < request.size.toNat ∧ side = request.isBuySide ∧ price = request.price
    · exact .inr ⟨request, List.mem_cons_self, joins.2.1.symm, joins.2.2.symm⟩
    · rw [dif_neg joins, List.append_nil, lotsAt_ne_nil] at inside
      exact .inl inside
  · exact .inr ⟨later, List.mem_cons_of_mem _ member, same⟩

end View

/-! ### Runs -/

/-- A legal call that serves no order. -/
def Call.Quiet (book : OrderBook poolSize) (call : Call poolSize) : Prop :=
  call.Legal book ∧ book.servings call = []

/-- An order that finds nothing serves no order. -/
theorem Represents.servings_eq_nil (represents : Represents book view) {request : Request}
    (unmatched : view.available request = 0) : book.servings (.addOrder request) = [] := by
  have reached : liquidity (inReach request.isBuySide request.price request.orderType)
      (view.book.levels !request.isBuySide) = 0 := unmatched
  have takes : view.takenBy (.addOrder request) = [] := by
    rw [View.takenBy, taken_eq, reached, Nat.min_zero, taken_zero]
    exact ite_self _
  exact List.map_eq_nil_iff.mp ((represents.servings _).trans takes)

/-- **A batch that does not cross adds its orders to the lines at their prices, as they come**, and
serves no order. -/
theorem Represents.arrivals (represents : Represents book view) {batch : List Request}
    (limits : ∀ request ∈ batch, request.orderType = .limit) (apart : view.Apart batch)
    (room : batch.length ≤ view.free.length) :
    ∃ (slots : List (Slot poolSize)) (after : OrderBook poolSize) (last : View poolSize),
      Run OrderBook.call Call.Quiet book (batch.map .addOrder)
        (slots.map fun slot => .order (some slot)) after ∧
      Represents after last ∧ after.symbol = book.symbol ∧
      ∀ isBuySide price, last.recordsAt book.symbol isBuySide price =
        view.recordsAt book.symbol isBuySide price ++
          (arrivalsAt batch isBuySide price).map (fun request => request.order book.symbol) := by
  induction batch generalizing book view with
  | nil =>
    refine ⟨[], book, view, .nil book, represents, rfl, fun isBuySide price => ?_⟩
    simp [arrivalsAt]
  | cons request batch ih =>
    have inhabited : view.free ≠ [] := by
      rintro full
      simp [full] at room
    obtain ⟨slot, free, found⟩ := List.exists_cons_of_ne_nil inhabited
    have limit := limits request List.mem_cons_self
    have unmatched := apart.available limit
    obtain ⟨next, added, effect⟩ := represents.addOrder request found
    have left : (view.add request).2.free = free := by
      simp [View.add_cons found, View.closes_eq_nil unmatched]
    obtain ⟨slots, after, last, run, shown, symbol, records⟩ := ih effect.represents
      (fun later member => limits later (List.mem_cons_of_mem _ member)) (apart.step limit found)
      (by rw [left]; simp [found] at room; exact room)
    have called : book.call (.addOrder request) = .ok (.order (some slot), next) := by
      rw [OrderBook.call, added]
      rfl
    have quiet : Call.Quiet book (.addOrder request) :=
      ⟨trivial, represents.servings_eq_nil unmatched⟩
    refine ⟨slot :: slots, after, last, .cons quiet called run, shown,
      symbol.trans effect.symbol, fun isBuySide price => ?_⟩
    rw [effect.symbol] at records
    have split : arrivalsAt (request :: batch) isBuySide price =
        arrivalsAt [request] isBuySide price ++ arrivalsAt batch isBuySide price :=
      List.filter_append [request] batch
    rw [records, View.recordsAt_add book.symbol unmatched found, split, List.map_append,
      List.append_assoc]

/-- What is read at a price, without links. -/
theorem Represents.readAt_unlinked (represents : Represents book view) (isBuySide : Bool)
    (price : UInt64) : book.readAt book.unlinked isBuySide price =
      if view.recordsAt book.symbol isBuySide price = [] then none
      else some (view.recordsAt book.symbol isBuySide price) := by
  rw [represents.readAt (recordOf book.symbol isBuySide price) fun lot member =>
    (represents.filed member).record, PureBook.lineAt]
  simp only [View.recordsAt, List.map_eq_nil_iff]
  split <;> rfl

/-- There is room for as many orders as the free list is long. -/
theorem Represents.room_eq (represents : Represents book view) : book.room = view.free.length := by
  rw [OrderBook.room, List.countP_eq_length_filter]
  refine List.Perm.length_eq ((List.perm_ext_iff_of_nodup ((List.nodup_finRange _).filter _)
    represents.pool.list.nodup).mpr fun slot => ?_)
  rw [List.mem_filter, Bool.not_eq_true', decide_eq_false_iff_not, represents.inUse_iff, not_not]
  exact and_iff_right (List.mem_finRange slot)

/-- What is quoted in the ladder is quoted in the map. -/
theorem Represents.mem_quotes (represents : Represents book view) {batch : List Request}
    {isBuySide : Bool} {price : UInt64} (quoted : view.Quoted batch isBuySide price) :
    price ∈ book.quotes batch isBuySide := by
  rw [OrderBook.quotes, List.mem_append, Std.ExtTreeMap.mem_keys,
    (represents.sides isBuySide).mem_iff price, List.mem_map]
  refine quoted.imp_right fun ⟨request, member, own, same⟩ => ⟨request, ?_, same⟩
  exact List.mem_filter.mpr ⟨member, beq_iff_eq.mpr own⟩

theorem Represents.batch_apart (represents : Represents book view) {batch : List Request}
    (apart : book.Apart batch) : view.Apart batch := by
  intro isBuySide price other here there
  cases isBuySide with
  | true => exact apart price (represents.mem_quotes here) other (represents.mem_quotes there)
  | false => exact apart other (represents.mem_quotes there) price (represents.mem_quotes here)

/-- **The order in which a batch arrives does not matter**, if it does not cross, beyond the order
at each price. -/
theorem arrivals_commute (reachable : book.Reachable) {batch batch' : List Request}
    (limits : ∀ request ∈ batch, request.orderType = .limit) (apart : book.Apart batch)
    (room : batch.length ≤ book.room) (reordered : batch.Perm batch')
    (agree : ∀ isBuySide price, arrivalsAt batch' isBuySide price = arrivalsAt batch isBuySide price) :
    ∃ (slots slots' : List (Slot poolSize)) (after after' : OrderBook poolSize),
      Run OrderBook.call Call.Legal book (batch.map .addOrder)
        (slots.map fun slot => .order (some slot)) after ∧
      Run OrderBook.call Call.Legal book (batch'.map .addOrder)
        (slots'.map fun slot => .order (some slot)) after' ∧
      ∀ isBuySide price, after'.readAt after'.unlinked isBuySide price =
        after.readAt after.unlinked isBuySide price := by
  obtain ⟨view, represents⟩ := reachable.represents
  have distinct := represents.batch_apart apart
  rw [represents.room_eq] at room
  obtain ⟨slots, after, last, run, shown, symbol, records⟩ :=
    represents.arrivals limits distinct room
  obtain ⟨slots', after', last', run', shown', symbol', records'⟩ :=
    represents.arrivals (fun request member => limits request (reordered.symm.subset member))
      (distinct.perm reordered) (reordered.length_eq ▸ room)
  refine ⟨slots, slots', after, after', run.mono fun _ _ quiet => quiet.1,
    run'.mono fun _ _ quiet => quiet.1, fun isBuySide price => ?_⟩
  rw [shown'.readAt_unlinked, shown.readAt_unlinked, symbol, symbol', records, records', agree]

/-- Two bids at one price and an ask arrive around each other, above a bid that rests. -/
theorem arrivals_commute_sample : ∃ (book : OrderBook 4) (slots slots' : List (Slot 4))
    (after after' : OrderBook 4), book.room = 3 ∧
    Run OrderBook.call Call.Legal book [.addOrder ⟨2, 2, 5, 10, true, .limit⟩,
      .addOrder ⟨3, 3, 6, 10, true, .limit⟩, .addOrder ⟨4, 4, 7, 12, false, .limit⟩]
      (slots.map fun slot => .order (some slot)) after ∧
    Run OrderBook.call Call.Legal book [.addOrder ⟨4, 4, 7, 12, false, .limit⟩,
      .addOrder ⟨2, 2, 5, 10, true, .limit⟩, .addOrder ⟨3, 3, 6, 10, true, .limit⟩]
      (slots'.map fun slot => .order (some slot)) after' ∧
    ∀ isBuySide price, after'.readAt after'.unlinked isBuySide price =
      after.readAt after.unlinked isBuySide price := by
  let bids : List Request := [⟨2, 2, 5, 10, true, .limit⟩, ⟨3, 3, 6, 10, true, .limit⟩]
  let ask : Request := ⟨4, 4, 7, 12, false, .limit⟩
  have played : (OrderBook.play "X" 4 [.addOrder ⟨1, 1, 5, 9, true, .limit⟩]).map (fun result =>
      (result.2.room, decide (result.2.Apart (bids ++ [ask])))) = some (3, true) := by
    decide +kernel
  obtain ⟨⟨replies, book⟩, ran, facts⟩ := Option.map_eq_some_iff.mp played
  obtain ⟨room, apart⟩ := Prod.mk.inj facts
  have agree : ∀ isBuySide price,
      arrivalsAt (ask :: bids) isBuySide price = arrivalsAt (bids ++ [ask]) isBuySide price := by
    intro isBuySide price
    cases isBuySide <;> simp [arrivalsAt, List.filter_cons, bids, ask]
  have limits : ∀ request ∈ bids ++ [ask], request.orderType = .limit := by decide
  have reordered : (bids ++ [ask]).Perm (ask :: bids) := List.perm_append_comm
  obtain ⟨slots, slots', after, after', run, run', same⟩ :=
    arrivals_commute (OrderBook.reachable_of_play ran) limits (of_decide_eq_true apart)
      (Nat.le_of_eq room.symm) reordered agree
  exact ⟨book, slots, slots', after, after', room, run, run', same⟩

end TradingExchange
