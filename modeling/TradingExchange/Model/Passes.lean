/-
**The matching loops, pass by pass.**

What the loops of `matchAtLevel`, `matchBidOrder` and `matchAskOrder` do on the way is not in their
results: which order a pass serves, what it works out for it and whether that closes it (`Serving`),
and which level an outer pass enters. The states are those in which the passes of the loops
themselves begin (`Loop.visited`), with the fuel the loops have.

A call runs at most one matching loop: `addOrder` in the book that its `allocate` leaves. What it
fills and what it deallocates are read from its servings, in order.
-/

import TradingExchange.Model.Calls

namespace TradingExchange

variable {poolSize : UInt64}

open OrderBook

/-- The orders that a level links in the memory of a pool, from its head on. -/
def OrderBook.linkedIn (orderPool : OrderPool poolSize) (level : PriceLevel poolSize) :
    List (Slot poolSize) :=
  follow (fun slot => (orderPool.deref slot).listNode.next) poolSize.toNat level.head

/-! ### The loop of `matchAtLevel` -/

/-- What a pass works out before it writes. -/
structure Serving (poolSize : UInt64) where
  order : Slot poolSize
  amountToMatch : UInt32
  matched : UInt32
  reduced : Order (Slot poolSize)

namespace Serving

variable (serving : Serving poolSize)

/-- The pool with the reduced record. -/
def write (orderPool : OrderPool poolSize) : OrderPool poolSize :=
  orderPool.write serving.order serving.reduced

/-- `order->size == 0`: the order is removed and deallocated. -/
def closes : Bool := serving.reduced.size == 0

/-- What the pass leaves. -/
def next (state : LevelMatch poolSize) : LevelMatch poolSize :=
  let orderPool := serving.write state.orderPool
  let totalMatched := state.totalMatched + serving.matched
  if serving.closes then
    let (level, orderPool) := state.level.remove orderPool serving.order
    ⟨level, orderPool.deallocate serving.order, totalMatched⟩
  else ⟨state.level, orderPool, totalMatched⟩

end Serving

namespace OrderBook.LevelMatch

variable (size : UInt32) (state : LevelMatch poolSize)

/-- `!level.empty() && total_matched < size`. -/
def goes : Bool := !state.level.empty && state.totalMatched < size

/-- What a pass in this state works out for an order. -/
def serve (order : Slot poolSize) : Serving poolSize :=
  let amountToMatch := size - state.totalMatched
  let (matched, reduced) := (state.orderPool.deref order).decreaseSize amountToMatch
  ⟨order, amountToMatch, matched, reduced⟩

/-- What the pass in this state works out, unless `peek()` is null. -/
def serving : Option (Serving poolSize) := state.level.peek.map (state.serve size)

/-- What the pass in this state serves. -/
def served : Option (Serving poolSize) := if state.goes size then state.serving size else none

/-- The states of `matchAtLevel` called in this state. -/
def visited : List (LevelMatch poolSize) :=
  Loop.visited (matchAtLevelPass size) (state.level.size.toNat + 2) state

/-- What `matchAtLevel` serves, in order. -/
def servings : List (Serving poolSize) := (state.visited size).filterMap (served size)

end OrderBook.LevelMatch

/-! ### The loop of `matchBidOrder` and `matchAskOrder` -/

/-- A call of `matchBidOrder` or `matchAskOrder`. -/
structure Matching (poolSize : UInt64) where
  book : OrderBook poolSize
  isBuySide : Bool
  price : UInt64
  size : UInt32
  type : OrderType
  totalMatched : UInt32

namespace Matching

variable (matching : Matching poolSize)

/-- What the call gives. -/
def result : Except Fault (BookMatch poolSize) :=
  matching.book.matchOrder matching.isBuySide matching.price matching.size matching.type
    matching.totalMatched

/-- The entry of the other side that a pass takes. -/
def best (book : OrderBook poolSize) : Option (UInt64 × PriceLevel poolSize) :=
  if matching.isBuySide then begin book.askLevels else rbegin book.bidLevels

/-- A price past the limit. -/
def beyond (first : UInt64) : Bool :=
  if matching.isBuySide then first > matching.price else first < matching.price

/-- One pass of the loop. -/
def pass : BookMatch poolSize → Except Fault (Loop.Pass (BookMatch poolSize)) :=
  if matching.isBuySide then matchPass false begin matching.beyond matching.size matching.type
  else matchPass true rbegin matching.beyond matching.size matching.type

/-- The states of the loop. -/
def visited : List (BookMatch poolSize) :=
  Loop.visited matching.pass ((matching.book.levels !matching.isBuySide).size + 1)
    ⟨matching.book, matching.totalMatched⟩

/-- The call of `matchAtLevel` that the pass in this state makes, with the price of the level. -/
def enters (state : BookMatch poolSize) : Option (UInt64 × LevelMatch poolSize) :=
  if state.totalMatched < matching.size then
    match matching.best state.book with
    | none => none
    | some (price, level) =>
      if matching.type == .limit && matching.beyond price then none
      else some (price, ⟨level, state.book.orderPool, state.totalMatched⟩)
  else none

/-- What the pass in this state serves. -/
def served (state : BookMatch poolSize) : List (Serving poolSize) :=
  match matching.enters state with
  | none => []
  | some (_, start) => start.servings matching.size

/-- What the call serves, in order. -/
def servings : List (Serving poolSize) := matching.visited.flatMap matching.served

end Matching

/-! ### Calls -/

/-- The order that a call cancels, and deallocates. -/
def Call.cancelled : Call poolSize → List (Slot poolSize)
  | .cancelOrder order => [order]
  | _ => []

namespace OrderBook

variable (book : OrderBook poolSize)

/-- The matching that a call does. -/
def matching : Call poolSize → Option (Matching poolSize)
  | .addOrder request =>
    match book.orderPool.allocate (request.order book.symbol) with
    | (none, _) => none
    | (some _, orderPool) => some {
        book := { book with orderPool := orderPool }
        isBuySide := request.isBuySide
        price := request.price
        size := request.size
        type := request.orderType
        totalMatched := 0 }
  | .cancelOrder _ => none
  | .matchOrder isBuySide price size type totalMatched =>
    some ⟨book, isBuySide, price, size, type, totalMatched⟩

/-- What a call serves, in order. -/
def servings (call : Call poolSize) : List (Serving poolSize) :=
  ((book.matching call).map Matching.servings).getD []

/-- The slots that a call deallocates, in order. -/
def deallocations (call : Call poolSize) : List (Slot poolSize) :=
  ((book.servings call).filter Serving.closes).map Serving.order ++ call.cancelled

/-- What a call fills of an order. -/
def fills (call : Call poolSize) (slot : Slot poolSize) : Nat :=
  (((book.servings call).filter fun serving => serving.order = slot).map
    fun serving => serving.matched.toNat).sum

/-- What a call matches in all. -/
def matched (call : Call poolSize) : Nat :=
  ((book.servings call).map fun serving => serving.matched.toNat).sum

end OrderBook

end TradingExchange
