/-
**Calls of a book, and what can be read from it.**

`OrderBook.call` is the public interface as one step: a call gives a reply and a book, or faults.
The readers follow the memory as a client of `getBidLevels()` and `getAskLevels()` does: a level is
read from `head()` along `list_node.next`.

A call is `Legal` if a cancelled order is resting at that moment; the other calls are always legal.
`Reachable` are the books that runs of legal calls lead to from a fresh one.
-/

import TradingExchange.Library.Run
import TradingExchange.Model.OrderBook

namespace TradingExchange

variable {poolSize : UInt64}

/-- The arguments of `addOrder`. -/
structure Request where
  orderId : UInt64
  clientId : UInt64
  size : UInt32
  price : UInt64
  isBuySide : Bool
  orderType : OrderType
deriving DecidableEq, Repr

/-- `addOrder` with these arguments. -/
def Request.addTo (request : Request) (book : OrderBook poolSize) :
    Except Fault (Option (Slot poolSize) × OrderBook poolSize) :=
  book.addOrder request.orderId request.clientId request.size request.price request.isBuySide
    request.orderType

/-- The record `addOrder` constructs. -/
def Request.order {Item : Type} (request : Request) (symbol : String) : Order Item where
  orderId := request.orderId
  clientId := request.clientId
  symbol := symbol
  size := request.size
  price := request.price
  isBuySide := request.isBuySide
  orderType := request.orderType

/-- What tells an order from others, besides its price, side and size. -/
@[ext]
structure Ticket (Ref : Type) where
  ref : Ref
  orderId : UInt64
  clientId : UInt64
  orderType : OrderType
deriving DecidableEq, Repr

/-- The ticket of an order that came with this request. -/
def Request.ticket {Ref : Type} (request : Request) (ref : Ref) : Ticket Ref :=
  ⟨ref, request.orderId, request.clientId, request.orderType⟩

/-- A call: `addOrder`, `cancelOrder`, or `matchBidOrder` and `matchAskOrder` by side. -/
inductive Call (poolSize : UInt64) where
  | addOrder (request : Request)
  | cancelOrder (order : Slot poolSize)
  | matchOrder (isBuySide : Bool) (price : UInt64) (size : UInt32) (type : OrderType)
      (totalMatched : UInt32)
deriving DecidableEq, Repr

/-- What a call returns. -/
inductive Reply (poolSize : UInt64) where
  | order (slot : Option (Slot poolSize))
  | cancelled
  | matched (total : UInt32)
deriving DecidableEq, Repr

namespace OrderBook

/-- `matchBidOrder` for the buy side, `matchAskOrder` for the other. -/
def matchOrder (book : OrderBook poolSize) (isBuySide : Bool) (price : UInt64) (size : UInt32)
    (type : OrderType) (totalMatched : UInt32) : Except Fault (BookMatch poolSize) :=
  if isBuySide then book.matchBidOrder price size type totalMatched
  else book.matchAskOrder price size type totalMatched

/-- One call. -/
def call (book : OrderBook poolSize) :
    Call poolSize → Except Fault (Reply poolSize × OrderBook poolSize)
  | .addOrder request => (request.addTo book).map fun (slot, book) => (.order slot, book)
  | .cancelOrder order => .ok (.cancelled, book.cancelOrder (some order))
  | .matchOrder isBuySide price size type totalMatched =>
    (book.matchOrder isBuySide price size type totalMatched).map fun result =>
      (.matched result.totalMatched, result.book)

/-! ### Reading a book -/

/-- The orders of a level from its head on. No list of distinct slots is longer than the pool. -/
def ordersOf (book : OrderBook poolSize) (level : PriceLevel poolSize) : List (Slot poolSize) :=
  follow (fun slot => (book.order slot).listNode.next) poolSize.toNat level.head

/-- The level at a price, if there is one, order by order. -/
def readAt {Shown : Type} (book : OrderBook poolSize) (read : Slot poolSize → Shown)
    (isBuySide : Bool) (price : UInt64) : Option (List Shown) :=
  (book.levels isBuySide)[price]?.map fun level => (book.ordersOf level).map read

/-- The orders that rest at a price of a side, from the head of the level on. -/
def ordersAt (book : OrderBook poolSize) (isBuySide : Bool) (price : UInt64) :
    List (Slot poolSize) :=
  ((book.levels isBuySide)[price]?.map book.ordersOf).getD []

/-- The levels of a side, best price first. -/
def bestFirst (book : OrderBook poolSize) (isBuySide : Bool) :
    List (UInt64 × PriceLevel poolSize) :=
  if isBuySide then (book.levels true).toList.reverse else (book.levels false).toList

/-- The orders of a side, level by level in the order of the map. -/
def restingOn (book : OrderBook poolSize) (isBuySide : Bool) : List (Slot poolSize) :=
  (book.levels isBuySide).toList.flatMap fun entry => book.ordersOf entry.2

/-- The orders that are linked in some level. -/
def resting (book : OrderBook poolSize) : List (Slot poolSize) :=
  book.restingOn true ++ book.restingOn false

/-- The slot holds an object. -/
def InUse (book : OrderBook poolSize) (slot : Slot poolSize) : Prop :=
  (book.orderPool.store slot).isFreeOrInUse = false

instance (book : OrderBook poolSize) : DecidablePred book.InUse := fun _ =>
  inferInstanceAs (Decidable (_ = _))

end OrderBook

/-- A cancelled order must be resting. -/
def Call.Legal (book : OrderBook poolSize) : Call poolSize → Prop
  | .cancelOrder order => order ∈ book.resting
  | _ => True

instance (book : OrderBook poolSize) : DecidablePred (Call.Legal book)
  | .addOrder _ => inferInstanceAs (Decidable True)
  | .cancelOrder order => inferInstanceAs (Decidable (order ∈ book.resting))
  | .matchOrder .. => inferInstanceAs (Decidable True)

/-- Make calls on a fresh book, if each is legal in its turn. -/
def OrderBook.play (symbol : String) (poolSize : UInt64) (calls : List (Call poolSize)) :
    Option (List (Reply poolSize) × OrderBook poolSize) :=
  (OrderBook.new symbol poolSize).bind fun book => execute OrderBook.call Call.Legal book calls

/-- The books that legal calls lead to. -/
def OrderBook.Reachable (book : OrderBook poolSize) : Prop :=
  ∃ symbol fresh calls replies, OrderBook.new symbol poolSize = some fresh ∧
    Run OrderBook.call Call.Legal fresh calls replies book

theorem OrderBook.reachable_of_play {symbol : String} {calls : List (Call poolSize)}
    {replies : List (Reply poolSize)} {book : OrderBook poolSize}
    (played : OrderBook.play symbol poolSize calls = some (replies, book)) : book.Reachable := by
  obtain ⟨fresh, new, ran⟩ := Option.bind_eq_some_iff.mp played
  exact ⟨symbol, fresh, calls, replies, new, .of_execute ran⟩

end TradingExchange
