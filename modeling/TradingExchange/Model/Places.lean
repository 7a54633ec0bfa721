/-
**Calls by place.**

A client that reads a book finds an order by its place: the side, the price and the position in the
line there. A `PlacedCall` names the order to cancel so, and goes to books of any pool; what comes
back is what the book logs, and what a direct match call returns. Nothing of it names a slot.
-/

import TradingExchange.Model.Log

namespace TradingExchange

variable {poolSize : UInt64}

/-- A call, the order to cancel named by its place. -/
inductive PlacedCall where
  | addOrder (request : Request)
  | cancelOrder (isBuySide : Bool) (price : UInt64) (position : Nat)
  | matchOrder (isBuySide : Bool) (price : UInt64) (size : UInt32) (type : OrderType)
      (totalMatched : UInt32)
deriving DecidableEq, Repr

/-- The total that a direct match call returns. -/
def Reply.total : Reply poolSize → Option UInt32
  | .matched total => some total
  | _ => none

/-- A record without links. -/
def Order.bare {Item : Type} (order : Order Item) : Order Unit where
  orderId := order.orderId
  clientId := order.clientId
  symbol := order.symbol
  size := order.size
  price := order.price
  isBuySide := order.isBuySide
  orderType := order.orderType

namespace OrderBook

variable (book : OrderBook poolSize)

/-- The record in a slot, without links. -/
def entry (slot : Slot poolSize) : Order Unit := (book.order slot).bare

/-- The call that is meant, unless nothing rests at the place. -/
def placed : PlacedCall → Option (Call poolSize)
  | .addOrder request => some (.addOrder request)
  | .cancelOrder isBuySide price position =>
    (book.ordersAt isBuySide price)[position]?.map .cancelOrder
  | .matchOrder isBuySide price size type totalMatched =>
    some (.matchOrder isBuySide price size type totalMatched)

/-- A call, with what it logs and what it returns. -/
def callTold (call : Call poolSize) :
    Except Fault ((List LogLine × Option UInt32) × OrderBook poolSize) :=
  (book.call call).map fun (reply, after) => ((book.log call, reply.total), after)

/-- A call by place. Where nothing rests, the null pointer is cancelled. -/
def callPlaced (call : PlacedCall) :
    Except Fault ((List LogLine × Option UInt32) × OrderBook poolSize) :=
  match book.placed call with
  | none => .ok (([], none), book.cancelOrder none)
  | some call => book.callTold call

end OrderBook

/-- An order that is added finds a free slot. -/
def PlacedCall.Accepted (book : OrderBook poolSize) : PlacedCall → Prop
  | .addOrder request => (book.orderPool.allocate (request.order book.symbol)).1.isSome = true
  | _ => True

instance (book : OrderBook poolSize) : DecidablePred (PlacedCall.Accepted book)
  | .addOrder _ => inferInstanceAs (Decidable (_ = _))
  | .cancelOrder .. => inferInstanceAs (Decidable True)
  | .matchOrder .. => inferInstanceAs (Decidable True)

end TradingExchange
