/-
**Orders.**

`Order` is the record the source keeps in a pool slot, its intrusive `list_node` included. Sizes are
32-bit and prices 64-bit, as in the source. What `toString` prints of an order is in `Log`, and the
text itself in `Format`.
-/

import TradingExchange.Model.IntrusiveQueue

namespace TradingExchange

/-- `OrderType`. -/
inductive OrderType where
  | limit
  | market
deriving DecidableEq, Repr

/-- `Order`. -/
structure Order (Item : Type) where
  orderId : UInt64
  clientId : UInt64
  symbol : String
  size : UInt32 := 0
  price : UInt64 := 0
  isBuySide : Bool := false
  orderType : OrderType
  listNode : Node Item := {}
deriving DecidableEq, Repr

namespace Order

variable {Item : Type}

/-- Remove up to `amount`; the first component is the amount that was removed. -/
def decreaseSize (order : Order Item) (amount : UInt32) : UInt32 × Order Item :=
  if amount ≥ order.size then (order.size, { order with size := 0 })
  else (amount, { order with size := order.size - amount })

end Order

end TradingExchange
