/-
**The generator of random orders.**

`RandomOrderDataGenerator` draws ids, sizes and prices of orders. What its methods keep in static
variables is its state; what they draw from the distributions is an argument, and a draw of
`uniform_int_distribution` lies in the interval of the distribution. The engines and their seeds are
left out.
-/

import TradingExchange.Model.Calls

namespace TradingExchange

/-- What `generate_random_size` draws. -/
structure SizeDraw where
  fractional : Bool
  fracVal : UInt32
  whole : UInt32
  fracVal_ge : 1 ≤ fracVal := by decide
  fracVal_le : fracVal ≤ 3 := by decide
  whole_ge : 1 ≤ whole := by decide
  whole_le : whole ≤ 100 := by decide

/-- What `generate_random_price` draws. -/
structure PriceDraw where
  cluster : Bool
  offset : Int64
  wide : UInt64
  round : Bool
  offset_ge : -300 ≤ offset := by decide
  offset_le : offset ≤ 300 := by decide
  wide_ge : 10000 ≤ wide := by decide
  wide_le : wide ≤ 20000 := by decide

/-- `generate_random_size`. -/
def generateRandomSize (draw : SizeDraw) : UInt32 :=
  if draw.fractional then draw.fracVal * 250 else draw.whole * 1000

/-- The static variables. -/
structure RandomOrderDataGenerator where
  currentId : UInt64 := 1
  lastPrice : UInt64 := 15000

/-- What one iteration of `main` draws. -/
structure Drawn where
  clientId : UInt64
  size : SizeDraw
  price : PriceDraw
  isBuySide : Bool
  orderType : OrderType
  indexToCancel : Option Nat := none

namespace RandomOrderDataGenerator

variable (generator : RandomOrderDataGenerator)

/-- `get_next_order_id`. -/
def getNextOrderId : UInt64 × RandomOrderDataGenerator :=
  (generator.currentId, { generator with currentId := generator.currentId + 1 })

/-- The price before it is rounded. -/
def move (draw : PriceDraw) : UInt64 :=
  if draw.cluster then
    if draw.offset < 0 ∧ (-draw.offset).toUInt64 ≥ generator.lastPrice then 100
    else generator.lastPrice + draw.offset.toUInt64
  else draw.wide

/-- `generate_random_price`. -/
def generateRandomPrice (draw : PriceDraw) : UInt64 × RandomOrderDataGenerator :=
  let lastPrice := generator.move draw
  let lastPrice := if draw.round then ((lastPrice + 50) / 100) * 100 else lastPrice
  let lastPrice := if lastPrice < 100 then 100 else lastPrice
  (lastPrice, { generator with lastPrice := lastPrice })

/-- The order that an iteration of `main` adds. -/
def request (drawn : Drawn) : Request × RandomOrderDataGenerator :=
  let (orderId, generator) := generator.getNextOrderId
  let size := generateRandomSize drawn.size
  let (price, generator) := generator.generateRandomPrice drawn.price
  (⟨orderId, drawn.clientId, size, price, drawn.isBuySide, drawn.orderType⟩, generator)

/-- The orders that the iterations add. -/
def requests : RandomOrderDataGenerator → List Drawn → List Request
  | _, [] => []
  | generator, drawn :: later =>
    (generator.request drawn).1 :: requests (generator.request drawn).2 later

end RandomOrderDataGenerator

end TradingExchange
