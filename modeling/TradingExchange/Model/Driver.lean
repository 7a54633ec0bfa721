/-
**The loop of `main`.**

A client of one book: it keeps the orders it added in a vector, sometimes cancels one of them, and
forgets those that are matched. The random generators are arguments (`Draw`). `main` asks for an
index only if the vector has one, so an index beyond the vector stands for no cancel.

The vector holds raw pointers. Whether an order was matched is read through the pointer, from a
record whose slot may be free by then.
-/

import TradingExchange.Model.Calls

namespace TradingExchange

variable {poolSize : UInt64}

/-- What one iteration draws: the new order, and the index of an order to cancel, if any. -/
structure Draw where
  request : Request
  indexToCancel : Option Nat := none
deriving DecidableEq, Repr

/-- A call of `cancelOrder`, with the book at that moment. -/
structure CancelCall (poolSize : UInt64) where
  book : OrderBook poolSize
  order : Slot poolSize

/-- The variables of `main` that outlive an iteration. -/
structure Driver (poolSize : UInt64) where
  orderBook : OrderBook poolSize
  orders : List (Slot poolSize) := []

namespace Driver

/-- Before the first iteration. -/
def new (symbol : String) (poolSize : UInt64) : Option (Driver poolSize) :=
  (OrderBook.new symbol poolSize).map fun book => { orderBook := book }

/-- `if (order && order->size > 0) orders.push_back(order)`. -/
def push (driver : Driver poolSize) : Option (Slot poolSize) → Driver poolSize
  | none => driver
  | some order =>
    if (driver.orderBook.order order).size > 0 then
      { driver with orders := driver.orders ++ [order] }
    else driver

/-- Cancel an order of the vector, unless its size is zero, and erase it. -/
def cancelAt (driver : Driver poolSize) (index : Nat) :
    List (CancelCall poolSize) × Driver poolSize :=
  match driver.orders[index]? with
  | none => ([], driver)
  | some orderToCancel =>
    let orders := driver.orders.eraseIdx index
    if (driver.orderBook.order orderToCancel).size > 0 then
      ([⟨driver.orderBook, orderToCancel⟩],
        { orderBook := driver.orderBook.cancelOrder (some orderToCancel), orders := orders })
    else ([], { driver with orders := orders })

/-- The random cancel. -/
def cancel (driver : Driver poolSize) : Option Nat → List (CancelCall poolSize) × Driver poolSize
  | none => ([], driver)
  | some index => driver.cancelAt index

/-- Erase the orders of size zero. -/
def cleanUp (driver : Driver poolSize) : Driver poolSize :=
  { driver with orders := driver.orders.filter fun order =>
      (driver.orderBook.order order).size != 0 }

/-- One iteration, with the calls of `cancelOrder` it makes. -/
def iterate (driver : Driver poolSize) (draw : Draw) :
    Except Fault (List (CancelCall poolSize) × Driver poolSize) :=
  match draw.request.addTo driver.orderBook with
  | .error fault => .error fault
  | .ok (order, book) =>
    let driver := { driver with orderBook := book }.push order
    let (calls, driver) := driver.cancel draw.indexToCancel
    .ok (calls, driver.cleanUp)

end Driver

end TradingExchange
