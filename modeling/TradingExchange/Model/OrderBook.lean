/-
**`OrderBook`: price levels of resting orders over one order pool.**

The order records live in a `MemPool<Order>`, and the price maps hold queue headers. A `std::map`
is an `ExtTreeMap`, so equal maps are equal; its first and last entries are what `begin()` and
`rbegin()` point to. The free-list link of a slot overlays the first word of the record, which is
`order_id`: a deallocated record keeps every other field.

`matchBidOrder` and `matchAskOrder` are one loop over the levels of the opposite side, from its best
end, with the side's own test for a price beyond the limit. A reference into a map is modelled by
writing the level back. The log lines read the records and change nothing; they are in `Log`.
-/

import Mathlib.Data.UInt
import Std.Data.ExtTreeMap
import TradingExchange.Library.LinkedList
import TradingExchange.Model.Order
import TradingExchange.Model.MemPool

namespace TradingExchange

/-- The storage of an order: the link is written over `order_id`. -/
instance orderStorage {Item : Type} : PoolStorage (Order Item) (Order Item) where
  zeroed := { orderId := 0, clientId := 0, symbol := "", orderType := .limit }
  construct := fun _ order => order
  object := id
  nextFree := Order.orderId
  setNextFree := fun order index => { order with orderId := index }
  object_construct := fun _ _ => rfl
  nextFree_setNextFree := fun _ _ => rfl

/-- `MemPool<Order>`. -/
abbrev OrderPool (poolSize : UInt64) : Type := MemPool (Order (Slot poolSize)) poolSize

/-- `PriceLevel`. -/
abbrev PriceLevel (poolSize : UInt64) : Type := IntrusiveQueue (Slot poolSize)

/-- `std::map<uint64_t, PriceLevel>`. -/
abbrev PriceLevels (poolSize : UInt64) : Type := Std.ExtTreeMap UInt64 (PriceLevel poolSize)

/-- `get_node` on pooled orders. -/
instance orderNodes {poolSize : UInt64} : NodeMemory (OrderPool poolSize) (Slot poolSize) where
  getNode := fun pool slot => (pool.deref slot).listNode
  setNode := fun pool slot node => pool.write slot { pool.deref slot with listNode := node }
  getNode_setNode_self := by
    intro pool slot node
    simp [MemPool.deref, MemPool.write, MemPool.setElement, PoolStorage.object,
      PoolStorage.construct]
  getNode_setNode_of_ne := by
    intro pool slot node other different
    simp [MemPool.deref, MemPool.write, MemPool.setElement, Function.update_of_ne different]

/-- `OrderBook`. -/
structure OrderBook (poolSize : UInt64) where
  symbol : String
  orderPool : OrderPool poolSize
  bidLevels : PriceLevels poolSize := ∅
  askLevels : PriceLevels poolSize := ∅

namespace OrderBook

variable {poolSize : UInt64}

/-- `OrderBook(symbol, pool_size)`. -/
def new (symbol : String) (poolSize : UInt64) : Option (OrderBook poolSize) :=
  (MemPool.new poolSize).map fun pool => { symbol := symbol, orderPool := pool }

/-- `is_buy_side ? bid_levels_ : ask_levels_`. -/
def levels (book : OrderBook poolSize) (isBuySide : Bool) : PriceLevels poolSize :=
  if isBuySide then book.bidLevels else book.askLevels

def setLevels (book : OrderBook poolSize) (isBuySide : Bool) (levels : PriceLevels poolSize) :
    OrderBook poolSize :=
  if isBuySide then { book with bidLevels := levels } else { book with askLevels := levels }

/-- The record behind an order pointer. -/
def order (book : OrderBook poolSize) (slot : Slot poolSize) : Order (Slot poolSize) :=
  book.orderPool.deref slot

/-! ### Matching -/

/-- What `matchAtLevel` changes. -/
structure LevelMatch (poolSize : UInt64) where
  level : PriceLevel poolSize
  orderPool : OrderPool poolSize
  totalMatched : UInt32

/-- One pass of the loop of `matchAtLevel`. -/
def matchAtLevelPass (size : UInt32) (state : LevelMatch poolSize) :
    Except Fault (Loop.Pass (LevelMatch poolSize)) :=
  if !state.level.empty && state.totalMatched < size then
    match state.level.peek with
    | none => .error .nullDereference
    | some order =>
      let amountToMatch := size - state.totalMatched
      let (matched, reduced) := (state.orderPool.deref order).decreaseSize amountToMatch
      let orderPool := state.orderPool.write order reduced
      let totalMatched := state.totalMatched + matched
      if (orderPool.deref order).size == 0 then
        let (level, orderPool) := state.level.remove orderPool order
        .ok (.again ⟨level, orderPool.deallocate order, totalMatched⟩)
      else .ok (.again ⟨state.level, orderPool, totalMatched⟩)
  else .ok (.leave state)

/-- `matchAtLevel`. Every pass but the last two removes an order. -/
def matchAtLevel (level : PriceLevel poolSize) (orderPool : OrderPool poolSize)
    (totalMatched size : UInt32) : Except Fault (LevelMatch poolSize) :=
  Loop.run (matchAtLevelPass size) (level.size.toNat + 2) ⟨level, orderPool, totalMatched⟩

/-- What `begin()` points to. -/
def begin (levels : PriceLevels poolSize) : Option (UInt64 × PriceLevel poolSize) :=
  levels.toList.head?

/-- What `rbegin()` points to. -/
def rbegin (levels : PriceLevels poolSize) : Option (UInt64 × PriceLevel poolSize) :=
  levels.toList.getLast?

/-- What a matching loop changes. -/
structure BookMatch (poolSize : UInt64) where
  book : OrderBook poolSize
  totalMatched : UInt32

/-- One pass of the loop of `matchBidOrder` and `matchAskOrder`: `isBuySide` is the side matched
against, `best` its best entry, and `beyond` says that a price there is past the limit. -/
def matchPass (isBuySide : Bool)
    (best : PriceLevels poolSize → Option (UInt64 × PriceLevel poolSize))
    (beyond : UInt64 → Bool) (size : UInt32) (type : OrderType) (state : BookMatch poolSize) :
    Except Fault (Loop.Pass (BookMatch poolSize)) :=
  if state.totalMatched < size then
    match best (state.book.levels isBuySide) with
    | none => .ok (.leave state)
    | some (price, level) =>
      if type == .limit && beyond price then .ok (.leave state)
      else
        match matchAtLevel level state.book.orderPool state.totalMatched size with
        | .error fault => .error fault
        | .ok result =>
          let levels := (state.book.levels isBuySide).insert price result.level
          let book := { state.book with orderPool := result.orderPool }
          if result.level.empty then
            .ok (.again ⟨book.setLevels isBuySide (levels.erase price), result.totalMatched⟩)
          else .ok (.leave ⟨book.setLevels isBuySide levels, result.totalMatched⟩)
  else .ok (.leave state)

/-- `matchBidOrder`: match a bid order against the ask levels. -/
def matchBidOrder (book : OrderBook poolSize) (price : UInt64) (size : UInt32) (type : OrderType)
    (totalMatched : UInt32) : Except Fault (BookMatch poolSize) :=
  Loop.run (matchPass false begin (fun first => first > price) size type)
    (book.askLevels.size + 1) ⟨book, totalMatched⟩

/-- `matchAskOrder`: match an ask order against the bid levels. -/
def matchAskOrder (book : OrderBook poolSize) (price : UInt64) (size : UInt32) (type : OrderType)
    (totalMatched : UInt32) : Except Fault (BookMatch poolSize) :=
  Loop.run (matchPass true rbegin (fun first => first < price) size type)
    (book.bidLevels.size + 1) ⟨book, totalMatched⟩

/-! ### Adding and cancelling -/

/-- `levels[price].append(order)`. -/
def restOrder (book : OrderBook poolSize) (isBuySide : Bool) (price : UInt64)
    (order : Slot poolSize) : Except Fault (OrderBook poolSize) :=
  let level := (book.levels isBuySide)[price]?.getD {}
  match level.append book.orderPool order with
  | .error fault => .error fault
  | .ok (level, orderPool) =>
    .ok ({ book with orderPool := orderPool }.setLevels isBuySide
      ((book.levels isBuySide).insert price level))

/-- `addOrder`. -/
def addOrder (book : OrderBook poolSize) (orderId clientId : UInt64) (size : UInt32)
    (price : UInt64) (isBuySide : Bool) (orderType : OrderType) :
    Except Fault (Option (Slot poolSize) × OrderBook poolSize) :=
  match book.orderPool.allocate
      { orderId, clientId, symbol := book.symbol, size, price, isBuySide, orderType } with
  | (none, orderPool) => .ok (none, { book with orderPool := orderPool })
  | (some order, orderPool) =>
    let book := { book with orderPool := orderPool }
    match if isBuySide then book.matchBidOrder price size orderType 0
        else book.matchAskOrder price size orderType 0 with
    | .error fault => .error fault
    | .ok ⟨book, matchedSize⟩ =>
      let reduced := ((book.order order).decreaseSize matchedSize).2
      let book := { book with orderPool := book.orderPool.write order reduced }
      if matchedSize < size then
        match book.restOrder isBuySide price order with
        | .error fault => .error fault
        | .ok book => .ok (some order, book)
      else .ok (some order, book)

/-- `cancelOrder`: remove an order from its level and deallocate it. -/
def cancelOrder (book : OrderBook poolSize) : Option (Slot poolSize) → OrderBook poolSize
  | none => book
  | some order =>
    let price := (book.order order).price
    let isBuySide := (book.order order).isBuySide
    let levels := book.levels isBuySide
    let book :=
      match levels[price]? with
      | none => book
      | some level =>
        let (level, orderPool) := level.remove book.orderPool order
        let levels := if level.empty then levels.erase price else levels.insert price level
        { book with orderPool := orderPool }.setLevels isBuySide levels
    { book with orderPool := book.orderPool.deallocate order }

end OrderBook

end TradingExchange
