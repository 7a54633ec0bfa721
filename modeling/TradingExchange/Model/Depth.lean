/-
**`OrderBook::toString`, before formatting.**

A row for every price that is in one of the maps, highest price first, with the total size on either
side: a level is walked from `head()` along `list_node.next` and its sizes are added in a `uint32_t`.
A side that has no level at the price shows `"0"`.

The divisions by 1000.0 and 100.0 and the text around the numbers are in `Format`; the mid price is
kept as the two prices that it is computed from.
-/

import Std.Data.ExtTreeSet
import TradingExchange.Model.Calls

namespace TradingExchange

variable {poolSize : UInt64}

/-- `std::set<uint64_t, std::greater<>>`. -/
abbrev Prices : Type := Std.ExtTreeSet UInt64 fun first second => compare second first

/-- A row of the text: `none` is the text `"0"` of a side without a level. -/
structure DepthRow where
  price : UInt64
  bidCount : Option UInt32
  askCount : Option UInt32
deriving DecidableEq, Repr

/-- The total size that a row shows on a side. -/
def DepthRow.count (row : DepthRow) (isBuySide : Bool) : UInt32 :=
  (if isBuySide then row.bidCount else row.askCount).getD 0

/-- What `toString` prints. -/
structure BookText where
  symbol : String
  rows : List DepthRow
  /-- The best bid and the best ask; the mid price is 0 without them. -/
  midPrice : Option (UInt64 × UInt64)
deriving DecidableEq, Repr

namespace OrderBook

/-- The variables of the walk along a level. -/
structure SizeWalk (poolSize : UInt64) where
  order : Option (Slot poolSize)
  totalSize : UInt32

/-- One pass of the walk. -/
def totalSizePass (book : OrderBook poolSize) (walk : SizeWalk poolSize) :
    Except Fault (Loop.Pass (SizeWalk poolSize)) :=
  match walk.order with
  | none => .ok (.leave walk)
  | some order =>
    .ok (.again ⟨(book.order order).listNode.next, walk.totalSize + (book.order order).size⟩)

/-- The total size of a level. -/
def totalSize (book : OrderBook poolSize) (level : PriceLevel poolSize) : Except Fault UInt32 :=
  (Loop.run book.totalSizePass (poolSize.toNat + 1) ⟨level.head, 0⟩).map SizeWalk.totalSize

/-- The total size at a price of a side, if there is a level. -/
def countAt (book : OrderBook poolSize) (isBuySide : Bool) (price : UInt64) :
    Except Fault (Option UInt32) :=
  match (book.levels isBuySide)[price]? with
  | none => .ok none
  | some level => (book.totalSize level).map some

/-- The row of a price. -/
def rowAt (book : OrderBook poolSize) (price : UInt64) : Except Fault DepthRow := do
  let bidCount ← book.countAt true price
  let askCount ← book.countAt false price
  return ⟨price, bidCount, askCount⟩

/-- The prices of both maps. -/
def shownPrices (book : OrderBook poolSize) : Prices :=
  ((∅ : Prices).insertMany book.bidLevels.keys).insertMany book.askLevels.keys

/-- `toString`. -/
def toString (book : OrderBook poolSize) : Except Fault BookText := do
  let rows ← book.shownPrices.toList.mapM book.rowAt
  return {
    symbol := book.symbol
    rows := rows
    midPrice := (rbegin book.bidLevels).bind fun bid =>
      (begin book.askLevels).map fun ask => (bid.1, ask.1) }

/-- The exact sum of the sizes that rest at a price of a side. -/
def depthAt (book : OrderBook poolSize) (isBuySide : Bool) (price : UInt64) : Nat :=
  ((book.ordersAt isBuySide price).map fun slot => (book.order slot).size.toNat).sum

end OrderBook

end TradingExchange
