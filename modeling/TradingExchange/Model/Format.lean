/-
**Texts.**

`Order::toString`, the messages of the log and `OrderBook::toString` as the strings they are. Sizes
and prices are integers that are divided as doubles and printed with a fixed number of places:
`binary64` is the conversion of an integer to a double, and the rounding of a quotient or a sum of
doubles.

The strings are made by the `fmt` library, which is not part of the repository. What is taken from its
documentation is this:

* `{}` is a string as it is, and an integer in decimal digits without leading zeros;
* `{:.3f}` and `{:.2f}` are a double with three and two digits after the point, correctly rounded
  from its exact value (`fixed`; a value halfway between two goes to the even one);
* `{:>10}` pads a text with blanks on the left to ten characters, and leaves a longer one as it is
  (`column`); `{:>10.2f}` does both.

`sizeText`, `priceText` and `column` stand for these, and nothing else of the library is used.
-/

import TradingExchange.Library.Decimal
import TradingExchange.Model.Depth
import TradingExchange.Model.Log

namespace TradingExchange

/-- `to_string(OrderType)`. -/
def OrderType.toString : OrderType → String
  | .limit => "Limit"
  | .market => "Market"

/-- `{:.3f}` of `size / 1000.0`. -/
def sizeText (size : UInt32) : String := fixed 3 (binary64 (binary64 size.toNat / 1000))

/-- `price / 100.0`. -/
def priceValue (price : UInt64) : ℚ := binary64 (binary64 price.toNat / 100)

/-- `{:.2f}` of `price / 100.0`. -/
def priceText (price : UInt64) : String := fixed 2 (priceValue price)

/-! ### Orders -/

/-- `Order::toString`. -/
def OrderText.toString (order : OrderText) : String :=
  let color := if order.isBuySide then "\x1b[92m" else "\x1b[31m"
  let reset := "\x1b[0m"
  color ++ (if order.isBuySide then "Bid" else "Ask") ++ ", " ++ order.orderType.toString ++ ": " ++
    order.symbol ++ ", " ++ sizeText order.size ++ " @ $" ++ priceText order.price ++ " [id: " ++
    Nat.repr order.orderId.toNat ++ "]" ++ reset

/-- The text of a message. -/
def LogLine.message : LogLine → String
  | .incoming order => "(Incoming): " ++ order.toString
  | .matched amount order => "(Matched " ++ sizeText amount ++ " with): " ++ order.toString
  | .closing order => "(Closing): " ++ order.toString
  | .resting order => "(Resting): " ++ order.toString
  | .fullyMatched order => "(Fully Matched): " ++ order.toString
  | .cancelled order => "(Cancelled): " ++ order.toString

/-! ### Books -/

/-- `{:>10}`: blanks on the left, up to ten characters. -/
def column (text : String) : String :=
  String.ofList (List.replicate (10 - text.length) ' ') ++ text

/-- `{:>10} | {:>10} | {:>10}` and the end of the line; a price in the middle is `{:>10.2f}`. -/
def columns (bids price asks : String) : String :=
  column bids ++ " | " ++ column price ++ " | " ++ column asks ++ "\n"

/-- The total size of a side, or `"0"`. -/
def countText : Option UInt32 → String
  | none => "0"
  | some totalSize => sizeText totalSize

def DepthRow.toString (row : DepthRow) : String :=
  columns (countText row.bidCount) (priceText row.price) (countText row.askCount)

def ruler : String := "-------------------------------------\n"

/-- The mean of the best prices, or zero. -/
def midPriceValue : Option (UInt64 × UInt64) → ℚ
  | none => 0
  | some (bid, ask) => binary64 (binary64 (binary64 bid.toNat + binary64 ask.toNat) / 200)

/-- The text of the header, the rows and the mid price. -/
def BookText.toString (book : BookText) : String :=
  "Order Book for " ++ book.symbol ++ ":\n" ++ columns "Bids" "Price" "Asks" ++ ruler ++
    String.join (book.rows.map DepthRow.toString) ++ ruler ++
    "Mid Price: " ++ fixed 2 (midPriceValue book.midPrice) ++ "\n"

/-- What `OrderBook::toString` returns. -/
def OrderBook.text {poolSize : UInt64} (book : OrderBook poolSize) : Except Fault String :=
  book.toString.map BookText.toString

end TradingExchange
