/-
**What a book logs.**

`OrderText` is what `Order::toString` prints of a record, and a `LogLine` is a message that the book
sends to the log; the text of either is in `Format`. The lines of a call are read from the states in
which the passes of its loops begin, at the places where the source logs: a matched order after its
size is decreased, a closed one after it is removed from its level, the incoming one before it is
matched and once it is known whether a remainder rests.
-/

import TradingExchange.Model.Passes

namespace TradingExchange

variable {poolSize : UInt64}

open OrderBook

/-- What `Order::toString` prints. -/
@[ext]
structure OrderText where
  isBuySide : Bool
  orderType : OrderType
  symbol : String
  size : UInt32
  price : UInt64
  orderId : UInt64
deriving DecidableEq, Repr

/-- What is printed of a record. -/
def Order.text {Item : Type} (order : Order Item) : OrderText where
  isBuySide := order.isBuySide
  orderType := order.orderType
  symbol := order.symbol
  size := order.size
  price := order.price
  orderId := order.orderId

/-- A message of the log. -/
inductive LogLine where
  | incoming (order : OrderText)
  | matched (amount : UInt32) (order : OrderText)
  | closing (order : OrderText)
  | resting (order : OrderText)
  | fullyMatched (order : OrderText)
  | cancelled (order : OrderText)
deriving DecidableEq, Repr

/-! ### Matching -/

namespace OrderBook.LevelMatch

variable (size : UInt32) (state : LevelMatch poolSize)

/-- What the pass in this state logs. -/
def lines : List LogLine :=
  match state.served size with
  | none => []
  | some serving =>
    let orderPool := serving.write state.orderPool
    .matched serving.matched (orderPool.deref serving.order).text ::
      if serving.closes then
        let (_, orderPool) := state.level.remove orderPool serving.order
        [.closing (orderPool.deref serving.order).text]
      else []

/-- What `matchAtLevel` logs. -/
def log : List LogLine := (state.visited size).flatMap (lines size)

end OrderBook.LevelMatch

namespace Matching

variable (matching : Matching poolSize)

/-- What the pass in this state logs. -/
def lines (state : BookMatch poolSize) : List LogLine :=
  match matching.enters state with
  | none => []
  | some (_, start) => start.log matching.size

/-- What `matchBidOrder` or `matchAskOrder` logs. -/
def log : List LogLine := matching.visited.flatMap matching.lines

end Matching

/-! ### Calls -/

namespace OrderBook

variable (book : OrderBook poolSize)

/-- The pool once an order to cancel is removed from the level at its price, if there is one. -/
def detached (order : Slot poolSize) : OrderPool poolSize :=
  match (book.levels (book.order order).isBuySide)[(book.order order).price]? with
  | none => book.orderPool
  | some level => (level.remove book.orderPool order).2

/-- What is logged of an incoming order once it is matched. -/
def outcome (order : Slot poolSize) (size : UInt32) :
    Except Fault (BookMatch poolSize) → List LogLine
  | .error _ => []
  | .ok ⟨book, matchedSize⟩ =>
    let reduced := ((book.order order).decreaseSize matchedSize).2
    if matchedSize < size then [.resting reduced.text] else [.fullyMatched reduced.text]

/-- What a call logs. -/
def log : Call poolSize → List LogLine
  | .addOrder request =>
    match book.orderPool.allocate (request.order book.symbol) with
    | (none, _) => []
    | (some order, orderPool) =>
      let matching : Matching poolSize := {
        book := { book with orderPool := orderPool }
        isBuySide := request.isBuySide
        price := request.price
        size := request.size
        type := request.orderType
        totalMatched := 0 }
      .incoming (orderPool.deref order).text ::
        (matching.log ++ outcome order request.size matching.result)
  | .cancelOrder order => [.cancelled ((book.detached order).deref order).text]
  | .matchOrder isBuySide price size type totalMatched =>
    Matching.log ⟨book, isBuySide, price, size, type, totalMatched⟩

/-- A call, with what it logs. -/
def callLogged (call : Call poolSize) : Except Fault (List LogLine × OrderBook poolSize) :=
  (book.call call).map fun (_, after) => (book.log call, after)

end OrderBook

/-- A cancelled order must be resting, and an added one must not bear the id of a resting one. -/
def Call.LegalById (book : OrderBook poolSize) : Call poolSize → Prop
  | .addOrder request => ∀ slot ∈ book.resting, (book.order slot).orderId ≠ request.orderId
  | .cancelOrder order => order ∈ book.resting
  | .matchOrder .. => True

instance (book : OrderBook poolSize) : DecidablePred (Call.LegalById book)
  | .addOrder _ => List.decidableBAll _ _
  | .cancelOrder order => inferInstanceAs (Decidable (order ∈ book.resting))
  | .matchOrder .. => inferInstanceAs (Decidable True)

theorem Call.LegalById.legal {book : OrderBook poolSize} {call : Call poolSize}
    (legal : call.LegalById book) : call.Legal book := by
  cases call with
  | addOrder request => trivial
  | cancelOrder order => exact legal
  | matchOrder => trivial

end TradingExchange
