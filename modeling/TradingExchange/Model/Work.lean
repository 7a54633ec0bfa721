/-
**The work of a call.**

How often the bodies of the matching loops, and the tests before them, are run: a pass of the outer
loop, with the passes of the call of `matchAtLevel` that it makes.
-/

import TradingExchange.Model.Passes

namespace TradingExchange

variable {poolSize : UInt64}

/-- The passes of `matchAtLevel`, with the one that leaves. -/
def OrderBook.LevelMatch.passes (size : UInt32) (state : OrderBook.LevelMatch poolSize) : Nat :=
  (state.visited size).length

namespace Matching

variable (matching : Matching poolSize)

/-- The passes of the call of `matchAtLevel` that the pass in this state makes. -/
def levelPasses (state : OrderBook.BookMatch poolSize) : Nat :=
  match matching.enters state with
  | none => 0
  | some (_, start) => start.passes matching.size

/-- The passes of both loops. -/
def passes : Nat := (matching.visited.map fun state => 1 + matching.levelPasses state).sum

end Matching

namespace OrderBook

variable (book : OrderBook poolSize)

/-- The passes that a call makes. -/
def passes (call : Call poolSize) : Nat := ((book.matching call).map Matching.passes).getD 0

/-- A call, with the passes it makes. -/
def callCounted (call : Call poolSize) : Except Fault (Nat × OrderBook poolSize) :=
  (book.call call).map fun (_, after) => (book.passes call, after)

end OrderBook

end TradingExchange
