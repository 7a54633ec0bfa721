/-
**Counting the orders of a book.**

A `Tally` keeps beside a book how many orders were accepted, cancelled, and closed by matching since
the book was new. It changes nothing in the book: its step is the book's call.
-/

import TradingExchange.Model.Calls

namespace TradingExchange

variable {poolSize : UInt64}

/-- A book with the numbers of its orders so far. -/
structure Tally (poolSize : UInt64) where
  book : OrderBook poolSize
  accepted : Nat := 0
  cancelled : Nat := 0
  closed : Nat := 0

/-- The resting orders whose size is zero after a call. -/
def OrderBook.reducedToZero (before after : OrderBook poolSize) : List (Slot poolSize) :=
  before.resting.filter fun slot => (after.order slot).size == 0

/-- How many orders a reply accepts. -/
def Reply.accepts : Reply poolSize → Nat
  | .order (some _) => 1
  | _ => 0

/-- How many orders a reply reports cancelled. -/
def Reply.cancels : Reply poolSize → Nat
  | .cancelled => 1
  | _ => 0

namespace Tally

/-- A tally of a fresh book. -/
def new (symbol : String) (poolSize : UInt64) : Option (Tally poolSize) :=
  (OrderBook.new symbol poolSize).map fun book => { book := book }

/-- One call, counted. -/
def step (tally : Tally poolSize) (call : Call poolSize) :
    Except Fault (Reply poolSize × Tally poolSize) :=
  match tally.book.call call with
  | .error fault => .error fault
  | .ok (reply, book) => .ok (reply, {
      book := book
      accepted := tally.accepted + reply.accepts
      cancelled := tally.cancelled + reply.cancels
      closed := tally.closed + (tally.book.reducedToZero book).length })

/-- A cancelled order must be resting. -/
def Legal (tally : Tally poolSize) (call : Call poolSize) : Prop := call.Legal tally.book

instance (tally : Tally poolSize) : DecidablePred tally.Legal := fun call =>
  inferInstanceAs (Decidable (call.Legal tally.book))

/-- Make calls on a fresh book and count, if each is legal in its turn. -/
def play (symbol : String) (poolSize : UInt64) (calls : List (Call poolSize)) :
    Option (List (Reply poolSize) × Tally poolSize) :=
  (new symbol poolSize).bind fun tally => execute step Legal tally calls

/-- The tallies that legal calls lead to. -/
def Reachable (tally : Tally poolSize) : Prop :=
  ∃ symbol start calls replies, new symbol poolSize = some start ∧
    Run step Legal start calls replies tally

theorem reachable_of_play {symbol : String} {calls : List (Call poolSize)}
    {replies : List (Reply poolSize)} {tally : Tally poolSize}
    (played : play symbol poolSize calls = some (replies, tally)) : tally.Reachable := by
  obtain ⟨start, new, ran⟩ := Option.bind_eq_some_iff.mp played
  exact ⟨symbol, start, calls, replies, new, .of_execute ran⟩

end Tally

end TradingExchange
