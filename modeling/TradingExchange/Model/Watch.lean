/-
**Watching one order.**

A `Watch` follows an order that came to rest through the calls of a book: how much of it was filled,
by the servings of its own call and of the later ones, and whether it was cancelled. The watch is
`Over` when the order was cancelled or is filled up to its original size. The slot may be handed out
again afterwards; from then on it holds another order, and the watch takes no more notes.
-/

import TradingExchange.Model.Passes

namespace TradingExchange

variable {poolSize : UInt64}

/-- An order that came to rest, with the record it was added with, and what happened to it since. -/
structure Watch (poolSize : UInt64) where
  book : OrderBook poolSize
  slot : Slot poolSize
  order : Order (Slot poolSize)
  filled : Nat
  cancelled : Bool := false
  reused : Bool := false

namespace Watch

/-- Add an order, and watch it if it comes to rest. -/
def start (book : OrderBook poolSize) (request : Request) : Option (Watch poolSize) :=
  match request.addTo book with
  | .ok (some slot, after) =>
    if slot ∈ after.resting then some {
      book := after
      slot := slot
      order := request.order book.symbol
      filled := book.matched (.addOrder request) }
    else none
  | _ => none

/-- Note what a call did to the order. -/
def note (watch : Watch poolSize) (call : Call poolSize) (reply : Reply poolSize)
    (after : OrderBook poolSize) : Watch poolSize :=
  if watch.reused then { watch with book := after }
  else { watch with
    book := after
    filled := watch.filled + watch.book.fills call watch.slot
    cancelled := watch.cancelled || decide (call = .cancelOrder watch.slot)
    reused := decide (reply = .order (some watch.slot)) }

/-- One call, watched. -/
def step (watch : Watch poolSize) (call : Call poolSize) :
    Except Fault (Reply poolSize × Watch poolSize) :=
  match watch.book.call call with
  | .error fault => .error fault
  | .ok (reply, after) => .ok (reply, watch.note call reply after)

/-- A cancelled order must be resting. -/
def Legal (watch : Watch poolSize) (call : Call poolSize) : Prop := call.Legal watch.book

instance (watch : Watch poolSize) : DecidablePred watch.Legal := fun call =>
  inferInstanceAs (Decidable (call.Legal watch.book))

/-- The order was cancelled, or is filled up to its original size. -/
def Over (watch : Watch poolSize) : Prop :=
  watch.cancelled = true ∨ watch.order.size.toNat ≤ watch.filled

instance (watch : Watch poolSize) : Decidable watch.Over :=
  inferInstanceAs (Decidable (_ ∨ _))

/-- The watches that legal calls lead to, from orders added to reachable books. -/
def Reachable (watch : Watch poolSize) : Prop :=
  ∃ before request first calls replies, before.Reachable ∧ start before request = some first ∧
    Run step Legal first calls replies watch

/-- Make calls on a fresh book, add an order, and make calls while it is watched, if each is legal in
its turn. -/
def play (symbol : String) (poolSize : UInt64) (calls : List (Call poolSize)) (request : Request)
    (later : List (Call poolSize)) : Option (Watch poolSize) :=
  (OrderBook.play symbol poolSize calls).bind fun played =>
    (start played.2 request).bind fun first => (execute step Legal first later).map Prod.snd

theorem reachable_of_play {symbol : String} {calls later : List (Call poolSize)}
    {request : Request} {watch : Watch poolSize}
    (played : play symbol poolSize calls request later = some watch) : watch.Reachable := by
  obtain ⟨⟨replies, before⟩, ran, rest⟩ := Option.bind_eq_some_iff.mp played
  obtain ⟨first, started, rest⟩ := Option.bind_eq_some_iff.mp rest
  obtain ⟨⟨replies', last⟩, ran', rfl⟩ := Option.map_eq_some_iff.mp rest
  exact ⟨before, request, first, later, replies', OrderBook.reachable_of_play ran, started,
    .of_execute ran'⟩

end Watch

end TradingExchange
