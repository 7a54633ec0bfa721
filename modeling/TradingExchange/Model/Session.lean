/-
**Sessions: a book together with its history.**

A book does not know which order is in a slot, nor since when. A `Session` keeps that beside the
book and changes nothing in it: orders are known by labels, given in increasing order, so that a
label is also the time of arrival.

* `handle` is the pointer that `addOrder` returned for a label, until the order is cancelled;
* `owner` is the label for which a slot was handed out last. A handle is stale when its slot has
  another owner.

A command may cancel only an order that is resting. What is observed of a command is what the client
can read off its handles: the size of the returned order, and by how much the sizes of the others
went down.
-/

import Mathlib.Logic.Function.Basic
import TradingExchange.Model.Calls

namespace TradingExchange

variable {poolSize : UInt64}

/-- A command: a call in which orders are known by label. -/
inductive Command where
  | addOrder (label : Nat) (request : Request)
  | cancelOrder (label : Nat)
  | matchOrder (isBuySide : Bool) (price : UInt64) (size : UInt32) (type : OrderType)
      (totalMatched : UInt32)
deriving DecidableEq, Repr

/-- The label that a command names. -/
def Command.label : Command → Option Nat
  | .addOrder label _ => some label
  | .cancelOrder label => some label
  | .matchOrder .. => none

/-- What is observed of a command: `against` is the quantity matched against each order. -/
inductive Observation where
  | refused
  | added (remainder : Nat) (against : Nat → Int)
  | cancelled (remainder : Nat)
  | matched (total : Nat) (against : Nat → Int)

/-- Not an order that found no slot. -/
def Observation.accepted : Observation → Bool
  | .refused => false
  | _ => true

/-- An accepted order with this remainder. -/
def Observation.isAdded (remainder : Nat) : Observation → Bool
  | .added left _ => left == remainder
  | _ => false

/-- A book with the history of its slots. -/
structure Session (poolSize : UInt64) where
  book : OrderBook poolSize
  clock : Nat := 0
  handle : Nat → Option (Slot poolSize) := fun _ => none
  owner : Slot poolSize → Nat := fun _ => 0

/-- By how much each size went down; a new order is not compared. -/
def reductions (before after : Nat → Nat) (label : Option Nat) (other : Nat) : Int :=
  if label = some other then 0 else before other - after other

namespace Session

/-- A session with a fresh book. -/
def new (symbol : String) (poolSize : UInt64) : Option (Session poolSize) :=
  (OrderBook.new symbol poolSize).map fun book => { book := book }

/-- The slot of an order, unless it was cancelled or its slot has another owner. -/
def slotOf (session : Session poolSize) (label : Nat) : Option (Slot poolSize) :=
  (session.handle label).filter fun slot => session.owner slot = label

/-- The size of an order as its handle shows it. -/
def remaining (session : Session poolSize) (label : Nat) : Nat :=
  match session.slotOf label with
  | none => 0
  | some slot => (session.book.order slot).size.toNat

/-- What a level shows of an order: its ticket and its size. -/
def read (session : Session poolSize) (slot : Slot poolSize) : Ticket Nat × Nat :=
  let order := session.book.order slot
  (⟨session.owner slot, order.orderId, order.clientId, order.orderType⟩, order.size.toNat)

/-- The session after a slot was handed out for a label. -/
def accept (session : Session poolSize) (label : Nat) (slot : Slot poolSize)
    (book : OrderBook poolSize) : Session poolSize where
  book := book
  clock := label + 1
  handle := Function.update session.handle label (some slot)
  owner := Function.update session.owner slot label

/-- The session after an order was cancelled. -/
def release (session : Session poolSize) (label : Nat) (book : OrderBook poolSize) :
    Session poolSize :=
  { session with book := book, handle := Function.update session.handle label none }

/-- One command. -/
def step (session : Session poolSize) :
    Command → Except Fault (Observation × Session poolSize)
  | .addOrder label request =>
    match request.addTo session.book with
    | .error fault => .error fault
    | .ok (none, book) => .ok (.refused, { session with book := book, clock := label + 1 })
    | .ok (some slot, book) =>
      let after := session.accept label slot book
      .ok (.added (after.remaining label)
        (reductions session.remaining after.remaining (some label)), after)
  | .cancelOrder label =>
    .ok (.cancelled (session.remaining label),
      session.release label (session.book.cancelOrder (session.handle label)))
  | .matchOrder isBuySide price size type totalMatched =>
    match session.book.matchOrder isBuySide price size type totalMatched with
    | .error fault => .error fault
    | .ok result =>
      let after := { session with book := result.book }
      .ok (.matched result.totalMatched.toNat
        (reductions session.remaining after.remaining none), after)

end Session

/-- Labels increase, and a cancelled order must be resting. -/
def Command.Legal (session : Session poolSize) : Command → Prop
  | .addOrder label _ => session.clock ≤ label
  | .cancelOrder label => ∃ slot ∈ session.slotOf label, slot ∈ session.book.resting
  | .matchOrder .. => True

instance (session : Session poolSize) : DecidablePred (Command.Legal session)
  | .addOrder label _ => inferInstanceAs (Decidable (session.clock ≤ label))
  | .cancelOrder label =>
    inferInstanceAs (Decidable (∃ slot ∈ session.slotOf label, slot ∈ session.book.resting))
  | .matchOrder .. => inferInstanceAs (Decidable True)

/-- Give commands to a fresh session, if each is legal in its turn. -/
def Session.play (symbol : String) (poolSize : UInt64) (commands : List Command) :
    Option (List Observation × Session poolSize) :=
  (Session.new symbol poolSize).bind fun session =>
    execute Session.step Command.Legal session commands

/-- The sessions that legal commands lead to. -/
def Session.Reachable (session : Session poolSize) : Prop :=
  ∃ symbol start commands observations, Session.new symbol poolSize = some start ∧
    Run Session.step Command.Legal start commands observations session

theorem Session.reachable_of_play {symbol : String} {commands : List Command}
    {observations : List Observation} {session : Session poolSize}
    (played : Session.play symbol poolSize commands = some (observations, session)) :
    session.Reachable := by
  obtain ⟨start, new, ran⟩ := Option.bind_eq_some_iff.mp played
  exact ⟨symbol, start, commands, observations, new, .of_execute ran⟩

end TradingExchange
