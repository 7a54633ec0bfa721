/-
**A reader of the log.**

What someone who sees the log and nothing else can know of the book: a line of order texts for each
side and price, as last printed, and the incoming order while it is being matched. `read` takes a
line of the log into account, and refuses one that does not fit what was read before:

* an order is matched only at the head of its line and by what its printed size went down, on the
  other side of the incoming order, within its limit and its size;
* only a matched order of size zero is closed, and only an order in its line is cancelled;
* what an incoming order is left with is its size less all that was matched against it; it rests
  exactly if that is not zero.
-/

import TradingExchange.Abstract.PureBook
import TradingExchange.Model.Log

namespace TradingExchange

/-- The text with a smaller size. -/
def OrderText.reduce (text : OrderText) (amount : UInt32) : OrderText :=
  { text with size := text.size - amount }

/-- What was read. -/
structure Reader where
  lines : Bool → UInt64 → List OrderText := fun _ _ => []
  incoming : Option OrderText := none

namespace Reader

variable (reader : Reader) (order : OrderText)

/-- The line of an order. -/
def lineOf : List OrderText := reader.lines order.isBuySide order.price

/-- Replace a line. -/
def setLineAt (isBuySide : Bool) (price : UInt64) (line : List OrderText) : Reader :=
  { reader with
    lines := Function.update reader.lines isBuySide
      (Function.update (reader.lines isBuySide) price line) }

/-- Replace the line of an order. -/
def setLine (line : List OrderText) : Reader := reader.setLineAt order.isBuySide order.price line

/-- What was matched comes off the incoming order. -/
def charge (amount : UInt32) : Reader :=
  { reader with incoming := reader.incoming.map fun incoming => incoming.reduce amount }

/-- An incoming order may take this amount from the order. -/
def Permits (amount : UInt32) : Option OrderText → Prop
  | none => True
  | some incoming => amount ≤ incoming.size ∧ order.isBuySide = !incoming.isBuySide ∧
      inReach incoming.isBuySide incoming.price incoming.orderType order.price = true

instance (amount : UInt32) : DecidablePred (Permits order amount)
  | none => inferInstanceAs (Decidable True)
  | some _ => inferInstanceAs (Decidable (_ ∧ _ ∧ _))

/-- Read a line. -/
def read : LogLine → Option Reader
  | .incoming order =>
    if reader.incoming = none then some { reader with incoming := some order } else none
  | .matched amount order =>
    match reader.lineOf order with
    | [] => none
    | first :: later =>
      if 0 < amount ∧ amount ≤ first.size ∧ order = first.reduce amount ∧
          Permits order amount reader.incoming then
        some ((reader.setLine order (order :: later)).charge amount)
      else none
  | .closing order =>
    match reader.lineOf order with
    | [] => none
    | first :: later =>
      if order = first ∧ order.size = 0 then some (reader.setLine order later) else none
  | .resting order =>
    if reader.incoming = some order ∧ 0 < order.size then
      some { reader.setLine order (reader.lineOf order ++ [order]) with incoming := none }
    else none
  | .fullyMatched order =>
    if reader.incoming = some order ∧ order.size = 0 then some { reader with incoming := none }
    else none
  | .cancelled order =>
    if reader.incoming = none ∧ order ∈ reader.lineOf order then
      some (reader.setLine order ((reader.lineOf order).erase order))
    else none

/-- Read one line after the other. -/
def readAll (lines : List LogLine) : Option Reader := lines.foldlM read reader

/-- The line at a price, if there are orders. -/
def lineAt (isBuySide : Bool) (price : UInt64) : Option (List OrderText) :=
  if reader.lines isBuySide price = [] then none else some (reader.lines isBuySide price)

end Reader

end TradingExchange
