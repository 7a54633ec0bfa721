/-
**`main`.**

An iteration of the loop draws an order and hands it to the book; the rest is the client of `Driver`.
`main` makes a hundred iterations on a pool of 1024 orders and prints the book. What it returns here
are the messages of the log, in order; the time and the level that the logger puts before a message
are left out.
-/

import TradingExchange.Model.Driver
import TradingExchange.Model.Format
import TradingExchange.Model.Generator

namespace TradingExchange

variable {poolSize : UInt64}

/-- The variables of `main` that outlive an iteration. -/
structure Program (poolSize : UInt64) where
  generator : RandomOrderDataGenerator
  driver : Driver poolSize

namespace Program

/-- Before the first iteration. -/
def new (symbol : String) (poolSize : UInt64) : Option (Program poolSize) :=
  (Driver.new symbol poolSize).map fun driver => ⟨{}, driver⟩

/-- One iteration, with what it logs. -/
def iterate (program : Program poolSize) (drawn : Drawn) :
    Except Fault (List LogLine × Program poolSize) :=
  let (request, generator) := program.generator.request drawn
  (program.driver.iterate ⟨request, drawn.indexToCancel⟩).map fun (calls, driver) =>
    (program.driver.orderBook.log (.addOrder request) ++
      calls.flatMap fun call => call.book.log (.cancelOrder call.order), ⟨generator, driver⟩)

end Program

/-- The messages of `main`; nothing if the pool cannot be made, or an iteration faults. -/
def main (drawn : Vector Drawn 100) : Option (List String) :=
  (Program.new "AAPL" 1024).bind fun program =>
    (execute Program.iterate (fun _ _ => True) program drawn.toList).bind fun (logs, last) =>
      last.driver.orderBook.text.toOption.map fun text =>
        "Initializing the Order Book" :: (logs.flatten.map LogLine.message ++
          ["Order Book after adding and randomly cancelling orders:\n" ++ text])

end TradingExchange
