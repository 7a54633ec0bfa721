/-
**The text of the log tells the book.**

The messages of a log that a reader accepts are about orders at the prices of its incoming orders
(`Reader.Within.read`), and incoming orders are logged for the requests of the calls only
(`incoming_of_mem_log`). So where the requests name prices below `distinctPrices`, the messages can
be read from their texts, and two logs with the same text leave books with the same levels
(`log_text_tells_book`).
-/

import TradingExchange.Properties.Format
import TradingExchange.Properties.Log

namespace TradingExchange

variable {poolSize : UInt64}

/-! ### Prices in the log -/

/-- The prices that a reader holds are below a bound. -/
structure Reader.Within (bound : ℕ) (reader : Reader) : Prop where
  lines : ∀ isBuySide price, ∀ text ∈ reader.lines isBuySide price, text.price.toNat < bound
  incoming : ∀ text ∈ reader.incoming, text.price.toNat < bound

namespace Reader.Within

variable {bound : ℕ} {reader : Reader} {order : OrderText} {line : List OrderText}

theorem setLine (within : reader.Within bound) (small : ∀ text ∈ line, text.price.toNat < bound) :
    (reader.setLine order line).Within bound := by
  refine ⟨fun isBuySide price text member => ?_, within.incoming⟩
  by_cases side : isBuySide = order.isBuySide
  · subst side
    by_cases limit : price = order.price
    · subst limit
      rw [Reader.setLine, lines_setLineAt_self] at member
      exact small text member
    · rw [Reader.setLine, lines_setLineAt_of_ne fun same => limit same.2] at member
      exact within.lines _ _ text member
  · rw [Reader.setLine, lines_setLineAt_of_ne fun same => side same.1] at member
    exact within.lines _ _ text member

theorem charge (within : reader.Within bound) (amount : UInt32) :
    (reader.charge amount).Within bound := by
  refine ⟨within.lines, fun text member => ?_⟩
  obtain ⟨before, held, rfl⟩ := Option.map_eq_some_iff.mp member
  exact within.incoming before held

theorem finish (within : reader.Within bound) :
    ({ reader with incoming := none } : Reader).Within bound :=
  ⟨within.lines, fun _ member => absurd member (Option.some_ne_none _).symm⟩

theorem lineOf (within : reader.Within bound) (order : OrderText) :
    ∀ text ∈ reader.lineOf order, text.price.toNat < bound := within.lines _ _

/-- **An accepted message is about an order at a price that is held already**, unless it is the
message of an incoming one. -/
theorem read (within : reader.Within bound) {line : LogLine} {next : Reader}
    (incoming : ∀ order, line = .incoming order → order.price.toNat < bound)
    (accepted : reader.read line = some next) :
    line.order.price.toNat < bound ∧ next.Within bound := by
  cases line with
  | incoming order =>
    rw [Reader.read] at accepted
    split at accepted
    · cases accepted
      have small := incoming order rfl
      exact ⟨small, within.lines, fun text member => (Option.some.inj member) ▸ small⟩
    · cases accepted
  | matched amount order =>
    rw [Reader.read] at accepted
    have held := within.lineOf order
    split at accepted
    · cases accepted
    · next first later found =>
      split at accepted
      · next fits =>
        cases accepted
        rw [found] at held
        have small : order.price.toNat < bound := by
          rw [fits.2.2.1]
          exact held first List.mem_cons_self
        refine ⟨small, (within.setLine fun text member => ?_).charge amount⟩
        rcases List.mem_cons.mp member with rfl | after
        · exact small
        · exact held text (List.mem_cons_of_mem _ after)
      · cases accepted
  | closing order =>
    rw [Reader.read] at accepted
    have held := within.lineOf order
    split at accepted
    · cases accepted
    · next first later found =>
      split at accepted
      · next fits =>
        cases accepted
        rw [found] at held
        have small : order.price.toNat < bound := by
          rw [fits.1]
          exact held first List.mem_cons_self
        exact ⟨small, within.setLine fun text member => held text (List.mem_cons_of_mem _ member)⟩
      · cases accepted
  | resting order =>
    rw [Reader.read] at accepted
    split at accepted
    · next fits =>
      cases accepted
      have small := within.incoming order fits.1
      refine ⟨small, (within.setLine fun text member => ?_).finish⟩
      rcases List.mem_append.mp member with before | new
      · exact within.lineOf order text before
      · rw [List.mem_singleton.mp new]
        exact small
    · cases accepted
  | fullyMatched order =>
    rw [Reader.read] at accepted
    split at accepted
    · next fits =>
      cases accepted
      exact ⟨within.incoming order fits.1, within.finish⟩
    · cases accepted
  | cancelled order =>
    rw [Reader.read] at accepted
    split at accepted
    · next fits =>
      cases accepted
      exact ⟨within.lineOf order order fits.2,
        within.setLine fun text member => within.lineOf order text (List.mem_of_mem_erase member)⟩
    · cases accepted

end Reader.Within

/-! ### Incoming orders -/

/-- The message of an incoming order. -/
def LogLine.IsIncoming : LogLine → Prop
  | .incoming _ => True
  | _ => False

/-- Matching logs no incoming order. -/
theorem OrderBook.LevelMatch.not_incoming {size : UInt32} {state : OrderBook.LevelMatch poolSize}
    {line : LogLine} (member : line ∈ state.log size) : ¬ line.IsIncoming := by
  obtain ⟨visited, -, member⟩ := List.mem_flatMap.mp member
  rw [lines] at member
  split at member
  · exact absurd member List.not_mem_nil
  · rcases List.mem_cons.mp member with rfl | closing
    · exact id
    · split at closing
      · rw [List.mem_singleton.mp closing]
        exact id
      · exact absurd closing List.not_mem_nil

theorem Matching.not_incoming {matching : Matching poolSize} {line : LogLine}
    (member : line ∈ matching.log) : ¬ line.IsIncoming := by
  obtain ⟨visited, -, member⟩ := List.mem_flatMap.mp member
  rw [lines] at member
  split at member
  · exact absurd member List.not_mem_nil
  · exact OrderBook.LevelMatch.not_incoming member

namespace OrderBook

variable {book : OrderBook poolSize}

theorem not_incoming_outcome {slot : Slot poolSize} {size : UInt32}
    {result : Except Fault (BookMatch poolSize)} {line : LogLine}
    (member : line ∈ outcome slot size result) : ¬ line.IsIncoming := by
  rw [outcome.eq_def] at member
  split at member
  · exact absurd member List.not_mem_nil
  · simp only at member
    split at member <;>
    · rw [List.mem_singleton.mp member]
      exact id

/-- **An incoming order is logged for the request of a call.** -/
theorem incoming_of_mem_log {call : Call poolSize} {order : OrderText}
    (member : .incoming order ∈ book.log call) :
    ∃ request, call = .addOrder request ∧ order.price = request.price := by
  cases call with
  | addOrder request =>
    refine ⟨request, rfl, ?_⟩
    rw [OrderBook.log] at member
    cases allocated : book.orderPool.allocate (request.order book.symbol) with
    | mk slot pool =>
      rw [allocated] at member
      cases slot with
      | none => exact absurd member List.not_mem_nil
      | some slot =>
        simp only [List.mem_cons, List.mem_append] at member
        rcases member with first | matching | left
        · cases first
          rw [MemPool.deref_allocated allocated]
          rfl
        · exact absurd trivial (Matching.not_incoming matching)
        · exact absurd trivial (not_incoming_outcome left)
  | cancelOrder order => exact absurd (List.mem_singleton.mp member) (by simp)
  | matchOrder isBuySide price size type totalMatched =>
    exact absurd trivial (Matching.not_incoming member)

end OrderBook

/-! ### Runs -/

/-- The messages of a run are about orders at prices below the bound, if its requests are. -/
theorem log_within {fresh last : OrderBook poolSize}
    {calls : List (Call poolSize)} {logs : List (List LogLine)} {reader : Reader} {bound : ℕ}
    (run : Run OrderBook.callLogged Call.LegalById fresh calls logs last)
    (accepted : Reader.readAll {} logs.flatten = some reader)
    (small : ∀ request, .addOrder request ∈ calls → request.price.toNat < bound) :
    ∀ line ∈ logs.flatten, line.order.price.toNat < bound := by
  have start : Reader.Within bound {} := ⟨fun _ _ _ member => absurd member List.not_mem_nil,
    fun _ member => absurd member (Option.some_ne_none _).symm⟩
  refine accepted_all (Reader.Within bound)
    (fun reader line next within given done => within.read given done) start ?_ accepted
  rintro line member order rfl
  obtain ⟨before, call, lines, after, inside, done, here⟩ := run.of_mem_tape member
  rw [OrderBook.callLogged] at done
  cases ran : before.call call with
  | error fault =>
    rw [ran] at done
    cases done
  | ok result =>
    rw [ran] at done
    obtain ⟨rfl, -⟩ := Prod.mk.inj (Except.ok.inj done)
    obtain ⟨request, rfl, price⟩ := OrderBook.incoming_of_mem_log here
    rw [price]
    exact small request inside

/-- **The text of the log tells the book.** Two runs whose logs have the same text, whatever the
calls were, leave books whose levels read the same. -/
theorem log_text_tells_book {poolSize' : UInt64} {symbol symbol' : String}
    {fresh last : OrderBook poolSize} {fresh' last' : OrderBook poolSize'}
    {calls : List (Call poolSize)} {calls' : List (Call poolSize')}
    {logs logs' : List (List LogLine)}
    (new : OrderBook.new symbol poolSize = some fresh)
    (new' : OrderBook.new symbol' poolSize' = some fresh')
    (run : Run OrderBook.callLogged Call.LegalById fresh calls logs last)
    (run' : Run OrderBook.callLogged Call.LegalById fresh' calls' logs' last')
    (small : ∀ request, .addOrder request ∈ calls → request.price.toNat < distinctPrices)
    (small' : ∀ request, .addOrder request ∈ calls' → request.price.toNat < distinctPrices)
    (same : logs.flatten.map LogLine.message = logs'.flatten.map LogLine.message)
    (isBuySide : Bool) (price : UInt64) :
    last.readAt (fun slot => (last.order slot).text) isBuySide price =
      last'.readAt (fun slot => (last'.order slot).text) isBuySide price := by
  obtain ⟨reader, view, read, follows⟩ := Reader.Follows.run new run
  obtain ⟨reader', view', read', follows'⟩ := Reader.Follows.run new' run'
  have logs_eq : logs.flatten = logs'.flatten :=
    tape_of_printed (fun _ _ small small' => LogLine.message_injective small small')
      (log_within run read small) (log_within run' read' small') same
  rw [logs_eq, read'] at read
  obtain rfl := Option.some.inj read
  rw [follows.readAt, follows'.readAt]

/-- A client id is not logged, nor is a call that finds nothing to match. -/
theorem log_text_tells_book_sample : ∃ (fresh last : OrderBook 4) (fresh' last' : OrderBook 2)
    (logs logs' : List (List LogLine)),
    Run OrderBook.callLogged Call.LegalById fresh
      [.addOrder ⟨1, 1, 4, 10, false, .limit⟩, .addOrder ⟨2, 2, 6, 12, true, .limit⟩] logs last ∧
    Run OrderBook.callLogged Call.LegalById fresh'
      [.addOrder ⟨1, 3, 4, 10, false, .limit⟩, .matchOrder true 9 5 .limit 0,
        .addOrder ⟨2, 4, 6, 12, true, .limit⟩] logs' last' ∧
    logs.map List.length = [2, 4] ∧ logs'.map List.length = [2, 0, 4] ∧
    ∀ isBuySide price, last.readAt (fun slot => (last.order slot).text) isBuySide price =
      last'.readAt (fun slot => (last'.order slot).text) isBuySide price := by
  have played : ((OrderBook.new "X" 4).bind fun fresh =>
      (execute OrderBook.callLogged Call.LegalById fresh
        [.addOrder ⟨1, 1, 4, 10, false, .limit⟩, .addOrder ⟨2, 2, 6, 12, true, .limit⟩]).bind
        fun result => (OrderBook.new "X" 2).bind fun fresh' =>
          (execute OrderBook.callLogged Call.LegalById fresh'
            [.addOrder ⟨1, 3, 4, 10, false, .limit⟩, .matchOrder true 9 5 .limit 0,
              .addOrder ⟨2, 4, 6, 12, true, .limit⟩]).map
            fun result' => (result.1.map List.length, result'.1.map List.length,
              decide (result.1.flatten = result'.1.flatten))) =
      some ([2, 4], [2, 0, 4], true) := by
    decide +kernel
  obtain ⟨fresh, new, played⟩ := Option.bind_eq_some_iff.mp played
  obtain ⟨⟨logs, last⟩, ran, played⟩ := Option.bind_eq_some_iff.mp played
  obtain ⟨fresh', new', played⟩ := Option.bind_eq_some_iff.mp played
  obtain ⟨⟨logs', last'⟩, ran', shown⟩ := Option.map_eq_some_iff.mp played
  simp only [Prod.mk.injEq, decide_eq_true_eq] at shown
  obtain ⟨lengths, lengths', same⟩ := shown
  refine ⟨fresh, last, fresh', last', logs, logs', .of_execute ran, .of_execute ran', lengths,
    lengths', ?_⟩
  refine log_text_tells_book new new' (.of_execute ran) (.of_execute ran') ?_ ?_
    (congrArg _ same)
  all_goals
    intro request member
    simp only [List.mem_cons, Call.addOrder.injEq, List.not_mem_nil, or_false, reduceCtorEq,
      false_or] at member
    rcases member with rfl | rfl <;> decide

end TradingExchange
