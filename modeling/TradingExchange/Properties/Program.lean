/-
**`main` from its draws to its output.**

The iterations of `main` are a run of legal calls of the book (`Driver.Settled.calls`), whose requests
are those of the generator. So its log is read as the book that is printed at the end
(`main_log_replays`), and what is printed are the exact totals at the exact prices, since the
generator keeps sizes and prices small (`main_output`).
-/

import TradingExchange.Model.Program
import TradingExchange.Properties.Generator
import TradingExchange.Properties.Printing
import TradingExchange.Properties.Tracking
import TradingExchange.Refinement.Origins

namespace TradingExchange

variable {poolSize : UInt64}

/-! ### Iterations as calls -/

namespace Driver

variable {driver : Driver poolSize}

theorem push_orderBook (order : Option (Slot poolSize)) :
    (driver.push order).orderBook = driver.orderBook := by
  cases order with
  | none => rfl
  | some order =>
    rw [push]
    split <;> rfl

/-- A cancel of `main` is a call of `cancelOrder`, or nothing. -/
theorem cancel_run (index : Option Nat)
    (legal : ∀ call ∈ (driver.cancel index).1, call.order ∈ call.book.resting) :
    ∃ logs, Run OrderBook.callLogged Call.Legal driver.orderBook
        ((driver.cancel index).1.map fun call => .cancelOrder call.order) logs
        (driver.cancel index).2.orderBook ∧
      logs.flatten = (driver.cancel index).1.flatMap fun call =>
        call.book.log (.cancelOrder call.order) := by
  have idle : ∃ logs, Run OrderBook.callLogged Call.Legal driver.orderBook [] logs
      driver.orderBook ∧ logs.flatten = [] := ⟨[], .nil _, rfl⟩
  cases index with
  | none => exact idle
  | some index =>
    rw [cancel, cancelAt] at legal ⊢
    cases found : driver.orders[index]? with
    | none => exact idle
    | some order =>
      rw [found] at legal
      simp only at legal ⊢
      split at legal
      · next positive =>
        rw [if_pos positive]
        have resting := legal _ List.mem_cons_self
        refine ⟨[driver.orderBook.log (.cancelOrder order)], ?_, by simp⟩
        exact .cons resting rfl (.nil _)
      · next exhausted =>
        rw [if_neg exhausted]
        exact idle

/-- **An iteration of `main` is a run of the book.** -/
theorem Settled.calls (settled : driver.Settled) (draw : Draw) :
    ∃ cancels next logs, driver.iterate draw = .ok (cancels, next) ∧ next.Settled ∧
      Run OrderBook.callLogged Call.Legal driver.orderBook
        (.addOrder draw.request :: cancels.map fun call => .cancelOrder call.order) logs
        next.orderBook ∧
      logs.flatten = driver.orderBook.log (.addOrder draw.request) ++
        cancels.flatMap fun call => call.book.log (.cancelOrder call.order) := by
  obtain ⟨cancels, next, done, after, legal⟩ := settled.iterate draw
  have ran := done
  rw [Driver.iterate] at ran
  cases added : draw.request.addTo driver.orderBook with
  | error fault =>
    rw [added] at ran
    cases ran
  | ok result =>
    obtain ⟨order, book⟩ := result
    rw [added] at ran
    obtain ⟨rfl, rfl⟩ := Prod.mk.inj (Except.ok.inj ran)
    obtain ⟨logs, cancelled, lines⟩ := cancel_run draw.indexToCancel legal
    rw [push_orderBook] at cancelled
    refine ⟨_, _, driver.orderBook.log (.addOrder draw.request) :: logs, done, after, ?_, ?_⟩
    · refine .cons trivial ?_ cancelled
      rw [OrderBook.callLogged, OrderBook.call, added]
      rfl
    · rw [List.flatten_cons, lines]
      rfl

end Driver

/-! ### Runs of `main` -/

namespace Program

variable {program last : Program poolSize} {drawn : List Drawn}

theorem settled_new {symbol : String} (new : Program.new symbol poolSize = some program) :
    program.driver.Settled ∧ program.generator = {} ∧
      OrderBook.new symbol poolSize = some program.driver.orderBook := by
  obtain ⟨driver, created, rfl⟩ := Option.map_eq_some_iff.mp new
  obtain ⟨book, made, rfl⟩ := Option.map_eq_some_iff.mp created
  exact ⟨Driver.settled_new created, rfl, made⟩

/-- The requests among the calls of an iteration. -/
theorem requestsOf_cancels (request : Request) (cancels : List (CancelCall poolSize)) :
    requestsOf (.addOrder request :: cancels.map fun call => .cancelOrder call.order) =
      [request] := by
  have empty : requestsOf (cancels.map fun call => Call.cancelOrder call.order) = [] := by
    rw [requestsOf, List.flatMap_map]
    exact List.flatMap_eq_nil_iff.mpr fun _ _ => rfl
  rw [requestsOf, List.flatMap_cons, ← requestsOf, empty]
  rfl

/-- **`main` is a run of the book**, which adds the orders of the generator. -/
theorem calls (settled : program.driver.Settled) (drawn : List Drawn) :
    ∃ lines last calls logs, Run Program.iterate (fun _ _ => True) program drawn lines last ∧
      Run OrderBook.callLogged Call.Legal program.driver.orderBook calls logs
        last.driver.orderBook ∧
      lines.flatten = logs.flatten ∧ requestsOf calls = program.generator.requests drawn := by
  induction drawn generalizing program with
  | nil => exact ⟨[], program, [], [], .nil _, .nil _, rfl, rfl⟩
  | cons first later ih =>
    let request := program.generator.request first
    obtain ⟨cancels, next, logs, done, after, run, flat⟩ :=
      settled.calls ⟨request.1, first.indexToCancel⟩
    have settled : (⟨request.2, next⟩ : Program poolSize).driver.Settled := after
    obtain ⟨lines, last, calls, logs', ran, run', same, requests⟩ := ih settled
    have step : program.iterate first = .ok (program.driver.orderBook.log (.addOrder request.1) ++
        cancels.flatMap (fun call => call.book.log (.cancelOrder call.order)), ⟨request.2, next⟩) := by
      show (program.driver.iterate ⟨request.1, first.indexToCancel⟩).map _ = _
      rw [done]
      rfl
    refine ⟨_, last, _, logs ++ logs', .cons trivial step ran, run.append run', ?_, ?_⟩
    · rw [List.flatten_cons, List.flatten_append, flat, same]
    · rw [requestsOf, List.flatMap_append, ← requestsOf, ← requestsOf, requestsOf_cancels, requests]
      rfl

/-- The ids of the generator tell its orders apart. -/
theorem requests_distinct {drawn : List Drawn} (few : drawn.length < 2 ^ 64) :
    ((RandomOrderDataGenerator.requests {} drawn).map Request.orderId).Nodup := by
  have ids : ((RandomOrderDataGenerator.requests {} drawn).map
      (fun request => request.orderId.toNat)).Nodup := by
    have first : ({} : RandomOrderDataGenerator).currentId.toNat = 1 := rfl
    rw [RandomOrderDataGenerator.requests_orderId (by omega)]
    exact List.nodup_range' ..
  rw [← Function.comp_def UInt64.toNat, ← List.map_map] at ids
  exact ids.of_map

/-- **The log of `main` is read as its book**, and the book holds orders of the generator. -/
theorem reads {symbol : String} (new : Program.new symbol poolSize = some program)
    (few : drawn.length < 2 ^ 64) :
    ∃ lines last reader view, Run Program.iterate (fun _ _ => True) program drawn lines last ∧
      Reader.readAll {} lines.flatten = some reader ∧
      reader.Follows last.driver.orderBook view ∧
      Traced (RandomOrderDataGenerator.requests {} drawn) view ∧
      last.driver.orderBook.symbol = symbol := by
  obtain ⟨settled, generator, made⟩ := settled_new new
  obtain ⟨lines, last, calls, logs, ran, run, same, requests⟩ := calls settled drawn
  rw [generator] at requests
  obtain ⟨reader, view, read, follows, traced, named⟩ :=
    Traced.fresh.run run (Reader.Follows.fresh made) (by
      rw [List.nil_append, requests]
      exact requests_distinct few)
  rw [List.nil_append, requests] at traced
  exact ⟨lines, last, reader, view, ran, same ▸ read, follows, traced,
    named.trans (OrderBook.symbol_new made)⟩

end Program

namespace Program

/-- **A run of `main` prints what its log tells**, if it is not too long for the totals. -/
theorem prints {symbol : String} {program : Program poolSize} {drawn : List Drawn}
    (new : Program.new symbol poolSize = some program) (few : drawn.length ≤ 42949) :
    ∃ lines last reader text, Run Program.iterate (fun _ _ => True) program drawn lines last ∧
      Reader.readAll {} lines.flatten = some reader ∧ reader.incoming = none ∧
      last.driver.orderBook.toString = .ok text ∧ reader.Prints symbol text := by
  have short : drawn.length < 2 ^ 64 := by omega
  obtain ⟨lines, last, reader, view, ran, read, follows, traced, named⟩ := Program.reads new short
  have low : 100 ≤ ({} : RandomOrderDataGenerator).lastPrice.toNat := by decide
  have high : ({} : RandomOrderDataGenerator).lastPrice.toNat ≤ 20000 := by decide
  have bounded : 20000 + 350 * drawn.length < 2 ^ 62 := by omega
  obtain ⟨-, range⟩ := RandomOrderDataGenerator.requests_price (le_refl 20000) low high bounded
  obtain ⟨text, shown, printed⟩ := follows.prints
    (fun isBuySide price => by
      have total : reader.total isBuySide price ≤
          (RandomOrderDataGenerator.requests {} drawn).length * 100000 :=
        traced.total_le follows (fun request member =>
          (RandomOrderDataGenerator.requests_size member).2.1) isBuySide price
      rw [RandomOrderDataGenerator.length_requests] at total
      have limit : UInt32.size = 4294967296 := rfl
      omega)
    (fun isBuySide price member => by
      obtain ⟨request, seen, rfl⟩ := traced.price follows.represents member
      have below := (range request seen).2
      rw [exactPrices]
      omega)
  exact ⟨lines, last, reader, text, ran, read, follows.knows.idle, shown, named ▸ printed⟩

end Program

/-- **The log of `main` tells its book**, whatever the random draws, the size of the pool and the
number of iterations. As long as there are fewer of these than slots, the next order is accepted. -/
theorem main_log_replays {symbol : String} {program : Program poolSize} {drawn : List Drawn}
    (new : Program.new symbol poolSize = some program) (few : drawn.length < 2 ^ 64) :
    ∃ lines last reader, Run Program.iterate (fun _ _ => True) program drawn lines last ∧
      Reader.readAll {} lines.flatten = some reader ∧ reader.incoming = none ∧
      (∀ isBuySide price, last.driver.orderBook.readAt
          (fun slot => (last.driver.orderBook.order slot).text) isBuySide price =
        reader.lineAt isBuySide price) ∧
      (drawn.length < poolSize.toNat → ∀ request : Request, ∃ slot after,
        request.addTo last.driver.orderBook = .ok (some slot, after)) := by
  obtain ⟨lines, last, reader, view, ran, read, follows, traced, -⟩ := Program.reads new few
  refine ⟨lines, last, reader, ran, read, follows.knows.idle, follows.readAt, fun room request => ?_⟩
  have free := traced.free
  rw [RandomOrderDataGenerator.length_requests] at free
  obtain ⟨slot, others, found⟩ := List.exists_cons_of_length_pos (by omega : 0 < view.free.length)
  obtain ⟨after, added, -⟩ := follows.represents.addOrder request found
  exact ⟨slot, after, added⟩

/-- A bid of 0.750, an ask of 1.000 that closes it and rests with 0.250, a bid of 2.000 that is
cancelled in the same iteration, and a bid of 0.500: the reader holds the ask and the last bid. -/
theorem main_log_replays_sample : ∃ (program last : Program 8) (drawn : List Drawn)
    (lines : List (List LogLine)) (reader : Reader), drawn.length = 4 ∧
      Run Program.iterate (fun _ _ => True) program drawn lines last ∧
      lines.map List.length = [2, 4, 3, 2] ∧
      Reader.readAll {} lines.flatten = some reader ∧
      reader.lines false 15000 = [⟨false, .limit, "X", 250, 15000, 2⟩] ∧
      reader.lines true 14900 = [] ∧
      reader.lines true 14800 = [⟨true, .limit, "X", 500, 14800, 4⟩] ∧
      ∀ request : Request, ∃ slot after,
        request.addTo last.driver.orderBook = .ok (some slot, after) := by
  let draw (clientId : UInt64) (size : SizeDraw) (price : PriceDraw) (isBuySide : Bool)
      (indexToCancel : Option Nat) : Drawn := ⟨clientId, size, price, isBuySide, .limit, indexToCancel⟩
  let drawn : List Drawn := [
    draw 7 { fractional := true, fracVal := 3, whole := 1 }
      { cluster := true, offset := 0, wide := 10000, round := false } true none,
    draw 8 { fractional := false, fracVal := 1, whole := 1 }
      { cluster := true, offset := 0, wide := 10000, round := true } false none,
    draw 9 { fractional := false, fracVal := 1, whole := 2 }
      { cluster := true, offset := -123, wide := 10000, round := true } true (some 1),
    draw 7 { fractional := true, fracVal := 2, whole := 1 }
      { cluster := true, offset := -100, wide := 10000, round := false } true none]
  have played : ((Program.new "X" 8).bind fun program =>
      execute Program.iterate (fun _ _ => True) program drawn).bind (fun result =>
        (Reader.readAll {} result.1.flatten).map fun reader =>
          (result.1.map List.length, reader.lines false 15000, reader.lines true 14900,
            reader.lines true 14800)) =
      some ([2, 4, 3, 2], [⟨false, .limit, "X", 250, 15000, 2⟩], [],
        [⟨true, .limit, "X", 500, 14800, 4⟩]) := by
    decide +kernel
  obtain ⟨⟨logs, ended⟩, ran, told⟩ := Option.bind_eq_some_iff.mp played
  obtain ⟨program, new, executed⟩ := Option.bind_eq_some_iff.mp ran
  obtain ⟨lines, last, reader, run, read, -, -, accepts⟩ := main_log_replays new
    (by decide : drawn.length < 2 ^ 64)
  rw [run.execute_eq] at executed
  obtain ⟨rfl, rfl⟩ := Prod.mk.inj (Option.some.inj executed)
  rw [read] at told
  obtain ⟨lengths, rest⟩ := Prod.mk.inj (Option.some.inj told)
  obtain ⟨ask, rest⟩ := Prod.mk.inj rest
  obtain ⟨cancelled, bid⟩ := Prod.mk.inj rest
  exact ⟨program, last, drawn, lines, reader, rfl, run, lengths, read, ask, cancelled, bid,
    accepts (by decide)⟩

/-- **What `main` logs**, whatever the random draws: messages that a reader accepts, and last the
text of the book that they tell, in exact decimals. -/
theorem main_output (drawn : Vector Drawn 100) : ∃ (lines : List LogLine) (reader : Reader)
    (text : BookText),
    main drawn = some ("Initializing the Order Book" :: (lines.map LogLine.message ++
      ["Order Book after adding and randomly cancelling orders:\n" ++ text.toString])) ∧
    Reader.readAll {} lines = some reader ∧ reader.incoming = none ∧
    reader.Prints "AAPL" text := by
  have created : (Program.new "AAPL" 1024).isSome = true := by decide +kernel
  obtain ⟨program, new⟩ := Option.isSome_iff_exists.mp created
  have few : drawn.toList.length ≤ 42949 := by
    rw [Vector.length_toList]
    decide
  obtain ⟨lines, last, reader, text, run, read, idle, shown, printed⟩ := Program.prints new few
  refine ⟨lines.flatten, reader, text, ?_, read, idle, printed⟩
  rw [main, new, Option.bind_some, run.execute_eq, Option.bind_some]
  show last.driver.orderBook.text.toOption.map _ = _
  rw [OrderBook.text, shown]
  rfl

end TradingExchange
