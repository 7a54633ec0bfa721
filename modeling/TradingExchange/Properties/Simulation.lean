/-
**The book in memory simulates the pure book.**

The abstract state is a pair of finite maps from prices to non-empty lines of orders, without slots,
links or free list; `PureBook.step` is what the calls mean there. As long as no order is refused, a
run of commands observes what the pure book does (`simulation`), every level is read from its head
along `list_node.next` as the pure line at its price, and every order that was returned has the size
that the pure book knows of it.
-/

import TradingExchange.Refinement.Market

namespace TradingExchange

open Lots Ladder

variable {poolSize : UInt64}

/-- What is read from a session is a pure book. -/
structure Abstracts (session : Session poolSize) (book : PureBook (Ticket Nat)) : Prop where
  levels : ∀ isBuySide price, session.book.readAt session.read isBuySide price =
    (book.lineAt isBuySide price).map (List.map fun lot => (lot.tag, lot.size))
  sizes : ∀ label, session.remaining label = book.remaining label

/-- **Without refusals, a run is a run of the pure book**, and the next command returns. -/
theorem simulation {symbol : String} {start session : Session poolSize} {commands : List Command}
    {observations : List Observation} (created : Session.new symbol poolSize = some start)
    (run : Run Session.step Command.Legal start commands observations session)
    (accepted : ∀ observation ∈ observations, observation.accepted = true) :
    observations = (replay PureBook.step PureBook.empty commands).1 ∧
      Abstracts session (replay PureBook.step PureBook.empty commands).2 ∧
      ∀ command, command.Legal session →
        ∃ observation after, session.step command = .ok (observation, after) := by
  obtain ⟨observed, shown⟩ := (Session.Shows.fresh created).run run
  obtain ⟨same, book⟩ := Market.replay_book (observed ▸ accepted)
  have levels := shown.readAt
  have sizes := shown.remaining
  rw [book] at levels sizes
  refine ⟨observed.trans same, ⟨levels, congrFun sizes⟩, fun command legal => ?_⟩
  obtain ⟨after, ran, -⟩ := shown.step legal
  exact ⟨_, after, ran⟩

/-- Two asks, a bid that takes one and part of the other, and a cancel: the slot of the first ask is
used again. -/
theorem simulation_sample : ∃ (observations : List Observation) (session : Session 3),
    Session.play "X" 3 [.addOrder 0 ⟨1, 1, 5, 10, false, .limit⟩,
      .addOrder 1 ⟨2, 2, 5, 10, false, .limit⟩, .addOrder 2 ⟨3, 3, 7, 11, true, .limit⟩,
      .cancelOrder 1, .addOrder 3 ⟨4, 4, 9, 8, true, .market⟩] = some (observations, session) ∧
    session.book.resting.map Fin.val = [1] ∧
    Abstracts session (replay PureBook.step PureBook.empty [.addOrder 0 ⟨1, 1, 5, 10, false, .limit⟩,
      .addOrder 1 ⟨2, 2, 5, 10, false, .limit⟩, .addOrder 2 ⟨3, 3, 7, 11, true, .limit⟩,
      .cancelOrder 1, .addOrder 3 ⟨4, 4, 9, 8, true, .market⟩]).2 := by
  have played : (Session.play "X" 3 [.addOrder 0 ⟨1, 1, 5, 10, false, .limit⟩,
      .addOrder 1 ⟨2, 2, 5, 10, false, .limit⟩, .addOrder 2 ⟨3, 3, 7, 11, true, .limit⟩,
      .cancelOrder 1, .addOrder 3 ⟨4, 4, 9, 8, true, .market⟩]).map (fun result =>
        decide (result.2.book.resting.map Fin.val = [1] ∧
          ∀ observation ∈ result.1, observation.accepted = true)) = some true := by
    decide +kernel
  obtain ⟨⟨observations, session⟩, ran, facts⟩ := Option.map_eq_some_iff.mp played
  obtain ⟨resting, accepted⟩ := of_decide_eq_true facts
  refine ⟨observations, session, ran, resting, ?_⟩
  obtain ⟨start, created, ran⟩ := Option.bind_eq_some_iff.mp ran
  exact (simulation created (.of_execute ran) accepted).2.1

end TradingExchange
