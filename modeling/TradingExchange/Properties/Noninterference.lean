/-
**An order that is cancelled before anything touched it leaves no trace.**

Run A adds an order that matches nothing, and cancels it later at its full size. Run B is A without
these two commands. While the order rests, the books differ by it, and so do the slots from then on;
but the market of B is the market of A without the order (`Twin`), and an order that is not touched
makes no difference to any command (`Market.step_without`). After the cancel the two markets are the
same. So every other command observes the same in both runs, and the books read the same
(`no_trace`).
-/

import TradingExchange.Refinement.Market

namespace TradingExchange

open Lots Ladder

variable {poolSize : UInt64}

/-- A legal command that is not refused, and leaves an order its size. -/
structure Sparing (label : Nat) (session : Session poolSize) (command : Command) : Prop where
  legal : command.Legal session
  accepted : ∀ observation after, session.step command = .ok (observation, after) →
    observation.accepted = true
  spared : ∀ observation after, session.step command = .ok (observation, after) →
    after.remaining label = session.remaining label

instance (label : Nat) (session : Session poolSize) : DecidablePred (Sparing label session) :=
  fun command => decidable_of_iff (command.Legal session ∧
      (match session.step command with
        | .error _ => true
        | .ok (observation, after) => observation.accepted &&
          decide (after.remaining label = session.remaining label)) = true) <| by
    constructor
    · rintro ⟨legal, rest⟩
      refine ⟨legal, fun observation after ran => ?_, fun observation after ran => ?_⟩ <;>
        rw [ran, Bool.and_eq_true, decide_eq_true_iff] at rest
      · exact rest.1
      · exact rest.2
    · rintro ⟨legal, accepted, spared⟩
      refine ⟨legal, ?_⟩
      split
      · rfl
      · next observation after ran =>
        rw [Bool.and_eq_true, decide_eq_true_iff]
        exact ⟨accepted _ _ ran, spared _ _ ran⟩

/-- The same prices, with the same orders of the same sizes in the same places. -/
def SameBook (session other : Session poolSize) : Prop :=
  ∀ isBuySide price, session.book.readAt session.read isBuySide price =
    other.book.readAt other.read isBuySide price

/-- Two sessions whose markets are related, the second with no later clock. -/
structure Twin (related : Market → Market → Prop) (session other : Session poolSize) : Prop where
  shown : ∃ market market', session.Shows market ∧ other.Shows market' ∧ related market market'
  clock : other.clock ≤ session.clock

section Twins

variable {session other after : Session poolSize} {market market' : Market} {command : Command}
  {observation : Observation}

/-- A command whose step the other market follows is followed by the other session. -/
theorem Session.Shows.follow (shown : session.Shows market) (shown' : other.Shows market')
    (legal : command.Legal session) (legal' : command.Legal other)
    (clock : other.clock ≤ session.clock) (same : (market'.step command).1 = (market.step command).1)
    (related : Market → Market → Prop) (kept : related (market.step command).2 (market'.step command).2)
    (ran : session.step command = .ok (observation, after)) :
    ∃ after', other.step command = .ok (observation, after') ∧ Twin related after after' := by
  obtain ⟨next, returned, shown₁⟩ := shown.step legal
  obtain ⟨rfl, rfl⟩ := Prod.mk.inj (Except.ok.inj (ran.symm.trans returned))
  obtain ⟨next', returned', shown₂⟩ := shown'.step legal'
  refine ⟨next', by rw [returned', same], ⟨_, _, shown₁, shown₂, kept⟩, ?_⟩
  rw [Session.clock_step ran, Session.clock_step returned']
  cases command with
  | addOrder => exact Nat.le_refl _
  | _ => exact clock

/-- **While an order is not touched**, the session without it follows. -/
theorem Twin.sparing {label : Nat}
    (twin : Twin (fun market market' => market' = market.without label) session other)
    (older : label < session.clock) (sparing : Sparing label session command)
    (ran : session.step command = .ok (observation, after)) :
    ∃ after', command.Legal other ∧ other.step command = .ok (observation, after') ∧
      Twin (fun market market' => market' = market.without label) after after' ∧
      label < after.clock := by
  obtain ⟨⟨market, _, shown, shown', rfl⟩, clock⟩ := twin
  obtain ⟨legal, accepted, spared⟩ := sparing
  obtain ⟨next, returned, next_shown⟩ := shown.step legal
  obtain ⟨rfl, rfl⟩ := Prod.mk.inj (Except.ok.inj (ran.symm.trans returned))
  have room : ¬ market.Refuses command := by
    intro refuses
    have := accepted _ _ ran
    rw [Market.step, if_pos refuses] at this
    exact absurd this Bool.false_ne_true
  have untouched : (market.step command).2.book.remaining label = market.book.remaining label := by
    rw [← next_shown.remaining, ← shown.remaining]
    exact spared _ _ ran
  have apart : command.label ≠ some label := by
    cases command with
    | addOrder new request =>
      rintro same
      obtain rfl := Option.some.inj same
      exact Nat.lt_irrefl _ (Nat.lt_of_lt_of_le older legal)
    | cancelOrder gone =>
      rintro same
      obtain rfl := Option.some.inj same
      have positive := (shown.legal_cancel gone).mp legal
      have nothing : (market.step (.cancelOrder gone)).2.book.remaining gone = 0 :=
        PureBook.remaining_without_self
      omega
    | matchOrder => exact (Option.some_ne_none label).symm
  obtain ⟨same, left⟩ := Prod.ext_iff.mp (Market.step_without apart room untouched)
  have legal' : command.Legal other := by
    cases command with
    | addOrder new request => exact Nat.le_trans clock legal
    | cancelOrder gone =>
      rw [shown'.legal_cancel]
      refine Nat.lt_of_lt_of_eq ((shown.legal_cancel gone).mp legal) ?_
      exact (PureBook.remaining_without fun equal => apart (congrArg some equal)).symm
    | matchOrder => trivial
  obtain ⟨after', ran', twin⟩ := shown.follow shown' legal legal' clock same
    (fun market market' => market' = market.without label) left ran
  refine ⟨after', legal', ran', twin, ?_⟩
  rw [Session.clock_step ran]
  cases command with
  | addOrder new request => exact Nat.lt_succ_of_lt (Nat.lt_of_lt_of_le older legal)
  | _ => exact older

/-- Sessions with the same market go on alike. -/
theorem Twin.same (twin : Twin Eq session other) (legal : command.Legal session)
    (ran : session.step command = .ok (observation, after)) :
    ∃ after', command.Legal other ∧ other.step command = .ok (observation, after') ∧
      Twin Eq after after' := by
  obtain ⟨⟨market, _, shown, shown', rfl⟩, clock⟩ := twin
  have legal' : command.Legal other := by
    cases command with
    | addOrder new request => exact Nat.le_trans clock legal
    | cancelOrder gone => rwa [shown'.legal_cancel, ← shown.legal_cancel]
    | matchOrder => trivial
  obtain ⟨after', ran', twin⟩ := shown.follow shown' legal legal' clock rfl Eq rfl ran
  exact ⟨after', legal', ran', twin⟩

end Twins

/-! ### Runs -/

section Runs

variable {start first second third fourth fifth : Session poolSize} {label : Nat}
  {request : Request} {before between behind : List Command}
  {observed observed' observed'' : List Observation}

/-- The session before an order is added is the session after, without the order. -/
theorem Session.Shows.twin {market : Market} {against : Nat → Int}
    (shown : first.Shows market) (legal : (Command.addOrder label request).Legal first)
    (whole : 0 < request.size)
    (added : first.step (.addOrder label request) =
      .ok (.added request.size.toNat against, second)) :
    Twin (fun market market' => market' = market.without label) second first := by
  obtain ⟨room, left, -, next_shown⟩ := shown.added legal added
  have unmatched : market.book.available request.isBuySide request.price request.orderType = 0 := by
    rw [UInt32.lt_iff_toNat_lt, UInt32.toNat_zero] at whole
    omega
  have closed : market.book.closes request.isBuySide request.price request.size.toNat
      request.orderType = [] := by
    rw [PureBook.closes, closed_eq, show liquidity _ _ = 0 from unmatched, Nat.min_zero, spent_zero]
  refine ⟨⟨_, market, next_shown, shown, Market.ext ?_ ?_⟩, ?_⟩
  · have absent : ∀ side, ∀ lot ∈ market.book.line side, Ticket.isOf label lot.tag = false :=
      fun side lot member => decide_eq_false fun same =>
        Nat.lt_irrefl _ (Nat.lt_of_lt_of_le (same ▸ shown.dated side lot member) legal)
    have own : Ticket.isOf label (request.ticket label) = true := decide_eq_true rfl
    exact (PureBook.cancel_add own absent unmatched).symm
  · simp only [Market.without, Market.roomAfter, closed, List.length_nil]
    omega
  · rw [Session.clock_step added]
    exact Nat.le_succ_of_le legal

/-- **An order that is cancelled untouched leaves no trace.** -/
theorem no_trace {symbol : String} {against : Nat → Int} {left : Nat}
    (created : Session.new symbol poolSize = some start)
    (run : Run Session.step Command.Legal start before observed first)
    (legal : (Command.addOrder label request).Legal first)
    (added : first.step (.addOrder label request) =
      .ok (.added request.size.toNat against, second))
    (run' : Run Session.step (Sparing label) second between observed' third)
    (resting : (Command.cancelOrder label).Legal third)
    (cancelled : third.step (.cancelOrder label) = .ok (.cancelled left, fourth))
    (run'' : Run Session.step Command.Legal fourth behind observed'' fifth) :
    (∃ other, Run Session.step Command.Legal start (before ++ (between ++ behind))
        (observed ++ (observed' ++ observed'')) other) ∧
      ∀ observations other, Run Session.step Command.Legal start (before ++ (between ++ behind))
          observations other →
        observations = observed ++ (observed' ++ observed'') ∧ SameBook fifth other := by
  obtain ⟨-, shown⟩ := (Session.Shows.fresh created).run run
  have older : label < second.clock := by
    rw [Session.clock_step added]
    exact Nat.lt_succ_self label
  -- the order keeps its size until it is cancelled, so it has one
  have kept : third.remaining label = request.size.toNat :=
    run'.invariant (fun session => session.remaining label = request.size.toNat)
      (fun _ _ _ _ size sparing ran => (sparing.spared _ _ ran).trans size)
      (Session.observed_of_added added).1
  have whole : 0 < request.size := by
    obtain ⟨next, returned, shown_second⟩ := shown.step legal
    obtain ⟨-, rfl⟩ := Prod.mk.inj (Except.ok.inj (added.symm.trans returned))
    obtain ⟨-, shown_third⟩ := shown_second.run (run'.mono fun _ _ sparing => sparing.legal)
    have positive := (shown_third.legal_cancel label).mp resting
    rwa [← shown_third.remaining, kept] at positive
  obtain ⟨middle, runB, twin, -⟩ := run'.lockstep
    (fun session other => Twin (fun market market' => market' = market.without label) session other ∧
      label < session.clock) id
    (fun _ _ _ _ _ related sparing ran => related.1.sparing related.2 sparing ran)
    ⟨shown.twin legal whole added, older⟩
  rw [List.map_id] at runB
  obtain ⟨⟨market, _, shown_third, shown_middle, rfl⟩, clock⟩ := twin
  obtain ⟨next, returned, shown_fourth⟩ := shown_third.step resting
  obtain ⟨-, rfl⟩ := Prod.mk.inj (Except.ok.inj (cancelled.symm.trans returned))
  have twin : Twin Eq fourth middle := by
    refine ⟨⟨_, _, shown_fourth, shown_middle, rfl⟩, ?_⟩
    rwa [Session.clock_step cancelled]
  obtain ⟨last, runC, twin⟩ := run''.lockstep (Twin Eq) id
    (fun _ _ _ _ _ twin legal ran => twin.same legal ran) twin
  rw [List.map_id] at runC
  have runB := run.append (runB.append runC)
  refine ⟨⟨last, runB⟩, fun observations other ran => ?_⟩
  obtain ⟨rfl, rfl⟩ := runB.unique ran
  obtain ⟨⟨market', _, shown_fifth, shown_last, rfl⟩, -⟩ := twin
  exact ⟨rfl, fun isBuySide price => by rw [shown_fifth.readAt, shown_last.readAt]⟩

/-- A bid rests below another, which is matched, and is cancelled. -/
theorem no_trace_sample : ∃ (start fifth other : Session 3) (observed : List Observation),
    Session.new "X" 3 = some start ∧
    Run Session.step Command.Legal start [.addOrder 1 ⟨2, 2, 4, 12, true, .limit⟩,
      .addOrder 2 ⟨3, 3, 3, 11, false, .limit⟩] observed other ∧
    fifth.book.resting.map Fin.val = [1] ∧ SameBook fifth other := by
  have played : ((Session.new "X" 3).bind fun start =>
      (start.step (.addOrder 0 ⟨1, 1, 5, 10, true, .limit⟩)).toOption.bind fun result =>
        (execute Session.step (Sparing 0) result.2 [.addOrder 1 ⟨2, 2, 4, 12, true, .limit⟩,
          .addOrder 2 ⟨3, 3, 3, 11, false, .limit⟩]).map fun third =>
            decide ((Command.addOrder 0 ⟨1, 1, 5, 10, true, .limit⟩).Legal start ∧
              result.1.isAdded 5 = true ∧
              (Command.cancelOrder 0).Legal third.2 ∧
              (third.2.release 0 (third.2.book.cancelOrder (third.2.handle 0))).book.resting.map
                Fin.val = [1])) = some true := by
    decide +kernel
  obtain ⟨start, created, played⟩ := Option.bind_eq_some_iff.mp played
  obtain ⟨⟨observation, second⟩, ran, played⟩ := Option.bind_eq_some_iff.mp played
  obtain ⟨⟨observed, third⟩, between, facts⟩ := Option.map_eq_some_iff.mp played
  obtain ⟨legal, whole, resting, left⟩ := of_decide_eq_true facts
  have added : start.step (.addOrder 0 ⟨1, 1, 5, 10, true, .limit⟩) =
      .ok (observation, second) := by
    cases stepped : start.step (.addOrder 0 ⟨1, 1, 5, 10, true, .limit⟩) with
    | error fault =>
      rw [stepped] at ran
      exact absurd ran (Option.some_ne_none _).symm
    | ok result =>
      rw [stepped] at ran
      exact congrArg Except.ok (Option.some.inj ran)
  cases observation with
  | added remainder against =>
    obtain rfl := eq_of_beq whole
    obtain ⟨⟨other, run⟩, same⟩ := no_trace created (.nil start) legal added (.of_execute between)
      resting rfl (.nil _)
    exact ⟨start, _, other, _, created, run, left, (same _ _ run).2⟩
  | refused => exact absurd whole Bool.false_ne_true
  | cancelled => exact absurd whole Bool.false_ne_true
  | matched => exact absurd whole Bool.false_ne_true

end Runs

end TradingExchange
