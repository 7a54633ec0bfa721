/-
**Quantity is conserved.**

Each accepted order has an account in a ledger. The account is opened with the order's size and with
what it matched on arrival, which is what `addOrder` took off its own size; it is credited with what
every later order takes off its size, and closed with the remainder when it is cancelled. The two
sides of a trade are booked at different places, on the resting order where its level is matched,
on the incoming order once at the end; the ledger keeps them apart.

* `Kept`: what ledger and session have in common, which every command keeps;
* `Kept.exchange`: an order matches on arrival what the orders of the other side lose;
* `conservation`: every account balances, and both sides have traded the same.
-/

import TradingExchange.Refinement.Market

namespace TradingExchange

open Lots Ladder

variable {poolSize : UInt64}

/-- The account of an accepted order, with its remainder if it was cancelled. -/
structure Account where
  label : Nat
  isBuySide : Bool
  original : Nat
  onArrival : Int
  reduced : Int := 0
  withdrawn : Option Nat := none

namespace Account

/-- The account of a new order. -/
def opened (label : Nat) (request : Request) (remainder : Nat) : Account where
  label := label
  isBuySide := request.isBuySide
  original := request.size.toNat
  onArrival := request.size.toNat - remainder

/-- A later order took so much. -/
def credit (against : Nat → Int) (account : Account) : Account :=
  { account with reduced := account.reduced + against account.label }

/-- The order was cancelled. -/
def close (label remainder : Nat) (account : Account) : Account :=
  if account.label = label then { account with withdrawn := some remainder } else account

/-- All that the order matched. -/
def traded (account : Account) : Int := account.onArrival + account.reduced

/-- What the order has left, or had when it was cancelled. -/
def standing (account : Account) (session : Session poolSize) : Nat :=
  account.withdrawn.getD (session.remaining account.label)

end Account

/-- The accounts after a command. -/
def post (accounts : List Account) : Command → Observation → List Account
  | .addOrder label request, .added remainder against =>
    accounts.map (Account.credit against) ++ [.opened label request remainder]
  | .cancelOrder label, .cancelled remainder => accounts.map (Account.close label remainder)
  | _, _ => accounts

/-- The accounts of a run. -/
def ledger : List Command → List Observation → List Account := record post []

/-- The accounts of a side. -/
def accountsOf (accounts : List Account) (isBuySide : Bool) : List Account :=
  accounts.filter fun account => account.isBuySide = isBuySide

/-- The orders of a side. -/
def ordersOn (accounts : List Account) (isBuySide : Bool) : List Nat :=
  (accountsOf accounts isBuySide).map Account.label

/-- All that a side has traded. -/
def turnover (accounts : List Account) (isBuySide : Bool) : Int :=
  ((accountsOf accounts isBuySide).map Account.traded).sum

/-- An order takes from the other side what it matches, and no more from an order than it has. -/
structure Exchange (session : Session poolSize) (accounts : List Account) (request : Request)
    (remainder : Nat) (against : Nat → Int) : Prop where
  paid : request.size.toNat - (remainder : Int) =
    ((ordersOn accounts !request.isBuySide).map against).sum
  least : ∀ other, 0 ≤ against other
  most : ∀ other, against other ≤ session.remaining other
  opposite : ∀ other ∉ ordersOn accounts !request.isBuySide, against other = 0

/-- Every account balances, both sides have traded the same, and the next order pays what it takes. -/
structure Conserved (session : Session poolSize) (accounts : List Account) : Prop where
  distinct : (accounts.map Account.label).Nodup
  balanced : ∀ account ∈ accounts,
    (account.original : Int) = account.standing session + account.onArrival + account.reduced
  bounded : ∀ account ∈ accounts,
    0 ≤ account.onArrival ∧ 0 ≤ account.reduced ∧ account.traded ≤ account.original
  even : turnover accounts true = turnover accounts false
  exchange : ∀ label request remainder against after,
    (Command.addOrder label request).Legal session →
    session.step (.addOrder label request) = .ok (.added remainder against, after) →
    Exchange session accounts request remainder against

/-- A legal command that is no direct match. -/
def Trading (session : Session poolSize) (command : Command) : Prop :=
  command.Legal session ∧ command.label ≠ none

instance (session : Session poolSize) : DecidablePred (Trading session) :=
  fun _ => inferInstanceAs (Decidable (_ ∧ _))

/-- What ledger and session have in common. -/
structure Kept (session : Session poolSize) (accounts : List Account) : Prop where
  shown : ∃ market, session.Shows market ∧
    ∀ side, ∀ lot ∈ market.book.line side, lot.tag.ref ∈ ordersOn accounts side
  dated : ∀ account ∈ accounts, account.label < session.clock
  distinct : (accounts.map Account.label).Nodup
  balanced : ∀ account ∈ accounts,
    (account.original : Int) = account.standing session + account.onArrival + account.reduced
  positive : ∀ account ∈ accounts, 0 ≤ account.onArrival ∧ 0 ≤ account.reduced
  closed : ∀ account ∈ accounts, account.withdrawn ≠ none → session.remaining account.label = 0
  even : ∀ isBuySide, turnover accounts isBuySide = turnover accounts !isBuySide

/-! ### Posting -/

section Posting

variable {accounts : List Account} {against : Nat → Int} {label remainder : Nat} {side : Bool}

theorem ordersOn_append (more : List Account) :
    ordersOn (accounts ++ more) side = ordersOn accounts side ++ ordersOn more side := by
  rw [ordersOn, accountsOf, List.filter_append, List.map_append]
  rfl

theorem turnover_append (more : List Account) :
    turnover (accounts ++ more) side = turnover accounts side + turnover more side := by
  rw [turnover, accountsOf, List.filter_append, List.map_append, List.sum_append]
  rfl

theorem accountsOf_self (account : Account) :
    accountsOf [account] account.isBuySide = [account] :=
  List.filter_cons_of_pos (decide_eq_true rfl)

theorem accountsOf_not (account : Account) : accountsOf [account] (!account.isBuySide) = [] :=
  List.filter_cons_of_neg fun same => Bool.not_ne_self _ (of_decide_eq_true same).symm

/-- Posting moves no account to the other side. -/
theorem accountsOf_map {post : Account → Account}
    (same : ∀ account, (post account).isBuySide = account.isBuySide) :
    accountsOf (accounts.map post) side = (accountsOf accounts side).map post := by
  rw [accountsOf, List.filter_map]
  exact congrArg (List.map post) (List.filter_congr fun account _ =>
    decide_eq_decide.mpr (by rw [same]))

theorem close_label (account : Account) : (account.close label remainder).label = account.label := by
  rw [Account.close]
  split <;> rfl

theorem close_isBuySide (account : Account) :
    (account.close label remainder).isBuySide = account.isBuySide := by
  rw [Account.close]
  split <;> rfl

theorem close_traded (account : Account) :
    (account.close label remainder).traded = account.traded := by
  rw [Account.close]
  split <;> rfl

theorem credit_isBuySide (account : Account) :
    (account.credit against).isBuySide = account.isBuySide := rfl

theorem ordersOn_credit : ordersOn (accounts.map (Account.credit against)) side =
    ordersOn accounts side := by
  rw [ordersOn, accountsOf_map credit_isBuySide, List.map_map]
  rfl

theorem ordersOn_close : ordersOn (accounts.map (Account.close label remainder)) side =
    ordersOn accounts side := by
  rw [ordersOn, accountsOf_map close_isBuySide, List.map_map]
  exact List.map_congr_left fun account _ => close_label account

/-- A side has traded what its orders were reduced by, besides. -/
theorem turnover_credit : turnover (accounts.map (Account.credit against)) side =
    turnover accounts side + ((ordersOn accounts side).map against).sum := by
  rw [turnover, accountsOf_map credit_isBuySide, List.map_map, turnover, ordersOn, List.map_map,
    ← List.sum_map_add]
  refine congrArg List.sum (List.map_congr_left fun account _ => ?_)
  exact (Int.add_assoc ..).symm

theorem turnover_close : turnover (accounts.map (Account.close label remainder)) side =
    turnover accounts side := by
  rw [turnover, accountsOf_map close_isBuySide, List.map_map]
  exact congrArg List.sum (List.map_congr_left fun account _ => close_traded account)

theorem mem_ordersOn : label ∈ ordersOn accounts side ↔
    ∃ account ∈ accounts, account.isBuySide = side ∧ account.label = label := by
  simp only [ordersOn, accountsOf, List.mem_map, List.mem_filter, decide_eq_true_eq, and_assoc]

/-- No order is on both sides. -/
theorem not_mem_ordersOn (distinct : (accounts.map Account.label).Nodup)
    (member : label ∈ ordersOn accounts side) : label ∉ ordersOn accounts !side := by
  intro member'
  obtain ⟨account, found, here, same⟩ := mem_ordersOn.mp member
  obtain ⟨account', found', there, same'⟩ := mem_ordersOn.mp member'
  obtain rfl := List.inj_on_of_nodup_map distinct found found' (same.trans same'.symm)
  exact Bool.not_ne_self side (there.symm.trans here)

theorem nodup_ordersOn (distinct : (accounts.map Account.label).Nodup) :
    (ordersOn accounts side).Nodup :=
  distinct.sublist (List.filter_sublist.map Account.label)

end Posting

/-! ### Commands -/

section Commands

variable {session after : Session poolSize} {accounts : List Account} {label remainder : Nat}
  {request : Request} {against : Nat → Int} {observation : Observation} {command : Command}

/-- **An order matches on arrival what the orders of the other side lose.** -/
theorem Kept.exchange (kept : Kept session accounts)
    (legal : (Command.addOrder label request).Legal session)
    (ran : session.step (.addOrder label request) = .ok (.added remainder against, after)) :
    Exchange session accounts request remainder against := by
  obtain ⟨market, shown, covered⟩ := kept.shown
  obtain ⟨-, rfl, rfl, -⟩ := shown.added legal ran
  have new : ∀ side, ∀ lot ∈ market.book.line side, lot.tag.ref ≠ label := fun side lot member =>
    Nat.ne_of_lt (Nat.lt_of_lt_of_le (shown.dated side lot member) legal)
  have bounds := PureBook.reductions_submit_bounds request new
  refine ⟨?_, fun other => (bounds other).1, fun other => ?_, fun other absent => ?_⟩
  · have taken := PureBook.sum_reductions_submit new (nodup_ordersOn kept.distinct)
      (covered !request.isBuySide)
    omega
  · have parts : market.book.quantity (Ticket.isOf other) = _ :=
      PureBook.quantity_sides _ request.isBuySide
    have most := (bounds other).2
    rw [shown.remaining, PureBook.remaining, parts]
    omega
  · have nothing : Lots.quantity (Ticket.isOf other) (market.book.line !request.isBuySide) = 0 :=
      quantity_eq_zero fun lot member => decide_eq_false fun same =>
        absent (same ▸ covered _ lot member)
    have most := (bounds other).2
    have least := (bounds other).1
    omega

theorem Kept.refused (kept : Kept session accounts)
    (legal : (Command.addOrder label request).Legal session)
    (ran : session.step (.addOrder label request) = .ok (.refused, after)) :
    Kept after accounts := by
  obtain ⟨market, shown, covered⟩ := kept.shown
  obtain ⟨next, returned, next_shown⟩ := shown.step legal
  obtain ⟨observed, rfl⟩ := Prod.mk.inj (Except.ok.inj (ran.symm.trans returned))
  by_cases refused : market.Refuses (.addOrder label request)
  · rw [Market.step, if_pos refused] at next_shown
    have same : after.remaining = session.remaining :=
      next_shown.remaining.trans shown.remaining.symm
    refine ⟨⟨market, next_shown, covered⟩, fun account member => ?_, kept.distinct,
      fun account member => ?_, kept.positive, fun account member => ?_, kept.even⟩
    · rw [Session.clock_step ran]
      exact Nat.lt_succ_of_lt (Nat.lt_of_lt_of_le (kept.dated account member) legal)
    · rw [Account.standing, same]
      exact kept.balanced account member
    · rw [same]
      exact kept.closed account member
  · rw [Market.step_of_accepted refused] at observed
    cases observed

/-- **What the new order pays is what the others are credited**, so both sides have traded the same. -/
theorem Kept.even_added (kept : Kept session accounts)
    (exchange : Exchange session accounts request remainder against) (side : Bool) :
    turnover (accounts.map (Account.credit against) ++ [.opened label request remainder]) side =
      turnover (accounts.map (Account.credit against) ++ [.opened label request remainder])
        !side := by
  have sums : ∀ side, turnover (accounts.map (Account.credit against) ++
      [.opened label request remainder]) side = turnover accounts side +
        ((ordersOn accounts side).map against).sum +
          turnover [.opened label request remainder] side := fun side => by
    rw [turnover_append, turnover_credit]
  have spared : ((ordersOn accounts request.isBuySide).map against).sum = 0 := by
    refine List.sum_eq_zero fun amount member => ?_
    obtain ⟨other, there, rfl⟩ := List.mem_map.mp member
    exact exchange.opposite other (not_mem_ordersOn kept.distinct there)
  have self : turnover [.opened label request remainder] request.isBuySide =
      request.size.toNat - remainder := by
    rw [turnover, show accountsOf _ request.isBuySide = _ from accountsOf_self (.opened ..),
      List.map_singleton, List.sum_singleton]
    exact Int.add_zero _
  have not : turnover [.opened label request remainder] (!request.isBuySide) = 0 := by
    rw [turnover, show accountsOf _ (!request.isBuySide) = _ from accountsOf_not (.opened ..)]
    rfl
  have even := kept.even request.isBuySide
  have paid := exchange.paid
  have meet : turnover (accounts.map (Account.credit against) ++
      [.opened label request remainder]) request.isBuySide =
      turnover (accounts.map (Account.credit against) ++
        [.opened label request remainder]) !request.isBuySide := by
    rw [sums, sums, spared, self, not]
    omega
  by_cases same : side = request.isBuySide
  · exact same ▸ meet
  · rw [Bool.eq_not_of_ne same, Bool.not_not]
    exact meet.symm

/-- **The account of a new order is opened, and those of the others are credited.** -/
theorem Kept.added (kept : Kept session accounts)
    (legal : (Command.addOrder label request).Legal session)
    (ran : session.step (.addOrder label request) = .ok (.added remainder against, after)) :
    Kept after (accounts.map (Account.credit against) ++ [.opened label request remainder]) := by
  have exchange := kept.exchange legal ran
  obtain ⟨own, reduced⟩ := Session.observed_of_added ran
  obtain ⟨market, shown, covered⟩ := kept.shown
  obtain ⟨-, left, -, after_shown⟩ := shown.added legal ran
  have older : ∀ account ∈ accounts, account.label < label := fun account member =>
    Nat.lt_of_lt_of_le (kept.dated account member) legal
  have lost : ∀ account ∈ accounts, against account.label =
      session.remaining account.label - after.remaining account.label := fun account member => by
    rw [reduced, reductions, if_neg fun same =>
      Nat.ne_of_lt (older account member) (Option.some.inj same).symm]
  refine ⟨⟨_, after_shown, fun side lot member => ?_⟩, fun account member => ?_, ?_,
    fun account member => ?_, fun account member => ?_, fun account member closed => ?_, ?_⟩
  · rw [ordersOn_append, List.mem_append, ordersOn_credit]
    rcases PureBook.mem_line_add member with ⟨rfl, new⟩ | ⟨earlier, there, same⟩
    · rw [new]
      exact .inr (List.mem_map_of_mem (accountsOf_self (.opened label request remainder) ▸
        List.mem_singleton_self _))
    · rw [← same]
      exact .inl (covered side earlier there)
  · rw [Session.clock_step ran]
    rcases List.mem_append.mp member with credited | opened
    · obtain ⟨account, found, rfl⟩ := List.mem_map.mp credited
      exact Nat.lt_succ_of_lt (older account found)
    · obtain rfl := List.mem_singleton.mp opened
      exact Nat.lt_succ_self label
  · rw [List.map_append, List.map_map, List.nodup_append]
    refine ⟨kept.distinct, List.nodup_singleton _, fun other member new same => ?_⟩
    obtain ⟨account, found, rfl⟩ := List.mem_map.mp member
    rintro rfl
    exact Nat.ne_of_lt (older account found) (List.mem_singleton.mp same)
  · rcases List.mem_append.mp member with credited | opened
    · obtain ⟨account, found, rfl⟩ := List.mem_map.mp credited
      have balanced := kept.balanced account found
      have lost := lost account found
      simp only [Account.standing, Account.credit] at balanced ⊢
      cases gone : account.withdrawn with
      | none =>
        rw [gone, Option.getD_none] at balanced
        rw [Option.getD_none]
        omega
      | some left =>
        -- a cancelled order has nothing left to be taken
        have nothing := kept.closed account found (gone ▸ Option.some_ne_none left)
        have least := exchange.least account.label
        rw [gone, Option.getD_some] at balanced
        rw [Option.getD_some]
        omega
    · obtain rfl := List.mem_singleton.mp opened
      simp only [Account.standing, Account.opened, Option.getD_none, own]
      omega
  · rcases List.mem_append.mp member with credited | opened
    · obtain ⟨account, found, rfl⟩ := List.mem_map.mp credited
      obtain ⟨onArrival, reduced⟩ := kept.positive account found
      exact ⟨onArrival, Int.add_nonneg reduced (exchange.least _)⟩
    · obtain rfl := List.mem_singleton.mp opened
      refine ⟨?_, Int.le_refl 0⟩
      simp only [Account.opened]
      omega
  · rcases List.mem_append.mp member with credited | opened
    · obtain ⟨account, found, rfl⟩ := List.mem_map.mp credited
      have nothing := kept.closed account found closed
      have lost := lost account found
      have least := exchange.least account.label
      show after.remaining account.label = 0
      omega
    · obtain rfl := List.mem_singleton.mp opened
      exact absurd rfl closed
  · exact kept.even_added exchange

/-- **The account of a cancelled order is closed.** -/
theorem Kept.cancelled (kept : Kept session accounts)
    (legal : (Command.cancelOrder label).Legal session)
    (ran : session.step (.cancelOrder label) = .ok (.cancelled remainder, after)) :
    Kept after (accounts.map (Account.close label remainder)) := by
  obtain ⟨market, shown, covered⟩ := kept.shown
  obtain ⟨next, returned, next_shown⟩ := shown.step legal
  obtain ⟨observed, rfl⟩ := Prod.mk.inj (Except.ok.inj (ran.symm.trans returned))
  have positive := (shown.legal_cancel label).mp legal
  have left : remainder = session.remaining label := by
    rw [shown.remaining]
    exact Observation.cancelled.inj observed
  have gone : after.remaining label = 0 := by
    rw [next_shown.remaining]
    exact PureBook.remaining_without_self
  have others : ∀ other, other ≠ label → after.remaining other = session.remaining other :=
    fun other different => by
      rw [next_shown.remaining, shown.remaining]
      exact PureBook.remaining_without different
  rw [← shown.remaining] at positive
  refine ⟨⟨_, next_shown, fun side lot member => ?_⟩, fun account member => ?_, ?_,
    fun account member => ?_, fun account member => ?_, fun account member closed => ?_,
    fun side => ?_⟩
  · rw [ordersOn_close]
    exact covered side lot (PureBook.mem_line_cancel member)
  · obtain ⟨account, found, rfl⟩ := List.mem_map.mp member
    rw [Session.clock_step ran, close_label]
    exact kept.dated account found
  · rw [List.map_map]
    exact (List.map_congr_left fun account _ => close_label account) ▸ kept.distinct
  · obtain ⟨account, found, rfl⟩ := List.mem_map.mp member
    have balanced := kept.balanced account found
    rw [Account.close]
    split
    · next same =>
      cases open_ : account.withdrawn with
      | none =>
        rw [Account.standing, open_, Option.getD_none, same] at balanced
        rw [Account.standing, Option.getD_some, left]
        exact balanced
      | some earlier =>
        have nothing := kept.closed account found (open_ ▸ Option.some_ne_none earlier)
        rw [same] at nothing
        omega
    · next different =>
      rw [Account.standing, others _ different]
      exact balanced
  · obtain ⟨account, found, rfl⟩ := List.mem_map.mp member
    rw [Account.close]
    split <;> exact kept.positive account found
  · obtain ⟨account, found, rfl⟩ := List.mem_map.mp member
    rw [close_label]
    by_cases same : account.label = label
    · rw [same, gone]
    · rw [others _ same]
      rw [Account.close, if_neg same] at closed
      exact kept.closed account found closed
  · rw [turnover_close, turnover_close]
    exact kept.even side

/-- **Every command keeps the ledger.** -/
theorem Kept.step (kept : Kept session accounts) (trading : Trading session command)
    (ran : session.step command = .ok (observation, after)) :
    Kept after (post accounts command observation) := by
  obtain ⟨legal, named⟩ := trading
  cases command with
  | addOrder label request =>
    have returned := ran
    rw [Session.step] at returned
    split at returned
    · cases returned
    · obtain ⟨rfl, -⟩ := Prod.mk.inj (Except.ok.inj returned)
      exact kept.refused legal ran
    · obtain ⟨rfl, -⟩ := Prod.mk.inj (Except.ok.inj returned)
      exact kept.added legal ran
  | cancelOrder label =>
    obtain ⟨rfl, -⟩ := Prod.mk.inj (Except.ok.inj ran)
    exact kept.cancelled legal ran
  | matchOrder => exact absurd rfl named

/-- **What is kept balances.** -/
theorem Kept.conserved (kept : Kept session accounts) : Conserved session accounts := by
  refine ⟨kept.distinct, kept.balanced, fun account member => ?_, kept.even true,
    fun label request remainder against after legal ran => kept.exchange legal ran⟩
  obtain ⟨onArrival, reduced⟩ := kept.positive account member
  have balanced := kept.balanced account member
  refine ⟨onArrival, reduced, ?_⟩
  rw [Account.traded]
  omega

/-- A fresh session has no accounts. -/
theorem Kept.fresh {symbol : String} (created : Session.new symbol poolSize = some session) :
    Kept session [] :=
  have nobody : ∀ {Account : Type} {account : Account}, account ∉ [] := List.not_mem_nil
  ⟨⟨_, Session.Shows.fresh created, fun _ _ member => absurd member nobody⟩,
    fun _ member => absurd member nobody, .nil, fun _ member => absurd member nobody,
    fun _ member => absurd member nobody, fun _ member => absurd member nobody, fun _ => rfl⟩

end Commands

/-! ### Runs -/

/-- **In every run of adds and cancels, every account balances, both sides have traded the same, and
no order was reduced by more than its size.** -/
theorem conservation {symbol : String} {start session : Session poolSize}
    {commands : List Command} {observations : List Observation}
    (created : Session.new symbol poolSize = some start)
    (run : Run Session.step Trading start commands observations session) :
    Conserved session (ledger commands observations) := by
  have kept : Kept session (record post [] commands observations) :=
    run.recorded Kept (fun _ _ _ _ _ kept trading ran => kept.step trading ran) (.fresh created)
  exact kept.conserved

/-- A bid takes one ask and part of the next, whose rest is cancelled. -/
theorem conservation_sample : ∃ (start session : Session 3) (observations : List Observation),
    Session.new "X" 3 = some start ∧
    (ledger [.addOrder 0 ⟨1, 1, 5, 10, false, .limit⟩, .addOrder 1 ⟨2, 2, 4, 11, false, .limit⟩,
      .addOrder 2 ⟨3, 3, 7, 11, true, .limit⟩, .cancelOrder 1] observations).map
        (fun account => (account.onArrival, account.reduced, account.withdrawn)) =
      [(0, 5, none), (0, 2, some 2), (7, 0, none)] ∧
    Conserved session (ledger [.addOrder 0 ⟨1, 1, 5, 10, false, .limit⟩,
      .addOrder 1 ⟨2, 2, 4, 11, false, .limit⟩, .addOrder 2 ⟨3, 3, 7, 11, true, .limit⟩,
      .cancelOrder 1] observations) := by
  have played : ((Session.new "X" 3).bind fun start =>
      (execute Session.step Trading start [.addOrder 0 ⟨1, 1, 5, 10, false, .limit⟩,
        .addOrder 1 ⟨2, 2, 4, 11, false, .limit⟩, .addOrder 2 ⟨3, 3, 7, 11, true, .limit⟩,
        .cancelOrder 1]).map fun result => decide
          ((ledger [.addOrder 0 ⟨1, 1, 5, 10, false, .limit⟩,
            .addOrder 1 ⟨2, 2, 4, 11, false, .limit⟩, .addOrder 2 ⟨3, 3, 7, 11, true, .limit⟩,
            .cancelOrder 1] result.1).map
              (fun account => (account.onArrival, account.reduced, account.withdrawn)) =
            [(0, 5, none), (0, 2, some 2), (7, 0, none)])) = some true := by
    decide +kernel
  obtain ⟨start, created, played⟩ := Option.bind_eq_some_iff.mp played
  obtain ⟨⟨observations, session⟩, ran, facts⟩ := Option.map_eq_some_iff.mp played
  exact ⟨start, session, observations, created, of_decide_eq_true facts,
    conservation created (.of_execute ran)⟩

end TradingExchange
