/-
**A session shows a market.**

`Session.Shows session market`: some view of the session's book, with its slots renamed to their
owners, is the market's book, and as many slots are free as the market has room. The slots
themselves are forgotten: they are handed out, freed and handed out again, and no observation
depends on them.

* `Follows.remaining`: what a handle shows of an order is what the market knows of it;
* `Shows.step`: every legal command returns, and is the market's step, and `Shows.added` reads this
  off for an accepted order;
* `Shows.readAt`: what is read at a price is the market's line there.
-/

import TradingExchange.Abstract.Market
import TradingExchange.Refinement.Session

namespace TradingExchange

open Lots Ladder

variable {poolSize : UInt64}

/-- The ticket under the label of its owner. -/
def Ticket.owned (owner : Slot poolSize → Nat) (ticket : Ticket (Slot poolSize)) : Ticket Nat :=
  { ticket with ref := owner ticket.ref }

/-- A view with its slots renamed to their owners. -/
def View.market (view : View poolSize) (owner : Slot poolSize → Nat) : Market :=
  ⟨view.book.rename (Ticket.owned owner), view.free.length⟩

/-- A session shows a market. -/
def Session.Shows (session : Session poolSize) (market : Market) : Prop :=
  ∃ view, session.Follows view ∧ market = view.market session.owner

section Remaining

variable {session : Session poolSize} {view : View poolSize}

/-- The quantity of an owner. -/
theorem View.remaining_market (owner : Slot poolSize → Nat) (label : Nat) :
    (view.market owner).book.remaining label =
      quantity (fun ticket => owner ticket.ref = label)
        (view.book.line true ++ view.book.line false) := by
  rw [PureBook.remaining, PureBook.quantity, View.market, PureBook.line_rename,
    PureBook.line_rename, quantity_relabel, quantity_relabel, quantity_append]
  rfl

theorem View.linked_eq_refs : view.linked = refs (view.book.line true ++ view.book.line false) := by
  rw [refs_append]
  rfl

/-- **The size that a handle shows is the size of the order in the market.** -/
theorem Session.Follows.remaining (follows : session.Follows view) :
    (view.market session.owner).book.remaining = session.remaining := by
  funext label
  rw [View.remaining_market]
  cases valid : session.slotOf label with
  | none =>
    rw [Session.remaining_of_none valid]
    refine quantity_eq_zero fun lot member => decide_eq_false fun owner => ?_
    have linked : lot.tag.ref ∈ view.linked := View.linked_eq_refs ▸ ref_mem member
    rw [← owner, follows.slotOf_owner linked] at valid
    exact Option.some_ne_none _ valid
  | some slot =>
    rw [Session.remaining_of_slotOf valid]
    have own : ∀ lot ∈ view.book.line true ++ view.book.line false,
        session.owner lot.tag.ref = label → lot.tag.ref = slot := by
      intro lot member owner
      have linked : lot.tag.ref ∈ view.linked := View.linked_eq_refs ▸ ref_mem member
      rw [← owner, follows.slotOf_owner linked] at valid
      exact Option.some.inj valid
    by_cases linked : slot ∈ view.linked
    · have filed : ∃ lot ∈ view.book.line true ++ view.book.line false, lot.tag.ref = slot ∧
          (session.book.order slot).size.toNat = lot.size := by
        obtain ⟨side, price, lot, found, rfl⟩ := View.exists_lot linked
        refine ⟨lot, ?_, rfl, (follows.represents.filed found).size⟩
        cases side with
        | true => exact List.mem_append_left _ (mem_flat_of_lotsAt found)
        | false => exact List.mem_append_right _ (mem_flat_of_lotsAt found)
      obtain ⟨lot, member, rfl, size⟩ := filed
      have nodup := follows.represents.pool.linked_nodup
      rw [View.linked_eq_refs, refs_eq] at nodup
      have mine : session.owner lot.tag.ref = label := (Session.slotOf_eq_some.mp valid).2
      rw [size]
      refine quantity_eq_size nodup.of_map member (decide_eq_true mine) fun other there owner => ?_
      exact List.inj_on_of_nodup_map nodup there member (own other there (of_decide_eq_true owner))
    · rw [follows.spent label slot valid linked]
      refine quantity_eq_zero fun lot member => decide_eq_false fun owner => linked ?_
      rw [← own lot member owner, View.linked_eq_refs]
      exact ref_mem member

end Remaining

/-! ### Commands -/

section Commands

variable {session : Session poolSize} {view : View poolSize} {market : Market}

/-- The market when the owners of the resting orders stay the same. -/
theorem View.market_congr {owner owner' : Slot poolSize → Nat}
    (same : ∀ slot ∈ view.linked, owner' slot = owner slot) :
    view.book.rename (Ticket.owned owner') = view.book.rename (Ticket.owned owner) := by
  refine PureBook.rename_congr fun side lot member => ?_
  exact Ticket.ext (same _ (View.mem_linked.mpr ⟨side, ref_mem member⟩)) rfl rfl rfl

/-- An accepted order, in the market. -/
theorem View.market_add {owner owner' : Slot poolSize → Nat} (request : Request) {label : Nat}
    {slot : Slot poolSize} {free : List (Slot poolSize)} (found : view.free = slot :: free)
    (same : ∀ slot ∈ view.linked, owner' slot = owner slot) (own : owner' slot = label) :
    (view.add request).2.market owner' = ⟨(view.market owner).book.submit label request,
      (view.market owner).roomAfter (.addOrder label request)⟩ := by
  rw [View.add_cons found]
  refine Market.ext ?_ ?_
  · rw [View.market, PureBook.rename_add, View.market_congr same]
    exact congrArg (fun ticket => PureBook.add _ ticket _ _ _ _) (Ticket.ext own rfl rfl rfl)
  · simp only [View.market, Market.roomAfter, View.closes, PureBook.closes_rename, found,
      List.length_append, List.length_reverse, List.length_map, List.length_cons, Nat.add_sub_cancel]

/-- A cancel, in the market. -/
theorem Session.Follows.market_cancel (follows : session.Follows view) {label : Nat}
    {slot : Slot poolSize} (valid : session.slotOf label = some slot) :
    (view.cancel slot).market session.owner =
      (view.market session.owner).without label := by
  refine Market.ext (PureBook.rename_cancel fun side lot member => ?_) rfl
  have linked : lot.tag.ref ∈ view.linked := View.mem_linked.mpr ⟨side, ref_mem member⟩
  rw [Ticket.isOf, decide_eq_decide]
  constructor
  · rintro rfl
    exact Option.some.inj ((follows.slotOf_owner linked).symm.trans valid)
  · rintro rfl
    exact (Session.slotOf_eq_some.mp valid).2

/-- A direct match, in the market. -/
theorem View.market_matchOrder {owner : Slot poolSize → Nat} {isBuySide : Bool} {price : UInt64}
    {amount : Nat} {type : OrderType} :
    (view.matchOrder isBuySide price amount type).market owner =
      ⟨(view.market owner).book.matchOrder isBuySide price amount type,
        ((view.market owner).book.closes isBuySide price amount type).length +
          (view.market owner).room⟩ := by
  refine Market.ext PureBook.rename_matchOrder ?_
  simp only [View.market, View.matchOrder, PureBook.closes_rename, List.length_append,
    List.length_reverse, List.length_map]

/-- **Every legal command returns, and is the market's step.** -/
theorem Session.Shows.step (shown : session.Shows market) {command : Command}
    (legal : command.Legal session) :
    ∃ after, session.step command = .ok ((market.step command).1, after) ∧
      after.Shows (market.step command).2 := by
  obtain ⟨view, follows, rfl⟩ := shown
  have remaining := follows.remaining
  cases command with
  | addOrder label request =>
    cases found : view.free with
    | nil =>
      have refused : (view.market session.owner).Refuses (.addOrder label request) :=
        congrArg List.length found
      obtain ⟨after, ran, served, owners⟩ :=
        follows.addOrder_refused request legal found
      rw [Market.step, if_pos refused]
      refine ⟨after, ran, _, served.follows, ?_⟩
      rw [View.step, View.add_nil found, owners]
    | cons slot free =>
      have room : ¬ (view.market session.owner).Refuses (.addOrder label request) := by
        rw [Market.Refuses, View.market, found]
        exact Nat.succ_ne_zero _
      obtain ⟨after, ran, served, own⟩ :=
        follows.addOrder_accepted request legal found
      have market := View.market_add request found served.owners own
      have left := served.follows.remaining
      rw [View.step] at left
      rw [market] at left
      rw [Market.step, if_neg room]
      refine ⟨after, ?_, _, served.follows, market.symm⟩
      rw [ran, ← remaining, ← left, View.available, ← PureBook.available_rename]
      rfl
  | cancelOrder label =>
    obtain ⟨slot, valid, resting⟩ := legal
    have linked := (follows.represents.mem_resting slot).mp resting
    obtain ⟨after, ran, served, owners⟩ := follows.cancelOrder valid linked
    refine ⟨after, ?_, _, served.follows, ?_⟩
    · rw [ran, ← remaining]
      rfl
    · rw [owners]
      exact (follows.market_cancel valid).symm
  | matchOrder isBuySide price size type totalMatched =>
    obtain ⟨after, ran, served, owners⟩ :=
      follows.matchOrder isBuySide price size type totalMatched
    have left := served.follows.remaining
    rw [owners, View.step, View.market_matchOrder] at left
    refine ⟨after, ?_, _, served.follows, by rw [owners]; exact View.market_matchOrder.symm⟩
    rw [ran, ← remaining, ← left, ← PureBook.available_rename]
    rfl

/-- What is observed of an accepted order, in the market. -/
theorem Session.Shows.added (shown : session.Shows market) {after : Session poolSize}
    {label remainder : Nat} {request : Request} {against : Nat → Int}
    (legal : (Command.addOrder label request).Legal session)
    (ran : session.step (.addOrder label request) = .ok (.added remainder against, after)) :
    market.room ≠ 0 ∧
      remainder = request.size.toNat -
        market.book.available request.isBuySide request.price request.orderType ∧
      against = reductions market.book.remaining (market.book.submit label request).remaining
        (some label) ∧
      after.Shows ⟨market.book.submit label request, market.roomAfter (.addOrder label request)⟩ := by
  obtain ⟨next, returned, next_shown⟩ := shown.step legal
  obtain ⟨observed, rfl⟩ := Prod.mk.inj (Except.ok.inj (ran.symm.trans returned))
  by_cases refused : market.Refuses (.addOrder label request)
  · rw [Market.step, if_pos refused] at observed
    cases observed
  · rw [Market.step_of_accepted refused] at observed next_shown
    obtain ⟨left, taken⟩ := Observation.added.inj observed
    exact ⟨refused, left, taken, next_shown⟩

/-- **What is read at a price is the market's line there.** -/
theorem Session.Shows.readAt (shown : session.Shows market) (isBuySide : Bool) (price : UInt64) :
    session.book.readAt session.read isBuySide price =
      (market.book.lineAt isBuySide price).map (List.map fun lot => (lot.tag, lot.size)) := by
  obtain ⟨view, follows, rfl⟩ := shown
  have line : (view.market session.owner).book.lineAt isBuySide price =
      (view.book.lineAt isBuySide price).map
        (List.map (Lot.relabel (Ticket.owned session.owner))) := PureBook.lineAt_rename ..
  rw [line, Option.map_map, follows.represents.readAt
    fun lot => (Ticket.owned session.owner lot.tag, lot.size)]
  · refine congrArg (Option.map · _) (funext fun lots => ?_)
    rw [Function.comp_apply, List.map_map]
    rfl
  · intro lot member
    have filed := follows.represents.filed member
    exact Prod.ext (Ticket.ext rfl filed.orderId filed.clientId filed.orderType) filed.size

/-- The size of every order that was returned and not cancelled is the market's. -/
theorem Session.Shows.remaining (shown : session.Shows market) :
    session.remaining = market.book.remaining := by
  obtain ⟨view, follows, rfl⟩ := shown
  exact follows.remaining.symm

/-- **An order may be cancelled exactly if the market still has some of it.** -/
theorem Session.Shows.legal_cancel (shown : session.Shows market) (label : Nat) :
    (Command.cancelOrder label).Legal session ↔ 0 < market.book.remaining label := by
  rw [← shown.remaining]
  obtain ⟨view, follows, -⟩ := shown
  constructor
  · rintro ⟨slot, valid, resting⟩
    rw [Session.remaining_of_slotOf valid]
    have linked := (follows.represents.mem_resting slot).mp resting
    obtain ⟨side, price, lot, found, rfl⟩ := View.exists_lot linked
    rw [show (session.book.order lot.tag.ref).size.toNat = lot.size from
      (follows.represents.filed found).size]
    exact lot.positive
  · intro positive
    cases valid : session.slotOf label with
    | none =>
      rw [Session.remaining_of_none valid] at positive
      exact absurd positive (Nat.lt_irrefl 0)
    | some slot =>
      refine ⟨slot, valid, (follows.represents.mem_resting slot).mpr ?_⟩
      by_contra gone
      rw [Session.remaining_of_slotOf valid, follows.spent label slot valid gone] at positive
      exact absurd positive (Nat.lt_irrefl 0)

/-- The labels of the market's orders are older than the clock. -/
theorem Session.Shows.dated (shown : session.Shows market) (side : Bool) :
    ∀ lot ∈ market.book.line side, lot.tag.ref < session.clock := by
  obtain ⟨view, follows, rfl⟩ := shown
  intro lot member
  rw [View.market, PureBook.line_rename] at member
  obtain ⟨filed, here, rfl⟩ := List.mem_map.mp member
  exact follows.dated _ (View.mem_linked.mpr ⟨side, ref_mem here⟩)

/-- The market of a fresh session. -/
def Market.fresh (poolSize : UInt64) : Market := ⟨PureBook.empty, poolSize.toNat⟩

theorem Session.Shows.fresh {symbol : String}
    (created : Session.new symbol poolSize = some session) :
    session.Shows (Market.fresh poolSize) := by
  refine ⟨_, Session.Follows.fresh created, Market.ext rfl ?_⟩
  exact (List.length_finRange).symm

/-- **A run of a session observes what the market does.** -/
theorem Session.Shows.run (shown : session.Shows market) {last : Session poolSize}
    {commands : List Command} {observations : List Observation}
    (run : Run Session.step Command.Legal session commands observations last) :
    observations = (replay Market.step market commands).1 ∧
      last.Shows (replay Market.step market commands).2 :=
  run.refines (fun _ _ _ shown legal => shown.step legal) shown

end Commands

end TradingExchange
