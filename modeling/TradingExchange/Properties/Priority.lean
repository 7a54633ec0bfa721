/-
**Price and time priority, over whole runs.**

Nothing in a book says when an order arrived. A session knows it: the owner of a slot is the label
under which its order was added, and labels increase. `priority`: whenever a command reduces the
size of a resting order, every order of its side that has a better price, or the same price and an
earlier arrival, ends with size zero and off the book. Nothing that happens to its neighbours, or to
slots that are used again, changes the place of an order: as long as it rests it keeps its side, its
price and its arrival, and each line stays in order of arrival.
-/

import TradingExchange.Abstract.Laws
import TradingExchange.Refinement.Session

namespace TradingExchange

open Lots Ladder

variable {poolSize : UInt64}

/-- The side, the limit and the type of an incoming order. -/
structure Taker where
  isBuySide : Bool
  price : UInt64
  type : OrderType

/-- The order that a command matches. -/
def Command.taker : Command → Option Taker
  | .addOrder _ request => some ⟨request.isBuySide, request.price, request.orderType⟩
  | .cancelOrder _ => none
  | .matchOrder isBuySide price _ type _ => some ⟨isBuySide, price, type⟩

/-- The first order goes before the second: same side, and a better price or an earlier arrival. -/
structure Ahead (session : Session poolSize) (first second : Slot poolSize) : Prop where
  side : (session.book.order first).isBuySide = (session.book.order second).isBuySide
  sooner : better (session.book.order second).isBuySide (session.book.order first).price
      (session.book.order second).price ∨
    (session.book.order first).price = (session.book.order second).price ∧
      session.owner first < session.owner second

/-- A command respects the priority of the orders that were resting. -/
structure Prioritised (before after : Session poolSize) (command : Command) : Prop where
  ahead : ∀ order ∈ before.book.resting,
    (after.book.order order).size < (before.book.order order).size →
    ∀ other ∈ before.book.resting, Ahead before other order →
      (after.book.order other).size = 0 ∧ other ∉ after.book.resting
  limit : ∀ order ∈ before.book.resting,
    (after.book.order order).size < (before.book.order order).size →
    ∃ taker ∈ command.taker, (before.book.order order).isBuySide = !taker.isBuySide ∧
      (taker.type = .limit →
        ¬ better (before.book.order order).isBuySide taker.price (before.book.order order).price)
  place : ∀ order ∈ before.book.resting, order ∈ after.book.resting →
    (after.book.order order).price = (before.book.order order).price ∧
    (after.book.order order).isBuySide = (before.book.order order).isBuySide ∧
    after.owner order = before.owner order
  lines : ∀ isBuySide (price : UInt64) level,
    (after.book.levels isBuySide)[price]? = some level →
      (after.book.ordersOf level).Pairwise fun earlier later =>
        after.owner earlier < after.owner later

/-! ### Views -/

section Views

variable {book : OrderBook poolSize} {view : View poolSize} {call : Call poolSize}

/-- The order that a call matches. -/
def Call.taker : Call poolSize → Option Taker
  | .addOrder request => some ⟨request.isBuySide, request.price, request.orderType⟩
  | .cancelOrder _ => none
  | .matchOrder isBuySide price _ type _ => some ⟨isBuySide, price, type⟩

/-- What it takes for a call to touch a lot, and what it has done to the lots ahead. -/
structure Touched (view : View poolSize) (call : Call poolSize) (isBuySide : Bool) (price : UInt64)
    (lot : Lot (Ticket (Slot poolSize))) (later : List (Lot (Ticket (Slot poolSize)))) : Prop where
  taker : ∃ taker ∈ call.taker, isBuySide = !taker.isBuySide ∧
    inReach taker.isBuySide taker.price taker.type price = true
  better : ∀ other, better isBuySide other price →
    lotsAt ((view.step call).2.book.levels isBuySide) other = []
  line : refs (lotsAt ((view.step call).2.book.levels isBuySide) price) ⊆ refs (lot :: later)

/-- **Only an incoming order touches a lot**, unless the lot is cancelled. -/
theorem View.touched {isBuySide : Bool} {price : UInt64} {lot : Lot (Ticket (Slot poolSize))}
    {first later : List (Lot (Ticket (Slot poolSize)))}
    (here : lotsAt (view.book.levels isBuySide) price = first ++ lot :: later)
    (kept : call ≠ .cancelOrder lot.tag.ref)
    (gone : lot ∉ lotsAt ((view.step call).2.book.levels isBuySide) price) :
    Touched view call isBuySide price lot later := by
  have member : lot ∈ lotsAt (view.book.levels isBuySide) price := by
    rw [here]
    exact List.mem_append_right _ List.mem_cons_self
  cases call with
  | addOrder request =>
    cases found : view.free with
    | nil =>
      rw [View.step, View.add_nil found] at gone
      exact absurd member gone
    | cons slot free =>
      rw [View.step, View.add_cons found] at gone
      by_cases own : isBuySide = request.isBuySide
      · subst own
        exact absurd (PureBook.mem_add_self member) gone
      · obtain rfl := Bool.eq_not_of_ne own
        simp only [PureBook.add_not] at gone
        obtain ⟨near, better, line⟩ := ahead_of_touched (view.book.sorted _) here gone
        refine ⟨⟨_, rfl, rfl, near⟩, ?_, ?_⟩
        all_goals
          rw [View.step, View.add_cons found]
          simp only [PureBook.add_not]
        · exact better
        · exact (line.map Ticket.ref).subset
  | cancelOrder order =>
    refine absurd ?_ gone
    rw [View.step, View.cancel, PureBook.cancel, lotsAt_withdraw (view.book.sorted _)]
    have other : decide (lot.tag.ref = order) = false :=
      decide_eq_false fun same => kept (congrArg Call.cancelOrder same.symm)
    exact List.mem_filter.mpr ⟨member, congrArg (!·) other⟩
  | matchOrder taker limit size type totalMatched =>
    rw [View.step, View.matchOrder] at gone
    by_cases own : isBuySide = taker
    · subst own
      rw [PureBook.matchOrder_self] at gone
      exact absurd member gone
    · obtain rfl := Bool.eq_not_of_ne own
      rw [PureBook.matchOrder_not] at gone
      obtain ⟨near, better, line⟩ := ahead_of_touched (view.book.sorted _) here gone
      refine ⟨⟨_, rfl, rfl, near⟩, ?_, ?_⟩
      all_goals
        rw [View.step, View.matchOrder]
        simp only [PureBook.matchOrder_not]
      · exact better
      · exact (line.map Ticket.ref).subset

/-- The record of a resting order tells where it rests. -/
theorem Represents.place (represents : Represents book view) {isBuySide : Bool} {price : UInt64}
    {slot : Slot poolSize} (member : slot ∈ refs (lotsAt (view.book.levels isBuySide) price)) :
    (book.order slot).isBuySide = isBuySide ∧ (book.order slot).price = price := by
  obtain ⟨lot, found, rfl⟩ := mem_refs.mp member
  exact ⟨(represents.filed found).isBuySide, (represents.filed found).price⟩

/-- **An order rests where it rested before the call.** -/
theorem Represents.place_before (represents : Represents book view) {isBuySide : Bool}
    {price : UInt64} {slot : Slot poolSize} (before : slot ∈ view.linked)
    (member : slot ∈ refs (lotsAt ((view.step call).2.book.levels isBuySide) price)) :
    slot ∈ refs (lotsAt (view.book.levels isBuySide) price) := by
  rcases List.mem_append.mp ((view.refs_step call isBuySide price).subset member) with old | new
  · exact old
  · exact absurd before (View.addedBy_apart represents (Option.mem_toList.mp new))

end Views

/-! ### Sessions -/

section Sessions

variable {session after : Session poolSize} {view : View poolSize} {call : Call poolSize}
  {command : Command}

theorem taker_callOf (named : session.callOf command = some call) : call.taker = command.taker := by
  cases command with
  | addOrder label request =>
    obtain rfl := Option.some.inj named
    rfl
  | cancelOrder label =>
    obtain ⟨slot, -, rfl⟩ := Option.map_eq_some_iff.mp named
    rfl
  | matchOrder =>
    obtain rfl := Option.some.inj named
    rfl

/-- **An order that is reduced was touched by an incoming order.** -/
theorem Session.Served.touched (served : Session.Served session after view call)
    (follows : session.Follows view) {slot : Slot poolSize} (resting : slot ∈ view.linked)
    (reduced : (after.book.order slot).size < (session.book.order slot).size) :
    ∃ isBuySide price first lot later,
      lotsAt (view.book.levels isBuySide) price = first ++ lot :: later ∧ lot.tag.ref = slot ∧
        Touched view call isBuySide price lot later := by
  obtain ⟨isBuySide, price, lot, found, rfl⟩ := View.exists_lot resting
  obtain ⟨first, later, here⟩ := List.append_of_mem found
  refine ⟨isBuySide, price, first, lot, later, here, rfl, View.touched here ?_ fun left => ?_⟩
  · intro cancelled
    rw [served.effect.cancelled _ cancelled] at reduced
    exact UInt32.lt_irrefl _ reduced
  · have before := (follows.represents.filed found).size
    have same : (after.book.order lot.tag.ref).size.toNat = lot.size :=
      (served.effect.represents.filed left).size
    rw [UInt32.lt_iff_toNat_lt, same] at reduced
    exact absurd before.symm (Nat.ne_of_lt reduced)

/-- **What was ahead of a reduced order is gone.** -/
theorem Session.Served.ahead (served : Session.Served session after view call)
    (follows : session.Follows view) {slot other : Slot poolSize} (resting : slot ∈ view.linked)
    (reduced : (after.book.order slot).size < (session.book.order slot).size)
    (resting' : other ∈ view.linked) (ahead : Ahead session other slot) :
    (after.book.order other).size = 0 ∧ other ∉ (view.step call).2.linked := by
  obtain ⟨isBuySide, price, first, lot, later, here, rfl, touched⟩ :=
    served.touched follows resting reduced
  have place := follows.represents.place <| show lot.tag.ref ∈ _ by
    rw [here]
    exact ref_mem (List.mem_append_right _ List.mem_cons_self)
  have gone : other ∉ (view.step call).2.linked := by
    intro left
    obtain ⟨side, price', lot', found, rfl⟩ := View.exists_lot left
    have before := follows.represents.place_before resting' (ref_mem found)
    obtain ⟨side_eq, price_eq⟩ := follows.represents.place before
    obtain rfl : side = isBuySide := side_eq.symm.trans (ahead.side.trans place.1)
    have sooner := ahead.sooner
    rw [place.1, place.2, price_eq] at sooner
    rcases sooner with better | ⟨rfl, earlier⟩
    · rw [touched.better price' better] at found
      exact absurd found List.not_mem_nil
    · -- it is not before the reduced order, and not after it either
      have behind := touched.line (ref_mem found)
      have order := follows.inOrder side price'
      rw [here, refs_append, refs_cons, List.pairwise_append] at order
      rcases List.mem_cons.mp behind with same | behind
      · rw [same] at earlier
        exact Nat.lt_irrefl _ earlier
      · have later := (List.pairwise_cons.mp order.2.1).1 _ behind
        exact Nat.lt_asymm earlier later
  refine ⟨served.effect.size_closed resting' gone ?_, gone⟩
  obtain ⟨taker, matched, -⟩ := touched.taker
  rintro rfl
  exact absurd matched (Option.some_ne_none _).symm

/-- **Price and time priority.** -/
theorem priority (reachable : session.Reachable) (legal : command.Legal session) :
    ∃ observation after, session.step command = .ok (observation, after) ∧
      Prioritised session after command := by
  obtain ⟨view, follows⟩ := reachable.follows
  obtain ⟨observation, after, call, ran, named, -, served⟩ := follows.step legal
  have before := follows.represents.mem_resting
  have left := served.effect.represents.mem_resting
  refine ⟨observation, after, ran, ?_, ?_, ?_, ?_⟩
  · intro order resting reduced other resting' ahead
    rw [left]
    exact served.ahead follows ((before order).mp resting) reduced ((before other).mp resting') ahead
  · intro order resting reduced
    obtain ⟨isBuySide, price, first, lot, later, here, rfl, touched⟩ :=
      served.touched follows ((before order).mp resting) reduced
    obtain ⟨taker, matched, side, near⟩ := touched.taker
    obtain ⟨side_eq, price_eq⟩ := follows.represents.place <| show lot.tag.ref ∈ _ by
      rw [here]
      exact ref_mem (List.mem_append_right _ List.mem_cons_self)
    refine ⟨taker, taker_callOf named ▸ matched, side_eq.trans side, fun limit => ?_⟩
    rw [side_eq, price_eq, side]
    rw [inReach, limit, Bool.not_eq_true', Bool.and_eq_false_iff] at near
    exact of_decide_eq_false (near.resolve_left (by decide))
  · intro order resting resting'
    obtain ⟨isBuySide, price, lot, found, rfl⟩ := View.exists_lot ((left order).mp resting')
    have linked := (before lot.tag.ref).mp resting
    obtain ⟨side, price_eq⟩ :=
      follows.represents.place (follows.represents.place_before linked (ref_mem found))
    have filed := served.effect.represents.filed found
    exact ⟨filed.price.trans price_eq.symm, filed.isBuySide.trans side.symm,
      served.owners _ linked⟩
  · intro isBuySide price level found
    rw [served.effect.represents.ordersOf found]
    exact served.follows.inOrder isBuySide price

/-- A bid meets an ask at a better price and two at the same price. -/
theorem priority_sample : ∃ session : Session 4, session.book.resting.map Fin.val = [2, 0, 1] ∧
    ∃ observation after, session.step (.addOrder 7 ⟨4, 4, 12, 10, true, .limit⟩) =
      .ok (observation, after) ∧
      Prioritised session after (.addOrder 7 ⟨4, 4, 12, 10, true, .limit⟩) := by
  have played : (Session.play "X" 4 [.addOrder 1 ⟨1, 1, 5, 10, false, .limit⟩,
      .addOrder 2 ⟨2, 2, 5, 10, false, .limit⟩, .addOrder 6 ⟨3, 3, 5, 9, false, .limit⟩]).map
      (fun result => decide (result.2.book.resting.map Fin.val = [2, 0, 1] ∧
        Command.Legal result.2 (.addOrder 7 ⟨4, 4, 12, 10, true, .limit⟩))) = some true := by
    decide +kernel
  obtain ⟨⟨observations, session⟩, ran, facts⟩ := Option.map_eq_some_iff.mp played
  obtain ⟨resting, legal⟩ := of_decide_eq_true facts
  exact ⟨session, resting, priority (Session.reachable_of_play ran) legal⟩

end Sessions

end TradingExchange
