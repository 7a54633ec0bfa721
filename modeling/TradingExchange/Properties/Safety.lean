/-
**Matching never goes wrong.**

In every pass of every loop that a call runs, `peek()` gives an order, which is linked in that very
level; no subtraction, no addition to the total, no decrement of a size wraps; an order is deallocated
only while it is in use, and only once; and the loops come to an end (`matching_safe`). The orders a
level links are read from its memory, as the loop does.
-/

import TradingExchange.Refinement.Passes

namespace TradingExchange

open Lots Ladder OrderBook

variable {poolSize : UInt64}

/-! ### What can go wrong -/

/-- An order can be removed from a level, and deallocated. -/
structure Removable (orderPool : OrderPool poolSize) (level : PriceLevel poolSize)
    (order : Slot poolSize) : Prop where
  linked : order ∈ linkedIn orderPool level
  size : (level.remove orderPool order).1.size.toNat + 1 = level.size.toNat
  inUse : ((level.remove orderPool order).2.store order).isFreeOrInUse = false

/-- What a pass of `matchAtLevel` works out is exact, and the order can be removed. -/
structure Serving.Safe (size : UInt32) (state : LevelMatch poolSize) (serving : Serving poolSize) :
    Prop where
  amountToMatch : serving.amountToMatch.toNat + state.totalMatched.toNat = size.toNat
  reduced : serving.reduced.size.toNat + serving.matched.toNat =
    (state.orderPool.deref serving.order).size.toNat
  totalMatched : (state.totalMatched + serving.matched).toNat =
    state.totalMatched.toNat + serving.matched.toNat
  removable : Removable (serving.write state.orderPool) state.level serving.order

/-- A call of `matchAtLevel` returns, and each of its passes serves an order. -/
structure OrderBook.LevelMatch.Safe (size : UInt32) (start : LevelMatch poolSize) : Prop where
  returns : ∃ last, matchAtLevel start.level start.orderPool start.totalMatched size = .ok last
  passes : ∀ state ∈ start.visited size, state.goes size = true →
    ∃ serving, state.serving size = some serving ∧ serving.Safe size state

/-- A matching loop returns a total that is not too large, and each level it enters is served. -/
structure Matching.Safe (matching : Matching poolSize) : Prop where
  returns : ∃ last, matching.result = .ok last ∧
    last.totalMatched.toNat ≤ max matching.size.toNat matching.totalMatched.toNat
  levels : ∀ state ∈ matching.visited, ∀ price start,
    matching.enters state = some (price, start) → start.Safe matching.size

/-! ### Nothing goes wrong -/

/-- `decreaseSize` never wraps, whatever the amount. -/
theorem Order.decreaseSize_exact {Item : Type} (order : Order Item) (amount : UInt32) :
    (order.decreaseSize amount).2.size.toNat + (order.decreaseSize amount).1.toNat =
      order.size.toNat := by
  rw [Order.decreaseSize]
  split
  · exact Nat.zero_add _
  · next short =>
    have less : amount ≤ order.size := UInt32.le_of_lt (UInt32.not_le.mp short)
    have bound := UInt32.le_iff_toNat_le.mp less
    simp only [UInt32.toNat_sub_of_le _ _ less]
    omega

theorem Shows.removable {pool : OrderPool poolSize} {level : PriceLevel poolSize}
    {slots : List (Slot poolSize)} {slot : Slot poolSize} (shown : Shows pool level slots)
    (nodup : slots.Nodup) (member : slot ∈ slots)
    (used : (pool.store slot).isFreeOrInUse = false) : Removable pool level slot := by
  obtain ⟨front, later, rfl⟩ := List.append_of_mem member
  obtain ⟨removed, -, relinked⟩ := shown.remove nodup
  refine ⟨?_, ?_, ?_⟩
  · rw [linkedIn, shown.follow]
    exact member
  · rw [removed.size, shown.size, List.length_append, List.length_append, List.length_cons]
    rfl
  · rw [relinked.isFreeOrInUse_eq, used]

/-- A linked slot is in use. -/
theorem PoolShown.inUse {pool : OrderPool poolSize} {free linked : List (Slot poolSize)}
    {slot : Slot poolSize} (shown : PoolShown pool free linked) (member : slot ∈ linked) :
    (pool.store slot).isFreeOrInUse = false := by
  rw [← Bool.not_eq_true, shown.list.flags]
  exact shown.not_free member

section Passes

variable {symbol : String} {isBuySide : Bool} {price : UInt64} {size : UInt32}
  {others : List (Slot poolSize)} {pending : Pending poolSize} {state : LevelMatch poolSize}

/-- **A pass that goes on serves an order.** -/
theorem LevelPending.serving_safe
    (holds : LevelPending symbol isBuySide price size others pending state)
    (goes : state.goes size = true) :
    ∃ serving, state.serving size = some serving ∧ serving.Safe size state := by
  obtain ⟨amount, lots, free⟩ := pending
  have going : ¬ (lots = [] ∨ amount = 0) := fun done =>
    Bool.false_ne_true ((holds.not_goes done).symm.trans goes)
  obtain ⟨inhabited, more⟩ := not_or.mp going
  obtain ⟨lot, later, rfl⟩ := List.exists_cons_of_ne_nil inhabited
  have positive := Nat.pos_of_ne_zero more
  obtain ⟨-, serving, found, serves⟩ := holds.serves positive
  have below := holds.amount
  have filed := (holds.going positive).2.2.2
  have shown : Shows (serving.write state.orderPool) state.level (refs (lot :: later)) := by
    refine holds.level.queue.congr fun slot _ => listNode_write ?_ slot
    rw [serves.order]
    exact serves.listNode
  refine ⟨serving, found, ?_, ?_, ?_, shown.removable ?_ ?_ ?_⟩
  · rw [serves.amountToMatch]
    simp only at below
    omega
  · rw [serves.order, serves.reduced, serves.matched, filed.size]
    omega
  · refine holds.total positive _ ?_
    rw [serves.matched]
    exact Nat.min_le_left ..
  · exact (List.nodup_append.mp holds.pool.linked_nodup).1
  · rw [serves.order]
    exact List.mem_cons_self
  · rw [serves.order, Serving.write, MemPool.isFreeOrInUse_write]
    exact holds.pool.inUse List.mem_cons_self

theorem LevelPending.safe
    (holds : LevelPending symbol isBuySide price size others pending state) : state.Safe size := by
  obtain ⟨last, ran, -⟩ := matchAtLevel_shown size state.totalMatched holds.level holds.pool
  refine ⟨⟨last, ran⟩, fun reached member goes => ?_⟩
  obtain ⟨pending, holds⟩ := holds.visited reached member
  exact holds.serving_safe goes

end Passes

/-- **A matching loop is safe from a state that its invariant holds in.** -/
theorem SidePending.safe {matching : Matching poolSize} {others : List (Slot poolSize)}
    {pending : PendingSide poolSize}
    (holds : SidePending matching.isBuySide matching.size others pending
      ⟨matching.book, matching.totalMatched⟩) : matching.Safe := by
  constructor
  · obtain ⟨last, ran, served⟩ := matchOrder_shown matching.book matching.price matching.size
      matching.type matching.totalMatched holds.side holds.sorted holds.pool
    refine ⟨last, ran, ?_⟩
    have total := served.total
    simp only at total
    omega
  · intro state member price start enters
    obtain ⟨⟨amount, levels, free⟩, holds⟩ := holds.visited state member
    by_cases done : matching.Idle ⟨amount, levels, free⟩
    · rw [holds.not_enters done] at enters
      exact absurd enters (Option.some_ne_none _).symm
    · obtain ⟨level, worse, rfl, positive, within⟩ := Matching.not_idle done
      obtain ⟨queue, entered, pendingLevel⟩ := holds.enters positive within
      obtain ⟨-, rfl⟩ := Prod.mk.inj (Option.some.inj (entered.symm.trans enters))
      exact pendingLevel.safe

variable {book : OrderBook poolSize} {view : View poolSize} {call : Call poolSize}

/-- **A resting order can be removed from the level at its price.** -/
theorem Represents.removable (represents : Represents book view) {slot : Slot poolSize}
    (resting : slot ∈ view.linked) :
    ∃ level, (book.levels (book.order slot).isBuySide)[(book.order slot).price]? = some level ∧
      Removable book.orderPool level slot := by
  obtain ⟨level, front, later, found, -, shown, nodup⟩ := represents.placed resting
  have member : slot ∈ front ++ slot :: later := List.mem_append_right _ List.mem_cons_self
  exact ⟨level, found, shown.removable nodup member (represents.pool.inUse resting)⟩

/-- **Matching never goes wrong**: the call returns, and so does every loop on the way; each pass
finds an order in its level and works out exact numbers; an order is deallocated only while it is in
use, and only once. -/
theorem matching_safe (reachable : book.Reachable) (legal : call.Legal book) :
    (∃ reply after, book.call call = .ok (reply, after)) ∧
    (∀ matching, book.matching call = some matching → matching.Safe) ∧
    (∀ slot, call = .cancelOrder slot →
      ∃ level, (book.levels (book.order slot).isBuySide)[(book.order slot).price]? = some level ∧
        Removable book.orderPool level slot) ∧
    (∀ (order : Order (Slot poolSize)) (amount : UInt32),
      (order.decreaseSize amount).2.size.toNat + (order.decreaseSize amount).1.toNat =
        order.size.toNat) ∧
    (book.deallocations call).Nodup ∧ ∀ slot ∈ book.deallocations call, book.InUse slot := by
  obtain ⟨view, represents⟩ := reachable.represents
  obtain ⟨reply, after, ran, -⟩ := reachable.returns legal
  refine ⟨⟨reply, after, ran⟩, fun matching does => ?_, fun slot cancels => ?_,
    Order.decreaseSize_exact, represents.deallocations_nodup call, fun slot member => ?_⟩
  · obtain ⟨others, pending, holds, -⟩ := represents.pending does
    exact holds.safe
  · subst cancels
    exact represents.removable ((represents.mem_resting slot).mp legal)
  · refine represents.pool.inUse ?_
    rcases represents.mem_deallocations.mp member with closed | cancelled
    · exact view.closedBy_subset call closed
    · subst cancelled
      exact (represents.mem_resting slot).mp legal

/-- An ask takes two bids of one price, and part of the next. -/
theorem matching_safe_sample : ∃ book : OrderBook 4, ∃ ask : Call 4, ∃ matching,
    book.matching ask = some matching ∧ matching.Safe ∧
    (book.deallocations ask).map Fin.val = [0, 1] ∧
    ∀ slot ∈ book.deallocations ask, book.InUse slot := by
  let ask : Call 4 := .addOrder ⟨4, 4, 12, 9, false, .limit⟩
  have played : (OrderBook.play "X" 4 [.addOrder ⟨1, 1, 5, 10, true, .limit⟩,
      .addOrder ⟨2, 2, 6, 10, true, .limit⟩, .addOrder ⟨3, 3, 6, 9, true, .limit⟩]).map
      (fun result => ((result.2.matching ask).isSome,
        (result.2.deallocations ask).map Fin.val)) = some (true, [0, 1]) := by
    decide +kernel
  obtain ⟨⟨replies, book⟩, ran, runs⟩ := Option.map_eq_some_iff.mp played
  obtain ⟨does, deallocated⟩ := Prod.mk.inj runs
  obtain ⟨matching, does⟩ := Option.isSome_iff_exists.mp does
  have legal : ask.Legal book := trivial
  obtain ⟨-, safe, -, -, -, inUse⟩ := matching_safe (OrderBook.reachable_of_play ran) legal
  exact ⟨book, ask, matching, does, safe matching does, deallocated, inUse⟩

end TradingExchange
