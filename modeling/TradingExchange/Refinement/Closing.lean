/-
**The orders that a call closes.**

Between two calls every order is in one of three places: in a level, free, or in use and in no
level. A call closes resting orders (`View.closedBy`), and these are the resting orders whose size it
takes to zero (`Effect.closed_iff`); every other resting order goes on resting or is cancelled.

`View.length_free_step` counts the slots: an accepted order takes one from the free list, and every
order that is closed or cancelled puts one there.
-/

import TradingExchange.Model.Tally
import TradingExchange.Refinement.Runs

namespace TradingExchange

open Lots Ladder

variable {poolSize : UInt64} {book after : OrderBook poolSize} {view : View poolSize}
  {call : Call poolSize} {slot : Slot poolSize}

namespace View

theorem closedBy_sublist (view : View poolSize) (call : Call poolSize) :
    ∃ side, (view.closedBy call).Sublist (view.slots side) := by
  have closes : ∀ isBuySide price amount type,
      ((view.book.closes isBuySide price amount type).map Ticket.ref).Sublist
        (view.slots !isBuySide) := by
    intro isBuySide price amount type
    rw [PureBook.closes, closed_eq, slots, refs, PureBook.line,
      tags_eq (min amount (liquidity (inReach isBuySide price type) (view.book.levels !isBuySide))),
      List.map_append]
    exact List.sublist_append_left ..
  cases call with
  | addOrder request =>
    rw [closedBy]
    split
    · exact ⟨true, List.nil_sublist _⟩
    · exact ⟨_, closes ..⟩
  | cancelOrder order => exact ⟨true, List.nil_sublist _⟩
  | matchOrder isBuySide price size type totalMatched => exact ⟨_, closes ..⟩

theorem closedBy_subset (view : View poolSize) (call : Call poolSize) :
    view.closedBy call ⊆ view.linked := by
  obtain ⟨side, sublist⟩ := view.closedBy_sublist call
  exact fun slot member => mem_linked.mpr ⟨side, sublist.subset member⟩

/-- The slot of a closed order is free afterwards. -/
theorem mem_free_of_closed {slot : Slot poolSize} (closed : slot ∈ view.closedBy call) :
    slot ∈ (view.step call).2.free := by
  cases call with
  | addOrder request =>
    rw [closedBy] at closed
    split at closed
    · exact absurd closed List.not_mem_nil
    · next inhabited =>
      obtain ⟨first, free, found⟩ := List.exists_cons_of_ne_nil inhabited
      rw [step, add_cons found]
      exact List.mem_append_left _ (List.mem_reverse.mpr closed)
  | cancelOrder order => exact absurd closed List.not_mem_nil
  | matchOrder isBuySide price size type totalMatched =>
    exact List.mem_append_left _ (List.mem_reverse.mpr closed)

/-- A free slot stays free until it is handed out. -/
theorem mem_free_step (call : Call poolSize) {slot : Slot poolSize} (free : slot ∈ view.free)
    (kept : view.addedBy call ≠ some slot) : slot ∈ (view.step call).2.free := by
  cases call with
  | addOrder request =>
    obtain ⟨first, rest, found⟩ := List.exists_cons_of_ne_nil (List.ne_nil_of_mem free)
    rw [addedBy, add_cons found] at kept
    rw [found] at free
    rw [step, add_cons found]
    rcases List.mem_cons.mp free with same | behind
    · exact absurd (congrArg some same.symm) kept
    · exact List.mem_append_right _ behind
  | cancelOrder order => exact List.mem_cons_of_mem _ free
  | matchOrder isBuySide price size type totalMatched => exact List.mem_append_right _ free

/-- A reply names the slot that is handed out. -/
theorem reply_iff {slot : Slot poolSize} :
    (view.step call).1 = .order (some slot) ↔ view.addedBy call = some slot := by
  cases call with
  | addOrder request => exact Reply.order.injEq .. ▸ Iff.rfl
  | cancelOrder order => exact iff_of_false (fun same => by cases same) fun same => by cases same
  | matchOrder => exact iff_of_false (fun same => by cases same) fun same => by cases same

/-- **Slots are taken by accepted orders, and given back by closed and cancelled ones.** -/
theorem length_free_step (view : View poolSize) (call : Call poolSize) :
    (view.step call).2.free.length + (view.step call).1.accepts =
      view.free.length + (view.closedBy call).length + (view.step call).1.cancels := by
  cases call with
  | addOrder request =>
    cases found : view.free with
    | nil => simp only [step, closedBy, add_nil found, found, if_true, Reply.accepts, Reply.cancels,
        List.length_nil]
    | cons slot free =>
      simp only [step, closedBy, add_cons found, found, reduceCtorEq, if_false, Reply.accepts,
        Reply.cancels, List.length_append, List.length_reverse, List.length_cons]
      omega
  | cancelOrder order =>
    simp only [step, closedBy, cancel, Reply.accepts, Reply.cancels, List.length_cons,
      List.length_nil]
  | matchOrder isBuySide price size type totalMatched =>
    simp only [step, closedBy, matchOrder, Reply.accepts, Reply.cancels, List.length_append,
      List.length_reverse]
    omega

end View

namespace Represents

theorem closedBy_nodup (represents : Represents book view) (call : Call poolSize) :
    (view.closedBy call).Nodup := by
  obtain ⟨side, sublist⟩ := view.closedBy_sublist call
  exact sublist.nodup (represents.slots_nodup side)

/-- A resting order has a positive size. -/
theorem size_pos (represents : Represents book view) (resting : slot ∈ view.linked) :
    0 < (book.order slot).size.toNat := by
  obtain ⟨isBuySide, price, lot, found, rfl⟩ := View.exists_lot resting
  rw [(represents.filed found).size]
  exact lot.positive

end Represents

namespace Effect

/-- **The resting orders whose size goes to zero are those that the call closes.** -/
theorem closed_iff (effect : Effect book after view call) (represents : Represents book view)
    (resting : slot ∈ view.linked) :
    (after.order slot).size = 0 ↔ slot ∈ view.closedBy call := by
  refine ⟨fun zero => ?_, fun closed => (effect.changed.closed slot closed).size_eq⟩
  rcases View.mem_linked_step call resting with kept | closed | cancelled
  · have positive := effect.represents.size_pos kept
    rw [zero] at positive
    exact absurd positive (Nat.lt_irrefl 0)
  · exact closed
  · have positive := represents.size_pos resting
    rw [← effect.cancelled slot cancelled, zero] at positive
    exact absurd positive (Nat.lt_irrefl 0)

theorem reducedToZero_perm (effect : Effect book after view call)
    (represents : Represents book view) :
    (book.reducedToZero after).Perm (view.closedBy call) := by
  have nodup := represents.resting_perm.nodup_iff.mpr represents.pool.linked_nodup
  refine (List.perm_ext_iff_of_nodup (nodup.filter _) (represents.closedBy_nodup call)).mpr
    fun slot => ?_
  rw [List.mem_filter, represents.mem_resting, beq_iff_eq]
  constructor
  · exact fun ⟨resting, zero⟩ => (effect.closed_iff represents resting).mp zero
  · intro closed
    have resting := view.closedBy_subset call closed
    exact ⟨resting, (effect.closed_iff represents resting).mpr closed⟩

end Effect

end TradingExchange
