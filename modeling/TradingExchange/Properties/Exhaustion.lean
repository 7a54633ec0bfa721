/-
**When an order is refused.**

The orders that hold a slot are those that were accepted and neither cancelled nor closed by a later
order since (`Tally.Balanced`): so an order is refused exactly if their number is the pool's size,
and a refusal changes nothing.
-/

import TradingExchange.Refinement.Closing

namespace TradingExchange

variable {poolSize : UInt64} {tally : Tally poolSize}

namespace Tally

/-- **The slots are accounted for.** -/
structure Balanced (tally : Tally poolSize) (view : View poolSize) : Prop where
  represents : Represents tally.book view
  slots : view.free.length + tally.accepted = poolSize.toNat + tally.cancelled + tally.closed

theorem balanced_new {symbol : String} (new : Tally.new symbol poolSize = some tally) :
    tally.Balanced (View.fresh poolSize) := by
  obtain ⟨book, created, rfl⟩ := Option.map_eq_some_iff.mp new
  refine ⟨represents_new created, ?_⟩
  rw [View.fresh, List.length_finRange]
  rfl

/-- **Every legal call keeps the balance.** -/
theorem Balanced.step {view : View poolSize} (balanced : tally.Balanced view)
    {call : Call poolSize} (legal : tally.Legal call) {reply : Reply poolSize}
    {next : Tally poolSize} (done : tally.step call = .ok (reply, next)) :
    next.Balanced (view.step call).2 := by
  obtain ⟨after, ran, effect⟩ := balanced.represents.call (balanced.represents.legal.mp legal)
  rw [Tally.step, ran] at done
  obtain ⟨rfl, rfl⟩ := Prod.mk.inj (Except.ok.inj done)
  refine ⟨effect.represents, ?_⟩
  have moved := view.length_free_step call
  have closed := (effect.reducedToZero_perm balanced.represents).length_eq
  have slots := balanced.slots
  simp only [closed]
  omega

theorem Reachable.balanced (reachable : tally.Reachable) : ∃ view, tally.Balanced view := by
  obtain ⟨symbol, start, calls, replies, new, run⟩ := reachable
  exact run.invariant (fun tally => ∃ view, tally.Balanced view)
    (fun _ _ _ _ ⟨_, balanced⟩ legal done => ⟨_, balanced.step legal done⟩)
    ⟨_, balanced_new new⟩

end Tally

/-- **An order is refused exactly if every slot is held, and then nothing changes.** -/
theorem refused_iff (reachable : tally.Reachable) (request : Request) :
    ∃ slot after, request.addTo tally.book = .ok (slot, after) ∧
      (slot = none ↔
        (tally.accepted : Int) - tally.cancelled - tally.closed = poolSize.toNat) ∧
      (slot = none → after = tally.book) := by
  obtain ⟨view, represents, slots⟩ := reachable.balanced
  cases found : view.free with
  | nil =>
    rw [found, List.length_nil] at slots
    exact ⟨none, tally.book, represents.addOrder_refused found, iff_of_true rfl (by omega),
      fun _ => rfl⟩
  | cons slot free =>
    obtain ⟨after, ran, -⟩ := represents.addOrder request found
    rw [found, List.length_cons] at slots
    exact ⟨some slot, after, ran, iff_of_false (Option.some_ne_none slot) (by omega),
      fun refused => absurd refused (Option.some_ne_none slot)⟩

/-- A pool of one slot: a resting bid is cancelled, and the next bid refuses a crossing ask. -/
theorem refused_iff_sample : ∃ tally : Tally 1,
    (tally.accepted, tally.cancelled, tally.closed) = (2, 1, 0) ∧
    ∃ slot after, Request.addTo ⟨3, 3, 7, 10, false, .market⟩ tally.book = .ok (slot, after) ∧
      slot = none ∧ after = tally.book := by
  have played : (Tally.play "X" 1 [.addOrder ⟨1, 1, 5, 10, true, .limit⟩,
      .cancelOrder ⟨0, by decide⟩, .addOrder ⟨2, 2, 6, 10, true, .limit⟩]).map (fun result =>
        (result.2.accepted, result.2.cancelled, result.2.closed)) = some (2, 1, 0) := by
    decide +kernel
  obtain ⟨⟨replies, tally⟩, ran, counts⟩ := Option.map_eq_some_iff.mp played
  obtain ⟨accepted, rest⟩ := Prod.mk.inj counts
  obtain ⟨cancelled, closed⟩ := Prod.mk.inj rest
  obtain ⟨slot, after, added, refused, same⟩ :=
    refused_iff (Tally.reachable_of_play ran) ⟨3, 3, 7, 10, false, .market⟩
  have null : slot = none := refused.mpr (by rw [accepted, cancelled, closed]; decide)
  exact ⟨tally, counts, slot, after, added, null, same null⟩

end TradingExchange
