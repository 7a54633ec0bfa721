/-
**What calls cost.**

A single call may go through every resting order, but it closes each order that it takes whole, and
an order is closed once. So the passes of the matching loops are paid for in advance: six by each
`addOrder`, three by each `matchBidOrder` or `matchAskOrder`, and none by a `cancelOrder`.

* `Matching.passes_le`: both loops make no more than twice the passes of the outer loop, and what
  they serve;
* `SidePending.closing`: a pass of the outer loop that goes on has closed an order;
* `Represents.passes_le`: a call makes at most three passes for each order it closes, and three;
* `work_amortised`: over every run from a new book.
-/

import TradingExchange.Library.Work
import TradingExchange.Model.Work
import TradingExchange.Refinement.Passes

namespace TradingExchange

open Lots Ladder OrderBook

variable {poolSize : UInt64} {book : OrderBook poolSize} {view : View poolSize}
  {call : Call poolSize}

/-! ### What is taken, and what is closed -/

/-- Of what is taken, all but one part is taken whole. -/
theorem Lots.length_taken_le {Tag : Type} (amount : Nat) (lots : List (Lot Tag)) :
    (taken amount lots).length ≤ ((taken amount lots).filter Taken.whole).length + 1 := by
  induction lots generalizing amount with
  | nil => exact Nat.zero_le _
  | cons lot later ih =>
    rcases Nat.eq_zero_or_pos amount with rfl | positive
    · rw [taken_zero]
      exact Nat.zero_le _
    · by_cases short : amount < lot.size
      · rw [taken_short positive short]
        exact Nat.le_add_left 1 _
      · rw [taken_whole (Nat.not_lt.mp short)]
        exact Nat.succ_le_succ (ih _)

theorem View.length_takenBy_le (view : View poolSize) (call : Call poolSize) :
    (view.takenBy call).length ≤ (view.closedBy call).length + 1 := by
  have sweeps : ∀ reach amount (levels : List (Level UInt64 (Ticket (Slot poolSize)))),
      ((Ladder.taken reach amount levels).map (Taken.relabel Ticket.ref)).length ≤
        (((Ladder.taken reach amount levels).map (Taken.relabel Ticket.ref)).filter
          Taken.whole).length + 1 := by
    intro reach amount levels
    rw [List.filter_map, List.length_map, List.length_map, Ladder.taken_eq]
    exact length_taken_le _ _
  rw [view.closedBy_eq, List.length_map]
  cases call with
  | cancelOrder order => exact Nat.zero_le _
  | matchOrder isBuySide price size type totalMatched => exact sweeps _ _ _
  | addOrder request =>
    rw [takenBy]
    split
    · exact Nat.zero_le _
    · exact sweeps _ _ _

/-! ### The passes of a call -/

/-- A pass of `matchAtLevel` that goes on serves an order. -/
theorem OrderBook.LevelMatch.served_of_again {size : UInt32} {state next : LevelMatch poolSize}
    (went : matchAtLevelPass size state = .ok (.again next)) :
    (state.served size).toList ≠ [] := by
  rw [matchAtLevelPass_eq] at went
  rw [LevelMatch.served]
  split at went
  · next goes =>
    rw [if_pos goes]
    cases found : state.serving size with
    | none =>
      rw [found] at went
      cases went
    | some serving => exact List.cons_ne_nil _ _
  · cases went

theorem OrderBook.LevelMatch.passes_le (size : UInt32) (state : LevelMatch poolSize) :
    state.passes size ≤ (state.servings size).length + 1 := by
  have counted := Loop.length_visited_le (fun (_ : Unit) (_ : LevelMatch poolSize) => True)
    (fun state => (state.served size).toList)
    (fun _ _ _ _ went => ⟨LevelMatch.served_of_again went, (), trivial⟩)
    (state.level.size.toNat + 2) () state trivial
  rwa [← List.filterMap_eq_flatMap_toList] at counted

namespace Matching

variable (matching : Matching poolSize)

theorem levelPasses_le (state : BookMatch poolSize) :
    matching.levelPasses state ≤ (matching.served state).length + 1 := by
  rw [levelPasses, served]
  cases matching.enters state with
  | none => exact Nat.zero_le _
  | some entry => exact entry.2.passes_le matching.size

/-- **Both loops make no more than twice the outer passes, and what they serve.** -/
theorem passes_le :
    matching.passes ≤ 2 * matching.visited.length + matching.servings.length := by
  rw [passes, servings]
  induction matching.visited with
  | nil => exact Nat.zero_le _
  | cons state later ih =>
    have first := matching.levelPasses_le state
    rw [List.map_cons, List.sum_cons, List.flatMap_cons, List.length_append, List.length_cons]
    omega

end Matching

section Closing

variable {matching : Matching poolSize} {others : List (Slot poolSize)}
  {pending : PendingSide poolSize} {state next : BookMatch poolSize}

/-- What a pass of the outer loop closes. -/
def Matching.closes (matching : Matching poolSize) (state : BookMatch poolSize) :
    List (Serving poolSize) := (matching.served state).filter Serving.closes

/-- A pass that goes on has emptied a level in reach, and keeps the invariant. -/
theorem SidePending.of_again
    (holds : SidePending matching.isBuySide matching.size others pending state)
    (went : matching.pass state = .ok (.again next)) :
    ∃ level worse free, pending.levels = level :: worse ∧ 0 < pending.amount ∧
      inReach matching.isBuySide matching.price matching.type level.price = true ∧
      total level.lots ≤ pending.amount ∧
      SidePending matching.isBuySide matching.size others
        ⟨pending.amount - total level.lots, worse, free⟩ next := by
  rcases holds.pass with ⟨-, left⟩ |
    ⟨level, worse, split, positive, within, ⟨last, -, left⟩ | ⟨free, after, enough, again, kept⟩⟩
  · rw [left] at went
    cases went
  · rw [left] at went
    cases went
  · rw [again] at went
    cases went
    exact ⟨level, worse, free, split, positive, within, enough, kept⟩

/-- **A pass of the outer loop that goes on closes an order**, and keeps the invariant. -/
theorem SidePending.closing
    (holds : SidePending matching.isBuySide matching.size others pending state)
    (went : matching.pass state = .ok (.again next)) :
    matching.closes state ≠ [] ∧
      ∃ smaller, SidePending matching.isBuySide matching.size others smaller next := by
  obtain ⟨level, worse, free, split, positive, within, enough, kept⟩ := holds.of_again went
  refine ⟨fun empty => ?_, _, kept⟩
  obtain ⟨amount, levels, free⟩ := pending
  obtain rfl := split
  obtain ⟨queue, enters, pendingLevel⟩ := holds.enters positive within
  have served : (matching.served state).map Serving.taken =
      (taken amount level.lots).map (Taken.relabel Ticket.ref) := by
    rw [Matching.served, enters]
    exact pendingLevel.servings
  have whole : (matching.closes state).map Serving.taken =
      ((taken amount level.lots).filter Taken.whole).map (Taken.relabel Ticket.ref) := by
    have filtered := congrArg (List.filter Taken.whole) served
    rw [List.filter_map, List.filter_map] at filtered
    exact filtered
  rw [empty] at whole
  have gone : tags level.lots = [] := by
    rw [← spent_all enough, spent_eq, List.map_eq_nil_iff.mp whole.symm]
    rfl
  exact level.inhabited (List.map_eq_nil_iff.mp gone)

end Closing

/-! ### Calls and runs -/

/-- **A call makes at most three passes for each order that it closes, and three.** -/
theorem Represents.passes_le (represents : Represents book view) (call : Call poolSize) :
    book.passes call ≤ 3 * (view.closedBy call).length + 3 := by
  have served := congrArg List.length (represents.servings call)
  have closed := congrArg List.length (represents.deallocations call)
  have parts := view.length_takenBy_le call
  rw [List.length_map] at served
  rw [OrderBook.deallocations, List.length_append, List.length_append, List.length_map] at closed
  rw [OrderBook.servings] at served closed
  rw [OrderBook.passes]
  cases does : book.matching call with
  | none => exact Nat.zero_le _
  | some matching =>
    obtain ⟨others, pending, holds, -⟩ := represents.pending does
    have outer : matching.visited.length ≤ (matching.visited.flatMap matching.closes).length + 1 :=
      Loop.length_visited_le (SidePending matching.isBuySide matching.size others) matching.closes
        (fun _ _ _ holds went => holds.closing went) _ pending _ holds
    have closing : matching.visited.flatMap matching.closes =
        matching.servings.filter Serving.closes := List.filter_flatMap.symm
    have both := matching.passes_le
    rw [closing] at outer
    simp only [does, Option.map_some, Option.getD_some] at served closed ⊢
    omega

/-- What a call is charged: three passes, and three for the order that it leaves to be closed. -/
def Call.charge : Call poolSize → Nat
  | .addOrder _ => 6
  | .cancelOrder _ => 0
  | .matchOrder .. => 3

theorem Reply.accepts_le (reply : Reply poolSize) : reply.accepts ≤ 1 := by
  rcases reply with (_ | slot) | _ | total
  · exact Nat.zero_le _
  · exact Nat.le_refl _
  · exact Nat.zero_le _
  · exact Nat.zero_le _

/-- The passes that the slots in use are still good for. -/
def View.credit (view : View poolSize) : Nat := 3 * (poolSize.toNat - view.free.length)

/-- **A legal call is paid for**: its passes cost no more than its charge and the credit it uses. -/
theorem Represents.pays (represents : Represents book view) (legal : call.Legal book)
    {cost : Nat} {after : OrderBook poolSize} (done : book.callCounted call = .ok (cost, after)) :
    Represents after (view.step call).2 ∧
      cost + (view.step call).2.credit ≤ view.credit + call.charge := by
  obtain ⟨next, ran, effect⟩ := represents.call (represents.legal.mp legal)
  rw [OrderBook.callCounted, ran] at done
  obtain ⟨rfl, rfl⟩ := Prod.mk.inj (Except.ok.inj done)
  refine ⟨effect.represents, ?_⟩
  have passes := represents.passes_le call
  have moved := view.length_free_step call
  have slots := effect.represents.pool.nodup.length_le_card
  rw [Fintype.card_fin, List.length_append] at slots
  rw [View.credit, View.credit]
  cases call with
  | addOrder request =>
    have one := (view.step (.addOrder request)).1.accepts_le
    have nothing : (view.step (.addOrder request)).1.cancels = 0 := rfl
    rw [Call.charge]
    omega
  | cancelOrder order =>
    have idle : book.passes (.cancelOrder order) = 0 := rfl
    have released : (view.step (.cancelOrder order)).2.free.length = view.free.length + 1 := rfl
    rw [Call.charge]
    omega
  | matchOrder isBuySide price size type totalMatched =>
    have nothing : (view.step (.matchOrder isBuySide price size type totalMatched)).1.accepts = 0 ∧
        (view.step (.matchOrder isBuySide price size type totalMatched)).1.cancels = 0 := ⟨rfl, rfl⟩
    rw [Call.charge]
    omega

/-- **In every run from a new book, the passes of all calls are at most six for each order that was
sent and three for each call of `matchBidOrder` or `matchAskOrder`.** -/
theorem work_amortised {symbol : String} {fresh last : OrderBook poolSize}
    {calls : List (Call poolSize)} {costs : List Nat}
    (new : OrderBook.new symbol poolSize = some fresh)
    (run : Run OrderBook.callCounted Call.Legal fresh calls costs last) :
    costs.sum ≤ (calls.map Call.charge).sum := by
  obtain ⟨view, -, paid⟩ := run.paid Represents (fun _ view => view.credit) Call.charge
    (fun _ _ _ _ _ represents legal done => ⟨_, represents.pays legal done⟩)
    (represents_new new)
  have start : (View.fresh poolSize).credit = 0 := by
    rw [View.credit, View.fresh, List.length_finRange, Nat.sub_self]
  omega

/-- Three asks at two prices, a bid that takes two of them and part of the third, and a cancellation:
ten passes, of twenty-four. -/
theorem work_amortised_sample : ∃ fresh last : OrderBook 8, ∃ calls costs,
    Run OrderBook.callCounted Call.Legal fresh calls costs last ∧ costs = [1, 1, 1, 7, 0] ∧
      costs.sum ≤ (calls.map Call.charge).sum := by
  let calls : List (Call 8) := [.addOrder ⟨1, 1, 5, 10, false, .limit⟩,
    .addOrder ⟨2, 2, 5, 10, false, .limit⟩, .addOrder ⟨3, 3, 5, 11, false, .limit⟩,
    .addOrder ⟨4, 4, 12, 11, true, .limit⟩, .cancelOrder ⟨2, by decide⟩]
  have ran : ((OrderBook.new "X" 8).bind fun book =>
      execute OrderBook.callCounted Call.Legal book calls).map Prod.fst = some [1, 1, 1, 7, 0] := by
    decide +kernel
  obtain ⟨⟨costs, last⟩, done, same⟩ := Option.map_eq_some_iff.mp ran
  obtain ⟨fresh, new, executed⟩ := Option.bind_eq_some_iff.mp done
  have run := Run.of_execute executed
  exact ⟨fresh, last, calls, costs, run, same, work_amortised new run⟩

end TradingExchange
