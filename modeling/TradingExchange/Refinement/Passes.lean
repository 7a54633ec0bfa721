/-
**The passes of the matching loops, on views.**

`matchAtLevelPass_eq` and `Matching.pass_eq` say that the passes are what the observers of the loops
take them to be. In every state that the loops visit their invariants hold (`LevelPending.visited`,
`SidePending.visited`), and the orders that the passes deallocate, one after the other, are those
that the view closes (`Represents.deallocations`).
-/

import TradingExchange.Library.Taken
import TradingExchange.Model.Passes
import TradingExchange.Refinement.Closing

namespace TradingExchange

open Lots Ladder OrderBook

variable {poolSize : UInt64}

/-! ### What a pass does -/

/-- What a pass takes, and from which order. -/
def Serving.taken (serving : Serving poolSize) : Taken (Slot poolSize) :=
  ⟨serving.order, serving.matched.toNat, serving.closes⟩

/-- **A pass of `matchAtLevel` serves the first order.** -/
theorem matchAtLevelPass_eq (size : UInt32) (state : LevelMatch poolSize) :
    matchAtLevelPass size state =
      if state.goes size then
        match state.serving size with
        | none => .error .nullDereference
        | some serving => .ok (.again (serving.next state))
      else .ok (.leave state) := by
  rw [matchAtLevelPass, LevelMatch.goes, LevelMatch.serving]
  split
  · cases state.level.peek with
    | none => rfl
    | some order =>
      simp only [Option.map_some, LevelMatch.serve, MemPool.deref_write_self]
      generalize (state.orderPool.deref order).decreaseSize (size - state.totalMatched) = result
      obtain ⟨matched, reduced⟩ := result
      by_cases closes : (reduced.size == 0) = true
      · simp only [Serving.next, Serving.closes, Serving.write, closes, if_true]
      · simp only [Serving.next, Serving.closes, Serving.write, closes, Bool.false_eq_true, if_false]
  · rfl

namespace Matching

variable (matching : Matching poolSize)

theorem result_eq : matching.result =
    Loop.run matching.pass ((matching.book.levels !matching.isBuySide).size + 1)
      ⟨matching.book, matching.totalMatched⟩ := by
  obtain ⟨book, isBuySide, price, size, type, totalMatched⟩ := matching
  cases isBuySide <;> rfl

theorem pass_eq_sidePass : matching.pass =
    sidePass matching.isBuySide matching.price matching.size matching.type := by
  obtain ⟨book, isBuySide, price, size, type, totalMatched⟩ := matching
  cases isBuySide <;> rfl

/-- **A pass of the outer loop leaves, or makes the call of `matchAtLevel` that it enters.** -/
theorem pass_eq (state : BookMatch poolSize) :
    matching.pass state =
      match matching.enters state with
      | none => .ok (.leave state)
      | some (price, start) =>
        match matchAtLevel start.level start.orderPool start.totalMatched matching.size with
        | .error fault => .error fault
        | .ok result =>
          let side := !matching.isBuySide
          let levels := (state.book.levels side).insert price result.level
          let book := { state.book with orderPool := result.orderPool }
          if result.level.empty then
            .ok (.again ⟨book.setLevels side (levels.erase price), result.totalMatched⟩)
          else .ok (.leave ⟨book.setLevels side levels, result.totalMatched⟩) := by
  have one : matching.pass state = matchPass (!matching.isBuySide)
      (fun _ => matching.best state.book) matching.beyond matching.size matching.type state := by
    obtain ⟨book, isBuySide, price, size, type, totalMatched⟩ := matching
    cases isBuySide <;> rfl
  rw [one, matchPass, enters]
  split
  · cases matching.best state.book with
    | none => rfl
    | some entry =>
      simp only
      split <;> rfl
  · rfl

end Matching

/-! ### The passes of `matchAtLevel` -/

section Level

variable {symbol : String} {isBuySide : Bool} {price : UInt64} {size : UInt32}
  {free others : List (Slot poolSize)} {lot : Lot (Ticket (Slot poolSize))}
  {later : List (Lot (Ticket (Slot poolSize)))} {pending : Pending poolSize}
  {state : LevelMatch poolSize}

theorem LevelPending.not_goes
    (holds : LevelPending symbol isBuySide price size others pending state)
    (done : pending.lots = [] ∨ pending.amount = 0) : state.goes size = false := by
  have left := (holds.leave done).1
  rw [matchAtLevelPass_eq] at left
  split at left
  · split at left
    · cases left
    · cases left
  · next stops => exact Bool.eq_false_iff.mpr stops

/-- What the pass works out for the first lot. -/
structure ServesLot (state : LevelMatch poolSize) (amount : Nat)
    (lot : Lot (Ticket (Slot poolSize))) (serving : Serving poolSize) : Prop where
  order : serving.order = lot.tag.ref
  amountToMatch : serving.amountToMatch.toNat = amount
  matched : serving.matched.toNat = min amount lot.size
  reduced : serving.reduced.size.toNat = lot.size - amount
  listNode : serving.reduced.listNode = (state.orderPool.deref lot.tag.ref).listNode

theorem LevelPending.serves {amount : Nat}
    (holds : LevelPending symbol isBuySide price size others ⟨amount, lot :: later, free⟩ state)
    (positive : 0 < amount) :
    state.goes size = true ∧ ∃ serving, state.serving size = some serving ∧
      ServesLot state amount lot serving := by
  obtain ⟨going, peek, amountToMatch, filed⟩ := holds.going positive
  refine ⟨going, state.serve size lot.tag.ref, by rw [LevelMatch.serving, peek]; rfl, ?_⟩
  by_cases short : amount < lot.size
  · have less : size - state.totalMatched < (state.orderPool.deref lot.tag.ref).size := by
      rw [UInt32.lt_iff_toNat_lt, amountToMatch, filed.size]
      exact short
    simp only [LevelMatch.serve, decreaseSize_short _ less]
    refine ⟨rfl, amountToMatch, ?_, ?_, rfl⟩
    · rw [amountToMatch, Nat.min_eq_left (Nat.le_of_lt short)]
    · rw [UInt32.toNat_sub_of_le _ _ (UInt32.le_of_lt less), amountToMatch, filed.size]
  · have whole := Nat.not_lt.mp short
    have less : (state.orderPool.deref lot.tag.ref).size ≤ size - state.totalMatched := by
      rw [UInt32.le_iff_toNat_le, amountToMatch, filed.size]
      exact whole
    simp only [LevelMatch.serve, decreaseSize_whole _ less]
    refine ⟨rfl, amountToMatch, ?_, ?_, rfl⟩
    · rw [filed.size, Nat.min_eq_right whole]
    · rw [UInt32.toNat_zero, Nat.sub_eq_zero_of_le whole]

theorem ServesLot.closes_iff {amount : Nat} {serving : Serving poolSize}
    (serves : ServesLot state amount lot serving) :
    serving.closes = true ↔ lot.size ≤ amount := by
  rw [Serving.closes, beq_iff_eq, ← UInt32.toNat_inj, serves.reduced, UInt32.toNat_zero]
  exact Nat.sub_eq_zero_iff_le

theorem ServesLot.taken_eq {amount : Nat} {serving : Serving poolSize}
    (serves : ServesLot state amount lot serving) :
    serving.taken = ⟨lot.tag.ref, min amount lot.size, decide (lot.size ≤ amount)⟩ := by
  rw [Serving.taken, serves.order, serves.matched, Taken.mk.injEq]
  exact ⟨rfl, rfl, Bool.eq_iff_iff.mpr (serves.closes_iff.trans decide_eq_true_iff.symm)⟩

/-- **A pass has nothing to do and leaves, or serves the first lot and goes on with the invariant.** -/
theorem LevelPending.pass (holds : LevelPending symbol isBuySide price size others pending state) :
    (pending.lots = [] ∨ pending.amount = 0) ∧ matchAtLevelPass size state = .ok (.leave state) ∨
      ∃ lot later smaller next, pending.lots = lot :: later ∧ 0 < pending.amount ∧
        matchAtLevelPass size state = .ok (.again next) ∧
        LevelPending symbol isBuySide price size others smaller next ∧
        smaller.amount = pending.amount - lot.size ∧
        (smaller.amount = 0 ∨ smaller.lots = later) ∧
        smaller.lots.length + min smaller.amount 1 < pending.lots.length + min pending.amount 1 := by
  obtain ⟨amount, lots, free⟩ := pending
  cases lots with
  | nil => exact .inl ⟨.inl rfl, (holds.leave (.inl rfl)).1⟩
  | cons lot later =>
    rcases Nat.eq_zero_or_pos amount with rfl | positive
    · exact .inl ⟨.inr rfl, (holds.leave (.inr rfl)).1⟩
    · refine .inr ⟨lot, later, ?_⟩
      by_cases short : amount < lot.size
      · obtain ⟨next, went, kept, -⟩ := holds.short positive short
        exact ⟨_, next, rfl, positive, went, kept,
          (Nat.sub_eq_zero_of_le (Nat.le_of_lt short)).symm, .inl rfl,
          by simp only [List.length_cons]; omega⟩
      · obtain ⟨next, went, kept, -⟩ := holds.whole (Nat.not_lt.mp short)
        exact ⟨_, next, rfl, positive, went, kept, rfl, .inr rfl,
          by simp only [List.length_cons]; omega⟩

/-- **The invariant holds in every state that `matchAtLevel` visits.** -/
theorem LevelPending.visited
    (holds : LevelPending symbol isBuySide price size others pending state) :
    ∀ reached ∈ state.visited size,
      ∃ pending, LevelPending symbol isBuySide price size others pending reached := by
  refine Loop.exists_visited _ (fun pending state holds => ?_) _ pending state holds
  rcases holds.pass with ⟨-, left⟩ | ⟨lot, later, smaller, next, -, -, went, kept, -⟩
  · exact .inl ⟨state, left⟩
  · exact .inr ⟨smaller, next, went, kept⟩

/-- **What the passes of `matchAtLevel` do is what is to be done for the line**, whatever they are
watched for: a pass that serves nothing does nothing, and one that serves the first lot does what
is to be done for it. -/
theorem LevelPending.flatMap_visited {Event : Type} (does : LevelMatch poolSize → List Event)
    (todo : Nat → List (Lot (Ticket (Slot poolSize))) → List Event)
    (idle : ∀ state : LevelMatch poolSize, state.served size = none → does state = [])
    (stops : ∀ amount lots, lots = [] ∨ amount = 0 → todo amount lots = [])
    (first : ∀ amount lot later free (state : LevelMatch poolSize), 0 < amount →
      LevelPending symbol isBuySide price size others ⟨amount, lot :: later, free⟩ state →
      todo amount (lot :: later) = does state ++ todo (amount - lot.size) later)
    (holds : LevelPending symbol isBuySide price size others pending state) :
    (state.visited size).flatMap does = todo pending.amount pending.lots := by
  refine Loop.flatMap_visited
    (fun pending : Pending poolSize => pending.lots.length + min pending.amount 1)
    (LevelPending symbol isBuySide price size others) does
    (fun pending => todo pending.amount pending.lots) (fun pending state holds => ?_) _ pending state
    holds ?_
  · rcases holds.pass with ⟨done, left⟩ |
      ⟨lot, later, smaller, next, split, positive, went, kept, served, rest, less⟩
    · refine .inl ⟨state, left, ?_⟩
      rw [stops _ _ done, idle state (by rw [LevelMatch.served, holds.not_goes done]; rfl)]
    · refine .inr ⟨smaller, next, went, kept, less, ?_⟩
      have same : todo smaller.amount smaller.lots = todo (pending.amount - lot.size) later := by
        rw [← served]
        rcases rest with zero | rest
        · rw [stops _ _ (.inr zero), stops _ _ (.inr zero)]
        · rw [rest]
      obtain ⟨amount, lots, free⟩ := pending
      obtain rfl := split
      rw [same]
      exact first amount lot later free state positive holds
  · have length := holds.level.queue.size
    rw [length_refs] at length
    omega

/-- What is still to be taken at a level, by slot. -/
def Pending.taken (pending : Pending poolSize) : List (Taken (Slot poolSize)) :=
  (Lots.taken pending.amount pending.lots).map (Taken.relabel Ticket.ref)

/-- **`matchAtLevel` takes what serving the line of the level takes**, in order. -/
theorem LevelPending.servings
    (holds : LevelPending symbol isBuySide price size others pending state) :
    (state.servings size).map Serving.taken = pending.taken := by
  have one_by_one : (state.servings size).map Serving.taken = (state.visited size).flatMap
      fun state => ((state.served size).map Serving.taken).toList := by
    rw [LevelMatch.servings, List.map_filterMap, List.filterMap_eq_flatMap_toList]
  rw [one_by_one]
  refine holds.flatMap_visited _
    (fun amount lots => (Lots.taken amount lots).map (Taken.relabel Ticket.ref))
    (fun state idle => ?_) (fun amount lots done => ?_)
    fun amount lot later free state positive holds => ?_
  · rw [idle]
    rfl
  · rcases done with rfl | rfl
    · rfl
    · rw [taken_zero]
      rfl
  · obtain ⟨goes, serving, found, serves⟩ := holds.serves positive
    rw [LevelMatch.served, if_pos goes, found, Option.map_some, serves.taken_eq,
      taken_cons positive]
    rfl

end Level

/-! ### The passes of `matchBidOrder` and `matchAskOrder` -/

section Side

variable {matching : Matching poolSize} {others free : List (Slot poolSize)}
  {pending : PendingSide poolSize} {state : BookMatch poolSize}
  {level : Level UInt64 (Ticket (Slot poolSize))}
  {worse : List (Level UInt64 (Ticket (Slot poolSize)))}

theorem Matching.best_eq (matching : Matching poolSize) (book : OrderBook poolSize) :
    matching.best book = bestEntry (!matching.isBuySide) (book.levels !matching.isBuySide) := by
  obtain ⟨_, isBuySide, _, _, _, _⟩ := matching
  cases isBuySide <;> rfl

theorem Matching.beyond_eq (matching : Matching poolSize) (first : UInt64) :
    (matching.type == .limit && matching.beyond first) =
      !inReach matching.isBuySide matching.price matching.type first := by
  obtain ⟨_, isBuySide, _, _, _, _⟩ := matching
  cases isBuySide <;> exact (Bool.not_not _).symm

/-- There is nothing left to match, or nothing in reach. -/
def Matching.Idle (matching : Matching poolSize) (pending : PendingSide poolSize) : Prop :=
  pending.amount = 0 ∨ pending.levels = [] ∨ ∃ level worse, pending.levels = level :: worse ∧
    inReach matching.isBuySide matching.price matching.type level.price = false

/-- What is still to be taken from a side, by slot. -/
def Matching.todo (matching : Matching poolSize) (pending : PendingSide poolSize) :
    List (Taken (Slot poolSize)) :=
  (Ladder.taken (inReach matching.isBuySide matching.price matching.type) pending.amount
    pending.levels).map (Taken.relabel Ticket.ref)

/-- A pass with something to serve enters the best level. -/
theorem SidePending.enters {amount : Nat}
    (holds : SidePending matching.isBuySide matching.size others ⟨amount, level :: worse, free⟩ state)
    (positive : 0 < amount)
    (within : inReach matching.isBuySide matching.price matching.type level.price = true) :
    ∃ queue, matching.enters state =
        some (level.price, ⟨queue, state.book.orderPool, state.totalMatched⟩) ∧
      LevelPending state.book.symbol (!matching.isBuySide) level.price matching.size
        (refs (flat worse) ++ others) ⟨amount, level.lots, free⟩
        ⟨queue, state.book.orderPool, state.totalMatched⟩ := by
  obtain ⟨queue, best, shown⟩ := holds.side.bestEntry_cons holds.sorted
  have below := holds.amount
  have pool := holds.pool
  simp only at below
  simp only [flat_cons, refs_append, List.append_assoc] at pool
  have more : state.totalMatched < matching.size := UInt32.lt_iff_toNat_lt.mpr (by omega)
  refine ⟨queue, ?_, shown, pool, below⟩
  rw [Matching.enters, if_pos more, matching.best_eq, best]
  simp only [matching.beyond_eq, within, Bool.not_true, Bool.false_eq_true, if_false]

/-- With nothing to serve, or nothing in reach, a pass enters no level. -/
theorem SidePending.not_enters
    (holds : SidePending matching.isBuySide matching.size others pending state)
    (done : matching.Idle pending) : matching.enters state = none := by
  obtain ⟨amount, levels, free⟩ := pending
  rw [Matching.enters]
  split
  · next more =>
    rcases done with zero | rfl | ⟨level, worse, rfl, out⟩
    · have below := holds.amount
      rw [UInt32.lt_iff_toNat_lt] at more
      omega
    · rw [matching.best_eq, holds.side.bestEntry_nil]
    · obtain ⟨queue, best, -⟩ := holds.side.bestEntry_cons holds.sorted
      rw [matching.best_eq, best]
      simp only [matching.beyond_eq, out, Bool.not_false, if_true]
  · rfl

/-- A matching that is not idle has a best level in reach. -/
theorem Matching.not_idle {matching : Matching poolSize} {pending : PendingSide poolSize}
    (more : ¬ matching.Idle pending) :
    ∃ level worse, pending.levels = level :: worse ∧ 0 < pending.amount ∧
      inReach matching.isBuySide matching.price matching.type level.price = true := by
  obtain ⟨amount, rest⟩ := not_or.mp more
  obtain ⟨inhabited, reached⟩ := not_or.mp rest
  obtain ⟨level, worse, split⟩ := List.exists_cons_of_ne_nil inhabited
  exact ⟨level, worse, split, Nat.pos_of_ne_zero amount,
    Bool.not_eq_false _ ▸ fun out => reached ⟨level, worse, split, out⟩⟩

/-- **A pass has nothing to do and leaves; or it serves the best level, and leaves if that level
outlasts it and goes on with the invariant if not.** -/
theorem SidePending.pass
    (holds : SidePending matching.isBuySide matching.size others pending state) :
    matching.Idle pending ∧ matching.pass state = .ok (.leave state) ∨
      ∃ level worse, pending.levels = level :: worse ∧ 0 < pending.amount ∧
        inReach matching.isBuySide matching.price matching.type level.price = true ∧
        ((∃ last, pending.amount < total level.lots ∧ matching.pass state = .ok (.leave last)) ∨
          ∃ free next, total level.lots ≤ pending.amount ∧ matching.pass state = .ok (.again next) ∧
            SidePending matching.isBuySide matching.size others
              ⟨pending.amount - total level.lots, worse, free⟩ next) := by
  rw [matching.pass_eq_sidePass]
  by_cases done : matching.Idle pending
  · exact .inl ⟨done, (holds.leave done).1⟩
  · obtain ⟨level, worse, split, positive, within⟩ := Matching.not_idle done
    refine .inr ⟨level, worse, split, positive, within, ?_⟩
    obtain ⟨amount, levels, free⟩ := pending
    obtain rfl := split
    by_cases emptied : fill amount level.lots = []
    · obtain ⟨next, went, kept, -⟩ := holds.whole positive within emptied
      exact .inr ⟨_, next, fill_eq_nil.mp emptied, went, kept⟩
    · obtain ⟨last, left, -⟩ := holds.part positive within emptied
      exact .inl ⟨last, Nat.lt_of_not_le fun enough => emptied (fill_eq_nil.mpr enough), left⟩

/-- **The invariant holds in every state that the outer loop visits.** -/
theorem SidePending.visited
    (holds : SidePending matching.isBuySide matching.size others pending
      ⟨matching.book, matching.totalMatched⟩) :
    ∀ reached ∈ matching.visited,
      ∃ pending, SidePending matching.isBuySide matching.size others pending reached := by
  refine Loop.exists_visited _ (fun pending state holds => ?_) _ pending _ holds
  rcases holds.pass with ⟨-, left⟩ |
    ⟨level, worse, -, -, -, ⟨last, -, left⟩ | ⟨free, next, -, went, kept⟩⟩
  · exact .inl ⟨state, left⟩
  · exact .inl ⟨last, left⟩
  · exact .inr ⟨_, next, went, kept⟩

/-- Matching does not change the symbol. -/
theorem Matching.symbol_pass {next : BookMatch poolSize}
    (went : matching.pass state = .ok (.again next)) : next.book.symbol = state.book.symbol := by
  rw [matching.pass_eq] at went
  split at went
  · cases went
  · split at went
    · cases went
    · simp only at went
      split at went
      · cases went
        exact OrderBook.setLevels_symbol ..
      · cases went

/-- **What the passes of the outer loop do is what is to be done for the ladder**, whatever they are
watched for: a pass that enters no level does nothing, and one that enters the best level does what
is to be done for its line. -/
theorem SidePending.flatMap_visited {Event : Type} (does : BookMatch poolSize → List Event)
    (todo : Nat → List (Level UInt64 (Ticket (Slot poolSize))) → List Event)
    (idle : ∀ state : BookMatch poolSize, matching.enters state = none → does state = [])
    (stops : ∀ pending, matching.Idle pending → todo pending.amount pending.levels = [])
    (first : ∀ amount level worse free others (state : BookMatch poolSize) start, 0 < amount →
      inReach matching.isBuySide matching.price matching.type level.price = true →
      matching.enters state = some (level.price, start) →
      LevelPending matching.book.symbol (!matching.isBuySide) level.price matching.size others
        ⟨amount, level.lots, free⟩ start →
      todo amount (level :: worse) = does state ++ todo (amount - total level.lots) worse)
    (holds : SidePending matching.isBuySide matching.size others pending
      ⟨matching.book, matching.totalMatched⟩) :
    matching.visited.flatMap does = todo pending.amount pending.levels := by
  refine Loop.flatMap_visited (fun pending : PendingSide poolSize => pending.levels.length)
    (fun pending state => SidePending matching.isBuySide matching.size others pending state ∧
      state.book.symbol = matching.book.symbol) does
    (fun pending => todo pending.amount pending.levels) (fun pending state kept => ?_) _ pending _
    ⟨holds, rfl⟩ (Nat.lt_succ_of_le (holds.side.length_le holds.sorted))
  obtain ⟨holds, named⟩ := kept
  rcases holds.pass with ⟨done, left⟩ | ⟨level, worse, split, positive, within, ends⟩
  · refine .inl ⟨state, left, ?_⟩
    rw [stops pending done, idle state (holds.not_enters done)]
  · obtain ⟨amount, levels, free⟩ := pending
    obtain rfl := split
    obtain ⟨queue, enters, pendingLevel⟩ := holds.enters positive within
    rw [named] at pendingLevel
    have serves := first amount level worse free _ state _ positive within enters pendingLevel
    rcases ends with ⟨last, short, left⟩ | ⟨free, next, -, went, kept⟩
    · refine .inl ⟨last, left, serves.trans ?_⟩
      rw [Nat.sub_eq_zero_of_le (Nat.le_of_lt short), stops ⟨0, worse, free⟩ (.inl rfl),
        List.append_nil]
    · exact .inr ⟨_, next, went, ⟨kept, (Matching.symbol_pass went).trans named⟩,
        Nat.lt_succ_self _, serves⟩

/-- **A matching takes what the sweep takes**, in order. -/
theorem SidePending.servings
    (holds : SidePending matching.isBuySide matching.size others pending
      ⟨matching.book, matching.totalMatched⟩) :
    matching.servings.map Serving.taken = matching.todo pending := by
  rw [Matching.servings, List.map_flatMap, Matching.todo]
  refine holds.flatMap_visited _
    (fun amount levels => (Ladder.taken (inReach matching.isBuySide matching.price matching.type)
      amount levels).map (Taken.relabel Ticket.ref))
    (fun state idle => ?_) (fun pending done => ?_)
    fun amount level worse free others state start positive within enters pendingLevel => ?_
  · rw [Matching.served, idle]
    rfl
  · rcases done with zero | empty | ⟨level, worse, split, out⟩
    · rw [zero, taken_eq, Nat.zero_min, taken_zero]
      rfl
    · rw [empty]
      rfl
    · rw [split, Ladder.taken, if_neg (Bool.eq_false_iff.mp out)]
      rfl
  · rw [Matching.served, enters, Ladder.taken, if_pos within, List.map_append]
    simp only [pendingLevel.servings]
    rfl

end Side

/-! ### Calls -/

/-- What a call takes from the resting orders, in order. -/
def View.takenBy (view : View poolSize) : Call poolSize → List (Taken (Slot poolSize))
  | .addOrder request =>
    if view.free = [] then []
    else (Ladder.taken (inReach request.isBuySide request.price request.orderType)
      request.size.toNat (view.book.levels !request.isBuySide)).map (Taken.relabel Ticket.ref)
  | .cancelOrder _ => []
  | .matchOrder isBuySide price size type totalMatched =>
    (Ladder.taken (inReach isBuySide price type) (size.toNat - totalMatched.toNat)
      (view.book.levels !isBuySide)).map (Taken.relabel Ticket.ref)

section Calls

variable {book : OrderBook poolSize} {view : View poolSize} {call : Call poolSize}

/-- **The loop of a call starts with its invariant**, and with the orders that the call closes. -/
theorem Represents.pending (represents : Represents book view) {matching : Matching poolSize}
    (does : book.matching call = some matching) :
    ∃ others pending, SidePending matching.isBuySide matching.size others pending
        ⟨matching.book, matching.totalMatched⟩ ∧
      matching.todo pending = view.takenBy call := by
  cases call with
  | cancelOrder order => exact absurd does (Option.some_ne_none _).symm
  | addOrder request =>
    rw [OrderBook.matching] at does
    cases found : view.free with
    | nil =>
      have list := represents.pool.list
      rw [found] at list
      rw [list.allocate_nil] at does
      exact absurd does (Option.some_ne_none _).symm
    | cons slot free =>
      obtain ⟨pool, allocated, sides, shown, -⟩ := represents.allocate request found
      rw [allocated] at does
      obtain rfl := Option.some.inj does
      refine ⟨view.slots request.isBuySide,
        ⟨request.size.toNat, view.book.levels (!request.isBuySide), free⟩,
        ⟨sides _, view.book.sorted _, shown, rfl⟩, ?_⟩
      rw [View.takenBy, if_neg (found ▸ List.cons_ne_nil _ _)]
      rfl
  | matchOrder isBuySide price size type totalMatched =>
    obtain rfl := Option.some.inj does
    exact ⟨view.slots isBuySide,
      ⟨size.toNat - totalMatched.toNat, view.book.levels (!isBuySide), view.free⟩,
      ⟨represents.sides _, view.book.sorted _, represents.pool.perm (view.linked_perm isBuySide), rfl⟩,
      rfl⟩

/-- A call without a matching takes nothing. -/
theorem Represents.takenBy_nil (represents : Represents book view)
    (unmatched : book.matching call = none) : view.takenBy call = [] := by
  cases call with
  | cancelOrder order => rfl
  | addOrder request =>
    cases found : view.free with
    | nil => rw [View.takenBy, if_pos found]
    | cons slot free =>
      obtain ⟨pool, allocated, -⟩ := represents.allocate request found
      rw [OrderBook.matching, allocated] at unmatched
      exact absurd unmatched (Option.some_ne_none _)
  | matchOrder isBuySide price size type totalMatched =>
    exact absurd unmatched (Option.some_ne_none _)

/-- **A call serves what the view says it takes**, in order. -/
theorem Represents.servings (represents : Represents book view) (call : Call poolSize) :
    (book.servings call).map Serving.taken = view.takenBy call := by
  rw [OrderBook.servings]
  cases does : book.matching call with
  | none => exact (represents.takenBy_nil does).symm
  | some matching =>
    obtain ⟨others, pending, holds, todo⟩ := represents.pending does
    exact holds.servings.trans todo

/-- The orders that a call closes are those that it takes whole. -/
theorem View.closedBy_eq (view : View poolSize) (call : Call poolSize) :
    view.closedBy call = ((view.takenBy call).filter Taken.whole).map Taken.tag := by
  have closes : ∀ isBuySide price amount type,
      (view.book.closes isBuySide price amount type).map Ticket.ref =
        (((Ladder.taken (inReach isBuySide price type) amount (view.book.levels !isBuySide)).map
          (Taken.relabel Ticket.ref)).filter Taken.whole).map Taken.tag := by
    intro isBuySide price amount type
    rw [PureBook.closes, closed_eq_taken, List.filter_map, List.map_map, List.map_map]
    rfl
  cases call with
  | addOrder request =>
    rw [closedBy, takenBy]
    split
    · rfl
    · exact closes ..
  | cancelOrder order => rfl
  | matchOrder isBuySide price size type totalMatched => exact closes ..

/-- **A call deallocates the orders that it closes, in order, and the one that it cancels.** -/
theorem Represents.deallocations (represents : Represents book view) (call : Call poolSize) :
    book.deallocations call = view.closedBy call ++ call.cancelled := by
  rw [OrderBook.deallocations, view.closedBy_eq, ← represents.servings, List.filter_map,
    List.map_map]
  rfl

theorem Call.mem_cancelled {slot : Slot poolSize} :
    slot ∈ call.cancelled ↔ call = .cancelOrder slot := by
  cases call with
  | cancelOrder order => rw [Call.cancelled, Call.cancelOrder.injEq, List.mem_singleton, eq_comm]
  | addOrder request => exact iff_of_false List.not_mem_nil fun same => by cases same
  | matchOrder => exact iff_of_false List.not_mem_nil fun same => by cases same

theorem Represents.mem_deallocations (represents : Represents book view) {slot : Slot poolSize} :
    slot ∈ book.deallocations call ↔ slot ∈ view.closedBy call ∨ call = .cancelOrder slot := by
  rw [represents.deallocations, List.mem_append, Call.mem_cancelled]

/-- No slot is deallocated twice. -/
theorem Represents.deallocations_nodup (represents : Represents book view) (call : Call poolSize) :
    (book.deallocations call).Nodup := by
  rw [represents.deallocations]
  cases call with
  | cancelOrder order => exact List.nodup_singleton _
  | addOrder request => exact (List.append_nil _).symm ▸ represents.closedBy_nodup _
  | matchOrder => exact (List.append_nil _).symm ▸ represents.closedBy_nodup _

end Calls

end TradingExchange
