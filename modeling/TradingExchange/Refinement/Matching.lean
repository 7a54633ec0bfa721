/-
**Matching against a side.**

The loop of `matchBidOrder` and `matchAskOrder` sweeps the ladder of the other side
(`matchOrder_shown`): it takes the best entry of the map, which is the head of the ladder
(`SideShown.bestEntry_cons`), serves its level, and goes on only if that emptied the level. The two
functions are one proof: each walks its map from the end that is best for the side it matches
against, and stops at the prices that are not in reach of the incoming order.
-/

import TradingExchange.Library.Lists
import TradingExchange.Refinement.Level

namespace TradingExchange

open Lots Ladder

variable {poolSize : UInt64}

/-! ### The book's fields -/

namespace OrderBook

variable (book : OrderBook poolSize) (isBuySide : Bool) (levels : PriceLevels poolSize)

@[simp] theorem setLevels_self : (book.setLevels isBuySide levels).levels isBuySide = levels := by
  cases isBuySide <;> rfl

@[simp] theorem setLevels_not :
    (book.setLevels isBuySide levels).levels (!isBuySide) = book.levels (!isBuySide) := by
  cases isBuySide <;> rfl

@[simp] theorem setLevels_orderPool :
    (book.setLevels isBuySide levels).orderPool = book.orderPool := by
  cases isBuySide <;> rfl

@[simp] theorem setLevels_symbol : (book.setLevels isBuySide levels).symbol = book.symbol := by
  cases isBuySide <;> rfl

/-- The entry that matching against a side takes first. -/
def bestEntry (isBuySide : Bool) (levels : PriceLevels poolSize) :
    Option (UInt64 × PriceLevel poolSize) :=
  if isBuySide then rbegin levels else begin levels

/-- Both loops are one, told apart by the side. -/
theorem matchOrder_eq (book : OrderBook poolSize) (isBuySide : Bool) (price : UInt64)
    (size : UInt32) (type : OrderType) (totalMatched : UInt32) :
    book.matchOrder isBuySide price size type totalMatched =
      Loop.run (matchPass (!isBuySide) (bestEntry !isBuySide)
        (fun first => decide (better (!isBuySide) price first)) size type)
        ((book.levels !isBuySide).size + 1) ⟨book, totalMatched⟩ := by
  cases isBuySide <;> rfl

end OrderBook

/-! ### The best entry -/

section Best

variable {pool : OrderPool poolSize} {symbol : String} {isBuySide : Bool}
  {map : PriceLevels poolSize} {level : Level UInt64 (Ticket (Slot poolSize))}
  {levels worse : List (Level UInt64 (Ticket (Slot poolSize)))}

theorem SideShown.bestEntry_nil (shown : SideShown pool symbol isBuySide map []) :
    OrderBook.bestEntry isBuySide map = none := by
  have empty : map.toList = [] := by
    refine List.eq_nil_iff_forall_not_mem.mpr fun entry member => ?_
    have here := shown entry.1
    rw [Std.ExtTreeMap.mem_toList_iff_getElem?_eq_some.mp member] at here
    exact here.1 rfl
  cases isBuySide with
  | true => rw [OrderBook.bestEntry, if_pos rfl, OrderBook.rbegin, empty]; rfl
  | false => rw [OrderBook.bestEntry, if_neg Bool.false_ne_true, OrderBook.begin, empty]; rfl

/-- **The best entry of the map is the head of the ladder.** -/
theorem SideShown.bestEntry_cons (shown : SideShown pool symbol isBuySide map (level :: worse))
    (sorted : Sorted (better isBuySide) (level :: worse)) :
    ∃ queue, OrderBook.bestEntry isBuySide map = some (level.price, queue) ∧
      LevelShown pool symbol isBuySide level.price queue level.lots := by
  have ahead := (List.pairwise_cons.mp sorted).1
  obtain ⟨queue, found, levelShown⟩ :=
    shown.level (List.mem_cons_self : level.price ∈ prices (level :: worse))
  rw [lotsAt_self] at levelShown
  refine ⟨queue, ?_, levelShown⟩
  have here : (level.price, queue) ∈ map.toList :=
    Std.ExtTreeMap.mem_toList_iff_getElem?_eq_some.mpr found
  have ordered : map.toList.Pairwise fun first second => first.1 < second.1 := by
    refine Std.ExtTreeMap.ordered_keys_toList.imp fun {first second} less => ?_
    exact Std.compare_eq_lt.mp less
  have least : ∀ entry ∈ map.toList,
      entry.1 = level.price ∨ better isBuySide level.price entry.1 := by
    intro entry member
    have found := Std.ExtTreeMap.mem_toList_iff_getElem?_eq_some.mp member
    have key : entry.1 ∈ map := by
      rw [Std.ExtTreeMap.mem_iff_isSome_getElem?, found]
      rfl
    exact (List.mem_cons.mp ((shown.mem_iff entry.1).mp key)).imp_right (ahead entry.1)
  cases isBuySide with
  | true =>
    rw [OrderBook.bestEntry, if_pos rfl, OrderBook.rbegin]
    exact getLast?_of_greatest ordered here fun entry member more => (least entry member).elim
      (fun same => UInt64.lt_irrefl _ (same ▸ more)) fun less => UInt64.lt_asymm more less
  | false =>
    rw [OrderBook.bestEntry, if_neg Bool.false_ne_true, OrderBook.begin]
    exact head?_of_least ordered here fun entry member less => (least entry member).elim
      (fun same => UInt64.lt_irrefl _ (same ▸ less)) fun more => UInt64.lt_asymm less more

theorem SideShown.length_le (shown : SideShown pool symbol isBuySide map levels)
    (sorted : Sorted (better isBuySide) levels) : levels.length ≤ map.size := by
  have subset : prices levels ⊆ map.keys := fun price member =>
    Std.ExtTreeMap.mem_keys.mpr ((shown.mem_iff price).mpr member)
  have length := (List.subperm_of_subset sorted.nodup subset).length_le
  rwa [Std.ExtTreeMap.length_keys, prices, List.length_map] at length

end Best

/-! ### Entries of a map -/

section Entries

variable {map : PriceLevels poolSize} {price other : UInt64} (level : PriceLevel poolSize)

theorem getElem?_insert_of_ne (different : other ≠ price) :
    (map.insert price level)[other]? = map[other]? := by
  rw [Std.ExtTreeMap.getElem?_insert, if_neg]
  exact fun same => different (Std.LawfulEqCmp.compare_eq_iff_eq.mp same).symm

theorem getElem?_erase_self : (map.erase price)[price]? = none :=
  Std.ExtTreeMap.getElem?_erase_self

theorem getElem?_erase_of_ne (different : other ≠ price) :
    (map.erase price)[other]? = map[other]? := by
  rw [Std.ExtTreeMap.getElem?_erase, if_neg]
  exact fun same => different (Std.LawfulEqCmp.compare_eq_iff_eq.mp same).symm

end Entries

/-! ### The loop -/

section Loop

variable {isBuySide : Bool} {price : UInt64} {size : UInt32} {type : OrderType}
  {others free : List (Slot poolSize)} {level : Level UInt64 (Ticket (Slot poolSize))}
  {worse : List (Level UInt64 (Ticket (Slot poolSize)))}

/-- What an incoming order of side `isBuySide` does when it takes `amount` from the other side. -/
structure SideServed (isBuySide : Bool) (price : UInt64) (type : OrderType) (amount : Nat)
    (levels : List (Level UInt64 (Ticket (Slot poolSize)))) (free others : List (Slot poolSize))
    (before after : OrderBook.BookMatch poolSize) : Prop where
  side : SideShown after.book.orderPool after.book.symbol (!isBuySide)
    (after.book.levels !isBuySide) (sweep (inReach isBuySide price type) amount levels)
  pool : PoolShown after.book.orderPool
    (((closed (inReach isBuySide price type) amount levels).map Ticket.ref).reverse ++ free)
    (refs (flat (sweep (inReach isBuySide price type) amount levels)) ++ others)
  total : after.totalMatched.toNat = before.totalMatched.toNat +
    min amount (liquidity (inReach isBuySide price type) levels)
  symbol : after.book.symbol = before.book.symbol
  otherSide : after.book.levels isBuySide = before.book.levels isBuySide
  frame : ∀ slot, slot ∉ refs (flat levels) →
    after.book.orderPool.store slot = before.book.orderPool.store slot
  closed : ∀ slot ∈ (closed (inReach isBuySide price type) amount levels).map Ticket.ref,
    Closed (before.book.orderPool.deref slot) (after.book.orderPool.deref slot)

/-- What is still to be done against a side. -/
structure PendingSide (poolSize : UInt64) where
  amount : Nat
  levels : List (Level UInt64 (Ticket (Slot poolSize)))
  free : List (Slot poolSize)

/-- The loop invariant of `matchBidOrder` and `matchAskOrder`. -/
structure SidePending (isBuySide : Bool) (size : UInt32) (others : List (Slot poolSize))
    (pending : PendingSide poolSize) (state : OrderBook.BookMatch poolSize) : Prop where
  side : SideShown state.book.orderPool state.book.symbol (!isBuySide)
    (state.book.levels !isBuySide) pending.levels
  sorted : Sorted (better !isBuySide) pending.levels
  pool : PoolShown state.book.orderPool pending.free (refs (flat pending.levels) ++ others)
  amount : pending.amount = size.toNat - state.totalMatched.toNat

/-- One pass of the loop. -/
def sidePass (isBuySide : Bool) (price : UInt64) (size : UInt32) (type : OrderType) :
    OrderBook.BookMatch poolSize → Except Fault (Loop.Pass (OrderBook.BookMatch poolSize)) :=
  OrderBook.matchPass (!isBuySide) (OrderBook.bestEntry !isBuySide)
    (fun first => decide (better (!isBuySide) price first)) size type

/-- There is nothing left to serve, or nothing in reach. -/
theorem SidePending.leave {pending : PendingSide poolSize} {state : OrderBook.BookMatch poolSize}
    (holds : SidePending isBuySide size others pending state)
    (done : pending.amount = 0 ∨ pending.levels = [] ∨ ∃ level worse,
      pending.levels = level :: worse ∧ inReach isBuySide price type level.price = false) :
    sidePass isBuySide price size type state = .ok (.leave state) ∧
      SideServed isBuySide price type pending.amount pending.levels pending.free others
        state state := by
  obtain ⟨amount, levels, free⟩ := pending
  have nothing : sweep (inReach isBuySide price type) amount levels = levels ∧
      closed (inReach isBuySide price type) amount levels = [] ∧
      min amount (liquidity (inReach isBuySide price type) levels) = 0 := by
    rcases done with rfl | rfl | ⟨level, worse, rfl, out⟩
    · exact ⟨sweep_zero _, closed_zero _, Nat.zero_min _⟩
    · exact ⟨rfl, rfl, Nat.min_zero _⟩
    · have out' : ¬ inReach isBuySide price type level.price = true := by
        rw [out]
        exact Bool.false_ne_true
      exact ⟨sweep_stop out, by rw [closed, if_neg out'], by rw [liquidity, if_neg out', Nat.min_zero]⟩
  obtain ⟨swept, gone, zero⟩ := nothing
  constructor
  · rw [sidePass, OrderBook.matchPass]
    by_cases more : state.totalMatched < size
    · rw [if_pos more]
      rcases done with idle | rfl | ⟨level, worse, rfl, out⟩
      · have amount := holds.amount
        rw [UInt32.lt_iff_toNat_lt] at more
        omega
      · rw [holds.side.bestEntry_nil]
      · obtain ⟨queue, best, -⟩ := holds.side.bestEntry_cons holds.sorted
        rw [best]
        simp only [inReach, Bool.not_eq_false'] at out
        simp only [out, if_true]
    · rw [if_neg more]
  · refine ⟨by rw [swept]; exact holds.side, by rw [swept, gone]; exact holds.pool,
      by rw [zero, Nat.add_zero], rfl, rfl, fun _ _ => rfl, ?_⟩
    rw [gone]
    exact fun _ member => absurd member List.not_mem_nil

/-- A pass with something to serve serves the best level, and keeps the map at other prices. -/
theorem SidePending.serve {amount : Nat} {state : OrderBook.BookMatch poolSize}
    (holds : SidePending isBuySide size others ⟨amount, level :: worse, free⟩ state)
    (positive : 0 < amount) (within : inReach isBuySide price type level.price = true) :
    ∃ queue after, LevelServed state.book.symbol (!isBuySide) level.price amount level.lots free
        (refs (flat worse) ++ others) ⟨queue, state.book.orderPool, state.totalMatched⟩ after ∧
      (∀ slot ∈ refs level.lots, slot ∉ refs (flat worse)) ∧
      (∀ other, other ≠ level.price → ∀ slot ∈ refs (lotsAt (level :: worse) other),
        after.orderPool.store slot = state.book.orderPool.store slot) ∧
      sidePass isBuySide price size type state =
        let levels := (state.book.levels !isBuySide).insert level.price after.level
        let book := { state.book with orderPool := after.orderPool }
        if fill amount level.lots = [] then
          .ok (.again ⟨book.setLevels (!isBuySide) (levels.erase level.price), after.totalMatched⟩)
        else .ok (.leave ⟨book.setLevels (!isBuySide) levels, after.totalMatched⟩) := by
  obtain ⟨queue, best, shown⟩ := holds.side.bestEntry_cons holds.sorted
  have pool := holds.pool
  simp only [flat_cons, refs_append, List.append_assoc] at pool
  obtain ⟨after, ran, served⟩ := matchAtLevel_shown size state.totalMatched shown pool
  have below := holds.amount
  simp only at below
  rw [← below] at served
  have more : state.totalMatched < size := UInt32.lt_iff_toNat_lt.mpr (by omega)
  have reached : (type == .limit && decide (better (!isBuySide) price level.price)) = false := by
    rwa [inReach, Bool.not_eq_true'] at within
  have apart : ∀ slot ∈ refs level.lots, slot ∉ refs (flat worse) := fun slot inside member =>
    (List.nodup_append.mp pool.linked_nodup).2.2 slot inside slot (List.mem_append_left _ member) rfl
  refine ⟨queue, after, served, apart, fun other different slot member => ?_, ?_⟩
  · refine served.frame slot fun inside => apart slot inside ?_
    rw [lotsAt_of_ne (Ne.symm different)] at member
    exact refs_lotsAt_sublist.subset member
  · have empty : after.level.empty = true ↔ fill amount level.lots = [] := by
      rw [served.level.queue.empty_iff, ← List.length_eq_zero_iff, length_refs,
        List.length_eq_zero_iff]
    rw [sidePass, OrderBook.matchPass, if_pos more, best]
    simp only [reached, Bool.false_eq_true, if_false, ran, empty]

/-- The pass that leaves part of the best level. -/
theorem SidePending.part {amount : Nat} {state : OrderBook.BookMatch poolSize}
    (holds : SidePending isBuySide size others ⟨amount, level :: worse, free⟩ state)
    (positive : 0 < amount) (within : inReach isBuySide price type level.price = true)
    (left : fill amount level.lots ≠ []) :
    ∃ last, sidePass isBuySide price size type state = .ok (.leave last) ∧
      SideServed isBuySide price type amount (level :: worse) free others state last := by
  obtain ⟨queue, after, served, -, same, went⟩ := holds.serve positive within
  rw [if_neg left] at went
  have short : amount < total level.lots :=
    Nat.lt_of_not_le fun enough => left (fill_eq_nil.mpr enough)
  have gone : closed (inReach isBuySide price type) amount (level :: worse) =
      spent amount level.lots := by
    rw [closed, if_pos within, Nat.sub_eq_zero_of_le (Nat.le_of_lt short), closed_zero,
      List.append_nil]
  refine ⟨_, went, ?_⟩
  constructor
  · simp only [OrderBook.setLevels_self, OrderBook.setLevels_orderPool, OrderBook.setLevels_symbol]
    refine holds.side.update ?_ (fun other different => ⟨?_, ?_⟩) same
    · rw [Std.ExtTreeMap.getElem?_insert_self, sweep_part within left, lotsAt, if_pos rfl]
      exact ⟨left, served.level⟩
    · exact getElem?_insert_of_ne _ different
    · rw [sweep_part within left]
      simp only [lotsAt, if_neg (Ne.symm different)]
  · rw [gone, sweep_part within left, flat_cons, refs_append, List.append_assoc]
    simp only [OrderBook.setLevels_orderPool]
    exact served.pool
  · rw [liquidity, if_pos within, served.total]
    simp only
    omega
  · exact OrderBook.setLevels_symbol ..
  · have other := OrderBook.setLevels_not
      { state.book with orderPool := after.orderPool } (!isBuySide)
      ((state.book.levels !isBuySide).insert level.price after.level)
    rwa [Bool.not_not] at other
  · intro slot outside
    simp only [OrderBook.setLevels_orderPool]
    refine served.frame slot fun inside => outside ?_
    rw [flat_cons, refs_append]
    exact List.mem_append_left _ inside
  · rw [gone]
    simp only [OrderBook.setLevels_orderPool]
    exact served.closed

/-- The pass that empties the best level. -/
theorem SidePending.whole {amount : Nat} {state : OrderBook.BookMatch poolSize}
    (holds : SidePending isBuySide size others ⟨amount, level :: worse, free⟩ state)
    (positive : 0 < amount) (within : inReach isBuySide price type level.price = true)
    (emptied : fill amount level.lots = []) :
    ∃ next, sidePass isBuySide price size type state = .ok (.again next) ∧
      SidePending isBuySide size others ⟨amount - total level.lots, worse,
        ((spent amount level.lots).map Ticket.ref).reverse ++ free⟩ next ∧
      ∀ last, SideServed isBuySide price type (amount - total level.lots) worse
          (((spent amount level.lots).map Ticket.ref).reverse ++ free) others next last →
        SideServed isBuySide price type amount (level :: worse) free others state last := by
  obtain ⟨queue, after, served, apart, same, went⟩ := holds.serve positive within
  rw [if_pos emptied] at went
  have enough := fill_eq_nil.mp emptied
  have below := holds.amount
  have pool := served.pool
  simp only at below
  rw [emptied, refs_nil, List.nil_append] at pool
  refine ⟨_, went, ⟨?_, (List.pairwise_cons.mp holds.sorted).2, ?_, ?_⟩, fun last rest => ?_⟩
  · simp only [OrderBook.setLevels_self, OrderBook.setLevels_orderPool, OrderBook.setLevels_symbol]
    refine holds.side.update ?_ (fun other different => ⟨?_, ?_⟩) same
    · rw [getElem?_erase_self]
      exact holds.sorted.lotsAt_tail
    · exact (getElem?_erase_of_ne different).trans (getElem?_insert_of_ne _ different)
    · exact (lotsAt_of_ne (Ne.symm different)).symm
  · simp only [OrderBook.setLevels_orderPool]
    exact pool
  · simp only [served.total]
    omega
  · have gone : closed (inReach isBuySide price type) amount (level :: worse) =
        spent amount level.lots ++
          closed (inReach isBuySide price type) (amount - total level.lots) worse := by
      rw [closed, if_pos within]
    obtain ⟨side, restPool, restTotal, symbol, otherSide, restFrame, restClosed⟩ := rest
    simp only [OrderBook.setLevels_orderPool] at restFrame
    constructor
    · rw [sweep_whole within emptied]
      exact side
    · rw [gone, sweep_whole within emptied, List.map_append, List.reverse_append, List.append_assoc]
      exact restPool
    · rw [restTotal, liquidity, if_pos within, served.total]
      simp only
      omega
    · exact symbol.trans (OrderBook.setLevels_symbol ..)
    · have other := OrderBook.setLevels_not
        { state.book with orderPool := after.orderPool } (!isBuySide)
        (((state.book.levels !isBuySide).insert level.price after.level).erase level.price)
      rw [Bool.not_not] at other
      exact otherSide.trans other
    · intro slot outside
      rw [flat_cons, refs_append, List.mem_append, not_or] at outside
      exact (restFrame slot outside.2).trans (served.frame slot outside.1)
    · intro slot member
      rw [gone, List.map_append] at member
      rcases List.mem_append.mp member with here | behind
      · have inside : slot ∈ refs level.lots := by
          rw [refs, tags_eq amount level.lots, List.map_append]
          exact List.mem_append_left _ here
        rw [MemPool.deref_congr (restFrame slot (apart slot inside))]
        exact served.closed slot here
      · have inside : slot ∈ refs (flat worse) := by
          rw [closed_eq] at behind
          rw [refs, tags_eq, List.map_append]
          exact List.mem_append_left _ behind
        have gone := restClosed slot behind
        rwa [OrderBook.setLevels_orderPool,
          MemPool.deref_congr (served.frame slot fun within => apart slot within inside)] at gone

/-- **Both matching loops sweep the ladder of the other side.** -/
theorem matchOrder_shown {levels : List (Level UInt64 (Ticket (Slot poolSize)))}
    (book : OrderBook poolSize) (price : UInt64) (size : UInt32)
    (type : OrderType) (totalMatched : UInt32)
    (side : SideShown book.orderPool book.symbol (!isBuySide) (book.levels !isBuySide) levels)
    (sorted : Sorted (better !isBuySide) levels)
    (pool : PoolShown book.orderPool free (refs (flat levels) ++ others)) :
    ∃ after, book.matchOrder isBuySide price size type totalMatched = .ok after ∧
      SideServed isBuySide price type (size.toNat - totalMatched.toNat) levels free others
        ⟨book, totalMatched⟩ after := by
  rw [OrderBook.matchOrder_eq]
  refine Loop.run_total (fun pending : PendingSide poolSize => pending.levels.length)
    (SidePending isBuySide size others)
    (fun pending before after => SideServed isBuySide price type pending.amount pending.levels
      pending.free others before after) ?_ _
    ⟨size.toNat - totalMatched.toNat, levels, free⟩ ⟨book, totalMatched⟩
    ⟨side, sorted, pool, rfl⟩ (Nat.lt_succ_of_le (side.length_le sorted))
  rintro ⟨amount, levels, free⟩ state holds
  rcases Nat.eq_zero_or_pos amount with rfl | positive
  · exact .inl ⟨state, holds.leave (.inl rfl)⟩
  · cases levels with
    | nil => exact .inl ⟨state, holds.leave (.inr (.inl rfl))⟩
    | cons level worse =>
      cases within : inReach isBuySide price type level.price with
      | false => exact .inl ⟨state, holds.leave (.inr (.inr ⟨level, worse, rfl, within⟩))⟩
      | true =>
        by_cases emptied : fill amount level.lots = []
        · obtain ⟨next, went, pending, back⟩ := holds.whole positive within emptied
          exact .inr ⟨_, next, went, pending, Nat.lt_succ_self _, back⟩
        · exact .inl (holds.part positive within emptied)

end Loop

end TradingExchange
