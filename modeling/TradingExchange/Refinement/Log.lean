/-
**What a call logs, on views.**

The passes of `matchAtLevel` log what serving the line of the level logs (`LevelPending.log`), and
those of the outer loops what sweeping the ladder of the other side logs (`SidePending.log`). From
that, and from the records that calls leave, each call logs what its view says
(`Represents.log_addOrder`, `Represents.log_cancelOrder`, `Represents.log_matchOrder`).
-/

import TradingExchange.Abstract.Reading
import TradingExchange.Refinement.Passes
import TradingExchange.Refinement.Runs

namespace TradingExchange

open Lots Ladder OrderBook

variable {poolSize : UInt64}

/-! ### Texts of records -/

/-- Unlinking an order changes no text. -/
theorem text_remove (level : PriceLevel poolSize) (pool : OrderPool poolSize)
    (slot other : Slot poolSize) :
    ((level.remove pool slot).2.deref other).text = (pool.deref other).text := by
  have relinked : Relinked (List.finRange _) pool (level.remove pool slot).2 :=
    .remove level .refl (List.mem_finRange _) (fun _ _ => List.mem_finRange _)
      fun _ _ => List.mem_finRange _
  rw [relinked.deref_eq]
  rfl

/-- A decreased record prints what was left. -/
theorem text_decreaseSize (order : Order (Slot poolSize)) (amount : UInt32) :
    ((order.decreaseSize amount).2).text = order.text.reduce (order.decreaseSize amount).1 := by
  rw [Order.decreaseSize]
  split
  · simp [Order.text, OrderText.reduce]
  · rfl

theorem Filed.text_eq {symbol : String} {isBuySide : Bool} {price : UInt64}
    {order : Order (Slot poolSize)} {lot : Lot (Ticket (Slot poolSize))}
    (filed : Filed symbol isBuySide price order lot) :
    order.text = lot.text symbol isBuySide price := by
  rw [Order.text, Lot.text, filed.orderId, filed.symbol, filed.price, filed.isBuySide,
    filed.orderType, filed.size_eq]

theorem Filed.fits {symbol : String} {isBuySide : Bool} {price : UInt64}
    {order : Order (Slot poolSize)} {lot : Lot (Ticket (Slot poolSize))}
    (filed : Filed symbol isBuySide price order lot) : lot.size < UInt32.size :=
  filed.size ▸ order.size.toNat_lt

/-! ### The passes of `matchAtLevel` -/

section Level

variable {symbol : String} {isBuySide : Bool} {price : UInt64} {size : UInt32}
  {free others : List (Slot poolSize)} {lot : Lot (Ticket (Slot poolSize))}
  {later : List (Lot (Ticket (Slot poolSize)))} {pending : Pending poolSize}
  {state : LevelMatch poolSize}

/-- What a pass logs for the first lot. -/
theorem LevelPending.lines {amount : Nat}
    (holds : LevelPending symbol isBuySide price size others ⟨amount, lot :: later, free⟩ state)
    (positive : 0 < amount) :
    state.lines size = lotLog (Lot.text symbol isBuySide price) amount lot := by
  obtain ⟨goes, serving, found, serves⟩ := holds.serves positive
  have filed := (holds.going positive).2.2.2
  have matched : serving.matched = UInt32.ofNat (min amount lot.size) := by
    rw [← serves.matched, UInt32.ofNat_toNat]
  have reduced : serving.reduced.text =
      (lot.text symbol isBuySide price).reduce (UInt32.ofNat (min amount lot.size)) := by
    rw [← matched, ← filed.text_eq]
    obtain ⟨order, peek, rfl⟩ := Option.map_eq_some_iff.mp found
    obtain rfl : order = lot.tag.ref := serves.order
    exact text_decreaseSize _ _
  have served : state.served size = some serving := by rw [LevelMatch.served, if_pos goes, found]
  rw [LevelMatch.lines, served, lotLog]
  simp only [Serving.write, MemPool.deref_write_self, text_remove, reduced, matched,
    serves.closes_iff]

/-- What is still to be logged at a level. -/
def Pending.log (symbol : String) (isBuySide : Bool) (price : UInt64) (pending : Pending poolSize) :
    List LogLine :=
  fillLog (Lot.text symbol isBuySide price) pending.amount pending.lots

/-- **`matchAtLevel` logs what serving the line of the level logs.** -/
theorem LevelPending.log
    (holds : LevelPending symbol isBuySide price size others pending state) :
    state.log size = pending.log symbol isBuySide price := by
  rw [LevelMatch.log]
  refine holds.flatMap_visited _ (fillLog (Lot.text symbol isBuySide price))
    (fun state idle => ?_) (fun amount lots done => ?_)
    fun amount lot later free state positive holds => ?_
  · rw [LevelMatch.lines, idle]
  · rcases done with rfl | rfl
    · rfl
    · exact fillLog_zero _ _
  · rw [holds.lines positive, fillLog, if_neg (Nat.ne_of_gt positive)]

end Level

/-! ### The passes of `matchBidOrder` and `matchAskOrder` -/

section Side

variable {matching : Matching poolSize} {others free : List (Slot poolSize)}
  {pending : PendingSide poolSize}

/-- What is still to be logged of a side. -/
def Matching.logged (matching : Matching poolSize) (symbol : String)
    (pending : PendingSide poolSize) : List LogLine :=
  sweepLog (Lot.text symbol !matching.isBuySide)
    (inReach matching.isBuySide matching.price matching.type) pending.amount pending.levels

/-- **A matching logs what the sweep logs.** -/
theorem SidePending.log
    (holds : SidePending matching.isBuySide matching.size others pending
      ⟨matching.book, matching.totalMatched⟩) :
    matching.log = matching.logged matching.book.symbol pending := by
  rw [Matching.log, Matching.logged]
  refine holds.flatMap_visited _ (sweepLog (Lot.text matching.book.symbol !matching.isBuySide)
      (inReach matching.isBuySide matching.price matching.type))
    (fun state idle => ?_) (fun pending done => ?_)
    fun amount level worse free others state start positive within enters pendingLevel => ?_
  · rw [Matching.lines, idle]
  · rcases done with zero | empty | ⟨level, worse, split, out⟩
    · rw [zero, sweepLog_zero]
    · rw [empty]
      rfl
    · rw [split, sweepLog, if_neg (Bool.eq_false_iff.mp out)]
  · rw [Matching.lines, enters, sweepLog, if_pos within]
    simp only [pendingLevel.log]
    rfl

end Side

/-! ### Calls -/

section Calls

variable {book : OrderBook poolSize} {view : View poolSize}

/-- A lot of a side rests at some price. -/
theorem PureBook.exists_price {Tag : Type} {book : PureBook Tag} {isBuySide : Bool} {lot : Lot Tag}
    (member : lot ∈ book.line isBuySide) :
    ∃ price, lot ∈ lotsAt (book.levels isBuySide) price := by
  obtain ⟨level, inside, here⟩ := mem_flat.mp member
  exact ⟨level.price, (book.sorted isBuySide).lotsAt_level inside ▸ here⟩

/-- The sizes of the lots of a side are 32-bit. -/
theorem Represents.fits (represents : Represents book view) (isBuySide : Bool) :
    Fits (view.book.line isBuySide) := by
  intro lot member
  obtain ⟨price, here⟩ := PureBook.exists_price member
  exact (represents.filed here).fits

/-- **A direct match call logs the sweep.** -/
theorem Represents.log_matchOrder (represents : Represents book view) (isBuySide : Bool)
    (price : UInt64) (size : UInt32) (type : OrderType) (totalMatched : UInt32) :
    book.log (.matchOrder isBuySide price size type totalMatched) =
      sweepLog (Lot.text book.symbol !isBuySide) (inReach isBuySide price type)
        (size.toNat - totalMatched.toNat) (view.book.levels !isBuySide) := by
  have holds : SidePending isBuySide size (view.slots isBuySide)
      ⟨size.toNat - totalMatched.toNat, view.book.levels (!isBuySide), view.free⟩
      ⟨book, totalMatched⟩ :=
    ⟨represents.sides _, view.book.sorted _, represents.pool.perm (view.linked_perm isBuySide), rfl⟩
  exact (SidePending.log holds :
    Matching.log ⟨book, isBuySide, price, size, type, totalMatched⟩ = _)

/-- Once it is matched, an order logs what it is left with. -/
theorem outcome_eq {matched : OrderBook poolSize} {slot : Slot poolSize} {request : Request}
    {symbol : String} {total : UInt32} {available : Nat}
    (record : matched.order slot = request.order symbol)
    (totalEq : total.toNat = min request.size.toNat available) :
    OrderBook.outcome slot request.size (.ok ⟨matched, total⟩) =
      [request.outcome symbol available] := by
  have small : total ≤ request.size := by
    rw [UInt32.le_iff_toNat_le]
    omega
  have taken : ((request.order symbol : Order (Slot poolSize)).decreaseSize total).1 = total := by
    rw [Order.decreaseSize]
    split
    · next whole => exact UInt32.le_antisymm whole small
    · rfl
  have size : total = UInt32.ofNat (min request.size.toNat available) := by
    rw [← totalEq, UInt32.ofNat_toNat]
  have less : total < request.size ↔ available < request.size.toNat := by
    rw [UInt32.lt_iff_toNat_lt]
    omega
  have text : ((request.order symbol : Order (Slot poolSize)).decreaseSize total).2.text =
      (request.text symbol).reduce (UInt32.ofNat (min request.size.toNat available)) := by
    rw [text_decreaseSize, taken, ← size]
    rfl
  rw [OrderBook.outcome, Request.outcome]
  simp only [record, text, less]
  split <;> rfl

/-- With no slot free, nothing is logged. -/
theorem Represents.log_refused (represents : Represents book view) (full : view.free = [])
    (request : Request) : book.log (.addOrder request) = [] := by
  have list := represents.pool.list
  rw [full] at list
  rw [OrderBook.log, list.allocate_nil]

/-- **An accepted order logs itself, the sweep, and what it is left with.** -/
theorem Represents.log_addOrder (represents : Represents book view) {slot : Slot poolSize}
    {free : List (Slot poolSize)} (found : view.free = slot :: free) (request : Request) :
    book.log (.addOrder request) =
      .incoming (request.text book.symbol) ::
        (sweepLog (Lot.text book.symbol !request.isBuySide)
            (inReach request.isBuySide request.price request.orderType) request.size.toNat
            (view.book.levels !request.isBuySide) ++
          [request.outcome book.symbol (view.available request)]) := by
  obtain ⟨pool, allocated, sides, shown, record, -, apart, -⟩ := represents.allocate request found
  obtain ⟨⟨matched, total⟩, ran, served⟩ := matchOrder_shown { book with orderPool := pool }
    request.price request.size request.orderType 0 (sides !request.isBuySide)
    (view.book.sorted !request.isBuySide) shown
  rw [UInt32.toNat_zero, Nat.sub_zero] at served
  have totalEq : total.toNat = min request.size.toNat (view.available request) := by
    have := served.total
    rwa [UInt32.toNat_zero, Nat.zero_add] at this
  have notOther : slot ∉ view.slots (!request.isBuySide) := fun member =>
    apart (View.mem_linked.mpr ⟨_, member⟩)
  have here : matched.order slot = request.order book.symbol :=
    (MemPool.deref_congr (served.frame slot notOther)).trans record
  have holds : SidePending request.isBuySide request.size (view.slots request.isBuySide)
      ⟨request.size.toNat, view.book.levels (!request.isBuySide), free⟩
      ⟨{ book with orderPool := pool }, 0⟩ :=
    ⟨sides _, view.book.sorted _, shown, rfl⟩
  have swept : Matching.log ⟨{ book with orderPool := pool }, request.isBuySide, request.price,
      request.size, request.orderType, 0⟩ = _ := SidePending.log holds
  have result : Matching.result ⟨{ book with orderPool := pool }, request.isBuySide,
      request.price, request.size, request.orderType, 0⟩ = .ok ⟨matched, total⟩ := ran
  rw [OrderBook.log, allocated]
  simp only [record, swept, result, outcome_eq here totalEq]
  rfl

/-- **A cancel logs the order.** -/
theorem Represents.log_cancelOrder (represents : Represents book view) {isBuySide : Bool}
    {price : UInt64} {lot : Lot (Ticket (Slot poolSize))}
    (member : lot ∈ lotsAt (view.book.levels isBuySide) price) :
    book.log (.cancelOrder lot.tag.ref) = [.cancelled (lot.text book.symbol isBuySide price)] := by
  have text : ((book.detached lot.tag.ref).deref lot.tag.ref).text =
      (book.order lot.tag.ref).text := by
    rw [OrderBook.detached]
    split
    · rfl
    · exact text_remove ..
  rw [OrderBook.log, text, (represents.filed member).text_eq]

end Calls

end TradingExchange
