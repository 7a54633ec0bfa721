/-
**The book's calls, on views.**

Each call of an `OrderBook` returns, and takes a represented view to a represented view:

* `Represents.matchOrder` for `matchBidOrder` and `matchAskOrder`;
* `Represents.addOrder` for `addOrder`: refused with nothing changed when no slot is free, otherwise
  the head of the free list is handed out, the orders that are closed on the way are freed after it,
  and a remainder rests;
* `Represents.cancelOrder` for `cancelOrder` of a resting order.

An order that leaves no remainder keeps its slot: it is in use, and in no level. The views say
nothing about its record, so the frames do (`Changed`).
-/

import Mathlib.Data.Fintype.Card
import TradingExchange.Refinement.Matching

namespace TradingExchange

open Lots Ladder

variable {poolSize : UInt64}

namespace View

/-- Match `amount` against the other side. -/
def matchOrder (view : View poolSize) (isBuySide : Bool) (price : UInt64) (amount : Nat)
    (type : OrderType) : View poolSize where
  book := view.book.matchOrder isBuySide price amount type
  free := ((view.book.closes isBuySide price amount type).map Ticket.ref).reverse ++ view.free

/-- Add an order, if there is a slot for it. -/
def add (view : View poolSize) (request : Request) : Option (Slot poolSize) × View poolSize :=
  match view.free with
  | [] => (none, view)
  | slot :: free => (some slot,
    { book := view.book.add (request.ticket slot) request.size.toNat request.price
        request.isBuySide request.orderType
      free := ((view.book.closes request.isBuySide request.price request.size.toNat
        request.orderType).map Ticket.ref).reverse ++ free })

/-- Cancel the order in a slot. -/
def cancel (view : View poolSize) (slot : Slot poolSize) : View poolSize where
  book := view.book.cancel fun ticket => ticket.ref = slot
  free := slot :: view.free

variable {view : View poolSize}

theorem linked_perm (view : View poolSize) (isBuySide : Bool) :
    view.linked.Perm (view.slots (!isBuySide) ++ view.slots isBuySide) := by
  cases isBuySide with
  | true => exact List.perm_append_comm
  | false => exact .refl _

theorem mem_linked {slot : Slot poolSize} :
    slot ∈ view.linked ↔ ∃ isBuySide, slot ∈ view.slots isBuySide := by
  rw [linked, List.mem_append]
  exact ⟨fun member => member.elim (⟨true, ·⟩) (⟨false, ·⟩), fun ⟨isBuySide, member⟩ => by
    cases isBuySide with
    | true => exact .inl member
    | false => exact .inr member⟩

theorem mem_linked_of_lotsAt {isBuySide : Bool} {price : UInt64} {slot : Slot poolSize}
    (member : slot ∈ refs (lotsAt (view.book.levels isBuySide) price)) : slot ∈ view.linked :=
  mem_linked.mpr ⟨isBuySide, refs_lotsAt_sublist.subset member⟩

end View

/-- What a call leaves of the memory outside the listed slots: nothing changes there but the record
of the new order, and closed orders keep their records as far as `Closed` says. -/
structure Changed (before after : OrderPool poolSize) (listed gone : List (Slot poolSize))
    (added : Option (Slot poolSize)) : Prop where
  frame : ∀ slot, slot ∉ listed → some slot ≠ added → after.store slot = before.store slot
  closed : ∀ slot ∈ gone, Closed (before.deref slot) (after.deref slot)

/-! ### Direct matching -/

section Calls

variable {book : OrderBook poolSize} {view : View poolSize}

/-- A relation on both sides, from one side and the other. -/
theorem forall_side {motive : Bool → Prop} (isBuySide : Bool) (own : motive isBuySide)
    (other : motive !isBuySide) : ∀ side, motive side := by
  intro side
  by_cases same : side = isBuySide
  · subst same
    exact own
  · rw [Bool.eq_not_of_ne same]
    exact other

theorem Represents.slots_nodup (represents : Represents book view) (isBuySide : Bool) :
    (view.slots isBuySide).Nodup := by
  have nodup := (view.linked_perm isBuySide).nodup_iff.mp represents.pool.linked_nodup
  exact (List.nodup_append.mp nodup).2.1

/-- The two sides share no slot. -/
theorem Represents.sides_apart (represents : Represents book view) {isBuySide : Bool}
    {slot : Slot poolSize} (member : slot ∈ view.slots isBuySide) :
    slot ∉ view.slots (!isBuySide) := by
  intro inside
  have nodup := (view.linked_perm isBuySide).nodup_iff.mp represents.pool.linked_nodup
  exact (List.nodup_append.mp nodup).2.2 slot inside slot member rfl

/-- Two prices of a side share no slot. -/
theorem Represents.prices_apart (represents : Represents book view) {isBuySide : Bool}
    {price other : UInt64} {slot : Slot poolSize} (different : price ≠ other)
    (member : slot ∈ refs (lotsAt (view.book.levels isBuySide) price)) :
    slot ∉ refs (lotsAt (view.book.levels isBuySide) other) := by
  intro inside
  have nodup := represents.slots_nodup isBuySide
  rw [View.slots, PureBook.line, refs_eq] at nodup
  obtain ⟨there, found, rfl⟩ := mem_refs.mp member
  obtain ⟨here, found', same⟩ := mem_refs.mp inside
  exact lotsAt_disjoint nodup different found found' same.symm

/-- No slot is listed twice at a price. -/
theorem Represents.lotsAt_nodup (represents : Represents book view) (isBuySide : Bool)
    (price : UInt64) : (refs (lotsAt (view.book.levels isBuySide) price)).Nodup :=
  (represents.slots_nodup isBuySide).sublist refs_lotsAt_sublist

/-- **A direct match call is a match on the view.** -/
theorem Represents.matchOrder (represents : Represents book view) (isBuySide : Bool)
    (price : UInt64) (size : UInt32) (type : OrderType) (totalMatched : UInt32) :
    ∃ after, book.matchOrder isBuySide price size type totalMatched = .ok after ∧
      Represents after.book
        (view.matchOrder isBuySide price (size.toNat - totalMatched.toNat) type) ∧
      after.totalMatched.toNat = totalMatched.toNat +
        min (size.toNat - totalMatched.toNat) (view.book.available isBuySide price type) ∧
      after.book.symbol = book.symbol ∧
      Changed book.orderPool after.book.orderPool view.linked
        ((view.book.closes isBuySide price (size.toNat - totalMatched.toNat) type).map Ticket.ref)
        none := by
  have pool := represents.pool.perm (view.linked_perm isBuySide)
  obtain ⟨after, ran, served⟩ := matchOrder_shown book price size type totalMatched
    (represents.sides !isBuySide) (view.book.sorted !isBuySide) pool
  refine ⟨after, ran, ⟨forall_side isBuySide ?_ ?_, ?_⟩, served.total, served.symbol,
    fun slot outside _ => ?_, served.closed⟩
  · rw [served.otherSide, served.symbol, View.matchOrder, PureBook.matchOrder_self]
    exact (represents.sides isBuySide).frame fun slot member =>
      served.frame slot (represents.sides_apart member)
  · rw [View.matchOrder, PureBook.matchOrder_not]
    exact served.side
  · refine served.pool.perm (((View.linked_perm _ isBuySide).trans (.of_eq ?_)).symm)
    simp only [View.slots, View.matchOrder, PureBook.line, PureBook.matchOrder_self,
      PureBook.matchOrder_not]
    rfl
  · refine served.frame slot fun inside => outside ?_
    exact View.mem_linked.mpr ⟨_, inside⟩

/-! ### Resting a remainder -/

/-- Slots are few. -/
theorem length_lt_of_nodup {slots : List (Slot poolSize)} (nodup : slots.Nodup) :
    slots.length < UInt64.size := by
  have length := nodup.length_le_card
  rw [Fintype.card_fin] at length
  exact Nat.lt_of_le_of_lt length poolSize.toNat_lt

/-- **`levels[price].append(order)`** puts the order behind those at its price. -/
theorem restOrder_shown {isBuySide : Bool} {price : UInt64}
    {levels : List (Level UInt64 (Ticket (Slot poolSize)))}
    {free others : List (Slot poolSize)} (lot : Lot (Ticket (Slot poolSize)))
    (side : SideShown book.orderPool book.symbol isBuySide (book.levels isBuySide) levels)
    (sorted : Sorted (better isBuySide) levels)
    (pool : PoolShown book.orderPool free (refs (flat levels) ++ others))
    (used : lot.tag.ref ∉ free) (apart : lot.tag.ref ∉ refs (flat levels) ++ others)
    (filed : Filed book.symbol isBuySide price (book.order lot.tag.ref) lot) :
    ∃ book', book.restOrder isBuySide price lot.tag.ref = .ok book' ∧
      SideShown book'.orderPool book'.symbol isBuySide (book'.levels isBuySide)
        (rest (better isBuySide) price lot levels) ∧
      PoolShown book'.orderPool free (lot.tag.ref :: (refs (flat levels) ++ others)) ∧
      book'.levels (!isBuySide) = book.levels (!isBuySide) ∧ book'.symbol = book.symbol ∧
      (∀ slot, slot ∉ lot.tag.ref :: refs (flat levels) →
        book'.orderPool.store slot = book.orderPool.store slot) ∧
      book'.order lot.tag.ref =
        { book.order lot.tag.ref with listNode := (book'.order lot.tag.ref).listNode } := by
  have shown : LevelShown book.orderPool book.symbol isBuySide price
      ((book.levels isBuySide)[price]?.getD {}) (lotsAt levels price) := by
    have here := side price
    cases found : (book.levels isBuySide)[price]? with
    | none =>
      rw [found] at here
      rw [show lotsAt levels price = [] from here]
      exact ⟨Shows.nil _, fun _ member => absurd member List.not_mem_nil⟩
    | some level =>
      rw [found] at here
      exact here.2
  have within : ∀ slot ∈ refs (lotsAt levels price), slot ∈ refs (flat levels) :=
    fun _ member => refs_lotsAt_sublist.subset member
  have fresh : lot.tag.ref ∉ refs (lotsAt levels price) := fun member =>
    apart (List.mem_append_left _ (within _ member))
  have allNodup : (refs (flat levels)).Nodup := (List.nodup_append.mp pool.linked_nodup).1
  have nodup : (refs (lotsAt levels price)).Nodup := allNodup.sublist refs_lotsAt_sublist
  have room := length_lt_of_nodup (List.nodup_cons.mpr ⟨fresh, nodup⟩)
  obtain ⟨level', pool', appended, queue, relinked⟩ := shown.queue.append fresh nodup room
  have outside : ∀ other, other ≠ price → ∀ slot ∈ refs (lotsAt levels other),
      slot ∉ lot.tag.ref :: refs (lotsAt levels price) := by
    intro other different slot member inside
    obtain ⟨there, found, rfl⟩ := mem_refs.mp member
    rcases List.mem_cons.mp inside with same | behind
    · exact apart (List.mem_append_left _ (same ▸ ref_mem (mem_flat_of_lotsAt found)))
    · obtain ⟨here, found', same⟩ := mem_refs.mp behind
      rw [refs_eq] at allNodup
      exact lotsAt_disjoint allNodup different found found' same.symm
  refine ⟨({ book with orderPool := pool' }).setLevels isBuySide
    ((book.levels isBuySide).insert price level'), ?_, ?_, ?_, ?_, ?_, ?_, ?_⟩
  · rw [OrderBook.restOrder]
    simp only [appended]
  · simp only [OrderBook.setLevels_self, OrderBook.setLevels_orderPool, OrderBook.setLevels_symbol]
    refine side.update ?_ (fun other different => ⟨getElem?_insert_of_ne _ different, ?_⟩)
      fun other different slot member => relinked.store_eq (outside other different slot member)
    · rw [Std.ExtTreeMap.getElem?_insert_self, lotsAt_rest sorted, if_pos rfl]
      refine ⟨List.append_ne_nil_of_right_ne_nil _ (List.cons_ne_nil _ _), ?_, ?_⟩
      · rw [refs_append]
        exact queue
      · intro resting member
        rw [relinked.deref_eq]
        rcases List.mem_append.mp member with earlier | new
        · exact (shown.records resting earlier).relink _
        · obtain rfl := List.mem_singleton.mp new
          exact filed.relink _
    · rw [lotsAt_rest sorted, if_neg different]
  · simp only [OrderBook.setLevels_orderPool]
    refine (pool.link used apart).relink relinked fun item member => ?_
    rcases List.mem_cons.mp member with rfl | behind
    · exact List.mem_cons_self
    · exact List.mem_cons_of_mem _ (List.mem_append_left _ (within item behind))
  · exact OrderBook.setLevels_not ..
  · exact OrderBook.setLevels_symbol ..
  · intro slot away
    simp only [OrderBook.setLevels_orderPool]
    refine relinked.store_eq fun inside => away ?_
    rcases List.mem_cons.mp inside with rfl | behind
    · exact List.mem_cons_self
    · exact List.mem_cons_of_mem _ (within slot behind)
  · simp only [OrderBook.order, OrderBook.setLevels_orderPool]
    exact relinked.deref_eq _

/-! ### Adding an order -/

/-- What the request can take from a view. -/
def View.available (view : View poolSize) (request : Request) : Nat :=
  view.book.available request.isBuySide request.price request.orderType

/-- The slots of the orders that the request closes, in order. -/
def View.closes (view : View poolSize) (request : Request) : List (Slot poolSize) :=
  (view.book.closes request.isBuySide request.price request.size.toNat request.orderType).map
    Ticket.ref

/-- The ladder that the request leaves on the other side. -/
def View.swept (view : View poolSize) (request : Request) :
    List (Level UInt64 (Ticket (Slot poolSize))) :=
  view.book.swept request.isBuySide request.price request.size.toNat request.orderType

/-- The state in which `addOrder` decides whether a remainder rests. -/
structure Admitted (before after : OrderBook poolSize) (view : View poolSize) (request : Request)
    (slot : Slot poolSize) (free : List (Slot poolSize)) : Prop where
  own : SideShown after.orderPool after.symbol request.isBuySide (after.levels request.isBuySide)
    (view.book.levels request.isBuySide)
  other : SideShown after.orderPool after.symbol (!request.isBuySide)
    (after.levels !request.isBuySide) (view.swept request)
  pool : PoolShown after.orderPool ((view.closes request).reverse ++ free)
    (view.slots request.isBuySide ++ refs (flat (view.swept request)))
  used : slot ∉ (view.closes request).reverse ++ free
  apart : slot ∉ view.linked
  symbol : after.symbol = before.symbol
  record : ∃ size, size.toNat = request.size.toNat - view.available request ∧
    after.order slot = { request.order before.symbol with size := size }
  changed : Changed before.orderPool after.orderPool view.linked (view.closes request) (some slot)

theorem View.closes_subset (view : View poolSize) (request : Request) :
    view.closes request ⊆ view.slots (!request.isBuySide) := by
  intro slot member
  rw [View.closes, PureBook.closes, closed_eq] at member
  rw [View.slots, refs, PureBook.line, tags_eq, List.map_append]
  exact List.mem_append_left _ member

/-- Without anything to take, nothing is closed. -/
theorem View.closes_eq_nil {request : Request} (unmatched : view.available request = 0) :
    view.closes request = [] := by
  have reached : liquidity (inReach request.isBuySide request.price request.orderType)
      (view.book.levels !request.isBuySide) = 0 := unmatched
  rw [View.closes, PureBook.closes, closed_eq, reached, Nat.min_zero, spent_zero]
  rfl

/-- Every slot that is left on the other side was there. -/
theorem View.swept_subset (view : View poolSize) (request : Request) :
    refs (flat (view.swept request)) ⊆ view.slots (!request.isBuySide) := by
  intro slot member
  rw [View.swept, PureBook.swept, flat_sweep] at member
  rw [View.slots, refs, PureBook.line, tags_eq, List.map_append]
  exact List.mem_append_right _ member

/-- **Handing out a slot for an order disturbs nothing else.** -/
theorem Represents.allocate (represents : Represents book view) (request : Request)
    {slot : Slot poolSize} {free : List (Slot poolSize)} (found : view.free = slot :: free) :
    ∃ pool, book.orderPool.allocate (request.order book.symbol) = (some slot, pool) ∧
      (∀ side, SideShown pool book.symbol side (book.levels side) (view.book.levels side)) ∧
      PoolShown pool free (view.slots (!request.isBuySide) ++ view.slots request.isBuySide) ∧
      pool.deref slot = request.order book.symbol ∧ slot ∉ free ∧ slot ∉ view.linked ∧
      ∀ other, other ≠ slot → pool.store other = book.orderPool.store other := by
  have shown := represents.pool
  have unlinked : (request.order book.symbol : Order (Slot poolSize)).listNode = {} := rfl
  rw [found] at shown
  obtain ⟨pool, allocated, shown, record, used, apart, frame⟩ := shown.allocate unlinked
  refine ⟨pool, allocated, fun side => ?_, shown.perm (view.linked_perm request.isBuySide), record,
    used, apart, frame⟩
  exact (represents.sides side).frame fun other member =>
    frame other (ne_of_mem_of_not_mem (View.mem_linked.mpr ⟨side, member⟩) apart)

/-- **An admitted order is matched first**, and its record reduced by what it matched. -/
theorem Represents.accept (represents : Represents book view) (request : Request)
    {slot : Slot poolSize} {free : List (Slot poolSize)} (found : view.free = slot :: free) :
    ∃ after, Admitted book after view request slot free ∧
      request.addTo book =
        if view.available request < request.size.toNat then
          (after.restOrder request.isBuySide request.price slot).map fun book => (some slot, book)
        else .ok (some slot, after) := by
  obtain ⟨pool', allocated, sides, pool, record, used, apart, frame⟩ :=
    represents.allocate request found
  obtain ⟨⟨matched, total⟩, ran, served⟩ := matchOrder_shown { book with orderPool := pool' }
    request.price request.size request.orderType 0 (sides !request.isBuySide)
    (view.book.sorted !request.isBuySide) pool
  rw [UInt32.toNat_zero, Nat.sub_zero] at served
  have totalEq : total.toNat = min request.size.toNat (view.available request) := by
    have := served.total
    rwa [UInt32.toNat_zero, Nat.zero_add] at this
  have notOther : slot ∉ view.slots (!request.isBuySide) := fun member =>
    apart (View.mem_linked.mpr ⟨_, member⟩)
  have notOwn : slot ∉ view.slots request.isBuySide := fun member =>
    apart (View.mem_linked.mpr ⟨_, member⟩)
  have notClosed : slot ∉ (view.closes request).reverse ++ free := by
    rw [List.mem_append, List.mem_reverse, not_or]
    exact ⟨fun member => notOther (view.closes_subset request member), used⟩
  have here : matched.order slot = request.order book.symbol :=
    (MemPool.deref_congr (served.frame slot notOther)).trans record
  let after : OrderBook poolSize := { matched with
    orderPool := matched.orderPool.write slot ((matched.order slot).decreaseSize total).2 }
  have same : ∀ other, other ≠ slot → after.orderPool.store other = matched.orderPool.store other :=
    fun other different => MemPool.store_write_of_ne _ _ different
  have reduced : ∃ size, size.toNat = request.size.toNat - view.available request ∧
      ((matched.order slot).decreaseSize total).2 = { request.order book.symbol with size := size } := by
    rw [here]
    by_cases short : total < request.size
    · rw [decreaseSize_short (request.order book.symbol) short]
      refine ⟨request.size - total, ?_, rfl⟩
      rw [UInt32.lt_iff_toNat_lt] at short
      rw [UInt32.toNat_sub_of_le _ _ (UInt32.le_iff_toNat_le.mpr (Nat.le_of_lt short))]
      omega
    · have whole : request.size ≤ total := UInt32.not_lt.mp short
      rw [decreaseSize_whole (request.order book.symbol) whole]
      refine ⟨0, ?_, rfl⟩
      rw [UInt32.le_iff_toNat_le] at whole
      rw [UInt32.toNat_zero]
      omega
  refine ⟨after, ⟨?_, ?_, ?_, notClosed, apart, served.symbol, ?_, ?_⟩, ?_⟩
  · rw [show after.levels request.isBuySide = _ from served.otherSide,
      show after.symbol = _ from served.symbol]
    refine (sides request.isBuySide).frame fun other member => ?_
    rw [same other (ne_of_mem_of_not_mem member notOwn)]
    refine served.frame other fun inside => ?_
    exact (List.nodup_append.mp pool.linked_nodup).2.2 other inside other member rfl
  · refine served.side.frame fun other member => same other ?_
    exact ne_of_mem_of_not_mem (view.swept_subset request member) notOther
  · refine (served.pool.perm List.perm_append_comm).write _ notClosed fun _ => ?_
    obtain ⟨size, -, written⟩ := reduced
    rw [written]
    rfl
  · obtain ⟨size, left, written⟩ := reduced
    exact ⟨size, left, (MemPool.deref_write_self ..).trans written⟩
  · refine ⟨fun other outside different => ?_, fun other member => ?_⟩
    · have different : other ≠ slot := fun equal => different (equal ▸ rfl)
      rw [same other different]
      refine (served.frame other fun inside => outside ?_).trans (frame other different)
      exact View.mem_linked.mpr ⟨_, inside⟩
    · have different : other ≠ slot :=
        ne_of_mem_of_not_mem (view.closes_subset request member) notOther
      have before : pool'.deref other = book.orderPool.deref other :=
        MemPool.deref_congr (frame other different)
      have gone := served.closed other member
      rwa [before, ← MemPool.deref_congr (same other different)] at gone
  · have less : total < request.size ↔ view.available request < request.size.toNat := by
      rw [UInt32.lt_iff_toNat_lt, totalEq]
      omega
    have matching : (if request.isBuySide then
        OrderBook.matchBidOrder { book with orderPool := pool' } request.price request.size
          request.orderType 0
      else OrderBook.matchAskOrder { book with orderPool := pool' } request.price request.size
          request.orderType 0) = .ok ⟨matched, total⟩ := ran
    rw [Request.addTo, OrderBook.addOrder]
    simp only [Request.order] at allocated
    simp only [allocated, matching, less]
    split
    · cases after.restOrder request.isBuySide request.price slot <;> rfl
    · rfl

/-- What `addOrder` does when it accepts: the view, the memory elsewhere, and the new record. -/
structure Added (before after : OrderBook poolSize) (view : View poolSize) (request : Request)
    (slot : Slot poolSize) : Prop where
  represents : Represents after (view.add request).2
  changed : Changed before.orderPool after.orderPool view.linked (view.closes request) (some slot)
  record : ∃ (size : UInt32) (node : Node (Slot poolSize)),
    size.toNat = request.size.toNat - view.available request ∧
    after.order slot =
      { (request.order before.symbol : Order (Slot poolSize)) with size := size, listNode := node }
  symbol : after.symbol = before.symbol
  apart : slot ∉ view.linked

variable {request : Request} {slot : Slot poolSize} {free : List (Slot poolSize)}

theorem View.add_nil (full : view.free = []) : view.add request = (none, view) := by
  rw [View.add, full]

theorem View.add_cons (found : view.free = slot :: free) :
    view.add request = (some slot,
      { book := view.book.add (request.ticket slot) request.size.toNat request.price
          request.isBuySide request.orderType
        free := (view.closes request).reverse ++ free }) := by
  rw [View.add, found]
  rfl

theorem View.slots_add_not (found : view.free = slot :: free) :
    (view.add request).2.slots (!request.isBuySide) = refs (flat (view.swept request)) := by
  rw [View.add_cons found, View.slots, PureBook.line, PureBook.add_not]
  rfl

/-- A remainder joins the orders of its side. -/
theorem View.slots_add_self (request : Request) (found : view.free = slot :: free) :
    ((view.add request).2.slots request.isBuySide).Perm
      ((if view.available request < request.size.toNat then [slot] else []) ++
        view.slots request.isBuySide) := by
  rw [View.add_cons found, View.slots, PureBook.line]
  split
  · next left =>
    rw [PureBook.add_self_of_lt _ _ _ _ _ _ left]
    exact refs_perm (perm_flat_rest ..)
  · next covered =>
    rw [PureBook.add_self_of_le _ _ _ _ _ _ (Nat.not_lt.mp covered)]
    exact .refl _

/-- The orders of the other side are closed or left. -/
theorem View.mem_swept (view : View poolSize) (isBuySide : Bool) (price : UInt64) (amount : Nat)
    (type : OrderType) :
    slot ∈ view.slots (!isBuySide) ↔
      slot ∈ (view.book.closes isBuySide price amount type).map Ticket.ref ∨
        slot ∈ refs (flat (view.book.swept isBuySide price amount type)) := by
  rw [PureBook.closes, closed_eq, PureBook.swept, flat_sweep, View.slots, PureBook.line, refs,
    refs, tags_eq, List.map_append, List.mem_append]

/-- **With no slot free, nothing happens.** -/
theorem Represents.addOrder_refused (represents : Represents book view) (full : view.free = []) :
    request.addTo book = .ok (none, book) := by
  have list := represents.pool.list
  rw [full] at list
  rw [Request.addTo, OrderBook.addOrder, list.allocate_nil]

/-- The remainder of an admitted order rests. -/
theorem Admitted.rest {after : OrderBook poolSize}
    (admitted : Admitted book after view request slot free) (linked : view.linked.Nodup)
    (found : view.free = slot :: free)
    (left : view.available request < request.size.toNat) :
    ∃ last, after.restOrder request.isBuySide request.price slot = .ok last ∧
      Added book last view request slot := by
  obtain ⟨own, other, pool, used, apart, symbol, ⟨size, sizeEq, record⟩, changed⟩ := admitted
  have notOther : ∀ other ∈ view.slots (!request.isBuySide),
      other ∉ slot :: view.slots request.isBuySide := by
    intro other member inside
    rcases List.mem_cons.mp inside with rfl | own
    · exact apart (View.mem_linked.mpr ⟨_, member⟩)
    · have nodup := (view.linked_perm request.isBuySide).nodup_iff.mp linked
      exact (List.nodup_append.mp nodup).2.2 other member other own rfl
  let lot : Lot (Ticket (Slot poolSize)) :=
    ⟨request.ticket slot, request.size.toNat - view.available request, Nat.sub_pos_of_lt left⟩
  have filed : Filed after.symbol request.isBuySide request.price (after.order slot) lot := by
    rw [record, symbol]
    exact ⟨rfl, rfl, rfl, sizeEq, rfl, rfl, rfl⟩
  have outside : slot ∉ view.slots request.isBuySide ++ refs (flat (view.swept request)) := by
    rw [List.mem_append, not_or]
    exact ⟨fun member => apart (View.mem_linked.mpr ⟨_, member⟩),
      fun member => apart (View.mem_linked.mpr ⟨_, view.swept_subset request member⟩)⟩
  obtain ⟨last, rested, side, pool', otherSide, symbol', frame, record'⟩ :=
    restOrder_shown lot own (view.book.sorted _) pool used outside filed
  have rest_self := PureBook.add_self_of_lt view.book (request.ticket slot) request.isBuySide
    request.price request.size.toNat request.orderType left
  have rest_not := PureBook.add_not view.book (request.ticket slot) request.isBuySide
    request.price request.size.toNat request.orderType
  refine ⟨last, rested, ⟨⟨forall_side request.isBuySide ?_ ?_, ?_⟩, ⟨?_, ?_⟩, ?_, ?_, apart⟩⟩
  · rw [View.add_cons found, rest_self]
    exact side
  · rw [View.add_cons found, rest_not, otherSide, symbol']
    exact other.frame fun other member =>
      frame other (notOther other (view.swept_subset request member))
  · rw [View.add_cons found]
    refine pool'.perm (List.Perm.trans ?_ (View.linked_perm _ request.isBuySide).symm)
    simp only [View.slots, PureBook.line, rest_self, rest_not]
    have new := refs_perm (perm_flat_rest (better request.isBuySide) request.price lot
      (view.book.levels request.isBuySide))
    exact ((List.perm_append_comm.cons slot).trans List.perm_middle.symm).trans
      (new.symm.append_left _)
  · intro other away different
    have different : other ≠ slot := fun equal => different (equal ▸ rfl)
    refine (frame other fun inside => ?_).trans
      (changed.frame other away fun equal => different (Option.some.inj equal))
    rcases List.mem_cons.mp inside with equal | member
    · exact different equal
    · exact away (View.mem_linked.mpr ⟨_, member⟩)
  · intro other member
    rw [MemPool.deref_congr (frame other (notOther other (view.closes_subset request member)))]
    exact changed.closed other member
  · rw [show after.order lot.tag.ref = after.order slot from rfl, record] at record'
    exact ⟨size, (last.order slot).listNode, sizeEq, record'⟩
  · exact symbol'.trans symbol

/-- An admitted order without remainder rests nowhere. -/
theorem Admitted.done {after : OrderBook poolSize}
    (admitted : Admitted book after view request slot free) (found : view.free = slot :: free)
    (covered : request.size.toNat ≤ view.available request) :
    Added book after view request slot := by
  obtain ⟨own, other, pool, used, apart, symbol, ⟨size, sizeEq, record⟩, changed⟩ := admitted
  have rest_self := PureBook.add_self_of_le view.book (request.ticket slot) request.isBuySide
    request.price request.size.toNat request.orderType covered
  have rest_not := PureBook.add_not view.book (request.ticket slot) request.isBuySide
    request.price request.size.toNat request.orderType
  refine ⟨⟨forall_side request.isBuySide ?_ ?_, ?_⟩, changed, ⟨size, {}, sizeEq, record⟩, symbol,
    apart⟩
  · rw [View.add_cons found, rest_self]
    exact own
  · rw [View.add_cons found, rest_not]
    exact other
  · rw [View.add_cons found]
    refine pool.perm (List.Perm.trans ?_ (View.linked_perm _ request.isBuySide).symm)
    simp only [View.slots, PureBook.line, rest_self, rest_not]
    exact List.perm_append_comm

/-- **`addOrder` on a view with a free slot.** -/
theorem Represents.addOrder (represents : Represents book view) (request : Request)
    (found : view.free = slot :: free) :
    ∃ after, request.addTo book = .ok (some slot, after) ∧ Added book after view request slot := by
  obtain ⟨after, admitted, added⟩ := represents.accept request found
  rw [added]
  by_cases left : view.available request < request.size.toNat
  · obtain ⟨last, rested, result⟩ := admitted.rest represents.pool.linked_nodup found left
    exact ⟨last, by rw [if_pos left, rested]; rfl, result⟩
  · exact ⟨after, by rw [if_neg left], admitted.done found (Nat.not_lt.mp left)⟩

/-! ### Cancelling -/

theorem View.slots_cancel (view : View poolSize) (slot : Slot poolSize) (isBuySide : Bool) :
    (view.cancel slot).slots isBuySide = (view.slots isBuySide).filter (· ≠ slot) := by
  rw [View.slots, PureBook.line, View.cancel, PureBook.cancel, flat_withdraw, refs_keep]
  rfl

theorem View.linked_cancel (view : View poolSize) (slot : Slot poolSize) :
    (view.cancel slot).linked = view.linked.filter (· ≠ slot) := by
  rw [View.linked, View.slots_cancel, View.slots_cancel, ← List.filter_append]
  rfl

/-- A resting order, with its level and its place there. -/
theorem View.mem_slots {isBuySide : Bool} (member : slot ∈ view.slots isBuySide) :
    ∃ better level worse front lot later,
      view.book.levels isBuySide = better ++ level :: worse ∧
      level.lots = front ++ lot :: later ∧ lot.tag.ref = slot := by
  obtain ⟨lot, found, rfl⟩ := mem_refs.mp member
  obtain ⟨level, inside, here⟩ := mem_flat.mp found
  obtain ⟨better, worse, split⟩ := List.append_of_mem inside
  obtain ⟨front, later, lots⟩ := List.append_of_mem here
  exact ⟨better, level, worse, front, lot, later, split, lots, rfl⟩

/-- The orders of a level are among those of its side. -/
theorem View.refs_subset_slots {isBuySide : Bool} {level : Level UInt64 (Ticket (Slot poolSize))}
    (inside : level ∈ view.book.levels isBuySide) : refs level.lots ⊆ view.slots isBuySide := by
  intro slot member
  obtain ⟨lot, found, rfl⟩ := mem_refs.mp member
  exact ref_mem (mem_flat.mpr ⟨level, inside, found⟩)

/-- A resting order, the others of its level, and the rest. -/
theorem View.linked_split {isBuySide : Bool} {level : Level UInt64 (Ticket (Slot poolSize))}
    {ahead worse : List (Level UInt64 (Ticket (Slot poolSize)))}
    {front later : List (Lot (Ticket (Slot poolSize)))} {lot : Lot (Ticket (Slot poolSize))}
    (levels : view.book.levels isBuySide = ahead ++ level :: worse)
    (lots : level.lots = front ++ lot :: later) :
    view.linked.Perm (lot.tag.ref :: (refs (front ++ later) ++
      (refs (flat ahead) ++ refs (flat worse) ++ view.slots (!isBuySide)))) := by
  refine (view.linked_perm isBuySide).trans (List.perm_iff_count.mpr fun other => ?_)
  rw [View.slots.eq_def view isBuySide, PureBook.line, levels, flat_append, flat_cons, lots]
  simp only [refs_append, refs_cons, List.count_append, List.count_cons]
  omega

section Found

variable {level : PriceLevel poolSize}

/-- What `cancelOrder` does when there is a level at the order's price. -/
theorem OrderBook.cancelOrder_found
    (found : (book.levels (book.order slot).isBuySide)[(book.order slot).price]? = some level) :
    book.cancelOrder (some slot) =
      { ({ book with orderPool := (level.remove book.orderPool slot).2 } :
            OrderBook poolSize).setLevels (book.order slot).isBuySide
          (if (level.remove book.orderPool slot).1.empty then
            (book.levels (book.order slot).isBuySide).erase (book.order slot).price
          else (book.levels (book.order slot).isBuySide).insert (book.order slot).price
            (level.remove book.orderPool slot).1) with
        orderPool := (level.remove book.orderPool slot).2.deallocate slot } := by
  simp only [OrderBook.cancelOrder, found, OrderBook.setLevels_orderPool]

theorem OrderBook.cancelOrder_pool
    (found : (book.levels (book.order slot).isBuySide)[(book.order slot).price]? = some level) :
    (book.cancelOrder (some slot)).orderPool =
      (level.remove book.orderPool slot).2.deallocate slot := by
  rw [OrderBook.cancelOrder_found found]

/-- What a cancel leaves of the level it found. -/
theorem OrderBook.cancelOrder_level
    (found : (book.levels (book.order slot).isBuySide)[(book.order slot).price]? = some level) :
    ((book.cancelOrder (some slot)).levels (book.order slot).isBuySide)[(book.order slot).price]? =
      if (level.remove book.orderPool slot).1.empty then none
      else some (level.remove book.orderPool slot).1 := by
  rw [OrderBook.cancelOrder_found found]
  show ((OrderBook.setLevels _ _ _).levels _)[_]? = _
  rw [OrderBook.setLevels_self]
  split
  · exact getElem?_erase_self ..
  · exact Std.ExtTreeMap.getElem?_insert_self

/-- The entries at other prices, and those of the other side, are left alone. -/
theorem OrderBook.cancelOrder_elsewhere
    (found : (book.levels (book.order slot).isBuySide)[(book.order slot).price]? = some level)
    {isBuySide : Bool} {price : UInt64}
    (elsewhere : ¬ (isBuySide = (book.order slot).isBuySide ∧ price = (book.order slot).price)) :
    ((book.cancelOrder (some slot)).levels isBuySide)[price]? =
      (book.levels isBuySide)[price]? := by
  rw [OrderBook.cancelOrder_found found]
  show ((OrderBook.setLevels _ _ _).levels _)[_]? = _
  by_cases own : isBuySide = (book.order slot).isBuySide
  · have different : price ≠ (book.order slot).price := fun same => elsewhere ⟨own, same⟩
    rw [own, OrderBook.setLevels_self]
    split
    · exact getElem?_erase_of_ne different
    · exact getElem?_insert_of_ne _ different
  · rw [Bool.eq_not_of_ne own, OrderBook.setLevels_not]
    cases (book.order slot).isBuySide <;> rfl

end Found

/-- What `cancelOrder` of a resting order does to the memory. -/
structure Cancelled (before after : OrderBook poolSize) (view : View poolSize)
    (slot : Slot poolSize) : Prop where
  represents : Represents after (view.cancel slot)
  frame : ∀ other, other ∉ view.linked →
    after.orderPool.store other = before.orderPool.store other
  record : after.order slot = { before.order slot with
    orderId := before.orderPool.nextFreeIndex, listNode := {} }
  symbol : after.symbol = before.symbol

/-- **`cancelOrder` of a resting order.** -/
theorem Represents.cancelOrder (represents : Represents book view) (resting : slot ∈ view.linked) :
    Cancelled book (book.cancelOrder (some slot)) view slot := by
  obtain ⟨isBuySide, member⟩ := View.mem_linked.mp resting
  obtain ⟨ahead, level, worse, front, lot, later, levels, lots, rfl⟩ := View.mem_slots member
  have inside : level ∈ view.book.levels isBuySide := levels ▸ List.mem_append_right _ List.mem_cons_self
  have at_price := (view.book.sorted isBuySide).lotsAt_level inside
  obtain ⟨queue, found, shown⟩ := (represents.sides isBuySide).level (List.mem_map_of_mem inside)
  rw [at_price, lots] at shown
  have filed := shown.records lot (List.mem_append_right _ List.mem_cons_self)
  have perm := View.linked_split levels lots
  have nodup := perm.nodup_iff.mp represents.pool.linked_nodup
  obtain ⟨fresh, rest⟩ := List.nodup_cons.mp nodup
  have apart : ∀ other, other ≠ level.price →
      ∀ slot ∈ refs (lotsAt (view.book.levels isBuySide) other), slot ∉ refs level.lots := by
    intro other different slot member inside
    refine represents.prices_apart different member ?_
    rwa [at_price]
  have queueShown := shown.queue
  rw [refs_append, refs_cons] at queueShown
  obtain ⟨levelShown, poolShown, frame, -, record⟩ := LevelShown.retire queueShown
    (fun other member => shown.records other (by
      rcases List.mem_append.mp member with earlier | behind
      · exact List.mem_append_left _ earlier
      · exact List.mem_append_right _ (List.mem_cons_of_mem _ behind)))
    (represents.pool.perm perm)
  let removed := queue.remove book.orderPool lot.tag.ref
  have price : (book.order lot.tag.ref).price = level.price := filed.price
  have ownSide : (book.order lot.tag.ref).isBuySide = isBuySide := filed.isBuySide
  have placed : (book.levels (book.order lot.tag.ref).isBuySide)[(book.order lot.tag.ref).price]? =
      some queue := by
    rw [price, ownSide, found]
  have entry := OrderBook.cancelOrder_level placed
  rw [price, ownSide] at entry
  have others : ∀ side other, ¬ (side = isBuySide ∧ other = level.price) →
      ((book.cancelOrder (some lot.tag.ref)).levels side)[other]? = (book.levels side)[other]? := by
    intro side other different
    refine OrderBook.cancelOrder_elsewhere placed ?_
    rwa [price, ownSide]
  have otherSide : (book.cancelOrder (some lot.tag.ref)).levels (!isBuySide) =
      book.levels (!isBuySide) :=
    Std.ExtTreeMap.ext_getElem? fun other =>
      others (!isBuySide) other fun both => Bool.not_ne_self isBuySide both.1
  have symbol : (book.cancelOrder (some lot.tag.ref)).symbol = book.symbol := by
    rw [OrderBook.cancelOrder_found placed]
    exact OrderBook.setLevels_symbol ..
  have pool := OrderBook.cancelOrder_pool placed
  have levelNodup : (refs (front ++ lot :: later)).Nodup := by
    rw [refs_append, refs_cons]
    refine List.perm_middle.nodup_iff.mpr (List.nodup_cons.mpr ⟨fun inside => fresh ?_, ?_⟩)
    · rw [refs_append]
      exact List.mem_append_left _ inside
    · rw [← refs_append]
      exact (List.nodup_append.mp rest).1
  have within := View.refs_subset_slots inside
  have elsewhere : ∀ slot, slot ∉ refs level.lots →
      (removed.2.deallocate lot.tag.ref).store slot = book.orderPool.store slot := by
    intro slot outside
    rw [lots, refs_append, refs_cons, List.mem_append, List.mem_cons, not_or, not_or] at outside
    refine frame slot outside.2.1 ?_
    rw [refs_append, List.mem_append, not_or]
    exact ⟨outside.1, outside.2.2⟩
  refine ⟨⟨forall_side isBuySide ?_ ?_, ?_⟩, ?_, ?_, symbol⟩
  · rw [symbol, pool]
    refine (represents.sides isBuySide).update ?_ (fun other different => ⟨?_, ?_⟩)
      fun other different slot member => elsewhere slot (apart other different slot member)
    · rw [entry, View.cancel, PureBook.cancel, lotsAt_withdraw (view.book.sorted isBuySide),
        at_price, lots, keep_present levelNodup]
      by_cases empty : removed.1.empty = true
      · rw [if_pos empty]
        have alone := levelShown.queue.empty_iff.mp empty
        rwa [← List.length_eq_zero_iff, length_refs, List.length_eq_zero_iff] at alone
      · rw [if_neg empty]
        refine ⟨fun alone => empty (levelShown.queue.empty_iff.mpr ?_), levelShown⟩
        rw [alone, refs_nil]
    · exact others isBuySide other fun both => different both.2
    · rw [View.cancel, PureBook.cancel, lotsAt_withdraw (view.book.sorted isBuySide)]
      refine keep_absent fun member => apart other different _ member ?_
      rw [lots]
      exact ref_mem (List.mem_append_right _ List.mem_cons_self)
  · have away : ∀ slot ∈ view.slots (!isBuySide), slot ∉ refs level.lots :=
      fun slot member inside => represents.sides_apart (within inside) member
    have kept : (view.cancel lot.tag.ref).book.levels (!isBuySide) =
        view.book.levels (!isBuySide) := by
      refine withdraw_eq_self fun other member => decide_eq_false fun same => ?_
      refine away _ (ref_mem member) ?_
      rw [same, lots]
      exact ref_mem (List.mem_append_right _ List.mem_cons_self)
    rw [otherSide, symbol, pool, kept]
    exact (represents.sides _).frame fun slot member => elsewhere slot (away slot member)
  · rw [pool, View.linked_cancel]
    refine poolShown.perm ((perm.filter _).trans (.of_eq ?_)).symm
    rw [List.filter_cons_of_neg (by simp only [ne_eq, not_true_eq_false, decide_false,
      Bool.false_eq_true, not_false_eq_true])]
    exact List.filter_eq_self.mpr fun other member =>
      decide_eq_true (ne_of_mem_of_not_mem member fresh)
  · intro other outside
    rw [pool]
    exact elsewhere other fun inside => outside (View.mem_linked.mpr ⟨_, within inside⟩)
  · rw [OrderBook.order, pool]
    exact record

end Calls

end TradingExchange
