/-
**Runs of a book are runs of its view.**

A fresh book represents the fresh view, and every legal call returns and keeps the relation
(`Represents.call`), with the view's reply. So every reachable book represents a view
(`Reachable.represents`), and a run replies as the view does (`represents_run`).

What a client reads is what the view holds: `Represents.ordersOf`, `Represents.mem_resting` and
`Represents.restingOn_perm`.
-/

import TradingExchange.Library.LadderLaws
import TradingExchange.Refinement.Book

namespace TradingExchange

open Lots Ladder

variable {poolSize : UInt64}

namespace View

/-- The view of a fresh book. -/
def fresh (poolSize : UInt64) : View poolSize where
  book := PureBook.empty
  free := List.finRange poolSize.toNat

/-- One call on a view. -/
def step (view : View poolSize) : Call poolSize → Reply poolSize × View poolSize
  | .addOrder request => (.order (view.add request).1, (view.add request).2)
  | .cancelOrder order => (.cancelled, view.cancel order)
  | .matchOrder isBuySide price size type totalMatched =>
    (.matched (totalMatched + UInt32.ofNat (min (size.toNat - totalMatched.toNat)
        (view.book.available isBuySide price type))),
      view.matchOrder isBuySide price (size.toNat - totalMatched.toNat) type)

/-- The slots of the resting orders that a call closes. -/
def closedBy (view : View poolSize) : Call poolSize → List (Slot poolSize)
  | .addOrder request => if view.free = [] then [] else view.closes request
  | .cancelOrder _ => []
  | .matchOrder isBuySide price size type totalMatched =>
    (view.book.closes isBuySide price (size.toNat - totalMatched.toNat) type).map Ticket.ref

/-- The slot that a call hands out. -/
def addedBy (view : View poolSize) : Call poolSize → Option (Slot poolSize)
  | .addOrder request => (view.add request).1
  | _ => none

/-- A cancelled order must be resting. -/
def Legal (view : View poolSize) : Call poolSize → Prop
  | .cancelOrder order => order ∈ view.linked
  | _ => True

end View

/-! ### Reading a represented book -/

section Reading

variable {book : OrderBook poolSize} {view : View poolSize}

/-- Following the links from the head of a queue reads its orders. -/
theorem Shows.follow {pool : OrderPool poolSize} {queue : PriceLevel poolSize}
    {slots : List (Slot poolSize)} (shown : Shows pool queue slots) :
    TradingExchange.follow (fun slot => (pool.deref slot).listNode.next) poolSize.toNat
      queue.head = slots := by
  have chain := shown.linked.forward
  rw [← shown.head] at chain
  refine chain.follow ?_
  have nodup := chain.nodup (Option.some_injective _) fun item => Option.some_ne_none item
  have length := nodup.length_le_card
  rwa [Fintype.card_fin] at length

theorem LevelShown.ordersOf {isBuySide : Bool} {price : UInt64} {level : PriceLevel poolSize}
    {lots : List (Lot (Ticket (Slot poolSize)))}
    (shown : LevelShown book.orderPool book.symbol isBuySide price level lots) :
    book.ordersOf level = refs lots := shown.queue.follow

theorem Represents.entry (represents : Represents book view) {isBuySide : Bool} {price : UInt64}
    {level : PriceLevel poolSize} (found : (book.levels isBuySide)[price]? = some level) :
    lotsAt (view.book.levels isBuySide) price ≠ [] ∧
      LevelShown book.orderPool book.symbol isBuySide price level
        (lotsAt (view.book.levels isBuySide) price) := by
  have here := represents.sides isBuySide price
  rwa [found] at here

/-- The records of the lots at a price. -/
theorem Represents.filed (represents : Represents book view) {isBuySide : Bool} {price : UInt64}
    {lot : Lot (Ticket (Slot poolSize))}
    (member : lot ∈ lotsAt (view.book.levels isBuySide) price) :
    Filed book.symbol isBuySide price (book.order lot.tag.ref) lot := by
  have inside : price ∈ prices (view.book.levels isBuySide) :=
    lotsAt_ne_nil.mp (List.ne_nil_of_mem member)
  obtain ⟨level, -, shown⟩ := (represents.sides isBuySide).level inside
  exact shown.records lot member

/-- A level is read as the lots at its price. -/
theorem Represents.ordersOf (represents : Represents book view) {isBuySide : Bool} {price : UInt64}
    {level : PriceLevel poolSize} (found : (book.levels isBuySide)[price]? = some level) :
    book.ordersOf level = refs (lotsAt (view.book.levels isBuySide) price) :=
  (represents.entry found).2.ordersOf

/-- The orders at a price are those of the ladder. -/
theorem Represents.ordersAt (represents : Represents book view) (isBuySide : Bool)
    (price : UInt64) :
    book.ordersAt isBuySide price = refs (lotsAt (view.book.levels isBuySide) price) := by
  rw [OrderBook.ordersAt]
  cases found : (book.levels isBuySide)[price]? with
  | none =>
    have here := represents.sides isBuySide price
    rw [found] at here
    rw [show lotsAt _ _ = [] from here]
    rfl
  | some level => exact represents.ordersOf found

/-- **What is read at a price is what the ladder holds there.** -/
theorem Represents.readAt (represents : Represents book view) {Shown : Type}
    {read : Slot poolSize → Shown} (expected : Lot (Ticket (Slot poolSize)) → Shown)
    {isBuySide : Bool} {price : UInt64}
    (agree : ∀ lot ∈ lotsAt (view.book.levels isBuySide) price,
      read lot.tag.ref = expected lot) :
    book.readAt read isBuySide price =
      (view.book.lineAt isBuySide price).map (List.map expected) := by
  rw [OrderBook.readAt, PureBook.lineAt]
  cases found : (book.levels isBuySide)[price]? with
  | none =>
    have here := represents.sides isBuySide price
    rw [found] at here
    rw [if_pos (show lotsAt _ _ = [] from here)]
    rfl
  | some level =>
    rw [if_neg (represents.entry found).1, Option.map_some, Option.map_some,
      represents.ordersOf found, refs_eq, List.map_map]
    exact congrArg some (List.map_congr_left agree)

theorem OrderBook.bestFirst_perm (book : OrderBook poolSize) (isBuySide : Bool) :
    (book.bestFirst isBuySide).Perm (book.levels isBuySide).toList := by
  cases isBuySide with
  | true => exact List.reverse_perm _
  | false => exact .refl _

/-- The levels of the book are in the order of the ladder. -/
theorem OrderBook.bestFirst_sorted (book : OrderBook poolSize) (isBuySide : Bool) :
    ((book.bestFirst isBuySide).map Prod.fst).Pairwise (better isBuySide) := by
  have ordered : ∀ map : PriceLevels poolSize,
      map.toList.Pairwise fun first second => first.1 < second.1 := fun map =>
    Std.ExtTreeMap.ordered_keys_toList.imp Std.compare_eq_lt.mp
  rw [List.pairwise_map]
  cases isBuySide with
  | true => exact List.pairwise_reverse.mpr (ordered _)
  | false => exact ordered _

/-- **Best price first, the levels read what the ladder holds.** -/
theorem Represents.bestFirst (represents : Represents book view) (isBuySide : Bool) :
    (book.bestFirst isBuySide).map (fun entry => (entry.1, book.ordersOf entry.2)) =
      (view.book.levels isBuySide).map fun level => (level.price, refs level.lots) := by
  let at_price := fun price => (price, refs (lotsAt (view.book.levels isBuySide) price))
  have read : (book.bestFirst isBuySide).map (fun entry => (entry.1, book.ordersOf entry.2)) =
      ((book.bestFirst isBuySide).map Prod.fst).map at_price := by
    rw [List.map_map]
    refine List.map_congr_left fun entry member => congrArg (Prod.mk entry.1) ?_
    exact represents.ordersOf (Std.ExtTreeMap.mem_toList_iff_getElem?_eq_some.mp
      ((book.bestFirst_perm isBuySide).subset member))
  have held : (view.book.levels isBuySide).map (fun level => (level.price, refs level.lots)) =
      (prices (view.book.levels isBuySide)).map at_price := by
    rw [prices, List.map_map]
    refine List.map_congr_left fun level member => congrArg (Prod.mk level.price) ?_
    rw [(view.book.sorted isBuySide).lotsAt_level member]
  have mem : ∀ price, price ∈ (book.bestFirst isBuySide).map Prod.fst ↔
      price ∈ prices (view.book.levels isBuySide) := fun price => by
    rw [← (represents.sides isBuySide).mem_iff price, ← Std.ExtTreeMap.mem_keys,
      ← Std.ExtTreeMap.map_fst_toList_eq_keys]
    exact ((book.bestFirst_perm isBuySide).map Prod.fst).mem_iff
  have sorted := book.bestFirst_sorted isBuySide
  rw [read, held, List.Subset.antisymm_of_pairwise sorted (view.book.sorted isBuySide)
    (fun price => (mem price).mp) fun price => (mem price).mpr]

/-- **The orders of a side, as read from the map, are those of the ladder.** -/
theorem Represents.restingOn_perm (represents : Represents book view) (isBuySide : Bool) :
    (book.restingOn isBuySide).Perm (view.slots isBuySide) := by
  have read := congrArg (List.flatMap Prod.snd) (represents.bestFirst isBuySide)
  rw [List.flatMap_map, List.flatMap_map] at read
  refine ((book.bestFirst_perm isBuySide).symm.flatMap_right _).trans (.of_eq (read.trans ?_))
  rw [View.slots, PureBook.line, refs_eq, flat, List.map_flatMap]
  exact List.flatMap_congr fun level _ => refs_eq level.lots

theorem Represents.resting_perm (represents : Represents book view) :
    book.resting.Perm view.linked :=
  (represents.restingOn_perm true).append (represents.restingOn_perm false)

theorem Represents.mem_resting (represents : Represents book view) (slot : Slot poolSize) :
    slot ∈ book.resting ↔ slot ∈ view.linked :=
  represents.resting_perm.mem_iff

/-- A slot is in use exactly if it is not on the free list. -/
theorem Represents.inUse_iff (represents : Represents book view) (slot : Slot poolSize) :
    book.InUse slot ↔ slot ∉ view.free := by
  rw [← represents.pool.list.flags, OrderBook.InUse, Bool.not_eq_true]

end Reading

/-! ### Calls -/

section Calls

variable {book : OrderBook poolSize} {view : View poolSize}

/-- **A fresh book represents the fresh view.** -/
theorem represents_new {symbol : String} (new : OrderBook.new symbol poolSize = some book) :
    Represents book (View.fresh poolSize) := by
  rw [OrderBook.new, Option.map_eq_some_iff] at new
  obtain ⟨pool, created, rfl⟩ := new
  rw [MemPool.new] at created
  split at created
  · obtain rfl := Option.some.inj created
    refine ⟨fun isBuySide price => ?_, ⟨MemPool.FreeList.fresh, ?_, fun slot used => ?_⟩⟩
    · have absent : (∅ : PriceLevels poolSize)[price]? = none := Std.ExtTreeMap.getElem?_empty
      cases isBuySide <;> exact absent ▸ rfl
    · rw [View.linked, View.slots, View.slots]
      exact (List.append_nil _).symm ▸ List.nodup_finRange _
    · exact absurd (List.mem_finRange slot) used
  · exact absurd created (Option.some_ne_none _).symm

theorem OrderBook.symbol_new {symbol : String} (new : OrderBook.new symbol poolSize = some book) :
    book.symbol = symbol := by
  obtain ⟨pool, -, rfl⟩ := Option.map_eq_some_iff.mp new
  rfl

/-- The size that an order is left with, if the call adds one. -/
def View.remainder (view : View poolSize) : Call poolSize → Nat
  | .addOrder request => request.size.toNat - view.available request
  | _ => 0

/-- What a legal call does. -/
structure Effect (before after : OrderBook poolSize) (view : View poolSize)
    (call : Call poolSize) : Prop where
  represents : Represents after (view.step call).2
  symbol : after.symbol = before.symbol
  changed : Changed before.orderPool after.orderPool view.linked (view.closedBy call)
    (view.addedBy call)
  added : ∀ slot, view.addedBy call = some slot →
    (after.order slot).size.toNat = view.remainder call
  cancelled : ∀ slot, call = .cancelOrder slot →
    (after.order slot).size = (before.order slot).size

theorem View.addedBy_apart (represents : Represents book view) {call : Call poolSize}
    {slot : Slot poolSize} (added : view.addedBy call = some slot) : slot ∉ view.linked := by
  cases call with
  | addOrder request =>
    cases found : view.free with
    | nil =>
      rw [addedBy, View.add_nil found] at added
      exact absurd added (Option.some_ne_none _).symm
    | cons first free =>
      rw [addedBy, View.add_cons found] at added
      obtain rfl := Option.some.inj added
      exact represents.pool.not_linked (found ▸ List.mem_cons_self)
  | cancelOrder order => exact absurd added (Option.some_ne_none _).symm
  | matchOrder => exact absurd added (Option.some_ne_none _).symm

theorem Represents.addTo (represents : Represents book view) (request : Request) :
    ∃ after, request.addTo book = .ok ((view.add request).1, after) ∧
      Effect book after view (.addOrder request) := by
  cases found : view.free with
  | nil =>
    refine ⟨book, ?_, ?_, rfl, ⟨fun _ _ _ => rfl, ?_⟩, fun slot added => ?_, nofun⟩
    · rw [represents.addOrder_refused found, View.add_nil found]
    · rw [View.step, View.add_nil found]
      exact represents
    · rw [View.closedBy, if_pos found]
      exact fun _ member => absurd member List.not_mem_nil
    · rw [View.addedBy, View.add_nil found] at added
      exact absurd added (Option.some_ne_none _).symm
  | cons slot free =>
    obtain ⟨after, ran, added⟩ := represents.addOrder request found
    refine ⟨after, ?_, added.represents, added.symbol, ?_, fun slot' same => ?_, nofun⟩
    · rw [ran, View.add_cons found]
    · rw [View.closedBy, if_neg (found ▸ List.cons_ne_nil _ _), View.addedBy, View.add_cons found]
      exact added.changed
    · rw [View.addedBy, View.add_cons found] at same
      obtain rfl := Option.some.inj same
      obtain ⟨size, node, left, record⟩ := added.record
      rw [record]
      exact left

theorem Represents.cancel (represents : Represents book view) {slot : Slot poolSize}
    (resting : slot ∈ view.linked) :
    Effect book (book.cancelOrder (some slot)) view (.cancelOrder slot) := by
  have cancelled := represents.cancelOrder resting
  refine ⟨cancelled.represents, cancelled.symbol, ⟨fun other outside _ =>
    cancelled.frame other outside, fun _ member => absurd member List.not_mem_nil⟩, nofun, ?_⟩
  rintro slot same
  obtain rfl := Call.cancelOrder.inj same
  rw [cancelled.record]

theorem Represents.matching (represents : Represents book view) (isBuySide : Bool) (price : UInt64)
    (size : UInt32) (type : OrderType) (totalMatched : UInt32) :
    ∃ result, book.matchOrder isBuySide price size type totalMatched = .ok result ∧
      result.totalMatched.toNat = totalMatched.toNat +
        min (size.toNat - totalMatched.toNat) (view.book.available isBuySide price type) ∧
      Effect book result.book view (.matchOrder isBuySide price size type totalMatched) := by
  obtain ⟨result, ran, kept, total, symbol, changed⟩ :=
    represents.matchOrder isBuySide price size type totalMatched
  exact ⟨result, ran, total, kept, symbol, changed, nofun, nofun⟩

/-- **Every legal call returns, and is the view's step.** -/
theorem Represents.call (represents : Represents book view) {call : Call poolSize}
    (legal : view.Legal call) :
    ∃ after, book.call call = .ok ((view.step call).1, after) ∧ Effect book after view call := by
  cases call with
  | addOrder request =>
    obtain ⟨after, ran, effect⟩ := represents.addTo request
    exact ⟨after, by rw [OrderBook.call, ran]; rfl, effect⟩
  | cancelOrder order => exact ⟨_, rfl, represents.cancel legal⟩
  | matchOrder isBuySide price size type totalMatched =>
    obtain ⟨result, ran, total, effect⟩ :=
      represents.matching isBuySide price size type totalMatched
    refine ⟨result.book, ?_, effect⟩
    rw [OrderBook.call, ran]
    refine congrArg (fun total => Except.ok (Reply.matched total, result.book)) ?_
    rw [← UInt32.toNat_inj, total, UInt32.toNat_add, UInt32.toNat_ofNat']
    have bound := result.totalMatched.toNat_lt
    rw [total] at bound
    rw [Nat.add_mod_mod, Nat.mod_eq_of_lt bound]

/-- A linked slot has a lot at some price. -/
theorem View.exists_lot {slot : Slot poolSize} (member : slot ∈ view.linked) :
    ∃ isBuySide price, ∃ lot ∈ lotsAt (view.book.levels isBuySide) price, lot.tag.ref = slot := by
  obtain ⟨isBuySide, member⟩ := View.mem_linked.mp member
  obtain ⟨lot, found, rfl⟩ := mem_refs.mp member
  obtain ⟨level, inside, here⟩ := mem_flat.mp found
  refine ⟨isBuySide, level.price, lot, ?_, rfl⟩
  rwa [(view.book.sorted isBuySide).lotsAt_level inside]

/-- **A resting order stands in the level at its price.** -/
theorem Represents.placed (represents : Represents book view) {slot : Slot poolSize}
    (resting : slot ∈ view.linked) :
    ∃ level front later,
      (book.levels (book.order slot).isBuySide)[(book.order slot).price]? = some level ∧
      book.ordersAt (book.order slot).isBuySide (book.order slot).price = front ++ slot :: later ∧
      Shows book.orderPool level (front ++ slot :: later) ∧ (front ++ slot :: later).Nodup := by
  obtain ⟨isBuySide, price, lot, member, rfl⟩ := View.exists_lot resting
  have filed := represents.filed member
  have inside : price ∈ prices (view.book.levels isBuySide) :=
    lotsAt_ne_nil.mp (List.ne_nil_of_mem member)
  obtain ⟨level, found, shown⟩ := (represents.sides isBuySide).level inside
  obtain ⟨front, later, split⟩ := List.append_of_mem (ref_mem member)
  have nodup := represents.lotsAt_nodup isBuySide price
  have queue := shown.queue
  rw [split] at nodup queue
  rw [filed.isBuySide, filed.price]
  exact ⟨level, front, later, found, by rw [represents.ordersAt, split], queue, nodup⟩

/-- **A resting order goes on resting, is closed, or is cancelled.** -/
theorem View.mem_linked_step (call : Call poolSize) {slot : Slot poolSize}
    (member : slot ∈ view.linked) : slot ∈ (view.step call).2.linked ∨
      slot ∈ view.closedBy call ∨ call = .cancelOrder slot := by
  obtain ⟨side, member⟩ := View.mem_linked.mp member
  cases call with
  | addOrder request =>
    rw [View.step, View.mem_linked]
    cases found : view.free with
    | nil => exact .inl ⟨side, by rwa [View.add_nil found]⟩
    | cons first free =>
      by_cases own : side = request.isBuySide
      · subst own
        exact .inl ⟨_, (View.slots_add_self request found).mem_iff.mpr (List.mem_append_right _ member)⟩
      · obtain rfl := Bool.eq_not_of_ne own
        rcases (view.mem_swept _ _ _ _).mp member with closed | left
        · rw [View.closedBy, if_neg (found ▸ List.cons_ne_nil _ _)]
          exact .inr (.inl closed)
        · exact .inl ⟨_, by rw [View.slots_add_not found]; exact left⟩
  | cancelOrder order =>
    by_cases same : slot = order
    · exact .inr (.inr (congrArg _ same.symm))
    · refine .inl (View.mem_linked.mpr ⟨side, ?_⟩)
      rw [View.step, View.slots_cancel]
      exact List.mem_filter.mpr ⟨member, decide_eq_true same⟩
  | matchOrder isBuySide price size type totalMatched =>
    rw [View.step, View.mem_linked]
    by_cases own : side = isBuySide
    · subst own
      refine .inl ⟨side, ?_⟩
      rw [View.slots, PureBook.line, View.matchOrder, PureBook.matchOrder_self]
      exact member
    · obtain rfl := Bool.eq_not_of_ne own
      rcases (view.mem_swept _ _ _ _).mp member with closed | left
      · exact .inr (.inl closed)
      · refine .inl ⟨!isBuySide, ?_⟩
        rw [View.slots, PureBook.line, View.matchOrder, PureBook.matchOrder_not]
        exact left

/-- **A line loses orders, and gets a new one at its end only.** -/
theorem View.refs_step (view : View poolSize) (call : Call poolSize) (side : Bool)
    (price : UInt64) :
    (refs (lotsAt ((view.step call).2.book.levels side) price)).Sublist
      (refs (lotsAt (view.book.levels side) price) ++ (view.addedBy call).toList) := by
  have swept : ∀ isBuySide limit amount type,
      (refs (lotsAt (view.book.swept isBuySide limit amount type) price)).Sublist
        (refs (lotsAt (view.book.levels !isBuySide) price)) := by
    intro isBuySide limit amount type
    obtain ⟨served, same, -⟩ := lotsAt_sweep (inReach isBuySide limit type)
      (view.book.sorted !isBuySide) amount price
    rw [PureBook.swept, same, refs, refs, tags_eq served (lotsAt (view.book.levels !isBuySide) price),
      List.map_append]
    exact List.sublist_append_right ..
  cases call with
  | addOrder request =>
    rw [View.step, View.addedBy]
    cases found : view.free with
    | nil =>
      rw [View.add_nil found]
      exact List.sublist_append_left ..
    | cons slot free =>
      rw [View.add_cons found]
      by_cases own : side = request.isBuySide
      · subst own
        by_cases left : view.book.available request.isBuySide request.price request.orderType <
            request.size.toNat
        · rw [PureBook.add_self_of_lt _ _ _ _ _ _ left, lotsAt_rest (view.book.sorted _)]
          split
          · next same =>
            rw [refs_append, same]
            exact .refl _
          · exact List.sublist_append_left ..
        · rw [PureBook.add_self_of_le _ _ _ _ _ _ (Nat.not_lt.mp left)]
          exact List.sublist_append_left ..
      · obtain rfl := Bool.eq_not_of_ne own
        rw [PureBook.add_not]
        exact (swept ..).trans (List.sublist_append_left ..)
  | cancelOrder order =>
    rw [View.step, View.cancel, PureBook.cancel, lotsAt_withdraw (view.book.sorted side), refs_keep]
    exact List.filter_sublist.trans (List.sublist_append_left ..)
  | matchOrder isBuySide limit size type totalMatched =>
    rw [View.step, View.matchOrder]
    by_cases own : side = isBuySide
    · subst own
      rw [PureBook.matchOrder_self]
      exact List.sublist_append_left ..
    · obtain rfl := Bool.eq_not_of_ne own
      rw [PureBook.matchOrder_not]
      exact (swept ..).trans (List.sublist_append_left ..)

/-- The remainder of a new order rests. -/
theorem View.rests_of_remainder {call : Call poolSize} {slot : Slot poolSize}
    (added : view.addedBy call = some slot) (left : 0 < view.remainder call) :
    slot ∈ (view.step call).2.linked := by
  cases call with
  | addOrder request =>
    rw [View.addedBy] at added
    rw [View.remainder] at left
    cases found : view.free with
    | nil =>
      rw [View.add_nil found] at added
      exact absurd added (Option.some_ne_none _).symm
    | cons first free =>
      rw [View.add_cons found] at added
      obtain rfl := Option.some.inj added
      refine View.mem_linked.mpr ⟨_, (View.slots_add_self request found).mem_iff.mpr ?_⟩
      rw [if_pos (by omega)]
      exact List.mem_cons_self
  | cancelOrder order => exact absurd added (Option.some_ne_none _).symm
  | matchOrder => exact absurd added (Option.some_ne_none _).symm

/-- An order that is resting was resting, or is new. -/
theorem View.mem_linked_of_step {call : Call poolSize} {slot : Slot poolSize}
    (member : slot ∈ (view.step call).2.linked) :
    slot ∈ view.linked ∨ view.addedBy call = some slot := by
  obtain ⟨side, price, lot, found, rfl⟩ := View.exists_lot member
  rcases List.mem_append.mp ((view.refs_step call side price).subset (ref_mem found)) with old | new
  · exact .inl (View.mem_linked_of_lotsAt old)
  · exact .inr (Option.mem_toList.mp new)

/-- The record of a resting order that is closed has size zero. -/
theorem Effect.size_closed {after : OrderBook poolSize} {call : Call poolSize}
    {slot : Slot poolSize} (effect : Effect book after view call) (before : slot ∈ view.linked)
    (gone : slot ∉ (view.step call).2.linked) (kept : call ≠ .cancelOrder slot) :
    (after.order slot).size = 0 := by
  rcases View.mem_linked_step call before with resting | closed | cancelled
  · exact absurd resting gone
  · exact (effect.changed.closed slot closed).size_eq
  · exact absurd cancelled kept

/-- The record of an order that was not resting does not change. -/
theorem Effect.order_idle {after : OrderBook poolSize} {call : Call poolSize}
    {slot : Slot poolSize} (effect : Effect book after view call) (idle : slot ∉ view.linked)
    (old : view.addedBy call ≠ some slot) : after.order slot = book.order slot :=
  MemPool.deref_congr (effect.changed.frame slot idle old.symm)

theorem Represents.legal (represents : Represents book view) {call : Call poolSize} :
    call.Legal book ↔ view.Legal call := by
  cases call with
  | cancelOrder order => exact represents.mem_resting order
  | _ => exact Iff.rfl

/-- **A run from a represented book is a run of its view.** -/
theorem Represents.run (represents : Represents book view) {last : OrderBook poolSize}
    {calls : List (Call poolSize)} {replies : List (Reply poolSize)}
    (run : Run OrderBook.call Call.Legal book calls replies last) :
    replies = (replay View.step view calls).1 ∧ Represents last (replay View.step view calls).2 :=
  run.refines (fun _ _ _ represents legal => by
    obtain ⟨after, ran, effect⟩ := represents.call (represents.legal.mp legal)
    exact ⟨after, ran, effect.represents⟩) represents

/-- **Every reachable book represents a view.** -/
theorem OrderBook.Reachable.represents (reachable : book.Reachable) :
    ∃ view, Represents book view := by
  obtain ⟨symbol, fresh, calls, replies, new, run⟩ := reachable
  exact ⟨_, ((represents_new new).run run).2⟩

/-- **A legal call on a reachable book returns, to a reachable book.** -/
theorem OrderBook.Reachable.returns (reachable : book.Reachable) {call : Call poolSize}
    (legal : call.Legal book) :
    ∃ reply after, book.call call = .ok (reply, after) ∧ after.Reachable := by
  obtain ⟨view, represents⟩ := reachable.represents
  obtain ⟨after, ran, -⟩ := represents.call (represents.legal.mp legal)
  obtain ⟨symbol, fresh, calls, replies, new, run⟩ := reachable
  exact ⟨_, after, ran, symbol, fresh, _, _, new, run.append (.cons legal ran (.nil after))⟩

end Calls

end TradingExchange
