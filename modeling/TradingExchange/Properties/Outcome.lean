/-
**What one accepted `addOrder` does, order by order.**

The orders that a request can take stand in a queue (`OrderBook.queueFor`): best price first, first
come first served within a price, as far as the limit allows. The request takes its size from them,
or all they have: the first ones whole, at most one in part, and no other (`Outcome`). Its remainder
rests behind the orders at its own price.
-/

import TradingExchange.Refinement.Determinacy

namespace TradingExchange

open Lots Ladder

variable {poolSize : UInt64}

namespace OrderBook

/-- The opposite orders within reach of a request, in the order in which it takes them. -/
def queueFor (book : OrderBook poolSize) (request : Request) : List (Slot poolSize) :=
  ((book.bestFirst !request.isBuySide).takeWhile fun entry =>
    inReach request.isBuySide request.price request.orderType entry.1).flatMap fun entry =>
      book.ordersOf entry.2

/-- The sum of their sizes. -/
def liquidityFor (book : OrderBook poolSize) (request : Request) : Nat :=
  ((book.queueFor request).map fun order => (book.order order).size.toNat).sum

end OrderBook

/-- **The outcome of an accepted order**: `done` are the orders it consumes, `part` is the one it
leaves a remainder of, if any. -/
structure Outcome (before after : OrderBook poolSize) (request : Request) (slot : Slot poolSize)
    (done part rest : List (Slot poolSize)) : Prop where
  queue : before.queueFor request = done ++ part ++ rest
  few : part.length ≤ 1
  matched : ((before.queueFor request).map fun order =>
    (before.order order).size.toNat - (after.order order).size.toNat).sum =
      min request.size.toNat (before.liquidityFor request)
  consumed : ∀ order ∈ done,
    (after.order order).size = 0 ∧ order ∉ after.resting ∧ ¬ after.InUse order
  reduced : ∀ order ∈ part, ∃ size node,
    after.order order = { before.order order with size := size, listNode := node } ∧
      0 < size ∧ size < (before.order order).size ∧
      (after.ordersAt (!request.isBuySide) (before.order order).price).head? = some order
  others : ∀ order ∈ before.resting, order ∉ done → order ∉ part →
    ∃ node, after.order order = { before.order order with listNode := node }
  lines : ∀ isBuySide price, after.ordersAt isBuySide price =
    (before.ordersAt isBuySide price).filter (fun order => order ∉ done) ++
      if isBuySide = request.isBuySide ∧ price = request.price ∧
        before.liquidityFor request < request.size.toNat then [slot] else []
  levels : ∀ isBuySide price, price ∈ after.levels isBuySide ↔ after.ordersAt isBuySide price ≠ []
  emptied : ∀ isBuySide, ∀ price ∈ before.levels isBuySide, price ∉ after.levels isBuySide ↔
    isBuySide = (!request.isBuySide) ∧ ∀ order ∈ before.ordersAt isBuySide price, order ∈ done
  record : ∃ size node, after.order slot =
      { (request.order before.symbol : Order (Slot poolSize)) with size := size, listNode := node } ∧
    size.toNat = request.size.toNat - min request.size.toNat (before.liquidityFor request)
  handed : ¬ before.InUse slot ∧ after.InUse slot
  unrested : request.size.toNat ≤ before.liquidityFor request → slot ∉ after.resting

section Outcome

variable {book after : OrderBook poolSize} {view : View poolSize} {request : Request}
  {slot : Slot poolSize} {free : List (Slot poolSize)}

/-! ### The queue -/

/-- The part of the opposite ladder that a request reaches. -/
def View.reached (view : View poolSize) (request : Request) :
    List (Level UInt64 (Ticket (Slot poolSize))) :=
  (view.book.levels !request.isBuySide).takeWhile fun level =>
    inReach request.isBuySide request.price request.orderType level.price

/-- The part that it does not reach. -/
def View.unreached (view : View poolSize) (request : Request) :
    List (Level UInt64 (Ticket (Slot poolSize))) :=
  (view.book.levels !request.isBuySide).dropWhile fun level =>
    inReach request.isBuySide request.price request.orderType level.price

theorem View.line_split (view : View poolSize) (request : Request) :
    view.book.line (!request.isBuySide) =
      flat (view.reached request) ++ flat (view.unreached request) := by
  rw [reached, unreached, ← flat_append, List.takeWhile_append_dropWhile]
  rfl

/-- **The queue is the part of the ladder in reach**, order by order. -/
theorem Represents.queueFor (represents : Represents book view) (request : Request) :
    book.queueFor request = refs (flat (view.reached request)) := by
  have read := represents.bestFirst (!request.isBuySide)
  have same := congrArg (fun entries => (entries.takeWhile fun entry =>
    inReach request.isBuySide request.price request.orderType entry.1).flatMap Prod.snd) read
  simp only [List.takeWhile_map, List.flatMap_map] at same
  rw [OrderBook.queueFor, View.reached, refs_eq, flat, List.map_flatMap]
  refine Eq.trans same (List.flatMap_congr fun level _ => ?_)
  exact refs_eq level.lots

/-- The size of a resting order is that of its lot. -/
theorem Represents.size_eq (represents : Represents book view) {isBuySide : Bool}
    {lot : Lot (Ticket (Slot poolSize))} (member : lot ∈ view.book.line isBuySide) :
    (book.order lot.tag.ref).size.toNat = lot.size := by
  obtain ⟨level, inside, here⟩ := mem_flat.mp member
  rw [← (view.book.sorted isBuySide).lotsAt_level inside] at here
  exact (represents.filed here).size

/-- Orders of a side in the same slot are the same. -/
theorem Represents.lot_eq (represents : Represents book view) {isBuySide : Bool}
    {lot other : Lot (Ticket (Slot poolSize))} (member : lot ∈ view.book.line isBuySide)
    (member' : other ∈ view.book.line isBuySide) (same : lot.tag.ref = other.tag.ref) :
    lot = other := by
  have nodup := represents.slots_nodup isBuySide
  rw [View.slots, refs_eq] at nodup
  exact List.inj_on_of_nodup_map nodup member member' same

theorem Represents.sum_sizes (represents : Represents book view) (isBuySide : Bool)
    {lots : List (Lot (Ticket (Slot poolSize)))}
    (members : ∀ lot ∈ lots, lot ∈ view.book.line isBuySide) :
    ((refs lots).map fun order => (book.order order).size.toNat).sum = total lots := by
  rw [refs_eq, List.map_map, total]
  exact congrArg List.sum (List.map_congr_left fun lot member =>
    represents.size_eq (members lot member))

theorem Represents.liquidityFor (represents : Represents book view) (request : Request) :
    book.liquidityFor request = view.available request ∧
      book.liquidityFor request = total (flat (view.reached request)) := by
  have sum : book.liquidityFor request = total (flat (view.reached request)) := by
    rw [OrderBook.liquidityFor, represents.queueFor]
    refine represents.sum_sizes (!request.isBuySide) fun lot member => ?_
    rw [view.line_split]
    exact List.mem_append_left _ member
  refine ⟨?_, sum⟩
  rw [sum, View.available, PureBook.available, liquidity_eq_takeWhile]
  rfl

/-! ### What is left on the other side -/

theorem View.closes_eq (view : View poolSize) (request : Request) :
    view.closes request =
      (spent request.size.toNat (flat (view.reached request))).map Ticket.ref := by
  rw [View.closes, PureBook.closes, closed_eq_takeWhile]
  rfl

theorem View.flat_swept (view : View poolSize) (request : Request) :
    flat (view.swept request) =
      fill request.size.toNat (flat (view.reached request)) ++ flat (view.unreached request) := by
  rw [View.swept, PureBook.swept, flat_sweep_takeWhile]
  rfl

/-- The lots of a swept ladder are where they were. -/
theorem View.mem_swept_lot {view : View poolSize} {lot : Lot (Ticket (Slot poolSize))}
    (member : lot ∈ flat (view.swept request)) :
    ∃ price, lot ∈ lotsAt (view.swept request) price ∧
      ∃ earlier ∈ lotsAt (view.book.levels !request.isBuySide) price,
        earlier.tag = lot.tag ∧ lot.size ≤ earlier.size := by
  obtain ⟨level, inside, here⟩ := mem_flat.mp member
  have sorted : Sorted (better !request.isBuySide) (view.swept request) :=
    (view.book.sorted _).sweep
  rw [← sorted.lotsAt_level inside] at here
  exact ⟨level.price, here, PureBook.mem_lotsAt_swept here⟩

/-- **The lines of the other side lose the closed orders**, and no other. -/
theorem Represents.refs_swept (represents : Represents book view) (request : Request)
    (price : UInt64) :
    refs (lotsAt (view.swept request) price) =
      (refs (lotsAt (view.book.levels !request.isBuySide) price)).filter
        fun order => order ∉ view.closes request := by
  obtain ⟨served, same, -⟩ := lotsAt_sweep
    (inReach request.isBuySide request.price request.orderType)
    (view.book.sorted !request.isBuySide) request.size.toNat price
  have line : lotsAt (view.swept request) price =
      fill served (lotsAt (view.book.levels !request.isBuySide) price) := same
  have split : refs (lotsAt (view.book.levels !request.isBuySide) price) =
      (spent served (lotsAt (view.book.levels !request.isBuySide) price)).map Ticket.ref ++
        refs (lotsAt (view.swept request) price) := by
    rw [line, refs, refs, tags_eq served (lotsAt (view.book.levels !request.isBuySide) price),
      List.map_append]
  have all : (view.slots !request.isBuySide).Nodup := represents.slots_nodup _
  have nodup := represents.lotsAt_nodup (!request.isBuySide) price
  have parts : view.slots (!request.isBuySide) =
      view.closes request ++ refs (flat (view.swept request)) := by
    rw [View.closes, PureBook.closes, closed_eq, View.swept, PureBook.swept, flat_sweep,
      View.slots, refs, refs, PureBook.line, ← List.map_append, ← tags_eq]
  have kept : ∀ order ∈ refs (lotsAt (view.swept request) price), order ∉ view.closes request := by
    intro order member closed
    obtain ⟨lot, inside, rfl⟩ := mem_refs.mp member
    rw [parts] at all
    exact (List.nodup_append.mp all).2.2 _ closed _ (ref_mem (mem_flat_of_lotsAt inside)) rfl
  have gone : ∀ order ∈ (spent served
      (lotsAt (view.book.levels !request.isBuySide) price)).map Ticket.ref,
        order ∈ view.closes request := by
    intro order member
    have here : order ∈ refs (lotsAt (view.book.levels !request.isBuySide) price) := by
      rw [split]
      exact List.mem_append_left _ member
    have listed : order ∈ view.slots (!request.isBuySide) := refs_lotsAt_sublist.subset here
    rw [parts] at listed
    refine (List.mem_append.mp listed).resolve_right fun left => ?_
    obtain ⟨lot, inside, rfl⟩ := mem_refs.mp left
    obtain ⟨other, found, earlier, before, tag, -⟩ := View.mem_swept_lot inside
    obtain rfl : other = price := by
      by_contra different
      refine represents.prices_apart different ?_ here
      rw [← tag]
      exact ref_mem before
    rw [split] at nodup
    exact (List.nodup_append.mp nodup).2.2 _ member _ (ref_mem found) rfl
  rw [split, List.filter_append, List.filter_eq_nil_iff.mpr fun order member => ?_,
    List.nil_append, List.filter_eq_self.mpr fun order member => ?_]
  · exact decide_eq_true (kept order member)
  · exact fun stays => of_decide_eq_true stays (gone order member)

/-! ### The book after it -/

theorem Added.levels_not (found : view.free = slot :: free) :
    (view.add request).2.book.levels (!request.isBuySide) = view.swept request := by
  rw [View.add_cons found, PureBook.add_not]
  rfl

/-- **Every line loses its closed orders**, and a remainder joins the line at its price. -/
theorem Added.ordersAt (added : Added book after view request slot)
    (represents : Represents book view) (found : view.free = slot :: free) (isBuySide : Bool)
    (price : UInt64) :
    after.ordersAt isBuySide price =
      (book.ordersAt isBuySide price).filter (fun order => order ∉ view.closes request) ++
        if isBuySide = request.isBuySide ∧ price = request.price ∧
          book.liquidityFor request < request.size.toNat then [slot] else [] := by
  rw [added.represents.ordersAt, represents.ordersAt, (represents.liquidityFor request).1]
  by_cases own : isBuySide = request.isBuySide
  · subst own
    have kept : (refs (lotsAt (view.book.levels request.isBuySide) price)).filter
        (fun order => order ∉ view.closes request) =
          refs (lotsAt (view.book.levels request.isBuySide) price) := by
      refine List.filter_eq_self.mpr fun order member => decide_eq_true fun closed => ?_
      exact represents.sides_apart (refs_lotsAt_sublist.subset member)
        (view.closes_subset request closed)
    rw [kept, View.add_cons found]
    by_cases left : view.available request < request.size.toNat
    · have rested := PureBook.add_self_of_lt view.book (request.ticket slot) request.isBuySide
        request.price request.size.toNat request.orderType left
      rw [rested, lotsAt_rest (view.book.sorted _)]
      by_cases here : price = request.price
      · rw [if_pos here, if_pos ⟨rfl, here, left⟩, refs_append, here]
        rfl
      · rw [if_neg here, if_neg fun both => here both.2.1, List.append_nil]
    · have same := PureBook.add_self_of_le view.book (request.ticket slot) request.isBuySide
        request.price request.size.toNat request.orderType (Nat.not_lt.mp left)
      rw [same, if_neg fun both => left both.2.2, List.append_nil]
  · obtain rfl := Bool.eq_not_of_ne own
    rw [if_neg fun both => own both.1, List.append_nil, Added.levels_not found,
      represents.refs_swept]

/-- A lot that is left on the other side is on record with what is left. -/
theorem Added.filed (added : Added book after view request slot)
    (found : view.free = slot :: free) {lot : Lot (Ticket (Slot poolSize))} {price : UInt64}
    (member : lot ∈ lotsAt (view.swept request) price) :
    Filed book.symbol (!request.isBuySide) price (after.order lot.tag.ref) lot := by
  rw [← Added.levels_not found] at member
  have filed := added.represents.filed member
  rwa [added.symbol] at filed

theorem Added.size_eq (added : Added book after view request slot)
    (found : view.free = slot :: free) {lot : Lot (Ticket (Slot poolSize))}
    (member : lot ∈ flat (view.swept request)) :
    (after.order lot.tag.ref).size.toNat = lot.size := by
  obtain ⟨price, here, -⟩ := View.mem_swept_lot member
  exact (added.filed found here).size

/-- No order of the other side grows. -/
theorem Added.size_le (added : Added book after view request slot)
    (represents : Represents book view) (found : view.free = slot :: free)
    {order : Slot poolSize} (member : order ∈ view.slots (!request.isBuySide)) :
    (after.order order).size.toNat ≤ (book.order order).size.toNat := by
  rcases (view.mem_swept _ _ _ _).mp member with closed | left
  · have zero : (after.order order).size = 0 := (added.changed.closed order closed).size_eq
    rw [zero]
    exact Nat.zero_le _
  · obtain ⟨lot, inside, rfl⟩ := mem_refs.mp left
    obtain ⟨price, -, earlier, before, tag, less⟩ := View.mem_swept_lot inside
    rw [added.size_eq found inside, ← tag, represents.size_eq (mem_flat_of_lotsAt before)]
    exact less

/-- **What a request takes from its queue**: its size, or all there is. -/
theorem Added.matched (added : Added book after view request slot)
    (represents : Represents book view) (found : view.free = slot :: free) :
    ((book.queueFor request).map fun order =>
      (book.order order).size.toNat - (after.order order).size.toNat).sum =
        min request.size.toNat (book.liquidityFor request) := by
  have within : ∀ order ∈ book.queueFor request, order ∈ view.slots (!request.isBuySide) := by
    intro order member
    rw [represents.queueFor] at member
    rw [View.slots, view.line_split, refs_append]
    exact List.mem_append_left _ member
  have before : ((book.queueFor request).map fun order => (book.order order).size.toNat).sum =
      total (flat (view.reached request)) := (represents.liquidityFor request).2
  have left : ((book.queueFor request).map fun order => (after.order order).size.toNat).sum =
      total (flat (view.reached request)) - request.size.toNat := by
    have closed : ((view.closes request).map fun order => (after.order order).size.toNat).sum = 0 := by
      refine List.sum_eq_zero fun size member => ?_
      obtain ⟨order, gone, rfl⟩ := List.mem_map.mp member
      exact congrArg UInt32.toNat (added.changed.closed order gone).size_eq
    rw [represents.queueFor, refs, tags_eq request.size.toNat, List.map_append, ← View.closes_eq,
      List.map_append, List.sum_append, closed, Nat.zero_add, ← total_fill]
    refine (congrArg List.sum ?_ : _ = total _)
    rw [tags, List.map_map, List.map_map]
    refine List.map_congr_left fun lot member => added.size_eq found ?_
    rw [View.flat_swept]
    exact List.mem_append_left _ member
  have parts : ((book.queueFor request).map fun order =>
        (book.order order).size.toNat - (after.order order).size.toNat).sum +
      ((book.queueFor request).map fun order => (after.order order).size.toNat).sum =
        ((book.queueFor request).map fun order => (book.order order).size.toNat).sum := by
    rw [← List.sum_map_add]
    refine congrArg List.sum (List.map_congr_left fun order member => ?_)
    exact Nat.sub_add_cancel (added.size_le represents found (within order member))
  rw [left, before] at parts
  rw [(represents.liquidityFor request).2]
  omega

/-- **The order that is served in part stays at the head of its level.** -/
theorem Added.reduced (added : Added book after view request slot)
    (represents : Represents book view) (found : view.free = slot :: free)
    {was now : Lot (Ticket (Slot poolSize))} (member : was ∈ flat (view.reached request))
    (member' : now ∈ flat (view.swept request)) (same : now.tag = was.tag)
    (less : now.size < was.size) : ∃ size node,
      after.order was.tag.ref = { book.order was.tag.ref with size := size, listNode := node } ∧
        0 < size ∧ size < (book.order was.tag.ref).size ∧
        (after.ordersAt (!request.isBuySide) (book.order was.tag.ref).price).head? =
          some was.tag.ref := by
  obtain ⟨price, here, earlier, before, tag, -⟩ := View.mem_swept_lot member'
  have inLine : was ∈ view.book.line (!request.isBuySide) := by
    rw [view.line_split]
    exact List.mem_append_left _ member
  have old := represents.filed before
  have new := added.filed found here
  rw [tag, same] at old
  rw [same] at new
  have record := old.eq_of_tag new (tag ▸ rfl)
  have sizes : now.size < (book.order was.tag.ref).size.toNat := by
    rw [represents.size_eq inLine]
    exact less
  refine ⟨_, _, record, ?_, ?_, ?_⟩
  · rw [UInt32.lt_iff_toNat_lt, new.size]
    exact now.positive
  · rw [UInt32.lt_iff_toNat_lt, new.size]
    exact sizes
  · rw [old.price, added.represents.ordersAt, Added.levels_not found]
    obtain ⟨served, line, -⟩ := lotsAt_sweep
      (inReach request.isBuySide request.price request.orderType)
      (view.book.sorted !request.isBuySide) request.size.toNat price
    have line : lotsAt (view.swept request) price =
      fill served (lotsAt (view.book.levels !request.isBuySide) price) := line
    rw [line] at here ⊢
    rcases head_of_mem_fill here with head | unchanged
    · rw [refs_eq, List.head?_map, head, Option.map_some, same]
    · have equal := represents.lot_eq (mem_flat_of_lotsAt unchanged) inLine
        (congrArg Ticket.ref same)
      exact absurd less (equal ▸ Nat.lt_irrefl _)

/-- **The other orders keep their records**, but for the links. -/
theorem Added.others (added : Added book after view request slot)
    (represents : Represents book view) (found : view.free = slot :: free) {isBuySide : Bool}
    {lot : Lot (Ticket (Slot poolSize))} (member : lot ∈ view.book.line isBuySide)
    (stays : isBuySide = (!request.isBuySide) → lot ∈ flat (view.swept request)) :
    ∃ node, after.order lot.tag.ref = { book.order lot.tag.ref with listNode := node } := by
  obtain ⟨level, inside, here⟩ := mem_flat.mp member
  rw [← (view.book.sorted isBuySide).lotsAt_level inside] at here
  have old := represents.filed here
  by_cases own : isBuySide = request.isBuySide
  · subst own
    have kept : lot ∈ lotsAt ((view.add request).2.book.levels request.isBuySide) level.price := by
      rw [View.add_cons found]
      exact PureBook.mem_add_self here
    have new := added.represents.filed kept
    rw [added.symbol] at new
    exact ⟨_, old.eq_of_lot new⟩
  · obtain rfl := Bool.eq_not_of_ne own
    obtain ⟨price, left, earlier, before, tag, -⟩ := View.mem_swept_lot (stays rfl)
    have same := represents.lot_eq (mem_flat_of_lotsAt before) member (congrArg Ticket.ref tag)
    rw [same] at before
    exact ⟨_, (represents.filed before).eq_of_lot (added.filed found left)⟩

/-- The prices of a represented book are those with orders. -/
theorem Represents.mem_levels (represents : Represents book view) (isBuySide : Bool)
    (price : UInt64) : price ∈ book.levels isBuySide ↔ book.ordersAt isBuySide price ≠ [] := by
  rw [(represents.sides isBuySide).mem_iff price, ← lotsAt_ne_nil, represents.ordersAt, ne_eq, ne_eq,
    ← List.length_eq_zero_iff, ← List.length_eq_zero_iff, length_refs]

/-- **Exactly the emptied levels disappear.** -/
theorem Added.emptied (added : Added book after view request slot)
    (represents : Represents book view) (found : view.free = slot :: free) (isBuySide : Bool)
    {price : UInt64} (member : price ∈ book.levels isBuySide) :
    price ∉ after.levels isBuySide ↔ isBuySide = (!request.isBuySide) ∧
      ∀ order ∈ book.ordersAt isBuySide price, order ∈ view.closes request := by
  have inhabited := (represents.mem_levels isBuySide price).mp member
  rw [added.represents.mem_levels, not_not, added.ordersAt represents found, List.append_eq_nil_iff,
    List.filter_eq_nil_iff]
  constructor
  · rintro ⟨gone, -⟩
    have closed : ∀ order ∈ book.ordersAt isBuySide price, order ∈ view.closes request :=
      fun order inside => by_contra fun stays => gone order inside (decide_eq_true stays)
    refine ⟨?_, closed⟩
    by_contra same
    obtain ⟨order, inside⟩ := List.exists_mem_of_ne_nil _ inhabited
    have other := view.closes_subset request (closed order inside)
    rw [represents.ordersAt] at inside
    obtain rfl : isBuySide = request.isBuySide := by
      rw [Bool.eq_not_of_ne same, Bool.not_not]
    exact represents.sides_apart (refs_lotsAt_sublist.subset inside) other
  · rintro ⟨rfl, closed⟩
    refine ⟨fun order inside stays => of_decide_eq_true stays (closed order inside), if_neg ?_⟩
    exact fun both => Bool.not_ne_self _ both.1

/-- A closed order is out of its level, and its slot is free. -/
theorem Added.consumed (added : Added book after view request slot)
    (found : view.free = slot :: free) {order : Slot poolSize}
    (closed : order ∈ view.closes request) :
    (after.order order).size = 0 ∧ order ∉ after.resting ∧ ¬ after.InUse order := by
  have freed : order ∈ (view.add request).2.free := by
    rw [View.add_cons found]
    exact List.mem_append_left _ (List.mem_reverse.mpr closed)
  refine ⟨(added.changed.closed order closed).size_eq, ?_, ?_⟩
  · rw [added.represents.mem_resting]
    exact added.represents.pool.not_linked freed
  · rw [added.represents.inUse_iff, not_not]
    exact freed

/-- The slot that is handed out was free, and is in use. -/
theorem Added.handed (added : Added book after view request slot)
    (represents : Represents book view) (found : view.free = slot :: free) :
    ¬ book.InUse slot ∧ after.InUse slot := by
  have listed : slot ∈ view.free := found ▸ List.mem_cons_self
  have nodup := represents.pool.list.nodup
  rw [found] at nodup
  rw [represents.inUse_iff, added.represents.inUse_iff, not_not, View.add_cons found]
  refine ⟨listed, fun member => ?_⟩
  rcases List.mem_append.mp member with closed | still
  · exact added.apart (View.mem_linked.mpr
      ⟨_, view.closes_subset request (List.mem_reverse.mp closed)⟩)
  · exact (List.nodup_cons.mp nodup).1 still

/-- Without a remainder the order does not rest. -/
theorem Added.unrested (added : Added book after view request slot)
    (represents : Represents book view) (found : view.free = slot :: free)
    (covered : request.size.toNat ≤ book.liquidityFor request) : slot ∉ after.resting := by
  rw [added.represents.mem_resting]
  intro member
  rw [(represents.liquidityFor request).1] at covered
  obtain ⟨side, inside⟩ := View.mem_linked.mp member
  refine added.apart (View.mem_linked.mpr ⟨side, ?_⟩)
  by_cases own : side = request.isBuySide
  · subst own
    have perm := View.slots_add_self request found
    rw [if_neg (Nat.not_lt.mpr covered), List.nil_append] at perm
    exact perm.subset inside
  · obtain rfl := Bool.eq_not_of_ne own
    rw [View.slots_add_not found] at inside
    exact view.swept_subset request inside

/-- **The outcome of an accepted order.** -/
theorem Added.outcome (added : Added book after view request slot)
    (represents : Represents book view) (found : view.free = slot :: free) :
    ∃ done part rest, Outcome book after request slot done part rest := by
  obtain ⟨done, part, left, rest, split, gone, remains, few, served⟩ :=
    fill_split request.size.toNat (flat (view.reached request))
  have closes : view.closes request = refs done := by
    rw [View.closes_eq, gone]
    rfl
  have swept : flat (view.swept request) = left ++ rest ++ flat (view.unreached request) := by
    rw [View.flat_swept, remains]
  refine ⟨refs done, refs part, refs rest, ?_, ?_, added.matched represents found,
    fun order member => added.consumed found (closes ▸ member), fun order member => ?_,
    fun order member apart apart' => ?_, fun side price => ?_,
    fun side price => added.represents.mem_levels side price, fun side price member => ?_, ?_,
    added.handed represents found, added.unrested represents found⟩
  · rw [represents.queueFor, split, refs_append, refs_append]
  · rwa [length_refs]
  · obtain ⟨was, inside, rfl⟩ := mem_refs.mp member
    obtain ⟨now, inside', same, less⟩ := served was inside
    refine added.reduced represents found ?_ ?_ same less
    · rw [split]
      exact List.mem_append_left _ (List.mem_append_right _ inside)
    · rw [swept]
      exact List.mem_append_left _ (List.mem_append_left _ inside')
  · obtain ⟨side, inside⟩ := View.mem_linked.mp ((represents.mem_resting order).mp member)
    obtain ⟨lot, here, rfl⟩ := mem_refs.mp inside
    refine added.others represents found here fun other => ?_
    subst other
    have here : lot ∈ view.book.line (!request.isBuySide) := here
    rw [view.line_split, split] at here
    rw [swept]
    simp only [List.mem_append] at here ⊢
    rcases here with ((finished | partly) | later) | far
    · exact absurd (ref_mem finished) apart
    · exact absurd (ref_mem partly) apart'
    · exact .inl (.inr later)
    · exact .inr far
  · rw [← closes]
    exact added.ordersAt represents found side price
  · rw [← closes]
    exact added.emptied represents found side member
  · obtain ⟨size, node, remainder, record⟩ := added.record
    refine ⟨size, node, record, ?_⟩
    rw [remainder, (represents.liquidityFor request).1]
    omega

end Outcome

/-- With a free slot an order is accepted. -/
theorem OrderBook.Reachable.accepts {book : OrderBook poolSize} (reachable : book.Reachable)
    (room : ∃ slot, ¬ book.InUse slot) (request : Request) :
    ∃ view slot free after, Represents book view ∧ view.free = slot :: free ∧
      request.addTo book = .ok (some slot, after) ∧ Added book after view request slot := by
  obtain ⟨view, represents⟩ := reachable.represents
  obtain ⟨slot, unused⟩ := room
  rw [represents.inUse_iff, not_not] at unused
  obtain ⟨slot, free, found⟩ := List.exists_cons_of_ne_nil (List.ne_nil_of_mem unused)
  obtain ⟨after, ran, added⟩ := represents.addOrder request found
  exact ⟨view, slot, free, after, represents, found, ran, added⟩

/-- **The exact outcome of `addOrder`** on a book with a free slot. -/
theorem add_outcome {book : OrderBook poolSize} (reachable : book.Reachable)
    (room : ∃ slot, ¬ book.InUse slot) (request : Request) :
    ∃ slot after done part rest, request.addTo book = .ok (some slot, after) ∧
      Outcome book after request slot done part rest := by
  obtain ⟨view, slot, free, after, represents, found, ran, added⟩ := reachable.accepts room request
  obtain ⟨done, part, rest, outcome⟩ := added.outcome represents found
  exact ⟨slot, after, done, part, rest, ran, outcome⟩

/-- Asks of 5 at 9 and of 4 and 6 at 10: a bid of 7 at 10 closes the first and takes 2 of the next. -/
theorem add_outcome_sample : ∃ book : OrderBook 4,
    (book.queueFor ⟨4, 4, 7, 10, true, .limit⟩).map Fin.val = [1, 0, 2] ∧
    ∃ slot after done part rest,
      Request.addTo ⟨4, 4, 7, 10, true, .limit⟩ book = .ok (some slot, after) ∧
        Outcome book after ⟨4, 4, 7, 10, true, .limit⟩ slot done part rest := by
  have played : (OrderBook.play "X" 4 [.addOrder ⟨1, 1, 4, 10, false, .limit⟩,
      .addOrder ⟨2, 2, 5, 9, false, .limit⟩, .addOrder ⟨3, 3, 6, 10, false, .limit⟩]).map
      (fun result => ((result.2.queueFor ⟨4, 4, 7, 10, true, .limit⟩).map Fin.val,
        decide (result.2.InUse ⟨3, by decide⟩))) = some ([1, 0, 2], false) := by
    decide +kernel
  obtain ⟨⟨replies, book⟩, ran, both⟩ := Option.map_eq_some_iff.mp played
  obtain ⟨queue, unused⟩ := Prod.mk.inj both
  exact ⟨book, queue, add_outcome (OrderBook.reachable_of_play ran)
    ⟨⟨3, by decide⟩, of_decide_eq_false unused⟩ _⟩

end TradingExchange
