/-
**What a call fills.**

The quantity of a resting order goes down by what the servings of a call take from it, and by nothing
else (`Represents.fills_add_quantityOf`): what is left is in its record, or nothing is left and the
order is closed. An incoming order is filled by all that its call takes (`Represents.matched_addOrder`).

A resting order stays where it is: its lot is found again at the same price (`Represents.lot_step`).
-/

import TradingExchange.Abstract.Laws
import TradingExchange.Refinement.Determinacy
import TradingExchange.Refinement.Passes

namespace TradingExchange

open Lots Ladder

variable {poolSize : UInt64}

namespace View

variable (view : View poolSize) {slot : Slot poolSize}

/-- The quantity that rests in a slot. -/
def quantityOf (slot : Slot poolSize) : Nat := view.book.quantity fun ticket => ticket.ref = slot

theorem quantityOf_eq_zero (idle : slot ∉ view.linked) : view.quantityOf slot = 0 := by
  have nothing : ∀ side, Lots.quantity (fun ticket => decide (ticket.ref = slot))
      (view.book.line side) = 0 := fun side =>
    quantity_eq_zero fun lot member => decide_eq_false fun same =>
      idle (mem_linked.mpr ⟨side, same ▸ ref_mem member⟩)
  rw [quantityOf, PureBook.quantity, nothing, nothing]

/-- What is taken from a slot of the other side is what it loses. -/
theorem takings_add_swept (isBuySide : Bool) (price : UInt64) (amount : Nat) (type : OrderType)
    (slot : Slot poolSize) :
    takings (fun other => other = slot) ((Ladder.taken (inReach isBuySide price type) amount
        (view.book.levels !isBuySide)).map (Taken.relabel Ticket.ref)) +
      Lots.quantity (fun ticket => ticket.ref = slot)
        (flat (view.book.swept isBuySide price amount type)) =
      Lots.quantity (fun ticket => ticket.ref = slot) (view.book.line !isBuySide) := by
  rw [takings_relabel]
  exact takings_sweep _

/-- **A resting order loses what a call takes from it.** -/
theorem takings_add_quantityOf (call : Call poolSize) (old : view.addedBy call ≠ some slot)
    (kept : call ≠ .cancelOrder slot) :
    takings (fun other => other = slot) (view.takenBy call) +
      (view.step call).2.quantityOf slot = view.quantityOf slot := by
  cases call with
  | addOrder request =>
    have loses := view.takings_add_swept request.isBuySide request.price request.size.toNat
      request.orderType slot
    rw [addedBy] at old
    cases found : view.free with
    | nil =>
      rw [takenBy, step, add_nil found, if_pos found]
      exact Nat.zero_add _
    | cons first free =>
      rw [add_cons found] at old
      have other : decide ((request.ticket first).ref = slot) = false :=
        decide_eq_false fun same => old (congrArg some same)
      have added : (view.step (.addOrder request)).2.book = view.book.add (request.ticket first)
          request.size.toNat request.price request.isBuySide request.orderType := by
        rw [step, add_cons found]
      have own : Lots.quantity (fun ticket => decide (ticket.ref = slot))
          ((view.step (.addOrder request)).2.book.line request.isBuySide) =
            Lots.quantity (fun ticket => decide (ticket.ref = slot))
              (view.book.line request.isBuySide) := by
        rw [added]
        exact PureBook.quantity_add_self other
      have opposite : (view.step (.addOrder request)).2.book.line (!request.isBuySide) =
          flat (view.book.swept request.isBuySide request.price request.size.toNat
            request.orderType) := by
        rw [added, PureBook.line_add_not]
      rw [takenBy, if_neg (found ▸ List.cons_ne_nil _ _), quantityOf, quantityOf,
        PureBook.quantity_sides _ request.isBuySide, PureBook.quantity_sides _ request.isBuySide,
        own, opposite]
      omega
  | cancelOrder order =>
    have apart : ∀ ticket : Ticket (Slot poolSize), decide (ticket.ref = slot) = true →
        decide (ticket.ref = order) = false := fun ticket own =>
      decide_eq_false fun same => kept (by rw [← same, of_decide_eq_true own])
    have same : ∀ side, Lots.quantity (fun ticket => decide (ticket.ref = slot))
        ((view.book.cancel fun ticket => ticket.ref = order).line side) =
          Lots.quantity (fun ticket => decide (ticket.ref = slot)) (view.book.line side) := by
      intro side
      rw [PureBook.line, PureBook.levels_cancel, flat_withdraw, quantity_keep apart]
      rfl
    rw [takenBy, step, quantityOf, cancel, PureBook.quantity, same, same]
    exact Nat.zero_add _
  | matchOrder isBuySide price size type totalMatched =>
    have loses := view.takings_add_swept isBuySide price (size.toNat - totalMatched.toNat) type slot
    have own : (view.book.matchOrder isBuySide price (size.toNat - totalMatched.toNat)
        type).line isBuySide = view.book.line isBuySide := by
      rw [PureBook.line, PureBook.matchOrder_self]
      rfl
    have other : (view.book.matchOrder isBuySide price (size.toNat - totalMatched.toNat)
        type).line (!isBuySide) =
          flat (view.book.swept isBuySide price (size.toNat - totalMatched.toNat) type) := by
      rw [PureBook.line, PureBook.matchOrder_not]
    rw [takenBy, step, quantityOf, quantityOf, matchOrder, PureBook.quantity_sides _ isBuySide,
      PureBook.quantity_sides _ isBuySide, own, other]
    omega

/-- Nothing is taken from a slot that is in no level. -/
theorem takings_eq_zero (call : Call poolSize) (idle : slot ∉ view.linked) :
    takings (fun other => other = slot) (view.takenBy call) = 0 := by
  have nothing := view.quantityOf_eq_zero idle
  have taken : ∀ isBuySide price amount type, takings (fun other => other = slot)
      ((Ladder.taken (inReach isBuySide price type) amount (view.book.levels !isBuySide)).map
        (Taken.relabel Ticket.ref)) = 0 := by
    intro isBuySide price amount type
    have loses := view.takings_add_swept isBuySide price amount type slot
    rw [quantityOf, PureBook.quantity_sides _ isBuySide] at nothing
    omega
  cases call with
  | addOrder request =>
    rw [takenBy]
    split
    · rfl
    · exact taken ..
  | cancelOrder order => rfl
  | matchOrder isBuySide price size type totalMatched => exact taken ..

/-- **What rests at a price after a call rested there before, or is new.** -/
theorem lotsAt_step (call : Call poolSize) {side : Bool} {price : UInt64}
    {lot : Lot (Ticket (Slot poolSize))}
    (member : lot ∈ lotsAt ((view.step call).2.book.levels side) price) :
    (∃ earlier ∈ lotsAt (view.book.levels side) price, earlier.tag = lot.tag) ∨
      view.addedBy call = some lot.tag.ref := by
  cases call with
  | addOrder request =>
    rw [step] at member
    rw [addedBy]
    cases found : view.free with
    | nil =>
      rw [add_nil found] at member
      exact .inl ⟨lot, member, rfl⟩
    | cons first free =>
      rw [add_cons found] at member ⊢
      by_cases own : side = request.isBuySide
      · subst own
        by_cases left : view.book.available request.isBuySide request.price request.orderType <
            request.size.toNat
        · rw [PureBook.add_self_of_lt _ _ _ _ _ _ left, lotsAt_rest (view.book.sorted _)] at member
          split at member
          · next same =>
            rcases List.mem_append.mp member with earlier | new
            · exact .inl ⟨lot, same ▸ earlier, rfl⟩
            · rw [List.mem_singleton.mp new]
              exact .inr rfl
          · exact .inl ⟨lot, member, rfl⟩
        · rw [PureBook.add_self_of_le _ _ _ _ _ _ (Nat.not_lt.mp left)] at member
          exact .inl ⟨lot, member, rfl⟩
      · obtain rfl := Bool.eq_not_of_ne own
        rw [PureBook.add_not] at member
        obtain ⟨earlier, there, tag, -⟩ := PureBook.mem_lotsAt_swept member
        exact .inl ⟨earlier, there, tag⟩
  | cancelOrder order =>
    rw [step, cancel, PureBook.levels_cancel, lotsAt_withdraw (view.book.sorted side)] at member
    exact .inl ⟨lot, List.mem_of_mem_filter member, rfl⟩
  | matchOrder isBuySide limit size type totalMatched =>
    exact .inl (lotsAt_matchOrder member)

end View

namespace Represents

variable {book after : OrderBook poolSize} {view : View poolSize} {call : Call poolSize}
  {slot : Slot poolSize}

/-! ### Quantities -/

/-- What the servings of a call match of an order is what the view takes from it. -/
theorem fills_eq (represents : Represents book view) (call : Call poolSize) (slot : Slot poolSize) :
    book.fills call slot = takings (fun other => other = slot) (view.takenBy call) := by
  rw [← represents.servings, OrderBook.fills, takings, List.filter_map, List.map_map]
  rfl

/-- **What a resting order loses is what the servings of the call match of it.** -/
theorem fills_add_quantityOf (represents : Represents book view) (old : view.addedBy call ≠ some slot)
    (kept : call ≠ .cancelOrder slot) :
    book.fills call slot + (view.step call).2.quantityOf slot = view.quantityOf slot := by
  rw [represents.fills_eq]
  exact view.takings_add_quantityOf call old kept

/-- An order that is in no level is not filled. -/
theorem fills_eq_zero (represents : Represents book view) (call : Call poolSize)
    (idle : slot ∉ view.linked) : book.fills call slot = 0 := by
  rw [represents.fills_eq, view.takings_eq_zero call idle]

/-- **An incoming order is filled by all that its call matches.** -/
theorem matched_addOrder (represents : Represents book view) {request : Request}
    (added : view.addedBy (.addOrder request) = some slot) :
    book.matched (.addOrder request) = min request.size.toNat (view.available request) := by
  have all : book.matched (.addOrder request) =
      takings (fun _ => true) (view.takenBy (.addOrder request)) := by
    rw [← represents.servings, OrderBook.matched, takings, List.filter_true, List.map_map]
    rfl
  rw [all, View.takenBy]
  split
  · next full =>
    rw [View.addedBy, View.add_nil full] at added
    exact absurd added (Option.some_ne_none _).symm
  · rw [takings_relabel]
    exact takings_all _ _

theorem quantityOf_eq (represents : Represents book view) {side : Bool} {price : UInt64}
    {lot : Lot (Ticket (Slot poolSize))} (member : lot ∈ lotsAt (view.book.levels side) price) :
    view.quantityOf lot.tag.ref = lot.size := by
  have line : ∀ side, (view.book.line side).map (fun lot => lot.tag.ref) = view.slots side :=
    fun side => (refs_eq _).symm
  have own := represents.slots_nodup side
  rw [← line] at own
  have there : lot ∈ view.book.line side := mem_flat_of_lotsAt member
  rw [View.quantityOf, PureBook.quantity_sides _ side,
    quantity_eq_size own.of_map there (decide_eq_true rfl) fun other inside same =>
      List.inj_on_of_nodup_map own inside there (of_decide_eq_true same),
    quantity_eq_zero, Nat.add_zero]
  refine fun other inside => decide_eq_false fun same => ?_
  exact represents.sides_apart (ref_mem there) (same ▸ ref_mem inside)

/-! ### Places -/

/-- Every order rests in one place. -/
theorem lot_unique (represents : Represents book view) {side side' : Bool} {price price' : UInt64}
    {lot lot' : Lot (Ticket (Slot poolSize))}
    (here : lot ∈ lotsAt (view.book.levels side) price)
    (there : lot' ∈ lotsAt (view.book.levels side') price') (same : lot'.tag.ref = lot.tag.ref) :
    side' = side ∧ price' = price ∧ lot' = lot := by
  have one_side : side' = side := by
    by_contra different
    obtain rfl := Bool.eq_not_of_ne different
    exact represents.sides_apart (ref_mem (mem_flat_of_lotsAt here))
      (same ▸ ref_mem (mem_flat_of_lotsAt there))
  subst one_side
  have one_price : price' = price := by
    by_contra different
    exact represents.prices_apart different (ref_mem there) (same ▸ ref_mem here)
  subst one_price
  have nodup := represents.lotsAt_nodup side' price'
  rw [refs_eq] at nodup
  exact ⟨rfl, rfl, List.inj_on_of_nodup_map nodup there here same⟩

/-- **A resting order stays at its place.** -/
theorem lot_step (represents : Represents book view) {side : Bool} {price : UInt64}
    {lot : Lot (Ticket (Slot poolSize))} (member : lot ∈ lotsAt (view.book.levels side) price)
    (left : lot.tag.ref ∈ (view.step call).2.linked) :
    ∃ later ∈ lotsAt ((view.step call).2.book.levels side) price, later.tag = lot.tag := by
  obtain ⟨side', price', later, found, same⟩ := View.exists_lot left
  rcases view.lotsAt_step call found with ⟨earlier, there, tag⟩ | new
  · have ref : earlier.tag.ref = lot.tag.ref := tag ▸ same
    obtain ⟨rfl, rfl, rfl⟩ := represents.lot_unique member there ref
    exact ⟨later, found, tag.symm⟩
  · rw [same] at new
    exact absurd (View.mem_linked_of_lotsAt (ref_mem member)) (View.addedBy_apart represents new)

end Represents

end TradingExchange
