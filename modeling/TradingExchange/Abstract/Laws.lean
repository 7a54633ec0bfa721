/-
**How the operations of the pure book commute.**

* `rename` changes the tags, and every operation follows it: what an order is called makes no
  difference.
* `mirror` exchanges the sides and turns prices upside down, and every operation follows it: there
  is one market, seen from two sides.
* An order may be matched in parts: the parts take what the whole takes, in the same order
  (`matchOrder_matchOrder`).
* An order that an operation does not touch may be cancelled before it or after it
  (`matchOrder_cancel`, `add_cancel`), and cancelling the order that was just put to rest whole
  undoes adding it (`cancel_add`).
* An order that finds nothing in reach joins the line at its price (`lotsAt_add`).
-/

import TradingExchange.Abstract.PureBook
import TradingExchange.Library.LadderLaws

namespace TradingExchange

open Lots Ladder

namespace PureBook

variable {Tag Other : Type} {book : PureBook Tag} {isBuySide : Bool} {price : UInt64}
  {amount : Nat} {type : OrderType}

/-- Two books with the same levels are the same. -/
theorem ext_sides {book other : PureBook Tag} (isBuySide : Bool)
    (own : book.levels isBuySide = other.levels isBuySide)
    (opposite : book.levels (!isBuySide) = other.levels (!isBuySide)) : book = other := by
  refine PureBook.ext (funext fun side => ?_)
  by_cases same : side = isBuySide
  · rw [same, own]
  · rw [Bool.eq_not_of_ne same, opposite]

/-- The orders of the incoming order's own side stay as they are. -/
theorem mem_add_self {tag : Tag} {other : UInt64} {lot : Lot Tag}
    (member : lot ∈ lotsAt (book.levels isBuySide) other) :
    lot ∈ lotsAt ((book.add tag amount price isBuySide type).levels isBuySide) other := by
  by_cases left : book.available isBuySide price type < amount
  · rw [add_self_of_lt _ _ _ _ _ _ left, lotsAt_rest (book.sorted isBuySide)]
    split
    · next same => exact List.mem_append_left _ (same ▸ member)
    · exact member
  · rwa [add_self_of_le _ _ _ _ _ _ (Nat.not_lt.mp left)]

/-- What is left at a price was there before. -/
theorem mem_lotsAt_swept {other : UInt64} {lot : Lot Tag}
    (member : lot ∈ lotsAt (book.swept isBuySide price amount type) other) :
    ∃ earlier ∈ lotsAt (book.levels !isBuySide) other,
      earlier.tag = lot.tag ∧ lot.size ≤ earlier.size := by
  obtain ⟨served, same, -⟩ := lotsAt_sweep (inReach isBuySide price type)
    (book.sorted !isBuySide) amount other
  rw [swept, same] at member
  exact mem_fill member

/-! ### Matching in parts -/

/-- **Matching in two parts is matching the sum.** -/
theorem matchOrder_matchOrder (book : PureBook Tag) (isBuySide : Bool) (price : UInt64)
    (amount more : Nat) (type : OrderType) :
    (book.matchOrder isBuySide price amount type).matchOrder isBuySide price more type =
      book.matchOrder isBuySide price (amount + more) type := by
  refine ext_sides isBuySide ?_ ?_
  · rw [matchOrder_self, matchOrder_self, matchOrder_self]
  · rw [matchOrder_not, swept, matchOrder_not, matchOrder_not, swept, swept, sweep_sweep]

theorem available_matchOrder (book : PureBook Tag) (isBuySide : Bool) (price : UInt64)
    (amount : Nat) (type : OrderType) :
    (book.matchOrder isBuySide price amount type).available isBuySide price type =
      book.available isBuySide price type - amount := by
  rw [available, matchOrder_not, swept, liquidity_sweep, available]

theorem closes_add (book : PureBook Tag) (isBuySide : Bool) (price : UInt64)
    (amount more : Nat) (type : OrderType) :
    book.closes isBuySide price (amount + more) type =
      book.closes isBuySide price amount type ++
        (book.matchOrder isBuySide price amount type).closes isBuySide price more type := by
  rw [closes, closes, closes, matchOrder_not, swept, closed_add]

/-! ### Renaming -/

section Rename

variable (label : Tag → Other)

/-- Change the tags. -/
def rename (book : PureBook Tag) : PureBook Other where
  levels := fun side => (book.levels side).map (Level.map id label)
  sorted := fun side => (book.sorted side).map fun _ _ => id
  uncrossed := by
    intro side own member other member'
    rw [prices_map, List.map_id] at member member'
    exact book.uncrossed side own member other member'

variable {label}

theorem levels_rename (side : Bool) :
    (book.rename label).levels side = (book.levels side).map (Level.map id label) := rfl

theorem available_rename :
    (book.rename label).available isBuySide price type = book.available isBuySide price type :=
  liquidity_map fun _ => rfl

theorem closes_rename : (book.rename label).closes isBuySide price amount type =
    (book.closes isBuySide price amount type).map label :=
  closed_map (fun _ => rfl) amount

theorem swept_rename : (book.rename label).swept isBuySide price amount type =
    (book.swept isBuySide price amount type).map (Level.map id label) :=
  sweep_map (fun _ => rfl) amount

theorem lotsAt_rename (side : Bool) (price : UInt64) :
    lotsAt ((book.rename label).levels side) price =
      (lotsAt (book.levels side) price).map (Lot.relabel label) :=
  lotsAt_map Function.injective_id price

theorem lineAt_rename (side : Bool) (price : UInt64) :
    (book.rename label).lineAt side price =
      (book.lineAt side price).map (List.map (Lot.relabel label)) := by
  simp only [lineAt, lotsAt_rename, List.map_eq_nil_iff]
  split <;> rfl

theorem line_rename (side : Bool) :
    (book.rename label).line side = (book.line side).map (Lot.relabel label) := flat_map

theorem rename_matchOrder : (book.matchOrder isBuySide price amount type).rename label =
    (book.rename label).matchOrder isBuySide price amount type := by
  refine ext_sides isBuySide ?_ ?_
  · rw [levels_rename, matchOrder_self, matchOrder_self, levels_rename]
  · rw [levels_rename, matchOrder_not, matchOrder_not, swept_rename]

theorem rename_add (tag : Tag) : (book.add tag amount price isBuySide type).rename label =
    (book.rename label).add (label tag) amount price isBuySide type := by
  refine ext_sides isBuySide ?_ ?_
  · by_cases left : book.available isBuySide price type < amount
    · let lot : Lot Tag := ⟨tag, amount - book.available isBuySide price type, Nat.sub_pos_of_lt left⟩
      have moved : rest (better isBuySide) price (lot.relabel label)
          ((book.levels isBuySide).map (Level.map id label)) =
          (rest (better isBuySide) price lot (book.levels isBuySide)).map (Level.map id label) :=
        rest_map Function.injective_id (fun _ _ => Iff.rfl) price lot
      rw [levels_rename, add_self_of_lt _ _ _ _ _ _ left, ← moved]
      refine ((book.rename label).add_self_of_lot (label tag) isBuySide price amount type
        (lot.relabel label) rfl ?_).symm
      rw [available_rename]
      exact Nat.sub_add_cancel (Nat.le_of_lt left)
    · have covered := Nat.not_lt.mp left
      rw [levels_rename, add_self_of_le _ _ _ _ _ _ covered, add_self_of_le, levels_rename]
      rwa [available_rename]
  · rw [levels_rename, add_not, add_not, swept_rename]

/-- Tags that name the same orders withdraw the same orders. -/
theorem rename_cancel {gone : Tag → Bool} {gone' : Other → Bool}
    (same : ∀ side, ∀ lot ∈ book.line side, gone' (label lot.tag) = gone lot.tag) :
    (book.cancel gone).rename label = (book.rename label).cancel gone' :=
  PureBook.ext (funext fun side => (withdraw_map (same side)).symm)

/-- Only the tags of the book matter. -/
theorem rename_congr {label' : Tag → Other}
    (same : ∀ side, ∀ lot ∈ book.line side, label lot.tag = label' lot.tag) :
    book.rename label = book.rename label' := by
  refine PureBook.ext (funext fun side => List.map_congr_left fun level member => ?_)
  refine Level.ext rfl (List.map_congr_left fun lot found => ?_)
  exact Lot.ext (same side lot (mem_flat.mpr ⟨level, member, found⟩)) rfl

end Rename

/-! ### Mirroring -/

section Mirror

/-- Turning prices upside down exchanges the orders of the two sides. -/
theorem better_mirror {isBuySide : Bool} (price other : UInt64) :
    better (!isBuySide) (~~~price) (~~~other) ↔ better isBuySide price other := by
  have turned : ∀ price other : UInt64, ~~~price < ~~~other ↔ other < price := by
    intro price other
    rw [UInt64.lt_iff_toNat_lt, UInt64.lt_iff_toNat_lt, UInt64.toNat_not, UInt64.toNat_not]
    have first := price.toNat_lt_size
    have second := other.toNat_lt_size
    omega
  cases isBuySide
  · exact turned other price
  · exact turned price other

theorem not_injective : Function.Injective fun price : UInt64 => ~~~price :=
  fun _ _ => UInt64.not_inj.mp

theorem inReach_mirror (isBuySide : Bool) (price : UInt64) (type : OrderType) (other : UInt64) :
    inReach (!isBuySide) (~~~price) type (~~~other) = inReach isBuySide price type other := by
  rw [inReach, inReach, decide_eq_decide.mpr (better_mirror price other)]

/-- Exchange the sides and turn prices upside down. -/
def mirror (book : PureBook Tag) : PureBook Tag where
  levels := fun side => (book.levels !side).map (Level.map (fun price => ~~~price) id)
  sorted := by
    intro side
    have keeps : ∀ price other, better (!side) price other → better (!!side) (~~~price) (~~~other) :=
      fun price other => (better_mirror price other).mpr
    rw [Bool.not_not] at keeps
    exact (book.sorted !side).map keeps
  uncrossed := by
    intro side own member other member'
    rw [prices_map, List.mem_map] at member member'
    obtain ⟨own, member, rfl⟩ := member
    obtain ⟨other, member', rfl⟩ := member'
    have cross := (better_mirror own other).mpr (book.uncrossed (!side) own member other member')
    rwa [Bool.not_not] at cross

theorem levels_mirror (side : Bool) : book.mirror.levels (!side) =
    (book.levels side).map (Level.map (fun price => ~~~price) id) := by
  show (book.levels !!side).map _ = _
  rw [Bool.not_not]

theorem lotsAt_mirror (side : Bool) (price : UInt64) :
    lotsAt (book.mirror.levels !side) (~~~price) = lotsAt (book.levels side) price := by
  rw [levels_mirror]
  exact (lotsAt_map not_injective price).trans (List.map_id _)

theorem lineAt_mirror (side : Bool) (price : UInt64) :
    book.mirror.lineAt (!side) (~~~price) = book.lineAt side price := by
  rw [lineAt, lotsAt_mirror]
  rfl

theorem available_mirror : book.mirror.available (!isBuySide) (~~~price) type =
    book.available isBuySide price type := by
  rw [available, levels_mirror]
  exact liquidity_map (inReach_mirror isBuySide price type)

theorem closes_mirror : book.mirror.closes (!isBuySide) (~~~price) amount type =
    book.closes isBuySide price amount type := by
  rw [closes, levels_mirror]
  exact (closed_map (inReach_mirror isBuySide price type) amount).trans (List.map_id _)

theorem swept_mirror : book.mirror.swept (!isBuySide) (~~~price) amount type =
    (book.swept isBuySide price amount type).map (Level.map (fun price => ~~~price) id) := by
  rw [swept, levels_mirror]
  exact sweep_map (inReach_mirror isBuySide price type) amount

theorem mirror_matchOrder : (book.matchOrder isBuySide price amount type).mirror =
    book.mirror.matchOrder (!isBuySide) (~~~price) amount type := by
  refine ext_sides (!isBuySide) ?_ ?_
  · rw [levels_mirror, matchOrder_self, matchOrder_self, levels_mirror]
  · rw [levels_mirror, matchOrder_not, matchOrder_not, swept_mirror]

theorem mirror_add (tag : Tag) : (book.add tag amount price isBuySide type).mirror =
    book.mirror.add tag amount (~~~price) (!isBuySide) type := by
  refine ext_sides (!isBuySide) ?_ ?_
  · by_cases left : book.available isBuySide price type < amount
    · let lot : Lot Tag := ⟨tag, amount - book.available isBuySide price type, Nat.sub_pos_of_lt left⟩
      have moved : rest (better !isBuySide) (~~~price) (lot.relabel id)
          ((book.levels isBuySide).map (Level.map (fun price => ~~~price) id)) =
          (rest (better isBuySide) price lot (book.levels isBuySide)).map
            (Level.map (fun price => ~~~price) id) :=
        rest_map not_injective better_mirror price lot
      rw [levels_mirror, add_self_of_lt _ _ _ _ _ _ left, ← moved, ← levels_mirror]
      refine (book.mirror.add_self_of_lot tag (!isBuySide) (~~~price) amount type lot rfl ?_).symm
      rw [available_mirror]
      exact Nat.sub_add_cancel (Nat.le_of_lt left)
    · have covered := Nat.not_lt.mp left
      rw [levels_mirror, add_self_of_le _ _ _ _ _ _ covered, add_self_of_le, levels_mirror]
      rwa [available_mirror]
  · rw [levels_mirror, add_not, add_not, swept_mirror]

theorem mirror_cancel (gone : Tag → Bool) : (book.cancel gone).mirror = book.mirror.cancel gone :=
  PureBook.ext (funext fun _ => (withdraw_map fun _ _ => rfl).symm)

end Mirror

/-! ### Orders that are not touched -/

section Untouched

variable {gone : Tag → Bool}

/-- The quantity of the orders whose tag is `mine`. -/
def quantity (book : PureBook Tag) (mine : Tag → Bool) : Nat :=
  Lots.quantity mine (book.line true) + Lots.quantity mine (book.line false)

theorem quantity_sides (mine : Tag → Bool) (isBuySide : Bool) : book.quantity mine =
    Lots.quantity mine (book.line isBuySide) + Lots.quantity mine (book.line !isBuySide) := by
  cases isBuySide with
  | true => rfl
  | false => exact Nat.add_comm _ _

theorem levels_cancel (side : Bool) :
    (book.cancel gone).levels side = withdraw gone (book.levels side) := rfl

theorem mem_line_cancel {side : Bool} {lot : Lot Tag} (member : lot ∈ (book.cancel gone).line side) :
    lot ∈ book.line side := by
  rw [line, levels_cancel, flat_withdraw] at member
  exact List.mem_of_mem_filter member

/-- Cancels commute. -/
theorem cancel_comm (gone' : Tag → Bool) :
    (book.cancel gone).cancel gone' = (book.cancel gone').cancel gone :=
  PureBook.ext (funext fun side => withdraw_comm (book.sorted side) gone)

/-- What the other side needs to know of orders that are not touched. -/
theorem swept_cancel
    (untouched : Lots.quantity gone (flat (book.swept isBuySide price amount type)) =
      Lots.quantity gone (book.line !isBuySide)) :
    (book.cancel gone).swept isBuySide price amount type =
        withdraw gone (book.swept isBuySide price amount type) ∧
      min amount ((book.cancel gone).available isBuySide price type) =
        min amount (book.available isBuySide price type) :=
  sweep_withdraw (book.sorted _) inReach_of_better untouched

/-- The same orders are closed. -/
theorem closes_cancel
    (untouched : Lots.quantity gone (flat (book.swept isBuySide price amount type)) =
      Lots.quantity gone (book.line !isBuySide)) :
    (book.cancel gone).closes isBuySide price amount type =
      book.closes isBuySide price amount type := by
  have parts : ∀ book : PureBook Tag, tags (book.line !isBuySide) =
      book.closes isBuySide price amount type ++
        tags (flat (book.swept isBuySide price amount type)) := by
    intro book
    rw [closes, closed_eq, swept, flat_sweep, line, ← tags_eq]
  have others : (book.closes isBuySide price amount type).filter (fun tag => !gone tag) =
      book.closes isBuySide price amount type := by
    rw [swept, flat_sweep] at untouched
    rw [closes, closed_eq]
    exact List.filter_eq_self.mpr fun tag member => by rw [spent_untouched untouched tag member]; rfl
  have whole := congrArg (List.filter fun tag => !gone tag) (parts book)
  rw [List.filter_append, others, ← tags_keep, ← tags_keep, ← flat_withdraw,
    ← (swept_cancel untouched).1, line, ← flat_withdraw, ← levels_cancel] at whole
  exact List.append_cancel_right ((parts (book.cancel gone)).symm.trans whole)

theorem matchOrder_cancel
    (untouched : (book.matchOrder isBuySide price amount type).quantity gone =
      book.quantity gone) :
    (book.cancel gone).matchOrder isBuySide price amount type =
        (book.matchOrder isBuySide price amount type).cancel gone ∧
      min amount ((book.cancel gone).available isBuySide price type) =
        min amount (book.available isBuySide price type) ∧
      (book.cancel gone).closes isBuySide price amount type =
        book.closes isBuySide price amount type := by
  rw [quantity_sides gone isBuySide, quantity_sides gone isBuySide, line, line, matchOrder_self,
    matchOrder_not] at untouched
  have untouched := Nat.add_left_cancel untouched
  obtain ⟨same, taken⟩ := swept_cancel untouched
  refine ⟨ext_sides isBuySide ?_ ?_, taken, closes_cancel untouched⟩
  · rw [matchOrder_self, levels_cancel, levels_cancel, matchOrder_self]
  · rw [matchOrder_not, same, levels_cancel, matchOrder_not]

theorem line_add_not (tag : Tag) : (book.add tag amount price isBuySide type).line (!isBuySide) =
    flat (book.swept isBuySide price amount type) := by
  rw [line, add_not]

/-- What rests after an order was added rested before, or is that order. -/
theorem mem_line_add {tag : Tag} {side : Bool} {lot : Lot Tag}
    (member : lot ∈ (book.add tag amount price isBuySide type).line side) :
    (side = isBuySide ∧ lot.tag = tag) ∨ ∃ earlier ∈ book.line side, earlier.tag = lot.tag := by
  by_cases same : side = isBuySide
  · subst same
    by_cases left : book.available side price type < amount
    · rw [line, add_self_of_lt _ _ _ _ _ _ left, (perm_flat_rest ..).mem_iff] at member
      rcases List.mem_cons.mp member with rfl | earlier
      · exact .inl ⟨rfl, rfl⟩
      · exact .inr ⟨lot, earlier, rfl⟩
    · rw [line, add_self_of_le _ _ _ _ _ _ (Nat.not_lt.mp left)] at member
      exact .inr ⟨lot, member, rfl⟩
  · obtain rfl := Bool.eq_not_of_ne same
    rw [line_add_not, swept, flat_sweep] at member
    obtain ⟨earlier, there, tag, -⟩ := mem_fill member
    exact .inr ⟨earlier, there, tag⟩

/-- **An incoming order adds nothing but itself to its own side.** -/
theorem quantity_add_self {tag : Tag} (other : gone tag = false) :
    Lots.quantity gone ((book.add tag amount price isBuySide type).line isBuySide) =
      Lots.quantity gone (book.line isBuySide) := by
  by_cases left : book.available isBuySide price type < amount
  · rw [line, add_self_of_lt _ _ _ _ _ _ left, quantity_perm (perm_flat_rest ..), quantity_cons,
      if_neg (by rw [other]; exact Bool.false_ne_true), Nat.zero_add]
    rfl
  · rw [line, add_self_of_le _ _ _ _ _ _ (Nat.not_lt.mp left)]
    rfl

/-- It adds to no order of the other side. -/
theorem quantity_add_not_le (tag : Tag) :
    Lots.quantity gone ((book.add tag amount price isBuySide type).line (!isBuySide)) ≤
      Lots.quantity gone (book.line !isBuySide) := by
  rw [line_add_not]
  exact quantity_sweep_le ..

/-- **It takes its amount from the other side, or all that is in reach.** -/
theorem total_add_not (tag : Tag) :
    total ((book.add tag amount price isBuySide type).line (!isBuySide)) +
        min amount (book.available isBuySide price type) = total (book.line !isBuySide) := by
  have most : book.available isBuySide price type ≤ total (book.line !isBuySide) :=
    liquidity_le_total
  rw [line_add_not, swept, flat_sweep, total_fill]
  exact Nat.sub_add_cancel (Nat.le_trans (Nat.min_le_right _ _) most)

theorem add_cancel {tag : Tag} (other : gone tag = false)
    (untouched : (book.add tag amount price isBuySide type).quantity gone = book.quantity gone) :
    (book.cancel gone).add tag amount price isBuySide type =
        (book.add tag amount price isBuySide type).cancel gone ∧
      min amount ((book.cancel gone).available isBuySide price type) =
        min amount (book.available isBuySide price type) ∧
      (book.cancel gone).closes isBuySide price amount type =
        book.closes isBuySide price amount type := by
  rw [quantity_sides gone isBuySide, quantity_sides gone isBuySide, quantity_add_self other,
    line_add_not] at untouched
  have untouched := Nat.add_left_cancel untouched
  obtain ⟨same, taken⟩ := swept_cancel untouched
  refine ⟨ext_sides isBuySide ?_ ?_, taken, closes_cancel untouched⟩
  · by_cases left : book.available isBuySide price type < amount
    · let lot : Lot Tag := ⟨tag, amount - book.available isBuySide price type, Nat.sub_pos_of_lt left⟩
      rw [levels_cancel, add_self_of_lt _ _ _ _ _ _ left,
        (book.cancel gone).add_self_of_lot tag isBuySide price amount type lot rfl, levels_cancel]
      · exact rest_withdraw (book.sorted isBuySide) price other
      · show amount - book.available isBuySide price type + _ = amount
        omega
    · rw [levels_cancel, add_self_of_le _ _ _ _ _ _ (Nat.not_lt.mp left), add_self_of_le,
        levels_cancel]
      omega
  · rw [add_not, same, levels_cancel, add_not]

/-- **Cancelling an order that took nothing undoes adding it.** -/
theorem cancel_add {tag : Tag} (own : gone tag = true)
    (absent : ∀ side, ∀ lot ∈ book.line side, gone lot.tag = false)
    (unmatched : book.available isBuySide price type = 0) :
    (book.add tag amount price isBuySide type).cancel gone = book := by
  refine ext_sides isBuySide ?_ ?_
  · by_cases left : book.available isBuySide price type < amount
    · rw [levels_cancel, add_self_of_lt _ _ _ _ _ _ left]
      exact withdraw_rest (book.sorted isBuySide) price own (absent isBuySide)
    · rw [levels_cancel, add_self_of_le _ _ _ _ _ _ (Nat.not_lt.mp left)]
      exact withdraw_eq_self (absent isBuySide)
  · rw [levels_cancel, add_not, swept, sweep_eq_self_of_liquidity unmatched]
    exact withdraw_eq_self (absent _)

end Untouched

/-! ### Orders that find nothing in reach -/

/-- Nothing is available if every price of the other side is out of reach. -/
theorem available_eq_zero
    (out : ∀ other ∈ prices (book.levels !isBuySide), inReach isBuySide price type other = false) :
    book.available isBuySide price type = 0 := by
  rw [available]
  cases levels : book.levels !isBuySide with
  | nil => rfl
  | cons level worse =>
    have beyond := out level.price (levels ▸ List.mem_cons_self)
    rw [liquidity, if_neg (by simp [beyond])]

/-- **An order that finds nothing joins the line at its price**, and nothing else moves. -/
theorem lotsAt_add (tag : Tag) (unmatched : book.available isBuySide price type = 0) (side : Bool)
    (other : UInt64) : lotsAt ((book.add tag amount price isBuySide type).levels side) other =
      lotsAt (book.levels side) other ++
        if joins : 0 < amount ∧ side = isBuySide ∧ other = price then [⟨tag, amount, joins.1⟩]
        else [] := by
  by_cases own : side = isBuySide
  · subst own
    by_cases positive : 0 < amount
    · have lot := book.add_self_of_lot tag side price amount type ⟨tag, amount, positive⟩ rfl
        (by simp [unmatched])
      rw [lot, lotsAt_rest (book.sorted side)]
      by_cases same : other = price
      · subst same
        rw [if_pos rfl, dif_pos ⟨positive, rfl, rfl⟩]
      · rw [if_neg same, dif_neg fun joins => same joins.2.2, List.append_nil]
    · rw [add_self_of_le _ _ _ _ _ _ (by omega), dif_neg fun joins => positive joins.1,
        List.append_nil]
  · rw [dif_neg fun joins => own joins.2.1, List.append_nil, Bool.eq_not_of_ne own, add_not, swept,
      sweep_eq_self_of_liquidity unmatched]

end PureBook

end TradingExchange
