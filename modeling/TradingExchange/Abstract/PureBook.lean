/-
**The pure book.**

What an order book is for, without memory: two ladders of lots, bids from the highest price and asks
from the lowest. An incoming order takes from the other side, best price first and first come first
served, as far as its limit allows, and its remainder rests behind the orders at its own price.

A `PureBook` is sorted and never crossed by construction. `add` may let the remainder of a market
order rest at a price that would have crossed: it does not, because a remainder means that nothing
in reach is left on the other side (`out_of_sweep`).

The lots carry tags of an arbitrary type: nothing but `cancel` looks at them.
-/

import Mathlib.Data.UInt
import TradingExchange.Library.Ladder
import TradingExchange.Model.Order

namespace TradingExchange

open Lots Ladder

/-- `better isBuySide p q`: on that side, an order at `p` is served before one at `q`. -/
def better (isBuySide : Bool) (price other : UInt64) : Prop :=
  if isBuySide then other < price else price < other

instance (isBuySide : Bool) : DecidableRel (better isBuySide) := fun _ _ => by
  unfold better
  infer_instance

instance (isBuySide : Bool) : IsStrictTotalOrder UInt64 (better isBuySide) where
  trichotomous := by
    intro price other
    cases isBuySide <;> simp only [better, Bool.false_eq_true, if_true, if_false,
      UInt64.lt_iff_toNat_lt, ← UInt64.toNat_inj] <;> omega
  irrefl := by
    intro price
    cases isBuySide <;> exact UInt64.lt_irrefl price
  trans := by
    intro first second third
    cases isBuySide <;> simp only [better, Bool.false_eq_true, if_true, if_false,
      UInt64.lt_iff_toNat_lt] <;> omega

/-- A resting order on side `!isBuySide` at `other` is within the limit of an incoming order. -/
def inReach (isBuySide : Bool) (price : UInt64) (type : OrderType) (other : UInt64) : Bool :=
  !(type == .limit && decide (better (!isBuySide) price other))

/-- What is in reach is in reach together with everything better. -/
theorem inReach_of_better {isBuySide : Bool} {price near far : UInt64} {type : OrderType}
    (sooner : better (!isBuySide) near far) (reached : inReach isBuySide price type far = true) :
    inReach isBuySide price type near = true := by
  cases type with
  | market => rfl
  | limit =>
    simp only [inReach, beq_self_eq_true, Bool.true_and, Bool.not_eq_true', decide_eq_false_iff_not]
      at reached ⊢
    exact fun later => reached (trans_of _ later sooner)

/-- A price out of reach does not cross. -/
theorem better_of_out {isBuySide : Bool} {price other : UInt64} {type : OrderType}
    (out : inReach isBuySide price type other = false) : better (!isBuySide) price other := by
  simp only [inReach, Bool.not_eq_false', Bool.and_eq_true, decide_eq_true_eq] at out
  exact out.2

theorem better_not (isBuySide : Bool) (price other : UInt64) :
    better (!isBuySide) price other ↔ better isBuySide other price := by
  cases isBuySide <;> rfl

/-- Two ladders that do not cross. -/
@[ext]
structure PureBook (Tag : Type) where
  levels : Bool → List (Level UInt64 Tag)
  sorted : ∀ isBuySide, Sorted (better isBuySide) (levels isBuySide)
  uncrossed : ∀ isBuySide, ∀ price ∈ prices (levels isBuySide),
    ∀ other ∈ prices (levels !isBuySide), better (!isBuySide) price other

namespace PureBook

variable {Tag Other : Type}

/-- The book without orders. -/
def empty : PureBook Tag where
  levels := fun _ => []
  sorted := fun _ => .nil
  uncrossed := fun _ _ member => absurd member List.not_mem_nil

/-- All tags of a side, in the order they would be served. -/
def line (book : PureBook Tag) (isBuySide : Bool) : List (Lot Tag) := flat (book.levels isBuySide)

/-- The orders at a price, if there are any. -/
def lineAt (book : PureBook Tag) (isBuySide : Bool) (price : UInt64) : Option (List (Lot Tag)) :=
  if lotsAt (book.levels isBuySide) price = [] then none
  else some (lotsAt (book.levels isBuySide) price)

/-- What an incoming order could take. -/
def available (book : PureBook Tag) (isBuySide : Bool) (price : UInt64) (type : OrderType) : Nat :=
  liquidity (inReach isBuySide price type) (book.levels !isBuySide)

/-- The orders that an incoming order closes, in order. -/
def closes (book : PureBook Tag) (isBuySide : Bool) (price : UInt64) (amount : Nat)
    (type : OrderType) : List Tag :=
  closed (inReach isBuySide price type) amount (book.levels !isBuySide)

/-- What remains of the other side's ladder. -/
def swept (book : PureBook Tag) (isBuySide : Bool) (price : UInt64) (amount : Nat)
    (type : OrderType) : List (Level UInt64 Tag) :=
  sweep (inReach isBuySide price type) amount (book.levels !isBuySide)

/-- An incoming order takes `amount` from the other side, as far as it is there. -/
def matchOrder (book : PureBook Tag) (isBuySide : Bool) (price : UInt64) (amount : Nat)
    (type : OrderType) : PureBook Tag where
  levels := fun side =>
    if side = isBuySide then book.levels side else book.swept isBuySide price amount type
  sorted := by
    intro side
    split
    · exact book.sorted side
    · next other =>
      rw [Bool.eq_not_of_ne other]
      exact (book.sorted _).sweep
  uncrossed := by
    intro side own member other member'
    have cross := book.uncrossed side own
    by_cases same : side = isBuySide
    · subst same
      rw [if_pos rfl] at member
      rw [if_neg (Bool.not_ne_self side)] at member'
      exact cross member other (prices_sweep.subset member')
    · have side_eq := Bool.eq_not_of_ne same
      subst side_eq
      rw [if_neg same] at member
      rw [Bool.not_not, if_pos rfl] at member'
      exact cross (prices_sweep.subset member) other (by rwa [Bool.not_not])

/-- Add an order: match it, then let a remainder rest at its price. -/
def add (book : PureBook Tag) (tag : Tag) (size : Nat) (price : UInt64) (isBuySide : Bool)
    (type : OrderType) : PureBook Tag :=
  if left : book.available isBuySide price type < size then
    { levels := fun side =>
        if side = isBuySide then
          rest (better side) price ⟨tag, size - book.available isBuySide price type,
            Nat.sub_pos_of_lt left⟩ (book.levels side)
        else book.swept isBuySide price size type
      sorted := by
        intro side
        split
        · exact (book.sorted side).rest
        · next other =>
          rw [Bool.eq_not_of_ne other]
          exact (book.sorted _).sweep
      uncrossed := by
        have cross : ∀ own ∈ prices (rest (better isBuySide) price ⟨tag, size -
            book.available isBuySide price type, Nat.sub_pos_of_lt left⟩ (book.levels isBuySide)),
            ∀ other ∈ prices (book.swept isBuySide price size type),
              better (!isBuySide) own other := by
          intro own member other member'
          rcases mem_prices_rest.mp member with rfl | earlier
          · exact better_of_out (out_of_sweep (book.sorted _) inReach_of_better
              (Nat.le_of_lt left) other member')
          · exact book.uncrossed isBuySide own earlier other (prices_sweep.subset member')
        intro side own member other member'
        by_cases same : side = isBuySide
        · subst same
          rw [if_pos rfl] at member
          rw [if_neg (Bool.not_ne_self side)] at member'
          exact cross own member other member'
        · have side_eq := Bool.eq_not_of_ne same
          subst side_eq
          rw [if_neg same] at member
          rw [Bool.not_not, if_pos rfl] at member'
          rw [better_not]
          exact cross other member' own member }
  else book.matchOrder isBuySide price size type

/-- Cancel an order: delete it, and its price if this empties it. -/
def cancel (book : PureBook Tag) (gone : Tag → Bool) : PureBook Tag where
  levels := fun side => withdraw gone (book.levels side)
  sorted := fun side => (book.sorted side).withdraw
  uncrossed := fun side own member other member' =>
    book.uncrossed side own (prices_withdraw.subset member) other (prices_withdraw.subset member')

/-! ### The two sides after an operation -/

section Sides

variable (book : PureBook Tag) (tag : Tag) (isBuySide : Bool) (price : UInt64) (amount : Nat)
  (type : OrderType)

theorem matchOrder_self :
    (book.matchOrder isBuySide price amount type).levels isBuySide = book.levels isBuySide :=
  if_pos rfl

theorem matchOrder_not :
    (book.matchOrder isBuySide price amount type).levels (!isBuySide) =
      book.swept isBuySide price amount type :=
  if_neg (Bool.not_ne_self isBuySide)

theorem add_not :
    (book.add tag amount price isBuySide type).levels (!isBuySide) =
      book.swept isBuySide price amount type := by
  rw [add]
  split
  · exact if_neg (Bool.not_ne_self isBuySide)
  · exact book.matchOrder_not isBuySide price amount type

theorem add_self_of_lt (left : book.available isBuySide price type < amount) :
    (book.add tag amount price isBuySide type).levels isBuySide =
      rest (better isBuySide) price ⟨tag, amount - book.available isBuySide price type,
        Nat.sub_pos_of_lt left⟩ (book.levels isBuySide) := by
  rw [add, dif_pos left]
  exact if_pos rfl

/-- The remainder that comes to rest. -/
theorem add_self_of_lot (lot : Lot Tag) (named : lot.tag = tag)
    (left : lot.size + book.available isBuySide price type = amount) :
    (book.add tag amount price isBuySide type).levels isBuySide =
      rest (better isBuySide) price lot (book.levels isBuySide) := by
  have positive := lot.positive
  rw [add_self_of_lt _ _ _ _ _ _ (by omega)]
  refine congrArg (fun lot => rest _ _ lot _) (Lot.ext named.symm ?_)
  simp only
  omega

theorem add_self_of_le (covered : amount ≤ book.available isBuySide price type) :
    (book.add tag amount price isBuySide type).levels isBuySide = book.levels isBuySide := by
  rw [add, dif_neg (Nat.not_lt.mpr covered)]
  exact book.matchOrder_self isBuySide price amount type

end Sides

end PureBook

end TradingExchange
