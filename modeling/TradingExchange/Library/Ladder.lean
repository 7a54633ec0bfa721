/-
**A ladder of price levels.**

A ladder is a list of levels, best price first, each holding a non-empty line of lots. The order of
prices is a parameter, so one ladder serves both sides of a market.

* `rest` puts a lot behind those at its price, on a new level if there is none;
* `sweep` serves an amount from the best level on, as far as prices are in `reach`; `closed` are the
  lots that are gone, and `liquidity` is what there was to take;
* `withdraw` takes lots out by tag and drops the levels this empties.

What the ladder holds at a price is `lotsAt`, and a sorted ladder is determined by it
(`ladder_ext`); `flat` is the whole ladder as one line. Sweeping is serving the flat line
(`flat_sweep`), so what is known of lines carries over.
-/

import Mathlib.Order.Defs.Unbundled
import TradingExchange.Library.Lots

namespace TradingExchange

open Lots

/-- A price with the lots resting there. -/
@[ext]
structure Level (Price Tag : Type) where
  price : Price
  lots : List (Lot Tag)
  inhabited : lots ≠ []

namespace Ladder

variable {Price Tag : Type}

/-- The lots at a price. -/
def lotsAt [DecidableEq Price] : List (Level Price Tag) → Price → List (Lot Tag)
  | [], _ => []
  | level :: worse, price => if level.price = price then level.lots else lotsAt worse price

def prices (levels : List (Level Price Tag)) : List Price := levels.map Level.price

/-- All lots, best first. -/
def flat (levels : List (Level Price Tag)) : List (Lot Tag) := levels.flatMap Level.lots

/-- Best price first, one level a price. -/
def Sorted (better : Price → Price → Prop) (levels : List (Level Price Tag)) : Prop :=
  (prices levels).Pairwise better

/-- Put a lot behind those at its price. -/
def rest [DecidableEq Price] (better : Price → Price → Prop) [DecidableRel better] (price : Price)
    (lot : Lot Tag) : List (Level Price Tag) → List (Level Price Tag)
  | [] => [⟨price, [lot], List.cons_ne_nil _ _⟩]
  | level :: worse =>
    if price = level.price then
      ⟨price, level.lots ++ [lot], List.append_ne_nil_of_right_ne_nil _ (List.cons_ne_nil _ _)⟩ ::
        worse
    else if better price level.price then ⟨price, [lot], List.cons_ne_nil _ _⟩ :: level :: worse
    else level :: rest better price lot worse

/-- Serve an amount from the best level on. -/
def sweep (reach : Price → Bool) : Nat → List (Level Price Tag) → List (Level Price Tag)
  | _, [] => []
  | amount, level :: worse =>
    if reach level.price then
      if left : fill amount level.lots = [] then sweep reach (amount - total level.lots) worse
      else ⟨level.price, fill amount level.lots, left⟩ :: worse
    else level :: worse

/-- The lots a sweep consumes. -/
def closed (reach : Price → Bool) : Nat → List (Level Price Tag) → List Tag
  | _, [] => []
  | amount, level :: worse =>
    if reach level.price then
      spent amount level.lots ++ closed reach (amount - total level.lots) worse
    else []

/-- What a sweep could take at most. -/
def liquidity (reach : Price → Bool) : List (Level Price Tag) → Nat
  | [] => 0
  | level :: worse =>
    if reach level.price then total level.lots + liquidity reach worse else 0

/-- Take lots out and drop the levels this empties. -/
def withdraw (gone : Tag → Bool) : List (Level Price Tag) → List (Level Price Tag)
  | [] => []
  | level :: worse =>
    if left : keep gone level.lots = [] then withdraw gone worse
    else ⟨level.price, keep gone level.lots, left⟩ :: withdraw gone worse

@[simp] theorem flat_nil : flat ([] : List (Level Price Tag)) = [] := rfl

@[simp] theorem flat_cons (level : Level Price Tag) (worse : List (Level Price Tag)) :
    flat (level :: worse) = level.lots ++ flat worse := List.flatMap_cons

@[simp] theorem flat_append (first second : List (Level Price Tag)) :
    flat (first ++ second) = flat first ++ flat second := List.flatMap_append

@[simp] theorem prices_cons (level : Level Price Tag) (worse : List (Level Price Tag)) :
    prices (level :: worse) = level.price :: prices worse := rfl

theorem mem_flat {levels : List (Level Price Tag)} {lot : Lot Tag} :
    lot ∈ flat levels ↔ ∃ level ∈ levels, lot ∈ level.lots := List.mem_flatMap

/-! ### What a ladder holds -/

section Holding

variable [DecidableEq Price] {better : Price → Price → Prop} {price other : Price}
  {level : Level Price Tag} {levels worse : List (Level Price Tag)}

theorem lotsAt_self : lotsAt (level :: worse) level.price = level.lots := by
  rw [lotsAt, if_pos rfl]

theorem lotsAt_of_ne (different : level.price ≠ price) :
    lotsAt (level :: worse) price = lotsAt worse price := by
  rw [lotsAt, if_neg different]

theorem lotsAt_ne_nil : lotsAt levels price ≠ [] ↔ price ∈ prices levels := by
  induction levels with
  | nil => exact iff_of_false (fun inhabited => inhabited rfl) List.not_mem_nil
  | cons level worse ih =>
    by_cases same : level.price = price
    · subst same
      rw [lotsAt_self]
      exact iff_of_true level.inhabited List.mem_cons_self
    · rw [lotsAt_of_ne same, ih, prices_cons, List.mem_cons]
      exact ⟨.inr, fun member => member.resolve_left fun equal => same equal.symm⟩

theorem lotsAt_eq_nil : lotsAt levels price = [] ↔ price ∉ prices levels := by
  rw [← lotsAt_ne_nil, not_not]

theorem lotsAt_sublist : (lotsAt levels price).Sublist (flat levels) := by
  induction levels with
  | nil => exact .refl _
  | cons level worse ih =>
    rw [flat_cons, lotsAt]
    split
    · exact List.sublist_append_left ..
    · exact ih.trans (List.sublist_append_right ..)

theorem mem_flat_of_lotsAt {lot : Lot Tag} (member : lot ∈ lotsAt levels price) :
    lot ∈ flat levels := lotsAt_sublist.subset member

/-- If a key tells the lots of a ladder apart, it tells those at two prices apart. -/
theorem lotsAt_disjoint {Key : Type} {key : Lot Tag → Key} (nodup : ((flat levels).map key).Nodup)
    (different : price ≠ other) {lot lot' : Lot Tag} (here : lot ∈ lotsAt levels price)
    (there : lot' ∈ lotsAt levels other) : key lot ≠ key lot' := by
  induction levels with
  | nil => exact absurd here List.not_mem_nil
  | cons level worse ih =>
    rw [flat_cons, List.map_append, List.nodup_append] at nodup
    obtain ⟨-, rest, apart⟩ := nodup
    by_cases first : level.price = price
    · subst first
      rw [lotsAt_self] at here
      rw [lotsAt_of_ne different] at there
      exact apart _ (List.mem_map_of_mem here) _ (List.mem_map_of_mem (mem_flat_of_lotsAt there))
    · rw [lotsAt_of_ne first] at here
      by_cases second : level.price = other
      · subst second
        rw [lotsAt_self] at there
        exact (apart _ (List.mem_map_of_mem there) _
          (List.mem_map_of_mem (mem_flat_of_lotsAt here))).symm
      · rw [lotsAt_of_ne second] at there
        exact ih rest here there

variable [IsStrictTotalOrder Price better]

variable (better) in
/-- A ladder whose prices are all worse has nothing at a price. -/
theorem lotsAt_eq_nil_of_better (ahead : ∀ worse ∈ prices levels, better price worse) :
    lotsAt levels price = [] :=
  lotsAt_eq_nil.mpr fun member => irrefl_of better price (ahead price member)

theorem Sorted.lotsAt_tail (sorted : Sorted better (level :: worse)) :
    lotsAt worse level.price = [] :=
  lotsAt_eq_nil_of_better better (List.pairwise_cons.mp sorted).1

omit [DecidableEq Price] in
theorem Sorted.nodup (sorted : Sorted better levels) : (prices levels).Nodup := by
  refine List.Pairwise.imp (fun {price other} less same => ?_) sorted
  subst same
  exact irrefl_of better price less

/-- A level of a sorted ladder is what the ladder holds at its price. -/
theorem Sorted.lotsAt_level (sorted : Sorted better levels) (member : level ∈ levels) :
    lotsAt levels level.price = level.lots := by
  induction levels with
  | nil => exact absurd member List.not_mem_nil
  | cons head worse ih =>
    obtain ⟨ahead, rest⟩ := List.pairwise_cons.mp sorted
    rcases List.mem_cons.mp member with rfl | behind
    · exact lotsAt_self
    · rw [lotsAt_of_ne, ih rest behind]
      intro same
      exact irrefl_of better head.price
        (same ▸ ahead level.price (List.mem_map_of_mem behind))

/-- Two ladders that hold the same at the head price of the first do not start below it. -/
theorem head_not_better {level' : Level Price Tag} {worse' : List (Level Price Tag)}
    (ahead : ∀ price ∈ prices worse', better level'.price price)
    (same : lotsAt (level :: worse) level.price = lotsAt (level' :: worse') level.price) :
    ¬ better level.price level'.price := by
  intro sooner
  rw [lotsAt_self, lotsAt_eq_nil_of_better better] at same
  · exact level.inhabited same
  · intro price member
    rcases List.mem_cons.mp member with rfl | behind
    · exact sooner
    · exact trans_of better sooner (ahead price behind)

/-- **A sorted ladder is determined by what it holds at each price.** -/
theorem ladder_ext {first second : List (Level Price Tag)} (one : Sorted better first)
    (two : Sorted better second) (same : ∀ price, lotsAt first price = lotsAt second price) :
    first = second := by
  induction first generalizing second with
  | nil =>
    cases second with
    | nil => rfl
    | cons level worse =>
      have := same level.price
      rw [lotsAt_self] at this
      exact absurd this.symm level.inhabited
  | cons level worse ih =>
    cases second with
    | nil =>
      have := same level.price
      rw [lotsAt_self] at this
      exact absurd this level.inhabited
    | cons level' worse' =>
      obtain ⟨ahead, rest⟩ := List.pairwise_cons.mp one
      obtain ⟨ahead', rest'⟩ := List.pairwise_cons.mp two
      have heads : level.price = level'.price := by
        rcases trichotomous_of better level.price level'.price with sooner | equal | later
        · exact absurd sooner (head_not_better ahead' (same level.price))
        · exact equal
        · exact absurd later (head_not_better ahead (same level'.price).symm)
      have lots : level.lots = level'.lots := by
        have := same level.price
        rwa [lotsAt_self, heads, lotsAt_self] at this
      rw [Level.ext heads lots, ih rest rest']
      intro price
      by_cases here : level.price = price
      · subst here
        rw [one.lotsAt_tail, heads, two.lotsAt_tail]
      · have := same price
        rwa [lotsAt_of_ne here, lotsAt_of_ne (heads ▸ here)] at this

end Holding

/-! ### Resting -/

section Resting

variable [DecidableEq Price] {better : Price → Price → Prop} [DecidableRel better]
  {price : Price} {lot : Lot Tag} {levels : List (Level Price Tag)}

theorem mem_prices_rest {other : Price} :
    other ∈ prices (rest better price lot levels) ↔ other = price ∨ other ∈ prices levels := by
  induction levels with
  | nil => exact List.mem_singleton.trans (or_iff_left List.not_mem_nil).symm
  | cons level worse ih =>
    rw [rest]
    split
    · next same => simp only [prices_cons, List.mem_cons, same, or_self_left]
    · split
      · simp only [prices_cons, List.mem_cons]
      · simp only [prices_cons, List.mem_cons, ih]
        exact or_left_comm

variable (better price lot levels) in
theorem perm_flat_rest : (flat (rest better price lot levels)).Perm (lot :: flat levels) := by
  induction levels with
  | nil => exact .refl _
  | cons level worse ih =>
    rw [rest]
    split
    · simp only [flat_cons, List.append_assoc, List.singleton_append]
      exact List.perm_middle
    · split
      · exact .refl _
      · rw [flat_cons, flat_cons]
        exact (ih.append_left _).trans List.perm_middle

variable [IsStrictTotalOrder Price better]

theorem Sorted.rest (sorted : Sorted better levels) :
    Sorted better (rest better price lot levels) := by
  induction levels with
  | nil => exact List.pairwise_singleton _ _
  | cons level worse ih =>
    obtain ⟨ahead, tail⟩ := List.pairwise_cons.mp sorted
    rw [Ladder.rest]
    split
    · next same =>
      subst same
      exact sorted
    · next different =>
      split
      · next sooner =>
        refine List.pairwise_cons.mpr ⟨fun other member => ?_, sorted⟩
        rcases List.mem_cons.mp member with rfl | behind
        · exact sooner
        · exact trans_of better sooner (ahead other behind)
      · next later =>
        refine List.pairwise_cons.mpr ⟨fun other member => ?_, ih tail⟩
        rcases mem_prices_rest.mp member with rfl | behind
        · rcases trichotomous_of better level.price other with sooner | equal | behind
          · exact sooner
          · exact absurd equal.symm different
          · exact absurd behind later
        · exact ahead other behind

/-- **A new lot goes behind those at its price**, and changes nothing at other prices. -/
theorem lotsAt_rest (sorted : Sorted better levels) (other : Price) :
    lotsAt (Ladder.rest better price lot levels) other =
      if other = price then lotsAt levels price ++ [lot] else lotsAt levels other := by
  induction levels with
  | nil =>
    by_cases same : other = price
    · rw [if_pos same, same]
      exact if_pos rfl
    · rw [if_neg same]
      exact if_neg (Ne.symm same)
  | cons level worse ih =>
    obtain ⟨ahead, tail⟩ := List.pairwise_cons.mp sorted
    rw [Ladder.rest]
    split
    · next same =>
      subst same
      simp only [lotsAt, if_true]
      by_cases here : other = level.price
      · rw [if_pos here.symm, if_pos here]
      · rw [if_neg (Ne.symm here), if_neg here, if_neg (Ne.symm here)]
    · next different =>
      split
      · next sooner =>
        by_cases here : other = price
        · subst here
          rw [if_pos rfl, lotsAt, if_pos rfl, lotsAt_eq_nil_of_better better]
          · rfl
          · intro worse' member
            rcases List.mem_cons.mp member with rfl | behind
            · exact sooner
            · exact trans_of better sooner (ahead worse' behind)
        · rw [if_neg here, lotsAt, if_neg (Ne.symm here)]
      · simp only [lotsAt, ih tail, if_neg (Ne.symm different)]
        by_cases here : level.price = other
        · rw [if_pos here, if_neg (fun same => different (same.symm.trans here.symm)), if_pos here]
        · rw [if_neg here, if_neg here]

end Resting

/-! ### Withdrawing -/

section Withdrawing

variable {gone : Tag → Bool} {levels : List (Level Price Tag)}

theorem prices_withdraw : (prices (withdraw gone levels)).Sublist (prices levels) := by
  induction levels with
  | nil => exact .refl _
  | cons level worse ih =>
    rw [withdraw]
    split
    · exact ih.cons _
    · exact ih.cons_cons _

theorem Sorted.withdraw {better : Price → Price → Prop} (sorted : Sorted better levels) :
    Sorted better (withdraw gone levels) :=
  List.Pairwise.sublist prices_withdraw sorted

theorem flat_withdraw : flat (withdraw gone levels) = keep gone (flat levels) := by
  induction levels with
  | nil => rfl
  | cons level worse ih =>
    rw [withdraw, flat_cons, keep_append, ← ih]
    split
    · next left => rw [left, List.nil_append]
    · rfl

theorem withdraw_eq_self (staying : ∀ lot ∈ flat levels, gone lot.tag = false) :
    withdraw gone levels = levels := by
  induction levels with
  | nil => rfl
  | cons level worse ih =>
    have here : keep gone level.lots = level.lots :=
      keep_eq_self fun lot member => staying lot (List.mem_append_left _ member)
    rw [withdraw, dif_neg (by rw [here]; exact level.inhabited),
      ih fun lot member => staying lot (List.mem_append_right _ member)]
    exact congrArg (· :: worse) (Level.ext rfl here)

/-- **Withdrawing acts on each price by itself.** -/
theorem lotsAt_withdraw [DecidableEq Price] {better : Price → Price → Prop}
    [IsStrictTotalOrder Price better] (sorted : Sorted better levels) (price : Price) :
    lotsAt (Ladder.withdraw gone levels) price = keep gone (lotsAt levels price) := by
  induction levels with
  | nil => rfl
  | cons level worse ih =>
    have tail := (List.pairwise_cons.mp sorted).2
    by_cases here : level.price = price
    · subst here
      rw [Ladder.withdraw, lotsAt_self]
      split
      · next left => rw [left, ih tail, sorted.lotsAt_tail]; rfl
      · exact lotsAt_self
    · rw [lotsAt_of_ne here, ← ih tail, Ladder.withdraw]
      split
      · rfl
      · exact lotsAt_of_ne here

end Withdrawing

/-! ### Sweeping -/

section Sweeping

variable {reach : Price → Bool} {amount : Nat} {level : Level Price Tag}
  {levels worse : List (Level Price Tag)}

theorem sweep_stop (out : reach level.price = false) :
    sweep reach amount (level :: worse) = level :: worse := by
  rw [sweep, if_neg (by rw [out]; exact Bool.false_ne_true)]

theorem sweep_part (within : reach level.price = true) (left : fill amount level.lots ≠ []) :
    sweep reach amount (level :: worse) = ⟨level.price, fill amount level.lots, left⟩ :: worse := by
  rw [sweep, if_pos within, dif_neg left]

theorem sweep_whole (within : reach level.price = true) (emptied : fill amount level.lots = []) :
    sweep reach amount (level :: worse) = sweep reach (amount - total level.lots) worse := by
  rw [sweep, if_pos within, dif_pos emptied]

/-- Nothing is swept from a ladder whose best price is out of reach. -/
theorem sweep_eq_self (out : ∀ price ∈ prices levels, reach price = false) :
    sweep reach amount levels = levels := by
  cases levels with
  | nil => rfl
  | cons level worse => exact sweep_stop (out level.price List.mem_cons_self)

@[simp] theorem sweep_zero (levels : List (Level Price Tag)) : sweep reach 0 levels = levels := by
  cases levels with
  | nil => rfl
  | cons level worse =>
    cases within : reach level.price with
    | false => exact sweep_stop within
    | true =>
      rw [sweep_part within (by rw [fill_zero]; exact level.inhabited)]
      exact congrArg (· :: worse) (Level.ext rfl (fill_zero _))

@[simp] theorem closed_zero (levels : List (Level Price Tag)) : closed reach 0 levels = [] := by
  induction levels with
  | nil => rfl
  | cons level worse ih =>
    rw [closed, spent_zero, Nat.zero_sub, ih]
    exact ite_self _

theorem prices_sweep : (prices (sweep reach amount levels)).Sublist (prices levels) := by
  induction levels generalizing amount with
  | nil => exact .refl _
  | cons level worse ih =>
    rw [sweep]
    split
    · split
      · exact ih.cons _
      · exact .refl _
    · exact .refl _

theorem Sorted.sweep {better : Price → Price → Prop} (sorted : Sorted better levels) :
    Sorted better (sweep reach amount levels) :=
  List.Pairwise.sublist prices_sweep sorted

/-- **Sweeping is serving the flat line**, up to the liquidity in reach. -/
theorem flat_sweep :
    flat (sweep reach amount levels) = fill (min amount (liquidity reach levels)) (flat levels) := by
  induction levels generalizing amount with
  | nil => rfl
  | cons level worse ih =>
    cases within : reach level.price with
    | false =>
      rw [sweep_stop within, liquidity, if_neg (by rw [within]; exact Bool.false_ne_true),
        Nat.min_zero, fill_zero]
    | true =>
      rw [liquidity, if_pos within, flat_cons, fill_append]
      by_cases emptied : fill amount level.lots = []
      · have enough := fill_eq_nil.mp emptied
        have whole : fill (min amount (total level.lots + liquidity reach worse)) level.lots = [] :=
          fill_eq_nil.mpr (by omega)
        have left : min amount (total level.lots + liquidity reach worse) - total level.lots =
            min (amount - total level.lots) (liquidity reach worse) := by omega
        rw [sweep_whole within emptied, ih, whole, left, List.nil_append]
      · have short : amount < total level.lots :=
          Nat.lt_of_not_le fun enough => emptied (fill_eq_nil.mpr enough)
        rw [sweep_part within emptied, flat_cons,
          Nat.min_eq_left (Nat.le_add_right_of_le (Nat.le_of_lt short)),
          Nat.sub_eq_zero_of_le (Nat.le_of_lt short), fill_zero]

theorem closed_eq :
    closed reach amount levels = spent (min amount (liquidity reach levels)) (flat levels) := by
  induction levels generalizing amount with
  | nil => rfl
  | cons level worse ih =>
    cases within : reach level.price with
    | false =>
      rw [closed, liquidity, if_neg (by rw [within]; exact Bool.false_ne_true),
        if_neg (by rw [within]; exact Bool.false_ne_true), Nat.min_zero, spent_zero]
    | true =>
      rw [closed, liquidity, if_pos within, if_pos within, flat_cons, spent_append, ih]
      have left : min amount (total level.lots + liquidity reach worse) - total level.lots =
          min (amount - total level.lots) (liquidity reach worse) := by omega
      rw [left]
      by_cases short : amount < total level.lots
      · have taken : min amount (total level.lots + liquidity reach worse) = amount := by omega
        rw [taken]
      · have whole : total level.lots ≤ min amount (total level.lots + liquidity reach worse) := by
          omega
        rw [spent_all (Nat.not_lt.mp short), spent_all whole]

theorem liquidity_le_total : liquidity reach levels ≤ total (flat levels) := by
  induction levels with
  | nil => exact Nat.le_refl _
  | cons level worse ih =>
    rw [liquidity, flat_cons, total_append]
    split
    · exact Nat.add_le_add_left ih _
    · exact Nat.zero_le _

/-- **The liquidity is what the levels in reach hold.** -/
theorem liquidity_eq {better : Price → Price → Prop} (sorted : Sorted better levels)
    (monotone : ∀ {near far}, better near far → reach far = true → reach near = true) :
    liquidity reach levels = total (flat (levels.filter fun level => reach level.price)) := by
  induction levels with
  | nil => rfl
  | cons level worse ih =>
    obtain ⟨ahead, tail⟩ := List.pairwise_cons.mp sorted
    rw [liquidity]
    split
    · next within => rw [List.filter_cons, if_pos within, flat_cons, total_append, ih tail]
    · next out =>
      have unreached : (level :: worse).filter (fun level => reach level.price) = [] := by
        refine List.filter_eq_nil_iff.mpr fun other member within => out ?_
        rcases List.mem_cons.mp member with rfl | behind
        · exact within
        · exact monotone (ahead other.price (List.mem_map_of_mem behind)) within
      rw [unreached, flat_nil, total_nil]

/-- **After a sweep that was not satisfied, no price in reach is left.** -/
theorem out_of_sweep {better : Price → Price → Prop} (sorted : Sorted better levels)
    (monotone : ∀ {near far}, better near far → reach far = true → reach near = true)
    (unsatisfied : liquidity reach levels ≤ amount) :
    ∀ price ∈ prices (sweep reach amount levels), reach price = false := by
  induction levels generalizing amount with
  | nil => exact fun _ member => absurd member List.not_mem_nil
  | cons level worse ih =>
    obtain ⟨ahead, tail⟩ := List.pairwise_cons.mp sorted
    cases within : reach level.price with
    | false =>
      rw [sweep_stop within]
      intro price member
      rcases List.mem_cons.mp member with rfl | behind
      · exact within
      · cases far : reach price with
        | false => rfl
        | true =>
          have near := monotone (ahead price behind) far
          exact absurd (within.symm.trans near) Bool.false_ne_true
    | true =>
      rw [liquidity, if_pos within] at unsatisfied
      rw [sweep_whole within (fill_eq_nil.mpr (by omega))]
      exact ih tail (by omega)

end Sweeping

end Ladder

end TradingExchange
