/-
**How the operations of a ladder commute.**

* `Level.map` changes the prices and the tags of a ladder. The operations follow it as long as the
  change of prices respects order and reach (`rest_map`, `sweep_map`, `withdraw_map`), so a ladder
  may be relabelled, and turned upside down.
* `sweep_sweep`: sweeping in two parts is sweeping the sum, and consumes the same lots in the same
  order (`closed_add`).
* `lotsAt_sweep` says what a sweep does at one price: it serves the line there, and it serves
  anything only if every better price is empty after it. So price and time give priority
  (`ahead_of_touched`).
* `sweep_withdraw`: lots that a sweep does not touch may be withdrawn before it or after it, and the
  same quantity is taken. `rest_withdraw` is the same for resting.
-/

import Mathlib.Order.Defs.Unbundled
import TradingExchange.Library.Ladder

namespace TradingExchange

open Lots

variable {Price Price' Tag Tag' : Type}

/-- A level with its price and its tags changed. -/
def Level.map (translate : Price → Price') (label : Tag → Tag') (level : Level Price Tag) :
    Level Price' Tag' :=
  ⟨translate level.price, level.lots.map (Lot.relabel label), fun empty =>
    level.inhabited (List.map_eq_nil_iff.mp empty)⟩

namespace Ladder

/-! ### Changing prices and tags -/

section Map

variable {translate : Price → Price'} {label : Tag → Tag'} {levels worse : List (Level Price Tag)}
  {level : Level Price Tag}

theorem prices_map :
    prices (levels.map (Level.map translate label)) = (prices levels).map translate := by
  rw [prices, prices, List.map_map, List.map_map]
  rfl

theorem flat_map :
    flat (levels.map (Level.map translate label)) = (flat levels).map (Lot.relabel label) := by
  rw [flat, flat, List.flatMap_map, List.map_flatMap]
  rfl

theorem lotsAt_map [DecidableEq Price] [DecidableEq Price']
    (injective : Function.Injective translate) (price : Price) :
    lotsAt (levels.map (Level.map translate label)) (translate price) =
      (lotsAt levels price).map (Lot.relabel label) := by
  induction levels with
  | nil => rfl
  | cons level worse ih =>
    by_cases here : level.price = price
    · subst here
      rw [lotsAt_self]
      exact lotsAt_self
    · rw [lotsAt_of_ne here, ← ih]
      exact lotsAt_of_ne fun same => here (injective same)

theorem Sorted.map {better : Price → Price → Prop} {better' : Price' → Price' → Prop}
    (keeps : ∀ price other, better price other → better' (translate price) (translate other))
    (sorted : Sorted better levels) : Sorted better' (levels.map (Level.map translate label)) := by
  rw [Sorted, prices_map, List.pairwise_map]
  exact sorted.imp (keeps _ _)

theorem rest_map [DecidableEq Price] [DecidableEq Price'] {better : Price → Price → Prop}
    {better' : Price' → Price' → Prop} [DecidableRel better] [DecidableRel better']
    (injective : Function.Injective translate)
    (keeps : ∀ price other, better' (translate price) (translate other) ↔ better price other)
    (price : Price) (lot : Lot Tag) :
    rest better' (translate price) (lot.relabel label) (levels.map (Level.map translate label)) =
      (rest better price lot levels).map (Level.map translate label) := by
  induction levels with
  | nil => rfl
  | cons level worse ih =>
    rw [List.map_cons, rest, rest]
    simp only [Level.map, injective.eq_iff, keeps]
    split
    · refine congrArg (· :: _) (Level.ext rfl ?_)
      simp only [Level.map, List.map_append, List.map_cons, List.map_nil]
    · split
      · rfl
      · exact congrArg (_ :: ·) ih

variable {reach : Price → Bool} {reach' : Price' → Bool}

theorem sweep_map (keeps : ∀ price, reach' (translate price) = reach price) (amount : Nat) :
    sweep reach' amount (levels.map (Level.map translate label)) =
      (sweep reach amount levels).map (Level.map translate label) := by
  induction levels generalizing amount with
  | nil => rfl
  | cons level worse ih =>
    have served : fill amount (level.map translate label).lots =
        (fill amount level.lots).map (Lot.relabel label) := fill_relabel ..
    rw [List.map_cons]
    cases within : reach level.price with
    | false =>
      rw [sweep_stop within, sweep_stop ((keeps _).trans within)]
      rfl
    | true =>
      have within' := (keeps level.price).trans within
      by_cases emptied : fill amount level.lots = []
      · rw [sweep_whole within emptied, sweep_whole within' (by rw [served, emptied]; rfl), ← ih]
        exact congrArg (fun all => sweep reach' (amount - all) _) (total_relabel _)
      · rw [sweep_part within emptied, sweep_part within' fun empty => emptied
          (List.map_eq_nil_iff.mp (served.symm.trans empty))]
        exact congrArg (· :: _) (Level.ext rfl served)

theorem closed_map (keeps : ∀ price, reach' (translate price) = reach price) (amount : Nat) :
    closed reach' amount (levels.map (Level.map translate label)) =
      (closed reach amount levels).map label := by
  induction levels generalizing amount with
  | nil => rfl
  | cons level worse ih =>
    rw [List.map_cons, closed, closed]
    simp only [Level.map, keeps, total_relabel, spent_relabel, ih]
    split
    · exact List.map_append.symm
    · rfl

theorem liquidity_map (keeps : ∀ price, reach' (translate price) = reach price) :
    liquidity reach' (levels.map (Level.map translate label)) = liquidity reach levels := by
  induction levels with
  | nil => rfl
  | cons level worse ih =>
    rw [List.map_cons, liquidity, liquidity]
    simp only [Level.map, keeps, total_relabel, ih]

theorem withdraw_map {gone : Tag → Bool} {gone' : Tag' → Bool}
    (keeps : ∀ lot ∈ flat levels, gone' (label lot.tag) = gone lot.tag) :
    withdraw gone' (levels.map (Level.map translate label)) =
      (withdraw gone levels).map (Level.map translate label) := by
  induction levels with
  | nil => rfl
  | cons level worse ih =>
    have kept : keep gone' (level.map translate label).lots =
        (keep gone level.lots).map (Lot.relabel label) := by
      rw [keep, keep, Level.map, List.filter_map]
      refine congrArg _ (List.filter_congr fun lot member => ?_)
      exact congrArg (!·) (keeps lot (List.mem_append_left _ member))
    have rest := ih fun lot member => keeps lot (List.mem_append_right _ member)
    rw [List.map_cons, withdraw, withdraw]
    by_cases left : keep gone level.lots = []
    · rw [dif_pos left, dif_pos (by rw [kept, left]; rfl), rest]
    · rw [dif_neg left, dif_neg (by rwa [kept, List.map_eq_nil_iff]), rest]
      exact congrArg (· :: _) (Level.ext rfl kept)

end Map

/-! ### What a sweep can reach -/

section Reach

variable {reach : Price → Bool}

theorem liquidity_eq_takeWhile (levels : List (Level Price Tag)) :
    liquidity reach levels = total (flat (levels.takeWhile fun level => reach level.price)) := by
  induction levels with
  | nil => rfl
  | cons level worse ih =>
    rw [liquidity, List.takeWhile_cons]
    split
    · rw [flat_cons, total_append, ih]
    · rfl

/-- **A sweep serves the levels in reach as one line**, and nothing behind them. -/
theorem flat_sweep_takeWhile (amount : Nat) (levels : List (Level Price Tag)) :
    flat (sweep reach amount levels) =
      fill amount (flat (levels.takeWhile fun level => reach level.price)) ++
        flat (levels.dropWhile fun level => reach level.price) := by
  have parts : flat levels = flat (levels.takeWhile fun level => reach level.price) ++
      flat (levels.dropWhile fun level => reach level.price) := by
    rw [← flat_append, List.takeWhile_append_dropWhile]
  rw [flat_sweep, liquidity_eq_takeWhile, parts, fill_append, fill_min,
    Nat.sub_eq_zero_of_le (Nat.min_le_right ..), fill_zero]

theorem closed_eq_takeWhile (amount : Nat) (levels : List (Level Price Tag)) :
    closed reach amount levels =
      spent amount (flat (levels.takeWhile fun level => reach level.price)) := by
  have parts : flat levels = flat (levels.takeWhile fun level => reach level.price) ++
      flat (levels.dropWhile fun level => reach level.price) := by
    rw [← flat_append, List.takeWhile_append_dropWhile]
  rw [closed_eq, liquidity_eq_takeWhile, parts, spent_append, spent_min,
    Nat.sub_eq_zero_of_le (Nat.min_le_right ..), spent_zero, List.append_nil]

/-- What is behind the reach is out of reach. -/
theorem out_of_dropWhile {better : Price → Price → Prop} {levels : List (Level Price Tag)}
    (sorted : Sorted better levels)
    (monotone : ∀ {near far}, better near far → reach far = true → reach near = true) :
    ∀ level ∈ levels.dropWhile (fun level => reach level.price), reach level.price = false := by
  induction levels with
  | nil => exact fun _ member => absurd member List.not_mem_nil
  | cons head worse ih =>
    obtain ⟨ahead, tail⟩ := List.pairwise_cons.mp sorted
    rw [List.dropWhile_cons]
    split
    · exact ih tail
    · next out =>
      have within : reach head.price = false := Bool.eq_false_iff.mpr out
      intro level member
      rcases List.mem_cons.mp member with rfl | behind
      · exact within
      · refine Bool.eq_false_iff.mpr fun far => ?_
        have near := monotone (ahead level.price (List.mem_map_of_mem behind)) far
        exact Bool.false_ne_true (within.symm.trans near)

end Reach

/-! ### Sweeping in parts -/

section Parts

variable {reach : Price → Bool} {levels : List (Level Price Tag)}

/-- **Sweeping in two parts is sweeping the sum.** -/
theorem sweep_sweep (amount more : Nat) (levels : List (Level Price Tag)) :
    sweep reach more (sweep reach amount levels) = sweep reach (amount + more) levels := by
  induction levels generalizing amount with
  | nil => rfl
  | cons level worse ih =>
    cases within : reach level.price with
    | false => rw [sweep_stop within, sweep_stop within, sweep_stop within]
    | true =>
      by_cases emptied : fill amount level.lots = []
      · have enough := fill_eq_nil.mp emptied
        have left : amount + more - total level.lots = amount - total level.lots + more := by omega
        rw [sweep_whole within emptied, ih, sweep_whole within (fill_eq_nil.mpr (by omega)), left]
      · let served : Level Price Tag := ⟨level.price, fill amount level.lots, emptied⟩
        have inside : reach served.price = true := within
        have both : fill more served.lots = fill (amount + more) level.lots := fill_fill ..
        rw [sweep_part within emptied]
        by_cases all : fill (amount + more) level.lots = []
        · have short : amount < total level.lots :=
            Nat.lt_of_not_le fun enough => emptied (fill_eq_nil.mpr enough)
          have left : total served.lots = total level.lots - amount := total_fill ..
          rw [sweep_whole inside (both.trans all), sweep_whole within all, left]
          exact congrArg (sweep reach · worse) (by omega)
        · rw [sweep_part inside fun empty => all (both.symm.trans empty), sweep_part within all]
          exact congrArg (· :: worse) (Level.ext rfl both)

theorem liquidity_sweep (amount : Nat) (levels : List (Level Price Tag)) :
    liquidity reach (sweep reach amount levels) = liquidity reach levels - amount := by
  induction levels generalizing amount with
  | nil => exact (Nat.zero_sub amount).symm
  | cons level worse ih =>
    cases within : reach level.price with
    | false =>
      rw [sweep_stop within, liquidity, if_neg (by rw [within]; exact Bool.false_ne_true),
        Nat.zero_sub]
    | true =>
      rw [liquidity, if_pos within]
      by_cases emptied : fill amount level.lots = []
      · have enough := fill_eq_nil.mp emptied
        rw [sweep_whole within emptied, ih]
        omega
      · have short : amount < total level.lots :=
          Nat.lt_of_not_le fun enough => emptied (fill_eq_nil.mpr enough)
        rw [sweep_part within emptied, liquidity, if_pos within, total_fill]
        omega

theorem closed_add (amount more : Nat) (levels : List (Level Price Tag)) :
    closed reach (amount + more) levels =
      closed reach amount levels ++ closed reach more (sweep reach amount levels) := by
  have parts : min (amount + more) (liquidity reach levels) =
      min amount (liquidity reach levels) + min more (liquidity reach levels - amount) := by omega
  rw [closed_eq, closed_eq, closed_eq, liquidity_sweep, flat_sweep, parts, spent_add]

end Parts

/-! ### Sweeps with different reach -/

section Reaches

variable {reach reach' : Price → Bool} {levels : List (Level Price Tag)}

/-- **Every sweep is a sweep of everything**, by what it takes. -/
theorem sweep_eq_all (reach : Price → Bool) (amount : Nat) (levels : List (Level Price Tag)) :
    sweep reach amount levels = sweep (fun _ => true) (min amount (liquidity reach levels)) levels := by
  induction levels generalizing amount with
  | nil => rfl
  | cons level worse ih =>
    rw [liquidity]
    cases within : reach level.price with
    | false => rw [sweep_stop within, if_neg Bool.false_ne_true, Nat.min_zero, sweep_zero]
    | true =>
      rw [if_pos rfl]
      by_cases emptied : fill amount level.lots = []
      · have enough := fill_eq_nil.mp emptied
        have left : min amount (total level.lots + liquidity reach worse) - total level.lots =
            min (amount - total level.lots) (liquidity reach worse) := by omega
        rw [sweep_whole within emptied, ih, sweep_whole rfl (fill_eq_nil.mpr (by omega)), left]
      · have short : amount < total level.lots :=
          Nat.lt_of_not_le fun enough => emptied (fill_eq_nil.mpr enough)
        rw [sweep_part within emptied, Nat.min_eq_left (by omega), sweep_part rfl emptied]

/-- What a sweep of everything leaves in reach. -/
theorem liquidity_sweep_all {better : Price → Price → Prop} (sorted : Sorted better levels)
    (monotone : ∀ {near far}, better near far → reach far = true → reach near = true)
    (amount : Nat) : liquidity reach (sweep (fun _ => true) amount levels) =
      liquidity reach levels - amount := by
  induction levels generalizing amount with
  | nil => exact (Nat.zero_sub amount).symm
  | cons level worse ih =>
    have tail := (List.pairwise_cons.mp sorted).2
    by_cases emptied : fill amount level.lots = []
    · have enough := fill_eq_nil.mp emptied
      rw [sweep_whole rfl emptied, ih tail, liquidity]
      split
      · omega
      · next out =>
        have nothing : liquidity reach worse = 0 := by
          have all := liquidity_eq sorted monotone
          rw [liquidity, if_neg out] at all
          have rest := liquidity_eq tail monotone
          rw [List.filter_cons, if_neg out, ← rest] at all
          exact all.symm
        omega
    · have short : amount < total level.lots :=
        Nat.lt_of_not_le fun enough => emptied (fill_eq_nil.mpr enough)
      rw [sweep_part rfl emptied, liquidity, liquidity, total_fill]
      split <;> omega

theorem liquidity_le (further : ∀ price, reach price = true → reach' price = true)
    (levels : List (Level Price Tag)) : liquidity reach levels ≤ liquidity reach' levels := by
  induction levels with
  | nil => exact Nat.le_refl _
  | cons level worse ih =>
    rw [liquidity]
    split
    · next within =>
      rw [liquidity, if_pos (further _ within)]
      exact Nat.add_le_add_left ih _
    · exact Nat.zero_le _

/-- **A sweep that takes more and reaches further keeps ahead**: what it leaves of a ladder that is
ahead already is swept from what the other leaves. -/
theorem sweep_ahead {better : Price → Price → Prop} (sorted : Sorted better levels)
    (monotone : ∀ {near far}, better near far → reach' far = true → reach' near = true)
    (further : ∀ price, reach price = true → reach' price = true) {amount amount' : Nat}
    (more : amount ≤ amount') (taken : Nat) :
    ∃ taken', sweep reach' amount' (sweep (fun _ => true) taken levels) =
      sweep (fun _ => true) taken' (sweep reach amount levels) := by
  have reached := liquidity_le further levels
  refine ⟨taken + min amount' (liquidity reach' levels - taken) - min amount (liquidity reach levels),
    ?_⟩
  rw [sweep_eq_all reach', liquidity_sweep_all sorted monotone, sweep_eq_all reach, sweep_sweep,
    sweep_sweep]
  congr 1
  omega

end Reaches

/-! ### One price of a sweep -/

section Prices

variable [DecidableEq Price] {better : Price → Price → Prop} [IsStrictTotalOrder Price better]
  {reach : Price → Bool} {levels : List (Level Price Tag)}

/-- **A sweep serves a line only when every better price is empty.** -/
theorem lotsAt_sweep (reach : Price → Bool) (sorted : Sorted better levels) (amount : Nat)
    (price : Price) :
    ∃ served, lotsAt (sweep reach amount levels) price = fill served (lotsAt levels price) ∧
      (0 < served → reach price = true ∧
        ∀ other, better other price → lotsAt (sweep reach amount levels) other = []) := by
  induction levels generalizing amount with
  | nil => exact ⟨0, rfl, fun positive => absurd positive (Nat.lt_irrefl 0)⟩
  | cons level worse ih =>
    obtain ⟨ahead, tail⟩ := List.pairwise_cons.mp sorted
    have nothing : ∀ other, better other level.price → ∀ {levels : List (Level Price Tag)},
        (prices levels).Sublist (prices worse) → lotsAt levels other = [] := by
      intro other sooner levels within
      exact lotsAt_eq_nil_of_better better fun price member =>
        trans_of better sooner (ahead price (within.subset member))
    cases within : reach level.price with
    | false =>
      exact ⟨0, by rw [sweep_stop within, fill_zero],
        fun positive => absurd positive (Nat.lt_irrefl 0)⟩
    | true =>
      by_cases emptied : fill amount level.lots = []
      · rw [sweep_whole within emptied]
        by_cases here : level.price = price
        · subst here
          refine ⟨amount, ?_, fun _ => ⟨within, fun other sooner => nothing other sooner prices_sweep⟩⟩
          rw [lotsAt_self, emptied]
          exact lotsAt_eq_nil_of_better better fun other member =>
            ahead other (prices_sweep.subset member)
        · rw [lotsAt_of_ne here]
          exact ih tail _
      · rw [sweep_part within emptied]
        by_cases here : level.price = price
        · subst here
          refine ⟨amount, by rw [lotsAt_self, lotsAt_self], fun _ => ⟨within, fun other sooner => ?_⟩⟩
          refine (lotsAt_of_ne fun same => ?_).trans (nothing other sooner (.refl _))
          obtain rfl : level.price = other := same
          exact irrefl_of better level.price sooner
        · refine ⟨0, ?_, fun positive => absurd positive (Nat.lt_irrefl 0)⟩
          rw [lotsAt_of_ne here, fill_zero]
          exact lotsAt_of_ne here

/-- **Price and time priority**: a sweep that touches a lot leaves nothing at a better price, and
nothing that was before the lot in its line. -/
theorem ahead_of_touched (sorted : Sorted better levels) {amount : Nat} {price : Price}
    {lot : Lot Tag} {first later : List (Lot Tag)}
    (here : lotsAt levels price = first ++ lot :: later)
    (touched : lot ∉ lotsAt (sweep reach amount levels) price) :
    reach price = true ∧
      (∀ other, better other price → lotsAt (sweep reach amount levels) other = []) ∧
      (tags (lotsAt (sweep reach amount levels) price)).Sublist (tags (lot :: later)) := by
  obtain ⟨served, line, priority⟩ := lotsAt_sweep reach sorted amount price
  rw [here] at line
  have emptied : fill served first = [] := by
    refine fill_of_touched fun
      (same : fill served (first ++ lot :: later) = fill served first ++ lot :: later) => touched ?_
    rw [line, same]
    exact List.mem_append_right _ List.mem_cons_self
  have positive : 0 < served := by
    refine Nat.pos_of_ne_zero fun zero => touched ?_
    rw [line, zero, fill_zero]
    exact List.mem_append_right _ List.mem_cons_self
  refine ⟨(priority positive).1, (priority positive).2, ?_⟩
  rw [line, fill_append, emptied, List.nil_append, tags_eq (served - total first) (lot :: later)]
  exact List.sublist_append_right ..

end Prices

/-! ### Withdrawing -/

section Withdrawing

variable {better : Price → Price → Prop} {reach : Price → Bool} {gone : Tag → Bool} {amount : Nat}
  {levels : List (Level Price Tag)}

theorem withdraw_whole {level : Level Price Tag} (left : keep gone level.lots = []) :
    withdraw gone (level :: levels) = withdraw gone levels := by
  rw [withdraw, dif_pos left]

theorem withdraw_cons {level : Level Price Tag} (left : keep gone level.lots ≠ []) :
    withdraw gone (level :: levels) =
      ⟨level.price, keep gone level.lots, left⟩ :: withdraw gone levels := by
  rw [withdraw, dif_neg left]

/-- A sweep adds to no lot. -/
theorem quantity_sweep_le (mine : Tag → Bool) (reach : Price → Bool) (amount : Nat)
    (levels : List (Level Price Tag)) :
    quantity mine (flat (sweep reach amount levels)) ≤ quantity mine (flat levels) := by
  rw [flat_sweep]
  exact quantity_fill_le ..

/-- With nothing in reach, nothing is swept. -/
theorem sweep_eq_self_of_liquidity (nothing : liquidity reach levels = 0) :
    sweep reach amount levels = levels := by
  cases levels with
  | nil => rfl
  | cons level worse =>
    refine sweep_stop (Bool.eq_false_iff.mpr fun within => ?_)
    have positive := total_pos level.inhabited
    rw [liquidity, if_pos within] at nothing
    omega

/-- **Lots that a sweep does not touch are not missed.** -/
theorem sweep_withdraw (sorted : Sorted better levels)
    (monotone : ∀ {near far}, better near far → reach far = true → reach near = true)
    (untouched : quantity gone (flat (sweep reach amount levels)) = quantity gone (flat levels)) :
    sweep reach amount (withdraw gone levels) = withdraw gone (sweep reach amount levels) ∧
      min amount (liquidity reach (withdraw gone levels)) = min amount (liquidity reach levels) := by
  induction levels generalizing amount with
  | nil => exact ⟨rfl, rfl⟩
  | cons level worse ih =>
    obtain ⟨ahead, tail⟩ := List.pairwise_cons.mp sorted
    cases within : reach level.price with
    | false =>
      -- the best price is out of reach, and so is every other
      have out : ∀ price ∈ prices (withdraw gone (level :: worse)), reach price = false := by
        intro price member
        refine Bool.eq_false_iff.mpr fun near => ?_
        rcases List.mem_cons.mp (prices_withdraw.subset member) with rfl | behind
        · exact absurd (within.symm.trans near) Bool.false_ne_true
        · exact absurd (within.symm.trans (monotone (ahead price behind) near)) Bool.false_ne_true
      have nothing : ∀ levels : List (Level Price Tag),
          (∀ price ∈ prices levels, reach price = false) → liquidity reach levels = 0 := by
        rintro (_ | ⟨level, worse⟩) out
        · rfl
        · rw [liquidity, if_neg (by rw [out _ List.mem_cons_self]; exact Bool.false_ne_true)]
      rw [sweep_stop within, sweep_eq_self out, nothing _ out, liquidity,
        if_neg (by rw [within]; exact Bool.false_ne_true)]
      exact ⟨rfl, rfl⟩
    | true =>
      by_cases emptied : fill amount level.lots = []
      · -- the level is consumed, so it held none of the lots
        rw [sweep_whole within emptied, flat_cons, quantity_append] at untouched
        have less := quantity_sweep_le gone reach (amount - total level.lots) worse
        have others : quantity gone (flat (sweep reach (amount - total level.lots) worse)) =
            quantity gone (flat worse) := by omega
        obtain ⟨same, taken⟩ := ih tail others
        have kept : withdraw gone (level :: worse) = level :: withdraw gone worse := by
          have kept : keep gone level.lots = level.lots := keep_eq_self_of_quantity (by omega)
          rw [withdraw_cons (by rw [kept]; exact level.inhabited)]
          exact congrArg (· :: _) (Level.ext rfl kept)
        have enough := fill_eq_nil.mp emptied
        rw [kept, sweep_whole within emptied, sweep_whole within emptied, same, liquidity,
          liquidity, if_pos within, if_pos within]
        exact ⟨rfl, by omega⟩
      · -- the level is served in part, before it came to the lots
        have short : amount < total level.lots :=
          Nat.lt_of_not_le fun enough => emptied (fill_eq_nil.mpr enough)
        rw [sweep_part within emptied, flat_cons, flat_cons, quantity_append, quantity_append]
          at untouched
        obtain ⟨same, enough⟩ := fill_keep (Nat.add_right_cancel untouched)
        have parts := quantity_add_total_keep gone level.lots
        have enough : amount ≤ total (keep gone level.lots) := by omega
        rw [sweep_part within emptied, liquidity, if_pos within]
        by_cases left : keep gone level.lots = []
        · rw [left, total_nil] at enough
          obtain rfl := Nat.le_zero.mp enough
          rw [withdraw_whole left, withdraw_whole (by rw [same, left]; rfl), sweep_zero]
          exact ⟨rfl, by omega⟩
        · let kept : Level Price Tag := ⟨level.price, keep gone level.lots, left⟩
          have inside : reach kept.price = true := within
          have total_kept : total kept.lots = total (keep gone level.lots) := rfl
          rw [withdraw_cons left, liquidity, if_pos inside, total_kept]
          refine ⟨?_, by omega⟩
          by_cases all : fill amount kept.lots = []
          · have nothing : amount - total kept.lots = 0 := Nat.sub_eq_zero_of_le enough
            rw [withdraw_whole (same.trans all), sweep_whole inside all, nothing, sweep_zero]
          · rw [withdraw_cons (fun empty => all (same.symm.trans empty)), sweep_part inside all]
            exact congrArg (· :: _) (Level.ext rfl same.symm)

variable [DecidableEq Price] [DecidableRel better] [IsStrictTotalOrder Price better]

/-- **Other lots may be withdrawn before a lot is put to rest or after it.** -/
theorem rest_withdraw (sorted : Sorted better levels) (price : Price) {lot : Lot Tag}
    (other : gone lot.tag = false) :
    rest better price lot (withdraw gone levels) = withdraw gone (rest better price lot levels) := by
  refine ladder_ext sorted.withdraw.rest sorted.rest.withdraw fun here => ?_
  rw [lotsAt_rest sorted.withdraw, lotsAt_withdraw sorted, lotsAt_withdraw sorted,
    lotsAt_withdraw sorted.rest, lotsAt_rest sorted, apply_ite (keep gone), keep_append,
    keep_cons_of_not other]
  rfl

/-- **Withdrawing the lot that was put to rest undoes it.** -/
theorem withdraw_rest (sorted : Sorted better levels) (price : Price) {lot : Lot Tag}
    (own : gone lot.tag = true) (absent : ∀ lot ∈ flat levels, gone lot.tag = false) :
    withdraw gone (rest better price lot levels) = levels := by
  refine ladder_ext sorted.rest.withdraw sorted fun here => ?_
  have kept : ∀ price, keep gone (lotsAt levels price) = lotsAt levels price := fun price =>
    keep_eq_self fun lot member => absent lot (mem_flat_of_lotsAt member)
  rw [lotsAt_withdraw sorted.rest, lotsAt_rest sorted]
  split
  · next same => rw [keep_append, keep_cons_of_gone own, kept, same]; exact List.append_nil _
  · exact kept here

omit [DecidableRel better] in
/-- Withdrawals commute. -/
theorem withdraw_comm (sorted : Sorted better levels) (gone' : Tag → Bool) :
    withdraw gone (withdraw gone' levels) = withdraw gone' (withdraw gone levels) := by
  refine ladder_ext sorted.withdraw.withdraw sorted.withdraw.withdraw fun here => ?_
  rw [lotsAt_withdraw sorted.withdraw, lotsAt_withdraw sorted, lotsAt_withdraw sorted.withdraw,
    lotsAt_withdraw sorted, keep, keep, keep, keep, List.filter_comm]

end Withdrawing

end Ladder

end TradingExchange
