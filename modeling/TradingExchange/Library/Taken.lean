/-
**What is taken from each lot.**

Serving takes from the lots of a line one after the other, the whole of each but perhaps the last:
`Lots.taken` lists how much of which, and `Ladder.taken` does so for a sweep.

* `spent_eq`: the lots that are gone are those taken whole;
* `takings_add_quantity`: what is taken from some lots is what they lose;
* `Ladder.taken_eq`: a sweep takes what serving the flat line takes.
-/

import TradingExchange.Library.Ladder

namespace TradingExchange

/-- An amount taken from a lot, and whether it is the whole of it. -/
structure Taken (Tag : Type) where
  tag : Tag
  amount : Nat
  whole : Bool
deriving DecidableEq

variable {Price Tag Other : Type}

namespace Taken

/-- The same under another tag. -/
def relabel (label : Tag → Other) (taken : Taken Tag) : Taken Other :=
  ⟨label taken.tag, taken.amount, taken.whole⟩

end Taken

namespace Lots

/-- What serving `amount` takes from each lot. -/
def taken : Nat → List (Lot Tag) → List (Taken Tag)
  | _, [] => []
  | amount, lot :: later =>
    if amount = 0 then []
    else if amount < lot.size then [⟨lot.tag, amount, false⟩]
    else ⟨lot.tag, lot.size, true⟩ :: taken (amount - lot.size) later

/-- What is taken from the lots whose tag is `mine`. -/
def takings (mine : Tag → Bool) (taken : List (Taken Tag)) : Nat :=
  ((taken.filter fun part => mine part.tag).map Taken.amount).sum

section Taken

variable {mine : Tag → Bool} {amount : Nat} {lot : Lot Tag} {lots later : List (Lot Tag)}

@[simp] theorem taken_zero (lots : List (Lot Tag)) : taken 0 lots = [] := by
  cases lots with
  | nil => rfl
  | cons lot later => rw [taken, if_pos rfl]

theorem taken_short (positive : 0 < amount) (short : amount < lot.size) :
    taken amount (lot :: later) = [⟨lot.tag, amount, false⟩] := by
  rw [taken, if_neg (Nat.ne_of_gt positive), if_pos short]

theorem taken_whole (whole : lot.size ≤ amount) :
    taken amount (lot :: later) = ⟨lot.tag, lot.size, true⟩ :: taken (amount - lot.size) later := by
  have positive : 0 < amount := Nat.lt_of_lt_of_le lot.positive whole
  rw [taken, if_neg (Nat.ne_of_gt positive), if_neg (Nat.not_lt.mpr whole)]

/-- What is taken from the first lot, and from the later ones. -/
theorem taken_cons (positive : 0 < amount) :
    taken amount (lot :: later) =
      ⟨lot.tag, min amount lot.size, decide (lot.size ≤ amount)⟩ ::
        taken (amount - lot.size) later := by
  by_cases short : amount < lot.size
  · rw [taken_short positive short, Nat.sub_eq_zero_of_le (Nat.le_of_lt short), taken_zero,
      Nat.min_eq_left (Nat.le_of_lt short), decide_eq_false (Nat.not_le.mpr short)]
  · have whole := Nat.not_lt.mp short
    rw [taken_whole whole, Nat.min_eq_right whole, decide_eq_true whole]

/-- **The lots that are gone are those taken whole.** -/
theorem spent_eq (amount : Nat) (lots : List (Lot Tag)) :
    spent amount lots = ((taken amount lots).filter Taken.whole).map Taken.tag := by
  induction lots generalizing amount with
  | nil => rfl
  | cons lot later ih =>
    rcases Nat.eq_zero_or_pos amount with rfl | positive
    · rw [spent_zero, taken_zero]
      rfl
    · by_cases short : amount < lot.size
      · rw [spent_short short, taken_short positive short]
        rfl
      · have whole := Nat.not_lt.mp short
        rw [spent_whole whole, taken_whole whole, ih]
        rfl

theorem taken_append (amount : Nat) (first second : List (Lot Tag)) :
    taken amount (first ++ second) = taken amount first ++ taken (amount - total first) second := by
  induction first generalizing amount with
  | nil => rfl
  | cons lot later ih =>
    rw [total_cons, List.cons_append]
    rcases Nat.eq_zero_or_pos amount with rfl | positive
    · rw [taken_zero, taken_zero, Nat.zero_sub, taken_zero]
      rfl
    · by_cases short : amount < lot.size
      · have nothing : amount - (lot.size + total later) = 0 := by omega
        rw [taken_short positive short, taken_short positive short, nothing, taken_zero]
        rfl
      · have whole := Nat.not_lt.mp short
        rw [taken_whole whole, taken_whole whole, ih, Nat.sub_sub]
        rfl

/-- More than everything takes no more. -/
theorem taken_min (amount : Nat) (lots : List (Lot Tag)) :
    taken (min amount (total lots)) lots = taken amount lots := by
  induction lots generalizing amount with
  | nil => rfl
  | cons lot later ih =>
    by_cases short : amount < lot.size
    · rw [total_cons, Nat.min_eq_left (by omega)]
    · have whole := Nat.not_lt.mp short
      have left : min amount (lot.size + total later) - lot.size =
          min (amount - lot.size) (total later) := by omega
      rw [total_cons, taken_whole (by omega), taken_whole whole, left, ih]

theorem takings_cons (part : Taken Tag) (parts : List (Taken Tag)) :
    takings mine (part :: parts) =
      (if mine part.tag = true then part.amount else 0) + takings mine parts := by
  rw [takings, List.filter_cons]
  split
  · exact List.sum_cons
  · exact (Nat.zero_add _).symm

theorem takings_relabel (mine : Other → Bool) (label : Tag → Other) (parts : List (Taken Tag)) :
    takings mine (parts.map (Taken.relabel label)) = takings (mine ∘ label) parts := by
  rw [takings, List.filter_map, List.map_map]
  rfl

/-- **What is taken from some lots is what they lose.** -/
theorem takings_add_quantity (mine : Tag → Bool) (amount : Nat) (lots : List (Lot Tag)) :
    takings mine (taken amount lots) + quantity mine (fill amount lots) = quantity mine lots := by
  induction lots generalizing amount with
  | nil => rfl
  | cons lot later ih =>
    rcases Nat.eq_zero_or_pos amount with rfl | positive
    · rw [taken_zero, fill_zero]
      exact Nat.zero_add _
    · by_cases short : amount < lot.size
      · rw [taken_short positive short, fill_short short, takings_cons, quantity_cons, quantity_cons]
        have nothing : takings mine [] = 0 := rfl
        simp only [nothing]
        split <;> omega
      · have whole := Nat.not_lt.mp short
        have rest := ih (amount - lot.size)
        rw [taken_whole whole, fill_whole whole, takings_cons, quantity_cons]
        simp only
        omega

end Taken

end Lots

namespace Ladder

open Lots

/-- What sweeping `amount` takes from each lot. -/
def taken (reach : Price → Bool) : Nat → List (Level Price Tag) → List (Taken Tag)
  | _, [] => []
  | amount, level :: worse =>
    if reach level.price then
      Lots.taken amount level.lots ++ taken reach (amount - total level.lots) worse
    else []

section Taken

variable {reach : Price → Bool} {amount : Nat} {levels : List (Level Price Tag)}

/-- **A sweep takes what serving the flat line takes**, up to the liquidity in reach. -/
theorem taken_eq : taken reach amount levels =
    Lots.taken (min amount (liquidity reach levels)) (flat levels) := by
  induction levels generalizing amount with
  | nil => rfl
  | cons level worse ih =>
    cases within : reach level.price with
    | false =>
      have out := Bool.eq_false_iff.mp within
      rw [taken, liquidity, if_neg out, if_neg out, Nat.min_zero, taken_zero]
    | true =>
      have left : min amount (total level.lots + liquidity reach worse) - total level.lots =
          min (amount - total level.lots) (liquidity reach worse) := by omega
      have here : Lots.taken (min amount (total level.lots + liquidity reach worse)) level.lots =
          Lots.taken amount level.lots := by
        rw [← taken_min, ← taken_min amount]
        congr 1
        omega
      rw [taken, liquidity, if_pos within, if_pos within, flat_cons, taken_append, ih, left, here]

theorem closed_eq_taken : closed reach amount levels =
    ((taken reach amount levels).filter Taken.whole).map Taken.tag := by
  rw [closed_eq, taken_eq, spent_eq]

/-- **What a sweep takes from some lots is what they lose.** -/
theorem takings_sweep (mine : Tag → Bool) :
    takings mine (taken reach amount levels) +
      quantity mine (flat (sweep reach amount levels)) = quantity mine (flat levels) := by
  rw [taken_eq, flat_sweep, takings_add_quantity]

/-- **A sweep takes its amount, or all that is in reach.** -/
theorem takings_all (amount : Nat) (levels : List (Level Price Tag)) :
    takings (fun _ => true) (taken reach amount levels) = min amount (liquidity reach levels) := by
  have loses : takings (fun _ => true) (taken reach amount levels) + _ = _ :=
    takings_sweep fun _ => true
  have most : liquidity reach levels ≤ total (flat levels) := liquidity_le_total
  rw [quantity_all, quantity_all, flat_sweep, total_fill] at loses
  omega

end Taken

end Ladder

end TradingExchange
