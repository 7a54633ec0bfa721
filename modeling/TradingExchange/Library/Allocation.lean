/-
**Serving a queue in order of cost is optimal.**

Items offer capacities at costs, and a budget of units is to be taken from them. Taking the items in
order, each as far as the budget goes (`Greedy`), takes the most (`Greedy.most`); and if the order is
by cost, nothing that takes as much costs less (`Greedy.cheapest`).

The second part is an exchange argument with one price: at the cost where the greedy allocation
stops, whatever another allocation takes less of is no dearer, and whatever it takes more of is no
cheaper (`exchange`).
-/

import Mathlib.Algebra.Order.BigOperators.Group.List
import Mathlib.Tactic.LinearCombination

namespace TradingExchange

variable {Item : Type}

/-- All of the first items are taken, part of at most one, and nothing of the others. -/
structure Greedy (capacity taken : Item → Nat) (budget : Nat) (queue : List Item) : Prop where
  split : ∃ done part rest, queue = done ++ part ++ rest ∧ part.length ≤ 1 ∧
    (∀ item ∈ done, taken item = capacity item) ∧ ∀ item ∈ rest, taken item = 0
  total : (queue.map taken).sum = min budget (queue.map capacity).sum

namespace Greedy

variable {capacity taken other : Item → Nat} {budget : Nat} {queue : List Item}

/-- **Greedy takes the most.** -/
theorem most (greedy : Greedy capacity taken budget queue)
    (fits : ∀ item ∈ queue, other item ≤ capacity item) (afford : (queue.map other).sum ≤ budget) :
    (queue.map other).sum ≤ (queue.map taken).sum := by
  rw [greedy.total]
  exact le_min afford (List.sum_le_sum fits)

end Greedy

/-! ### The exchange argument -/

/-- The difference of two costs, told from a fixed price. -/
theorem cost_difference (cost : Item → Int) (first second : Item → Nat) (pivot : Int)
    (items : List Item) :
    (items.map fun item => (first item : Int) * cost item).sum -
        (items.map fun item => (second item : Int) * cost item).sum =
      (items.map fun item => ((first item : Int) - second item) * (cost item - pivot)).sum +
        pivot * (((items.map first).sum : Int) - (items.map second).sum) := by
  induction items with
  | nil => simp only [List.map_nil, List.sum_nil, Nat.cast_zero, sub_zero, mul_zero, add_zero]
  | cons item items ih =>
    simp only [List.map_cons, List.sum_cons, Nat.cast_add]
    linear_combination ih

/-- **Exchange**: an allocation that differs from another one of the same total only by more of what
costs at least `pivot` and less of what costs at most `pivot` does not cost less. -/
theorem exchange {cost : Item → Int} {first second : Item → Nat} (pivot : Int) {items : List Item}
    (same : (items.map first).sum = (items.map second).sum)
    (dual : ∀ item ∈ items, 0 ≤ ((first item : Int) - second item) * (cost item - pivot)) :
    (items.map fun item => (second item : Int) * cost item).sum ≤
      (items.map fun item => (first item : Int) * cost item).sum := by
  have difference := cost_difference cost first second pivot items
  have gain : 0 ≤ (items.map fun item =>
      ((first item : Int) - second item) * (cost item - pivot)).sum := by
    refine List.sum_nonneg fun value member => ?_
    obtain ⟨item, found, rfl⟩ := List.mem_map.mp member
    exact dual item found
  rw [same, sub_self, mul_zero, add_zero] at difference
  omega

/-- A price between the two parts of an ordered list: that of the first item behind the split. -/
theorem exists_pivot {cost : Item → Int} {front back : List Item}
    (ordered : (front ++ back).Pairwise fun item later => cost item ≤ cost later) :
    ∃ pivot, (∀ item ∈ front, cost item ≤ pivot) ∧ (∀ item ∈ back, pivot ≤ cost item) ∧
      ∀ item ∈ back.head?, cost item = pivot := by
  cases back with
  | nil =>
    rcases List.eq_nil_or_concat' front with rfl | ⟨front, last, rfl⟩
    · exact ⟨0, fun _ member => absurd member List.not_mem_nil,
        fun _ member => absurd member List.not_mem_nil,
        fun _ member => absurd member (Option.not_mem_none _)⟩
    · rw [List.append_nil] at ordered
      refine ⟨cost last, fun item member => ?_, fun _ member => absurd member List.not_mem_nil,
        fun _ member => absurd member (Option.not_mem_none _)⟩
      rcases List.mem_append.mp member with earlier | here
      · exact (List.pairwise_append.mp ordered).2.2 item earlier last List.mem_cons_self
      · rw [List.mem_singleton.mp here]
  | cons first back =>
    obtain ⟨-, later, across⟩ := List.pairwise_append.mp ordered
    refine ⟨cost first, fun item member => across item member first List.mem_cons_self,
      fun item member => ?_, fun item head => by rw [Option.some.inj head]⟩
    rcases List.mem_cons.mp member with rfl | behind
    · exact le_refl _
    · exact (List.pairwise_cons.mp later).1 item behind

/-- **Greedy in order of cost is cheapest.** -/
theorem Greedy.cheapest {cost : Item → Int} {capacity taken other : Item → Nat} {budget : Nat}
    {queue : List Item} (greedy : Greedy capacity taken budget queue)
    (ordered : queue.Pairwise fun item later => cost item ≤ cost later)
    (fits : ∀ item ∈ queue, other item ≤ capacity item)
    (same : (queue.map other).sum = (queue.map taken).sum) :
    (queue.map fun item => (taken item : Int) * cost item).sum ≤
      (queue.map fun item => (other item : Int) * cost item).sum := by
  obtain ⟨done, part, rest, rfl, few, whole, untaken⟩ := greedy.split
  rw [List.append_assoc] at ordered
  obtain ⟨pivot, cheap, dear, at_head⟩ := exists_pivot ordered
  refine exchange pivot same fun item member => ?_
  rcases List.mem_append.mp member with front | behind
  · rcases List.mem_append.mp front with finished | partly
    · have less : (other item : Int) ≤ taken item := by
        rw [whole item finished]
        exact_mod_cast fits item member
      exact mul_nonneg_of_nonpos_of_nonpos (sub_nonpos.mpr less)
        (sub_nonpos.mpr (cheap item finished))
    · have only : part = [item] := by
        obtain ⟨first, rfl⟩ : ∃ first, part = [first] := by
          refine List.length_eq_one_iff.mp (Nat.le_antisymm few ?_)
          exact List.length_pos_of_mem partly
        rw [List.mem_singleton.mp partly]
      rw [at_head item (by rw [only]; rfl), sub_self, mul_zero]
  · rw [untaken item behind, Nat.cast_zero, sub_zero]
    exact mul_nonneg (Nat.cast_nonneg _)
      (sub_nonneg.mpr (dear item (List.mem_append_right _ behind)))

end TradingExchange
