/-
**Facts about lists.**

* *Vectors*: `swapRemove` takes an element out of the middle by putting the last one in its place,
  and leaves all but that element (`swapRemove_perm`); `filterMap_range` reads a vector index by
  index.
* *Maps*: lists that agree under one pair of maps agree under another (`map_eq_of_map_eq`), and a
  list without repetitions is mapped to any list of its length (`exists_map`).
* *Traversals*: if every step returns, the traversal does (`mapM_ok`).
* *Ends*: the least entry of an ordered list is its first (`head?_of_least`), the greatest its last
  (`getLast?_of_greatest`).
-/

import Mathlib.Data.List.Nodup
import Mathlib.Data.List.Perm.Basic
import Mathlib.Logic.Function.Basic

namespace TradingExchange

variable {A B : Type}

/-! ### Vectors -/

/-- Overwrite an element with the last one, and drop that. -/
def swapRemove (items : List A) (index : Nat) : List A :=
  match items.getLast? with
  | none => items
  | some back => (items.set index back).dropLast

theorem swapRemove_map (f : A → B) (items : List A) (index : Nat) :
    swapRemove (items.map f) index = (swapRemove items index).map f := by
  rw [swapRemove, swapRemove, List.getLast?_map]
  cases items.getLast? with
  | none => rfl
  | some back =>
    show ((items.map f).set index (f back)).dropLast = ((items.set index back).dropLast).map f
    rw [← List.map_set, List.map_dropLast]

/-- **What is left is all but the element removed.** -/
theorem swapRemove_perm {items : List A} {index : Nat} (inside : index < items.length) :
    (swapRemove items index).Perm (items.eraseIdx index) := by
  obtain ⟨front, back, rfl⟩ : ∃ front back, items = front ++ [back] := by
    have inhabited : items ≠ [] := List.ne_nil_of_length_pos (Nat.lt_of_le_of_lt (Nat.zero_le _) inside)
    exact ⟨items.dropLast, items.getLast inhabited, (List.dropLast_append_getLast inhabited).symm⟩
  rw [swapRemove, List.getLast?_concat]
  show (((front ++ [back]).set index back).dropLast).Perm _
  rw [List.length_append, List.length_singleton] at inside
  by_cases last : index = front.length
  · subst last
    rw [List.set_append_right _ _ (Nat.le_refl _), Nat.sub_self, List.set_cons_zero,
      List.dropLast_concat, List.eraseIdx_append_of_length_le (Nat.le_refl _), Nat.sub_self,
      List.eraseIdx_cons_zero, List.append_nil]
  · have less : index < front.length := by omega
    rw [List.set_append_left _ _ less, List.dropLast_concat, List.eraseIdx_append_of_lt_length less]
    exact (List.set_perm_cons_eraseIdx less back).trans (List.perm_append_singleton _ _).symm

/-- The elements of a vector, index by index. -/
theorem filterMap_range (items : List A) :
    ((List.range items.length).filterMap fun index => items[index]?) = items := by
  induction items with
  | nil => rfl
  | cons item later ih =>
    rw [List.length_cons, List.range_succ_eq_map, List.filterMap_cons_some List.getElem?_cons_zero,
      List.filterMap_map]
    exact congrArg (item :: ·) ih

/-! ### Maps -/

/-- What agrees under one pair of maps agrees under another. -/
theorem map_eq_of_map_eq {C D : Type} {f : A → C} {f' : B → C} {g : A → D} {g' : B → D}
    {first : List A} {second : List B} (same : first.map f = second.map f')
    (carries : ∀ a ∈ first, ∀ b ∈ second, f a = f' b → g a = g' b) :
    first.map g = second.map g' := by
  induction first generalizing second with
  | nil => rw [List.map_eq_nil_iff.mp same.symm]; rfl
  | cons a first ih =>
    cases second with
    | nil => cases same
    | cons b second =>
      obtain ⟨one, rest⟩ := List.cons.inj same
      have heads := carries a List.mem_cons_self b List.mem_cons_self one
      have tails := ih rest fun a member b member' =>
        carries a (List.mem_cons_of_mem _ member) b (List.mem_cons_of_mem _ member')
      rw [List.map_cons, List.map_cons, heads, tails]

/-- A list without repetitions is mapped to any list of its length. -/
theorem exists_map [DecidableEq A] [Nonempty B] {first : List A} {second : List B}
    (nodup : first.Nodup) (length : first.length = second.length) : ∃ f, second = first.map f := by
  induction first generalizing second with
  | nil => exact ⟨fun _ => Classical.ofNonempty, List.length_eq_zero_iff.mp length.symm⟩
  | cons a first ih =>
    cases second with
    | nil => cases length
    | cons b second =>
      obtain ⟨outside, nodup⟩ := List.nodup_cons.mp nodup
      obtain ⟨f, rfl⟩ := ih nodup (Nat.succ.inj length)
      refine ⟨Function.update f a b, ?_⟩
      rw [List.map_cons, Function.update_self]
      refine congrArg (b :: ·) (List.map_congr_left fun other member => ?_)
      exact (Function.update_of_ne (ne_of_mem_of_not_mem member outside) ..).symm

/-! ### Traversals -/

/-- If every step of a traversal returns, the traversal does. -/
theorem mapM_ok {Error : Type} {step : A → Except Error B} {key : B → A} {good : B → Prop}
    (returns : ∀ input, ∃ output, step input = .ok output ∧ key output = input ∧ good output)
    (inputs : List A) :
    ∃ outputs, inputs.mapM step = .ok outputs ∧ outputs.map key = inputs ∧
      ∀ output ∈ outputs, good output := by
  induction inputs with
  | nil => exact ⟨[], rfl, rfl, fun _ member => absurd member List.not_mem_nil⟩
  | cons input inputs ih =>
    obtain ⟨output, done, rfl, first⟩ := returns input
    obtain ⟨outputs, rest, keys, others⟩ := ih
    refine ⟨output :: outputs, by rw [List.mapM_cons, done, rest]; rfl, by rw [List.map_cons, keys],
      fun other member => ?_⟩
    rcases List.mem_cons.mp member with rfl | behind
    · exact first
    · exact others other behind

/-! ### Ends -/

section Ends

variable {less : A → A → Prop}

/-- The least entry of an ordered list is the first. -/
theorem head?_of_least {entries : List A} {entry : A}
    (ordered : entries.Pairwise less) (member : entry ∈ entries)
    (least : ∀ other ∈ entries, ¬ less other entry) : entries.head? = some entry := by
  cases entries with
  | nil => exact absurd member List.not_mem_nil
  | cons first rest =>
    rcases List.mem_cons.mp member with rfl | behind
    · rfl
    · exact absurd ((List.pairwise_cons.mp ordered).1 entry behind)
        (least first List.mem_cons_self)

/-- The greatest entry of an ordered list is the last. -/
theorem getLast?_of_greatest {entries : List A} {entry : A} (ordered : entries.Pairwise less)
    (member : entry ∈ entries) (greatest : ∀ other ∈ entries, ¬ less entry other) :
    entries.getLast? = some entry := by
  rcases List.eq_nil_or_concat' entries with rfl | ⟨front, last, rfl⟩
  · exact absurd member List.not_mem_nil
  · rw [List.getLast?_concat]
    rcases List.mem_append.mp member with before | here
    · exact absurd ((List.pairwise_append.mp ordered).2.2 entry before last List.mem_cons_self)
        (greatest last List.mem_concat_self)
    · rw [List.mem_singleton.mp here]

end Ends

end TradingExchange
