/-
**Taking texts apart.**

A text that was put together from parts can be taken apart again where the characters of one part
cannot begin the next (`split_run`), or end the one before (`split_run_right`), or do not contain
the mark that follows (`split_at`). So can a list of parts, if what follows does not begin as a part
does (`split_parts`).
-/

import Mathlib.Data.List.Basic

namespace TradingExchange

variable {Symbol : Type} (inside : Symbol → Prop) {front front' back back' : List Symbol}

/-- **A run of certain symbols up to the first other one can be told apart.** -/
theorem split_run (run : ∀ symbol ∈ front, inside symbol) (run' : ∀ symbol ∈ front', inside symbol)
    (stop : ∀ symbol ∈ back.head?, ¬ inside symbol)
    (stop' : ∀ symbol ∈ back'.head?, ¬ inside symbol) (same : front ++ back = front' ++ back') :
    front = front' ∧ back = back' := by
  induction front generalizing front' with
  | nil =>
    cases front' with
    | nil => exact ⟨rfl, same⟩
    | cons first later =>
      have begins : back.head? = some first := by
        rw [show back = _ from same]
        rfl
      exact absurd (run' first List.mem_cons_self) (stop first begins)
  | cons first later ih =>
    cases front' with
    | nil =>
      have begins : back'.head? = some first := by
        rw [show back' = _ from same.symm]
        rfl
      exact absurd (run first List.mem_cons_self) (stop' first begins)
    | cons first' later' =>
      obtain ⟨rfl, rest⟩ := List.cons.inj same
      obtain ⟨rfl, rfl⟩ := ih (fun symbol member => run symbol (List.mem_cons_of_mem _ member))
        (fun symbol member => run' symbol (List.mem_cons_of_mem _ member)) rest
      exact ⟨rfl, rfl⟩

/-- **A run of certain symbols back to the last other one can be told apart.** -/
theorem split_run_right (run : ∀ symbol ∈ back, inside symbol)
    (run' : ∀ symbol ∈ back', inside symbol) (stop : ∀ symbol ∈ front.getLast?, ¬ inside symbol)
    (stop' : ∀ symbol ∈ front'.getLast?, ¬ inside symbol)
    (same : front ++ back = front' ++ back') : front = front' ∧ back = back' := by
  have reversed : back.reverse ++ front.reverse = back'.reverse ++ front'.reverse := by
    rw [← List.reverse_append, ← List.reverse_append, same]
  obtain ⟨one, two⟩ := split_run inside (fun symbol member => run symbol (List.mem_reverse.mp member))
    (fun symbol member => run' symbol (List.mem_reverse.mp member))
    (by rwa [List.head?_reverse]) (by rwa [List.head?_reverse]) reversed
  exact ⟨List.reverse_injective two, List.reverse_injective one⟩

variable {inside} in
/-- A text that ends in a mark ends as the mark does. -/
theorem stop_of_mark {mark : List Symbol} (last : Symbol) (ends : mark.getLast? = some last)
    (outside : ¬ inside last) (front : List Symbol) :
    ∀ symbol ∈ (front ++ mark).getLast?, ¬ inside symbol := by
  intro symbol member
  rw [List.getLast?_append, ends] at member
  obtain rfl := Option.some.inj member
  exact outside

/-- A front without a mark can be told apart from the mark and what follows. -/
theorem split_at {mark : Symbol} (outside : mark ∉ front) (outside' : mark ∉ front')
    (same : front ++ mark :: back = front' ++ mark :: back') : front = front' ∧ back = back' := by
  have stop : ∀ back : List Symbol, ∀ symbol ∈ (mark :: back).head?, ¬ symbol ≠ mark :=
    fun _ symbol first other => other (Option.some.inj first).symm
  obtain ⟨fronts, backs⟩ := split_run (fun symbol => symbol ≠ mark)
    (fun _ member => ne_of_mem_of_not_mem member outside)
    (fun _ member => ne_of_mem_of_not_mem member outside') (stop back) (stop back') same
  exact ⟨fronts, (List.cons.inj backs).2⟩

/-- **A list of parts that can each be told apart from what follows can be told apart from a rest
that no part begins.** -/
theorem split_parts {Part : Type} {part : Part → List Symbol} {known : Part → Prop}
    {rest rest' : List Symbol}
    (split : ∀ one other, known one → known other → ∀ back back',
      part one ++ back = part other ++ back' → one = other ∧ back = back')
    (stop : ∀ one back, part one ++ back ≠ rest) (stop' : ∀ one back, part one ++ back ≠ rest')
    {parts parts' : List Part} (all : ∀ one ∈ parts, known one) (all' : ∀ one ∈ parts', known one)
    (same : parts.flatMap part ++ rest = parts'.flatMap part ++ rest') :
    parts = parts' ∧ rest = rest' := by
  induction parts generalizing parts' with
  | nil =>
    cases parts' with
    | nil => exact ⟨rfl, same⟩
    | cons first later =>
      rw [List.flatMap_cons, List.append_assoc] at same
      exact absurd same.symm (stop _ _)
  | cons first later ih =>
    cases parts' with
    | nil =>
      rw [List.flatMap_cons, List.append_assoc] at same
      exact absurd same (stop' _ _)
    | cons first' later' =>
      rw [List.flatMap_cons, List.flatMap_cons, List.append_assoc, List.append_assoc] at same
      obtain ⟨rfl, behind⟩ := split first first' (all _ List.mem_cons_self)
        (all' _ List.mem_cons_self) _ _ same
      obtain ⟨rfl, rfl⟩ := ih (fun one member => all one (List.mem_cons_of_mem _ member))
        (fun one member => all' one (List.mem_cons_of_mem _ member)) behind
      exact ⟨rfl, rfl⟩

end TradingExchange
