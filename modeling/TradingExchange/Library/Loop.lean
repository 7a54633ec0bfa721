/-
**While loops with `break`, run pass by pass.**

A loop is its body: a function that looks at the loop state and decides to go round `again`, to
`leave`, or to fault. `Loop.run body fuel` makes at most `fuel` passes; a run that has not left by
then is reported as `Fault.diverges`, so that termination is a statement about the result and never
an assumption.

`Loop.run_total` is the rule the proofs use: a ghost value carries what is still to be done, every
pass either leaves with the postcondition or hands a smaller ghost on, and the postcondition from
the next state on gives the one from this state on. Its conclusion is total: the run returns.

`Loop.visited` lists the states in which the passes of a run begin, the last one too. The invariant
holds in each of them (`Loop.exists_visited`), and what the passes do one by one adds up to what was
to be done (`Loop.flatMap_visited`).
-/

import Mathlib.Init

namespace TradingExchange

/-- How a call can fail to return. -/
inductive Fault where
  | nullDereference
  | diverges
deriving DecidableEq, Repr

theorem ok_of_toOption {Result : Type} {returned : Except Fault Result} {result : Result}
    (returns : returned.toOption = some result) : returned = .ok result := by
  cases returned with
  | error fault => exact absurd returns (Option.some_ne_none result).symm
  | ok value => exact congrArg _ (Option.some.inj returns)

namespace Loop

/-- What one pass through a loop body decides. -/
inductive Pass (State : Type) where
  | again (state : State)
  | leave (state : State)

variable {State : Type}

/-- Run a loop body for at most `fuel` passes. -/
def run (body : State → Except Fault (Pass State)) : Nat → State → Except Fault State
  | 0, _ => .error .diverges
  | fuel + 1, state =>
    match body state with
    | .error fault => .error fault
    | .ok (.leave last) => .ok last
    | .ok (.again next) => run body fuel next

variable {body : State → Except Fault (Pass State)}

theorem run_leave {state last : State} (fuel : Nat) (left : body state = .ok (.leave last)) :
    run body (fuel + 1) state = .ok last := by
  simp only [run, left]

theorem run_again {state next : State} (fuel : Nat) (went : body state = .ok (.again next)) :
    run body (fuel + 1) state = run body fuel next := by
  simp only [run, went]

/-- **The total-correctness rule.** `invariant ghost state` means that `ghost` is still to be done
in `state`; `post ghost state last` that doing it takes `state` to `last`. -/
theorem run_total {Ghost : Type} (measure : Ghost → Nat) (invariant : Ghost → State → Prop)
    (post : Ghost → State → State → Prop)
    (pass : ∀ ghost state, invariant ghost state →
      (∃ last, body state = .ok (.leave last) ∧ post ghost state last) ∨
      (∃ smaller next, body state = .ok (.again next) ∧ invariant smaller next ∧
        measure smaller < measure ghost ∧
        ∀ last, post smaller next last → post ghost state last)) :
    ∀ fuel ghost state, invariant ghost state → measure ghost < fuel →
      ∃ last, run body fuel state = .ok last ∧ post ghost state last := by
  intro fuel
  induction fuel with
  | zero => exact fun _ _ _ short => absurd short (Nat.not_lt_zero _)
  | succ fuel ih =>
    intro ghost state holds short
    rcases pass ghost state holds with ⟨last, left, reached⟩ | ⟨smaller, next, went, kept, less, back⟩
    · exact ⟨last, run_leave fuel left, reached⟩
    · obtain ⟨last, ran, reached⟩ := ih smaller next kept (by omega)
      exact ⟨last, (run_again fuel went).trans ran, back last reached⟩

/-! ### Pass by pass -/

/-- The states in which the passes of a run begin. -/
def visited (body : State → Except Fault (Pass State)) : Nat → State → List State
  | 0, _ => []
  | fuel + 1, state =>
    match body state with
    | .ok (.again next) => state :: visited body fuel next
    | _ => [state]

theorem visited_leave {state last : State} (fuel : Nat) (left : body state = .ok (.leave last)) :
    visited body (fuel + 1) state = [state] := by
  simp only [visited, left]

theorem visited_again {state next : State} (fuel : Nat) (went : body state = .ok (.again next)) :
    visited body (fuel + 1) state = state :: visited body fuel next := by
  simp only [visited, went]

/-- **The invariant holds, of some ghost, in every state visited.** -/
theorem exists_visited {Ghost : Type} (invariant : Ghost → State → Prop)
    (pass : ∀ ghost state, invariant ghost state →
      (∃ last, body state = .ok (.leave last)) ∨
      (∃ ghost' next, body state = .ok (.again next) ∧ invariant ghost' next)) :
    ∀ fuel ghost state, invariant ghost state →
      ∀ reached ∈ visited body fuel state, ∃ ghost, invariant ghost reached := by
  intro fuel
  induction fuel with
  | zero => exact fun _ _ _ _ member => absurd member List.not_mem_nil
  | succ fuel ih =>
    intro ghost state holds reached member
    rcases pass ghost state holds with ⟨last, left⟩ | ⟨ghost', next, went, kept⟩
    · rw [visited_leave fuel left] at member
      exact ⟨ghost, List.mem_singleton.mp member ▸ holds⟩
    · rw [visited_again fuel went] at member
      rcases List.mem_cons.mp member with rfl | later
      · exact ⟨ghost, holds⟩
      · exact ih ghost' next kept reached later

/-- **What the passes do one by one is what was to be done.** -/
theorem flatMap_visited {Ghost Event : Type} (measure : Ghost → Nat)
    (invariant : Ghost → State → Prop) (does : State → List Event) (todo : Ghost → List Event)
    (pass : ∀ ghost state, invariant ghost state →
      (∃ last, body state = .ok (.leave last) ∧ todo ghost = does state) ∨
      (∃ smaller next, body state = .ok (.again next) ∧ invariant smaller next ∧
        measure smaller < measure ghost ∧ todo ghost = does state ++ todo smaller)) :
    ∀ fuel ghost state, invariant ghost state → measure ghost < fuel →
      (visited body fuel state).flatMap does = todo ghost := by
  intro fuel
  induction fuel with
  | zero => exact fun _ _ _ short => absurd short (Nat.not_lt_zero _)
  | succ fuel ih =>
    intro ghost state holds short
    rcases pass ghost state holds with ⟨last, left, done⟩ | ⟨smaller, next, went, kept, less, done⟩
    · rw [visited_leave fuel left, List.flatMap_singleton, done]
    · rw [visited_again fuel went, List.flatMap_cons, ih smaller next kept (by omega), done]

end Loop

end TradingExchange
