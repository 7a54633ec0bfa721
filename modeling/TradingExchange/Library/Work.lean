/-
**Counting passes, and paying for them.**

A loop whose passes go on only when they serve something makes no more passes than they serve, and
one (`Loop.length_visited_le`).

A machine that replies with what a step costs is paid for if every legal step costs no more than its
charge and what the step takes off a potential (`Run.paid`): the charges bound what a run costs,
although a single step may cost much more than its charge.
-/

import Mathlib.Algebra.GroupWithZero.Nat
import TradingExchange.Library.Run

namespace TradingExchange

/-- **The passes that go on serve something.** -/
theorem Loop.length_visited_le {State Ghost Event : Type}
    {body : State → Except Fault (Loop.Pass State)} (invariant : Ghost → State → Prop)
    (serves : State → List Event)
    (pass : ∀ ghost state next, invariant ghost state → body state = .ok (.again next) →
      serves state ≠ [] ∧ ∃ ghost', invariant ghost' next) :
    ∀ fuel ghost state, invariant ghost state →
      (Loop.visited body fuel state).length ≤
        ((Loop.visited body fuel state).flatMap serves).length + 1 := by
  intro fuel
  induction fuel with
  | zero => exact fun _ _ _ => Nat.zero_le _
  | succ fuel ih =>
    intro ghost state holds
    unfold Loop.visited
    split
    · next next went =>
      obtain ⟨served, ghost', kept⟩ := pass ghost state next holds went
      have later := ih ghost' next kept
      have positive := List.length_pos_iff.mpr served
      rw [List.length_cons, List.flatMap_cons, List.length_append]
      omega
    · exact Nat.le_add_left 1 _

/-- **Steps that are paid for make runs that are paid for.** -/
theorem Run.paid {State Action Ghost : Type} {step : State → Action → Except Fault (Nat × State)}
    {legal : State → Action → Prop} {state last : State} {actions : List Action} {costs : List Nat}
    {ghost : Ghost} (holds : State → Ghost → Prop) (potential : State → Ghost → Nat)
    (charge : Action → Nat)
    (pays : ∀ state ghost action cost next, holds state ghost → legal state action →
      step state action = .ok (cost, next) →
      ∃ ghost', holds next ghost' ∧ cost + potential next ghost' ≤ potential state ghost + charge action)
    (run : Run step legal state actions costs last) (start : holds state ghost) :
    ∃ ghost', holds last ghost' ∧
      costs.sum + potential last ghost' ≤ potential state ghost + (actions.map charge).sum := by
  induction run generalizing ghost with
  | nil state =>
    refine ⟨ghost, start, ?_⟩
    show 0 + potential state ghost ≤ potential state ghost + 0
    omega
  | cons permitted done _ ih =>
    obtain ⟨middle, held, first⟩ := pays _ _ _ _ _ start permitted done
    obtain ⟨ghost', ends, later⟩ := ih held
    refine ⟨ghost', ends, ?_⟩
    rw [List.sum_cons, List.map_cons, List.sum_cons]
    omega

end TradingExchange
