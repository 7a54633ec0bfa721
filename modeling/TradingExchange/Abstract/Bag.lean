/-
**What the benchmarks do, without pointers.**

A `Bag` is the vector of a churn with the objects themselves in it, and `sink`. There is `room` for
another object or there is not; where there always is, that is what a churn over the heap does. As
long as the bag never holds more than there is room for, the room makes no difference
(`Bag.churn_unbounded`).
-/

import Mathlib.Data.UInt
import TradingExchange.Model.Benchmark

namespace TradingExchange

/-- The objects of a churn, and `sink`. -/
structure Bag where
  sink : UInt64
  live : List BenchmarkOrder

namespace Bag

/-- One pass of a churn. -/
def pass (room : Nat → Bool) (bag : Bag) (i : Nat) (draw : ChurnDraw) : Bag :=
  if draw.coin && !bag.live.isEmpty then
    let idx := (draw.pick (bag.live.length - 1)).val
    ⟨bag.sink + (bag.live[idx]?.map BenchmarkOrder.orderId).getD 0, swapRemove bag.live idx⟩
  else if room bag.live.length then { bag with live := bag.live ++ [.numbered i] }
  else bag

/-- Passes of a churn, one for each `i`. -/
def passes (room : Nat → Bool) (draws : Nat → ChurnDraw) : Bag → List Nat → Bag
  | bag, [] => bag
  | bag, i :: later => passes room draws (bag.pass room i (draws i)) later

/-- A churn after so many passes. -/
def churn (room : Nat → Bool) (draws : Nat → ChurnDraw) (sink n : UInt64) (count : Nat) : Bag :=
  passes room draws ⟨sink, BenchmarkOrder.upTo (n / 2)⟩ (List.range count)

variable {room : Nat → Bool} {draws : Nat → ChurnDraw}

theorem passes_append (bag : Bag) (first second : List Nat) :
    bag.passes room draws (first ++ second) = (bag.passes room draws first).passes room draws second := by
  induction first generalizing bag with
  | nil => rfl
  | cons i later ih => exact ih _

theorem churn_succ (sink n : UInt64) (count : Nat) : churn room draws sink n (count + 1) =
    (churn room draws sink n count).pass room count (draws count) := by
  rw [churn, List.range_succ, passes_append]
  rfl

/-- **A bag that is never too full is what it would be with any room.** -/
theorem churn_unbounded (sink n : UInt64) (count : Nat)
    (enough : ∀ k ≤ count, ∀ held < (churn (fun _ => true) draws sink n k).live.length,
      room held = true) :
    churn room draws sink n count = churn (fun _ => true) draws sink n count := by
  induction count with
  | zero => rfl
  | succ count ih =>
    have before := ih fun k less => enough k (Nat.le_succ_of_le less)
    have after := enough (count + 1) (Nat.le_refl _)
    rw [churn_succ] at after
    rw [churn_succ, churn_succ, before]
    generalize churn (fun _ => true) draws sink n count = bag at after ⊢
    unfold pass at after ⊢
    split
    · rfl
    · next adds =>
      rw [if_neg adds, if_pos rfl] at after
      have fits : room bag.live.length = true := after _ (by simp)
      rw [if_pos fits, if_pos rfl]

end Bag

end TradingExchange
