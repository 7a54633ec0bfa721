/-
**What the generator draws.**

The price that `generate_random_price` keeps is computed in 64 bits and with a cast of a negative
offset; in unbounded integers it is a walk by the offset, rounded to hundreds and held at 100 or
above (`walk`). As long as the price is below 2^62 the two agree (`toNat_generateRandomPrice`), and a
step raises the price by at most 350, so they agree for 2^50 steps (`generated_requests`).
-/

import Mathlib.Algebra.Order.Group.Int
import Mathlib.Tactic.Linarith
import TradingExchange.Model.Generator

namespace TradingExchange

/-! ### Sizes -/

/-- **Every size is a multiple of 250**, from 250 to 100000. -/
theorem generateRandomSize_range (draw : SizeDraw) :
    250 ≤ (generateRandomSize draw).toNat ∧ (generateRandomSize draw).toNat ≤ 100000 ∧
      250 ∣ (generateRandomSize draw).toNat := by
  obtain ⟨fractional, fracVal, whole, fracVal_ge, fracVal_le, whole_ge, whole_le⟩ := draw
  rw [UInt32.le_iff_toNat_le] at fracVal_ge fracVal_le whole_ge whole_le
  simp only [UInt32.reduceToNat] at fracVal_ge fracVal_le whole_ge whole_le
  rw [generateRandomSize]
  cases fractional with
  | true =>
    rw [if_pos rfl, UInt32.toNat_mul]
    simp only [UInt32.reduceToNat]
    rw [Nat.mod_eq_of_lt (by omega)]
    omega
  | false =>
    rw [if_neg Bool.false_ne_true, UInt32.toNat_mul]
    simp only [UInt32.reduceToNat]
    rw [Nat.mod_eq_of_lt (by omega)]
    omega

/-! ### Prices -/

/-- To the nearest hundred. -/
def roundHundred (price : ℤ) : ℤ := (price + 50) / 100 * 100

/-- A step of the price, in unbounded integers. -/
def walk (last : ℤ) (draw : PriceDraw) : ℤ :=
  let moved := if draw.cluster then last + draw.offset.toInt else draw.wide.toNat
  max 100 (if draw.round then roundHundred moved else moved)

theorem PriceDraw.offset_range (draw : PriceDraw) :
    -300 ≤ draw.offset.toInt ∧ draw.offset.toInt ≤ 300 :=
  ⟨Int64.le_iff_toInt_le.mp draw.offset_ge, Int64.le_iff_toInt_le.mp draw.offset_le⟩

/-- A signed number as an unsigned one. -/
theorem toNat_toUInt64 (offset : Int64) :
    (offset.toUInt64.toNat : ℤ) = if offset.toInt < 0 then offset.toInt + 2 ^ 64 else offset.toInt := by
  have bits : offset.toUInt64.toNat = offset.toBitVec.toNat := rfl
  have below := offset.toBitVec.isLt
  rw [bits, Int64.toInt, BitVec.toInt_eq_toNat_cond]
  split <;> split <;> omega

namespace RandomOrderDataGenerator

variable {generator : RandomOrderDataGenerator}

/-- The price before it is rounded is that of the walk, unless the walk went down to zero. -/
theorem move_eq (low : 100 ≤ generator.lastPrice.toNat) (high : generator.lastPrice.toNat < 2 ^ 62)
    (draw : PriceDraw) : ((generator.move draw).toNat : ℤ) =
      if draw.cluster then
        if generator.lastPrice.toNat + draw.offset.toInt ≤ 0 then 100
        else generator.lastPrice.toNat + draw.offset.toInt
      else draw.wide.toNat := by
  obtain ⟨least, most⟩ := draw.offset_range
  have same := toNat_toUInt64 draw.offset
  have negated := toNat_toUInt64 (-draw.offset)
  have minus : (-draw.offset).toInt = -draw.offset.toInt := by
    rw [Int64.toInt_neg, Int.bmod_eq_of_le] <;> omega
  rw [minus] at negated
  have sum : (generator.lastPrice + draw.offset.toUInt64).toNat =
      (generator.lastPrice.toNat + draw.offset.toUInt64.toNat) % 2 ^ 64 := UInt64.toNat_add ..
  rw [move]
  cases draw.cluster with
  | false => rfl
  | true =>
    simp only [if_true, ge_iff_le, UInt64.le_iff_toNat_le, Int64.lt_iff_toInt_lt, Int64.toInt_zero]
    by_cases beyond : generator.lastPrice.toNat + draw.offset.toInt ≤ 0
    · rw [if_neg (by omega)] at negated
      rw [if_pos beyond, if_pos (by omega)]
      rfl
    · rw [if_neg beyond, if_neg, sum]
      · push_cast
        rw [same]
        split <;> omega
      · rintro ⟨negative, reached⟩
        rw [if_neg (by omega)] at negated
        omega

/-- The price is rounded and held at 100 without overflow. -/
theorem toNat_round {price : UInt64} (below : price.toNat < 2 ^ 63) (round : Bool) :
    let rounded := if round then ((price + 50) / 100) * 100 else price
    (if rounded < 100 then 100 else rounded).toNat =
      max 100 (if round then (price.toNat + 50) / 100 * 100 else price.toNat) := by
  intro rounded
  have value : rounded.toNat = if round then (price.toNat + 50) / 100 * 100 else price.toNat := by
    cases round with
    | false => rfl
    | true =>
      simp only [rounded, if_true, UInt64.toNat_mul, UInt64.toNat_div, UInt64.toNat_add,
        UInt64.reduceToNat]
      omega
  have less : rounded < 100 ↔ rounded.toNat < 100 := UInt64.lt_iff_toNat_lt
  rw [← value]
  split
  · next small =>
    rw [Nat.max_eq_left (Nat.le_of_lt (less.mp small))]
    rfl
  · next large =>
    rw [Nat.max_eq_right (Nat.not_lt.mp (less.not.mp large))]

/-- **The generator walks in unbounded integers.** -/
theorem toNat_generateRandomPrice (low : 100 ≤ generator.lastPrice.toNat)
    (high : generator.lastPrice.toNat < 2 ^ 62) (draw : PriceDraw) :
    ((generator.generateRandomPrice draw).1.toNat : ℤ) = walk generator.lastPrice.toNat draw := by
  obtain ⟨least, most⟩ := draw.offset_range
  have moved := move_eq low high draw
  have wide : draw.wide.toNat ≤ 20000 := UInt64.le_iff_toNat_le.mp draw.wide_le
  have below : (generator.move draw).toNat < 2 ^ 63 := by
    zify
    rw [moved]
    split
    · split <;> omega
    · omega
  have value : (generator.generateRandomPrice draw).1.toNat = max 100 (if draw.round then
      ((generator.move draw).toNat + 50) / 100 * 100 else (generator.move draw).toNat) :=
    toNat_round below draw.round
  rw [value, walk]
  simp only [roundHundred]
  push_cast
  rw [moved]
  cases draw.cluster <;> cases draw.round <;> simp only [if_true, Bool.false_eq_true, if_false]
  all_goals
    try split
    all_goals omega

/-- A step goes up by 350 at most. -/
theorem walk_le {last bound : ℤ} (draw : PriceDraw) (start : 20000 ≤ bound) (below : last ≤ bound) :
    100 ≤ walk last draw ∧ walk last draw ≤ bound + 350 := by
  obtain ⟨least, most⟩ := draw.offset_range
  have wide : draw.wide.toNat ≤ 20000 := UInt64.le_iff_toNat_le.mp draw.wide_le
  rw [walk]
  simp only [roundHundred]
  cases draw.cluster <;> cases draw.round <;> simp only [if_true, Bool.false_eq_true, if_false] <;>
    omega

/-! ### Orders -/

/-- The next ids are one after the other. -/
theorem requests_orderId {drawn : List Drawn}
    (few : generator.currentId.toNat + drawn.length ≤ 2 ^ 64) :
    (generator.requests drawn).map (fun request => request.orderId.toNat) =
      List.range' generator.currentId.toNat drawn.length := by
  induction drawn generalizing generator with
  | nil => rfl
  | cons first later ih =>
    rw [List.length_cons] at few ⊢
    rw [requests, List.map_cons, List.range'_succ]
    refine congrArg _ ?_
    cases later with
    | nil => rfl
    | cons second later =>
      have next : (generator.request first).2.currentId.toNat = generator.currentId.toNat + 1 := by
        have sum : (generator.request first).2.currentId = generator.currentId + 1 := rfl
        have one : (1 : UInt64).toNat = 1 := rfl
        rw [List.length_cons] at few
        rw [sum, UInt64.toNat_add, one, Nat.mod_eq_of_lt (by omega)]
      rw [ih (by rw [next]; omega), next]

/-- The prices of the walk. -/
def walks : ℤ → List PriceDraw → List ℤ
  | _, [] => []
  | last, draw :: later => walk last draw :: walks (walk last draw) later

/-- **The prices walk**, and stay below a bound that grows by 350 with each order. -/
theorem requests_price {drawn : List Drawn} {bound : ℕ} (start : 20000 ≤ bound)
    (low : 100 ≤ generator.lastPrice.toNat) (high : generator.lastPrice.toNat ≤ bound)
    (few : bound + 350 * drawn.length < 2 ^ 62) :
    (generator.requests drawn).map (fun request => (request.price.toNat : ℤ)) =
        walks generator.lastPrice.toNat (drawn.map Drawn.price) ∧
      ∀ request ∈ generator.requests drawn,
        100 ≤ request.price.toNat ∧ request.price.toNat ≤ bound + 350 * drawn.length := by
  induction drawn generalizing generator bound with
  | nil => exact ⟨rfl, fun _ member => absurd member List.not_mem_nil⟩
  | cons first later ih =>
    rw [List.length_cons] at few
    have step : ((generator.request first).1.price.toNat : ℤ) =
        walk generator.lastPrice.toNat first.price :=
      toNat_generateRandomPrice low (by omega) first.price
    have kept : (generator.request first).2.lastPrice = (generator.request first).1.price := rfl
    have start' : (20000 : ℤ) ≤ bound := by exact_mod_cast start
    have high' : (generator.lastPrice.toNat : ℤ) ≤ bound := by exact_mod_cast high
    obtain ⟨above, below⟩ := walk_le first.price start' high'
    rw [← step] at above below
    have low : 100 ≤ (generator.request first).2.lastPrice.toNat := by
      rw [kept]
      omega
    have high : (generator.request first).2.lastPrice.toNat ≤ bound + 350 := by
      rw [kept]
      omega
    obtain ⟨prices, range⟩ := ih (by omega) low high (by omega)
    rw [kept, step] at prices
    refine ⟨by rw [requests, List.map_cons, List.map_cons, walks, prices, step], ?_⟩
    intro request member
    rw [List.length_cons]
    rcases List.mem_cons.mp member with rfl | behind
    · omega
    · have := range request behind
      omega

theorem requests_size {drawn : List Drawn} {request : Request}
    (member : request ∈ generator.requests drawn) : 250 ≤ request.size.toNat ∧
      request.size.toNat ≤ 100000 ∧ 250 ∣ request.size.toNat := by
  induction drawn generalizing generator with
  | nil => exact absurd member List.not_mem_nil
  | cons first later ih =>
    rcases List.mem_cons.mp member with rfl | behind
    · exact generateRandomSize_range first.size
    · exact ih behind

theorem length_requests (drawn : List Drawn) :
    (generator.requests drawn).length = drawn.length := by
  induction drawn generalizing generator with
  | nil => rfl
  | cons first later ih => rw [requests, List.length_cons, List.length_cons, ih]

end RandomOrderDataGenerator

open RandomOrderDataGenerator

/-- **What the generator makes.** The ids count from one, the sizes are multiples of 250, and the
prices walk in unbounded integers, between 100 and a bound that grows by 350 with each order. -/
theorem generated_requests (drawn : List Drawn) (few : drawn.length < 2 ^ 50) :
    (requests {} drawn).map (fun request => request.orderId.toNat) =
        List.range' 1 drawn.length ∧
      (requests {} drawn).map (fun request => (request.price.toNat : ℤ)) =
        walks 15000 (drawn.map Drawn.price) ∧
      ∀ request ∈ requests {} drawn,
        (250 ≤ request.size.toNat ∧ request.size.toNat ≤ 100000 ∧ 250 ∣ request.size.toNat) ∧
          100 ≤ request.price.toNat ∧ request.price.toNat ≤ 20000 + 350 * drawn.length := by
  have low : 100 ≤ ({} : RandomOrderDataGenerator).lastPrice.toNat := by decide
  have high : ({} : RandomOrderDataGenerator).lastPrice.toNat ≤ 20000 := by decide
  have ids : ({} : RandomOrderDataGenerator).currentId.toNat + drawn.length ≤ 2 ^ 64 := by
    have first : ({} : RandomOrderDataGenerator).currentId.toNat = 1 := rfl
    omega
  have bounded : 20000 + 350 * drawn.length < 2 ^ 62 := by omega
  obtain ⟨prices, range⟩ := requests_price (le_refl 20000) low high bounded
  exact ⟨requests_orderId ids, prices, fun request member =>
    ⟨requests_size member, range request member⟩⟩

/-- Down by 123 and to the nearest hundred, then a wide price as it is. -/
theorem generated_requests_sample : ∃ drawn : List Drawn, drawn.length = 2 ∧
    (requests {} drawn).map (fun request => request.size) = [750, 100000] ∧
    (requests {} drawn).map (fun request => request.orderId.toNat) = [1, 2] ∧
    (requests {} drawn).map (fun request => (request.price.toNat : ℤ)) = [14900, 12345] := by
  let drawn : List Drawn := [
    { clientId := 7, size := { fractional := true, fracVal := 3, whole := 1 },
      price := { cluster := true, offset := -123, wide := 10000, round := true },
      isBuySide := true, orderType := .limit },
    { clientId := 8, size := { fractional := false, fracVal := 1, whole := 100 },
      price := { cluster := false, offset := 0, wide := 12345, round := false },
      isBuySide := false, orderType := .market, indexToCancel := some 0 }]
  obtain ⟨ids, prices, -⟩ := generated_requests drawn (by decide)
  exact ⟨drawn, rfl, rfl, ids, prices⟩

end TradingExchange
