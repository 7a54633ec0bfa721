/-
**Matching composes.**

Matching `first` and then `second` takes what matching their sum takes, from the same orders in the
same order, and so leaves the same book: the view says so (`View.matchOrder_matchOrder`), and a book
that descends from another one by matching is determined by its view (`Descends.unique`). An amount
that counts as matched already only shifts the total.
-/

import TradingExchange.Refinement.Determinacy

namespace TradingExchange

variable {poolSize : UInt64} {book : OrderBook poolSize}

/-- **Matching twice is matching the sum.** -/
theorem Represents.matchOrder_add {view : View poolSize} (represents : Represents book view)
    (isBuySide : Bool) (price : UInt64) (type : OrderType) {first second : UInt32}
    (room : first.toNat + second.toNat < UInt32.size) :
    ∃ one two whole, book.matchOrder isBuySide price first type 0 = .ok one ∧
      one.book.matchOrder isBuySide price second type 0 = .ok two ∧
      book.matchOrder isBuySide price (first + second) type 0 = .ok whole ∧
      whole.book = two.book ∧
      whole.totalMatched.toNat = one.totalMatched.toNat + two.totalMatched.toNat := by
  have sum : (first + second).toNat = first.toNat + second.toNat := by
    rw [UInt32.toNat_add, Nat.mod_eq_of_lt room]
  obtain ⟨one, ran, total, descends⟩ := represents.descends isBuySide price first type 0
  obtain ⟨two, ran', total', descends'⟩ :=
    descends.represents.descends isBuySide price second type 0
  obtain ⟨whole, ran'', total'', descends''⟩ :=
    represents.descends isBuySide price (first + second) type 0
  simp only [UInt32.toNat_zero, Nat.sub_zero, Nat.zero_add, sum]
    at total total' total'' descends descends' descends''
  refine ⟨one, two, whole, ran, ran', ran'', ?_, ?_⟩
  · refine descends''.unique ?_
    rw [← View.matchOrder_matchOrder]
    exact descends.trans descends'
  · rw [View.matchOrder, PureBook.available_matchOrder] at total'
    omega

/-- **An amount that was matched before shifts the total.** -/
theorem Represents.matchOrder_sub {view : View poolSize} (represents : Represents book view)
    (isBuySide : Bool) (price : UInt64) (type : OrderType) {size already : UInt32}
    (within : already ≤ size) :
    ∃ shifted plain, book.matchOrder isBuySide price size type already = .ok shifted ∧
      book.matchOrder isBuySide price (size - already) type 0 = .ok plain ∧
      shifted.book = plain.book ∧
      shifted.totalMatched.toNat = plain.totalMatched.toNat + already.toNat := by
  obtain ⟨shifted, ran, total, descends⟩ := represents.descends isBuySide price size type already
  obtain ⟨plain, ran', total', descends'⟩ :=
    represents.descends isBuySide price (size - already) type 0
  simp only [UInt32.toNat_zero, Nat.sub_zero, Nat.zero_add, UInt32.toNat_sub_of_le _ _ within]
    at total' descends'
  exact ⟨shifted, plain, ran, ran', descends.unique descends', by omega⟩

/-- **Matching composes**: in two calls as in one, and from any total. -/
theorem matching_composes (reachable : book.Reachable) (isBuySide : Bool) (price : UInt64)
    (type : OrderType) :
    (∀ first second : UInt32, first.toNat + second.toNat < UInt32.size →
      ∃ one two whole, book.matchOrder isBuySide price first type 0 = .ok one ∧
        one.book.matchOrder isBuySide price second type 0 = .ok two ∧
        book.matchOrder isBuySide price (first + second) type 0 = .ok whole ∧
        whole.book = two.book ∧
        whole.totalMatched.toNat = one.totalMatched.toNat + two.totalMatched.toNat) ∧
    ∀ size already : UInt32, already ≤ size →
      ∃ shifted plain, book.matchOrder isBuySide price size type already = .ok shifted ∧
        book.matchOrder isBuySide price (size - already) type 0 = .ok plain ∧
        shifted.book = plain.book ∧
        shifted.totalMatched.toNat = plain.totalMatched.toNat + already.toNat := by
  obtain ⟨view, represents⟩ := reachable.represents
  exact ⟨fun _ _ => represents.matchOrder_add isBuySide price type,
    fun _ _ => represents.matchOrder_sub isBuySide price type⟩

/-- Asks of 5 and 4, matched with 7 in parts of 3 and 4. -/
theorem matching_composes_sample : ∃ book : OrderBook 2, ∃ one two whole,
    book.matchOrder true 10 3 .limit 0 = .ok one ∧
    one.book.matchOrder true 10 4 .limit 0 = .ok two ∧
    book.matchOrder true 10 (3 + 4) .limit 0 = .ok whole ∧ whole.book = two.book ∧
    whole.totalMatched.toNat = one.totalMatched.toNat + two.totalMatched.toNat := by
  have played : (OrderBook.play "X" 2 [.addOrder ⟨1, 1, 5, 9, false, .limit⟩,
      .addOrder ⟨2, 2, 4, 10, false, .limit⟩]).isSome = true := by
    decide +kernel
  obtain ⟨⟨replies, book⟩, ran⟩ := Option.isSome_iff_exists.mp played
  exact ⟨book, (matching_composes (OrderBook.reachable_of_play ran) true 10 .limit).1 3 4
    (by decide)⟩

end TradingExchange
