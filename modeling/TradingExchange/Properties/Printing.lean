/-
**The text of a book from its log.**

A reader of the log knows enough to print the book (`Reader.Prints`): the prices that have a line,
from the highest, with the exact total of either line, and the best prices. Where totals are below
`2^32` and prices below `exactPrices`, that is what `OrderBook::toString` prints
(`Reader.Follows.prints`).
-/

import TradingExchange.Properties.BookText
import TradingExchange.Properties.Log

namespace TradingExchange

open Lots Ladder

variable {poolSize : UInt64}

namespace Reader

variable (reader : Reader)

/-- The total size of a line. -/
def total (isBuySide : Bool) (price : UInt64) : ℕ :=
  ((reader.lines isBuySide price).map fun order => order.size.toNat).sum

/-- The total size of a line in decimal, or `"0"` without a line. -/
def countText (isBuySide : Bool) (price : UInt64) : String :=
  if reader.lines isBuySide price = [] then "0" else decimal 3 (reader.total isBuySide price)

/-- **The text is that of the lines, in exact decimals.** -/
structure Prints (symbol : String) (text : BookText) : Prop where
  symbol : text.symbol = symbol
  sorted : (text.rows.map DepthRow.price).Pairwise (· > ·)
  listed : ∀ price, price ∈ text.rows.map DepthRow.price ↔
    ∃ isBuySide, reader.lines isBuySide price ≠ []
  rows : ∀ row ∈ text.rows, row.toString = columns (reader.countText true row.price)
    (decimal 2 row.price.toNat) (reader.countText false row.price)
  mid : ∀ bid ask, text.midPrice = some (bid, ask) ↔
    (reader.lines true bid ≠ [] ∧ ∀ price, reader.lines true price ≠ [] → price ≤ bid) ∧
      reader.lines false ask ≠ [] ∧ ∀ price, reader.lines false price ≠ [] → ask ≤ price

end Reader

/-! ### Keys -/

theorem getLast?_keys_iff {levels : PriceLevels poolSize} {price : UInt64} :
    levels.keys.getLast? = some price ↔ price ∈ levels ∧ ∀ other ∈ levels, other ≤ price := by
  rw [← Std.ExtTreeMap.maxKey?_eq_getLast?_keys,
    Std.ExtTreeMap.maxKey?_eq_some_iff_mem_and_forall]
  exact and_congr_right fun _ => forall_congr' fun _ => imp_congr_right fun _ => Std.isLE_compare

theorem head?_keys_iff {levels : PriceLevels poolSize} {price : UInt64} :
    levels.keys.head? = some price ↔ price ∈ levels ∧ ∀ other ∈ levels, price ≤ other := by
  rw [← Std.ExtTreeMap.minKey?_eq_head?_keys,
    Std.ExtTreeMap.minKey?_eq_some_iff_mem_and_forall]
  exact and_congr_right fun _ => forall_congr' fun _ => imp_congr_right fun _ => Std.isLE_compare

namespace Reader.Follows

variable {reader : Reader} {book : OrderBook poolSize} {view : View poolSize}

/-- There is a line where there is a level. -/
theorem lines_ne_nil_iff (follows : reader.Follows book view) {isBuySide : Bool} {price : UInt64} :
    reader.lines isBuySide price ≠ [] ↔ price ∈ book.levels isBuySide := by
  have read := follows.readAt isBuySide price
  rw [OrderBook.readAt, Reader.lineAt] at read
  rw [Std.ExtTreeMap.mem_iff_isSome_getElem?, ← Option.isSome_map, read]
  by_cases empty : reader.lines isBuySide price = []
  · simp [empty]
  · simp [empty]

/-- A total is computed as the line has it, if it fits. -/
theorem countText (follows : reader.Follows book view) {isBuySide : Bool} {price : UInt64}
    (fits : reader.total isBuySide price < UInt32.size) {count : Option UInt32}
    (counted : book.countAt isBuySide price = .ok count) :
    TradingExchange.countText count = reader.countText isBuySide price := by
  have read := follows.readAt isBuySide price
  rw [OrderBook.readAt, Reader.lineAt] at read
  rw [OrderBook.countAt] at counted
  rw [Reader.countText]
  cases found : (book.levels isBuySide)[price]? with
  | none =>
    rw [found] at read counted
    obtain rfl := Except.ok.inj counted
    have empty : reader.lines isBuySide price = [] := by
      by_contra inhabited
      rw [if_neg inhabited] at read
      cases read
    rw [if_pos empty]
    rfl
  | some level =>
    rw [found] at read counted
    obtain ⟨total, ran, sum⟩ := (follows.represents.entry found).2.totalSize
    simp only [ran] at counted
    obtain rfl := Except.ok.inj counted
    have inhabited : reader.lines isBuySide price ≠ [] := by
      intro empty
      rw [if_pos empty] at read
      cases read
    rw [if_neg inhabited] at read
    have line := Option.some.inj read
    have exact : total.toNat = reader.total isBuySide price := by
      rw [sum, Reader.total, ← line, List.map_map]
      refine Nat.mod_eq_of_lt ?_
      rw [Reader.total, ← line, List.map_map] at fits
      exact fits
    rw [if_neg inhabited, TradingExchange.countText, sizeText_eq, exact]

/-- **What is printed is what the log tells**, if totals and prices are small. -/
theorem prints (follows : reader.Follows book view)
    (fits : ∀ isBuySide price, reader.total isBuySide price < UInt32.size)
    (small : ∀ isBuySide, ∀ price ∈ book.levels isBuySide, price.toNat < exactPrices) :
    ∃ text, book.toString = .ok text ∧ reader.Prints book.symbol text := by
  obtain ⟨text, ran, symbol, prices, rows, mid⟩ := follows.represents.toString
  have listed : ∀ price, price ∈ text.rows.map DepthRow.price ↔
      ∃ isBuySide, price ∈ book.levels isBuySide := by
    intro price
    rw [prices, mem_shownPrices]
    constructor
    · rintro (bid | ask)
      · exact ⟨true, bid⟩
      · exact ⟨false, ask⟩
    · rintro ⟨_ | _, member⟩
      · exact .inr member
      · exact .inl member
  refine ⟨text, ran, symbol, ?_, fun price => ?_, fun row member => ?_, fun bid ask => ?_⟩
  · rw [prices]
    exact Std.ExtTreeSet.ordered_toList.imp fun less => Std.compare_eq_lt.mp less
  · simp only [listed, follows.lines_ne_nil_iff]
  · obtain ⟨-, bids, asks⟩ := OrderBook.rowAt_eq_ok_iff.mp (rows row member)
    obtain ⟨isBuySide, inside⟩ := (listed row.price).mp (List.mem_map_of_mem member)
    rw [DepthRow.toString, follows.countText (fits _ _) bids, follows.countText (fits _ _) asks,
      priceText_eq (small isBuySide _ inside)]
  · simp only [follows.lines_ne_nil_iff]
    have best : text.midPrice = some (bid, ask) ↔
        book.bidLevels.keys.getLast? = some bid ∧ book.askLevels.keys.head? = some ask := by
      rw [mid, Option.bind_eq_some_iff]
      constructor
      · rintro ⟨bid', found, mapped⟩
        obtain ⟨ask', found', same⟩ := Option.map_eq_some_iff.mp mapped
        obtain ⟨rfl, rfl⟩ := Prod.mk.inj same
        exact ⟨found, found'⟩
      · rintro ⟨found, found'⟩
        exact ⟨bid, found, by rw [found']; rfl⟩
    rw [best, getLast?_keys_iff, head?_keys_iff]
    rfl

end Reader.Follows

end TradingExchange
