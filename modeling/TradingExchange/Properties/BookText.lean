/-
**What the text of a book tells.**

A row of `OrderBook::toString` can be read from its text (`DepthRow.split`), and so can all rows,
which end at the ruler (`BookText.rows_of_text`). The rest of the text follows from the rows: two
books print alike if and only if they have the same total at every price of either side
(`book_text_iff`).
-/

import TradingExchange.Properties.Depth
import TradingExchange.Properties.Format

namespace TradingExchange

/-! ### Rows -/

theorem numeric_of_mem_countText {count : Option UInt32} {char : Char}
    (member : char ∈ (countText count).toList) : Numeric char := by
  cases count with
  | none =>
    rw [List.mem_singleton.mp (member : char ∈ ['0'])]
    decide
  | some totalSize => exact numeric_of_mem_fixed member

theorem countText_injective {count other : Option UInt32}
    (same : countText count = countText other) : count = other := by
  have point : ∀ totalSize, countText (some totalSize) ≠ "0" := by
    intro totalSize equal
    have texts := congrArg String.toList equal
    rw [countText, sizeText_eq, toList_decimal] at texts
    have mark : '.' ∈ "0".toList := texts ▸ List.mem_append_right _ List.mem_cons_self
    exact absurd mark (by decide)
  cases count with
  | none =>
    cases other with
    | none => rfl
    | some totalSize => exact absurd same.symm (point totalSize)
  | some totalSize =>
    cases other with
    | none => exact absurd same (point totalSize)
    | some totalSize' => rw [sizeText_injective same]

/-- A text without blanks can be read from its column. -/
theorem column_injective {text other : String} (numeric : ∀ char ∈ text.toList, Numeric char)
    (numeric' : ∀ char ∈ other.toList, Numeric char) (same : column text = column other) :
    text = other := by
  have stop : ∀ text : String, (∀ char ∈ text.toList, Numeric char) →
      ∀ char ∈ text.toList.head?, ¬ char = ' ' := by
    intro text numeric char first blank
    have member := numeric char (List.mem_of_mem_head? first)
    rw [blank] at member
    exact absurd member (by decide)
  have texts := congrArg String.toList same
  rw [column, column, String.toList_append, String.toList_append, String.toList_ofList,
    String.toList_ofList] at texts
  exact String.toList_inj.mp (split_run (fun char => char = ' ')
    (fun _ => List.eq_of_mem_replicate) (fun _ => List.eq_of_mem_replicate) (stop _ numeric)
    (stop _ numeric') texts).2

/-- In the column of a number are blanks and the characters of the number. -/
theorem mem_column {text : String} (numeric : ∀ char ∈ text.toList, Numeric char) {char : Char}
    (member : char ∈ (column text).toList) : char = ' ' ∨ Numeric char := by
  rw [column, String.toList_append, String.toList_ofList] at member
  exact (List.mem_append.mp member).imp List.eq_of_mem_replicate (numeric char)

theorem not_mem_column {text : String} (numeric : ∀ char ∈ text.toList, Numeric char) {mark : Char}
    (visible : mark ≠ ' ') (outside : ¬ Numeric mark) : mark ∉ (column text).toList :=
  fun member => (mem_column numeric member).elim visible outside

/-- A column that a bar follows can be read, and what follows it. -/
theorem split_column {text other : String} (numeric : ∀ char ∈ text.toList, Numeric char)
    (numeric' : ∀ char ∈ other.toList, Numeric char) {back back' : List Char}
    (same : (column text).toList ++ (" | ".toList ++ back) =
      (column other).toList ++ (" | ".toList ++ back')) : text = other ∧ back = back' := by
  have bar : ∀ text : String, (∀ char ∈ text.toList, Numeric char) →
      '|' ∉ (column text).toList ++ [' '] := by
    intro text numeric member
    rcases List.mem_append.mp member with inside | blank
    · exact not_mem_column numeric (by decide) (by decide) inside
    · exact absurd (List.mem_singleton.mp blank) (by decide)
  have shape : ∀ (text : String) (back : List Char), (column text).toList ++ (" | ".toList ++ back) =
      ((column text).toList ++ [' ']) ++ '|' :: ' ' :: back := by
    intro text back
    rw [List.append_assoc]
    rfl
  rw [shape, shape] at same
  obtain ⟨columns, behind⟩ := split_at (bar _ numeric) (bar _ numeric') same
  exact ⟨column_injective numeric numeric' (String.toList_inj.mp (List.append_cancel_right columns)),
    (List.cons.inj behind).2⟩

/-- The parts of a row. -/
theorem toList_columns (bids price asks : String) (back : List Char) :
    (columns bids price asks).toList ++ back =
      (column bids).toList ++ (" | ".toList ++ ((column price).toList ++ (" | ".toList ++
        ((column asks).toList ++ '\n' :: back)))) := by
  simp [columns]

/-- A row can be read from its text, whatever follows. -/
theorem DepthRow.split {row other : DepthRow} (small : row.price.toNat < distinctPrices)
    (small' : other.price.toNat < distinctPrices) {back back' : List Char}
    (same : row.toString.toList ++ back = other.toString.toList ++ back') :
    row = other ∧ back = back' := by
  have count : ∀ count, ∀ char ∈ (countText count).toList, Numeric char :=
    fun _ _ => numeric_of_mem_countText
  have value : ∀ price, ∀ char ∈ (priceText price).toList, Numeric char :=
    fun _ _ => numeric_of_mem_fixed
  rw [DepthRow.toString, DepthRow.toString, toList_columns, toList_columns] at same
  obtain ⟨bids, same⟩ := split_column (count _) (count _) same
  obtain ⟨price, same⟩ := split_column (value _) (value _) same
  obtain ⟨asks, behind⟩ := split_at (not_mem_column (count _) (by decide) (by decide))
    (not_mem_column (count _) (by decide) (by decide)) same
  have asks := column_injective (count _) (count _) (String.toList_inj.mp asks)
  cases row
  cases other
  cases countText_injective bids
  cases countText_injective asks
  cases priceText_injective small small' price
  exact ⟨rfl, behind⟩

/-! ### Texts -/

/-- No row begins as the ruler does. -/
theorem DepthRow.ne_ruler (row : DepthRow) (back rest : List Char) :
    row.toString.toList ++ back ≠ ruler.toList ++ rest := by
  intro same
  have dash : (ruler.toList ++ rest).head? = some '-' := rfl
  rw [← same, DepthRow.toString, toList_columns] at dash
  have numeric : ∀ char ∈ (countText row.bidCount).toList, Numeric char :=
    fun _ => numeric_of_mem_countText
  have outside := not_mem_column numeric (by decide : '-' ≠ ' ') (by decide)
  cases first : (column (countText row.bidCount)).toList with
  | nil =>
    rw [first] at dash
    cases dash
  | cons char later =>
    rw [first] at dash outside
    exact outside (Option.some.inj dash ▸ List.mem_cons_self)

/-- The parts of the text of a book. -/
theorem BookText.toList_toString (text : BookText) : text.toString.toList =
    ("Order Book for " ++ text.symbol ++ ":\n" ++ columns "Bids" "Price" "Asks" ++ ruler).toList ++
      ((text.rows.flatMap fun row => row.toString.toList) ++ (ruler.toList ++
        ("Mid Price: " ++ fixed 2 (midPriceValue text.midPrice) ++ "\n").toList)) := by
  unfold toString
  simp only [String.toList_append, String.toList_join, List.flatMap_map, List.append_assoc]

/-- **The rows of a book can be read from its text.** -/
theorem BookText.rows_of_text {text other : BookText} (symbol : text.symbol = other.symbol)
    (small : ∀ row ∈ text.rows, row.price.toNat < distinctPrices)
    (small' : ∀ row ∈ other.rows, row.price.toNat < distinctPrices)
    (same : text.toString = other.toString) : text.rows = other.rows := by
  have texts := congrArg String.toList same
  rw [toList_toString, toList_toString, symbol] at texts
  have rows := List.append_cancel_left texts
  refine (split_parts ?_ ?_ ?_ small small' rows).1
  · exact fun _ _ small small' _ _ same => DepthRow.split small small' same
  · exact fun row back => row.ne_ruler back _
  · exact fun row back => row.ne_ruler back _

/-! ### Books -/

variable {poolSize poolSize' : UInt64}

namespace OrderBook

variable {book : OrderBook poolSize} {other : OrderBook poolSize'}

/-- A side shows nothing at the prices that have no level. -/
theorem countAt_none_iff {isBuySide : Bool} {price : UInt64} :
    book.countAt isBuySide price = .ok none ↔ price ∉ book.levels isBuySide := by
  rw [countAt]
  cases found : (book.levels isBuySide)[price]? with
  | none =>
    refine iff_of_true rfl fun member => ?_
    rw [Std.ExtTreeMap.mem_iff_isSome_getElem?, found] at member
    cases member
  | some level =>
    refine iff_of_false (fun counted => ?_) fun outside => outside ?_
    · simp only at counted
      cases total : book.totalSize level <;> rw [total] at counted <;> cases counted
    · rw [Std.ExtTreeMap.mem_iff_isSome_getElem?, found]
      rfl

/-- What a row consists of. -/
theorem rowAt_eq_ok_iff {price : UInt64} {row : DepthRow} :
    book.rowAt price = .ok row ↔ row.price = price ∧ book.countAt true price = .ok row.bidCount ∧
      book.countAt false price = .ok row.askCount := by
  rw [rowAt]
  cases book.countAt true price with
  | error fault => exact iff_of_false (fun done => by cases done) fun done => by cases done.2.1
  | ok bidCount =>
    cases book.countAt false price with
    | error fault => exact iff_of_false (fun done => by cases done) fun done => by cases done.2.2
    | ok askCount =>
      constructor
      · intro done
        cases done
        exact ⟨rfl, rfl, rfl⟩
      · rintro ⟨rfl, bids, asks⟩
        rw [Except.ok.inj bids, Except.ok.inj asks]
        rfl

/-- Maps with the same prices list them alike. -/
theorem keys_eq {levels : PriceLevels poolSize} {levels' : PriceLevels poolSize'}
    (same : ∀ price, price ∈ levels ↔ price ∈ levels') : levels.keys = levels'.keys := by
  have perm : levels.keys.Perm levels'.keys := by
    refine (List.perm_ext_iff_of_nodup Std.ExtTreeMap.nodup_keys Std.ExtTreeMap.nodup_keys).mpr ?_
    intro price
    rw [Std.ExtTreeMap.mem_keys, Std.ExtTreeMap.mem_keys, same]
  refine perm.eq_of_pairwise (fun one other _ _ less greater => ?_) Std.ExtTreeMap.ordered_keys
    Std.ExtTreeMap.ordered_keys
  exact absurd (Std.compare_eq_lt.mp less) (UInt64.lt_asymm (Std.compare_eq_lt.mp greater))

theorem rbegin_key (levels : PriceLevels poolSize) :
    (rbegin levels).map Prod.fst = levels.keys.getLast? := by
  rw [rbegin, ← Std.ExtTreeMap.map_fst_toList_eq_keys, List.getLast?_map]

theorem begin_key (levels : PriceLevels poolSize) :
    (begin levels).map Prod.fst = levels.keys.head? := by
  rw [begin, ← Std.ExtTreeMap.map_fst_toList_eq_keys, List.head?_map]

/-- The mid price is computed from the last bid and the first ask. -/
theorem mid_keys (book : OrderBook poolSize) :
    ((rbegin book.bidLevels).bind fun bid =>
      (begin book.askLevels).map fun ask => (bid.1, ask.1)) =
    book.bidLevels.keys.getLast?.bind fun bid =>
      book.askLevels.keys.head?.map fun ask => (bid, ask) := by
  rw [← rbegin_key, ← begin_key]
  cases rbegin book.bidLevels <;> cases begin book.askLevels <;> rfl

/-- **The text of a book depends on its symbol and its rows only.** -/
theorem toString_congr (symbol : book.symbol = other.symbol) (same : ∀ isBuySide price,
    book.countAt isBuySide price = other.countAt isBuySide price) :
    book.toString = other.toString := by
  have keys : ∀ isBuySide, (book.levels isBuySide).keys = (other.levels isBuySide).keys := by
    refine fun isBuySide => keys_eq fun price => not_iff_not.mp ?_
    rw [← countAt_none_iff, ← countAt_none_iff, same]
  have bids : book.bidLevels.keys = other.bidLevels.keys := keys true
  have asks : book.askLevels.keys = other.askLevels.keys := keys false
  have rows : book.rowAt = other.rowAt := by
    funext price
    rw [rowAt, rowAt, same, same]
  rw [toString, toString, mid_keys, mid_keys, shownPrices, shownPrices, bids, asks, rows, symbol]

end OrderBook

/-- A book has a text, with a row for each price. -/
theorem Represents.toString {book : OrderBook poolSize} {view : View poolSize}
    (represents : Represents book view) : ∃ text, book.toString = .ok text ∧
      text.symbol = book.symbol ∧ text.rows.map DepthRow.price = book.shownPrices.toList ∧
      (∀ row ∈ text.rows, book.rowAt row.price = .ok row) ∧
      text.midPrice = book.bidLevels.keys.getLast?.bind fun bid =>
        book.askLevels.keys.head?.map fun ask => (bid, ask) := by
  have returns : ∀ price, ∃ row, book.rowAt price = .ok row ∧ row.price = price ∧
      book.rowAt row.price = .ok row := by
    intro price
    obtain ⟨row, done, rfl, -⟩ := represents.rowAt price
    exact ⟨row, done, rfl, done⟩
  obtain ⟨rows, ran, prices, good⟩ := mapM_ok returns book.shownPrices.toList
  exact ⟨⟨book.symbol, rows, _⟩, by rw [OrderBook.toString, ran]; rfl, rfl, prices, good,
    OrderBook.mid_keys book⟩

/-- A price without a row has no level. -/
theorem Represents.countAt_unlisted {book : OrderBook poolSize} {text : BookText}
    (prices : text.rows.map DepthRow.price = book.shownPrices.toList) {price : UInt64}
    (unlisted : price ∉ text.rows.map DepthRow.price) (isBuySide : Bool) :
    book.countAt isBuySide price = .ok none := by
  rw [prices, mem_shownPrices] at unlisted
  refine OrderBook.countAt_none_iff.mpr fun member => unlisted ?_
  cases isBuySide with
  | true => exact .inl member
  | false => exact .inr member

/-- The prices of the rows are below a bound if those of the levels are. -/
theorem rows_within {book : OrderBook poolSize} {text : BookText}
    (prices : text.rows.map DepthRow.price = book.shownPrices.toList)
    (small : ∀ isBuySide, ∀ price ∈ book.levels isBuySide, price.toNat < distinctPrices) :
    ∀ row ∈ text.rows, row.price.toNat < distinctPrices := by
  intro row member
  have listed : row.price ∈ book.shownPrices.toList := prices ▸ List.mem_map_of_mem member
  rcases mem_shownPrices.mp listed with bid | ask
  · exact small true _ bid
  · exact small false _ ask

/-- **Two books print alike exactly if they have the same total at every price of either side.** -/
theorem book_text_iff {book : OrderBook poolSize} {other : OrderBook poolSize'}
    (reachable : book.Reachable) (reachable' : other.Reachable) (symbol : book.symbol = other.symbol)
    (small : ∀ isBuySide, ∀ price ∈ book.levels isBuySide, price.toNat < distinctPrices)
    (small' : ∀ isBuySide, ∀ price ∈ other.levels isBuySide, price.toNat < distinctPrices) :
    ∃ text text', book.text = .ok text ∧ other.text = .ok text' ∧ (text = text' ↔
      ∀ isBuySide price, book.countAt isBuySide price = other.countAt isBuySide price) := by
  obtain ⟨view, represents⟩ := reachable.represents
  obtain ⟨view', represents'⟩ := reachable'.represents
  obtain ⟨text, ran, named, prices, rows, -⟩ := represents.toString
  obtain ⟨text', ran', named', prices', rows', -⟩ := represents'.toString
  refine ⟨text.toString, text'.toString, by rw [OrderBook.text, ran]; rfl,
    by rw [OrderBook.text, ran']; rfl, fun same isBuySide price => ?_, fun same => ?_⟩
  · have sameRows : text.rows = text'.rows :=
      BookText.rows_of_text (named.trans (symbol.trans named'.symm)) (rows_within prices small)
        (rows_within prices' small') same
    by_cases listed : price ∈ text.rows.map DepthRow.price
    · obtain ⟨row, member, rfl⟩ := List.mem_map.mp listed
      obtain ⟨-, bids, asks⟩ := OrderBook.rowAt_eq_ok_iff.mp (rows row member)
      obtain ⟨-, bids', asks'⟩ := OrderBook.rowAt_eq_ok_iff.mp (rows' row (sameRows ▸ member))
      cases isBuySide with
      | true => rw [bids, bids']
      | false => rw [asks, asks']
    · rw [Represents.countAt_unlisted prices listed,
        Represents.countAt_unlisted prices' (sameRows ▸ listed)]
  · have equal := OrderBook.toString_congr symbol same
    rw [ran, ran'] at equal
    rw [Except.ok.inj equal]

/-- Bids of 2 and 3 at one price print as a bid of 5 does. -/
theorem book_text_iff_sample : ∃ (book : OrderBook 4) (other : OrderBook 1),
    (book.ordersAt true 10).length = 2 ∧ (other.ordersAt true 10).length = 1 ∧
      ∃ text text', book.text = .ok text ∧ other.text = .ok text' ∧ text = text' := by
  have played : (OrderBook.play "X" 4 [.addOrder ⟨1, 1, 2, 10, true, .limit⟩,
      .addOrder ⟨2, 2, 3, 10, true, .limit⟩]).map (fun result =>
        ((result.2.ordersAt true 10).length, result.2.symbol,
          [(result.2.levels true).keys, (result.2.levels false).keys],
          (result.2.countAt true 10).toOption)) = some (2, "X", [[10], []], some (some 5)) := by
    decide +kernel
  have played' : (OrderBook.play "X" 1 [.addOrder ⟨1, 1, 5, 10, true, .limit⟩]).map (fun result =>
        ((result.2.ordersAt true 10).length, result.2.symbol,
          [(result.2.levels true).keys, (result.2.levels false).keys],
          (result.2.countAt true 10).toOption)) = some (1, "X", [[10], []], some (some 5)) := by
    decide +kernel
  obtain ⟨⟨replies, book⟩, ran, shown⟩ := Option.map_eq_some_iff.mp played
  obtain ⟨⟨replies', other⟩, ran', shown'⟩ := Option.map_eq_some_iff.mp played'
  simp only [Prod.mk.injEq, List.cons.injEq, and_true] at shown shown'
  obtain ⟨orders, symbol, ⟨bids, asks⟩, count⟩ := shown
  obtain ⟨orders', symbol', ⟨bids', asks'⟩, count'⟩ := shown'
  have only : ∀ {poolSize : UInt64} (book : OrderBook poolSize), (book.levels true).keys = [10] →
      (book.levels false).keys = [] → ∀ isBuySide, ∀ price ∈ book.levels isBuySide,
        isBuySide = true ∧ price = 10 := by
    intro poolSize book bids asks isBuySide price member
    rw [← Std.ExtTreeMap.mem_keys] at member
    cases isBuySide with
    | true => exact ⟨rfl, List.mem_singleton.mp (bids ▸ member)⟩
    | false => exact absurd (asks ▸ member) List.not_mem_nil
  have small : ∀ {poolSize : UInt64} (book : OrderBook poolSize), (book.levels true).keys = [10] →
      (book.levels false).keys = [] → ∀ isBuySide, ∀ price ∈ book.levels isBuySide,
        price.toNat < distinctPrices := by
    intro poolSize book bids asks isBuySide price member
    rw [(only book bids asks isBuySide price member).2]
    decide
  obtain ⟨text, text', done, done', alike⟩ := book_text_iff (OrderBook.reachable_of_play ran)
    (OrderBook.reachable_of_play ran') (symbol.trans symbol'.symm) (small book bids asks)
    (small other bids' asks')
  refine ⟨book, other, orders, orders', text, text', done, done', alike.mpr fun isBuySide price => ?_⟩
  by_cases here : isBuySide = true ∧ price = 10
  · obtain ⟨rfl, rfl⟩ := here
    rw [ok_of_toOption count, ok_of_toOption count']
  · rw [OrderBook.countAt_none_iff.mpr fun member => here (only book bids asks _ _ member),
      OrderBook.countAt_none_iff.mpr fun member => here (only other bids' asks' _ _ member)]

end TradingExchange
