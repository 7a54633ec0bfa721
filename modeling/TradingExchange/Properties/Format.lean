/-
**What the texts tell.**

Every size prints as the exact decimal (`sizeText_eq`), and so does every price up to
`exactPrices`, which is 100 * 2^46 ticks (`priceText_eq`): from there on doubles are less dense than
hundredths. The next price prints as the one after it, so that these two print alike. Up to there,
the text of an order tells all that it prints (`order_text_tells_iff`).
-/

import TradingExchange.Model.Format

namespace TradingExchange

/-- The prices up to this one print exactly. -/
def exactPrices : ℕ := 100 * 2 ^ 46

/-- No two prices below this one print alike. -/
def distinctPrices : ℕ := exactPrices + 2

/-! ### Numbers -/

/-- **Every size prints exactly.** -/
theorem sizeText_eq (size : UInt32) : sizeText size = decimal 3 size.toNat := by
  have below := size.toNat_lt
  rw [sizeText, binary64_natCast (by omega)]
  have scale : (1000 : ℚ) = 10 ^ 3 := by norm_num
  rw [scale]
  exact fixed_quotient 22 (by norm_num) (by omega)

/-- **A price prints exactly below the limit.** -/
theorem priceText_eq {price : UInt64} (small : price.toNat < exactPrices) :
    priceText price = decimal 2 price.toNat := by
  rw [exactPrices] at small
  rw [priceText, priceValue, binary64_natCast (by omega)]
  have scale : (100 : ℚ) = 10 ^ 2 := by norm_num
  rw [scale]
  exact fixed_quotient 45 (by norm_num) (by omega)

/-- The doubles from 2^46 to 2^47 are 64ths apart. -/
theorem binary64_of_sixtyFourths {value : ℚ} {number : ℤ} (low : 2 ^ 46 ≤ value)
    (high : value < 2 ^ 47) (near : |value * 64 - number| < 1 / 2) :
    binary64 value = number / 64 := by
  have step : spacing value = 1 / 64 := by
    rw [spacing_eq low high]
    norm_num
  rw [binary64, step, div_div_eq_mul_div, div_one, roundEven_of_near near]
  ring

/-- The price of the last double at which doubles are as dense as hundredths. -/
theorem priceText_exactPrices {price : UInt64} (limit : price.toNat = exactPrices) :
    priceText price = decimal 2 exactPrices := by
  have value : priceValue price = ((2 ^ 52 : ℤ) : ℚ) / 64 := by
    rw [priceValue, limit, exactPrices, binary64_natCast (by norm_num)]
    push_cast
    refine binary64_of_sixtyFourths ?_ ?_ ?_ <;> norm_num
  rw [priceText, value]
  refine fixed_of_near ?_
  rw [exactPrices]
  norm_num

/-- **The next two prices print alike.** -/
theorem priceText_beyond {price : UInt64} (low : exactPrices < price.toNat)
    (high : price.toNat < exactPrices + 3) : priceText price = decimal 2 (exactPrices + 2) := by
  have value : priceValue price = ((2 ^ 52 + 1 : ℤ) : ℚ) / 64 := by
    rw [exactPrices] at low high
    have low' : (100 * 2 ^ 46 + 1 : ℚ) ≤ price.toNat := by exact_mod_cast low
    have high' : (price.toNat : ℚ) ≤ 100 * 2 ^ 46 + 2 := by exact_mod_cast Nat.le_of_lt_succ high
    rw [priceValue, binary64_natCast (by omega)]
    refine binary64_of_sixtyFourths ?_ ?_ ?_
    · linarith
    · linarith
    · rw [abs_lt]
      push_cast
      constructor <;> linarith
  rw [priceText, value]
  refine fixed_of_near ?_
  rw [exactPrices]
  norm_num

theorem sizeText_injective {size other : UInt32} (same : sizeText size = sizeText other) :
    size = other := by
  rw [sizeText_eq, sizeText_eq] at same
  exact UInt32.toNat_inj.mp (decimal_injective same)

/-- What prints of a price below the bound: the price itself, or the one that follows. -/
theorem priceText_cases {price : UInt64} (small : price.toNat < distinctPrices) :
    ∃ shown, priceText price = decimal 2 shown ∧
      (shown = price.toNat ∧ shown ≤ exactPrices ∨
        price.toNat = exactPrices + 1 ∧ shown = exactPrices + 2) := by
  rw [distinctPrices] at small
  rcases Nat.lt_trichotomy price.toNat exactPrices with below | limit | beyond
  · exact ⟨_, priceText_eq below, .inl ⟨rfl, Nat.le_of_lt below⟩⟩
  · exact ⟨_, priceText_exactPrices limit, .inl ⟨limit.symm, Nat.le_refl _⟩⟩
  · exact ⟨_, priceText_beyond beyond (Nat.lt_succ_of_lt small), .inr ⟨by omega, rfl⟩⟩

theorem priceText_injective {price other : UInt64} (small : price.toNat < distinctPrices)
    (small' : other.toNat < distinctPrices) (same : priceText price = priceText other) :
    price = other := by
  obtain ⟨shown, text, shows⟩ := priceText_cases small
  obtain ⟨shown', text', shows'⟩ := priceText_cases small'
  rw [text, text'] at same
  have equal := decimal_injective same
  rw [← UInt64.toNat_inj]
  omega

/-! ### Orders -/

namespace OrderText

variable {order other : OrderText}

/-- The text before the size. -/
def heading (order : OrderText) : String :=
  (if order.isBuySide then "\x1b[92mBid" else "\x1b[31mAsk") ++ ", " ++
    order.orderType.toString ++ ": " ++ order.symbol

theorem toList_toString (order : OrderText) : order.toString.toList =
    ((((order.heading.toList ++ ", ".toList) ++ (sizeText order.size).toList) ++ " @ $".toList) ++
      (priceText order.price).toList ++ " [id: ".toList) ++
        (Nat.repr order.orderId.toNat).toList ++ "]\x1b[0m".toList := by
  rw [toString, heading]
  cases order.isBuySide <;> simp

/-- The heading tells side, type and symbol. -/
theorem heading_injective (same : order.heading = other.heading) :
    order.isBuySide = other.isBuySide ∧ order.orderType = other.orderType ∧
      order.symbol = other.symbol := by
  have texts := congrArg String.toList same
  rw [heading, heading] at texts
  cases side : order.isBuySide <;> cases side' : other.isBuySide <;>
    cases type : order.orderType <;> cases type' : other.orderType <;>
    simp_all [OrderType.toString, String.toList_inj]

/-- **The text of an order tells all that it prints.** -/
theorem toString_injective (small : order.price.toNat < distinctPrices)
    (small' : other.price.toNat < distinctPrices) (same : order.toString = other.toString) :
    order = other := by
  have texts := congrArg String.toList same
  rw [toList_toString, toList_toString] at texts
  have texts := List.append_cancel_right texts
  -- from the right: the id, then the price, then the size
  obtain ⟨texts, id⟩ := split_run_right (fun char => char.isDigit = true)
    (fun _ => isDigit_of_mem_repr) (fun _ => isDigit_of_mem_repr)
    (stop_of_mark ' ' rfl (by decide) _) (stop_of_mark ' ' rfl (by decide) _)
    texts
  have texts := List.append_cancel_right texts
  obtain ⟨texts, price⟩ := split_run_right Numeric
    (fun _ => numeric_of_mem_fixed) (fun _ => numeric_of_mem_fixed)
    (stop_of_mark '$' rfl (by decide) _) (stop_of_mark '$' rfl (by decide) _)
    texts
  have texts := List.append_cancel_right texts
  obtain ⟨texts, size⟩ := split_run_right Numeric
    (fun _ => numeric_of_mem_fixed) (fun _ => numeric_of_mem_fixed)
    (stop_of_mark ' ' rfl (by decide) _) (stop_of_mark ' ' rfl (by decide) _)
    texts
  have heading := String.toList_inj.mp (List.append_cancel_right texts)
  obtain ⟨side, type, symbol⟩ := heading_injective heading
  refine OrderText.ext side type symbol ?_ ?_ ?_
  · exact sizeText_injective (String.toList_inj.mp size)
  · exact priceText_injective small small' (String.toList_inj.mp price)
  · exact UInt64.toNat_inj.mp (Nat.repr_injective (String.toList_inj.mp id))

end OrderText

/-- **Up to the bound, and not beyond, the text of an order tells all that it prints.** -/
theorem order_text_tells_iff (bound : ℕ) :
    (∀ order other : OrderText, order.price.toNat < bound → other.price.toNat < bound →
      order.toString = other.toString → order = other) ↔ bound ≤ distinctPrices := by
  constructor
  · intro tells
    by_contra beyond
    rw [distinctPrices, exactPrices] at beyond
    let text (price : UInt64) : OrderText := ⟨true, .limit, "", 0, price, 0⟩
    have first : priceText 7036874417766401 = decimal 2 (exactPrices + 2) :=
      priceText_beyond (by decide) (by decide)
    have second : priceText 7036874417766402 = decimal 2 (exactPrices + 2) :=
      priceText_beyond (by decide) (by decide)
    have alike : (text 7036874417766401).toString = (text 7036874417766402).toString := by
      rw [OrderText.toString, OrderText.toString]
      simp only [text, first, second]
    have same := tells _ _ (Nat.lt_of_lt_of_le (by decide) (Nat.not_le.mp beyond))
      (Nat.lt_of_lt_of_le (by decide) (Nat.not_le.mp beyond)) alike
    exact absurd (congrArg OrderText.price same) (by decide)
  · intro within order other small small' same
    exact OrderText.toString_injective (Nat.lt_of_lt_of_le small within)
      (Nat.lt_of_lt_of_le small' within) same

/-! ### Messages -/

namespace LogLine

variable {line other : LogLine}

/-- The order that a message is about. -/
def order : LogLine → OrderText
  | .incoming order => order
  | .matched _ order => order
  | .closing order => order
  | .resting order => order
  | .fullyMatched order => order
  | .cancelled order => order

/-- How a message begins. -/
def mark : LogLine → List Char
  | .incoming _ => "(In".toList
  | .matched .. => "(Ma".toList
  | .closing _ => "(Cl".toList
  | .resting _ => "(Re".toList
  | .fullyMatched _ => "(Fu".toList
  | .cancelled _ => "(Ca".toList

theorem take_message (line : LogLine) : line.message.toList.take 3 = line.mark := by
  cases line <;> simp [message, mark]

/-- A matched amount is told from the order behind it. -/
theorem matched_injective {amount amount' : UInt32} {order order' : OrderText}
    (same : (matched amount order).message = (matched amount' order').message) :
    amount = amount' ∧ order.toString = order'.toString := by
  have shape : ∀ (amount : UInt32) (order : OrderText), (matched amount order).message.toList =
      "(Matched ".toList ++ ((sizeText amount).toList ++ (" with): ".toList ++
        order.toString.toList)) := by
    intro amount order
    simp [message]
  have texts := congrArg String.toList same
  rw [shape, shape] at texts
  have stop : ∀ text : List Char, ∀ char ∈ (" with): ".toList ++ text).head?, ¬ Numeric char := by
    intro text char first
    obtain rfl := Option.some.inj (first : some ' ' = some char)
    decide
  obtain ⟨size, later⟩ := split_run Numeric (fun _ => numeric_of_mem_fixed)
    (fun _ => numeric_of_mem_fixed) (stop _) (stop _) (List.append_cancel_left texts)
  exact ⟨sizeText_injective (String.toList_inj.mp size),
    String.toList_inj.mp (List.append_cancel_left later)⟩

/-- **The text of a message tells the message.** -/
theorem message_injective (small : line.order.price.toNat < distinctPrices)
    (small' : other.order.price.toNat < distinctPrices) (same : line.message = other.message) :
    line = other := by
  have marks : line.mark = other.mark := by rw [← take_message, same, take_message]
  have alone : ∀ (mark : String) {order order' : OrderText}, order.price.toNat < distinctPrices →
      order'.price.toNat < distinctPrices → mark ++ order.toString = mark ++ order'.toString →
        order = order' :=
    fun mark _ _ small small' same =>
      OrderText.toString_injective small small' (String.append_right_inj mark |>.mp same)
  cases line <;> cases other <;> try (simp only [mark] at marks; exact absurd marks (by decide))
  case matched =>
    obtain ⟨rfl, orders⟩ := matched_injective same
    exact congrArg _ (OrderText.toString_injective small small' orders)
  all_goals exact congrArg _ (alone _ small small' same)

end LogLine

end TradingExchange
