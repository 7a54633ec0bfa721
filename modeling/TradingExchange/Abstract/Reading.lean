/-
**Reading what a sweep logs.**

`fillLog` is what serving a line of lots logs, and `sweepLog` what sweeping a ladder logs. A reader
that knows the ladder reads it without objection, and then knows the ladder that the sweep leaves
(`Reader.readAll_sweepLog`).
-/

import TradingExchange.Abstract.Reader
import TradingExchange.Library.LadderLaws

namespace TradingExchange

open Lots Ladder

variable {Ref : Type}

/-- What is printed of a lot that rests at a price of a side. -/
def Lot.text (symbol : String) (isBuySide : Bool) (price : UInt64) (lot : Lot (Ticket Ref)) :
    OrderText where
  isBuySide := isBuySide
  orderType := lot.tag.orderType
  symbol := symbol
  size := UInt32.ofNat lot.size
  price := price
  orderId := lot.tag.orderId

/-- The sizes of the lots are 32-bit. -/
def Fits (lots : List (Lot (Ticket Ref))) : Prop := ∀ lot ∈ lots, lot.size < UInt32.size

/-- What serving a lot from an amount logs. -/
def lotLog (text : Lot (Ticket Ref) → OrderText) (amount : Nat) (lot : Lot (Ticket Ref)) :
    List LogLine :=
  .matched (UInt32.ofNat (min amount lot.size))
      ((text lot).reduce (UInt32.ofNat (min amount lot.size))) ::
    if lot.size ≤ amount then
      [.closing ((text lot).reduce (UInt32.ofNat (min amount lot.size)))]
    else []

/-- What serving `amount` from a line logs. -/
def fillLog (text : Lot (Ticket Ref) → OrderText) : Nat → List (Lot (Ticket Ref)) → List LogLine
  | _, [] => []
  | amount, lot :: later =>
    if amount = 0 then [] else lotLog text amount lot ++ fillLog text (amount - lot.size) later

/-- What sweeping `amount` from a ladder logs. -/
def sweepLog (text : UInt64 → Lot (Ticket Ref) → OrderText) (reach : UInt64 → Bool) :
    Nat → List (Level UInt64 (Ticket Ref)) → List LogLine
  | _, [] => []
  | amount, level :: worse =>
    if reach level.price then
      fillLog (text level.price) amount level.lots ++
        sweepLog text reach (amount - total level.lots) worse
    else []

section Relabel

variable {Other : Type}

/-- The log of a line under other tickets. -/
theorem fillLog_relabel (text : Lot (Ticket Other) → OrderText) (label : Ticket Ref → Ticket Other)
    (amount : Nat) (lots : List (Lot (Ticket Ref))) :
    fillLog text amount (lots.map (Lot.relabel label)) =
      fillLog (text ∘ Lot.relabel label) amount lots := by
  induction lots generalizing amount with
  | nil => rfl
  | cons lot later ih =>
    rw [List.map_cons, fillLog, fillLog]
    split
    · rfl
    · rw [ih]
      rfl

theorem sweepLog_map (text : UInt64 → Lot (Ticket Other) → OrderText)
    (label : Ticket Ref → Ticket Other) (reach : UInt64 → Bool) (amount : Nat)
    (levels : List (Level UInt64 (Ticket Ref))) :
    sweepLog text reach amount (levels.map (Level.map id label)) =
      sweepLog (fun price => text price ∘ Lot.relabel label) reach amount levels := by
  induction levels generalizing amount with
  | nil => rfl
  | cons level worse ih =>
    rw [List.map_cons, sweepLog, sweepLog]
    simp only [Level.map, id_eq, total_relabel, fillLog_relabel, ih]

end Relabel

/-- What is printed of a side, line by line. -/
def ladderText (symbol : String) (isBuySide : Bool) (levels : List (Level UInt64 (Ticket Ref)))
    (price : UInt64) : List OrderText :=
  (lotsAt levels price).map (Lot.text symbol isBuySide price)

/-- What is printed of a new order. -/
def Request.text (request : Request) (symbol : String) : OrderText :=
  (request.order symbol : Order Unit).text

/-- What is logged of an order that found this much to take. -/
def Request.outcome (request : Request) (symbol : String) (available : Nat) : LogLine :=
  let text := (request.text symbol).reduce (UInt32.ofNat (min request.size.toNat available))
  if available < request.size.toNat then .resting text else .fullyMatched text

/-! ### Texts -/

section Texts

variable {text : OrderText} {symbol : String} {isBuySide : Bool} {price : UInt64}
  {lot : Lot (Ticket Ref)}

theorem OrderText.reduce_zero (text : OrderText) : text.reduce 0 = text := by
  simp [OrderText.reduce]

theorem OrderText.reduce_reduce (text : OrderText) (amount more : UInt32) :
    (text.reduce amount).reduce more = text.reduce (amount + more) := by
  simp only [OrderText.reduce, sub_sub]

theorem OrderText.size_reduce {amount : Nat} (enough : amount ≤ text.size.toNat) :
    (text.reduce (UInt32.ofNat amount)).size.toNat = text.size.toNat - amount := by
  have below := text.size.toNat_lt
  have same : (UInt32.ofNat amount).toNat = amount :=
    UInt32.toNat_ofNat_of_lt' (Nat.lt_of_le_of_lt enough below)
  rw [OrderText.reduce, UInt32.toNat_sub_of_le, same]
  rw [UInt32.le_iff_toNat_le, same]
  exact enough

theorem Lot.size_text (fits : lot.size < UInt32.size) :
    (lot.text symbol isBuySide price).size.toNat = lot.size :=
  UInt32.toNat_ofNat_of_lt' fits

/-- The text of a lot of which a part was served. -/
theorem Lot.text_reduce {amount : Nat} (short : amount < lot.size) :
    (lot.text symbol isBuySide price).reduce (UInt32.ofNat amount) =
      Lot.text symbol isBuySide price ⟨lot.tag, lot.size - amount, Nat.sub_pos_of_lt short⟩ := by
  have size : UInt32.ofNat lot.size - UInt32.ofNat amount = UInt32.ofNat (lot.size - amount) := by
    rw [UInt32.ofNat_sub (Nat.le_of_lt short)]
  simp only [OrderText.reduce, Lot.text, size]

theorem Request.text_remainder (request : Request) (ref : Ref) {available : Nat}
    (left : available < request.size.toNat) :
    (request.text symbol).reduce (UInt32.ofNat (min request.size.toNat available)) =
      Lot.text symbol request.isBuySide request.price
        ⟨request.ticket ref, request.size.toNat - available, Nat.sub_pos_of_lt left⟩ := by
  have whole : request.text symbol = Lot.text symbol request.isBuySide request.price
      ⟨request.ticket ref, request.size.toNat, Nat.lt_of_le_of_lt (Nat.zero_le _) left⟩ :=
    OrderText.ext rfl rfl rfl (UInt32.ofNat_toNat).symm rfl rfl
  rw [Nat.min_eq_right (Nat.le_of_lt left), whole]
  exact Lot.text_reduce left

end Texts

theorem fillLog_zero (text : Lot (Ticket Ref) → OrderText) (lots : List (Lot (Ticket Ref))) :
    fillLog text 0 lots = [] := by
  cases lots with
  | nil => rfl
  | cons lot later => exact if_pos rfl

theorem lotLog_short (text : Lot (Ticket Ref) → OrderText) {amount : Nat} {lot : Lot (Ticket Ref)}
    (short : amount < lot.size) : lotLog text amount lot =
      [.matched (UInt32.ofNat amount) ((text lot).reduce (UInt32.ofNat amount))] := by
  rw [lotLog, if_neg (Nat.not_le.mpr short), Nat.min_eq_left (Nat.le_of_lt short)]

theorem lotLog_whole (text : Lot (Ticket Ref) → OrderText) {amount : Nat} {lot : Lot (Ticket Ref)}
    (whole : lot.size ≤ amount) : lotLog text amount lot =
      [.matched (UInt32.ofNat lot.size) ((text lot).reduce (UInt32.ofNat lot.size)),
        .closing ((text lot).reduce (UInt32.ofNat lot.size))] := by
  rw [lotLog, if_pos whole, Nat.min_eq_right whole]

theorem sweepLog_zero (text : UInt64 → Lot (Ticket Ref) → OrderText) (reach : UInt64 → Bool)
    (levels : List (Level UInt64 (Ticket Ref))) : sweepLog text reach 0 levels = [] := by
  induction levels with
  | nil => rfl
  | cons level worse ih =>
    rw [sweepLog, fillLog_zero, Nat.zero_sub, ih]
    exact ite_self _

/-! ### Readers -/

namespace Reader

variable {reader : Reader} {isBuySide : Bool} {price : UInt64}

theorem readAll_append (reader : Reader) (first second : List LogLine) :
    reader.readAll (first ++ second) = (reader.readAll first).bind fun next => next.readAll second :=
  List.foldlM_append

theorem readAll_cons {line : LogLine} {next : Reader} (read : reader.read line = some next)
    (lines : List LogLine) : reader.readAll (line :: lines) = next.readAll lines := by
  simp only [readAll, List.foldlM_cons, read]
  rfl

theorem lines_setLineAt_self (line : List OrderText) :
    (reader.setLineAt isBuySide price line).lines isBuySide price = line := by
  simp [setLineAt]

theorem lines_setLineAt_of_ne {side : Bool} {other : UInt64}
    (different : ¬ (side = isBuySide ∧ other = price)) (line : List OrderText) :
    (reader.setLineAt isBuySide price line).lines side other = reader.lines side other := by
  rw [setLineAt]
  by_cases same : side = isBuySide
  · subst same
    exact (congrFun (Function.update_self ..) other).trans
      (Function.update_of_ne (fun here => different ⟨rfl, here⟩) ..)
  · exact congrFun (Function.update_of_ne same ..) other

theorem setLineAt_self {line : List OrderText} (same : reader.lines isBuySide price = line) :
    reader.setLineAt isBuySide price line = reader := by
  simp [setLineAt, ← same]

theorem setLineAt_setLineAt (first second : List OrderText) :
    (reader.setLineAt isBuySide price first).setLineAt isBuySide price second =
      reader.setLineAt isBuySide price second := by
  simp [setLineAt]

theorem charge_zero (reader : Reader) : reader.charge 0 = reader := by
  simp [charge, OrderText.reduce_zero]

theorem charge_charge (reader : Reader) (amount more : UInt32) :
    (reader.charge amount).charge more = reader.charge (amount + more) := by
  simp [charge, Function.comp_def, OrderText.reduce_reduce]

theorem charge_setLineAt (line : List OrderText) (amount : UInt32) :
    (reader.charge amount).setLineAt isBuySide price line =
      (reader.setLineAt isBuySide price line).charge amount := rfl

/-- The incoming order, if any, is of the other side, reaches that far and has this much left. -/
def Awaits (reader : Reader) (isBuySide : Bool) (reach : UInt64 → Bool) (amount : Nat) : Prop :=
  ∀ incoming ∈ reader.incoming, amount ≤ incoming.size.toNat ∧ isBuySide = !incoming.isBuySide ∧
    ∀ price, reach price = true →
      inReach incoming.isBuySide incoming.price incoming.orderType price = true

variable {reach : UInt64 → Bool} {amount : Nat}

theorem Awaits.charge {taken : Nat} (awaits : reader.Awaits isBuySide reach amount)
    (most : taken ≤ amount) :
    (reader.charge (UInt32.ofNat taken)).Awaits isBuySide reach (amount - taken) := by
  intro incoming member
  obtain ⟨before, same, rfl⟩ := Option.map_eq_some_iff.mp member
  obtain ⟨enough, side, within⟩ := awaits before same
  refine ⟨?_, side, within⟩
  rw [OrderText.size_reduce (Nat.le_trans most enough)]
  omega

theorem Awaits.setLineAt (awaits : reader.Awaits isBuySide reach amount) (side : Bool)
    (price : UInt64) (line : List OrderText) :
    (reader.setLineAt side price line).Awaits isBuySide reach amount := awaits

theorem Awaits.permits {taken : Nat} {order : OrderText}
    (awaits : reader.Awaits order.isBuySide reach amount) (most : taken ≤ amount)
    (within : reach order.price = true) :
    Permits order (UInt32.ofNat taken) reader.incoming := by
  cases found : reader.incoming with
  | none => trivial
  | some incoming =>
    obtain ⟨enough, side, reached⟩ := awaits incoming found
    refine ⟨?_, side, reached _ within⟩
    have below := incoming.size.toNat_lt
    rw [UInt32.le_iff_toNat_le, UInt32.toNat_ofNat_of_lt' (by simp only [UInt32.size]; omega)]
    omega

/-! ### Reading what is served -/

section Served

variable {symbol : String} {lot : Lot (Ticket Ref)} {lots later : List (Lot (Ticket Ref))}

/-- Part of the first lot is served. -/
theorem read_short (known : reader.lines isBuySide price =
      (lot :: later).map (Lot.text symbol isBuySide price)) (fits : lot.size < UInt32.size)
    (positive : 0 < amount) (short : amount < lot.size)
    (within : reach price = true) (awaits : reader.Awaits isBuySide reach amount) :
    reader.read (.matched (UInt32.ofNat amount)
        ((lot.text symbol isBuySide price).reduce (UInt32.ofNat amount))) =
      some ((reader.setLineAt isBuySide price ((fill amount (lot :: later)).map
        (Lot.text symbol isBuySide price))).charge (UInt32.ofNat amount)) := by
  have line : reader.lineOf ((lot.text symbol isBuySide price).reduce (UInt32.ofNat amount)) =
      lot.text symbol isBuySide price :: later.map (Lot.text symbol isBuySide price) := known
  have taken : (UInt32.ofNat amount).toNat = amount :=
    UInt32.toNat_ofNat_of_lt' (Nat.lt_trans short fits)
  have permits : Permits ((lot.text symbol isBuySide price).reduce (UInt32.ofNat amount))
      (UInt32.ofNat amount) reader.incoming := Awaits.permits awaits (Nat.le_refl _) within
  have positive' : 0 < UInt32.ofNat amount := by
    rw [UInt32.lt_iff_toNat_lt, taken]
    exact positive
  have less : UInt32.ofNat amount ≤ (lot.text symbol isBuySide price).size := by
    rw [UInt32.le_iff_toNat_le, taken, Lot.size_text fits]
    exact Nat.le_of_lt short
  rw [read, line, fill_short short, List.map_cons, ← Lot.text_reduce short]
  exact if_pos ⟨positive', less, rfl, permits⟩

/-- The first lot is served and closed. -/
theorem readAll_whole (known : reader.lines isBuySide price =
      (lot :: later).map (Lot.text symbol isBuySide price)) (fits : lot.size < UInt32.size)
    (whole : lot.size ≤ amount) (within : reach price = true)
    (awaits : reader.Awaits isBuySide reach amount) (lines : List LogLine) :
    reader.readAll (.matched (UInt32.ofNat lot.size)
        ((lot.text symbol isBuySide price).reduce (UInt32.ofNat lot.size)) ::
        .closing ((lot.text symbol isBuySide price).reduce (UInt32.ofNat lot.size)) :: lines) =
      ((reader.setLineAt isBuySide price (later.map (Lot.text symbol isBuySide price))).charge
        (UInt32.ofNat lot.size)).readAll lines := by
  let closed := (lot.text symbol isBuySide price).reduce (UInt32.ofNat lot.size)
  have line : reader.lineOf closed =
      lot.text symbol isBuySide price :: later.map (Lot.text symbol isBuySide price) := known
  have taken : (UInt32.ofNat lot.size).toNat = lot.size := UInt32.toNat_ofNat_of_lt' fits
  have permits : Permits closed (UInt32.ofNat lot.size) reader.incoming :=
    Awaits.permits awaits whole within
  have positive : 0 < UInt32.ofNat lot.size := by
    rw [UInt32.lt_iff_toNat_lt, taken]
    exact lot.positive
  have matched : reader.read (.matched (UInt32.ofNat lot.size) closed) = some ((reader.setLineAt
      isBuySide price (closed :: later.map (Lot.text symbol isBuySide price))).charge
        (UInt32.ofNat lot.size)) := by
    rw [read, line]
    exact if_pos ⟨positive, UInt32.le_refl _, rfl, permits⟩
  have line' : (((reader.setLineAt isBuySide price (closed :: later.map
      (Lot.text symbol isBuySide price))).charge (UInt32.ofNat lot.size)).lineOf closed) =
        closed :: later.map (Lot.text symbol isBuySide price) :=
    lines_setLineAt_self _
  have empty : closed.size = 0 := UInt32.sub_self _
  rw [readAll_cons matched]
  refine readAll_cons ?_ lines
  rw [read, line']
  refine (if_pos ⟨rfl, empty⟩).trans (congrArg _ ?_)
  rw [setLine, charge_setLineAt]
  exact congrArg (fun reader => Reader.charge reader _) (setLineAt_setLineAt _ _)

/-- **A reader that knows a line reads what serving it logs**, and knows what is left. -/
theorem readAll_fillLog (known : reader.lines isBuySide price =
      lots.map (Lot.text symbol isBuySide price)) (fits : Fits lots)
    (within : reach price = true) (awaits : reader.Awaits isBuySide reach amount) :
    reader.readAll (fillLog (Lot.text symbol isBuySide price) amount lots) =
      some ((reader.setLineAt isBuySide price ((fill amount lots).map
        (Lot.text symbol isBuySide price))).charge (UInt32.ofNat (min amount (total lots)))) := by
  induction lots generalizing amount reader with
  | nil =>
    rw [total_nil, Nat.min_zero]
    exact congrArg some ((charge_zero _).trans (setLineAt_self known)).symm
  | cons lot later ih =>
    have here := fits lot List.mem_cons_self
    rw [fillLog]
    split
    · next zero =>
      rw [zero, fill_zero, Nat.zero_min, setLineAt_self known]
      exact congrArg some (charge_zero _).symm
    · next more =>
      have positive := Nat.pos_of_ne_zero more
      by_cases short : amount < lot.size
      · rw [lotLog_short _ short, Nat.sub_eq_zero_of_le (Nat.le_of_lt short), fillLog_zero,
          List.append_nil, readAll_cons (read_short known here positive short within awaits),
          total_cons, Nat.min_eq_left (by omega)]
        rfl
      · have whole := Nat.not_lt.mp short
        have sum : min amount (lot.size + total later) =
            lot.size + min (amount - lot.size) (total later) := by omega
        rw [lotLog_whole _ whole, List.cons_append, List.singleton_append,
          readAll_whole known here whole within awaits, fill_whole whole, total_cons, sum,
          UInt32.ofNat_add, ← charge_charge]
        refine (ih ?_ (fun lot member => fits lot (List.mem_cons_of_mem _ member))
          ((awaits.setLineAt _ _ _).charge whole)).trans ?_
        · exact lines_setLineAt_self _
        · rw [charge_setLineAt, setLineAt_setLineAt]

end Served

/-! ### Reading a sweep -/

section Swept

variable {symbol : String} {levels worse : List (Level UInt64 (Ticket Ref))}

/-- Replace all lines of a side. -/
def setSide (reader : Reader) (isBuySide : Bool) (lines : UInt64 → List OrderText) : Reader :=
  { reader with lines := Function.update reader.lines isBuySide lines }

theorem setSide_self {lines : UInt64 → List OrderText} (same : reader.lines isBuySide = lines) :
    reader.setSide isBuySide lines = reader := by
  simp [setSide, ← same]

theorem setSide_setSide (first second : UInt64 → List OrderText) :
    (reader.setSide isBuySide first).setSide isBuySide second = reader.setSide isBuySide second := by
  simp [setSide]

theorem charge_setSide (lines : UInt64 → List OrderText) (amount : UInt32) :
    (reader.charge amount).setSide isBuySide lines =
      (reader.setSide isBuySide lines).charge amount := rfl

theorem setLineAt_eq_setSide {line : List OrderText} {lines : UInt64 → List OrderText}
    (here : lines price = line)
    (elsewhere : ∀ other, other ≠ price → lines other = reader.lines isBuySide other) :
    reader.setLineAt isBuySide price line = reader.setSide isBuySide lines := by
  have same : Function.update (reader.lines isBuySide) price line = lines := by
    funext other
    by_cases equal : other = price
    · subst equal
      rw [Function.update_self, here]
    · rw [Function.update_of_ne equal, elsewhere other equal]
  rw [setLineAt, setSide, same]

/-- Behind the best level nothing has its price. -/
theorem ladderText_tail {better : UInt64 → UInt64 → Prop} [IsStrictTotalOrder UInt64 better]
    {level : Level UInt64 (Ticket Ref)} (sorted : Sorted better (level :: worse)) (symbol : String)
    (isBuySide : Bool) : ladderText symbol isBuySide worse level.price = [] := by
  rw [ladderText, sorted.lotsAt_tail, List.map_nil]

theorem ladderText_of_ne {level : Level UInt64 (Ticket Ref)} (different : price ≠ level.price) :
    ladderText symbol isBuySide (level :: worse) price =
      ladderText symbol isBuySide worse price :=
  congrArg _ (lotsAt_of_ne (Ne.symm different))

/-- **A reader that knows a ladder reads what a sweep logs**, and knows what the sweep leaves. -/
theorem readAll_sweepLog {better : UInt64 → UInt64 → Prop} [IsStrictTotalOrder UInt64 better]
    (sorted : Sorted better levels)
    (known : reader.lines isBuySide = ladderText symbol isBuySide levels)
    (fits : Fits (flat levels)) (awaits : reader.Awaits isBuySide reach amount) :
    reader.readAll (sweepLog (Lot.text symbol isBuySide) reach amount levels) =
      some ((reader.setSide isBuySide
        (ladderText symbol isBuySide (sweep reach amount levels))).charge
          (UInt32.ofNat (min amount (liquidity reach levels)))) := by
  induction levels generalizing amount reader with
  | nil =>
    rw [liquidity, Nat.min_zero]
    exact congrArg some ((charge_zero _).trans (setSide_self known)).symm
  | cons level worse ih =>
    cases within : reach level.price with
    | false =>
      have out := Bool.eq_false_iff.mp within
      rw [sweepLog, if_neg out, liquidity, if_neg out, Nat.min_zero, sweep_stop within,
        setSide_self known]
      exact congrArg some (charge_zero _).symm
    | true =>
      have here : reader.lines isBuySide level.price =
          level.lots.map (Lot.text symbol isBuySide level.price) := by
        rw [known, ladderText, lotsAt_self]
      have elsewhere : ∀ other, other ≠ level.price →
          reader.lines isBuySide other = ladderText symbol isBuySide worse other := by
        intro other different
        rw [known, ladderText_of_ne different]
      have fits' : Fits level.lots ∧ Fits (flat worse) := by
        rw [flat_cons] at fits
        exact List.forall_mem_append.mp fits
      have sum : min amount (total level.lots + liquidity reach worse) = min amount
          (total level.lots) + min (amount - total level.lots) (liquidity reach worse) := by omega
      rw [sweepLog, if_pos within, liquidity, if_pos within, readAll_append,
        readAll_fillLog here fits'.1 within awaits, Option.bind_some, sum, UInt32.ofNat_add,
        ← charge_charge]
      by_cases emptied : fill amount level.lots = []
      · -- the line is used up, and the sweep goes on
        have tail := ladderText_tail sorted symbol isBuySide
        rw [emptied, List.map_nil, setLineAt_eq_setSide tail fun other different =>
          (elsewhere other different).symm, sweep_whole within emptied,
          Nat.min_eq_right (fill_eq_nil.mp emptied)]
        refine (ih (List.pairwise_cons.mp sorted).2 ?_ fits'.2 ?_).trans ?_
        · exact Function.update_self ..
        · exact Awaits.charge awaits (fill_eq_nil.mp emptied)
        · rw [charge_setSide, setSide_setSide]
      · -- the sweep ends in this line
        have nothing : amount - total level.lots = 0 :=
          Nat.sub_eq_zero_of_le (Nat.le_of_not_le fun enough => emptied (fill_eq_nil.mpr enough))
        rw [nothing, sweepLog_zero, Nat.zero_min, sweep_part within emptied]
        refine congrArg some (Eq.trans ?_ (charge_zero _).symm)
        refine congrArg (fun reader => Reader.charge reader _) (setLineAt_eq_setSide ?_ ?_)
        · exact congrArg _ lotsAt_self
        · intro other different
          rw [elsewhere other different]
          exact ladderText_of_ne (by exact different)

end Swept

end Reader

/-! ### Reading what the operations of a book log -/

/-- The reader knows a book, and no order is coming in. -/
structure Reader.Knows (reader : Reader) (symbol : String) (book : PureBook (Ticket Ref)) :
    Prop where
  lines : ∀ side, reader.lines side = ladderText symbol side (book.levels side)
  idle : reader.incoming = none

namespace Reader.Knows

variable {reader : Reader} {symbol : String} {book : PureBook (Ticket Ref)} {isBuySide : Bool}

/-- **What a match logs is read as the match.** -/
theorem matchOrder (knows : reader.Knows symbol book) (fits : Fits (book.line !isBuySide))
    (price : UInt64) (amount : Nat) (type : OrderType) :
    ∃ next : Reader, reader.readAll (sweepLog (Lot.text symbol !isBuySide)
        (inReach isBuySide price type) amount (book.levels !isBuySide)) = some next ∧
      next.Knows symbol (book.matchOrder isBuySide price amount type) := by
  have awaits : reader.Awaits (!isBuySide) (inReach isBuySide price type) amount := by
    intro incoming member
    rw [knows.idle] at member
    cases member
  refine ⟨_, readAll_sweepLog (book.sorted _) (knows.lines _) fits awaits, fun side => ?_, ?_⟩
  · by_cases same : side = isBuySide
    · subst same
      rw [book.matchOrder_self, ← knows.lines]
      exact Function.update_of_ne (Bool.not_ne_self side).symm ..
    · obtain rfl := Bool.eq_not_of_ne same
      rw [book.matchOrder_not]
      exact Function.update_self ..
  · rw [Reader.charge, Reader.setSide, knows.idle]
    rfl

/-- The reader while an order is coming in, after what it could take is gone. -/
theorem sweep (knows : reader.Knows symbol book) (request : Request)
    (fits : Fits (book.line !request.isBuySide)) :
    ∃ next : Reader, reader.readAll (.incoming (request.text symbol) ::
        sweepLog (Lot.text symbol !request.isBuySide)
          (inReach request.isBuySide request.price request.orderType) request.size.toNat
          (book.levels !request.isBuySide)) = some next ∧
      next.incoming = some ((request.text symbol).reduce (UInt32.ofNat (min request.size.toNat
        (book.available request.isBuySide request.price request.orderType)))) ∧
      next.lines request.isBuySide =
        ladderText symbol request.isBuySide (book.levels request.isBuySide) ∧
      next.lines (!request.isBuySide) = ladderText symbol (!request.isBuySide)
        (book.swept request.isBuySide request.price request.size.toNat request.orderType) := by
  let started : Reader := { reader with incoming := some (request.text symbol) }
  have read : reader.read (.incoming (request.text symbol)) = some started := if_pos knows.idle
  have awaits : started.Awaits (!request.isBuySide)
      (inReach request.isBuySide request.price request.orderType) request.size.toNat := by
    intro incoming member
    obtain rfl := Option.some.inj member
    exact ⟨Nat.le_refl _, rfl, fun _ => id⟩
  have known : started.lines (!request.isBuySide) = _ := knows.lines _
  refine ⟨_, (readAll_cons read _).trans (readAll_sweepLog (book.sorted _) known fits awaits), rfl,
    ?_, ?_⟩
  · rw [← knows.lines]
    exact Function.update_of_ne (Bool.not_ne_self request.isBuySide).symm ..
  · exact Function.update_self ..

/-- **What an accepted order logs is read as the order added.** -/
theorem add (knows : reader.Knows symbol book) (request : Request) (ref : Ref)
    (fits : Fits (book.line !request.isBuySide)) :
    ∃ next : Reader, reader.readAll (.incoming (request.text symbol) ::
        (sweepLog (Lot.text symbol !request.isBuySide)
          (inReach request.isBuySide request.price request.orderType) request.size.toNat
          (book.levels !request.isBuySide) ++ [request.outcome symbol
            (book.available request.isBuySide request.price request.orderType)])) = some next ∧
      next.Knows symbol (book.add (request.ticket ref) request.size.toNat request.price
        request.isBuySide request.orderType) := by
  obtain ⟨swept, read, incoming, own, other⟩ := knows.sweep request fits
  let available := book.available request.isBuySide request.price request.orderType
  let text := (request.text symbol).reduce (UInt32.ofNat (min request.size.toNat available))
  have size : text.size.toNat = request.size.toNat - min request.size.toNat available :=
    OrderText.size_reduce (Nat.min_le_left ..)
  rw [← List.cons_append, readAll_append, read, Option.bind_some, Request.outcome]
  by_cases left : available < request.size.toNat
  · have positive : 0 < text.size := by
      rw [UInt32.lt_iff_toNat_lt, size, UInt32.toNat_zero]
      omega
    have rests : swept.read (.resting text) =
        some { swept.setLine text (swept.lineOf text ++ [text]) with incoming := none } :=
      if_pos ⟨incoming, positive⟩
    rw [if_pos left]
    refine ⟨_, readAll_cons rests [], fun side => ?_, rfl⟩
    by_cases same : side = request.isBuySide
    · subst same
      have line : (swept.setLine text (swept.lineOf text ++ [text])).lines request.isBuySide =
          Function.update (swept.lines request.isBuySide) request.price
            (swept.lines request.isBuySide request.price ++ [text]) := Function.update_self ..
      rw [book.add_self_of_lt _ _ _ _ _ left]
      refine line.trans (funext fun other => ?_)
      rw [ladderText, lotsAt_rest (book.sorted _), own]
      by_cases here : other = request.price
      · subst here
        rw [Function.update_self, if_pos rfl, List.map_append, List.map_singleton]
        exact congrArg (fun text => ladderText _ _ _ _ ++ [text]) (request.text_remainder ref left)
      · rw [Function.update_of_ne here, if_neg here, ladderText]
    · obtain rfl := Bool.eq_not_of_ne same
      rw [book.add_not]
      exact (Function.update_of_ne same ..).trans other
  · have zero : text.size = 0 := by
      rw [← UInt32.toNat_inj, size, UInt32.toNat_zero]
      omega
    have done : swept.read (.fullyMatched text) = some { swept with incoming := none } :=
      if_pos ⟨incoming, zero⟩
    rw [if_neg left]
    refine ⟨_, readAll_cons done [], fun side => ?_, rfl⟩
    by_cases same : side = request.isBuySide
    · subst same
      rw [book.add_self_of_le _ _ _ _ _ (Nat.not_lt.mp left)]
      exact own
    · obtain rfl := Bool.eq_not_of_ne same
      rw [book.add_not]
      exact other

/-- **What a cancel logs is read as the order withdrawn**, if its text names no other order of its
line. -/
theorem cancel (knows : reader.Knows symbol book) (gone : Ticket Ref → Bool) {price : UInt64}
    {lot : Lot (Ticket Ref)} (member : lot ∈ lotsAt (book.levels isBuySide) price)
    (own : gone lot.tag = true)
    (nodup : (lotsAt (book.levels isBuySide) price).Nodup)
    (elsewhere : ∀ side limit, ∀ other ∈ lotsAt (book.levels side) limit, gone other.tag = true →
      side = isBuySide ∧ limit = price ∧ other = lot)
    (distinct : ∀ one ∈ lotsAt (book.levels isBuySide) price,
      ∀ other ∈ lotsAt (book.levels isBuySide) price,
        one.tag.orderId = other.tag.orderId → one = other) :
    ∃ next : Reader, reader.readAll [.cancelled (lot.text symbol isBuySide price)] = some next ∧
      next.Knows symbol (book.cancel gone) := by
  let lots := lotsAt (book.levels isBuySide) price
  let text := Lot.text symbol isBuySide price lot
  have line : reader.lineOf text = lots.map (Lot.text symbol isBuySide price) :=
    congrFun (knows.lines isBuySide) price
  have injective : ∀ one ∈ lots, ∀ other ∈ lots, Lot.text symbol isBuySide price one =
      Lot.text symbol isBuySide price other → one = other :=
    fun one here other there same => distinct one here other there (congrArg OrderText.orderId same)
  have found : text ∈ reader.lineOf text := line ▸ List.mem_map_of_mem member
  have read : reader.read (.cancelled text) =
      some (reader.setLine text ((reader.lineOf text).erase text)) := if_pos ⟨knows.idle, found⟩
  have erased : (reader.lineOf text).erase text =
      (keep gone lots).map (Lot.text symbol isBuySide price) := by
    rw [line, (List.Nodup.map_on injective nodup).erase_eq_filter, List.filter_map, keep]
    refine congrArg _ (List.filter_congr fun other there => ?_)
    rw [Function.comp_apply, Bool.eq_iff_iff, bne_iff_ne, Bool.not_eq_true', Bool.eq_false_iff]
    refine not_congr ⟨fun same => ?_, fun named => ?_⟩
    · rwa [injective other there lot member same]
    · rw [(elsewhere _ _ other there named).2.2]
  have outside : ∀ side limit, ¬ (side = isBuySide ∧ limit = price) →
      keep gone (lotsAt (book.levels side) limit) = lotsAt (book.levels side) limit := by
    intro side limit different
    refine keep_eq_self fun other there => Bool.eq_false_iff.mpr fun named => different ?_
    exact ⟨(elsewhere side limit other there named).1, (elsewhere side limit other there named).2.1⟩
  refine ⟨_, readAll_cons read [], fun side => funext fun limit => ?_, knows.idle⟩
  have after : ladderText symbol side ((book.cancel gone).levels side) limit =
      (keep gone (lotsAt (book.levels side) limit)).map (Lot.text symbol side limit) :=
    congrArg _ (lotsAt_withdraw (book.sorted side) limit)
  rw [after, erased]
  by_cases here : side = isBuySide ∧ limit = price
  · obtain ⟨rfl, rfl⟩ := here
    exact lines_setLineAt_self _
  · rw [outside side limit here]
    exact (lines_setLineAt_of_ne here _).trans (congrFun (knows.lines side) limit)

end Reader.Knows

end TradingExchange
