/-
**Larger orders with wider limits leave less, and nothing else.**

Take two runs from one book that send orders, or direct match calls, against the same side, pair by
pair: in the second run each is at least as large and reaches at least as far. Then what the second
run leaves on that side is the tail of what the first leaves, price by price: an order that it leaves
is left by the first as well, and not smaller (`pressure_run`). Only a refused order of the second run
can spoil this.

Every sweep is a sweep of everything, by what it takes (`Ladder.sweep_eq_all`). So all that there is
to one side under such calls is how much of it is gone, and the second run keeps ahead
(`AheadOn.step`).
-/

import TradingExchange.Properties.Alike

namespace TradingExchange

open Lots Ladder

variable {poolSize : UInt64}

/-- What a call sends against the other side. -/
structure Incoming where
  isBuySide : Bool
  price : UInt64
  amount : Nat
  type : OrderType
deriving DecidableEq, Repr

/-- What a call sends; a cancel sends nothing. -/
def Call.incoming : Call poolSize → Option Incoming
  | .addOrder request =>
    some ⟨request.isBuySide, request.price, request.size.toNat, request.orderType⟩
  | .cancelOrder _ => none
  | .matchOrder isBuySide price size type totalMatched =>
    some ⟨isBuySide, price, size.toNat - totalMatched.toNat, type⟩

/-- The second of two is at least as large, and its limit is at least as wide. -/
structure Incoming.Bolder (one other : Incoming) : Prop where
  side : other.isBuySide = one.isBuySide
  more : one.amount ≤ other.amount
  limit : other.type = .market ∨ one.type = .limit ∧
    if one.isBuySide then one.price ≤ other.price else other.price ≤ one.price

/-- Two calls against the same side, the second at least as bold. -/
def Call.BolderOn (isBuySide : Bool) (call call' : Call poolSize) : Prop :=
  ∃ one other, call.incoming = some one ∧ call'.incoming = some other ∧
    one.isBuySide = isBuySide ∧ one.Bolder other

/-- A wider limit reaches further. -/
theorem Incoming.Bolder.further {one other : Incoming} (bolder : one.Bolder other) (price : UInt64)
    (reached : inReach one.isBuySide one.price one.type price = true) :
    inReach one.isBuySide other.price other.type price = true := by
  rcases bolder.limit with market | ⟨limit, wider⟩
  · rw [market]
    rfl
  · rw [limit] at reached
    simp only [inReach, beq_self_eq_true, Bool.true_and, Bool.not_eq_true', decide_eq_false_iff_not]
      at reached
    simp only [inReach, Bool.not_eq_true', Bool.and_eq_false_iff, decide_eq_false_iff_not]
    refine .inr fun past => reached ?_
    cases side : one.isBuySide with
    | true =>
      rw [side, if_pos rfl] at wider
      rw [side] at past
      exact UInt64.lt_of_le_of_lt wider past
    | false =>
      rw [side, if_neg Bool.false_ne_true] at wider
      rw [side] at past
      exact UInt64.lt_of_lt_of_le past wider

/-! ### Views -/

namespace View

variable {view : View poolSize}

/-- **A call sweeps what it sends against**, or the order is refused. -/
theorem levels_incoming {call : Call poolSize} {one : Incoming} (sends : call.incoming = some one) :
    (view.step call).2.book.levels (!one.isBuySide) =
        sweep (inReach one.isBuySide one.price one.type) one.amount
          (view.book.levels !one.isBuySide) ∨
      (view.step call).1 = .order none ∧ (view.step call).2 = view := by
  cases call with
  | addOrder request =>
    obtain rfl := Option.some.inj sends
    rw [step]
    cases found : view.free with
    | nil =>
      rw [add_nil found]
      exact .inr ⟨rfl, rfl⟩
    | cons slot free =>
      rw [add_cons found]
      exact .inl (PureBook.add_not ..)
  | cancelOrder order => cases sends
  | matchOrder isBuySide price size type totalMatched =>
    obtain rfl := Option.some.inj sends
    exact .inl (PureBook.matchOrder_not ..)

end View

/-- On the side that is sent against, the second view has lost at least as much. -/
def AheadOn (isBuySide : Bool) (view view' : View poolSize) : Prop :=
  ∃ taken, view'.book.levels (!isBuySide) =
    sweep (fun _ => true) taken (view.book.levels !isBuySide)

/-- **A bolder call keeps ahead**, unless it is refused. -/
theorem AheadOn.step {isBuySide : Bool} {view view' : View poolSize}
    (ahead : AheadOn isBuySide view view') {call call' : Call poolSize}
    (pair : call.BolderOn isBuySide call') (accepted : (view'.step call').1 ≠ .order none) :
    AheadOn isBuySide (view.step call).2 (view'.step call').2 := by
  obtain ⟨one, other, sends, sends', rfl, bolder⟩ := pair
  obtain ⟨taken, levels⟩ := ahead
  have swept' := (View.levels_incoming sends' : _ ∨ (view'.step call').1 = _ ∧ _).resolve_right
    fun refused => accepted refused.1
  rw [bolder.side, levels] at swept'
  obtain ⟨amount, less, swept⟩ : ∃ amount ≤ one.amount,
      (view.step call).2.book.levels (!one.isBuySide) =
        sweep (inReach one.isBuySide one.price one.type) amount
          (view.book.levels !one.isBuySide) := by
    rcases (View.levels_incoming sends : _ ∨ (view.step call).1 = _ ∧ _) with swept | ⟨-, same⟩
    · exact ⟨one.amount, Nat.le_refl _, swept⟩
    · exact ⟨0, Nat.zero_le _, by rw [same, sweep_zero]⟩
  obtain ⟨taken', keeps⟩ := sweep_ahead (view.book.sorted _) inReach_of_better bolder.further
    (Nat.le_trans less bolder.more) taken
  refine ⟨taken', ?_⟩
  rw [swept', swept, keeps]

/-! ### Books -/

section Books

variable {book other : OrderBook poolSize} {view view' : View poolSize} {isBuySide : Bool}

/-- What serving leaves of a line is its tail. -/
theorem refs_fill_suffix {Ref : Type} (amount : Nat) (lots : List (Lot (Ticket Ref))) :
    refs (fill amount lots) <:+ refs lots := by
  induction lots generalizing amount with
  | nil => exact List.suffix_refl _
  | cons lot later ih =>
    by_cases short : amount < lot.size
    · rw [fill_short short]
      exact List.suffix_refl _
    · rw [fill_whole (Nat.not_lt.mp short), refs_cons]
      exact (ih _).trans (List.suffix_cons _ _)

/-- **A book that is ahead holds the tail of each line**, with no larger sizes. -/
theorem AheadOn.ordersAt (ahead : AheadOn isBuySide view view') (represents : Represents book view)
    (represents' : Represents other view') (symbol : other.symbol = book.symbol) (price : UInt64) :
    other.ordersAt (!isBuySide) price <:+ book.ordersAt (!isBuySide) price ∧
      ∀ slot ∈ other.ordersAt (!isBuySide) price,
        (other.order slot).size ≤ (book.order slot).size ∧
          other.entry slot = { book.entry slot with size := (other.order slot).size } := by
  obtain ⟨taken, levels⟩ := ahead
  obtain ⟨served, left, -⟩ :=
    lotsAt_sweep (fun _ => true) (view.book.sorted !isBuySide) taken price
  rw [← levels] at left
  rw [represents'.ordersAt, represents.ordersAt, left]
  refine ⟨refs_fill_suffix served _, fun slot member => ?_⟩
  obtain ⟨lot, inside, rfl⟩ := mem_refs.mp member
  obtain ⟨earlier, there, tag, less⟩ := mem_fill inside
  have filed := represents.filed there
  have filed' := represents'.filed (left ▸ inside)
  rw [tag] at filed
  refine ⟨?_, ?_⟩
  · rw [UInt32.le_iff_toNat_le, filed'.size, filed.size]
    exact less
  · rw [OrderBook.entry, OrderBook.entry, filed'.entry, filed.entry, filed'.size_eq, Lot.entry,
      Lot.entry, tag, symbol]

end Books

/-- **Bolder calls leave the tail of what the others leave**, as long as none of them is refused. -/
theorem pressure_run {book last last' : OrderBook poolSize} {calls calls' : List (Call poolSize)}
    {replies replies' : List (Reply poolSize)} (reachable : book.Reachable) (isBuySide : Bool)
    (length : calls'.length = calls.length)
    (bolder : ∀ pair ∈ calls.zip calls', pair.1.BolderOn isBuySide pair.2)
    (run : Run OrderBook.call Call.Legal book calls replies last)
    (run' : Run OrderBook.call Call.Legal book calls' replies' last')
    (accepted : Reply.order none ∉ replies') (price : UInt64) :
    last'.ordersAt (!isBuySide) price <:+ last.ordersAt (!isBuySide) price ∧
      ∀ slot ∈ last'.ordersAt (!isBuySide) price,
        (last'.order slot).size ≤ (last.order slot).size ∧
          last'.entry slot = { last.entry slot with size := (last'.order slot).size } := by
  let related := fun one two : OrderBook poolSize => ∃ view view', Represents one view ∧
    Represents two view' ∧ two.symbol = one.symbol ∧ AheadOn isBuySide view view'
  have kept : ∀ (one two : OrderBook poolSize) call call' reply next reply' next', related one two →
      Call.BolderOn isBuySide call call' → call.Legal one → one.call call = .ok (reply, next) →
      call'.Legal two → two.call call' = .ok (reply', next') → reply' ≠ .order none →
      related next next' := by
    rintro one two call call' reply next reply' next' ⟨view, view', represents, represents', symbol,
      ahead⟩ pair legal done legal' done' replied
    obtain ⟨after, ran, effect⟩ := represents.call (represents.legal.mp legal)
    obtain ⟨after', ran', effect'⟩ := represents'.call (represents'.legal.mp legal')
    obtain ⟨-, rfl⟩ := Prod.mk.inj (Except.ok.inj (done.symm.trans ran))
    obtain ⟨rfl, rfl⟩ := Prod.mk.inj (Except.ok.inj (done'.symm.trans ran'))
    refine ⟨_, _, effect.represents, effect'.represents, ?_, ahead.step pair replied⟩
    rw [effect'.symbol, effect.symbol, symbol]
  obtain ⟨view, represents⟩ := reachable.represents
  have start : AheadOn isBuySide view view := ⟨0, (sweep_zero _).symm⟩
  obtain ⟨view, view', represents, represents', symbol, ahead⟩ :=
    run.beside related kept run' length bolder
      (fun reply member refused => accepted (refused ▸ member))
      ⟨view, view, represents, represents, rfl, start⟩
  exact ahead.ordersAt represents represents' symbol price

/-- Against asks of 5 at 10 and of 4 at 11, bids of 2 and 4 at 10 and 11, or of 3 and 5. -/
theorem pressure_run_sample : ∃ book last last' : OrderBook 4,
    (book.ordersAt false 10).map Fin.val = [0] ∧ (book.ordersAt false 11).map Fin.val = [1] ∧
      last.ordersAt false 10 = [] ∧ (last.ordersAt false 11).map Fin.val = [1] ∧
      (last'.ordersAt false 11).map Fin.val = [1] ∧
      last'.ordersAt false 11 <:+ last.ordersAt false 11 ∧
      ∀ slot ∈ last'.ordersAt false 11, (last'.order slot).size ≤ (last.order slot).size := by
  let calls : List (Call 4) := [.addOrder ⟨3, 3, 2, 10, true, .limit⟩, .matchOrder true 11 4 .limit 0]
  let calls' : List (Call 4) := [.addOrder ⟨3, 3, 3, 10, true, .limit⟩,
    .addOrder ⟨4, 4, 5, 0, true, .market⟩]
  let shown (book : OrderBook 4) : List (List Nat) :=
    [(book.ordersAt false 10).map Fin.val, (book.ordersAt false 11).map Fin.val]
  let before : List (Call 4) := [.addOrder ⟨1, 1, 5, 10, false, .limit⟩,
    .addOrder ⟨2, 2, 4, 11, false, .limit⟩]
  have played : (OrderBook.play "X" 4 before).map (fun result => shown result.2) =
      some [[0], [1]] := by
    decide +kernel
  have ends : (OrderBook.play "X" 4 before).bind (fun result =>
      (execute OrderBook.call Call.Legal result.2 calls).map fun final => shown final.2) =
        some [[], [1]] := by
    decide +kernel
  have ends' : (OrderBook.play "X" 4 before).bind (fun result =>
      (execute OrderBook.call Call.Legal result.2 calls').map fun final =>
        (shown final.2, decide (Reply.order none ∈ final.1))) = some ([[], [1]], false) := by
    decide +kernel
  obtain ⟨⟨replies, book⟩, ran, asks⟩ := Option.map_eq_some_iff.mp played
  rw [ran] at ends ends'
  obtain ⟨⟨told, last⟩, run, after⟩ := Option.map_eq_some_iff.mp ends
  obtain ⟨⟨told', last'⟩, run', after'⟩ := Option.map_eq_some_iff.mp ends'
  simp only [shown, Prod.mk.injEq, List.cons.injEq, and_true, List.map_eq_nil_iff] at asks after after'
  have bolder : ∀ pair ∈ calls.zip calls', pair.1.BolderOn true pair.2 := by
    intro pair member
    rcases List.mem_cons.mp member with rfl | later
    · exact ⟨_, _, rfl, rfl, rfl, rfl, by decide, .inr ⟨rfl, by decide⟩⟩
    · obtain rfl := List.mem_singleton.mp later
      exact ⟨_, _, rfl, rfl, rfl, rfl, by decide, .inl rfl⟩
  have length : calls'.length = calls.length := rfl
  obtain ⟨tail, orders⟩ := pressure_run (OrderBook.reachable_of_play ran) true length bolder
    (.of_execute run) (.of_execute run') (of_decide_eq_false after'.2) 11
  exact ⟨book, last, last', asks.1, asks.2, after.1, after.2, after'.1.2, tail,
    fun slot member => (orders slot member).1⟩

end TradingExchange
