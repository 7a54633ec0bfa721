/-
**Matching is blind to who sends an order.**

Two runs whose calls differ in the order ids and client ids only, in any way, hand out the same slots,
return the same totals and log the same lines but for the ids; the books hold the same orders in the
same slots but for the ids, and print the same text (`blind_run`).

The ids are part of the records that the pool holds, and of nothing else: a view without them steps as
it does with them (`BlindTo.step`).
-/

import TradingExchange.Properties.Alike

namespace TradingExchange

open Lots Ladder

variable {poolSize : UInt64}

/-! ### Leaving out the ids -/

/-- Arguments without the ids. -/
def Request.unsigned (request : Request) : Request := { request with orderId := 0, clientId := 0 }

/-- A call without the ids. -/
def Call.unsigned : Call poolSize → Call poolSize
  | .addOrder request => .addOrder request.unsigned
  | call => call

/-- A record without the ids. -/
def Order.unsigned {Item : Type} (order : Order Item) : Order Item :=
  { order with orderId := 0, clientId := 0 }

/-- What is printed without the id. -/
def OrderText.unsigned (text : OrderText) : OrderText := { text with orderId := 0 }

/-- A message without the id. -/
def LogLine.unsigned : LogLine → LogLine
  | .incoming order => .incoming order.unsigned
  | .matched amount order => .matched amount order.unsigned
  | .closing order => .closing order.unsigned
  | .resting order => .resting order.unsigned
  | .fullyMatched order => .fullyMatched order.unsigned
  | .cancelled order => .cancelled order.unsigned

/-- A ticket without the ids. -/
def Ticket.unsigned {Ref : Type} (ticket : Ticket Ref) : Ticket Ref :=
  { ticket with orderId := 0, clientId := 0 }

/-- A call, with what it logs but for the ids and what it returns. -/
def OrderBook.callHeard (book : OrderBook poolSize) (call : Call poolSize) :
    Except Fault ((List LogLine × Reply poolSize) × OrderBook poolSize) :=
  (book.call call).map fun (reply, after) =>
    (((book.log call).map LogLine.unsigned, reply), after)

/-- Arguments that agree without the ids differ in them at most. -/
theorem Request.eq_of_unsigned {request other : Request}
    (same : other.unsigned = request.unsigned) :
    ∃ orderId clientId, other = { request with orderId := orderId, clientId := clientId } := by
  obtain ⟨orderId, clientId, size, price, isBuySide, orderType⟩ := other
  refine ⟨orderId, clientId, ?_⟩
  simp only [unsigned, Request.mk.injEq, true_and] at same
  obtain ⟨rfl, rfl, rfl, rfl⟩ := same
  rfl

/-- Calls that agree without the ids are the same, or add orders that do. -/
theorem Call.eq_of_unsigned {call other : Call poolSize} (same : other.unsigned = call.unsigned) :
    other = call ∨ ∃ request orderId clientId, call = .addOrder request ∧
      other = .addOrder { request with orderId := orderId, clientId := clientId } := by
  cases call with
  | addOrder request =>
    cases other with
    | addOrder request' =>
      obtain ⟨orderId, clientId, rfl⟩ := Request.eq_of_unsigned (Call.addOrder.inj same)
      exact .inr ⟨request, orderId, clientId, rfl, rfl⟩
    | _ => cases same
  | cancelOrder order =>
    cases other with
    | addOrder => cases same
    | _ => exact .inl same
  | matchOrder =>
    cases other with
    | addOrder => cases same
    | _ => exact .inl same

/-! ### Logs -/

section Logs

variable {Ref : Type}

theorem refs_unsigned (lots : List (Lot (Ticket Ref))) :
    refs (lots.map (Lot.relabel Ticket.unsigned)) = refs lots := by
  rw [refs_eq, refs_eq, List.map_map]
  rfl

theorem map_unsigned_fillLog (text : Lot (Ticket Ref) → OrderText) (amount : Nat)
    (lots : List (Lot (Ticket Ref))) :
    (fillLog text amount lots).map LogLine.unsigned =
      fillLog (OrderText.unsigned ∘ text) amount lots := by
  induction lots generalizing amount with
  | nil => rfl
  | cons lot later ih =>
    rw [fillLog, fillLog]
    split
    · rfl
    · rw [List.map_append, ih, lotLog, lotLog, List.map_cons]
      split <;> rfl

theorem map_unsigned_sweepLog (text : UInt64 → Lot (Ticket Ref) → OrderText)
    (reach : UInt64 → Bool) (amount : Nat) (levels : List (Level UInt64 (Ticket Ref))) :
    (sweepLog text reach amount levels).map LogLine.unsigned =
      sweepLog (fun price => OrderText.unsigned ∘ text price) reach amount levels := by
  induction levels generalizing amount with
  | nil => rfl
  | cons level worse ih =>
    rw [sweepLog, sweepLog]
    split
    · rw [List.map_append, map_unsigned_fillLog, ih]
    · rfl

/-- **But for the ids, a sweep logs what it does without them.** -/
theorem sweepLog_unsigned (symbol : String) (isBuySide : Bool) (reach : UInt64 → Bool)
    (amount : Nat) (levels : List (Level UInt64 (Ticket Ref))) :
    (sweepLog (Lot.text symbol isBuySide) reach amount levels).map LogLine.unsigned =
      sweepLog (Lot.text symbol isBuySide) reach amount
        (levels.map (Level.map id Ticket.unsigned)) := by
  rw [map_unsigned_sweepLog, sweepLog_map]
  rfl

end Logs

/-! ### Views -/

/-- Two views that differ in the ids at most. -/
structure BlindTo (view view' : View poolSize) : Prop where
  book : view'.book.rename Ticket.unsigned = view.book.rename Ticket.unsigned
  free : view'.free = view.free

namespace BlindTo

variable {view view' : View poolSize}

theorem levels (blind : BlindTo view view') (side : Bool) :
    (view'.book.levels side).map (Level.map id Ticket.unsigned) =
      (view.book.levels side).map (Level.map id Ticket.unsigned) :=
  congrArg (PureBook.levels · side) blind.book

theorem slots (blind : BlindTo view view') (side : Bool) : view'.slots side = view.slots side := by
  have lines := congrArg (fun book => refs (book.line side)) blind.book
  simp only [PureBook.line_rename, refs_unsigned] at lines
  exact lines

theorem linked (blind : BlindTo view view') : view'.linked = view.linked := by
  rw [View.linked, View.linked, blind.slots, blind.slots]

theorem available (blind : BlindTo view view') (isBuySide : Bool) (price : UInt64)
    (type : OrderType) :
    view'.book.available isBuySide price type = view.book.available isBuySide price type := by
  have same := congrArg (PureBook.available · isBuySide price type) blind.book
  simp only [PureBook.available_rename] at same
  exact same

theorem closes (blind : BlindTo view view') (isBuySide : Bool) (price : UInt64) (amount : Nat)
    (type : OrderType) : (view'.book.closes isBuySide price amount type).map Ticket.ref =
      (view.book.closes isBuySide price amount type).map Ticket.ref := by
  have same := congrArg (fun book => (PureBook.closes book isBuySide price amount type).map Ticket.ref)
    blind.book
  simp only [PureBook.closes_rename, List.map_map] at same
  exact same

theorem cancel (blind : BlindTo view view') (slot : Slot poolSize) :
    BlindTo (view.cancel slot) (view'.cancel slot) := by
  have renamed : ∀ book : PureBook (Ticket (Slot poolSize)),
      (book.cancel fun ticket => ticket.ref = slot).rename Ticket.unsigned =
        (book.rename Ticket.unsigned).cancel fun ticket => ticket.ref = slot := fun book =>
    PureBook.rename_cancel fun _ _ _ => rfl
  refine ⟨?_, congrArg (slot :: ·) blind.free⟩
  show (view'.book.cancel _).rename _ = (view.book.cancel _).rename _
  rw [renamed, renamed, blind.book]

theorem add (blind : BlindTo view view') (request : Request) (orderId clientId : UInt64) :
    (view'.add { request with orderId := orderId, clientId := clientId }).1 =
        (view.add request).1 ∧
      BlindTo (view.add request).2
        (view'.add { request with orderId := orderId, clientId := clientId }).2 := by
  cases found : view.free with
  | nil =>
    rw [View.add_nil found, View.add_nil (blind.free.trans found)]
    exact ⟨rfl, blind⟩
  | cons slot free =>
    rw [View.add_cons found, View.add_cons (blind.free.trans found)]
    refine ⟨rfl, ?_, ?_⟩
    · show (view'.book.add _ _ _ _ _).rename _ = (view.book.add _ _ _ _ _).rename _
      rw [PureBook.rename_add, PureBook.rename_add, blind.book]
      rfl
    · show ((view'.book.closes _ _ _ _).map Ticket.ref).reverse ++ free =
        ((view.book.closes _ _ _ _).map Ticket.ref).reverse ++ free
      rw [blind.closes]

/-- **Views that differ in the ids step alike.** -/
theorem step (blind : BlindTo view view') {call call' : Call poolSize}
    (same : call'.unsigned = call.unsigned) :
    (view'.step call').1 = (view.step call).1 ∧ BlindTo (view.step call).2 (view'.step call').2 := by
  rcases Call.eq_of_unsigned same with rfl | ⟨request, orderId, clientId, rfl, rfl⟩
  · cases call' with
    | addOrder request =>
      obtain ⟨reply, after⟩ := blind.add request request.orderId request.clientId
      exact ⟨congrArg Reply.order reply, after⟩
    | cancelOrder order => exact ⟨rfl, blind.cancel order⟩
    | matchOrder isBuySide price size type totalMatched =>
      refine ⟨?_, ?_, ?_⟩
      · rw [View.step, View.step, blind.available]
      · show (view'.book.matchOrder _ _ _ _).rename _ = (view.book.matchOrder _ _ _ _).rename _
        rw [PureBook.rename_matchOrder, PureBook.rename_matchOrder, blind.book]
      · show ((view'.book.closes _ _ _ _).map Ticket.ref).reverse ++ view'.free =
          ((view.book.closes _ _ _ _).map Ticket.ref).reverse ++ view.free
        rw [blind.closes, blind.free]
  · obtain ⟨reply, after⟩ := blind.add request orderId clientId
    exact ⟨congrArg Reply.order reply, after⟩

theorem legal (blind : BlindTo view view') {call call' : Call poolSize}
    (same : call'.unsigned = call.unsigned) (legal : view.Legal call) : view'.Legal call' := by
  rcases Call.eq_of_unsigned same with rfl | ⟨request, orderId, clientId, rfl, rfl⟩
  · cases call' with
    | cancelOrder order => exact (show order ∈ view'.linked from blind.linked ▸ legal)
    | _ => trivial
  · trivial

/-- The orders at a price differ in the ids at most. -/
theorem lotsAt (blind : BlindTo view view') (side : Bool) (price : UInt64) :
    (Ladder.lotsAt (view'.book.levels side) price).map (Lot.relabel Ticket.unsigned) =
      (Ladder.lotsAt (view.book.levels side) price).map (Lot.relabel Ticket.unsigned) := by
  rw [← PureBook.lotsAt_rename, ← PureBook.lotsAt_rename, blind.book]

theorem lineAt (blind : BlindTo view view') (side : Bool) (price : UInt64) :
    (view'.book.lineAt side price).map (List.map (Lot.relabel Ticket.unsigned)) =
      (view.book.lineAt side price).map (List.map (Lot.relabel Ticket.unsigned)) := by
  rw [← PureBook.lineAt_rename, ← PureBook.lineAt_rename, blind.book]

end BlindTo

/-! ### Books -/

section Books

variable {book other : OrderBook poolSize} {view view' : View poolSize}

/-- **Books that differ in the ids log alike**, but for the ids. -/
theorem BlindTo.log (blind : BlindTo view view') (represents : Represents book view)
    (represents' : Represents other view') (symbol : other.symbol = book.symbol)
    {call call' : Call poolSize} (same : call'.unsigned = call.unsigned)
    (legal : view.Legal call) :
    (other.log call').map LogLine.unsigned = (book.log call).map LogLine.unsigned := by
  have added : ∀ (request : Request) (orderId clientId : UInt64),
      (other.log (.addOrder { request with orderId := orderId, clientId := clientId })).map
        LogLine.unsigned = (book.log (.addOrder request)).map LogLine.unsigned := by
    intro request orderId clientId
    cases found : view.free with
    | nil => rw [represents.log_refused found, represents'.log_refused (blind.free.trans found)]
    | cons slot free =>
      rw [represents.log_addOrder found, represents'.log_addOrder (blind.free.trans found)]
      have ends : ∀ available, (Request.outcome { request with
          orderId := orderId, clientId := clientId } book.symbol available).unsigned =
          (request.outcome book.symbol available).unsigned := by
        intro available
        unfold Request.outcome
        split <;> rfl
      simp only [List.map_cons, List.map_append, List.map_nil, sweepLog_unsigned, blind.levels,
        symbol, View.available, blind.available, ends]
      rfl
  rcases Call.eq_of_unsigned same with rfl | ⟨request, orderId, clientId, rfl, rfl⟩
  · cases call' with
    | addOrder request => exact added request request.orderId request.clientId
    | cancelOrder order =>
      obtain ⟨side, price, lot, member, rfl⟩ := View.exists_lot legal
      have inside : lot.relabel Ticket.unsigned ∈
          (Ladder.lotsAt (view'.book.levels side) price).map (Lot.relabel Ticket.unsigned) := by
        rw [blind.lotsAt]
        exact List.mem_map_of_mem member
      obtain ⟨lot', member', equal⟩ := List.mem_map.mp inside
      have slot : lot'.tag.ref = lot.tag.ref := congrArg (fun lot => lot.tag.ref) equal
      have text : (lot'.text book.symbol side price).unsigned =
          (lot.text book.symbol side price).unsigned :=
        congrArg (Lot.text book.symbol side price) equal
      have logged := represents'.log_cancelOrder member'
      rw [slot, symbol] at logged
      rw [logged, represents.log_cancelOrder member]
      exact congrArg (fun text => [LogLine.cancelled text]) text
    | matchOrder isBuySide price size type totalMatched =>
      rw [represents.log_matchOrder, represents'.log_matchOrder, sweepLog_unsigned,
        sweepLog_unsigned, blind.levels, symbol]
  · exact added request orderId clientId

/-- **Books that differ in the ids read alike**, slot by slot, but for the ids. -/
theorem BlindTo.readAt (blind : BlindTo view view') (represents : Represents book view)
    (represents' : Represents other view') (symbol : other.symbol = book.symbol)
    (isBuySide : Bool) (price : UInt64) :
    other.readAt (fun slot => (slot, (other.entry slot).unsigned)) isBuySide price =
      book.readAt (fun slot => (slot, (book.entry slot).unsigned)) isBuySide price := by
  let expected := fun lot : Lot (Ticket (Slot poolSize)) =>
    (lot.tag.ref, (lot.entry book.symbol isBuySide price).unsigned)
  have here : book.readAt (fun slot => (slot, (book.entry slot).unsigned)) isBuySide price =
      (view.book.lineAt isBuySide price).map (List.map expected) :=
    represents.readAt expected fun lot member =>
      congrArg (fun record => (lot.tag.ref, record.unsigned)) (represents.filed member).entry
  have there : other.readAt (fun slot => (slot, (other.entry slot).unsigned)) isBuySide price =
      (view'.book.lineAt isBuySide price).map (List.map expected) :=
    represents'.readAt expected fun lot member => by
      have filed := represents'.filed member
      rw [symbol] at filed
      exact congrArg (fun record => (lot.tag.ref, record.unsigned)) filed.entry
  have lines := congrArg (Option.map (List.map expected)) (blind.lineAt isBuySide price)
  simp only [Option.map_map, List.map_comp_map] at lines
  exact there.trans (lines.trans here.symm)

theorem BlindTo.text (blind : BlindTo view view') (represents : Represents book view)
    (represents' : Represents other view') (symbol : other.symbol = book.symbol) :
    other.text = book.text := by
  refine represents.text_congr represents' symbol fun isBuySide price => ?_
  have lines := congrArg (Option.map total) (blind.lineAt isBuySide price)
  have totals : (total ∘ List.map (Lot.relabel Ticket.unsigned) :
      List (Lot (Ticket (Slot poolSize))) → Nat) = total := funext fun lots => total_relabel lots
  rwa [Option.map_map, Option.map_map, totals] at lines

end Books

/-- **Who sends the orders makes no difference.** -/
theorem blind_run {symbol : String} {fresh last : OrderBook poolSize}
    {calls calls' : List (Call poolSize)} {heard : List (List LogLine × Reply poolSize)}
    (new : OrderBook.new symbol poolSize = some fresh)
    (same : calls'.map Call.unsigned = calls.map Call.unsigned)
    (run : Run OrderBook.callHeard Call.Legal fresh calls heard last) :
    ∃ last', Run OrderBook.callHeard Call.Legal fresh calls' heard last' ∧
      last'.text = last.text ∧
      (∃ free, last.orderPool.FreeList free ∧ last'.orderPool.FreeList free) ∧
      ∀ isBuySide price,
        last'.readAt (fun slot => (slot, (last'.entry slot).unsigned)) isBuySide price =
          last.readAt (fun slot => (slot, (last.entry slot).unsigned)) isBuySide price := by
  let related := fun book other : OrderBook poolSize => ∃ view view', Represents book view ∧
    Represents other view' ∧ BlindTo view view' ∧ other.symbol = book.symbol
  have follows : ∀ (book other : OrderBook poolSize) (call call' : Call poolSize)
      (reply : List LogLine × Reply poolSize) (next : OrderBook poolSize), related book other →
      call'.unsigned = call.unsigned → call.Legal book → book.callHeard call = .ok (reply, next) →
      ∃ next', call'.Legal other ∧ other.callHeard call' = .ok (reply, next') ∧
        related next next' := by
    rintro book other call call' reply next ⟨view, view', represents, represents', blind, symbol⟩
      same legal ran
    have permitted := represents.legal.mp legal
    have permitted' := blind.legal same permitted
    obtain ⟨after, returned, effect⟩ := represents.call permitted
    obtain ⟨after', returned', effect'⟩ := represents'.call permitted'
    obtain ⟨replies, steps⟩ := blind.step same
    rw [OrderBook.callHeard, returned] at ran
    obtain ⟨rfl, rfl⟩ := Prod.mk.inj (Except.ok.inj ran)
    refine ⟨after', represents'.legal.mpr permitted', ?_, _, _, effect.represents,
      effect'.represents, steps, ?_⟩
    · rw [OrderBook.callHeard, returned', replies, ← blind.log represents represents' symbol same
        permitted]
      rfl
    · rw [effect'.symbol, effect.symbol, symbol]
  have start := represents_new new
  obtain ⟨last', run', view, view', represents, represents', blind, symbol⟩ :=
    run.alongside related follows same ⟨_, _, start, start, ⟨rfl, rfl⟩, rfl⟩
  have list' := represents'.pool.list
  rw [blind.free] at list'
  exact ⟨last', run', blind.text represents represents' symbol, ⟨_, represents.pool.list, list'⟩,
    blind.readAt represents represents' symbol⟩

/-- A bid takes a part of an ask, which is then cancelled; all ids are the same in the other run. -/
theorem blind_run_sample : ∃ (heard : List (List LogLine × Reply 2)) (fresh last last' : OrderBook 2),
    OrderBook.new "X" 2 = some fresh ∧
      Run OrderBook.callHeard Call.Legal fresh [.addOrder ⟨1, 4, 5, 10, false, .limit⟩,
        .addOrder ⟨2, 5, 3, 11, true, .limit⟩, .cancelOrder ⟨0, by decide⟩] heard last ∧
      Run OrderBook.callHeard Call.Legal fresh [.addOrder ⟨7, 7, 5, 10, false, .limit⟩,
        .addOrder ⟨7, 7, 3, 11, true, .limit⟩, .cancelOrder ⟨0, by decide⟩] heard last' ∧
      heard.map (fun answer => answer.1.length) = [2, 3, 1] ∧ last'.text = last.text := by
  have played : (OrderBook.new "X" 2).bind (fun fresh => (execute OrderBook.callHeard Call.Legal fresh
      [.addOrder ⟨1, 4, 5, 10, false, .limit⟩, .addOrder ⟨2, 5, 3, 11, true, .limit⟩,
        .cancelOrder ⟨0, by decide⟩]).map fun result =>
          result.1.map fun answer => answer.1.length) = some [2, 3, 1] := by
    decide +kernel
  obtain ⟨fresh, new, ran⟩ := Option.bind_eq_some_iff.mp played
  obtain ⟨⟨heard, last⟩, ran, lengths⟩ := Option.map_eq_some_iff.mp ran
  have run := Run.of_execute ran
  let calls : List (Call 2) := [.addOrder ⟨1, 4, 5, 10, false, .limit⟩,
    .addOrder ⟨2, 5, 3, 11, true, .limit⟩, .cancelOrder ⟨0, by decide⟩]
  let calls' : List (Call 2) := [.addOrder ⟨7, 7, 5, 10, false, .limit⟩,
    .addOrder ⟨7, 7, 3, 11, true, .limit⟩, .cancelOrder ⟨0, by decide⟩]
  have same : calls'.map Call.unsigned = calls.map Call.unsigned := rfl
  obtain ⟨last', run', text, -⟩ := blind_run new same run
  exact ⟨heard, fresh, last, last', new, run, run', lengths, text⟩

end TradingExchange
