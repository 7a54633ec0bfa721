/-
**What is read is the whole state.**

Which slots the orders have, and how the free ones are linked, cannot be told from outside: two books
that read alike at every price, whatever calls made them and however large their pools are, log the
same, return the same totals and read alike after any further calls that neither refuses
(`alike_run`). Orders to cancel are named by their place.

* `AlikeIn`: the orders of two books are the same up to a change of slots;
* `AlikeIn.callTold`: a call that both accept keeps this, and is told of in the same words;
* `AlikeIn.readAt`, `AlikeIn.of_read`: that is so exactly if the books read alike.
-/

import TradingExchange.Abstract.Laws
import TradingExchange.Model.Places
import TradingExchange.Properties.BookText
import TradingExchange.Refinement.Log

namespace TradingExchange

open Lots Ladder

variable {poolSize poolSize' : UInt64}

/-! ### Changing slots -/

section Moving

variable {Ref Other : Type}

/-- The ticket of an order in another slot. -/
def Ticket.moved (move : Ref → Other) (ticket : Ticket Ref) : Ticket Other :=
  { ticket with ref := move ticket.ref }

/-- A call on an order in another slot. -/
def Call.moved (move : Slot poolSize → Slot poolSize') : Call poolSize → Call poolSize'
  | .addOrder request => .addOrder request
  | .cancelOrder order => .cancelOrder (move order)
  | .matchOrder isBuySide price size type totalMatched =>
    .matchOrder isBuySide price size type totalMatched

theorem refs_moved (move : Ref → Other) (lots : List (Lot (Ticket Ref))) :
    refs (lots.map (Lot.relabel (Ticket.moved move))) = (refs lots).map move := by
  rw [refs_eq, refs_eq, List.map_map, List.map_map]
  rfl

end Moving

/-- **The orders of two books are the same, up to a change of slots.** -/
structure AlikeIn (move : Slot poolSize → Slot poolSize') (view : View poolSize)
    (view' : View poolSize') (book : OrderBook poolSize) (other : OrderBook poolSize') : Prop where
  here : Represents book view
  there : Represents other view'
  symbol : other.symbol = book.symbol
  moved : view'.book = view.book.rename (Ticket.moved move)

namespace AlikeIn

variable {move : Slot poolSize → Slot poolSize'} {view : View poolSize} {view' : View poolSize'}
  {book : OrderBook poolSize} {other : OrderBook poolSize'}

theorem slots (alike : AlikeIn move view view' book other) (isBuySide : Bool) :
    view'.slots isBuySide = (view.slots isBuySide).map move := by
  rw [View.slots, View.slots, alike.moved, PureBook.line_rename, refs_moved]

theorem linked (alike : AlikeIn move view view' book other) :
    view'.linked = view.linked.map move := by
  rw [View.linked, View.linked, alike.slots, alike.slots, List.map_append]

/-- Orders that rest in two slots rest in two slots. -/
theorem injective (alike : AlikeIn move view view' book other) {slot slot' : Slot poolSize}
    (linked : slot ∈ view.linked) (linked' : slot' ∈ view.linked) :
    move slot = move slot' ↔ slot = slot' := by
  have nodup := alike.there.pool.linked_nodup
  rw [alike.linked] at nodup
  exact ⟨List.inj_on_of_nodup_map nodup linked linked', congrArg move⟩

theorem ordersAt (alike : AlikeIn move view view' book other) (isBuySide : Bool) (price : UInt64) :
    other.ordersAt isBuySide price = (book.ordersAt isBuySide price).map move := by
  rw [alike.there.ordersAt, alike.here.ordersAt, alike.moved, PureBook.lotsAt_rename, refs_moved]

/-- A place means the same order. -/
theorem placed (alike : AlikeIn move view view' book other) (call : PlacedCall) :
    other.placed call = (book.placed call).map (Call.moved move) := by
  cases call with
  | addOrder request => rfl
  | cancelOrder isBuySide price position =>
    rw [OrderBook.placed, OrderBook.placed, alike.ordersAt, List.getElem?_map, Option.map_map,
      Option.map_map]
    rfl
  | matchOrder => rfl

/-! ### Calls -/

theorem cancel (alike : AlikeIn move view view' book other) {slot : Slot poolSize}
    (linked : slot ∈ view.linked) :
    (view'.cancel (move slot)).book = (view.cancel slot).book.rename (Ticket.moved move) := by
  have moved : (view.book.cancel fun ticket => ticket.ref = slot).rename (Ticket.moved move) =
      (view.book.rename (Ticket.moved move)).cancel fun ticket => ticket.ref = move slot := by
    refine PureBook.rename_cancel fun side lot member => decide_eq_decide.mpr ?_
    exact alike.injective (View.mem_linked.mpr ⟨side, ref_mem member⟩) linked
  rw [← alike.moved] at moved
  exact moved.symm

theorem add (alike : AlikeIn move view view' book other) (request : Request)
    {slot : Slot poolSize} {free : List (Slot poolSize)} (found : view.free = slot :: free)
    {slot' : Slot poolSize'} {free' : List (Slot poolSize')} (found' : view'.free = slot' :: free') :
    (view'.add request).2.book =
      (view.add request).2.book.rename (Ticket.moved (Function.update move slot slot')) := by
  have apart : slot ∉ view.linked := alike.here.pool.not_linked (found ▸ List.mem_cons_self)
  have kept : view.book.rename (Ticket.moved (Function.update move slot slot')) =
      view.book.rename (Ticket.moved move) := by
    refine PureBook.rename_congr fun side lot member => ?_
    have linked : lot.tag.ref ∈ view.linked := View.mem_linked.mpr ⟨side, ref_mem member⟩
    exact Ticket.ext (Function.update_of_ne (ne_of_mem_of_not_mem linked apart) ..) rfl rfl rfl
  have own : Ticket.moved (Function.update move slot slot') (request.ticket slot) =
      request.ticket slot' := Ticket.ext (Function.update_self ..) rfl rfl rfl
  rw [View.add_cons found, View.add_cons found', PureBook.rename_add, kept, own, alike.moved]

/-- What a call is answered, up to the slots. -/
theorem told (alike : AlikeIn move view view' book other) {call : Call poolSize}
    (legal : view.Legal call) (accepted : ∀ request, call = .addOrder request → view.free ≠ [])
    (accepted' : ∀ request, call = .addOrder request → view'.free ≠ []) :
    other.log (call.moved move) = book.log call ∧
      (view'.step (call.moved move)).1.total = (view.step call).1.total ∧
      ∃ move', (view'.step (call.moved move)).2.book =
        (view.step call).2.book.rename (Ticket.moved move') := by
  have levels : ∀ side, view'.book.levels side =
      (view.book.levels side).map (Level.map id (Ticket.moved move)) := by
    intro side
    rw [alike.moved]
    rfl
  cases call with
  | addOrder request =>
    obtain ⟨slot, free, found⟩ := List.exists_cons_of_ne_nil (accepted request rfl)
    obtain ⟨slot', free', found'⟩ := List.exists_cons_of_ne_nil (accepted' request rfl)
    refine ⟨?_, rfl, _, alike.add request found found'⟩
    have available : view'.available request = view.available request := by
      rw [View.available, View.available, alike.moved, PureBook.available_rename]
    rw [Call.moved, alike.there.log_addOrder found', alike.here.log_addOrder found, levels,
      sweepLog_map, available, alike.symbol]
    rfl
  | cancelOrder order =>
    refine ⟨?_, rfl, move, alike.cancel legal⟩
    obtain ⟨side, price, lot, member, rfl⟩ := View.exists_lot legal
    have member' : lot.relabel (Ticket.moved move) ∈ lotsAt (view'.book.levels side) price := by
      rw [alike.moved, PureBook.lotsAt_rename]
      exact List.mem_map_of_mem member
    have logged := alike.there.log_cancelOrder member'
    rw [alike.here.log_cancelOrder member, ← alike.symbol]
    exact logged
  | matchOrder isBuySide price size type totalMatched =>
    refine ⟨?_, ?_, move, ?_⟩
    · rw [Call.moved, alike.there.log_matchOrder, alike.here.log_matchOrder, levels, sweepLog_map,
        alike.symbol]
      rfl
    · rw [Call.moved, View.step, View.step, alike.moved, PureBook.available_rename]
      rfl
    · rw [Call.moved, View.step, View.step, View.matchOrder, View.matchOrder, alike.moved]
      exact PureBook.rename_matchOrder.symm

end AlikeIn

section Calls

variable {book : OrderBook poolSize} {view : View poolSize}

/-- A book that accepts an order has a free slot. -/
theorem Represents.free_of_accepted (represents : Represents book view) {request : Request}
    (accepted : (PlacedCall.addOrder request).Accepted book) : view.free ≠ [] := by
  intro full
  have list := represents.pool.list
  rw [full] at list
  rw [PlacedCall.Accepted, list.allocate_nil] at accepted
  cases accepted

/-- What is meant by a place is a resting order. -/
theorem Represents.legal_placed (represents : Represents book view) {placed : PlacedCall}
    {call : Call poolSize} (found : book.placed placed = some call) : view.Legal call := by
  cases placed with
  | addOrder request =>
    obtain rfl := Option.some.inj found
    trivial
  | cancelOrder isBuySide price position =>
    obtain ⟨slot, here, rfl⟩ := Option.map_eq_some_iff.mp found
    have member := List.mem_of_getElem? here
    rw [represents.ordersAt] at member
    exact View.mem_linked.mpr ⟨isBuySide, refs_lotsAt_sublist.subset member⟩
  | matchOrder =>
    obtain rfl := Option.some.inj found
    trivial

theorem PlacedCall.of_addOrder {placed : PlacedCall} {request : Request}
    (found : book.placed placed = some (.addOrder request)) : placed = .addOrder request := by
  cases placed with
  | addOrder other => exact congrArg _ (Call.addOrder.inj (Option.some.inj found))
  | cancelOrder isBuySide price position =>
    obtain ⟨slot, -, same⟩ := Option.map_eq_some_iff.mp found
    cases same
  | matchOrder => cases Option.some.inj found

/-- **A legal call returns what the view's step does**, with its log. -/
theorem Represents.callTold (represents : Represents book view) {call : Call poolSize}
    (legal : view.Legal call) :
    ∃ after, book.callTold call = .ok ((book.log call, (view.step call).1.total), after) ∧
      Represents after (view.step call).2 ∧ after.symbol = book.symbol := by
  obtain ⟨after, ran, effect⟩ := represents.call legal
  refine ⟨after, ?_, effect.represents, effect.symbol⟩
  rw [OrderBook.callTold, ran]
  rfl

end Calls

/-- **A call that both books accept is answered alike, and leaves them alike.** -/
theorem AlikeIn.step {move : Slot poolSize → Slot poolSize'} {view : View poolSize}
    {view' : View poolSize'} {book next : OrderBook poolSize} {other next' : OrderBook poolSize'}
    (alike : AlikeIn move view view' book other) {call : PlacedCall}
    {answer answer' : List LogLine × Option UInt32}
    (accepted : call.Accepted book) (done : book.callPlaced call = .ok (answer, next))
    (accepted' : call.Accepted other) (done' : other.callPlaced call = .ok (answer', next')) :
    answer' = answer ∧ ∃ move view view', AlikeIn move view view' next next' := by
  have same := alike.placed call
  rw [OrderBook.callPlaced] at done done'
  cases found : book.placed call with
  | none =>
    rw [found] at done same
    rw [same] at done'
    cases done
    cases done'
    exact ⟨rfl, move, view, view', alike⟩
  | some meant =>
    rw [found] at done same
    rw [same] at done'
    have legal := alike.here.legal_placed found
    have legal' := alike.there.legal_placed same
    obtain ⟨after, ran, here, symbol⟩ := alike.here.callTold legal
    obtain ⟨after', ran', there, symbol'⟩ := alike.there.callTold legal'
    obtain ⟨logged, total, move', moved⟩ := alike.told legal
      (fun request added => alike.here.free_of_accepted
        (PlacedCall.of_addOrder (added ▸ found) ▸ accepted))
      (fun request added => alike.there.free_of_accepted
        (PlacedCall.of_addOrder (added ▸ found) ▸ accepted'))
    obtain ⟨rfl, rfl⟩ := Prod.mk.inj (Except.ok.inj (done.symm.trans ran))
    obtain ⟨rfl, rfl⟩ := Prod.mk.inj (Except.ok.inj (done'.symm.trans ran'))
    refine ⟨Prod.ext logged total, move', _, _, here, there, ?_, moved⟩
    rw [symbol', symbol, alike.symbol]

/-! ### Reading -/

section Reading

variable {Ref Other : Type}

/-- What a record shows of a lot, without links. -/
def Lot.entry (symbol : String) (isBuySide : Bool) (price : UInt64) (lot : Lot (Ticket Ref)) :
    Order Unit where
  orderId := lot.tag.orderId
  clientId := lot.tag.clientId
  symbol := symbol
  size := UInt32.ofNat lot.size
  price := price
  isBuySide := isBuySide
  orderType := lot.tag.orderType

/-- A lot without its slot. -/
def Lot.bare (lot : Lot (Ticket Ref)) : Lot (Ticket Unit) := lot.relabel (Ticket.moved fun _ => ())

/-- A record shows a lot up to its slot. -/
theorem Lot.bare_of_entry {symbol : String} {isBuySide : Bool} {price : UInt64}
    {lot : Lot (Ticket Ref)} {lot' : Lot (Ticket Other)} (fits : lot.size < UInt32.size)
    (fits' : lot'.size < UInt32.size)
    (same : lot.entry symbol isBuySide price = lot'.entry symbol isBuySide price) :
    lot.bare = lot'.bare := by
  have size : UInt32.ofNat lot.size = UInt32.ofNat lot'.size := congrArg Order.size same
  refine Lot.ext (Ticket.ext rfl ?_ ?_ ?_) ?_
  · exact congrArg Order.orderId same
  · exact congrArg Order.clientId same
  · exact congrArg Order.orderType same
  · rw [← UInt32.toNat_inj, UInt32.toNat_ofNat_of_lt' fits, UInt32.toNat_ofNat_of_lt' fits'] at size
    exact size

theorem Filed.entry {symbol : String} {isBuySide : Bool} {price : UInt64}
    {order : Order (Slot poolSize)} {lot : Lot (Ticket (Slot poolSize))}
    (filed : Filed symbol isBuySide price order lot) :
    order.bare = lot.entry symbol isBuySide price := by
  rw [Order.bare, Lot.entry, filed.orderId, filed.clientId, filed.symbol, filed.price,
    filed.isBuySide, filed.orderType, filed.size_eq]

theorem lots_moved {move : Ref → Other} {lots : List (Lot (Ticket Ref))}
    {lots' : List (Lot (Ticket Other))} (same : lots.map Lot.bare = lots'.map Lot.bare)
    (slots : refs lots' = (refs lots).map move) :
    lots' = lots.map (Lot.relabel (Ticket.moved move)) := by
  induction lots generalizing lots' with
  | nil => exact List.map_eq_nil_iff.mp same.symm
  | cons lot later ih =>
    cases lots' with
    | nil => cases same
    | cons lot' later' =>
      obtain ⟨one, rest⟩ := List.cons.inj same
      rw [refs_cons, refs_cons, List.map_cons] at slots
      obtain ⟨slot, slots⟩ := List.cons.inj slots
      have tag : lot'.tag = Ticket.moved move lot.tag := by
        refine Ticket.ext slot ?_ ?_ ?_
        · exact congrArg (fun bare => bare.tag.orderId) one.symm
        · exact congrArg (fun bare => bare.tag.clientId) one.symm
        · exact congrArg (fun bare => bare.tag.orderType) one.symm
      have head : lot' = lot.relabel (Ticket.moved move) :=
        Lot.ext tag (congrArg (fun bare => bare.size) one.symm)
      rw [List.map_cons, ← ih rest slots, head]

theorem ladder_moved {move : Ref → Other} {levels : List (Level UInt64 (Ticket Ref))}
    {levels' : List (Level UInt64 (Ticket Other))}
    (same : levels.map (Level.map id (Ticket.moved fun _ => ())) =
      levels'.map (Level.map id (Ticket.moved fun _ => ())))
    (slots : refs (flat levels') = (refs (flat levels)).map move) :
    levels' = levels.map (Level.map id (Ticket.moved move)) := by
  induction levels generalizing levels' with
  | nil => exact List.map_eq_nil_iff.mp same.symm
  | cons level worse ih =>
    cases levels' with
    | nil => cases same
    | cons level' worse' =>
      obtain ⟨one, rest⟩ := List.cons.inj same
      obtain ⟨price, lots⟩ := Level.mk.inj one
      rw [flat_cons, flat_cons, refs_append, refs_append, List.map_append] at slots
      have length : (refs level'.lots).length = ((refs level.lots).map move).length := by
        have lengths := congrArg List.length lots
        rw [List.length_map, List.length_map] at lengths
        rw [List.length_map, length_refs, length_refs, lengths]
      obtain ⟨here, there⟩ := List.append_inj slots length
      rw [List.map_cons, ← ih rest there]
      refine congrArg (· :: worse') (Level.ext price.symm ?_)
      exact lots_moved lots here

end Reading

section Entries

variable {book : OrderBook poolSize} {other : OrderBook poolSize'} {view : View poolSize}
  {view' : View poolSize'}

/-- The records that are read at a price. -/
theorem Represents.entries (represents : Represents book view) (isBuySide : Bool) (price : UInt64) :
    book.readAt book.entry isBuySide price =
      (view.book.lineAt isBuySide price).map (List.map (Lot.entry book.symbol isBuySide price)) :=
  represents.readAt _ fun _ member => (represents.filed member).entry

/-- **Books with the same orders read alike.** -/
theorem AlikeIn.readAt {move : Slot poolSize → Slot poolSize'}
    (alike : AlikeIn move view view' book other) (isBuySide : Bool) (price : UInt64) :
    other.readAt other.entry isBuySide price = book.readAt book.entry isBuySide price := by
  rw [alike.there.entries, alike.here.entries, alike.moved, alike.symbol, PureBook.lineAt_rename,
    Option.map_map]
  refine congrArg (Option.map · _) (funext fun lots => ?_)
  rw [Function.comp_apply, List.map_map]
  rfl

theorem Represents.bare_lotsAt (represents : Represents book view) (represents' : Represents other view')
    (symbol : other.symbol = book.symbol) {isBuySide : Bool} {price : UInt64}
    (same : other.readAt other.entry isBuySide price = book.readAt book.entry isBuySide price) :
    (lotsAt (view.book.levels isBuySide) price).map Lot.bare =
      (lotsAt (view'.book.levels isBuySide) price).map Lot.bare := by
  rw [represents'.entries, represents.entries, symbol, PureBook.lineAt, PureBook.lineAt] at same
  have lines : (lotsAt (view.book.levels isBuySide) price).map
        (Lot.entry book.symbol isBuySide price) =
      (lotsAt (view'.book.levels isBuySide) price).map (Lot.entry book.symbol isBuySide price) := by
    split at same
    · next empty =>
      split at same
      · next empty' => rw [empty, empty']; rfl
      · cases same
    · split at same
      · cases same
      · exact (Option.some.inj same).symm
  refine map_eq_of_map_eq lines fun lot member lot' member' => Lot.bare_of_entry ?_ ?_
  · exact (represents.filed member).fits
  · exact (represents'.filed member').fits

/-- **Books that read alike have the same orders.** -/
theorem AlikeIn.of_read (represents : Represents book view) (represents' : Represents other view')
    (inhabited : Nonempty (Slot poolSize')) (symbol : other.symbol = book.symbol)
    (same : ∀ isBuySide price,
      other.readAt other.entry isBuySide price = book.readAt book.entry isBuySide price) :
    ∃ move, AlikeIn move view view' book other := by
  have levels : ∀ side, (view.book.levels side).map (Level.map id (Ticket.moved fun _ => ())) =
      (view'.book.levels side).map (Level.map id (Ticket.moved fun _ => ())) := by
    intro side
    refine ladder_ext ((view.book.rename (Ticket.moved fun _ => ())).sorted side)
      ((view'.book.rename (Ticket.moved fun _ => ())).sorted side) fun price => ?_
    have here := represents.bare_lotsAt represents' symbol (same side price)
    exact (PureBook.lotsAt_rename side price).trans
      (here.trans (PureBook.lotsAt_rename side price).symm)
  have length : ∀ side, (view.slots side).length = (view'.slots side).length := by
    intro side
    have flats := congrArg (fun levels => (flat levels).length) (levels side)
    simp only [flat_map, List.length_map] at flats
    rw [View.slots, View.slots, length_refs, length_refs]
    exact flats
  obtain ⟨move, linked⟩ : ∃ move, view'.linked = view.linked.map move := by
    refine exists_map represents.pool.linked_nodup ?_
    rw [View.linked, View.linked, List.length_append, List.length_append, length, length]
  rw [View.linked, View.linked, List.map_append] at linked
  obtain ⟨bids, asks⟩ := List.append_inj linked (by rw [List.length_map, length])
  refine ⟨move, represents, represents', symbol, PureBook.ext (funext fun side => ?_)⟩
  cases side with
  | true => exact ladder_moved (levels true) bids
  | false => exact ladder_moved (levels false) asks

/-- **The total that is computed at a price is that of its lots**, in 32 bits. -/
theorem Represents.countAt_eq (represents : Represents book view) (isBuySide : Bool)
    (price : UInt64) : book.countAt isBuySide price =
      .ok ((view.book.lineAt isBuySide price).map fun lots => UInt32.ofNat (total lots)) := by
  rw [OrderBook.countAt, PureBook.lineAt]
  cases found : (book.levels isBuySide)[price]? with
  | none =>
    have here := represents.sides isBuySide price
    rw [found] at here
    rw [if_pos (show lotsAt _ _ = [] from here)]
    rfl
  | some level =>
    obtain ⟨inhabited, shown⟩ := represents.entry found
    obtain ⟨sum, ran, sum_eq⟩ := shown.totalSize
    have sizes : ((book.ordersOf level).map fun slot => (book.order slot).size.toNat).sum =
        total (lotsAt (view.book.levels isBuySide) price) := by
      rw [represents.ordersOf found, refs_eq, List.map_map, total]
      refine congrArg List.sum (List.map_congr_left fun lot member => ?_)
      exact (represents.filed member).size
    rw [sizes] at sum_eq
    have exact : sum = UInt32.ofNat (total (lotsAt (view.book.levels isBuySide) price)) := by
      rw [← UInt32.toNat_inj, sum_eq, UInt32.toNat_ofNat']
    simp only [ran, if_neg inhabited, exact]
    rfl

/-- **Books with the same totals print alike.** -/
theorem Represents.text_congr (represents : Represents book view)
    (represents' : Represents other view') (symbol : other.symbol = book.symbol)
    (totals : ∀ isBuySide price, (view'.book.lineAt isBuySide price).map total =
      (view.book.lineAt isBuySide price).map total) : other.text = book.text := by
  have counts : ∀ isBuySide price, other.countAt isBuySide price = book.countAt isBuySide price := by
    intro isBuySide price
    have same := congrArg (Option.map UInt32.ofNat) (totals isBuySide price)
    rw [Option.map_map, Option.map_map] at same
    rw [represents'.countAt_eq, represents.countAt_eq]
    exact congrArg Except.ok same
  rw [OrderBook.text, OrderBook.text, OrderBook.toString_congr symbol counts]

/-- **Books with the same orders print alike.** -/
theorem AlikeIn.text {move : Slot poolSize → Slot poolSize'}
    (alike : AlikeIn move view view' book other) : other.text = book.text := by
  refine alike.here.text_congr alike.there alike.symbol fun isBuySide price => ?_
  rw [alike.moved, PureBook.lineAt_rename, Option.map_map]
  refine congrArg (Option.map · _) (funext fun lots => ?_)
  rw [Function.comp_apply, total_relabel]

end Entries

theorem Reachable.inhabited {book : OrderBook poolSize} (reachable : book.Reachable) :
    Nonempty (Slot poolSize) := by
  obtain ⟨symbol, fresh, calls, replies, new, -⟩ := reachable
  rw [OrderBook.new, Option.map_eq_some_iff] at new
  obtain ⟨pool, created, -⟩ := new
  rw [MemPool.new] at created
  split at created
  · next positive => exact ⟨⟨0, UInt64.lt_iff_toNat_lt.mp positive⟩⟩
  · cases created

/-- **Two books that read alike answer alike and go on reading alike**, as long as neither refuses
an order. -/
theorem alike_run {book last : OrderBook poolSize} {other last' : OrderBook poolSize'}
    {calls : List PlacedCall} {answers answers' : List (List LogLine × Option UInt32)}
    (reachable : book.Reachable) (reachable' : other.Reachable)
    (symbol : other.symbol = book.symbol)
    (same : ∀ isBuySide price,
      other.readAt other.entry isBuySide price = book.readAt book.entry isBuySide price)
    (run : Run OrderBook.callPlaced PlacedCall.Accepted book calls answers last)
    (run' : Run OrderBook.callPlaced PlacedCall.Accepted other calls answers' last') :
    answers' = answers ∧ last'.text = last.text ∧
      ∀ isBuySide price,
        last'.readAt last'.entry isBuySide price = last.readAt last.entry isBuySide price := by
  obtain ⟨view, represents⟩ := reachable.represents
  obtain ⟨view', represents'⟩ := reachable'.represents
  obtain ⟨move, alike⟩ :=
    AlikeIn.of_read represents represents' (Reachable.inhabited reachable') symbol same
  obtain ⟨answered, move, view, view', alike⟩ := run.agree
    (fun book other => ∃ move view view', AlikeIn move view view' book other)
    (fun _ _ _ _ _ _ _ ⟨_, _, _, alike⟩ accepted done accepted' done' =>
      alike.step accepted done accepted' done') run' ⟨move, view, view', alike⟩
  exact ⟨answered, alike.text, alike.readAt⟩

/-- A bid that was there alone, in a small pool, and one that was behind a bid since cancelled: an
ask takes a part, and the rest is cancelled. -/
theorem alike_run_sample : ∃ (book last : OrderBook 4) (other last' : OrderBook 2)
    (calls : List PlacedCall) (answers answers' : List (List LogLine × Option UInt32)),
    (book.ordersAt true 10).map Fin.val = [1] ∧ (other.ordersAt true 10).map Fin.val = [0] ∧
      Run OrderBook.callPlaced PlacedCall.Accepted book calls answers last ∧
      Run OrderBook.callPlaced PlacedCall.Accepted other calls answers' last' ∧
      answers.map (fun answer => (answer.1.length, answer.2)) = [(3, none), (1, none), (0, some 0)] ∧
      answers' = answers ∧ last'.text = last.text := by
  let calls : List PlacedCall := [.addOrder ⟨2, 2, 3, 10, false, .limit⟩, .cancelOrder true 10 0,
    .matchOrder false 10 5 .limit 0]
  let shown {poolSize : UInt64} (book : OrderBook poolSize) :
      List Nat × List (List UInt64) × List (Order Unit) :=
    ((book.ordersAt true 10).map Fin.val, [(book.levels true).keys, (book.levels false).keys],
      (book.readAt book.entry true 10).getD [])
  let told {poolSize : UInt64} (book : OrderBook poolSize) :
      Option (String × List (Nat × Option UInt32)) :=
    (execute OrderBook.callPlaced PlacedCall.Accepted book calls).map fun result =>
      (book.symbol, result.1.map fun answer => (answer.1.length, answer.2))
  let bid : Order Unit :=
    { orderId := 1, clientId := 1, symbol := "X", size := 5, price := 10, isBuySide := true,
      orderType := .limit }
  let before : List (Call 4) := [.addOrder ⟨9, 9, 3, 10, true, .limit⟩,
    .addOrder ⟨1, 1, 5, 10, true, .limit⟩, .cancelOrder ⟨0, by decide⟩]
  let before' : List (Call 2) := [.addOrder ⟨1, 1, 5, 10, true, .limit⟩]
  have read : (OrderBook.play "X" 4 before).map (fun result => shown result.2) =
      some ([1], [[10], []], [bid]) := by decide +kernel
  have read' : (OrderBook.play "X" 2 before').map (fun result => shown result.2) =
      some ([0], [[10], []], [bid]) := by decide +kernel
  have ran : (OrderBook.play "X" 4 before).map (fun result => told result.2) =
      some (some ("X", [(3, none), (1, none), (0, some 0)])) := by decide +kernel
  have ran' : (OrderBook.play "X" 2 before').map (fun result => told result.2) =
      some (some ("X", [(3, none), (1, none), (0, some 0)])) := by decide +kernel
  obtain ⟨⟨replies, book⟩, played, read⟩ := Option.map_eq_some_iff.mp read
  obtain ⟨⟨replies', other⟩, played', read'⟩ := Option.map_eq_some_iff.mp read'
  rw [played] at ran
  rw [played'] at ran'
  obtain ⟨⟨answers, last⟩, run, heard⟩ := Option.map_eq_some_iff.mp (Option.some.inj ran)
  obtain ⟨⟨answers', last'⟩, run', heard'⟩ := Option.map_eq_some_iff.mp (Option.some.inj ran')
  simp only [shown, Prod.mk.injEq, List.cons.injEq, and_true] at read read' heard heard'
  obtain ⟨slots, ⟨bids, asks⟩, line⟩ := read
  obtain ⟨slots', ⟨bids', asks'⟩, line'⟩ := read'
  have alone : ∀ {poolSize : UInt64} (book : OrderBook poolSize), (book.levels true).keys = [10] →
      (book.levels false).keys = [] → (book.readAt book.entry true 10).getD [] = [bid] →
      ∀ isBuySide price, book.readAt book.entry isBuySide price =
        if isBuySide = true ∧ price = 10 then some [bid] else none := by
    intro poolSize book bids asks line isBuySide price
    have missing : price ∉ book.levels isBuySide → book.readAt book.entry isBuySide price = none := by
      intro missing
      rw [OrderBook.readAt, Std.ExtTreeMap.getElem?_eq_none missing]
      rfl
    rw [← Std.ExtTreeMap.mem_keys] at missing
    cases isBuySide with
    | false => exact missing (asks ▸ List.not_mem_nil)
    | true =>
      by_cases here : price = 10
      · subst here
        rw [if_pos ⟨rfl, rfl⟩]
        cases found : book.readAt book.entry true 10 with
        | none =>
          rw [found] at line
          cases line
        | some orders =>
          rw [found] at line
          exact congrArg some line
      · rw [if_neg fun both => here both.2]
        exact missing (bids ▸ fun member => here (List.mem_singleton.mp member))
  have same : ∀ isBuySide price,
      other.readAt other.entry isBuySide price = book.readAt book.entry isBuySide price := by
    intro isBuySide price
    rw [alone other bids' asks' line', alone book bids asks line]
  obtain ⟨answered, text, -⟩ := alike_run (OrderBook.reachable_of_play played)
    (OrderBook.reachable_of_play played') (heard'.1.trans heard.1.symm) same
    (.of_execute run) (.of_execute run')
  exact ⟨book, last, other, last', calls, answers, answers', slots, slots', .of_execute run,
    .of_execute run', heard.2, answered, text⟩

end TradingExchange
