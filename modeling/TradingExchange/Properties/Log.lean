/-
**The log tells the book.**

Nothing but the log is needed to know the levels of a book: a reader that takes in the lines of a
run one after the other refuses none of them, and at the end has, for each side and price, the line
of orders that is read from the memory (`log_replays`). The runs are those in which no order is
added under the id of a resting one: the log names orders by id only.
-/

import TradingExchange.Library.Tape
import TradingExchange.Refinement.Filling
import TradingExchange.Refinement.Log

namespace TradingExchange

open Lots Ladder

variable {poolSize : UInt64}

/-! ### Orders by id -/

/-- No two resting orders have the same id. -/
def PureBook.ById {Ref : Type} (book : PureBook (Ticket Ref)) : Prop :=
  ∀ side, ∀ lot ∈ book.line side, ∀ side', ∀ other ∈ book.line side',
    lot.tag.orderId = other.tag.orderId → lot.tag = other.tag

namespace PureBook.ById

variable {Ref : Type} {book after : PureBook (Ticket Ref)}

theorem of_earlier (byId : book.ById)
    (earlier : ∀ side, ∀ lot ∈ after.line side, ∃ before ∈ book.line side, before.tag = lot.tag) :
    after.ById := by
  intro side lot member side' other member' same
  obtain ⟨before, there, tag⟩ := earlier side lot member
  obtain ⟨before', there', tag'⟩ := earlier side' other member'
  rw [← tag, ← tag'] at same ⊢
  exact byId side before there side' before' there' same

theorem matchOrder (byId : book.ById) (isBuySide : Bool) (price : UInt64) (amount : Nat)
    (type : OrderType) : (book.matchOrder isBuySide price amount type).ById := by
  refine byId.of_earlier fun side lot member => ?_
  by_cases own : side = isBuySide
  · subst own
    rw [line, matchOrder_self] at member
    exact ⟨lot, member, rfl⟩
  · obtain rfl := Bool.eq_not_of_ne own
    rw [line, matchOrder_not, swept, flat_sweep] at member
    obtain ⟨before, there, tag, -⟩ := mem_fill member
    exact ⟨before, there, tag⟩

theorem cancel (byId : book.ById) (gone : Ticket Ref → Bool) : (book.cancel gone).ById :=
  byId.of_earlier fun _ lot member => ⟨lot, mem_line_cancel member, rfl⟩

/-- A new order keeps the ids apart if its own is new. -/
theorem add (byId : book.ById) {tag : Ticket Ref}
    (new : ∀ side, ∀ lot ∈ book.line side, lot.tag.orderId ≠ tag.orderId) (size : Nat)
    (price : UInt64) (isBuySide : Bool) (type : OrderType) :
    (book.add tag size price isBuySide type).ById := by
  intro side lot member side' other member' same
  rcases mem_line_add member with ⟨-, own⟩ | ⟨before, there, earlier⟩
  · rcases mem_line_add member' with ⟨-, own'⟩ | ⟨before', there', earlier'⟩
    · rw [own, own']
    · rw [own, ← earlier'] at same
      exact absurd same.symm (new side' before' there')
  · rcases mem_line_add member' with ⟨-, own'⟩ | ⟨before', there', earlier'⟩
    · rw [own', ← earlier] at same
      exact absurd same (new side before there)
    · rw [← earlier, ← earlier'] at same ⊢
      exact byId side before there side' before' there' same

end PureBook.ById

/-! ### Reading calls -/

/-- A reader that knows what the book shows, where ids tell orders apart. -/
structure Reader.Follows (reader : Reader) (book : OrderBook poolSize) (view : View poolSize) :
    Prop where
  represents : Represents book view
  knows : reader.Knows book.symbol view.book
  byId : view.book.ById

namespace Reader.Follows

variable {reader : Reader} {book : OrderBook poolSize} {view : View poolSize}

/-- **What a call logs is read as the call.** -/
theorem call (follows : reader.Follows book view) {call : Call poolSize} {lines : List LogLine}
    {after : OrderBook poolSize} (legal : call.LegalById book)
    (done : book.callLogged call = .ok (lines, after)) :
    after.symbol = book.symbol ∧
      ∃ next : Reader, reader.readAll lines = some next ∧ next.Follows after (view.step call).2 := by
  obtain ⟨represents, knows, byId⟩ := follows
  obtain ⟨after', ran, effect⟩ := represents.call (represents.legal.mp legal.legal)
  rw [OrderBook.callLogged, ran] at done
  obtain ⟨rfl, rfl⟩ := Prod.mk.inj (Except.ok.inj done)
  suffices read : ∃ next : Reader, reader.readAll (book.log call) = some next ∧
      next.Knows book.symbol (view.step call).2.book ∧ (view.step call).2.book.ById by
    obtain ⟨next, read, knows, byId⟩ := read
    exact ⟨effect.symbol, next, read, effect.represents, effect.symbol ▸ knows, byId⟩
  cases call with
  | addOrder request =>
    cases found : view.free with
    | nil =>
      rw [represents.log_refused found, View.step, View.add_nil found]
      exact ⟨reader, rfl, knows, byId⟩
    | cons slot free =>
      have new : ∀ side, ∀ lot ∈ view.book.line side,
          lot.tag.orderId ≠ (request.ticket slot).orderId := by
        intro side lot member
        obtain ⟨price, here⟩ := PureBook.exists_price member
        have resting : lot.tag.ref ∈ book.resting :=
          (represents.mem_resting _).mpr (View.mem_linked_of_lotsAt (ref_mem here))
        rw [← (represents.filed here).orderId]
        exact legal _ resting
      obtain ⟨next, read, known⟩ := knows.add request slot (represents.fits _)
      rw [represents.log_addOrder found, View.step, View.add_cons found]
      exact ⟨next, read, known, byId.add new _ _ _ _⟩
  | cancelOrder order =>
    obtain ⟨isBuySide, price, lot, here, rfl⟩ :=
      View.exists_lot ((represents.mem_resting order).mp legal)
    have nodup := represents.lotsAt_nodup isBuySide price
    rw [refs_eq] at nodup
    obtain ⟨next, read, known⟩ := knows.cancel (fun ticket => ticket.ref = lot.tag.ref) here
      (decide_eq_true rfl) nodup.of_map
      (fun side limit other there same => represents.lot_unique here there (of_decide_eq_true same))
      fun one there other there' same => List.inj_on_of_nodup_map nodup there there' (congrArg _
        (byId _ one (mem_flat_of_lotsAt there) _ other (mem_flat_of_lotsAt there') same))
    rw [represents.log_cancelOrder here]
    exact ⟨next, read, known, byId.cancel _⟩
  | matchOrder isBuySide price size type totalMatched =>
    obtain ⟨next, read, known⟩ := knows.matchOrder (represents.fits _) price
      (size.toNat - totalMatched.toNat) type
    rw [represents.log_matchOrder]
    exact ⟨next, read, known, byId.matchOrder _ _ _ _⟩

/-- The reader has what is read from the memory. -/
theorem readAt (follows : reader.Follows book view) (isBuySide : Bool) (price : UInt64) :
    book.readAt (fun slot => (book.order slot).text) isBuySide price =
      reader.lineAt isBuySide price := by
  rw [follows.represents.readAt (Lot.text book.symbol isBuySide price)
    fun lot member => (follows.represents.filed member).text_eq, Reader.lineAt,
    follows.knows.lines, ladderText, PureBook.lineAt]
  by_cases vacant : lotsAt (view.book.levels isBuySide) price = []
  · rw [vacant]
    rfl
  · rw [if_neg vacant, if_neg (fun empty => vacant (List.map_eq_nil_iff.mp empty))]
    rfl

/-- At first there is nothing to know. -/
theorem fresh {symbol : String} (new : OrderBook.new symbol poolSize = some book) :
    ({} : Reader).Follows book (View.fresh poolSize) :=
  ⟨represents_new new, ⟨fun _ => rfl, rfl⟩, fun _ _ member => absurd member List.not_mem_nil⟩

end Reader.Follows

/-- **The log of a run is read as its calls are.** -/
theorem Reader.Follows.run {symbol : String} {fresh last : OrderBook poolSize}
    {calls : List (Call poolSize)} {logs : List (List LogLine)}
    (new : OrderBook.new symbol poolSize = some fresh)
    (run : Run OrderBook.callLogged Call.LegalById fresh calls logs last) :
    ∃ reader view, Reader.readAll {} logs.flatten = some reader ∧ reader.Follows last view := by
  obtain ⟨reader, read, view, follows⟩ := run.tape
    (fun book reader => ∃ view, Reader.Follows reader book view)
    (fun book reader call lines next ⟨_, follows⟩ legal done => by
      obtain ⟨-, after, read, follows⟩ := follows.call legal done
      exact ⟨after, read, _, follows⟩)
    ⟨_, Reader.Follows.fresh new⟩
  exact ⟨reader, view, read, follows⟩

/-- **The log tells the book.** A reader refuses no line of the log, and has the levels of the book
at the end. -/
theorem log_replays {symbol : String} {fresh last : OrderBook poolSize}
    {calls : List (Call poolSize)} {logs : List (List LogLine)}
    (new : OrderBook.new symbol poolSize = some fresh)
    (run : Run OrderBook.callLogged Call.LegalById fresh calls logs last) :
    ∃ reader : Reader, Reader.readAll {} logs.flatten = some reader ∧ reader.incoming = none ∧
      ∀ isBuySide price, last.readAt (fun slot => (last.order slot).text) isBuySide price =
        reader.lineAt isBuySide price := by
  obtain ⟨reader, view, read, follows⟩ := Reader.Follows.run new run
  exact ⟨reader, read, follows.knows.idle, follows.readAt⟩

/-- Two asks rest at 10; a bid of 6 at 12 closes the first and takes 2 of the next, which is
cancelled. -/
theorem log_replays_sample : ∃ (fresh last : OrderBook 4) (logs : List (List LogLine)),
    Run OrderBook.callLogged Call.LegalById fresh
      [.addOrder ⟨1, 1, 4, 10, false, .limit⟩, .addOrder ⟨2, 2, 5, 10, false, .limit⟩,
        .addOrder ⟨3, 3, 6, 12, true, .limit⟩, .cancelOrder ⟨1, by decide⟩] logs last ∧
    logs.map List.length = [2, 2, 5, 1] ∧
    ∃ reader : Reader, Reader.readAll {} logs.flatten = some reader ∧ reader.incoming = none ∧
      ∀ isBuySide price, last.readAt (fun slot => (last.order slot).text) isBuySide price =
        reader.lineAt isBuySide price := by
  have played : ((OrderBook.new "X" 4).bind fun fresh =>
      (execute OrderBook.callLogged Call.LegalById fresh
        [.addOrder ⟨1, 1, 4, 10, false, .limit⟩, .addOrder ⟨2, 2, 5, 10, false, .limit⟩,
          .addOrder ⟨3, 3, 6, 12, true, .limit⟩, .cancelOrder ⟨1, by decide⟩]).map
        fun result => result.1.map List.length) = some [2, 2, 5, 1] := by
    decide +kernel
  obtain ⟨fresh, new, ran⟩ := Option.bind_eq_some_iff.mp played
  obtain ⟨⟨logs, last⟩, ran, lengths⟩ := Option.map_eq_some_iff.mp ran
  exact ⟨fresh, last, logs, .of_execute ran, lengths, log_replays new (.of_execute ran)⟩

end TradingExchange
