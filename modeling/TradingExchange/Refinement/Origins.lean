/-
**Where the orders of a book come from.**

Every resting order came with one of the requests made so far, under whose id, client, price, side
and type it rests, with at most its size; and at most one slot is taken by each request (`Traced`).
A run keeps that (`Run.traced`), together with a reader of the log, if no two of its requests have
the same id.
-/

import Mathlib.Algebra.Group.Action.Defs
import Mathlib.Algebra.Order.BigOperators.Group.List
import Mathlib.Algebra.Order.Ring.Nat
import TradingExchange.Properties.Log

namespace TradingExchange

open Lots Ladder

variable {poolSize : UInt64}

/-- The requests among some calls. -/
def Call.request : Call poolSize → List Request
  | .addOrder request => [request]
  | .cancelOrder _ => []
  | .matchOrder .. => []

/-- The requests made by some calls. -/
def requestsOf (calls : List (Call poolSize)) : List Request := calls.flatMap Call.request

/-- A lot at a price of a side came with a request. -/
structure Request.Rests {Ref : Type} (request : Request) (isBuySide : Bool) (price : UInt64)
    (lot : Lot (Ticket Ref)) : Prop where
  isBuySide : request.isBuySide = isBuySide
  price : request.price = price
  ticket : lot.tag = request.ticket lot.tag.ref
  size : lot.size ≤ request.size.toNat

/-- **Every resting order came with one of the requests**, and each request took at most a slot. -/
structure Traced (seen : List Request) (view : View poolSize) : Prop where
  origin : ∀ isBuySide price, ∀ lot ∈ lotsAt (view.book.levels isBuySide) price,
    ∃ request ∈ seen, request.Rests isBuySide price lot
  free : poolSize.toNat ≤ view.free.length + seen.length

namespace Traced

variable {seen : List Request} {view : View poolSize}

theorem fresh : Traced [] (View.fresh poolSize) := by
  refine ⟨fun _ _ _ member => absurd member List.not_mem_nil, ?_⟩
  rw [View.fresh, List.length_finRange]
  exact Nat.le_refl _

/-- What is smaller than a lot with an origin has the same origin. -/
theorem earlier (traced : Traced seen view) {isBuySide : Bool} {price : UInt64}
    {lot : Lot (Ticket (Slot poolSize))}
    (found : ∃ earlier ∈ lotsAt (view.book.levels isBuySide) price,
      earlier.tag = lot.tag ∧ lot.size ≤ earlier.size) :
    ∃ request ∈ seen, request.Rests isBuySide price lot := by
  obtain ⟨earlier, there, tag, smaller⟩ := found
  obtain ⟨request, member, side, limit, ticket, size⟩ := traced.origin _ _ earlier there
  exact ⟨request, member, side, limit, tag ▸ ticket, Nat.le_trans smaller size⟩

/-- What is left of a side after matching has its origin. -/
theorem matchOrder (traced : Traced seen view) {isBuySide side : Bool} {price limit : UInt64}
    {amount : Nat} {type : OrderType} {lot : Lot (Ticket (Slot poolSize))}
    (member : lot ∈ lotsAt ((view.book.matchOrder isBuySide limit amount type).levels side) price) :
    ∃ request ∈ seen, request.Rests side price lot := by
  by_cases own : side = isBuySide
  · subst own
    rw [PureBook.matchOrder_self] at member
    exact traced.origin _ _ lot member
  · obtain rfl := Bool.eq_not_of_ne own
    rw [PureBook.matchOrder_not] at member
    exact traced.earlier (PureBook.mem_lotsAt_swept member)

/-- What rests after an order is added has its origin, or is the new order. -/
theorem add (traced : Traced seen view) {request : Request} {slot : Slot poolSize} {side : Bool}
    {price : UInt64} {lot : Lot (Ticket (Slot poolSize))}
    (member : lot ∈ lotsAt ((view.book.add (request.ticket slot) request.size.toNat request.price
      request.isBuySide request.orderType).levels side) price) :
    ∃ other ∈ seen ++ [request], other.Rests side price lot := by
  have old (found : ∃ other ∈ seen, other.Rests side price lot) :
      ∃ other ∈ seen ++ [request], other.Rests side price lot := by
    obtain ⟨other, there, rests⟩ := found
    exact ⟨other, List.mem_append_left _ there, rests⟩
  by_cases own : side = request.isBuySide
  · subst own
    by_cases left : view.book.available request.isBuySide request.price request.orderType <
        request.size.toNat
    · rw [PureBook.add_self_of_lt _ _ _ _ _ _ left, lotsAt_rest (view.book.sorted _)] at member
      split at member
      · next same =>
        subst same
        rcases List.mem_append.mp member with before | new
        · exact old (traced.origin _ _ lot before)
        · rw [List.mem_singleton.mp new]
          exact ⟨request, List.mem_append_right _ (List.mem_singleton.mpr rfl), rfl, rfl, rfl,
            Nat.sub_le ..⟩
      · exact old (traced.origin _ _ lot member)
    · rw [PureBook.add_self_of_le _ _ _ _ _ _ (Nat.not_lt.mp left)] at member
      exact old (traced.origin _ _ lot member)
  · obtain rfl := Bool.eq_not_of_ne own
    rw [PureBook.add_not] at member
    exact old (traced.earlier (PureBook.mem_lotsAt_swept member))

/-- **A call keeps the origins.** -/
theorem step (traced : Traced seen view) (call : Call poolSize) :
    Traced (seen ++ call.request) (view.step call).2 := by
  constructor
  · intro side price lot member
    cases call with
    | addOrder request =>
      cases found : view.free with
      | nil =>
        rw [View.step, View.add_nil found] at member
        obtain ⟨other, there, rests⟩ := traced.origin _ _ lot member
        exact ⟨other, List.mem_append_left _ there, rests⟩
      | cons slot free =>
        rw [View.step, View.add_cons found] at member
        exact traced.add member
    | cancelOrder order =>
      rw [View.step, View.cancel, PureBook.levels_cancel,
        lotsAt_withdraw (view.book.sorted side)] at member
      rw [Call.request, List.append_nil]
      exact traced.origin _ _ lot (List.mem_of_mem_filter member)
    | matchOrder isBuySide limit size type totalMatched =>
      rw [Call.request, List.append_nil]
      exact traced.matchOrder member
  · have free := traced.free
    have counted := view.length_free_step call
    rw [List.length_append]
    cases call with
    | addOrder request =>
      have one : (view.step (.addOrder request)).1.accepts ≤ 1 := by
        rw [View.step, Reply.accepts.eq_def]
        split <;> omega
      rw [Call.request, List.length_singleton]
      omega
    | cancelOrder order =>
      have nothing : (view.step (.cancelOrder order)).1.accepts = 0 := rfl
      rw [Call.request, List.length_nil]
      omega
    | matchOrder isBuySide limit size type totalMatched =>
      have nothing : (view.step (.matchOrder isBuySide limit size type totalMatched)).1.accepts = 0 := rfl
      rw [Call.request, List.length_nil]
      omega

/-- A resting order has the id of one of the requests. -/
theorem orderId (traced : Traced seen view) {book : OrderBook poolSize}
    (represents : Represents book view) {slot : Slot poolSize} (resting : slot ∈ book.resting) :
    ∃ request ∈ seen, (book.order slot).orderId = request.orderId := by
  obtain ⟨isBuySide, price, lot, here, rfl⟩ :=
    View.exists_lot ((represents.mem_resting slot).mp resting)
  obtain ⟨request, member, rests⟩ := traced.origin _ _ lot here
  refine ⟨request, member, (represents.filed here).orderId.trans ?_⟩
  rw [rests.ticket]
  rfl

/-- Where no request has the id of an earlier one, legal calls are legal by id. -/
theorem legalById (traced : Traced seen view) {book : OrderBook poolSize}
    (represents : Represents book view) {call : Call poolSize} (legal : call.Legal book)
    (distinct : ((seen ++ call.request).map Request.orderId).Nodup) : call.LegalById book := by
  cases call with
  | addOrder request =>
    intro slot resting same
    obtain ⟨earlier, member, id⟩ := traced.orderId represents resting
    rw [List.map_append] at distinct
    exact (List.nodup_append.mp distinct).2.2 earlier.orderId (List.mem_map_of_mem member)
      request.orderId List.mem_cons_self (id.symm.trans same)
  | cancelOrder order => exact legal
  | matchOrder => trivial

/-- At most one order rests for each request. -/
theorem length_lotsAt (traced : Traced seen view) {book : OrderBook poolSize}
    (represents : Represents book view) (isBuySide : Bool) (price : UInt64) :
    (lotsAt (view.book.levels isBuySide) price).length ≤ seen.length := by
  have all := represents.pool.nodup.length_le_card
  rw [Fintype.card_fin, List.length_append] at all
  have inside : (refs (lotsAt (view.book.levels isBuySide) price)).length ≤ view.linked.length := by
    have side : (refs (lotsAt (view.book.levels isBuySide) price)).length ≤
        (view.slots isBuySide).length := refs_lotsAt_sublist.length_le
    have both := (view.linked_perm isBuySide).length_eq
    rw [List.length_append] at both
    omega
  rw [length_refs] at inside
  have free := traced.free
  omega

/-- The total at a price, where no request is for more than a bound. -/
theorem total_le (traced : Traced seen view) {book : OrderBook poolSize} {reader : Reader}
    (follows : reader.Follows book view) {bound : ℕ}
    (sizes : ∀ request ∈ seen, request.size.toNat ≤ bound) (isBuySide : Bool) (price : UInt64) :
    ((reader.lines isBuySide price).map fun order => order.size.toNat).sum ≤
      seen.length * bound := by
  have line : reader.lines isBuySide price =
      (lotsAt (view.book.levels isBuySide) price).map (Lot.text book.symbol isBuySide price) :=
    congrFun (follows.knows.lines isBuySide) price
  have each : ∀ size ∈ (reader.lines isBuySide price).map fun order => order.size.toNat,
      size ≤ bound := by
    intro size member
    obtain ⟨order, inside, rfl⟩ := List.mem_map.mp member
    rw [line] at inside
    obtain ⟨lot, here, rfl⟩ := List.mem_map.mp inside
    obtain ⟨request, asked, rests⟩ := traced.origin _ _ lot here
    calc (Lot.text book.symbol isBuySide price lot).size.toNat
        = lot.size % UInt32.size := UInt32.toNat_ofNat
      _ ≤ lot.size := Nat.mod_le ..
      _ ≤ request.size.toNat := rests.size
      _ ≤ bound := sizes request asked
  have length := traced.length_lotsAt follows.represents isBuySide price
  have sum := List.sum_le_card_nsmul _ bound each
  rw [List.length_map, line, List.length_map, smul_eq_mul] at sum
  rw [line]
  exact Nat.le_trans sum (Nat.mul_le_mul_right bound length)

/-- The price of a level is that of one of the requests. -/
theorem price (traced : Traced seen view) {book : OrderBook poolSize}
    (represents : Represents book view) {isBuySide : Bool} {price : UInt64}
    (member : price ∈ book.levels isBuySide) : ∃ request ∈ seen, request.price = price := by
  have inside : lotsAt (view.book.levels isBuySide) price ≠ [] :=
    lotsAt_ne_nil.mpr (((represents.sides isBuySide).mem_iff price).mp member)
  obtain ⟨lot, here⟩ := List.exists_mem_of_ne_nil _ inside
  obtain ⟨request, asked, rests⟩ := traced.origin _ _ lot here
  exact ⟨request, asked, rests.price⟩

/-- **A run of requests with distinct ids is read from its log**, and its orders are traced. -/
theorem run {book last : OrderBook poolSize} {calls : List (Call poolSize)}
    {logs : List (List LogLine)} {reader : Reader}
    (run : Run OrderBook.callLogged Call.Legal book calls logs last)
    (follows : reader.Follows book view) (traced : Traced seen view)
    (distinct : ((seen ++ requestsOf calls).map Request.orderId).Nodup) :
    ∃ reader' view', reader.readAll logs.flatten = some reader' ∧ reader'.Follows last view' ∧
      Traced (seen ++ requestsOf calls) view' ∧ last.symbol = book.symbol := by
  induction run generalizing seen view reader with
  | nil =>
    refine ⟨reader, view, rfl, follows, ?_, rfl⟩
    rwa [requestsOf, List.flatMap_nil, List.append_nil]
  | @cons book next last call calls lines logs permitted done _ ih =>
    have split : seen ++ requestsOf (call :: calls) = (seen ++ call.request) ++ requestsOf calls :=
      (List.append_assoc ..).symm
    rw [split] at distinct ⊢
    have early : ((seen ++ call.request).map Request.orderId).Nodup := by
      rw [List.map_append] at distinct
      exact distinct.of_append_left
    obtain ⟨symbol, reader', read, follows⟩ :=
      follows.call (traced.legalById follows.represents permitted early) done
    obtain ⟨reader'', view', rest, follows, traced, named⟩ :=
      ih follows (traced.step call) distinct
    refine ⟨reader'', view', ?_, follows, traced, named.trans symbol⟩
    have folded : lines.foldlM Reader.read reader = some reader' := read
    rw [Reader.readAll, List.flatten_cons, List.foldlM_append, folded]
    exact rest

end Traced

end TradingExchange
