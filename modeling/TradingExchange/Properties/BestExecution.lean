/-
**Best execution.**

What `addOrder` takes from the opposite orders is best among all ways to take from them within the
limit and the size (`Assignment`): nothing takes more, and nothing that takes as much is dearer for a
bid, or earns more for an ask. The specification knows neither levels nor time. It is met because
the queue is in order of price (`Represents.queue_ordered`), and serving a queue in order of cost is
optimal (`Greedy.most`, `Greedy.cheapest`).

An order that finds no slot takes nothing, so on a full pool the best is missed (`full_misses`).
-/

import Mathlib.Data.List.TakeWhile
import TradingExchange.Library.Allocation
import TradingExchange.Properties.Outcome

namespace TradingExchange

open Lots Ladder

variable {poolSize : UInt64}

namespace OrderBook

/-- What is taken from the opposite orders by an assignment. -/
def volume (book : OrderBook poolSize) (request : Request) (amount : Slot poolSize → Nat) : Nat :=
  ((book.restingOn !request.isBuySide).map amount).sum

/-- What it is worth at the prices of the orders. -/
def worth (book : OrderBook poolSize) (request : Request) (amount : Slot poolSize → Nat) : Nat :=
  ((book.restingOn !request.isBuySide).map fun order =>
    amount order * (book.order order).price.toNat).sum

/-- What a call took from an order. -/
def taken (before after : OrderBook poolSize) (order : Slot poolSize) : Nat :=
  (before.order order).size.toNat - (after.order order).size.toNat

end OrderBook

/-- The price of a resting order is past the limit of a request. -/
def Request.Past (request : Request) (price : UInt64) : Prop :=
  request.orderType = .limit ∧
    if request.isBuySide then request.price < price else price < request.price

instance (request : Request) : DecidablePred request.Past := fun price =>
  inferInstanceAs (Decidable (request.orderType = .limit ∧
    if request.isBuySide then request.price < price else price < request.price))

/-- A way to take from the opposite orders within the limit and the size of a request. -/
structure Assignment (book : OrderBook poolSize) (request : Request)
    (amount : Slot poolSize → Nat) : Prop where
  within : ∀ order ∈ book.restingOn (!request.isBuySide),
    amount order ≤ (book.order order).size.toNat
  limit : ∀ order ∈ book.restingOn (!request.isBuySide),
    request.Past (book.order order).price → amount order = 0
  volume : book.volume request amount ≤ request.size.toNat

/-- **What was taken is best.** -/
structure BestExecution (before after : OrderBook poolSize) (request : Request) : Prop where
  assignment : Assignment before request (before.taken after)
  most : ∀ other, Assignment before request other →
    before.volume request other ≤ before.volume request (before.taken after)
  best : ∀ other, Assignment before request other →
    before.volume request other = before.volume request (before.taken after) →
      if request.isBuySide then
        before.worth request (before.taken after) ≤ before.worth request other
      else before.worth request other ≤ before.worth request (before.taken after)

section Queue

variable {book after : OrderBook poolSize} {view : View poolSize} {request : Request}

theorem Request.past_iff (request : Request) (price : UInt64) : request.Past price ↔
    inReach request.isBuySide request.price request.orderType price = false := by
  obtain ⟨orderId, clientId, size, limit, isBuySide, orderType⟩ := request
  cases orderType <;> cases isBuySide <;>
    simp [Request.Past, inReach, better]

/-- What an order costs to the request: an ask is paid, a bid pays. -/
def Request.cost (request : Request) (price : UInt64) : Int :=
  if request.isBuySide then price.toNat else -price.toNat

/-- Better prices cost less. -/
theorem Request.cost_le {request : Request} {price other : UInt64}
    (sooner : better (!request.isBuySide) price other) : request.cost price ≤ request.cost other := by
  rw [Request.cost, Request.cost]
  cases side : request.isBuySide with
  | true =>
    rw [side] at sooner
    have less : price.toNat < other.toNat := UInt64.lt_iff_toNat_lt.mp sooner
    simp only [if_true]
    omega
  | false =>
    rw [side] at sooner
    have less : other.toNat < price.toNat := UInt64.lt_iff_toNat_lt.mp sooner
    simp only [Bool.false_eq_true, if_false]
    omega

/-- The cost of amounts is what they are worth, up to the sign. -/
theorem Request.cost_sum (request : Request) (amount : Slot poolSize → Nat)
    (price : Slot poolSize → UInt64) (orders : List (Slot poolSize)) :
    (orders.map fun order => (amount order : Int) * request.cost (price order)).sum =
      if request.isBuySide then
        (((orders.map fun order => amount order * (price order).toNat).sum : Nat) : Int)
      else -((orders.map fun order => amount order * (price order).toNat).sum : Nat) := by
  induction orders with
  | nil => simp only [List.map_nil, List.sum_nil, Nat.cast_zero, neg_zero, ite_self]
  | cons order orders ih =>
    rw [List.map_cons, List.sum_cons, ih, Request.cost, List.map_cons, List.sum_cons]
    split
    · rw [Nat.cast_add, Nat.cast_mul]
    · rw [Nat.cast_add, Nat.cast_mul, neg_add, mul_neg]

/-- **The queue is in order of cost.** -/
theorem Represents.queue_ordered (represents : Represents book view) (request : Request) :
    (book.queueFor request).Pairwise fun order later =>
      request.cost (book.order order).price ≤ request.cost (book.order later).price := by
  have price : ∀ level ∈ view.reached request, ∀ lot ∈ level.lots,
      (book.order lot.tag.ref).price = level.price := by
    intro level inside lot member
    have listed := (List.takeWhile_sublist _).subset inside
    rw [← (view.book.sorted _).lotsAt_level listed] at member
    exact (represents.filed member).price
  have sorted : (view.reached request).Pairwise fun level worse =>
      better (!request.isBuySide) level.price worse.price :=
    (List.pairwise_map.mp (view.book.sorted _)).sublist (List.takeWhile_sublist _)
  rw [represents.queueFor, refs_eq, List.pairwise_map, flat, List.pairwise_flatMap]
  refine ⟨fun level inside => ?_, ?_⟩
  · refine List.pairwise_of_forall_mem_list fun lot member other member' => ?_
    rw [price level inside lot member, price level inside other member']
  · refine List.Pairwise.imp_of_mem ?_ sorted
    intro level worse inside inside' sooner lot member other member'
    rw [price level inside lot member, price worse inside' other member']
    exact Request.cost_le sooner

/-- The opposite orders are those of the queue, and others that are past the limit. -/
theorem Represents.beyond (represents : Represents book view) (request : Request) :
    ∃ beyond, (book.restingOn !request.isBuySide).Perm (book.queueFor request ++ beyond) ∧
      (∀ order ∈ beyond, request.Past (book.order order).price) ∧
      ∀ order ∈ book.queueFor request, ¬ request.Past (book.order order).price := by
  refine ⟨refs (flat (view.unreached request)), ?_, fun order member => ?_, fun order member => ?_⟩
  · refine (represents.restingOn_perm _).trans (.of_eq ?_)
    rw [represents.queueFor, View.slots, view.line_split, refs_append]
  · obtain ⟨lot, inside, rfl⟩ := mem_refs.mp member
    obtain ⟨level, behind, here⟩ := mem_flat.mp inside
    have listed := (List.dropWhile_sublist _).subset behind
    rw [← (view.book.sorted _).lotsAt_level listed] at here
    rw [request.past_iff, (represents.filed here).price]
    exact out_of_dropWhile (view.book.sorted _) inReach_of_better level behind
  · rw [represents.queueFor] at member
    obtain ⟨lot, inside, rfl⟩ := mem_refs.mp member
    obtain ⟨level, ahead, here⟩ := mem_flat.mp inside
    have listed := (List.takeWhile_sublist _).subset ahead
    rw [← (view.book.sorted _).lotsAt_level listed] at here
    have reached := List.mem_takeWhile_imp (ahead : level ∈ List.takeWhile (fun level =>
      inReach request.isBuySide request.price request.orderType level.price) _)
    rw [request.past_iff, (represents.filed here).price, Bool.not_eq_false]
    exact reached

/-! ### Sums over the opposite orders -/

/-- An amount of zero past the limit is an amount for the queue. -/
theorem sum_restingOn {amount : Slot poolSize → Nat} {queue beyond orders : List (Slot poolSize)}
    (perm : orders.Perm (queue ++ beyond)) (untaken : ∀ order ∈ beyond, amount order = 0) :
    (orders.map amount).sum = (queue.map amount).sum := by
  have zero : (beyond.map amount).sum = 0 := List.sum_eq_zero fun value member => by
    obtain ⟨order, inside, rfl⟩ := List.mem_map.mp member
    exact untaken order inside
  rw [(perm.map amount).sum_eq, List.map_append, List.sum_append, zero, Nat.add_zero]

variable {slot : Slot poolSize} {done part rest : List (Slot poolSize)}

/-- An order that the outcome leaves alone loses nothing. -/
theorem Outcome.taken_eq_zero (outcome : Outcome book after request slot done part rest)
    {order : Slot poolSize} (resting : order ∈ book.resting) (apart : order ∉ done)
    (apart' : order ∉ part) : book.taken after order = 0 := by
  obtain ⟨node, same⟩ := outcome.others order resting apart apart'
  rw [OrderBook.taken, same, Nat.sub_self]

/-- **What `addOrder` takes is greedy.** -/
theorem Outcome.greedy (outcome : Outcome book after request slot done part rest)
    (queue : (book.queueFor request).Nodup)
    (resting : ∀ order ∈ book.queueFor request, order ∈ book.resting) :
    Greedy (fun order => (book.order order).size.toNat) (book.taken after) request.size.toNat
      (book.queueFor request) := by
  refine ⟨⟨done, part, rest, outcome.queue, outcome.few, fun order member => ?_,
    fun order member => ?_⟩, outcome.matched⟩
  · rw [OrderBook.taken, (outcome.consumed order member).1]
    exact Nat.sub_zero _
  · rw [outcome.queue] at queue resting
    have apart := (List.nodup_append.mp queue).2.2
    refine outcome.taken_eq_zero (resting order (List.mem_append_right _ member))
      (fun finished => ?_) fun partly => ?_
    · exact apart order (List.mem_append_left _ finished) order member rfl
    · exact apart order (List.mem_append_right _ partly) order member rfl

/-- **The outcome of an accepted order is best execution.** -/
theorem Outcome.best (outcome : Outcome book after request slot done part rest)
    (represents : Represents book view) : BestExecution book after request := by
  obtain ⟨beyond, perm, past, near⟩ := represents.beyond request
  have all : (book.restingOn !request.isBuySide).Nodup :=
    (represents.restingOn_perm _).nodup_iff.mpr (represents.slots_nodup _)
  have nodup := perm.nodup_iff.mp all
  have listed : ∀ order ∈ book.restingOn (!request.isBuySide), order ∈ book.resting := by
    intro order member
    rw [represents.mem_resting]
    exact View.mem_linked.mpr ⟨_, (represents.restingOn_perm _).subset member⟩
  have queued : ∀ order ∈ book.queueFor request,
      order ∈ book.restingOn (!request.isBuySide) := fun order member =>
    perm.mem_iff.mpr (List.mem_append_left _ member)
  have outside : ∀ order ∈ beyond, order ∈ book.restingOn (!request.isBuySide) :=
    fun order member => perm.mem_iff.mpr (List.mem_append_right _ member)
  have untouched : ∀ order ∈ beyond, book.taken after order = 0 := by
    intro order member
    have apart : order ∉ done ++ part ++ rest := fun inside =>
      (List.nodup_append.mp nodup).2.2 order (outcome.queue ▸ inside) order member rfl
    rw [List.mem_append, List.mem_append, not_or, not_or] at apart
    exact outcome.taken_eq_zero (listed order (outside order member)) apart.1.1 apart.1.2
  have greedy := outcome.greedy (List.nodup_append.mp nodup).1 fun order member =>
    listed order (queued order member)
  have volume : book.volume request (book.taken after) =
      ((book.queueFor request).map (book.taken after)).sum := sum_restingOn perm untouched
  have volumeOf : ∀ other, Assignment book request other →
      book.volume request other = ((book.queueFor request).map other).sum :=
    fun other assigned => sum_restingOn perm fun order member =>
      assigned.limit order (outside order member) (past order member)
  have worthOf : ∀ other, (∀ order ∈ beyond, other order = 0) →
      book.worth request other = ((book.queueFor request).map fun order =>
        other order * (book.order order).price.toNat).sum := fun other untaken =>
    sum_restingOn perm fun order member => by rw [untaken order member, Nat.zero_mul]
  refine ⟨⟨fun order member => Nat.sub_le _ _, fun order member beyondLimit => ?_, ?_⟩,
    fun other assigned => ?_, fun other assigned same => ?_⟩
  · rcases List.mem_append.mp (perm.mem_iff.mp member) with inside | behind
    · exact absurd beyondLimit (near order inside)
    · exact untouched order behind
  · rw [volume, greedy.total]
    exact Nat.min_le_left _ _
  · rw [volumeOf other assigned, volume]
    refine greedy.most (fun order member => assigned.within order (queued order member)) ?_
    rw [← volumeOf other assigned]
    exact assigned.volume
  · rw [volumeOf other assigned, volume] at same
    have cheapest := greedy.cheapest (represents.queue_ordered request)
      (fun order member => assigned.within order (queued order member)) same
    rw [worthOf _ untouched, worthOf other fun order member =>
      assigned.limit order (outside order member) (past order member)]
    rw [request.cost_sum, request.cost_sum] at cheapest
    split
    · next bid =>
      rw [if_pos bid, if_pos bid] at cheapest
      exact Int.ofNat_le.mp cheapest
    · next ask =>
      rw [if_neg ask, if_neg ask] at cheapest
      exact Int.ofNat_le.mp (Int.neg_le_neg_iff.mp cheapest)

end Queue

/-- **Best execution**: on a book with a free slot. -/
theorem best_execution {book : OrderBook poolSize} (reachable : book.Reachable)
    (room : ∃ slot, ¬ book.InUse slot) (request : Request) :
    ∃ slot after, request.addTo book = .ok (some slot, after) ∧
      BestExecution book after request := by
  obtain ⟨view, slot, free, after, represents, found, ran, added⟩ := reachable.accepts room request
  obtain ⟨done, part, rest, outcome⟩ := added.outcome represents found
  exact ⟨slot, after, ran, outcome.best represents⟩

/-- A bid of 7 at 10 meets asks of 5 at 9, of 4 at 10 and of 6 at 11. -/
theorem best_execution_sample : ∃ book : OrderBook 4,
    (book.restingOn false).map Fin.val = [0, 1, 2] ∧ ∃ slot after,
      Request.addTo ⟨4, 4, 7, 10, true, .limit⟩ book = .ok (some slot, after) ∧
        BestExecution book after ⟨4, 4, 7, 10, true, .limit⟩ := by
  have played : (OrderBook.play "X" 4 [.addOrder ⟨1, 1, 5, 9, false, .limit⟩,
      .addOrder ⟨2, 2, 4, 10, false, .limit⟩, .addOrder ⟨3, 3, 6, 11, false, .limit⟩]).map
      (fun result => ((result.2.restingOn false).map Fin.val,
        decide (result.2.InUse ⟨3, by decide⟩))) = some ([0, 1, 2], false) := by
    decide +kernel
  obtain ⟨⟨replies, book⟩, ran, both⟩ := Option.map_eq_some_iff.mp played
  obtain ⟨resting, unused⟩ := Prod.mk.inj both
  exact ⟨book, resting, best_execution (OrderBook.reachable_of_play ran)
    ⟨⟨3, by decide⟩, of_decide_eq_false unused⟩ _⟩

/-- **A full pool takes nothing**: an ask of 5 at 10 fills a pool of one slot, and a bid of 5 at 10 is
refused, although it could take all of the ask. -/
theorem full_misses : ∃ book : OrderBook 1, book.Reachable ∧ ∃ after,
    Request.addTo ⟨2, 2, 5, 10, true, .limit⟩ book = .ok (none, after) ∧
      ¬ BestExecution book after ⟨2, 2, 5, 10, true, .limit⟩ := by
  have played : (OrderBook.play "X" 1 [.addOrder ⟨1, 1, 5, 10, false, .limit⟩]).bind (fun result =>
      (Request.addTo ⟨2, 2, 5, 10, true, .limit⟩ result.2).toOption.map fun (slot, after) =>
        decide (slot = none ∧
          result.2.volume ⟨2, 2, 5, 10, true, .limit⟩ (result.2.taken after) = 0 ∧
          result.2.volume ⟨2, 2, 5, 10, true, .limit⟩ (fun _ => 5) = 5 ∧
          ∀ order ∈ result.2.restingOn false, (result.2.order order).size = 5 ∧
            ¬ Request.Past ⟨2, 2, 5, 10, true, .limit⟩ (result.2.order order).price)) =
      some true := by
    decide +kernel
  obtain ⟨⟨replies, book⟩, ran, refused⟩ := Option.bind_eq_some_iff.mp played
  obtain ⟨⟨slot, after⟩, added, facts⟩ := Option.map_eq_some_iff.mp refused
  obtain ⟨rfl, nothing, all, orders⟩ := of_decide_eq_true facts
  refine ⟨book, OrderBook.reachable_of_play ran, after, ok_of_toOption added, fun best => ?_⟩
  have more := best.most (fun _ => 5) ⟨fun order member => ?_, fun order member past => ?_, ?_⟩
  · rw [nothing, all] at more
    exact absurd more (by decide)
  · rw [(orders order member).1]
    decide
  · exact absurd past (orders order member).2
  · rw [all]
    decide

end TradingExchange
