/-
**The life of an order.**

An order that came to rest stays where it is, with its record, until the first call that cancels it
or fills it up: that call, and no other, takes it out of its level and deallocates it, once. From
then on its slot is free, and no call touches it before it is handed out again (`order_lifecycle`).

There is no status in the source. `Watch.Follows` reads the status from the view: an order that is
not over has its lot at its own price, with what is not filled; one that is over has its slot on the
free list.
-/

import TradingExchange.Model.Watch
import TradingExchange.Refinement.Filling

namespace TradingExchange

open Lots Ladder

variable {poolSize : UInt64} {watch : Watch poolSize}

namespace Watch

/-- The order rests, with what is not filled. -/
structure Resting (watch : Watch poolSize) : Prop where
  inUse : watch.book.InUse watch.slot
  record : Retained watch.order (watch.book.order watch.slot)
  linked : watch.slot ∈ watch.book.ordersAt watch.order.isBuySide watch.order.price
  filled : watch.filled + (watch.book.order watch.slot).size.toNat = watch.order.size.toNat
  positive : 0 < (watch.book.order watch.slot).size.toNat

/-- The order is out of the book and of the pool. -/
structure Gone (watch : Watch poolSize) : Prop where
  free : ¬ watch.book.InUse watch.slot
  unlinked : watch.slot ∉ watch.book.resting

/-- The ticket of the order. -/
def ticket (watch : Watch poolSize) : Ticket (Slot poolSize) :=
  ⟨watch.slot, watch.order.orderId, watch.order.clientId, watch.order.orderType⟩

/-- **The watch follows a view of its book.** -/
structure Follows (watch : Watch poolSize) (view : View poolSize) : Prop where
  represents : Represents watch.book view
  symbol : watch.book.symbol = watch.order.symbol
  place : ¬ watch.Over → watch.reused = false ∧
    ∃ lot ∈ lotsAt (view.book.levels watch.order.isBuySide) watch.order.price,
      lot.tag = watch.ticket ∧ watch.filled + lot.size = watch.order.size.toNat
  free : watch.Over → watch.reused = false → watch.slot ∈ view.free

namespace Follows

variable {view : View poolSize} {call : Call poolSize} {after : OrderBook poolSize}

/-- An order that is not over is linked. -/
theorem linked (follows : watch.Follows view) (going : ¬ watch.Over) : watch.slot ∈ view.linked := by
  obtain ⟨-, lot, member, tag, -⟩ := follows.place going
  have ref : lot.tag.ref = watch.slot := congrArg Ticket.ref tag
  rw [← ref]
  exact View.mem_linked_of_lotsAt (ref_mem member)

/-- No other order gets the slot of an order that is not over. -/
theorem unnamed (follows : watch.Follows view) (going : ¬ watch.Over) (call : Call poolSize) :
    view.addedBy call ≠ some watch.slot ∧ (view.step call).1 ≠ .order (some watch.slot) := by
  have old : view.addedBy call ≠ some watch.slot := fun added =>
    View.addedBy_apart follows.represents added (follows.linked going)
  exact ⟨old, fun named => old (View.reply_iff.mp named)⟩

theorem resting (follows : watch.Follows view) (going : ¬ watch.Over) : watch.Resting := by
  obtain ⟨-, lot, member, tag, sum⟩ := follows.place going
  have filed := follows.represents.filed member
  have ref : lot.tag.ref = watch.slot := congrArg Ticket.ref tag
  have linked := follows.linked going
  rw [ref, follows.symbol] at filed
  refine ⟨?_, ⟨(watch.book.order watch.slot).size, (watch.book.order watch.slot).listNode, ?_⟩, ?_,
    ?_, follows.represents.size_pos linked⟩
  · rw [follows.represents.inUse_iff]
    exact follows.represents.pool.not_free linked
  · obtain ⟨orderId, clientId, symbol, -, price, isBuySide, orderType⟩ := filed
    rw [tag] at orderId clientId orderType
    cases record : watch.book.order watch.slot
    rw [record] at orderId clientId symbol price isBuySide orderType
    rw [Order.mk.injEq]
    exact ⟨orderId, clientId, symbol, rfl, price, isBuySide, orderType, rfl⟩
  · rw [follows.represents.ordersAt]
    exact ref ▸ ref_mem member
  · rw [filed.size]
    exact sum

theorem gone (follows : watch.Follows view) (past : watch.Over) (same : watch.reused = false) :
    watch.Gone := by
  have free := follows.free past same
  refine ⟨fun used => (follows.represents.inUse_iff _).mp used free, fun resting => ?_⟩
  exact follows.represents.pool.not_linked free ((follows.represents.mem_resting _).mp resting)

end Follows

/-! ### One call -/

/-- What a call does to an order that is not over: if it is the one that ends it, it deallocates it
once, and otherwise not. -/
structure Onward (watch : Watch poolSize) (call : Call poolSize) (reply : Reply poolSize)
    (next : Watch poolSize) : Prop where
  kept : reply ≠ .order (some watch.slot)
  size : (next.book.order watch.slot).size ≤ (watch.book.order watch.slot).size
  going : ¬ next.Over → watch.slot ∉ watch.book.deallocations call
  ending : next.Over → (watch.book.deallocations call).count watch.slot = 1 ∧ next.Gone

/-- What a call does to an order that is over: nothing, unless it hands out the slot. -/
structure Aftermath (watch : Watch poolSize) (call : Call poolSize) (reply : Reply poolSize)
    (next : Watch poolSize) : Prop where
  deallocated : watch.slot ∉ watch.book.deallocations call
  fills : watch.book.fills call watch.slot = 0
  record : reply ≠ .order (some watch.slot) →
    next.book.order watch.slot = watch.book.order watch.slot

section Step

variable {view : View poolSize} {call : Call poolSize} {after : OrderBook poolSize}
  {reply : Reply poolSize}

theorem note_of_fresh (same : watch.reused = false) : watch.note call reply after =
    { watch with
      book := after
      filled := watch.filled + watch.book.fills call watch.slot
      cancelled := watch.cancelled || decide (call = .cancelOrder watch.slot)
      reused := decide (reply = .order (some watch.slot)) } := by
  rw [note, same, if_neg Bool.false_ne_true]

theorem note_of_reused (reused : watch.reused = true) :
    watch.note call reply after = { watch with book := after } := by
  rw [note, if_pos reused]

/-- **An order that is left in the book goes on resting at its place**, less what was filled. -/
theorem Follows.goes_on (follows : watch.Follows view) (going : ¬ watch.Over)
    (effect : Effect watch.book after view call) (left : watch.slot ∈ (view.step call).2.linked) :
    (watch.note call (view.step call).1 after).Follows (view.step call).2 ∧
      watch.Onward call (view.step call).1 (watch.note call (view.step call).1 after) := by
  obtain ⟨same, lot, member, tag, sum⟩ := follows.place going
  obtain ⟨uncancelled, -⟩ := not_or.mp going
  have ref : lot.tag.ref = watch.slot := congrArg Ticket.ref tag
  obtain ⟨old, unnamed⟩ := follows.unnamed going call
  have notFree : watch.slot ∉ (view.step call).2.free := effect.represents.pool.not_free left
  have kept : call ≠ .cancelOrder watch.slot := by
    rintro rfl
    exact notFree List.mem_cons_self
  obtain ⟨later, found, tag'⟩ := follows.represents.lot_step member (ref ▸ left)
  have ref' : later.tag.ref = watch.slot := (congrArg Ticket.ref tag').trans ref
  have loses := follows.represents.fills_add_quantityOf old kept
  rw [← ref, follows.represents.quantityOf_eq member, ← congrArg Ticket.ref tag',
    effect.represents.quantityOf_eq found, congrArg Ticket.ref tag', ref] at loses
  have going' : ¬ (watch.note call (view.step call).1 after).Over := by
    rw [note_of_fresh same, Over, decide_eq_false kept, Bool.or_false]
    have positive := later.positive
    exact not_or.mpr ⟨uncancelled, by simp only; omega⟩
  rw [note_of_fresh same] at going' ⊢
  refine ⟨⟨effect.represents, effect.symbol.trans follows.symbol,
    fun _ => ⟨decide_eq_false unnamed, later, found, tag'.trans tag, ?_⟩,
    fun past => absurd past going'⟩, unnamed, ?_, fun _ => ?_, fun past => absurd past going'⟩
  · simp only
    omega
  · have before := (follows.represents.filed member).size
    have now := (effect.represents.filed found).size
    rw [ref] at before
    rw [ref'] at now
    rw [UInt32.le_iff_toNat_le, before, now]
    omega
  · rw [follows.represents.mem_deallocations, not_or]
    exact ⟨fun closed => notFree (View.mem_free_of_closed closed), kept⟩

/-- **An order that a call closes or cancels is over, and out of the book.** -/
theorem Follows.ends (follows : watch.Follows view) (going : ¬ watch.Over)
    (effect : Effect watch.book after view call)
    (out : watch.slot ∈ view.closedBy call ∨ call = .cancelOrder watch.slot) :
    (watch.note call (view.step call).1 after).Follows (view.step call).2 ∧
      watch.Onward call (view.step call).1 (watch.note call (view.step call).1 after) := by
  obtain ⟨same, lot, member, tag, sum⟩ := follows.place going
  have ref : lot.tag.ref = watch.slot := congrArg Ticket.ref tag
  obtain ⟨old, unnamed⟩ := follows.unnamed going call
  have free : watch.slot ∈ (view.step call).2.free := by
    rcases out with closed | rfl
    · exact View.mem_free_of_closed closed
    · exact List.mem_cons_self
  have past : (watch.note call (view.step call).1 after).Over := by
    rw [note_of_fresh same]
    by_cases kept : call = .cancelOrder watch.slot
    · exact .inl (Bool.or_eq_true_iff.mpr (.inr (decide_eq_true kept)))
    · have loses := follows.represents.fills_add_quantityOf old kept
      rw [View.quantityOf_eq_zero _ (effect.represents.pool.not_linked free), Nat.add_zero, ← ref,
        follows.represents.quantityOf_eq member, ref] at loses
      exact .inr (by simp only; omega)
  rw [note_of_fresh same] at past ⊢
  have next : Follows _ (view.step call).2 := ⟨effect.represents,
    effect.symbol.trans follows.symbol, fun going => absurd past going, fun _ _ => free⟩
  refine ⟨next, unnamed, ?_, fun going => absurd past going,
    fun _ => ⟨?_, next.gone past (decide_eq_false unnamed)⟩⟩
  · rcases out with closed | cancelled
    · rw [show (after.order watch.slot).size = 0 from (effect.changed.closed _ closed).size_eq,
        UInt32.le_iff_toNat_le]
      exact Nat.zero_le _
    · exact UInt32.le_of_eq (effect.cancelled _ cancelled)
  · refine List.count_eq_one_of_mem (follows.represents.deallocations_nodup call) ?_
    exact follows.represents.mem_deallocations.mpr out

/-- **An order that is over is not touched again.** -/
theorem Follows.stays_over (follows : watch.Follows view) (past : watch.Over)
    (same : watch.reused = false) (legal : watch.Legal call)
    (effect : Effect watch.book after view call) :
    (watch.note call (view.step call).1 after).Follows (view.step call).2 ∧
      watch.Aftermath call (view.step call).1 (watch.note call (view.step call).1 after) := by
  have free := follows.free past same
  have idle : watch.slot ∉ view.linked := follows.represents.pool.not_linked free
  have past' : (watch.note call (view.step call).1 after).Over := by
    rw [note_of_fresh same]
    rcases past with cancelled | filled
    · exact .inl (Bool.or_eq_true_iff.mpr (.inl cancelled))
    · exact .inr (Nat.le_add_right_of_le filled)
  rw [note_of_fresh same] at past' ⊢
  refine ⟨⟨effect.represents, effect.symbol.trans follows.symbol,
    fun going => absurd past' going, fun _ unused => ?_⟩, ?_,
    follows.represents.fills_eq_zero call idle, fun unnamed => ?_⟩
  · exact View.mem_free_step call free fun added =>
      of_decide_eq_false unused (View.reply_iff.mpr added)
  · rw [follows.represents.mem_deallocations]
    rintro (closed | rfl)
    · exact idle (view.closedBy_subset call closed)
    · exact idle ((follows.represents.mem_resting _).mp legal)
  · exact effect.order_idle idle fun added => unnamed (View.reply_iff.mpr added)

/-- **A legal call keeps the watch following the view.** -/
theorem Follows.step (follows : watch.Follows view) (legal : watch.Legal call) :
    ∃ reply next, watch.step call = .ok (reply, next) ∧ next.Follows (view.step call).2 ∧
      (¬ watch.Over → watch.Onward call reply next) ∧
      (watch.Over → watch.reused = false → watch.Aftermath call reply next) := by
  obtain ⟨after, ran, effect⟩ := follows.represents.call (follows.represents.legal.mp legal)
  refine ⟨_, watch.note call (view.step call).1 after, by rw [Watch.step, ran], ?_⟩
  by_cases past : watch.Over
  · cases same : watch.reused with
    | false =>
      obtain ⟨next, aftermath⟩ := follows.stays_over past same legal effect
      exact ⟨next, fun going => absurd past going, fun _ _ => aftermath⟩
    | true =>
      refine ⟨?_, fun going => absurd past going, fun _ fresh => absurd fresh Bool.true_eq_false.mp⟩
      rw [note_of_reused same]
      exact ⟨effect.represents, effect.symbol.trans follows.symbol, fun going => absurd past going,
        fun _ fresh => absurd (same.symm.trans fresh) Bool.true_eq_false.mp⟩
  · have moved : (watch.note call (view.step call).1 after).Follows (view.step call).2 ∧
        watch.Onward call (view.step call).1 (watch.note call (view.step call).1 after) := by
      rcases View.mem_linked_step call (follows.linked past) with left | out
      · exact follows.goes_on past effect left
      · exact follows.ends past effect out
    exact ⟨moved.1, fun _ => moved.2, fun ended => absurd ended past⟩

end Step

/-! ### Runs -/

/-- **An order that comes to rest is filled by what it matched on arrival.** -/
theorem follows_start {before : OrderBook poolSize} {view : View poolSize}
    (represents : Represents before view) {request : Request}
    (started : start before request = some watch) :
    watch.Follows (view.step (.addOrder request)).2 ∧ ¬ watch.Over := by
  obtain ⟨after, ran, effect⟩ := represents.addTo request
  rw [start, ran] at started
  cases found : view.free with
  | nil =>
    rw [View.add_nil found] at started
    exact absurd started (Option.some_ne_none _).symm
  | cons slot free =>
    have added : view.addedBy (.addOrder request) = some slot := by
      rw [View.addedBy, View.add_cons found]
    rw [View.add_cons found] at started
    simp only at started
    split at started
    · next resting =>
      obtain rfl := Option.some.inj started
      have positive := effect.represents.size_pos ((effect.represents.mem_resting slot).mp resting)
      have matched := represents.matched_addOrder added
      rw [effect.added slot added, View.remainder] at positive
      have left : view.available request < request.size.toNat := Nat.lt_of_sub_pos positive
      have going : ¬ Over ⟨after, slot, request.order before.symbol,
          before.matched (.addOrder request), false, false⟩ := by
        refine not_or.mpr ⟨Bool.false_ne_true, Nat.not_le.mpr ?_⟩
        rw [matched]
        exact Nat.lt_of_le_of_lt (Nat.min_le_right _ _) left
      refine ⟨⟨effect.represents, effect.symbol, fun _ => ⟨rfl, ?_⟩,
        fun past => absurd past going⟩, going⟩
      refine ⟨⟨request.ticket slot, request.size.toNat - view.available request, positive⟩, ?_, rfl,
        ?_⟩
      · rw [View.step, View.add_cons found]
        simp only [Request.order]
        rw [PureBook.add_self_of_lt _ _ _ _ _ _ left, lotsAt_rest (view.book.sorted _), if_pos rfl]
        exact List.mem_append_right _ (List.mem_singleton.mpr rfl)
      · simp only [matched, Request.order]
        omega
    · exact absurd started (Option.some_ne_none _).symm

theorem Reachable.follows (reachable : watch.Reachable) : ∃ view, watch.Follows view := by
  obtain ⟨before, request, first, calls, replies, early, started, run⟩ := reachable
  obtain ⟨view, represents⟩ := early.represents
  refine run.invariant (fun watch => ∃ view, watch.Follows view)
    (fun watch call reply next ⟨view, follows⟩ legal done => ?_)
    ⟨_, (follows_start represents started).1⟩
  obtain ⟨reply', next', done', kept, -⟩ := follows.step legal
  obtain ⟨-, rfl⟩ := Prod.mk.inj (Except.ok.inj (done'.symm.trans done))
  exact ⟨_, kept⟩

end Watch

/-- **No call deallocates an order with something left**, but the one that cancels it. -/
theorem Represents.deallocated {book after : OrderBook poolSize} {view : View poolSize}
    (represents : Represents book view) {call : Call poolSize} (legal : call.Legal book)
    (effect : Effect book after view call) {slot : Slot poolSize}
    (member : slot ∈ book.deallocations call) :
    slot ∈ book.resting ∧ (call = .cancelOrder slot ∨ (after.order slot).size = 0) := by
  rcases represents.mem_deallocations.mp member with closed | rfl
  · exact ⟨(represents.mem_resting slot).mpr (view.closedBy_subset call closed),
      .inr (effect.changed.closed slot closed).size_eq⟩
  · exact ⟨legal, .inl rfl⟩

/-- **The life of an order.** -/
theorem order_lifecycle :
    (∀ before : OrderBook poolSize, before.Reachable → ∀ request watch,
      Watch.start before request = some watch → ¬ watch.Over) ∧
    (∀ watch : Watch poolSize, watch.Reachable →
      (¬ watch.Over → watch.Resting) ∧ (watch.Over → watch.reused = false → watch.Gone) ∧
      ∀ call, watch.Legal call → ∃ reply next, watch.step call = .ok (reply, next) ∧
        (¬ watch.Over → watch.Onward call reply next) ∧
        (watch.Over → watch.reused = false → watch.Aftermath call reply next)) ∧
    (∀ book : OrderBook poolSize, book.Reachable → ∀ call, call.Legal book →
      ∀ reply after, book.call call = .ok (reply, after) → ∀ slot ∈ book.deallocations call,
        slot ∈ book.resting ∧ (call = .cancelOrder slot ∨ (after.order slot).size = 0)) := by
  refine ⟨fun before reachable request watch started => ?_, fun watch reachable => ?_,
    fun book reachable call legal reply after ran slot member => ?_⟩
  · obtain ⟨view, represents⟩ := reachable.represents
    exact (Watch.follows_start represents started).2
  · obtain ⟨view, follows⟩ := reachable.follows
    refine ⟨follows.resting, follows.gone, fun call legal => ?_⟩
    obtain ⟨reply, next, done, -, onward, aftermath⟩ := follows.step legal
    exact ⟨reply, next, done, onward, aftermath⟩
  · obtain ⟨view, represents⟩ := reachable.represents
    obtain ⟨after', ran', effect⟩ := represents.call (represents.legal.mp legal)
    obtain ⟨-, rfl⟩ := Prod.mk.inj (Except.ok.inj (ran'.symm.trans ran))
    exact represents.deallocated legal effect member

/-- A bid that an ask filled in part is closed by the next match. -/
theorem order_lifecycle_sample : ∃ watch : Watch 3, watch.filled = 2 ∧ watch.Resting ∧
    ∃ reply next, watch.step (.matchOrder false 10 9 .market 0) = .ok (reply, next) ∧ next.Gone ∧
      (watch.book.deallocations (.matchOrder false 10 9 .market 0)).count watch.slot = 1 := by
  have played : (Watch.play "X" 3 [] ⟨1, 1, 5, 10, true, .limit⟩
      [.addOrder ⟨2, 2, 2, 10, false, .limit⟩]).map (fun watch => (watch.filled, decide watch.Over,
        (watch.step (.matchOrder false 10 9 .market 0)).toOption.map fun result =>
          decide result.2.Over)) = some (2, false, some true) := by
    decide +kernel
  obtain ⟨watch, ran, noted⟩ := Option.map_eq_some_iff.mp played
  obtain ⟨filled, rest⟩ := Prod.mk.inj noted
  obtain ⟨going, ended⟩ := Prod.mk.inj rest
  obtain ⟨-, watches, -⟩ := @order_lifecycle 3
  obtain ⟨resting, -, calls⟩ := watches watch (Watch.reachable_of_play ran)
  obtain ⟨reply, next, done, onward, -⟩ := calls (.matchOrder false 10 9 .market 0) trivial
  have live := of_decide_eq_false going
  rw [done] at ended
  obtain ⟨count, gone⟩ := (onward live).ending (of_decide_eq_true (Option.some.inj ended))
  exact ⟨watch, filled, resting live, reply, next, done, gone, count⟩

end TradingExchange
