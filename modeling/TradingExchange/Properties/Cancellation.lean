/-
**What cancelling may be asked to do.**

`cancelOrder` takes an order's level from its price and side, and its neighbours from its links. It
does not look whether the order is there, nor whether its slot is in use.

* Orders that are resting: `free_list_sound` is what cancelling only those gives.
* Orders that other orders have closed since: their slot is free already, and cancelling one puts it
  on the free list a second time. `closed_cancel` is a run in which each handle is used once, and
  only for an order that had rested (`Client`), after which a slot is linked to itself.
* Orders that never rested, and hold their slot still: cancelling one gives back the slot and
  nothing else, unless there is a level at its price and side (`stranded_cancel_iff`). If there is,
  the level loses its head and tail. `stranded_cancel` is a run that does this.
-/

import TradingExchange.Refinement.Runs

namespace TradingExchange

open Lots Ladder

variable {poolSize : UInt64} {book : OrderBook poolSize}

/-! ### The free list -/

/-- The free list ends, visits no slot twice, and hands out no slot of a resting order. -/
structure FreeListSound (book : OrderBook poolSize) : Prop where
  list : ∃ free, Chain Slot.index book.orderPool.link poolSize book.orderPool.nextFreeIndex free ∧
    free.Nodup
  fresh : ∀ request slot after, Request.addTo request book = .ok (some slot, after) →
    slot ∉ book.resting

/-- **If only resting orders are cancelled, the free list is sound.** -/
theorem free_list_sound (reachable : book.Reachable) : FreeListSound book := by
  obtain ⟨view, represents⟩ := reachable.represents
  refine ⟨⟨view.free, represents.pool.list.chain, represents.pool.list.nodup⟩, ?_⟩
  intro request slot after added
  rw [represents.mem_resting]
  cases found : view.free with
  | nil =>
    rw [represents.addOrder_refused found] at added
    exact absurd (Prod.mk.inj (Except.ok.inj added)).1 (Option.some_ne_none _).symm
  | cons first free =>
    obtain ⟨after', added', -⟩ := represents.addOrder request found
    obtain ⟨same, -⟩ := Prod.mk.inj (Except.ok.inj (added.symm.trans added'))
    obtain rfl := Option.some.inj same
    exact represents.pool.not_linked (found ▸ List.mem_cons_self)

/-- A book after a fill, a partial fill and a cancel. -/
theorem free_list_sound_sample : ∃ book : OrderBook 3, book.resting.map Fin.val = [1] ∧
    FreeListSound book := by
  have played : (OrderBook.play "X" 3 [.addOrder ⟨1, 1, 5, 10, true, .limit⟩,
      .addOrder ⟨2, 2, 5, 10, true, .limit⟩, .matchOrder false 10 7 .limit 0,
      .addOrder ⟨3, 3, 5, 20, false, .limit⟩, .cancelOrder ⟨0, by decide⟩]).map
      (fun result => result.2.resting.map Fin.val) = some [1] := by
    decide +kernel
  obtain ⟨⟨replies, book⟩, ran, resting⟩ := Option.map_eq_some_iff.mp played
  exact ⟨book, resting, free_list_sound (OrderBook.reachable_of_play ran)⟩

/-- A client of a book, with the handles it may still use: one for each order that came to rest when
it was added. -/
structure Client (poolSize : UInt64) where
  book : OrderBook poolSize
  handles : List (Slot poolSize) := []

namespace Client

/-- A call of the client: a handle is used up by cancelling. -/
def call (client : Client poolSize) :
    Call poolSize → Except Fault (Reply poolSize × Client poolSize)
  | .addOrder request =>
    match request.addTo client.book with
    | .error fault => .error fault
    | .ok (none, book) => .ok (.order none, { client with book := book })
    | .ok (some slot, book) =>
      let handles := if slot ∈ book.resting then slot :: client.handles else client.handles
      .ok (.order (some slot), ⟨book, handles⟩)
  | .cancelOrder order =>
    .ok (.cancelled, ⟨client.book.cancelOrder (some order), client.handles.erase order⟩)
  | .matchOrder .. => .error .nullDereference

/-- Orders are added, and cancelled through a handle. -/
def Legal (client : Client poolSize) : Call poolSize → Prop
  | .addOrder _ => True
  | .cancelOrder order => order ∈ client.handles
  | .matchOrder .. => False

instance (client : Client poolSize) : DecidablePred client.Legal
  | .addOrder _ => inferInstanceAs (Decidable True)
  | .cancelOrder order => inferInstanceAs (Decidable (order ∈ client.handles))
  | .matchOrder .. => inferInstanceAs (Decidable False)

end Client

/-- A slot that is linked to itself heads no list that ends. -/
theorem no_chain_of_loop {pool : OrderPool poolSize} (slot : Slot poolSize)
    (loop : pool.link slot = slot.index) (free : List (Slot poolSize)) :
    ¬ Chain Slot.index pool.link poolSize slot.index free := by
  induction free with
  | nil => exact slot.index_ne
  | cons first free ih =>
    rintro ⟨same, rest⟩
    obtain rfl := Slot.index_injective same
    exact ih (loop ▸ rest)

/-- **Each handle once is not enough**: an ask rests, a bid closes it, and the ask is cancelled. -/
theorem closed_cancel : ¬ ∀ (fresh : OrderBook 2) (calls : List (Call 2)) replies client,
    OrderBook.new "X" 2 = some fresh →
    Run Client.call Client.Legal ⟨fresh, []⟩ calls replies client → FreeListSound client.book := by
  intro sound
  have played : ((OrderBook.new "X" 2).bind fun fresh => execute Client.call Client.Legal ⟨fresh, []⟩
      [.addOrder ⟨1, 1, 5, 10, false, .limit⟩, .addOrder ⟨2, 2, 5, 10, true, .limit⟩,
        .cancelOrder ⟨0, by decide⟩]).map (fun result =>
          (result.2.book.orderPool.nextFreeIndex, result.2.book.orderPool.link ⟨0, by decide⟩)) =
      some (0, 0) := by
    decide +kernel
  obtain ⟨⟨replies, client⟩, ran, links⟩ := Option.map_eq_some_iff.mp played
  obtain ⟨fresh, new, ran⟩ := Option.bind_eq_some_iff.mp ran
  obtain ⟨head, loop⟩ := Prod.mk.inj links
  obtain ⟨free, chain, -⟩ := (sound fresh _ replies client new (.of_execute ran)).list
  exact no_chain_of_loop ⟨0, by decide⟩ loop free (head ▸ chain)

/-! ### Orders that hold a slot and rest nowhere -/

/-- Nothing happened but that a slot was given back. -/
structure OnlyReleased (before after : OrderBook poolSize) (slot : Slot poolSize) : Prop where
  levels : ∀ isBuySide, after.levels isBuySide = before.levels isBuySide
  pool : after.orderPool = before.orderPool.deallocate slot

/-- Removing an item without links from a queue empties its header. -/
theorem remove_unlinked {Memory Item : Type} [NodeMemory Memory Item] [DecidableEq Item]
    (queue : IntrusiveQueue Item) {memory : Memory} {item : Item}
    (unlinked : NodeMemory.getNode memory item = {}) :
    (queue.remove memory item).1.head = none := by
  rw [remove_head, unlinked]

/-- **Cancelling such an order is harmless exactly when its price has no level.** -/
theorem stranded_cancel_iff (reachable : book.Reachable) {slot : Slot poolSize}
    (used : book.InUse slot) (idle : slot ∉ book.resting) :
    OnlyReleased book (book.cancelOrder (some slot)) slot ↔
      (book.levels (book.order slot).isBuySide)[(book.order slot).price]? = none := by
  obtain ⟨view, represents⟩ := reachable.represents
  constructor
  · intro kept
    by_contra present
    obtain ⟨level, found⟩ := Option.ne_none_iff_exists'.mp present
    obtain ⟨inhabited, shown⟩ := represents.entry found
    have free : slot ∉ view.free := fun member => by
      have flag := (represents.pool.list.flags slot).mpr member
      exact absurd (used.symm.trans flag) Bool.false_ne_true
    have unlinked : NodeMemory.getNode book.orderPool slot = {} :=
      represents.pool.idle slot free fun member => idle ((represents.mem_resting slot).mpr member)
    -- the level had a head, and `remove` takes it for the one of an order without links
    have head : level.head ≠ none := by
      rw [shown.queue.head, ne_eq, List.head?_eq_none_iff, ← List.length_eq_zero_iff, length_refs,
        List.length_eq_zero_iff]
      exact inhabited
    have after := OrderBook.cancelOrder_level found
    rw [kept.levels, found] at after
    split at after
    · exact Option.some_ne_none _ after
    · refine head ?_
      rw [Option.some.inj after]
      exact remove_unlinked level unlinked
  · intro absent
    refine ⟨fun isBuySide => ?_, ?_⟩ <;> simp only [OrderBook.cancelOrder, absent]
    rfl

/-- A bid that closed an ask on arrival gives back its slot, and nothing else. -/
theorem stranded_cancel_iff_sample : ∃ book : OrderBook 2,
    book.InUse ⟨1, by decide⟩ ∧ (⟨1, by decide⟩ : Slot 2) ∉ book.resting ∧
    OnlyReleased book (book.cancelOrder (some ⟨1, by decide⟩)) ⟨1, by decide⟩ := by
  have played : (OrderBook.play "X" 2 [.addOrder ⟨1, 1, 5, 10, false, .limit⟩,
      .addOrder ⟨2, 2, 5, 10, true, .limit⟩]).map (fun result =>
        decide (result.2.InUse ⟨1, by decide⟩ ∧ (⟨1, by decide⟩ : Slot 2) ∉ result.2.resting ∧
          ((result.2.levels (result.2.order ⟨1, by decide⟩).isBuySide)[
            (result.2.order ⟨1, by decide⟩).price]?).isNone)) = some true := by
    decide +kernel
  obtain ⟨⟨replies, book⟩, ran, facts⟩ := Option.map_eq_some_iff.mp played
  obtain ⟨used, idle, absent⟩ := of_decide_eq_true facts
  exact ⟨book, used, idle, (stranded_cancel_iff (OrderBook.reachable_of_play ran) used idle).mpr
    (Option.isNone_iff_eq_none.mp absent)⟩

/-- **Such a cancel can take a level away**: a bid closes an ask on arrival and keeps slot 1, another
bid at its price rests in slot 0, and cancelling the first takes the second off the book. -/
theorem stranded_cancel : ∃ (replies : List (Reply 2)) (book : OrderBook 2),
    OrderBook.play "X" 2 [.addOrder ⟨1, 1, 5, 10, false, .limit⟩,
      .addOrder ⟨2, 2, 5, 10, true, .limit⟩, .addOrder ⟨3, 3, 7, 10, true, .limit⟩] =
        some (replies, book) ∧
    book.InUse ⟨1, by decide⟩ ∧ book.resting.map Fin.val = [0] ∧
    (book.cancelOrder (some ⟨1, by decide⟩)).resting = [] ∧
    ¬ OnlyReleased book (book.cancelOrder (some ⟨1, by decide⟩)) ⟨1, by decide⟩ := by
  have played : (OrderBook.play "X" 2 [.addOrder ⟨1, 1, 5, 10, false, .limit⟩,
      .addOrder ⟨2, 2, 5, 10, true, .limit⟩, .addOrder ⟨3, 3, 7, 10, true, .limit⟩]).map
      (fun result => decide (result.2.InUse ⟨1, by decide⟩ ∧ result.2.resting.map Fin.val = [0] ∧
        (result.2.cancelOrder (some ⟨1, by decide⟩)).resting = [] ∧
        result.2.bidLevels.size = 1 ∧
        (result.2.cancelOrder (some ⟨1, by decide⟩)).bidLevels.size = 0)) = some true := by
    decide +kernel
  obtain ⟨⟨replies, book⟩, ran, facts⟩ := Option.map_eq_some_iff.mp played
  obtain ⟨used, before, after, one, emptied⟩ := of_decide_eq_true facts
  refine ⟨replies, book, ran, used, before, after, fun kept => ?_⟩
  have same := congrArg Std.ExtTreeMap.size (kept.levels true)
  exact absurd (emptied.symm.trans (same.trans one)) Nat.zero_ne_one

end TradingExchange
