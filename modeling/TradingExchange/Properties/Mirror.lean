/-
**Bids and asks are mirror images.**

The two matching loops are written by hand, one from `begin()` with `>`, the other from `rbegin()`
with `<`. A run and its mirror image, in which buying and selling are exchanged and every price `p`
is replaced by `2^64 - 1 - p`, return the same slots and the same totals, and keep the same orders
at mirrored prices, in the same slots and with the same free list (`mirror_run`).

The views do the work: every step of a view commutes with mirroring it (`View.step_mirror`), so the
mirrored view is what the mirrored run's book represents.
-/

import TradingExchange.Abstract.Laws
import TradingExchange.Refinement.Runs

namespace TradingExchange

open Lots Ladder

variable {poolSize : UInt64}

/-- Exchange buying and selling, and turn the price upside down. -/
def Request.mirror (request : Request) : Request :=
  { request with price := ~~~request.price, isBuySide := !request.isBuySide }

/-- The mirror image of a call. Cancels go to the same slots. -/
def Call.mirror : Call poolSize → Call poolSize
  | .addOrder request => .addOrder request.mirror
  | .cancelOrder order => .cancelOrder order
  | .matchOrder isBuySide price size type totalMatched =>
    .matchOrder (!isBuySide) (~~~price) size type totalMatched

/-- The price is replaced by `2^64 - 1 - p`. -/
theorem toNat_mirror (request : Request) :
    request.mirror.price.toNat = 2 ^ 64 - 1 - request.price.toNat := UInt64.toNat_not _

/-- Two books with the same orders at mirrored prices, in the same slots. -/
structure Mirrored (book book' : OrderBook poolSize) : Prop where
  levels : ∀ isBuySide price,
    book'.readAt (fun slot => (slot, (book'.order slot).size)) (!isBuySide) (~~~price) =
      book.readAt (fun slot => (slot, (book.order slot).size)) isBuySide price
  sizes : ∀ slot, (book'.order slot).size = (book.order slot).size
  head : book'.orderPool.nextFreeIndex = book.orderPool.nextFreeIndex
  free : ∃ free, book.orderPool.FreeList free ∧ book'.orderPool.FreeList free

/-! ### Views -/

namespace View

/-- The mirror image of a view. -/
def mirror (view : View poolSize) : View poolSize := ⟨view.book.mirror, view.free⟩

variable {view : View poolSize}

theorem closes_mirror (request : Request) :
    view.mirror.closes request.mirror = view.closes request :=
  congrArg (List.map Ticket.ref) PureBook.closes_mirror

theorem available_mirror (request : Request) :
    view.mirror.available request.mirror = view.available request := PureBook.available_mirror

theorem closedBy_mirror (call : Call poolSize) :
    view.mirror.closedBy call.mirror = view.closedBy call := by
  cases call with
  | addOrder request => rw [Call.mirror, closedBy, closedBy, closes_mirror]; rfl
  | cancelOrder order => rfl
  | matchOrder => exact congrArg (List.map Ticket.ref) PureBook.closes_mirror

theorem remainder_mirror (call : Call poolSize) :
    view.mirror.remainder call.mirror = view.remainder call := by
  cases call with
  | addOrder request => exact congrArg (request.size.toNat - ·) (available_mirror request)
  | _ => rfl

theorem addedBy_mirror (call : Call poolSize) :
    view.mirror.addedBy call.mirror = view.addedBy call := by
  cases call with
  | addOrder request =>
    rw [Call.mirror, addedBy, addedBy]
    cases found : view.free with
    | nil => rw [add_nil found, add_nil (show view.mirror.free = [] from found)]
    | cons slot free =>
      rw [add_cons found, add_cons (show view.mirror.free = slot :: free from found)]
  | _ => rfl

theorem slots_mirror (isBuySide : Bool) : view.mirror.slots (!isBuySide) = view.slots isBuySide := by
  rw [slots, slots, PureBook.line, mirror, PureBook.levels_mirror, flat_map]
  exact congrArg refs (List.map_id _)

theorem mem_linked_mirror {slot : Slot poolSize} :
    slot ∈ view.mirror.linked ↔ slot ∈ view.linked := by
  rw [mem_linked, mem_linked]
  refine ⟨fun ⟨side, member⟩ => ⟨!side, ?_⟩, fun ⟨side, member⟩ => ⟨!side, ?_⟩⟩
  · rwa [← slots_mirror, Bool.not_not]
  · rwa [slots_mirror]

/-- **Every step commutes with mirroring.** -/
theorem step_mirror (call : Call poolSize) :
    view.mirror.step call.mirror = ((view.step call).1, (view.step call).2.mirror) := by
  cases call with
  | addOrder request =>
    rw [Call.mirror, step, step]
    cases found : view.free with
    | nil =>
      rw [add_nil found, add_nil (show view.mirror.free = [] from found)]
    | cons slot free =>
      rw [add_cons found, add_cons (show view.mirror.free = slot :: free from found),
        closes_mirror]
      exact Prod.ext rfl (congrArg (View.mk · _) (PureBook.mirror_add (request.ticket slot)).symm)
  | cancelOrder order =>
    exact Prod.ext rfl (congrArg (View.mk · _) (PureBook.mirror_cancel _).symm)
  | matchOrder isBuySide price size type totalMatched =>
    rw [Call.mirror, step, step, matchOrder, matchOrder, mirror, mirror,
      PureBook.available_mirror, PureBook.closes_mirror, PureBook.mirror_matchOrder]

theorem legal_mirror (call : Call poolSize) :
    view.mirror.Legal call.mirror ↔ view.Legal call := by
  cases call with
  | cancelOrder order => exact mem_linked_mirror
  | _ => exact Iff.rfl

end View

/-! ### Books -/

section Books

variable {book book' after after' : OrderBook poolSize} {view : View poolSize}

/-- The same lots have the same sizes in both books. -/
theorem Represents.size_mirror (represents : Represents book view)
    (represents' : Represents book' view.mirror) {isBuySide : Bool} {price : UInt64}
    {lot : Lot (Ticket (Slot poolSize))} (member : lot ∈ lotsAt (view.book.levels isBuySide) price) :
    (book'.order lot.tag.ref).size = (book.order lot.tag.ref).size := by
  have filed' := represents'.filed (by rwa [View.mirror, PureBook.lotsAt_mirror])
  exact UInt32.toNat_inj.mp (filed'.size.trans (represents.filed member).size.symm)

/-- **Every record keeps the same size in both books**, also where no order rests. -/
theorem Effect.sizes_mirror {call : Call poolSize} (effect : Effect book after view call)
    (effect' : Effect book' after' view.mirror call.mirror)
    (same : ∀ slot, (book'.order slot).size = (book.order slot).size) (slot : Slot poolSize) :
    (after'.order slot).size = (after.order slot).size := by
  by_cases added : view.addedBy call = some slot
  · have size := effect.added slot added
    have size' := effect'.added slot ((View.addedBy_mirror call).trans added)
    rw [View.remainder_mirror] at size'
    exact UInt32.toNat_inj.mp (size'.trans size.symm)
  by_cases member : slot ∈ view.linked
  · rcases View.mem_linked_step call member with resting | closed | cancelled
    · obtain ⟨isBuySide, price, lot, found, rfl⟩ := View.exists_lot resting
      have kept := effect'.represents
      rw [View.step_mirror] at kept
      exact effect.represents.size_mirror kept found
    · exact (effect'.changed.closed slot (by rwa [View.closedBy_mirror])).size_eq.trans
        (effect.changed.closed slot closed).size_eq.symm
    · rw [effect.cancelled slot cancelled, effect'.cancelled slot (by rw [cancelled]; rfl), same]
  · rw [effect.order_idle member added, effect'.order_idle (fun inside => member
      (View.mem_linked_mirror.mp inside)) (by rwa [View.addedBy_mirror]), same]

/-- **Books that represent a view and its mirror image are mirror images.** -/
theorem Represents.mirrored (represents : Represents book view)
    (represents' : Represents book' view.mirror)
    (same : ∀ slot, (book'.order slot).size = (book.order slot).size) : Mirrored book book' := by
  have list := represents.pool.list
  have list' : book'.orderPool.FreeList view.free := represents'.pool.list
  refine ⟨fun isBuySide price => ?_, same, ?_, view.free, list, list'⟩
  · let expected := fun lot : Lot (Ticket (Slot poolSize)) =>
      (lot.tag.ref, (book.order lot.tag.ref).size)
    have lines : view.mirror.book.lineAt (!isBuySide) (~~~price) =
        view.book.lineAt isBuySide price := PureBook.lineAt_mirror ..
    rw [represents.readAt expected fun _ _ => rfl, represents'.readAt expected fun lot _ =>
      congrArg (lot.tag.ref, ·) (same lot.tag.ref), lines]
  · have heads := list.chain
    have heads' := list'.chain
    cases found : view.free with
    | nil =>
      rw [found] at heads heads'
      exact heads'.trans heads.symm
    | cons slot free =>
      rw [found] at heads heads'
      exact heads'.1.trans heads.1.symm

/-- **A run has a mirror image, with the same replies and the mirrored book.** -/
theorem mirror_run {symbol : String} {fresh : OrderBook poolSize} {calls : List (Call poolSize)}
    {replies : List (Reply poolSize)} (new : OrderBook.new symbol poolSize = some fresh)
    (run : Run OrderBook.call Call.Legal fresh calls replies book) :
    (∃ book', Run OrderBook.call Call.Legal fresh (calls.map Call.mirror) replies book') ∧
      ∀ replies' book',
        Run OrderBook.call Call.Legal fresh (calls.map Call.mirror) replies' book' →
          replies' = replies ∧ Mirrored book book' := by
  let related := fun book book' : OrderBook poolSize => ∃ view, Represents book view ∧
    Represents book' view.mirror ∧ ∀ slot, (book'.order slot).size = (book.order slot).size
  have follows : ∀ book book' call reply next, related book book' → call.Legal book →
      book.call call = .ok (reply, next) → ∃ next', call.mirror.Legal book' ∧
        book'.call call.mirror = .ok (reply, next') ∧ related next next' := by
    rintro book book' call reply next ⟨view, represents, represents', same⟩ legal ran
    obtain ⟨after, returned, effect⟩ := represents.call (represents.legal.mp legal)
    obtain ⟨rfl, rfl⟩ := Prod.mk.inj (Except.ok.inj (ran.symm.trans returned))
    have legal' := (View.legal_mirror call).mpr (represents.legal.mp legal)
    obtain ⟨after', returned', effect'⟩ := represents'.call legal'
    have sizes := effect.sizes_mirror effect' same
    have kept := effect'.represents
    rw [View.step_mirror] at returned' kept
    exact ⟨after', represents'.legal.mpr legal', returned', _, effect.represents, kept, sizes⟩
  have start := represents_new new
  obtain ⟨book', run', view, represents, represents', same⟩ :=
    run.lockstep related Call.mirror follows ⟨_, start, start, fun _ => rfl⟩
  refine ⟨⟨book', run'⟩, fun replies' last other => ?_⟩
  obtain ⟨rfl, rfl⟩ := run'.unique other
  exact ⟨rfl, represents.mirrored represents' same⟩

/-- A bid at the highest price matches an ask, and the ask's remainder is cancelled. -/
theorem mirror_run_sample : ∃ (replies : List (Reply 2)) (book book' : OrderBook 2),
    replies.length = 4 ∧ book.restingOn true = [] ∧ Mirrored book book' := by
  have played : (OrderBook.play "X" 2 [.addOrder ⟨1, 1, 5, 0, false, .limit⟩,
      .addOrder ⟨2, 2, 3, 18446744073709551615, true, .limit⟩, .matchOrder true 7 1 .market 0,
      .cancelOrder ⟨0, by decide⟩]).map (fun result =>
        decide (result.1.length = 4 ∧ result.2.restingOn true = [])) = some true := by
    decide +kernel
  obtain ⟨⟨replies, book⟩, ran, facts⟩ := Option.map_eq_some_iff.mp played
  obtain ⟨fresh, new, ran⟩ := Option.bind_eq_some_iff.mp ran
  obtain ⟨⟨book', run⟩, mirrored⟩ := mirror_run new (.of_execute ran)
  exact ⟨replies, book, book', (of_decide_eq_true facts).1, (of_decide_eq_true facts).2,
    (mirrored _ _ run).2⟩

end Books

end TradingExchange
