/-
**Which orders leak their slot.**

An order that is closed by a later one, or cancelled, gives its slot back. An incoming order that is
matched in full does not: `addOrder` returns it, in use and in no level (`OrderBook.stranded`), and
so it does with an order of size zero. Nothing takes it back but a cancel of an order that is not
resting.

* `Represents.length_stranded`: the slots that are neither free nor linked are the stranded ones;
* `View.held_step`: a call strands one order if it is an `addOrder` that is accepted and that the
  other side can serve in full (`Call.Strands`), and none otherwise;
* `no_leak_iff`: a run ends without a leak exactly if none of its calls strands its order;
* `matched_leak` is a run of two calls that leaks.
-/

import TradingExchange.Refinement.Runs

namespace TradingExchange

open Lots Ladder

variable {poolSize : UInt64}

namespace OrderBook

/-- The slots that are in use, but in no level. -/
def stranded (book : OrderBook poolSize) : List (Slot poolSize) :=
  (List.finRange poolSize.toNat).filter fun slot =>
    decide (book.InUse slot ∧ slot ∉ book.resting)

/-- The quantity that rests on the other side within the reach of a request. -/
def available (book : OrderBook poolSize) (request : Request) : Nat :=
  (((book.restingOn !request.isBuySide).filter fun slot =>
    inReach request.isBuySide request.price request.orderType (book.order slot).price).map
      fun slot => (book.order slot).size.toNat).sum

end OrderBook

/-- An `addOrder` that finds a free slot, and the whole size of its order on the other side. -/
def Call.Strands (book : OrderBook poolSize) : Call poolSize → Prop
  | .addOrder request => book.orderPool.nextFreeIndex < poolSize ∧
      request.size.toNat ≤ book.available request
  | _ => False

instance (book : OrderBook poolSize) : DecidablePred (Call.Strands book)
  | .addOrder request => inferInstanceAs (Decidable (book.orderPool.nextFreeIndex < poolSize ∧
      request.size.toNat ≤ book.available request))
  | .cancelOrder _ => inferInstanceAs (Decidable False)
  | .matchOrder .. => inferInstanceAs (Decidable False)

/-- No slot is held by an order that is finished, so only resting orders exhaust the pool. -/
structure NoLeak (book : OrderBook poolSize) : Prop where
  slots : ∀ slot, book.InUse slot ↔ slot ∈ book.resting
  refused : ∀ request after, Request.addTo request book = .ok (none, after) →
    book.resting.length = poolSize.toNat

/-! ### The same on views -/

namespace View

/-- How many slots are free or linked. -/
def held (view : View poolSize) : Nat := view.free.length + view.linked.length

def Strands (view : View poolSize) : Call poolSize → Prop
  | .addOrder request => view.free ≠ [] ∧ request.size.toNat ≤ view.available request
  | _ => False

/-- Every order of the other side is closed or left. -/
theorem length_swept (view : View poolSize) (isBuySide : Bool) (price : UInt64) (amount : Nat)
    (type : OrderType) :
    ((view.book.closes isBuySide price amount type).map Ticket.ref).length +
      (refs (flat (view.book.swept isBuySide price amount type))).length =
        (view.slots !isBuySide).length := by
  rw [PureBook.closes, closed_eq, PureBook.swept, flat_sweep, slots, refs, refs, PureBook.line,
    ← List.length_append, ← List.map_append, ← tags_eq]

theorem length_linked (view : View poolSize) (isBuySide : Bool) :
    view.linked.length = (view.slots isBuySide).length + (view.slots !isBuySide).length := by
  rw [(view.linked_perm isBuySide).length_eq, List.length_append, Nat.add_comm]

theorem held_matchOrder (view : View poolSize) (isBuySide : Bool) (price : UInt64) (amount : Nat)
    (type : OrderType) : (view.matchOrder isBuySide price amount type).held = view.held := by
  have parts := view.length_swept isBuySide price amount type
  rw [held, held, length_linked _ isBuySide, length_linked view isBuySide]
  simp only [slots, matchOrder, PureBook.line, PureBook.matchOrder_self, PureBook.matchOrder_not,
    List.length_append, List.length_reverse] at parts ⊢
  omega

theorem held_cancel {view : View poolSize} {slot : Slot poolSize} (nodup : view.linked.Nodup)
    (resting : slot ∈ view.linked) : (view.cancel slot).held = view.held := by
  have erased : view.linked.filter (· ≠ slot) = view.linked.erase slot := by
    rw [nodup.erase_eq_filter]
    exact List.filter_congr fun other _ => by simp only [ne_eq, decide_not, bne, beq_eq_decide]
  have one := List.length_pos_of_mem resting
  rw [held, held, linked_cancel, erased, List.length_erase_of_mem resting]
  simp only [cancel, List.length_cons]
  omega

/-- An accepted order takes a slot, and links it if it leaves a remainder. -/
theorem held_add {view : View poolSize} (request : Request) {slot : Slot poolSize}
    {free : List (Slot poolSize)} (found : view.free = slot :: free) :
    (view.add request).2.held + (if view.available request < request.size.toNat then 0 else 1) =
      view.held := by
  have parts := view.length_swept request.isBuySide request.price request.size.toNat
    request.orderType
  have own := (slots_add_self request found).length_eq
  rw [held, held, length_linked _ request.isBuySide, length_linked view request.isBuySide,
    slots_add_not found, own, add_cons found, found, swept]
  simp only [List.length_append, List.length_reverse, List.length_cons, closes] at parts ⊢
  split
  · rw [List.length_singleton]
    omega
  · rw [List.length_nil]
    omega

/-- **Only an order that is served in full is lost.** -/
theorem held_step {view : View poolSize} {call : Call poolSize} (nodup : view.linked.Nodup)
    (legal : view.Legal call) :
    view.Strands call ∧ (view.step call).2.held + 1 = view.held ∨
      ¬ view.Strands call ∧ (view.step call).2.held = view.held := by
  cases call with
  | addOrder request =>
    cases found : view.free with
    | nil =>
      refine .inr ⟨fun strands => strands.1 found, ?_⟩
      rw [step, add_nil found]
    | cons slot free =>
      have count := held_add request found
      by_cases left : view.available request < request.size.toNat
      · rw [if_pos left] at count
        exact .inr ⟨fun strands => Nat.not_lt.mpr strands.2 left, count⟩
      · rw [if_neg left] at count
        exact .inl ⟨⟨found ▸ List.cons_ne_nil _ _, Nat.not_lt.mp left⟩, count⟩
  | cancelOrder order => exact .inr ⟨id, held_cancel nodup legal⟩
  | matchOrder isBuySide price size type totalMatched =>
    exact .inr ⟨id, view.held_matchOrder ..⟩

end View

/-! ### The book and its view -/

section Book

variable {book : OrderBook poolSize} {view : View poolSize}

/-- **Every slot is stranded, free or linked.** -/
theorem Represents.length_stranded (represents : Represents book view) :
    book.stranded.length + view.held = poolSize.toNat := by
  have perm : (book.stranded ++ (view.free ++ view.linked)).Perm
      (List.finRange poolSize.toNat) := by
    have mem : ∀ slot, slot ∈ book.stranded ↔ slot ∉ view.free ∧ slot ∉ view.linked := by
      intro slot
      rw [OrderBook.stranded, List.mem_filter, decide_eq_true_iff, represents.inUse_iff,
        represents.mem_resting]
      exact and_iff_right (List.mem_finRange slot)
    refine (List.perm_ext_iff_of_nodup ?_ (List.nodup_finRange _)).mpr fun slot => ?_
    · refine List.nodup_append.mpr ⟨(List.nodup_finRange _).filter _, represents.pool.nodup, ?_⟩
      rintro slot member other inside rfl
      obtain ⟨used, idle⟩ := (mem slot).mp member
      exact (List.mem_append.mp inside).elim used idle
    · refine iff_of_true ?_ (List.mem_finRange slot)
      rw [List.mem_append, List.mem_append, mem]
      tauto
  have length := perm.length_eq
  rwa [List.length_append, List.length_append, List.length_finRange] at length

/-- What is in reach of a request is the liquidity of the ladder. -/
theorem Represents.available (represents : Represents book view) (request : Request) :
    book.available request = view.available request := by
  let reach := inReach request.isBuySide request.price request.orderType
  let within := fun slot => reach (book.order slot).price
  let size := fun slot => (book.order slot).size.toNat
  have sorted := view.book.sorted !request.isBuySide
  have sum : ∀ levels ⊆ view.book.levels !request.isBuySide,
      (((refs (flat levels)).filter within).map size).sum =
        total (flat (levels.filter fun level => reach level.price)) := by
    intro levels inside
    induction levels with
    | nil => rfl
    | cons level worse ih =>
      obtain ⟨member, rest⟩ := List.cons_subset.mp inside
      have filed : ∀ lot ∈ level.lots,
          within lot.tag.ref = reach level.price ∧ size lot.tag.ref = lot.size := by
        intro lot found
        rw [← sorted.lotsAt_level member] at found
        have filed := represents.filed found
        exact ⟨congrArg reach filed.price, filed.size⟩
      rw [flat_cons, refs_append, List.filter_append, List.map_append, List.sum_append, ih rest,
        refs_eq, List.filter_map, List.map_map]
      have same : level.lots.filter (within ∘ fun lot => lot.tag.ref) =
          level.lots.filter fun _ => reach level.price :=
        List.filter_congr fun lot found => (filed lot found).1
      rw [same]
      by_cases near : reach level.price = true
      · rw [List.filter_cons, if_pos near, flat_cons, total_append, near, List.filter_true, total]
        refine congrArg (·.sum + _) (List.map_congr_left fun lot found => (filed lot found).2)
      · rw [List.filter_cons, if_neg near, Bool.eq_false_iff.mpr near, List.filter_false]
        exact Nat.zero_add _
  have read := (((represents.restingOn_perm !request.isBuySide).filter within).map size).sum_eq
  refine read.trans ((sum _ (List.Subset.refl _)).trans ?_)
  exact (liquidity_eq sorted inReach_of_better).symm

/-- A slot is free exactly if `allocate` finds one. -/
theorem Represents.free_iff (represents : Represents book view) :
    book.orderPool.nextFreeIndex < poolSize ↔ view.free ≠ [] := by
  have chain := represents.pool.list.chain
  cases found : view.free with
  | nil =>
    rw [found] at chain
    rw [show book.orderPool.nextFreeIndex = poolSize from chain]
    exact iff_of_false (UInt64.lt_irrefl _) (not_not.mpr rfl)
  | cons slot free =>
    rw [found] at chain
    rw [show book.orderPool.nextFreeIndex = slot.index from chain.1]
    exact iff_of_true slot.index_lt (List.cons_ne_nil _ _)

theorem Represents.strands (represents : Represents book view) (call : Call poolSize) :
    call.Strands book ↔ view.Strands call := by
  cases call with
  | addOrder request =>
    rw [Call.Strands, View.Strands, represents.free_iff, represents.available]
  | _ => exact Iff.rfl

/-- **Without stranded orders nothing is leaked**, and conversely. -/
theorem Represents.leakless_iff (represents : Represents book view) :
    NoLeak book ↔ book.stranded.length = 0 := by
  have count := represents.length_stranded
  constructor
  · intro sound
    refine List.length_eq_zero_iff.mpr (List.filter_eq_nil_iff.mpr fun slot _ stranded => ?_)
    obtain ⟨used, idle⟩ := of_decide_eq_true stranded
    exact idle ((sound.slots slot).mp used)
  · intro unstranded
    refine ⟨fun slot => ⟨fun used => ?_, fun resting => ?_⟩, fun request after refused => ?_⟩
    · by_contra idle
      have member : slot ∈ book.stranded :=
        List.mem_filter.mpr ⟨List.mem_finRange slot, decide_eq_true ⟨used, idle⟩⟩
      exact absurd unstranded (Nat.ne_of_gt (List.length_pos_of_mem member))
    · rw [represents.inUse_iff]
      exact represents.pool.not_free ((represents.mem_resting slot).mp resting)
    · cases found : view.free with
      | nil =>
        rw [View.held, found, List.length_nil] at count
        rw [represents.resting_perm.length_eq]
        omega
      | cons slot free =>
        obtain ⟨after', added, -⟩ := represents.addOrder request found
        exact absurd (Prod.mk.inj (Except.ok.inj (refused.symm.trans added))).1
          (Option.some_ne_none _).symm

end Book

/-! ### Runs -/

/-- **A run leaks nothing exactly if no call strands its order.** -/
theorem no_leak_iff {symbol : String} {fresh book : OrderBook poolSize}
    {calls : List (Call poolSize)} {replies : List (Reply poolSize)}
    (new : OrderBook.new symbol poolSize = some fresh)
    (run : Run OrderBook.call Call.Legal fresh calls replies book) :
    NoLeak book ↔ Run OrderBook.call (fun book call => call.Legal book ∧ ¬ call.Strands book)
      fresh calls replies book := by
  have start := represents_new new
  obtain ⟨-, last⟩ := start.run run
  have unstranded : fresh.stranded.length = 0 := by
    have count := start.length_stranded
    simp only [View.held, View.fresh, List.length_finRange] at count
    omega
  rw [last.leakless_iff, ← unstranded]
  refine (run.unmarked_iff (fun book => ∃ view, Represents book view)
    (fun book => book.stranded.length) ?_ ⟨_, start⟩).2
  rintro book call reply next ⟨view, represents⟩ legal ran
  obtain ⟨after, returned, effect⟩ := represents.call (represents.legal.mp legal)
  obtain ⟨-, rfl⟩ := Prod.mk.inj (Except.ok.inj (ran.symm.trans returned))
  refine ⟨⟨_, effect.represents⟩, ?_⟩
  have before := represents.length_stranded
  have after := effect.represents.length_stranded
  rw [represents.strands]
  rcases View.held_step represents.pool.linked_nodup (represents.legal.mp legal) with
    ⟨strands, count⟩ | ⟨clean, count⟩
  · exact .inl ⟨strands, by omega⟩
  · exact .inr ⟨clean, by omega⟩

/-- A bid closes an ask, rests with a remainder and is cancelled. -/
theorem no_leak_iff_sample : ∃ (replies : List (Reply 2)) (book : OrderBook 2),
    replies.length = 3 ∧ NoLeak book := by
  have played : ((OrderBook.new "X" 2).bind fun fresh =>
      execute OrderBook.call (fun book call => call.Legal book ∧ ¬ call.Strands book) fresh
        [.addOrder ⟨1, 1, 5, 10, false, .limit⟩, .addOrder ⟨2, 2, 7, 10, true, .limit⟩,
          .cancelOrder ⟨1, by decide⟩]).map (fun result => result.1.length) = some 3 := by
    decide +kernel
  obtain ⟨⟨replies, book⟩, ran, length⟩ := Option.map_eq_some_iff.mp played
  obtain ⟨fresh, new, ran⟩ := Option.bind_eq_some_iff.mp ran
  have run := Run.of_execute ran
  exact ⟨replies, book, length, (no_leak_iff new (run.mono fun _ _ => And.left)).mpr run⟩

/-- **An order that is matched in full keeps its slot**: with one order resting in a pool of two, the
next one is refused. -/
theorem matched_leak : ∃ (replies : List (Reply 2)) (book : OrderBook 2),
    OrderBook.play "X" 2 [.addOrder ⟨1, 1, 5, 10, false, .limit⟩,
      .addOrder ⟨2, 2, 5, 10, true, .limit⟩, .addOrder ⟨3, 3, 5, 9, true, .limit⟩,
      .addOrder ⟨4, 4, 5, 9, true, .limit⟩] = some (replies, book) ∧
    replies.getLast? = some (.order none) ∧ book.resting.map Fin.val = [0] ∧ ¬ NoLeak book := by
  have played : (OrderBook.play "X" 2 [.addOrder ⟨1, 1, 5, 10, false, .limit⟩,
      .addOrder ⟨2, 2, 5, 10, true, .limit⟩, .addOrder ⟨3, 3, 5, 9, true, .limit⟩,
      .addOrder ⟨4, 4, 5, 9, true, .limit⟩]).map (fun result =>
        decide (result.1.getLast? = some (.order none) ∧ result.2.resting.map Fin.val = [0] ∧
          result.2.InUse ⟨1, by decide⟩ ∧ (⟨1, by decide⟩ : Slot 2) ∉ result.2.resting)) =
      some true := by
    decide +kernel
  obtain ⟨⟨replies, book⟩, ran, facts⟩ := Option.map_eq_some_iff.mp played
  obtain ⟨refused, resting, used, idle⟩ := of_decide_eq_true facts
  exact ⟨replies, book, ran, refused, resting, fun sound => idle ((sound.slots _).mp used)⟩

end TradingExchange
