/-
**Matching at a level.**

The steps of the book on one level and the pool, each with what it leaves shown: writing a record
(`PoolShown.write`), handing out a slot (`PoolShown.allocate`), and removing an order from its level
and deallocating it (`LevelShown.retire`), which both matching and cancelling do.

`matchAtLevel_shown` is `matchAtLevel` as a whole: it serves the line of lots at the level, and the
slots of the lots that are gone are pushed onto the free list in the order they went. A closed order
keeps its record, of size zero, but for the free-list link and its place in the level (`Closed`).
-/

import TradingExchange.Refinement.View

namespace TradingExchange

open Lots NodeMemory

variable {poolSize : UInt64} {pool pool' : OrderPool poolSize} {slot : Slot poolSize}
  {free linked others : List (Slot poolSize)}

/-! ### Records in the pool -/

/-- Writing a record with the same links changes no links. -/
theorem listNode_write {order : Order (Slot poolSize)}
    (same : order.listNode = (pool.deref slot).listNode) (other : Slot poolSize) :
    ((pool.write slot order).deref other).listNode = (pool.deref other).listNode := by
  by_cases here : other = slot
  · subst here
    rw [MemPool.deref_write_self, same]
  · rw [MemPool.deref_congr (MemPool.store_write_of_ne _ _ here)]

/-- A deallocated record keeps everything but its first word. -/
theorem deref_deallocate_self (pool : OrderPool poolSize) (slot : Slot poolSize) :
    (pool.deallocate slot).deref slot =
      { pool.deref slot with orderId := pool.nextFreeIndex } := by
  have self : (pool.deallocate slot).store slot =
      ⟨true, PoolStorage.setNextFree (pool.store slot).object pool.nextFreeIndex⟩ :=
    pool.setElement_self ..
  rw [MemPool.deref, self]
  rfl

namespace Relinked

variable {items : List (Slot poolSize)}

theorem store_eq (relinked : Relinked items pool pool') (apart : slot ∉ items) :
    pool'.store slot = pool.store slot := by
  induction relinked with
  | refl => rfl
  | write node member _ ih =>
    exact (MemPool.store_write_of_ne _ _ (ne_of_mem_of_not_mem member apart).symm).trans ih

theorem nextFreeIndex_eq (relinked : Relinked items pool pool') :
    pool'.nextFreeIndex = pool.nextFreeIndex := by
  induction relinked with
  | refl => rfl
  | write node member _ ih => exact ih

theorem isFreeOrInUse_eq (relinked : Relinked items pool pool') (slot : Slot poolSize) :
    (pool'.store slot).isFreeOrInUse = (pool.store slot).isFreeOrInUse := by
  induction relinked with
  | refl => rfl
  | write node member _ ih => exact (MemPool.isFreeOrInUse_write ..).trans ih

/-- Relinking changes nothing but links. -/
theorem deref_eq (relinked : Relinked items pool pool') (slot : Slot poolSize) :
    pool'.deref slot = { pool.deref slot with listNode := (pool'.deref slot).listNode } := by
  induction relinked with
  | refl => rfl
  | @write after item node member _ ih =>
    by_cases same : slot = item
    · subst same
      have self : MemPool.deref (setNode after slot node) slot =
          { after.deref slot with listNode := node } := MemPool.deref_write_self ..
      rw [self, ih]
    · have other : MemPool.deref (setNode after item node) slot = after.deref slot :=
        MemPool.deref_congr (MemPool.store_write_of_ne after _ same)
      rw [other]
      exact ih

end Relinked

/-! ### The pool between free and linked slots -/

namespace PoolShown

theorem not_free (shown : PoolShown pool free linked) (member : slot ∈ linked) : slot ∉ free :=
  fun freed => (List.nodup_append.mp shown.nodup).2.2 slot freed slot member rfl

theorem not_linked (shown : PoolShown pool free linked) (member : slot ∈ free) : slot ∉ linked :=
  fun listed => (List.nodup_append.mp shown.nodup).2.2 slot member slot listed rfl

theorem linked_nodup (shown : PoolShown pool free linked) : linked.Nodup :=
  (List.nodup_append.mp shown.nodup).2.1

theorem relink {items : List (Slot poolSize)} (shown : PoolShown pool free linked)
    (relinked : Relinked items pool pool') (within : ∀ item ∈ items, item ∈ linked) :
    PoolShown pool' free linked := by
  refine ⟨shown.list.congr relinked.nextFreeIndex_eq relinked.isFreeOrInUse_eq
    fun slot member => relinked.store_eq fun inside => ?_, shown.nodup, fun slot used apart => ?_⟩
  · exact shown.not_linked member (within slot inside)
  · rw [MemPool.deref_congr (relinked.store_eq fun inside => apart (within slot inside))]
    exact shown.idle slot used apart

theorem write (shown : PoolShown pool free linked) (order : Order (Slot poolSize))
    (used : slot ∉ free) (idle : slot ∉ linked → order.listNode = {}) :
    PoolShown (pool.write slot order) free linked := by
  refine ⟨shown.list.write order used, shown.nodup, fun other used' apart => ?_⟩
  by_cases same : other = slot
  · subst same
    rw [MemPool.deref_write_self]
    exact idle apart
  · rw [MemPool.deref_congr (MemPool.store_write_of_ne _ _ same)]
    exact shown.idle other used' apart

/-- **A slot is handed out**: it is neither free nor linked then. -/
theorem allocate (shown : PoolShown pool (slot :: free) linked) {order : Order (Slot poolSize)}
    (unlinked : order.listNode = {}) :
    ∃ pool', pool.allocate order = (some slot, pool') ∧ PoolShown pool' free linked ∧
      pool'.deref slot = order ∧ slot ∉ free ∧ slot ∉ linked ∧
      ∀ other, other ≠ slot → pool'.store other = pool.store other := by
  obtain ⟨pool', allocated, list, here, frame⟩ := shown.list.allocate_cons order
  have all : (slot :: (free ++ linked)).Nodup := shown.nodup
  obtain ⟨apart, nodup⟩ := List.nodup_cons.mp all
  rw [List.mem_append, not_or] at apart
  refine ⟨pool', allocated, ⟨list, nodup, fun other used idle => ?_⟩, here, apart.1, apart.2, frame⟩
  by_cases same : other = slot
  · subst same
    rw [here, unlinked]
  · rw [MemPool.deref_congr (frame other same)]
    exact shown.idle other (fun member => (List.mem_cons.mp member).elim same used) idle

/-- A slot that is neither free nor linked may be linked. -/
theorem link (shown : PoolShown pool free linked) (used : slot ∉ free) (apart : slot ∉ linked) :
    PoolShown pool free (slot :: linked) := by
  refine ⟨shown.list, ?_, fun other used' apart' =>
    shown.idle other used' fun member => apart' (List.mem_cons_of_mem _ member)⟩
  refine List.perm_middle.nodup_iff.mpr (List.nodup_cons.mpr ⟨?_, shown.nodup⟩)
  rw [List.mem_append, not_or]
  exact ⟨used, apart⟩

/-- **A linked slot is deallocated.** -/
theorem deallocate (shown : PoolShown pool free (slot :: linked)) :
    PoolShown (pool.deallocate slot) (slot :: free) linked := by
  refine ⟨shown.list.deallocate (shown.not_free List.mem_cons_self),
    List.perm_middle.nodup_iff.mp shown.nodup, fun other used apart => ?_⟩
  obtain ⟨different, used⟩ := not_or.mp fun either => used (List.mem_cons.mpr either)
  rw [MemPool.deref_congr (MemPool.store_deallocate_of_ne pool different)]
  exact shown.idle other used fun member => (List.mem_cons.mp member).elim different apart

end PoolShown

/-! ### Removing an order -/

section Retire

variable {symbol : String} {isBuySide : Bool} {price : UInt64} {level : PriceLevel poolSize}
  {lot : Lot (Ticket (Slot poolSize))} {front later : List (Lot (Ticket (Slot poolSize)))}

/-- **An order leaves its level and the pool**: whatever its record shows, the others stay. -/
theorem LevelShown.retire (queue : Shows pool level (refs front ++ slot :: refs later))
    (records : ∀ lot ∈ front ++ later, Filed symbol isBuySide price (pool.deref lot.tag.ref) lot)
    (shown : PoolShown pool free (slot :: (refs (front ++ later) ++ others))) :
    LevelShown ((level.remove pool slot).2.deallocate slot) symbol isBuySide price
        (level.remove pool slot).1 (front ++ later) ∧
      PoolShown ((level.remove pool slot).2.deallocate slot) (slot :: free)
        (refs (front ++ later) ++ others) ∧
      (∀ other, other ≠ slot → other ∉ refs (front ++ later) →
        ((level.remove pool slot).2.deallocate slot).store other = pool.store other) ∧
      (∀ other, other ≠ slot →
        ∃ node, ((level.remove pool slot).2.deallocate slot).deref other =
          { pool.deref other with listNode := node }) ∧
      ((level.remove pool slot).2.deallocate slot).deref slot =
        { pool.deref slot with orderId := pool.nextFreeIndex, listNode := {} } := by
  have perm : (refs front ++ slot :: refs later).Perm (slot :: refs (front ++ later)) := by
    rw [refs_append]
    exact List.perm_middle
  have nodup : (slot :: refs (front ++ later)).Nodup :=
    (List.nodup_append.mp (shown.linked_nodup : (slot :: refs (front ++ later) ++ others).Nodup)).1
  have apart := (List.nodup_cons.mp nodup).1
  obtain ⟨removed, cleared, relinked⟩ := queue.remove (perm.nodup_iff.mpr nodup)
  have kept : ∀ other, other ≠ slot →
      ((level.remove pool slot).2.deallocate slot).store other =
        (level.remove pool slot).2.store other :=
    fun other different => MemPool.store_deallocate_of_ne _ different
  have notSlot : ∀ other ∈ refs (front ++ later), other ≠ slot :=
    fun other member => ne_of_mem_of_not_mem member apart
  refine ⟨⟨?_, fun lot member => ?_⟩, ?_, fun other different outside => ?_,
    fun other different => ?_, ?_⟩
  · rw [refs_append]
    refine removed.congr fun other member => congrArg Order.listNode (MemPool.deref_congr (kept other ?_))
    exact notSlot other (by rwa [refs_append])
  · rw [MemPool.deref_congr (kept _ (notSlot _ (ref_mem member))), relinked.deref_eq]
    exact (records lot member).relink _
  · refine (shown.relink relinked fun item member => ?_).deallocate
    exact List.mem_append_left others (perm.subset member)
  · rw [kept other different]
    refine relinked.store_eq fun inside => ?_
    rcases List.mem_cons.mp (perm.subset inside) with same | member
    · exact different same
    · exact outside member
  · rw [MemPool.deref_congr (kept other different)]
    exact ⟨_, relinked.deref_eq other⟩
  · have node : ((level.remove pool slot).2.deref slot).listNode = {} := cleared
    rw [deref_deallocate_self, relinked.deref_eq, relinked.nextFreeIndex_eq, node]

end Retire

/-! ### The matching loop -/

section Matching

open OrderBook

variable {symbol : String} {isBuySide : Bool} {price : UInt64} {size : UInt32}
  {lot : Lot (Ticket (Slot poolSize))} {lots later : List (Lot (Ticket (Slot poolSize)))}

theorem decreaseSize_short (order : Order (Slot poolSize)) {amount : UInt32}
    (short : amount < order.size) :
    order.decreaseSize amount = (amount, { order with size := order.size - amount }) := by
  rw [Order.decreaseSize, if_neg]
  rw [ge_iff_le, UInt32.le_iff_toNat_le]
  rw [UInt32.lt_iff_toNat_lt] at short
  omega

theorem decreaseSize_whole (order : Order (Slot poolSize)) {amount : UInt32}
    (whole : order.size ≤ amount) :
    order.decreaseSize amount = (order.size, { order with size := 0 }) := by
  rw [Order.decreaseSize, if_pos whole]

/-- A closed order keeps its record, but for the size, the links and the first word. -/
def Closed (before after : Order (Slot poolSize)) : Prop :=
  ∃ link, after = { before with orderId := link, size := 0, listNode := {} }

theorem Closed.size_eq {before after : Order (Slot poolSize)} (closed : Closed before after) :
    after.size = 0 := by
  obtain ⟨link, rfl⟩ := closed
  rfl

/-- The links before do not matter. -/
theorem Closed.of_relinked {before after : Order (Slot poolSize)} {node : Node (Slot poolSize)}
    (closed : Closed { before with listNode := node } after) : Closed before after := closed

/-- What serving `amount` from the line of a level does to the level, the pool and the total. -/
structure LevelServed (symbol : String) (isBuySide : Bool) (price : UInt64) (amount : Nat)
    (lots : List (Lot (Ticket (Slot poolSize)))) (free others : List (Slot poolSize))
    (before after : LevelMatch poolSize) : Prop where
  level : LevelShown after.orderPool symbol isBuySide price after.level (fill amount lots)
  pool : PoolShown after.orderPool (((spent amount lots).map Ticket.ref).reverse ++ free)
    (refs (fill amount lots) ++ others)
  total : after.totalMatched.toNat = before.totalMatched.toNat + min amount (Lots.total lots)
  frame : ∀ slot, slot ∉ refs lots → after.orderPool.store slot = before.orderPool.store slot
  closed : ∀ slot ∈ (spent amount lots).map Ticket.ref,
    Closed (before.orderPool.deref slot) (after.orderPool.deref slot)

/-- What is still to be done at a level. -/
structure Pending (poolSize : UInt64) where
  amount : Nat
  lots : List (Lot (Ticket (Slot poolSize)))
  free : List (Slot poolSize)

/-- The loop invariant of `matchAtLevel`. -/
structure LevelPending (symbol : String) (isBuySide : Bool) (price : UInt64) (size : UInt32)
    (others : List (Slot poolSize)) (pending : Pending poolSize) (state : LevelMatch poolSize) :
    Prop where
  level : LevelShown state.orderPool symbol isBuySide price state.level pending.lots
  pool : PoolShown state.orderPool pending.free (refs pending.lots ++ others)
  amount : pending.amount = size.toNat - state.totalMatched.toNat

/-- Nothing is left to serve, or to serve from. -/
theorem LevelPending.leave {pending : Pending poolSize} {state : LevelMatch poolSize}
    (holds : LevelPending symbol isBuySide price size others pending state)
    (done : pending.lots = [] ∨ pending.amount = 0) :
    matchAtLevelPass size state = .ok (.leave state) ∧
      LevelServed symbol isBuySide price pending.amount pending.lots pending.free others
        state state := by
  constructor
  · have stop : (!state.level.empty && decide (state.totalMatched < size)) = false := by
      rcases done with empty | zero
      · rw [holds.level.queue.empty_iff.mpr (by rw [empty]; rfl)]
        rfl
      · have amount := holds.amount
        have stop : decide (state.totalMatched < size) = false := by
          rw [decide_eq_false_iff_not, UInt32.lt_iff_toNat_lt]
          omega
        rw [stop, Bool.and_false]
    rw [matchAtLevelPass, stop]
    rfl
  · have same : fill pending.amount pending.lots = pending.lots := by
      rcases done with empty | zero
      · rw [empty]; rfl
      · rw [zero, fill_zero]
    have gone : spent pending.amount pending.lots = [] := by
      rcases done with empty | zero
      · rw [empty]; rfl
      · rw [zero, spent_zero]
    have zero : min pending.amount (Lots.total pending.lots) = 0 := by
      rcases done with nothing | nothing <;> rw [nothing]
      · exact Nat.min_zero _
      · exact Nat.zero_min _
    refine ⟨by rw [same]; exact holds.level, by rw [same, gone]; exact holds.pool,
      by rw [zero, Nat.add_zero], fun _ _ => rfl, ?_⟩
    rw [gone]
    exact fun _ member => absurd member List.not_mem_nil

/-- With something to serve and a first lot, the pass works on the record of that lot. -/
theorem LevelPending.going {amount : Nat} {state : LevelMatch poolSize}
    (holds : LevelPending symbol isBuySide price size others ⟨amount, lot :: later, free⟩ state)
    (positive : 0 < amount) :
    (!state.level.empty && decide (state.totalMatched < size)) = true ∧
      state.level.peek = some lot.tag.ref ∧ (size - state.totalMatched).toNat = amount ∧
      Filed symbol isBuySide price (state.orderPool.deref lot.tag.ref) lot := by
  have below := holds.amount
  simp only at below
  have less : state.totalMatched < size := UInt32.lt_iff_toNat_lt.mpr (by omega)
  have inhabited : state.level.empty = false := by
    rw [← Bool.not_eq_true, holds.level.queue.empty_iff]
    exact List.cons_ne_nil _ _
  refine ⟨by rw [inhabited, decide_eq_true less]; rfl, holds.level.queue.peek_eq, ?_,
    holds.level.records lot List.mem_cons_self⟩
  rw [UInt32.toNat_sub_of_le _ _ (UInt32.le_iff_toNat_le.mpr (by omega))]
  exact below.symm

/-- The total does not wrap: it stays within the size. -/
theorem LevelPending.total {pending : Pending poolSize} {state : LevelMatch poolSize}
    (holds : LevelPending symbol isBuySide price size others pending state)
    (positive : 0 < pending.amount) (matched : UInt32) (within : matched.toNat ≤ pending.amount) :
    (state.totalMatched + matched).toNat = state.totalMatched.toNat + matched.toNat := by
  have amount := holds.amount
  have bound := size.toNat_lt
  rw [UInt32.toNat_add, Nat.mod_eq_of_lt]
  omega

/-- The records behind the first one stay as they are when it is written. -/
theorem LevelPending.filed_later {amount : Nat} {state : LevelMatch poolSize}
    (holds : LevelPending symbol isBuySide price size others ⟨amount, lot :: later, free⟩ state)
    (order : Order (Slot poolSize)) {other : Lot (Ticket (Slot poolSize))} (behind : other ∈ later) :
    Filed symbol isBuySide price ((state.orderPool.write lot.tag.ref order).deref other.tag.ref)
      other := by
  have nodup : (lot.tag.ref :: (refs later ++ others)).Nodup := holds.pool.linked_nodup
  have different : other.tag.ref ≠ lot.tag.ref := by
    intro same
    exact (List.nodup_cons.mp nodup).1 (List.mem_append_left _ (same ▸ ref_mem behind))
  rw [MemPool.deref_congr (MemPool.store_write_of_ne _ _ different)]
  exact holds.level.records other (List.mem_cons_of_mem _ behind)

/-- The pass that serves part of the first lot. -/
theorem LevelPending.short {amount : Nat} {state : LevelMatch poolSize}
    (holds : LevelPending symbol isBuySide price size others ⟨amount, lot :: later, free⟩ state)
    (positive : 0 < amount) (short : amount < lot.size) :
    ∃ next, matchAtLevelPass size state = .ok (.again next) ∧
      LevelPending symbol isBuySide price size others
        ⟨0, ⟨lot.tag, lot.size - amount, Nat.sub_pos_of_lt short⟩ :: later, free⟩ next ∧
      next.totalMatched.toNat = state.totalMatched.toNat + amount ∧
      ∀ slot, slot ≠ lot.tag.ref → next.orderPool.store slot = state.orderPool.store slot := by
  obtain ⟨going, peek, amountToMatch, filed⟩ := holds.going positive
  have less : size - state.totalMatched < (state.orderPool.deref lot.tag.ref).size := by
    rw [UInt32.lt_iff_toNat_lt, amountToMatch, filed.size]
    exact short
  have left : ((state.orderPool.deref lot.tag.ref).size - (size - state.totalMatched)).toNat =
      lot.size - amount := by
    rw [UInt32.toNat_sub_of_le _ _ (UInt32.le_of_lt less), amountToMatch, filed.size]
  have remains : ((state.orderPool.deref lot.tag.ref).size - (size - state.totalMatched) == 0) =
      false := by
    rw [beq_eq_false_iff_ne, ne_eq, ← UInt32.toNat_inj, left]
    exact Nat.sub_ne_zero_of_lt short
  have total := holds.total positive (size - state.totalMatched) (Nat.le_of_eq amountToMatch)
  rw [amountToMatch] at total
  refine ⟨⟨state.level, state.orderPool.write lot.tag.ref
    { state.orderPool.deref lot.tag.ref with
      size := (state.orderPool.deref lot.tag.ref).size - (size - state.totalMatched) },
    state.totalMatched + (size - state.totalMatched)⟩, ?_, ⟨⟨?_, ?_⟩, ?_, ?_⟩, total,
    fun slot different => MemPool.store_write_of_ne _ _ different⟩
  · rw [matchAtLevelPass, if_pos going, peek]
    simp only [decreaseSize_short _ less, MemPool.deref_write_self, remains, Bool.false_eq_true, if_false]
  · exact holds.level.queue.congr fun slot _ => listNode_write (by rfl) slot
  · intro other member
    rcases List.mem_cons.mp member with rfl | behind
    · rw [MemPool.deref_write_self]
      exact { filed with size := left }
    · exact holds.filed_later _ behind
  · exact holds.pool.write _ (holds.pool.not_free List.mem_cons_self)
      fun idle => absurd List.mem_cons_self idle
  · have below := holds.amount
    simp only at below
    simp only [total]
    omega

/-- The pass that consumes the first lot. -/
theorem LevelPending.whole {amount : Nat} {state : LevelMatch poolSize}
    (holds : LevelPending symbol isBuySide price size others ⟨amount, lot :: later, free⟩ state)
    (whole : lot.size ≤ amount) :
    ∃ next, matchAtLevelPass size state = .ok (.again next) ∧
      LevelPending symbol isBuySide price size others
        ⟨amount - lot.size, later, lot.tag.ref :: free⟩ next ∧
      next.totalMatched.toNat = state.totalMatched.toNat + lot.size ∧
      (∀ slot, slot ≠ lot.tag.ref → slot ∉ refs later →
        next.orderPool.store slot = state.orderPool.store slot) ∧
      (∀ slot, slot ≠ lot.tag.ref → ∃ node, next.orderPool.deref slot =
        { state.orderPool.deref slot with listNode := node }) ∧
      Closed (state.orderPool.deref lot.tag.ref) (next.orderPool.deref lot.tag.ref) := by
  have positive : 0 < amount := Nat.lt_of_lt_of_le lot.positive whole
  obtain ⟨going, peek, amountToMatch, filed⟩ := holds.going positive
  have less : (state.orderPool.deref lot.tag.ref).size ≤ size - state.totalMatched := by
    rw [UInt32.le_iff_toNat_le, amountToMatch, filed.size]
    exact whole
  have total := holds.total positive (state.orderPool.deref lot.tag.ref).size
    (by rw [filed.size]; exact whole)
  rw [filed.size] at total
  -- the record is written before the order is unlinked, so the level is retired from there
  let closing := state.orderPool.write lot.tag.ref
    { state.orderPool.deref lot.tag.ref with size := 0 }
  have queue : Shows closing state.level (refs [] ++ lot.tag.ref :: refs later) :=
    holds.level.queue.congr fun slot _ => listNode_write (by rfl) slot
  have records : ∀ other ∈ [] ++ later,
      Filed symbol isBuySide price (closing.deref other.tag.ref) other :=
    fun _ behind => holds.filed_later _ behind
  have poolShown : PoolShown closing free (lot.tag.ref :: (refs ([] ++ later) ++ others)) :=
    holds.pool.write _ (holds.pool.not_free List.mem_cons_self)
      fun idle => absurd List.mem_cons_self idle
  obtain ⟨level, pool, frame, relinked, record⟩ := LevelShown.retire queue records poolShown
  refine ⟨⟨(state.level.remove closing lot.tag.ref).1,
    (state.level.remove closing lot.tag.ref).2.deallocate lot.tag.ref,
    state.totalMatched + (state.orderPool.deref lot.tag.ref).size⟩, ?_, ⟨level, pool, ?_⟩, total,
    fun slot different outside => ?_, fun slot different => ?_, ?_⟩
  · rw [matchAtLevelPass, if_pos going, peek]
    simp only [decreaseSize_whole _ less, MemPool.deref_write_self, beq_self_eq_true, if_true]
    rfl
  · have below := holds.amount
    simp only at below
    simp only [total]
    omega
  · exact (frame slot different outside).trans (MemPool.store_write_of_ne _ _ different)
  · obtain ⟨node, same⟩ := relinked slot different
    exact ⟨node, by rw [same, MemPool.deref_congr (MemPool.store_write_of_ne _ _ different)]⟩
  · rw [record, MemPool.deref_write_self]
    exact ⟨_, rfl⟩

theorem LevelServed.after_short {amount : Nat} {before next last : LevelMatch poolSize}
    (short : amount < lot.size)
    (served : LevelServed symbol isBuySide price 0
      (⟨lot.tag, lot.size - amount, Nat.sub_pos_of_lt short⟩ :: later) free others next last)
    (total : next.totalMatched.toNat = before.totalMatched.toNat + amount)
    (frame : ∀ slot, slot ≠ lot.tag.ref →
      next.orderPool.store slot = before.orderPool.store slot) :
    LevelServed symbol isBuySide price amount (lot :: later) free others before last := by
  obtain ⟨level, pool, total', frame', closed⟩ := served
  rw [fill_zero] at level
  rw [fill_zero, spent_zero] at pool
  refine ⟨by rw [fill_short short]; exact level,
    by rw [fill_short short, spent_short short]; exact pool, ?_, fun slot outside => ?_, ?_⟩
  · rw [total', total, Nat.zero_min, total_cons]
    omega
  · exact (frame' slot outside).trans (frame slot fun same => outside (same ▸ List.mem_cons_self))
  · rw [spent_short short]
    exact fun _ member => absurd member List.not_mem_nil

theorem LevelServed.after_whole {amount : Nat} {before next last : LevelMatch poolSize}
    (served : LevelServed symbol isBuySide price (amount - lot.size) later (lot.tag.ref :: free)
      others next last)
    (whole : lot.size ≤ amount) (shown : PoolShown before.orderPool free (refs (lot :: later) ++ others))
    (total : next.totalMatched.toNat = before.totalMatched.toNat + lot.size)
    (frame : ∀ slot, slot ≠ lot.tag.ref → slot ∉ refs later →
      next.orderPool.store slot = before.orderPool.store slot)
    (relinked : ∀ slot, slot ≠ lot.tag.ref → ∃ node, next.orderPool.deref slot =
      { before.orderPool.deref slot with listNode := node })
    (emptied : Closed (before.orderPool.deref lot.tag.ref) (next.orderPool.deref lot.tag.ref)) :
    LevelServed symbol isBuySide price amount (lot :: later) free others before last := by
  obtain ⟨level, pool, total', frame', closed⟩ := served
  have nodup : (lot.tag.ref :: (refs later ++ others)).Nodup := shown.linked_nodup
  have apart : lot.tag.ref ∉ refs later := fun member =>
    (List.nodup_cons.mp nodup).1 (List.mem_append_left _ member)
  refine ⟨by rw [fill_whole whole]; exact level, ?_, ?_, fun slot outside => ?_, ?_⟩
  · rw [fill_whole whole, spent_whole whole, List.map_cons, List.reverse_cons, List.append_assoc]
    exact pool
  · rw [total', total, total_cons]
    omega
  · obtain ⟨different, outside⟩ := not_or.mp fun either => outside (List.mem_cons.mpr either)
    exact (frame' slot outside).trans (frame slot different outside)
  · rw [spent_whole whole, List.map_cons]
    intro slot member
    rcases List.mem_cons.mp member with rfl | behind
    · rw [MemPool.deref_congr (frame' _ apart)]
      exact emptied
    · have inside : slot ∈ refs later := by
        rw [refs, tags_eq (amount - lot.size) later, List.map_append]
        exact List.mem_append_left _ behind
      obtain ⟨node, same⟩ := relinked slot (ne_of_mem_of_not_mem inside apart)
      have gone := closed slot behind
      rw [same] at gone
      exact gone.of_relinked

/-- **`matchAtLevel` serves the line of the level.** -/
theorem matchAtLevel_shown {level : PriceLevel poolSize} (size totalMatched : UInt32)
    (shown : LevelShown pool symbol isBuySide price level lots)
    (poolShown : PoolShown pool free (refs lots ++ others)) :
    ∃ after, matchAtLevel level pool totalMatched size = .ok after ∧
      LevelServed symbol isBuySide price (size.toNat - totalMatched.toNat) lots free others
        ⟨level, pool, totalMatched⟩ after := by
  refine Loop.run_total
    (fun pending : Pending poolSize => pending.lots.length + min pending.amount 1)
    (LevelPending symbol isBuySide price size others)
    (fun pending before after => LevelServed symbol isBuySide price pending.amount pending.lots
      pending.free others before after) ?_ (level.size.toNat + 2)
    ⟨size.toNat - totalMatched.toNat, lots, free⟩ ⟨level, pool, totalMatched⟩
    ⟨shown, poolShown, rfl⟩ ?_
  · rintro ⟨amount, lots, free⟩ state holds
    cases lots with
    | nil => exact .inl ⟨state, holds.leave (.inl rfl)⟩
    | cons lot later =>
      rcases Nat.eq_zero_or_pos amount with rfl | positive
      · exact .inl ⟨state, holds.leave (.inr rfl)⟩
      · refine .inr ?_
        by_cases short : amount < lot.size
        · obtain ⟨next, went, pending, total, frame⟩ := holds.short positive short
          refine ⟨_, next, went, pending, ?_, fun last served => ?_⟩
          · simp only [List.length_cons]
            omega
          · exact served.after_short short total frame
        · have whole := Nat.not_lt.mp short
          obtain ⟨next, went, pending, total, frame, relinked, closed⟩ := holds.whole whole
          refine ⟨_, next, went, pending, ?_, fun last served => ?_⟩
          · simp only [List.length_cons]
            omega
          · exact served.after_whole whole holds.pool total frame relinked closed
  · have length := shown.queue.size
    rw [length_refs] at length
    simp only [length]
    omega

end Matching

end TradingExchange
