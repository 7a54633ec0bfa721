/-
**What a book in memory shows.**

A `View` is a pure book whose lots are filed under pool slots, with the free list in order.
`Represents book view` is the representation relation between an `OrderBook` and a view:

* `SideShown`: the price map of a side has exactly the ladder's prices, and the level at each shows
  the lots there (`LevelShown`), as a queue and record by record (`Filed`);
* `PoolShown`: the free list, and that no slot is listed twice, in the free list or in the levels.
  A slot that is in neither is in use, and its links are null.

All of it depends on the memory of the slots concerned only (`LevelShown.frame`, `SideShown.frame`).
-/

import TradingExchange.Abstract.PureBook
import TradingExchange.Model.Calls
import TradingExchange.Refinement.FreeList
import TradingExchange.Refinement.Queue

namespace TradingExchange

open Lots Ladder NodeMemory

/-- The references of a line of lots. -/
def refs {Ref : Type} (lots : List (Lot (Ticket Ref))) : List Ref := (tags lots).map Ticket.ref

section Refs

variable {Ref : Type}

@[simp] theorem refs_nil : refs ([] : List (Lot (Ticket Ref))) = [] := rfl

@[simp] theorem refs_cons (lot : Lot (Ticket Ref)) (later : List (Lot (Ticket Ref))) :
    refs (lot :: later) = lot.tag.ref :: refs later := rfl

@[simp] theorem refs_append (first second : List (Lot (Ticket Ref))) :
    refs (first ++ second) = refs first ++ refs second := by
  rw [refs, tags_append, List.map_append]
  rfl

@[simp] theorem length_refs (lots : List (Lot (Ticket Ref))) : (refs lots).length = lots.length := by
  rw [refs, List.length_map, tags, List.length_map]

theorem mem_refs {lots : List (Lot (Ticket Ref))} {ref : Ref} :
    ref ∈ refs lots ↔ ∃ lot ∈ lots, lot.tag.ref = ref := by
  simp only [refs, tags, List.map_map, List.mem_map, Function.comp_apply]

theorem refs_eq (lots : List (Lot (Ticket Ref))) : refs lots = lots.map fun lot => lot.tag.ref := by
  rw [refs, tags, List.map_map]
  rfl

theorem refs_perm {lots lots' : List (Lot (Ticket Ref))} (perm : lots.Perm lots') :
    (refs lots).Perm (refs lots') := (perm.map Lot.tag).map Ticket.ref

theorem ref_mem {lots : List (Lot (Ticket Ref))} {lot : Lot (Ticket Ref)} (member : lot ∈ lots) :
    lot.tag.ref ∈ refs lots := mem_refs.mpr ⟨lot, member, rfl⟩

/-- The orders at a price are among those of the ladder. -/
theorem refs_lotsAt_sublist {levels : List (Level UInt64 (Ticket Ref))} {price : UInt64} :
    (refs (lotsAt levels price)).Sublist (refs (flat levels)) := by
  rw [refs_eq, refs_eq]
  exact lotsAt_sublist.map _

variable [DecidableEq Ref]

theorem refs_keep (ref : Ref) (lots : List (Lot (Ticket Ref))) :
    refs (keep (fun ticket => ticket.ref = ref) lots) = (refs lots).filter (· ≠ ref) := by
  rw [refs_eq, refs_eq, keep, List.filter_map]
  refine congrArg _ (List.filter_congr fun lot _ => ?_)
  exact decide_not.symm

/-- Withdrawing a reference that is not there changes nothing. -/
theorem keep_absent {ref : Ref} {lots : List (Lot (Ticket Ref))} (absent : ref ∉ refs lots) :
    keep (fun ticket => ticket.ref = ref) lots = lots :=
  keep_eq_self fun _ member => decide_eq_false fun same => absent (same ▸ ref_mem member)

theorem keep_present {lot : Lot (Ticket Ref)} {front later : List (Lot (Ticket Ref))}
    (nodup : (refs (front ++ lot :: later)).Nodup) :
    keep (fun ticket => ticket.ref = lot.tag.ref) (front ++ lot :: later) = front ++ later := by
  rw [refs_append, refs_cons, List.nodup_append] at nodup
  obtain ⟨-, rest, apart⟩ := nodup
  have gone : keep (fun ticket => ticket.ref = lot.tag.ref) [lot] = [] := by
    rw [keep, List.filter_singleton]
    simp only [decide_true, Bool.not_true, cond_false]
  rw [← List.singleton_append, keep_append, keep_append, gone, List.nil_append,
    keep_absent fun member => apart _ member _ List.mem_cons_self rfl,
    keep_absent (List.nodup_cons.mp rest).1]

end Refs

/-- A pure book over pool slots, and the free slots. -/
structure View (poolSize : UInt64) where
  book : PureBook (Ticket (Slot poolSize))
  free : List (Slot poolSize)

variable {poolSize : UInt64}

namespace View

/-- The slots of the resting orders of a side. -/
def slots (view : View poolSize) (isBuySide : Bool) : List (Slot poolSize) :=
  refs (view.book.line isBuySide)

/-- The slots of all resting orders. -/
def linked (view : View poolSize) : List (Slot poolSize) := view.slots true ++ view.slots false

end View

/-- A record shows a lot that rests at a price of a side. -/
structure Filed (symbol : String) (isBuySide : Bool) (price : UInt64)
    (order : Order (Slot poolSize)) (lot : Lot (Ticket (Slot poolSize))) : Prop where
  orderId : order.orderId = lot.tag.orderId
  clientId : order.clientId = lot.tag.clientId
  symbol : order.symbol = symbol
  size : order.size.toNat = lot.size
  price : order.price = price
  isBuySide : order.isBuySide = isBuySide
  orderType : order.orderType = lot.tag.orderType

theorem Filed.size_eq {symbol : String} {isBuySide : Bool} {price : UInt64}
    {order : Order (Slot poolSize)} {lot : Lot (Ticket (Slot poolSize))}
    (filed : Filed symbol isBuySide price order lot) : order.size = UInt32.ofNat lot.size := by
  rw [← filed.size, UInt32.ofNat_toNat]

/-- Records that differ in their links only show the same lot. -/
theorem Filed.relink {symbol : String} {isBuySide : Bool} {price : UInt64}
    {order : Order (Slot poolSize)} {lot : Lot (Ticket (Slot poolSize))}
    (filed : Filed symbol isBuySide price order lot) (node : Node (Slot poolSize)) :
    Filed symbol isBuySide price { order with listNode := node } lot :=
  ⟨filed.orderId, filed.clientId, filed.symbol, filed.size, filed.price, filed.isBuySide,
    filed.orderType⟩

/-- Two records of one order differ in the size and the links at most. -/
theorem Filed.eq_of_tag {symbol : String} {isBuySide : Bool} {price : UInt64}
    {order order' : Order (Slot poolSize)} {lot lot' : Lot (Ticket (Slot poolSize))}
    (one : Filed symbol isBuySide price order lot)
    (two : Filed symbol isBuySide price order' lot') (same : lot'.tag = lot.tag) :
    order' = { order with size := order'.size, listNode := order'.listNode } := by
  obtain ⟨orderId, clientId, name, -, limit, side, type⟩ := one
  obtain ⟨orderId', clientId', name', -, limit', side', type'⟩ := two
  rw [same] at orderId' clientId' type'
  cases order
  cases order'
  rw [Order.mk.injEq]
  exact ⟨orderId'.trans orderId.symm, clientId'.trans clientId.symm, name'.trans name.symm, rfl,
    limit'.trans limit.symm, side'.trans side.symm, type'.trans type.symm, rfl⟩

/-- Two records of one lot differ in the links at most. -/
theorem Filed.eq_of_lot {symbol : String} {isBuySide : Bool} {price : UInt64}
    {order order' : Order (Slot poolSize)} {lot : Lot (Ticket (Slot poolSize))}
    (one : Filed symbol isBuySide price order lot)
    (two : Filed symbol isBuySide price order' lot) :
    order' = { order with listNode := order'.listNode } := by
  have size : order'.size = order.size := UInt32.toNat_inj.mp (two.size.trans one.size.symm)
  have same := one.eq_of_tag two rfl
  rwa [size] at same

/-- A level shows a line of lots. -/
structure LevelShown (pool : OrderPool poolSize) (symbol : String) (isBuySide : Bool)
    (price : UInt64) (level : PriceLevel poolSize) (lots : List (Lot (Ticket (Slot poolSize)))) :
    Prop where
  queue : Shows pool level (refs lots)
  records : ∀ lot ∈ lots, Filed symbol isBuySide price (pool.deref lot.tag.ref) lot

/-- An entry of a price map shows the lots at its price: there is no entry without lots. -/
def EntryShown (pool : OrderPool poolSize) (symbol : String) (isBuySide : Bool) (price : UInt64)
    (lots : List (Lot (Ticket (Slot poolSize)))) : Option (PriceLevel poolSize) → Prop
  | none => lots = []
  | some level => lots ≠ [] ∧ LevelShown pool symbol isBuySide price level lots

/-- A price map shows a ladder. -/
def SideShown (pool : OrderPool poolSize) (symbol : String) (isBuySide : Bool)
    (map : PriceLevels poolSize) (levels : List (Level UInt64 (Ticket (Slot poolSize)))) : Prop :=
  ∀ price, EntryShown pool symbol isBuySide price (lotsAt levels price) map[price]?

/-- The pool shows the free slots and the linked ones. -/
structure PoolShown (pool : OrderPool poolSize) (free linked : List (Slot poolSize)) : Prop where
  list : pool.FreeList free
  nodup : (free ++ linked).Nodup
  idle : ∀ slot, slot ∉ free → slot ∉ linked → (pool.deref slot).listNode = {}

/-- **The representation relation.** -/
structure Represents (book : OrderBook poolSize) (view : View poolSize) : Prop where
  sides : ∀ isBuySide, SideShown book.orderPool book.symbol isBuySide (book.levels isBuySide)
    (view.book.levels isBuySide)
  pool : PoolShown book.orderPool view.free view.linked

/-! ### Frames -/

section Frames

variable {pool pool' : OrderPool poolSize} {symbol : String} {isBuySide : Bool} {price : UInt64}

theorem LevelShown.frame {level : PriceLevel poolSize}
    {lots : List (Lot (Ticket (Slot poolSize)))}
    (shown : LevelShown pool symbol isBuySide price level lots)
    (same : ∀ slot ∈ refs lots, pool'.store slot = pool.store slot) :
    LevelShown pool' symbol isBuySide price level lots := by
  refine ⟨shown.queue.congr fun slot member => ?_, fun lot member => ?_⟩
  · exact congrArg Order.listNode (MemPool.deref_congr (same slot member))
  · rw [MemPool.deref_congr (same _ (ref_mem member))]
    exact shown.records lot member

theorem EntryShown.frame {lots : List (Lot (Ticket (Slot poolSize)))}
    {entry : Option (PriceLevel poolSize)}
    (shown : EntryShown pool symbol isBuySide price lots entry)
    (same : ∀ slot ∈ refs lots, pool'.store slot = pool.store slot) :
    EntryShown pool' symbol isBuySide price lots entry := by
  cases entry with
  | none => exact shown
  | some level => exact ⟨shown.1, shown.2.frame same⟩

theorem SideShown.frame {map : PriceLevels poolSize}
    {levels : List (Level UInt64 (Ticket (Slot poolSize)))}
    (shown : SideShown pool symbol isBuySide map levels)
    (same : ∀ slot ∈ refs (flat levels), pool'.store slot = pool.store slot) :
    SideShown pool' symbol isBuySide map levels := fun price =>
  (shown price).frame fun slot member => same slot (refs_lotsAt_sublist.subset member)

/-- A side after a change at one price. -/
theorem SideShown.update {map map' : PriceLevels poolSize}
    {levels levels' : List (Level UInt64 (Ticket (Slot poolSize)))}
    (shown : SideShown pool symbol isBuySide map levels)
    (here : EntryShown pool' symbol isBuySide price (lotsAt levels' price) map'[price]?)
    (elsewhere : ∀ other, other ≠ price → map'[other]? = map[other]? ∧
      lotsAt levels' other = lotsAt levels other)
    (same : ∀ other, other ≠ price → ∀ slot ∈ refs (lotsAt levels other),
      pool'.store slot = pool.store slot) :
    SideShown pool' symbol isBuySide map' levels' := by
  intro other
  by_cases equal : other = price
  · subst equal
    exact here
  · obtain ⟨entry, lots⟩ := elsewhere other equal
    rw [entry, lots]
    exact (shown other).frame (same other equal)

theorem PoolShown.perm {free linked linked' : List (Slot poolSize)}
    (shown : PoolShown pool free linked) (perm : linked.Perm linked') :
    PoolShown pool free linked' :=
  ⟨shown.list, (perm.append_left free).nodup shown.nodup,
    fun slot used apart => shown.idle slot used fun member => apart (perm.subset member)⟩

/-- The prices of the map are those of the ladder. -/
theorem SideShown.mem_iff {map : PriceLevels poolSize}
    {levels : List (Level UInt64 (Ticket (Slot poolSize)))}
    (shown : SideShown pool symbol isBuySide map levels) (price : UInt64) :
    price ∈ map ↔ price ∈ prices levels := by
  have here := shown price
  rw [Std.ExtTreeMap.mem_iff_isSome_getElem?, ← lotsAt_ne_nil]
  cases found : map[price]? with
  | none =>
    rw [found] at here
    exact iff_of_false Bool.false_ne_true (not_not.mpr here)
  | some level =>
    rw [found] at here
    exact iff_of_true rfl here.1

/-- The level at a price of the ladder. -/
theorem SideShown.level {map : PriceLevels poolSize}
    {levels : List (Level UInt64 (Ticket (Slot poolSize)))}
    (shown : SideShown pool symbol isBuySide map levels) (member : price ∈ prices levels) :
    ∃ level, map[price]? = some level ∧
      LevelShown pool symbol isBuySide price level (lotsAt levels price) := by
  have here := shown price
  cases found : map[price]? with
  | none =>
    rw [found] at here
    exact absurd here (lotsAt_ne_nil.mpr member)
  | some level =>
    rw [found] at here
    exact ⟨level, rfl, here.2⟩

end Frames

end TradingExchange
