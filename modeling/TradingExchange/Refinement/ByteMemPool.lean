/-
**A pool in memory is a pool of slots.**

`ByteMemPool.view` reads a `MemPool` out of memory, element by element: the flag from its byte, the
storage from its bytes. Elements lie apart (`elementAt_apart`), so an operation that writes within one
element replaces one element of the view (`view_within`).

* `view_new`: a new pool in memory is a fresh pool;
* `view_allocate`, `view_deallocate`, `view_write`: the operations are those of `MemPool`, and a
  pointer is the address of the object of its slot.
-/

import TradingExchange.Model.ByteMemPool
import TradingExchange.Refinement.FreeList

namespace TradingExchange

open ByteMemory PoolStorage

namespace ObjectType

variable (T : ObjectType)

theorem sizeOf_le : T.sizeOf ≤ T.kStorageSize := by
  rw [kStorageSize]
  split <;> omega

theorem eight_le : 8 ≤ T.kStorageSize := by
  rw [kStorageSize]
  split <;> omega

theorem alignment_pos : 0 < T.alignment := by
  rw [alignment]
  omega

/-- The storage ends within the element. -/
theorem storage_le : T.objectOffset + T.kStorageSize ≤ T.elementSize := by
  have parts := Nat.div_add_mod (T.objectOffset + T.kStorageSize + T.alignment - 1) T.alignment
  have rest := Nat.mod_lt (T.objectOffset + T.kStorageSize + T.alignment - 1) T.alignment_pos
  rw [elementSize, Nat.mul_comm]
  omega

theorem elementSize_pos : 0 < T.elementSize := by
  have storage := T.storage_le
  have offset := T.alignment_pos
  rw [objectOffset] at storage
  omega

/-- Object storage, as bytes. -/
def Storage : Type := Bytes T.kStorageSize

/-- The object and the link both begin with the first byte. -/
instance storage : PoolStorage T.Storage (Bytes T.sizeOf) where
  zeroed := fun _ => 0
  construct storage value := ((ofBytes storage).store 0 value).load 0 T.kStorageSize
  object storage := (ofBytes storage).load 0 T.sizeOf
  nextFree storage := (ofBytes storage).loadWord 0
  setNextFree storage index := ((ofBytes storage).storeWord 0 index).load 0 T.kStorageSize
  object_construct storage value := by
    rw [load_ofBytes_load _ _ T.sizeOf_le, load_store_self]
  nextFree_setNextFree storage index := by
    rw [loadWord_ofBytes_load _ _ T.eight_le, loadWord_storeWord]

end ObjectType

namespace ByteMemPool

variable {T : ObjectType} {numElems : UInt64}

/-- An element, read from memory. -/
def element (pool : ByteMemPool T numElems) (index : Nat) : Element T.Storage where
  isFreeOrInUse := pool.memory (pool.elementAt index) != 0
  object := pool.memory.load (pool.objectAt index) T.kStorageSize

/-- The pool of slots that is in memory. -/
def view (pool : ByteMemPool T numElems) : MemPool T.Storage numElems where
  store slot := pool.element slot
  nextFreeIndex := pool.nextFreeIndex

/-- Elements do not depend on the head of the free list. -/
theorem view_head (pool : ByteMemPool T numElems) (index : UInt64) :
    view { pool with nextFreeIndex := index } = { pool.view with nextFreeIndex := index } := rfl

/-! ### Addresses -/

/-- **Elements lie apart.** -/
theorem elementAt_apart (pool : ByteMemPool T numElems) {index other : Nat}
    (different : other ≠ index) :
    pool.elementAt other + T.elementSize ≤ pool.elementAt index ∨
      pool.elementAt index + T.elementSize ≤ pool.elementAt other := by
  have before : ∀ first second : Nat, first < second →
      pool.elementAt first + T.elementSize ≤ pool.elementAt second := by
    intro first second less
    have steps : (first + 1) * T.elementSize ≤ second * T.elementSize :=
      Nat.mul_le_mul_right T.elementSize less
    rw [Nat.succ_mul] at steps
    rw [elementAt, elementAt]
    omega
  rcases Nat.lt_or_gt_of_ne different with less | more
  · exact .inl (before other index less)
  · exact .inr (before index other more)

/-- From an object back to its element. -/
@[simp] theorem objectAt_sub (pool : ByteMemPool T numElems) (index : Nat) :
    pool.objectAt index - T.objectOffset = pool.elementAt index :=
  Nat.add_sub_cancel ..

/-- **From an element back to its index.** -/
@[simp] theorem elementAt_sub_div (pool : ByteMemPool T numElems) (index : Nat) :
    (pool.elementAt index - pool.store) / T.elementSize = index := by
  rw [elementAt, Nat.add_sub_cancel_left, Nat.mul_div_cancel _ T.elementSize_pos]

theorem objectAt_injective (pool : ByteMemPool T numElems) :
    Function.Injective pool.objectAt := by
  intro index other same
  have back := congrArg (fun ptr => (ptr - T.objectOffset - pool.store) / T.elementSize) same
  simpa using back

/-- An element depends on its own bytes. -/
theorem element_congr (pool : ByteMemPool T numElems) {memory : ByteMemory} {index : Nat}
    (same : ∀ place, pool.elementAt index ≤ place → place < pool.elementAt index + T.elementSize →
      memory place = pool.memory place) :
    (pool.withMemory memory).element index = pool.element index := by
  have storage := T.storage_le
  have positive := T.elementSize_pos
  have flag := same (pool.elementAt index) (Nat.le_refl _) (by omega)
  have object : memory.load (pool.objectAt index) T.kStorageSize =
      pool.memory.load (pool.objectAt index) T.kStorageSize := by
    funext offset
    have within := offset.isLt
    exact same _ (by rw [objectAt]; omega) (by rw [objectAt]; omega)
  exact congrArg₂ Element.mk (congrArg (· != 0) flag) object

/-- **What is written within one element replaces one element.** -/
theorem view_within (pool : ByteMemPool T numElems) {memory : ByteMemory} (slot : Slot numElems)
    (outside : ∀ place, place < pool.elementAt slot ∨ pool.elementAt slot + T.elementSize ≤ place →
      memory place = pool.memory place) :
    (pool.withMemory memory).view =
      pool.view.setElement slot ((pool.withMemory memory).element slot) := by
  have store : (pool.withMemory memory).view.store =
      Function.update pool.view.store slot ((pool.withMemory memory).element slot) := by
    funext other
    by_cases same : other = slot
    · rw [same, Function.update_self]
      rfl
    · rw [Function.update_of_ne same]
      refine pool.element_congr fun place above below => outside place ?_
      have apart := pool.elementAt_apart fun equal => same (Fin.ext equal)
      omega
  exact congrArg₂ MemPool.mk store rfl

/-! ### Writing to memory -/

section Writes

variable (pool : ByteMemPool T numElems) (slot : Slot numElems)

/-- Writing the flag of an element. -/
theorem view_setFlag (flag : Bool) : (pool.setFlag (pool.elementAt slot) flag).view =
    pool.view.setElement slot ⟨flag, (pool.view.store slot).object⟩ := by
  have positive := T.elementSize_pos
  have aligned : 0 < T.objectOffset := T.alignment_pos
  let byte : Bytes 1 := fun _ => if flag then 1 else 0
  have outside : ∀ place, place < pool.elementAt slot ∨
      pool.elementAt slot + T.elementSize ≤ place →
      pool.memory.store (pool.elementAt slot) byte place = pool.memory place :=
    fun place apart => store_of_outside _ _ (by omega)
  have written : (pool.memory.store (pool.elementAt slot) byte (pool.elementAt slot) != 0) = flag := by
    have stored := pool.memory.store_add (pool.elementAt slot) byte 0
    rw [show pool.memory.store (pool.elementAt slot) byte (pool.elementAt slot) = byte 0 from stored]
    cases flag <;> rfl
  have object : (pool.memory.store (pool.elementAt slot) byte).load (pool.objectAt slot)
      T.kStorageSize = pool.memory.load (pool.objectAt slot) T.kStorageSize :=
    load_store_apart _ _ (.inr (by rw [objectAt]; omega))
  refine (pool.view_within slot outside).trans ?_
  exact congrArg _ (congrArg₂ Element.mk written object)

/-- Writing to the object storage of an element, from its first byte on. -/
theorem view_store {count : Nat} (bytes : Bytes count) (within : count ≤ T.kStorageSize) :
    (pool.withMemory (pool.memory.store (pool.objectAt slot) bytes)).view =
      pool.view.setElement slot ⟨(pool.view.store slot).isFreeOrInUse,
        ((ofBytes (pool.view.store slot).object).store 0 bytes).load 0 T.kStorageSize⟩ := by
  have storage := T.storage_le
  have aligned : 0 < T.objectOffset := T.alignment_pos
  have outside : ∀ place, place < pool.elementAt slot ∨
      pool.elementAt slot + T.elementSize ≤ place →
      pool.memory.store (pool.objectAt slot) bytes place = pool.memory place :=
    fun place apart => store_of_outside _ _ (by rw [objectAt]; omega)
  have flag : pool.memory.store (pool.objectAt slot) bytes (pool.elementAt slot) =
      pool.memory (pool.elementAt slot) := store_of_outside _ _ (by rw [objectAt]; omega)
  have object : ((ofBytes (pool.view.store slot).object).store 0 bytes).load 0 T.kStorageSize =
      (pool.memory.store (pool.objectAt slot) bytes).load (pool.objectAt slot) T.kStorageSize :=
    load_store_ofBytes_load ..
  refine (pool.view_within slot outside).trans ?_
  exact congrArg _ (congrArg₂ Element.mk (congrArg (· != 0) flag) object.symm)

/-- Writing the link of an element. -/
theorem view_setNextFreeOf (index : UInt64) :
    (pool.setNextFreeOf (pool.elementAt slot) index).view = pool.view.setElement slot
      ⟨(pool.view.store slot).isFreeOrInUse, setNextFree (pool.view.store slot).object index⟩ :=
  pool.view_store slot _ T.eight_le

/-- Constructing an object is writing it. -/
theorem view_construct (value : Bytes T.sizeOf) :
    (pool.construct (pool.objectAt slot) value).view = pool.view.write slot value :=
  pool.view_store slot value T.sizeOf_le

/-- The object of a slot. -/
theorem deref_view : pool.view.deref slot = pool.read (pool.objectAt slot) :=
  load_ofBytes_load _ _ T.sizeOf_le

/-- The link of a slot. -/
theorem link_view : pool.view.link slot = pool.nextFreeOf (pool.elementAt slot) :=
  loadWord_ofBytes_load _ _ T.eight_le

/-- Writing a byte of an object. -/
theorem view_write (offset : Fin T.sizeOf) (byte : UInt8) :
    (pool.write (pool.objectAt slot) offset byte).view =
      pool.view.write slot (Function.update (pool.view.deref slot) offset byte) := by
  rw [deref_view, ← view_construct, construct, read, store_update]
  rfl

end Writes

/-! ### The constructor -/

/-- Making an element. -/
theorem view_initialise (pool : ByteMemPool T numElems) (slot : Slot numElems) :
    (pool.initialise (pool.elementAt slot)).view = pool.view.setElement slot ⟨true, zeroed⟩ := by
  let cleared := pool.withMemory
    (pool.memory.store (pool.elementAt slot) fun _ : Fin T.elementSize => 0)
  have view : cleared.view = pool.view.setElement slot (cleared.element slot) :=
    pool.view_within slot fun place apart => store_of_outside _ _ apart
  have object : (cleared.view.store slot).object = zeroed := by
    funext offset
    have storage := T.storage_le
    have inside : T.objectOffset + offset < T.elementSize :=
      Nat.lt_of_lt_of_le (Nat.add_lt_add_left offset.isLt _) storage
    have zero := pool.memory.store_add (pool.elementAt slot)
      (fun _ : Fin T.elementSize => (0 : UInt8)) ⟨T.objectOffset + offset, inside⟩
    rw [← Nat.add_assoc] at zero
    exact zero
  have flagged := cleared.view_setFlag slot true
  rw [object, view, MemPool.setElement_setElement] at flagged
  exact flagged

/-- One pass of the constructor's loop. -/
theorem view_linkNext (pool : ByteMemPool T numElems) (slot : Slot numElems) :
    (pool.linkNext slot).view = pool.view.setElement slot
      ⟨true, setNextFree (pool.view.store slot).object (slot.index + 1)⟩ := by
  have linked := (pool.setFlag (pool.elementAt slot) true).view_setNextFreeOf slot
    (UInt64.ofNat (slot + 1))
  have next : UInt64.ofNat (slot.val + 1) = slot.index + 1 := UInt64.ofNat_add ..
  rw [view_setFlag, MemPool.setElement_self, MemPool.setElement_setElement, next] at linked
  rw [linkNext, next]
  exact linked

/-- A loop over the elements replaces them one by one. -/
theorem view_foldl (body : ByteMemPool T numElems → Nat → ByteMemPool T numElems)
    (replaced : Slot numElems → Element T.Storage → Element T.Storage)
    (one : ∀ pool (slot : Slot numElems),
      (body pool slot).view = pool.view.setElement slot (replaced slot (pool.view.store slot)))
    (pool : ByteMemPool T numElems) {count : Nat} (within : count ≤ numElems.toNat) :
    ((List.range count).foldl body pool).view = { pool.view with
      store := fun slot => if slot.val < count then replaced slot (pool.view.store slot)
        else pool.view.store slot } := by
  induction count with
  | zero => simp
  | succ count ih =>
    have last := one ((List.range count).foldl body pool) ⟨count, within⟩
    rw [ih (Nat.le_of_succ_le within)] at last
    rw [List.range_succ, List.foldl_append, List.foldl_cons, List.foldl_nil, last]
    refine congrArg₂ MemPool.mk (funext fun slot => ?_) rfl
    by_cases same : slot = ⟨count, within⟩
    · simp [same]
    · have different : slot.val ≠ count := fun equal => same (Fin.ext equal)
      have below : slot.val < count + 1 ↔ slot.val < count := by omega
      simp only [Function.update_of_ne same, below]

/-- **A new pool in memory is a fresh pool.** -/
theorem view_new {memory : ByteMemory} {store : Nat} {pool : ByteMemPool T numElems}
    (created : new T numElems memory store = some pool) : pool.view = MemPool.fresh := by
  rw [new] at created
  split at created
  · obtain rfl := Option.some.inj created
    rw [view_foldl linkNext (fun slot element => ⟨true, setNextFree element.object (slot.index + 1)⟩)
        view_linkNext _ le_rfl,
      view_foldl (fun pool index => pool.initialise (pool.elementAt index))
        (fun _ _ => ⟨true, zeroed⟩) view_initialise _ le_rfl]
    refine congrArg₂ MemPool.mk (funext fun slot => ?_) rfl
    simp only [if_pos slot.isLt]
  · exact absurd created (Option.some_ne_none _).symm

/-! ### The operations -/

section Operations

variable (pool : ByteMemPool T numElems)

/-- Taking an element off the free list, marking it in use and constructing its object. -/
theorem view_occupy (index : UInt64) (slot : Slot numElems) (value : Bytes T.sizeOf) :
    ((setFlag { pool with nextFreeIndex := index } (pool.elementAt slot) false).construct
        (pool.objectAt slot) value).view =
      MemPool.setElement { pool.view with nextFreeIndex := index } slot
        ⟨false, PoolStorage.construct (pool.view.store slot).object value⟩ := by
  let taken : ByteMemPool T numElems := { pool with nextFreeIndex := index }
  have constructed := (taken.setFlag (taken.elementAt slot) false).view_construct slot value
  rw [view_setFlag, MemPool.write, MemPool.setElement_setElement, MemPool.setElement_self]
    at constructed
  exact constructed

/-- What `allocate` does if the free list begins with a slot. -/
theorem allocate_slot {slot : Slot numElems} (head : pool.nextFreeIndex = slot.index)
    (value : Bytes T.sizeOf) : pool.allocate value = (some (pool.objectAt slot),
      (setFlag { pool with nextFreeIndex := pool.nextFreeOf (pool.elementAt slot) }
        (pool.elementAt slot) false).construct (pool.objectAt slot) value) := by
  have inside : ¬ pool.nextFreeIndex ≥ numElems := UInt64.not_le.mpr (head ▸ slot.index_lt)
  rw [allocate, if_neg inside, head, slot.index_toNat]
  rfl

/-- What `allocate` does if the free list is empty. -/
theorem allocate_full (stop : pool.nextFreeIndex = numElems) (value : Bytes T.sizeOf) :
    pool.allocate value = (none, pool) := by
  rw [allocate, if_pos (UInt64.le_of_eq stop.symm)]

/-- **Allocating is allocating the slot whose object the pointer points to.** -/
theorem view_allocate {slot : Slot numElems} (head : pool.nextFreeIndex = slot.index)
    (value : Bytes T.sizeOf) :
    pool.view.allocate value = (some slot, (pool.allocate value).2.view) := by
  rw [allocate_slot pool head, view_occupy, ← link_view]
  exact MemPool.allocate_head head value

/-- What `deallocate` does with the pointer to the object of a slot. -/
theorem deallocate_objectAt (slot : Slot numElems) : pool.deallocate (pool.objectAt slot) =
    { ((pool.destroy (pool.objectAt slot)).setFlag (pool.elementAt slot) true).setNextFreeOf
        (pool.elementAt slot) pool.nextFreeIndex with nextFreeIndex := slot.index } := by
  have back : UInt64.ofNat ((pool.elementAt slot - pool.store) / T.elementSize) = slot.index :=
    congrArg UInt64.ofNat (pool.elementAt_sub_div slot)
  rw [deallocate, objectAt_sub, ← back]
  rfl

/-- **Deallocating is deallocating the slot that the pointer is in**, once the destructor has run. -/
theorem view_deallocate (slot : Slot numElems) : (pool.deallocate (pool.objectAt slot)).view =
    (pool.view.write slot (T.destroy (pool.view.deref slot))).deallocate slot := by
  let destroyed := pool.destroy (pool.objectAt slot)
  have object : destroyed.view = pool.view.write slot (T.destroy (pool.view.deref slot)) := by
    rw [deref_view]
    exact pool.view_construct slot _
  have linked := (destroyed.setFlag (destroyed.elementAt slot) true).view_setNextFreeOf slot
    pool.nextFreeIndex
  rw [view_setFlag, MemPool.setElement_setElement, MemPool.setElement_self, object] at linked
  rw [deallocate_objectAt, view_head]
  exact congrArg (fun view => { view with nextFreeIndex := slot.index }) linked

end Operations

end ByteMemPool

end TradingExchange
