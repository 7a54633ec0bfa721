/-
**A pool does not disturb live objects.**

* `Tenancy.Holds`: the free list reaches free slots only, and a live pointer is that of a slot off the
  list whose object is what was last constructed or written there;
* `Tenancy.Holds.step`: a legal action keeps that, and leaves the other live objects alone
  (`Undisturbed`); `deallocate` writes the flag and the link of its own slot (`Released`);
* `live_undisturbed`: so in every run, whatever the size and the alignment of the objects.
-/

import TradingExchange.Refinement.ByteMemPool

namespace TradingExchange

open ByteMemory

variable {T : ObjectType} {numElems : UInt64}

/-! ### What deallocating writes -/

namespace ByteMemPool

/-- `deallocate` finds the slot of the pointer, and after the destructor writes its flag and its
link. -/
structure Released (pool : ByteMemPool T numElems) (ptr : Nat) (after : ByteMemPool T numElems) :
    Prop where
  slot : ∃ slot : Slot numElems, ptr = pool.objectAt slot ∧ after.nextFreeIndex = slot.index ∧
    after.memory (pool.elementAt slot) = 1 ∧
    after.nextFreeOf (pool.elementAt slot) = pool.nextFreeIndex ∧
    ∀ place, place ≠ pool.elementAt slot → place < ptr ∨ ptr + 8 ≤ place →
      after.memory place = (pool.destroy ptr).memory place
  /-- The destructor has the bytes of the object. -/
  destructor : ∀ place, place < ptr ∨ ptr + T.sizeOf ≤ place →
    (pool.destroy ptr).memory place = pool.memory place
  /-- Nothing else is written if the destructor writes nothing. -/
  trivial : (∀ bytes, T.destroy bytes = bytes) → pool.destroy ptr = pool

theorem destroy_trivial (pool : ByteMemPool T numElems) (ptr : Nat)
    (trivial : ∀ bytes, T.destroy bytes = bytes) : pool.destroy ptr = pool := by
  rw [destroy, trivial, read, store_load]
  rfl

theorem released (pool : ByteMemPool T numElems) (slot : Slot numElems) :
    pool.Released (pool.objectAt slot) (pool.deallocate (pool.objectAt slot)) := by
  refine ⟨⟨slot, rfl, ?_⟩, fun place apart => store_of_outside _ _ apart, pool.destroy_trivial _⟩
  have aligned : 0 < T.objectOffset := T.alignment_pos
  let destroyed := pool.destroy (pool.objectAt slot)
  let byte : Bytes 1 := fun _ => 1
  let flagged := destroyed.memory.store (pool.elementAt slot) byte
  rw [deallocate_objectAt]
  refine ⟨rfl, ?_, loadWord_storeWord .., fun place flag link => ?_⟩
  · calc flagged.storeWord (pool.objectAt slot) pool.nextFreeIndex (pool.elementAt slot)
      _ = flagged (pool.elementAt slot) := store_of_outside _ _ (by rw [objectAt]; omega)
      _ = 1 := destroyed.memory.store_add (pool.elementAt slot) byte 0
  · calc flagged.storeWord (pool.objectAt slot) pool.nextFreeIndex place
      _ = flagged place := store_of_outside _ _ link
      _ = destroyed.memory place := store_of_outside _ _ (by omega)

end ByteMemPool

/-! ### Clients -/

/-- The pointer that an action is given. -/
def ByteAction.touched : ByteAction T → Option Nat
  | .allocate _ => none
  | .deallocate ptr => some ptr
  | .write ptr _ _ => some ptr

namespace Tenancy

variable {tenancy next : Tenancy T numElems} {free free' : List (Slot numElems)}

/-- The free list reaches free slots only, and live objects are as they were left. -/
structure Holds (tenancy : Tenancy T numElems) (free : List (Slot numElems)) : Prop where
  list : tenancy.pool.view.FreeList free
  live : ∀ ptr bytes, tenancy.live ptr = some bytes →
    ∃ slot, slot ∉ free ∧ ptr = tenancy.pool.objectAt slot ∧ tenancy.pool.view.deref slot = bytes

/-- What a legal action leaves of live objects. -/
structure Undisturbed (tenancy : Tenancy T numElems) (action : ByteAction T) (reply : Option Nat)
    (next : Tenancy T numElems) : Prop where
  others : ∀ ptr bytes, tenancy.live ptr = some bytes → action.touched ≠ some ptr →
    next.live ptr = some bytes ∧ next.pool.read ptr = tenancy.pool.read ptr
  unused : ∀ ptr, reply = some ptr → tenancy.live ptr = none
  released : ∀ ptr, action = .deallocate ptr → tenancy.pool.Released ptr next.pool

/-- The bytes of a live object. -/
theorem Holds.read (holds : tenancy.Holds free) {ptr : Nat} {bytes : Bytes T.sizeOf}
    (known : tenancy.live ptr = some bytes) : tenancy.pool.read ptr = bytes := by
  obtain ⟨slot, -, rfl, same⟩ := holds.live ptr bytes known
  rw [← ByteMemPool.deref_view, same]

/-- Nothing is live in a free slot. -/
theorem Holds.unused (holds : tenancy.Holds free) {slot : Slot numElems} (member : slot ∈ free) :
    tenancy.live (tenancy.pool.objectAt slot) = none := by
  refine Option.eq_none_iff_forall_ne_some.mpr fun bytes known => ?_
  obtain ⟨other, used, same, -⟩ := holds.live _ bytes known
  exact used (Fin.ext (tenancy.pool.objectAt_injective same) ▸ member)

/-- An action on one slot. -/
theorem Holds.update (holds : tenancy.Holds free) {pool : ByteMemPool T numElems}
    {slot : Slot numElems} {entry : Option (Bytes T.sizeOf)} (base : pool.store = tenancy.pool.store)
    (list : pool.view.FreeList free')
    (elsewhere : ∀ other, other ≠ slot → pool.view.store other = tenancy.pool.view.store other)
    (kept : ∀ other, other ≠ slot → other ∉ free → other ∉ free')
    (here : ∀ bytes, entry = some bytes → slot ∉ free' ∧ pool.view.deref slot = bytes) :
    (tenancy.put pool (tenancy.pool.objectAt slot) entry).Holds free' := by
  have address : ∀ index, pool.objectAt index = tenancy.pool.objectAt index := fun index => by
    rw [ByteMemPool.objectAt, ByteMemPool.objectAt, ByteMemPool.elementAt, ByteMemPool.elementAt,
      base]
  refine ⟨list, fun ptr bytes known => ?_⟩
  by_cases same : ptr = tenancy.pool.objectAt slot
  · subst same
    rw [put_live_self] at known
    obtain ⟨used, object⟩ := here bytes known
    exact ⟨slot, used, (address slot).symm, object⟩
  · rw [put_live_of_ne _ _ _ same] at known
    obtain ⟨other, used, rfl, object⟩ := holds.live ptr bytes known
    have different : other ≠ slot := fun equal => same (by rw [equal])
    refine ⟨other, kept other different used, (address other).symm, ?_⟩
    rw [put_pool, MemPool.deref, elsewhere other different]
    exact object

/-- What is recorded of an object stays until an action is given its pointer. -/
theorem Holds.undisturbed (holds : tenancy.Holds free) (kept : next.Holds free')
    {action : ByteAction T} {reply : Option Nat}
    (recorded : ∀ ptr bytes, tenancy.live ptr = some bytes → action.touched ≠ some ptr →
      next.live ptr = some bytes)
    (unused : ∀ ptr, reply = some ptr → tenancy.live ptr = none)
    (released : ∀ ptr, action = .deallocate ptr → tenancy.pool.Released ptr next.pool) :
    tenancy.Undisturbed action reply next where
  others ptr bytes known apart := by
    have still := recorded ptr bytes known apart
    exact ⟨still, (kept.read still).trans (holds.read known).symm⟩
  unused := unused
  released := released

section Actions

variable {slot : Slot numElems}

/-- An allocation takes the first free slot. -/
theorem Holds.allocate (holds : tenancy.Holds (slot :: free)) (value : Bytes T.sizeOf) :
    ∃ pool, tenancy.pool.allocate value = (some (tenancy.pool.objectAt slot), pool) ∧
      (tenancy.put pool (tenancy.pool.objectAt slot) (some value)).Holds free := by
  have head : tenancy.pool.nextFreeIndex = slot.index := holds.list.chain.1
  obtain ⟨pool, allocated, base⟩ : ∃ pool, tenancy.pool.allocate value =
      (some (tenancy.pool.objectAt slot), pool) ∧ pool.store = tenancy.pool.store :=
    ⟨_, tenancy.pool.allocate_slot head value, rfl⟩
  have viewed := tenancy.pool.view_allocate head value
  rw [allocated] at viewed
  obtain ⟨after, returned, list, object, elsewhere⟩ := holds.list.allocate_cons value
  obtain ⟨-, rfl⟩ := Prod.mk.inj (viewed.symm.trans returned)
  have fresh : slot ∉ free := (List.nodup_cons.mp holds.list.nodup).1
  refine ⟨pool, allocated,
    holds.update base list elsewhere (fun _ _ => (List.not_mem_of_not_mem_cons ·)) ?_⟩
  rintro bytes ⟨⟩
  exact ⟨fresh, object⟩

/-- A slot that is given back is not live. -/
theorem Holds.deallocate (holds : tenancy.Holds free) (used : slot ∉ free) :
    (tenancy.put (tenancy.pool.deallocate (tenancy.pool.objectAt slot))
      (tenancy.pool.objectAt slot) none).Holds (slot :: free) := by
  have viewed := tenancy.pool.view_deallocate slot
  refine holds.update rfl ?_ (fun other different => ?_) (fun other different => ?_) ?_
  · rw [viewed]
    exact (holds.list.write _ used).deallocate used
  · rw [viewed, MemPool.store_deallocate_of_ne _ different, MemPool.store_write_of_ne _ _ different]
  · exact List.not_mem_cons_of_ne_of_not_mem different
  · rintro bytes ⟨⟩

/-- What is written to an object is in it. -/
theorem Holds.write (holds : tenancy.Holds free) (used : slot ∉ free) {bytes : Bytes T.sizeOf}
    (object : tenancy.pool.view.deref slot = bytes) (offset : Fin T.sizeOf) (byte : UInt8) :
    (tenancy.put (tenancy.pool.write (tenancy.pool.objectAt slot) offset byte)
      (tenancy.pool.objectAt slot) (some (Function.update bytes offset byte))).Holds free := by
  have viewed := tenancy.pool.view_write slot offset byte
  refine holds.update rfl ?_ (fun other different => ?_) (fun _ _ => id) ?_
  · rw [viewed]
    exact holds.list.write _ used
  · rw [viewed, MemPool.store_write_of_ne _ _ different]
  · rw [viewed, object]
    rintro bytes ⟨⟩
    exact ⟨used, MemPool.deref_write_self ..⟩

end Actions

/-- **A legal action returns, keeps live objects as they were left, and disturbs no other.** -/
theorem Holds.step (holds : tenancy.Holds free) {action : ByteAction T}
    (legal : tenancy.Legal action) :
    ∃ reply next free', tenancy.step action = .ok (reply, next) ∧ next.Holds free' ∧
      tenancy.Undisturbed action reply next := by
  cases action with
  | allocate value =>
    cases free with
    | nil =>
      have stop : tenancy.pool.nextFreeIndex = numElems := holds.list.chain
      have refused := tenancy.pool.allocate_full stop value
      refine ⟨none, tenancy, [], by rw [Tenancy.step, refused], holds,
        holds.undisturbed holds (fun _ _ known _ => known) ?_ ?_⟩
      · rintro ptr ⟨⟩
      · rintro ptr ⟨⟩
    | cons slot free =>
      obtain ⟨pool, allocated, kept⟩ := holds.allocate value
      have unused := holds.unused List.mem_cons_self
      refine ⟨_, _, free, by rw [Tenancy.step, allocated], kept, holds.undisturbed kept ?_ ?_ ?_⟩
      · intro ptr bytes known _
        have different : ptr ≠ tenancy.pool.objectAt slot := by
          rintro rfl
          exact Option.some_ne_none bytes (known.symm.trans unused)
        rw [put_live_of_ne _ _ _ different, known]
      · rintro ptr ⟨⟩
        exact unused
      · rintro ptr ⟨⟩
  | deallocate ptr =>
    obtain ⟨bytes, known⟩ := Option.isSome_iff_exists.mp legal
    obtain ⟨slot, used, rfl, -⟩ := holds.live ptr bytes known
    have kept := holds.deallocate used
    refine ⟨_, _, slot :: free, rfl, kept, holds.undisturbed kept ?_ ?_ ?_⟩
    · intro ptr bytes known apart
      rw [put_live_of_ne _ _ _ fun same => apart (congrArg some same.symm), known]
    · rintro ptr ⟨⟩
    · rintro ptr ⟨⟩
      exact tenancy.pool.released slot
  | write ptr offset byte =>
    obtain ⟨bytes, known⟩ := Option.isSome_iff_exists.mp legal
    obtain ⟨slot, used, rfl, object⟩ := holds.live ptr bytes known
    have kept := holds.write used object offset byte
    refine ⟨_, _, free, by rw [Tenancy.step, known, Option.map_some], kept,
      holds.undisturbed kept ?_ ?_ ?_⟩
    · intro ptr bytes known apart
      rw [put_live_of_ne _ _ _ fun same => apart (congrArg some same.symm), known]
    · rintro ptr ⟨⟩
    · rintro ptr ⟨⟩

/-- Nothing is live in a new pool. -/
theorem holds_new {memory : ByteMemory} {store : Nat} {pool : ByteMemPool T numElems}
    (created : ByteMemPool.new T numElems memory store = some pool) :
    Holds { pool } (List.finRange numElems.toNat) where
  list := (ByteMemPool.view_new created).symm ▸ MemPool.FreeList.fresh
  live := by
    rintro ptr bytes ⟨⟩

end Tenancy

/-- **Live objects are never disturbed**, wherever the pool is and whatever was in memory. -/
theorem live_undisturbed {memory : ByteMemory} {store : Nat} {pool : ByteMemPool T numElems}
    (created : ByteMemPool.new T numElems memory store = some pool) {actions : List (ByteAction T)}
    {replies : List (Option Nat)} {tenancy : Tenancy T numElems}
    (run : Run Tenancy.step Tenancy.Legal { pool } actions replies tenancy) :
    (∀ ptr bytes, tenancy.live ptr = some bytes → tenancy.pool.read ptr = bytes) ∧
    ∀ action, tenancy.Legal action →
      ∃ reply next, tenancy.step action = .ok (reply, next) ∧
        tenancy.Undisturbed action reply next := by
  obtain ⟨free, holds⟩ : ∃ free, tenancy.Holds free := by
    refine run.invariant (fun tenancy => ∃ free, tenancy.Holds free) ?_
      ⟨_, Tenancy.holds_new created⟩
    rintro tenancy action reply next ⟨free, holds⟩ legal done
    obtain ⟨reply', next', free', done', kept, -⟩ := holds.step legal
    obtain ⟨-, rfl⟩ := Prod.mk.inj (Except.ok.inj (done.symm.trans done'))
    exact ⟨free', kept⟩
  refine ⟨fun ptr bytes known => holds.read known, fun action legal => ?_⟩
  obtain ⟨reply, next, -, done, -, undisturbed⟩ := holds.step legal
  exact ⟨reply, next, done, undisturbed⟩

/-- A 32-bit integer: smaller than a link. -/
def int32 : ObjectType where
  sizeOf := 4
  alignOf := 4
  destroy := id

/-- The bytes of an integer. -/
def intBytes (value : Nat) : Bytes int32.sizeOf := fun place => littleEndian value place

instance : DecidableEq (Bytes int32.sizeOf) := inferInstanceAs (DecidableEq (Bytes 4))

/-- The middle one of three objects is given back and handed out again, and the last is written to. -/
theorem live_undisturbed_sample : ∃ tenancy : Tenancy int32 3,
    tenancy.pool.read 1008 = intBytes 10 ∧ tenancy.pool.read 1024 = intBytes 40 ∧
      tenancy.pool.read 1040 = intBytes 286 := by
  let actions : List (ByteAction int32) := [.allocate (intBytes 10), .allocate (intBytes 20),
    .allocate (intBytes 30), .deallocate 1024, .write 1040 ⟨1, by decide⟩ 1,
    .allocate (intBytes 40)]
  have played : ((ByteMemPool.new int32 3 (fun _ => 204) 1000).bind fun pool =>
      (execute Tenancy.step Tenancy.Legal { pool } actions).map fun result =>
        [1008, 1024, 1040].map result.2.live) =
      some [some (intBytes 10), some (intBytes 40), some (intBytes 286)] := by
    decide +kernel
  obtain ⟨pool, created, played⟩ := Option.bind_eq_some_iff.mp played
  obtain ⟨⟨replies, tenancy⟩, ran, live⟩ := Option.map_eq_some_iff.mp played
  obtain ⟨objects, -⟩ := live_undisturbed created (.of_execute ran)
  simp only [List.map_cons, List.map_nil, List.cons.injEq, and_true] at live
  exact ⟨tenancy, objects _ _ live.1, objects _ _ live.2.1, objects _ _ live.2.2⟩

end TradingExchange
