/-
**Allocators, and what their clients hold.**

An allocator hands out pointers to objects. Reading through a pointer, and giving it back, fail if
the pointer is not one that was handed out and not given back since: so a client that never fails
never frees twice, and never uses a pointer that it gave back.

`Allocator.Lawful` says what an allocator has to keep of the objects that are held, pointer by
pointer, and a client needs no more: it can fill a vector (`Lawful.allocateEach`), empty it
(`Lawful.releaseEach`), and take an object out of the middle (`Lawful.removeAt`), by `swapRemove`,
which puts the last one in its place.
-/

import TradingExchange.Library.Lists

namespace TradingExchange

/-- An allocator of objects, with its checks. -/
structure Allocator (State Ptr T : Type) where
  /-- A pointer to a new object, or null. -/
  allocate : State → T → Option Ptr × State
  read : State → Ptr → Option T
  deallocate : State → Ptr → Option State

namespace Allocator

variable {State Ptr T : Type} (allocator : Allocator State Ptr T)

/-- Allocate an object for each value, with what each call returns. -/
def allocateEach : State → List T → List (Option Ptr) × State
  | state, [] => ([], state)
  | state, value :: later =>
    let (ptr, state) := allocator.allocate state value
    let (ptrs, state) := allocateEach state later
    (ptr :: ptrs, state)

/-- Give a pointer back; not null. -/
def release (state : State) : Option Ptr → Option State
  | none => none
  | some ptr => allocator.deallocate state ptr

/-- Read through a pointer; not null. -/
def deref (state : State) : Option Ptr → Option T
  | none => none
  | some ptr => allocator.read state ptr

/-- Give the pointers of a vector back. -/
def releaseEach : State → List (Option Ptr) → Option State
  | state, [] => some state
  | state, ptr :: later => (allocator.release state ptr).bind fun state => releaseEach state later

/-- **What an allocator keeps of the objects that are held.** `room held` says that there is room
for another object beside so many. -/
structure Lawful (room : Nat → Bool) (Held : State → List (Ptr × T) → Prop) : Prop where
  perm : ∀ {state held held'}, Held state held → held.Perm held' → Held state held'
  allocate : ∀ {state held} (value : T), Held state held → room held.length = true →
    ∃ ptr after, allocator.allocate state value = (some ptr, after) ∧ Held after ((ptr, value) :: held)
  full : ∀ {state held} (value : T), Held state held → room held.length = false →
    ∃ after, allocator.allocate state value = (none, after) ∧ Held after held
  read : ∀ {state ptr value held}, Held state ((ptr, value) :: held) →
    allocator.read state ptr = some value
  deallocate : ∀ {state ptr value held}, Held state ((ptr, value) :: held) →
    ∃ after, allocator.deallocate state ptr = some after ∧ Held after held

namespace Lawful

variable {allocator : Allocator State Ptr T} {room : Nat → Bool}
  {Held : State → List (Ptr × T) → Prop} {state : State} {held : List (Ptr × T)}

/-- **Where there is room for all, each allocation returns a pointer**, to an object of its own. -/
theorem allocateEach (lawful : allocator.Lawful room Held) (holds : Held state held)
    (values : List T)
    (enough : ∀ more < values.length, room (held.length + more) = true) :
    ∃ (ptrs : List Ptr) (after : State),
      allocator.allocateEach state values = (ptrs.map some, after) ∧
      ptrs.length = values.length ∧ Held after (held ++ ptrs.zip values) := by
  induction values generalizing state held with
  | nil => exact ⟨[], state, rfl, rfl, (List.append_nil held).symm ▸ holds⟩
  | cons value later ih =>
    obtain ⟨ptr, next, allocated, holds⟩ :=
      lawful.allocate value holds (enough 0 (Nat.succ_pos later.length))
    have holds := lawful.perm holds (List.perm_append_singleton (ptr, value) held).symm
    obtain ⟨ptrs, after, ran, length, holds⟩ := ih holds fun more less => by
      have all := enough (more + 1) (Nat.succ_lt_succ less)
      rw [List.length_append, List.length_singleton]
      rwa [Nat.add_assoc, Nat.add_comm 1 more]
    refine ⟨ptr :: ptrs, after, ?_, congrArg Nat.succ length, ?_⟩
    · simp only [Allocator.allocateEach, allocated, ran, List.map_cons]
    · rw [List.zip_cons_cons]
      rwa [List.append_assoc, List.singleton_append] at holds

/-- **All that is held can be given back.** -/
theorem releaseEach (lawful : allocator.Lawful room Held) (holds : Held state held) :
    ∃ after, allocator.releaseEach state (held.map fun object => some object.1) = some after ∧
      Held after [] := by
  induction held generalizing state with
  | nil => exact ⟨state, rfl, holds⟩
  | cons object later ih =>
    obtain ⟨next, released, holds⟩ := lawful.deallocate holds
    obtain ⟨after, ran, holds⟩ := ih holds
    refine ⟨after, ?_, holds⟩
    rw [List.map_cons, Allocator.releaseEach, Allocator.release, released]
    exact ran

/-- **An object can be read, given back and removed from the vector that holds it.** -/
theorem removeAt (lawful : allocator.Lawful room Held) (holds : Held state held) {index : Nat}
    (inside : index < held.length) :
    allocator.read state held[index].1 = some held[index].2 ∧
      ∃ after, allocator.deallocate state held[index].1 = some after ∧
        Held after (swapRemove held index) := by
  have first := lawful.perm holds (List.getElem_cons_eraseIdx_perm inside).symm
  obtain ⟨after, released, rest⟩ := lawful.deallocate first
  exact ⟨lawful.read first, after, released, lawful.perm rest (swapRemove_perm inside).symm⟩

end Lawful

end Allocator

end TradingExchange
