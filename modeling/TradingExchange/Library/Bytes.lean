/-
**Bytes in memory.**

A memory gives a byte for every address. `load` and `store` move a block of bytes between an address
and a function of the offset, and a word is eight bytes, the least significant first.

* `load_store_self`, `load_store_apart`: a block that was stored is loaded again, and a block that
  lies apart is not disturbed;
* `ofLittleEndian_littleEndian`: the bytes of a number give it back, up to the bytes that there are;
* `loadWord_storeWord`, `loadWord_congr`: words in memory;
* `ofBytes`: a block is a memory of its own, in which loads and stores are those at its address.
-/

import Mathlib.Algebra.Group.Nat.Defs
import Mathlib.Logic.Function.Basic

namespace TradingExchange

/-- A block of bytes, by offset. -/
abbrev Bytes (count : Nat) : Type := Fin count → UInt8

/-- A byte for every address. -/
abbrev ByteMemory : Type := Nat → UInt8

namespace ByteMemory

variable {count count' : Nat}

/-- The block of bytes at an address. -/
def load (memory : ByteMemory) (address count : Nat) : Bytes count := fun offset =>
  memory (address + offset)

/-- Write a block of bytes at an address. -/
def store (memory : ByteMemory) (address : Nat) (bytes : Bytes count) : ByteMemory := fun place =>
  if inside : address ≤ place ∧ place - address < count then bytes ⟨place - address, inside.2⟩
  else memory place

/-- Outside the block nothing changes. -/
theorem store_of_outside (memory : ByteMemory) {address place : Nat} (bytes : Bytes count)
    (outside : place < address ∨ address + count ≤ place) :
    memory.store address bytes place = memory place := by
  rw [store, dif_neg]
  omega

@[simp] theorem store_add (memory : ByteMemory) (address : Nat) (bytes : Bytes count)
    (offset : Fin count) : memory.store address bytes (address + offset) = bytes offset := by
  have inside : address ≤ address + offset ∧ address + offset - address < count := by omega
  rw [store, dif_pos inside]
  exact congrArg bytes (Fin.ext (Nat.add_sub_cancel_left ..))

/-- **What was stored is loaded.** -/
@[simp] theorem load_store_self (memory : ByteMemory) (address : Nat) (bytes : Bytes count) :
    (memory.store address bytes).load address count = bytes := by
  funext offset
  rw [load, store_add]

/-- **A block apart is not disturbed.** -/
theorem load_store_apart (memory : ByteMemory) {address address' : Nat} (bytes : Bytes count)
    (apart : address' + count' ≤ address ∨ address + count ≤ address') :
    (memory.store address bytes).load address' count' = memory.load address' count' := by
  funext offset
  rw [load, load, store_of_outside]
  omega

/-- A block that is stored where it was loaded changes nothing. -/
@[simp] theorem store_load (memory : ByteMemory) (address count : Nat) :
    memory.store address (memory.load address count) = memory := by
  funext place
  rw [store]
  split
  · next inside => rw [load, Nat.add_sub_cancel' inside.1]
  · rfl

/-- Writing one byte of a block is writing the block with that byte. -/
theorem store_update (memory : ByteMemory) (address : Nat) (offset : Fin count) (byte : UInt8) :
    memory.store address (Function.update (memory.load address count) offset byte) =
      memory.store (address + offset) fun _ : Fin 1 => byte := by
  funext place
  by_cases inside : address ≤ place ∧ place - address < count
  · obtain ⟨other, rfl⟩ : ∃ other : Fin count, place = address + other :=
      ⟨⟨place - address, inside.2⟩, by simp only; omega⟩
    rw [store_add]
    by_cases same : other = offset
    · subst same
      have here := memory.store_add (address + other) (fun _ : Fin 1 => byte) 0
      rw [Function.update_self]
      exact here.symm
    · have apart : other.val ≠ offset.val := fun equal => same (Fin.ext equal)
      rw [Function.update_of_ne same, load, store_of_outside]
      omega
  · have within := offset.isLt
    rw [store_of_outside _ _ (by omega), store_of_outside _ _ (by omega)]

/-! ### Words -/

/-- The bytes of a number, the least significant first. -/
def littleEndian (number place : Nat) : UInt8 := UInt8.ofNat (number / 256 ^ place)

/-- The number that bytes give. -/
def ofLittleEndian : Nat → (Nat → UInt8) → Nat
  | 0, _ => 0
  | count + 1, bytes => (bytes 0).toNat + 256 * ofLittleEndian count fun place => bytes (place + 1)

theorem ofLittleEndian_congr {bytes bytes' : Nat → UInt8}
    (same : ∀ place < count, bytes place = bytes' place) :
    ofLittleEndian count bytes = ofLittleEndian count bytes' := by
  induction count generalizing bytes bytes' with
  | zero => rfl
  | succ count ih =>
    have rest := ih fun place less => same (place + 1) (Nat.succ_lt_succ less)
    simp only [ofLittleEndian, same 0 (Nat.succ_pos count), rest]

/-- **The bytes of a number give it back**, up to the bytes that there are. -/
theorem ofLittleEndian_littleEndian (count number : Nat) :
    ofLittleEndian count (littleEndian number) = number % 256 ^ count := by
  induction count generalizing number with
  | zero => simp [ofLittleEndian, Nat.mod_one]
  | succ count ih =>
    have first : (littleEndian number 0).toNat = number % 256 := by simp [littleEndian]
    have rest : (fun place => littleEndian number (place + 1)) = littleEndian (number / 256) := by
      funext place
      rw [littleEndian, littleEndian, Nat.div_div_eq_div_mul, Nat.pow_succ']
    rw [ofLittleEndian, first, rest, ih, Nat.pow_succ', Nat.mod_mul]

/-- A word in memory. -/
def loadWord (memory : ByteMemory) (address : Nat) : UInt64 :=
  UInt64.ofNat (ofLittleEndian 8 fun place => memory (address + place))

def storeWord (memory : ByteMemory) (address : Nat) (word : UInt64) : ByteMemory :=
  memory.store address fun place : Fin 8 => littleEndian word.toNat place

/-- A word depends on its eight bytes only. -/
theorem loadWord_congr {memory memory' : ByteMemory} {address address' : Nat}
    (same : ∀ place < 8, memory (address + place) = memory' (address' + place)) :
    memory.loadWord address = memory'.loadWord address' := by
  rw [loadWord, loadWord, ofLittleEndian_congr same]

/-- **A word that was stored is loaded.** -/
@[simp] theorem loadWord_storeWord (memory : ByteMemory) (address : Nat) (word : UInt64) :
    (memory.storeWord address word).loadWord address = word := by
  have bytes : ∀ place < 8, memory.storeWord address word (address + place) =
      littleEndian word.toNat place := fun place less =>
    memory.store_add address (fun place : Fin 8 => littleEndian word.toNat place) ⟨place, less⟩
  have bound : word.toNat < 256 ^ 8 := word.toNat_lt
  rw [loadWord, ofLittleEndian_congr bytes, ofLittleEndian_littleEndian, Nat.mod_eq_of_lt bound,
    UInt64.ofNat_toNat]

/-! ### A block by itself -/

/-- A block of bytes as a memory of its own. -/
def ofBytes (bytes : Bytes count) : ByteMemory := fun place =>
  if inside : place < count then bytes ⟨place, inside⟩ else 0

theorem ofBytes_load (memory : ByteMemory) (address : Nat) {place : Nat} (inside : place < count) :
    ofBytes (memory.load address count) place = memory (address + place) := by
  rw [ofBytes, dif_pos inside, load]

theorem load_ofBytes_load (memory : ByteMemory) (address : Nat) (within : count' ≤ count) :
    (ofBytes (memory.load address count)).load 0 count' = memory.load address count' := by
  funext offset
  rw [load, Nat.zero_add, ofBytes_load memory address (Nat.lt_of_lt_of_le offset.isLt within), load]

theorem loadWord_ofBytes_load (memory : ByteMemory) (address : Nat) (within : 8 ≤ count) :
    (ofBytes (memory.load address count)).loadWord 0 = memory.loadWord address := by
  refine loadWord_congr fun place less => ?_
  rw [Nat.zero_add, ofBytes_load memory address (Nat.lt_of_lt_of_le less within)]

/-- **A store in a block is a store at its address.** -/
theorem load_store_ofBytes_load (memory : ByteMemory) (address : Nat) (bytes : Bytes count') :
    ((ofBytes (memory.load address count)).store 0 bytes).load 0 count =
      (memory.store address bytes).load address count := by
  funext offset
  by_cases inside : offset.val < count'
  · have here := (ofBytes (memory.load address count)).store_add 0 bytes ⟨offset, inside⟩
    have there := memory.store_add address bytes ⟨offset, inside⟩
    exact here.trans there.symm
  · rw [load, load, store_of_outside, store_of_outside, Nat.zero_add,
      ofBytes_load memory address offset.isLt]
    all_goals omega

end ByteMemory

end TradingExchange
