import Mathlib.Logic.Function.Basic
import Mathlib.Tactic.Ring

/-! # Byte memory

The kernel's data lives in plain byte memory: the heap arena of `kmalloc.c`, the buffers the
EXT4 driver fills from the block device, and the on-disk records it decodes. A memory is a
function from addresses to bytes. Multi-byte fields are little-endian, as on x86-64, and the
compiler's `packed` structures put every field at a fixed byte offset, so a field is read with
`load` at that offset and written with `store`. `put` writes a run of bytes taken from a source
(`memset`, `memcpy` and device reads are all `put`). -/

namespace FreeCore

/-- Byte memory: the byte stored at every address. -/
abbrev Memory := Nat → UInt8

namespace Memory

/-- The `width`-byte little-endian unsigned integer stored at `address`. -/
def load (mem : Memory) (address : Nat) : (width : Nat) → Nat
  | 0 => 0
  | width + 1 => (mem address).toNat + 256 * load mem (address + 1) width

/-- Store the low `width` bytes of `value` at `address`, least significant byte first. -/
def store (mem : Memory) : (address width value : Nat) → Memory
  | _, 0, _ => mem
  | address, width + 1, value =>
      Function.update (store mem (address + 1) width (value / 256)) address
        (UInt8.ofNat (value % 256))

/-- Write `count` bytes taken from `source` (its bytes `0, 1, …`) at `address`. -/
def put (mem : Memory) (address count : Nat) (source : Nat → UInt8) : Memory :=
  fun location =>
    if address ≤ location ∧ location < address + count then source (location - address)
    else mem location

/-- Two memories hold the same bytes on `[low, high)`. -/
def AgreeOn (mem other : Memory) (low high : Nat) : Prop :=
  ∀ location, low ≤ location → location < high → mem location = other location

/-! ## Loads -/

theorem load_lt (mem : Memory) (address width : Nat) :
    load mem address width < 256 ^ width := by
  induction width generalizing address with
  | zero => simp [load]
  | succ width induction =>
      have byte : (mem address).toNat < 256 := (mem address).toNat_lt_size
      have rest := induction (address + 1)
      rw [load, pow_succ]
      have : 256 * load mem (address + 1) width + 256 ≤ 256 ^ width * 256 := by
        rw [Nat.mul_comm (256 ^ width)]; omega
      omega

/-- A load reads only the bytes it covers. -/
theorem load_congr {mem other : Memory} {address width : Nat}
    (agree : AgreeOn mem other address (address + width)) :
    load mem address width = load other address width := by
  induction width generalizing address with
  | zero => rfl
  | succ width induction =>
      have first := agree address le_rfl (by omega)
      have rest : AgreeOn mem other (address + 1) (address + 1 + width) :=
        fun location lower upper => agree location (by omega) (by omega)
      simp only [load, first, induction rest]

theorem AgreeOn.mono {mem other : Memory} {low high low' high' : Nat}
    (agree : AgreeOn mem other low high) (lower : low ≤ low') (upper : high' ≤ high) :
    AgreeOn mem other low' high' :=
  fun location below above => agree location (by omega) (by omega)

theorem AgreeOn.symm {mem other : Memory} {low high : Nat}
    (agree : AgreeOn mem other low high) : AgreeOn other mem low high :=
  fun location lower upper => (agree location lower upper).symm

theorem AgreeOn.trans {mem middle other : Memory} {low high : Nat}
    (first : AgreeOn mem middle low high) (second : AgreeOn middle other low high) :
    AgreeOn mem other low high :=
  fun location lower upper => (first location lower upper).trans (second location lower upper)

theorem AgreeOn.refl (mem : Memory) (low high : Nat) : AgreeOn mem mem low high :=
  fun _ _ _ => rfl

/-! ## Stores -/

/-- A store leaves every byte outside `[address, address + width)` alone. -/
theorem store_apply_of_not_mem (mem : Memory) {address width location : Nat} (value : Nat)
    (outside : location < address ∨ address + width ≤ location) :
    store mem address width value location = mem location := by
  induction width generalizing address value with
  | zero => rfl
  | succ width induction =>
      rw [store, Function.update_noteq (by omega), induction _ (by omega)]

theorem load_store_same (mem : Memory) (address width value : Nat) :
    load (store mem address width value) address width = value % 256 ^ width := by
  induction width generalizing address value with
  | zero => simp [load, Nat.mod_one]
  | succ width induction =>
      have low : (UInt8.ofNat (value % 256)).toNat = value % 256 :=
        UInt8.toNat_ofNat_of_lt (Nat.mod_lt _ (by decide))
      have shifted : load (store mem address (width + 1) value) (address + 1) width =
          load (store mem (address + 1) width (value / 256)) (address + 1) width :=
        load_congr fun location lower _ => by
          rw [store, Function.update_noteq (by omega)]
      rw [load, shifted, induction, store, Function.update_same, low, pow_succ',
        Nat.mod_mul]

theorem agreeOn_store {mem : Memory} {address width low high : Nat} (value : Nat)
    (apart : address + width ≤ low ∨ high ≤ address) :
    AgreeOn mem (store mem address width value) low high :=
  fun location lower upper => (store_apply_of_not_mem mem value (by omega)).symm

/-- A load next to a store reads the old bytes. -/
theorem load_store_of_disjoint (mem : Memory) {address width other size : Nat} (value : Nat)
    (apart : address + width ≤ other ∨ other + size ≤ address) :
    load (store mem address width value) other size = load mem other size :=
  (load_congr (agreeOn_store value apart)).symm

/-! ## Byte runs -/

@[simp] theorem put_apply (mem : Memory) (address count : Nat) (source : Nat → UInt8)
    (location : Nat) :
    put mem address count source location =
      if address ≤ location ∧ location < address + count then source (location - address)
      else mem location := rfl

theorem agreeOn_put {mem : Memory} {address count low high : Nat} (source : Nat → UInt8)
    (apart : address + count ≤ low ∨ high ≤ address) :
    AgreeOn mem (put mem address count source) low high :=
  fun location lower upper => by
    rw [put_apply, if_neg (by omega)]

theorem load_put_of_disjoint (mem : Memory) {address count other size : Nat}
    (source : Nat → UInt8) (apart : address + count ≤ other ∨ other + size ≤ address) :
    load (put mem address count source) other size = load mem other size :=
  (load_congr (agreeOn_put source apart)).symm

/-- A load inside a run of put bytes reads the source. -/
theorem load_put_within (mem : Memory) {address count offset size : Nat}
    (source : Nat → UInt8) (inside : offset + size ≤ count) :
    load (put mem address count source) (address + offset) size =
      load source offset size := by
  induction size generalizing offset with
  | zero => rfl
  | succ size induction =>
      have first : put mem address count source (address + offset) = source offset := by
        rw [put_apply, if_pos (by omega), Nat.add_sub_cancel_left]
      have rest : load (put mem address count source) (address + (offset + 1)) size =
          load source (offset + 1) size := induction (by omega)
      rw [load, load, first, ← rest, Nat.add_assoc]

/-- A run reads its source only below its count. -/
theorem put_congr (mem : Memory) (address count : Nat) {source other : Nat → UInt8}
    (agree : ∀ byte < count, source byte = other byte) :
    put mem address count source = put mem address count other := by
  funext location
  simp only [put_apply]
  split_ifs with inside
  · exact agree _ (by omega)
  · rfl

@[simp] theorem put_zero (mem : Memory) (address : Nat) (source : Nat → UInt8) :
    put mem address 0 source = mem := by
  funext location
  simp only [put_apply, Nat.add_zero]
  rw [if_neg (by omega)]

/-- Two runs side by side, the second continuing the first's source, are one run. -/
theorem put_put_adjacent (mem : Memory) (address first second : Nat) (source : Nat → UInt8) :
    put (put mem address first source) (address + first) second
        (fun byte => source (first + byte)) =
      put mem address (first + second) source := by
  funext location
  simp only [put_apply]
  by_cases high : address + first ≤ location ∧ location < address + first + second
  · rw [if_pos high, if_pos (by omega)]
    congr 1
    omega
  · rw [if_neg high]
    by_cases low : address ≤ location ∧ location < address + first
    · rw [if_pos low, if_pos (by omega)]
    · rw [if_neg low, if_neg (by omega)]

end Memory

end FreeCore
