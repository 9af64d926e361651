import FreeCore.Ext4.Kernel

/-! # The byte functions of `minstd.c`

`memcpy`, `memmove`, `memset` and `strcmp` as the loops `minstd.c` runs; the copies have the
effect of the one write the kernel model takes them as (`kernel_copies_are_the_loops`). -/

namespace FreeCore.Lib

/-! ## The loops -/

/-- `for (i = …; i < n; i++) pdest[i] = psrc[i];` from index `i` with `count` iterations left. -/
def copyForward (dest src : Nat) : (i count : Nat) → Memory → Memory
  | _, 0, mem => mem
  | i, count + 1, mem =>
      copyForward dest src (i + 1) count (Function.update mem (dest + i) (mem (src + i)))

/-- `for (i = n; i > 0; i--) pdest[i-1] = psrc[i-1];` with `i` iterations left. -/
def copyBackward (dest src : Nat) : (i : Nat) → Memory → Memory
  | 0, mem => mem
  | i + 1, mem => copyBackward dest src i (Function.update mem (dest + i) (mem (src + i)))

/-- `for (i = …; i < n; i++) p[i] = value;` from index `i` with `count` iterations left. -/
def fillForward (s : Nat) (value : UInt8) : (i count : Nat) → Memory → Memory
  | _, 0, mem => mem
  | i, count + 1, mem => fillForward s value (i + 1) count (Function.update mem (s + i) value)

/-! ## The functions -/

/-- `memmove(dest, src, n)`: nothing for a `NULL` pointer, `n == 0` or `dest == src`;
otherwise a forward copy when `src > dest` and a backward copy when `src < dest`. -/
def memmove (mem : Memory) (dest src n : Nat) : Memory :=
  if dest = 0 ∨ src = 0 then mem
  else if n = 0 then mem
  else if dest = src then mem
  else if dest < src then copyForward dest src 0 n mem
  else copyBackward dest src n mem

/-- `memcpy(dest, src, n)`: `memmove` when either range starts inside the other, a forward copy
otherwise. -/
def memcpy (mem : Memory) (dest src n : Nat) : Memory :=
  if dest = 0 ∨ src = 0 then mem
  else if n = 0 then mem
  else if dest ≤ src ∧ src < dest + n then memmove mem dest src n
  else if src ≤ dest ∧ dest < src + n then memmove mem dest src n
  else copyForward dest src 0 n mem

/-- `memset(s, c, n)`, with `value` the byte `(uint8_t)c`. -/
def memset (mem : Memory) (s : Nat) (value : UInt8) (n : Nat) : Memory :=
  if s = 0 then mem
  else if n = 0 then mem
  else fillForward s value 0 n mem

/-- The loop of `strcmp` on the bytes from each pointer: the difference of the first bytes that
differ or are NUL, a byte past the end of a list reading as NUL. -/
def strcmpLoop : List UInt8 → List UInt8 → Int
  | a :: s1, b :: s2 =>
      if a ≠ 0 ∧ b ≠ 0 then (if a ≠ b then (a.toNat : Int) - b.toNat else strcmpLoop s1 s2)
      else (a.toNat : Int) - b.toNat
  | s1, s2 => ((s1.headD 0).toNat : Int) - (s2.headD 0).toNat

/-- `strcmp(s1, s2)`, a string being `NULL` or its bytes: `0` when either is `NULL`. -/
def strcmp : Option (List UInt8) → Option (List UInt8) → Int
  | some s1, some s2 => strcmpLoop s1 s2
  | _, _ => 0

/-! ## Copies -/

/-- The forward loop copies every byte before it is overwritten unless the destination starts
inside the source, past its first byte. -/
theorem copyForward_eq_put (dest src : Nat) :
    ∀ (i count : Nat) (mem : Memory), ¬(src < dest ∧ dest < src + (i + count)) →
      copyForward dest src i count mem =
        mem.put (dest + i) count fun index => mem (src + i + index)
  | i, 0, mem, _ => (Memory.put_zero mem (dest + i) _).symm
  | i, count + 1, mem, apart => by
      rw [copyForward, copyForward_eq_put dest src (i + 1) count _ (by omega)]
      funext location
      simp only [Memory.put, Function.update_apply]
      by_cases inside : dest + (i + 1) ≤ location ∧ location < dest + (i + 1) + count
      · have read : src + (i + 1) + (location - (dest + (i + 1))) ≠ dest + i := by omega
        rw [if_pos inside, if_neg read, if_pos (by omega)]
        congr 1
        omega
      · rw [if_neg inside]
        split
        · rename_i written
          rw [if_pos (by omega), written]
          congr 1
          omega
        · rw [if_neg (by omega)]

/-- The backward loop copies every byte before it is overwritten unless the source starts inside
the destination, past its first byte. -/
theorem copyBackward_eq_put (dest src : Nat) :
    ∀ (count : Nat) (mem : Memory), ¬(dest < src ∧ src < dest + count) →
      copyBackward dest src count mem = mem.put dest count fun index => mem (src + index)
  | 0, mem, _ => (Memory.put_zero mem dest _).symm
  | count + 1, mem, apart => by
      rw [copyBackward, copyBackward_eq_put dest src count _ (by omega)]
      funext location
      simp only [Memory.put, Function.update_apply]
      by_cases inside : dest ≤ location ∧ location < dest + count
      · have read : src + (location - dest) ≠ dest + count := by omega
        rw [if_pos inside, if_neg read, if_pos (by omega)]
      · rw [if_neg inside]
        split
        · rename_i written
          rw [if_pos (by omega), written]
          congr 1
          omega
        · rw [if_neg (by omega)]

/-- `memmove` leaves at `dest` the `n` bytes `src` held before the call, and nothing else
changes, whether or not the ranges overlap. -/
theorem memmove_eq_put (mem : Memory) {dest src : Nat} (dest_ne : dest ≠ 0) (src_ne : src ≠ 0)
    (n : Nat) : memmove mem dest src n = mem.put dest n fun index => mem (src + index) := by
  unfold memmove
  rw [if_neg (by omega)]
  split
  · subst n
    exact (Memory.put_zero mem dest _).symm
  split
  · subst src
    funext location
    simp only [Memory.put]
    split
    · congr 1
      omega
    · rfl
  split
  · simpa using copyForward_eq_put dest src 0 n mem (by omega)
  · exact copyBackward_eq_put dest src n mem (by omega)

theorem memcpy_eq_put (mem : Memory) {dest src : Nat} (dest_ne : dest ≠ 0) (src_ne : src ≠ 0)
    (n : Nat) : memcpy mem dest src n = mem.put dest n fun index => mem (src + index) := by
  unfold memcpy
  rw [if_neg (by omega)]
  split
  · subst n
    exact (Memory.put_zero mem dest _).symm
  split
  · exact memmove_eq_put mem dest_ne src_ne n
  split
  · exact memmove_eq_put mem dest_ne src_ne n
  · simpa using copyForward_eq_put dest src 0 n mem (by omega)

theorem fillForward_eq_put (s : Nat) (value : UInt8) :
    ∀ (i count : Nat) (mem : Memory),
      fillForward s value i count mem = mem.put (s + i) count fun _ => value
  | i, 0, mem => (Memory.put_zero mem (s + i) _).symm
  | i, count + 1, mem => by
      rw [fillForward, fillForward_eq_put s value (i + 1) count]
      funext location
      simp only [Memory.put, Function.update_apply]
      split
      · rw [if_pos (by omega)]
      · split
        · rw [if_pos (by omega)]
        · rw [if_neg (by omega)]

theorem memset_eq_put (mem : Memory) {s : Nat} (s_ne : s ≠ 0) (value : UInt8) (n : Nat) :
    memset mem s value n = mem.put s n fun _ => value := by
  unfold memset
  rw [if_neg s_ne]
  split
  · subst n
    exact (Memory.put_zero mem s _).symm
  · simpa using fillForward_eq_put s value 0 n mem

/-- The EXT4 model's `memcpy` and `memset` are the loops of `minstd.c` on the heap's memory:
`memcpy` for every two non-`NULL` ranges, overlapping or not. -/
theorem kernel_copies_are_the_loops (heap : Heap) {dest src : Nat} (dest_ne : dest ≠ 0)
    (src_ne : src ≠ 0) (n : Nat) (value : UInt8) :
    (Ext4.Kernel.memcpy dest src n).run heap = .ok ((), { heap with mem := memcpy heap.mem dest src n }) ∧
      (Ext4.Kernel.memset dest value n).run heap =
        .ok ((), { heap with mem := memset heap.mem dest value n }) := by
  rw [memcpy_eq_put heap.mem dest_ne src_ne, memset_eq_put heap.mem dest_ne]
  exact ⟨rfl, rfl⟩

/-- An overlapping copy one byte up: `memcpy` falls back to `memmove`, which copies backward. -/
theorem kernel_copies_are_the_loops_overlapping :
    (1 : Nat) ≠ 0 ∧ (2 : Nat) ≠ 0 ∧
      (Ext4.Kernel.memcpy 2 1 3).run (Heap.uninitialized fun a => a.toUInt8) =
        .ok ((), { Heap.uninitialized (fun a => a.toUInt8) with
          mem := memcpy (fun a => a.toUInt8) 2 1 3 }) ∧
      (Ext4.Kernel.memset 2 7 3).run (Heap.uninitialized fun a => a.toUInt8) =
        .ok ((), { Heap.uninitialized (fun a => a.toUInt8) with
          mem := memset (fun a => a.toUInt8) 2 7 3 }) :=
  ⟨by decide, by decide, kernel_copies_are_the_loops _ (by decide) (by decide) 3 7⟩

/-! ## Comparisons -/

theorem toNat_pos_of_ne_zero {b : UInt8} (ne : b ≠ 0) : 0 < b.toNat :=
  Nat.pos_of_ne_zero fun zero => ne (UInt8.toNat.inj (zero.trans (by rfl)))

/-- On strings with no NUL, `strcmp` is `0` exactly when they are equal. -/
theorem strcmpLoop_eq_zero_iff :
    ∀ (s1 s2 : List UInt8), (0 : UInt8) ∉ s1 → (0 : UInt8) ∉ s2 →
      (strcmpLoop s1 s2 = 0 ↔ s1 = s2)
  | [], [], _, _ => by simp [strcmpLoop]
  | [], b :: s2, _, no2 => by
      have := toNat_pos_of_ne_zero fun zero => no2 (zero ▸ List.mem_cons_self _ _)
      simp [strcmpLoop]
      omega
  | a :: s1, [], no1, _ => by
      have := toNat_pos_of_ne_zero fun zero => no1 (zero ▸ List.mem_cons_self _ _)
      simp [strcmpLoop]
      omega
  | a :: s1, b :: s2, no1, no2 => by
      have a_ne : a ≠ 0 := fun zero => no1 (zero ▸ List.mem_cons_self _ _)
      have b_ne : b ≠ 0 := fun zero => no2 (zero ▸ List.mem_cons_self _ _)
      rw [strcmpLoop, if_pos ⟨a_ne, b_ne⟩]
      by_cases same : a = b
      · subst same
        simp only [ne_eq, not_true_eq_false, if_false, List.cons.injEq, true_and]
        exact strcmpLoop_eq_zero_iff s1 s2 (fun m => no1 (List.mem_cons_of_mem _ m))
          (fun m => no2 (List.mem_cons_of_mem _ m))
      · have : a.toNat ≠ b.toNat := fun eq => same (UInt8.toNat.inj eq)
        simp only [ne_eq, same, not_false_eq_true, if_true, List.cons.injEq, false_and,
          iff_false]
        omega

/-- A string compares equal to the bytes it was copied from, up to their first NUL. -/
theorem strcmpLoop_takeWhile : ∀ s : List UInt8, strcmpLoop (s.takeWhile (· ≠ 0)) s = 0
  | [] => rfl
  | a :: s => by
      by_cases nul : a = 0
      · subst nul
        rfl
      · simp only [List.takeWhile_cons, nul, ne_eq, not_false_eq_true, decide_True, strcmpLoop,
          and_self, if_true, not_true_eq_false, if_false]
        exact strcmpLoop_takeWhile s

end FreeCore.Lib
