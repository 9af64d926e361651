import FreeCore.Memory
import Mathlib.Data.Nat.Digits

/-! # `int_to_string`

`int_to_string` of `config.h` builds the number downward in its 65-byte `tmp` from the NUL at
`tmp[64]`, with nothing bounding `tmp_ptr` below: the stack around `tmp` is indexed from
`tmp[0]`, so a write below `tmp` lands at a negative index. -/

namespace FreeCore.Printf

/-- `digits[d]` of `"0123456789ABCDEF"`. -/
def digitChar (d : Nat) : UInt8 := if d < 10 then UInt8.ofNat (48 + d) else UInt8.ofNat (55 + d)

/-- The conversion in progress: the bytes of the stack by their index from `tmp[0]` (index
`-1` is the byte just below `tmp`), `tmp_ptr - tmp`, and `len`. -/
structure Scratch where
  stack : Int → UInt8
  ptr : Int
  len : Int

namespace Scratch

/-- `*tmp_ptr = '\0'; tmp_ptr--;` on `tmp_ptr = tmp + sizeof(tmp) - 1`, with `len = 0`. -/
def start (stack : Int → UInt8) : Scratch :=
  ⟨fun index => if index = 64 then 0 else stack index, 63, 0⟩

/-- `*tmp_ptr = c; tmp_ptr--; len++;`. -/
def push (s : Scratch) (c : UInt8) : Scratch :=
  ⟨fun index => if index = s.ptr then c else s.stack index, s.ptr - 1, s.len + 1⟩

@[simp] theorem push_ptr (s : Scratch) (c : UInt8) : (s.push c).ptr = s.ptr - 1 := rfl

@[simp] theorem push_len (s : Scratch) (c : UInt8) : (s.push c).len = s.len + 1 := rfl

end Scratch

open Scratch

/-- `while (value > 0) { *tmp_ptr = digits[value % base]; value /= base; tmp_ptr--; len++; }`,
with `fuel` iterations left. -/
def digitLoop (base : Nat) : (fuel value : Nat) → Scratch → Scratch
  | 0, _, s => s
  | fuel + 1, value, s =>
      if 0 < value then digitLoop base fuel (value / base) (s.push (digitChar (value % base)))
      else s

/-- `while (len < width) { *tmp_ptr = pad_char; tmp_ptr--; len++; }`, with `fuel` iterations
left. -/
def padLoop (width : Int) (padChar : UInt8) : (fuel : Nat) → Scratch → Scratch
  | 0, s => s
  | fuel + 1, s => if s.len < width then padLoop width padChar fuel (s.push padChar) else s

/-- `while (*tmp_ptr && out_len < size - 1) buf[out_len++] = *tmp_ptr++;`, with
`fuel = size - 1 - out_len`: `out_len` and `buf`. -/
def copyOut (stack : Int → UInt8) : (fuel : Nat) → (ptr : Int) → (outLen : Nat) → Memory →
    Nat × Memory
  | 0, _, outLen, buf => (outLen, buf)
  | fuel + 1, ptr, outLen, buf =>
      if stack ptr = 0 then (outLen, buf)
      else copyOut stack fuel (ptr + 1) (outLen + 1) (Function.update buf outLen (stack ptr))

/-- `is_signed && signed_value < 0`, with `signed_value = (int64_t)value`. -/
def negative (value : Nat) (isSigned : Bool) : Bool := isSigned && decide (2 ^ 63 ≤ value)

/-- `value` after the sign step: `-signed_value` for a negative value, else `value`. -/
def magnitude (value : Nat) (isSigned : Bool) : Nat :=
  if negative value isSigned then 2 ^ 64 - value else value

/-- The scratch once the digits of `value` are written: a lone `0` for zero. -/
def digitsWritten (value base : Nat) (stack : Int → UInt8) : Scratch :=
  if value = 0 then (start stack).push 48 else digitLoop base value value (start stack)

/-- The scratch once the digits and the sign are written. -/
def number (value base : Nat) (isSigned : Bool) (stack : Int → UInt8) : Scratch :=
  if negative value isSigned then (digitsWritten (magnitude value isSigned) base stack).push 45
  else digitsWritten (magnitude value isSigned) base stack

/-- `int_to_string(value, base, is_signed, width, pad_char, buf, size)` for a 64-bit `value`,
on the stack `stack` around its `tmp`: the count it returns, `buf`, and the stack after the
call. The padding loop runs at most `width` times. -/
def intToString (value : Nat) (base : Int) (isSigned : Bool) (width : Int) (padChar : UInt8)
    (buf : Memory) (size : Nat) (stack : Int → UInt8) : Nat × Memory × (Int → UInt8) :=
  if base < 2 ∨ 16 < base then (0, buf, stack)
  else if size = 0 then (0, buf, stack)
  else
    let s := padLoop width padChar width.toNat (number value base.toNat isSigned stack)
    let (outLen, buf) := copyOut s.stack (size - 1) (s.ptr + 1) 0 buf
    (outLen, Function.update buf outLen 0, s.stack)

/-! ## Where the conversion writes -/

/-- `later` continues `s` downward: it has written only between its own `tmp_ptr` and that of
`s`, and kept `tmp_ptr + len`. -/
structure Continues (s later : Scratch) : Prop where
  sum : later.ptr + later.len = s.ptr + s.len
  le : later.ptr ≤ s.ptr
  frame : ∀ index, index ≤ later.ptr ∨ s.ptr < index → later.stack index = s.stack index

theorem Continues.refl (s : Scratch) : Continues s s :=
  ⟨rfl, le_rfl, fun _ _ => rfl⟩

theorem Continues.trans {s middle later : Scratch} (first : Continues s middle)
    (second : Continues middle later) : Continues s later where
  sum := second.sum.trans first.sum
  le := second.le.trans first.le
  frame index outside := by
    rw [second.frame index (outside.imp_right fun above => first.le.trans_lt above),
      first.frame index (outside.imp_left fun below => below.trans second.le)]

theorem continues_push (s : Scratch) (c : UInt8) : Continues s (s.push c) where
  sum := by simp only [push_ptr, push_len]; omega
  le := by simp only [push_ptr]; omega
  frame index outside := by
    have : index ≠ s.ptr := by simp only [push_ptr] at outside; omega
    simp [push, this]

theorem continues_digitLoop (base : Nat) :
    ∀ fuel value s, Continues s (digitLoop base fuel value s)
  | 0, _, s => .refl s
  | fuel + 1, value, s => by
    rw [digitLoop]
    split
    · exact (continues_push s _).trans (continues_digitLoop base fuel _ _)
    · exact .refl s

theorem continues_padLoop (width : Int) (padChar : UInt8) :
    ∀ fuel s, Continues s (padLoop width padChar fuel s)
  | 0, s => .refl s
  | fuel + 1, s => by
    rw [padLoop]
    split
    · exact (continues_push s _).trans (continues_padLoop width padChar fuel _)
    · exact .refl s

/-- With `value` iterations to spare, the digit loop writes one byte per base-`base` digit. -/
theorem digitLoop_len {base : Nat} (large : 2 ≤ base) :
    ∀ fuel value s, value ≤ fuel →
      (digitLoop base fuel value s).len = s.len + (Nat.digits base value).length
  | 0, value, s, enough => by
    rw [Nat.le_zero.mp enough]
    simp [digitLoop]
  | fuel + 1, value, s, enough => by
    rw [digitLoop]
    split
    · rename_i positive
      have shrinks : value / base < value := Nat.div_lt_self positive large
      rw [digitLoop_len large fuel _ _ (by omega), Nat.digits_def' large positive]
      simp only [push_len, List.length_cons]
      omega
    · rename_i zero
      rw [Nat.eq_zero_of_not_pos zero]
      simp

/-- The padding loop, run `width` times at most, pads `len` up to `width`. -/
theorem padLoop_len (width : Int) (padChar : UInt8) :
    ∀ (fuel : Nat) s, width - s.len ≤ fuel → (padLoop width padChar fuel s).len = max s.len width
  | 0, s, enough => by simp only [padLoop]; omega
  | fuel + 1, s, enough => by
    rw [padLoop]
    split
    · rw [padLoop_len width padChar fuel _ (by simp only [push_len]; omega)]
      simp only [push_len]
      omega
    · omega

/-- Every byte the padding loop writes is `pad_char`. -/
theorem padLoop_stack (width : Int) (padChar : UInt8) :
    ∀ fuel s index, (padLoop width padChar fuel s).ptr < index → index ≤ s.ptr →
      (padLoop width padChar fuel s).stack index = padChar
  | 0, s, index, above, below => by simp only [padLoop] at above; omega
  | fuel + 1, s, index, above, below => by
    by_cases short : s.len < width
    · rw [padLoop, if_pos short] at above ⊢
      by_cases top : index = s.ptr
      · rw [(continues_padLoop width padChar fuel _).frame index (.inr (by simp; omega))]
        simp [push, top]
      · exact padLoop_stack width padChar fuel _ index above (by simp; omega)
    · rw [padLoop, if_neg short] at above
      omega

/-- The bytes `int_to_string` writes before the padding: the base-`base` digits of the
magnitude, at least one, and a `-` for a negative signed value. -/
def numberLength (value base : Nat) (isSigned : Bool) : Nat :=
  max 1 (Nat.digits base (magnitude value isSigned)).length +
    if negative value isSigned then 1 else 0

theorem digitsWritten_continues (value base : Nat) (stack : Int → UInt8) :
    Continues (start stack) (digitsWritten value base stack) := by
  unfold digitsWritten
  split
  · exact continues_push _ _
  · exact continues_digitLoop _ _ _ _

theorem number_continues (value base : Nat) (isSigned : Bool) (stack : Int → UInt8) :
    Continues (start stack) (number value base isSigned stack) := by
  unfold number
  split
  · exact (digitsWritten_continues _ _ _).trans (continues_push _ _)
  · exact digitsWritten_continues _ _ _

theorem digitsWritten_len (value : Nat) {base : Nat} (large : 2 ≤ base) (stack : Int → UInt8) :
    (digitsWritten value base stack).len = max 1 (Nat.digits base value).length := by
  unfold digitsWritten
  split
  · rename_i zero
    simp [start, zero]
  · rename_i nonzero
    rw [digitLoop_len large _ _ _ le_rfl]
    have := List.length_pos.mpr (@Nat.digits_ne_nil_iff_ne_zero base value |>.mpr nonzero)
    simp only [start]
    omega

theorem number_len (value : Nat) {base : Nat} (large : 2 ≤ base) (isSigned : Bool)
    (stack : Int → UInt8) : (number value base isSigned stack).len = numberLength value base isSigned := by
  have digits := digitsWritten_len (magnitude value isSigned) large stack
  unfold number numberLength
  cases negative value isSigned
  · rw [if_neg Bool.false_ne_true, digits, if_neg Bool.false_ne_true]
    omega
  · rw [if_pos rfl, push_len, digits, if_pos rfl]
    omega

/-- `int_to_string` with a base in `[2, 16]` and a nonzero `size` leaves the stack as it was
outside `tmp[64 - max(len, width)]` to `tmp[64]`, where `len` is `numberLength`; it writes the
NUL at `tmp[64]` and `pad_char` over `tmp[64 - width]` to `tmp[63 - len]`. -/
theorem intToString_stack (value : Nat) {base : Int} (low : 2 ≤ base) (high : base ≤ 16)
    (isSigned : Bool) (width : Int) (padChar : UInt8) (buf : Memory) {size : Nat}
    (positive : 0 < size) (stack : Int → UInt8) :
    (∀ index, index < 64 - max (numberLength value base.toNat isSigned : Int) width ∨ 64 < index →
      (intToString value base isSigned width padChar buf size stack).2.2 index = stack index) ∧
    (intToString value base isSigned width padChar buf size stack).2.2 64 = 0 ∧
    ∀ index, 64 - width ≤ index → index < 64 - (numberLength value base.toNat isSigned : Int) →
      (intToString value base isSigned width padChar buf size stack).2.2 index = padChar := by
  have large : 2 ≤ base.toNat := by omega
  have inRange : ¬(base < 2 ∨ 16 < base) := by omega
  simp only [intToString, if_neg inRange, if_neg (Nat.pos_iff_ne_zero.mp positive)]
  have started := number_continues value base.toNat isSigned stack
  have numbered := number_len value large isSigned stack
  have padded := continues_padLoop width padChar width.toNat (number value base.toNat isSigned stack)
  have padLength := padLoop_len width padChar width.toNat (number value base.toNat isSigned stack)
    (by rw [numbered]; omega)
  have whole := started.trans padded
  have top : (start stack).ptr = 63 := rfl
  have count : (start stack).len = 0 := rfl
  refine ⟨fun index outside => ?_, ?_, fun index above below => ?_⟩
  · rw [whole.frame index (by have := whole.sum; omega)]
    simp only [start]
    rw [if_neg (by omega)]
  · rw [whole.frame 64 (.inr (by rw [top]; decide))]
    rfl
  · exact padLoop_stack width padChar width.toNat _ index
      (by have := whole.sum; omega) (by have := started.sum; omega)

theorem magnitude_lt {value : Nat} (small : value < 2 ^ 64) (isSigned : Bool) :
    magnitude value isSigned < 2 ^ 64 := by
  unfold magnitude
  split
  · rename_i sign
    simp only [negative, Bool.and_eq_true, decide_eq_true_eq] at sign
    omega
  · exact small

/-- A 64-bit value has at most 20 digits in a base of at least 10, so with its sign
`int_to_string` writes at most 21 bytes before the padding. -/
theorem numberLength_le {value : Nat} (small : value < 2 ^ 64) {base : Nat} (large : 10 ≤ base)
    (isSigned : Bool) : numberLength value base isSigned ≤ 21 := by
  have digits : (Nat.digits base (magnitude value isSigned)).length ≤ 20 := by
    by_cases zero : magnitude value isSigned = 0
    · simp [zero]
    rw [Nat.digits_len base _ (by omega) zero, Nat.succ_le_iff,
      ← Nat.lt_pow_iff_log_lt (by omega) zero]
    calc magnitude value isSigned < 2 ^ 64 := magnitude_lt small isSigned
      _ < 10 ^ 20 := by decide
      _ ≤ base ^ 20 := Nat.pow_le_pow_left large 20
  unfold numberLength
  split <;> omega

end FreeCore.Printf
