import FreeCore.Printf.Kvsnprintf

/-! # The text `int_to_string` writes

`numberText` is the padding, the sign and the digits `int_to_string` leaves in `tmp`; while it
fits `tmp`, `buf` receives its first `size - 1` bytes, and `kvsnprintf` its first 23. -/

namespace FreeCore.Printf

open Scratch

/-- The `count` bytes of the stack upward from index `start`. -/
def readUp (stack : Int → UInt8) (start : Int) : Nat → List UInt8
  | 0 => []
  | count + 1 => stack start :: readUp stack (start + 1) count

@[simp] theorem length_readUp (stack : Int → UInt8) (start : Int) (count : Nat) :
    (readUp stack start count).length = count := by
  induction count generalizing start <;> simp [readUp, *]

theorem readUp_add (stack : Int → UInt8) (start : Int) (m n : Nat) :
    readUp stack start (m + n) = readUp stack start m ++ readUp stack (start + m) n := by
  induction m generalizing start with
  | zero => simp [readUp]
  | succ m induction =>
      have shifted : start + 1 + (m : Int) = start + ((m + 1 : Nat) : Int) := by omega
      rw [Nat.succ_add, readUp, readUp, induction, List.cons_append, shifted]

theorem readUp_congr {stack other : Int → UInt8} {start : Int} {count : Nat}
    (agree : ∀ index, start ≤ index → index < start + count → stack index = other index) :
    readUp stack start count = readUp other start count := by
  induction count generalizing start with
  | zero => rfl
  | succ count induction =>
      rw [readUp, readUp, agree start le_rfl (by omega),
        induction fun index above below => agree index (by omega) (by omega)]

theorem readUp_fun_const (c : UInt8) (start : Int) (count : Nat) :
    readUp (fun _ => c) start count = List.replicate count c := by
  induction count generalizing start with
  | zero => rfl
  | succ count induction => rw [readUp, induction, List.replicate_succ]

theorem readUp_const {stack : Int → UInt8} {start : Int} {count : Nat} {c : UInt8}
    (all : ∀ index, start ≤ index → index < start + count → stack index = c) :
    readUp stack start count = List.replicate count c :=
  (readUp_congr all).trans (readUp_fun_const c start count)

/-- The digits of `value` in base `base`, most significant first; a lone `0` for zero. -/
def digitText (value base : Nat) : List UInt8 :=
  if value = 0 then [48] else (Nat.digits base value).reverse.map digitChar

/-- The text `int_to_string` builds in `tmp`: `pad_char` up to `width`, a `-` for a negative
signed value, and the digits of the magnitude. -/
def numberText (value base : Nat) (isSigned : Bool) (width : Int) (padChar : UInt8) :
    List UInt8 :=
  List.replicate (width.toNat - numberLength value base isSigned) padChar ++
    ((if negative value isSigned then [45] else []) ++ digitText (magnitude value isSigned) base)

theorem digitChar_ne_zero {d : Nat} (small : d < 16) : digitChar d ≠ 0 := by
  interval_cases d <;> decide

/-- The digit loop writes the digits of `value` below `tmp_ptr`, the least significant on top. -/
theorem digitLoop_text {base : Nat} (large : 2 ≤ base) :
    ∀ fuel value s, value ≤ fuel →
      readUp (digitLoop base fuel value s).stack ((digitLoop base fuel value s).ptr + 1)
        (Nat.digits base value).length = (Nat.digits base value).reverse.map digitChar
  | 0, value, s, enough => by
    rw [Nat.le_zero.mp enough, Nat.digits_zero]
    rfl
  | fuel + 1, value, s, enough => by
    by_cases positive : 0 < value
    · have shrinks : value / base < value := Nat.div_lt_self positive large
      have continues := continues_digitLoop base fuel (value / base) (s.push (digitChar (value % base)))
      have length := digitLoop_len large fuel (value / base) (s.push (digitChar (value % base)))
        (by omega)
      rw [digitLoop, if_pos positive, Nat.digits_def' large positive, List.length_cons, readUp_add,
        digitLoop_text large fuel _ _ (by omega), List.reverse_cons, List.map_append]
      congr 1
      have top : (digitLoop base fuel (value / base) (s.push (digitChar (value % base)))).ptr + 1 +
          ((Nat.digits base (value / base)).length : Int) = s.ptr := by
        have := continues.sum
        simp only [push_ptr, push_len] at this length
        omega
      rw [top, readUp, readUp, continues.frame s.ptr (.inr (by simp))]
      simp [push]
    · rw [Nat.eq_zero_of_not_pos positive, Nat.digits_zero]
      rfl

theorem digitsWritten_text (value : Nat) {base : Nat} (large : 2 ≤ base) (stack : Int → UInt8) :
    readUp (digitsWritten value base stack).stack ((digitsWritten value base stack).ptr + 1)
      (max 1 (Nat.digits base value).length) = digitText value base := by
  unfold digitsWritten digitText
  split
  · rename_i zero
    simp [zero, readUp, start, push]
  · rename_i nonzero
    have := List.length_pos.mpr (@Nat.digits_ne_nil_iff_ne_zero base value |>.mpr nonzero)
    rw [max_eq_right (by omega)]
    exact digitLoop_text large _ _ _ le_rfl

theorem number_text (value : Nat) {base : Nat} (large : 2 ≤ base) (isSigned : Bool)
    (stack : Int → UInt8) :
    readUp (number value base isSigned stack).stack ((number value base isSigned stack).ptr + 1)
      (numberLength value base isSigned) =
      (if negative value isSigned then [45] else []) ++ digitText (magnitude value isSigned) base := by
  have digits := digitsWritten_text (magnitude value isSigned) large stack
  unfold number numberLength
  cases negative value isSigned
  · simpa using digits
  · rw [if_pos rfl, if_pos rfl, if_pos rfl, push_ptr, sub_add_cancel, readUp,
      List.singleton_append,
      readUp_congr fun index above _ => (continues_push _ 45).frame index (.inr (by omega))]
    simp [push, digits]

/-- What the copy loop leaves: from `ptr`, the text up to the NUL after it, at most `fuel` bytes of
it, written into `buf` from `outLen`. -/
theorem copyOut_text (stack : Int → UInt8) :
    ∀ (text : List UInt8) (fuel : Nat) (ptr : Int) (outLen : Nat) (buf : Memory), 0 ∉ text →
      readUp stack ptr text.length = text → stack (ptr + text.length) = 0 →
      (copyOut stack fuel ptr outLen buf).1 = outLen + min fuel text.length ∧
      ∀ i, (copyOut stack fuel ptr outLen buf).2 i =
        if outLen ≤ i ∧ i < outLen + min fuel text.length then text.getD (i - outLen) 0 else buf i
  | _, 0, _, outLen, buf, _, _, _ => by
    simp only [copyOut, Nat.zero_min, add_zero]
    exact ⟨trivial, fun i => (if_neg (by omega)).symm⟩
  | [], fuel + 1, ptr, outLen, buf, _, _, terminated => by
    simp only [List.length_nil, Nat.cast_zero, add_zero] at terminated
    simp only [copyOut, terminated, if_true, List.length_nil, Nat.min_zero, add_zero]
    exact ⟨trivial, fun i => (if_neg (by omega)).symm⟩
  | c :: rest, fuel + 1, ptr, outLen, buf, nonzero, text, terminated => by
    simp only [readUp, List.length_cons, List.cons.injEq] at text
    have present : stack ptr ≠ 0 := by rw [text.1]; exact fun zero => nonzero (zero ▸ List.mem_cons_self _ _)
    have later := copyOut_text stack rest fuel (ptr + 1) (outLen + 1) (Function.update buf outLen c)
      (fun mem => nonzero (List.mem_cons_of_mem _ mem)) text.2
      (by rw [← terminated]; simp only [List.length_cons, Nat.cast_succ]; congr 1; omega)
    rw [copyOut, if_neg present, text.1]
    refine ⟨by rw [later.1]; simp only [List.length_cons]; omega, fun i => ?_⟩
    rw [later.2]
    by_cases first : i = outLen
    · subst first
      rw [if_neg (by omega), Function.update_same, if_pos (by simp only [List.length_cons]; omega),
        Nat.sub_self]
      rfl
    · by_cases inside : outLen + 1 ≤ i ∧ i < outLen + 1 + min fuel rest.length
      · rw [if_pos inside, if_pos (by simp only [List.length_cons]; omega)]
        obtain ⟨k, rfl⟩ : ∃ k, i = outLen + 1 + k := ⟨i - (outLen + 1), by omega⟩
        rw [show outLen + 1 + k - (outLen + 1) = k by omega,
          show outLen + 1 + k - outLen = k + 1 by omega]
        rfl
      · rw [if_neg inside, if_neg (by simp only [List.length_cons]; omega),
          Function.update_noteq first]

theorem length_digitText (value base : Nat) :
    (digitText value base).length = max 1 (Nat.digits base value).length := by
  unfold digitText
  split
  · rename_i zero
    simp [zero]
  · rename_i nonzero
    have := List.length_pos.mpr (@Nat.digits_ne_nil_iff_ne_zero base value |>.mpr nonzero)
    simp only [List.length_map, List.length_reverse]
    omega

theorem length_numberText (value base : Nat) (isSigned : Bool) (width : Int) (padChar : UInt8) :
    (numberText value base isSigned width padChar).length =
      width.toNat - numberLength value base isSigned + numberLength value base isSigned := by
  rw [numberText, List.length_append, List.length_append, List.length_replicate, length_digitText,
    numberLength]
  split <;> simp only [List.length_singleton, List.length_nil] <;> omega

theorem zero_not_mem_numberText (value : Nat) {base : Nat} (large : 2 ≤ base) (small : base ≤ 16)
    (isSigned : Bool) (width : Int) {padChar : UInt8} (padNonzero : padChar ≠ 0) :
    0 ∉ numberText value base isSigned width padChar := by
  unfold numberText digitText
  simp only [List.mem_append, List.mem_replicate, not_or]
  refine ⟨fun padded => padNonzero padded.2.symm, by split <;> simp, ?_⟩
  split
  · simp
  · simp only [List.mem_map, List.mem_reverse, not_exists, not_and]
    exact fun d digit => digitChar_ne_zero (lt_of_lt_of_le (Nat.digits_lt_base large digit) small)

/-- After the padding, the scratch holds `numberText` upward from `tmp_ptr + 1`, and then the NUL
at `tmp[64]`. -/
theorem padded_text (value : Nat) {base : Nat} (large : 2 ≤ base) (isSigned : Bool) (width : Int)
    (padChar : UInt8) (stack : Int → UInt8) :
    readUp (padLoop width padChar width.toNat (number value base isSigned stack)).stack
        ((padLoop width padChar width.toNat (number value base isSigned stack)).ptr + 1)
        (numberText value base isSigned width padChar).length =
        numberText value base isSigned width padChar ∧
      (padLoop width padChar width.toNat (number value base isSigned stack)).stack
        ((padLoop width padChar width.toNat (number value base isSigned stack)).ptr + 1 +
          (numberText value base isSigned width padChar).length) = 0 := by
  have numbered := number_len value large isSigned stack
  have numberPtr : (number value base isSigned stack).ptr + 1 = 64 - numberLength value base isSigned := by
    have started : (number value base isSigned stack).ptr + _ = 63 + 0 :=
      (number_continues value base isSigned stack).sum
    omega
  have padded := continues_padLoop width padChar width.toNat (number value base isSigned stack)
  have padLength := padLoop_len width padChar width.toNat (number value base isSigned stack)
    (by rw [numbered]; omega)
  have padBytes := padLoop_stack width padChar width.toNat (number value base isSigned stack)
  have whole := (number_continues value base isSigned stack).trans padded
  generalize padLoop width padChar width.toNat (number value base isSigned stack) = s
    at padded padLength padBytes whole ⊢
  have textStart : s.ptr + 1 = 64 - max (numberLength value base isSigned : Int) width := by
    have := padded.sum
    omega
  have length := length_numberText value base isSigned width padChar
  have ends : s.ptr + 1 + ((numberText value base isSigned width padChar).length : Int) = 64 := by
    omega
  have numberStart : s.ptr + 1 + ((width.toNat - numberLength value base isSigned : Nat) : Int) =
      (number value base isSigned stack).ptr + 1 := by
    omega
  refine ⟨?_, ?_⟩
  · rw [length, readUp_add, numberText]
    congr 1
    · exact readUp_const fun index after before => padBytes index (by omega) (by omega)
    · rw [numberStart, readUp_congr fun index after _ => padded.frame index (.inr (by omega))]
      exact number_text value large isSigned stack
  · rw [whole.frame _ (.inr (by rw [ends]; exact Int.lt_succ 63)), ends]
    rfl

/-- What `int_to_string` returns and the `buf` it leaves, in closed form. -/
theorem intToString_result (value : Nat) {base : Int} (low : 2 ≤ base) (high : base ≤ 16)
    (isSigned : Bool) (width : Int) {padChar : UInt8} (padNonzero : padChar ≠ 0) (buf : Memory)
    {size : Nat} (positive : 0 < size) (stack : Int → UInt8) :
    (intToString value base isSigned width padChar buf size stack).1 =
        min (size - 1) (numberText value base.toNat isSigned width padChar).length ∧
      ∀ i, (intToString value base isSigned width padChar buf size stack).2.1 i =
        if i < min (size - 1) (numberText value base.toNat isSigned width padChar).length then
          (numberText value base.toNat isSigned width padChar).getD i 0
        else if i = min (size - 1) (numberText value base.toNat isSigned width padChar).length
        then 0
        else buf i := by
  have large : 2 ≤ base.toNat := by omega
  have inRange : ¬(base < 2 ∨ 16 < base) := by omega
  simp only [intToString, if_neg inRange, if_neg (Nat.pos_iff_ne_zero.mp positive)]
  obtain ⟨written, terminated⟩ := padded_text value large isSigned width padChar stack
  generalize padLoop width padChar width.toNat (number value base.toNat isSigned stack) = s
    at written terminated ⊢
  obtain ⟨count, bytes⟩ := copyOut_text s.stack _ (size - 1) (s.ptr + 1) 0 buf
    (zero_not_mem_numberText value large (by omega) isSigned width padNonzero) written terminated
  generalize copyOut s.stack (size - 1) (s.ptr + 1) 0 buf = copied at count bytes ⊢
  obtain ⟨outLen, copiedBuf⟩ := copied
  dsimp only at count bytes ⊢
  rw [zero_add] at count
  subst count
  refine ⟨rfl, fun i => ?_⟩
  by_cases atEnd : i = min (size - 1) (numberText value base.toNat isSigned width padChar).length
  · rw [atEnd, Function.update_same, if_neg (Nat.lt_irrefl _), if_pos rfl]
  · rw [Function.update_noteq atEnd, bytes, if_neg atEnd]
    by_cases within : i < min (size - 1) (numberText value base.toNat isSigned width padChar).length
    · rw [if_pos ⟨Nat.zero_le _, by omega⟩, if_pos within, Nat.sub_zero]
    · rw [if_neg (by omega), if_neg within]

/-- `int_to_string` with a base in `[2, 16]`, a nonzero `size`, a nonzero `pad_char` and a text
that fits the 64 bytes of `tmp` before its NUL writes nothing below `tmp`; it returns the length
of the first `size - 1` bytes of `numberText`, writes them into `buf`, terminates them with a
NUL and leaves the rest of `buf`. -/
theorem intToString_text (value : Nat) {base : Int} (low : 2 ≤ base) (high : base ≤ 16)
    (isSigned : Bool) (width : Int) {padChar : UInt8} (padNonzero : padChar ≠ 0)
    (fits : (numberText value base.toNat isSigned width padChar).length ≤ 64) (buf : Memory)
    {size : Nat} (positive : 0 < size) (stack : Int → UInt8) :
    (intToString value base isSigned width padChar buf size stack).1 =
        min (size - 1) (numberText value base.toNat isSigned width padChar).length ∧
      (∀ i < (intToString value base isSigned width padChar buf size stack).1,
        (intToString value base isSigned width padChar buf size stack).2.1 i =
          (numberText value base.toNat isSigned width padChar).getD i 0) ∧
      (intToString value base isSigned width padChar buf size stack).2.1
        (intToString value base isSigned width padChar buf size stack).1 = 0 ∧
      (∀ i, (intToString value base isSigned width padChar buf size stack).1 < i →
        (intToString value base isSigned width padChar buf size stack).2.1 i = buf i) ∧
      ∀ index < 0, (intToString value base isSigned width padChar buf size stack).2.2 index =
        stack index := by
  obtain ⟨count, bytes⟩ :=
    intToString_result value low high isSigned width padNonzero buf positive stack
  have length := length_numberText value base.toNat isSigned width padChar
  refine ⟨count, fun i within => ?_, ?_, fun i past => ?_, fun index below => ?_⟩
  · rw [bytes, if_pos (count ▸ within)]
  · rw [bytes, count, if_neg (Nat.lt_irrefl _), if_pos rfl]
  · rw [bytes, if_neg (by omega), if_neg (by omega)]
  · exact (intToString_stack value low high isSigned width padChar buf positive stack).1 index
      (.inl (by omega))

/-- `-42` as a signed value, at width 5 with `pad_char = '0'`, into a 24-byte buffer. -/
theorem intToString_text_minus_forty_two :
    let result := intToString (2 ^ 64 - 42) 10 true 5 48 (fun _ => 0) 24 (fun _ => 0)
    let text := numberText (2 ^ 64 - 42) 10 true 5 48
    text.length ≤ 64 ∧ result.1 = min 23 text.length ∧
      (∀ i < result.1, result.2.1 i = text.getD i 0) ∧ result.2.1 result.1 = 0 ∧
      (∀ i, result.1 < i → result.2.1 i = 0) ∧ ∀ index < 0, result.2.2 index = 0 :=
  have fits : (numberText (2 ^ 64 - 42) 10 true 5 48).length ≤ 64 := by
    simp [length_numberText, numberLength, negative, magnitude, Nat.digits_add_two_add_one]
  ⟨fits, @intToString_text (2 ^ 64 - 42) 10 (by decide) (by decide) true 5 48 (by decide) fits
    (fun _ => 0) 24 (by decide) (fun _ => 0)⟩

/-- The zeros come before the sign: the buffer holds `00-42`. -/
example : (intToString (2 ^ 64 - 42) 10 true 5 48 (fun _ => 0) 24 (fun _ => 0)).1 = 5 ∧
    (List.range 6).map (intToString (2 ^ 64 - 42) 10 true 5 48 (fun _ => 0) 24 (fun _ => 0)).2.1 =
      [48, 48, 45, 52, 50, 0] := by
  decide

/-! ## The numeric conversions of `kvsnprintf` -/

open PrintState

/-- The copy loop of a numeric conversion: `count` bytes of `tmp` from `j`, while there is room. -/
theorem copyDigits_buf (size : Nat) (tmp : Memory) (j count : Nat) (st : PrintState) :
    (copyDigits size tmp j count st).outIdx = st.outIdx + min count (size - 1 - st.outIdx) ∧
      ∀ i, (copyDigits size tmp j count st).buf i =
        if st.outIdx ≤ i ∧ i < st.outIdx + min count (size - 1 - st.outIdx) then
          tmp (j + (i - st.outIdx))
        else st.buf i := by
  induction count generalizing j st with
  | zero => exact ⟨by rw [copyDigits, Nat.zero_min, add_zero], fun i => (if_neg (by omega)).symm⟩
  | succ count induction =>
    rw [copyDigits]
    split
    · rename_i room
      obtain ⟨count', bytes⟩ := induction (j + 1) (st.write (tmp j))
      simp only [write_outIdx, write_buf] at count' bytes
      have more : min (count + 1) (size - 1 - st.outIdx) =
          min count (size - 1 - (st.outIdx + 1)) + 1 := by omega
      refine ⟨by rw [count', more]; omega, fun i => ?_⟩
      rw [bytes, more]
      by_cases first : i = st.outIdx
      · subst first
        rw [if_neg (by omega), Function.update_same, if_pos (by omega), Nat.sub_self, add_zero]
      · rw [Function.update_noteq first]
        generalize min count (size - 1 - (st.outIdx + 1)) = copied
        by_cases inside : st.outIdx + 1 ≤ i ∧ i < st.outIdx + 1 + copied
        · rw [if_pos inside, if_pos (by omega)]
          congr 1
          omega
        · rw [if_neg inside, if_neg (by omega)]
    · exact ⟨by omega, fun i => (if_neg (by omega)).symm⟩

/-- Every numeric conversion of `kvsnprintf` whose text fits `int_to_string`'s `tmp` writes, from
`out_idx`, the first `min(23, size - 1 - out_idx)` bytes of `numberText`, leaves the rest of
`buf`, and writes nothing below `tmp`. -/
theorem convertNumber_text (size : Nat) (st : PrintState) (value : Nat) {base : Int}
    (low : 2 ≤ base) (high : base ≤ 16) (isSigned : Bool) (width : Int) {padChar : UInt8}
    (padNonzero : padChar ≠ 0)
    (fits : (numberText value base.toNat isSigned width padChar).length ≤ 64) :
    (convertNumber size st value base isSigned width padChar).outIdx = st.outIdx +
        min (min 23 (numberText value base.toNat isSigned width padChar).length)
          (size - 1 - st.outIdx) ∧
      (∀ i, (convertNumber size st value base isSigned width padChar).buf i =
        if st.outIdx ≤ i ∧ i < (convertNumber size st value base isSigned width padChar).outIdx
        then (numberText value base.toNat isSigned width padChar).getD (i - st.outIdx) 0
        else st.buf i) ∧
      ∀ index < 0, (convertNumber size st value base isSigned width padChar).stack index =
        st.stack index := by
  obtain ⟨count, bytes⟩ :=
    intToString_result value low high isSigned width padNonzero st.tmp (show 0 < 24 by decide) st.stack
  obtain ⟨copied, copiedBytes⟩ := copyDigits_buf size
    (intToString value base isSigned width padChar st.tmp 24 st.stack).2.1 0
    (intToString value base isSigned width padChar st.tmp 24 st.stack).1
    { st with tmp := (intToString value base isSigned width padChar st.tmp 24 st.stack).2.1,
              stack := (intToString value base isSigned width padChar st.tmp 24 st.stack).2.2 }
  have length := length_numberText value base.toNat isSigned width padChar
  dsimp only at copied copiedBytes
  rw [convertNumber]
  refine ⟨by rw [copied, count], fun i => ?_, fun index below => ?_⟩
  · rw [copiedBytes, copied]
    split_ifs with inside
    · rw [bytes, if_pos (by omega), zero_add]
    · rfl
  · rw [copyDigits_stack]
    exact (intToString_stack value low high isSigned width padChar st.tmp (show 0 < 24 by decide)
      st.stack).1 index (.inl (by omega))

/-- `%30d` of `42` from the state `kvsnprintf` starts in, into a 64-byte buffer. -/
theorem convertNumber_text_thirty_wide :
    let text := numberText 42 10 true 30 32
    let after := convertNumber 64 (initial (fun _ => 0) (fun _ => 0) fun _ => 0) 42 10 true 30 32
    text.length ≤ 64 ∧ after.outIdx = 0 + min (min 23 text.length) (64 - 1 - 0) ∧
      (∀ i, after.buf i = if 0 ≤ i ∧ i < after.outIdx then text.getD (i - 0) 0 else 0) ∧
      ∀ index < 0, after.stack index = 0 :=
  have fits : (numberText 42 10 true 30 32).length ≤ 64 := by
    simp [length_numberText, numberLength, negative, magnitude, Nat.digits_add_two_add_one]
  ⟨fits, convertNumber_text 64 _ 42 (by decide) (by decide) true 30 (by decide) fits⟩

/-- `kvsnprintf(buf, 64, "%30d", 42)` writes 23 spaces and no digit. -/
example : (kvsnprintf 64 (fun index => [37, 51, 48, 100].getD index 0) (fun _ => 42) (fun _ => 0)
    (fun _ => 0) 12 (fun _ => 0) fun _ => 0).map
      (fun result => (result.1, (List.range 24).map result.2)) =
        some (23, List.replicate 23 32 ++ [0]) := by
  decide

end FreeCore.Printf
