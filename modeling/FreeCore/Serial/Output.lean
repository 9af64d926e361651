import FreeCore.Printf.NumberText

/-! # Numbers on the serial port

The bytes `serial_write_int` and `serial_write_hex` of `serial.c` send, and readers of the two
formats they are meant to follow. -/

namespace FreeCore.Serial

open FreeCore.Printf (digitChar digitText)

/-! ## The writers of `serial.c` -/

/-- `serial_write_string()`: the bytes it sends, those of `str` before its NUL, none for `NULL`. -/
def serialWriteString : Option (List UInt8) → List UInt8
  | none => []
  | some str => str.takeWhile (· ≠ 0)

/-- `hex_chars` of `serial_write_hex`, `"0123456789ABCDEF"`. -/
def hexChars : List UInt8 := [48, 49, 50, 51, 52, 53, 54, 55, 56, 57, 65, 66, 67, 68, 69, 70]

/-- The digit loop of `serial_write_hex`, for `i` from `count - 1` down to 0. -/
def hexLoop (value : UInt64) : (count : Nat) → List UInt8
  | 0 => []
  | i + 1 => hexChars.getD ((value >>> UInt64.ofNat (i * 4)) &&& 0xF).toNat 0 :: hexLoop value i

/-- The clamp of `num_digits` to the range 1 to 16. -/
def clampDigits (numDigits : Int) : Int :=
  let numDigits := if numDigits < 1 then 1 else numDigits
  if numDigits > 16 then 16 else numDigits

/-- `serial_write_hex()`: the bytes it sends. -/
def serialWriteHex (value : UInt64) (numDigits : Int) : List UInt8 :=
  serialWriteString (some [48, 120, 0]) ++ hexLoop value (clampDigits numDigits).toNat

/-- The loop of `serial_write_int` that fills `buffer`, the least significant digit first. -/
def decimalLoop (value : Int) : List UInt8 :=
  if 0 < value then UInt8.ofNat (48 + (value % 10).toNat) :: decimalLoop (value / 10) else []
termination_by value.toNat
decreasing_by omega

/-- `serial_write_int()` on an `int64_t`, taken as its 64 bits: the bytes it sends. At
`INT64_MIN`, `value = -value` overflows, which is undefined behaviour: `none`. -/
def serialWriteInt (value : BitVec 64) : Option (List UInt8) :=
  if value = BitVec.intMin 64 then none
  else
    let sign : List UInt8 := if value.toInt < 0 then [45] else []
    let value := if value.toInt < 0 then -value else value
    some (if value = 0 then sign ++ [48] else sign ++ (decimalLoop value.toInt).reverse)

/-! ## Reading the text back -/

/-- The value of a digit character in `base`: `0` to `9`, then `A` to `F`. -/
def digitValue (base : Nat) (c : UInt8) : Option Nat :=
  let d := if c.toNat < 65 then c.toNat - 48 else c.toNat - 55
  if (48 ≤ c.toNat ∧ c.toNat < 58 ∨ 65 ≤ c.toNat ∧ c.toNat < 71) ∧ d < base then some d else none

/-- The number the digits stand for, most significant first, after the digits worth `acc`. -/
def readDigits (base acc : Nat) : List UInt8 → Option Nat
  | [] => some acc
  | c :: rest => (digitValue base c).bind fun d => readDigits base (base * acc + d) rest

/-- A number of at least one digit. -/
def readNumber (base : Nat) (text : List UInt8) : Option Nat :=
  if text = [] then none else readDigits base 0 text

/-- A decimal number: an optional `-`, then the digits. -/
def readInt (text : List UInt8) : Option Int :=
  if text.head? = some 45 then (readNumber 10 text.tail).map fun (n : Nat) => -(n : Int)
  else (readNumber 10 text).map Int.ofNat

/-- A hexadecimal number: `0x`, then the digits. -/
def readHex (text : List UInt8) : Option Nat :=
  if text.take 2 = [48, 120] then readNumber 16 (text.drop 2) else none

/-! ## Digits -/

theorem digitValue_digitChar {base d : Nat} (lt : d < base) (small : base ≤ 16) :
    digitValue base (digitChar d) = some d := by
  have digit : d < 16 := by omega
  unfold digitValue
  dsimp only
  interval_cases d <;> exact if_pos ⟨by decide, lt⟩

/-- The digits, most significant first, read back as the number they stand for. -/
theorem readDigits_map (base : Nat) (small : base ≤ 16) :
    ∀ (ds : List Nat) (acc : Nat), (∀ d ∈ ds, d < base) →
      readDigits base acc (ds.map digitChar) = some (ds.foldl (fun a d => base * a + d) acc)
  | [], _, _ => rfl
  | d :: ds, acc, digits => by
      rw [List.map_cons, readDigits, digitValue_digitChar (digits d (List.mem_cons_self d ds)) small,
        Option.some_bind, List.foldl_cons]
      exact readDigits_map base small ds _ fun e member => digits e (List.mem_cons_of_mem d member)

theorem foldr_ofDigits (base : Nat) :
    ∀ ds : List Nat, ds.foldr (fun d a => base * a + d) 0 = Nat.ofDigits base ds
  | [] => rfl
  | d :: ds => by rw [List.foldr_cons, foldr_ofDigits base ds, Nat.ofDigits_cons, Nat.add_comm]

/-- `digitText` reads back as its number. -/
theorem readNumber_digitText {base : Nat} (large : 2 ≤ base) (small : base ≤ 16) (n : Nat) :
    readNumber base (digitText n base) = some n := by
  unfold digitText readNumber
  split
  · rename_i zero
    subst zero
    show (digitValue base (digitChar 0)).bind _ = _
    rw [digitValue_digitChar (by omega) small]
    rfl
  · rename_i nonzero
    have nonempty : (Nat.digits base n).reverse.map digitChar ≠ [] := by
      simpa [Nat.digits_ne_nil_iff_ne_zero] using nonzero
    rw [if_neg nonempty, readDigits_map base small _ _
      fun d member => Nat.digits_lt_base large (List.mem_reverse.mp member),
      List.foldl_reverse, foldr_ofDigits, Nat.ofDigits_digits]

/-! ## `serial_write_int` -/

theorem digitChar_of_lt_ten {d : Nat} (lt : d < 10) : digitChar d = UInt8.ofNat (48 + d) :=
  if_pos lt

/-- The digit loop pushes the decimal digits, the least significant first. -/
theorem decimalLoop_digits (n : Nat) :
    decimalLoop n = (Nat.digits 10 n).map fun d => UInt8.ofNat (48 + d) := by
  induction n using Nat.strong_induction_on with
  | _ n induction =>
    rw [decimalLoop]
    rcases Nat.eq_zero_or_pos n with zero | pos
    · subst zero
      rw [if_neg (by omega), Nat.digits_zero, List.map_nil]
    · have quotient : ((n : Int) / 10) = ((n / 10 : Nat) : Int) := by omega
      have remainder : ((n : Int) % 10).toNat = n % 10 := by omega
      rw [if_pos (by omega), Nat.digits_def' (by norm_num) pos, List.map_cons, quotient, remainder,
        induction (n / 10) (Nat.div_lt_self pos (by norm_num))]

/-- The buffer, sent from its last byte down, is the decimal text of a positive number. -/
theorem decimalLoop_text {n : Nat} (nonzero : n ≠ 0) : (decimalLoop n).reverse = digitText n 10 := by
  rw [decimalLoop_digits, digitText, if_neg nonzero, List.map_reverse]
  exact congrArg List.reverse (List.map_congr_left fun d member =>
    (digitChar_of_lt_ten (Nat.digits_lt_base (by norm_num) member)).symm)

/-- `serial_write_int` sends the decimal text of its value, `-` first for a negative one; its
negation of `INT64_MIN` is undefined. -/
theorem serialWriteInt_text (value : BitVec 64) :
    serialWriteInt value =
      if value = BitVec.intMin 64 then none
      else some ((if value.toInt < 0 then [45] else []) ++ digitText value.toInt.natAbs 10) := by
  have bound := value.isLt
  have toInt := BitVec.toInt_eq_toNat_cond value
  unfold serialWriteInt
  split
  · rfl
  rename_i notMinimum
  have least : value.toNat ≠ 2 ^ 63 := fun least =>
    notMinimum (by rw [BitVec.toNat_eq, BitVec.toNat_intMin]; exact least)
  dsimp only
  congr 1
  by_cases negative : value.toInt < 0
  · have negated := BitVec.toNat_neg value
    have negatedInt := BitVec.toInt_eq_toNat_cond (-value)
    have high : 2 ^ 63 ≤ value.toNat := by split at toInt <;> omega
    have nonzero : -value ≠ 0 := by rw [Ne, BitVec.toNat_eq, negated]; simp; omega
    have magnitude : (-value).toInt = (value.toInt.natAbs : Int) := by
      split at negatedInt <;> split at toInt <;> omega
    rw [if_pos negative, if_pos negative, if_neg nonzero, congrArg decimalLoop magnitude,
      decimalLoop_text (by omega)]
  · have magnitude : value.toInt = (value.toInt.natAbs : Int) := by omega
    rw [if_neg negative, if_neg negative]
    by_cases zero : value = 0
    · subst zero
      rfl
    · have nonzero : value.toInt.natAbs ≠ 0 := by
        have : value.toNat ≠ 0 := by simpa [BitVec.toNat_eq] using zero
        split at toInt <;> omega
      rw [if_neg zero, congrArg decimalLoop magnitude, decimalLoop_text nonzero]

/-- A decimal text has no `-`. -/
theorem minus_not_mem_digitText (value : Nat) : (45 : UInt8) ∉ digitText value 10 := by
  unfold digitText
  split
  · decide
  · simp only [List.mem_map, List.mem_reverse, not_exists, not_and]
    intro d digit
    have lt := Nat.digits_lt_base (b := 10) (by norm_num) digit
    rw [digitChar_of_lt_ten lt]
    interval_cases d <;> decide

/-- `serial_write_int` sends a text for every value but `INT64_MIN`, and read back as a decimal
number the text is the value. -/
theorem serialWriteInt_reads_back (value : BitVec 64) :
    (serialWriteInt value = none ↔ value = BitVec.intMin 64) ∧
      ∀ text, serialWriteInt value = some text → readInt text = some value.toInt := by
  rw [serialWriteInt_text]
  split
  · exact ⟨iff_of_true rfl ‹_›, fun _ sent => nomatch sent⟩
  rename_i notMinimum
  refine ⟨iff_of_false (fun sent => nomatch sent) notMinimum, fun text sent => ?_⟩
  cases sent
  have digits := @readNumber_digitText 10 (by norm_num) (by norm_num) value.toInt.natAbs
  have firstDigit : (digitText value.toInt.natAbs 10).head? ≠ some 45 := fun first =>
    minus_not_mem_digitText _ (List.mem_of_mem_head? first)
  unfold readInt
  split
  · rename_i negative
    rw [List.singleton_append, List.head?_cons, if_pos rfl, List.tail_cons, digits]
    simp only [Option.map_some', Option.some_inj]
    omega
  · rename_i negative
    rw [List.nil_append, if_neg firstDigit, digits]
    simp only [Option.map_some', Option.some_inj, Int.ofNat_eq_coe]
    omega

/-- `-42` is sent as `-42`, which reads back as `-42`. -/
theorem serialWriteInt_reads_back_minus_forty_two :
    serialWriteInt (-42) = some [45, 52, 50] ∧ readInt [45, 52, 50] = some (-42 : BitVec 64).toInt :=
  have sent : serialWriteInt (-42) = some [45, 52, 50] := by
    rw [serialWriteInt_text]
    simp [digitText, Nat.digits_add_two_add_one]
    decide
  ⟨sent, (serialWriteInt_reads_back _).2 _ sent⟩

/-- The digit loop of `serial_write_int` fills at most 19 of the 24 bytes of `buffer`. -/
theorem decimalLoop_length_le (value : BitVec 64) : (decimalLoop value.toInt).length ≤ 19 := by
  have bound := value.isLt
  have toInt := BitVec.toInt_eq_toNat_cond value
  by_cases negative : value.toInt ≤ 0
  · rw [decimalLoop, if_neg (by omega)]
    exact Nat.zero_le _
  · obtain ⟨n, cast⟩ := Int.eq_ofNat_of_zero_le (by omega : 0 ≤ value.toInt)
    rw [cast, decimalLoop_digits, List.length_map]
    by_contra long
    have wide := Nat.base_pow_length_digits_le 10 n (by norm_num) (by omega)
    have far := Nat.pow_le_pow_right (show 0 < 10 by norm_num) (show 20 ≤ (Nat.digits 10 n).length by omega)
    split at toInt <;> norm_num at toInt wide far <;> omega

/-! ## `serial_write_hex` -/

theorem hexChars_getD {d : Nat} (lt : d < 16) : hexChars.getD d 0 = digitChar d := by
  interval_cases d <;> rfl

/-- The digit `serial_write_hex` takes at `i` is the `i`-th hexadecimal digit of the value. -/
theorem hexDigit_toNat (value : UInt64) {i : Nat} (lt : i < 16) :
    ((value >>> UInt64.ofNat (i * 4)) &&& 0xF).toNat = value.toNat / 16 ^ i % 16 := by
  have amount : ((UInt64.ofNat (i * 4)).mod 64).toBitVec.toNat = i * 4 := by
    show (i * 4) % 2 ^ 64 % 64 = i * 4
    omega
  show (value.toBitVec >>> ((UInt64.ofNat (i * 4)).mod 64).toBitVec &&&
    (0xF : UInt64).toBitVec).toNat = _
  rw [BitVec.toNat_and, BitVec.ushiftRight_eq', BitVec.toNat_ushiftRight, amount,
    Nat.shiftRight_eq_div_pow, Nat.mul_comm, pow_mul,
    show (0xF : UInt64).toBitVec.toNat = 2 ^ 4 - 1 from rfl, Nat.and_pow_two_sub_one_eq_mod]
  rfl

/-- The `count` digits of the loop read back as the value modulo `16 ^ count`. -/
theorem readDigits_hexLoop (value : UInt64) {count : Nat} (le : count ≤ 16) (acc : Nat) :
    readDigits 16 acc (hexLoop value count) = some (acc * 16 ^ count + value.toNat % 16 ^ count) := by
  induction count generalizing acc with
  | zero => simp [hexLoop, readDigits, Nat.mod_one]
  | succ i induction =>
      have digit := Nat.mod_lt (value.toNat / 16 ^ i) (show 0 < 16 by norm_num)
      rw [hexLoop, readDigits, hexDigit_toNat value (by omega), hexChars_getD digit,
        digitValue_digitChar digit le_rfl, Option.some_bind, induction (by omega), Nat.mod_pow_succ]
      congr 1
      ring

theorem length_hexLoop (value : UInt64) (count : Nat) : (hexLoop value count).length = count := by
  induction count with
  | zero => rfl
  | succ i induction => rw [hexLoop, List.length_cons, induction]

/-- `serial_write_hex` sends `0x` and the clamped number of digits, which read back as the value
modulo `16 ^ num_digits`. -/
theorem serialWriteHex_reads_back (value : UInt64) (numDigits : Int) :
    (serialWriteHex value numDigits).length = (clampDigits numDigits).toNat + 2 ∧
      readHex (serialWriteHex value numDigits) =
        some (value.toNat % 16 ^ (clampDigits numDigits).toNat) := by
  have clamped : 1 ≤ (clampDigits numDigits).toNat ∧ (clampDigits numDigits).toNat ≤ 16 := by
    unfold clampDigits
    dsimp only
    split_ifs <;> omega
  have start : serialWriteString (some [48, 120, 0]) = [48, 120] := rfl
  unfold serialWriteHex readHex
  rw [start, List.length_append, length_hexLoop]
  refine ⟨Nat.add_comm _ _, ?_⟩
  have two : ([48, 120] : List UInt8).length = 2 := rfl
  rw [List.take_left' two, if_pos rfl, List.drop_left' two, readNumber, if_neg (fun empty => by
    have := length_hexLoop value (clampDigits numDigits).toNat
    rw [empty] at this
    simp at this
    omega), readDigits_hexLoop value clamped.2, Nat.zero_mul, Nat.zero_add]

/-- Four digits of `0x12345` are `0x2345`. -/
example : serialWriteHex 0x12345 4 = [48, 120, 50, 51, 52, 53] := by decide

end FreeCore.Serial
