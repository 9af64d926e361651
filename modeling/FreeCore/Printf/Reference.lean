import FreeCore.Printf.NumberText

/-! # What `kvsnprintf` prints

`formatText` is a reference formatter with no buffer; `kvsnprintf` refines it on every format it
accepts, one segment lemma per literal byte and per directive. -/

namespace FreeCore.Printf

open FreeCore.Ext4 (toInt32)
open PrintState

/-! ## The reference formatter -/

/-- A conversion specification as `kvsnprintf` reads it after a `%`: the pad character that the
`0` flag selects, the width as the `int` its digits accumulate in, the `l` modifier and the
conversion character. -/
structure Directive where
  padChar : UInt8
  width : Nat
  longFlag : Bool
  conversion : UInt8
  deriving DecidableEq, Repr

/-- The `0` flag at the front of `bytes`: the pad character and the bytes after the flag. -/
def zeroFlag (bytes : List UInt8) : UInt8 × List UInt8 :=
  if bytes.head? = some 48 then (48, bytes.tail) else (32, bytes)

/-- The width digits at the front of `bytes`, accumulated into `width`, and the bytes after them. -/
def widthDigits : List UInt8 → Nat → Nat × List UInt8
  | [], width => (width, [])
  | c :: rest, width =>
      if 48 ≤ c ∧ c ≤ 57 then widthDigits rest ((width * 10 + (c.toNat - 48)) % 2 ^ 32)
      else (width, c :: rest)

/-- The `l` or `ll` modifier at the front of `bytes`. -/
def lengthModifier (bytes : List UInt8) : Bool × List UInt8 :=
  if bytes.head? = some 108 then
    (true, if bytes.tail.head? = some 108 then bytes.tail.tail else bytes.tail)
  else (false, bytes)

/-- The directive after a `%` and the bytes after its conversion character; `none` when the
format ends first. -/
def parseDirective (bytes : List UInt8) : Option (Directive × List UInt8) :=
  match lengthModifier (widthDigits (zeroFlag bytes).2 0).2 with
  | (_, []) => none
  | (longFlag, c :: rest) =>
      some (⟨(zeroFlag bytes).1, (widthDigits (zeroFlag bytes).2 0).1, longFlag, c⟩, rest)

/-- Whether a conversion takes a word of the arguments: all but `%%` and the default case. -/
def Conversion.takesArgument : Conversion → Bool
  | .percent | .other => false
  | _ => true

/-- The bytes of the string at `source` from `str`, up to its NUL and at most `bound` of them. -/
def stringText (source : Memory) : (bound str : Nat) → List UInt8
  | 0, _ => []
  | bound + 1, str => if source str = 0 then [] else source str :: stringText source bound (str + 1)

theorem zeroFlag_suffix (bytes : List UInt8) : (zeroFlag bytes).2 <:+ bytes := by
  unfold zeroFlag
  split
  · exact List.tail_suffix bytes
  · exact List.suffix_refl bytes

theorem zeroFlag_ne_zero (bytes : List UInt8) : (zeroFlag bytes).1 ≠ 0 := by
  unfold zeroFlag
  split
  · show (48 : UInt8) ≠ 0
    decide
  · show (32 : UInt8) ≠ 0
    decide

theorem widthDigits_suffix : ∀ (bytes : List UInt8) (width : Nat), (widthDigits bytes width).2 <:+ bytes
  | [], _ => List.suffix_refl []
  | c :: rest, width => by
      unfold widthDigits
      split
      · exact (widthDigits_suffix rest _).trans (List.suffix_cons c rest)
      · exact List.suffix_refl _

theorem lengthModifier_suffix (bytes : List UInt8) : (lengthModifier bytes).2 <:+ bytes := by
  unfold lengthModifier
  split
  · split
    · exact (List.tail_suffix _).trans (List.tail_suffix bytes)
    · exact List.tail_suffix bytes
  · exact List.suffix_refl bytes

/-- A directive is read from the front of the bytes after its `%`, up to its conversion
character. -/
theorem parseDirective_suffix {bytes : List UInt8} {d : Directive} {rest : List UInt8}
    (parsed : parseDirective bytes = some (d, rest)) :
    d.conversion :: rest <:+ bytes ∧ d.padChar ≠ 0 := by
  unfold parseDirective at parsed
  split at parsed
  · cases parsed
  · rename_i longFlag c after modifier
    cases parsed
    have suffix := lengthModifier_suffix (widthDigits (zeroFlag bytes).2 0).2
    rw [modifier] at suffix
    exact ⟨suffix.trans ((widthDigits_suffix _ 0).trans (zeroFlag_suffix bytes)),
      zeroFlag_ne_zero bytes⟩

theorem parseDirective_length {bytes : List UInt8} {d : Directive} {rest : List UInt8}
    (parsed : parseDirective bytes = some (d, rest)) : rest.length < bytes.length :=
  (parseDirective_suffix parsed).1.length_le

section Reference

variable (args : Nat → Nat) (strings : Memory) (bound : Nat)

/-- The text of the directive `d` with the argument `args arg`; a string is read up to `bound`
bytes. -/
def conversionText (d : Directive) (arg : Nat) : List UInt8 :=
  match Conversion.of d.conversion with
  | .char => [UInt8.ofNat (args arg)]
  | .string => stringText (stringSource strings (args arg)) bound 0
  | .signed =>
      (numberText (signedArg d.longFlag (args arg)) 10 true (toInt32 d.width) d.padChar).take 23
  | .unsigned =>
      (numberText (unsignedArg d.longFlag (args arg)) 10 false (toInt32 d.width) d.padChar).take 23
  | .hex =>
      (numberText (unsignedArg d.longFlag (args arg)) 16 false (toInt32 d.width) d.padChar).take 23
  | .pointer => [48, 120] ++ (numberText (args arg % 2 ^ 64) 16 false 16 48).take 23
  | .percent => [37]
  | .other => [37, d.conversion]

/-- The argument the directive after `d` takes. -/
def nextArg (d : Directive) (arg : Nat) : Nat :=
  if (Conversion.of d.conversion).takesArgument then arg + 1 else arg

/-- Whether `int_to_string` stays inside its 65-byte `tmp` for the directive: a number of base 10
or 16 takes at most 21 bytes with its sign, and a numeric conversion pads it to its width, so a
width above 64 writes below `tmp`. -/
def Directive.withinTmp (d : Directive) : Bool :=
  match Conversion.of d.conversion with
  | .signed | .unsigned | .hex => toInt32 d.width ≤ 64
  | _ => true

/-- The text of the format `bytes`, its directives taking their arguments from `args arg` on;
`none` when a directive is cut short by the end of the format or makes `int_to_string` write
below its `tmp`. -/
def formatText : List UInt8 → Nat → Option (List UInt8)
  | [], _ => some []
  | c :: rest, arg =>
      if c = 37 then
        match _parsed : parseDirective rest with
        | none => none
        | some (d, after) =>
            if d.withinTmp then
              (formatText after (nextArg d arg)).map (conversionText args strings bound d arg ++ ·)
            else none
      else (formatText rest arg).map (c :: ·)
termination_by bytes => bytes.length
decreasing_by
  all_goals simp_wf
  · exact Nat.lt_succ_of_lt (parseDirective_length ‹_›)

end Reference

/-! ## What the loop has printed -/

/-- The loop has written the first `size - 1` bytes of `text` into `buf`, from index 0, and left
the rest of `buf` as it was. -/
structure Prints (size : Nat) (buf : Memory) (text : List UInt8) (st : PrintState) : Prop where
  outIdx_eq : st.outIdx = min (size - 1) text.length
  buf_eq : ∀ i, st.buf i = if i < st.outIdx then text.getD i 0 else buf i

theorem getD_append_left {front : List UInt8} (back : List UInt8) {i : Nat} (within : i < front.length) :
    (front ++ back).getD i 0 = front.getD i 0 := by
  rw [List.getD_eq_getElem?_getD, List.getElem?_append_left within, ← List.getD_eq_getElem?_getD]

theorem getD_append_right (front : List UInt8) {back : List UInt8} {i : Nat}
    (past : front.length ≤ i) : (front ++ back).getD i 0 = back.getD (i - front.length) 0 := by
  rw [List.getD_eq_getElem?_getD, List.getElem?_append_right past, ← List.getD_eq_getElem?_getD]

theorem getD_take {bytes : List UInt8} {n i : Nat} (within : i < n) :
    (bytes.take n).getD i 0 = bytes.getD i 0 := by
  rw [List.getD_eq_getElem?_getD, List.getElem?_take_of_lt within, ← List.getD_eq_getElem?_getD]

section Prints

variable {size : Nat} {buf : Memory}

/-- What the loop has printed depends only on the first `size - 1` bytes of the text. -/
theorem Prints.of_take_eq {text other : List UInt8} {st : PrintState}
    (prints : Prints size buf text st) (same : text.take (size - 1) = other.take (size - 1)) :
    Prints size buf other st where
  outIdx_eq := by
    rw [prints.outIdx_eq, ← List.length_take, same, List.length_take]
  buf_eq i := by
    rw [prints.buf_eq]
    split_ifs with within
    · have short : i < size - 1 := Nat.lt_of_lt_of_le within (prints.outIdx_eq ▸ Nat.min_le_left _ _)
      rw [← getD_take short, same, getD_take short]
    · rfl

/-- A block of bytes written from `out_idx`, as far as there is room, appends them to the text. -/
theorem Prints.block {text : List UInt8} {st after : PrintState} (prints : Prints size buf text st)
    (bytes : List UInt8)
    (count : after.outIdx = st.outIdx + min bytes.length (size - 1 - st.outIdx))
    (written : ∀ i, after.buf i =
      if st.outIdx ≤ i ∧ i < after.outIdx then bytes.getD (i - st.outIdx) 0 else st.buf i) :
    Prints size buf (text ++ bytes) after where
  outIdx_eq := by rw [count, prints.outIdx_eq, List.length_append]; omega
  buf_eq i := by
    have printed := prints.outIdx_eq
    rw [written, prints.buf_eq]
    by_cases inBlock : st.outIdx ≤ i ∧ i < after.outIdx
    · have atEnd : st.outIdx = text.length := by omega
      rw [if_pos inBlock, if_pos inBlock.2, getD_append_right text (by omega), atEnd]
    · rw [if_neg inBlock]
      by_cases before : i < st.outIdx
      · rw [if_pos before, if_pos (by omega), getD_append_left bytes (by omega)]
      · rw [if_neg before, if_neg (by omega)]

theorem Prints.emit {text : List UInt8} {st : PrintState} (prints : Prints size buf text st)
    (c : UInt8) : Prints size buf (text ++ [c]) (st.emit size c) := by
  unfold PrintState.emit
  split
  · refine prints.block [c] (by simp only [write_outIdx, List.length_singleton]; omega) fun i => ?_
    rw [write_buf, write_outIdx]
    by_cases atEnd : i = st.outIdx
    · rw [atEnd, Function.update_same, if_pos ⟨le_rfl, Nat.lt_succ_self _⟩, Nat.sub_self]
      rfl
    · rw [Function.update_noteq atEnd, if_neg (by omega)]
  · exact prints.block [c] (by simp only [List.length_singleton]; omega)
      fun i => (if_neg (by omega)).symm

theorem emit_of_lt {st : PrintState} (room : st.outIdx < size - 1) (c : UInt8) :
    st.emit size c = st.write c :=
  if_pos room

/-- `%s` with room for `fuel` more bytes prints the string up to its NUL, at most `fuel` bytes. -/
theorem Prints.copyString (source : Memory) :
    ∀ (fuel str : Nat) {text : List UInt8} {st : PrintState}, Prints size buf text st →
      st.outIdx + fuel ≤ size - 1 →
      Prints size buf (text ++ stringText source fuel str) (copyString source fuel str st)
  | 0, _, _, _, prints, _ => by simpa only [stringText, List.append_nil] using prints
  | fuel + 1, str, text, st, prints, room => by
      rw [FreeCore.Printf.copyString, stringText]
      by_cases nul : source str = 0
      · simpa only [if_pos nul, List.append_nil] using prints
      · have free : st.outIdx < size - 1 := by omega
        rw [if_neg nul, if_neg nul, ← emit_of_lt free]
        simpa only [List.append_assoc, List.singleton_append] using
          Prints.copyString source fuel (str + 1) (prints.emit (source str))
            (by rw [emit_of_lt free, write_outIdx]; omega)

/-- A numeric conversion prints the number\x27s text, cut to the 23 bytes of its `tmp`. -/
theorem Prints.convertNumber {text : List UInt8} {st : PrintState}
    (prints : Prints size buf text st) (value : Nat) (base : Int) (low : 2 ≤ base)
    (high : base ≤ 16) (isSigned : Bool) (width : Int) {padChar : UInt8} (padNonzero : padChar ≠ 0) :
    Prints size buf (text ++ (numberText value base.toNat isSigned width padChar).take 23)
      (convertNumber size st value base isSigned width padChar) := by
  obtain ⟨count, bytes⟩ :=
    intToString_result value low high isSigned width padNonzero st.tmp (show 0 < 24 by decide) st.stack
  obtain ⟨copied, copiedBytes⟩ := copyDigits_buf size
    (intToString value base isSigned width padChar st.tmp 24 st.stack).2.1 0
    (intToString value base isSigned width padChar st.tmp 24 st.stack).1
    { st with tmp := (intToString value base isSigned width padChar st.tmp 24 st.stack).2.1,
              stack := (intToString value base isSigned width padChar st.tmp 24 st.stack).2.2 }
  dsimp only at copied copiedBytes
  refine prints.block _ (by rw [FreeCore.Printf.convertNumber, copied, count, List.length_take])
    fun i => ?_
  rw [FreeCore.Printf.convertNumber, copiedBytes, copied]
  split_ifs with inside
  · rw [bytes, if_pos (by omega), zero_add, getD_take (by omega)]
  · rfl

end Prints

theorem stringText_take (source : Memory) :
    ∀ (m n str : Nat), m ≤ n → stringText source m str = (stringText source n str).take m
  | 0, _, _, _ => rfl
  | m + 1, 0, _, le => absurd le (by omega)
  | m + 1, n + 1, str, le => by
      rw [stringText, stringText]
      by_cases nul : source str = 0
      · rw [if_pos nul, if_pos nul]
        rfl
      · rw [if_neg nul, if_neg nul, List.take_succ_cons, stringText_take source m n (str + 1) (by omega)]

theorem take_append_take (text rest : List UInt8) (n : Nat) :
    (text ++ rest.take (n - text.length)).take n = (text ++ rest).take n := by
  rw [List.take_append_eq_append_take, List.take_append_eq_append_take, List.take_take, Nat.min_self]

/-! ## One conversion -/

section Convert

variable {size : Nat} {buf : Memory} (args : Nat → Nat) (strings : Memory)

@[simp] theorem emit_arg (st : PrintState) (c : UInt8) : (st.emit size c).arg = st.arg := by
  unfold PrintState.emit
  split <;> rfl

theorem copyString_arg (source : Memory) :
    ∀ fuel str (st : PrintState), (copyString source fuel str st).arg = st.arg
  | 0, _, _ => rfl
  | fuel + 1, str, st => by
    rw [FreeCore.Printf.copyString]
    split
    · rfl
    · exact copyString_arg source fuel _ _

theorem copyDigits_arg (tmp : Memory) :
    ∀ j count (st : PrintState), (copyDigits size tmp j count st).arg = st.arg
  | _, 0, _ => rfl
  | j, count + 1, st => by
    rw [FreeCore.Printf.copyDigits]
    split
    · exact copyDigits_arg tmp _ _ _
    · rfl

/-- The conversion character `c` takes a word of the arguments exactly when `nextArg` says so. -/
theorem convert_arg (st : PrintState) (c : UInt8) :
    (convert size args strings st c).arg = nextArg ⟨st.padChar, st.width, st.longFlag, c⟩ st.arg := by
  unfold convert nextArg
  cases Conversion.of c <;>
    simp only [emit_arg, copyString_arg, FreeCore.Printf.convertNumber, copyDigits_arg,
      Conversion.takesArgument, if_true, if_false, Bool.false_eq_true]

/-- The conversion with character `c` prints `conversionText` of the directive the loop has read. -/
theorem Prints.convert {text : List UInt8} {st : PrintState} (prints : Prints size buf text st)
    (pad : st.padChar ≠ 0) (c : UInt8) :
    Prints size buf
      (text ++ conversionText args strings size ⟨st.padChar, st.width, st.longFlag, c⟩ st.arg)
      (convert size args strings st c) := by
  have taken : Prints size buf text { st with arg := st.arg + 1 } := ⟨prints.1, prints.2⟩
  have printed := prints.outIdx_eq
  unfold FreeCore.Printf.convert conversionText
  dsimp only
  cases Conversion.of c
  case char => exact taken.emit _
  case string =>
    have copied := taken.copyString (stringSource strings (args st.arg)) (size - 1 - st.outIdx) 0
      (show st.outIdx + (size - 1 - st.outIdx) ≤ size - 1 by omega)
    refine copied.of_take_eq ?_
    have remaining : size - 1 - st.outIdx = size - 1 - text.length := by omega
    rw [stringText_take _ (size - 1 - st.outIdx) size 0 (by omega), remaining, take_append_take]
  case signed => exact taken.convertNumber _ 10 (by decide) (by decide) true _ pad
  case unsigned => exact taken.convertNumber _ 10 (by decide) (by decide) false _ pad
  case hex => exact taken.convertNumber _ 16 (by decide) (by decide) false _ pad
  case pointer =>
    simpa only [List.append_assoc, List.singleton_append] using
      ((taken.emit 48).emit 120).convertNumber _ 16 (by decide) (by decide) false 16 (by decide)
  case percent => exact prints.emit 37
  case other => simpa only [List.append_assoc, List.singleton_append] using (prints.emit 37).emit c

end Convert

/-! ## The loop over the format -/

/-- The format holds `bytes` from index `start` on, and the NUL after them. -/
def Holds (fmt : Memory) (start : Nat) (bytes : List UInt8) : Prop :=
  ∀ k ≤ bytes.length, fmt (start + k) = bytes.getD k 0

theorem Holds.head {fmt : Memory} {start : Nat} {bytes : List UInt8}
    (holds : Holds fmt start bytes) : fmt start = bytes.getD 0 0 :=
  holds 0 (Nat.zero_le _)

theorem Holds.tail {fmt : Memory} {start : Nat} {c : UInt8} {rest : List UInt8}
    (holds : Holds fmt start (c :: rest)) : Holds fmt (start + 1) rest := fun k within => by
  rw [Nat.add_assoc, Nat.add_comm 1 k, holds (k + 1) (by simpa using within)]
  rfl

/-- The loop has ended with the first `size - 1` bytes of `text` in `buf`, the NUL after them,
and the rest of `buf` as it was. -/
structure Printed (size : Nat) (buf : Memory) (text : List UInt8) (st : PrintState) : Prop where
  done : st.phase = .done
  outIdx_eq : st.outIdx = min (size - 1) text.length
  buf_eq : ∀ i, st.buf i =
    if i < st.outIdx then text.getD i 0 else if i = st.outIdx then 0 else buf i

theorem Prints.finish {size : Nat} {buf : Memory} {text : List UInt8} {st : PrintState}
    (prints : Prints size buf text st) :
    Printed size buf text { st with phase := .done, buf := Function.update st.buf st.outIdx 0 } where
  done := rfl
  outIdx_eq := prints.outIdx_eq
  buf_eq i := by
    dsimp only
    by_cases atEnd : i = st.outIdx
    · rw [atEnd, Function.update_same, if_neg (Nat.lt_irrefl _), if_pos rfl]
    · rw [Function.update_noteq atEnd, prints.buf_eq, if_neg atEnd]

section Run

variable (size : Nat) (fmt : Memory) (args : Nat → Nat) (strings : Memory)

/-- Some number of steps of `kvsnprintf` take `st` to `later`. -/
def Reaches (st later : PrintState) : Prop := ∃ n, run size fmt args strings n st = later

theorem Reaches.refl (st : PrintState) : Reaches size fmt args strings st st := ⟨0, rfl⟩

theorem run_add (m n : Nat) (st : PrintState) :
    run size fmt args strings (m + n) st =
      run size fmt args strings n (run size fmt args strings m st) := by
  induction m generalizing st with
  | zero => rw [Nat.zero_add]; rfl
  | succ m induction => rw [Nat.succ_add, run_succ, run_succ, induction]

theorem Reaches.trans {st middle later : PrintState} (first : Reaches size fmt args strings st middle)
    (second : Reaches size fmt args strings middle later) : Reaches size fmt args strings st later :=
  let ⟨m, first⟩ := first
  let ⟨n, second⟩ := second
  ⟨m + n, by rw [run_add, first, second]⟩

theorem Reaches.step {st later : PrintState} (stepped : step size fmt args strings st = later) :
    Reaches size fmt args strings st later :=
  ⟨1, stepped⟩

theorem run_of_done {st : PrintState} (done : st.phase = .done) :
    ∀ n, run size fmt args strings n st = st
  | 0 => rfl
  | n + 1 => by
      rw [run_succ, show step size fmt args strings st = st by simp only [step, done],
        run_of_done done n]

/-- The test of the loop at the NUL or with `buf` full ends the loop. -/
theorem step_test_end {st : PrintState} (test : st.phase = .test)
    (ends : fmt st.i = 0 ∨ ¬st.outIdx < size - 1) :
    step size fmt args strings st =
      { st with phase := .done, buf := Function.update st.buf st.outIdx 0 } := by
  simp only [step, test, if_pos ends]

/-- The test of the loop on a byte other than the NUL and `%` copies it. -/
theorem step_literal {st : PrintState} (test : st.phase = .test) {c : UInt8} (byte : fmt st.i = c)
    (nonzero : c ≠ 0) (literal : c ≠ 37) (room : st.outIdx < size - 1) :
    step size fmt args strings st = { st.write c with i := st.i + 1 } := by
  simp [step, test, byte, nonzero, literal, room]

theorem step_percent {st : PrintState} (test : st.phase = .test) (byte : fmt st.i = 37)
    (room : st.outIdx < size - 1) :
    step size fmt args strings st =
      { st with phase := .zeroFlag, i := st.i + 1, width := 0, padChar := 32, longFlag := false } := by
  simp [step, test, byte, room]

theorem reaches_zeroFlag (st : PrintState) {j : Nat} {bytes : List UInt8} (holds : Holds fmt j bytes) :
    ∃ j', Reaches size fmt args strings
        { st with phase := .zeroFlag, i := j, width := 0, padChar := 32, longFlag := false }
        { st with phase := .width, i := j', width := 0, padChar := (zeroFlag bytes).1,
                  longFlag := false } ∧
      Holds fmt j' (zeroFlag bytes).2 := by
  unfold zeroFlag
  split
  case isTrue zero =>
    obtain ⟨rest, rfl⟩ : ∃ rest, bytes = 48 :: rest := by
      cases bytes with
      | nil => cases zero
      | cons c rest => exact ⟨rest, by cases zero; rfl⟩
    exact ⟨j + 1, Reaches.step _ _ _ _ (by simp [step, holds.head]), holds.tail⟩
  case isFalse notZero =>
    have other : fmt j ≠ 48 := by
      rw [holds.head]
      cases bytes <;> simp_all
    exact ⟨j, Reaches.step _ _ _ _ (by simp [step, other]), holds⟩

/-- The width digits: one step per digit, and one for the byte after them. -/
theorem reaches_width (st : PrintState) (padChar : UInt8) :
    ∀ (bytes : List UInt8) (width j : Nat), Holds fmt j bytes →
      ∃ j', Reaches size fmt args strings
          { st with phase := .width, i := j, width := width, padChar := padChar, longFlag := false }
          { st with phase := .long, i := j', width := (widthDigits bytes width).1,
                    padChar := padChar, longFlag := false } ∧
        Holds fmt j' (widthDigits bytes width).2
  | [], width, j, holds =>
      ⟨j, Reaches.step _ _ _ _ (by simp [step, holds.head, widthDigits]), holds⟩
  | c :: rest, width, j, holds => by
      rw [widthDigits]
      by_cases digit : 48 ≤ c ∧ c ≤ 57
      · rw [if_pos digit]
        obtain ⟨j', reaches, holds'⟩ := reaches_width st padChar rest
          ((width * 10 + (c.toNat - 48)) % 2 ^ 32) (j + 1) holds.tail
        exact ⟨j', (Reaches.step _ _ _ _ (by simp [step, holds.head, digit])).trans _ _ _ _ reaches,
          holds'⟩
      · rw [if_neg digit]
        exact ⟨j, Reaches.step _ _ _ _ (by simp [step, holds.head, digit]), holds⟩

theorem reaches_long (st : PrintState) (width : Nat) (padChar : UInt8) {j : Nat}
    {bytes : List UInt8} (holds : Holds fmt j bytes) :
    ∃ j', Reaches size fmt args strings
        { st with phase := .long, i := j, width := width, padChar := padChar, longFlag := false }
        { st with phase := .conversion, i := j', width := width, padChar := padChar,
                  longFlag := (lengthModifier bytes).1 } ∧
      Holds fmt j' (lengthModifier bytes).2 := by
  unfold lengthModifier
  split
  case isTrue long =>
    obtain ⟨rest, rfl⟩ : ∃ rest, bytes = 108 :: rest := by
      cases bytes with
      | nil => cases long
      | cons c rest => exact ⟨rest, by cases long; rfl⟩
    have first : Reaches size fmt args strings
        { st with phase := .long, i := j, width := width, padChar := padChar, longFlag := false }
        { st with phase := .longLong, i := j + 1, width := width, padChar := padChar,
                  longFlag := true } :=
      Reaches.step _ _ _ _ (by simp [step, holds.head])
    split
    case isTrue longLong =>
      obtain ⟨rest, rfl⟩ : ∃ rest', rest = 108 :: rest' := by
        cases rest with
        | nil => cases longLong
        | cons c rest => exact ⟨rest, by cases longLong; rfl⟩
      exact ⟨j + 1 + 1, first.trans _ _ _ _
        (Reaches.step _ _ _ _ (by simp [step, holds.tail.head])), holds.tail.tail⟩
    case isFalse single =>
      have other : fmt (j + 1) ≠ 108 := by
        rw [holds.tail.head]
        cases rest <;> simp_all
      exact ⟨j + 1, first.trans _ _ _ _ (Reaches.step _ _ _ _ (by simp [step, other])), holds.tail⟩
  case isFalse short =>
    have other : fmt j ≠ 108 := by
      rw [holds.head]
      cases bytes <;> simp_all
    exact ⟨j, Reaches.step _ _ _ _ (by simp [step, other]), holds⟩

/-- A directive, from the test that reads its `%` to the `i++` after its conversion character:
the loop is back at its test past the directive, has taken the directive\x27s argument, and has
printed the directive\x27s text. -/
theorem reaches_directive {st : PrintState} (test : st.phase = .test) (room : st.outIdx < size - 1)
    {bytes : List UInt8} (holds : Holds fmt st.i (37 :: bytes)) {d : Directive} {rest : List UInt8}
    (parsed : parseDirective bytes = some (d, rest)) :
    ∃ next, Reaches size fmt args strings st next ∧ next.phase = .test ∧
      next.arg = nextArg d st.arg ∧ Holds fmt next.i rest ∧
      ∀ {buf : Memory} {text : List UInt8}, Prints size buf text st →
        Prints size buf (text ++ conversionText args strings size d st.arg) next := by
  unfold parseDirective at parsed
  split at parsed
  · cases parsed
  · rename_i longFlag c after modifier
    cases parsed
    obtain ⟨j₁, zero, holds₁⟩ := reaches_zeroFlag size fmt args strings st holds.tail
    obtain ⟨j₂, width, holds₂⟩ := reaches_width size fmt args strings st _ _ 0 j₁ holds₁
    obtain ⟨j₃, long, holds₃⟩ := reaches_long size fmt args strings st _ _ holds₂
    rw [modifier] at long holds₃
    have conversion := Reaches.step size fmt args strings
      (show step size fmt args strings
          { st with phase := .conversion, i := j₃, width := (widthDigits (zeroFlag bytes).2 0).1,
                    padChar := (zeroFlag bytes).1, longFlag := longFlag } = _ by
        simp only [step, holds₃.head]
        rfl)
    refine ⟨_, (Reaches.step _ _ _ _ (step_percent _ _ _ _ test holds.head room)).trans _ _ _ _
      (zero.trans _ _ _ _ (width.trans _ _ _ _ (long.trans _ _ _ _ conversion))), rfl,
      convert_arg _ _ _ _, holds₃.tail, fun prints => ?_⟩
    have converted := Prints.convert args strings
      (show Prints _ _ _
          { st with phase := .conversion, i := j₃, width := (widthDigits (zeroFlag bytes).2 0).1,
                    padChar := (zeroFlag bytes).1, longFlag := longFlag } from ⟨prints.1, prints.2⟩)
      (zeroFlag_ne_zero bytes) c
    exact ⟨converted.1, converted.2⟩

/-- From the test of the loop, a format that `formatText` accepts is printed to its end, or until
`buf` is full, and the loop ends. -/
theorem reaches_printed {buf : Memory} :
    ∀ (bytes : List UInt8) (arg : Nat) (st : PrintState) {text out : List UInt8},
      formatText args strings size bytes arg = some out → 0 ∉ bytes → st.phase = .test →
      st.arg = arg → Holds fmt st.i bytes → Prints size buf text st →
      ∃ later, Reaches size fmt args strings st later ∧ Printed size buf (text ++ out) later
  | [], arg, st, text, out, formatted, _, test, _, holds, prints => by
      rw [formatText] at formatted
      cases formatted
      refine ⟨_, Reaches.step _ _ _ _ (step_test_end _ _ _ _ test (.inl holds.head)), ?_⟩
      simpa only [List.append_nil] using prints.finish
  | c :: rest, arg, st, text, out, formatted, nonzero, test, taken, holds, prints => by
      have printed := prints.outIdx_eq
      by_cases room : st.outIdx < size - 1
      case neg =>
        refine ⟨_, Reaches.step _ _ _ _ (step_test_end _ _ _ _ test (.inr room)),
          (prints.of_take_eq ?_).finish⟩
        rw [List.take_append_of_le_length (by omega)]
      by_cases percent : c = 37
      · subst percent
        rw [formatText, if_pos rfl] at formatted
        split at formatted
        · cases formatted
        · rename_i d after parsed
          split at formatted
          swap
          · cases formatted
          obtain ⟨out', formatted', rfl⟩ := Option.map_eq_some'.mp formatted
          obtain ⟨next, directive, test', taken', holds', printsNext⟩ :=
            reaches_directive _ _ _ _ test room holds parsed
          have suffix := (List.suffix_cons _ _).trans (parseDirective_suffix parsed).1
          obtain ⟨later, reaches, finished⟩ := reaches_printed after (nextArg d arg) next
            formatted' (fun member => nonzero (.tail _ (suffix.subset member))) test'
            (by rw [taken', taken]) holds' (printsNext prints)
          exact ⟨later, directive.trans _ _ _ _ reaches,
            by simpa only [List.append_assoc, taken] using finished⟩
      · rw [formatText, if_neg percent] at formatted
        obtain ⟨out', formatted', rfl⟩ := Option.map_eq_some'.mp formatted
        have written := prints.emit c
        rw [emit_of_lt room] at written
        have next : Prints size buf (text ++ [c]) { st.write c with i := st.i + 1 } :=
          ⟨written.1, written.2⟩
        obtain ⟨later, reaches, finished⟩ := reaches_printed rest arg
          { st.write c with i := st.i + 1 } formatted' (fun member => nonzero (.tail _ member)) test
          taken holds.tail next
        exact ⟨later, (Reaches.step _ _ _ _ (step_literal _ _ _ _ test holds.head
            (fun zero => nonzero (zero ▸ List.mem_cons_self _ _)) percent room)).trans _ _ _ _ reaches,
          by simpa only [List.append_assoc, List.singleton_append] using finished⟩
termination_by bytes => bytes.length
decreasing_by
  all_goals simp_wf
  · exact Nat.lt_succ_of_lt (parseDirective_length ‹_›)

/-- On a format that `formatText` accepts, the loop runs from its start to an end where the text is
printed, and stays there. -/
theorem initial_reaches_printed {f text : List UInt8} (nonzero : 0 ∉ f)
    (holds : ∀ k ≤ f.length, fmt k = f.getD k 0)
    (formatted : formatText args strings size f 0 = some text) (buf tmp : Memory)
    (stack : Int → UInt8) :
    ∃ later steps, Printed size buf text later ∧
      ∀ fuel, steps ≤ fuel → run size fmt args strings fuel (initial buf tmp stack) = later := by
  have start : Prints size buf [] (initial buf tmp stack) :=
    ⟨by simp [initial], fun i => (if_neg (Nat.not_lt_zero i)).symm⟩
  have holdsFrom : Holds fmt (initial buf tmp stack).i f := fun k within => by
    simpa only [initial, Nat.zero_add] using holds k within
  obtain ⟨later, ⟨steps, reaches⟩, finished⟩ := reaches_printed size fmt args strings f 0 _
    formatted nonzero rfl rfl holdsFrom start
  exact ⟨later, steps, finished, fun fuel enough => by
    rw [← Nat.add_sub_cancel' enough, run_add, reaches, run_of_done _ _ _ _ finished.done]⟩

/-- What `kvsnprintf` returns once its loop has ended with `text` printed. -/
theorem kvsnprintf_of_printed (positive : 0 < size) {buf tmp : Memory} {stack : Int → UInt8}
    {text : List UInt8} {later : PrintState} (finished : Printed size buf text later) {fuel : Nat}
    (ran : run size fmt args strings fuel (initial buf tmp stack) = later) :
    kvsnprintf size fmt args strings buf fuel tmp stack =
      some (toInt32 (min (size - 1) text.length), fun i =>
        if i < min (size - 1) text.length then text.getD i 0
        else if i = min (size - 1) text.length then 0 else buf i) := by
  rw [kvsnprintf, if_neg (Nat.pos_iff_ne_zero.mp positive)]
  dsimp only
  rw [ran, if_pos finished.done, finished.outIdx_eq]
  congr 2
  funext i
  rw [finished.buf_eq, finished.outIdx_eq]

end Run

/-- `kvsnprintf` refines the reference formatter: on a format whose bytes before the NUL are `f`
and that `formatText` accepts, the loop ends, `kvsnprintf` returns the length of the first
`size - 1` bytes of the text, and `buf` holds them, the NUL after them, and the rest of `buf`. -/
theorem kvsnprintf_eq_formatText {size : Nat} {fmt : Memory} {args : Nat → Nat} {strings : Memory}
    {f text : List UInt8} (positive : 0 < size) (nonzero : 0 ∉ f)
    (holds : ∀ k ≤ f.length, fmt k = f.getD k 0)
    (formatted : formatText args strings size f 0 = some text)
    (buf tmp : Memory) (stack : Int → UInt8) :
    ∃ steps, ∀ fuel, steps ≤ fuel →
      kvsnprintf size fmt args strings buf fuel tmp stack =
        some (toInt32 (min (size - 1) text.length), fun i =>
          if i < min (size - 1) text.length then text.getD i 0
          else if i = min (size - 1) text.length then 0 else buf i) := by
  obtain ⟨later, steps, finished, ran⟩ :=
    initial_reaches_printed size fmt args strings nonzero holds formatted buf tmp stack
  exact ⟨steps, fun fuel enough => kvsnprintf_of_printed _ _ _ _ positive finished (ran fuel enough)⟩

/-- `kvsnprintf(buf, 16, "%s: %5d%%", "hi", 42)` prints `hi:    42%`. -/
theorem kvsnprintf_eq_formatText_on_hi :
    let f : List UInt8 := [37, 115, 58, 32, 37, 53, 100, 37, 37]
    let text : List UInt8 := [104, 105, 58, 32, 32, 32, 32, 52, 50, 37]
    ∃ steps, ∀ fuel, steps ≤ fuel →
      kvsnprintf 16 (fun k => f.getD k 0) (fun k => [100, 42].getD k 0)
          (fun k => if k = 100 then 104 else if k = 101 then 105 else 0) (fun _ => 0) fuel
          (fun _ => 0) (fun _ => 0) =
        some (toInt32 (min (16 - 1) text.length), fun i =>
          if i < min (16 - 1) text.length then text.getD i 0
          else if i = min (16 - 1) text.length then 0 else 0) :=
  kvsnprintf_eq_formatText (by decide) (by decide) (fun _ _ => rfl)
    (by simp [formatText, parseDirective, zeroFlag, widthDigits, lengthModifier, conversionText,
      Conversion.of, nextArg, Directive.withinTmp, Conversion.takesArgument, stringText, stringSource, numberText,
      digitText, signedArg, Nat.digits_add_two_add_one, negative, magnitude, numberLength, toInt32]
      ; decide)
    _ _ _

end FreeCore.Printf
