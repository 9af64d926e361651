import FreeCore.Printf.IntToString
import FreeCore.Ext4.Format

/-! # `kvsnprintf`

The loop of `kvsnprintf` in `config.h` as a step function over its locals, one step per byte of
the format it reads, so the indices it reads are those of the steps taken. -/

namespace FreeCore.Printf

open FreeCore.Ext4 (toInt32)

/-- The byte of the format the next step of `kvsnprintf` reads. -/
inductive Phase
  /-- The test of the `for` loop. -/
  | test
  /-- The `0` flag after a `%`. -/
  | zeroFlag
  /-- A width digit. -/
  | width
  /-- The `l` modifier. -/
  | long
  /-- The second `l` of `ll`. -/
  | longLong
  /-- The conversion character. -/
  | conversion
  /-- None: the loop has ended. -/
  | done
  deriving DecidableEq

/-- The locals of `kvsnprintf` and the memory it writes: `width` holds the 32 bits of the `int`,
`arg` counts the words `va_arg` has taken, `tmp` is the `char tmp[24]` of the numeric
conversions and `stack` the bytes around the `tmp` of `int_to_string`. -/
structure PrintState where
  phase : Phase
  i : Nat
  outIdx : Nat
  width : Nat
  padChar : UInt8
  longFlag : Bool
  arg : Nat
  buf : Memory
  tmp : Memory
  stack : Int → UInt8

namespace PrintState

/-- `buf[out_idx++] = c`. -/
def write (st : PrintState) (c : UInt8) : PrintState :=
  { st with buf := Function.update st.buf st.outIdx c, outIdx := st.outIdx + 1 }

/-- `if (out_idx < size - 1) buf[out_idx++] = c;`. -/
def emit (size : Nat) (st : PrintState) (c : UInt8) : PrintState :=
  if st.outIdx < size - 1 then st.write c else st

@[simp] theorem write_outIdx (st : PrintState) (c : UInt8) : (st.write c).outIdx = st.outIdx + 1 :=
  rfl

@[simp] theorem write_buf (st : PrintState) (c : UInt8) :
    (st.write c).buf = Function.update st.buf st.outIdx c := rfl

@[simp] theorem write_stack (st : PrintState) (c : UInt8) : (st.write c).stack = st.stack := rfl

@[simp] theorem emit_stack (size : Nat) (st : PrintState) (c : UInt8) :
    (st.emit size c).stack = st.stack := by
  unfold emit
  split <;> rfl

/-- The state `kvsnprintf` starts its loop in. -/
def initial (buf tmp : Memory) (stack : Int → UInt8) : PrintState :=
  ⟨.test, 0, 0, 0, 32, false, 0, buf, tmp, stack⟩

end PrintState

open PrintState

/-- The string `"(null)"` that `%s` prints for `NULL`. -/
def nullString : Memory := fun index => [40, 110, 117, 108, 108, 41].getD index 0

/-- The value `%d` and `%i` take, in 64 bits: `va_arg(args, int64_t)` under `l`, else
`va_arg(args, int)`, the low 32 bits of the word sign-extended. -/
def signedArg (longFlag : Bool) (word : Nat) : Nat :=
  if longFlag then word % 2 ^ 64
  else if word % 2 ^ 32 < 2 ^ 31 then word % 2 ^ 32 else word % 2 ^ 32 + (2 ^ 64 - 2 ^ 32)

/-- The value `%u`, `%x` and `%X` take: `va_arg(args, uint64_t)` under `l`, else
`va_arg(args, unsigned int)`. -/
def unsignedArg (longFlag : Bool) (word : Nat) : Nat :=
  if longFlag then word % 2 ^ 64 else word % 2 ^ 32

/-- The string `%s` copies from the pointer `word`: `"(null)"` for `NULL`. -/
def stringSource (strings : Memory) (word : Nat) : Memory :=
  if word % 2 ^ 64 = 0 then nullString else fun index => strings (word + index)

/-- The case labels of the `switch (fmt[i])` of `kvsnprintf`. -/
inductive Conversion
  /-- `'c'`. -/
  | char
  /-- `'s'`. -/
  | string
  /-- `'d'` and `'i'`. -/
  | signed
  /-- `'u'`. -/
  | unsigned
  /-- `'x'` and `'X'`. -/
  | hex
  /-- `'p'`. -/
  | pointer
  /-- `'%'`. -/
  | percent
  /-- `default`. -/
  | other
  deriving DecidableEq

/-- The case the conversion character `c` selects. -/
def Conversion.of (c : UInt8) : Conversion :=
  if c = 99 then .char
  else if c = 115 then .string
  else if c = 100 ∨ c = 105 then .signed
  else if c = 117 then .unsigned
  else if c = 120 ∨ c = 88 then .hex
  else if c = 112 then .pointer
  else if c = 37 then .percent
  else .other

section Loop

variable (size : Nat) (fmt : Memory) (args : Nat → Nat) (strings : Memory)

/-- `while (*str && out_idx < size - 1) buf[out_idx++] = *str++;` from `source[str]`, with
`fuel = size - 1 - out_idx`. -/
def copyString (source : Memory) : (fuel str : Nat) → PrintState → PrintState
  | 0, _, st => st
  | fuel + 1, str, st =>
      if source str = 0 then st else copyString source fuel (str + 1) (st.write (source str))

/-- `for (int j = 0; j < len && out_idx < size - 1; j++) buf[out_idx++] = tmp[j];` from `j`,
with `count = len - j`. -/
def copyDigits (tmp : Memory) : (j count : Nat) → PrintState → PrintState
  | _, 0, st => st
  | j, count + 1, st =>
      if st.outIdx < size - 1 then copyDigits tmp (j + 1) count (st.write (tmp j)) else st

/-- A numeric conversion: `len = int_to_string(value, base, is_signed, width, pad_char, tmp,
sizeof(tmp))`, then `len` bytes of `tmp` copied into `buf`. -/
def convertNumber (st : PrintState) (value : Nat) (base : Int) (isSigned : Bool) (width : Int)
    (padChar : UInt8) : PrintState :=
  let result := intToString value base isSigned width padChar st.tmp 24 st.stack
  copyDigits size result.2.1 0 result.1 { st with tmp := result.2.1, stack := result.2.2 }

/-- The `switch (fmt[i])` on the conversion character `c`; the words `va_arg` takes are
`args st.arg`, `args (st.arg + 1)`, …. -/
def convert (st : PrintState) (c : UInt8) : PrintState :=
  let taken := { st with arg := st.arg + 1 }
  match Conversion.of c with
  | .char => taken.emit size (UInt8.ofNat (args st.arg))
  | .string => copyString (stringSource strings (args st.arg)) (size - 1 - st.outIdx) 0 taken
  | .signed =>
    convertNumber size taken (signedArg st.longFlag (args st.arg)) 10 true (toInt32 st.width)
      st.padChar
  | .unsigned =>
    convertNumber size taken (unsignedArg st.longFlag (args st.arg)) 10 false (toInt32 st.width)
      st.padChar
  | .hex =>
    convertNumber size taken (unsignedArg st.longFlag (args st.arg)) 16 false (toInt32 st.width)
      st.padChar
  | .pointer =>
    convertNumber size ((taken.emit size 48).emit size 120) (args st.arg % 2 ^ 64) 16 false 16 48
  | .percent => st.emit size 37
  | .other => (st.emit size 37).emit size c

/-- One step of `kvsnprintf`: the loop's test, one byte of a conversion's specification, or the
conversion with the loop's `i++`. -/
def step (st : PrintState) : PrintState :=
  match st.phase with
  | .test =>
      if fmt st.i = 0 ∨ ¬st.outIdx < size - 1 then
        { st with phase := .done, buf := Function.update st.buf st.outIdx 0 }
      else if fmt st.i = 37 then
        { st with phase := .zeroFlag, i := st.i + 1, width := 0, padChar := 32, longFlag := false }
      else { st.write (fmt st.i) with i := st.i + 1 }
  | .zeroFlag =>
      if fmt st.i = 48 then { st with phase := .width, i := st.i + 1, padChar := 48 }
      else { st with phase := .width }
  | .width =>
      if 48 ≤ fmt st.i ∧ fmt st.i ≤ 57 then
        { st with i := st.i + 1, width := (st.width * 10 + ((fmt st.i).toNat - 48)) % 2 ^ 32 }
      else { st with phase := .long }
  | .long =>
      if fmt st.i = 108 then { st with phase := .longLong, i := st.i + 1, longFlag := true }
      else { st with phase := .conversion }
  | .longLong =>
      if fmt st.i = 108 then { st with phase := .conversion, i := st.i + 1 }
      else { st with phase := .conversion }
  | .conversion => { convert size args strings st (fmt st.i) with phase := .test, i := st.i + 1 }
  | .done => st

/-- `n` steps of `kvsnprintf`. -/
def run : Nat → PrintState → PrintState
  | 0, st => st
  | n + 1, st => run n (step size fmt args strings st)

/-- `kvsnprintf(buf, size, fmt, args)` given `fuel` steps: the `int` it returns and `buf`, once
the loop has ended. `tmp` and `stack` are the stack bytes its numeric conversions use. -/
def kvsnprintf (buf : Memory) (fuel : Nat) (tmp : Memory) (stack : Int → UInt8) :
    Option (Int × Memory) :=
  if size = 0 then some (0, buf)
  else
    let st := run size fmt args strings fuel (initial buf tmp stack)
    if st.phase = .done then some (toInt32 st.outIdx, st.buf) else none

example : (kvsnprintf 16 (fun index => [37, 53, 100, 33].getD index 0) (fun _ => 42) (fun _ => 0)
    (fun _ => 0) 12 (fun _ => 0) fun _ => 0).map (fun result => (result.1, (List.range 7).map result.2)) =
      some (6, [32, 32, 32, 52, 50, 33, 0]) := by
  decide

end Loop

/-! ## `buf` -/

/-- `out_idx` is below `size`, and `buf` holds its first bytes from `size` on. -/
structure Bounded (size : Nat) (buf : Memory) (st : PrintState) : Prop where
  room : st.outIdx < size
  frame : ∀ index, size ≤ index → st.buf index = buf index

/-- What holds at every step of `kvsnprintf`: `Bounded`, and once the loop has ended,
`buf[out_idx]` is the NUL. -/
structure Safe (size : Nat) (buf : Memory) (st : PrintState) extends Bounded size buf st : Prop where
  terminated : st.phase = .done → st.buf st.outIdx = 0

section Safety

variable {size : Nat} {buf : Memory}

theorem Bounded.write {st : PrintState} (bounded : Bounded size buf st) (c : UInt8)
    (guard : st.outIdx < size - 1) : Bounded size buf (st.write c) where
  room := by simp only [write_outIdx]; omega
  frame index beyond := by
    rw [write_buf, Function.update_noteq (by omega)]
    exact bounded.frame index beyond

theorem Bounded.emit {st : PrintState} (bounded : Bounded size buf st) (c : UInt8) :
    Bounded size buf (st.emit size c) := by
  unfold PrintState.emit
  split
  · exact bounded.write c ‹_›
  · exact bounded

theorem Bounded.copyString (source : Memory) :
    ∀ fuel str (st : PrintState), fuel + st.outIdx ≤ size - 1 → Bounded size buf st →
      Bounded size buf (copyString source fuel str st)
  | 0, _, _, _, bounded => bounded
  | fuel + 1, str, st, enough, bounded => by
    rw [FreeCore.Printf.copyString]
    split
    · exact bounded
    · exact Bounded.copyString source fuel _ _ (by simp only [write_outIdx]; omega)
        (bounded.write _ (by omega))

theorem Bounded.copyDigits (tmp : Memory) :
    ∀ j count (st : PrintState), Bounded size buf st →
      Bounded size buf (copyDigits size tmp j count st)
  | _, 0, _, bounded => bounded
  | j, count + 1, st, bounded => by
    rw [FreeCore.Printf.copyDigits]
    split
    · exact Bounded.copyDigits tmp _ _ _ (bounded.write _ ‹_›)
    · exact bounded

theorem Bounded.convert (args : Nat → Nat) (strings : Memory) {st : PrintState}
    (bounded : Bounded size buf st) (c : UInt8) : Bounded size buf (convert size args strings st c) := by
  have taken : Bounded size buf { st with arg := st.arg + 1 } := ⟨bounded.room, bounded.frame⟩
  have number : ∀ (st : PrintState) value base isSigned width padChar, Bounded size buf st →
      Bounded size buf (convertNumber size st value base isSigned width padChar) :=
    fun _ _ _ _ _ _ bounded => Bounded.copyDigits _ _ _ _ ⟨bounded.room, bounded.frame⟩
  unfold FreeCore.Printf.convert
  cases Conversion.of c
  case char => exact taken.emit _
  case string => exact Bounded.copyString _ _ _ _ (by have := bounded.room; simp only; omega) taken
  case pointer => exact number _ _ _ _ _ _ ((taken.emit _).emit _)
  case percent => exact bounded.emit _
  case other => exact (bounded.emit _).emit _
  all_goals exact number _ _ _ _ _ _ taken

variable (fmt : Memory) (args : Nat → Nat) (strings : Memory)

/-- One step keeps `Safe`. -/
theorem Safe.step {st : PrintState} (safe : Safe size buf st) :
    Safe size buf (step size fmt args strings st) := by
  have keep : ∀ next : PrintState, next.outIdx = st.outIdx → next.buf = st.buf →
      next.phase ≠ .done → Safe size buf next := fun next sameIdx sameBuf running =>
    ⟨⟨sameIdx ▸ safe.room, fun index beyond => by rw [sameBuf]; exact safe.frame index beyond⟩,
      fun done => absurd done running⟩
  unfold FreeCore.Printf.step
  cases phaseEq : st.phase <;> dsimp only
  case test =>
    split_ifs with stop percent
    · refine ⟨⟨safe.room, fun index beyond => ?_⟩, fun _ => Function.update_same _ _ _⟩
      show Function.update st.buf st.outIdx 0 index = buf index
      rw [Function.update_noteq (by have := safe.room; omega)]
      exact safe.frame index beyond
    · exact keep _ rfl rfl nofun
    · have written := safe.write (fmt st.i) (by omega)
      exact ⟨⟨written.room, written.frame⟩, by simp [PrintState.write, phaseEq]⟩
  case conversion =>
    have converted := safe.convert args strings (fmt st.i)
    exact ⟨⟨converted.room, converted.frame⟩, nofun⟩
  case done => exact safe
  all_goals split_ifs <;> exact keep _ rfl rfl (by simp [phaseEq])

/-- Every run keeps `Safe`. -/
theorem Safe.run : ∀ n {st : PrintState}, Safe size buf st →
    Safe size buf (run size fmt args strings n st)
  | 0, _, safe => safe
  | n + 1, _, safe => Safe.run n (safe.step fmt args strings)

theorem safe_initial (positive : 0 < size) (tmp : Memory) (stack : Int → UInt8) :
    Safe size buf (initial buf tmp stack) :=
  ⟨⟨positive, fun _ _ => rfl⟩, nofun⟩

/-- With a nonzero `size`, when the loop has ended within the steps given, `kvsnprintf` returns
`out_idx` as an `int`, with `out_idx` below `size`, `buf[out_idx]` the NUL and `buf` unchanged
from `size` on. -/
theorem kvsnprintf_terminated (positive : 0 < size) {buf : Memory} {fuel : Nat} {tmp : Memory}
    {stack : Int → UInt8} {result : Int} {out : Memory}
    (returned : kvsnprintf size fmt args strings buf fuel tmp stack = some (result, out)) :
    ∃ outIdx < size, result = toInt32 outIdx ∧ out outIdx = 0 ∧
      ∀ index, size ≤ index → out index = buf index := by
  have safe : Safe size buf (run size fmt args strings fuel (initial buf tmp stack)) :=
    Safe.run fmt args strings fuel (safe_initial positive tmp stack)
  rw [kvsnprintf, if_neg (Nat.pos_iff_ne_zero.mp positive)] at returned
  dsimp only at returned
  split at returned
  · rename_i ended
    cases returned
    exact ⟨_, safe.room, rfl, safe.terminated ended, safe.frame⟩
  · cases returned

end Safety

/-! ## The format -/

section Format

variable (size : Nat) (fmt : Memory) (args : Nat → Nat) (strings : Memory)

theorem run_succ (n : Nat) (st : PrintState) :
    run size fmt args strings (n + 1) st = run size fmt args strings n (step size fmt args strings st) :=
  rfl

/-- The specification of a conversion never steps over the NUL: from its `0` flag, width, `l`,
`ll` or conversion character at the NUL, the run takes the NUL as the conversion character and
comes back to the loop's test one byte past it, which the test then reads. -/
theorem run_past_nul {st : PrintState} (nul : fmt st.i = 0)
    (converting : st.phase = .zeroFlag ∨ st.phase = .width ∨ st.phase = .long ∨
      st.phase = .longLong ∨ st.phase = .conversion) :
    ∃ n ≤ 4, (run size fmt args strings n st).phase = .test ∧
      (run size fmt args strings n st).i = st.i + 1 := by
  rcases converting with phase | phase | phase | phase | phase
  · exact ⟨4, le_rfl, by simp [run, step, phase, nul]⟩
  · exact ⟨3, by decide, by simp [run, step, phase, nul]⟩
  · exact ⟨2, by decide, by simp [run, step, phase, nul]⟩
  · exact ⟨2, by decide, by simp [run, step, phase, nul]⟩
  · exact ⟨1, by decide, by simp [run, step, phase]⟩

end Format

/-! ## The stack around the `tmp` of `int_to_string` -/

section Stack

variable (size : Nat) (fmt : Memory) (args : Nat → Nat) (strings : Memory)

theorem copyString_stack (source : Memory) :
    ∀ fuel str (st : PrintState), (copyString source fuel str st).stack = st.stack
  | 0, _, _ => rfl
  | fuel + 1, str, st => by
    rw [FreeCore.Printf.copyString]
    split
    · rfl
    · exact copyString_stack source fuel _ _

theorem copyDigits_stack (tmp : Memory) :
    ∀ j count (st : PrintState), (copyDigits size tmp j count st).stack = st.stack
  | _, 0, _ => rfl
  | j, count + 1, st => by
    rw [FreeCore.Printf.copyDigits]
    split
    · exact copyDigits_stack tmp _ _ _
    · rfl

theorem signedArg_lt (longFlag : Bool) (word : Nat) : signedArg longFlag word < 2 ^ 64 := by
  unfold signedArg
  split_ifs <;> omega

theorem unsignedArg_lt (longFlag : Bool) (word : Nat) : unsignedArg longFlag word < 2 ^ 64 := by
  unfold unsignedArg
  split_ifs <;> omega

/-- A numeric conversion in base 10 or 16 changes the stack only over `tmp[64 - max(21, width)]`
to `tmp[64]`, and fills `tmp[64 - width]` to `tmp[42]` with the pad character. -/
theorem convertNumber_stack (st : PrintState) {value : Nat} (small : value < 2 ^ 64) {base : Int}
    (bases : base = 10 ∨ base = 16) (isSigned : Bool) (width : Int) (padChar : UInt8) :
    (∀ index, index < 64 - max 21 width ∨ 64 < index →
      (convertNumber size st value base isSigned width padChar).stack index = st.stack index) ∧
    ∀ index, 64 - width ≤ index → index < 43 →
      (convertNumber size st value base isSigned width padChar).stack index = padChar := by
  have short := numberLength_le small (show 10 ≤ base.toNat by omega) isSigned
  obtain ⟨frame, -, padded⟩ := intToString_stack value (show 2 ≤ base by omega)
    (show base ≤ 16 by omega) isSigned width padChar st.tmp (show 0 < 24 by decide) st.stack
  rw [convertNumber, copyDigits_stack]
  exact ⟨fun index outside => frame index (by omega),
    fun index above below => padded index above (by omega)⟩

/-- The conversion step changes the stack around the `tmp` of `int_to_string` only over
`tmp[64 - max(21, width)]` to `tmp[64]`, and a `%d`, `%i`, `%u`, `%x` or `%X` fills
`tmp[64 - width]` to `tmp[42]` with the pad character: below `tmp` once `width` passes 64. -/
theorem step_conversion_stack {st : PrintState} (converting : st.phase = .conversion) :
    (∀ index, index < 64 - max 21 (toInt32 st.width) ∨ 64 < index →
      (step size fmt args strings st).stack index = st.stack index) ∧
    (Conversion.of (fmt st.i) = .signed ∨ Conversion.of (fmt st.i) = .unsigned ∨
        Conversion.of (fmt st.i) = .hex →
      ∀ index, 64 - toInt32 st.width ≤ index → index < 43 →
        (step size fmt args strings st).stack index = st.padChar) := by
  have stepped : (step size fmt args strings st).stack =
      (convert size args strings st (fmt st.i)).stack := by
    rw [step, converting]
  rw [stepped]
  unfold FreeCore.Printf.convert
  cases Conversion.of (fmt st.i) <;> dsimp only
  case signed =>
    have := convertNumber_stack size { st with arg := st.arg + 1 }
      (signedArg_lt st.longFlag (args st.arg)) (.inl rfl) true (toInt32 st.width) st.padChar
    exact ⟨this.1, fun _ => this.2⟩
  case unsigned =>
    have := convertNumber_stack size { st with arg := st.arg + 1 }
      (unsignedArg_lt st.longFlag (args st.arg)) (.inl rfl) false (toInt32 st.width) st.padChar
    exact ⟨this.1, fun _ => this.2⟩
  case hex =>
    have := convertNumber_stack size { st with arg := st.arg + 1 }
      (unsignedArg_lt st.longFlag (args st.arg)) (.inr rfl) false (toInt32 st.width) st.padChar
    exact ⟨this.1, fun _ => this.2⟩
  case pointer =>
    refine ⟨fun index outside => ?_, fun numeric => absurd numeric (by decide)⟩
    rw [(convertNumber_stack size _ (Nat.mod_lt _ (by decide)) (.inr rfl) false 16 48).1 index
      (by omega), emit_stack, emit_stack]
  case string =>
    exact ⟨fun index _ => congrFun (copyString_stack _ _ _ _) index,
      fun numeric => absurd numeric (by decide)⟩
  all_goals exact ⟨fun _ _ => by simp only [emit_stack], fun numeric => absurd numeric (by decide)⟩

end Stack

/-! ## What `kvsnprintf` reads and writes -/

section ReadsAndWrites

variable (size : Nat) (fmt : Memory) (args : Nat → Nat) (strings : Memory)

/-- With a nonzero `size`: every state of every run of `kvsnprintf` is `Safe`, and when the loop
ends, the result is `out_idx` as an `int`, below `size`, with `buf[out_idx]` the NUL and `buf`
unchanged from `size` on. A `%` just before the NUL, met with room in `buf`, brings the run back
to the loop's test one byte past the NUL, which the test reads. The conversion step changes the
stack around the `tmp` of `int_to_string` only over `tmp[64 - max(21, width)]` to `tmp[64]`,
and a numeric conversion fills `tmp[64 - width]` to `tmp[42]` with the pad character. -/
theorem kvsnprintf_reads_and_writes (positive : 0 < size) :
    (∀ buf tmp stack n, Safe size buf (run size fmt args strings n (initial buf tmp stack))) ∧
    (∀ buf fuel tmp stack result out,
      kvsnprintf size fmt args strings buf fuel tmp stack = some (result, out) →
      ∃ outIdx < size, result = toInt32 outIdx ∧ out outIdx = 0 ∧
        ∀ index, size ≤ index → out index = buf index) ∧
    (∀ st : PrintState, st.phase = .test → fmt st.i = 37 → st.outIdx < size - 1 →
      fmt (st.i + 1) = 0 →
      ∃ n ≤ 5, (run size fmt args strings n st).phase = .test ∧
        (run size fmt args strings n st).i = st.i + 2) ∧
    ∀ st : PrintState, st.phase = .conversion →
      (∀ index, index < 64 - max 21 (toInt32 st.width) ∨ 64 < index →
        (step size fmt args strings st).stack index = st.stack index) ∧
      (Conversion.of (fmt st.i) = .signed ∨ Conversion.of (fmt st.i) = .unsigned ∨
        Conversion.of (fmt st.i) = .hex →
        ∀ index, 64 - toInt32 st.width ≤ index → index < 43 →
          (step size fmt args strings st).stack index = st.padChar) := by
  refine ⟨fun buf tmp stack n => Safe.run fmt args strings n (safe_initial positive tmp stack),
    fun _ _ _ _ _ _ returned => kvsnprintf_terminated fmt args strings positive returned,
    fun st testing percent room nul => ?_,
    fun st converting => step_conversion_stack size fmt args strings converting⟩
  have opened : (step size fmt args strings st).phase = .zeroFlag ∧
      (step size fmt args strings st).i = st.i + 1 := by
    simp [step, testing, percent, room, show fmt st.i ≠ 0 by rw [percent]; decide]
  obtain ⟨n, fewer, back, past⟩ :=
    run_past_nul size fmt args strings (opened.2 ▸ nul) (.inl opened.1)
  exact ⟨n + 1, by omega, back, by rw [run_succ, past, opened.2]⟩

/-- The format `"%"`, followed past its NUL by `A`. -/
def percentThenA : Memory := fun index => [37, 0, 65].getD index 0

/-- The format `"%"`, followed past its NUL by another NUL. -/
def percentAlone : Memory := fun index => [37].getD index 0

/-- The format `"%65d"`. -/
def wideDecimal : Memory := fun index => [37, 54, 53, 100].getD index 0

/-- On `"%"` with `size = 4`, the run comes back to the test at index 2, past the NUL at
index 1: `kvsnprintf` returns 3 with `%`, the NUL and `A` in `buf` when the byte after the NUL is
`A`, and 2 when it is a NUL. On `"%65d"` the conversion writes a space at `tmp[-1]`, the byte
below the `tmp` of `int_to_string`. -/
theorem kvsnprintf_reads_past_nul_and_writes_below_tmp :
    (∃ n ≤ 5, (run 4 percentThenA (fun _ => 0) (fun _ => 0) n
        (initial (fun _ => 0) (fun _ => 0) fun _ => 0)).phase = .test ∧
      (run 4 percentThenA (fun _ => 0) (fun _ => 0) n
        (initial (fun _ => 0) (fun _ => 0) fun _ => 0)).i = 2) ∧
    (kvsnprintf 4 percentThenA (fun _ => 0) (fun _ => 0) (fun _ => 0) 10 (fun _ => 0)
      fun _ => 0).map (fun result => (result.1, result.2 0, result.2 1, result.2 2, result.2 3)) =
        some (3, 37, 0, 65, 0) ∧
    (kvsnprintf 4 percentAlone (fun _ => 0) (fun _ => 0) (fun _ => 0) 10 (fun _ => 0)
      fun _ => 0).map (fun result => (result.1, result.2 0, result.2 1, result.2 2)) =
        some (2, 37, 0, 0) ∧
    (step 40 wideDecimal (fun _ => 0) (fun _ => 0) (run 40 wideDecimal (fun _ => 0) (fun _ => 0) 6
      (initial (fun _ => 0) (fun _ => 0) fun _ => 90))).stack (-1) = 32 :=
  ⟨(kvsnprintf_reads_and_writes 4 percentThenA _ _ (by decide)).2.2.1 _ rfl (by decide)
      (by decide) (by decide),
    by decide, by decide,
    ((kvsnprintf_reads_and_writes 40 wideDecimal _ _ (by decide)).2.2.2 _ (by decide)).2
      (by decide) (-1) (by decide) (by decide)⟩

end ReadsAndWrites

end FreeCore.Printf
