import FreeCore.Keyboard.Buffer

/-! # The PS/2 keyboard driver

The flag and LED bytes of `idt.c`, `ps2_keyboard_interrupt`, and the reader's
`ps2_scancode_to_ascii` and `ps2_keyboard_get_char`, interleaved in any order. The reader takes
a scancode in one step, `kbBufferGet`: `kb_buffer_get` with no append between its accesses. -/

namespace FreeCore.Keyboard

/-! ## Flag bits -/

/-- The one-bit mask of bit `i`. -/
def bit (i : Nat) : UInt8 := ⟨BitVec.twoPow 8 i⟩

/-- `(x & flag) != 0`, the driver's test of a flag bit. -/
def hasFlag (x flag : UInt8) : Bool := x &&& flag != 0

@[simp] theorem toBitVec_lor (x y : UInt8) : (x ||| y).toBitVec = x.toBitVec ||| y.toBitVec := rfl

@[simp] theorem toBitVec_land (x y : UInt8) : (x &&& y).toBitVec = x.toBitVec &&& y.toBitVec :=
  rfl

@[simp] theorem toBitVec_xor (x y : UInt8) : (x ^^^ y).toBitVec = x.toBitVec ^^^ y.toBitVec := rfl

@[simp] theorem toBitVec_complement (x : UInt8) : (~~~x).toBitVec = ~~~x.toBitVec := rfl

@[simp] theorem toBitVec_bit (i : Nat) : (bit i).toBitVec = BitVec.twoPow 8 i := rfl

/-- A one-bit flag is set exactly when the byte has that bit. -/
theorem hasFlag_bit (x : UInt8) {i : Nat} (lt : i < 8) :
    hasFlag x (bit i) = x.toBitVec.getLsbD i := by
  have ne : bit i ≠ 0 := fun zero => by
    simpa [BitVec.getLsbD_twoPow, lt] using congrArg (fun v => v.toBitVec.getLsbD i) zero
  unfold hasFlag
  cases set : x.toBitVec.getLsbD i
  · have : x &&& bit i = 0 := UInt8.eq_of_toBitVec_eq (by simp [BitVec.and_twoPow, set])
    simp [this]
  · have : x &&& bit i = bit i := UInt8.eq_of_toBitVec_eq (by simp [BitVec.and_twoPow, set])
    simpa [this] using ne

/-! ## Constants of `keyboard.h` -/

def kbKeyLeftCtrl : UInt8 := 0x1D
def kbKeyLeftShift : UInt8 := 0x2A
def kbKeyRightShift : UInt8 := 0x36
def kbKeyLeftAlt : UInt8 := 0x38
def kbKeyCapsLock : UInt8 := 0x3A
def kbKeyNumLock : UInt8 := 0x45
def kbKeyScrollLock : UInt8 := 0x46

def kbLedScrollLock : UInt8 := 0x01
def kbLedNumLock : UInt8 := 0x02
def kbLedCapsLock : UInt8 := 0x04

def kbStateShift : UInt8 := 0x01
def kbStateCtrl : UInt8 := 0x02
def kbStateAlt : UInt8 := 0x04
def kbStateCapsLock : UInt8 := 0x08
def kbStateNumLock : UInt8 := 0x10
def kbStateScrollLock : UInt8 := 0x20

@[simp] theorem kbLedScrollLock_eq : kbLedScrollLock = bit 0 := by decide
@[simp] theorem kbLedNumLock_eq : kbLedNumLock = bit 1 := by decide
@[simp] theorem kbLedCapsLock_eq : kbLedCapsLock = bit 2 := by decide
@[simp] theorem kbStateShift_eq : kbStateShift = bit 0 := by decide
@[simp] theorem kbStateCtrl_eq : kbStateCtrl = bit 1 := by decide
@[simp] theorem kbStateAlt_eq : kbStateAlt = bit 2 := by decide
@[simp] theorem kbStateCapsLock_eq : kbStateCapsLock = bit 3 := by decide
@[simp] theorem kbStateNumLock_eq : kbStateNumLock = bit 4 := by decide
@[simp] theorem kbStateScrollLock_eq : kbStateScrollLock = bit 5 := by decide

/-! ## The translation tables -/

/-- A table of `char`s as the bytes they are. -/
def bytesOf (text : String) : List UInt8 := text.toList.map fun c => c.toNat.toUInt8

/-- `scancode_to_ascii_low`, sixteen key codes a line. -/
def scancodeToAsciiLow : List UInt8 :=
  bytesOf ("\x00\x001234567890-=\x08\t" ++
    "qwertyuiop[]\n\x00as" ++
    "dfghjkl;\x27\x60\x00\x5czxcv" ++
    "bnm,./\x00*\x00 \x00\x00\x00\x00\x00\x00" ++
    "\x00\x00\x00\x00\x00\x00\x00789-456+1" ++
    "230.\x00\x00\x00\x00\x00")

/-- `scancode_to_ascii_high`, the shifted table, sixteen key codes a line. -/
def scancodeToAsciiHigh : List UInt8 :=
  bytesOf ("\x00\x00!@#$%^&*()_+\x08\t" ++
    "QWERTYUIOP\x7b\x7d\n\x00AS" ++
    "DFGHJKL:\x22~\x00|ZXCV" ++
    "BNM<>?\x00*\x00 \x00\x00\x00\x00\x00\x00" ++
    "\x00\x00\x00\x00\x00\x00\x00789-456+1" ++
    "230.\x00\x00\x00\x00\x00")

example : scancodeToAsciiLow.length = 89 ∧ scancodeToAsciiHigh.length = 89 := by decide

/-! ## The driver's state and functions -/

/-- The keys the driver keeps a flag for while they are held. -/
inductive Modifier
  | shift
  | ctrl
  | alt
  deriving DecidableEq

/-- The keys whose flag each press toggles, with an LED. -/
inductive Lock
  | caps
  | num
  | scroll
  deriving DecidableEq

def Modifier.flag : Modifier → UInt8
  | .shift => kbStateShift
  | .ctrl => kbStateCtrl
  | .alt => kbStateAlt

def Lock.flag : Lock → UInt8
  | .caps => kbStateCapsLock
  | .num => kbStateNumLock
  | .scroll => kbStateScrollLock

def Lock.led : Lock → UInt8
  | .caps => kbLedCapsLock
  | .num => kbLedNumLock
  | .scroll => kbLedScrollLock

/-- The cases of the `switch` on a key code in `ps2_scancode_to_ascii`; the handler's `switch` on
a released key has the modifier cases. -/
inductive KeyKind
  | modifier (key : Modifier)
  | lock (key : Lock)
  | character
  deriving DecidableEq

def KeyKind.of (keyCode : UInt8) : KeyKind :=
  if keyCode = kbKeyLeftShift ∨ keyCode = kbKeyRightShift then .modifier .shift
  else if keyCode = kbKeyLeftCtrl then .modifier .ctrl
  else if keyCode = kbKeyLeftAlt then .modifier .alt
  else if keyCode = kbKeyCapsLock then .lock .caps
  else if keyCode = kbKeyNumLock then .lock .num
  else if keyCode = kbKeyScrollLock then .lock .scroll
  else .character

/-- The driver's statics: `keyboard_state`, `keyboard_leds`, the handler's `extended`, and
`kb_buffer`. -/
structure Driver where
  keyboardState : UInt8
  keyboardLeds : UInt8
  extended : Bool
  buffer : KbBuffer

/-- The statics zeroed, as `ps2_keyboard_init` leaves the LEDs and the buffer. -/
def Driver.initial : Driver := ⟨0, 0, false, KbBuffer.empty⟩

/-- `ps2_keyboard_set_leds`: record the LEDs; sending them to the keyboard is device I/O. -/
def ps2KeyboardSetLeds (k : Driver) (leds : UInt8) : Driver := { k with keyboardLeds := leds }

/-- The `uppercase` of `ps2_scancode_to_ascii`: shift and caps lock cancel. -/
def uppercase (k : Driver) : Bool :=
  hasFlag k.keyboardState kbStateShift ^^ hasFlag k.keyboardState kbStateCapsLock

/-- `ps2_scancode_to_ascii`: a release and a key code past the tables give 0; a modifier's press
sets its flag, a lock's press toggles its flag and LED, and both give 0; any other key is looked
up in the table `uppercase` picks. -/
def ps2ScancodeToAscii (k : Driver) (scancode : UInt8) (release : Bool) : Driver × UInt8 :=
  let keyCode := scancode &&& 0x7F
  if release then (k, 0)
  else if scancodeToAsciiLow.length ≤ keyCode.toNat then (k, 0)
  else
    match KeyKind.of keyCode with
    | .modifier key => ({ k with keyboardState := k.keyboardState ||| key.flag }, 0)
    | .lock key =>
        (ps2KeyboardSetLeds { k with keyboardState := k.keyboardState ^^^ key.flag }
          (k.keyboardLeds ^^^ key.led), 0)
    | .character =>
        (k, if uppercase k then scancodeToAsciiHigh.getD keyCode.toNat 0
          else scancodeToAsciiLow.getD keyCode.toNat 0)

/-- The flag byte after the handler's `switch` on a scancode: a modifier's release clears its
flag. -/
def releaseState (state scancode : UInt8) : UInt8 :=
  if scancode &&& 0x80 != 0 then
    match KeyKind.of (scancode &&& 0x7F) with
    | .modifier key => state &&& ~~~key.flag
    | _ => state
  else state

/-- `ps2_keyboard_interrupt`, given the scancode `inb` read: an `0xE0` prefix only sets
`extended`; any other scancode updates the flags on a release, goes to `kb_buffer_add`, and
clears `extended`. -/
def ps2KeyboardInterrupt (k : Driver) (scancode : UInt8) : Driver :=
  if scancode = 0xE0 then { k with extended := true }
  else
    { k with
      keyboardState := releaseState k.keyboardState scancode
      buffer := kbBufferAdd k.buffer scancode
      extended := false }

/-- `ps2_keyboard_available`. -/
def ps2KeyboardAvailable (k : Driver) : Bool := 0 < k.buffer.count

/-- `ps2_keyboard_get_scancode`: `kb_buffer_get`, with its `-1` read as 0. -/
def ps2KeyboardGetScancode (k : Driver) : Driver × UInt8 :=
  let got := kbBufferGet k.buffer
  ({ k with buffer := got.1 }, if got.2 < 0 then 0 else got.2.toNat.toUInt8)

/-- Where the reader is in `ps2_keyboard_get_char`. -/
inductive ReaderPc
  /-- Waiting in its first loop for a scancode, or between calls. -/
  | waiting
  /-- A scancode was taken; converting it comes next. -/
  | fetched (scancode : UInt8)
  /-- The scancode gave `c`; the loop test `c == 0 && ps2_keyboard_available()` comes next. -/
  | converted (c : UInt8)
  deriving DecidableEq

/-- The reader executes the next statement of `ps2_keyboard_get_char`, with the character it
returns when the statement is its `return`. -/
def readerStep (k : Driver) : ReaderPc → Driver × ReaderPc × Option UInt8
  | .waiting =>
      if ps2KeyboardAvailable k then
        let got := ps2KeyboardGetScancode k
        (got.1, .fetched got.2, none)
      else (k, .waiting, none)
  | .fetched scancode =>
      let converted := ps2ScancodeToAscii k scancode (scancode &&& 0x80 != 0)
      (converted.1, .converted converted.2, none)
  | .converted c =>
      if c = 0 ∧ ps2KeyboardAvailable k then
        let got := ps2KeyboardGetScancode k
        (got.1, .fetched got.2, none)
      else (k, .waiting, some c)

/-- What happens next: the keyboard interrupt delivers a scancode, or the reader executes its next
statement. -/
inductive Input
  | interrupt (scancode : UInt8)
  | read

/-- The driver with the reader's position in `ps2_keyboard_get_char`. -/
structure Console where
  driver : Driver
  reader : ReaderPc

namespace Console

def initial : Console := ⟨Driver.initial, .waiting⟩

def step (s : Console) : Input → Console × Option UInt8
  | .interrupt scancode => (⟨ps2KeyboardInterrupt s.driver scancode, s.reader⟩, none)
  | .read =>
      let next := readerStep s.driver s.reader
      (⟨next.1, next.2.1⟩, next.2.2)

/-- A run, with the characters `ps2_keyboard_get_char` returned. -/
def run (s : Console) : List Input → Console × List UInt8
  | [] => (s, [])
  | input :: inputs =>
      let next := s.step input
      let rest := next.1.run inputs
      (rest.1, next.2.toList ++ rest.2)

theorem run_append (s : Console) (first second : List Input) :
    s.run (first ++ second) =
      ((s.run first).1.run second |>.1, (s.run first).2 ++ ((s.run first).1.run second).2) := by
  induction first generalizing s with
  | nil => rfl
  | cons input inputs ih => simp [run, ih]

end Console

/-! ## The extended-key prefix -/

/-- The handler keeps nothing of an `0xE0` prefix once the next scancode arrives. -/
theorem ps2KeyboardInterrupt_after_prefix (k : Driver) {scancode : UInt8}
    (other : scancode ≠ 0xE0) :
    ps2KeyboardInterrupt (ps2KeyboardInterrupt k 0xE0) scancode =
      ps2KeyboardInterrupt k scancode := by
  simp [ps2KeyboardInterrupt, other]

namespace Console

/-- Inserting an `0xE0` prefix before any other scancode, anywhere in any run, changes neither
the state reached nor a character returned: an extended key reads as the key with the same base
code, Up (`E0 48`) as keypad `8`. -/
theorem run_extended_prefix_ignored (s : Console) (before after : List Input) {scancode : UInt8}
    (other : scancode ≠ 0xE0) :
    s.run (before ++ .interrupt 0xE0 :: .interrupt scancode :: after) =
      s.run (before ++ .interrupt scancode :: after) := by
  simp only [run_append]
  simp [run, step, ps2KeyboardInterrupt_after_prefix _ other]

/-- The prefix in front of the Up key's press, with the reader then taking its character. -/
theorem up_arrow_reads_as_keypad_eight :
    (0x48 : UInt8) ≠ 0xE0 ∧
      initial.run ([] ++ .interrupt 0xE0 :: .interrupt 0x48 :: [.read, .read, .read]) =
        initial.run ([] ++ .interrupt 0x48 :: [.read, .read, .read]) ∧
      (initial.run [.interrupt 0x48, .read, .read, .read]).2 = [0x38] :=
  ⟨by decide, run_extended_prefix_ignored initial [] [.read, .read, .read] (by decide), by rfl⟩

end Console

/-! ## The LEDs and the lock flags -/

/-- Each lock's LED bit, as last set, agrees with the lock's flag. -/
def LedsMatch (k : Driver) : Prop :=
  ∀ key : Lock, hasFlag k.keyboardLeds key.led = hasFlag k.keyboardState key.flag

/-- The handler's `switch` on a release touches no lock flag. -/
theorem hasFlag_releaseState (state scancode : UInt8) (key : Lock) :
    hasFlag (releaseState state scancode) key.flag = hasFlag state key.flag := by
  unfold releaseState
  split
  · split
    · rename_i pressed _
      cases pressed <;> cases key <;>
        simp [Modifier.flag, Lock.flag, hasFlag_bit, BitVec.getLsbD_twoPow]
    · rfl
  · rfl

theorem LedsMatch.interrupt {k : Driver} (leds : LedsMatch k) (scancode : UInt8) :
    LedsMatch (ps2KeyboardInterrupt k scancode) := by
  unfold ps2KeyboardInterrupt
  split
  · exact leds
  · intro key
    simp only [hasFlag_releaseState]
    exact leds key

theorem LedsMatch.getScancode {k : Driver} (leds : LedsMatch k) :
    LedsMatch (ps2KeyboardGetScancode k).1 :=
  leds

/-- A conversion sets a modifier flag, or toggles a lock's flag together with its LED. -/
theorem LedsMatch.toAscii {k : Driver} (leds : LedsMatch k) (scancode : UInt8) (release : Bool) :
    LedsMatch (ps2ScancodeToAscii k scancode release).1 := by
  unfold ps2ScancodeToAscii
  dsimp only
  split
  · exact leds
  split
  · exact leds
  intro key
  have := leds key
  cases kind : KeyKind.of (scancode &&& 0x7F) with
  | modifier pressed =>
      cases pressed <;> cases key <;>
        simp_all [Modifier.flag, Lock.flag, Lock.led, hasFlag_bit, BitVec.getLsbD_twoPow]
  | lock toggled =>
      cases toggled <;> cases key <;>
        simp_all [ps2KeyboardSetLeds, Lock.flag, Lock.led, hasFlag_bit, BitVec.getLsbD_twoPow]
  | character => simpa [kind] using this

namespace Console

theorem step_ledsMatch {s : Console} (leds : LedsMatch s.driver) (input : Input) :
    LedsMatch (s.step input).1.driver := by
  cases input with
  | interrupt scancode => exact leds.interrupt scancode
  | read =>
      cases pc : s.reader with
      | waiting =>
          simp only [step, readerStep, pc]
          split
          · exact leds.getScancode
          · exact leds
      | fetched scancode =>
          simp only [step, readerStep, pc]
          exact leds.toAscii _ _
      | converted c =>
          simp only [step, readerStep, pc]
          split
          · exact leds.getScancode
          · exact leds

theorem run_ledsMatch {s : Console} (leds : LedsMatch s.driver) (inputs : List Input) :
    LedsMatch (s.run inputs).1.driver := by
  induction inputs generalizing s with
  | nil => exact leds
  | cons input inputs ih => exact ih (step_ledsMatch leds input)

/-- Over every interleaving of interrupts and the reader's statements from the zeroed driver,
the LED bit the driver last set for each lock agrees with the lock's flag. -/
theorem initial_run_ledsMatch (inputs : List Input) : LedsMatch (initial.run inputs).1.driver :=
  run_ledsMatch (fun key => by cases key <;> rfl) inputs

end Console

/-! ## The shift flag -/

/-- A shift key's release, as the handler's `switch` sees it. -/
def isShiftRelease (scancode : UInt8) : Bool :=
  scancode &&& 0x80 != 0 && KeyKind.of (scancode &&& 0x7F) == .modifier .shift

/-- A shift key's press, as `ps2_scancode_to_ascii` sees it. -/
def isShiftPress (scancode : UInt8) : Bool :=
  scancode &&& 0x80 == 0 && KeyKind.of (scancode &&& 0x7F) == .modifier .shift

/-- Only a shift release clears the shift flag in the handler. -/
theorem hasFlag_releaseState_shift (state scancode : UInt8) :
    hasFlag (releaseState state scancode) kbStateShift =
      (hasFlag state kbStateShift && !isShiftRelease scancode) := by
  unfold releaseState isShiftRelease
  split
  · rename_i released
    simp only [released, Bool.true_and]
    split
    · rename_i pressed kind
      cases pressed <;>
        simp [kind, Modifier.flag, hasFlag_bit, BitVec.getLsbD_twoPow]
    · rename_i notModifier
      have : (KeyKind.of (scancode &&& 0x7F) == .modifier .shift) = false := by
        simpa using fun eq => notModifier .shift eq
      simp [this]
  · rename_i kept
    simp [kept]

/-- The key codes of the shift keys are inside the tables. -/
theorem toNat_lt_of_shift {keyCode : UInt8} (kind : KeyKind.of keyCode = .modifier .shift) :
    keyCode.toNat < scancodeToAsciiLow.length := by
  unfold KeyKind.of at kind
  split at kind
  · rename_i shift
    rcases shift with rfl | rfl <;> decide
  · repeat (split at kind <;> try cases kind)

/-- A conversion never clears the shift flag, and converting a shift press sets it. -/
theorem hasFlag_toAscii_shift (k : Driver) (scancode : UInt8) :
    hasFlag (ps2ScancodeToAscii k scancode (scancode &&& 0x80 != 0)).1.keyboardState
        kbStateShift =
      (hasFlag k.keyboardState kbStateShift || isShiftPress scancode) := by
  unfold ps2ScancodeToAscii isShiftPress
  dsimp only
  by_cases released : (scancode &&& 0x80 != 0) = true
  · have : (scancode &&& 0x80 == 0) = false := by simpa using released
    simp [released, this]
  have pressed : (scancode &&& 0x80 == 0) = true := by simpa using released
  rw [if_neg released, pressed, Bool.true_and]
  split
  · rename_i past
    have : (KeyKind.of (scancode &&& 0x7F) == .modifier .shift) = false := by
      simpa using fun kind => absurd (toNat_lt_of_shift kind) (Nat.not_lt.mpr past)
    simp [this]
  cases kind : KeyKind.of (scancode &&& 0x7F) with
  | modifier key => cases key <;> simp [Modifier.flag, hasFlag_bit, BitVec.getLsbD_twoPow]
  | lock key =>
      cases key <;> simp [ps2KeyboardSetLeds, Lock.flag, hasFlag_bit, BitVec.getLsbD_twoPow]
  | character => simp

namespace Console

/-- No step but a shift release reaching the handler clears the shift flag. -/
theorem step_keeps_shift {s : Console} (set : hasFlag s.driver.keyboardState kbStateShift)
    (input : Input) (notRelease : ∀ scancode, input = .interrupt scancode →
      isShiftRelease scancode = false) :
    hasFlag (s.step input).1.driver.keyboardState kbStateShift := by
  cases input with
  | interrupt scancode =>
      simp only [step, ps2KeyboardInterrupt]
      split
      · exact set
      · show hasFlag (releaseState _ scancode) kbStateShift
        rw [hasFlag_releaseState_shift, set, notRelease scancode rfl]
        rfl
  | read =>
      cases pc : s.reader with
      | waiting =>
          simp only [step, readerStep, pc]
          split <;> exact set
      | fetched scancode =>
          simp only [step, readerStep, pc]
          rw [hasFlag_toAscii_shift, set, Bool.true_or]
      | converted c =>
          simp only [step, readerStep, pc]
          split <;> exact set

theorem run_keeps_shift {s : Console} (set : hasFlag s.driver.keyboardState kbStateShift)
    (inputs : List Input)
    (noRelease : ∀ scancode, .interrupt scancode ∈ inputs → isShiftRelease scancode = false) :
    hasFlag (s.run inputs).1.driver.keyboardState kbStateShift := by
  induction inputs generalizing s with
  | nil => exact set
  | cons input inputs ih =>
      exact ih (step_keeps_shift set input fun scancode eq =>
          noRelease scancode (eq ▸ List.mem_cons_self _ _))
        fun scancode mem => noRelease scancode (List.mem_cons_of_mem _ mem)

/-- Once the reader converts a shift press, the shift flag stays set until a shift release
reaches the handler, whether or not the handler received this key's release before: a shift
tapped while the reader was behind leaves the flag stuck. -/
theorem shift_stays_set (s : Console) {scancode : UInt8} (at_press : s.reader = .fetched scancode)
    (press : isShiftPress scancode) (inputs : List Input)
    (noRelease : ∀ scancode, .interrupt scancode ∈ inputs → isShiftRelease scancode = false) :
    hasFlag (s.run (.read :: inputs)).1.driver.keyboardState kbStateShift := by
  apply run_keeps_shift _ inputs noRelease
  simp only [run, step, readerStep, at_press]
  rw [hasFlag_toAscii_shift, press, Bool.or_true]

/-- Shift pressed and released, then `a` pressed, all before the reader runs: the reader sets the
flag after the handler has seen the release, and returns `A`. -/
theorem shift_tap_then_a :
    let s := (initial.run [.interrupt 0x2A, .interrupt 0xAA, .interrupt 0x1E, .read]).1
    let rest : List Input := [.read, .read, .read, .read, .read, .read]
    hasFlag (s.run (.read :: rest)).1.driver.keyboardState kbStateShift ∧
      (s.run (.read :: rest)).2 = [0x41] :=
  ⟨shift_stays_set _ (by rfl) (by decide) _ (by simp), by rfl⟩

end Console

end FreeCore.Keyboard
