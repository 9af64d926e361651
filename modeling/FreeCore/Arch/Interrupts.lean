import Mathlib.Algebra.Group.Nat.Basic
import Mathlib.Logic.Function.Basic

/-! # Interrupt dispatch

`idt_init`, `idt_register_handler`, the stubs of `idt_asm.asm` and `exception_handler_wrapper`:
`interrupt_common_stub` loads the vector and the error code the wrong way round, so an exception
runs the handler at its error code and no vector from 32 on reaches a handler. -/

namespace FreeCore.Arch

/-! ## Gates -/

/-- `IDT_VECTOR_COUNT`. -/
def idtVectorCount : Nat := 256

/-- `IDT_FLAGS_PRESENT`. -/
def idtFlagsPresent : UInt8 := 0x80

/-- `IDT_FLAGS_INTERRUPT_GATE`. -/
def idtFlagsInterruptGate : UInt8 := 0x0E

/-- `IDT_FLAGS_RING0`. -/
def idtFlagsRing0 : UInt8 := 0x00

/-- `GDT_KERNEL_CODE_SELECTOR`, `(GDT_KERNEL_CODE << 3) | 0`. -/
def gdtKernelCodeSelector : UInt16 := ((1 : UInt16) <<< 3) ||| 0

/-- A `struct idt_entry`. -/
structure IdtEntry where
  offsetLow : UInt16
  selector : UInt16
  ist : UInt8
  flags : UInt8
  offsetMid : UInt16
  offsetHigh : UInt32
  reserved : UInt32
  deriving DecidableEq, Repr

/-- An entry cleared by the `memset` of `idt_init`. -/
def IdtEntry.zero : IdtEntry := ⟨0, 0, 0, 0, 0, 0, 0⟩

/-- `idt_set_entry(vector, handler, flags)`: the entry it writes at `vector`. -/
def idtSetEntry (handler : UInt64) (flags : UInt8) : IdtEntry :=
  { offsetLow := (handler &&& 0xFFFF).toUInt16
    selector := gdtKernelCodeSelector
    ist := 0
    flags := flags
    offsetMid := ((handler >>> 16) &&& 0xFFFF).toUInt16
    offsetHigh := ((handler >>> 32) &&& 0xFFFFFFFF).toUInt32
    reserved := 0 }

/-- The processor\x27s reading of a gate: present when its flags have `IDT_FLAGS_PRESENT`. -/
def IdtEntry.present (entry : IdtEntry) : Bool := entry.flags &&& idtFlagsPresent != 0

/-- The processor\x27s reading of a gate: the offset from bits 0-15, 16-31 and 32-63. -/
def IdtEntry.offset (entry : IdtEntry) : Nat :=
  entry.offsetLow.toNat + entry.offsetMid.toNat * 2 ^ 16 + entry.offsetHigh.toNat * 2 ^ 32

theorem toNat_shiftRight (a : UInt64) {k : Nat} (lt : k < 64) :
    (a >>> UInt64.ofNat k).toNat = a.toNat / 2 ^ k := by
  show (a.toBitVec >>> ((UInt64.ofNat k).mod 64).toBitVec).toNat = _
  rw [BitVec.ushiftRight_eq', BitVec.toNat_ushiftRight, Nat.shiftRight_eq_div_pow]
  congr
  show k % 2 ^ 64 % 64 = k
  omega

/-- A gate that `idt_set_entry` wrote leads to the handler it was given. -/
theorem offset_idtSetEntry (handler : UInt64) (flags : UInt8) :
    (idtSetEntry handler flags).offset = handler.toNat := by
  have low : (handler &&& 0xFFFF).toUInt16.toNat = handler.toNat % 2 ^ 16 := by
    show (handler.toBitVec &&& (0xFFFF : UInt64).toBitVec).toNat % 2 ^ 16 = _
    rw [BitVec.toNat_and, show (0xFFFF : UInt64).toBitVec.toNat = 2 ^ 16 - 1 from rfl,
      Nat.and_pow_two_sub_one_eq_mod, Nat.mod_mod]
    rfl
  have mid : ((handler >>> 16) &&& 0xFFFF).toUInt16.toNat = handler.toNat / 2 ^ 16 % 2 ^ 16 := by
    show ((handler >>> UInt64.ofNat 16).toBitVec &&& (0xFFFF : UInt64).toBitVec).toNat % 2 ^ 16 = _
    rw [BitVec.toNat_and, show (0xFFFF : UInt64).toBitVec.toNat = 2 ^ 16 - 1 from rfl,
      Nat.and_pow_two_sub_one_eq_mod, Nat.mod_mod]
    exact congrArg (· % 2 ^ 16) (toNat_shiftRight handler (by decide))
  have high : ((handler >>> 32) &&& 0xFFFFFFFF).toUInt32.toNat = handler.toNat / 2 ^ 32 % 2 ^ 32 := by
    show ((handler >>> UInt64.ofNat 32).toBitVec &&& (0xFFFFFFFF : UInt64).toBitVec).toNat % 2 ^ 32 = _
    rw [BitVec.toNat_and, show (0xFFFFFFFF : UInt64).toBitVec.toNat = 2 ^ 32 - 1 from rfl,
      Nat.and_pow_two_sub_one_eq_mod, Nat.mod_mod]
    exact congrArg (· % 2 ^ 32) (toNat_shiftRight handler (by decide))
  have bound : handler.toNat < 2 ^ 64 := handler.toBitVec.isLt
  simp only [IdtEntry.offset, idtSetEntry, low, mid, high]
  omega

/-! ## The tables of `idt.c` -/

/-- `idt` and `exception_handlers`; a handler is its address and `NULL` is `none`. -/
structure Interrupts where
  idt : Nat → IdtEntry
  exceptionHandlers : Nat → Option Nat

/-- `idt_register_handler(vector, handler)`: `NULL` registers `default_exception_handler`. -/
def idtRegisterHandler (default : Nat) (s : Interrupts) (vector : UInt8) (handler : Option Nat) :
    Interrupts :=
  if vector.toNat < idtVectorCount then
    { s with
      exceptionHandlers :=
        Function.update s.exceptionHandlers vector.toNat (some (handler.getD default)) }
  else s

/-- The gate attributes `idt_init` gives the exception vectors. -/
def exceptionGateFlags : UInt8 := idtFlagsPresent ||| idtFlagsInterruptGate ||| idtFlagsRing0

/-- The first `count` rounds of the loop of `idt_init`, the stubs being `interrupt_stubs`. -/
def idtInitLoop (stubs : Nat → UInt64) (default : Nat) : (count : Nat) → Interrupts → Interrupts
  | 0, s => s
  | i + 1, s =>
      let s := idtInitLoop stubs default i s
      idtRegisterHandler default
        { s with idt := Function.update s.idt i (idtSetEntry (stubs i) exceptionGateFlags) }
        (UInt8.ofNat i) none

/-- `idt_init()` on the handler table it finds: the gates cleared, then the loop over the 32
exception vectors. -/
def idtInit (stubs : Nat → UInt64) (default : Nat) (handlers : Nat → Option Nat) : Interrupts :=
  idtInitLoop stubs default 32 ⟨fun _ => IdtEntry.zero, handlers⟩

/-- Registrations one after the other. -/
def registerAll (default : Nat) (s : Interrupts) (registrations : List (UInt8 × Option Nat)) :
    Interrupts :=
  registrations.foldl (fun s registration => idtRegisterHandler default s registration.1 registration.2) s

/-! ## The stubs of `idt_asm.asm` -/

/-- The vectors whose stub is an `INTERRUPT_STUB_ERROR_CODE`. -/
def stubTakesErrorCode (vector : Nat) : Bool := vector ∈ [8, 10, 11, 12, 13, 14, 17, 30]

/-- `interrupt_stub_<vector>` on the stack, top first: `push vector` over the error code, or
`push 0` and `push vector`. -/
def interruptStub (vector : Nat) (stack : List UInt64) : List UInt64 :=
  if stubTakesErrorCode vector then UInt64.ofNat vector :: stack
  else UInt64.ofNat vector :: 0 :: stack

/-- The fifteen registers `interrupt_common_stub` saves, in the order it pushes them. -/
structure SavedRegisters where
  values : List UInt64
  length_eq : values.length = 15

/-- The fifteen pushes that open `interrupt_common_stub`, `rax` first. -/
def commonStubPush (saved : SavedRegisters) (stack : List UInt64) : List UInt64 :=
  saved.values.foldl (fun stack value => value :: stack) stack

/-- `interrupt_common_stub` up to its call: the pushes, then `rdi` from `[rsp + 16*8]` and `rsi`
from `[rsp + 15*8]`. -/
def commonStubArguments (saved : SavedRegisters) (stack : List UInt64) : UInt64 × UInt64 :=
  let stack := commonStubPush saved stack
  (stack.getD 16 0, stack.getD 15 0)

/-- `exception_handler_wrapper(vector, error_code)`: the handler it calls. -/
def exceptionHandlerWrapper (default : Nat) (handlers : Nat → Option Nat) (vector : UInt64) : Nat :=
  (handlers vector.toNat).getD default

/-- An interrupt or exception at `vector`: `none` when its gate is not present (the processor
raises a fault instead) or leads to no stub, and otherwise the handler the wrapper calls. The
processor pushes the error code over the interrupt frame for the vectors `pushesErrorCode`. -/
def deliver (stubs : Nat → UInt64) (default : Nat) (s : Interrupts) (pushesErrorCode : Nat → Bool)
    (vector : Nat) (errorCode : UInt64) (saved : SavedRegisters) (frame : List UInt64) : Option Nat :=
  let gate := s.idt vector
  if !gate.present then none
  else match (List.range 32).find? fun i => (stubs i).toNat = gate.offset with
    | none => none
    | some i =>
        let stack := if pushesErrorCode vector then errorCode :: frame else frame
        some (exceptionHandlerWrapper default s.exceptionHandlers
          (commonStubArguments saved (interruptStub i stack)).1)

/-! ## Dispatch -/

theorem idtRegisterHandler_idt (default : Nat) (s : Interrupts) (vector : UInt8) (handler : Option Nat) :
    (idtRegisterHandler default s vector handler).idt = s.idt := by
  unfold idtRegisterHandler
  split <;> rfl

theorem registerAll_idt (default : Nat) :
    ∀ (s : Interrupts) (registrations : List (UInt8 × Option Nat)),
      (registerAll default s registrations).idt = s.idt
  | _, [] => rfl
  | s, registration :: rest => by
      rw [registerAll, List.foldl_cons, ← registerAll, registerAll_idt default _ rest,
        idtRegisterHandler_idt]

/-- The gates the loop of `idt_init` has written after `count` rounds. -/
theorem idtInitLoop_idt (stubs : Nat → UInt64) (default : Nat) (s : Interrupts) (vector : Nat) :
    ∀ count, (idtInitLoop stubs default count s).idt vector =
      if vector < count then idtSetEntry (stubs vector) exceptionGateFlags else s.idt vector
  | 0 => rfl
  | i + 1 => by
      rw [idtInitLoop, idtRegisterHandler_idt]
      by_cases same : vector = i
      · subst same
        simp
      · simp only [Function.update_noteq same, idtInitLoop_idt stubs default s vector i]
        split_ifs <;> first | rfl | omega

theorem present_exceptionGate (handler : UInt64) :
    (idtSetEntry handler exceptionGateFlags).present = true := by
  show (exceptionGateFlags &&& idtFlagsPresent != 0) = true
  decide

theorem present_zero : IdtEntry.zero.present = false := by
  decide

theorem foldl_push (values stack : List UInt64) :
    values.foldl (fun stack value => value :: stack) stack = values.reverse ++ stack := by
  induction values generalizing stack with
  | nil => rfl
  | cons value values induction => simp [induction]

theorem length_reverse_saved (saved : SavedRegisters) : saved.values.reverse.length = 15 := by
  rw [List.length_reverse, saved.length_eq]

/-- The wrapper's first argument is the word under the top of the stack the common stub finds. -/
theorem commonStubArguments_fst (saved : SavedRegisters) (top second : UInt64) (rest : List UInt64) :
    (commonStubArguments saved (top :: second :: rest)).1 = second := by
  have length := length_reverse_saved saved
  simp only [commonStubArguments, commonStubPush, foldl_push, List.getD_eq_getElem?_getD,
    List.getElem?_append_right (show saved.values.reverse.length ≤ 16 by omega), length]
  simp

/-- The stub a gate of `idt_init` leads to is the one of its vector, the stubs being distinct. -/
theorem find_stub (stubs : Nat → UInt64)
    (distinct : ∀ i < 32, ∀ j < 32, (stubs i).toNat = (stubs j).toNat → i = j)
    {vector : Nat} (exception : vector < 32) :
    (List.range 32).find? (fun i =>
      (stubs i).toNat = (idtSetEntry (stubs vector) exceptionGateFlags).offset) = some vector := by
  rw [offset_idtSetEntry]
  have isSome : ((List.range 32).find? fun i => (stubs i).toNat = (stubs vector).toNat).isSome :=
    List.find?_isSome.mpr ⟨vector, List.mem_range.mpr exception, by simp⟩
  obtain ⟨found, isFound⟩ := Option.isSome_iff_exists.mp isSome
  rw [isFound, distinct found (List.mem_range.mp (List.mem_of_find?_eq_some isFound)) vector
    exception (by simpa using List.find?_some isFound)]

/-- After `idt_init` and any registrations, an exception runs the handler registered at its error
code, or at 0 for a vector without one, and no vector from 32 on reaches a handler. -/
theorem deliver_dispatches_on_error_code (stubs : Nat → UInt64)
    (distinct : ∀ i < 32, ∀ j < 32, (stubs i).toNat = (stubs j).toNat → i = j)
    (default : Nat) (handlers : Nat → Option Nat) (registrations : List (UInt8 × Option Nat))
    (pushesErrorCode : Nat → Bool) (vector : Nat)
    (agree : pushesErrorCode vector = stubTakesErrorCode vector)
    (errorCode : UInt64) (saved : SavedRegisters) (frame : List UInt64) :
    deliver stubs default (registerAll default (idtInit stubs default handlers) registrations)
        pushesErrorCode vector errorCode saved frame =
      if vector < 32 then
        some (exceptionHandlerWrapper default
          (registerAll default (idtInit stubs default handlers) registrations).exceptionHandlers
          (if stubTakesErrorCode vector then errorCode else 0))
      else none := by
  have gate := idtInitLoop_idt stubs default ⟨fun _ => IdtEntry.zero, handlers⟩ vector 32
  unfold deliver
  rw [registerAll_idt, idtInit, gate]
  by_cases exception : vector < 32
  · simp only [if_pos exception, present_exceptionGate, find_stub stubs distinct exception,
      Bool.not_true, Bool.false_eq_true]
    unfold interruptStub
    cases errorStub : stubTakesErrorCode vector <;>
      simp only [agree, errorStub, if_true, if_false, Bool.false_eq_true, commonStubArguments_fst]
  · simp only [if_neg exception]
    rw [present_zero]
    rfl

/-- A page fault with error code 2 runs the handler registered at 2, here the default one, not
the one registered for vector 14; the keyboard\x27s vector, its handler registered as the keyboard
driver does, reaches no handler. -/
theorem deliver_page_fault_and_keyboard :
    deliver (fun i => UInt64.ofNat (4096 + 16 * i)) 7
        (registerAll 7 (idtInit (fun i => UInt64.ofNat (4096 + 16 * i)) 7 fun _ => none)
          [(14, some 9000)])
        stubTakesErrorCode 14 2 ⟨List.replicate 15 0, rfl⟩ [] = some 7 ∧
      deliver (fun i => UInt64.ofNat (4096 + 16 * i)) 7
        (registerAll 7 (idtInit (fun i => UInt64.ofNat (4096 + 16 * i)) 7 fun _ => none)
          [(0x21, some 5000)])
        stubTakesErrorCode 0x21 0 ⟨List.replicate 15 0, rfl⟩ [] = none := by
  have distinct : ∀ i < 32, ∀ j < 32,
      (UInt64.ofNat (4096 + 16 * i)).toNat = (UInt64.ofNat (4096 + 16 * j)).toNat → i = j :=
    fun i _ j _ same => by
      change (4096 + 16 * i) % 2 ^ 64 = (4096 + 16 * j) % 2 ^ 64 at same
      omega
  exact ⟨(deliver_dispatches_on_error_code _ distinct 7 (fun _ => none) [(14, some 9000)]
      stubTakesErrorCode 14 rfl 2 ⟨List.replicate 15 0, rfl⟩ []).trans (by decide),
    (deliver_dispatches_on_error_code _ distinct 7 (fun _ => none) [(0x21, some 5000)]
      stubTakesErrorCode 0x21 rfl 0 ⟨List.replicate 15 0, rfl⟩ []).trans (if_neg (by decide))⟩

end FreeCore.Arch
