import Mathlib.Logic.Function.Basic

/-! # The keyboard's scancode buffer

`kb_buffer` of `idt.c`, shared with no lock by the keyboard interrupt handler (`kb_buffer_add`,
which runs to its end) and the reader (`kb_buffer_get`, interruptible between any two of its
accesses to the buffer). -/

namespace FreeCore.Keyboard

/-- `KB_BUFFER_SIZE`. -/
def kbBufferSize : Nat := 32

/-- The driver's `kb_buffer`: the scancode slots and the three `size_t` indices. -/
structure KbBuffer where
  data : Nat → UInt8
  head : Nat
  tail : Nat
  count : Nat

/-- The `n` scancodes stored in `data` from slot `tail` on. -/
def slots (data : Nat → UInt8) (tail n : Nat) : List UInt8 :=
  (List.range n).map fun i => data ((tail + i) % kbBufferSize)

namespace KbBuffer

/-- The zero-initialised buffer (`= {0}`), also the state `ps2_keyboard_init` leaves. -/
def empty : KbBuffer := ⟨fun _ => 0, 0, 0, 0⟩

/-- The FIFO queue the buffer holds. -/
def queue (b : KbBuffer) : List UInt8 := slots b.data b.tail b.count

end KbBuffer

/-- `kb_buffer_add`: store the scancode at `head` and advance `head`, unless all slots are in
use. -/
def kbBufferAdd (b : KbBuffer) (scancode : UInt8) : KbBuffer :=
  if b.count < kbBufferSize then
    { b with
      data := Function.update b.data b.head scancode
      head := (b.head + 1) % kbBufferSize
      count := b.count + 1 }
  else b

/-- `kb_buffer_get` run without interruption: `-1` when the buffer is empty, otherwise the
scancode at `tail`, as an `int`. -/
def kbBufferGet (b : KbBuffer) : KbBuffer × Int :=
  if b.count = 0 then (b, -1)
  else ({ b with tail := (b.tail + 1) % kbBufferSize, count := b.count - 1 }, (b.data b.tail).toNat)

/-! ## The queue under the two operations -/

@[simp] theorem slots_zero (data : Nat → UInt8) (tail : Nat) : slots data tail 0 = [] := rfl

/-- Where the reader is in `kb_buffer_get`: outside it, or after one of its accesses. `count--`
is a load and a store, with the handler free to run between them. -/
inductive GetPc
  /-- Outside `kb_buffer_get`; its test of `count` comes next. -/
  | idle
  /-- `count == 0` was false; reading `data[tail]` comes next. -/
  | checked
  /-- The scancode at `tail` was read; advancing `tail` comes next. -/
  | fetched (scancode : UInt8)
  /-- `tail` was advanced; the load of `count--` comes next. -/
  | advanced (scancode : UInt8)
  /-- `count--` loaded `count`; storing one less and returning come next. -/
  | loaded (scancode : UInt8) (count : Nat)

/-- The reader makes its next access to the buffer, with the value it returns when the access is
its last. -/
def getStep (b : KbBuffer) : GetPc → KbBuffer × GetPc × Option Int
  | .idle => if b.count = 0 then (b, .idle, some (-1)) else (b, .checked, none)
  | .checked => (b, .fetched (b.data b.tail), none)
  | .fetched scancode => ({ b with tail := (b.tail + 1) % kbBufferSize }, .advanced scancode, none)
  | .advanced scancode => (b, .loaded scancode b.count, none)
  | .loaded scancode count => ({ b with count := count - 1 }, .idle, some scancode.toNat)

namespace GetPc

/-- The scancode the reader has taken out of the queue and not yet returned: `tail` has moved
past it, but `count` still counts it until the reader's store. -/
def holding : GetPc → List UInt8
  | .advanced scancode | .loaded scancode _ => [scancode]
  | _ => []

end GetPc

/-- What happens next: the interrupt handler appends a scancode, or the reader makes its next
access. -/
inductive Event
  | add (scancode : UInt8)
  | read

/-- What one event shows: the scancode the buffer stored, and the value the reader returned. -/
structure Observation where
  accepted : Option UInt8
  returned : Option Int

/-- The buffer with the reader's position in `kb_buffer_get`. -/
structure Channel where
  buffer : KbBuffer
  pc : GetPc

namespace Channel

/-- The zeroed buffer, with the reader outside `kb_buffer_get`. -/
def initial : Channel := ⟨KbBuffer.empty, .idle⟩

def step (c : Channel) : Event → Channel × Observation
  | .add scancode =>
      (⟨kbBufferAdd c.buffer scancode, c.pc⟩,
        ⟨if c.buffer.count < kbBufferSize then some scancode else none, none⟩)
  | .read =>
      let next := getStep c.buffer c.pc
      (⟨next.1, next.2.1⟩, ⟨none, next.2.2⟩)

def run (c : Channel) : List Event → Channel × List Observation
  | [] => (c, [])
  | e :: es =>
      let next := c.step e
      let rest := next.1.run es
      (rest.1, next.2 :: rest.2)

/-- The slots of the queue: those `count` counts, less the one in the reader's hands. -/
def used (c : Channel) : Nat := c.buffer.count - c.pc.holding.length

/-- The queue at the reader's position. -/
def queue (c : Channel) : List UInt8 := slots c.buffer.data c.buffer.tail c.used

/-- The scancodes held: the one in the reader's hands, then the queue. -/
def held (c : Channel) : List UInt8 := c.pc.holding ++ c.queue

end Channel

namespace Channel

end Channel

end FreeCore.Keyboard
