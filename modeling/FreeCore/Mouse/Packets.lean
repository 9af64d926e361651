import FreeCore.Keyboard.Driver
import Mathlib.Tactic.Ring

/-! # The PS/2 mouse driver

`ps2_mouse_interrupt` and `process_mouse_packet` of `mouse.c`, with the `int` fields of
`mouse_state` as integers and an overflow of their sums as undefined behaviour. -/

namespace FreeCore.Mouse

open FreeCore.Keyboard (hasFlag)

/-! ## Constants of `mouse.h` -/

def mousePacketYOverflow : UInt8 := 0x80
def mousePacketXOverflow : UInt8 := 0x40
def mousePacketYSign : UInt8 := 0x20
def mousePacketXSign : UInt8 := 0x10
def mousePacketAlways1 : UInt8 := 0x08
def mousePacket4ZSign : UInt8 := 0x08
def mousePacket4ZData : UInt8 := 0x07
def mouseRespIdScroll : UInt8 := 0x03
def mouseRespId5Btn : UInt8 := 0x04

/-- A byte read as an `int8_t`. -/
def toInt8 (b : UInt8) : Int := if b.toNat < 128 then b.toNat else b.toNat - 256

/-! ## The driver -/

/-- The fields of `mouse_state_t` that `process_mouse_packet` reads or writes. -/
structure MouseState where
  x : Int
  y : Int
  z : Int
  buttons : UInt8
  hasScrollWheel : Bool
  deriving DecidableEq, Repr

/-- The driver's statics: `mouse_state`, `mouse_packet_buffer`, `mouse_packet_index` and
`mouse_packet_size`. -/
structure Driver where
  state : MouseState
  packetBuffer : Nat → UInt8
  packetIndex : Nat
  packetSize : Nat

/-- `a + b` in `int`: `none` when the sum leaves the range of `int`, an overflow that is
undefined behaviour. -/
def intAdd (a b : Int) : Option Int :=
  if -2 ^ 31 ≤ a + b ∧ a + b < 2 ^ 31 then some (a + b) else none

/-- `process_mouse_packet()` on the packet in `buffer`: the state it leaves, which it passes to
the callback, or `none` when one of its sums overflows. -/
def processMousePacket (size : Nat) (buffer : Nat → UInt8) (s : MouseState) : Option MouseState := do
  let flags := buffer 0
  let zMovement : Int :=
    if 3 < size ∧ s.hasScrollWheel then
      if hasFlag (buffer 3) mousePacket4ZSign then -toInt8 (buffer 3 &&& mousePacket4ZData)
      else toInt8 (buffer 3 &&& mousePacket4ZData)
    else 0
  let x ←
    if hasFlag flags mousePacketXOverflow then
      if hasFlag flags mousePacketXSign then intAdd s.x (-128) else intAdd s.x 127
    else intAdd s.x (toInt8 (buffer 1))
  let y ←
    if hasFlag flags mousePacketYOverflow then
      if hasFlag flags mousePacketYSign then intAdd s.y (-128) else intAdd s.y 127
    else intAdd s.y (-toInt8 (buffer 2))
  let z ← if s.hasScrollWheel then intAdd s.z zMovement else pure s.z
  return { s with
    buttons := flags &&& 0x07
    x := if x < 0 then 0 else x
    y := if y < 0 then 0 else y
    z := z }

/-- `ps2_mouse_interrupt()` on the byte `data`: the driver afterwards, and the state it passes
to the callback when the byte completes a packet; `none` when processing the packet is
undefined. -/
def ps2MouseInterrupt (m : Driver) (data : UInt8) : Option (Driver × Option MouseState) :=
  if m.packetIndex = 0 ∧ hasFlag data mousePacketAlways1 = false then some (m, none)
  else
    let buffer := Function.update m.packetBuffer m.packetIndex data
    if m.packetSize ≤ m.packetIndex + 1 then
      (processMousePacket m.packetSize buffer m.state).map fun state =>
        ({ m with state := state, packetBuffer := buffer, packetIndex := 0 }, some state)
    else some ({ m with packetBuffer := buffer, packetIndex := m.packetIndex + 1 }, none)

/-- What `ps2_mouse_init` leaves for the interrupt handler, from the IDs the mouse answers after
the scroll-wheel sequence and, without a wheel, after the five-button sequence: a wheel or a
five-button mouse sends 4-byte packets, and only a wheel's fourth byte is decoded. -/
def ps2MouseInit (scrollId fiveButtonId : UInt8) (buffer : Nat → UInt8) : Driver :=
  let wheel := decide (scrollId = mouseRespIdScroll)
  ⟨⟨0, 0, 0, 0, wheel⟩, buffer, 0,
    if wheel then 4 else if fiveButtonId = mouseRespId5Btn then 4 else 3⟩

/-- The driver over a stream of bytes: the driver afterwards and the states it reported. Nothing
is defined after undefined behaviour, and the run reports nothing more. -/
def Driver.run (m : Driver) : List UInt8 → Driver × List MouseState
  | [] => (m, [])
  | data :: rest =>
      match ps2MouseInterrupt m data with
      | none => (m, [])
      | some next =>
          let later := next.1.run rest
          (later.1, next.2.toList ++ later.2)

/-! ## Packets of a byte stream -/

/-- The packets a byte stream splits into: at a packet boundary a byte without
`MOUSE_PACKET_ALWAYS_1` is skipped, and a packet is the `size` bytes from one that has it. The
bytes of an incomplete last packet are left over. -/
def frames (size : Nat) : List UInt8 → List (List UInt8) × List UInt8
  | [] => ([], [])
  | data :: rest =>
      if hasFlag data mousePacketAlways1 = false then frames size rest
      else if rest.length + 1 < size then ([], data :: rest)
      else
        let later := frames size (rest.drop (size - 1))
        ((data :: rest).take size :: later.1, later.2)
termination_by bytes => bytes.length
decreasing_by all_goals simp only [List.length_cons, List.length_drop]; omega

/-- The states `process_mouse_packet` leaves on the packets in order, from `s`, up to the first
packet whose processing is undefined. -/
def processAll (size : Nat) (s : MouseState) : List (List UInt8) → List MouseState
  | [] => []
  | packet :: rest =>
      match processMousePacket size (fun i => packet.getD i 0) s with
      | none => []
      | some next => next :: processAll size next rest

/-- The bytes of the current packet in `mouse_packet_buffer`. -/
def Driver.collected (m : Driver) : List UInt8 := (List.range m.packetIndex).map m.packetBuffer

/-- A stream shorter than a packet has no complete packet. -/
theorem frames_short (size : Nat) (bytes : List UInt8) (short : bytes.length < size) :
    (frames size bytes).1 = [] := by
  induction bytes using frames.induct size with
  | case1 => simp [frames]
  | case2 data rest skipped induction =>
      rw [frames, if_pos skipped]
      exact induction (by simp at short; omega)
  | case3 data rest flagged fewer => rw [frames, if_neg flagged, if_pos fewer]
  | case4 data rest _ enough => simp at short; omega

/-- A packet that starts with `MOUSE_PACKET_ALWAYS_1` is framed as it is. -/
theorem frames_packet {size : Nat} {packet : List UInt8} (rest : List UInt8)
    (length : packet.length = size) (positive : 0 < size)
    (flagged : hasFlag (packet.getD 0 0) mousePacketAlways1 = true) :
    frames size (packet ++ rest) = (packet :: (frames size rest).1, (frames size rest).2) := by
  cases packet with
  | nil => simp only [List.length_nil] at length; omega
  | cons data tail =>
      simp only [List.length_cons] at length
      change hasFlag data _ = true at flagged
      rw [List.cons_append, frames, if_neg (by rw [flagged]; decide),
        if_neg (by simp only [List.length_append]; omega)]
      have taken : (data :: (tail ++ rest)).take size = data :: tail := by
        rw [← length, List.take_succ_cons, List.take_left]
      have dropped : (tail ++ rest).drop (size - 1) = rest := by
        rw [← length, Nat.add_sub_cancel, List.drop_left]
      rw [taken, dropped]

/-- `process_mouse_packet` reads only the bytes of a packet of at least 3 bytes. -/
theorem processMousePacket_congr {size : Nat} (three : 3 ≤ size) {buffer other : Nat → UInt8}
    (agree : ∀ i < size, buffer i = other i) (s : MouseState) :
    processMousePacket size buffer s = processMousePacket size other s := by
  unfold processMousePacket
  rw [agree 0 (by omega), agree 1 (by omega), agree 2 (by omega)]
  by_cases four : 3 < size
  · rw [agree 3 four]
  · simp only [four, false_and, if_false]

/-- Storing a byte at `mouse_packet_index` appends it to the collected bytes. -/
theorem collected_push (buffer : Nat → UInt8) (index : Nat) (data : UInt8) :
    (List.range index).map buffer ++ [data] =
      (List.range (index + 1)).map (Function.update buffer index data) := by
  rw [List.range_succ, List.map_append, List.map_singleton, Function.update_same,
    List.map_congr_left fun i member => Function.update_noteq
      (Nat.ne_of_lt (List.mem_range.mp member)) data buffer]

theorem getD_map_range {f : Nat → UInt8} {n i : Nat} (lt : i < n) :
    ((List.range n).map f).getD i 0 = f i := by
  simp [List.getD_eq_getElem?_getD, lt]

/-- Over any byte stream, from a driver that holds the start of a packet, the states reported are
those of the packets of the held bytes followed by the stream. -/
theorem run_frames_collected (bytes : List UInt8) :
    ∀ m : Driver, 3 ≤ m.packetSize → m.packetIndex < m.packetSize →
      (m.packetIndex = 0 ∨ hasFlag (m.packetBuffer 0) mousePacketAlways1 = true) →
      (m.run bytes).2 = processAll m.packetSize m.state (frames m.packetSize (m.collected ++ bytes)).1 := by
  induction bytes with
  | nil =>
      intro m _ below _
      rw [List.append_nil, frames_short _ _ (by simpa [Driver.collected] using below)]
      rfl
  | cons data rest induction =>
      intro m three below start
      simp only [Driver.run, ps2MouseInterrupt]
      by_cases skipped : m.packetIndex = 0 ∧ hasFlag data mousePacketAlways1 = false
      · have empty : m.collected = [] := by simp [Driver.collected, skipped.1]
        have later := induction m three below start
        rw [empty, List.nil_append] at later
        rw [if_pos skipped, empty, List.nil_append, frames, if_pos skipped.2]
        exact later
      rw [if_neg skipped, List.append_cons, Driver.collected,
        collected_push m.packetBuffer m.packetIndex data]
      have first : hasFlag (Function.update m.packetBuffer m.packetIndex data 0)
          mousePacketAlways1 = true := by
        by_cases zero : m.packetIndex = 0
        · rw [zero, Function.update_same]
          simpa [zero] using skipped
        · rw [Function.update_noteq (Ne.symm zero)]
          exact start.resolve_left zero
      generalize Function.update m.packetBuffer m.packetIndex data = buffer at first ⊢
      by_cases complete : m.packetSize ≤ m.packetIndex + 1
      · have size_eq : m.packetIndex + 1 = m.packetSize := by omega
        have same : processMousePacket m.packetSize
            (fun i => ((List.range m.packetSize).map buffer).getD i 0) m.state =
              processMousePacket m.packetSize buffer m.state :=
          processMousePacket_congr three (fun _ lt => getD_map_range lt) _
        rw [if_pos complete, size_eq, frames_packet rest (by simp) (by omega)
          (by rw [getD_map_range (by omega)]; exact first)]
        simp only [processAll, same]
        rcases processMousePacket m.packetSize buffer m.state with _ | state
        · rfl
        · exact congrArg _ (induction { m with state := state, packetBuffer := buffer, packetIndex := 0 }
            three (show 0 < m.packetSize by omega) (Or.inl rfl))
      · rw [if_neg complete]
        exact induction _ three (show m.packetIndex + 1 < m.packetSize by omega) (Or.inr first)

theorem ps2MouseInit_packetSize (scrollId fiveButtonId : UInt8) (buffer : Nat → UInt8) :
    3 ≤ (ps2MouseInit scrollId fiveButtonId buffer).packetSize := by
  unfold ps2MouseInit
  dsimp only
  split_ifs <;> decide

/-- From what `ps2_mouse_init` leaves, over any byte stream, the driver reports exactly the states
of processing, in order, the packets the stream frames into. -/
theorem run_frames (scrollId fiveButtonId : UInt8) (buffer : Nat → UInt8) (bytes : List UInt8) :
    ((ps2MouseInit scrollId fiveButtonId buffer).run bytes).2 =
      processAll (ps2MouseInit scrollId fiveButtonId buffer).packetSize
        (ps2MouseInit scrollId fiveButtonId buffer).state
        (frames (ps2MouseInit scrollId fiveButtonId buffer).packetSize bytes).1 :=
  have three := ps2MouseInit_packetSize scrollId fiveButtonId buffer
  run_frames_collected bytes _ three (Nat.lt_of_lt_of_le (show 0 < 3 by decide) three) (Or.inl rfl)

/-! ## Nothing bounds the pointer above -/

end FreeCore.Mouse
