import FreeCore.Kmalloc.Contract

/-! # Runs of the allocator

Every state a disciplined run of the allocator's calls reaches keeps the chain invariant, and
every allowed call returns (`reachable_invariant`). -/

namespace FreeCore

/-- One step of a kernel thread: a call into the allocator, or a byte store. -/
inductive Call
  | kmallocInit
  | kmalloc (size : Nat)
  | kzalloc (size : Nat)
  | kfree (ptr : Option Nat)
  | krealloc (ptr : Option Nat) (size : Nat)
  | write (address : Nat) (byte : UInt8)

/-- The heap and the pointers the thread holds. -/
structure Session where
  heap : Heap
  live : List Nat

/-- The pointers held after `krealloc ptr size` returned `result`: the old pointer is given up
when the call freed it (a zero size, or a move to a new block). -/
def reallocLive (live : List Nat) (ptr : Option Nat) (size : Nat) (result : Option Nat) :
    List Nat :=
  match ptr, result with
  | none, result => result.toList ++ live
  | some old, none => if size = 0 then live.erase old else live
  | some old, some new => if new = old then live else new :: live.erase old

/-- One step of a session; `none` when the call never returns. -/
def Session.call (session : Session) : Call → Option Session
  | .kmallocInit => some { session with heap := kmallocInit session.heap }
  | .kmalloc size => (kmalloc session.heap size).map fun (heap, ptr) =>
      ⟨heap, ptr.toList ++ session.live⟩
  | .kzalloc size => (kzalloc session.heap size).map fun (heap, ptr) =>
      ⟨heap, ptr.toList ++ session.live⟩
  | .kfree ptr => some ⟨kfree session.heap ptr, match ptr with
      | none => session.live
      | some ptr => session.live.erase ptr⟩
  | .krealloc ptr size => (krealloc session.heap ptr size).map fun (heap, result) =>
      ⟨heap, reallocLive session.live ptr size result⟩
  | .write address byte => some { session with
      heap := { session.heap with mem := session.heap.mem.put address 1 fun _ => byte } }

/-- `ptr` is the payload address of a used block of the current chain. -/
def Heap.UsedPayload (heap : Heap) (ptr : Nat) : Prop :=
  heap.heapInitialized = true ∧ ∃ blocks, Chain heap.mem blocks ∧ ptr ∈ payloads 0 blocks

/-- `address` lies inside the payload of a block the thread holds. -/
def Session.Holds (session : Session) (address : Nat) : Prop :=
  ∃ ptr ∈ session.live, ptr ≤ address ∧
    address < ptr - allocHeaderSize + (readHeader session.heap.mem (ptr - allocHeaderSize)).size

instance (session : Session) (address : Nat) : Decidable (session.Holds address) :=
  inferInstanceAs (Decidable (∃ ptr ∈ session.live, _))

/-- The discipline of the run: sizes small enough that rounding to 16 and adding the header
cannot wrap, pointer arguments `NULL` or the payload of a used block, stores only inside held
payloads. -/
def Call.Allowed (session : Session) : Call → Prop
  | .kmallocInit => True
  | .kmalloc size => size ≤ sizeModulus - 32
  | .kzalloc size => size ≤ sizeModulus - 32
  | .kfree ptr => ∀ p ∈ ptr, session.heap.UsedPayload p
  | .krealloc ptr size => size ≤ sizeModulus - 32 ∧ ∀ p ∈ ptr, session.heap.UsedPayload p
  | .write address _ => session.Holds address

/-- The session before any call: the heap before `kmalloc_init`, no pointer held. -/
def Session.start (mem : Memory) : Session := ⟨Heap.uninitialized mem, []⟩

/-- The session after `call`; the same session when the call never returns. -/
def Session.afterCall (session : Session) (call : Call) : Session :=
  (session.call call).getD session

/-- The session after the calls, in order. -/
def Session.afterCalls (session : Session) (calls : List Call) : Session :=
  calls.foldl Session.afterCall session

/-- Each call is allowed in the state the calls before it reach. -/
def Call.AllAllowed : Session → List Call → Prop
  | _, [] => True
  | session, call :: calls => call.Allowed session ∧ Call.AllAllowed (session.afterCall call) calls

/-- The states runs reach from the uninitialised heap. -/
inductive Reachable : Session → Prop
  | start (mem : Memory) : Reachable (Session.start mem)
  | step {session next : Session} {call : Call} :
      Reachable session → call.Allowed session → session.call call = some next →
        Reachable next

/-- The allocator's invariant with the chain `blocks`. -/
structure Session.Invariant (session : Session) (blocks : List Block) : Prop where
  chain : Chain session.heap.mem blocks
  heapUsed_eq : session.heap.heapUsed = usedTotal blocks
  live_perm : session.live.Perm (payloads 0 blocks)

/-- The invariant, and before initialisation no held pointer. -/
def Session.Good (session : Session) : Prop :=
  (session.heap.heapInitialized = true → ∃ blocks, session.Invariant blocks) ∧
    (session.heap.heapInitialized = false → session.live = [])

/-- The block `kmalloc_init` installs. -/
def wholeArena : Block where
  size := kernelHeapSize
  used := false
  header_le := by decide
  aligned := by decide

theorem chain_kmallocInit {heap : Heap} (uninitialized : heap.heapInitialized = false) :
    Chain (kmallocInit heap).mem [wholeArena] := by
  refine ⟨?_, rfl⟩
  simp only [kmallocInit, uninitialized, Bool.false_eq_true, if_false, layout_cons, layout_nil,
    and_true, readHeader_setUsed, readHeader_setMagic, readHeader_setSize]
  rfl

/-- In the invariant, the live pointers are distinct and 16-byte aligned (the arena itself is
16-byte aligned). -/
theorem Session.Invariant.live_nodup {session : Session} {blocks : List Block}
    (invariant : session.Invariant blocks) : session.live.Nodup :=
  invariant.live_perm.nodup_iff.mpr (payloads_nodup 0 blocks)

theorem Session.Invariant.live_aligned {session : Session} {blocks : List Block}
    (invariant : session.Invariant blocks) : ∀ ptr ∈ session.live, ptr % 16 = 0 := by
  intro ptr member
  obtain ⟨entry, entryMember, rfl⟩ := List.mem_map.mp (invariant.live_perm.subset member)
  have := (mem_usedBlocks entryMember).2.2.2 rfl
  simp only [allocHeaderSize]
  omega

theorem Session.Invariant.readHeader_of_mem {session : Session} {blocks : List Block}
    (invariant : session.Invariant blocks) {entry : Nat × Nat}
    (member : entry ∈ usedBlocks 0 blocks) :
    readHeader session.heap.mem entry.1 = ⟨entry.2, allocMagic, true⟩ := by
  obtain ⟨before, block, after, split, offset, size, used⟩ := exists_split_of_mem_usedBlocks member
  have layout := invariant.chain.layout
  rw [split, layout_append, Nat.zero_add] at layout
  rw [← offset, Nat.zero_add, layout.2.1, Block.header, size, used]

/-- Bytes stored inside the payload of a used block keep the invariant. -/
theorem Session.Invariant.put_payload {session : Session} {blocks : List Block}
    (invariant : session.Invariant blocks) {entry : Nat × Nat}
    (member : entry ∈ usedBlocks 0 blocks) {address count : Nat} (source : Nat → UInt8)
    (lower : entry.1 + allocHeaderSize ≤ address) (upper : address + count ≤ entry.1 + entry.2) :
    Session.Invariant ⟨{ session.heap with mem := session.heap.mem.put address count source },
      session.live⟩ blocks :=
  ⟨invariant.chain.put_payload member source lower upper, invariant.heapUsed_eq,
    invariant.live_perm⟩

theorem Session.Good.of_invariant {session : Session} {blocks : List Block}
    (invariant : session.Invariant blocks) (initialized : session.heap.heapInitialized = true) :
    session.Good :=
  ⟨fun _ => ⟨blocks, invariant⟩, fun uninitialized => by simp [initialized] at uninitialized⟩

/-! ## One call on a heap with the invariant -/

section Steps

variable {session : Session} {blocks : List Block} (invariant : session.Invariant blocks)
  (initialized : session.heap.heapInitialized = true)
include invariant initialized

/-- `kmalloc` returns; the pointer it returns, if any, joins the held pointers, and its block
covers the request. -/
theorem Session.Invariant.kmalloc_step {size : Nat} (bounded : size ≤ sizeModulus - 32) :
    ∃ heap ptr others, kmalloc session.heap size = some (heap, ptr) ∧
      heap.heapInitialized = true ∧ Session.Invariant ⟨heap, ptr.toList ++ session.live⟩ others ∧
      ∀ p ∈ ptr, ∃ entry ∈ usedBlocks 0 others,
        entry.1 + allocHeaderSize = p ∧ size + allocHeaderSize ≤ entry.2 := by
  obtain ⟨heap, ptr, run, initialized', outcome⟩ :=
    kmalloc_spec invariant.chain initialized invariant.heapUsed_eq bounded
  rcases outcome with ⟨rfl, rfl⟩ | ⟨others, entry, rfl, covers, chain, heapUsed, perm⟩
  · exact ⟨_, none, blocks, run, initialized', invariant, by simp⟩
  refine ⟨heap, _, others, run, initialized', ⟨chain, heapUsed, ?_⟩, ?_⟩
  · rw [Option.toList_some, List.singleton_append]
    exact (invariant.live_perm.cons _).trans
      (perm.map fun entry : Nat × Nat => entry.1 + allocHeaderSize).symm
  · intro p member
    simp only [Option.mem_def, Option.some.injEq] at member
    exact ⟨entry, perm.symm.subset (List.mem_cons_self _ _), member, covers⟩

/-- `kfree` of a held pointer returns it to the chain: the invariant holds with the pointer
dropped from the held ones. -/
theorem Session.Invariant.kfree_step {ptr : Nat} (payload : ptr ∈ payloads 0 blocks) :
    ∃ others, Session.Invariant ⟨kfree session.heap (some ptr), session.live.erase ptr⟩ others ∧
      (kfree session.heap (some ptr)).heapInitialized = true := by
  obtain ⟨entry, member, rfl⟩ := List.mem_map.mp payload
  obtain ⟨others, chain, heapUsed, left, right, split, erased⟩ :=
    kfree_spec invariant.chain initialized invariant.heapUsed_eq member
  have fresh : entry.1 + allocHeaderSize ∉ left.map fun entry => entry.1 + allocHeaderSize := by
    intro early
    obtain ⟨other, otherMember, equal⟩ := List.mem_map.mp early
    have sorted := usedBlocks_sorted 0 blocks
    rw [split, List.pairwise_append] at sorted
    have := sorted.2.2 other otherMember entry (List.mem_cons_self _ _)
    omega
  have live := invariant.live_perm.erase (entry.1 + allocHeaderSize)
  rw [payloads, split, List.map_append, List.map_cons, List.erase_append_right _ fresh,
    List.erase_cons_head, ← List.map_append, ← erased] at live
  exact ⟨others, ⟨chain, heapUsed, live⟩, by rw [kfree_heapInitialized]; exact initialized⟩

end Steps

/-! ## Every allowed call returns and keeps the session good -/

section Calls

variable {session : Session} (good : session.Good)
include good

/-- After `kmalloc_init` the invariant holds, with the same held pointers. -/
theorem Session.Good.init :
    ∃ blocks, Session.Invariant ⟨kmallocInit session.heap, session.live⟩ blocks := by
  cases initialized : session.heap.heapInitialized
  · have live := good.2 initialized
    refine ⟨[wholeArena], chain_kmallocInit initialized, ?_, ?_⟩
    · simp [kmallocInit, initialized, wholeArena]
    · simp [live, payloads, usedBlocks, wholeArena]
  · rw [kmallocInit_of_initialized initialized]
    exact good.1 initialized

theorem Session.Good.usedPayload {ptr : Nat} (payload : session.heap.UsedPayload ptr) :
    ∃ blocks, session.Invariant blocks ∧ session.heap.heapInitialized = true ∧
      ptr ∈ payloads 0 blocks := by
  obtain ⟨initialized, others, chain, member⟩ := payload
  obtain ⟨blocks, invariant⟩ := good.1 initialized
  rw [← invariant.chain.unique chain] at member
  exact ⟨blocks, invariant, initialized, member⟩

/-- `kmalloc` returns and keeps the session good; the block of a returned pointer covers the
request. -/
theorem Session.Good.kmalloc_step {size : Nat} (bounded : size ≤ sizeModulus - 32) :
    ∃ heap ptr, kmalloc session.heap size = some (heap, ptr) ∧
      Session.Good ⟨heap, ptr.toList ++ session.live⟩ ∧
      ∀ p ∈ ptr, ∃ others, Session.Invariant ⟨heap, ptr.toList ++ session.live⟩ others ∧
        heap.heapInitialized = true ∧ ∃ entry ∈ usedBlocks 0 others,
          entry.1 + allocHeaderSize = p ∧ size + allocHeaderSize ≤ entry.2 := by
  by_cases zero : size = 0
  · exact ⟨session.heap, none, by simp [kmalloc, zero], good, by simp⟩
  obtain ⟨blocks, invariant⟩ := good.init
  obtain ⟨heap, ptr, others, run, initialized, next, covers⟩ :=
    invariant.kmalloc_step (kmallocInit_heapInitialized _) bounded
  rw [kmalloc_kmallocInit _ (Nat.pos_of_ne_zero zero)] at run
  exact ⟨heap, ptr, run, .of_invariant next initialized,
    fun p member => ⟨others, next, initialized, covers p member⟩⟩

/-- `krealloc` returns and keeps the session good: in place, by a move (a fresh block, the
old payload copied into it, the old block freed), or with `NULL` and nothing changed. -/
theorem Session.Good.krealloc_step {ptr : Option Nat} {size : Nat}
    (bounded : size ≤ sizeModulus - 32) (held : ∀ p ∈ ptr, session.heap.UsedPayload p) :
    ∃ next, session.call (.krealloc ptr size) = some next ∧ next.Good := by
  cases ptr with
  | none =>
      obtain ⟨heap, ptr, run, next, -⟩ := good.kmalloc_step bounded
      exact ⟨_, by simp [Session.call, krealloc, run, reallocLive], next⟩
  | some ptr =>
      obtain ⟨blocks, invariant, initialized, payload⟩ := good.usedPayload (held ptr rfl)
      by_cases zero : size = 0
      · obtain ⟨others, freed, initialized'⟩ := invariant.kfree_step initialized payload
        exact ⟨_, by simp [Session.call, krealloc, zero, reallocLive],
          .of_invariant freed initialized'⟩
      have heldOld := invariant.live_perm.mem_iff.mpr payload
      obtain ⟨entry, member, rfl⟩ := List.mem_map.mp payload
      obtain ⟨before, block, after, split, offset, -, -⟩ := exists_split_of_mem_usedBlocks member
      have chain := invariant.chain
      subst split
      rw [Nat.zero_add] at offset
      rw [← offset] at payload heldOld ⊢
      rw [Session.call, krealloc_of_chain chain (Nat.pos_of_ne_zero zero)]
      split_ifs with fits
      · exact ⟨session, by simp [reallocLive], good⟩
      obtain ⟨heap, newPtr, others, run, initialized', next, covers⟩ :=
        invariant.kmalloc_step initialized bounded
      rw [run]
      cases newPtr with
      | none =>
          refine ⟨_, ?_, .of_invariant next initialized'⟩
          simp [reallocLive, zero]
      | some newPtr =>
          obtain ⟨newEntry, newMember, newOffset, covered⟩ := covers newPtr rfl
          have copied : Session.Invariant ⟨{ heap with
              mem := heap.mem.put newPtr (block.size - allocHeaderSize) fun index =>
                heap.mem (total before + allocHeaderSize + index) },
              [newPtr] ++ session.live⟩ others :=
            next.put_payload newMember _ (by omega) (by omega)
          have fresh := next.live_nodup
          simp only [Option.toList_some, List.singleton_append, List.nodup_cons] at fresh
          have distinct : newPtr ≠ total before + allocHeaderSize := fun equal =>
            fresh.1 (equal ▸ heldOld)
          have heldNew : total before + allocHeaderSize ∈ payloads 0 others :=
            next.live_perm.subset (List.mem_append_right _ heldOld)
          obtain ⟨final, freed, freedInitialized⟩ := copied.kfree_step initialized' heldNew
          refine ⟨_, ?_, .of_invariant freed freedInitialized⟩
          simp [reallocLive, distinct, List.erase_cons_tail]

/-- Every allowed call returns and keeps the session good. -/
theorem Session.Good.call {call : Call} (allowed : call.Allowed session) :
    ∃ next, session.call call = some next ∧ next.Good := by
  cases call with
  | kmallocInit =>
      obtain ⟨blocks, invariant⟩ := good.init
      exact ⟨_, rfl, .of_invariant invariant (kmallocInit_heapInitialized _)⟩
  | kmalloc size =>
      obtain ⟨heap, ptr, run, next, -⟩ := good.kmalloc_step allowed
      exact ⟨_, by simp [Session.call, run], next⟩
  | kzalloc size =>
      obtain ⟨heap, ptr, run, next, covers⟩ := good.kmalloc_step allowed
      cases ptr with
      | none => exact ⟨_, by simp [Session.call, kzalloc, run], next⟩
      | some ptr =>
          obtain ⟨others, invariant, initialized, entry, member, offset, fits⟩ := covers ptr rfl
          have zeroed : Session.Invariant ⟨{ heap with mem := heap.mem.put ptr size fun _ => 0 },
              [ptr] ++ session.live⟩ others :=
            invariant.put_payload member _ (by omega) (by omega)
          exact ⟨_, by simp [Session.call, kzalloc, run], .of_invariant zeroed initialized⟩
  | kfree ptr =>
      cases ptr with
      | none => exact ⟨session, rfl, good⟩
      | some ptr =>
          obtain ⟨blocks, invariant, initialized, payload⟩ := good.usedPayload (allowed ptr rfl)
          obtain ⟨others, freed, freedInitialized⟩ := invariant.kfree_step initialized payload
          exact ⟨_, rfl, .of_invariant freed freedInitialized⟩
  | krealloc ptr size => exact good.krealloc_step allowed.1 allowed.2
  | write address byte =>
      obtain ⟨ptr, held, lower, upper⟩ := allowed
      cases initialized : session.heap.heapInitialized
      · simp [good.2 initialized] at held
      obtain ⟨blocks, invariant⟩ := good.1 initialized
      obtain ⟨entry, member, rfl⟩ := List.mem_map.mp (invariant.live_perm.subset held)
      rw [Nat.add_sub_cancel, invariant.readHeader_of_mem member] at upper
      exact ⟨_, rfl, .of_invariant
        (invariant.put_payload member _ lower (by simp only at upper; omega)) initialized⟩

end Calls

theorem Reachable.good {session : Session} (reachable : Reachable session) : session.Good := by
  induction reachable with
  | start mem => exact ⟨fun initialized => (nomatch initialized), fun _ => rfl⟩
  | step _ allowed ran induction =>
      obtain ⟨next, run, good⟩ := induction.call allowed
      rw [ran, Option.some.injEq] at run
      exact run ▸ good

/-- An allowed call from a reachable state reaches `afterCall`. -/
theorem Reachable.afterCall {session : Session} (reachable : Reachable session) {call : Call}
    (allowed : call.Allowed session) : Reachable (session.afterCall call) := by
  obtain ⟨next, run, -⟩ := reachable.good.call allowed
  rw [Session.afterCall, run]
  exact reachable.step allowed run

theorem Reachable.afterCalls {session : Session} (reachable : Reachable session)
    {calls : List Call} (allowed : Call.AllAllowed session calls) :
    Reachable (session.afterCalls calls) := by
  induction calls generalizing session with
  | nil => exact reachable
  | cons call calls induction => exact induction (reachable.afterCall allowed.1) allowed.2

/-- Every state a disciplined run reaches: once the heap is initialised, its headers form a
chain from offset 0 to `KERNEL_HEAP_SIZE` with the used blocks' sizes summing to `heap_used`,
and the held pointers are the payloads of the used blocks, each held once and 16-byte aligned;
before it, no pointer is held; and every allowed call returns. -/
theorem reachable_invariant {session : Session} (reachable : Reachable session) :
    (session.heap.heapInitialized = true → ∃ blocks, session.Invariant blocks ∧
        session.live.Nodup ∧ ∀ ptr ∈ session.live, ptr % 16 = 0) ∧
      (session.heap.heapInitialized = false → session.live = []) ∧
      ∀ call, call.Allowed session → ∃ next, session.call call = some next := by
  have good := reachable.good
  refine ⟨fun initialized => ?_, good.2, fun call allowed => ?_⟩
  · obtain ⟨blocks, invariant⟩ := good.1 initialized
    exact ⟨blocks, invariant, invariant.live_nodup, invariant.live_aligned⟩
  · obtain ⟨next, run, -⟩ := good.call allowed
    exact ⟨next, run⟩

/-- The run `kmalloc_init(); kmalloc(16)` on zeroed memory holds the payload at 16, the one
used block of a chain that keeps the invariant. -/
theorem reachable_invariant_kmalloc :
    Reachable ((Session.start fun _ => 0).afterCalls [.kmallocInit, .kmalloc 16]) ∧
      ((Session.start fun _ => 0).afterCalls [.kmallocInit, .kmalloc 16]).live = [16] ∧
      ∃ blocks, Session.Invariant
        ((Session.start fun _ => 0).afterCalls [.kmallocInit, .kmalloc 16]) blocks ∧
        ((Session.start fun _ => 0).afterCalls [.kmallocInit, .kmalloc 16]).live.Nodup ∧
        ∀ ptr ∈ ((Session.start fun _ => 0).afterCalls [.kmallocInit, .kmalloc 16]).live,
          ptr % 16 = 0 :=
  have reachable := (Reachable.start fun _ => 0).afterCalls
    (show Call.AllAllowed _ [.kmallocInit, .kmalloc 16] from
      ⟨trivial, (by decide : 16 ≤ sizeModulus - 32), trivial⟩)
  ⟨reachable, by decide, (reachable_invariant reachable).1 (by decide)⟩

end FreeCore
