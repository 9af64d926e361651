import FreeCore.Kmalloc.Run

/-! # Sequences of frees

`merge_blocks` looks only to the right, so the order of two frees shows in the heap; a freed
pointer can be freed again harmlessly, and a pointer into a payload cannot. -/

namespace FreeCore

/-! ## Blocks with their offsets -/

/-- Every block with its offset, for blocks laid out from `start`. -/
def entries : Nat → List Block → List (Nat × Block)
  | _, [] => []
  | start, block :: rest => (start, block) :: entries (start + block.size) rest

theorem entries_append (start : Nat) (left right : List Block) :
    entries start (left ++ right) = entries start left ++ entries (start + total left) right := by
  induction left generalizing start with
  | nil => simp [entries]
  | cons block rest induction => simp [entries, induction, Nat.add_assoc]

theorem Layout.readHeader_of_mem_entries {mem : Memory} {start : Nat} {blocks : List Block}
    (layout : Layout mem start blocks) {entry : Nat × Block}
    (member : entry ∈ entries start blocks) : readHeader mem entry.1 = entry.2.header := by
  induction blocks generalizing start with
  | nil => simp [entries] at member
  | cons block rest induction =>
      rcases List.mem_cons.mp member with rfl | later
      · exact layout.1
      · exact induction layout.2 later

theorem mem_entries_bounds {start : Nat} {blocks : List Block} {entry : Nat × Block}
    (member : entry ∈ entries start blocks) :
    start ≤ entry.1 ∧ entry.1 + entry.2.size ≤ start + total blocks := by
  induction blocks generalizing start with
  | nil => simp [entries] at member
  | cons block rest induction =>
      simp only [total_cons]
      rcases List.mem_cons.mp member with rfl | later
      · exact ⟨le_rfl, by simp⟩
      · have := induction later
        omega

/-- `release` keeps every block but the freed one and its right neighbour, at its offset. -/
theorem mem_entries_release {start : Nat} {block : Block} {after : List Block}
    {entry : Nat × Block} (member : entry ∈ entries start (block :: after))
    (notHere : entry.1 ≠ start) (notNext : entry.1 ≠ start + block.size) :
    entry ∈ entries start (release (block :: after)) := by
  match after with
  | [] =>
      simp only [entries, List.mem_singleton] at member
      exact absurd (by rw [member]) notHere
  | next :: rest =>
      simp only [entries, List.mem_cons] at member
      rcases member with rfl | rfl | later
      · exact absurd rfl notHere
      · exact absurd rfl notNext
      · simp only [release]
        split
        · simp [entries, Block.free, later]
        · simp [entries, Block.merge, ← Nat.add_assoc, later]

/-- `release` leaves a free block at the freed block's offset, at least as large. -/
theorem release_cons (block : Block) (after : List Block) :
    ∃ freed rest, release (block :: after) = freed :: rest ∧ freed.used = false ∧
      block.size ≤ freed.size := by
  match after with
  | [] => exact ⟨block.free, [], rfl, rfl, le_rfl⟩
  | next :: rest =>
      simp only [release]
      split
      · exact ⟨block.free, next :: rest, rfl, rfl, le_rfl⟩
      · exact ⟨block.merge next, rest, rfl, rfl, Nat.le_add_right _ _⟩

/-! ## Two adjacent blocks -/

section Adjacent

variable {heap : Heap} {before after : List Block} {first second : Block}
  (chain : Chain heap.mem (before ++ first :: second :: after))
  (initialized : heap.heapInitialized = true) (firstUsed : first.used = true)
  (secondUsed : second.used = true)
include chain initialized firstUsed secondUsed

/-- Freed right then left, the two blocks become one free block at the left one's offset. -/
theorem chain_kfree_right_left : ∃ merged rest,
    Chain (kfree (kfree heap (some (total before + first.size + allocHeaderSize)))
      (some (total before + allocHeaderSize))).mem (before ++ merged :: rest) ∧
      merged.used = false ∧ first.size + second.size ≤ merged.size := by
  have rightChain : Chain heap.mem ((before ++ [first]) ++ second :: after) := by
    simpa using chain
  have rightFreed := chain_kfree_of_used rightChain initialized secondUsed
  obtain ⟨freed, rest, released, free, larger⟩ := release_cons second after
  simp only [total_append, total_cons, total_nil, Nat.add_zero, released, List.append_assoc,
    List.singleton_append] at rightFreed
  have leftFreed := chain_kfree_of_used rightFreed (by simpa using initialized) firstUsed
  simp only [release, free, Bool.false_eq_true, if_false] at leftFreed
  exact ⟨first.merge freed, rest, leftFreed, rfl, by simp only [Block.merge]; omega⟩

/-- Freed left then right, the left block stays a free block of its own size. -/
theorem chain_kfree_left_right :
    Chain (kfree (kfree heap (some (total before + allocHeaderSize)))
      (some (total before + first.size + allocHeaderSize))).mem
      (before ++ first.free :: release (second :: after)) := by
  have leftFreed := chain_kfree_of_used chain initialized firstUsed
  simp only [release, secondUsed, if_true] at leftFreed
  have rightChain : Chain (kfree heap (some (total before + allocHeaderSize))).mem
      ((before ++ [first.free]) ++ second :: after) := by
    simpa using leftFreed
  have rightFreed := chain_kfree_of_used rightChain (by simpa using initialized) secondUsed
  simpa [Block.free] using rightFreed

/-- Two adjacent used blocks freed in the two orders: right then left leaves one free block of
at least both sizes at the left block's offset; left then right leaves the left block free on
its own, followed by the freed right one; so the two heaps differ. -/
theorem kfree_adjacent_orders :
    (∃ merged rest,
      Chain (kfree (kfree heap (some (total before + first.size + allocHeaderSize)))
        (some (total before + allocHeaderSize))).mem (before ++ merged :: rest) ∧
        merged.used = false ∧ first.size + second.size ≤ merged.size) ∧
      Chain (kfree (kfree heap (some (total before + allocHeaderSize)))
        (some (total before + first.size + allocHeaderSize))).mem
        (before ++ first.free :: release (second :: after)) ∧
      kfree (kfree heap (some (total before + first.size + allocHeaderSize)))
          (some (total before + allocHeaderSize)) ≠
        kfree (kfree heap (some (total before + allocHeaderSize)))
          (some (total before + first.size + allocHeaderSize)) := by
  obtain ⟨merged, rest, rightLeft, free, larger⟩ :=
    chain_kfree_right_left chain initialized firstUsed secondUsed
  have leftRight := chain_kfree_left_right chain initialized firstUsed secondUsed
  refine ⟨⟨merged, rest, rightLeft, free, larger⟩, leftRight, fun same => ?_⟩
  have header := readHeader_of_chain rightLeft
  rw [same, readHeader_of_chain leftRight] at header
  have := second.size_pos
  simp only [Block.header, Block.free, AllocHeader.mk.injEq] at header
  omega

end Adjacent

/-- After `kmalloc_init(); kmalloc(16); kmalloc(16)` the chain is two used blocks of 32 bytes
and the free rest, and the theorem applies to the two used blocks. -/
theorem kfree_adjacent_orders_two_kmallocs :
    Chain ((Session.start fun _ => 0).afterCalls [.kmallocInit, .kmalloc 16, .kmalloc 16]).heap.mem
      ([] ++ ⟨32, true, by decide, by decide⟩ :: ⟨32, true, by decide, by decide⟩ ::
        [⟨kernelHeapSize - 64, false, by decide, by decide⟩]) ∧
      Chain (kfree (kfree ((Session.start fun _ => 0).afterCalls
          [.kmallocInit, .kmalloc 16, .kmalloc 16]).heap (some 16)) (some 48)).mem
        ([] ++ ⟨32, false, by decide, by decide⟩ :: release [⟨32, true, by decide, by decide⟩,
          ⟨kernelHeapSize - 64, false, by decide, by decide⟩]) :=
  (fun chain => ⟨chain, (kfree_adjacent_orders chain (by decide) rfl rfl).2.1⟩) (by decide)

/-- The run `kmalloc_init(); kmalloc(16); kmalloc(16)` is allowed and leaves used blocks of 32
bytes at offsets 0 and 32, with payloads 16 and 48; `kfree(48); kfree(16)` and
`kfree(16); kfree(48)` leave different heaps. -/
theorem kfree_orders_differ :
    Reachable ((Session.start fun _ => 0).afterCalls [.kmallocInit, .kmalloc 16, .kmalloc 16]) ∧
      ((Session.start fun _ => 0).afterCalls [.kmallocInit, .kmalloc 16, .kmalloc 16]).live =
        [48, 16] ∧
      readHeader ((Session.start fun _ => 0).afterCalls
        [.kmallocInit, .kmalloc 16, .kmalloc 16]).heap.mem 0 = ⟨32, allocMagic, true⟩ ∧
      readHeader ((Session.start fun _ => 0).afterCalls
        [.kmallocInit, .kmalloc 16, .kmalloc 16]).heap.mem 32 = ⟨32, allocMagic, true⟩ ∧
      kfree (kfree ((Session.start fun _ => 0).afterCalls
          [.kmallocInit, .kmalloc 16, .kmalloc 16]).heap (some 48)) (some 16) ≠
        kfree (kfree ((Session.start fun _ => 0).afterCalls
          [.kmallocInit, .kmalloc 16, .kmalloc 16]).heap (some 16)) (some 48) :=
  ⟨(Reachable.start fun _ => 0).afterCalls
    (show Call.AllAllowed _ [.kmallocInit, .kmalloc 16, .kmalloc 16] from
      ⟨trivial, (by decide : 16 ≤ sizeModulus - 32), (by decide : 16 ≤ sizeModulus - 32),
        trivial⟩), by decide, by decide, by decide,
    fun same => absurd (congrArg (fun heap : Heap => (readHeader heap.mem 0).size) same)
      (by decide)⟩

/-! ## Freeing a pointer again -/

theorem validateBlock_magic {mem : Memory} {header : Int}
    (valid : validateBlock mem header = true) :
    (readHeader mem header.toNat).magic = allocMagic := by
  unfold validateBlock at valid
  split_ifs at valid with outside badMagic
  exact not_not.mp badMagic

/-- `kfree` leaves the heap alone when the header before the pointer is marked free or does not
carry `ALLOC_MAGIC`. -/
theorem kfree_of_inert {heap : Heap} {ptr : Nat} (sized : allocHeaderSize ≤ ptr)
    (inert : (readHeader heap.mem (ptr - allocHeaderSize)).used = false ∨
      (readHeader heap.mem (ptr - allocHeaderSize)).magic ≠ allocMagic) :
    kfree heap (some ptr) = heap := by
  have offset : ((ptr : Int) - (allocHeaderSize : Nat)).toNat = ptr - allocHeaderSize := by omega
  by_cases valid : validateBlock heap.mem ((ptr : Int) - (allocHeaderSize : Nat)) = true
  · have magic := validateBlock_magic valid
    rw [offset] at magic
    have unused := inert.resolve_right (not_not.mpr magic)
    simp [kfree, valid, unused]
  · simp [kfree, valid]

/-- A pointer `kfree` has released: its header is a free block of the chain, or no longer
carries `ALLOC_MAGIC`. -/
def Released (mem : Memory) (blocks : List Block) (ptr : Nat) : Prop :=
  allocHeaderSize ≤ ptr ∧ ptr % 16 = 0 ∧
    ((∃ block, (ptr - allocHeaderSize, block) ∈ entries 0 blocks ∧ block.used = false) ∨
      (readHeader mem (ptr - allocHeaderSize)).magic ≠ allocMagic)

theorem kfree_of_released {heap : Heap} {blocks : List Block} (chain : Chain heap.mem blocks)
    {ptr : Nat} (released : Released heap.mem blocks ptr) : kfree heap (some ptr) = heap := by
  obtain ⟨sized, -, ⟨block, member, free⟩ | cleared⟩ := released
  · refine kfree_of_inert sized (.inl ?_)
    rw [chain.layout.readHeader_of_mem_entries member]
    exact free
  · exact kfree_of_inert sized (.inr cleared)

section Again

variable {heap : Heap} {before after : List Block} {block : Block}
  (chain : Chain heap.mem (before ++ block :: after))
  (initialized : heap.heapInitialized = true) (used : block.used = true)
include chain initialized used

omit chain initialized used in
/-- The pointer just freed is released. -/
theorem released_of_kfree :
    Released (kfree heap (some (total before + allocHeaderSize))).mem
      (before ++ release (block :: after)) (total before + allocHeaderSize) := by
  obtain ⟨freed, rest, released, free, -⟩ := release_cons block after
  have aligned := total_aligned before
  refine ⟨Nat.le_add_left _ _, by simp only [allocHeaderSize]; omega, .inl ⟨freed, ?_, free⟩⟩
  rw [Nat.add_sub_cancel, entries_append, released, Nat.zero_add]
  simp [entries]

omit initialized used in
/-- Clearing the used flag of a chain block's header leaves the header of the block freed. -/
theorem readHeader_setUsed_freed :
    readHeader (setUsed heap.mem (total before) false) (total before) = block.free.header := by
  rw [readHeader_setUsed, readHeader_of_chain chain]
  rfl

/-- `kfree` of a used block writes only its own header and, when it absorbs its right
neighbour, that neighbour's magic: every other aligned header reads as before. -/
theorem readHeader_kfree_of_apart {header : Nat} (aligned : header % 16 = 0)
    (notHere : header ≠ total before)
    (notNext : header ≠ total before + block.size ∨ after = []) :
    readHeader (kfree heap (some (total before + allocHeaderSize))).mem header =
      readHeader heap.mem header := by
  have blockAligned := total_aligned before
  have sizeAligned := block.aligned
  have apart : ∀ other, other % 16 = 0 → header ≠ other →
      other + allocHeaderSize ≤ header ∨ header + allocHeaderSize ≤ other := by
    simp only [allocHeaderSize]
    omega
  have freedHeader := readHeader_setUsed_freed chain
  rw [kfree_of_used chain initialized used]
  dsimp only
  cases after with
  | nil =>
      have ends := chain.total_eq
      simp only [total_append, total_cons, total_nil, Nat.add_zero] at ends
      rw [mergeBlocks_of_end freedHeader (by simp only [Block.free]; omega),
        readHeader_setUsed_of_apart (apart _ blockAligned notHere)]
  | cons next rest =>
      have notNext := notNext.resolve_right (List.cons_ne_nil _ _)
      rcases mergeBlocks_eq (setUsed heap.mem (total before) false) (total before)
        with same | ⟨size, merged⟩
      · rw [same, readHeader_setUsed_of_apart (apart _ blockAligned notHere)]
      · rw [merged, freedHeader]
        dsimp only [Block.header, Block.free]
        rw [readHeader_setMagic_of_apart (apart _ (by omega) notNext),
          readHeader_setSize_of_apart (apart _ blockAligned notHere),
          readHeader_setUsed_of_apart (apart _ blockAligned notHere)]

/-- A free right neighbour is absorbed and its magic cleared. -/
theorem magic_kfree_absorbed {next : Block} {rest : List Block} (split : after = next :: rest)
    (free : next.used = false) :
    (readHeader (kfree heap (some (total before + allocHeaderSize))).mem
      (total before + block.size)).magic = 0 := by
  subst split
  have layout := chain.layout
  have ends := chain.total_eq
  rw [layout_append, Nat.zero_add] at layout
  simp only [total_append, total_cons] at ends
  have sized := block.header_le
  simp only [allocHeaderSize] at sized
  have freedHeader := readHeader_setUsed_freed chain
  have nextHeader : readHeader (setUsed heap.mem (total before) false)
      (total before + block.free.size) = next.header := by
    rw [readHeader_setUsed_of_apart (by simp only [Block.free, allocHeaderSize]; omega)]
    exact layout.2.2.1
  rw [kfree_of_used chain initialized used,
    mergeBlocks_of_free_next freedHeader nextHeader (by simp only [Block.free]; omega) free]
  simp [Block.free]

omit initialized in
/-- A released pointer's header is not the header of a used block. -/
theorem Released.header_ne {ptr : Nat} (released : Released heap.mem (before ++ block :: after) ptr) :
    ptr - allocHeaderSize ≠ total before := by
  intro here
  rcases released.2.2 with ⟨other, member, free⟩ | cleared
  · have header := chain.layout.readHeader_of_mem_entries member
    rw [here, readHeader_of_chain chain] at header
    simp only [Block.header, AllocHeader.mk.injEq, used, free] at header
    exact Bool.noConfusion header.2.2
  · rw [here, readHeader_of_chain chain] at cleared
    exact cleared rfl

/-- A released pointer stays released when a used block is freed. -/
theorem Released.kfree_step {ptr : Nat} (released : Released heap.mem (before ++ block :: after) ptr) :
    Released (kfree heap (some (total before + allocHeaderSize))).mem
      (before ++ release (block :: after)) ptr := by
  have notHere := released.header_ne chain used
  obtain ⟨sized, aligned, state⟩ := released
  have layout := chain.layout
  have headerAligned : (ptr - allocHeaderSize) % 16 = 0 := by
    simp only [allocHeaderSize] at sized ⊢
    omega
  refine ⟨sized, aligned, ?_⟩
  by_cases atNext : ptr - allocHeaderSize = total before + block.size
  · rcases state with ⟨other, member, free⟩ | cleared
    · -- the released block is the right neighbour, absorbed by this free
      have bounds := mem_entries_bounds member
      have positive := other.size_pos
      rw [layout_append, Nat.zero_add] at layout
      cases after with
      | nil =>
          have ends := chain.total_eq
          simp only [total_append, total_cons, total_nil] at bounds ends
          omega
      | cons next rest =>
          have header := chain.layout.readHeader_of_mem_entries member
          rw [atNext, layout.2.2.1] at header
          simp only [Block.header, AllocHeader.mk.injEq, free] at header
          right
          rw [atNext, magic_kfree_absorbed chain initialized used rfl header.2.2]
          decide
    · right
      rwa [readHeader_kfree_of_apart chain initialized used headerAligned notHere]
      cases after with
      | nil => exact .inr rfl
      | cons next rest =>
          rw [layout_append, Nat.zero_add] at layout
          rw [atNext, layout.2.2.1] at cleared
          exact absurd rfl cleared
  · rcases state with ⟨other, member, free⟩ | cleared
    · left
      refine ⟨other, ?_, free⟩
      rw [entries_append, Nat.zero_add] at member ⊢
      rcases List.mem_append.mp member with early | late
      · exact List.mem_append_left _ early
      · exact List.mem_append_right _ (mem_entries_release late notHere atNext)
    · right
      rwa [readHeader_kfree_of_apart chain initialized used headerAligned notHere (.inl atNext)]

end Again

/-- The heap while only pointers from `pointers` are freed: the chain, and each of the pointers
the payload of a used block or released. -/
structure Tracked (heap : Heap) (blocks : List Block) (pointers : List Nat) : Prop where
  initialized : heap.heapInitialized = true
  chain : Chain heap.mem blocks
  tracked : ∀ ptr ∈ pointers, ptr ∈ payloads 0 blocks ∨ Released heap.mem blocks ptr

/-- One free of a tracked pointer: the pointer is released afterwards, and so is every pointer
released before. -/
theorem Tracked.kfree_step {heap : Heap} {blocks : List Block} {pointers : List Nat}
    (tracked : Tracked heap blocks pointers) {ptr : Option Nat} (held : ∀ p ∈ ptr, p ∈ pointers) :
    ∃ others, Tracked (kfree heap ptr) others pointers ∧
      (∀ p ∈ ptr, Released (kfree heap ptr).mem others p) ∧
      ∀ p, Released heap.mem blocks p → Released (kfree heap ptr).mem others p := by
  cases ptr with
  | none => exact ⟨blocks, tracked, by simp, fun _ => id⟩
  | some ptr =>
      rcases tracked.tracked ptr (held ptr rfl) with payload | released
      · obtain ⟨entry, member, rfl⟩ := List.mem_map.mp payload
        obtain ⟨before, block, after, split, offset, -, used⟩ :=
          exists_split_of_mem_usedBlocks member
        subst split
        rw [Nat.zero_add] at offset
        rw [← offset]
        have chain := tracked.chain
        have initialized := tracked.initialized
        refine ⟨before ++ release (block :: after), ⟨by simpa using initialized,
          chain_kfree_of_used chain initialized used, fun p member => ?_⟩,
          fun p same => ?_, fun p => Released.kfree_step chain initialized used⟩
        · rcases tracked.tracked p member with payload | released
          · by_cases same : p = total before + allocHeaderSize
            · subst same
              exact .inr released_of_kfree
            · left
              rw [payloads_append, Nat.zero_add, payloads_cons_of_used used] at payload
              rw [payloads_append, Nat.zero_add, payloads_release]
              rcases List.mem_append.mp payload with early | late
              · exact List.mem_append_left _ early
              · exact List.mem_append_right _ ((List.mem_cons.mp late).resolve_left same)
          · exact .inr (released.kfree_step chain initialized used)
        · rw [← Option.mem_some_iff.mp same]
          exact released_of_kfree
      · rw [kfree_of_released tracked.chain released]
        exact ⟨blocks, tracked, fun p same => Option.mem_some_iff.mp same ▸ released,
          fun _ => id⟩

/-- A run of frees of tracked pointers keeps them tracked and keeps released pointers
released. -/
theorem Tracked.kfree_run {heap : Heap} {blocks : List Block} {pointers : List Nat}
    (tracked : Tracked heap blocks pointers) {frees : List (Option Nat)}
    (held : ∀ ptr ∈ frees, ∀ p ∈ ptr, p ∈ pointers) :
    ∃ others, Tracked (frees.foldl kfree heap) others pointers ∧
      ∀ p, Released heap.mem blocks p → Released (frees.foldl kfree heap).mem others p := by
  induction frees generalizing heap blocks with
  | nil => exact ⟨blocks, tracked, fun _ => id⟩
  | cons ptr rest induction =>
      obtain ⟨middle, next, -, keep⟩ := tracked.kfree_step (held ptr (List.mem_cons_self _ _))
      obtain ⟨others, final, keepRest⟩ :=
        induction next fun q member => held q (List.mem_cons_of_mem _ member)
      exact ⟨others, final, fun p released => keepRest p (keep p released)⟩

/-- A held pointer, once freed, can be freed again after any run of frees of `NULL` or of
pointers held with it: the second `kfree` changes nothing. -/
theorem kfree_again_after_frees {session : Session} (reachable : Reachable session) {ptr : Nat}
    (held : ptr ∈ session.live) {frees : List (Option Nat)}
    (heldFrees : ∀ q ∈ frees, ∀ p ∈ q, p ∈ session.live) :
    kfree (frees.foldl kfree (kfree session.heap (some ptr))) (some ptr) =
      frees.foldl kfree (kfree session.heap (some ptr)) := by
  have good := reachable.good
  cases initialized : session.heap.heapInitialized
  · rw [good.2 initialized] at held
    cases held
  obtain ⟨blocks, invariant⟩ := good.1 initialized
  have tracked : Tracked session.heap blocks session.live :=
    ⟨initialized, invariant.chain, fun p member => .inl (invariant.live_perm.subset member)⟩
  obtain ⟨middle, next, freed, -⟩ :=
    tracked.kfree_step (show ∀ p ∈ some ptr, p ∈ session.live from
      fun p same => Option.mem_some_iff.mp same ▸ held)
  obtain ⟨others, final, keep⟩ := next.kfree_run heldFrees
  exact kfree_of_released final.chain (keep ptr (freed ptr rfl))

/-- After `kmalloc_init(); kmalloc(16); kmalloc(16)`, `kfree(16); kfree(48)` and then
`kfree(16)` once more changes nothing. -/
theorem kfree_again_after_two_kmallocs :
    kfree ([some 48].foldl kfree (kfree ((Session.start fun _ => 0).afterCalls
        [.kmallocInit, .kmalloc 16, .kmalloc 16]).heap (some 16))) (some 16) =
      [some 48].foldl kfree (kfree ((Session.start fun _ => 0).afterCalls
        [.kmallocInit, .kmalloc 16, .kmalloc 16]).heap (some 16)) :=
  kfree_again_after_frees ((Reachable.start fun _ => 0).afterCalls
    (show Call.AllAllowed _ [.kmallocInit, .kmalloc 16, .kmalloc 16] from
      ⟨trivial, (by decide : 16 ≤ sizeModulus - 32), (by decide : 16 ≤ sizeModulus - 32),
        trivial⟩)) (by decide) (by decide)

/-- A pointer into a payload defeats the double-free check. `kmalloc(65536)` returns 16, a
block of 65552 bytes at 0. The thread stores the bytes of `ALLOC_MAGIC` at 18 and a used flag
at 22, which with the real header's magic and used bytes spell a used header at 10, and a free
header of 65536 bytes at 43991. After `kfree(16)`, `kfree(26)` frees the header at 10 and
merges it with the one at 43991; the merged size it writes at 10 sets the real header's used
byte, so a further `kfree(16)` frees the block at 0 again and changes `heap_used`. -/
theorem kfree_forged_header :
    Reachable ((Session.start fun _ => 0).afterCalls
        [.kmallocInit, .kmalloc 65536, .write 18 0x34, .write 19 0x12, .write 20 0xCD,
          .write 21 0xAB, .write 22 1, .write 43993 1, .write 43999 0x34, .write 44000 0x12,
          .write 44001 0xCD, .write 44002 0xAB]) ∧
      ((Session.start fun _ => 0).afterCalls
        [.kmallocInit, .kmalloc 65536, .write 18 0x34, .write 19 0x12, .write 20 0xCD,
          .write 21 0xAB, .write 22 1, .write 43993 1, .write 43999 0x34, .write 44000 0x12,
          .write 44001 0xCD, .write 44002 0xAB]).live = [16] ∧
      (kfree (kfree (kfree ((Session.start fun _ => 0).afterCalls
        [.kmallocInit, .kmalloc 65536, .write 18 0x34, .write 19 0x12, .write 20 0xCD,
          .write 21 0xAB, .write 22 1, .write 43993 1, .write 43999 0x34, .write 44000 0x12,
          .write 44001 0xCD, .write 44002 0xAB]).heap (some 16)) (some 26)) (some 16)).heapUsed ≠
        (kfree (kfree ((Session.start fun _ => 0).afterCalls
          [.kmallocInit, .kmalloc 65536, .write 18 0x34, .write 19 0x12, .write 20 0xCD,
            .write 21 0xAB, .write 22 1, .write 43993 1, .write 43999 0x34, .write 44000 0x12,
            .write 44001 0xCD, .write 44002 0xAB]).heap (some 16)) (some 26)).heapUsed :=
  ⟨(Reachable.start fun _ => 0).afterCalls
    (show Call.AllAllowed _ [.kmallocInit, .kmalloc 65536, .write 18 0x34, .write 19 0x12,
      .write 20 0xCD, .write 21 0xAB, .write 22 1, .write 43993 1, .write 43999 0x34,
      .write 44000 0x12, .write 44001 0xCD, .write 44002 0xAB] from
      ⟨trivial, (by decide : 65536 ≤ sizeModulus - 32),
        show Session.Holds _ 18 by decide, show Session.Holds _ 19 by decide,
        show Session.Holds _ 20 by decide, show Session.Holds _ 21 by decide,
        show Session.Holds _ 22 by decide, show Session.Holds _ 43993 by decide,
        show Session.Holds _ 43999 by decide, show Session.Holds _ 44000 by decide,
        show Session.Holds _ 44001 by decide, show Session.Holds _ 44002 by decide, trivial⟩),
    by decide, by decide⟩

end FreeCore
