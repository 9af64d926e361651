import FreeCore.Kmalloc.Frees

/-! # `krealloc`

`krealloc` keeps a block that holds the new size and otherwise moves the payload; unlike `kfree`
it does not check the used flag. -/

namespace FreeCore

/-! ## The allocator leaves other payloads alone -/

/-- Two used blocks of a layout at different offsets do not overlap. -/
theorem usedBlocks_apart {start : Nat} {blocks : List Block} {first second : Nat × Nat}
    (firstMember : first ∈ usedBlocks start blocks)
    (secondMember : second ∈ usedBlocks start blocks) (different : first.1 ≠ second.1) :
    first.1 + first.2 ≤ second.1 ∨ second.1 + second.2 ≤ first.1 := by
  induction blocks generalizing start with
  | nil => simp [usedBlocks] at firstMember
  | cons block rest induction =>
    have head : ∀ {entry : Nat × Nat},
        entry ∈ (if block.used then [(start, block.size)] else []) → entry = (start, block.size) :=
      fun member => by split at member <;> simp_all
    simp only [usedBlocks, List.mem_append] at firstMember secondMember
    rcases firstMember with here | later <;> rcases secondMember with there | later'
    · exact absurd (by rw [head here, head there]) different
    · obtain rfl := head here
      exact .inl (mem_usedBlocks later').1
    · obtain rfl := head there
      exact .inr (mem_usedBlocks later).1
    · exact induction later later'

/-- `kmalloc` writes nothing inside a used block. -/
theorem kmalloc_agreeOn_used {heap heap' : Heap} {blocks : List Block}
    (chain : Chain heap.mem blocks) (initialized : heap.heapInitialized = true)
    {entry : Nat × Nat} (member : entry ∈ usedBlocks 0 blocks) {size : Nat}
    (bounded : size ≤ sizeModulus - 32) {ptr : Option Nat}
    (run : kmalloc heap size = some (heap', ptr)) :
    Memory.AgreeOn heap.mem heap'.mem entry.1 (entry.1 + entry.2) := by
  by_cases zero : size = 0
  · simp only [kmalloc, zero, if_true, Option.some.injEq, Prod.mk.injEq] at run
    rw [← run.1]
    exact .refl _ _ _
  have positive := Nat.pos_of_ne_zero zero
  cases fits : firstFit (kmallocTotalSize size) blocks with
  | none =>
    rw [kmalloc_of_firstFit_none chain initialized positive fits] at run
    cases run
    exact .refl _ _ _
  | some split =>
    obtain ⟨before, found, after⟩ := split
    rw [kmalloc_of_firstFit_some chain initialized positive fits] at run
    cases run
    obtain ⟨rfl, free, fit, -⟩ := firstFit_spec fits
    have ends := chain.total_eq
    simp only [total_append, total_cons] at ends
    have foundSize : (readHeader heap.mem (total before)).size = found.size := by
      rw [readHeader_of_chain chain]
      rfl
    refine agreeOn_splitBlock (kmallocTotalSize_sized positive bounded)
      (by rw [sizeModulus_eq]; simp only [minAllocSize, allocHeaderSize, kernelHeapSize] at ends ⊢; omega) ?_
    rw [foundSize, max_eq_left found.header_le]
    rw [usedBlocks_append, usedBlocks, free, Nat.zero_add] at member
    rcases List.mem_append.mp member with early | late
    · exact .inr (by simpa using (mem_usedBlocks early).2.1)
    · exact .inl (by simpa using (mem_usedBlocks late).1)

/-- `kfree` of a used block writes nothing inside the payload of another used block. -/
theorem kfree_agreeOn_used {heap : Heap} {blocks : List Block} (chain : Chain heap.mem blocks)
    (initialized : heap.heapInitialized = true) {freed entry : Nat × Nat}
    (freedMember : freed ∈ usedBlocks 0 blocks) (member : entry ∈ usedBlocks 0 blocks)
    (other : entry.1 ≠ freed.1) :
    Memory.AgreeOn heap.mem (kfree heap (some (freed.1 + allocHeaderSize))).mem
      (entry.1 + allocHeaderSize) (entry.1 + entry.2) := by
  have apart := usedBlocks_apart member freedMember other
  obtain ⟨before, block, after, rfl, offset, size, used⟩ :=
    exists_split_of_mem_usedBlocks freedMember
  rw [Nat.zero_add] at offset
  rw [← offset, ← size] at apart
  rw [← offset, kfree_of_used chain initialized used]
  dsimp only
  have sized := block.header_le
  simp only [allocHeaderSize] at sized ⊢
  refine (agreeOn_setUsed heap.mem (total before) false (by omega)).trans ?_
  rcases mergeBlocks_eq (setUsed heap.mem (total before) false) (total before) with same | ⟨_, merged⟩
  · rw [same]
    exact .refl _ _ _
  · rw [merged, readHeader_setUsed_freed chain]
    dsimp only [Block.header, Block.free]
    exact (agreeOn_setSize _ _ _ (by omega)).trans (agreeOn_setMagic _ _ _ (by omega))

/-! ## Moving a block -/

/-- `krealloc_of_chain` for a used block named by its entry in `usedBlocks`. -/
theorem krealloc_of_usedBlocks {heap : Heap} {blocks : List Block} (chain : Chain heap.mem blocks)
    {entry : Nat × Nat} (member : entry ∈ usedBlocks 0 blocks) {size : Nat} (positive : 0 < size) :
    krealloc heap (some (entry.1 + allocHeaderSize)) size =
      if size ≤ entry.2 - allocHeaderSize then some (heap, some (entry.1 + allocHeaderSize))
      else
        match kmalloc heap size with
        | none => none
        | some (heap', none) => some (heap', none)
        | some (heap', some newPtr) =>
            some (kfree { heap' with
                mem := heap'.mem.put newPtr (entry.2 - allocHeaderSize)
                  fun index => heap'.mem (entry.1 + allocHeaderSize + index) }
              (some (entry.1 + allocHeaderSize)), some newPtr) := by
  obtain ⟨before, block, after, rfl, offset, sized, -⟩ := exists_split_of_mem_usedBlocks member
  rw [Nat.zero_add] at offset
  rw [← offset, ← sized]
  exact krealloc_of_chain chain positive

/-- `krealloc` of a used block's payload on a chain, for a nonzero size that cannot wrap:
the pointer comes back with the heap unchanged when the payload holds the size; otherwise the
call returns `NULL` with the heap unchanged, or the payload of another, new used block that holds
the size and whose first bytes are the old payload, the old block freed. -/
theorem krealloc_moves {heap : Heap} {blocks : List Block} (chain : Chain heap.mem blocks)
    (initialized : heap.heapInitialized = true) (heapUsed : heap.heapUsed = usedTotal blocks)
    {entry : Nat × Nat} (member : entry ∈ usedBlocks 0 blocks) {size : Nat} (positive : 0 < size)
    (bounded : size ≤ sizeModulus - 32) :
    (size ≤ entry.2 - allocHeaderSize →
      krealloc heap (some (entry.1 + allocHeaderSize)) size =
        some (heap, some (entry.1 + allocHeaderSize))) ∧
    (entry.2 - allocHeaderSize < size →
      krealloc heap (some (entry.1 + allocHeaderSize)) size = some (heap, none) ∨
      ∃ heap' others moved, krealloc heap (some (entry.1 + allocHeaderSize)) size =
          some (heap', some (moved.1 + allocHeaderSize)) ∧
        moved.1 ≠ entry.1 ∧ size + allocHeaderSize ≤ moved.2 ∧
        heap'.heapInitialized = true ∧ Chain heap'.mem others ∧
        heap'.heapUsed = usedTotal others ∧
        (∃ rest, (usedBlocks 0 blocks).Perm (entry :: rest) ∧
          (usedBlocks 0 others).Perm (moved :: rest)) ∧
        ∀ index < entry.2 - allocHeaderSize, heap'.mem (moved.1 + allocHeaderSize + index) =
          heap.mem (entry.1 + allocHeaderSize + index)) := by
  rw [krealloc_of_usedBlocks chain member positive]
  refine ⟨fun fits => by rw [if_pos fits], fun grows => ?_⟩
  rw [if_neg (by omega)]
  obtain ⟨heap', ptr, run, initialized', outcome⟩ := kmalloc_spec chain initialized heapUsed bounded
  have kept := kmalloc_agreeOn_used chain initialized member bounded run
  rcases outcome with ⟨rfl, rfl⟩ | ⟨others, moved, rfl, covers, chain', heapUsed', perm⟩
  · left
    rw [run]
  right
  rw [run]
  dsimp only
  have movedMember : moved ∈ usedBlocks 0 others := perm.symm.subset (List.mem_cons_self _ _)
  have entryMember : entry ∈ usedBlocks 0 others :=
    perm.symm.subset (List.mem_cons_of_mem _ member)
  have fresh : moved.1 ≠ entry.1 := fun same => by
    have nodup := (perm.map fun entry : Nat × Nat => entry.1 + allocHeaderSize).nodup_iff.mp
      (payloads_nodup 0 others)
    rw [List.map_cons, List.nodup_cons, same] at nodup
    exact nodup.1 (List.mem_map_of_mem _ member)
  generalize copiedEq : ({ heap' with
    mem := heap'.mem.put (moved.1 + allocHeaderSize) (entry.2 - allocHeaderSize)
      fun index => heap'.mem (entry.1 + allocHeaderSize + index) } : Heap) = copied
  have copiedMem : copied.mem = heap'.mem.put (moved.1 + allocHeaderSize)
      (entry.2 - allocHeaderSize) fun index => heap'.mem (entry.1 + allocHeaderSize + index) := by
    rw [← copiedEq]
  have copiedChain : Chain copied.mem others := by
    rw [copiedMem]
    exact chain'.put_payload movedMember _ le_rfl (by omega)
  have copiedInitialized : copied.heapInitialized = true := by rw [← copiedEq]; exact initialized'
  have copiedUsed : copied.heapUsed = usedTotal others := by rw [← copiedEq]; exact heapUsed'
  obtain ⟨final, finalChain, finalUsed, left, right, split, erased⟩ :=
    kfree_spec copiedChain copiedInitialized copiedUsed entryMember
  refine ⟨_, final, moved, rfl, fresh, covers, by rw [kfree_heapInitialized]; exact copiedInitialized,
    finalChain, finalUsed, ?_, fun index below => ?_⟩
  · have removed := List.perm_cons_erase member
    refine ⟨_, removed, ?_⟩
    rw [erased]
    rw [split] at perm
    exact (List.perm_middle.symm.trans (perm.trans ((removed.cons moved).trans
      (List.Perm.swap _ _ _)))).cons_inv
  · have freedKept := kfree_agreeOn_used copiedChain copiedInitialized entryMember movedMember fresh
    rw [← freedKept _ (by omega) (by omega), copiedMem, Memory.put_apply, if_pos (by omega),
      Nat.add_sub_cancel_left, kept _ (by omega) (by omega)]

/-- The chain after `kmalloc_init(); kmalloc(16)`: a used block of 32 bytes, then the free rest
of the arena. -/
def sixteenAllocated : List Block :=
  [⟨32, true, by decide, by decide⟩, ⟨kernelHeapSize - 32, false, by decide, by decide⟩]

/-- From `kmalloc_init(); kmalloc(16)`, `krealloc(16, 100)` moves the 16-byte payload to a
new block and copies it there. -/
theorem krealloc_moves_sixteen :
    ∃ heap' moved, krealloc ((Session.start fun _ => 0).afterCalls
        [.kmallocInit, .kmalloc 16]).heap (some 16) 100 = some (heap', some (moved + allocHeaderSize)) ∧
      moved ≠ 0 ∧ ∀ index < 16, heap'.mem (moved + allocHeaderSize + index) =
        ((Session.start fun _ => 0).afterCalls [.kmallocInit, .kmalloc 16]).heap.mem (16 + index) := by
  rcases (krealloc_moves
      (by decide : Chain ((Session.start fun _ => 0).afterCalls [.kmallocInit, .kmalloc 16]).heap.mem
        sixteenAllocated)
      rfl (by decide) (show ((0, 32) : Nat × Nat) ∈ _ by decide) (by decide : 0 < 100)
      (by decide)).2
      (by decide) with null | ⟨heap', -, moved, run, fresh, -, -, -, -, -, copied⟩
  · have result := congrArg (Option.map Prod.snd) null
    exact absurd result (by decide)
  · exact ⟨heap', moved.1, run, fresh, copied⟩

/-! ## A freed pointer -/

/-- `krealloc` checks the header before the pointer but not its used flag: the payload pointer of
a free block of the chain comes back as it is, with the heap unchanged, for every nonzero size its
free block holds. -/
theorem krealloc_of_free_block {heap : Heap} {before after : List Block} {block : Block}
    (chain : Chain heap.mem (before ++ block :: after)) (free : block.used = false) {size : Nat}
    (positive : 0 < size) (fits : size ≤ block.size - allocHeaderSize) :
    (readHeader heap.mem (total before)).used = false ∧
      krealloc heap (some (total before + allocHeaderSize)) size =
        some (heap, some (total before + allocHeaderSize)) := by
  refine ⟨by rw [readHeader_of_chain chain]; exact free, ?_⟩
  rw [krealloc_of_chain chain positive, if_pos fits]

/-- After `kmalloc_init(); kmalloc(16); kfree(16)` the arena is one free block again, and
`krealloc(16, 1)` returns 16, the pointer just freed. -/
theorem krealloc_returns_freed_pointer :
    Reachable ((Session.start fun _ => 0).afterCalls
        [.kmallocInit, .kmalloc 16, .kfree (some 16)]) ∧
      (readHeader ((Session.start fun _ => 0).afterCalls
        [.kmallocInit, .kmalloc 16, .kfree (some 16)]).heap.mem (total [])).used = false ∧
      krealloc ((Session.start fun _ => 0).afterCalls
          [.kmallocInit, .kmalloc 16, .kfree (some 16)]).heap (some (total [] + allocHeaderSize)) 1 =
        some (((Session.start fun _ => 0).afterCalls
          [.kmallocInit, .kmalloc 16, .kfree (some 16)]).heap, some (total [] + allocHeaderSize)) :=
  ⟨(Reachable.start fun _ => 0).afterCalls
      ⟨trivial, (by decide : 16 ≤ sizeModulus - 32), fun p same => Option.mem_some_iff.mp same ▸
        ⟨rfl, sixteenAllocated, by decide, by decide⟩, trivial⟩,
    krealloc_of_free_block (by decide : Chain ((Session.start fun _ => 0).afterCalls
        [.kmallocInit, .kmalloc 16, .kfree (some 16)]).heap.mem ([] ++ wholeArena :: []))
      rfl (by decide) (by decide)⟩

end FreeCore
