import FreeCore.Kmalloc.Layout

/-! # The allocator refines the block chain

Run on a memory that holds a chain, each function of `kmalloc.c` computes the list operation
of `Layout`: `find_free_block` is `firstFit`, `split_block` is `carve`, and `kfree` with
`merge_blocks` is `release`. Every write the code makes lands in the block it works on, so
the other blocks keep their headers (`Layout.congr`). -/

namespace FreeCore

/-! ## `size_t` arithmetic on values the arena can hold -/

theorem sizeModulus_eq : sizeModulus = 18446744073709551616 := by norm_num [sizeModulus]

theorem sizeAdd_of_lt {a b : Nat} (fits : a + b < sizeModulus) : sizeAdd a b = a + b :=
  Nat.mod_eq_of_lt fits

theorem sizeSub_of_le {a b : Nat} (le : b ≤ a) (fits : a < sizeModulus) :
    sizeSub a b = a - b := by
  unfold sizeSub
  rw [sizeModulus_eq] at fits ⊢
  omega

/-- For every size `kmalloc` can serve without wrap-around, `total_size` is the size rounded
up to 16 bytes plus the header. -/
theorem kmallocTotalSize_eq {size : Nat} (bounded : size ≤ sizeModulus - 32) :
    kmallocTotalSize size = (size + 15) / 16 * 16 + allocHeaderSize := by
  unfold kmallocTotalSize alignSize sizeAdd
  rw [sizeModulus_eq] at bounded ⊢
  simp only [allocHeaderSize]
  omega

section Request

variable {size : Nat} (positive : 0 < size) (bounded : size ≤ sizeModulus - 32)
include bounded

theorem kmallocTotalSize_aligned : kmallocTotalSize size % 16 = 0 := by
  rw [kmallocTotalSize_eq bounded, allocHeaderSize]
  omega

theorem kmallocTotalSize_ge : size + allocHeaderSize ≤ kmallocTotalSize size := by
  rw [kmallocTotalSize_eq bounded]
  omega

include positive in
theorem kmallocTotalSize_sized : allocHeaderSize ≤ kmallocTotalSize size := by
  have := kmallocTotalSize_ge bounded
  omega

end Request

/-! ## Header writes away from a header -/

section Apart

variable {mem : Memory} {header other : Nat}
  (apart : header + allocHeaderSize ≤ other ∨ other + allocHeaderSize ≤ header)
include apart

theorem readHeader_setSize_of_apart (size : Nat) :
    readHeader (setSize mem header size) other = readHeader mem other :=
  (readHeader_congr (agreeOn_setSize mem header size (by simp only [allocHeaderSize] at apart ⊢; omega))).symm

theorem readHeader_setMagic_of_apart (magic : Nat) :
    readHeader (setMagic mem header magic) other = readHeader mem other :=
  (readHeader_congr (agreeOn_setMagic mem header magic (by simp only [allocHeaderSize] at apart ⊢; omega))).symm

theorem readHeader_setUsed_of_apart (used : Bool) :
    readHeader (setUsed mem header used) other = readHeader mem other :=
  (readHeader_congr (agreeOn_setUsed mem header used (by simp only [allocHeaderSize] at apart ⊢; omega))).symm

end Apart

/-! ## `find_free_block` -/

/-- On a layout that reaches the end of the arena, the walk of `find_free_block` returns the
offset of the first fit, or `NULL` when there is none. It always returns. -/
theorem findFreeBlockFrom_of_layout {mem : Memory} (size : Nat) :
    ∀ {start fuel : Nat} {blocks : List Block}, Layout mem start blocks →
      start + total blocks = kernelHeapSize → blocks.length < fuel →
      findFreeBlockFrom mem size fuel start =
        some ((firstFit size blocks).map fun found => start + total found.1)
  | start, fuel + 1, [], _, ends, _ => by
      simp only [total_nil, Nat.add_zero] at ends
      simp [findFreeBlockFrom, ends, firstFit]
  | start, fuel + 1, block :: rest, layout, ends, enough => by
      have positive := block.size_pos
      simp only [total_cons] at ends
      simp only [List.length_cons] at enough
      have below : start < kernelHeapSize := by omega
      simp only [findFreeBlockFrom, below, if_true, layout.1, Block.header, ne_eq,
        not_true_eq_false, if_false, firstFit]
      split
      · simp
      · have later := findFreeBlockFrom_of_layout size layout.2 (by omega)
          (show rest.length < fuel by omega)
        simp only [Nat.pos_iff_ne_zero.mp positive, if_false, later, Option.map_map]
        congr 2
        funext found
        simp only [Function.comp, total_cons]
        omega

theorem findFreeBlock_of_chain {mem : Memory} {blocks : List Block} (chain : Chain mem blocks)
    (size : Nat) :
    findFreeBlock mem size = some ((firstFit size blocks).map fun found => total found.1) := by
  have short := total_ge_length blocks
  rw [chain.total_eq] at short
  have := findFreeBlockFrom_of_layout size chain.layout (by simp [chain.total_eq])
    (show blocks.length < kernelHeapSize by simp only [kernelHeapSize] at short ⊢; omega)
  simpa [findFreeBlock] using this

/-! ## `split_block` -/

section Split

variable {mem : Memory} {block size : Nat}

/-- `split_block` writes only inside the block it splits (and its header). -/
theorem agreeOn_splitBlock {low high : Nat} (sized : allocHeaderSize ≤ size)
    (small : size + minAllocSize < sizeModulus)
    (apart : block + max (readHeader mem block).size allocHeaderSize ≤ low ∨ high ≤ block) :
    Memory.AgreeOn mem (splitBlock mem block size) low high := by
  dsimp only [splitBlock]
  split
  · rename_i splits
    rw [sizeAdd_of_lt small] at splits
    simp only [allocHeaderSize, minAllocSize] at sized splits apart
    refine (((agreeOn_setSize _ _ _ ?_).trans (agreeOn_setMagic _ _ _ ?_)).trans
      (agreeOn_setUsed _ _ _ ?_)).trans ((agreeOn_setSize _ _ _ ?_).trans
      (agreeOn_setUsed _ _ _ ?_)) <;> omega
  · simp only [allocHeaderSize] at apart
    exact agreeOn_setUsed _ _ _ (by omega)

theorem readHeader_splitBlock_of_split (sized : allocHeaderSize ≤ size)
    (splits : sizeAdd size minAllocSize ≤ (readHeader mem block).size) :
    readHeader (splitBlock mem block size) block =
      ⟨size % 2 ^ 64, (readHeader mem block).magic, true⟩ := by
  have apart : block + size + allocHeaderSize ≤ block + allocHeaderSize ∨
      block + allocHeaderSize ≤ block + size := by omega
  dsimp only [splitBlock]
  rw [if_pos splits, readHeader_setUsed, readHeader_setSize,
    readHeader_setUsed_of_apart (by omega), readHeader_setMagic_of_apart (by omega),
    readHeader_setSize_of_apart (by omega)]

theorem readHeader_splitBlock_rest (sized : allocHeaderSize ≤ size)
    (splits : sizeAdd size minAllocSize ≤ (readHeader mem block).size) :
    readHeader (splitBlock mem block size) (block + size) =
      ⟨sizeSub (readHeader mem block).size size % 2 ^ 64, allocMagic % 2 ^ 32, false⟩ := by
  dsimp only [splitBlock]
  rw [if_pos splits, readHeader_setUsed_of_apart (by omega),
    readHeader_setSize_of_apart (by omega), readHeader_setUsed, readHeader_setMagic,
    readHeader_setSize]

theorem readHeader_splitBlock_of_not_split
    (splits : ¬ sizeAdd size minAllocSize ≤ (readHeader mem block).size) :
    readHeader (splitBlock mem block size) block = { readHeader mem block with used := true } := by
  dsimp only [splitBlock]
  rw [if_neg splits, readHeader_setUsed]

/-- `split_block` on the first fit turns it into `carve`. -/
theorem layout_splitBlock {before after : List Block} {found : Block}
    (layout : Layout mem 0 (before ++ found :: after))
    (ends : total (before ++ found :: after) = kernelHeapSize)
    (sized : allocHeaderSize ≤ size) (sizeAligned : size % 16 = 0) (fit : size ≤ found.size) :
    Layout (splitBlock mem (total before) size) 0
      (before ++ found.carve size sized sizeAligned ++ after) := by
  rw [layout_append, Nat.zero_add] at layout
  obtain ⟨layoutBefore, header, layoutAfter⟩ := layout
  simp only [total_append, total_cons] at ends
  have arena : total before + found.size ≤ 4194304 := by simp only [kernelHeapSize] at ends; omega
  have small : size + minAllocSize < sizeModulus := by
    rw [sizeModulus_eq]; simp only [minAllocSize, allocHeaderSize]; omega
  have noWrap : sizeAdd size minAllocSize = size + minAllocSize := sizeAdd_of_lt small
  have foundSize : (readHeader mem (total before)).size = found.size := by rw [header]; rfl
  have foundSized := found.header_le
  rw [List.append_assoc, layout_append, Nat.zero_add]
  refine ⟨layoutBefore.congr (agreeOn_splitBlock sized small (Or.inr (by omega))), ?_⟩
  rw [layout_append, total_carve found sized sizeAligned fit]
  refine ⟨?_, layoutAfter.congr (agreeOn_splitBlock sized small (Or.inl ?_))⟩
  · unfold Block.carve
    split
    · rename_i splits
      have splitsCode : sizeAdd size minAllocSize ≤ (readHeader mem (total before)).size := by
        rw [noWrap, foundSize]; exact splits
      simp only [layout_cons, layout_nil, and_true, Block.header]
      refine ⟨?_, ?_⟩
      · rw [readHeader_splitBlock_of_split sized splitsCode, header,
          Nat.mod_eq_of_lt (show size < 2 ^ 64 by omega)]
        rfl
      · rw [readHeader_splitBlock_rest sized splitsCode, foundSize,
          sizeSub_of_le fit (by rw [sizeModulus_eq]; omega),
          Nat.mod_eq_of_lt (show found.size - size < 2 ^ 64 by omega)]
        rfl
    · rename_i splits
      have splitsCode : ¬ sizeAdd size minAllocSize ≤ (readHeader mem (total before)).size := by
        rw [noWrap, foundSize]; exact splits
      simp only [layout_cons, layout_nil, and_true, Block.header]
      rw [readHeader_splitBlock_of_not_split splitsCode, header]
      rfl
  · rw [foundSize]
    simp only [allocHeaderSize] at foundSized ⊢
    omega

end Split

/-! ## `kmalloc` -/

theorem kmallocInit_of_initialized {heap : Heap} (initialized : heap.heapInitialized = true) :
    kmallocInit heap = heap := by
  simp [kmallocInit, initialized]

theorem kmallocInit_heapInitialized (heap : Heap) : (kmallocInit heap).heapInitialized = true := by
  unfold kmallocInit
  split_ifs with initialized
  · exact initialized
  · rfl

/-- `kmalloc` with a nonzero size starts with `kmalloc_init`, so running it first changes
nothing. -/
theorem kmalloc_kmallocInit (heap : Heap) {size : Nat} (positive : 0 < size) :
    kmalloc (kmallocInit heap) size = kmalloc heap size := by
  simp [kmalloc, Nat.pos_iff_ne_zero.mp positive,
    kmallocInit_of_initialized (kmallocInit_heapInitialized heap)]

section Kmalloc

variable {heap : Heap} {blocks : List Block} (chain : Chain heap.mem blocks)
  (initialized : heap.heapInitialized = true) {size : Nat} (positive : 0 < size)
include chain initialized positive

/-- With no fit, `kmalloc` returns `NULL` and leaves the heap as it was. -/
theorem kmalloc_of_firstFit_none (noFit : firstFit (kmallocTotalSize size) blocks = none) :
    kmalloc heap size = some (heap, none) := by
  simp [kmalloc, Nat.pos_iff_ne_zero.mp positive, kmallocInit_of_initialized initialized,
    findFreeBlock_of_chain chain, noFit]

/-- With a fit, `kmalloc` splits it and returns its payload. -/
theorem kmalloc_of_firstFit_some {before after : List Block} {found : Block}
    (fits : firstFit (kmallocTotalSize size) blocks = some (before, found, after)) :
    kmalloc heap size = some
      ({ heap with
          mem := splitBlock heap.mem (total before) (kmallocTotalSize size)
          heapUsed := sizeAdd heap.heapUsed
            (readHeader (splitBlock heap.mem (total before) (kmallocTotalSize size))
              (total before)).size },
        some (total before + allocHeaderSize)) := by
  simp [kmalloc, Nat.pos_iff_ne_zero.mp positive, kmallocInit_of_initialized initialized,
    findFreeBlock_of_chain chain, fits]

end Kmalloc

/-! ## `validate_block`, `merge_blocks` and `kfree` -/

/-- A header of the chain validates. -/
theorem validateBlock_of_header {mem : Memory} {header : Nat} {block : Block}
    (read : readHeader mem header = block.header)
    (inside : header + block.size ≤ kernelHeapSize) :
    validateBlock mem header = true := by
  have positive := block.size_pos
  have sized := block.header_le
  simp only [allocHeaderSize] at sized
  simp only [validateBlock, Int.toNat_ofNat, read, Block.header, allocHeaderSize]
  split_ifs <;> first | rfl | omega

/-- `merge_blocks` either writes nothing, or writes the block's size and clears the magic
right after it. -/
theorem mergeBlocks_eq (mem : Memory) (start : Nat) :
    mergeBlocks mem start = mem ∨ ∃ size, mergeBlocks mem start =
      setMagic (setSize mem start size) (start + (readHeader mem start).size) 0 := by
  dsimp only [mergeBlocks]
  split_ifs
  all_goals first | exact .inl rfl | exact .inr ⟨_, rfl⟩

/-! The three outcomes of `merge_blocks` on a chain header. -/

section MergeCases

variable {mem : Memory} {start : Nat} {block : Block}
  (header : readHeader mem start = block.header)
include header

theorem mergeBlocks_of_end (atEnd : kernelHeapSize ≤ start + block.size) :
    mergeBlocks mem start = mem := by
  unfold mergeBlocks
  rw [header]
  exact if_pos atEnd

variable {next : Block} (nextHeader : readHeader mem (start + block.size) = next.header)
  (inside : start + block.size + next.size ≤ kernelHeapSize)
include nextHeader inside

theorem mergeBlocks_of_used_next (used : next.used = true) : mergeBlocks mem start = mem := by
  have positive := next.size_pos
  unfold mergeBlocks
  simp only [header, Block.header]
  rw [if_neg (by omega), validateBlock_of_header nextHeader (by omega), nextHeader]
  simp [Block.header, used]

/-- A free right neighbour is absorbed: the block's size grows by the neighbour's and the
neighbour's magic is cleared. -/
theorem mergeBlocks_of_free_next (free : next.used = false) :
    mergeBlocks mem start =
      setMagic (setSize mem start (block.size + next.size)) (start + block.size) 0 := by
  have positive := next.size_pos
  have noWrap : sizeAdd block.size next.size = block.size + next.size :=
    sizeAdd_of_lt (by rw [sizeModulus_eq]; simp only [kernelHeapSize] at inside; omega)
  unfold mergeBlocks
  simp only [header, Block.header]
  rw [if_neg (by omega), validateBlock_of_header nextHeader (by omega), nextHeader]
  simp [Block.header, free, noWrap]

end MergeCases

section Merge

variable {mem : Memory} {before after : List Block} {block : Block}
  (layout : Layout mem 0 (before ++ block :: after))
  (ends : total (before ++ block :: after) = kernelHeapSize)
include layout ends

/-- `merge_blocks` on a free block of the chain is `release`. -/
theorem layout_mergeBlocks (free : block.used = false) :
    Layout (mergeBlocks mem (total before)) 0 (before ++ release (block :: after)) := by
  rw [layout_append, Nat.zero_add] at layout
  obtain ⟨layoutBefore, header, layoutAfter⟩ := layout
  simp only [total_append, total_cons] at ends
  have sized := block.header_le
  simp only [allocHeaderSize] at sized
  rw [layout_append, Nat.zero_add]
  cases after with
  | nil =>
      rw [mergeBlocks_of_end header (by simp only [total_nil] at ends; omega), release,
        Block.free_of_used_false free]
      exact ⟨layoutBefore, header, trivial⟩
  | cons next rest =>
      obtain ⟨nextHeader, layoutRest⟩ := layoutAfter
      have nextSized := next.header_le
      simp only [allocHeaderSize] at nextSized
      simp only [total_cons] at ends
      have inside : total before + block.size + next.size ≤ kernelHeapSize := by omega
      cases usedNext : next.used
      · simp only [release, usedNext, Bool.false_eq_true, if_false,
          mergeBlocks_of_free_next header nextHeader inside usedNext]
        refine ⟨layoutBefore.congr ((agreeOn_setSize _ _ _ (Or.inr (by omega))).trans
            (agreeOn_setMagic _ _ _ (Or.inr (by omega)))), ?_, ?_⟩
        · rw [readHeader_setMagic_of_apart (by simp only [allocHeaderSize]; omega),
            readHeader_setSize, header]
          simp only [Block.header, Block.merge, free]
          rw [Nat.mod_eq_of_lt (by simp only [kernelHeapSize] at ends; omega)]
        · rw [show total before + (block.merge next).size = total before + block.size + next.size
            by simp only [Block.merge]; omega]
          refine layoutRest.congr ((agreeOn_setSize _ _ _ (Or.inl ?_)).trans
            (agreeOn_setMagic _ _ _ (Or.inl ?_))) <;> omega
      · simp only [release, usedNext, if_true,
          mergeBlocks_of_used_next header nextHeader inside usedNext, Block.free_of_used_false free]
        exact ⟨layoutBefore, header, nextHeader, layoutRest⟩

end Merge

@[simp] theorem kfree_heapInitialized (heap : Heap) (ptr : Option Nat) :
    (kfree heap ptr).heapInitialized = heap.heapInitialized := by
  cases ptr with
  | none => rfl
  | some ptr =>
      simp only [kfree]
      split_ifs <;> rfl

section Free

variable {heap : Heap} {before after : List Block} {block : Block}
  (chain : Chain heap.mem (before ++ block :: after))
  (initialized : heap.heapInitialized = true) (used : block.used = true)
include chain initialized used

omit initialized used in
theorem readHeader_of_chain : readHeader heap.mem (total before) = block.header := by
  have layout := chain.layout
  rw [layout_append, Nat.zero_add] at layout
  exact layout.2.1

omit initialized used in
/-- The header of a chain block validates from its payload pointer. -/
theorem validateBlock_of_chain :
    validateBlock heap.mem (((total before + allocHeaderSize : Nat) : Int) - (allocHeaderSize : Nat))
      = true := by
  have ends := chain.total_eq
  simp only [total_append, total_cons] at ends
  have offset : ((total before + allocHeaderSize : Nat) : Int) - (allocHeaderSize : Nat) =
      ((total before : Nat) : Int) := by omega
  rw [offset]
  exact validateBlock_of_header (readHeader_of_chain chain) (by omega)

/-- `kfree` of the payload of a used block of the chain marks it free, merges it with a free
right neighbour, and takes its size off `heap_used`. -/
theorem kfree_of_used :
    kfree heap (some (total before + allocHeaderSize)) =
      { heap with
          mem := mergeBlocks (setUsed heap.mem (total before) false) (total before)
          heapUsed := sizeSub heap.heapUsed block.size } := by
  have header := readHeader_of_chain chain
  have usedBit : (readHeader heap.mem (total before)).used = true := by rw [header]; exact used
  simp only [kfree, initialized, Bool.not_true, Bool.false_eq_true, if_false,
    validateBlock_of_chain chain, Nat.add_sub_cancel, usedBit, readHeader_setUsed]
  rw [header]
  rfl

omit initialized used in
/-- `krealloc` of the payload of a chain block with a nonzero size: the pointer is kept when
the size fits the payload; otherwise `kmalloc` is called, the old payload copied to the new
one, and the old pointer freed. -/
theorem krealloc_of_chain {size : Nat} (positive : 0 < size) :
    krealloc heap (some (total before + allocHeaderSize)) size =
      if size ≤ block.size - allocHeaderSize then
        some (heap, some (total before + allocHeaderSize))
      else
        match kmalloc heap size with
        | none => none
        | some (heap', none) => some (heap', none)
        | some (heap', some newPtr) =>
            some (kfree { heap' with
                mem := heap'.mem.put newPtr (block.size - allocHeaderSize)
                  fun index => heap'.mem (total before + allocHeaderSize + index) }
              (some (total before + allocHeaderSize)), some newPtr) := by
  have ends := chain.total_eq
  simp only [total_append, total_cons] at ends
  have payloadSize : sizeSub (readHeader heap.mem (total before)).size allocHeaderSize =
      block.size - allocHeaderSize := by
    rw [readHeader_of_chain chain]
    exact sizeSub_of_le block.header_le
      (by rw [sizeModulus_eq]; simp only [Block.header, kernelHeapSize] at ends ⊢; omega)
  simp only [krealloc, Nat.pos_iff_ne_zero.mp positive, if_false, validateBlock_of_chain chain,
    Bool.not_true, Bool.false_eq_true, Nat.add_sub_cancel, payloadSize]
  split_ifs
  · rfl
  · rcases kmalloc heap size with _ | ⟨heap', _ | newPtr⟩ <;> rfl

theorem chain_kfree_of_used :
    Chain (kfree heap (some (total before + allocHeaderSize))).mem
      (before ++ release (block :: after)) := by
  have layout := chain.layout
  have ends := chain.total_eq
  rw [kfree_of_used chain initialized used]
  have freed : Layout (setUsed heap.mem (total before) false) 0 (before ++ block.free :: after) := by
    rw [layout_append, Nat.zero_add] at layout ⊢
    obtain ⟨layoutBefore, header, layoutAfter⟩ := layout
    have sized := block.header_le
    simp only [allocHeaderSize] at sized
    refine ⟨layoutBefore.congr (agreeOn_setUsed _ _ _ (Or.inr (by omega))), ?_,
      layoutAfter.congr (agreeOn_setUsed _ _ _ (Or.inl (by simp [Block.free]; omega)))⟩
    rw [readHeader_setUsed, header]
    rfl
  have freedEnds : total (before ++ block.free :: after) = kernelHeapSize := by
    simpa only [total_append, total_cons, Block.free] using ends
  refine ⟨?_, by simpa only [total_append, total_cons, total_release] using ends⟩
  simpa only [release_free] using layout_mergeBlocks freed freedEnds rfl

end Free

/-! ## Writes into a payload -/

/-- Bytes written inside one block's payload leave every header of the layout alone. -/
theorem Layout.put_inside {mem : Memory} {before after : List Block} {block : Block}
    (layout : Layout mem 0 (before ++ block :: after)) {address count : Nat}
    (source : Nat → UInt8) (lower : total before + allocHeaderSize ≤ address)
    (upper : address + count ≤ total before + block.size) :
    Layout (mem.put address count source) 0 (before ++ block :: after) := by
  rw [layout_append, Nat.zero_add] at layout ⊢
  obtain ⟨layoutBefore, header, layoutAfter⟩ := layout
  refine ⟨layoutBefore.congr (Memory.agreeOn_put source (Or.inr (by omega))), ?_,
    layoutAfter.congr (Memory.agreeOn_put source (Or.inl upper))⟩
  rw [← header]
  exact (readHeader_congr (Memory.agreeOn_put source (Or.inr lower))).symm

/-- The same, for a used block named by its entry in `usedBlocks`. -/
theorem Chain.put_payload {mem : Memory} {blocks : List Block} (chain : Chain mem blocks)
    {entry : Nat × Nat} (member : entry ∈ usedBlocks 0 blocks) {address count : Nat}
    (source : Nat → UInt8) (lower : entry.1 + allocHeaderSize ≤ address)
    (upper : address + count ≤ entry.1 + entry.2) :
    Chain (mem.put address count source) blocks := by
  obtain ⟨before, block, after, split, offset, size, _⟩ := exists_split_of_mem_usedBlocks member
  subst split
  refine ⟨Layout.put_inside chain.layout source ?_ ?_, chain.total_eq⟩ <;> omega

end FreeCore
