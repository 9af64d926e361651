import FreeCore.Kmalloc.Run

/-! # What `kmalloc` does with a request

`kmalloc` is first fit on a chain, and for the 31 largest sizes its rounding wraps. -/

namespace FreeCore

/-! ## First fit -/

/-- First fit stops at the first block that fits. -/
theorem firstFit_of_first {size : Nat} {before after : List Block} {found : Block}
    (free : found.used = false) (fit : size ≤ found.size)
    (skipped : ∀ block ∈ before, block.used = true ∨ block.size < size) :
    firstFit size (before ++ found :: after) = some (before, found, after) := by
  induction before with
  | nil => simp [firstFit, free, fit]
  | cons block rest induction =>
    have notFit : ¬(!block.used ∧ size ≤ block.size) := by
      rcases skipped block (List.mem_cons_self block rest) with used | small
      · simp [used]
      · omega
    rw [List.cons_append, firstFit, if_neg notFit,
      induction fun other member => skipped other (List.mem_cons_of_mem block member)]
    rfl

/-- On a chain with `heap_used` its used total, `kmalloc` of a size that cannot wrap returns
`NULL` exactly when no free block holds `t = ((size + 15) & ~15) + 16` bytes; otherwise it
returns the payload of the lowest free block of at least `t` bytes, which `carve` splits into a
used block of `t` bytes and a free rest when the rest holds `MIN_ALLOC_SIZE` bytes and marks used
whole otherwise, and `heap_used` grows by the size of the used block. -/
theorem kmalloc_first_fit {heap : Heap} {blocks : List Block} (chain : Chain heap.mem blocks)
    (initialized : heap.heapInitialized = true) (heapUsed : heap.heapUsed = usedTotal blocks)
    {size : Nat} (positive : 0 < size) (bounded : size ≤ sizeModulus - 32) :
    kmallocTotalSize size = (size + 15) / 16 * 16 + allocHeaderSize ∧
    ((∃ heap', kmalloc heap size = some (heap', none)) ↔
      ∀ block ∈ blocks, block.used = true ∨ block.size < kmallocTotalSize size) ∧
    ∀ before found after, blocks = before ++ found :: after → found.used = false →
      kmallocTotalSize size ≤ found.size →
      (∀ block ∈ before, block.used = true ∨ block.size < kmallocTotalSize size) →
      ∃ heap', kmalloc heap size = some (heap', some (total before + allocHeaderSize)) ∧
        heap'.heapInitialized = true ∧
        Chain heap'.mem (before ++ found.carve (kmallocTotalSize size)
          (kmallocTotalSize_sized positive bounded) (kmallocTotalSize_aligned bounded) ++ after) ∧
        heap'.heapUsed = heap.heapUsed + found.takenSize (kmallocTotalSize size) := by
  refine ⟨kmallocTotalSize_eq bounded, ⟨fun ⟨heap', returned⟩ => ?_, fun noFit => ?_⟩,
    fun before found after split free fit skipped => ?_⟩
  · cases fits : firstFit (kmallocTotalSize size) blocks with
    | none => exact firstFit_none fits
    | some split =>
      obtain ⟨_, run, -⟩ := kmalloc_of_fit chain initialized heapUsed positive bounded fits
      rw [run] at returned
      simp at returned
  · refine ⟨heap, kmalloc_of_firstFit_none chain initialized positive ?_⟩
    cases fits : firstFit (kmallocTotalSize size) blocks with
    | none => rfl
    | some split =>
      obtain ⟨split, free, fit, -⟩ := firstFit_spec fits
      rcases noFit _ (split ▸ List.mem_append_right _ (List.mem_cons_self _ _)) with used | small
      · rw [free] at used
        cases used
      · omega
  · subst split
    exact kmalloc_of_fit chain initialized heapUsed positive bounded
      (firstFit_of_first free fit skipped)

/-- The heap after `kmalloc_init(); p = kmalloc(16); kmalloc(16); kfree(p);`: the front 32 bytes
free below a used block of 32 and the free rest of the arena. -/
def frontHoleHeap : Heap :=
  ((Session.start fun _ => 0).afterCalls
    [.kmallocInit, .kmalloc 16, .kmalloc 16, .kfree (some 16)]).heap

/-- The free block at the front of `frontHoleHeap`. -/
def frontHole : Block := ⟨32, false, by decide, by decide⟩

/-- `kmalloc(100)` needs 128 bytes: it passes the free 32 bytes at the front and the used block
after them, and carves the rest of the arena. -/
theorem kmalloc_first_fit_past_hole :
    frontHole.used = false ∧ frontHole.size < kmallocTotalSize 100 ∧
    ∃ heap', kmalloc frontHoleHeap 100 =
        some (heap', some (total [frontHole, ⟨32, true, by decide, by decide⟩] + allocHeaderSize)) ∧
      heap'.heapInitialized = true ∧
      Chain heap'.mem ([frontHole, ⟨32, true, by decide, by decide⟩] ++
        (⟨kernelHeapSize - 64, false, by decide, by decide⟩ : Block).carve (kmallocTotalSize 100)
          (kmallocTotalSize_sized (by decide) (by decide)) (kmallocTotalSize_aligned (by decide)) ++
          []) ∧
      heap'.heapUsed = frontHoleHeap.heapUsed +
        (⟨kernelHeapSize - 64, false, by decide, by decide⟩ : Block).takenSize (kmallocTotalSize 100) :=
  have chain : Chain frontHoleHeap.mem [frontHole, ⟨32, true, by decide, by decide⟩,
      ⟨kernelHeapSize - 64, false, by decide, by decide⟩] := by decide
  ⟨rfl, by decide, (kmalloc_first_fit chain (by decide) (by decide) (by decide) (by decide)).2.2
    _ _ [] rfl rfl (by decide) (by decide)⟩

/-! ## Sizes at the top of `size_t` -/

/-- For the 31 largest sizes the rounding wraps: `total_size` is 0 for the 16 sizes from
`SIZE_MAX - 30` and 16 above them. -/
theorem kmallocTotalSize_top {size : Nat} (top : sizeModulus - 31 ≤ size)
    (below : size < sizeModulus) :
    kmallocTotalSize size = if size < sizeModulus - 15 then 0 else allocHeaderSize := by
  unfold kmallocTotalSize alignSize sizeAdd
  rw [sizeModulus_eq] at top below ⊢
  simp only [allocHeaderSize]
  split <;> omega

/-- A request of at most a header's size fits the first free block. -/
theorem firstFit_of_le_header {size : Nat} (small : size ≤ allocHeaderSize) (blocks : List Block) :
    firstFit size blocks = firstFit 0 blocks := by
  induction blocks with
  | nil => rfl
  | cons block rest induction =>
    have fits : size ≤ block.size := small.trans block.header_le
    simp only [firstFit, induction, fits, Nat.zero_le, and_true]

/-- `split_block` leaves the block it splits with the size asked for, whatever that size. -/
theorem readHeader_splitBlock_size {mem : Memory} {block size : Nat}
    (splits : sizeAdd size minAllocSize ≤ (readHeader mem block).size) :
    (readHeader (splitBlock mem block size) block).size = size % 2 ^ 64 := by
  dsimp only [splitBlock]
  rw [if_pos splits, readHeader_setUsed, readHeader_setSize]

/-- On a chain, `kmalloc` of one of the 31 largest sizes returns the payload of the first free
block, and leaves that block at most `MIN_ALLOC_SIZE` bytes: far less than the request. For the
16 sizes where `total_size` is 0, a first free block of at least `MIN_ALLOC_SIZE` bytes is left
with a header of size 0. -/
theorem kmalloc_top_sizes {heap : Heap} {blocks : List Block} (chain : Chain heap.mem blocks)
    (initialized : heap.heapInitialized = true) {size : Nat} (top : sizeModulus - 31 ≤ size)
    (below : size < sizeModulus) {before after : List Block} {found : Block}
    (first : firstFit 0 blocks = some (before, found, after)) :
    ∃ heap', kmalloc heap size = some (heap', some (total before + allocHeaderSize)) ∧
      (readHeader heap'.mem (total before)).size ≤ minAllocSize ∧
      (size < sizeModulus - 15 → minAllocSize ≤ found.size →
        (readHeader heap'.mem (total before)).size = 0) := by
  have positive : 0 < size := by
    rw [sizeModulus_eq] at top
    omega
  have small : kmallocTotalSize size ≤ allocHeaderSize := by
    rw [kmallocTotalSize_top top below]
    split <;> simp [allocHeaderSize]
  have fits := (firstFit_of_le_header small blocks).trans first
  have run := kmalloc_of_firstFit_some chain initialized positive fits
  obtain ⟨rfl, -, -, -⟩ := firstFit_spec first
  have foundSize : (readHeader heap.mem (total before)).size = found.size := by
    rw [readHeader_of_chain chain]
    rfl
  have noWrap : sizeAdd (kmallocTotalSize size) minAllocSize =
      kmallocTotalSize size + minAllocSize :=
    sizeAdd_of_lt (by
      rw [sizeModulus_eq]
      simp only [minAllocSize, allocHeaderSize] at small ⊢
      omega)
  have taken : (readHeader (splitBlock heap.mem (total before) (kmallocTotalSize size))
      (total before)).size = found.takenSize (kmallocTotalSize size) := by
    unfold Block.takenSize
    split_ifs with splits
    · rw [readHeader_splitBlock_size (by rw [noWrap, foundSize]; exact splits)]
      exact Nat.mod_eq_of_lt (by simp only [allocHeaderSize] at small; omega)
    · rw [readHeader_splitBlock_of_not_split (by rw [noWrap, foundSize]; exact splits), foundSize]
  refine ⟨_, run, ?_, fun wraps large => ?_⟩ <;> dsimp only <;> rw [taken] <;>
    unfold Block.takenSize
  · have := found.aligned
    simp only [minAllocSize, allocHeaderSize] at small ⊢
    split <;> omega
  · rw [kmallocTotalSize_top top below, if_pos wraps, Nat.zero_add, if_pos large]

/-- From a fresh heap, `kmalloc(SIZE_MAX - 16)` returns the arena's first payload with a header
of size 0, and the next `kmalloc(16)` never returns: the walk of `find_free_block` stays on that
header. -/
theorem kmalloc_top_sizes_zero_header :
    (∃ heap', kmalloc (kmallocInit (Heap.uninitialized fun _ => 0)) (sizeModulus - 17) =
        some (heap', some (total [] + allocHeaderSize)) ∧
      (readHeader heap'.mem (total [])).size ≤ minAllocSize ∧
      (sizeModulus - 17 < sizeModulus - 15 → minAllocSize ≤ wholeArena.size →
        (readHeader heap'.mem (total [])).size = 0)) ∧
    ∃ heap, kmalloc (Heap.uninitialized fun _ => 0) (sizeModulus - 17) =
        some (heap, some allocHeaderSize) ∧ kmalloc heap allocHeaderSize = none :=
  ⟨kmalloc_top_sizes (@chain_kmallocInit (Heap.uninitialized fun _ => 0) rfl)
    (kmallocInit_heapInitialized _) (by decide) (by decide) rfl, _, rfl, rfl⟩

end FreeCore
