import FreeCore.Ext4.Records

/-! # One block of a file

`ext4_read_file_block` zeroes the buffer for a block at or past `num_blocks`, the blocks the file
size spans, and otherwise maps the block through the extent tree and reads the physical block
into the buffer. A block no leaf extent holds is not zero-filled: the call returns `-1`. The
leaf scan takes `ee_len` as the extent's length whatever its value, so an extent marked
uninitialized (`ee_len > 32768`, which holds `ee_len - 32768` blocks that read as zeros) is read
from the device, and over `ee_len` blocks. -/

namespace FreeCore.Ext4

/-- The run of `ext4_read_file_block` once `num_blocks` is computed. -/
theorem ext4ReadFileBlock_run {fs : Fs} {inode : Memory} (positive : 0 < fs.blockSize)
    (logical buffer : Nat) (heap : Heap) :
    (ext4ReadFileBlock fs inode logical buffer).run heap =
      if numBlocks fs inode ≤ logical then
        .ok (0, { heap with mem := heap.mem.put buffer fs.blockSize fun _ => 0 })
      else if !fs.hasExtents then .ok (-1, heap)
      else (ext4ReadExtentBlock fs inode logical >>= fun found =>
        match found with
        | .error code => pure code
        | .ok phys => ext4ReadBlock fs phys buffer).run heap := by
  rw [ext4ReadFileBlock, run_bind_of_ok (run_divide positive heap)]
  simp only [pure_bind]
  unfold numBlocks
  split
  · rfl
  · split <;> rfl

/-- On a filesystem with extents, an inode flagged for them whose tree is well formed, and a
heap on which `kmalloc` gives the block buffer, `ext4_read_file_block` zeroes the buffer and
returns 0 at or past `num_blocks`; before it, it returns `-1` when no leaf extent holds the
block, and otherwise reads the physical block the flat lookup maps it to. -/
theorem ext4ReadFileBlock_maps {fs : Fs} {inode : Memory} (extents : fs.hasExtents = true)
    (flagged : iFlags inode &&& extentsFl ≠ 0)
    (wellFormed : WellFormed fs (ehDepth (extentRoot inode) 0) 4 (extentRoot inode))
    (logical buffer : Nat) {heap : Heap}
    (allocated : ∃ heap' address, kmalloc heap fs.blockSize = some (heap', some address)) :
    (numBlocks fs inode ≤ logical →
      (ext4ReadFileBlock fs inode logical buffer).run heap =
        .ok (0, { heap with mem := heap.mem.put buffer fs.blockSize fun _ => 0 })) ∧
    (logical < numBlocks fs inode → extentLookup fs inode logical = none →
      ∃ heap', (ext4ReadFileBlock fs inode logical buffer).run heap = .ok (-1, heap')) ∧
    ∀ phys, logical < numBlocks fs inode → extentLookup fs inode logical = some phys →
      ∃ heap', (ext4ReadFileBlock fs inode logical buffer).run heap =
        (ext4ReadBlock fs phys buffer).run heap' := by
  obtain ⟨heap1, address, allocation⟩ := allocated
  have positive : 0 < fs.blockSize :=
    (fs.blockSize_large_of_kmalloc allocation).trans' (by decide)
  obtain ⟨heap', lookedUp⟩ :=
    ext4ReadExtentBlock_lookup extents flagged wellFormed logical ⟨heap1, address, allocation⟩
  have mapped : ¬numBlocks fs inode ≤ logical → (ext4ReadFileBlock fs inode logical buffer).run heap =
      match extentResult fs inode logical with
      | .error code => .ok (code, heap')
      | .ok phys => (ext4ReadBlock fs phys buffer).run heap' := fun before => by
    rw [ext4ReadFileBlock_run positive, if_neg before, extents, Bool.not_true, if_neg (by decide),
      run_bind_of_ok lookedUp]
    split <;> rfl
  refine ⟨fun past => by rw [ext4ReadFileBlock_run positive, if_pos past],
    fun before none => ⟨heap', ?_⟩, fun phys before found => ⟨heap', ?_⟩⟩
  · rw [mapped (not_le.mpr before), extentResult, none]
  · rw [mapped (not_le.mpr before), extentResult, found]

/-! ## Holes and uninitialized extents -/

/-- A device whose every byte of block `n` reads as `n mod 256`. -/
def numberedDevice : Device where
  read offset _ := (0, some fun _ => UInt8.ofNat (offset / 1024))

/-- 1024-byte blocks and the extents feature, on `numberedDevice`. -/
def numberedFs : Fs := ⟨0, numberedDevice, extentsSuperblock, 0⟩

/-- A two-block file flagged for extents whose root is a leaf with one extent: from logical
block 0, stored from physical block 100, of `ee_len = lenLo + 256 * lenHi`. -/
def leafInode (lenLo lenHi : UInt8) : Memory :=
  bytesOf [(5, 0x08), (34, 0x08), (40, 0x0A), (41, 0xF3), (42, 1), (56, lenLo), (57, lenHi),
    (60, 100)]

/-- With `ee_len = 32769`, an uninitialized extent of one block, logical block 1 lies past the
extent and is read from physical block 101. -/
theorem ext4ReadFileBlock_maps_unwritten :
    numberedFs.hasExtents = true ∧ iFlags (leafInode 1 0x80) &&& extentsFl ≠ 0 ∧
      WellFormed numberedFs (ehDepth (extentRoot (leafInode 1 0x80)) 0) 4
        (extentRoot (leafInode 1 0x80)) ∧
      1 < numBlocks numberedFs (leafInode 1 0x80) ∧
      extentLookup numberedFs (leafInode 1 0x80) 1 = some 101 ∧
      ∃ heap', (ext4ReadFileBlock numberedFs (leafInode 1 0x80) 1 kernelHeapSize).run
          (Heap.uninitialized fun _ => 0) =
        (ext4ReadBlock numberedFs 101 kernelHeapSize).run heap' :=
  ⟨rfl, by decide, by decide, by decide, by decide,
    (@ext4ReadFileBlock_maps numberedFs (leafInode 1 0x80) rfl (by decide) (by decide) 1
      kernelHeapSize _ ⟨_, _, show kmalloc (Heap.uninitialized fun _ => 0) numberedFs.blockSize = some (_, some _)
        from rfl⟩).2.2 101 (by decide) (by decide)⟩

/-- A hole is not zero-filled, and an uninitialized extent is read from the device. With one
extent of one block, logical block 1 of the two-block file is a hole: `ext4_read_file_block`
returns `-1`. With `ee_len = 32769`, an uninitialized extent of one block, block 0 reads
physical block 100 and block 1, past the extent, physical block 101: both calls return 0 with
the device's bytes in the buffer. -/
theorem ext4ReadFileBlock_reads_holes_and_unwritten :
    WellFormed numberedFs (ehDepth (extentRoot (leafInode 1 0)) 0) 4 (extentRoot (leafInode 1 0)) ∧
      numBlocks numberedFs (leafInode 1 0) = 2 ∧ eeLen (leafInode 1 0x80) iBlockOffset 0 = 32769 ∧
      ((ext4ReadFileBlock numberedFs (leafInode 1 0) 1 kernelHeapSize).run
        (Heap.uninitialized fun _ => 0)).toOption.map Prod.fst = some (-1) ∧
      ((ext4ReadFileBlock numberedFs (leafInode 1 0x80) 0 kernelHeapSize).run
        (Heap.uninitialized fun _ => 0)).toOption.map
          (fun result => (result.1, result.2.mem kernelHeapSize)) = some (0, 100) ∧
      ((ext4ReadFileBlock numberedFs (leafInode 1 0x80) 1 kernelHeapSize).run
        (Heap.uninitialized fun _ => 0)).toOption.map
          (fun result => (result.1, result.2.mem kernelHeapSize)) = some (0, 101) := by
  decide

end FreeCore.Ext4
