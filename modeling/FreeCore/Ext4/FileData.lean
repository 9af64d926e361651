import FreeCore.Ext4.Records

/-! # Reading file data

`ext4_read_file_data` copies the clipped request out of the file's blocks, block after block;
the loop is proved at every iteration. -/

namespace FreeCore.Ext4

/-! ## The file as a sequence of bytes -/

/-- Byte `position` of a file whose logical blocks hold `blocks`. -/
def fileByte (blocks : Nat → Memory) (blockSize position : Nat) : UInt8 :=
  blocks (position / blockSize) (position % blockSize)

theorem fileByte_of_lt {blocks : Nat → Memory} {blockSize position block offset : Nat}
    (split : position = blockSize * block + offset) (within : offset < blockSize) :
    fileByte blocks blockSize position = blocks block offset := by
  subst split
  rw [fileByte, Nat.mul_add_div (by omega), Nat.div_eq_of_lt within, Nat.add_zero,
    Nat.mul_add_mod, Nat.mod_eq_of_lt within]

/-- How many blocks `ext4_read_file_data` reads for `n` bytes at `offset`: the blocks the range
touches; for an empty range, the block holding `offset`, unless `offset` starts a block past the
first. -/
def fileDataReads (blockSize offset n : Nat) : Nat :=
  if n = 0 then (if 0 < offset ∧ offset % blockSize = 0 then 0 else 1)
  else (offset % blockSize + n - 1) / blockSize + 1

/-- The block reads from block `blockIdx` on, made in turn from `heap` into `buffer`: `count` of
them succeed and the next returns the negative status `code`. -/
def ReadsFail (fs : Fs) (inode : Memory) (buffer : Nat) :
    (blockIdx count : Nat) → Heap → Int → Prop
  | blockIdx, 0, heap, code => code < 0 ∧
      ∃ heap', (ext4ReadFileBlock fs inode blockIdx buffer).run heap = .ok (code, heap')
  | blockIdx, count + 1, heap, code => ∃ status heap', 0 ≤ status ∧
      (ext4ReadFileBlock fs inode blockIdx buffer).run heap = .ok (status, heap') ∧
      ReadsFail fs inode buffer (blockIdx + 1) count heap' code

/-- `num_blocks = end_block - start_block + 1`, in 64 bits, is the number of block reads, except
for an empty range at offset 0, where it is larger and the loop stops after its first read. -/
theorem fileDataReads_le_numBlocks {blockSize offset n : Nat} (large : 1 < blockSize)
    (fits : offset + n < 2 ^ 64) :
    fileDataReads blockSize offset n ≤
        wrap 64 (wrap 64 (wrap 64 (offset + n) + (2 ^ 64 - 1)) / blockSize +
          (2 ^ 64 - offset / blockSize) + 1) ∧
      (fileDataReads blockSize offset n = 0 →
        wrap 64 (wrap 64 (wrap 64 (offset + n) + (2 ^ 64 - 1)) / blockSize +
          (2 ^ 64 - offset / blockSize) + 1) = 0) := by
  have positive : 0 < blockSize := by omega
  have split := Nat.div_add_mod offset blockSize
  have within := Nat.mod_lt offset positive
  have below : offset / blockSize ≤ offset := Nat.div_le_self offset blockSize
  generalize offset / blockSize = block at split below ⊢
  generalize offset % blockSize = start at split within ⊢
  subst split
  have startOf : (blockSize * block + start) % blockSize = start := by
    rw [Nat.mul_add_mod, Nat.mod_eq_of_lt within]
  -- `end_block` is the block of the range's last byte, `SIZE_MAX` for an empty range at 0
  have count : ∀ last, block ≤ last / blockSize + 1 → last < 2 ^ 64 →
      wrap 64 (last / blockSize + (2 ^ 64 - block) + 1) = last / blockSize + 1 - block := by
    intro last le lt
    have : last / blockSize ≤ last / 2 := Nat.div_le_div_left large (by decide)
    unfold wrap
    omega
  have blockOf : ∀ {q r : Nat}, r < blockSize → (blockSize * q + r) / blockSize = q := fun lt => by
    rw [Nat.mul_add_div positive, Nat.div_eq_of_lt lt, Nat.add_zero]
  unfold fileDataReads
  rw [startOf]
  by_cases empty : n = 0
  · subst empty
    by_cases aligned : 0 < blockSize * block + start ∧ start = 0
    · obtain ⟨nonzero, rfl⟩ := aligned
      have blockPos : 0 < block := Nat.pos_of_ne_zero fun zero => by simp [zero] at nonzero
      have previous : blockSize * (block - 1) + blockSize = blockSize * block := by
        rw [← Nat.mul_succ, Nat.succ_eq_add_one, Nat.sub_add_cancel blockPos]
      have last : wrap 64 (wrap 64 (blockSize * block + 0 + 0) + (2 ^ 64 - 1)) =
          blockSize * (block - 1) + (blockSize - 1) := by
        unfold wrap
        omega
      rw [last, count _ (by rw [blockOf (by omega)]; omega) (by omega), blockOf (by omega)]
      simp only [nonzero, and_self, if_true]
      omega
    · rw [if_pos rfl, if_neg aligned]
      by_cases start0 : start = 0
      · subst start0
        have zero : block = 0 := by
          by_contra nonzero
          exact aligned ⟨by have := Nat.mul_pos positive (Nat.pos_of_ne_zero nonzero); omega, rfl⟩
        subst zero
        have last : wrap 64 (wrap 64 (blockSize * 0 + 0 + 0) + (2 ^ 64 - 1)) = 2 ^ 64 - 1 := by
          simp [wrap]
        rw [last, count _ (Nat.zero_le _) (by decide), Nat.sub_zero]
        exact ⟨Nat.le_add_left 1 _, fun one => absurd one Nat.one_ne_zero⟩
      · have last : wrap 64 (wrap 64 (blockSize * block + start + 0) + (2 ^ 64 - 1)) =
            blockSize * block + (start - 1) := by
          unfold wrap
          omega
        rw [last, count _ (by rw [blockOf (by omega)]; omega) (by omega), blockOf (by omega)]
        omega
  · have last : wrap 64 (wrap 64 (blockSize * block + start + n) + (2 ^ 64 - 1)) =
        blockSize * block + (start + n - 1) := by
      unfold wrap
      omega
    have blocks : (blockSize * block + (start + n - 1)) / blockSize =
        block + (start + n - 1) / blockSize := Nat.mul_add_div positive _ _
    rw [if_neg empty, last, count (blockSize * block + (start + n - 1))
      (by rw [blocks, Nat.add_assoc]; exact Nat.le_add_right _ _) (by omega), blocks,
      Nat.add_assoc, Nat.add_sub_cancel_left]
    exact ⟨le_rfl, id⟩

/-- The blocks counted by `fileDataReads` reach the end of the range. -/
theorem fileDataReads_covers {blockSize offset n : Nat} (positive : 0 < blockSize) :
    offset + n ≤ blockSize * (offset / blockSize) + blockSize * fileDataReads blockSize offset n := by
  have split := Nat.div_add_mod offset blockSize
  have within := Nat.mod_lt offset positive
  unfold fileDataReads
  split_ifs with empty aligned
  · omega
  · omega
  · have := Nat.lt_mul_div_succ (offset % blockSize + n - 1) positive
    omega

/-- Each block before the last counted by `fileDataReads` ends before the range does. -/
theorem fileDataReads_before {blockSize offset n count : Nat}
    (fewer : count < fileDataReads blockSize offset n) :
    count = 0 ∨ blockSize * (offset / blockSize) + blockSize * count < offset + n := by
  have split := Nat.div_add_mod offset blockSize
  unfold fileDataReads at fewer
  split_ifs at fewer with empty aligned
  · omega
  · omega
  · right
    have := Nat.mul_le_mul_left blockSize (Nat.le_of_lt_succ fewer)
    have := Nat.mul_div_le (offset % blockSize + n - 1) blockSize
    omega

/-- Only an empty range is read with no block read. -/
theorem fileDataReads_eq_zero {blockSize offset n : Nat} (none : fileDataReads blockSize offset n = 0) :
    n = 0 := by
  by_contra nonempty
  simp only [fileDataReads, if_neg nonempty, Nat.add_one_ne_zero] at none

/-! ## The block loop -/

/-- The bytes of a block the buffer holds, copied from `blockOffset` on, are the file's bytes
from the position of `blockOffset` in that block. -/
theorem put_block_eq {mem dest : Memory} {blocks : Nat → Memory}
    {buffer blockSize block blockOffset position address count : Nat}
    (holds : Holds mem buffer (blocks block) blockSize)
    (split : position = blockSize * block + blockOffset) (fitsBlock : blockOffset + count ≤ blockSize) :
    dest.put address count (fun byte => mem (buffer + blockOffset + byte)) =
      dest.put address count fun byte => fileByte blocks blockSize (position + byte) :=
  Memory.put_congr _ _ _ fun byte below => by
    rw [Nat.add_assoc, holds _ (by omega),
      @fileByte_of_lt _ _ _ block (blockOffset + byte) (by omega) (by omega)]

/-- The position of the next iteration: the start of the next block. -/
theorem position_next {offset blockSize index bytesRead blockOffset : Nat}
    (position : offset + bytesRead = blockSize * (offset / blockSize + index) + blockOffset)
    (blockOffsetLt : blockOffset < blockSize) :
    offset + (bytesRead + (blockSize - blockOffset)) =
      blockSize * (offset / blockSize + (index + 1)) +
        (if index + 1 = 0 then offset % blockSize else 0) := by
  rw [if_neg (Nat.succ_ne_zero index), ← Nat.add_assoc (offset / blockSize), Nat.mul_succ]
  omega

section Loop

/- The loop is stated over `blockSize`, equal to `fs.blockSize`, like the directory loops. -/
variable {fs : Fs} {inode : Memory} {buffer offset n blockSize : Nat}
  (sized : fs.blockSize = blockSize) (positive : 0 < blockSize) (small : n < 2 ^ 31)
  (fits : offset + n < 2 ^ 64)
include sized positive small fits

omit sized small fits in
/-- The iteration's block lies below `2^64`, and its offset inside the block. -/
theorem iteration_bounds {index blockOffset : Nat}
    (blockOffsetEq : (if index = 0 then offset % blockSize else 0) = blockOffset)
    (below : blockSize * (offset / blockSize + index) < 2 ^ 64) :
    wrap 64 (offset / blockSize + index) = offset / blockSize + index ∧ blockOffset < blockSize := by
  have := Nat.le_mul_of_pos_left (offset / blockSize + index) positive
  refine ⟨Nat.mod_eq_of_lt (by omega), ?_⟩
  rw [← blockOffsetEq]
  split
  · exact Nat.mod_lt _ positive
  · exact positive

section Iteration

variable {index bytesRead remaining blockOffset : Nat} {dest : Memory} {heap heap1 : Heap}
  {status : Int}
  (ran : (ext4ReadFileBlock fs inode (offset / blockSize + index) buffer).run heap =
    .ok (status, heap1))
  (nonneg : 0 ≤ status)
  (blockOffsetEq : (if index = 0 then offset % blockSize else 0) = blockOffset)
  (position : offset + bytesRead = blockSize * (offset / blockSize + index) + blockOffset)
include ran nonneg blockOffsetEq position

/-- One iteration: the block read succeeds, the part of the block the request covers is copied
after the bytes already read, and the loop returns once the request is complete. -/
theorem readBlocks_iteration (copied : bytesRead ≤ n) :
    (readBlocks fs inode buffer (offset / blockSize) (offset % blockSize) n index bytesRead
        (remaining + 1) dest).run heap =
      if n ≤ bytesRead + (blockSize - blockOffset) then
        .ok ((.ok n, dest.put bytesRead (n - bytesRead)
          fun byte => heap1.mem (buffer + blockOffset + byte)), heap1)
      else
        (readBlocks fs inode buffer (offset / blockSize) (offset % blockSize) n (index + 1)
          (bytesRead + (blockSize - blockOffset)) remaining
          (dest.put bytesRead (blockSize - blockOffset)
            fun byte => heap1.mem (buffer + blockOffset + byte))).run heap1 := by
  obtain ⟨blockFits, blockOffsetLt⟩ := iteration_bounds positive blockOffsetEq (by omega)
  have small32 : blockSize < 2 ^ 32 := sized ▸ fs.blockSize_lt
  have fullCopy : wrap 32 (blockSize - blockOffset) = blockSize - blockOffset :=
    Nat.mod_eq_of_lt (by omega)
  have sum : wrap 64 (bytesRead + (blockSize - blockOffset)) =
      bytesRead + (blockSize - blockOffset) := Nat.mod_eq_of_lt (by omega)
  simp only [readBlocks, blockFits, StateT.run_bind, ran, except_ok_bind,
    if_neg (not_lt.mpr nonneg), pure_bind, run_memory, sized, blockOffsetEq, fullCopy, sum]
  by_cases ends : n < bytesRead + (blockSize - blockOffset)
  · have partCopy : wrap 32 (n - bytesRead) = n - bytesRead := Nat.mod_eq_of_lt (by omega)
    have total : wrap 64 (bytesRead + (n - bytesRead)) = n :=
      (Nat.mod_eq_of_lt (by omega)).trans (by omega)
    simp only [if_pos ends, if_pos ends.le, partCopy, total, le_refl, if_true]
    rfl
  · rw [if_neg ends, sum]
    by_cases exact : n ≤ bytesRead + (blockSize - blockOffset)
    · rw [if_pos exact, if_pos exact, show blockSize - blockOffset = n - bytesRead by omega,
        show bytesRead + (n - bytesRead) = n by omega]
      rfl
    · rw [if_neg exact, if_neg exact]

end Iteration

omit sized small fits in
/-- A failing block read ends the loop with its status. -/
theorem readBlocks_error {index bytesRead remaining : Nat} {dest : Memory} {heap heap1 : Heap}
    {code : Int}
    (ran : (ext4ReadFileBlock fs inode (offset / blockSize + index) buffer).run heap =
      .ok (code, heap1))
    (negative : code < 0) (below : blockSize * (offset / blockSize + index) < 2 ^ 64) :
    (readBlocks fs inode buffer (offset / blockSize) (offset % blockSize) n index bytesRead
        (remaining + 1) dest).run heap = .ok ((.error code, dest), heap1) := by
  obtain ⟨blockFits, -⟩ := iteration_bounds positive rfl below
  simp only [readBlocks, blockFits, StateT.run_bind, ran, except_ok_bind, if_pos negative]
  rfl

/-- The block loop from iteration `index`, `bytesRead` bytes in, with `count` block reads that
succeed and cover the rest of the request, copies the file's bytes up to the request's end and
returns its size. -/
theorem readBlocks_copies {blocks : Nat → Memory} {index bytesRead remaining count : Nat}
    {dest : Memory} {heap : Heap}
    (position : offset + bytesRead = blockSize * (offset / blockSize + index) +
      (if index = 0 then offset % blockSize else 0))
    (copied : bytesRead ≤ n) (counted : 0 < count) (enough : count ≤ remaining)
    (covers : offset + n ≤ blockSize * (offset / blockSize + index) + blockSize * count)
    (reads : ReadsSucceed fs inode buffer blocks (offset / blockSize + index) count heap) :
    ∃ heap', (readBlocks fs inode buffer (offset / blockSize) (offset % blockSize) n index
        bytesRead remaining dest).run heap =
      .ok ((.ok n, dest.put bytesRead (n - bytesRead)
        fun byte => fileByte blocks blockSize (offset + bytesRead + byte)), heap') := by
  induction remaining generalizing index bytesRead count dest heap with
  | zero => omega
  | succ remaining induction =>
    obtain ⟨count, rfl⟩ : ∃ rest, count = rest + 1 := ⟨count - 1, by omega⟩
    obtain ⟨status, heap1, nonneg, ran, holds, reads⟩ := reads
    rw [Nat.mul_succ] at covers
    generalize blockOffsetEq : (if index = 0 then offset % blockSize else 0) = blockOffset
      at position
    obtain ⟨-, blockOffsetLt⟩ := iteration_bounds positive blockOffsetEq (by omega)
    rw [sized] at holds
    by_cases lastBlock : n ≤ bytesRead + (blockSize - blockOffset)
    · refine ⟨heap1, ?_⟩
      rw [readBlocks_iteration sized positive small fits ran nonneg blockOffsetEq position copied,
        if_pos lastBlock, put_block_eq holds position (by omega)]
    · have continues : blockSize * (offset / blockSize + index) + blockSize < offset + n := by
        omega
      have more : 0 < count := Nat.pos_of_ne_zero fun zero => by
        subst zero
        omega
      obtain ⟨heap', run⟩ := @induction (index + 1) (bytesRead + (blockSize - blockOffset)) count
        (dest.put bytesRead (blockSize - blockOffset)
          fun byte => fileByte blocks blockSize (offset + bytesRead + byte))
        heap1 (position_next position blockOffsetLt) (by omega) more (by omega)
        (by rw [← Nat.add_assoc (offset / blockSize), Nat.mul_succ]; omega) reads
      refine ⟨heap', ?_⟩
      have merged := Memory.put_put_adjacent dest bytesRead (blockSize - blockOffset)
        (n - (bytesRead + (blockSize - blockOffset)))
        fun byte => fileByte blocks blockSize (offset + bytesRead + byte)
      rw [show blockSize - blockOffset + (n - (bytesRead + (blockSize - blockOffset))) =
        n - bytesRead by omega] at merged
      rw [readBlocks_iteration sized positive small fits ran nonneg blockOffsetEq position copied,
        if_neg lastBlock, put_block_eq holds position (by omega), run]
      simp only [Nat.add_assoc] at merged ⊢
      rw [merged]

/-- The block loop whose `count`-th block read from here fails, before the reads reach the end
of the request, returns that read's status. -/
theorem readBlocks_fails {index bytesRead remaining count : Nat} {dest : Memory} {heap : Heap}
    {code : Int}
    (position : offset + bytesRead = blockSize * (offset / blockSize + index) +
      (if index = 0 then offset % blockSize else 0))
    (copied : bytesRead ≤ n) (enough : count < remaining)
    (before : count = 0 ∨
      blockSize * (offset / blockSize + index) + blockSize * count < offset + n)
    (fails : ReadsFail fs inode buffer (offset / blockSize + index) count heap code) :
    ∃ dest' heap', (readBlocks fs inode buffer (offset / blockSize) (offset % blockSize) n index
        bytesRead remaining dest).run heap = .ok ((.error code, dest'), heap') := by
  induction remaining generalizing index bytesRead count dest heap with
  | zero => omega
  | succ remaining induction =>
    cases count with
    | zero =>
      obtain ⟨negative, heap1, ran⟩ := fails
      exact ⟨dest, heap1, readBlocks_error positive ran negative (by omega)⟩
    | succ count =>
      obtain ⟨status, heap1, nonneg, ran, fails⟩ := fails
      generalize blockOffsetEq : (if index = 0 then offset % blockSize else 0) = blockOffset
        at position
      obtain ⟨-, blockOffsetLt⟩ := iteration_bounds positive blockOffsetEq (by omega)
      rw [Nat.mul_succ] at before
      have continues : blockSize * (offset / blockSize + index) + blockSize < offset + n := by
        omega
      rw [readBlocks_iteration sized positive small fits ran nonneg blockOffsetEq position copied,
        if_neg (by omega)]
      exact induction (position_next position blockOffsetLt) (by omega) (by omega)
        (by rw [← Nat.add_assoc (offset / blockSize), Nat.mul_succ]; omega) fails

end Loop

/-! ## The request -/

/-- What `ext4_read_file_data` returns for the outcome of its block loop: the failed read's
status, or the count of bytes read as an `int`. -/
def loopStatus : Except Int Nat → Int
  | .error code => code
  | .ok bytesRead => toInt32 bytesRead

section Request

variable {fs : Fs} {inode : Memory} {offset size : Nat} {dest : Memory}

/-- At or past the end of the file nothing is read. -/
theorem ext4ReadFileData_past_end (past : fileSize inode ≤ offset) (heap : Heap) :
    (ext4ReadFileData fs inode offset size dest).run heap = .ok ((0, dest), heap) := by
  simp only [ext4ReadFileData, if_pos past]
  rfl

/-- With its block buffer, the call is its block loop over the clipped request, then `kfree`. -/
theorem ext4ReadFileData_of_loop (before : offset < fileSize inode) (fits : offset + size < 2 ^ 64)
    {heap heap1 heap2 : Heap} {buffer : Nat} {result : Except Int Nat} {dest' : Memory}
    (allocated : kmalloc heap fs.blockSize = some (heap1, some buffer))
    (loop : (readBlocks fs inode buffer (offset / fs.blockSize) (offset % fs.blockSize)
        (min size (fileSize inode - offset)) 0 0
        (wrap 64 (wrap 64 (wrap 64 (offset + min size (fileSize inode - offset)) + (2 ^ 64 - 1)) /
          fs.blockSize + (2 ^ 64 - offset / fs.blockSize) + 1)) dest).run heap1 =
      .ok ((result, dest'), heap2)) :
    (ext4ReadFileData fs inode offset size dest).run heap =
      .ok ((loopStatus result, dest'), FreeCore.kfree heap2 (some buffer)) := by
  have large := fs.blockSize_large_of_kmalloc allocated
  have positive : 0 < fs.blockSize := by omega
  have clip : (if fileSize inode < wrap 64 (offset + size) then fileSize inode - offset else size) =
      min size (fileSize inode - offset) := by
    rw [wrap, Nat.mod_eq_of_lt fits]
    split <;> omega
  simp only [ext4ReadFileData, if_neg (not_le.mpr before), clip, pure_bind]
  refine (run_bind_of_ok (run_kmalloc_eq_ok.mpr allocated)).trans ?_
  refine (run_bind_of_ok (run_divide positive _)).trans ?_
  refine (run_bind_of_ok (run_remainder positive _)).trans ?_
  refine (run_bind_of_ok (run_divide positive _)).trans ?_
  refine (run_bind_of_ok loop).trans ?_
  cases result <;> rfl

end Request

/-- `ext4_read_file_data` returns `0` at or past the end of the file. Before it, with
`n = min size (file_size - offset)` below `2^31` and its block buffer from `kmalloc`: when the
block reads succeed, it returns `n` and the caller's buffer holds bytes `[offset, offset + n)` of
the file and is unchanged from `n` on; when one of the blocks the range needs fails to read, it
returns that read's negative status. -/
theorem ext4ReadFileData_reads (fs : Fs) (inode : Memory) (offset size : Nat) (dest : Memory) :
    (∀ heap, fileSize inode ≤ offset →
      (ext4ReadFileData fs inode offset size dest).run heap = .ok ((0, dest), heap)) ∧
    ∀ {heap heap1 : Heap} {buffer : Nat}, offset < fileSize inode → offset + size < 2 ^ 64 →
      min size (fileSize inode - offset) < 2 ^ 31 →
      kmalloc heap fs.blockSize = some (heap1, some buffer) →
      (∀ blocks, ReadsSucceed fs inode buffer blocks (offset / fs.blockSize)
          (fileDataReads fs.blockSize offset (min size (fileSize inode - offset))) heap1 →
        ∃ heap', (ext4ReadFileData fs inode offset size dest).run heap =
          .ok ((((min size (fileSize inode - offset) : Nat) : Int),
            dest.put 0 (min size (fileSize inode - offset))
              fun byte => fileByte blocks fs.blockSize (offset + byte)), heap')) ∧
      (∀ count code, count < fileDataReads fs.blockSize offset (min size (fileSize inode - offset)) →
        ReadsFail fs inode buffer (offset / fs.blockSize) count heap1 code →
        ∃ dest' heap', (ext4ReadFileData fs inode offset size dest).run heap =
          .ok ((code, dest'), heap')) := by
  refine ⟨fun heap past => ext4ReadFileData_past_end past heap,
    fun {heap heap1 buffer} before fits small allocated => ?_⟩
  have large := fs.blockSize_large_of_kmalloc allocated
  have positive : 0 < fs.blockSize := by omega
  obtain ⟨bounded, none⟩ := fileDataReads_le_numBlocks (by omega : 1 < fs.blockSize)
    (by omega : offset + min size (fileSize inode - offset) < 2 ^ 64)
  have position : offset + 0 = fs.blockSize * (offset / fs.blockSize + 0) +
      (if 0 = 0 then offset % fs.blockSize else 0) := by
    rw [Nat.add_zero, Nat.add_zero, if_pos rfl, Nat.div_add_mod]
  constructor
  · intro blocks reads
    by_cases empty : fileDataReads fs.blockSize offset (min size (fileSize inode - offset)) = 0
    · have nothing := fileDataReads_eq_zero empty
      refine ⟨FreeCore.kfree heap1 (some buffer),
        (ext4ReadFileData_of_loop before fits allocated (by rw [none empty]; rfl)).trans ?_⟩
      rw [nothing, Memory.put_zero]
      rfl
    · obtain ⟨heap2, loop⟩ := readBlocks_copies rfl positive small (by omega) position
        (Nat.zero_le _) (Nat.pos_of_ne_zero empty) bounded
        (by rw [Nat.add_zero]; exact fileDataReads_covers positive) reads
      refine ⟨FreeCore.kfree heap2 (some buffer),
        (ext4ReadFileData_of_loop before fits allocated loop).trans ?_⟩
      simp only [loopStatus, toInt32_of_lt small, Nat.sub_zero, Nat.add_zero]
  · intro count code fewer fails
    obtain ⟨dest', heap2, loop⟩ := readBlocks_fails rfl positive small (by omega) position
      (Nat.zero_le _) (fewer.trans_le bounded)
      (by rw [Nat.add_zero]; exact fileDataReads_before fewer) fails
    exact ⟨dest', _, ext4ReadFileData_of_loop before fits allocated loop⟩

/-- On a fresh heap, four bytes read at offset 12 of the sample directory are the inode field of
its second record, 12. -/
theorem ext4ReadFileData_reads_second_inode :
    (Memory.put (fun _ => 0) 0 (min 4 (fileSize sampleDirInode - 12))
        fun byte => fileByte (fun _ => sampleDirBlock) sampleDir.fs.blockSize (12 + byte)).load 0 4 = 12 ∧
      ∃ heap', (ext4ReadFileData sampleDir.fs sampleDirInode 12 4 fun _ => 0).run
          (Heap.uninitialized fun _ => 0) =
        .ok ((((min 4 (fileSize sampleDirInode - 12) : Nat) : Int),
          Memory.put (fun _ => 0) 0 (min 4 (fileSize sampleDirInode - 12))
            fun byte => fileByte (fun _ => sampleDirBlock) sampleDir.fs.blockSize (12 + byte)), heap') :=
  ⟨by decide, ((ext4ReadFileData_reads sampleDir.fs sampleDirInode 12 4 fun _ => 0).2 (by decide)
    (by decide) (by decide)
    (show kmalloc (Heap.uninitialized fun _ => 0) sampleDir.fs.blockSize = some (_, some _) from rfl)).1 _
    ⟨_, _, by decide, rfl, Holds.put _ _ _ _, trivial⟩⟩

/-- Without a buffer nothing is read. On the heap `kmalloc(KERNEL_HEAP_SIZE - 16)` leaves,
`ext4_read_file_data` returns `-1` for four bytes inside the sample directory, with no block read
made. -/
theorem ext4ReadFileData_fails_on_full_heap :
    12 < fileSize sampleDirInode ∧
      ∃ heap, kmalloc (Heap.uninitialized fun _ => 0) (kernelHeapSize - allocHeaderSize) =
          some (heap, some allocHeaderSize) ∧
        (ext4ReadFileData sampleDir.fs sampleDirInode 12 4 fun _ => 0).run heap = .ok ((-1, fun _ => 0), heap) :=
  ⟨by decide, _, rfl, rfl⟩

end FreeCore.Ext4
