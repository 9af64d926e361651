import FreeCore.Ext4.Mount

/-! # Faults of the driver

The operations divide by `s_inodes_per_group` and `block_size` and, past mounting, fault in no
other way than a hang or undefined behaviour; `ext4_mount` also divides by
`s_blocks_per_group`, and checks none of the three. -/

namespace FreeCore.Ext4

/-- The divisors of the operations after mounting are nonzero. -/
def Fs.Divisors (fs : Fs) : Prop := 0 < fs.inodesPerGroup ∧ 0 < fs.blockSize

/-! ## Primitives -/

namespace Avoids

variable {fault : Fault}

theorem memcpy (dest src count : Nat) : Avoids fault (Kernel.memcpy dest src count) :=
  bind memory fun _ => put _ _ _

theorem ext4ReadBlock (fs : Fs) (blockNum buffer : Nat) :
    Avoids fault (Ext4.ext4ReadBlock fs blockNum buffer) :=
  deviceRead _ _ _ _

end Avoids

/-! ## The operations after mounting

Each lemma is stated for every fault other than a hang, the divide error needing the
divisors. -/

section Operations

variable {fs : Fs} {fault : Fault} (hang : fault ≠ .hang)
  (divisors : fault = .divideError → fs.Divisors)
include hang divisors

theorem ext4ReadInode_avoids (inodeNum : Nat) (inode : Memory) :
    Avoids fault (ext4ReadInode fs inodeNum inode) := by
  unfold ext4ReadInode
  simp only [pure_bind]
  refine .ite (fun _ => .pure' _) fun _ => .bind (.divide fun same => (divisors same).1) fun _ => ?_
  refine .ite (fun _ => .pure' _) fun _ => .bind .memory fun _ => ?_
  refine .bind (.remainder fun same => (divisors same).1) fun _ =>
    .bind (.divide fun same => (divisors same).2) fun _ => .bind (.kmalloc _ hang) fun buffer => ?_
  rcases buffer with _ | buffer
  · exact .pure' _
  refine .bind (.ext4ReadBlock _ _ _) fun _ => .ite (fun _ => .bind (.kfree _) fun _ => .pure' _)
    fun _ => ?_
  exact .bind (.remainder fun same => (divisors same).2) fun _ => .bind .memory fun _ =>
    .bind (.kfree _) fun _ => .pure' _

omit hang divisors in
theorem descend_avoids (blockNum buffer : Nat) :
    (depth : Nat) → Avoids fault (descend fs blockNum buffer depth)
  | 0 => .pure' _
  | depth + 1 => by
      simp only [descend, pure_bind]
      refine .bind .memory fun _ => .ite (fun _ => .pure' _) fun _ => ?_
      refine .bind (.ext4ReadBlock _ _ _) fun _ => .ite (fun _ => .pure' _) fun _ => ?_
      exact .bind .memory fun _ => .ite (fun _ => .pure' _) fun _ =>
        descend_avoids blockNum buffer depth

omit divisors in
theorem ext4ReadExtentBlock_avoids (inode : Memory) (blockNum : Nat) :
    Avoids fault (ext4ReadExtentBlock fs inode blockNum) := by
  unfold ext4ReadExtentBlock
  simp only [pure_bind]
  refine .ite (fun _ => .pure' _) fun _ => .ite (fun _ => .pure' _) fun _ =>
    .ite (fun _ => .pure' _) fun _ => .bind (.kmalloc _ hang) fun buffer => ?_
  rcases buffer with _ | buffer
  · exact .pure' _
  refine .bind (.put _ _ _) fun _ => .bind .memory fun _ =>
    .bind (descend_avoids _ _ _) fun found => ?_
  rcases found with _ | _
  · exact .bind (.kfree _) fun _ => .pure' _
  · refine .bind .memory fun _ => .bind (.kfree _) fun _ => ?_
    split <;> exact .pure' _

theorem ext4ReadFileBlock_avoids (inode : Memory) (blockNum buffer : Nat) :
    Avoids fault (ext4ReadFileBlock fs inode blockNum buffer) := by
  unfold ext4ReadFileBlock
  simp only [pure_bind]
  refine .bind (.divide fun same => (divisors same).2) fun _ =>
    .ite (fun _ => .bind (.put _ _ _) fun _ => .pure' _) fun _ => .ite (fun _ => .pure' _) fun _ => ?_
  refine .bind (ext4ReadExtentBlock_avoids hang _ _) fun found => ?_
  rcases found with _ | _
  · exact .pure' _
  · exact .ext4ReadBlock _ _ _

theorem readBlocks_avoids (inode : Memory) (buffer startBlock startOffset size : Nat) :
    (index bytesRead remaining : Nat) → (dest : Memory) →
      Avoids fault (readBlocks fs inode buffer startBlock startOffset size index bytesRead
        remaining dest)
  | _, _, 0, _ => .pure' _
  | index, bytesRead, remaining + 1, dest => by
      simp only [readBlocks, pure_bind]
      refine .bind (ext4ReadFileBlock_avoids hang divisors _ _ _) fun _ =>
        .ite (fun _ => .pure' _) fun _ => .bind .memory fun _ => .ite (fun _ => .pure' _)
          fun _ => readBlocks_avoids inode buffer startBlock startOffset size _ _ remaining _

theorem ext4ReadFileData_avoids (inode : Memory) (offset size : Nat) (dest : Memory) :
    Avoids fault (ext4ReadFileData fs inode offset size dest) := by
  unfold ext4ReadFileData
  simp only [pure_bind]
  refine .ite (fun _ => .pure' _) fun _ => .bind (.kmalloc _ hang) fun buffer => ?_
  rcases buffer with _ | buffer
  · exact .pure' _
  refine .bind (.divide fun same => (divisors same).2) fun _ =>
    .bind (.remainder fun same => (divisors same).2) fun _ =>
      .bind (.divide fun same => (divisors same).2) fun _ =>
        .bind (readBlocks_avoids hang divisors _ _ _ _ _ _ _ _ _) fun result => ?_
  refine .bind (.kfree _) fun _ => ?_
  rcases result with ⟨_ | _, _⟩ <;> exact .pure' _

theorem findInBlocks_avoids (dirInode : Memory) (name : CString) (buffer : Nat) :
    (blockIdx remaining : Nat) → Avoids fault (findInBlocks fs dirInode name buffer blockIdx remaining)
  | _, 0 => .pure' _
  | blockIdx, remaining + 1 => by
      simp only [findInBlocks, pure_bind]
      refine .bind (ext4ReadFileBlock_avoids hang divisors _ _ _) fun _ =>
        .ite (fun _ => .pure' _) fun _ => .bind .memory fun _ => ?_
      split
      · exact .pure' _
      · exact findInBlocks_avoids dirInode name buffer _ remaining

theorem ext4FindDirEntry_avoids (dirInode : Memory) (name : CString) :
    Avoids fault (ext4FindDirEntry fs dirInode name) := by
  unfold ext4FindDirEntry
  refine .bind (.kmalloc _ hang) fun buffer => ?_
  rcases buffer with _ | buffer
  · exact .pure' _
  exact .bind (.divide fun same => (divisors same).2) fun _ =>
    .bind (findInBlocks_avoids hang divisors _ _ _ _ _) fun _ => .bind (.kfree _) fun _ => .pure' _

theorem readdirBlocks_avoids (dirInode : Memory) (buffer index : Nat) :
    (blockIdx entryIdx remaining : Nat) →
      Avoids fault (readdirBlocks fs dirInode buffer index blockIdx entryIdx remaining)
  | _, _, 0 => .pure' _
  | blockIdx, entryIdx, remaining + 1 => by
      simp only [readdirBlocks, pure_bind]
      refine .bind (ext4ReadFileBlock_avoids hang divisors _ _ _) fun _ =>
        .ite (fun _ => .pure' _) fun _ => .bind .memory fun _ => ?_
      split
      · exact .pure' _
      · exact readdirBlocks_avoids dirInode buffer index _ _ remaining

theorem ext4Readdir_avoids {node : Node} (onFs : node.fs = fs) (index : Nat) :
    Avoids fault (ext4Readdir node index) := by
  subst onFs
  unfold ext4Readdir
  simp only [pure_bind]
  refine .ite (fun _ => .pure' _) fun _ => .bind (.kmalloc _ hang) fun buffer => ?_
  rcases buffer with _ | buffer
  · exact .pure' _
  exact .bind (.divide fun same => (divisors same).2) fun _ =>
    .bind (readdirBlocks_avoids hang divisors _ _ _ _ _ _) fun _ => .bind (.kfree _) fun _ =>
      .pure' _

/-- `ext4_create_vfs_node` reaches undefined behaviour only when `s_inode_size` exceeds its
local `ext4_inode_t`. -/
theorem ext4CreateVfsNode_avoids (fits : fault = .undefined → sInodeSize fs.sb ≤ inodeStructSize)
    (inodeNum address : Nat) (stack : Memory) :
    Avoids fault (ext4CreateVfsNode fs inodeNum address stack) := by
  unfold ext4CreateVfsNode
  simp only [pure_bind]
  refine .bind (ext4ReadInode_avoids hang divisors _ _) fun _ =>
    .ite (fun overrun => .throw fun same => Nat.not_le.mpr overrun.2 (fits same)) fun _ =>
      .ite (fun _ => .pure' _) fun _ => .bind (.kmalloc _ hang) fun info => ?_
  rcases info with _ | info
  · exact .pure' _
  exact .bind (.put _ _ _) fun _ => .bind (.put _ _ _) fun _ => .pure' _

end Operations

/-- From a heap satisfying `pre`, `k` never raises the divide error, and every return of `k`
satisfies `post`. -/
structure Safe {α : Type} (pre : Heap → Prop) (k : Kernel α) (post : α → Heap → Prop) : Prop where
  neverDivides : ∀ heap, pre heap → k.run heap ≠ .error .divideError
  triple : Triple pre k post

namespace Safe

variable {α β : Type} {pre : Heap → Prop} {post : α → Heap → Prop}

theorem of {k : Kernel α} (never : NeverDivides k) (triple : Triple pre k post) :
    Safe pre k post :=
  ⟨fun heap _ => never heap, triple⟩

/-- A computation that never divides, whatever it returns. -/
theorem any {k : Kernel α} (never : NeverDivides k) : Safe pre k fun _ _ => True :=
  of never Triple.any

theorem pure' (value : α) (holds : ∀ heap, pre heap → post value heap) :
    Safe pre (pure value) post :=
  of (Avoids.pure' value) (Triple.pure' value holds)

theorem bind {x : Kernel α} {f : α → Kernel β} {middle : α → Heap → Prop}
    {final : β → Heap → Prop} (first : Safe pre x middle)
    (second : ∀ value, Safe (middle value) (f value) final) : Safe pre (x >>= f) final := by
  refine ⟨fun heap before run => ?_, Triple.bind first.triple fun value => (second value).triple⟩
  rcases (run_bind_eq_error x f heap _).mp run with early | ⟨value, heap', ran, late⟩
  · exact first.neverDivides heap before early
  · exact (second value).neverDivides heap' (first.triple heap before value heap' ran) late

theorem ite {condition : Prop} [Decidable condition] {yes no : Kernel α}
    (ifYes : condition → Safe pre yes post) (ifNo : ¬condition → Safe pre no post) :
    Safe pre (if condition then yes else no) post := by
  split
  · exact ifYes ‹_›
  · exact ifNo ‹_›

/-- A precondition that does not depend on the heap can be assumed. -/
theorem of_fact {fact : Prop} {k : Kernel α} (safe : fact → Safe (fun _ => True) k post) :
    Safe (fun _ => fact) k post :=
  ⟨fun heap holds => (safe holds).neverDivides heap trivial,
    fun heap holds => (safe holds).triple heap trivial⟩

end Safe

/-- The bytes a device read stores land in the buffer. -/
theorem Triple.deviceRead (device : Device) (offset size buffer : Nat) {bytes : Nat → UInt8}
    (stored : (device.read offset size).2 = some bytes) :
    Triple (fun _ => True) (Kernel.deviceRead device offset size buffer)
      fun _ heap => ∀ byte < size, heap.mem (buffer + byte) = bytes byte := by
  unfold Kernel.deviceRead
  rw [stored]
  refine Triple.bind (Triple.mono (Triple.put _ _ _) (fun heap _ byte inside => ?_) fun _ _ => id)
    fun _ => Triple.pure' _ fun _ holds => holds
  simp [Memory.put, inside]

/-- What `ext4_create_vfs_node` returns is a node of the filesystem it was given. -/
theorem ext4CreateVfsNode_fs (fs : Fs) (inodeNum address : Nat) (stack : Memory) :
    Triple (fun _ => True) (ext4CreateVfsNode fs inodeNum address stack)
      fun result _ => ∀ node, result = .ok node → node.fs = fs := by
  unfold ext4CreateVfsNode
  simp only [pure_bind]
  refine Triple.bind Triple.any fun read => Triple.ite (fun _ => Triple.throw _) fun _ => ?_
  obtain ⟨result, inode⟩ := read
  refine Triple.ite (fun _ => Triple.pure' _ ?_) fun _ => Triple.bind Triple.any fun info => ?_
  · rintro _ _ _ ⟨⟩
  rcases info with _ | info
  · refine Triple.pure' _ ?_
    rintro _ _ _ ⟨⟩
  · refine Triple.bind Triple.any fun _ => Triple.bind Triple.any fun _ => Triple.pure' _ ?_
    rintro _ _ _ ⟨⟩
    rfl

theorem readGroupDescs_neverDivides (fs : Fs) (start : Nat) :
    (index remaining : Nat) → NeverDivides (readGroupDescs fs start index remaining)
  | _, 0 => .pure' _
  | index, remaining + 1 => by
      unfold readGroupDescs
      exact .bind (.ext4ReadBlock _ _ _) fun _ => .ite (fun _ => .pure' _) fun _ =>
        readGroupDescs_neverDivides fs start _ remaining

/-- A superblock copy that agrees with `sb` has its divisors. -/
theorem superblock_fields {copy sb : Memory} (agree : Memory.AgreeOn copy sb 0 superblockSize) :
    sBlocksPerGroup copy = sBlocksPerGroup sb ∧ sInodesPerGroup copy = sInodesPerGroup sb ∧
      sLogBlockSize copy = sLogBlockSize sb :=
  ⟨Memory.load_congr (agree.mono (Nat.zero_le _) (by decide)),
    Memory.load_congr (agree.mono (Nat.zero_le _) (by decide)),
    Memory.load_congr (agree.mono (Nat.zero_le _) (by decide))⟩

/-- `ext4_mount` on a device whose superblock has nonzero divisors never divides by zero, and
the root node it builds keeps a copy of that superblock. -/
theorem ext4Mount_safe {device : Device} {status : Int} {sb : Nat → UInt8}
    (superblock : device.read superblockOffset superblockSize = (status, some sb))
    (groups : 0 < sBlocksPerGroup sb) (inodes : 0 < sInodesPerGroup sb)
    (shift : sLogBlockSize sb % 32 < 22) (rootNode : Option Nat) (stack : Memory) :
    Safe (fun _ => True) (ext4Mount device rootNode stack) fun result _ =>
      ∀ node, result.node = some node → Memory.AgreeOn node.fs.sb sb 0 superblockSize := by
  unfold ext4Mount
  simp only [pure_bind]
  refine .bind (.any (.kmalloc _ (by decide))) fun address => ?_
  rcases address with _ | address
  · exact .pure' _ fun _ _ _ built => nomatch built
  refine .bind (.any (.put _ _ _)) fun _ => .bind (.any (.kmalloc _ (by decide))) fun sbBuffer => ?_
  rcases sbBuffer with _ | sbBuffer
  · exact .bind (.any (.kfree _)) fun _ => .pure' _ fun _ _ _ built => nomatch built
  refine .bind (.of (.deviceRead _ _ _ _) (Triple.deviceRead _ _ _ sbBuffer (by rw [superblock])))
    fun result => .ite (fun _ => .bind (.any (.kfree _)) fun _ => .bind (.any (.kfree _)) fun _ =>
      .pure' _ fun _ _ _ built => nomatch built) fun _ => ?_
  refine .bind (.of .memory (@Triple.memory fun mem _ =>
    ∀ byte < superblockSize, mem (sbBuffer + byte) = sb byte)) fun mem => .of_fact fun agree => ?_
  have sbAgree : Memory.AgreeOn (fun byte => mem (sbBuffer + byte)) sb 0 superblockSize :=
    fun byte _ inside => agree byte inside
  obtain ⟨sameGroups, sameInodes, sameShift⟩ := superblock_fields sbAgree
  refine .bind (.any (.memcpy _ _ _)) fun _ => .bind (.any (.kfree _)) fun _ =>
    .ite (fun _ => .bind (.any (.kfree _)) fun _ => .pure' _ ?_) fun _ => ?_
  · rintro _ _ _ ⟨⟩
  have positiveGroups : 0 < sBlocksPerGroup fun byte => mem (sbBuffer + byte) := sameGroups ▸ groups
  have positiveInodes : 0 < sInodesPerGroup fun byte => mem (sbBuffer + byte) := sameInodes ▸ inodes
  have positiveBlocks (table : Nat) :
      0 < (⟨address, device, fun byte => mem (sbBuffer + byte), table⟩ : Fs).blockSize :=
    Nat.pos_of_ne_zero ((Fs.blockSize_ne_zero_iff _).mpr (sameShift ▸ shift))
  refine .bind (.any (.divide fun _ => positiveGroups)) fun _ => .bind (.any (.divide fun _ => positiveBlocks 0))
    fun _ => .bind (.any (.kmalloc _ (by decide))) fun table => ?_
  rcases table with _ | table
  · exact .bind (.any (.kfree _)) fun _ => .pure' _ (by rintro _ _ _ ⟨⟩)
  refine .bind (.any (readGroupDescs_neverDivides _ _ _ _)) fun loaded => ?_
  rcases loaded with code | ⟨⟩
  · exact .bind (.any (.kfree _)) fun _ => .bind (.any (.kfree _)) fun _ =>
      .pure' _ (by rintro _ _ _ ⟨⟩)
  refine .bind (.any (.kmalloc _ (by decide))) fun root => ?_
  rcases root with _ | root
  · exact .bind (.any (.kfree _)) fun _ => .bind (.any (.kfree _)) fun _ =>
      .pure' _ (by rintro _ _ _ ⟨⟩)
  have divisors : Fs.Divisors ⟨address, device, fun byte => mem (sbBuffer + byte), table⟩ :=
    ⟨positiveInodes, positiveBlocks table⟩
  refine .bind (.of (@ext4CreateVfsNode_avoids _ .divideError (by decide) (fun _ => divisors) nofun _ _ _) (ext4CreateVfsNode_fs _ _ _ _))
    fun built => ?_
  rcases built with code | node
  · exact .bind (.any (.kfree _)) fun _ => .bind (.any (.kfree _)) fun _ =>
      .bind (.any (.kfree _)) fun _ => .pure' _ (by rintro _ _ _ ⟨⟩)
  · refine .pure' _ ?_
    rintro _ onFs _ ⟨⟩
    rw [onFs node rfl]
    exact sbAgree

/-- On a device whose superblock has nonzero divisors, `ext4_mount` never divides by zero;
when it builds a root node, `block_size` is `1024 * 2^shift` without overflow, and no later read
of the filesystem divides by zero. -/
theorem ext4Mount_no_divide_error {device : Device} {status : Int} {sb : Nat → UInt8}
    (superblock : device.read superblockOffset superblockSize = (status, some sb))
    (groups : 0 < sBlocksPerGroup sb) (inodes : 0 < sInodesPerGroup sb)
    (shift : sLogBlockSize sb % 32 < 22) (rootNode : Option Nat) (stack : Memory) :
    NeverDivides (ext4Mount device rootNode stack) ∧
      ∀ heap result heap' node, (ext4Mount device rootNode stack).run heap = .ok (result, heap') →
        result.node = some node →
          node.fs.blockSize = 1024 * 2 ^ (sLogBlockSize sb % 32) ∧
          (∀ inodeNum inode, NeverDivides (ext4ReadInode node.fs inodeNum inode)) ∧
          (∀ inode blockNum buffer, NeverDivides (ext4ReadFileBlock node.fs inode blockNum buffer)) ∧
          (∀ inode offset size dest, NeverDivides (ext4ReadFileData node.fs inode offset size dest)) ∧
          (∀ dirInode name, NeverDivides (ext4FindDirEntry node.fs dirInode name)) ∧
          ∀ dir : Node, dir.fs = node.fs → ∀ index, NeverDivides (ext4Readdir dir index) := by
  have safe := ext4Mount_safe superblock groups inodes shift rootNode stack
  refine ⟨fun heap => safe.neverDivides heap trivial, fun heap result heap' node run built => ?_⟩
  obtain ⟨-, sameInodes, sameShift⟩ :=
    superblock_fields (safe.triple heap trivial result heap' run node built)
  have nodeShift : sLogBlockSize node.fs.sb % 32 < 22 := sameShift ▸ shift
  have divisors : node.fs.Divisors :=
    ⟨show 0 < sInodesPerGroup node.fs.sb from sameInodes ▸ inodes,
      Nat.pos_of_ne_zero ((Fs.blockSize_ne_zero_iff _).mpr nodeShift)⟩
  have hang : Fault.divideError ≠ .hang := by decide
  exact ⟨by rw [Fs.blockSize_eq _ nodeShift, sameShift], ext4ReadInode_avoids hang fun _ => divisors,
    ext4ReadFileBlock_avoids hang fun _ => divisors, ext4ReadFileData_avoids hang fun _ => divisors,
    ext4FindDirEntry_avoids hang fun _ => divisors,
    fun _ onFs => ext4Readdir_avoids hang (fun _ => divisors) onFs⟩

theorem ext4Mount_no_divide_error_small :
    (smallImage 4 1).read superblockOffset superblockSize = (0, some (smallSuperblock 4 1)) ∧
      0 < sBlocksPerGroup (smallSuperblock 4 1) ∧ 0 < sInodesPerGroup (smallSuperblock 4 1) ∧
      sLogBlockSize (smallSuperblock 4 1) % 32 < 22 ∧
      NeverDivides (ext4Mount (smallImage 4 1) none fun _ => 0) :=
  ⟨rfl, by decide, by decide, by decide,
    (ext4Mount_no_divide_error rfl (by decide) (by decide) (by decide) none fun _ => 0).1⟩

end FreeCore.Ext4
