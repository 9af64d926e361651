import FreeCore.Ext4.Divisors

/-! # The group descriptor table

The size `ext4_mount` gives the descriptor buffer and the 64-byte stride at which
`ext4_read_inode` reads it, whatever `gdesc_size` says. -/

namespace FreeCore.Ext4

namespace Fs

variable (fs : Fs)

/-- `gdesc_table_size = groups_count * gdesc_size` in `ext4_mount`. -/
def gdescTableSize : Nat := wrap 32 (fs.groupsCount * gdescSize fs.sb)

/-- `gdesc_blocks = (gdesc_table_size + block_size - 1) / block_size`, the sum in 32 bits. -/
def gdescBlocks : Nat := wrap 32 (fs.gdescTableSize + fs.blockSize + (2 ^ 32 - 1)) / fs.blockSize

/-- The size `ext4_mount` asks `kmalloc` for: `gdesc_blocks * block_size`, in 32 bits. -/
def gdescBufferSize : Nat := wrap 32 (fs.gdescBlocks * fs.blockSize)

/-- What `ext4_mount` leaves in the record of a node it builds: `group_desc_table` is a buffer
`kmalloc` returned for `gdesc_blocks * block_size` bytes, and the table read filled its
`gdesc_blocks` blocks. -/
def MountedTable : Prop :=
  (∃ heap heap', (Kernel.kmalloc fs.gdescBufferSize).run heap =
      .ok (some fs.groupDescTable, heap')) ∧
    ∃ heap heap', (readGroupDescs fs (wrap 32 (sFirstDataBlock fs.sb + 1)) 0 fs.gdescBlocks).run
      heap = .ok (.ok (), heap')

/-- The buffer is less than a block longer than the table it holds. -/
theorem gdescBufferSize_lt (positive : 0 < fs.blockSize) :
    fs.gdescBufferSize < fs.gdescTableSize + fs.blockSize := by
  have table : fs.gdescTableSize < 2 ^ 32 := Nat.mod_lt _ (by decide)
  calc fs.gdescBufferSize ≤ fs.gdescBlocks * fs.blockSize := Nat.mod_le _ _
    _ ≤ wrap 32 (fs.gdescTableSize + fs.blockSize + (2 ^ 32 - 1)) := Nat.div_mul_le_self _ _
    _ < fs.gdescTableSize + fs.blockSize := by unfold wrap; omega

/-- A descriptor whose `bg_inode_table_hi` lies a block past the wrapped table size lies, from
that field on, past the buffer. -/
theorem descriptor_past_buffer (positive : 0 < fs.blockSize) {group : Nat}
    (far : fs.gdescTableSize + fs.blockSize ≤ group * groupDescStructSize + 40) :
    fs.groupDescTable + fs.gdescBufferSize ≤ groupDescAt fs group + 40 := by
  have := fs.gdescBufferSize_lt positive
  unfold groupDescAt
  omega

/-- With 32-byte descriptors the table is at most half the bytes the 64-byte stride reaches. -/
theorem gdescTableSize_le_of_narrow (narrow : gdescSize fs.sb = 32) :
    fs.gdescTableSize ≤ 32 * fs.groupsCount := by
  unfold gdescTableSize wrap
  rw [narrow, Nat.mul_comm]
  exact Nat.mod_le _ _

end Fs

/-- Whenever `ext4_mount` builds a node, its descriptor buffer is what `kmalloc` returned for
`gdesc_blocks * block_size` bytes, filled by the table read. -/
theorem ext4Mount_table (device : Device) (rootNode : Option Nat) (stack : Memory) :
    Triple (fun _ => True) (ext4Mount device rootNode stack) fun result _ =>
      ∀ node, result.node = some node → node.fs.MountedTable := by
  unfold ext4Mount
  simp only [pure_bind]
  refine .bind .any fun address => ?_
  rcases address with _ | address
  · exact .pure' _ fun _ _ _ built => nomatch built
  refine .bind .any fun _ => .bind .any fun sbBuffer => ?_
  rcases sbBuffer with _ | sbBuffer
  · exact .bind .any fun _ => .pure' _ fun _ _ _ built => nomatch built
  refine .bind .any fun result => .ite (fun _ => .bind .any fun _ => .bind .any fun _ =>
    .pure' _ fun _ _ _ built => nomatch built) fun _ => ?_
  refine .bind .any fun mem => .bind .any fun _ => .bind .any fun _ =>
    .ite (fun _ => .bind .any fun _ => .pure' _ ?_) fun _ => ?_
  · rintro _ _ _ ⟨⟩
  refine .bind (.divide_eq _ _) fun groups => .of_fact fun groupsEq => ?_
  subst groupsEq
  refine .bind (.divide_eq _ _) fun blocks => .of_fact fun blocksEq => ?_
  subst blocksEq
  refine .bind .returned fun table => .of_fact fun allocated => ?_
  rcases table with _ | table
  · exact .bind .any fun _ => .pure' _ (by rintro _ _ _ ⟨⟩)
  refine .bind .returned fun loaded => .of_fact fun filled => ?_
  rcases loaded with code | ⟨⟩
  · exact .bind .any fun _ => .bind .any fun _ => .pure' _ (by rintro _ _ _ ⟨⟩)
  refine .bind .any fun root => ?_
  rcases root with _ | root
  · exact .bind .any fun _ => .bind .any fun _ => .pure' _ (by rintro _ _ _ ⟨⟩)
  refine .bind (ext4CreateVfsNode_fs _ _ _ _) fun built => ?_
  rcases built with code | node
  · exact .bind .any fun _ => .bind .any fun _ => .bind .any fun _ =>
      .pure' _ (by rintro _ _ _ ⟨⟩)
  · refine .pure' _ ?_
    rintro _ onFs _ ⟨⟩
    rw [onFs node rfl]
    exact ⟨allocated, filled⟩

/-- `ext4_mount` gives the node it builds the descriptor buffer of `MountedTable`, and
`ext4_read_inode` reads the descriptor of a group past the end of that buffer whenever the
group's `bg_inode_table_hi` lies a block past the wrapped table size: with 32-byte descriptors
and more than `(block_size + 24) / 32` groups, the last group's does. -/
theorem ext4ReadInode_descriptor_past_table :
    (∀ device rootNode stack, Triple (fun _ => True) (ext4Mount device rootNode stack)
      fun result _ => ∀ node, result.node = some node → node.fs.MountedTable) ∧
    (∀ fs : Fs, 0 < fs.blockSize → ∀ group,
      fs.gdescTableSize + fs.blockSize ≤ group * groupDescStructSize + 40 →
        fs.groupDescTable + fs.gdescBufferSize ≤ groupDescAt fs group + 40) ∧
    ∀ fs : Fs, 0 < fs.blockSize → gdescSize fs.sb = 32 →
      fs.blockSize + 24 ≤ 32 * fs.groupsCount →
      fs.groupsCount - 1 < fs.groupsCount ∧
        fs.groupDescTable + fs.gdescBufferSize ≤ groupDescAt fs (fs.groupsCount - 1) + 40 := by
  refine ⟨ext4Mount_table, fun fs positive _ far => fs.descriptor_past_buffer positive far,
    fun fs positive narrow many => ⟨by omega, fs.descriptor_past_buffer positive ?_⟩⟩
  have := fs.gdescTableSize_le_of_narrow narrow
  unfold groupDescStructSize
  omega

/-- Sixty-four groups of one block and one inode, 32-byte descriptors and the table held past the
heap arena, on a device whose block 0 reads as zeros and every other block as ones. -/
def sixtyFourGroups : Fs :=
  ⟨0, ⟨fun offset _ => (0, some fun _ => if offset = 0 then 0 else 1)⟩, smallSuperblock 64 1,
    kernelHeapSize⟩

/-- `2^27 + 1` groups of one block and 32-byte descriptors: `groups_count * gdesc_size` wraps
to 32. -/
def wrappedGroups : Fs :=
  ⟨0, smallImage 1 1, fun byte => if byte = 7 then 8 else smallSuperblock 1 1 byte, 0⟩

/-- On sixty-four groups the buffer holds 2048 bytes and the last descriptor's
`bg_inode_table_hi` sits at byte 4072 of the table: the block `ext4_read_inode` reads inode 64
from changes with that byte. On `2^27 + 1` groups the buffer holds one block and the descriptor
of group `2^27` starts `2^33` bytes into the table. A block count of `2^32 + 1` leaves
`groups_count` 1. -/
theorem ext4ReadInode_descriptor_past_table_sixty_four :
    (0 < sixtyFourGroups.blockSize ∧ gdescSize sixtyFourGroups.sb = 32 ∧
      sixtyFourGroups.blockSize + 24 ≤ 32 * sixtyFourGroups.groupsCount ∧
      sixtyFourGroups.groupsCount - 1 < sixtyFourGroups.groupsCount ∧
      sixtyFourGroups.groupDescTable + sixtyFourGroups.gdescBufferSize ≤
        groupDescAt sixtyFourGroups (sixtyFourGroups.groupsCount - 1) + 40) ∧
    sixtyFourGroups.gdescBufferSize = 2048 ∧
    ((ext4ReadInode sixtyFourGroups 64 fun _ => 0).run (Heap.uninitialized fun _ => 0)).toOption.map
      (fun result => (result.1.1, result.1.2 0)) = some (0, 0) ∧
    ((ext4ReadInode sixtyFourGroups 64 fun _ => 0).run (Heap.uninitialized fun address =>
        if address = kernelHeapSize + 4072 then 1 else 0)).toOption.map
      (fun result => (result.1.1, result.1.2 0)) = some (0, 1) ∧
    (0 < wrappedGroups.blockSize ∧ wrappedGroups.gdescTableSize = 32 ∧
      wrappedGroups.gdescTableSize + wrappedGroups.blockSize ≤
        2 ^ 27 * groupDescStructSize + 40 ∧
      wrappedGroups.groupDescTable + wrappedGroups.gdescBufferSize ≤
        groupDescAt wrappedGroups (2 ^ 27) + 40) ∧
    (⟨0, smallImage 1 1, fun byte => if byte = 336 then 1 else smallSuperblock 1 1 byte, 0⟩ :
      Fs).groupsCount = 1 :=
  ⟨⟨by decide, by decide, by decide,
      ext4ReadInode_descriptor_past_table.2.2 _ (by decide) (by decide) (by decide)⟩,
    by decide, by decide, by decide,
    ⟨by decide, by decide, by decide,
      ext4ReadInode_descriptor_past_table.2.1 _ (by decide) _ (by decide)⟩, by decide⟩

end FreeCore.Ext4
