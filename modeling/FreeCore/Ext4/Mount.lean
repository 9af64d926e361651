import FreeCore.Ext4.Dir

/-! # Mounting and unmounting

`ext4_mount` allocates the filesystem record, reads and checks the superblock, derives the
geometry, reads the group descriptor table into a heap buffer, and builds the root node. Each
failure frees what was allocated before it, in the order of the source. The caller's
`*root_node` is written twice: with the result of its `kmalloc`, and with nothing else, so a
failure after that `kmalloc` leaves it as `kmalloc` set it. -/

namespace FreeCore.Ext4

/-- What `ext4_mount` returns: its status, the caller's `*root_node` afterwards, and the root
node it built on success. -/
structure MountResult where
  status : Int
  rootNode : Option Nat
  node : Option Node

/-- The descriptor table read of `ext4_mount` from table block `index`, with `remaining`
blocks left: block `start + index` goes to byte `index * block_size` of the table, a 32-bit
product. -/
def readGroupDescs (fs : Fs) (start : Nat) : (index remaining : Nat) → Kernel (Except Int Unit)
  | _, 0 => return .ok ()
  | index, remaining + 1 => do
      let result ← ext4ReadBlock fs (start + index)
        (fs.groupDescTable + wrap 32 (index * fs.blockSize))
      if result < 0 then return .error result
      readGroupDescs fs start (index + 1) remaining

/-- `gdesc_size`: `s_desc_size`, or 32 when it is 0. -/
def gdescSize (sb : Memory) : Nat := if sDescSize sb = 0 then 32 else sDescSize sb

/-- `ext4_mount(device, root_node)`, with `*root_node` holding `rootNode` before the call and
`stack` the bytes of the uninitialised local inode of `ext4_create_vfs_node`. -/
def ext4Mount (device : Device) (rootNode : Option Nat) (stack : Memory) : Kernel MountResult := do
  match ← Kernel.kmalloc fsStructSize with
  | none => return ⟨-1, rootNode, none⟩
  | some address =>
      Kernel.memset address 0 fsStructSize
      match ← Kernel.kmalloc superblockSize with
      | none =>
          Kernel.kfree (some address)
          return ⟨-1, rootNode, none⟩
      | some sbBuffer =>
          let result ← Kernel.deviceRead device superblockOffset superblockSize sbBuffer
          if result < 0 then
            Kernel.kfree (some sbBuffer)
            Kernel.kfree (some address)
            return ⟨result, rootNode, none⟩
          let mem ← Kernel.memory
          Kernel.memcpy (address + 8) sbBuffer superblockSize
          Kernel.kfree (some sbBuffer)
          let fs : Fs := ⟨address, device, fun byte => mem (sbBuffer + byte), 0⟩
          if sMagic fs.sb ≠ superMagic then
            Kernel.kfree (some address)
            return ⟨-1, rootNode, none⟩
          let groupsCount ← Kernel.divide
            (wrap 64 (fs.blockCount + fs.blocksPerGroup + (2 ^ 64 - 1))) fs.blocksPerGroup
          let tableSize := wrap 32 (wrap 32 groupsCount * gdescSize fs.sb)
          let gdescBlocks ← Kernel.divide (wrap 32 (tableSize + fs.blockSize + (2 ^ 32 - 1)))
            fs.blockSize
          match ← Kernel.kmalloc (wrap 32 (gdescBlocks * fs.blockSize)) with
          | none =>
              Kernel.kfree (some address)
              return ⟨-1, rootNode, none⟩
          | some table =>
              let fs := { fs with groupDescTable := table }
              match ← readGroupDescs fs (wrap 32 (sFirstDataBlock fs.sb + 1)) 0 gdescBlocks with
              | .error code =>
                  Kernel.kfree (some table)
                  Kernel.kfree (some address)
                  return ⟨code, rootNode, none⟩
              | .ok () =>
                  match ← Kernel.kmalloc vfsNodeSize with
                  | none =>
                      Kernel.kfree (some table)
                      Kernel.kfree (some address)
                      return ⟨-1, none, none⟩
                  | some root =>
                      match ← ext4CreateVfsNode fs rootIno root stack with
                      | .error code =>
                          Kernel.kfree (some root)
                          Kernel.kfree (some table)
                          Kernel.kfree (some address)
                          return ⟨code, some root, none⟩
                      | .ok node => return ⟨0, some root, some node⟩

/-! ### Small images

Images of 1024-byte blocks: the superblock at byte 1024, one inode per group, 128-byte inodes
and 32-byte descriptors (`s_desc_size` 0), the first data block 1 and so the descriptor table
in block 2. Every other block reads as zeros. -/

/-- The superblock of a small image. -/
def smallSuperblock (blocksCount blocksPerGroup : UInt8) (byte : Nat) : UInt8 :=
  if byte = 4 then blocksCount else if byte = 20 then 1 else if byte = 32 then blocksPerGroup
  else if byte = 40 then 1 else if byte = 56 then 0x53 else if byte = 57 then 0xEF
  else if byte = 88 then 128 else 0

/-- A small image. -/
def smallImage (blocksCount blocksPerGroup : UInt8) : Device where
  read offset _ :=
    if offset = superblockOffset then (0, some (smallSuperblock blocksCount blocksPerGroup))
    else (0, some fun _ => 0)

/-- With `s_blocks_per_group` 0, `ext4_mount` divides by zero computing `groups_count`. -/
theorem ext4Mount_divides_by_zero :
    (ext4Mount (smallImage 1 0) none fun _ => 0).run (Heap.uninitialized fun _ => 0) =
      .error .divideError := by
  rfl

/-- A table of 32-byte descriptors: descriptor 1 places its inode table at block 5, descriptor
2 at block 9. -/
def strideTable (byte : Nat) : UInt8 := if byte = 40 then 5 else if byte = 72 then 9 else 0

/-- `ext4_read_inode` steps through the descriptor table by `sizeof(ext4_group_desc_t)`, 64
bytes, whatever `s_desc_size` says. With 32-byte descriptors and the table `strideTable` (held
past the heap arena), the root inode, in group 1, is read from the block that descriptor 2
names, 9, not from block 5; every byte of block `n` of this device is `n`. -/
theorem ext4ReadInode_descriptor_stride :
    gdescSize (smallSuperblock 4 1) = 32 ∧ bgInodeTableLo strideTable (1 * 32) = 5 ∧
      ((ext4ReadInode ⟨0, ⟨fun offset _ => (0, some fun _ => UInt8.ofNat (offset / 1024))⟩,
          smallSuperblock 4 1, kernelHeapSize⟩ rootIno fun _ => 0).run
        (Heap.uninitialized fun address => strideTable (address - kernelHeapSize))).toOption.map
          (fun result => (result.1.1, result.1.2 0)) = some (0, 9) := by
  decide

/-- `ext4_read_inode` copies `s_inode_size` bytes into the caller's `ext4_inode_t`, which holds
`sizeof(ext4_inode_t)` bytes. On a small image with 256-byte inodes, every byte of each block
reading as its offset in the block, byte 200 of the root inode's on-disk record lands at byte
200 of the caller's record, 72 bytes past its end. -/
theorem ext4ReadInode_copies_inode_size :
    inodeStructSize = 128 ∧
      sInodeSize (fun byte => if byte = 89 then 1 else if byte = 88 then 0
        else smallSuperblock 4 1 byte) = 256 ∧
      ((ext4ReadInode ⟨0, ⟨fun _ _ => (0, some fun byte => UInt8.ofNat byte)⟩,
          fun byte => if byte = 89 then 1 else if byte = 88 then 0 else smallSuperblock 4 1 byte,
          kernelHeapSize⟩ rootIno fun _ => 0).run
        (Heap.uninitialized fun _ => 0)).toOption.map
          (fun result => (result.1.1, result.1.2 200)) = some (0, 200) := by
  decide

/-- `ext4_unmount(root_node)`: free the descriptor table, the filesystem record and the root's
inode information. -/
def ext4Unmount (root : Node) : Kernel Unit := do
  Kernel.kfree (some root.fs.groupDescTable)
  Kernel.kfree (some root.fs.address)
  Kernel.kfree (some root.info)

end FreeCore.Ext4
