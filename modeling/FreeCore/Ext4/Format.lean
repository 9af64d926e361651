import FreeCore.Memory

/-! # The on-disk format

The packed records of `ext4.h`, each field the little-endian integer at its offset, and `Fs`,
the mounted filesystem with the values `ext4_mount` derives in C's fixed-width arithmetic. -/

namespace FreeCore.Ext4

/-! ## Constants -/

/-- `EXT4_SUPER_MAGIC`. -/
def superMagic : Nat := 0xEF53

/-- `EXT4_SUPERBLOCK_OFFSET`. -/
def superblockOffset : Nat := 1024

/-- `EXT4_ROOT_INO`. -/
def rootIno : Nat := 2

/-- `EXT4_FEATURE_INCOMPAT_EXTENTS`. -/
def featureIncompatExtents : Nat := 0x0040

/-- `EXT4_EXTENTS_FL`, the inode flag `ext4_read_extent_block` tests. -/
def extentsFl : Nat := 0x80000

/-- `EXT4_EXTENT_HEADER_MAGIC`. -/
def extentHeaderMagic : Nat := 0xF30A

/-- `VFS_NAME_MAX`. -/
def vfsNameMax : Nat := 255

/-- `sizeof(ext4_superblock_t)`. -/
def superblockSize : Nat := 1024

/-- `sizeof(ext4_inode_t)`. -/
def inodeStructSize : Nat := 128

/-- `sizeof(ext4_extent_node_t)`: a header and four entries. -/
def extentNodeSize : Nat := 60

/-- `sizeof(ext4_group_desc_t)`, the stride of `fs->group_desc_table[group]`. -/
def groupDescStructSize : Nat := 64

/-- `sizeof(ext4_fs_t)`. -/
def fsStructSize : Nat := 1080

/-- `sizeof(struct vfs_node)`. -/
def vfsNodeSize : Nat := 328

/-- `sizeof(ext4_inode_info_t)`. -/
def inodeInfoSize : Nat := 144

/-! ## C arithmetic -/

/-- Reduction to an unsigned `width`-bit integer. -/
def wrap (width value : Nat) : Nat := value % 2 ^ width

/-- `lo | (hi << 32)` for a 32-bit `lo` and a `hi` below `2^32`. -/
def combine (lo hi : Nat) : Nat := lo + hi * 2 ^ 32

/-- A value converted to `int`: the low 32 bits, read as two's complement. -/
def toInt32 (value : Nat) : Int :=
  if value % 2 ^ 32 < 2 ^ 31 then (value % 2 ^ 32 : Nat) else (value % 2 ^ 32 : Nat) - 2 ^ 32

theorem toInt32_of_lt {value : Nat} (small : value < 2 ^ 31) : toInt32 value = value := by
  rw [toInt32, Nat.mod_eq_of_lt (by omega), if_pos small]

/-- An `int` converted to `size_t`. -/
def toSize (value : Int) : Nat := (value % 2 ^ 64).toNat

/-! ## Superblock fields -/

section Superblock

variable (sb : Memory)

def sBlocksCountLo : Nat := sb.load 4 4
def sFirstDataBlock : Nat := sb.load 20 4
def sLogBlockSize : Nat := sb.load 24 4
def sBlocksPerGroup : Nat := sb.load 32 4
def sInodesPerGroup : Nat := sb.load 40 4
def sMagic : Nat := sb.load 56 2
def sInodeSize : Nat := sb.load 88 2
def sFeatureIncompat : Nat := sb.load 96 4
def sDescSize : Nat := sb.load 254 2
def sBlocksCountHi : Nat := sb.load 336 4

end Superblock

/-! ## Inode fields -/

section Inode

variable (inode : Memory)

def iMode : Nat := inode.load 0 2
def iSizeLo : Nat := inode.load 4 4
def iFlags : Nat := inode.load 32 4
def iSizeHigh : Nat := inode.load 108 4

/-- `i_block`, where an extent-mapped inode keeps the root of its extent tree. -/
def iBlockOffset : Nat := 40

/-- The file size `i_size_lo | (i_size_high << 32)`. -/
def fileSize : Nat := combine (iSizeLo inode) (iSizeHigh inode)

end Inode

/-! ## Group descriptor fields, for a descriptor at `desc` -/

def bgInodeTableLo (mem : Memory) (desc : Nat) : Nat := mem.load (desc + 8) 4
def bgInodeTableHi (mem : Memory) (desc : Nat) : Nat := mem.load (desc + 40) 4

/-! ## Extent-tree nodes, for a node at `node` -/

section ExtentNode

variable (mem : Memory) (node : Nat)

def ehMagic : Nat := mem.load node 2
def ehEntries : Nat := mem.load (node + 2) 2
def ehDepth : Nat := mem.load (node + 6) 2

/-- Entry `index` of a node: twelve bytes after the header each. -/
def entryAt (index : Nat) : Nat := node + 12 + 12 * index

def eiBlock (index : Nat) : Nat := mem.load (entryAt node index) 4
def eiLeafLo (index : Nat) : Nat := mem.load (entryAt node index + 4) 4
def eiLeafHi (index : Nat) : Nat := mem.load (entryAt node index + 8) 2
def eeBlock (index : Nat) : Nat := mem.load (entryAt node index) 4
def eeLen (index : Nat) : Nat := mem.load (entryAt node index + 4) 2
def eeStartHi (index : Nat) : Nat := mem.load (entryAt node index + 6) 2
def eeStartLo (index : Nat) : Nat := mem.load (entryAt node index + 8) 4

end ExtentNode

/-! ## Directory entries, for a record at `entry` -/

section DirEntry

variable (mem : Memory) (entry : Nat)

def deInode : Nat := mem.load entry 4
def deRecLen : Nat := mem.load (entry + 4) 2
def deNameLen : Nat := mem.load (entry + 6) 1
def deFileType : Nat := mem.load (entry + 7) 1

/-- The name bytes start right after the eight-byte record header. -/
def deName : Nat := entry + 8

end DirEntry

/-! ## The mounted filesystem -/

/-- A block device. `read offset size` is `ops->read(device, offset, size, buffer)`: its status,
and the `size` bytes it stores into the buffer (`none` when it stores nothing). -/
structure Device where
  read : (offset size : Nat) → Int × Option (Nat → UInt8)

/-- `ext4_fs_t`: where it lives in the heap, the device, the superblock copy, and the address
of the group descriptor table in the heap. -/
structure Fs where
  address : Nat
  device : Device
  sb : Memory
  groupDescTable : Nat

namespace Fs

variable (fs : Fs)

/-- `block_size = 1024 << s_log_block_size`: an `int` shift stored in a `uint32_t`. x86 masks
a 32-bit shift count to five bits. -/
def blockSize : Nat := wrap 32 (1024 * 2 ^ (sLogBlockSize fs.sb % 32))

/-- `block_count = s_blocks_count_lo | (s_blocks_count_hi << 32)`. -/
def blockCount : Nat := combine (sBlocksCountLo fs.sb) (sBlocksCountHi fs.sb)

def inodesPerGroup : Nat := sInodesPerGroup fs.sb

def blocksPerGroup : Nat := sBlocksPerGroup fs.sb

/-- `groups_count = (block_count + blocks_per_group - 1) / blocks_per_group`, computed in 64
bits and stored in a `uint32_t`. -/
def groupsCount : Nat :=
  wrap 32 (wrap 64 (fs.blockCount + fs.blocksPerGroup + (2 ^ 64 - 1)) / fs.blocksPerGroup)

/-- Whether the superblock has the extents feature. -/
def hasExtents : Bool := sFeatureIncompat fs.sb &&& featureIncompatExtents != 0

/-! ### The block size -/

theorem blockSize_shift (shift : Nat) (bounded : shift < 32) :
    (wrap 32 (1024 * 2 ^ shift) ≠ 0 ↔ shift < 22) ∧
      (shift < 22 → wrap 32 (1024 * 2 ^ shift) = 1024 * 2 ^ shift) ∧
      (wrap 32 (1024 * 2 ^ shift) = 0 ∨ 1024 ≤ wrap 32 (1024 * 2 ^ shift)) := by
  revert shift
  decide

/-- `block_size` is nonzero exactly when the masked shift is below 22, and then it is
`1024 * 2^shift` without 32-bit overflow. -/
theorem blockSize_ne_zero_iff : fs.blockSize ≠ 0 ↔ sLogBlockSize fs.sb % 32 < 22 :=
  (blockSize_shift _ (Nat.mod_lt _ (by decide))).1

theorem blockSize_eq (shift : sLogBlockSize fs.sb % 32 < 22) :
    fs.blockSize = 1024 * 2 ^ (sLogBlockSize fs.sb % 32) :=
  (blockSize_shift _ (Nat.mod_lt _ (by decide))).2.1 shift

/-- A nonzero block holds at least 1024 bytes. -/
theorem blockSize_eq_zero_or : fs.blockSize = 0 ∨ 1024 ≤ fs.blockSize :=
  (blockSize_shift _ (Nat.mod_lt _ (by decide))).2.2

theorem blockSize_lt : fs.blockSize < 2 ^ 32 := Nat.mod_lt _ (by decide)

end Fs

end FreeCore.Ext4
