import FreeCore.Ext4.Kernel

/-! # Reading blocks, inodes and file data

The read path of `ext4.c`. Out-parameters the caller owns (the inode record, the destination of
a file read) are passed in and returned; an `int` status with an out-value is `Except Int α`. -/

namespace FreeCore.Ext4

/-- `ext4_read_block`: read block `blockNum` into the heap buffer at `buffer`. -/
def ext4ReadBlock (fs : Fs) (blockNum buffer : Nat) : Kernel Int :=
  Kernel.deviceRead fs.device (wrap 64 (blockNum * fs.blockSize)) fs.blockSize buffer

/-- The address of `fs->group_desc_table[group]`: the table holds `ext4_group_desc_t`
records. -/
def groupDescAt (fs : Fs) (group : Nat) : Nat := fs.groupDescTable + group * groupDescStructSize

/-- The inode table block of a group as `ext4_read_inode` reads it from its descriptor. -/
def inodeTableBlock (fs : Fs) (mem : Memory) (group : Nat) : Nat :=
  combine (bgInodeTableLo mem (groupDescAt fs group)) (bgInodeTableHi mem (groupDescAt fs group))

/-- `ext4_read_inode`: the status, and the caller's inode record with the `s_inode_size` bytes of
the on-disk inode copied in on success. The `memcpy` stores them whatever the size of the object
behind `inode`; its only caller, `ext4CreateVfsNode`, judges the store against its local. -/
def ext4ReadInode (fs : Fs) (inodeNum : Nat) (inode : Memory) : Kernel (Int × Memory) := do
  if inodeNum < 1 then return (-1, inode)
  let group ← Kernel.divide (inodeNum - 1) fs.inodesPerGroup
  if fs.groupsCount ≤ group then return (-1, inode)
  let mem ← Kernel.memory
  let tableBlock := inodeTableBlock fs mem group
  let index ← Kernel.remainder (inodeNum - 1) fs.inodesPerGroup
  let blockInTable ← Kernel.divide (wrap 32 (index * sInodeSize fs.sb)) fs.blockSize
  let inodeBlock := wrap 64 (tableBlock + blockInTable)
  match ← Kernel.kmalloc fs.blockSize with
  | none => return (-1, inode)
  | some buffer =>
      let result ← ext4ReadBlock fs inodeBlock buffer
      if result < 0 then
        Kernel.kfree (some buffer)
        return (result, inode)
      let offset ← Kernel.remainder (wrap 32 (index * sInodeSize fs.sb)) fs.blockSize
      let mem ← Kernel.memory
      let inode := inode.put 0 (sInodeSize fs.sb) fun byte => mem (buffer + offset + byte)
      Kernel.kfree (some buffer)
      return (0, inode)

/-! ## The extent tree -/

/-- The index scan of an internal node at `node` from entry `index`, with `remaining` entries
left: skip entry `index` while a next entry exists whose `ei_block` is at most `blockNum`. The
result is the entry the descent follows, or `entries` when the node has none. -/
def scanIndex (mem : Memory) (node blockNum entries : Nat) : (index remaining : Nat) → Nat
  | index, 0 => index
  | index, remaining + 1 =>
      if index + 1 < entries ∧ eiBlock mem node (index + 1) ≤ blockNum then
        scanIndex mem node blockNum entries (index + 1) remaining
      else index

/-- The descent of `ext4_read_extent_block` for `depth` more levels: follow the chosen index
entry, read the child node into the buffer and check its magic. -/
def descend (fs : Fs) (blockNum buffer : Nat) : (depth : Nat) → Kernel (Except Int Unit)
  | 0 => return .ok ()
  | depth + 1 => do
      let mem ← Kernel.memory
      let entries := ehEntries mem buffer
      let index := scanIndex mem buffer blockNum entries 0 entries
      if entries ≤ index then return .error (-1)
      let nodeBlock := combine (eiLeafLo mem buffer index) (eiLeafHi mem buffer index)
      let result ← ext4ReadBlock fs nodeBlock buffer
      if result < 0 then return .error result
      let mem ← Kernel.memory
      if ehMagic mem buffer ≠ extentHeaderMagic then return .error (-1)
      descend fs blockNum buffer depth

/-- The leaf scan from extent `index`, with `remaining` extents left: the physical block of the
first extent whose range holds `blockNum`. The end of the range, `ee_block + ee_len`, is a
32-bit sum. -/
def scanLeaf (mem : Memory) (node blockNum : Nat) : (index remaining : Nat) → Option Nat
  | _, 0 => none
  | index, remaining + 1 =>
      if eeBlock mem node index ≤ blockNum ∧
          blockNum < wrap 32 (eeBlock mem node index + eeLen mem node index) then
        some (wrap 64 (combine (eeStartLo mem node index) (eeStartHi mem node index) +
          (blockNum - eeBlock mem node index)))
      else scanLeaf mem node blockNum (index + 1) remaining

/-- `ext4_read_extent_block`: the physical block that logical block `blockNum` of `inode` maps
to. The root node sits in `i_block`; it is copied into a block-sized buffer, and each level's
child is read into the same buffer. -/
def ext4ReadExtentBlock (fs : Fs) (inode : Memory) (blockNum : Nat) : Kernel (Except Int Nat) := do
  if !fs.hasExtents then return .error (-1)
  if iFlags inode &&& extentsFl = 0 then return .error (-1)
  if ehMagic inode iBlockOffset ≠ extentHeaderMagic then return .error (-1)
  match ← Kernel.kmalloc fs.blockSize with
  | none => return .error (-1)
  | some buffer =>
      Kernel.put buffer extentNodeSize fun byte => inode (iBlockOffset + byte)
      let mem ← Kernel.memory
      match ← descend fs blockNum buffer (ehDepth mem buffer) with
      | .error code =>
          Kernel.kfree (some buffer)
          return .error code
      | .ok () =>
          let mem ← Kernel.memory
          let found := scanLeaf mem buffer blockNum 0 (ehEntries mem buffer)
          Kernel.kfree (some buffer)
          match found with
          | some phys => return .ok phys
          | none => return .error (-1)

/-! ## File blocks and file data -/

/-- `ext4_read_file_block`: past the end of the file the buffer is zeroed; otherwise the block
is mapped through the extent tree and read. -/
def ext4ReadFileBlock (fs : Fs) (inode : Memory) (blockNum buffer : Nat) : Kernel Int := do
  let maxBlock ← Kernel.divide (wrap 64 (fileSize inode + fs.blockSize + (2 ^ 64 - 1))) fs.blockSize
  if maxBlock ≤ blockNum then
    Kernel.memset buffer 0 fs.blockSize
    return 0
  if !fs.hasExtents then return -1
  match ← ext4ReadExtentBlock fs inode blockNum with
  | .error code => return code
  | .ok phys => ext4ReadBlock fs phys buffer

/-- The block loop of `ext4_read_file_data` at iteration `index` with `bytesRead` bytes copied
and `remaining` iterations left: read the block, copy its part into the destination, stop when
`size` bytes are in. The result is the failing status, or the bytes copied. -/
def readBlocks (fs : Fs) (inode : Memory) (buffer startBlock startOffset size : Nat) :
    (index bytesRead remaining : Nat) → (dest : Memory) → Kernel (Except Int Nat × Memory)
  | _, bytesRead, 0, dest => return (.ok bytesRead, dest)
  | index, bytesRead, remaining + 1, dest => do
      let result ← ext4ReadFileBlock fs inode (wrap 64 (startBlock + index)) buffer
      if result < 0 then return (.error result, dest)
      let blockOffset := if index = 0 then startOffset else 0
      let toCopy := wrap 32 (fs.blockSize - blockOffset)
      let toCopy := if size < wrap 64 (bytesRead + toCopy) then wrap 32 (size - bytesRead) else toCopy
      let mem ← Kernel.memory
      let dest := dest.put bytesRead toCopy fun byte => mem (buffer + blockOffset + byte)
      let bytesRead := wrap 64 (bytesRead + toCopy)
      if size ≤ bytesRead then return (.ok bytesRead, dest)
      readBlocks fs inode buffer startBlock startOffset size (index + 1) bytesRead remaining dest

/-- `ext4_read_file_data`: the `int` it returns, and the caller's destination buffer. The size
is clipped at the end of the file with 64-bit sums, and the count of bytes read is returned as
an `int`. The destination is the buffer `vfs_read` is given, kept apart from the heap; its
bytes at and past the count returned are never written, so a buffer of `size` bytes holds all
the call stores. -/
def ext4ReadFileData (fs : Fs) (inode : Memory) (offset size : Nat) (dest : Memory) :
    Kernel (Int × Memory) := do
  if fileSize inode ≤ offset then return (0, dest)
  let size := if fileSize inode < wrap 64 (offset + size) then fileSize inode - offset else size
  match ← Kernel.kmalloc fs.blockSize with
  | none => return (-1, dest)
  | some buffer =>
      let startBlock ← Kernel.divide offset fs.blockSize
      let startOffset ← Kernel.remainder offset fs.blockSize
      let endPos := wrap 64 (offset + size)
      let endBlock ← Kernel.divide (wrap 64 (endPos + (2 ^ 64 - 1))) fs.blockSize
      let numBlocks := wrap 64 (endBlock + (2 ^ 64 - startBlock) + 1)
      let (result, dest) ← readBlocks fs inode buffer startBlock startOffset size 0 0 numBlocks dest
      Kernel.kfree (some buffer)
      match result with
      | .error code => return (code, dest)
      | .ok bytesRead => return (toInt32 bytesRead, dest)

end FreeCore.Ext4
