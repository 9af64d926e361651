import FreeCore.Ext4.Read

/-! # Directories and VFS nodes

The record scans of `ext4_find_dir_entry` and `ext4_readdir`, structural recursions on
`block_size` steps of fuel, and the node `ext4_finddir` builds with `ext4_create_vfs_node`. -/

namespace FreeCore.Ext4

/-! ## C strings -/

/-- A C string: its bytes before the terminating NUL. -/
structure CString where
  bytes : List UInt8
  noNul : (0 : UInt8) ∉ bytes

/-- The byte at `index`: the terminating NUL at `strlen`, and whatever follows it beyond. -/
def CString.get (name : CString) (index : Nat) : UInt8 := name.bytes.getD index 0

/-- `strlen(name)`. -/
def strlen (name : CString) : Nat := name.bytes.length

/-- `strncmp(s1, s2, n)` of `minstd.c` from position `index`: compare while more than one byte
is left and neither byte is NUL, stopping at the first difference; the result is the
difference of the bytes where it stopped. -/
def strncmpFrom (s1 s2 : Nat → UInt8) (index : Nat) : (n : Nat) → Int
  | 0 => 0
  | 1 => (s1 index).toNat - (s2 index).toNat
  | n + 2 =>
      if s1 index ≠ 0 ∧ s2 index ≠ 0 ∧ s1 index = s2 index then strncmpFrom s1 s2 (index + 1) (n + 1)
      else (s1 index).toNat - (s2 index).toNat

/-- `strncmp(s1, s2, n)`. -/
def strncmp (s1 s2 : Nat → UInt8) (n : Nat) : Int := strncmpFrom s1 s2 0 n

/-! ## Node types -/

/-- `VFS_FILE`, `VFS_DIRECTORY`, `VFS_CHARDEVICE`, `VFS_BLOCKDEVICE`, `VFS_PIPE`, `VFS_SYMLINK`
and `VFS_SOCKET`. -/
def vfsFile : Nat := 0x01
def vfsDirectory : Nat := 0x02
def vfsCharDevice : Nat := 0x03
def vfsBlockDevice : Nat := 0x04
def vfsPipe : Nat := 0x05
def vfsSymlink : Nat := 0x06
def vfsSocket : Nat := 0x09

/-- The node type `ext4_create_vfs_node` derives from `i_mode` (`S_ISDIR` and the rest test
`mode & S_IFMT`). -/
def vfsTypeOfMode (mode : Nat) : Nat :=
  if mode &&& 0o170000 = 0o040000 then vfsDirectory
  else if mode &&& 0o170000 = 0o100000 then vfsFile
  else if mode &&& 0o170000 = 0o120000 then vfsSymlink
  else if mode &&& 0o170000 = 0o020000 then vfsCharDevice
  else if mode &&& 0o170000 = 0o060000 then vfsBlockDevice
  else if mode &&& 0o170000 = 0o010000 then vfsPipe
  else if mode &&& 0o170000 = 0o140000 then vfsSocket
  else vfsFile

/-- The node type `ext4_readdir` derives from a record's `file_type` (`EXT4_FT_*`). -/
def vfsTypeOfFileType : Nat → Nat
  | 1 => vfsFile
  | 2 => vfsDirectory
  | 7 => vfsSymlink
  | 3 => vfsCharDevice
  | 4 => vfsBlockDevice
  | 5 => vfsPipe
  | 6 => vfsSocket
  | _ => vfsFile

/-- What `ext4_create_vfs_node` builds: the VFS node at `address`, its inode information at
`info`, and the fields they hold. -/
structure Node where
  address : Nat
  info : Nat
  fs : Fs
  rawInode : Memory
  inodeNum : Nat
  type : Nat
  size : Nat

/-- A `struct vfs_dirent` as `ext4_readdir` fills it. -/
structure Dirent where
  inode : Nat
  type : Nat
  name : List UInt8

/-! ## Scanning one directory block -/

section Block

variable (mem : Memory) (buffer blockSize : Nat)

/-- The record scan of `ext4_find_dir_entry` over the block at `buffer` from `offset`: the inode
of the first live record whose name matches. -/
def findInBlock (name : CString) : (fuel offset : Nat) → Option Nat
  | 0, _ => none
  | fuel + 1, offset =>
      if offset < blockSize then
        if deRecLen mem (buffer + offset) = 0 then none
        else if deInode mem (buffer + offset) ≠ 0 ∧ deNameLen mem (buffer + offset) = strlen name ∧
            strncmp (fun byte => mem (deName (buffer + offset) + byte)) name.get
              (deNameLen mem (buffer + offset)) = 0 then
          some (deInode mem (buffer + offset))
        else findInBlock name fuel (wrap 32 (offset + deRecLen mem (buffer + offset)))
      else none

/-- The dirent `ext4_readdir` fills from the record at `entry`; the name is cut at
`VFS_NAME_MAX` bytes. -/
def direntOf (entry : Nat) : Dirent where
  inode := deInode mem entry
  type := vfsTypeOfFileType (deFileType mem entry)
  name := (List.range (min (deNameLen mem entry) vfsNameMax)).map fun byte => mem (deName entry + byte)

/-- The record scan of `ext4_readdir` over the block at `buffer` from `offset`, with `entryIdx`
live records counted before it: the dirent of live record number `index`, or the count at the
end of the block. -/
def readdirInBlock (index : Nat) : (fuel offset entryIdx : Nat) → Dirent ⊕ Nat
  | 0, _, entryIdx => .inr entryIdx
  | fuel + 1, offset, entryIdx =>
      if offset < blockSize then
        if deRecLen mem (buffer + offset) = 0 then .inr entryIdx
        else if deInode mem (buffer + offset) ≠ 0 then
          if entryIdx = index then .inl (direntOf mem (buffer + offset))
          else readdirInBlock index fuel (wrap 32 (offset + deRecLen mem (buffer + offset)))
            (wrap 32 (entryIdx + 1))
        else readdirInBlock index fuel (wrap 32 (offset + deRecLen mem (buffer + offset))) entryIdx
      else .inr entryIdx

end Block

/-! ## The directory functions -/

/-- The block loop of `ext4_find_dir_entry` from block `blockIdx`, with `remaining` blocks
left. -/
def findInBlocks (fs : Fs) (dirInode : Memory) (name : CString) (buffer : Nat) :
    (blockIdx remaining : Nat) → Kernel (Except Int Nat)
  | _, 0 => return .error (-1)
  | blockIdx, remaining + 1 => do
      let result ← ext4ReadFileBlock fs dirInode blockIdx buffer
      if result < 0 then return .error result
      let mem ← Kernel.memory
      match findInBlock mem buffer fs.blockSize name fs.blockSize 0 with
      | some inodeNum => return .ok inodeNum
      | none => findInBlocks fs dirInode name buffer (blockIdx + 1) remaining

/-- `ext4_find_dir_entry`: the inode number stored for `name` in the directory. -/
def ext4FindDirEntry (fs : Fs) (dirInode : Memory) (name : CString) : Kernel (Except Int Nat) := do
  match ← Kernel.kmalloc fs.blockSize with
  | none => return .error (-1)
  | some buffer =>
      let numBlocks ← Kernel.divide (wrap 64 (fileSize dirInode + fs.blockSize + (2 ^ 64 - 1)))
        fs.blockSize
      let result ← findInBlocks fs dirInode name buffer 0 numBlocks
      Kernel.kfree (some buffer)
      return result

/-- The block loop of `ext4_readdir` from block `blockIdx` with `entryIdx` live records counted,
and `remaining` blocks left. -/
def readdirBlocks (fs : Fs) (dirInode : Memory) (buffer index : Nat) :
    (blockIdx entryIdx remaining : Nat) → Kernel (Except Int Dirent)
  | _, _, 0 => return .error (-1)
  | blockIdx, entryIdx, remaining + 1 => do
      let result ← ext4ReadFileBlock fs dirInode blockIdx buffer
      if result < 0 then return .error result
      let mem ← Kernel.memory
      match readdirInBlock mem buffer fs.blockSize index fs.blockSize 0 entryIdx with
      | .inl dirent => return .ok dirent
      | .inr entryIdx => readdirBlocks fs dirInode buffer index (blockIdx + 1) entryIdx remaining

/-- `ext4_readdir`: the dirent of live record number `index` of a directory node. -/
def ext4Readdir (node : Node) (index : Nat) : Kernel (Except Int Dirent) := do
  if node.type ≠ vfsDirectory then return .error (-1)
  match ← Kernel.kmalloc node.fs.blockSize with
  | none => return .error (-1)
  | some buffer =>
      let numBlocks ← Kernel.divide
        (wrap 64 (fileSize node.rawInode + node.fs.blockSize + (2 ^ 64 - 1))) node.fs.blockSize
      let result ← readdirBlocks node.fs node.rawInode buffer index 0 0 numBlocks
      Kernel.kfree (some buffer)
      return result

/-- `ext4_create_vfs_node`: read the inode into the local `ext4_inode_t inode` (uninitialised,
so its bytes `stack` are a parameter), allocate the inode information and fill the node at
`address`. `ext4_read_inode` returns `0` after its `memcpy` of `s_inode_size` bytes through
`&inode` and a negative status on its other exits; past `sizeof(ext4_inode_t)` that copy runs
over the rest of this function's frame. -/
def ext4CreateVfsNode (fs : Fs) (inodeNum address : Nat) (stack : Memory) :
    Kernel (Except Int Node) := do
  let (result, inode) ← ext4ReadInode fs inodeNum stack
  if 0 ≤ result ∧ inodeStructSize < sInodeSize fs.sb then throw .undefined
  if result < 0 then return .error result
  match ← Kernel.kmalloc inodeInfoSize with
  | none => return .error (-1)
  | some info =>
      Kernel.put info inodeStructSize inode
      Kernel.memset address 0 vfsNodeSize
      return .ok ⟨address, info, fs, inode, inodeNum, vfsTypeOfMode (iMode inode), fileSize inode⟩

end FreeCore.Ext4
