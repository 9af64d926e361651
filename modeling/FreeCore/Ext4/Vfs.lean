import FreeCore.Ext4.Mount

/-! # Reading through a file descriptor

`vfs_read` looks the descriptor up in `fd_table`, calls the node's `read` operation at the
descriptor's position and adds what that returns to the position. For an EXT4 node the
operation is `ext4_read`, which returns the `int` of `ext4_read_file_data` converted to
`size_t`. -/

namespace FreeCore.Ext4

/-- `MAX_OPEN_FILES`. -/
def maxOpenFiles : Nat := 256

/-- A `file_descriptor_t` open on an EXT4 node (its flags are not read by `vfs_read`). -/
structure FileDescriptor where
  node : Node
  position : Nat
  used : Bool

/-- `ext4_read(node, offset, size, buffer)`. -/
def ext4Read (node : Node) (offset size : Nat) (dest : Memory) : Kernel (Nat × Memory) := do
  let (result, dest) ← ext4ReadFileData node.fs node.rawInode offset size dest
  return (toSize result, dest)

/-- `vfs_read(fd, buffer, size)`: what it returns, the descriptor table afterwards and the
caller's buffer. -/
def vfsRead (table : Nat → FileDescriptor) (fd : Int) (dest : Memory) (size : Nat) :
    Kernel (Nat × (Nat → FileDescriptor) × Memory) := do
  if fd < 0 ∨ maxOpenFiles ≤ fd ∨ !(table fd.toNat).used then return (toSize (-1), table, dest)
  let descriptor := table fd.toNat
  let (bytesRead, dest) ← ext4Read descriptor.node descriptor.position size dest
  let table := Function.update table fd.toNat
    { descriptor with position := wrap 64 (descriptor.position + bytesRead) }
  return (bytesRead, table, dest)

/-- A failed read moves the descriptor. On a filesystem without the extents feature,
`ext4_read_file_data` returns `-1`; `ext4_read` converts it to `SIZE_MAX`, which `vfs_read`
returns and adds to the position. Here a one-byte file is read from position 0. -/
theorem vfsRead_failure_moves_position :
    ((vfsRead (fun _ => ⟨⟨0, 0, ⟨0, ⟨fun _ _ => (0, none)⟩, fun _ => 0, 0⟩,
        fun byte => if byte = 4 then 1 else 0, 12, vfsFile, 1⟩, 0, true⟩) 0 (fun _ => 0) 1).run
      (Heap.uninitialized fun _ => 0)).toOption.map
        (fun result => (result.1.1, (result.1.2.1 0).position)) = some (2 ^ 64 - 1, 2 ^ 64 - 1) := by
  decide

end FreeCore.Ext4
