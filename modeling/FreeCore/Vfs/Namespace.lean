import FreeCore.Vfs.Path
import FreeCore.Lib.Minstd

/-! # Mount points and path lookup

`root_node`, the mount table and the nodes' `mount_point` links of `vfs.c`, with `vfs_lookup`,
`vfs_mount` and `vfs_unmount`. The filesystems' node operations are parameters (`Filesystem`). -/

namespace FreeCore.Vfs

open FreeCore.Ext4 (CString vfsDirectory)
open FreeCore.Lib (strcmp strcmpLoop strcmpLoop_eq_zero_iff strcmpLoop_takeWhile)

/-- `VFS_MOUNTPOINT`: the type bit of a node with a filesystem mounted on it. -/
def vfsMountpoint : UInt32 := 0x08

/-- `MAX_MOUNTS`. -/
def maxMounts : Nat := 32

/-- The string a `char` buffer holds: its bytes before the first NUL. -/
def cString (buffer : List UInt8) : CString :=
  ⟨buffer.takeWhile (· ≠ 0), fun nul => by simpa using List.mem_takeWhile_imp nul⟩

/-- Which entries of a node's operation table are set (`node->ops && node->ops->op`), for the
operations `vfs.c` calls. -/
structure Ops where
  hasOpen : Bool
  hasClose : Bool
  hasRead : Bool
  hasWrite : Bool
  hasReaddir : Bool
  hasFinddir : Bool
  hasStat : Bool
  deriving DecidableEq, Repr

/-- The fields of a `struct vfs_node` that `vfs.c` reads or writes. -/
structure VfsNode where
  type : UInt32
  size : Nat
  mountPoint : Option Nat
  ops : Ops
  deriving DecidableEq, Repr

/-- `mount_point->mount_point = node; mount_point->type |= VFS_MOUNTPOINT;` -/
def VfsNode.link (node : VfsNode) (root : Nat) : VfsNode :=
  { node with mountPoint := some root, type := node.type ||| vfsMountpoint }

/-- `mount_point->mount_point = NULL; mount_point->type &= ~VFS_MOUNTPOINT;` -/
def VfsNode.unlink (node : VfsNode) : VfsNode :=
  { node with mountPoint := none, type := node.type &&& ~~~vfsMountpoint }

@[simp] theorem VfsNode.link_size (node : VfsNode) (root : Nat) : (node.link root).size = node.size :=
  rfl

@[simp] theorem VfsNode.unlink_size (node : VfsNode) : node.unlink.size = node.size := rfl

/-- Unlinking a directory that has no link changes nothing. -/
theorem VfsNode.unlink_of_directory {node : VfsNode} (directory : node.type.toNat = vfsDirectory)
    (unlinked : node.mountPoint = none) : node.unlink = node := by
  have two : node.type = 2 := UInt32.toNat.inj (directory.trans (by rfl))
  cases node with
  | mk type size mountPoint ops =>
      simp only at two unlinked
      subst two unlinked
      show VfsNode.mk (2 &&& ~~~vfsMountpoint) size none ops = _
      rw [show (2 : UInt32) &&& ~~~vfsMountpoint = 2 by decide]

/-- A linked node is no directory: its type has the `VFS_MOUNTPOINT` bit. -/
theorem VfsNode.link_not_directory {node : VfsNode} (directory : node.type.toNat = vfsDirectory)
    (root : Nat) : (node.link root).type.toNat ≠ vfsDirectory := by
  have two : node.type = 2 := UInt32.toNat.inj (directory.trans (by rfl))
  simp only [VfsNode.link, two]
  decide

/-- A `mount_point_t`. -/
structure MountPoint where
  path : List UInt8
  node : Nat
  used : Bool
  deriving DecidableEq, Repr

/-- A `file_descriptor_t`. -/
structure FileDescriptor where
  node : Nat
  flags : UInt32
  position : Nat
  used : Bool
  deriving DecidableEq, Repr

/-- The state of `vfs.c`: the nodes, `fd_table`, `mount_table` and `root_node`. -/
structure State where
  nodes : Nat → VfsNode
  fdTable : Nat → FileDescriptor
  mountTable : Nat → MountPoint
  rootNode : Option Nat

/-- `vfs_init()`: both tables cleared and no root. -/
def vfsInit (nodes : Nat → VfsNode) : State :=
  ⟨nodes, fun _ => ⟨0, 0, 0, false⟩, fun _ => ⟨[], 0, false⟩, none⟩

/-- What the filesystems' node operations return, as functions of their arguments:
`finddir(node, name)`, `open(node, flags)`, `close(node)`, `read` and `write` at
`(node, offset, size)`, `readdir(node, index)` and `stat(node)`. A function gives the same node
for the same name every time: the model assumes stable nodes, while `ext4_finddir` allocates a
new `vfs_node` on every call, so a mount link set on one node is not on the next one found. -/
structure Filesystem where
  finddir : Nat → List UInt8 → Option Nat
  openNode : Nat → Int → Int
  closeNode : Nat → Int
  read : Nat → Nat → Nat → Nat
  write : Nat → Nat → Nat → Nat
  readdir : Nat → Nat → Int
  stat : Nat → Int

/-- `strcmp(path, "/")` is `0` only for the path `"/"`. -/
theorem strcmp_slash_ne_zero {path : CString} (notSlash : path.bytes ≠ [slash]) :
    strcmp (some path.bytes) (some [slash]) ≠ 0 := fun zero =>
  notSlash ((strcmpLoop_eq_zero_iff _ _ path.noNul (by decide)).mp zero)

section Lookup

variable (fs : Filesystem)

/-- The loop of `vfs_lookup` over the tokens of `strtok_r(rest, "/", &rest)` from the node
`current`, with `fuel` calls left. -/
def lookupLoop (nodes : Nat → VfsNode) : (fuel : Nat) → (rest : Option (List UInt8)) →
    (current : Nat) → Option Nat
  | 0, _, current => some current
  | fuel + 1, rest, current =>
      match strtokR rest [slash] rest with
      | (none, _) => some current
      | (some token, rest) =>
          if (nodes current).type.toNat ≠ vfsDirectory then none
          else if !(nodes current).ops.hasFinddir then none
          else match fs.finddir current token with
            | none => none
            | some next => lookupLoop nodes fuel rest ((nodes next).mountPoint.getD next)

/-- `vfs_lookup(path)`. The walk starts after a leading `/`; `strtok_r` consumes a byte on each
call but the last, so `strlen + 1` calls finish it. -/
def vfsLookup (v : State) : (path : Option CString) → Option Nat
  | none => none
  | some path =>
      match v.rootNode with
      | none => none
      | some root =>
          let normalized := vfsNormalizePath path
          if normalized.1 < 0 then none
          else if strcmp (some normalized.2) (some [slash]) = 0 then some root
          else
            let current :=
              if normalized.2.head? = some slash then normalized.2.tail else normalized.2
            lookupLoop fs v.nodes (current.length + 1) (some current) root

/-- `vfs_readdir(path, index, dirent)`: its status. -/
def vfsReaddir (v : State) (path : Option CString) (index : Nat) : Int :=
  match vfsLookup fs v path with
  | none => -1
  | some node =>
      if (v.nodes node).type.toNat ≠ vfsDirectory then -1
      else if !(v.nodes node).ops.hasReaddir then -1
      else fs.readdir node index

/-- `vfs_stat(path, stat)`: its status. -/
def vfsStat (v : State) (path : Option CString) : Int :=
  match vfsLookup fs v path with
  | none => -1
  | some node => if !(v.nodes node).ops.hasStat then -1 else fs.stat node

/-- A walk that reaches a node which is no directory ends there or fails. -/
theorem lookupLoop_of_not_directory (nodes : Nat → VfsNode) (fuel : Nat)
    (rest : Option (List UInt8)) {current : Nat}
    (notDirectory : (nodes current).type.toNat ≠ vfsDirectory) :
    lookupLoop fs nodes fuel rest current = none ∨
      lookupLoop fs nodes fuel rest current = some current := by
  cases fuel with
  | zero => exact .inr rfl
  | succ fuel =>
      simp only [lookupLoop]
      split
      · exact .inr rfl
      · exact .inl (if_pos notDirectory)

/-- A lookup reads the nodes and the root, not the tables. -/
theorem vfsLookup_congr {v w : State} (nodes : v.nodes = w.nodes) (root : v.rootNode = w.rootNode) :
    vfsLookup fs v = vfsLookup fs w := by
  funext path
  cases path <;> simp only [vfsLookup, nodes, root]

theorem vfsLookup_of_no_root {v : State} (noRoot : v.rootNode = none) (path : Option CString) :
    vfsLookup fs v path = none := by
  cases path <;> simp only [vfsLookup, noRoot]

/-- A path that normalizes to `"/"` resolves to the root. -/
theorem vfsLookup_of_normalized_root {v : State} {root : Nat} (rootEq : v.rootNode = some root)
    {path : CString} (normal : vfsNormalizePath path = (0, [slash])) :
    vfsLookup fs v (some path) = some root := by
  simp only [vfsLookup, rootEq, normal]
  rfl

/-- When the root is no directory, every path resolves to the root or to nothing. -/
theorem vfsLookup_of_root_not_directory {v : State} {root : Nat} (rootEq : v.rootNode = some root)
    (notDirectory : (v.nodes root).type.toNat ≠ vfsDirectory) (path : Option CString) :
    vfsLookup fs v path = none ∨ vfsLookup fs v path = some root := by
  cases path with
  | none => exact .inl rfl
  | some path =>
      simp only [vfsLookup, rootEq]
      split_ifs
      · exact .inl rfl
      · exact .inr rfl
      all_goals exact lookupLoop_of_not_directory fs _ _ _ notDirectory

/-- When the root is no directory, `vfs_readdir` fails on every path. -/
theorem vfsReaddir_of_root_not_directory {v : State} {root : Nat} (rootEq : v.rootNode = some root)
    (notDirectory : (v.nodes root).type.toNat ≠ vfsDirectory) (path : Option CString)
    (index : Nat) : vfsReaddir fs v path index = -1 := by
  unfold vfsReaddir
  rcases vfsLookup_of_root_not_directory fs rootEq notDirectory path with none | found
  · rw [none]
  · rw [found]
    exact if_pos notDirectory

end Lookup

/-! ## Mounting -/

/-- The loop of `vfs_mount` over `mount_table`: the first free entry. -/
def freeMountSlot (table : Nat → MountPoint) : Option Nat :=
  (List.range maxMounts).find? fun i => !(table i).used

/-- The loop of `vfs_unmount` over `mount_table`: the first used entry whose path is `path`. -/
def mountSlotOf (table : Nat → MountPoint) (path : List UInt8) : Option Nat :=
  (List.range maxMounts).find? fun i => (table i).used && strcmp (some (table i).path) (some path) == 0

theorem lt_of_freeMountSlot {table : Nat → MountPoint} {i : Nat}
    (slot : freeMountSlot table = some i) : i < maxMounts :=
  List.mem_range.mp (List.mem_of_find?_eq_some slot)

/-- The unmount loop finds an entry when some entry holds the path. -/
theorem mountSlotOf_isSome {table : Nat → MountPoint} {path : List UInt8} {i : Nat}
    (lt : i < maxMounts) (used : (table i).used) (same : strcmp (some (table i).path) (some path) = 0) :
    (mountSlotOf table path).isSome := by
  rw [mountSlotOf, List.find?_isSome]
  exact ⟨i, List.mem_range.mpr lt, by simp [used, same]⟩

variable (fs : Filesystem)

/-- `vfs_mount(path, node)`: its status and the state it leaves. -/
def vfsMount (v : State) (path : Option CString) (node : Option Nat) : Int × State :=
  match node, path with
  | none, _ => (-1, v)
  | some node, none => (0, { v with rootNode := some node })
  | some node, some path =>
      if strcmp (some path.bytes) (some [slash]) = 0 then (0, { v with rootNode := some node })
      else if v.rootNode = none then (-1, v)
      else
        let normalized := vfsNormalizePath path
        if normalized.1 < 0 then (-1, v)
        else match vfsLookup fs v (some (cString normalized.2)) with
          | none => (-1, v)
          | some mountPoint =>
              if (v.nodes mountPoint).type.toNat ≠ vfsDirectory then (-1, v)
              else match freeMountSlot v.mountTable with
                | none => (-1, v)
                | some i =>
                    (0, { v with
                      mountTable :=
                        Function.update v.mountTable i ⟨(cString normalized.2).bytes, node, true⟩
                      nodes :=
                        Function.update v.nodes mountPoint ((v.nodes mountPoint).link node) })

/-- `vfs_unmount(path)`: its status and the state it leaves. -/
def vfsUnmount (v : State) : (path : Option CString) → Int × State
  | none => (-1, v)
  | some path =>
      if strcmp (some path.bytes) (some [slash]) = 0 then (-1, v)
      else
        let normalized := vfsNormalizePath path
        if normalized.1 < 0 then (-1, v)
        else match mountSlotOf v.mountTable normalized.2 with
          | none => (-1, v)
          | some i =>
              match vfsLookup fs v (some (cString normalized.2)) with
              | none => (-1, v)
              | some mountPoint =>
                  (0, { v with
                    nodes := Function.update v.nodes mountPoint (v.nodes mountPoint).unlink
                    mountTable := Function.update v.mountTable i { v.mountTable i with used := false } })

/-- What a successful `vfs_mount` on a path other than `"/"` did: it resolved the normalized
path to a directory, took the first free table entry for it and linked the directory. -/
theorem vfsMount_of_ok {v : State} {path : CString} {node : Nat} {after : State}
    (notSlash : path.bytes ≠ [slash]) (mounted : vfsMount fs v (some path) (some node) = (0, after)) :
    ∃ mountPoint i, ¬(vfsNormalizePath path).1 < 0 ∧
      vfsLookup fs v (some (cString (vfsNormalizePath path).2)) = some mountPoint ∧
      (v.nodes mountPoint).type.toNat = vfsDirectory ∧ freeMountSlot v.mountTable = some i ∧
      after = { v with
        mountTable :=
          Function.update v.mountTable i ⟨(cString (vfsNormalizePath path).2).bytes, node, true⟩
        nodes := Function.update v.nodes mountPoint ((v.nodes mountPoint).link node) } := by
  simp only [vfsMount, if_neg (strcmp_slash_ne_zero notSlash)] at mounted
  split_ifs at mounted with noRoot failed
  · cases mounted
  · cases mounted
  cases found : vfsLookup fs v (some (cString (vfsNormalizePath path).2)) with
  | none => simp [found] at mounted
  | some mountPoint =>
      simp only [found] at mounted
      split_ifs at mounted with notDirectory
      · cases mounted
      cases slot : freeMountSlot v.mountTable with
      | none => simp [slot] at mounted
      | some i =>
          simp only [slot, Prod.mk.injEq] at mounted
          exact ⟨mountPoint, i, failed, rfl, not_not.mp notDirectory, rfl, mounted.2.symm⟩

/-- What a `vfs_unmount` that finds its entry and resolves its path does: it clears the entry and
unlinks the node the path resolves to. -/
theorem vfsUnmount_of_found {v : State} {path : CString} {i mountPoint : Nat}
    (notSlash : path.bytes ≠ [slash]) (normal : ¬(vfsNormalizePath path).1 < 0)
    (slot : mountSlotOf v.mountTable (vfsNormalizePath path).2 = some i)
    (found : vfsLookup fs v (some (cString (vfsNormalizePath path).2)) = some mountPoint) :
    vfsUnmount fs v (some path) = (0, { v with
      nodes := Function.update v.nodes mountPoint (v.nodes mountPoint).unlink
      mountTable := Function.update v.mountTable i { v.mountTable i with used := false } }) := by
  simp only [vfsUnmount, if_neg (strcmp_slash_ne_zero notSlash), if_neg normal, slot, found]

/-- Unmounting a filesystem whose mount took effect leaves it mounted. After `vfs_mount(path,
node)` the path resolves to the mounted root `node`, so `vfs_unmount(path)` unlinks `node`, a
directory with no link of its own, instead of the mount point: it returns `0`, clears the table
entry, and leaves every node, so every path resolves as it did with the filesystem mounted. -/
theorem vfsUnmount_keeps_mount (v : State) (path : CString) (node : Nat) (after : State)
    (notSlash : path.bytes ≠ [slash])
    (fresh : (v.nodes node).type.toNat = vfsDirectory ∧ (v.nodes node).mountPoint = none)
    (mounted : vfsMount fs v (some path) (some node) = (0, after))
    (reaches : vfsLookup fs after (some (cString (vfsNormalizePath path).2)) = some node)
    (apart : vfsLookup fs v (some (cString (vfsNormalizePath path).2)) ≠ some node) :
    (vfsUnmount fs after (some path)).1 = 0 ∧ (vfsUnmount fs after (some path)).2.nodes = after.nodes ∧
      vfsLookup fs (vfsUnmount fs after (some path)).2 = vfsLookup fs after := by
  obtain ⟨mountPoint, i, normal, found, -, slot, rfl⟩ := vfsMount_of_ok fs notSlash mounted
  have distinct : node ≠ mountPoint := fun same => apart (same ▸ found)
  have recorded : (mountSlotOf (Function.update v.mountTable i
      ⟨(cString (vfsNormalizePath path).2).bytes, node, true⟩) (vfsNormalizePath path).2).isSome :=
    mountSlotOf_isSome (lt_of_freeMountSlot slot) (by simp)
      (by rw [Function.update_same]; exact strcmpLoop_takeWhile _)
  obtain ⟨j, entry⟩ := Option.isSome_iff_exists.mp recorded
  have unchanged : (Function.update v.nodes mountPoint ((v.nodes mountPoint).link node)) node =
      v.nodes node := Function.update_noteq distinct _ _
  have nodesEq : Function.update (Function.update v.nodes mountPoint ((v.nodes mountPoint).link node))
      node ((Function.update v.nodes mountPoint ((v.nodes mountPoint).link node)) node).unlink =
      Function.update v.nodes mountPoint ((v.nodes mountPoint).link node) := by
    rw [unchanged, VfsNode.unlink_of_directory fresh.1 fresh.2, ← unchanged, Function.update_eq_self]
  rw [vfsUnmount_of_found fs notSlash normal entry reaches]
  exact ⟨rfl, nodesEq, vfsLookup_congr fs nodesEq rfl⟩

/-- The root `0` has a directory `a`, the node `1`; the filesystem rooted at node `2` is mounted
on `/a` and then unmounted. -/
theorem vfsUnmount_keeps_mount_on_slash_a :
    let fs : Filesystem := ⟨fun node name => if node = 0 ∧ name = [97] then some 1 else none,
      fun _ _ => 0, fun _ => 0, fun _ _ _ => 0, fun _ _ _ => 0, fun _ _ => 0, fun _ => 0⟩
    let v : State :=
      { vfsInit fun _ => ⟨2, 0, none, ⟨true, true, true, true, true, true, true⟩⟩ with rootNode := some 0 }
    let path := cString [47, 97]
    let after := (vfsMount fs v (some path) (some 2)).2
    (vfsUnmount fs after (some path)).1 = 0 ∧ (vfsUnmount fs after (some path)).2.nodes = after.nodes ∧
      vfsLookup fs (vfsUnmount fs after (some path)).2 = vfsLookup fs after :=
  vfsUnmount_keeps_mount _ _ _ _ _ (by decide) (by decide) (Prod.ext (by decide) rfl) (by decide)
    (by decide)

/-- A path that normalizes to `"/"` without being `"/"` mounts on the root node, which is then no
directory: no path resolves below the root any more, and `vfs_readdir` fails on every path. -/
theorem vfsMount_normalized_root_blocks (v : State) (path : CString) (node : Nat) (after : State)
    (notSlash : path.bytes ≠ [slash]) (toRoot : (vfsNormalizePath path).2 = [slash])
    (mounted : vfsMount fs v (some path) (some node) = (0, after)) :
    after.rootNode = v.rootNode ∧
      (∀ path, vfsLookup fs after path = none ∨ vfsLookup fs after path = v.rootNode) ∧
      ∀ path index, vfsReaddir fs after path index = -1 := by
  obtain ⟨mountPoint, i, -, found, directory, -, rfl⟩ := vfsMount_of_ok fs notSlash mounted
  rw [toRoot] at found
  cases rootEq : v.rootNode with
  | none => simp [vfsLookup_of_no_root fs rootEq] at found
  | some root =>
      have same : mountPoint = root := by
        rw [vfsLookup_of_normalized_root fs rootEq (by decide)] at found
        exact (Option.some.inj found).symm
      subst same
      have blocked : ((Function.update v.nodes mountPoint ((v.nodes mountPoint).link node))
          mountPoint).type.toNat ≠ vfsDirectory := by
        rw [Function.update_same]
        exact VfsNode.link_not_directory directory node
      exact ⟨rfl, vfsLookup_of_root_not_directory fs rfl blocked,
        vfsReaddir_of_root_not_directory fs rfl blocked⟩

/-- Mounting the filesystem rooted at node `2` on `/.` over the tree of
`vfsUnmount_keeps_mount_on_slash_a`. -/
theorem vfsMount_on_slash_dot_blocks :
    let fs : Filesystem := ⟨fun node name => if node = 0 ∧ name = [97] then some 1 else none,
      fun _ _ => 0, fun _ => 0, fun _ _ _ => 0, fun _ _ _ => 0, fun _ _ => 0, fun _ => 0⟩
    let v : State :=
      { vfsInit fun _ => ⟨2, 0, none, ⟨true, true, true, true, true, true, true⟩⟩ with rootNode := some 0 }
    let path := cString [47, 46]
    let after := (vfsMount fs v (some path) (some 2)).2
    after.rootNode = v.rootNode ∧
      (∀ path, vfsLookup fs after path = none ∨ vfsLookup fs after path = v.rootNode) ∧
      ∀ path index, vfsReaddir fs after path index = -1 :=
  vfsMount_normalized_root_blocks _ _ _ _ _ (by decide) (by decide) (Prod.ext (by decide) rfl)

end FreeCore.Vfs
