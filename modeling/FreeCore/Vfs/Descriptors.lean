import FreeCore.Vfs.Namespace
import FreeCore.Ext4.Vfs

/-! # File descriptors

`fd_table` with `vfs_open`, `vfs_read`, `vfs_write` and `vfs_lseek`; over every run from
`vfs_init`, a read-only descriptor stays within its node (`run_keeps_readonly_within_end`). -/

namespace FreeCore.Vfs

open FreeCore.Ext4 (CString maxOpenFiles toSize wrap)

/-- `VFS_O_WRONLY`. -/
def vfsOWronly : UInt32 := 0x0001

/-- `VFS_O_RDWR`. -/
def vfsORdwr : UInt32 := 0x0002

/-- `SEEK_SET`. -/
def seekSet : Int := 0

/-- `SEEK_CUR`. -/
def seekCur : Int := 1

/-- `SEEK_END`. -/
def seekEnd : Int := 2

/-- `!(flags & VFS_O_WRONLY || flags & VFS_O_RDWR)`: the descriptor was opened for reading
only. -/
def readOnly (flags : UInt32) : Bool :=
  flags &&& vfsOWronly == 0 && flags &&& vfsORdwr == 0

/-- The check each descriptor call of `vfs.c` starts with,
`fd < 0 || fd >= MAX_OPEN_FILES || !fd_table[fd].used`: the entry it lets through. -/
def descriptorAt (v : State) (fd : Int) : Option FileDescriptor :=
  if fd < 0 ∨ (maxOpenFiles : Int) ≤ fd ∨ !(v.fdTable fd.toNat).used then none
  else some (v.fdTable fd.toNat)

theorem descriptorAt_eq_some {v : State} {fd : Int} {d : FileDescriptor}
    (found : descriptorAt v fd = some d) : v.fdTable fd.toNat = d ∧ d.used := by
  unfold descriptorAt at found
  split_ifs at found with invalid
  cases found
  simp only [not_or, Bool.not_eq_true', Bool.not_eq_false] at invalid
  exact ⟨rfl, invalid.2.2⟩

/-- The loop of `vfs_open` over `fd_table`: the first free descriptor. -/
def freeDescriptor (table : Nat → FileDescriptor) : Option Nat :=
  (List.range maxOpenFiles).find? fun fd => !(table fd).used

/-- The `switch (whence)` of `vfs_lseek`: the new position, in `uint64_t` arithmetic. -/
def seekTarget (position size : Nat) (offset whence : Int) : Option Nat :=
  if whence = seekSet then some (toSize offset)
  else if whence = seekCur then some (toSize (position + offset))
  else if whence = seekEnd then some (toSize (size + offset))
  else none

variable (fs : Filesystem)

/-- `vfs_open(path, flags)`: the descriptor or status it returns and the state it leaves. When no
descriptor is free it calls the node's `close`, whose result it drops. -/
def vfsOpen (v : State) (path : Option CString) (flags : Int) : Int × State :=
  match vfsLookup fs v path with
  | none => (-1, v)
  | some node =>
      if !(v.nodes node).ops.hasOpen then (-1, v)
      else if fs.openNode node flags < 0 then (fs.openNode node flags, v)
      else match freeDescriptor v.fdTable with
        | none => (-1, v)
        | some fd =>
            (fd, { v with fdTable :=
              Function.update v.fdTable fd ⟨node, UInt32.ofNat (toSize flags), 0, true⟩ })

/-- `vfs_close(fd)`: its status and the state it leaves. -/
def vfsClose (v : State) (fd : Int) : Int × State :=
  match descriptorAt v fd with
  | none => (-1, v)
  | some d =>
      if (v.nodes d.node).ops.hasClose ∧ fs.closeNode d.node < 0 then (fs.closeNode d.node, v)
      else (0, { v with fdTable := Function.update v.fdTable fd.toNat { d with used := false } })

/-- The body `vfs_read` and `vfs_write` share: the operation `op`, present when `has` says so, at
the descriptor's position, which then moves by what the operation returns. -/
def transfer (has : Ops → Bool) (op : Nat → Nat → Nat → Nat) (v : State) (fd : Int)
    (size : Nat) : Nat × State :=
  match descriptorAt v fd with
  | none => (toSize (-1), v)
  | some d =>
      if !has (v.nodes d.node).ops then (toSize (-1), v)
      else
        let moved := op d.node d.position size
        (moved, { v with fdTable :=
          Function.update v.fdTable fd.toNat { d with position := wrap 64 (d.position + moved) } })

/-- `vfs_read(fd, buffer, size)`: what it returns and the state it leaves. For an EXT4 node and
its heap, this is `Ext4.vfsRead` with the operation `ext4_read`. -/
def vfsRead (v : State) (fd : Int) (size : Nat) : Nat × State :=
  transfer Ops.hasRead fs.read v fd size

/-- `vfs_write(fd, buffer, size)`: what it returns and the state it leaves. -/
def vfsWrite (v : State) (fd : Int) (size : Nat) : Nat × State :=
  transfer Ops.hasWrite fs.write v fd size

/-- `vfs_lseek(fd, offset, whence)`: what it returns and the state it leaves. -/
def vfsLseek (v : State) (fd offset whence : Int) : Nat × State :=
  match descriptorAt v fd with
  | none => (toSize (-1), v)
  | some d =>
      match seekTarget d.position (v.nodes d.node).size offset whence with
      | none => (toSize (-1), v)
      | some newPosition =>
          if (v.nodes d.node).size < newPosition ∧ readOnly d.flags then (toSize (-1), v)
          else
            (newPosition, { v with
              fdTable := Function.update v.fdTable fd.toNat { d with position := newPosition } })

/-- `vfs_fstat(fd, stat)`: its status. -/
def vfsFstat (v : State) (fd : Int) : Int :=
  match descriptorAt v fd with
  | none => -1
  | some d => if !(v.nodes d.node).ops.hasStat then -1 else fs.stat d.node

/-- The calls into `vfs.c` that change its state. -/
inductive Call
  | mount (path : Option CString) (node : Option Nat)
  | unmount (path : Option CString)
  | openFile (path : Option CString) (flags : Int)
  | close (fd : Int)
  | read (fd : Int) (size : Nat)
  | write (fd : Int) (size : Nat)
  | lseek (fd offset whence : Int)

/-- The state a call leaves. -/
def State.step (v : State) : Call → State
  | .mount path node => (vfsMount fs v path node).2
  | .unmount path => (vfsUnmount fs v path).2
  | .openFile path flags => (vfsOpen fs v path flags).2
  | .close fd => (vfsClose fs v fd).2
  | .read fd size => (vfsRead fs v fd size).2
  | .write fd size => (vfsWrite fs v fd size).2
  | .lseek fd offset whence => (vfsLseek v fd offset whence).2

/-- The state a sequence of calls leaves. -/
def State.run (v : State) : List Call → State
  | [] => v
  | call :: calls => (v.step fs call).run calls

/-! ## Read-only descriptors stay within their files -/

/-- Every descriptor in use that was opened read-only is at or before the end of its node. -/
def WithinEnd (v : State) : Prop :=
  ∀ fd, (v.fdTable fd).used → readOnly (v.fdTable fd).flags →
    (v.fdTable fd).position ≤ (v.nodes (v.fdTable fd).node).size

/-- The filesystem's `read` and `write` at an offset within a node of size `size node` return at
most the bytes left before its end. -/
def Filesystem.Within (size : Nat → Nat) : Prop :=
  ∀ node offset count, offset ≤ size node →
    fs.read node offset count ≤ size node - offset ∧ fs.write node offset count ≤ size node - offset

/-- A change of nodes that keeps their sizes and the descriptor table keeps the invariant. -/
theorem WithinEnd.of_sizes {v w : State} (within : WithinEnd v) (table : w.fdTable = v.fdTable)
    (sizes : ∀ n, (w.nodes n).size = (v.nodes n).size) : WithinEnd w := by
  intro fd
  rw [table, sizes]
  exact within fd

/-- Writing one descriptor entry that satisfies the invariant keeps it. -/
theorem WithinEnd.update {v : State} (within : WithinEnd v) (fd : Nat) {entry : FileDescriptor}
    (good : entry.used → readOnly entry.flags → entry.position ≤ (v.nodes entry.node).size) :
    WithinEnd { v with fdTable := Function.update v.fdTable fd entry } := by
  intro other
  by_cases same : other = fd
  · subst same
    simpa using good
  · simpa [Function.update_noteq same] using within other

theorem size_update {nodes : Nat → VfsNode} {m : Nat} {node : VfsNode}
    (same : node.size = (nodes m).size) (n : Nat) :
    (Function.update nodes m node n).size = (nodes n).size := by
  by_cases here : n = m
  · subst here
    simpa using same
  · rw [Function.update_noteq here]

theorem vfsMount_keeps_sizes (v : State) (path : Option CString) (node : Option Nat) :
    (vfsMount fs v path node).2.fdTable = v.fdTable ∧
      ∀ n, ((vfsMount fs v path node).2.nodes n).size = (v.nodes n).size := by
  unfold vfsMount
  dsimp only
  repeat' split
  all_goals first
    | exact ⟨rfl, fun _ => rfl⟩
    | exact ⟨rfl, size_update (VfsNode.link_size _ _)⟩

theorem vfsUnmount_keeps_sizes (v : State) (path : Option CString) :
    (vfsUnmount fs v path).2.fdTable = v.fdTable ∧
      ∀ n, ((vfsUnmount fs v path).2.nodes n).size = (v.nodes n).size := by
  unfold vfsUnmount
  dsimp only
  repeat' split
  all_goals first
    | exact ⟨rfl, fun _ => rfl⟩
    | exact ⟨rfl, size_update (VfsNode.unlink_size _)⟩

@[simp] theorem vfsOpen_nodes (v : State) (path : Option CString) (flags : Int) :
    (vfsOpen fs v path flags).2.nodes = v.nodes := by
  unfold vfsOpen
  repeat' split
  all_goals rfl

@[simp] theorem vfsClose_nodes (v : State) (fd : Int) : (vfsClose fs v fd).2.nodes = v.nodes := by
  unfold vfsClose
  repeat' split
  all_goals rfl

@[simp] theorem transfer_nodes (has : Ops → Bool) (op : Nat → Nat → Nat → Nat) (v : State)
    (fd : Int) (size : Nat) : (transfer has op v fd size).2.nodes = v.nodes := by
  unfold transfer
  repeat' split
  all_goals rfl

@[simp] theorem vfsLseek_nodes (v : State) (fd offset whence : Int) :
    (vfsLseek v fd offset whence).2.nodes = v.nodes := by
  unfold vfsLseek
  repeat' split
  all_goals rfl

theorem WithinEnd.vfsOpen {v : State} (within : WithinEnd v) (path : Option CString)
    (flags : Int) : WithinEnd (vfsOpen fs v path flags).2 := by
  unfold FreeCore.Vfs.vfsOpen
  repeat' split
  all_goals first
    | exact within
    | exact within.update _ fun _ _ => Nat.zero_le _

theorem WithinEnd.vfsClose {v : State} (within : WithinEnd v) (fd : Int) :
    WithinEnd (vfsClose fs v fd).2 := by
  unfold FreeCore.Vfs.vfsClose
  repeat' split
  all_goals first
    | exact within
    | exact within.update _ fun unused => absurd unused Bool.false_ne_true

theorem WithinEnd.transfer {v : State} (within : WithinEnd v) {has : Ops → Bool}
    {op : Nat → Nat → Nat → Nat}
    (short : ∀ node offset count, offset ≤ (v.nodes node).size → op node offset count ≤ (v.nodes node).size - offset)
    (fd : Int) (size : Nat) : WithinEnd (transfer has op v fd size).2 := by
  unfold FreeCore.Vfs.transfer
  split
  · exact within
  · rename_i d found
    obtain ⟨entry, used⟩ := descriptorAt_eq_some found
    split
    · exact within
    · refine within.update _ fun _ onlyReads => ?_
      have before : d.position ≤ (v.nodes d.node).size :=
        entry ▸ within fd.toNat (entry ▸ used) (entry ▸ onlyReads)
      have moved := short d.node d.position size before
      calc wrap 64 (d.position + op d.node d.position size)
          ≤ d.position + op d.node d.position size := Nat.mod_le _ _
        _ ≤ (v.nodes d.node).size := by omega

theorem WithinEnd.vfsLseek {v : State} (within : WithinEnd v) (fd offset whence : Int) :
    WithinEnd (vfsLseek v fd offset whence).2 := by
  unfold FreeCore.Vfs.vfsLseek
  split
  · exact within
  · split
    · exact within
    · split_ifs with refused
      · exact within
      · exact within.update _ fun _ onlyReads => by
          simp only [onlyReads, and_true] at refused
          exact Nat.not_lt.mp refused

theorem WithinEnd.step {v : State} (within : WithinEnd v) {size : Nat → Nat}
    (fsWithin : fs.Within size) (sizes : ∀ n, (v.nodes n).size = size n) (call : Call) :
    WithinEnd (v.step fs call) ∧ ∀ n, ((v.step fs call).nodes n).size = size n := by
  have short : ∀ node offset count, offset ≤ (v.nodes node).size →
      fs.read node offset count ≤ (v.nodes node).size - offset ∧
        fs.write node offset count ≤ (v.nodes node).size - offset := by
    intro node offset count
    rw [sizes]
    exact fsWithin node offset count
  cases call with
  | mount path node =>
      obtain ⟨table, kept⟩ := vfsMount_keeps_sizes fs v path node
      exact ⟨within.of_sizes table kept, fun n => (kept n).trans (sizes n)⟩
  | unmount path =>
      obtain ⟨table, kept⟩ := vfsUnmount_keeps_sizes fs v path
      exact ⟨within.of_sizes table kept, fun n => (kept n).trans (sizes n)⟩
  | openFile path flags => exact ⟨within.vfsOpen fs path flags, by simpa [State.step] using sizes⟩
  | close fd => exact ⟨within.vfsClose fs fd, by simpa [State.step] using sizes⟩
  | read fd count =>
      exact ⟨within.transfer (fun n o c le => (short n o c le).1) fd count,
        by simpa [State.step, vfsRead] using sizes⟩
  | write fd count =>
      exact ⟨within.transfer (fun n o c le => (short n o c le).2) fd count,
        by simpa [State.step, vfsWrite] using sizes⟩
  | lseek fd offset whence =>
      exact ⟨within.vfsLseek fd offset whence, by simpa [State.step] using sizes⟩

theorem WithinEnd.run {v : State} (within : WithinEnd v) {size : Nat → Nat}
    (fsWithin : fs.Within size) (sizes : ∀ n, (v.nodes n).size = size n) (calls : List Call) :
    WithinEnd (v.run fs calls) := by
  induction calls generalizing v with
  | nil => exact within
  | cons call calls induction =>
      obtain ⟨next, nextSizes⟩ := within.step fs fsWithin sizes call
      exact induction next nextSizes

/-- From `vfs_init`, over every sequence of mounts, unmounts, opens, closes, reads, writes and
seeks, every descriptor opened read-only is at or before the end of its node, for a filesystem
whose `read` and `write` return at most the bytes left before the end: `vfs_lseek` refuses a
position past the end, the wrapped result of a negative one included. -/
theorem run_keeps_readonly_within_end (nodes : Nat → VfsNode)
    (fsWithin : fs.Within fun n => (nodes n).size) (calls : List Call) :
    WithinEnd ((vfsInit nodes).run fs calls) :=
  WithinEnd.run fs (fun _ unused => absurd unused Bool.false_ne_true) fsWithin (fun _ => rfl) calls

/-- A ten-byte file `/f` on a filesystem whose `read` returns what is left of the request, opened
read-only, read, sought before its start and past its end, and read to its end. -/
theorem readonly_descriptor_within_ten_bytes :
    let nodes : Nat → VfsNode := fun n =>
      ⟨if n = 1 then 1 else 2, if n = 1 then 10 else 0, none, ⟨true, true, true, true, true, true, true⟩⟩
    let fs : Filesystem := ⟨fun node name => if node = 0 ∧ name = [102] then some 1 else none,
      fun _ _ => 0, fun _ => 0, fun node offset count => min count ((nodes node).size - offset),
      fun _ _ _ => 0, fun _ _ => 0, fun _ => 0⟩
    fs.Within (fun n => (nodes n).size) ∧
      WithinEnd ((vfsInit nodes).run fs
        [.mount none (some 0), .openFile (some (cString [47, 102])) 0, .read 0 4, .lseek 0 (-5) 1,
          .lseek 0 20 0, .read 0 100]) :=
  ⟨fun _ _ _ _ => ⟨Nat.min_le_right _ _, Nat.zero_le _⟩,
    run_keeps_readonly_within_end _ _ (fun _ _ _ _ => ⟨Nat.min_le_right _ _, Nat.zero_le _⟩) _⟩

/-- The seek to `-1` wraps to `2 ^ 64 - 1` and is refused, as is the seek to `20`; the last read
stops at the end. -/
example :
    let nodes : Nat → VfsNode := fun n =>
      ⟨if n = 1 then 1 else 2, if n = 1 then 10 else 0, none, ⟨true, true, true, true, true, true, true⟩⟩
    let fs : Filesystem := ⟨fun node name => if node = 0 ∧ name = [102] then some 1 else none,
      fun _ _ => 0, fun _ => 0, fun node offset count => min count ((nodes node).size - offset),
      fun _ _ _ => 0, fun _ _ => 0, fun _ => 0⟩
    let v := (vfsInit nodes).run fs [.mount none (some 0), .openFile (some (cString [47, 102])) 0,
      .read 0 4]
    (vfsLseek v 0 (-5) 1).1 = 2 ^ 64 - 1 ∧ (vfsLseek v 0 20 0).1 = 2 ^ 64 - 1 ∧
      (vfsRead fs v 0 100).1 = 6 ∧ ((vfsRead fs v 0 100).2.fdTable 0).position = 10 := by
  decide

end FreeCore.Vfs
