import FreeCore.Ext4.Read

/-! # The extent tree

`ext4_read_extent_block`'s predecessor search down the tree the bytes describe; on a
well-formed tree it computes the flat lookup over the leaf extents (`ext4ReadExtentBlock_lookup`). -/

namespace FreeCore.Ext4

/-! ## Extents and the flat lookup -/

/-- A leaf extent: `len` logical blocks from `block`, stored from physical block `start`. -/
structure Extent where
  block : Nat
  len : Nat
  start : Nat

/-- Whether the extent holds logical block `logical`. -/
def Extent.covers (extent : Extent) (logical : Nat) : Bool :=
  extent.block ≤ logical && logical < extent.block + extent.len

/-- The flat lookup: the physical block of `logical` in the first extent that holds it. -/
def lookup (extents : List Extent) (logical : Nat) : Option Nat :=
  (extents.find? fun extent => extent.covers logical).map fun extent =>
    extent.start + (logical - extent.block)

section Lookup

variable {left right : List Extent} {logical : Nat}

@[simp] theorem lookup_nil : lookup [] logical = none := rfl

theorem lookup_cons (extent : Extent) (rest : List Extent) :
    lookup (extent :: rest) logical =
      if extent.block ≤ logical ∧ logical < extent.block + extent.len then
        some (extent.start + (logical - extent.block))
      else lookup rest logical := by
  have covers : extent.covers logical =
      decide (extent.block ≤ logical ∧ logical < extent.block + extent.len) := by
    simp [Extent.covers]
  simp only [lookup, List.find?_cons, covers]
  split_ifs with covered <;> simp [covered]

theorem lookup_append : lookup (left ++ right) logical = (lookup left logical).or (lookup right logical) := by
  simp only [lookup, List.find?_append]
  cases left.find? fun extent => extent.covers logical <;> rfl

theorem lookup_eq_none (apart : ∀ extent ∈ left, extent.covers logical = false) :
    lookup left logical = none := by
  simp only [lookup, Option.map_eq_none', List.find?_eq_none]
  exact fun extent member => by simp [apart extent member]

theorem lookup_append_of_apart (apart : ∀ extent ∈ right, extent.covers logical = false) :
    lookup (left ++ right) logical = lookup left logical := by
  rw [lookup_append, lookup_eq_none apart, Option.or_none]

theorem lookup_append_of_apart_left (apart : ∀ extent ∈ left, extent.covers logical = false) :
    lookup (left ++ right) logical = lookup right logical := by
  rw [lookup_append, lookup_eq_none apart, Option.none_or]

theorem Extent.covers_of_lt {extent : Extent} (below : logical < extent.block) :
    extent.covers logical = false := by
  simp only [Extent.covers, Bool.and_eq_false_iff, decide_eq_false_iff_not]
  omega

theorem Extent.covers_of_le {extent : Extent} (above : extent.block + extent.len ≤ logical) :
    extent.covers logical = false := by
  simp only [Extent.covers, Bool.and_eq_false_iff, decide_eq_false_iff_not]
  omega

end Lookup

/-! ## The tree the bytes describe

A node is the memory of its bytes from offset 0; the field readers of `Format` read it at
address 0. -/

/-- Extent `index` of a leaf node. -/
def extentAt (node : Memory) (index : Nat) : Extent :=
  ⟨eeBlock node 0 index, eeLen node 0 index, combine (eeStartLo node 0 index) (eeStartHi node 0 index)⟩

/-- The extents of a leaf node from entry `index`, `remaining` of them. -/
def leafExtentsFrom (node : Memory) : (index remaining : Nat) → List Extent
  | _, 0 => []
  | index, remaining + 1 => extentAt node index :: leafExtentsFrom node (index + 1) remaining

/-- The extents of a leaf node. -/
def leafExtents (node : Memory) : List Extent := leafExtentsFrom node 0 (ehEntries node 0)

/-- The block index entry `index` points to: `ei_leaf_lo | (ei_leaf_hi << 32)`. -/
def childBlock (node : Memory) (index : Nat) : Nat :=
  combine (eiLeafLo node 0 index) (eiLeafHi node 0 index)

/-- The bytes of physical block `phys`, when the device reads it with a nonnegative status and
stores them, as `ext4_read_block` asks for them. -/
def Fs.readNode (fs : Fs) (phys : Nat) : Option Memory :=
  match fs.device.read (wrap 64 (phys * fs.blockSize)) fs.blockSize with
  | (status, some bytes) => if 0 ≤ status then some bytes else none
  | (_, none) => none

section Children

variable (subtree : Memory → List Extent) (fs : Fs) (node : Memory)

/-- The leaf extents under index entry `index`, given those of a subtree. -/
def childExtents (index : Nat) : List Extent :=
  match fs.readNode (childBlock node index) with
  | some child => subtree child
  | none => []

/-- The leaf extents under index entries `index`, `index + 1`, …, `remaining` of them. -/
def childrenExtents : (index remaining : Nat) → List Extent
  | _, 0 => []
  | index, remaining + 1 =>
      childExtents subtree fs node index ++ childrenExtents (index + 1) remaining

/-- The children under index entries `index`, …, `remaining` of them, are readable and
satisfy `wellFormed`; the keys ascend; the extents under entry `i` lie in
`[ei_block i, ei_block (i + 1))`, the last from `ei_block` on. -/
def ChildrenWellFormed (wellFormed : Memory → Prop) : (index remaining : Nat) → Prop
  | _, 0 => True
  | index, remaining + 1 =>
      (∃ child ∈ fs.readNode (childBlock node index), wellFormed child ∧
        ∀ extent ∈ subtree child, eiBlock node 0 index ≤ extent.block ∧
          (remaining ≠ 0 → extent.block + extent.len ≤ eiBlock node 0 (index + 1))) ∧
      (remaining ≠ 0 → eiBlock node 0 index ≤ eiBlock node 0 (index + 1)) ∧
      ChildrenWellFormed wellFormed (index + 1) remaining

instance ChildrenWellFormed.decidable {wellFormed : Memory → Prop} [DecidablePred wellFormed] :
    (index remaining : Nat) → Decidable (ChildrenWellFormed subtree fs node wellFormed index remaining)
  | _, 0 => inferInstanceAs (Decidable True)
  | index, remaining + 1 =>
      have : Decidable (ChildrenWellFormed subtree fs node wellFormed (index + 1) remaining) :=
        ChildrenWellFormed.decidable (index + 1) remaining
      show Decidable (_ ∧ _ ∧ _) from inferInstance

end Children

/-- The leaf extents of the subtree of `node`, `depth` levels above its leaves, in order. -/
def treeExtents (fs : Fs) : (depth : Nat) → (node : Memory) → List Extent
  | 0, node => leafExtents node
  | depth + 1, node => childrenExtents (treeExtents fs depth) fs node 0 (ehEntries node 0)

/-- A well-formed subtree of `node`, `depth` levels above its leaves, in a node of `capacity`
entries. -/
def WellFormed (fs : Fs) : (depth capacity : Nat) → (node : Memory) → Prop
  | 0, capacity, node => ehMagic node 0 = extentHeaderMagic ∧ ehEntries node 0 ≤ capacity ∧
      ∀ extent ∈ leafExtents node, extent.block + extent.len < 2 ^ 32
  | depth + 1, capacity, node => ehMagic node 0 = extentHeaderMagic ∧
      ehEntries node 0 ≤ capacity ∧
      ChildrenWellFormed (treeExtents fs depth) fs node
        (WellFormed fs depth ((fs.blockSize - 12) / 12)) 0 (ehEntries node 0)

instance WellFormed.decidable (fs : Fs) :
    (depth capacity : Nat) → (node : Memory) → Decidable (WellFormed fs depth capacity node)
  | 0, _, _ => show Decidable (_ ∧ _ ∧ _) from inferInstance
  | depth + 1, _, _ =>
      have : DecidablePred (WellFormed fs depth ((fs.blockSize - 12) / 12)) :=
        WellFormed.decidable fs depth _
      show Decidable (_ ∧ _ ∧ _) from inferInstance

/-- The root node, in `i_block` of the inode. -/
def extentRoot (inode : Memory) : Memory := fun byte => inode (iBlockOffset + byte)

/-- The flat lookup over the leaf extents of an inode's tree, `eh_depth` levels deep. -/
def extentLookup (fs : Fs) (inode : Memory) (logical : Nat) : Option Nat :=
  lookup (treeExtents fs (ehDepth (extentRoot inode) 0) (extentRoot inode)) logical

/-- What `ext4_read_extent_block` should return: the physical block, or `-1`. -/
def extentResult (fs : Fs) (inode : Memory) (logical : Nat) : Except Int Nat :=
  match extentLookup fs inode logical with
  | some phys => .ok phys
  | none => .error (-1)

/-! ## What the buffer holds -/

/-- The `count` bytes at `address` are the first `count` bytes of `node`. -/
def Holds (mem : Memory) (address : Nat) (node : Memory) (count : Nat) : Prop :=
  ∀ byte < count, mem (address + byte) = node byte

namespace Holds

variable {mem node : Memory} {address count : Nat} (holds : Holds mem address node count)
include holds

theorem mono {fewer : Nat} (le : fewer ≤ count) : Holds mem address node fewer :=
  fun byte inside => holds byte (by omega)

theorem load {offset width : Nat} (inside : offset + width ≤ count) :
    mem.load (address + offset) width = node.load offset width := by
  induction width generalizing offset with
  | zero => rfl
  | succ width induction =>
      simp only [Memory.load]
      rw [holds offset (by omega), show address + offset + 1 = address + (offset + 1) by omega,
        induction (by omega)]

/-! Each field the code reads is the node's. -/

theorem ehMagic (inside : 12 ≤ count) : ehMagic mem address = ehMagic node 0 := by
  have := holds.load (show 0 + 2 ≤ count by omega)
  rwa [Nat.add_zero] at this

theorem ehEntries (inside : 12 ≤ count) : ehEntries mem address = ehEntries node 0 :=
  holds.load (show 2 + 2 ≤ count by omega)

theorem ehDepth (inside : 12 ≤ count) : ehDepth mem address = ehDepth node 0 :=
  holds.load (show 6 + 2 ≤ count by omega)

variable {index : Nat} (inside : 12 + 12 * (index + 1) ≤ count)
include inside

theorem entry {offset width : Nat} (fits : offset + width ≤ 12) :
    mem.load (entryAt address index + offset) width = node.load (entryAt 0 index + offset) width := by
  rw [show entryAt address index + offset = address + (entryAt 0 index + offset) by
    simp only [entryAt]; omega]
  exact holds.load (by simp only [entryAt]; omega)

theorem eiBlock : eiBlock mem address index = eiBlock node 0 index :=
  holds.entry inside (show 0 + 4 ≤ 12 by decide)

theorem childBlock :
    combine (eiLeafLo mem address index) (eiLeafHi mem address index) = childBlock node index :=
  congrArg₂ combine (holds.entry inside (show 4 + 4 ≤ 12 by decide))
    (holds.entry inside (show 8 + 2 ≤ 12 by decide))

theorem eeBlock : eeBlock mem address index = (Ext4.extentAt node index).block :=
  holds.entry inside (show 0 + 4 ≤ 12 by decide)

theorem eeLen : eeLen mem address index = (Ext4.extentAt node index).len :=
  holds.entry inside (show 4 + 2 ≤ 12 by decide)

theorem eeStart :
    combine (eeStartLo mem address index) (eeStartHi mem address index) =
      (Ext4.extentAt node index).start :=
  congrArg₂ combine (holds.entry inside (show 8 + 4 ≤ 12 by decide))
    (holds.entry inside (show 6 + 2 ≤ 12 by decide))

end Holds

/-! ## The scans of one node -/

theorem extentAt_len_lt (node : Memory) (index : Nat) : (extentAt node index).len < 2 ^ 16 :=
  Memory.load_lt node _ 2

theorem extentAt_start_lt (node : Memory) (index : Nat) : (extentAt node index).start < 2 ^ 48 := by
  have lo := Memory.load_lt node (entryAt 0 index + 8) 4
  have hi := Memory.load_lt node (entryAt 0 index + 6) 2
  simp only [extentAt, combine, eeStartLo, eeStartHi]
  norm_num at lo hi ⊢
  omega

section Scans

variable {mem node : Memory} {address count logical : Nat} (holds : Holds mem address node count)
include holds

/-- The leaf scan is the flat lookup over the leaf's extents: the 32-bit end of a range and
the 64-bit sum of the result do not wrap. -/
theorem scanLeaf_eq_lookup : ∀ {index remaining : Nat}, 12 + 12 * (index + remaining) ≤ count →
    (∀ extent ∈ leafExtentsFrom node index remaining, extent.block + extent.len < 2 ^ 32) →
    scanLeaf mem address logical index remaining = lookup (leafExtentsFrom node index remaining) logical
  | _, 0, _, _ => rfl
  | index, remaining + 1, inside, bounded => by
      have first : 12 + 12 * (index + 1) ≤ count := by omega
      have rest := scanLeaf_eq_lookup (show 12 + 12 * (index + 1 + remaining) ≤ count by omega)
        fun extent member => bounded extent (List.mem_cons_of_mem _ member)
      rw [scanLeaf, holds.eeBlock first, holds.eeLen first, holds.eeStart first, wrap,
        Nat.mod_eq_of_lt (bounded _ (List.mem_cons_self _ _)), leafExtentsFrom, lookup_cons, rest]
      split_ifs with covered
      · have start := extentAt_start_lt node index
        have len := extentAt_len_lt node index
        rw [wrap, Nat.mod_eq_of_lt (by omega)]
      · rfl

/-- The index scan reads the keys of the node the buffer holds. -/
theorem scanIndex_holds {entries : Nat} (fits : 12 + 12 * entries ≤ count) :
    ∀ index remaining, scanIndex mem address logical entries index remaining =
      scanIndex node 0 logical entries index remaining
  | _, 0 => rfl
  | index, remaining + 1 => by
      simp only [scanIndex]
      by_cases next : index + 1 < entries
      · rw [holds.eiBlock (by omega : 12 + 12 * (index + 1 + 1) ≤ count),
          scanIndex_holds fits (index + 1) remaining]
      · simp only [next, false_and, if_false]

end Scans

/-- The index scan stays among the entries. -/
theorem scanIndex_lt {mem : Memory} {node logical entries : Nat} :
    ∀ {index remaining : Nat}, index < entries → scanIndex mem node logical entries index remaining < entries
  | _, 0, below => below
  | _, _ + 1, below => by
      simp only [scanIndex]
      split_ifs with next
      · exact scanIndex_lt next.1
      · exact below

/-! ## The index scan over the children -/

section Children

variable {subtree : Memory → List Extent} {fs : Fs} {node : Memory} {wellFormed : Memory → Prop}

theorem childExtents_eq {index : Nat} {child : Memory} (read : fs.readNode (childBlock node index) = some child) :
    childExtents subtree fs node index = subtree child := by
  rw [childExtents, read]

/-- Every extent under entries `index, …` starts at or after `ei_block index`. -/
theorem ChildrenWellFormed.lower : ∀ {index remaining : Nat},
    ChildrenWellFormed subtree fs node wellFormed index remaining →
      ∀ extent ∈ childrenExtents subtree fs node index remaining, eiBlock node 0 index ≤ extent.block
  | _, 0, _, _, member => nomatch member
  | _, remaining + 1, ⟨⟨_, read, _, bounds⟩, ascending, rest⟩, extent, member => by
      rw [childrenExtents, childExtents_eq read, List.mem_append] at member
      rcases member with here | later
      · exact (bounds extent here).1
      · have further := rest.lower extent later
        cases remaining with
        | zero => exact nomatch later
        | succ => exact (ascending (Nat.succ_ne_zero _)).trans further

/-- Every child under entries `index, …, index + remaining - 1` is readable and well formed. -/
theorem ChildrenWellFormed.child : ∀ {index remaining : Nat},
    ChildrenWellFormed subtree fs node wellFormed index remaining → ∀ {target : Nat},
      index ≤ target → target < index + remaining →
        ∃ child, fs.readNode (childBlock node target) = some child ∧ wellFormed child
  | _, 0, _, _, lower, upper => absurd upper (by omega)
  | index, _ + 1, ⟨⟨child, read, wellFormed, _⟩, _, rest⟩, target, lower, upper => by
      by_cases here : target = index
      · exact here ▸ ⟨child, read, wellFormed⟩
      · exact rest.child (by omega) (by omega)

/-- The index scan picks the only child whose extents can hold `logical`: the lookup over the
children from `index` on is the lookup under the entry the scan chooses. -/
theorem lookup_childrenExtents {logical entries : Nat} : ∀ {index remaining : Nat},
    index + remaining + 1 = entries →
    ChildrenWellFormed subtree fs node wellFormed index (remaining + 1) →
      lookup (childrenExtents subtree fs node index (remaining + 1)) logical =
        lookup (childExtents subtree fs node
          (scanIndex node 0 logical entries index (remaining + 1))) logical
  | index, 0, last, _ => by
      simp only [childrenExtents, List.append_nil, scanIndex, show ¬index + 1 < entries by omega,
        false_and, if_false]
  | index, remaining + 1, count, ⟨⟨child, read, _, bounds⟩, _, rest⟩ => by
      rw [childrenExtents, scanIndex]
      by_cases key : eiBlock node 0 (index + 1) ≤ logical
      · -- at or right of the next key: this child's extents end before `logical`
        rw [if_pos ⟨by omega, key⟩, ← lookup_childrenExtents (by omega) rest,
          lookup_append_of_apart_left]
        rw [childExtents_eq read]
        exact fun extent member =>
          Extent.covers_of_le (((bounds extent member).2 (Nat.succ_ne_zero _)).trans key)
      · -- left of the next key: the later children's extents start after `logical`
        rw [if_neg fun next => key next.2, lookup_append_of_apart]
        exact fun extent member => Extent.covers_of_lt ((Nat.lt_of_not_le key).trans_le
          (rest.lower extent member))

end Children


/-! ## One level of the descent -/

theorem Holds.put (mem : Memory) (address count : Nat) (source : Memory) :
    Holds (mem.put address count source) address source count := fun byte inside => by
  rw [Memory.put_apply, if_pos (by omega), Nat.add_sub_cancel_left]

/-- A node the device stores is read into the buffer with a nonnegative status. -/
theorem run_ext4ReadBlock {fs : Fs} {phys : Nat} {child : Memory}
    (read : fs.readNode phys = some child) (buffer : Nat) (heap : Heap) :
    ∃ status, 0 ≤ status ∧ (ext4ReadBlock fs phys buffer).run heap =
      .ok (status, { heap with mem := heap.mem.put buffer fs.blockSize child }) := by
  unfold Fs.readNode at read
  rcases stored : fs.device.read (wrap 64 (phys * fs.blockSize)) fs.blockSize with ⟨status, _ | bytes⟩
  · simp [stored] at read
  · simp only [stored] at read
    split_ifs at read with nonneg
    cases read
    exact ⟨status, nonneg, by simp only [ext4ReadBlock, Kernel.deviceRead, stored]; rfl⟩

section Descent

variable {fs : Fs} {logical buffer depth count : Nat} {node : Memory} {heap : Heap}
  (holds : Holds heap.mem buffer node count)
include holds

/-- A node without entries ends the descent with `-1`. -/
theorem descend_run_of_empty (inside : 12 ≤ count) (empty : ehEntries node 0 = 0) :
    (descend fs logical buffer (depth + 1)).run heap = .ok (.error (-1), heap) := by
  rw [descend, run_bind_of_ok (run_memory heap)]
  simp only [holds.ehEntries inside, empty, Nat.zero_le, if_true]
  rfl

/-- Otherwise the descent reads the child the index scan picks into the buffer and goes on
from there. -/
theorem descend_run_of_child {child : Memory} (fits : 12 + 12 * ehEntries node 0 ≤ count)
    (nonempty : 0 < ehEntries node 0)
    (read : fs.readNode (childBlock node
      (scanIndex node 0 logical (ehEntries node 0) 0 (ehEntries node 0))) = some child)
    (magic : ehMagic child 0 = extentHeaderMagic) (large : 12 ≤ fs.blockSize) :
    (descend fs logical buffer (depth + 1)).run heap =
      (descend fs logical buffer depth).run { heap with mem := heap.mem.put buffer fs.blockSize child } := by
  have below : scanIndex node 0 logical (ehEntries node 0) 0 (ehEntries node 0) < ehEntries node 0 :=
    scanIndex_lt nonempty
  have inside : 12 + 12 * (scanIndex node 0 logical (ehEntries node 0) 0 (ehEntries node 0) + 1) ≤ count := by
    omega
  obtain ⟨status, nonneg, readRun⟩ := run_ext4ReadBlock read buffer heap
  rw [descend, run_bind_of_ok (run_memory heap)]
  simp only [holds.ehEntries (by omega), scanIndex_holds holds fits, if_neg (Nat.not_le.mpr below),
    pure_bind, holds.childBlock inside]
  refine (run_bind_of_ok readRun).trans ?_
  rw [if_neg (not_lt.mpr nonneg)]
  refine (run_bind_of_ok (run_memory _)).trans ?_
  simp only [(Holds.put heap.mem buffer fs.blockSize child).ehMagic large, magic, ne_eq,
    not_true_eq_false, if_false]

end Descent

/-! ## The whole descent -/

theorem WellFormed.magic {fs : Fs} {depth capacity : Nat} {node : Memory}
    (wellFormed : WellFormed fs depth capacity node) : ehMagic node 0 = extentHeaderMagic := by
  cases depth <;> exact wellFormed.1

/-- The buffer at `address` holds a leaf whose extents look `logical` up as `found`. -/
def LeafHeld (mem : Memory) (address logical : Nat) (found : Option Nat) : Prop :=
  ∃ leaf count, Holds mem address leaf count ∧ 12 + 12 * ehEntries leaf 0 ≤ count ∧
    (∀ extent ∈ leafExtents leaf, extent.block + extent.len < 2 ^ 32) ∧
    lookup (leafExtents leaf) logical = found

theorem LeafHeld.scanLeaf {mem : Memory} {address logical : Nat} {found : Option Nat}
    (held : LeafHeld mem address logical found) :
    scanLeaf mem address logical 0 (ehEntries mem address) = found := by
  obtain ⟨leaf, count, holds, fits, bounded, rfl⟩ := held
  rw [holds.ehEntries (by omega)]
  exact scanLeaf_eq_lookup holds (by simpa using fits) bounded

/-- The descent from a well-formed node the buffer holds: it returns `-1` when the lookup
under the node finds nothing, or leaves in the buffer a leaf whose lookup is the node's. -/
theorem descend_lookup {fs : Fs} {buffer : Nat} (logical : Nat) (large : 12 ≤ fs.blockSize) :
    ∀ (depth : Nat) {capacity count : Nat} {node : Memory} {heap : Heap},
      WellFormed fs depth capacity node → 12 + 12 * capacity ≤ count →
      Holds heap.mem buffer node count →
      ∃ outcome heap', (descend fs logical buffer depth).run heap = .ok (outcome, heap') ∧
        ((outcome = .error (-1) ∧ lookup (treeExtents fs depth node) logical = none) ∨
          (outcome = .ok () ∧
            LeafHeld heap'.mem buffer logical (lookup (treeExtents fs depth node) logical)))
  | 0, _, count, node, heap, wellFormed, fits, holds => by
      obtain ⟨-, entries, bounded⟩ := wellFormed
      exact ⟨.ok (), heap, rfl, .inr ⟨rfl, node, count, holds, by omega, bounded, rfl⟩⟩
  | depth + 1, _, count, node, heap, wellFormed, fits, holds => by
      obtain ⟨-, entries, children⟩ := wellFormed
      cases empty : ehEntries node 0 with
      | zero =>
          refine ⟨.error (-1), heap, descend_run_of_empty holds (by omega) empty, .inl ⟨rfl, ?_⟩⟩
          rw [treeExtents, empty]
          rfl
      | succ remaining =>
          rw [empty] at children
          have chosen : scanIndex node 0 logical (remaining + 1) 0 (remaining + 1) < 0 + (remaining + 1) := by
            rw [Nat.zero_add]
            exact scanIndex_lt (Nat.succ_pos _)
          obtain ⟨child, read, wellFormed⟩ := children.child (Nat.zero_le _) chosen
          have step : (descend fs logical buffer (depth + 1)).run heap = _ :=
            descend_run_of_child holds (by omega) (by omega) (by rw [empty]; exact read)
              wellFormed.magic large
          obtain ⟨outcome, heap', ran, result⟩ := descend_lookup logical large depth wellFormed
            (by omega : 12 + 12 * ((fs.blockSize - 12) / 12) ≤ fs.blockSize)
            (show Holds ({ heap with mem := heap.mem.put buffer fs.blockSize child } : Heap).mem
              buffer child fs.blockSize from Holds.put heap.mem buffer fs.blockSize child)
          have same : lookup (treeExtents fs (depth + 1) node) logical =
              lookup (treeExtents fs depth child) logical := by
            rw [treeExtents, empty,
              lookup_childrenExtents (show 0 + remaining + 1 = remaining + 1 by omega) children,
              childExtents_eq read]
          exact ⟨outcome, heap', step.trans ran, same ▸ result⟩

/-! ## The descent computes the flat lookup -/

/-- A block buffer `kmalloc` returns is at least 1024 bytes: `kmalloc(0)` returns `NULL`. -/
theorem Fs.blockSize_large_of_kmalloc (fs : Fs) {heap heap' : Heap} {buffer : Nat}
    (allocated : kmalloc heap fs.blockSize = some (heap', some buffer)) : 1024 ≤ fs.blockSize := by
  rcases fs.blockSize_eq_zero_or with zero | large
  · rw [zero] at allocated
    simp [kmalloc] at allocated
  · exact large

/-- On a filesystem with extents, an inode flagged for them whose tree is well formed, and a
heap on which `kmalloc` gives the block buffer, `ext4_read_extent_block` returns the flat
lookup over the tree's leaf extents: the physical block of the first extent that holds
`logical`, or `-1` when none does. -/
theorem ext4ReadExtentBlock_lookup {fs : Fs} {inode : Memory} (extents : fs.hasExtents = true)
    (flagged : iFlags inode &&& extentsFl ≠ 0)
    (wellFormed : WellFormed fs (ehDepth (extentRoot inode) 0) 4 (extentRoot inode))
    (logical : Nat) {heap : Heap}
    (allocated : ∃ heap' buffer, kmalloc heap fs.blockSize = some (heap', some buffer)) :
    ∃ heap', (ext4ReadExtentBlock fs inode logical).run heap =
      .ok (extentResult fs inode logical, heap') := by
  obtain ⟨heap1, buffer, allocation⟩ := allocated
  have large : 12 ≤ fs.blockSize := (fs.blockSize_large_of_kmalloc allocation).trans' (by decide)
  have root : Holds inode iBlockOffset (extentRoot inode) extentNodeSize := fun _ _ => rfl
  obtain ⟨outcome, heap2, ran, result⟩ := descend_lookup logical large (ehDepth (extentRoot inode) 0)
    wellFormed (by decide : 12 + 12 * 4 ≤ extentNodeSize)
    (show Holds ({ heap1 with mem := heap1.mem.put buffer extentNodeSize (extentRoot inode) } : Heap).mem
      buffer (extentRoot inode) extentNodeSize from Holds.put _ _ _ _)
  have depth : ehDepth (heap1.mem.put buffer extentNodeSize fun byte => inode (iBlockOffset + byte))
      buffer = ehDepth (extentRoot inode) 0 :=
    (Holds.put heap1.mem buffer extentNodeSize (extentRoot inode)).ehDepth (by decide)
  simp only [ext4ReadExtentBlock, extents, flagged, root.ehMagic (by decide), wellFormed.magic,
    Bool.not_true, Bool.false_eq_true, if_false, ne_eq, not_true_eq_false, pure_bind]
  refine ⟨FreeCore.kfree heap2 (some buffer),
    (run_bind_of_ok (run_kmalloc_eq_ok.mpr allocation)).trans ?_⟩
  refine (run_bind_of_ok (run_put _ _ _ _)).trans ?_
  refine (run_bind_of_ok (run_memory _)).trans ?_
  dsimp only
  rw [depth]
  refine (run_bind_of_ok ran).trans ?_
  unfold extentResult extentLookup
  generalize lookup (treeExtents fs (ehDepth (extentRoot inode) 0) (extentRoot inode)) logical = found
    at result
  rcases result with ⟨rfl, rfl⟩ | ⟨rfl, held⟩
  · rfl
  · refine (run_bind_of_ok (run_memory _)).trans ?_
    dsimp only
    rw [held.scanLeaf]
    cases found <;> rfl

/-! ## A two-level tree -/

/-- The bytes listed, and zero elsewhere. -/
def bytesOf (bytes : List (Nat × UInt8)) : Memory := fun byte => (bytes.lookup byte).getD 0

/-- A superblock of 1024-byte blocks with the extents feature. -/
def extentsSuperblock : Memory := bytesOf [(96, 0x40)]

/-- A leaf with one extent: logical blocks `[0, 8)` stored from physical block 100. -/
def sampleLeaf : Memory := bytesOf [(0, 0x0A), (1, 0xF3), (2, 1), (16, 8), (20, 100)]

/-- A device that stores `sampleLeaf` in block 3 and zeros elsewhere. -/
def sampleDevice : Device where
  read offset _ := (0, some (if offset = 3 * 1024 then sampleLeaf else fun _ => 0))

def sampleFs : Fs := ⟨0, sampleDevice, extentsSuperblock, 0⟩

/-- An inode flagged for extents whose root, one level above the leaves, has one index entry,
from logical block 0, pointing at block 3. -/
def sampleInode : Memory :=
  bytesOf [(34, 0x08), (40, 0x0A), (41, 0xF3), (42, 1), (46, 1), (56, 3)]

theorem ext4ReadExtentBlock_lookup_two_levels :
    sampleFs.hasExtents = true ∧ iFlags sampleInode &&& extentsFl ≠ 0 ∧
      WellFormed sampleFs (ehDepth (extentRoot sampleInode) 0) 4 (extentRoot sampleInode) ∧
      (∃ heap' buffer, kmalloc (Heap.uninitialized fun _ => 0) sampleFs.blockSize =
        some (heap', some buffer)) ∧
      ∃ heap', (ext4ReadExtentBlock sampleFs sampleInode 5).run (Heap.uninitialized fun _ => 0) =
        .ok (extentResult sampleFs sampleInode 5, heap') :=
  ⟨by decide, by decide, by decide, ⟨_, _, rfl⟩,
    ext4ReadExtentBlock_lookup (by decide) (by decide) (by decide) 5 ⟨_, _, rfl⟩⟩

/-- Without a buffer the lookup fails. The heap `kmalloc(KERNEL_HEAP_SIZE - 16)` leaves is one
used block over the whole arena; on it `kmalloc` returns `NULL` and `ext4_read_extent_block`
returns `-1`, though the well-formed tree of `sampleInode` maps logical block 5 to block 105. -/
theorem ext4ReadExtentBlock_fails_on_full_heap :
    WellFormed sampleFs (ehDepth (extentRoot sampleInode) 0) 4 (extentRoot sampleInode) ∧
      extentResult sampleFs sampleInode 5 = .ok 105 ∧
      ∃ heap, kmalloc (Heap.uninitialized fun _ => 0) (kernelHeapSize - allocHeaderSize) =
          some (heap, some allocHeaderSize) ∧
        (ext4ReadExtentBlock sampleFs sampleInode 5).run heap = .ok (.error (-1), heap) :=
  ⟨by decide, rfl, _, rfl, rfl⟩

/-! ## Headers the descent does not check -/

/-- An index node, one level above its leaves (`eh_depth` 1), whose one entry, from logical
block 0, points at block 5. -/
def indexChild : Memory := bytesOf [(0, 0x0A), (1, 0xF3), (2, 1), (4, 4), (6, 1), (16, 5)]

/-- A device that stores `indexChild` in block 3 and zeros elsewhere. -/
def indexDevice : Device where
  read offset _ := (0, some (if offset = 3 * 1024 then indexChild else fun _ => 0))

def indexFs : Fs := ⟨0, indexDevice, extentsSuperblock, 0⟩

/-- An inode whose root is a leaf (`eh_depth` 0) that claims five entries, one more than
`i_block` holds. -/
def wideRoot : Memory := bytesOf [(34, 0x08), (40, 0x0A), (41, 0xF3), (42, 5), (44, 4)]

/-- `ext4_read_extent_block` checks each node's magic and nothing else of its header. Below the
root of `sampleInode`, one level above the leaves, a child whose `eh_depth` says it is an index
node is read as a leaf: its entry pointing at block 5 is taken for an extent of five blocks from
physical block 0, and logical block 0 maps to block 0. A leaf root that claims five entries has
its fifth read from the twelve buffer bytes after the 60 copied from `i_block`: on a fresh heap
they are zero and the lookup fails, and on a heap whose free block holds an extent there, left by
a payload freed earlier, logical block 0 maps to block 77. -/
theorem ext4ReadExtentBlock_trusts_headers :
    ehDepth (extentRoot sampleInode) 0 = 1 ∧ ehDepth indexChild 0 = 1 ∧ eiLeafLo indexChild 0 0 = 5 ∧
      ((ext4ReadExtentBlock indexFs sampleInode 0).run (Heap.uninitialized fun _ => 0)).toOption.bind
        (fun result => result.1.toOption) = some 0 ∧
      ehEntries (extentRoot wideRoot) 0 = 5 ∧ extentNodeSize < 12 + 12 * 5 ∧
      ((ext4ReadExtentBlock sampleFs wideRoot 0).run (Heap.uninitialized fun _ => 0)).toOption.bind
        (fun result => result.1.toOption) = none ∧
      ((ext4ReadExtentBlock sampleFs wideRoot 0).run
        { kmallocInit (Heap.uninitialized fun _ => 0) with
          mem := (kmallocInit (Heap.uninitialized fun _ => 0)).mem.put 76 12
            (bytesOf [(4, 8), (8, 77)]) }).toOption.bind (fun result => result.1.toOption) = some 77 := by
  decide

end FreeCore.Ext4
