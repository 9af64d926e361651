import FreeCore.Kmalloc.Heap
import Mathlib.Data.List.Perm.Basic

/-! # The block chain

The abstract view of the arena: a list of blocks, each a size and a used flag, laid out one
after another from offset 0. `Layout mem start blocks` says that memory holds exactly these
headers at exactly these offsets; `Chain` adds that the blocks end at `KERNEL_HEAP_SIZE`.
The allocator's operations become list operations here: first fit with `carve`, and
`release`, which marks a block free and absorbs a free right neighbour. -/

namespace FreeCore

/-- A block of the chain. Its size counts the header, is a multiple of 16 and covers at least
a header, so a walk over the chain always moves forward. -/
@[ext] structure Block where
  size : Nat
  used : Bool
  header_le : allocHeaderSize ≤ size
  aligned : size % 16 = 0
deriving DecidableEq

namespace Block

/-- The header a block's first bytes must hold. -/
def header (block : Block) : AllocHeader := ⟨block.size, allocMagic, block.used⟩

theorem size_pos (block : Block) : 0 < block.size := by
  have := block.header_le
  simp only [allocHeaderSize] at this
  omega

/-- The same block marked free. -/
def free (block : Block) : Block := { block with used := false }

/-- One block covering `left` and `right`, free. -/
def merge (left right : Block) : Block where
  size := left.size + right.size
  used := false
  header_le := Nat.le_add_right_of_le left.header_le
  aligned := by have := left.aligned; have := right.aligned; omega

/-- What first fit makes of a free block for a request of `size` bytes (header included):
a used block of exactly `size` bytes followed by the free rest when the rest can hold
`MIN_ALLOC_SIZE` bytes, the whole block marked used otherwise (`split_block`). -/
def carve (block : Block) (size : Nat) (sized : allocHeaderSize ≤ size)
    (sizeAligned : size % 16 = 0) : List Block :=
  if splits : size + minAllocSize ≤ block.size then
    [⟨size, true, sized, sizeAligned⟩,
      ⟨block.size - size, false,
        by simp only [minAllocSize, allocHeaderSize] at splits ⊢; omega,
        by have := block.aligned; omega⟩]
  else [{ block with used := true }]

/-- The size of the used block `carve` produces. -/
def takenSize (block : Block) (size : Nat) : Nat :=
  if size + minAllocSize ≤ block.size then size else block.size

theorem takenSize_le (block : Block) (size : Nat) : block.takenSize size ≤ block.size := by
  unfold takenSize
  split <;> omega

theorem le_takenSize (block : Block) {size : Nat} (fit : size ≤ block.size) :
    size ≤ block.takenSize size := by
  unfold takenSize
  split <;> omega

theorem free_of_used_false {block : Block} (free : block.used = false) : block.free = block := by
  cases block
  simp_all [Block.free]

end Block

/-- The bytes the blocks cover. -/
def total : List Block → Nat
  | [] => 0
  | block :: rest => block.size + total rest

/-- The bytes of the used blocks: what `heap_used` should be. -/
def usedTotal : List Block → Nat
  | [] => 0
  | block :: rest => (if block.used then block.size else 0) + usedTotal rest

/-- Offset and size of every used block, for blocks laid out from `start`. -/
def usedBlocks : Nat → List Block → List (Nat × Nat)
  | _, [] => []
  | start, block :: rest =>
      (if block.used then [(start, block.size)] else []) ++ usedBlocks (start + block.size) rest

/-- The payload addresses of the used blocks: the pointers that should be live. -/
def payloads (start : Nat) (blocks : List Block) : List Nat :=
  (usedBlocks start blocks).map fun entry => entry.1 + allocHeaderSize

/-- Memory holds the headers of `blocks` at consecutive offsets from `start`. -/
def Layout (mem : Memory) : Nat → List Block → Prop
  | _, [] => True
  | start, block :: rest =>
      readHeader mem start = block.header ∧ Layout mem (start + block.size) rest

/-- The whole arena is the chain `blocks`. -/
structure Chain (mem : Memory) (blocks : List Block) : Prop where
  layout : Layout mem 0 blocks
  total_eq : total blocks = kernelHeapSize

instance Layout.decidable (mem : Memory) :
    (start : Nat) → (blocks : List Block) → Decidable (Layout mem start blocks)
  | _, [] => isTrue trivial
  | start, block :: rest =>
      have := Layout.decidable mem (start + block.size) rest
      inferInstanceAs (Decidable (readHeader mem start = block.header ∧
        Layout mem (start + block.size) rest))

instance (mem : Memory) (blocks : List Block) : Decidable (Chain mem blocks) :=
  decidable_of_iff (Layout mem 0 blocks ∧ total blocks = kernelHeapSize)
    ⟨fun ⟨layout, ends⟩ => ⟨layout, ends⟩, fun chain => ⟨chain.layout, chain.total_eq⟩⟩

@[simp] theorem total_nil : total [] = 0 := rfl

@[simp] theorem total_cons (block : Block) (blocks : List Block) :
    total (block :: blocks) = block.size + total blocks := rfl

@[simp] theorem total_append (left right : List Block) :
    total (left ++ right) = total left + total right := by
  induction left with
  | nil => simp
  | cons block rest induction => simp only [List.cons_append, total_cons, induction]; omega

@[simp] theorem usedTotal_nil : usedTotal [] = 0 := rfl

@[simp] theorem usedTotal_cons (block : Block) (blocks : List Block) :
    usedTotal (block :: blocks) =
      (if block.used then block.size else 0) + usedTotal blocks := rfl

@[simp] theorem usedTotal_append (left right : List Block) :
    usedTotal (left ++ right) = usedTotal left + usedTotal right := by
  induction left with
  | nil => simp
  | cons block rest induction => simp only [List.cons_append, usedTotal_cons, induction]; omega

@[simp] theorem usedBlocks_append (start : Nat) (left right : List Block) :
    usedBlocks start (left ++ right) =
      usedBlocks start left ++ usedBlocks (start + total left) right := by
  induction left generalizing start with
  | nil => simp [usedBlocks]
  | cons block rest induction =>
      rw [List.cons_append, usedBlocks, usedBlocks, induction, total_cons, List.append_assoc,
        Nat.add_assoc]

@[simp] theorem payloads_append (start : Nat) (left right : List Block) :
    payloads start (left ++ right) =
      payloads start left ++ payloads (start + total left) right := by
  simp [payloads]

/-! ## Layout lemmas -/

@[simp] theorem layout_nil (mem : Memory) (start : Nat) : Layout mem start [] := trivial

@[simp] theorem layout_cons (mem : Memory) (start : Nat) (block : Block) (rest : List Block) :
    Layout mem start (block :: rest) ↔
      readHeader mem start = block.header ∧ Layout mem (start + block.size) rest := Iff.rfl

theorem layout_append (mem : Memory) (start : Nat) (left right : List Block) :
    Layout mem start (left ++ right) ↔
      Layout mem start left ∧ Layout mem (start + total left) right := by
  induction left generalizing start with
  | nil => simp
  | cons block rest induction =>
      simp only [List.cons_append, layout_cons, induction, total_cons, Nat.add_assoc, and_assoc]

/-- A layout reads only the bytes its blocks cover. -/
theorem Layout.congr {mem other : Memory} {start : Nat} {blocks : List Block}
    (layout : Layout mem start blocks)
    (agree : Memory.AgreeOn mem other start (start + total blocks)) :
    Layout other start blocks := by
  induction blocks generalizing start with
  | nil => trivial
  | cons block rest induction =>
      have headerSize := block.header_le
      rw [total_cons] at agree
      refine ⟨?_, induction layout.2 (agree.mono (by omega) (by omega))⟩
      rw [← layout.1]
      exact (readHeader_congr (agree.mono le_rfl (by omega))).symm

/-- Memory determines the layout: two layouts from one start covering the same bytes are the
same list. -/
theorem Layout.unique {mem : Memory} {start : Nat} {blocks others : List Block}
    (layout : Layout mem start blocks) (otherLayout : Layout mem start others)
    (sameTotal : total blocks = total others) : blocks = others := by
  induction blocks generalizing start others with
  | nil =>
      cases others with
      | nil => rfl
      | cons other rest => have := other.size_pos; simp at sameTotal; omega
  | cons block rest induction =>
      cases others with
      | nil => have := block.size_pos; simp at sameTotal; omega
      | cons other otherRest =>
          have headers := layout.1.symm.trans otherLayout.1
          simp only [Block.header, AllocHeader.mk.injEq] at headers
          have same : block = other := Block.ext headers.1 headers.2.2
          subst same
          simp only [total_cons, Nat.add_left_cancel_iff] at sameTotal
          rw [induction layout.2 otherLayout.2 sameTotal]

theorem Chain.unique {mem : Memory} {blocks others : List Block} (chain : Chain mem blocks)
    (other : Chain mem others) : blocks = others :=
  chain.layout.unique other.layout (chain.total_eq.trans other.total_eq.symm)

theorem total_ge_length (blocks : List Block) : 16 * blocks.length ≤ total blocks := by
  induction blocks with
  | nil => simp
  | cons block rest induction =>
      have := block.header_le
      simp only [allocHeaderSize] at this
      simp only [total_cons, List.length_cons]
      omega

theorem total_aligned (blocks : List Block) : total blocks % 16 = 0 := by
  induction blocks with
  | nil => rfl
  | cons block rest induction =>
      have := block.aligned
      simp only [total_cons]
      omega

theorem usedTotal_le_total (blocks : List Block) : usedTotal blocks ≤ total blocks := by
  induction blocks with
  | nil => simp
  | cons block rest induction =>
      simp only [usedTotal_cons, total_cons]
      split <;> omega

/-- Every used block lies inside the blocks, at an aligned offset when the layout starts at
one. -/
theorem mem_usedBlocks {start : Nat} {blocks : List Block} {entry : Nat × Nat}
    (member : entry ∈ usedBlocks start blocks) :
    start ≤ entry.1 ∧ entry.1 + entry.2 ≤ start + total blocks ∧ allocHeaderSize ≤ entry.2 ∧
      (start % 16 = 0 → entry.1 % 16 = 0) := by
  induction blocks generalizing start with
  | nil => simp [usedBlocks] at member
  | cons block rest induction =>
      have := block.header_le
      have := block.aligned
      simp only [usedBlocks, List.mem_append] at member
      rcases member with here | later
      · split at here
        · simp only [List.mem_singleton] at here
          subst here
          simp only [total_cons]
          exact ⟨le_rfl, by omega, block.header_le, id⟩
        · simp at here
      · have facts := induction later
        simp only [total_cons]
        exact ⟨by omega, by omega, facts.2.2.1, fun aligned => facts.2.2.2 (by omega)⟩

theorem usedBlocks_sorted (start : Nat) (blocks : List Block) :
    (usedBlocks start blocks).Pairwise fun first second => first.1 < second.1 := by
  induction blocks generalizing start with
  | nil => exact List.Pairwise.nil
  | cons block rest induction =>
      have := block.size_pos
      simp only [usedBlocks]
      refine List.pairwise_append.mpr ⟨?_, induction _, ?_⟩
      · split <;> simp
      · intro first here second later
        split at here
        · simp only [List.mem_singleton] at here
          subst here
          have := (mem_usedBlocks later).1
          omega
        · simp at here

theorem payloads_nodup (start : Nat) (blocks : List Block) : (payloads start blocks).Nodup := by
  refine List.Pairwise.map _ (fun first second less => ?_) (usedBlocks_sorted start blocks)
  omega

/-- A used block at a given offset splits the list around it. -/
theorem exists_split_of_mem_usedBlocks {start : Nat} {blocks : List Block} {entry : Nat × Nat}
    (member : entry ∈ usedBlocks start blocks) :
    ∃ before block after, blocks = before ++ block :: after ∧ start + total before = entry.1 ∧
      block.size = entry.2 ∧ block.used = true := by
  induction blocks generalizing start with
  | nil => simp [usedBlocks] at member
  | cons block rest induction =>
      simp only [usedBlocks, List.mem_append] at member
      rcases member with here | later
      · split at here
        · simp only [List.mem_singleton] at here
          subst here
          exact ⟨[], block, rest, rfl, rfl, rfl, ‹_›⟩
        · simp at here
      · obtain ⟨before, found, after, split, offset, size, used⟩ := induction later
        exact ⟨block :: before, found, after, by rw [split]; rfl,
          by simp only [total_cons]; omega, size, used⟩

/-! ## First fit -/

/-- First fit over the blocks: the blocks before the first free block of at least `size`
bytes, that block, and the blocks after it. -/
def firstFit (size : Nat) : List Block → Option (List Block × Block × List Block)
  | [] => none
  | block :: rest =>
      if !block.used ∧ size ≤ block.size then some ([], block, rest)
      else (firstFit size rest).map fun (before, found, after) => (block :: before, found, after)

theorem firstFit_spec {size : Nat} {blocks before after : List Block} {found : Block}
    (fits : firstFit size blocks = some (before, found, after)) :
    blocks = before ++ found :: after ∧ found.used = false ∧ size ≤ found.size ∧
      ∀ block ∈ before, block.used = true ∨ block.size < size := by
  induction blocks generalizing before with
  | nil => simp [firstFit] at fits
  | cons block rest induction =>
      simp only [firstFit] at fits
      split at fits
      · simp only [Option.some.injEq, Prod.mk.injEq] at fits
        obtain ⟨rfl, rfl, rfl⟩ := fits
        simp_all
      · rename_i notFit
        obtain ⟨⟨before', found', after'⟩, later, equal⟩ := Option.map_eq_some'.mp fits
        simp only [Prod.mk.injEq] at equal
        obtain ⟨rfl, rfl, rfl⟩ := equal
        obtain ⟨split, free, fit, skipped⟩ := induction later
        refine ⟨by rw [split]; rfl, free, fit, ?_⟩
        intro other member
        rcases List.mem_cons.mp member with rfl | member
        · cases used : other.used <;> simp_all
        · exact skipped other member

theorem firstFit_none {size : Nat} {blocks : List Block} (none : firstFit size blocks = none) :
    ∀ block ∈ blocks, block.used = true ∨ block.size < size := by
  induction blocks with
  | nil => simp
  | cons block rest induction =>
      simp only [firstFit] at none
      split at none
      · simp at none
      · rename_i notFit
        intro other member
        rcases List.mem_cons.mp member with rfl | member
        · cases used : other.used <;> simp_all
        · exact induction (Option.map_eq_none'.mp none) other member

/-! ## Release -/

/-- `kfree` on the block at the head of `blocks`: mark it free and absorb the next block when
that one is free (`merge_blocks` looks only to the right). -/
def release : List Block → List Block
  | [] => []
  | [block] => [block.free]
  | block :: next :: rest =>
      if next.used then block.free :: next :: rest else block.merge next :: rest

@[simp] theorem total_release (blocks : List Block) : total (release blocks) = total blocks := by
  match blocks with
  | [] => rfl
  | [block] => simp [release, Block.free]
  | block :: next :: rest =>
      simp only [release]
      split <;> simp [Block.free, Block.merge, Nat.add_assoc]

theorem carve_eq (block : Block) {size : Nat} (sized : allocHeaderSize ≤ size)
    (sizeAligned : size % 16 = 0) :
    ∃ rest, block.carve size sized sizeAligned =
      { size := block.takenSize size, used := true,
        header_le := by unfold Block.takenSize; split <;> first | exact sized | exact block.header_le,
        aligned := by unfold Block.takenSize; split <;> first | exact sizeAligned | exact block.aligned } :: rest := by
  unfold Block.carve Block.takenSize
  split
  · exact ⟨_, rfl⟩
  · exact ⟨[], rfl⟩

theorem payloads_cons_of_used {block : Block} (used : block.used = true) (start : Nat)
    (rest : List Block) :
    payloads start (block :: rest) =
      (start + allocHeaderSize) :: payloads (start + block.size) rest := by
  simp [payloads, usedBlocks, used]

theorem usedTotal_carve (block : Block) {size : Nat} (sized : allocHeaderSize ≤ size)
    (sizeAligned : size % 16 = 0) :
    usedTotal (block.carve size sized sizeAligned) = block.takenSize size := by
  unfold Block.carve Block.takenSize
  split <;> simp

theorem usedBlocks_carve (block : Block) {size : Nat} (sized : allocHeaderSize ≤ size)
    (sizeAligned : size % 16 = 0) (start : Nat) :
    usedBlocks start (block.carve size sized sizeAligned) = [(start, block.takenSize size)] := by
  unfold Block.carve Block.takenSize
  split <;> simp [usedBlocks]

/-- `release` frees the head block whatever its flag was. -/
@[simp] theorem release_free (block : Block) (after : List Block) :
    release (block.free :: after) = release (block :: after) := by
  match after with
  | [] => rfl
  | next :: rest =>
      simp only [release]
      split <;> rfl

theorem usedTotal_release_of_used {block : Block} (used : block.used = true)
    (after : List Block) :
    usedTotal (release (block :: after)) + block.size = usedTotal (block :: after) := by
  match after with
  | [] => simp [release, Block.free, used]
  | next :: rest =>
      simp only [release]
      split <;> simp_all [Block.free, Block.merge] <;> omega

theorem usedBlocks_release (block : Block) (start : Nat) (after : List Block) :
    usedBlocks start (release (block :: after)) = usedBlocks (start + block.size) after := by
  match after with
  | [] => simp [release, usedBlocks, Block.free]
  | next :: rest =>
      simp only [release]
      split
      · simp [usedBlocks, Block.free]
      · simp_all [usedBlocks, Block.merge, Nat.add_assoc]

theorem payloads_release (block : Block) (start : Nat) (after : List Block) :
    payloads start (release (block :: after)) = payloads (start + block.size) after := by
  simp [payloads, usedBlocks_release]

theorem total_carve (block : Block) {size : Nat} (sized : allocHeaderSize ≤ size)
    (sizeAligned : size % 16 = 0) (fit : size ≤ block.size) :
    total (block.carve size sized sizeAligned) = block.size := by
  unfold Block.carve
  split
  · simp only [total_cons, total_nil]; omega
  · simp

end FreeCore
