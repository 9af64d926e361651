import FreeCore.Memory

/-! # The kernel heap of `mm/kmalloc.c`

The allocator translated function by function over the 4 MiB arena. Addresses are offsets from
`kernel_heap`; `size_t` arithmetic wraps modulo `2^64` (`sizeAdd`, `sizeSub`). -/

namespace FreeCore

/-- `KERNEL_HEAP_SIZE`. -/
def kernelHeapSize : Nat := 4 * 1024 * 1024

/-- `ALLOC_MAGIC`. -/
def allocMagic : Nat := 0xABCD1234

/-- `sizeof(alloc_header_t)`: `size` at offset 0, `magic` at 8, `used` at 12, padded to 16. -/
def allocHeaderSize : Nat := 16

/-- `MIN_ALLOC_SIZE`. -/
def minAllocSize : Nat := allocHeaderSize + 16

/-- `size_t` values are below `2^64`. -/
def sizeModulus : Nat := 2 ^ 64

/-- `a + b` on `size_t`. -/
def sizeAdd (a b : Nat) : Nat := (a + b) % sizeModulus

/-- `a - b` on `size_t`, for `b < 2^64`. -/
def sizeSub (a b : Nat) : Nat := (a + (sizeModulus - b)) % sizeModulus

/-- `(size + 15) & ~15` on `size_t`. -/
def alignSize (size : Nat) : Nat := sizeAdd size 15 - sizeAdd size 15 % 16

/-- The fields of an `alloc_header_t` as the code reads them. -/
structure AllocHeader where
  size : Nat
  magic : Nat
  used : Bool
deriving DecidableEq, Repr

/-- The header stored at `header`. -/
def readHeader (mem : Memory) (header : Nat) : AllocHeader where
  size := mem.load header 8
  magic := mem.load (header + 8) 4
  used := decide (mem (header + 12) ≠ 0)

/-- `header->size = size`. -/
def setSize (mem : Memory) (header size : Nat) : Memory := mem.store header 8 size

/-- `header->magic = magic`. -/
def setMagic (mem : Memory) (header magic : Nat) : Memory := mem.store (header + 8) 4 magic

/-- `header->used = used`. -/
def setUsed (mem : Memory) (header : Nat) (used : Bool) : Memory :=
  mem.store (header + 12) 1 (if used then 1 else 0)

/-- The allocator's state: the bytes of memory, `heap_initialized` and `heap_used`. -/
structure Heap where
  mem : Memory
  heapInitialized : Bool
  heapUsed : Nat

/-- The heap before `kmalloc_init` has run: `heap_initialized` and `heap_used` hold their
static initial values and memory holds whatever it holds. -/
def Heap.uninitialized (mem : Memory) : Heap where
  mem := mem
  heapInitialized := false
  heapUsed := 0

/-- `kmalloc_init`: clear the arena and install one free block spanning it. -/
def kmallocInit (heap : Heap) : Heap :=
  if heap.heapInitialized then heap
  else
    let mem := heap.mem.put 0 kernelHeapSize fun _ => 0
    let mem := setSize mem 0 kernelHeapSize
    let mem := setMagic mem 0 allocMagic
    { mem := setUsed mem 0 false, heapInitialized := true, heapUsed := 0 }

/-- The loop of `find_free_block` from `current`, with `fuel` iterations. `some (some b)` is
the block returned, `some none` is `NULL`, and `none` means the loop never returns: a valid
header whose `size` is 0 sends `current` back to itself, and every later iteration repeats
the same one. Each other iteration moves `current` forward, so `KERNEL_HEAP_SIZE`
iterations always suffice (`findFreeBlockFrom_isSome`). -/
def findFreeBlockFrom (mem : Memory) (size : Nat) : (fuel current : Nat) → Option (Option Nat)
  | 0, _ => none
  | fuel + 1, current =>
      if current < kernelHeapSize then
        if (readHeader mem current).magic ≠ allocMagic then some none
        else if !(readHeader mem current).used ∧ size ≤ (readHeader mem current).size then
          some (some current)
        else if (readHeader mem current).size = 0 then none
        else findFreeBlockFrom mem size fuel (current + (readHeader mem current).size)
      else some none

/-- `find_free_block`: first fit from the start of the arena. -/
def findFreeBlock (mem : Memory) (size : Nat) : Option (Option Nat) :=
  findFreeBlockFrom mem size kernelHeapSize 0

/-- `split_block`: carve a free remainder off `block` when it is large enough, then mark
`block` used. The writes are made in the order of the source. -/
def splitBlock (mem : Memory) (block size : Nat) : Memory :=
  let blockSize := (readHeader mem block).size
  let mem :=
    if sizeAdd size minAllocSize ≤ blockSize then
      let newBlock := block + size
      let mem := setSize mem newBlock (sizeSub blockSize size)
      let mem := setMagic mem newBlock allocMagic
      let mem := setUsed mem newBlock false
      setSize mem block size
    else mem
  setUsed mem block true

/-- `total_size` in `kmalloc`: the request aligned to 16 bytes, plus the header. -/
def kmallocTotalSize (size : Nat) : Nat := sizeAdd (alignSize size) allocHeaderSize

/-- `kmalloc`. The outer `Option` is `none` when the call never returns; the inner one is the
returned pointer, `none` for `NULL`. -/
def kmalloc (heap : Heap) (size : Nat) : Option (Heap × Option Nat) :=
  if size = 0 then some (heap, none)
  else
    let heap := kmallocInit heap
    let totalSize := kmallocTotalSize size
    match findFreeBlock heap.mem totalSize with
    | none => none
    | some none => some (heap, none)
    | some (some block) =>
        let mem := splitBlock heap.mem block totalSize
        some ({ heap with mem, heapUsed := sizeAdd heap.heapUsed (readHeader mem block).size },
          some (block + allocHeaderSize))

/-- `kzalloc`: `kmalloc`, then zero the `size` requested bytes. -/
def kzalloc (heap : Heap) (size : Nat) : Option (Heap × Option Nat) :=
  (kmalloc heap size).map fun
    | (heap, none) => (heap, none)
    | (heap, some ptr) => ({ heap with mem := heap.mem.put ptr size fun _ => 0 }, some ptr)

/-- `validate_block` for the header at `header` (an offset that may lie below the arena). -/
def validateBlock (mem : Memory) (header : Int) : Bool :=
  if header < 0 ∨ kernelHeapSize ≤ header then false
  else if (readHeader mem header.toNat).magic ≠ allocMagic then false
  else if (readHeader mem header.toNat).size < allocHeaderSize ∨
      kernelHeapSize < header.toNat + (readHeader mem header.toNat).size then false
  else true

/-- `merge_blocks`: absorb the right neighbour when it validates and is free, clearing its
magic. -/
def mergeBlocks (mem : Memory) (block : Nat) : Memory :=
  let nextBlock := block + (readHeader mem block).size
  if kernelHeapSize ≤ nextBlock then mem
  else if !validateBlock mem nextBlock then mem
  else if !(readHeader mem nextBlock).used then
    let mem' := setSize mem block
      (sizeAdd (readHeader mem block).size (readHeader mem nextBlock).size)
    setMagic mem' nextBlock 0
  else mem

/-- `kfree`. `NULL` is `none`; any other pointer is its offset from `kernel_heap`. -/
def kfree (heap : Heap) : Option Nat → Heap
  | none => heap
  | some ptr =>
      if !heap.heapInitialized then heap
      else if !validateBlock heap.mem (ptr - allocHeaderSize : Int) then heap
      else if !(readHeader heap.mem (ptr - allocHeaderSize)).used then heap
      else
        let header := ptr - allocHeaderSize
        let mem := setUsed heap.mem header false
        { heap with
          mem := mergeBlocks mem header
          heapUsed := sizeSub heap.heapUsed (readHeader mem header).size }

/-- `krealloc`. As for `kmalloc`, the outer `Option` is `none` when the call never returns. -/
def krealloc (heap : Heap) (ptr : Option Nat) (size : Nat) : Option (Heap × Option Nat) :=
  match ptr with
  | none => kmalloc heap size
  | some ptr =>
      if size = 0 then some (kfree heap (some ptr), none)
      else if !validateBlock heap.mem (ptr - allocHeaderSize : Int) then some (heap, none)
      else
        let currSize := sizeSub (readHeader heap.mem (ptr - allocHeaderSize)).size allocHeaderSize
        if size ≤ currSize then some (heap, some ptr)
        else
          (kmalloc heap size).map fun
            | (heap', none) => (heap', none)
            | (heap', some newPtr) =>
                let copied := { heap' with
                  mem := heap'.mem.put newPtr currSize fun index => heap'.mem (ptr + index) }
                (kfree copied (some ptr), some newPtr)

/-- `kmalloc_stats`: total, used and free bytes, or `none` (the `-1` return) before
initialisation. -/
def kmallocStats (heap : Heap) : Option (Nat × Nat × Nat) :=
  if heap.heapInitialized then
    some (kernelHeapSize, heap.heapUsed, sizeSub kernelHeapSize heap.heapUsed)
  else none

/-! ## Header fields under writes -/

section HeaderFields

variable (mem : Memory) (header : Nat)

theorem readHeader_congr {mem other : Memory} {header : Nat}
    (agree : Memory.AgreeOn mem other header (header + allocHeaderSize)) :
    readHeader mem header = readHeader other header := by
  have size := Memory.load_congr (agree.mono le_rfl (by simp [allocHeaderSize]) :
    Memory.AgreeOn mem other header (header + 8))
  have magic := Memory.load_congr (agree.mono (by omega) (by simp [allocHeaderSize]) :
    Memory.AgreeOn mem other (header + 8) (header + 8 + 4))
  have used := agree (header + 12) (by omega) (by simp [allocHeaderSize])
  simp only [readHeader, size, magic, used]

theorem agreeOn_setSize (size : Nat) {low high : Nat}
    (apart : header + 8 ≤ low ∨ high ≤ header) :
    Memory.AgreeOn mem (setSize mem header size) low high :=
  Memory.agreeOn_store size apart

theorem agreeOn_setMagic (magic : Nat) {low high : Nat}
    (apart : header + 12 ≤ low ∨ high ≤ header + 8) :
    Memory.AgreeOn mem (setMagic mem header magic) low high :=
  Memory.agreeOn_store magic (by omega)

theorem agreeOn_setUsed (used : Bool) {low high : Nat}
    (apart : header + 13 ≤ low ∨ high ≤ header + 12) :
    Memory.AgreeOn mem (setUsed mem header used) low high :=
  Memory.agreeOn_store _ (by omega)

@[simp] theorem readHeader_setSize (size : Nat) :
    readHeader (setSize mem header size) header =
      { readHeader mem header with size := size % 2 ^ 64 } := by
  have magic : (mem.store header 8 size).load (header + 8) 4 = mem.load (header + 8) 4 :=
    Memory.load_store_of_disjoint mem size (by omega)
  have used : mem.store header 8 size (header + 12) = mem (header + 12) :=
    Memory.store_apply_of_not_mem mem size (by omega)
  have modulus : (256 : Nat) ^ 8 = 2 ^ 64 := by norm_num
  simp only [readHeader, setSize, Memory.load_store_same, magic, used, modulus]

@[simp] theorem readHeader_setMagic (magic : Nat) :
    readHeader (setMagic mem header magic) header =
      { readHeader mem header with magic := magic % 2 ^ 32 } := by
  have size : (mem.store (header + 8) 4 magic).load header 8 = mem.load header 8 :=
    Memory.load_store_of_disjoint mem magic (by omega)
  have used : mem.store (header + 8) 4 magic (header + 12) = mem (header + 12) :=
    Memory.store_apply_of_not_mem mem magic (by omega)
  have modulus : (256 : Nat) ^ 4 = 2 ^ 32 := by norm_num
  simp only [readHeader, setMagic, Memory.load_store_same, size, used, modulus]

@[simp] theorem readHeader_setUsed (used : Bool) :
    readHeader (setUsed mem header used) header = { readHeader mem header with used } := by
  have size : (mem.store (header + 12) 1 (if used then 1 else 0)).load header 8 =
      mem.load header 8 := Memory.load_store_of_disjoint mem _ (by omega)
  have magic : (mem.store (header + 12) 1 (if used then 1 else 0)).load (header + 8) 4 =
      mem.load (header + 8) 4 := Memory.load_store_of_disjoint mem _ (by omega)
  have byte : mem.store (header + 12) 1 (if used then 1 else 0) (header + 12) =
      UInt8.ofNat ((if used then 1 else 0) % 256) := by
    rw [Memory.store, Function.update_same]
  simp only [readHeader, setUsed, size, magic, byte]
  cases used <;> rfl

end HeaderFields

end FreeCore
