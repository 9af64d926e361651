import FreeCore.Kmalloc.Refinement
import Mathlib.Algebra.BigOperators.Group.List

/-! # The allocator's contract

What callers of `kmalloc` and `kfree` rely on, over the used blocks of the chain (`Usage`). -/

namespace FreeCore

section Spec

variable {heap : Heap} {blocks : List Block} (chain : Chain heap.mem blocks)
  (initialized : heap.heapInitialized = true) (heapUsed : heap.heapUsed = usedTotal blocks)
include chain initialized heapUsed

/-- A request that fits: `kmalloc` carves the first fit, returns its payload, and adds the size
of the used block to `heap_used`. -/
theorem kmalloc_of_fit {size : Nat} (positive : 0 < size) (bounded : size ≤ sizeModulus - 32)
    {before after : List Block} {found : Block}
    (fits : firstFit (kmallocTotalSize size) blocks = some (before, found, after)) :
    ∃ heap', kmalloc heap size = some (heap', some (total before + allocHeaderSize)) ∧
      heap'.heapInitialized = true ∧
      Chain heap'.mem (before ++ found.carve (kmallocTotalSize size)
        (kmallocTotalSize_sized positive bounded) (kmallocTotalSize_aligned bounded) ++ after) ∧
      heap'.heapUsed = heap.heapUsed + found.takenSize (kmallocTotalSize size) := by
  have sized := kmallocTotalSize_sized positive bounded
  have aligned := kmallocTotalSize_aligned bounded
  have run := kmalloc_of_firstFit_some chain initialized positive fits
  obtain ⟨split, -, fit, -⟩ := firstFit_spec fits
  subst split
  have carvedChain : Chain (splitBlock heap.mem (total before) (kmallocTotalSize size))
      (before ++ found.carve _ sized aligned ++ after) := by
    refine ⟨layout_splitBlock chain.layout chain.total_eq sized aligned fit, ?_⟩
    have := chain.total_eq
    simp only [total_append, total_cons, total_carve found sized aligned fit] at this ⊢
    omega
  obtain ⟨rest, carveEq⟩ := carve_eq found sized aligned
  have taken : (readHeader (splitBlock heap.mem (total before) (kmallocTotalSize size))
      (total before)).size = found.takenSize (kmallocTotalSize size) := by
    have layout := carvedChain.layout
    rw [List.append_assoc, layout_append, Nat.zero_add, carveEq] at layout
    rw [layout.2.1]
    rfl
  refine ⟨_, run, initialized, carvedChain, ?_⟩
  have bound := usedTotal_le_total (before ++ found :: after)
  have takenBound := found.takenSize_le (kmallocTotalSize size)
  have arena := chain.total_eq
  rw [arena] at bound
  simp only [total_append, total_cons] at arena
  show sizeAdd heap.heapUsed _ = _
  rw [taken, heapUsed,
    sizeAdd_of_lt (by rw [sizeModulus_eq]; simp only [kernelHeapSize] at bound arena; omega)]

/-- `kmalloc` returns: `NULL` with the heap unchanged, or the payload of a new used block that
covers the request. -/
theorem kmalloc_spec {size : Nat} (bounded : size ≤ sizeModulus - 32) :
    ∃ heap' ptr, kmalloc heap size = some (heap', ptr) ∧ heap'.heapInitialized = true ∧
      ((ptr = none ∧ heap' = heap) ∨
        ∃ others entry, ptr = some (entry.1 + allocHeaderSize) ∧
          size + allocHeaderSize ≤ entry.2 ∧ Chain heap'.mem others ∧
          heap'.heapUsed = usedTotal others ∧
          (usedBlocks 0 others).Perm (entry :: usedBlocks 0 blocks)) := by
  by_cases zero : size = 0
  · exact ⟨heap, none, by simp [kmalloc, zero], initialized, .inl ⟨rfl, rfl⟩⟩
  have positive : 0 < size := Nat.pos_of_ne_zero zero
  cases fits : firstFit (kmallocTotalSize size) blocks with
  | none =>
      exact ⟨heap, none, kmalloc_of_firstFit_none chain initialized positive fits, initialized,
        .inl ⟨rfl, rfl⟩⟩
  | some split =>
      obtain ⟨before, found, after⟩ := split
      obtain ⟨heap', run, initialized', carvedChain, used'⟩ :=
        kmalloc_of_fit chain initialized heapUsed positive bounded fits
      obtain ⟨split, free, fit, -⟩ := firstFit_spec fits
      subst split
      refine ⟨heap', _, run, initialized', .inr ⟨_, (total before,
        found.takenSize (kmallocTotalSize size)), rfl, ?_, carvedChain, ?_, ?_⟩⟩
      · have := found.le_takenSize fit
        have := kmallocTotalSize_ge bounded
        omega
      · rw [used', heapUsed]
        simp only [usedTotal_append, usedTotal_cons, usedTotal_carve, free, Bool.false_eq_true,
          if_false]
        omega
      · simp only [usedBlocks_append, usedBlocks_carve, total_carve found _ _ fit,
          Nat.zero_add, usedBlocks, free, Bool.false_eq_true, if_false, List.nil_append,
          total_append, total_cons, List.append_assoc, List.singleton_append]
        exact List.perm_middle

/-- `kfree` of a used block's payload returns, and removes exactly that block from the used
ones. -/
theorem kfree_spec {entry : Nat × Nat} (member : entry ∈ usedBlocks 0 blocks) :
    ∃ others, Chain (kfree heap (some (entry.1 + allocHeaderSize))).mem others ∧
      (kfree heap (some (entry.1 + allocHeaderSize))).heapUsed = usedTotal others ∧
      ∃ left right, usedBlocks 0 blocks = left ++ entry :: right ∧
        usedBlocks 0 others = left ++ right := by
  obtain ⟨before, block, after, split, offset, size, used⟩ := exists_split_of_mem_usedBlocks member
  subst split
  rw [Nat.zero_add] at offset
  have freed := kfree_of_used chain initialized used
  refine ⟨before ++ release (block :: after), ?_, ?_, usedBlocks 0 before,
    usedBlocks (total before + block.size) after, ?_, ?_⟩
  · rw [← offset]
    exact chain_kfree_of_used chain initialized used
  · have bound := usedTotal_le_total (before ++ block :: after)
    rw [chain.total_eq] at bound
    have released := usedTotal_release_of_used used after
    simp only [usedTotal_append, usedTotal_cons, used, if_true] at heapUsed bound released ⊢
    rw [← offset, freed]
    simp only [heapUsed]
    rw [sizeSub_of_le (by omega) (by rw [sizeModulus_eq]; simp only [kernelHeapSize] at bound; omega)]
    omega
  · rw [usedBlocks_append, Nat.zero_add, usedBlocks, used, if_pos rfl, List.singleton_append,
      offset, size]
  · rw [usedBlocks_append, Nat.zero_add, usedBlocks_release]

end Spec

/-! ## The used blocks of a heap -/

/-- The heap is initialised and its headers form a chain whose used blocks, offset and size,
are `used` up to order, with `heap_used` their total. -/
def Usage (used : List (Nat × Nat)) (heap : Heap) : Prop :=
  heap.heapInitialized = true ∧
    ∃ blocks, Chain heap.mem blocks ∧ heap.heapUsed = usedTotal blocks ∧
      (usedBlocks 0 blocks).Perm used

theorem usedTotal_eq_sum (start : Nat) (blocks : List Block) :
    usedTotal blocks = ((usedBlocks start blocks).map Prod.snd).sum := by
  induction blocks generalizing start with
  | nil => rfl
  | cons block rest induction =>
      simp only [usedTotal_cons, usedBlocks, List.map_append, List.sum_append, ← induction]
      split <;> simp

/-- `count` bytes at `address` can be stored without touching a header: they lie in the payload
of a used block, or past the arena. -/
def Writable (used : List (Nat × Nat)) (address count : Nat) : Prop :=
  (∃ entry ∈ used, entry.1 + allocHeaderSize ≤ address ∧ address + count ≤ entry.1 + entry.2) ∨
    kernelHeapSize ≤ address

namespace Writable

variable {used : List (Nat × Nat)} {address count : Nat}

theorem cons (writable : Writable used address count) (entry : Nat × Nat) :
    Writable (entry :: used) address count :=
  writable.imp_left fun ⟨other, member, inside⟩ => ⟨other, List.mem_cons_of_mem entry member, inside⟩

theorem mono {fewer : Nat} (writable : Writable used address count) (le : fewer ≤ count) :
    Writable used address fewer :=
  writable.imp_left fun ⟨entry, member, lower, upper⟩ => ⟨entry, member, lower, by omega⟩

/-- The payload of a block `kmalloc` just returned. -/
theorem payload {entry : Nat × Nat} (covers : count + allocHeaderSize ≤ entry.2) :
    Writable (entry :: used) (entry.1 + allocHeaderSize) count :=
  .inl ⟨entry, List.mem_cons_self entry used, le_rfl, by omega⟩

end Writable

namespace Usage

variable {used : List (Nat × Nat)} {heap : Heap}

/-- `heap_used` is the total of the used blocks' sizes. -/
theorem heapUsed_eq (usage : Usage used heap) : heap.heapUsed = (used.map Prod.snd).sum := by
  obtain ⟨-, blocks, -, heapUsed, perm⟩ := usage
  rw [heapUsed, usedTotal_eq_sum 0, (perm.map Prod.snd).sum_eq]

theorem perm {other : List (Nat × Nat)} (usage : Usage used heap) (perm : used.Perm other) :
    Usage other heap :=
  ⟨usage.1, usage.2.imp fun _ facts => ⟨facts.1, facts.2.1, facts.2.2.trans perm⟩⟩

/-- Bytes stored where `Writable` allows keep the used blocks. -/
theorem put {address count : Nat} (usage : Usage used heap) (writable : Writable used address count)
    (source : Nat → UInt8) : Usage used { heap with mem := heap.mem.put address count source } := by
  obtain ⟨initialized, blocks, chain, heapUsed, perm⟩ := usage
  refine ⟨initialized, blocks, ?_, heapUsed, perm⟩
  rcases writable with ⟨entry, member, lower, upper⟩ | beyond
  · exact chain.put_payload (perm.symm.subset member) source lower upper
  · refine ⟨chain.layout.congr (Memory.agreeOn_put source (Or.inr ?_)), chain.total_eq⟩
    rw [Nat.zero_add, chain.total_eq]
    exact beyond

/-- `kmalloc` returns `NULL` with the heap unchanged, or the payload of a new used block. -/
theorem kmalloc (usage : Usage used heap) {size : Nat} (bounded : size ≤ sizeModulus - 32) :
    ∃ heap' ptr, FreeCore.kmalloc heap size = some (heap', ptr) ∧
      ((ptr = none ∧ heap' = heap) ∨
        ∃ entry, ptr = some (entry.1 + allocHeaderSize) ∧ size + allocHeaderSize ≤ entry.2 ∧
          Usage (entry :: used) heap') := by
  obtain ⟨initialized, blocks, chain, heapUsed, perm⟩ := usage
  obtain ⟨heap', ptr, run, initialized', outcome⟩ :=
    kmalloc_spec chain initialized heapUsed bounded
  refine ⟨heap', ptr, run, outcome.imp id fun ⟨others, entry, returned, covers, chain',
    heapUsed', perm'⟩ => ⟨entry, returned, covers, initialized', others, chain', heapUsed',
      perm'.trans (perm.cons entry)⟩⟩

/-- `kfree` of a used block's payload drops that block. -/
theorem kfree {entry : Nat × Nat} {rest : List (Nat × Nat)} (usage : Usage (entry :: rest) heap) :
    Usage rest (FreeCore.kfree heap (some (entry.1 + allocHeaderSize))) := by
  obtain ⟨initialized, blocks, chain, heapUsed, perm⟩ := usage
  obtain ⟨others, chain', heapUsed', left, right, split, erased⟩ :=
    kfree_spec chain initialized heapUsed (perm.symm.subset (List.mem_cons_self entry rest))
  rw [split] at perm
  exact ⟨by rw [kfree_heapInitialized]; exact initialized, others, chain', heapUsed',
    erased ▸ (List.perm_middle.symm.trans perm).cons_inv⟩

end Usage

end FreeCore
