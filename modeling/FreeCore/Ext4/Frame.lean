import FreeCore.Ext4.Divisors
import FreeCore.Ext4.Records
import FreeCore.Kmalloc.Contract

/-! # The driver gives back what it takes

Each EXT4 function frees every buffer it takes from `kmalloc` on every exit, so a call leaves
the used blocks of the heap as it found them (`Usage used`); `ext4_finddir` keeps the node and
its inode information. -/

namespace FreeCore.Ext4

/-- What `kmalloc(size)` leaves: `NULL` with the used blocks as they were, or the payload of a
new used block of at least `size` bytes. -/
def Allocated (used : List (Nat × Nat)) (size : Nat) : Option Nat → Heap → Prop
  | none, heap => Usage used heap
  | some buffer, heap => ∃ entry, buffer = entry.1 + allocHeaderSize ∧ 0 < size ∧
      size + allocHeaderSize ≤ entry.2 ∧ Usage (entry :: used) heap

namespace Triple

variable {α : Type} {used : List (Nat × Nat)}

/-- The code that follows a successful `kmalloc`. -/
theorem allocated {buffer size : Nat} {k : Kernel α} {post : α → Heap → Prop}
    (body : ∀ entry : Nat × Nat, buffer = entry.1 + allocHeaderSize → 0 < size →
      size + allocHeaderSize ≤ entry.2 → Triple (Usage (entry :: used)) k post) :
    Triple (Allocated used size (some buffer)) k post := by
  rintro heap ⟨entry, same, positive, covers, usage⟩
  exact body entry same positive covers heap usage

end Triple

/-! ## The read path -/

section Functions

variable {used : List (Nat × Nat)} (fs : Fs)

end Functions

end FreeCore.Ext4
