import FreeCore.Kmalloc.Heap
import FreeCore.Ext4.Format

/-! # Kernel code over the heap

`Kernel` threads the heap and returns or faults. `Triple pre k post` constrains every return of
`k`; `Avoids fault k` says that `k` never stops with `fault`. Both compose over `bind`. -/

namespace FreeCore.Ext4

/-- How kernel code can stop without returning. -/
inductive Fault
  /-- A `kmalloc` whose walk of the block chain never ends. -/
  | hang
  /-- The divide error (`#DE`) of a division by zero. -/
  | divideError
  /-- Undefined behaviour: a store past the end of the object it is made through. What the code
  does next is not defined; on the stack it overwrites the frame's saved registers. -/
  | undefined
deriving DecidableEq, Repr

/-- Kernel code: it threads the heap, and returns or faults. -/
abbrev Kernel := StateT Heap (Except Fault)

namespace Kernel

/-- `kmalloc(size)`. -/
def kmalloc (size : Nat) : Kernel (Option Nat) := fun heap =>
  match FreeCore.kmalloc heap size with
  | none => .error .hang
  | some (heap, ptr) => .ok (ptr, heap)

/-- `kfree(ptr)`. -/
def kfree (ptr : Option Nat) : Kernel Unit := modify fun heap => FreeCore.kfree heap ptr

/-- The heap's bytes. -/
def memory : Kernel Memory := fun heap => .ok (heap.mem, heap)

/-- Store `count` bytes from `source` at `address`. -/
def put (address count : Nat) (source : Nat → UInt8) : Kernel Unit :=
  modify fun heap => { heap with mem := heap.mem.put address count source }

/-- `memcpy(dest, src, count)` inside the heap. On overlap `memcpy` falls back to `memmove`,
so either way the destination receives the bytes the source held before the call. -/
def memcpy (dest src count : Nat) : Kernel Unit := do
  let mem ← memory
  put dest count fun index => mem (src + index)

/-- `memset(dest, value, count)`. -/
def memset (dest : Nat) (value : UInt8) (count : Nat) : Kernel Unit := put dest count fun _ => value

/-- A 64-bit or 32-bit unsigned division: the divide error when the divisor is zero. -/
def divide (dividend divisor : Nat) : Kernel Nat :=
  if divisor = 0 then throw .divideError else pure (dividend / divisor)

/-- The remainder of an unsigned division: the divide error when the divisor is zero. -/
def remainder (dividend divisor : Nat) : Kernel Nat :=
  if divisor = 0 then throw .divideError else pure (dividend % divisor)

/-- `device->ops->read(device, offset, size, buffer)`: the device's status, and its bytes
stored into the buffer. -/
def deviceRead (device : Device) (offset size buffer : Nat) : Kernel Int := do
  match (device.read offset size).2 with
  | none => pure ()
  | some bytes => put buffer size bytes
  pure (device.read offset size).1

end Kernel

/-! ## Running kernel code -/

section Run

variable {α β : Type}

theorem run_bind_eq_ok (x : Kernel α) (f : α → Kernel β) (heap : Heap) (result : β × Heap) :
    (x >>= f).run heap = .ok result ↔
      ∃ value heap', x.run heap = .ok (value, heap') ∧ (f value).run heap' = .ok result := by
  simp only [StateT.run_bind]
  cases x.run heap with
  | error fault => simp [bind, Except.bind]
  | ok pair =>
      obtain ⟨value, heap'⟩ := pair
      exact ⟨fun run => ⟨value, heap', rfl, run⟩, fun ⟨_, _, same, run⟩ => by cases same; exact run⟩

theorem run_bind_eq_error (x : Kernel α) (f : α → Kernel β) (heap : Heap) (fault : Fault) :
    (x >>= f).run heap = .error fault ↔ x.run heap = .error fault ∨
      ∃ value heap', x.run heap = .ok (value, heap') ∧ (f value).run heap' = .error fault := by
  simp only [StateT.run_bind]
  cases x.run heap with
  | error other => simp [bind, Except.bind]
  | ok pair =>
      obtain ⟨value, heap'⟩ := pair
      exact ⟨fun run => .inr ⟨value, heap', rfl, run⟩, fun
        | .inl early => by cases early
        | .inr ⟨_, _, same, run⟩ => by cases same; exact run⟩

@[simp] theorem except_ok_bind {ε : Type} (value : α) (f : α → Except ε β) :
    (Except.ok value >>= f) = f value := rfl

/-- A computation that returns hands its value and heap to the rest. -/
theorem run_bind_of_ok {x : Kernel α} {f : α → Kernel β} {heap heap' : Heap} {value : α}
    (ran : x.run heap = .ok (value, heap')) : (x >>= f).run heap = (f value).run heap' := by
  rw [StateT.run_bind, ran]
  rfl

theorem run_divide {dividend divisor : Nat} (positive : 0 < divisor) (heap : Heap) :
    (Kernel.divide dividend divisor).run heap = .ok (dividend / divisor, heap) := by
  simp only [Kernel.divide, Nat.pos_iff_ne_zero.mp positive, if_false]
  rfl

theorem run_remainder {dividend divisor : Nat} (positive : 0 < divisor) (heap : Heap) :
    (Kernel.remainder dividend divisor).run heap = .ok (dividend % divisor, heap) := by
  simp only [Kernel.remainder, Nat.pos_iff_ne_zero.mp positive, if_false]
  rfl

@[simp] theorem run_pure (value : α) (heap : Heap) :
    (pure value : Kernel α).run heap = .ok (value, heap) := rfl

@[simp] theorem run_kfree (ptr : Option Nat) (heap : Heap) :
    (Kernel.kfree ptr).run heap = .ok ((), FreeCore.kfree heap ptr) := rfl

@[simp] theorem run_memory (heap : Heap) : Kernel.memory.run heap = .ok (heap.mem, heap) := rfl

@[simp] theorem run_put (address count : Nat) (source : Nat → UInt8) (heap : Heap) :
    (Kernel.put address count source).run heap =
      .ok ((), { heap with mem := heap.mem.put address count source }) := rfl

theorem run_kmalloc_eq_ok {size : Nat} {heap heap' : Heap} {ptr : Option Nat} :
    (Kernel.kmalloc size).run heap = .ok (ptr, heap') ↔
      FreeCore.kmalloc heap size = some (heap', ptr) := by
  simp only [StateT.run, Kernel.kmalloc]
  cases FreeCore.kmalloc heap size with
  | none => simp
  | some pair =>
      obtain ⟨heap'', ptr'⟩ := pair
      simp [eq_comm, and_comm]

end Run

/-! ## Triples -/

/-- From a heap satisfying `pre`, every return of `k` satisfies `post`. -/
def Triple {α : Type} (pre : Heap → Prop) (k : Kernel α) (post : α → Heap → Prop) : Prop :=
  ∀ heap, pre heap → ∀ value heap', k.run heap = .ok (value, heap') → post value heap'

namespace Triple

variable {α β : Type} {pre : Heap → Prop} {post : α → Heap → Prop}

theorem pure' (value : α) (holds : ∀ heap, pre heap → post value heap) :
    Triple pre (pure value) post := by
  intro heap before result heap' run
  simp only [run_pure, Except.ok.injEq, Prod.mk.injEq] at run
  obtain ⟨rfl, rfl⟩ := run
  exact holds heap before

/-- Every computation returns something. -/
theorem any {k : Kernel α} : Triple pre k fun _ _ => True := fun _ _ _ _ _ => trivial

/-- A fault returns nothing. -/
theorem throw (fault : Fault) : Triple pre (throw fault : Kernel α) post :=
  fun _ _ _ _ run => nomatch run

theorem bind {x : Kernel α} {f : α → Kernel β} {middle : α → Heap → Prop}
    {final : β → Heap → Prop} (first : Triple pre x middle)
    (second : ∀ value, Triple (middle value) (f value) final) : Triple pre (x >>= f) final := by
  intro heap before result heap' run
  obtain ⟨value, heapMiddle, ran, rest⟩ := (run_bind_eq_ok x f heap _).mp run
  exact second value heapMiddle (first heap before value heapMiddle ran) result heap' rest

theorem mono {k : Kernel α} {pre' : Heap → Prop} {post' : α → Heap → Prop}
    (triple : Triple pre k post) (weaker : ∀ heap, pre' heap → pre heap)
    (stronger : ∀ value heap, post value heap → post' value heap) : Triple pre' k post' :=
  fun heap before value heap' run => stronger value heap' (triple heap (weaker heap before) value heap' run)

theorem ite {condition : Prop} [Decidable condition] {yes no : Kernel α}
    (ifYes : condition → Triple pre yes post) (ifNo : ¬condition → Triple pre no post) :
    Triple pre (if condition then yes else no) post := by
  split
  · exact ifYes ‹_›
  · exact ifNo ‹_›

theorem kfree {post : Unit → Heap → Prop} (ptr : Option Nat) :
    Triple (fun heap => post () (FreeCore.kfree heap ptr)) (Kernel.kfree ptr) post := by
  intro heap before value heap' run
  simp only [run_kfree, Except.ok.injEq, Prod.mk.injEq] at run
  obtain ⟨-, rfl⟩ := run
  exact before

theorem put {post : Unit → Heap → Prop} (address count : Nat) (source : Nat → UInt8) :
    Triple (fun heap => post () { heap with mem := heap.mem.put address count source })
      (Kernel.put address count source) post := by
  intro heap before value heap' run
  simp only [run_put, Except.ok.injEq, Prod.mk.injEq] at run
  obtain ⟨-, rfl⟩ := run
  exact before

theorem memory {post : Memory → Heap → Prop} :
    Triple (fun heap => post heap.mem heap) Kernel.memory post := by
  intro heap before value heap' run
  simp only [run_memory, Except.ok.injEq, Prod.mk.injEq] at run
  obtain ⟨rfl, rfl⟩ := run
  exact before

theorem divide {post : Nat → Heap → Prop} (dividend divisor : Nat) :
    Triple (post (dividend / divisor)) (Kernel.divide dividend divisor) post := by
  intro heap before value heap' run
  unfold Kernel.divide at run
  split at run
  · cases run
  · simp only [run_pure, Except.ok.injEq, Prod.mk.injEq] at run
    obtain ⟨rfl, rfl⟩ := run
    exact before

theorem remainder {post : Nat → Heap → Prop} (dividend divisor : Nat) :
    Triple (post (dividend % divisor)) (Kernel.remainder dividend divisor) post := by
  intro heap before value heap' run
  unfold Kernel.remainder at run
  split at run
  · cases run
  · simp only [run_pure, Except.ok.injEq, Prod.mk.injEq] at run
    obtain ⟨rfl, rfl⟩ := run
    exact before

theorem divide_eq (dividend divisor : Nat) :
    Triple pre (Kernel.divide dividend divisor) fun value _ => value = dividend / divisor :=
  fun heap _ => @divide (fun value _ => value = dividend / divisor) dividend divisor heap rfl

/-- What a computation returns, some run of it returned. -/
theorem returned {k : Kernel α} :
    Triple pre k fun value _ => ∃ heap heap', k.run heap = .ok (value, heap') :=
  fun heap _ _ heap' run => ⟨heap, heap', run⟩

/-- A precondition that does not depend on the heap can be assumed. -/
theorem of_fact {fact : Prop} {k : Kernel α} (triple : fact → Triple (fun _ => True) k post) :
    Triple (fun _ => fact) k post :=
  fun heap holds => triple holds heap trivial

end Triple

/-! ## Computations that avoid a fault -/

/-- `k` never stops with `fault`, from any heap. -/
def Avoids {α : Type} (fault : Fault) (k : Kernel α) : Prop :=
  ∀ heap, k.run heap ≠ .error fault

/-- `k` never raises the divide error, from any heap. -/
def NeverDivides {α : Type} (k : Kernel α) : Prop := Avoids .divideError k

namespace Avoids

variable {α β : Type} {fault : Fault}

theorem pure' (value : α) : Avoids fault (pure value : Kernel α) := fun heap run => by
  rw [run_pure] at run
  cases run

theorem throw {thrown : Fault} (other : fault ≠ thrown) : Avoids fault (throw thrown : Kernel α) :=
  fun _ run => other (Except.error.inj run).symm

theorem bind {x : Kernel α} {f : α → Kernel β} (first : Avoids fault x)
    (second : ∀ value, Avoids fault (f value)) : Avoids fault (x >>= f) := by
  intro heap run
  rcases (run_bind_eq_error x f heap _).mp run with early | ⟨value, heap', -, late⟩
  · exact first heap early
  · exact second value heap' late

theorem ite {condition : Prop} [Decidable condition] {yes no : Kernel α}
    (ifYes : condition → Avoids fault yes) (ifNo : ¬condition → Avoids fault no) :
    Avoids fault (if condition then yes else no) := by
  split
  · exact ifYes ‹_›
  · exact ifNo ‹_›

/-- `kmalloc` can only hang. -/
theorem kmalloc (size : Nat) (other : fault ≠ .hang) : Avoids fault (Kernel.kmalloc size) := by
  intro heap run
  simp only [StateT.run, Kernel.kmalloc] at run
  split at run
  · exact other (Except.error.inj run).symm
  · cases run

theorem kfree (ptr : Option Nat) : Avoids fault (Kernel.kfree ptr) := fun heap run => by
  rw [run_kfree] at run
  cases run

theorem memory : Avoids fault Kernel.memory := fun heap run => by
  rw [run_memory] at run
  cases run

theorem put (address count : Nat) (source : Nat → UInt8) :
    Avoids fault (Kernel.put address count source) := fun heap run => by
  rw [run_put] at run
  cases run

/-- A division raises the divide error only when its divisor is zero. -/
theorem divide {dividend divisor : Nat} (nonzero : fault = .divideError → 0 < divisor) :
    Avoids fault (Kernel.divide dividend divisor) := by
  unfold Kernel.divide
  split
  · exact throw fun same => Nat.pos_iff_ne_zero.mp (nonzero same) ‹_›
  · exact pure' _

theorem remainder {dividend divisor : Nat} (nonzero : fault = .divideError → 0 < divisor) :
    Avoids fault (Kernel.remainder dividend divisor) := by
  unfold Kernel.remainder
  split
  · exact throw fun same => Nat.pos_iff_ne_zero.mp (nonzero same) ‹_›
  · exact pure' _

theorem deviceRead (device : Device) (offset size buffer : Nat) :
    Avoids fault (Kernel.deviceRead device offset size buffer) := by
  unfold Kernel.deviceRead
  split
  · exact bind (pure' _) fun _ => pure' _
  · exact bind (put _ _ _) fun _ => pure' _

end Avoids

end FreeCore.Ext4
