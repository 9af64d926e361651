import FreeCore.Ext4.Extents
import FreeCore.Ext4.Dir
import Mathlib.Data.List.OfFn

/-! # The records of a directory

On well-formed blocks the live records of a directory form a list of dirents (`dirRecords`), and
`ext4_readdir` and `ext4_find_dir_entry` are both read off it. -/

namespace FreeCore.Ext4

/-! ## The records of a block -/

section Block

variable (block : Memory) (blockSize : Nat)

/-- The records of a block from `offset` on lie inside it: each header and name fit in its
`rec_len`, and each `rec_len` ends inside the block. -/
def ChainWellFormed : (fuel offset : Nat) → Prop
  | 0, _ => True
  | fuel + 1, offset => offset < blockSize →
      8 + deNameLen block offset ≤ deRecLen block offset ∧
        offset + deRecLen block offset ≤ blockSize ∧
        ChainWellFormed fuel (offset + deRecLen block offset)

instance ChainWellFormed.decidable :
    (fuel offset : Nat) → Decidable (ChainWellFormed block blockSize fuel offset)
  | 0, _ => inferInstanceAs (Decidable True)
  | fuel + 1, offset =>
      have : Decidable (ChainWellFormed block blockSize fuel (offset + deRecLen block offset)) :=
        ChainWellFormed.decidable fuel _
      show Decidable (_ → _ ∧ _ ∧ _) from inferInstance

/-- The live records of a block from `offset`, in order: the chain by `rec_len` up to a zero
`rec_len` or the end of the block, without the records whose inode is 0. -/
def blockRecords : (fuel offset : Nat) → List Dirent
  | 0, _ => []
  | fuel + 1, offset =>
      if offset < blockSize ∧ deRecLen block offset ≠ 0 then
        if deInode block offset ≠ 0 then
          direntOf block offset :: blockRecords fuel (offset + deRecLen block offset)
        else blockRecords fuel (offset + deRecLen block offset)
      else []

end Block

/-- The live records of the directory blocks `blockIdx, …`, `remaining` of them, whose bytes
are `blocks`. -/
def dirRecords (blocks : Nat → Memory) (blockSize : Nat) : (blockIdx remaining : Nat) → List Dirent
  | _, 0 => []
  | blockIdx, remaining + 1 =>
      blockRecords (blocks blockIdx) blockSize blockSize 0 ++
        dirRecords blocks blockSize (blockIdx + 1) remaining

/-- `num_blocks` of both scans: the directory's size in blocks, rounded up in 64 bits. -/
def numBlocks (fs : Fs) (inode : Memory) : Nat :=
  wrap 64 (fileSize inode + fs.blockSize + (2 ^ 64 - 1)) / fs.blockSize

/-- The live records of a directory node whose blocks hold `blocks`. -/
def Node.records (node : Node) (blocks : Nat → Memory) : List Dirent :=
  dirRecords blocks node.fs.blockSize 0 (numBlocks node.fs node.rawInode)

/-- What `ext4_readdir` should return for `index`: the record at that index, or `-1`. -/
def nthRecord (records : List Dirent) (index : Nat) : Except Int Dirent :=
  match records[index]? with
  | some dirent => .ok dirent
  | none => .error (-1)

/-- What `ext4_find_dir_entry` should return for `name`: the inode of the first record of that
name, or `-1`. -/
def firstNamed (records : List Dirent) (name : CString) : Except Int Nat :=
  match records.find? fun dirent => dirent.name = name.bytes with
  | some dirent => .ok dirent.inode
  | none => .error (-1)

/-! ## Names -/

/-- `strncmp` against a string whose first `n - 1` bytes are not NUL is 0 exactly when the
first `n` bytes agree. -/
theorem strncmpFrom_eq_zero_iff {s1 s2 : Nat → UInt8} :
    ∀ {index n : Nat}, (∀ j, j + 1 < n → s2 (index + j) ≠ 0) →
      (strncmpFrom s1 s2 index n = 0 ↔ ∀ j < n, s1 (index + j) = s2 (index + j))
  | _, 0, _ => by simp [strncmpFrom]
  | index, 1, _ => by
      simp only [strncmpFrom, sub_eq_zero, Nat.cast_inj, Nat.lt_one_iff, forall_eq, Nat.add_zero]
      exact ⟨UInt8.toNat.inj, congrArg UInt8.toNat⟩
  | index, n + 2, notNul => by
      have first := notNul 0 (by omega)
      rw [Nat.add_zero] at first
      have rest := @strncmpFrom_eq_zero_iff s1 s2 (index + 1) (n + 1) fun j below => by
        simpa only [Nat.add_assoc, Nat.add_comm 1 j] using notNul (j + 1) (by omega)
      by_cases same : s1 index = s2 index
      · rw [strncmpFrom, if_pos ⟨same ▸ first, first, same⟩, rest]
        constructor
        · intro later j below
          cases j with
          | zero => exact same
          | succ j => simpa only [Nat.add_assoc, Nat.add_comm 1 j] using later j (by omega)
        · intro all j below
          simpa only [Nat.add_assoc, Nat.add_comm 1 j] using all (j + 1) (by omega)
      · rw [strncmpFrom, if_neg fun agree => same agree.2.2, sub_eq_zero, Nat.cast_inj]
        exact ⟨fun equal => absurd (UInt8.toNat.inj equal) same,
          fun all => absurd (all 0 (by omega)) same⟩

/-- A record's dirent carries the name of `name` exactly when its `name_len` is `strlen(name)`
and its name bytes are those of `name`. -/
theorem direntOf_name_eq_iff {block : Memory} {offset : Nat} {name : CString} :
    (direntOf block offset).name = name.bytes ↔ deNameLen block offset = strlen name ∧
      ∀ j < strlen name, block (deName offset + j) = name.get j := by
  have short : deNameLen block offset < 256 := Memory.load_lt block _ 1
  have cut : min (deNameLen block offset) vfsNameMax = deNameLen block offset :=
    Nat.min_eq_left (by simp only [vfsNameMax]; omega)
  simp only [direntOf, cut]
  constructor
  · intro same
    have length : deNameLen block offset = strlen name := by
      simpa using congrArg List.length same
    refine ⟨length, fun j below => ?_⟩
    have := congrArg (fun bytes => bytes.getD j 0) same
    simpa [CString.get, length, below] using this
  · rintro ⟨length, bytes⟩
    refine List.ext_getElem (by simpa using length) fun j below within => ?_
    simp only [List.getElem_map, List.getElem_range]
    rw [bytes j (by simpa [length] using below), CString.get, List.getD_eq_getElem?_getD,
      List.getElem?_eq_getElem within, Option.getD_some]

theorem CString.get_ne_zero (name : CString) {j : Nat} (below : j < strlen name) :
    name.get j ≠ 0 := by
  rw [CString.get, List.getD_eq_getElem?_getD, List.getElem?_eq_getElem below, Option.getD_some]
  exact fun zero => name.noNul (zero ▸ List.getElem_mem below)

/-! ## What the two scans should return -/

theorem nthRecord_eq_ok {records : List Dirent} {index : Nat} {dirent : Dirent} :
    nthRecord records index = .ok dirent ↔ records[index]? = some dirent := by
  unfold nthRecord
  cases records[index]? <;> simp

/-- The first record of a name is the record of that name at the smallest index. -/
theorem firstNamed_eq_ok_iff {records : List Dirent} {name : CString} {inodeNum : Nat} :
    firstNamed records name = .ok inodeNum ↔ ∃ index dirent,
      nthRecord records index = .ok dirent ∧ dirent.name = name.bytes ∧ dirent.inode = inodeNum ∧
        ∀ earlier < index, ∀ other, nthRecord records earlier = .ok other → other.name ≠ name.bytes := by
  simp only [nthRecord_eq_ok]
  unfold firstNamed
  constructor
  · intro found
    split at found
    · rename_i dirent first
      obtain ⟨named, index, within, rfl, before⟩ := List.find?_eq_some_iff_getElem.mp first
      injection found with same
      refine ⟨index, _, List.getElem?_eq_getElem within, by simpa using named, same,
        fun earlier below other stored => ?_⟩
      rw [List.getElem?_eq_some_iff] at stored
      obtain ⟨_, rfl⟩ := stored
      simpa using before earlier below
    · cases found
  · rintro ⟨index, dirent, stored, named, rfl, before⟩
    obtain ⟨within, rfl⟩ := List.getElem?_eq_some_iff.mp stored
    have first : (records.find? fun dirent => dirent.name = name.bytes) = some records[index] :=
      List.find?_eq_some_iff_getElem.mpr ⟨by simpa using named, index, within, rfl,
        fun earlier below => by
          simpa using before earlier below _ (List.getElem?_eq_getElem (by omega))⟩
    rw [first]

/-- `ext4_find_dir_entry` should return `-1` exactly when no record has the name. -/
theorem firstNamed_eq_error_iff {records : List Dirent} {name : CString} :
    firstNamed records name = .error (-1) ↔ ∀ dirent ∈ records, dirent.name ≠ name.bytes := by
  unfold firstNamed
  split
  · rename_i dirent first
    refine iff_of_false (by simp) fun none => none dirent (List.mem_of_find?_eq_some first) ?_
    simpa using List.find?_some first
  · rename_i missing
    exact iff_of_true rfl fun dirent member => by simpa using List.find?_eq_none.mp missing dirent member

/-! ## One block in the buffer -/

section Scan

variable {mem block : Memory} {buffer blockSize : Nat} (holds : Holds mem buffer block blockSize)
  (small : blockSize < 2 ^ 32)
include holds

/-- A record inside the block is read from the buffer as the block's, and the next offset
does not wrap. -/
theorem Holds.record {offset : Nat} (named : 8 + deNameLen block offset ≤ deRecLen block offset)
    (ends : offset + deRecLen block offset ≤ blockSize) :
    deRecLen mem (buffer + offset) = deRecLen block offset ∧
      deInode mem (buffer + offset) = deInode block offset ∧
      deNameLen mem (buffer + offset) = deNameLen block offset ∧
      direntOf mem (buffer + offset) = direntOf block offset := by
  have field : ∀ {extra width : Nat}, extra + width ≤ 8 →
      mem.load (buffer + offset + extra) width = block.load (offset + extra) width :=
    fun fits => by rw [Nat.add_assoc]; exact holds.load (by omega)
  have nameLen : deNameLen mem (buffer + offset) = deNameLen block offset := field (by decide)
  have inode : deInode mem (buffer + offset) = deInode block offset := holds.load (by omega)
  have fileType : deFileType mem (buffer + offset) = deFileType block offset := field (by decide)
  refine ⟨field (by decide), inode, nameLen, ?_⟩
  simp only [direntOf, nameLen, inode, fileType, Dirent.mk.injEq, true_and]
  refine List.map_congr_left fun byte member => ?_
  rw [List.mem_range] at member
  have := holds (offset + 8 + byte) (by omega)
  simpa only [deName, Nat.add_assoc] using this

/-- The name test of `ext4_find_dir_entry` on a record inside the block is the test that the
record's dirent carries the name. -/
theorem Holds.nameMatches {offset : Nat} (name : CString)
    (named : 8 + deNameLen block offset ≤ deRecLen block offset)
    (ends : offset + deRecLen block offset ≤ blockSize) :
    (deNameLen mem (buffer + offset) = strlen name ∧
      strncmp (fun byte => mem (deName (buffer + offset) + byte)) name.get
        (deNameLen mem (buffer + offset)) = 0) ↔ (direntOf block offset).name = name.bytes := by
  rw [direntOf_name_eq_iff, (holds.record named ends).2.2.1]
  refine and_congr_right fun length => ?_
  rw [length, strncmp, strncmpFrom_eq_zero_iff fun j below => by
    simpa using name.get_ne_zero (show j < strlen name by omega)]
  refine forall₂_congr fun j below => ?_
  rw [show deName (buffer + offset) + (0 + j) = buffer + (offset + 8 + j) by simp only [deName]; omega,
    holds _ (by omega), Nat.zero_add]
  rfl

variable (small : blockSize < 2 ^ 32)
include small

/-- The record scan of `ext4_readdir` over a well-formed block, with `entryIdx` live records
counted before it: the record at `index`, or the count at the end of the block. -/
theorem readdirInBlock_eq {index : Nat} (bounded : index < 2 ^ 32) :
    ∀ {fuel offset entryIdx : Nat}, ChainWellFormed block blockSize fuel offset → entryIdx ≤ index →
      readdirInBlock mem buffer blockSize index fuel offset entryIdx =
        match (blockRecords block blockSize fuel offset)[index - entryIdx]? with
        | some dirent => .inl dirent
        | none => .inr (entryIdx + (blockRecords block blockSize fuel offset).length)
  | 0, _, _, _, _ => rfl
  | fuel + 1, offset, entryIdx, wellFormed, counted => by
      by_cases inside : offset < blockSize
      · obtain ⟨named, ends, rest⟩ := wellFormed inside
        obtain ⟨recLen, inode, -, dirent⟩ := holds.record named ends
        have nonzero : deRecLen block offset ≠ 0 := by omega
        have next : wrap 32 (offset + deRecLen block offset) = offset + deRecLen block offset :=
          Nat.mod_eq_of_lt (by omega)
        simp only [readdirInBlock, blockRecords, inside, recLen, inode, nonzero, dirent, next, ne_eq,
          not_false_eq_true, and_self, if_true, if_false]
        by_cases live : deInode block offset = 0
        · simp only [live, not_true_eq_false, if_false]
          exact readdirInBlock_eq bounded rest counted
        · simp only [live, not_false_eq_true, if_true]
          by_cases found : entryIdx = index
          · subst found
            simp
          · have step : wrap 32 (entryIdx + 1) = entryIdx + 1 := Nat.mod_eq_of_lt (by omega)
            rw [if_neg found, step, readdirInBlock_eq bounded rest (by omega),
              show index - entryIdx = index - (entryIdx + 1) + 1 by omega]
            simp only [List.getElem?_cons_succ, List.length_cons, Nat.add_right_comm _ 1,
              Nat.add_assoc]
      · simp [readdirInBlock, blockRecords, inside]

/-- The record scan of `ext4_find_dir_entry` over a well-formed block: the inode of the first
live record named `name`. -/
theorem findInBlock_eq (name : CString) :
    ∀ {fuel offset : Nat}, ChainWellFormed block blockSize fuel offset →
      findInBlock mem buffer blockSize name fuel offset =
        ((blockRecords block blockSize fuel offset).find? fun dirent => dirent.name = name.bytes).map
          Dirent.inode
  | 0, _, _ => rfl
  | fuel + 1, offset, wellFormed => by
      by_cases inside : offset < blockSize
      · obtain ⟨named, ends, rest⟩ := wellFormed inside
        obtain ⟨recLen, inode, -, -⟩ := holds.record named ends
        have nonzero : deRecLen block offset ≠ 0 := by omega
        have next : wrap 32 (offset + deRecLen block offset) = offset + deRecLen block offset :=
          Nat.mod_eq_of_lt (by omega)
        have naming := holds.nameMatches name named ends
        simp only [findInBlock, blockRecords, inside, recLen, inode, nonzero, next, ne_eq,
          not_false_eq_true, and_self, if_true, if_false]
        by_cases live : deInode block offset = 0
        · simp only [live, not_true_eq_false, false_and, if_false]
          exact findInBlock_eq name rest
        · by_cases found : (direntOf block offset).name = name.bytes
          · rw [if_pos ⟨live, naming.mpr found⟩, if_pos live, List.find?_cons_of_pos _ (by simpa using found)]
            rfl
          · rw [if_neg fun test => found (naming.mp test.2), if_pos live,
              List.find?_cons_of_neg _ (by simpa using found)]
            exact findInBlock_eq name rest
      · simp [findInBlock, blockRecords, inside]

end Scan

/-! ## The block loops -/

/-- Each read of the directory blocks `blockIdx, …`, `remaining` of them, made in turn from
`heap` into `buffer`, returns a nonnegative status and leaves the block's bytes `blocks` in the
buffer. -/
def ReadsSucceed (fs : Fs) (inode : Memory) (buffer : Nat) (blocks : Nat → Memory) :
    (blockIdx remaining : Nat) → Heap → Prop
  | _, 0, _ => True
  | blockIdx, remaining + 1, heap => ∃ status heap', 0 ≤ status ∧
      (ext4ReadFileBlock fs inode blockIdx buffer).run heap = .ok (status, heap') ∧
      Holds heap'.mem buffer (blocks blockIdx) fs.blockSize ∧
      ReadsSucceed fs inode buffer blocks (blockIdx + 1) remaining heap'

section Loops

/- The loops are stated over `blockSize`, equal to `fs.blockSize`: a chain fact over a variable
size needs no evaluation of the superblock when it is elaborated. -/
variable {fs : Fs} {inode : Memory} {buffer : Nat} {blocks : Nat → Memory} {blockSize : Nat}
  (sized : fs.blockSize = blockSize)
include sized

/-- The block loop of `ext4_readdir`, with `entryIdx` live records counted before block
`blockIdx`: the record at `index` of the blocks left. -/
theorem readdirBlocks_eq {index blockIdx entryIdx remaining : Nat} {heap : Heap}
    (bounded : index < 2 ^ 32)
    (wellFormed : ∀ b, blockIdx ≤ b → b < blockIdx + remaining →
      ChainWellFormed (blocks b) blockSize blockSize 0)
    (reads : ReadsSucceed fs inode buffer blocks blockIdx remaining heap) (counted : entryIdx ≤ index) :
    ∃ heap', (readdirBlocks fs inode buffer index blockIdx entryIdx remaining).run heap =
      .ok (nthRecord (dirRecords blocks blockSize blockIdx remaining) (index - entryIdx), heap') := by
  induction remaining generalizing blockIdx entryIdx heap with
  | zero => exact ⟨heap, rfl⟩
  | succ remaining induction =>
      obtain ⟨status, heap1, nonneg, ran, holds, reads⟩ := reads
      rw [sized] at holds
      have scan := readdirInBlock_eq holds (sized ▸ fs.blockSize_lt) bounded
        (wellFormed blockIdx le_rfl (by omega)) counted
      simp only [readdirBlocks, StateT.run_bind, ran, except_ok_bind, if_neg (not_lt.mpr nonneg),
        pure_bind, run_memory, sized, scan, dirRecords, nthRecord, List.getElem?_append]
      split_ifs with within
      · rw [List.getElem?_eq_getElem within]
        exact ⟨heap1, rfl⟩
      · rw [List.getElem?_eq_none (Nat.le_of_not_lt within)]
        obtain ⟨heap', loop⟩ := induction (fun b lower upper => wellFormed b (by omega) (by omega))
          reads (show entryIdx + (blockRecords (blocks blockIdx) blockSize blockSize 0).length ≤ index by
            omega)
        refine ⟨heap', loop.trans ?_⟩
        rw [Nat.sub_add_eq]
        rfl

/-- The block loop of `ext4_find_dir_entry`: the inode of the first live record named `name`
in the blocks left. -/
theorem findInBlocks_eq (name : CString) {blockIdx remaining : Nat} {heap : Heap}
    (wellFormed : ∀ b, blockIdx ≤ b → b < blockIdx + remaining →
      ChainWellFormed (blocks b) blockSize blockSize 0)
    (reads : ReadsSucceed fs inode buffer blocks blockIdx remaining heap) :
    ∃ heap', (findInBlocks fs inode name buffer blockIdx remaining).run heap =
      .ok (firstNamed (dirRecords blocks blockSize blockIdx remaining) name, heap') := by
  induction remaining generalizing blockIdx heap with
  | zero => exact ⟨heap, rfl⟩
  | succ remaining induction =>
      obtain ⟨status, heap1, nonneg, ran, holds, reads⟩ := reads
      rw [sized] at holds
      have scan := findInBlock_eq holds (sized ▸ fs.blockSize_lt) name
        (wellFormed blockIdx le_rfl (by omega))
      simp only [findInBlocks, StateT.run_bind, ran, except_ok_bind, if_neg (not_lt.mpr nonneg),
        pure_bind, run_memory, sized, scan, dirRecords, firstNamed, List.find?_append]
      cases (blockRecords (blocks blockIdx) blockSize blockSize 0).find?
          fun dirent => dirent.name = name.bytes with
      | some dirent => exact ⟨heap1, rfl⟩
      | none => exact induction (fun b lower upper => wellFormed b (by omega) (by omega)) reads

end Loops

/-! ## The two scans -/

section Scans

variable {node : Node} {blocks : Nat → Memory} {blockSize : Nat} (sized : node.fs.blockSize = blockSize)
  (wellFormed : ∀ b < numBlocks node.fs node.rawInode, ChainWellFormed (blocks b) blockSize blockSize 0)
  {heap heap1 : Heap} {buffer : Nat}
  (allocated : kmalloc heap node.fs.blockSize = some (heap1, some buffer))
  (reads : ReadsSucceed node.fs node.rawInode buffer blocks 0 (numBlocks node.fs node.rawInode) heap1)
include sized wellFormed allocated reads

/-- `ext4_readdir` returns the live record at `index`, or `-1` past the last one. -/
theorem ext4Readdir_eq (directory : node.type = vfsDirectory) {index : Nat} (bounded : index < 2 ^ 32) :
    ∃ heap', (ext4Readdir node index).run heap = .ok (nthRecord (node.records blocks) index, heap') := by
  have positive : 0 < node.fs.blockSize := (node.fs.blockSize_large_of_kmalloc allocated).trans_lt' (by decide)
  obtain ⟨heap', loop⟩ := readdirBlocks_eq sized bounded (fun b _ upper => wellFormed b (by omega)) reads
    (Nat.zero_le index)
  rw [Nat.sub_zero] at loop
  subst sized
  refine ⟨FreeCore.kfree heap' (some buffer), ?_⟩
  simp only [ext4Readdir, directory, ne_eq, not_true_eq_false, if_false, pure_bind]
  refine (run_bind_of_ok (run_kmalloc_eq_ok.mpr allocated)).trans ?_
  refine (run_bind_of_ok (run_divide positive _)).trans ?_
  refine (run_bind_of_ok loop).trans ?_
  rfl

/-- `ext4_find_dir_entry` returns the inode of the first live record named `name`, or `-1`. -/
theorem ext4FindDirEntry_eq (name : CString) :
    ∃ heap', (ext4FindDirEntry node.fs node.rawInode name).run heap =
      .ok (firstNamed (node.records blocks) name, heap') := by
  have positive : 0 < node.fs.blockSize := (node.fs.blockSize_large_of_kmalloc allocated).trans_lt' (by decide)
  obtain ⟨heap', loop⟩ := findInBlocks_eq sized name (fun b _ upper => wellFormed b (by omega)) reads
  subst sized
  refine ⟨FreeCore.kfree heap' (some buffer), ?_⟩
  unfold ext4FindDirEntry
  refine (run_bind_of_ok (run_kmalloc_eq_ok.mpr allocated)).trans ?_
  refine (run_bind_of_ok (run_divide positive _)).trans ?_
  refine (run_bind_of_ok loop).trans ?_
  rfl

end Scans

/-- Both scans read the directory's live records in (block, offset) order. With its block
buffer from `kmalloc` and its block reads succeeding, `ext4_readdir` returns the record at the
index asked for, or `-1` when there are no more, and `ext4_find_dir_entry` the inode of the
first record of the name asked for, or `-1`: the inode of the record at the smallest index of
that name. -/
theorem directory_scans_agree {node : Node} (directory : node.type = vfsDirectory)
    {blocks : Nat → Memory}
    (wellFormed : ∀ b < numBlocks node.fs node.rawInode,
      ChainWellFormed (blocks b) node.fs.blockSize node.fs.blockSize 0) :
    (∀ index < 2 ^ 32, ∀ {heap heap1 : Heap} {buffer : Nat},
      kmalloc heap node.fs.blockSize = some (heap1, some buffer) →
      ReadsSucceed node.fs node.rawInode buffer blocks 0 (numBlocks node.fs node.rawInode) heap1 →
      ∃ heap', (ext4Readdir node index).run heap = .ok (nthRecord (node.records blocks) index, heap')) ∧
    (∀ (name : CString) {heap heap1 : Heap} {buffer : Nat},
      kmalloc heap node.fs.blockSize = some (heap1, some buffer) →
      ReadsSucceed node.fs node.rawInode buffer blocks 0 (numBlocks node.fs node.rawInode) heap1 →
      ∃ heap', (ext4FindDirEntry node.fs node.rawInode name).run heap =
        .ok (firstNamed (node.records blocks) name, heap')) ∧
    ∀ name inodeNum, firstNamed (node.records blocks) name = .ok inodeNum ↔
      ∃ index dirent, nthRecord (node.records blocks) index = .ok dirent ∧
        dirent.name = name.bytes ∧ dirent.inode = inodeNum ∧
        ∀ earlier < index, ∀ other, nthRecord (node.records blocks) earlier = .ok other →
          other.name ≠ name.bytes :=
  ⟨fun _ bounded _ _ _ allocated reads => ext4Readdir_eq rfl wellFormed allocated reads directory bounded,
    fun name _ _ _ allocated reads => ext4FindDirEntry_eq rfl wellFormed allocated reads name,
    fun _ _ => firstNamed_eq_ok_iff⟩

/-! ## A directory of two records -/

/-- A directory block of two records: inode 11, a directory named "a", in the first twelve
bytes, and inode 12, a file named "b", over the rest of the block. -/
def sampleDirBlock : Memory :=
  bytesOf [(0, 11), (4, 12), (6, 1), (7, 2), (8, 97), (12, 12), (16, 0xF4), (17, 0x03), (18, 1),
    (19, 1), (20, 98)]

/-- A device that stores the directory block in block 7. -/
def sampleDirDevice : Device where
  read offset _ := (0, some (if offset = 7 * 1024 then sampleDirBlock else fun _ => 0))

/-- A directory inode of one block, which a one-extent root maps to block 7. -/
def sampleDirInode : Memory :=
  bytesOf [(5, 4), (34, 0x08), (40, 0x0A), (41, 0xF3), (42, 1), (56, 1), (60, 7)]

def sampleDir : Node :=
  ⟨0, 0, ⟨0, sampleDirDevice, extentsSuperblock, 0⟩, sampleDirInode, 2, vfsDirectory, 1024⟩

/-- On a fresh heap, `ext4_readdir` of index 1 returns the second record: inode 12, a file
named "b". -/
theorem directory_scans_agree_two_records :
    nthRecord (sampleDir.records fun _ => sampleDirBlock) 1 = .ok ⟨12, vfsFile, [98]⟩ ∧
      ∃ heap', (ext4Readdir sampleDir 1).run (Heap.uninitialized fun _ => 0) =
        .ok (nthRecord (sampleDir.records fun _ => sampleDirBlock) 1, heap') :=
  ⟨rfl, (directory_scans_agree (show sampleDir.type = vfsDirectory from rfl)
    (show ∀ b < numBlocks sampleDir.fs sampleDir.rawInode, ChainWellFormed ((fun _ => sampleDirBlock) b)
      sampleDir.fs.blockSize sampleDir.fs.blockSize 0 by decide)).1 1 (by decide)
    (show kmalloc (Heap.uninitialized fun _ => 0) sampleDir.fs.blockSize = some (_, some _) from rfl)
    ⟨_, _, by decide, rfl, Holds.put _ _ _ _, trivial⟩⟩

/-- Without a buffer `ext4_readdir` fails on a directory with records. On the heap
`kmalloc(KERNEL_HEAP_SIZE - 16)` leaves, `kmalloc` returns `NULL` and `ext4_readdir` returns `-1`
for index 0, though the directory's first live record is inode 11, named "a". -/
theorem ext4Readdir_fails_on_full_heap :
    (∀ b < numBlocks sampleDir.fs sampleDir.rawInode,
      ChainWellFormed sampleDirBlock sampleDir.fs.blockSize sampleDir.fs.blockSize 0) ∧
      nthRecord (sampleDir.records fun _ => sampleDirBlock) 0 = .ok ⟨11, vfsDirectory, [97]⟩ ∧
      ∃ heap, kmalloc (Heap.uninitialized fun _ => 0) (kernelHeapSize - allocHeaderSize) =
          some (heap, some allocHeaderSize) ∧
        (ext4Readdir sampleDir 0).run heap = .ok (.error (-1), heap) :=
  ⟨by decide, rfl, _, rfl, rfl⟩

/-! ## Looking a name up -/

/-- With its block buffer from `kmalloc`, well-formed blocks and its block reads succeeding,
`ext4_find_dir_entry` returns the inode of the first live record, in (block, offset) order,
that carries the name, and `-1` exactly when no live record carries it. -/
theorem ext4FindDirEntry_first_match {node : Node} {blocks : Nat → Memory}
    (wellFormed : ∀ b < numBlocks node.fs node.rawInode,
      ChainWellFormed (blocks b) node.fs.blockSize node.fs.blockSize 0)
    (name : CString) {heap heap1 : Heap} {buffer : Nat}
    (allocated : kmalloc heap node.fs.blockSize = some (heap1, some buffer))
    (reads : ReadsSucceed node.fs node.rawInode buffer blocks 0 (numBlocks node.fs node.rawInode)
      heap1) :
    ∃ result heap', (ext4FindDirEntry node.fs node.rawInode name).run heap = .ok (result, heap') ∧
      (∀ inodeNum, result = .ok inodeNum ↔ ∃ index dirent,
        nthRecord (node.records blocks) index = .ok dirent ∧ dirent.name = name.bytes ∧
          dirent.inode = inodeNum ∧ ∀ earlier < index, ∀ other,
            nthRecord (node.records blocks) earlier = .ok other → other.name ≠ name.bytes) ∧
      (result = .error (-1) ↔ ∀ dirent ∈ node.records blocks, dirent.name ≠ name.bytes) :=
  let ⟨heap', run⟩ := ext4FindDirEntry_eq rfl wellFormed allocated reads name
  ⟨_, heap', run, fun _ => firstNamed_eq_ok_iff, firstNamed_eq_error_iff⟩

/-- On a fresh heap, `ext4_find_dir_entry` finds "b" in the sample directory: inode 12, the
second record, the first being named "a". -/
theorem ext4FindDirEntry_finds_b :
    ∃ heap', (ext4FindDirEntry sampleDir.fs sampleDir.rawInode ⟨[98], by decide⟩).run
      (Heap.uninitialized fun _ => 0) = .ok (.ok 12, heap') := by
  obtain ⟨result, heap', run, found, -⟩ := ext4FindDirEntry_first_match
    (show ∀ b < numBlocks sampleDir.fs sampleDir.rawInode, ChainWellFormed ((fun _ => sampleDirBlock) b)
      sampleDir.fs.blockSize sampleDir.fs.blockSize 0 by decide) ⟨[98], by decide⟩
    (show kmalloc (Heap.uninitialized fun _ => 0) sampleDir.fs.blockSize = some (_, some _) from rfl)
    ⟨_, _, by decide, rfl, Holds.put _ _ _ _, trivial⟩
  refine ⟨heap', run.trans ?_⟩
  rw [(found 12).mpr ⟨1, _, rfl, rfl, rfl, fun earlier below other stored => ?_⟩]
  obtain rfl : earlier = 0 := by omega
  cases (show nthRecord (sampleDir.records fun _ => sampleDirBlock) 0 = .ok ⟨11, vfsDirectory, [97]⟩
    from rfl).symm.trans stored
  decide

/-- Without a buffer the lookup fails. On the heap `kmalloc(KERNEL_HEAP_SIZE - 16)` leaves,
`ext4_find_dir_entry` returns `-1` for "a", though the sample directory's first live record,
inode 11, carries that name. -/
theorem ext4FindDirEntry_fails_on_full_heap :
    (∀ b < numBlocks sampleDir.fs sampleDir.rawInode,
      ChainWellFormed sampleDirBlock sampleDir.fs.blockSize sampleDir.fs.blockSize 0) ∧
      firstNamed (sampleDir.records fun _ => sampleDirBlock) ⟨[97], by decide⟩ = .ok 11 ∧
      ∃ heap, kmalloc (Heap.uninitialized fun _ => 0) (kernelHeapSize - allocHeaderSize) =
          some (heap, some allocHeaderSize) ∧
        (ext4FindDirEntry sampleDir.fs sampleDir.rawInode ⟨[97], by decide⟩).run heap =
          .ok (.error (-1), heap) :=
  ⟨by decide, rfl, _, rfl, rfl⟩

/-! ## A block that is not well formed -/

/-- A 1024-byte directory block at address 0 whose first record, deleted, has `rec_len` 1020:
the next record header starts at byte 1020, and its inode field reads 1. -/
def strayBlock : Memory := bytesOf [(4, 0xFC), (5, 0x03), (1020, 1)]

/-- The same block, followed in memory by the rest of a record named "a": `rec_len` 8 at byte
1024, `name_len` 1 at 1026, the name at 1028. -/
def strayRecord : Memory := fun byte =>
  if byte < 1024 then strayBlock byte else bytesOf [(1024, 8), (1026, 1), (1028, 97)] byte

/-- The record scans trust `rec_len` and `name_len`: in `strayBlock` the second record header
starts four bytes before the end of the block, so its `rec_len`, `name_len` and name are read
past the block. Two memories that agree on the block's 1024 bytes give different answers: with
the rest of a record named "a" past the block, `ext4_find_dir_entry` finds inode 1 for "a" and
`ext4_readdir` returns that record; with zeros there, both scans end at the block. -/
theorem directory_scans_read_past_block :
    (∀ byte < 1024, strayRecord byte = strayBlock byte) ∧
      findInBlock strayRecord 0 1024 ⟨[97], by decide⟩ 1024 0 = some 1 ∧
      findInBlock strayBlock 0 1024 ⟨[97], by decide⟩ 1024 0 = none ∧
      ((readdirInBlock strayRecord 0 1024 0 1024 0 0).getLeft?.map fun dirent =>
        (dirent.inode, dirent.name)) = some (1, [97]) ∧
      (readdirInBlock strayBlock 0 1024 0 1024 0 0).getRight? = some 0 :=
  ⟨fun _ below => if_pos below, by decide, by decide, by decide, by decide⟩

end FreeCore.Ext4
