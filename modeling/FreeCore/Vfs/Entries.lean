import FreeCore.Vfs.Namespace

/-! # Entry operations

The entry functions of `vfs.c` split the normalized path at its last `/` and call the parent
directory\x27s operation with `basename`, on the node from which `vfs_lookup` takes its last step;
the `strcpy` into `basename` runs past it for components longer than `VFS_NAME_MAX`. -/

namespace FreeCore.Vfs

open FreeCore.Ext4 (CString strlen vfsDirectory)
open FreeCore.Lib (strcmp strcmpLoop)

/-- `VFS_NAME_MAX`. -/
def vfsNameMax : Nat := 255

/-- The split the entry functions make of a normalized path: `parent_path` and `basename`
around the last `/`, or `"."` and the whole path when it has none. -/
def splitPath (normalized : List UInt8) : List UInt8 × List UInt8 :=
  match strrchr normalized slash with
  | none => ([dot], normalized)
  | some 0 => ([slash], normalized.drop 1)
  | some lastSlash => (normalized.take lastSlash, normalized.drop (lastSlash + 1))

/-- The directory operations that take an entry name: whether a node has each
(`node->ops && node->ops->op`) and what each returns. -/
structure DirOps where
  hasMkdir : Nat → Bool
  mkdir : Nat → List UInt8 → UInt16 → Int
  hasRmdir : Nat → Bool
  rmdir : Nat → List UInt8 → Int
  hasCreate : Nat → Bool
  create : Nat → List UInt8 → UInt16 → Int
  hasUnlink : Nat → Bool
  unlink : Nat → List UInt8 → Int
  hasSymlink : Nat → Bool
  symlink : Nat → Option (List UInt8) → List UInt8 → Int
  hasRename : Nat → Bool
  rename : Nat → List UInt8 → List UInt8 → Int
  hasLink : Nat → Bool
  link : Nat → List UInt8 → List UInt8 → Int

section Entries

variable (fs : Filesystem)

/-- The body `vfs_mkdir`, `vfs_rmdir`, `vfs_create`, `vfs_unlink` and `vfs_symlink` share: the
operation `call`, which the nodes `present` have, on the parent directory and the basename. -/
def onParent (v : State) (present : Nat → Bool) (call : Nat → List UInt8 → Int) :
    Option CString → Int
  | none => -1
  | some path =>
      let normalized := vfsNormalizePath path
      if normalized.1 < 0 then -1
      else
        let split := splitPath normalized.2
        match vfsLookup fs v (some (cString split.1)) with
        | none => -1
        | some parent =>
            if (v.nodes parent).type.toNat ≠ vfsDirectory then -1
            else if !present parent then -1
            else call parent split.2

/-- `vfs_mkdir(path, mode)`. -/
def vfsMkdir (v : State) (ops : DirOps) (path : Option CString) (mode : UInt16) : Int :=
  onParent fs v ops.hasMkdir (fun parent name => ops.mkdir parent name mode) path

/-- `vfs_rmdir(path)`. -/
def vfsRmdir (v : State) (ops : DirOps) (path : Option CString) : Int :=
  onParent fs v ops.hasRmdir ops.rmdir path

/-- `vfs_create(path, mode)`. -/
def vfsCreate (v : State) (ops : DirOps) (path : Option CString) (mode : UInt16) : Int :=
  onParent fs v ops.hasCreate (fun parent name => ops.create parent name mode) path

/-- `vfs_unlink(path)`. -/
def vfsUnlink (v : State) (ops : DirOps) (path : Option CString) : Int :=
  onParent fs v ops.hasUnlink ops.unlink path

/-- `vfs_symlink(target, linkpath)`. -/
def vfsSymlink (v : State) (ops : DirOps) (target : Option (List UInt8))
    (linkpath : Option CString) : Int :=
  onParent fs v ops.hasSymlink (fun parent name => ops.symlink parent target name) linkpath

/-- `vfs_rename(oldpath, newpath)`: the operation is called only when both parents are the same
directory. -/
def vfsRename (v : State) (ops : DirOps) : Option CString → Option CString → Int
  | some oldpath, some newpath =>
      let old := vfsNormalizePath oldpath
      let new := vfsNormalizePath newpath
      if old.1 < 0 ∨ new.1 < 0 then -1
      else
        let oldSplit := splitPath old.2
        let newSplit := splitPath new.2
        match vfsLookup fs v (some (cString oldSplit.1)),
            vfsLookup fs v (some (cString newSplit.1)) with
        | some oldParent, some newParent =>
            if (v.nodes oldParent).type.toNat ≠ vfsDirectory ∨
                (v.nodes newParent).type.toNat ≠ vfsDirectory then -1
            else if oldParent = newParent then
              if !ops.hasRename oldParent then -1 else ops.rename oldParent oldSplit.2 newSplit.2
            else -1
        | _, _ => -1
  | _, _ => -1

/-- `vfs_link(oldpath, newpath)`: the new parent\x27s operation gets the whole normalized old
path. -/
def vfsLink (v : State) (ops : DirOps) : Option CString → Option CString → Int
  | some oldpath, some newpath =>
      let old := vfsNormalizePath oldpath
      let new := vfsNormalizePath newpath
      if old.1 < 0 ∨ new.1 < 0 then -1
      else
        let newSplit := splitPath new.2
        match vfsLookup fs v (some (cString old.2)) with
        | none => -1
        | some target =>
            if (v.nodes target).type.toNat = vfsDirectory then -1
            else match vfsLookup fs v (some (cString newSplit.1)) with
              | none => -1
              | some newParent =>
                  if (v.nodes newParent).type.toNat ≠ vfsDirectory then -1
                  else if !ops.hasLink newParent then -1
                  else ops.link newParent old.2 newSplit.2
  | _, _ => -1

/-! ## The walk of `vfs_lookup` -/

/-- One step of `vfs_lookup`: from a directory with `finddir`, the node `finddir` finds for the
name, or the root of the filesystem mounted on it. -/
def lookupStep (nodes : Nat → VfsNode) (current : Nat) (name : List UInt8) : Option Nat :=
  if (nodes current).type.toNat ≠ vfsDirectory then none
  else if !(nodes current).ops.hasFinddir then none
  else (fs.finddir current name).map fun next => (nodes next).mountPoint.getD next

/-- The walk over the components of a path, one `lookupStep` each. -/
def walk (nodes : Nat → VfsNode) : List (List UInt8) → Nat → Option Nat
  | [], current => some current
  | name :: rest, current => (lookupStep fs nodes current name).bind (walk nodes rest)

theorem walk_append_single (nodes : Nat → VfsNode) (name : List UInt8) :
    ∀ (stack : List (List UInt8)) (current : Nat),
      walk fs nodes (stack ++ [name]) current =
        (walk fs nodes stack current).bind fun parent => lookupStep fs nodes parent name
  | [], current => by simp [walk]
  | first :: rest, current => by
      rw [List.cons_append, walk, walk, Option.bind_assoc]
      exact congrArg _ (funext fun next => walk_append_single nodes name rest next)

/-- The token loop of `vfs_lookup` walks the pieces of what is left of the path. -/
theorem lookupLoop_eq_walk (nodes : Nat → VfsNode) :
    ∀ (fuel : Nat) (rest : Option (List UInt8)) (current : Nat), (rest.getD []).length < fuel →
      lookupLoop fs nodes fuel rest current = walk fs nodes (pieces (rest.getD [])) current
  | 0, _, _, enough => absurd enough (Nat.not_lt_zero _)
  | fuel + 1, none, current, _ => rfl
  | fuel + 1, some s, current, enough => by
      rcases strtokR_pieces s (some s) with ⟨run, empty⟩ | ⟨token, rest, run, -, -, split, shorter⟩
      · rw [lookupLoop, run, Option.getD_some, empty]
        rfl
      · rw [lookupLoop, run, Option.getD_some, split, walk, lookupStep]
        dsimp only
        simp only [Option.getD_some] at enough
        split_ifs
        · rfl
        · rfl
        · cases fs.finddir current token with
          | none => rfl
          | some next => exact lookupLoop_eq_walk nodes fuel rest _ (by omega)

end Entries

/-! ## The components of a normalized path -/

/-- A component of a normalized path: a piece of the path, without NUL, neither `.` nor `..`. -/
def Named (component : List UInt8) : Prop :=
  component ≠ [] ∧ slash ∉ component ∧ (0 : UInt8) ∉ component ∧ component ≠ [dot] ∧
    component ≠ [dot, dot]

theorem plain_of_named {stack : List (List UInt8)} (named : ∀ c ∈ stack, Named c) : Plain stack :=
  fun c member => ⟨(named c member).1, (named c member).2.1⟩

/-- The stack holds components of the stack it started from and pushed components, never
`..`. -/
theorem mem_processComponents (absolute : Bool) {P : List UInt8 → Prop} :
    ∀ {stack components : List (List UInt8)}, (∀ c ∈ stack, P c) →
      (∀ c ∈ components, c ≠ [dot, dot] → P c) →
      ∀ c ∈ processComponents (popComponent absolute) stack components, P c
  | _, [], onStack, _ => onStack
  | stack, component :: rest, onStack, pushed => by
      rw [processComponents]
      refine mem_processComponents absolute ?_ fun c member => pushed c (List.mem_cons_of_mem _ member)
      split
      · exact fun c member => onStack c ((popComponent_sublist absolute stack).subset member)
      · rename_i notParent
        intro c member
        rcases List.mem_append.mp member with old | new
        · exact onStack c old
        · exact List.mem_singleton.mp new ▸ pushed component (List.mem_cons_self _ _) notParent

theorem processComponents_sublist (absolute : Bool) :
    ∀ (stack components : List (List UInt8)),
      (processComponents (popComponent absolute) stack components).Sublist (stack ++ components)
  | stack, [] => by rw [List.append_nil]; rfl
  | stack, component :: rest => by
      rw [processComponents]
      split
      · exact (processComponents_sublist absolute _ rest).trans
          ((popComponent_sublist absolute stack).append (List.sublist_cons_self _ _))
      · simpa using processComponents_sublist absolute (stack ++ [component]) rest

theorem processComponents_of_no_parent (pop : List (List UInt8) → List (List UInt8)) :
    ∀ (stack components : List (List UInt8)), (∀ c ∈ components, c ≠ [dot, dot]) →
      processComponents pop stack components = stack ++ components
  | stack, [], _ => (List.append_nil stack).symm
  | stack, component :: rest, noParent => by
      rw [processComponents, if_neg (noParent component (List.mem_cons_self _ _)),
        processComponents_of_no_parent pop _ rest fun c member =>
          noParent c (List.mem_cons_of_mem _ member), List.append_assoc, List.singleton_append]

theorem mem_intercalate {b : UInt8} {piece : List UInt8} (inPiece : b ∈ piece) :
    ∀ {all : List (List UInt8)}, piece ∈ all → b ∈ [slash].intercalate all
  | [], member => absurd member (List.not_mem_nil _)
  | [_], member => by
      rw [intercalate_singleton]
      exact List.mem_singleton.mp member ▸ inPiece
  | first :: second :: rest, member => by
      rw [intercalate_cons_cons]
      rcases List.mem_cons.mp member with same | later
      · exact List.mem_append_left _ (List.mem_append_left _ (same ▸ inPiece))
      · exact List.mem_append_right _ (mem_intercalate inPiece later)

theorem not_mem_pieces {b : UInt8} {s : List UInt8} (absent : b ∉ s) :
    ∀ piece ∈ pieces s, b ∉ piece := by
  intro piece member inPiece
  have whole : [slash].intercalate (s.splitOn slash) = s := List.intercalate_splitOn s slash
  exact absent (whole ▸ mem_intercalate inPiece (List.mem_of_mem_filter member))

theorem zero_not_mem_intercalate :
    ∀ {stack : List (List UInt8)}, (∀ c ∈ stack, (0 : UInt8) ∉ c) →
      (0 : UInt8) ∉ [slash].intercalate stack
  | [], _ => List.not_mem_nil _
  | [only], noNul => by rw [intercalate_singleton]; exact noNul only (List.mem_singleton_self _)
  | first :: second :: rest, noNul => by
      rw [intercalate_cons_cons]
      simp only [List.mem_append, not_or]
      exact ⟨⟨noNul first (List.mem_cons_self _ _), by decide⟩,
        zero_not_mem_intercalate fun c member => noNul c (List.mem_cons_of_mem _ member)⟩

theorem pieces_intercalate :
    ∀ {stack : List (List UInt8)}, Plain stack → pieces ([slash].intercalate stack) = stack
  | [], _ => rfl
  | [only], plain => by
      rw [intercalate_singleton]
      exact pieces_of_not_mem (plain only (List.mem_singleton_self _)).1
        (plain only (List.mem_singleton_self _)).2
  | first :: second :: rest, plain => by
      have head := plain first (List.mem_cons_self _ _)
      rw [intercalate_cons_cons, List.append_assoc, List.singleton_append,
        pieces_append_slash head.1 head.2, pieces_intercalate (plain.sublist (List.sublist_cons_self _ _))]

/-! ## Normalized absolute paths -/

/-- The component stack `vfs_normalize_path` builds for an absolute path. -/
def stackOf (path : List UInt8) : List (List UInt8) :=
  processComponents (popComponent true) [] (components path)

theorem named_stackOf (path : CString) : ∀ c ∈ stackOf path.bytes, Named c :=
  mem_processComponents true (fun _ member => absurd member (List.not_mem_nil _))
    fun c member notParent => by
      rw [components_eq] at member
      obtain ⟨piece, notDot⟩ := List.mem_filter.mp member
      obtain ⟨nonempty, whole⟩ := mem_pieces _ c piece
      exact ⟨nonempty, whole, not_mem_pieces path.noNul c piece, by simpa using notDot, notParent⟩

theorem length_render_stackOf (path : List UInt8) (absolute : path.head? = some slash) :
    (render true (stackOf path)).length ≤ path.length :=
  calc (render true (stackOf path)).length
      = (bufferOf true (stackOf path)).length := rfl
    _ ≤ (bufferOf true (components path)).length :=
        bufferOf_length_le true (processComponents_sublist true [] _)
    _ ≤ (bufferOf true (pieces path)).length :=
        bufferOf_length_le true (components_eq path ▸ List.filter_sublist _)
    _ ≤ path.length := by simpa [absolute] using bufferOf_pieces_length_le path

/-- `vfs_normalize_path` of an absolute path shorter than `MAX_PATH_LENGTH` writes out the stack
of its components. -/
theorem vfsNormalizePath_absolute (path : CString) (short : strlen path < maxPathLength)
    (absolute : path.bytes.head? = some slash) :
    vfsNormalizePath path = (0, render true (stackOf path.bytes)) := by
  have nonempty : path.bytes ≠ [] := fun empty => by simp [empty] at absolute
  have loop := normalizeLoop_eq true (strlen path + 1) (some path.bytes) []
    (Nat.lt_succ_self _) (fun _ => False.elim ∘ List.not_mem_nil _)
    (by simpa [absolute] using (bufferOf_pieces_length_le path.bytes).trans_lt short)
  rw [Option.getD_some, ← components_eq] at loop
  unfold vfsNormalizePath
  rw [if_neg nonempty, if_neg (not_le.mpr short)]
  simp only [absolute, if_true]
  rw [show [slash] = bufferOf true [] from rfl, loop]
  rfl

theorem stackOf_render {stack : List (List UInt8)} (named : ∀ c ∈ stack, Named c) :
    stackOf (render true stack) = stack := by
  have noDot : ∀ c ∈ stack, decide (c ≠ [dot]) = true := fun c member =>
    decide_eq_true (named c member).2.2.2.1
  rw [stackOf, render, if_pos rfl, components_eq, pieces_slash_cons,
    pieces_intercalate (plain_of_named named), List.filter_eq_self.mpr noDot,
    processComponents_of_no_parent _ [] stack fun c member => (named c member).2.2.2.2,
    List.nil_append]

theorem zero_not_mem_render {stack : List (List UInt8)} (named : ∀ c ∈ stack, Named c) :
    (0 : UInt8) ∉ render true stack := by
  rw [render, if_pos rfl, List.mem_cons, not_or]
  exact ⟨by decide, zero_not_mem_intercalate fun c member => (named c member).2.2.1⟩

theorem cString_render {stack : List (List UInt8)} (named : ∀ c ∈ stack, Named c) :
    (cString (render true stack)).bytes = render true stack :=
  List.takeWhile_eq_self_iff.mpr fun _ member =>
    decide_eq_true fun zero => zero_not_mem_render named (zero ▸ member)

theorem vfsNormalizePath_render {stack : List (List UInt8)} (named : ∀ c ∈ stack, Named c)
    (path : CString) (rendered : path.bytes = render true stack) (short : strlen path < maxPathLength) :
    vfsNormalizePath path = (0, render true stack) := by
  rw [vfsNormalizePath_absolute path short (by rw [rendered]; rfl), rendered, stackOf_render named]

/-- The split of a normalized absolute path of at least one component: the path of the components
before the last, and the last. -/
theorem splitPath_render {init : List (List UInt8)} {last : List UInt8}
    (plain : Plain (init ++ [last])) : splitPath (render true (init ++ [last])) = (render true init, last) := by
  have whole := (plain last (List.mem_append_right _ (List.mem_singleton_self _))).2
  rcases init with _ | ⟨first, rest⟩
  · have found : strrchr (slash :: last) slash = some 0 :=
      strrchrFrom_append_cons (by decide) whole [] 0 none
    rw [List.nil_append, render, if_pos rfl, intercalate_singleton, splitPath, found]
    rfl
  · have joined : render true (first :: rest ++ [last]) = render true (first :: rest) ++ slash :: last := by
      rw [render, render, if_pos rfl, if_pos rfl,
        intercalate_append_single [slash] last (List.cons_ne_nil _ _)]
      simp
    obtain ⟨k, length⟩ : ∃ k, (render true (first :: rest)).length = k + 1 :=
      ⟨([slash].intercalate (first :: rest)).length, by simp [render]⟩
    have found : strrchr (render true (first :: rest) ++ slash :: last) slash = some (k + 1) := by
      rw [strrchr, strrchrFrom_append_cons (by decide) whole, Nat.zero_add, length]
    rw [joined, splitPath, found]
    show (List.take (k + 1) _, List.drop (k + 1 + 1) _) = _
    rw [List.take_left' length, show render true (first :: rest) ++ slash :: last =
      (render true (first :: rest) ++ [slash]) ++ last by simp,
      List.drop_left' (by rw [List.length_append, length]; rfl)]

section Lookup

variable (fs : Filesystem)

/-- `vfs_lookup` of a path that normalizes to a stack of components walks the stack from the
root. -/
theorem vfsLookup_of_normalized (v : State) {root : Nat} (rootEq : v.rootNode = some root)
    {stack : List (List UInt8)} (named : ∀ c ∈ stack, Named c) (path : CString)
    (normal : vfsNormalizePath path = (0, render true stack)) :
    vfsLookup fs v (some path) = walk fs v.nodes stack root := by
  simp only [vfsLookup, rootEq, normal, lt_self_iff_false, if_false]
  rcases stack with _ | ⟨first, rest⟩
  · rfl
  · have head := named first (List.mem_cons_self _ _)
    obtain ⟨c, cs, split⟩ := List.exists_cons_of_ne_nil head.1
    have byte : c ≠ 0 := fun zero => head.2.2.1 (zero ▸ split ▸ List.mem_cons_self c cs)
    have intercalated : [slash].intercalate (first :: rest) = c :: ([slash].intercalate (first :: rest)).tail := by
      cases rest with
      | nil => simp [split]
      | cons second rest => simp [intercalate_cons_cons, split]
    have differs : strcmp (some (render true (first :: rest))) (some [slash]) ≠ 0 := by
      rw [render, if_pos rfl, intercalated]
      simp [strcmp, strcmpLoop, byte]
      exact ⟨by decide, (FreeCore.Lib.toNat_pos_of_ne_zero byte).ne'⟩
    rw [if_neg differs, render, if_pos rfl, List.head?_cons, if_pos rfl, List.tail_cons,
      lookupLoop_eq_walk fs v.nodes _ (some _) root (by simp),
      Option.getD_some, pieces_intercalate (plain_of_named named)]

/-- For an absolute path that does not normalize to `/`, `vfs_lookup` resolves the path by
resolving the `parent_path` of the entry functions and taking one step with their `basename`. -/
theorem vfsLookup_through_parent (v : State) (path : CString) (short : strlen path < maxPathLength)
    (absolute : path.bytes.head? = some slash) (notRoot : (vfsNormalizePath path).2 ≠ [slash]) :
    vfsLookup fs v (some path) =
      (vfsLookup fs v (some (cString (splitPath (vfsNormalizePath path).2).1))).bind
        fun parent => lookupStep fs v.nodes parent (splitPath (vfsNormalizePath path).2).2 := by
  cases rootEq : v.rootNode with
  | none => rw [vfsLookup_of_no_root fs rootEq, vfsLookup_of_no_root fs rootEq]; rfl
  | some root =>
      have normal := vfsNormalizePath_absolute path short absolute
      have named := named_stackOf path
      have fits := length_render_stackOf path.bytes absolute
      rw [normal] at notRoot ⊢
      rcases List.eq_nil_or_concat (stackOf path.bytes) with empty | ⟨init, last, split⟩
      · exact absurd (by rw [empty]; rfl) notRoot
      rw [List.concat_eq_append] at split
      rw [split] at named normal fits ⊢
      have namedInit : ∀ c ∈ init, Named c := fun c member => named c (List.mem_append_left _ member)
      have parentShort : strlen (cString (render true init)) < maxPathLength := by
        show (cString _).bytes.length < _
        rw [cString_render namedInit]
        exact lt_of_le_of_lt
          ((bufferOf_length_le true (List.sublist_append_left init [last])).trans fits) short
      rw [splitPath_render (plain_of_named named), vfsLookup_of_normalized fs v rootEq named path normal,
        vfsLookup_of_normalized fs v rootEq namedInit _
          (vfsNormalizePath_render namedInit _ (cString_render namedInit) parentShort),
        walk_append_single]

theorem vfsLookup_through_parent_of_a_b :
    let fs : Filesystem := ⟨fun node name => if name = [97] then some (node + 1) else none,
      fun _ _ => 0, fun _ => 0, fun _ _ _ => 0, fun _ _ _ => 0, fun _ _ => 0, fun _ => 0⟩
    let v : State :=
      { vfsInit fun _ => ⟨2, 0, none, ⟨true, true, true, true, true, true, true⟩⟩ with rootNode := some 0 }
    let path : CString := ⟨[47, 97, 47, 46, 47, 98], by decide⟩
    vfsLookup fs v (some path) =
      (vfsLookup fs v (some (cString (splitPath (vfsNormalizePath path).2).1))).bind
        fun parent => lookupStep fs v.nodes parent (splitPath (vfsNormalizePath path).2).2 :=
  vfsLookup_through_parent _ _ _ (by decide) rfl (by decide)

end Lookup

/-- A path `/name` whose name is longer than `VFS_NAME_MAX` and fits in `MAX_PATH_LENGTH` passes
`vfs_normalize_path`, and the entry functions copy its basename with the NUL, more than the
`VFS_NAME_MAX + 1` bytes of `basename`, into that buffer. -/
theorem basename_overflows (path : CString) {name : List UInt8} (rendered : path.bytes = slash :: name)
    (named : Named name) (long : vfsNameMax < name.length) (short : name.length + 1 < maxPathLength) :
    (vfsNormalizePath path).1 = 0 ∧
      vfsNameMax + 1 < (splitPath (vfsNormalizePath path).2).2.length + 1 := by
  have single : ∀ c ∈ [name], Named c := fun c member => List.mem_singleton.mp member ▸ named
  have normal := vfsNormalizePath_render single path (by rw [rendered]; simp [render])
    (by show path.bytes.length < _; rw [rendered]; exact short)
  rw [normal, ← List.nil_append [name], splitPath_render (plain_of_named single)]
  exact ⟨rfl, Nat.succ_lt_succ long⟩

theorem basename_overflows_at_256 :
    (vfsNormalizePath ⟨slash :: List.replicate 256 97, by decide⟩).1 = 0 ∧
      vfsNameMax + 1 <
        (splitPath (vfsNormalizePath ⟨slash :: List.replicate 256 97, by decide⟩).2).2.length + 1 := by
  have length : (List.replicate 256 (97 : UInt8)).length = 256 := List.length_replicate 256 97
  have only (b : UInt8) (other : b ≠ 97) : b ∉ List.replicate 256 (97 : UInt8) := fun member =>
    other (List.mem_replicate.mp member).2
  exact basename_overflows _ rfl
    ⟨List.ne_nil_of_length_pos (by rw [length]; decide), only slash (by decide), only 0 (by decide),
      fun same => absurd (congrArg List.length same) (by rw [length]; decide),
      fun same => absurd (congrArg List.length same) (by rw [length]; decide)⟩
    (by rw [length]; decide) (by rw [length]; decide)

end FreeCore.Vfs
