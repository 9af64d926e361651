import FreeCore.Ext4.Dir
import Mathlib.Algebra.Order.BigOperators.Group.List

/-! # Path normalization

`vfs_normalize_path` of `vfs.c` copies the path, splits the copy into components with
`strtok_r`, and builds the result in the caller's buffer: `.` is skipped, `..` cuts the buffer
at its last `/` (keeping a `/` at its start), and any other component is appended after a `/`
when the buffer does not end in one. The result is the component stack of the path written out,
except that the first component of a relative path has no `/` before it: `..` cannot remove it,
and `a/..` normalizes to `a`. -/

namespace FreeCore.Vfs

open FreeCore.Ext4 (CString strlen)

/-- `'/'`. -/
def slash : UInt8 := 47

/-- `'.'`. -/
def dot : UInt8 := 46

/-- `MAX_PATH_LENGTH`. -/
def maxPathLength : Nat := 512

/-! ## The string functions of `minstd.c`

A string is its bytes before the terminating NUL; `none` is `NULL`. -/

/-- `strspn(s, accept)`: the length of the longest prefix of `s` made of bytes of `accept`. -/
def strspn : (s accept : List UInt8) → Nat
  | [], _ => 0
  | c :: s, accept => if c ∈ accept then strspn s accept + 1 else 0

/-- `strcspn(s, reject)`: the length of the longest prefix of `s` with no byte of `reject`. -/
def strcspn : (s reject : List UInt8) → Nat
  | [], _ => 0
  | c :: s, reject => if c ∈ reject then 0 else strcspn s reject + 1

/-- `strtok_r(str, delim, saveptr)`: the token and the new `*saveptr`. The NUL the call writes at
the token's end ends the token, and the saved position is the byte after it. -/
def strtokR (str : Option (List UInt8)) (delim : List UInt8) (saveptr : Option (List UInt8)) :
    Option (List UInt8) × Option (List UInt8) :=
  match str.or saveptr with
  | none => (none, saveptr)
  | some s =>
      let s := s.drop (strspn s delim)
      if s = [] then (none, none)
      else
        let tokenEnd := strcspn s delim
        if tokenEnd = s.length then (some s, none)
        else (some (s.take tokenEnd), some (s.drop (tokenEnd + 1)))

/-- `strrchr(s, c)` from position `index`, `last` the last match before it: the position of the
last `c`, the terminating NUL matching `c = 0`. -/
def strrchrFrom (c : UInt8) : (s : List UInt8) → (index : Nat) → (last : Option Nat) → Option Nat
  | [], index, last => if c = 0 then some index else last
  | b :: s, index, last => strrchrFrom c s (index + 1) (if b = c then some index else last)

/-- `strrchr(s, c)`. -/
def strrchr (s : List UInt8) (c : UInt8) : Option Nat := strrchrFrom c s 0 none

/-! ## `vfs_normalize_path` -/

/-- The `..` step: cut the buffer at its last `/`, keeping a `/` at position 0. -/
def dropLastComponent (normalized : List UInt8) : List UInt8 :=
  match strrchr normalized slash with
  | none => normalized
  | some 0 => normalized.take 1
  | some lastSlash => normalized.take lastSlash

/-- The loop of `vfs_normalize_path` over the tokens of `strtok_r(rest, "/", &rest)`, with
`fuel` calls left: the status and the buffer. -/
def normalizeLoop : (fuel : Nat) → (rest : Option (List UInt8)) → (normalized : List UInt8) →
    Int × List UInt8
  | 0, _, normalized => (0, normalized)
  | fuel + 1, rest, normalized =>
      match strtokR rest [slash] rest with
      | (none, _) => (0, normalized)
      | (some token, rest) =>
          if token = [] ∨ token = [dot] then normalizeLoop fuel rest normalized
          else if token = [dot, dot] then normalizeLoop fuel rest (dropLastComponent normalized)
          else
            let separate := 0 < normalized.length ∧ normalized.getLast? ≠ some slash
            if separate ∧ maxPathLength ≤ normalized.length + 1 + token.length then
              (-1, normalized)
            else
              let normalized := if separate then normalized ++ [slash] else normalized
              if maxPathLength ≤ normalized.length + token.length then (-1, normalized)
              else normalizeLoop fuel rest (normalized ++ token)

/-- `vfs_normalize_path(path, normalized_path)`: the status and the string left in
`normalized_path`. Each call of `strtok_r` but the last consumes a byte, so the loop runs at
most `strlen(path) + 1` times. -/
def vfsNormalizePath (path : CString) : Int × List UInt8 :=
  if path.bytes = [] then (0, [slash])
  else if maxPathLength ≤ strlen path then (-1, [])
  else
    let absolute := path.bytes.head? = some slash
    let (status, normalized) :=
      normalizeLoop (strlen path + 1) (some path.bytes) (if absolute then [slash] else [])
    if status < 0 then (status, normalized)
    else if normalized = [] then (0, if absolute then [slash] else [dot])
    else (0, normalized)

/-! ## Normal forms -/

/-- The components of a path: split on `/`, without empty and `.` components. -/
def components (path : List UInt8) : List (List UInt8) :=
  (path.splitOn slash).filter fun component => component ≠ [] ∧ component ≠ [dot]

/-- The component stack: `..` applies `pop`, any other component is pushed. -/
def processComponents (pop : List (List UInt8) → List (List UInt8)) :
    (stack components : List (List UInt8)) → List (List UInt8)
  | stack, [] => stack
  | stack, component :: rest =>
      processComponents pop (if component = [dot, dot] then pop stack else stack ++ [component])
        rest

/-- A stack written out: `/` and the components joined by `/` for an absolute path; the
components joined by `/`, or `.` when there are none, for a relative one. -/
def render (absolute : Bool) (stack : List (List UInt8)) : List UInt8 :=
  if absolute then slash :: [slash].intercalate stack
  else if stack = [] then [dot] else [slash].intercalate stack

/-- The normal form under the stack step `pop`, which may depend on whether the path is
absolute; the empty path is `/`. -/
def canonWith (pop : Bool → List (List UInt8) → List (List UInt8)) (path : List UInt8) :
    List UInt8 :=
  if path = [] then [slash]
  else
    let absolute := path.head? = some slash
    render absolute (processComponents (pop absolute) [] (components path))

/-- The normal form a component stack gives: `..` pops the last component, if there is one. -/
def canon : List UInt8 → List UInt8 := canonWith fun _ => List.dropLast

/-- The `..` step of `vfs_normalize_path` on the stack: the last component goes, except the only
component of a relative path, which has no `/` before it. -/
def popComponent (absolute : Bool) (stack : List (List UInt8)) : List (List UInt8) :=
  if absolute = false ∧ stack.length = 1 then stack else stack.dropLast

/-! ## The tokens of `strtok_r` -/

/-- The pieces `strtok_r` cuts a string into: split on `/`, without empty pieces. -/
def pieces (s : List UInt8) : List (List UInt8) := (s.splitOn slash).filter fun piece => piece ≠ []

theorem pieces_slash_cons (s : List UInt8) : pieces (slash :: s) = pieces s := by
  simp [pieces, List.splitOn]

theorem pieces_of_not_mem {token : List UInt8} (nonempty : token ≠ []) (whole : slash ∉ token) :
    pieces token = [token] := by
  rw [pieces, List.splitOn, List.splitOnP_eq_single (· == slash) _ fun c member same =>
    whole (eq_of_beq same ▸ member)]
  simp [nonempty]

theorem pieces_append_slash {token : List UInt8} (nonempty : token ≠ []) (whole : slash ∉ token)
    (rest : List UInt8) : pieces (token ++ slash :: rest) = token :: pieces rest := by
  rw [pieces, List.splitOn, List.splitOnP_first (· == slash) _ (fun c member same =>
    whole (eq_of_beq same ▸ member)) slash (beq_self_eq_true slash)]
  simp [pieces, List.splitOn, nonempty]

/-- `strcspn(s, "/")` stops at the first `/`, or at the end of a string without one. -/
theorem strcspn_slash (s : List UInt8) :
    (slash ∉ s ∧ strcspn s [slash] = s.length) ∨
      ∃ token rest, s = token ++ slash :: rest ∧ slash ∉ token ∧ strcspn s [slash] = token.length := by
  induction s with
  | nil => exact .inl ⟨List.not_mem_nil _, rfl⟩
  | cons c s induction =>
    by_cases cut : c = slash
    · exact .inr ⟨[], s, by rw [cut]; rfl, List.not_mem_nil _, by simp [strcspn, cut]⟩
    · have step : strcspn (c :: s) [slash] = strcspn s [slash] + 1 := by simp [strcspn, cut]
      rcases induction with ⟨whole, ends⟩ | ⟨token, rest, rfl, whole, ends⟩
      · exact .inl ⟨by simp [cut, whole, Ne.symm cut], by rw [step, ends]; rfl⟩
      · exact .inr ⟨c :: token, rest, rfl, by simp [Ne.symm cut, whole], by rw [step, ends]; rfl⟩

theorem strtokR_slash_cons (s : List UInt8) (saveptr : Option (List UInt8)) :
    strtokR (some (slash :: s)) [slash] saveptr = strtokR (some s) [slash] saveptr := by
  simp [strtokR, strspn]

/-- One call of `strtok_r(s, "/", …)`: no token when `s` has no pieces, and otherwise its first
piece, with the rest of the string after the `/` that ends it. -/
theorem strtokR_pieces (s : List UInt8) (saveptr : Option (List UInt8)) :
    (strtokR (some s) [slash] saveptr = (none, none) ∧ pieces s = []) ∨
      ∃ token rest, strtokR (some s) [slash] saveptr = (some token, rest) ∧ token ≠ [] ∧
        slash ∉ token ∧ pieces s = token :: pieces (rest.getD []) ∧
        (rest.getD []).length < s.length := by
  induction s with
  | nil => exact .inl ⟨rfl, rfl⟩
  | cons c s induction =>
    by_cases lead : c = slash
    · subst lead
      rw [strtokR_slash_cons, pieces_slash_cons]
      rcases induction with none | ⟨token, rest, run, nonempty, whole, split, shorter⟩
      · exact .inl none
      · exact .inr ⟨token, rest, run, nonempty, whole, split, by simp only [List.length_cons]; omega⟩
    · have start : strspn (c :: s) [slash] = 0 := by simp [strspn, lead]
      rcases strcspn_slash (c :: s) with ⟨whole, ends⟩ | ⟨token, rest, split, whole, ends⟩
      · refine .inr ⟨c :: s, none, ?_, List.cons_ne_nil _ _, whole,
          pieces_of_not_mem (List.cons_ne_nil _ _) whole, by simp⟩
        simp [strtokR, start, ends]
      · have nonempty : token ≠ [] := by
          rintro rfl
          exact lead (List.cons.inj split).1
        rw [split] at start ends ⊢
        have cut : token.length ≠ (token ++ slash :: rest).length := by simp
        have after : (token ++ slash :: rest).drop (token.length + 1) = rest := by
          rw [show token ++ slash :: rest = (token ++ [slash]) ++ rest by simp]
          exact List.drop_left' (by simp)
        refine .inr ⟨token, some rest, ?_, nonempty, whole, pieces_append_slash nonempty whole rest,
          by simp only [Option.getD_some, List.length_append, List.length_cons]; omega⟩
        simp only [strtokR, Option.or_some, start, List.drop_zero, ends, cut, if_false,
          List.take_left, after, List.append_ne_nil_of_right_ne_nil token (List.cons_ne_nil _ _)]

/-- The pieces of a string are nonempty and hold no `/`. -/
theorem mem_pieces (s : List UInt8) : ∀ piece ∈ pieces s, piece ≠ [] ∧ slash ∉ piece := by
  rcases strtokR_pieces s none with ⟨-, empty⟩ | ⟨token, rest, -, nonempty, whole, split, shorter⟩
  · simp [empty]
  · rw [split]
    rintro piece (_ | ⟨_, member⟩)
    · exact ⟨nonempty, whole⟩
    · exact mem_pieces _ piece member
termination_by s.length

/-! ## Joining components -/

section Intercalate

variable {α : Type} (sep : List α)

@[simp]
theorem intercalate_nil : sep.intercalate [] = [] := rfl

@[simp]
theorem intercalate_singleton (only : List α) : sep.intercalate [only] = only := by
  simp [List.intercalate]

theorem intercalate_cons_cons (first second : List α) (rest : List (List α)) :
    sep.intercalate (first :: second :: rest) = first ++ sep ++ sep.intercalate (second :: rest) := by
  simp [List.intercalate, List.intersperse_cons_cons]

theorem intercalate_append_single (last : List α) :
    ∀ {init : List (List α)}, init ≠ [] →
      sep.intercalate (init ++ [last]) = sep.intercalate init ++ sep ++ last
  | [], nonempty => absurd rfl nonempty
  | [first], _ => by rw [List.singleton_append, intercalate_cons_cons]; simp
  | first :: second :: rest, _ => by
      rw [List.cons_append, List.cons_append, intercalate_cons_cons, ← List.cons_append,
        intercalate_append_single last (List.cons_ne_nil second rest), intercalate_cons_cons]
      simp

theorem length_le_intercalate_cons (first : List α) :
    ∀ rest : List (List α), first.length ≤ (sep.intercalate (first :: rest)).length
  | [] => by simp
  | second :: rest => by
      rw [intercalate_cons_cons]
      simp only [List.length_append]
      omega

/-- Joining fewer components gives fewer bytes. -/
theorem intercalate_length_le {fewer more : List (List α)} (sub : fewer.Sublist more) :
    (sep.intercalate fewer).length ≤ (sep.intercalate more).length := by
  induction sub with
  | slnil => exact le_rfl
  | @cons fewer more first _ induction =>
    refine induction.trans ?_
    cases more with
    | nil => simp
    | cons second rest =>
      rw [intercalate_cons_cons]
      simp only [List.length_append]
      omega
  | @cons₂ fewer more first sub induction =>
    cases fewer with
    | nil => simpa using length_le_intercalate_cons sep first more
    | cons second rest =>
      obtain ⟨next, others, rfl⟩ := List.exists_cons_of_ne_nil (List.ne_nil_of_length_pos
        ((Nat.succ_pos _).trans_le sub.length_le))
      rw [intercalate_cons_cons, intercalate_cons_cons]
      simp only [List.length_append]
      omega

end Intercalate

/-! ## The buffer of a component stack -/

/-- The buffer `vfs_normalize_path` holds for a stack of components: a `/` for an absolute path,
then the components joined by `/`. -/
def bufferOf (absolute : Bool) (stack : List (List UInt8)) : List UInt8 :=
  (if absolute then [slash] else []) ++ [slash].intercalate stack

/-- Components as `strtok_r` cuts them: nonempty and without `/`. -/
def Plain (stack : List (List UInt8)) : Prop :=
  ∀ component ∈ stack, component ≠ [] ∧ slash ∉ component

theorem Plain.sublist {fewer more : List (List UInt8)} (plain : Plain more)
    (sub : fewer.Sublist more) : Plain fewer :=
  fun component member => plain component (sub.subset member)

theorem Plain.push {stack : List (List UInt8)} (plain : Plain stack) {component : List UInt8}
    (nonempty : component ≠ []) (whole : slash ∉ component) : Plain (stack ++ [component]) := by
  intro other member
  rcases List.mem_append.mp member with old | new
  · exact plain other old
  · exact List.mem_singleton.mp new ▸ ⟨nonempty, whole⟩

theorem bufferOf_length_le (absolute : Bool) {fewer more : List (List UInt8)}
    (sub : fewer.Sublist more) : (bufferOf absolute fewer).length ≤ (bufferOf absolute more).length := by
  simp only [bufferOf, List.length_append]
  exact Nat.add_le_add_left (intercalate_length_le [slash] sub) _

/-- Appending a component writes a `/` after a nonempty stack, then the component. -/
theorem bufferOf_push (absolute : Bool) (stack : List (List UInt8)) (component : List UInt8) :
    (if stack ≠ [] then bufferOf absolute stack ++ [slash] else bufferOf absolute stack) ++
      component = bufferOf absolute (stack ++ [component]) := by
  by_cases empty : stack = []
  · simp [empty, bufferOf]
  · simp [empty, bufferOf, intercalate_append_single [slash] component empty]

/-- The buffer of a stack of plain components ends in a byte other than `/` exactly when the
stack is nonempty. -/
theorem separate_iff (absolute : Bool) {stack : List (List UInt8)} (plain : Plain stack) :
    (0 < (bufferOf absolute stack).length ∧ (bufferOf absolute stack).getLast? ≠ some slash) ↔
      stack ≠ [] := by
  rcases stack.eq_nil_or_concat with rfl | ⟨init, last, rfl⟩
  · cases absolute <;> decide
  · obtain ⟨nonempty, whole⟩ := plain last (by simp)
    have ending := List.getLast?_eq_getLast last nonempty
    have lastByte : last.getLast nonempty ≠ slash := fun same =>
      whole (same ▸ List.getLast_mem nonempty)
    rw [List.concat_eq_append, ← bufferOf_push]
    simp [ending, lastByte, List.length_pos.mpr nonempty]

/-! ## The `..` step -/

theorem strrchrFrom_of_not_mem {c : UInt8} (nonzero : c ≠ 0) :
    ∀ {s : List UInt8}, c ∉ s → ∀ index last, strrchrFrom c s index last = last
  | [], _, index, last => by simp [strrchrFrom, nonzero]
  | b :: s, absent, index, last => by
      rw [strrchrFrom, if_neg fun (same : b = c) => absent (same ▸ List.mem_cons_self b s),
        strrchrFrom_of_not_mem nonzero fun member => absent (List.mem_cons_of_mem b member)]

/-- `strrchr` finds the `c` that no later byte repeats. -/
theorem strrchrFrom_append_cons {c : UInt8} (nonzero : c ≠ 0) {s : List UInt8} (absent : c ∉ s) :
    ∀ (front : List UInt8) index last,
      strrchrFrom c (front ++ c :: s) index last = some (index + front.length)
  | [], index, last => by
      rw [List.nil_append, strrchrFrom, if_pos rfl, strrchrFrom_of_not_mem nonzero absent]
      rfl
  | b :: front, index, last => by
      rw [List.cons_append, strrchrFrom, strrchrFrom_append_cons nonzero absent front,
        List.length_cons, Nat.add_right_comm, Nat.add_assoc]

theorem dropLastComponent_of_not_mem {s : List UInt8} (absent : slash ∉ s) :
    dropLastComponent s = s := by
  rw [dropLastComponent, strrchr, strrchrFrom_of_not_mem (by decide) absent]

/-- `..` cuts the buffer at its last `/`, or keeps the `/` when that is its first byte. -/
theorem dropLastComponent_append {front last : List UInt8} (absent : slash ∉ last) :
    dropLastComponent (front ++ slash :: last) = if front = [] then [slash] else front := by
  rw [dropLastComponent, strrchr, strrchrFrom_append_cons (by decide) absent, Nat.zero_add]
  rcases front with _ | ⟨b, front⟩
  · rfl
  · simp [List.take_left']

/-- On the buffer of a stack of plain components, `..` leaves the buffer of the stack
`popComponent` leaves. -/
theorem dropLastComponent_bufferOf (absolute : Bool) {stack : List (List UInt8)}
    (plain : Plain stack) :
    dropLastComponent (bufferOf absolute stack) = bufferOf absolute (popComponent absolute stack) := by
  rcases stack.eq_nil_or_concat with rfl | ⟨init, last, rfl⟩
  · cases absolute <;> decide
  rw [List.concat_eq_append] at plain ⊢
  obtain ⟨nonempty, whole⟩ := plain last (by simp)
  rw [← bufferOf_push]
  rcases init with _ | ⟨first, rest⟩
  · cases absolute
    · simp [bufferOf, popComponent, dropLastComponent_of_not_mem whole]
    · simpa [bufferOf, popComponent] using @dropLastComponent_append [] last whole
  · have long : ¬(first :: rest ++ [last]).length = 1 := by simp
    have written : bufferOf absolute (first :: rest) ≠ [] := List.ne_nil_of_length_pos
      ((separate_iff absolute (plain.sublist (List.sublist_append_left _ _))).mpr
        (List.cons_ne_nil first rest)).1
    rw [if_pos (List.cons_ne_nil first rest), List.append_assoc, List.singleton_append,
      dropLastComponent_append whole, if_neg written, popComponent, if_neg fun single => long single.2,
      List.dropLast_concat]

theorem popComponent_sublist (absolute : Bool) (stack : List (List UInt8)) :
    (popComponent absolute stack).Sublist stack := by
  unfold popComponent
  split
  · exact List.Sublist.refl stack
  · exact List.dropLast_sublist stack

/-! ## The loop -/

/-- The components of a path are its pieces other than `.`. -/
theorem components_eq (path : List UInt8) :
    components path = (pieces path).filter fun component => component ≠ [dot] := by
  rw [components, pieces, List.filter_filter]
  congr
  funext component
  simp [Bool.and_comm]

theorem intercalate_pieces_length_le (s : List UInt8) :
    ([slash].intercalate (pieces s)).length ≤ s.length :=
  calc ([slash].intercalate (pieces s)).length
      ≤ ([slash].intercalate (s.splitOn slash)).length :=
        intercalate_length_le [slash] (List.filter_sublist _)
    _ = s.length := by rw [List.intercalate_splitOn]

/-- The buffer of all the pieces of a path is no longer than the path. -/
theorem bufferOf_pieces_length_le (path : List UInt8) :
    (bufferOf (path.head? = some slash) (pieces path)).length ≤ path.length := by
  rcases path with _ | ⟨b, path⟩
  · decide
  by_cases lead : b = slash
  · subst lead
    simpa [bufferOf, pieces_slash_cons] using intercalate_pieces_length_le path
  · simpa [bufferOf, lead] using intercalate_pieces_length_le (b :: path)

/-- The loop of `vfs_normalize_path`, on the buffer of a stack of plain components, with more
calls of `strtok_r` left than bytes in `rest` and room for all the pieces of `rest`, processes
the components of `rest` on the stack. -/
theorem normalizeLoop_eq (absolute : Bool) :
    ∀ (fuel : Nat) (rest : Option (List UInt8)) (stack : List (List UInt8)),
      (rest.getD []).length < fuel → Plain stack →
      (bufferOf absolute (stack ++ pieces (rest.getD []))).length < maxPathLength →
      normalizeLoop fuel rest (bufferOf absolute stack) =
        (0, bufferOf absolute (processComponents (popComponent absolute) stack
          ((pieces (rest.getD [])).filter fun component => component ≠ [dot])))
  | 0, _, _, enough, _, _ => absurd enough (Nat.not_lt_zero _)
  | fuel + 1, none, stack, _, _, _ => rfl
  | fuel + 1, some s, stack, enough, plain, fits => by
    rcases strtokR_pieces s (some s) with ⟨run, empty⟩ |
      ⟨token, rest, run, nonempty, whole, split, shorter⟩
    · rw [normalizeLoop, run]
      simp [empty, processComponents]
    simp only [Option.getD_some, split] at enough fits ⊢
    have left : (rest.getD []).length < fuel := by omega
    rw [normalizeLoop, run]
    by_cases dotted : token = [dot]
    · subst dotted
      simp only [nonempty, or_true, if_true, List.filter_cons, ne_eq, not_true_eq_false,
        decide_False]
      exact normalizeLoop_eq absolute fuel rest stack left plain (fits.trans_le'
        (bufferOf_length_le absolute ((List.sublist_cons_self _ _).append_left stack)))
    by_cases dotdot : token = [dot, dot]
    · subst dotdot
      have kept : ([dot, dot] : List UInt8) ≠ [dot] := by decide
      simp only [nonempty, kept, or_self, if_false, if_true, List.filter_cons, ne_eq,
        not_false_eq_true, decide_True, processComponents, dropLastComponent_bufferOf absolute plain]
      exact normalizeLoop_eq absolute fuel rest _ left (plain.sublist (popComponent_sublist _ _))
        (fits.trans_le' (bufferOf_length_le absolute
          ((popComponent_sublist absolute stack).append (List.sublist_cons_self _ _))))
    have room : (bufferOf absolute (stack ++ [token])).length < maxPathLength :=
      fits.trans_le' (bufferOf_length_le absolute (((List.nil_sublist _).cons₂ token).append_left stack))
    have pushed := bufferOf_push absolute stack token
    have pushedLength := congrArg List.length pushed
    simp only [nonempty, dotted, dotdot, or_self, if_false, separate_iff absolute plain]
    rw [List.length_append] at pushedLength
    have first : ¬(stack ≠ [] ∧ maxPathLength ≤ (bufferOf absolute stack).length + 1 + token.length) := by
      rintro ⟨nonemptyStack, over⟩
      rw [if_pos nonemptyStack, List.length_append, List.length_singleton] at pushedLength
      omega
    rw [if_neg first, if_neg (by omega), pushed, List.filter_cons, if_pos (by simpa using dotted),
      processComponents, if_neg dotdot]
    exact normalizeLoop_eq absolute fuel rest _ left (plain.push nonempty whole) (by simpa using fits)

theorem Plain.processComponents (absolute : Bool) :
    ∀ {stack components : List (List UInt8)}, Plain stack → Plain components →
      Plain (processComponents (popComponent absolute) stack components)
  | _, [], plain, _ => plain
  | stack, component :: rest, plain, plainComponents => by
      rw [FreeCore.Vfs.processComponents]
      refine Plain.processComponents absolute ?_ fun other member =>
        plainComponents other (List.mem_cons_of_mem _ member)
      split
      · exact plain.sublist (popComponent_sublist absolute stack)
      · have := plainComponents component (List.mem_cons_self _ _)
        exact plain.push this.1 this.2

/-- The last step of `vfs_normalize_path`, which writes `/` or `.` into an empty buffer, writes
out the stack of plain components the buffer holds. -/
theorem render_bufferOf (absolute : Bool) {stack : List (List UInt8)} (plain : Plain stack) :
    (if bufferOf absolute stack = [] then (if absolute then [slash] else [dot])
      else bufferOf absolute stack) = render absolute stack := by
  by_cases empty : stack = []
  · subst empty
    cases absolute <;> rfl
  · rw [if_neg (List.ne_nil_of_length_pos ((separate_iff absolute plain).mpr empty).1)]
    cases absolute <;> simp [bufferOf, render, empty]

/-- `vfs_normalize_path` of a path shorter than `MAX_PATH_LENGTH` returns 0 and the path's
normal form under `popComponent`, which for an absolute path is the stack normal form `canon`. -/
theorem vfsNormalizePath_normalizes (path : CString) (short : strlen path < maxPathLength) :
    vfsNormalizePath path = (0, canonWith popComponent path.bytes) ∧
      (path.bytes.head? = some slash → canonWith popComponent path.bytes = canon path.bytes) := by
  refine ⟨?_, fun absolute => ?_⟩
  · unfold vfsNormalizePath canonWith
    by_cases empty : path.bytes = []
    · simp [empty]
    have start : (if path.bytes.head? = some slash then [slash] else []) =
        bufferOf (path.bytes.head? = some slash) [] := by
      simp [bufferOf]
    rw [if_neg empty, if_neg empty, if_neg (not_le.mpr short)]
    dsimp only
    have loop := normalizeLoop_eq (path.bytes.head? = some slash) (strlen path + 1) (some path.bytes) []
      (Nat.lt_succ_self _) (fun _ => False.elim ∘ List.not_mem_nil _)
      ((bufferOf_pieces_length_le path.bytes).trans_lt short)
    rw [Option.getD_some, ← components_eq] at loop
    have plain : Plain (components path.bytes) := fun component member =>
      mem_pieces path.bytes component (List.mem_of_mem_filter (components_eq path.bytes ▸ member))
    have final := render_bufferOf (path.bytes.head? = some slash)
      (@Plain.processComponents (path.bytes.head? = some slash) [] _
        (fun _ => False.elim ∘ List.not_mem_nil _) plain)
    simp only [decide_eq_true_eq] at final
    simp only [start, loop, lt_self_iff_false, if_false]
    rw [← final]
    split <;> rfl
  · have popsLast : popComponent true = List.dropLast := funext fun stack => by simp [popComponent]
    simp [canonWith, canon, absolute, popsLast]

example : vfsNormalizePath ⟨[47, 97, 47, 47, 98, 47, 46, 46, 47, 46, 47, 99], by decide⟩ =
    (0, [47, 97, 47, 99]) := by
  decide

/-- `a/..` normalizes to `a` where `canon` gives `.`, and `a/../b` to `a/b` where it gives `b`. -/
theorem vfsNormalizePath_relative_parent :
    strlen ⟨[97, 47, 46, 46], by decide⟩ < maxPathLength ∧
      vfsNormalizePath ⟨[97, 47, 46, 46], by decide⟩ = (0, [97]) ∧
      canon [97, 47, 46, 46] = [dot] ∧
      strlen ⟨[97, 47, 46, 46, 47, 98], by decide⟩ < maxPathLength ∧
      vfsNormalizePath ⟨[97, 47, 46, 46, 47, 98], by decide⟩ = (0, [97, 47, 98]) ∧
      canon [97, 47, 46, 46, 47, 98] = [98] :=
  ⟨by decide, (vfsNormalizePath_normalizes _ (by decide)).1.trans (by decide), by decide,
    by decide, (vfsNormalizePath_normalizes _ (by decide)).1.trans (by decide), by decide⟩

end FreeCore.Vfs

