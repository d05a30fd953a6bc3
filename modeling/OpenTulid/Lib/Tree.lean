/-
File trees: files and directories under paths, and the calls that change
them.

# The tree

A path is its list of names below the root; the root is always a
directory and is not recorded. `FileTree` carries the fact that what holds an
entry is a directory, so no entry hangs in the air or below a file.

# The calls

`FsWrite` lists the calls one by one, each of which a crash can separate
from the next: a file is opened (created or truncated), given its mode and
filled block by block. `FileTree.write` performs one call or answers its
error; `FileTree.write_node` says what the tree holds afterwards, at the path
of the call and everywhere else.
-/
import OpenTulid.Lib.Store
import Mathlib.Data.List.Lex
import Mathlib.Data.String.Basic
import Mathlib.Data.List.Induction
import Mathlib.Data.List.Infix

/-- A path below a root: its names, outermost first. -/
abbrev RelPath := List String

/-- Bytes of a file. -/
abbrev Content := List UInt8

/-- Permission bits. -/
abbrev Mode := Nat

/-- What a regular file holds. -/
structure FileImage where
  content : Content
  mode : Mode
  deriving DecidableEq, Repr

/-- An entry of a tree. -/
inductive Node where
  | file (image : FileImage)
  | dir
  deriving DecidableEq, Repr

/-- The errors a file system call answers with. -/
inductive Errno where
  | enoent
  | enotdir
  | eisdir
  | enotempty
  | eexist
  | eio
  deriving DecidableEq, Repr

/-- What stands at a path among recorded entries: the root is a
directory. -/
def Store.nodeAt (nodes : Store RelPath Node) (p : RelPath) : Option Node :=
  if p = [] then some .dir else nodes.get p

/-- A file tree: every entry is named and its parent is a directory. -/
structure FileTree where
  nodes : Store RelPath Node
  closed : ∀ e ∈ nodes.entries,
    e.1 ≠ [] ∧ nodes.nodeAt e.1.dropLast = some .dir

namespace FileTree

instance : DecidableEq FileTree := fun s t =>
  decidable_of_iff (s.nodes = t.nodes) <| by
    cases s; cases t; simp

/-- The tree of a root without entries. -/
def empty : FileTree := ⟨∅, by intro e he; cases he⟩

instance : EmptyCollection FileTree := ⟨empty⟩

instance : Inhabited FileTree := ⟨empty⟩

/-- What stands at a path. -/
def node (t : FileTree) (p : RelPath) : Option Node := t.nodes.nodeAt p

/-- The regular file at a path. -/
def file? (t : FileTree) (p : RelPath) : Option FileImage :=
  match t.node p with
  | some (.file f) => some f
  | _ => none

/-- Some entry stands directly below a path. -/
def hasChild (t : FileTree) (p : RelPath) : Bool :=
  t.nodes.keys.any fun q => q.dropLast = p

@[simp] theorem node_nil (t : FileTree) : t.node [] = some .dir := rfl

theorem node_eq_get (t : FileTree) {p : RelPath} (hp : p ≠ []) :
    t.node p = t.nodes.get p := by
  simp [node, Store.nodeAt, hp]

/-- Trees that hold the same everywhere are equal. -/
theorem ext_node {s t : FileTree} (h : ∀ p, s.node p = t.node p) : s = t := by
  have hnodes : s.nodes = t.nodes := by
    refine Store.ext_get fun p => ?_
    by_cases hp : p = []
    · subst hp
      have hnone : ∀ u : FileTree, u.nodes.get [] = none := by
        intro u
        cases hu : u.nodes.get [] with
        | none => rfl
        | some n => exact absurd rfl (u.closed _ (Store.mem_entries.mpr hu)).1
      rw [hnone s, hnone t]
    · have := h p
      rwa [node_eq_get s hp, node_eq_get t hp] at this
  cases s
  cases t
  cases hnodes
  rfl

/-- What stands at a path stands in a directory. -/
theorem node_dropLast {t : FileTree} {p : RelPath} {n : Node}
    (h : t.node p = some n) (hp : p ≠ []) : t.node p.dropLast = some .dir := by
  rw [node_eq_get t hp] at h
  exact (t.closed _ (Store.mem_entries.mpr h)).2

/-- Every proper prefix of a path at which something stands is a
directory. -/
theorem node_prefix {t : FileTree} {p q : RelPath} {n : Node}
    (h : t.node (p ++ q) = some n) (hq : q ≠ []) : t.node p = some .dir := by
  induction q using List.reverseRecOn generalizing n with
  | nil => exact absurd rfl hq
  | append_singleton q a ih =>
      have hparent : t.node (p ++ q) = some .dir := by
        have := node_dropLast (p := p ++ (q ++ [a])) h (by simp)
        rwa [← List.append_assoc, List.dropLast_concat] at this
      by_cases hnil : q = []
      · subst hnil
        simpa using hparent
      · exact ih hparent hnil

/-- An entry below a path is seen by `hasChild`. -/
theorem hasChild_of_node {t : FileTree} {p : RelPath} {a : String} {n : Node}
    (h : t.node (p ++ [a]) = some n) : t.hasChild p = true := by
  rw [node_eq_get t (by simp)] at h
  refine List.any_eq_true.mpr ⟨p ++ [a], Store.mem_keys.mpr ⟨n, h⟩, ?_⟩
  simp

/-- A path `hasChild` rejects has nothing directly below it. -/
theorem node_of_hasChild_eq_false {t : FileTree} {p : RelPath}
    (h : t.hasChild p = false) (a : String) : t.node (p ++ [a]) = none := by
  cases hn : t.node (p ++ [a]) with
  | none => rfl
  | some n => rw [hasChild_of_node hn] at h; cases h

-- ================================================ building the trees

/-- An entry written at a named path whose parent is a directory and, when
it is no directory itself, where no directory stands. -/
def putNode (t : FileTree) (p : RelPath) (n : Node) (hp : p ≠ [])
    (hparent : t.node p.dropLast = some .dir)
    (hleaf : n = .dir ∨ t.node p ≠ some .dir) : FileTree where
  nodes := t.nodes.put p n
  closed := by
    intro e he
    have hget := Store.mem_entries.mp he
    have hne : e.1 ≠ [] := by
      by_cases hep : e.1 = p
      · exact hep ▸ hp
      · rw [Store.get_put_of_ne hep] at hget
        exact (t.closed _ (Store.mem_entries.mpr hget)).1
    have hold : t.node e.1.dropLast = some .dir := by
      by_cases hep : e.1 = p
      · exact hep ▸ hparent
      · rw [Store.get_put_of_ne hep] at hget
        exact (t.closed _ (Store.mem_entries.mpr hget)).2
    refine ⟨hne, ?_⟩
    by_cases hroot : e.1.dropLast = []
    · simp [Store.nodeAt, hroot]
    · unfold Store.nodeAt
      rw [if_neg hroot, Store.get_put]
      split
      next heq =>
        rcases hleaf with rfl | hleaf
        · rfl
        · exact absurd (heq ▸ hold) hleaf
      next => rwa [node_eq_get t hroot] at hold

/-- An entry removed where nothing stands below. -/
def dropNode (t : FileTree) (p : RelPath) (h : ∀ a, t.node (p ++ [a]) = none) :
    FileTree where
  nodes := t.nodes.erase p
  closed := by
    intro e he
    have hget := Store.mem_entries.mp he
    rw [Store.get_erase] at hget
    split at hget
    next => cases hget
    next hne =>
      obtain ⟨hroot, hparent⟩ := t.closed _ (Store.mem_entries.mpr hget)
      refine ⟨hroot, ?_⟩
      by_cases hnil : e.1.dropLast = []
      · simp [Store.nodeAt, hnil]
      · unfold Store.nodeAt
        rw [if_neg hnil, Store.get_erase]
        split
        next heq =>
          have := h (e.1.getLast hroot)
          rw [← heq, List.dropLast_append_getLast hroot,
            node_eq_get t hroot, hget] at this
          cases this
        next =>
          simpa [Store.nodeAt, hnil] using hparent

theorem node_putNode {t : FileTree} {p q : RelPath} {n : Node} {hp hparent hleaf} :
    (t.putNode p n hp hparent hleaf).node q =
      if q = p then some n else t.node q := by
  unfold node Store.nodeAt putNode
  by_cases hq : q = []
  · subst hq
    simp [Ne.symm hp]
  · simp [hq, Store.get_put]

theorem node_dropNode {t : FileTree} {p q : RelPath} {h} (hp : p ≠ []) :
    (t.dropNode p h).node q = if q = p then none else t.node q := by
  unfold node Store.nodeAt dropNode
  by_cases hq : q = []
  · subst hq
    simp [Ne.symm hp]
  · simp [hq, Store.get_erase]

-- ================================================= copies of part of a tree

/-- A path is reached through kept names: it and every path above it are
kept. -/
def reached (keep : RelPath → Bool) (p : RelPath) : Bool :=
  p.inits.all fun q => q = [] || keep q

/-- What is reached is reached through what stands above it. -/
theorem reached_of_prefix {keep : RelPath → Bool} {p q : RelPath} (h : q <+: p)
    (hp : reached keep p = true) : reached keep q = true := by
  unfold reached at hp ⊢
  rw [List.all_eq_true] at hp ⊢
  intro r hr
  exact hp r (List.mem_inits _ _ |>.mpr ((List.mem_inits _ _ |>.mp hr).trans h))

theorem keep_of_reached {keep : RelPath → Bool} {p : RelPath} (hp : p ≠ [])
    (h : reached keep p = true) : keep p = true := by
  unfold reached at h
  have := List.all_eq_true.mp h p (List.mem_inits _ _ |>.mpr (List.prefix_refl p))
  simpa [hp] using this

/-- The copy of a tree that leaves out what is not kept, with everything
below it. -/
def restrict (t : FileTree) (keep : RelPath → Bool) : FileTree where
  nodes := ⟨t.nodes.entries.filter fun e => reached keep e.1,
    t.nodes.sorted.filter _⟩
  closed := by
    intro e he
    obtain ⟨hmem, hreached⟩ := List.mem_filter.mp he
    obtain ⟨hroot, hparent⟩ := t.closed e hmem
    refine ⟨hroot, ?_⟩
    unfold Store.nodeAt at hparent ⊢
    split
    next => rfl
    next hne =>
      rw [if_neg hne] at hparent
      refine Store.mem_entries.mp (List.mem_filter.mpr ⟨Store.mem_entries.mpr hparent, ?_⟩)
      exact reached_of_prefix (List.dropLast_prefix _) hreached

theorem node_restrict (t : FileTree) (keep : RelPath → Bool) (p : RelPath) :
    (t.restrict keep).node p = if reached keep p then t.node p else none := by
  by_cases hp : p = []
  · subst hp
    rfl
  · rw [node_eq_get _ hp, node_eq_get _ hp]
    have hget : ∀ n, (t.restrict keep).nodes.get p = some n ↔
        t.nodes.get p = some n ∧ reached keep p = true := by
      intro n
      rw [← Store.mem_entries, ← Store.mem_entries]
      exact List.mem_filter
    split
    next h =>
      refine Option.ext fun n => ?_
      rw [hget]
      exact and_iff_left h
    next h =>
      refine Option.eq_none_iff_forall_ne_some.mpr fun n hn => ?_
      exact h ((hget n).mp hn).2

end FileTree

-- ========================================================== the calls

/-- The calls that change a tree. -/
inductive FsWrite where
  /-- remove a file -/
  | unlink (p : RelPath)
  /-- remove an empty directory -/
  | rmdir (p : RelPath)
  /-- make a directory -/
  | mkdir (p : RelPath)
  /-- open a file for writing, created with a mode or truncated -/
  | openTrunc (p : RelPath) (mode : Mode)
  /-- set the mode of the opened file -/
  | fchmod (p : RelPath) (mode : Mode)
  /-- write a block at the end of the opened file -/
  | append (p : RelPath) (block : Content)
  deriving DecidableEq, Repr

/-- The path a call is about. -/
def FsWrite.path : FsWrite → RelPath
  | .unlink p => p
  | .rmdir p => p
  | .mkdir p => p
  | .openTrunc p _ => p
  | .fchmod p _ => p
  | .append p _ => p

namespace FileTree

/-- The error of looking up a path whose parent is no directory. -/
def missing (t : FileTree) (p : RelPath) : Errno :=
  match t.node p with
  | some (.file _) => .enotdir
  | _ => .enoent

/-- One call: the changed tree, or the error. A mode or a block goes to the
file that is open, so it is lost when its path holds no file any more. -/
def write (t : FileTree) : FsWrite → Except Errno FileTree
  | .unlink p =>
      match hn : t.node p with
      | some (.file f) => .ok <| t.dropNode p fun a => by
          cases hchild : t.node (p ++ [a]) with
          | none => rfl
          | some n =>
              have := node_prefix hchild (by simp)
              rw [hn] at this
              cases this
      | some .dir => .error .eisdir
      | none => .error .enoent
  | .rmdir p =>
      match t.node p with
      | some .dir =>
          if hchild : t.hasChild p = false then
            if p = [] then .error .eio
            else .ok (t.dropNode p (node_of_hasChild_eq_false hchild))
          else .error .enotempty
      | some (.file _) => .error .enotdir
      | none => .error .enoent
  | .mkdir p =>
      if hp : p = [] then .error .eexist
      else if hparent : t.node p.dropLast = some .dir then
        match t.node p with
        | some _ => .error .eexist
        | none => .ok (t.putNode p .dir hp hparent (Or.inl rfl))
      else .error (t.missing p.dropLast)
  | .openTrunc p mode =>
      if hp : p = [] then .error .eisdir
      else if hparent : t.node p.dropLast = some .dir then
        match hn : t.node p with
        | some .dir => .error .eisdir
        | some (.file f) => .ok <|
            t.putNode p (.file ⟨[], f.mode⟩) hp hparent (Or.inr (by simp [hn]))
        | none => .ok <|
            t.putNode p (.file ⟨[], mode⟩) hp hparent (Or.inr (by simp [hn]))
      else .error (t.missing p.dropLast)
  | .fchmod p mode =>
      match hn : t.node p with
      | some (.file f) => .ok <|
          t.putNode p (.file ⟨f.content, mode⟩)
            (by rintro rfl; simp at hn)
            (node_dropLast hn (by rintro rfl; simp at hn))
            (Or.inr (by simp [hn]))
      | _ => .ok t
  | .append p block =>
      match hn : t.node p with
      | some (.file f) => .ok <|
          t.putNode p (.file ⟨f.content ++ block, f.mode⟩)
            (by rintro rfl; simp at hn)
            (node_dropLast hn (by rintro rfl; simp at hn))
            (Or.inr (by simp [hn]))
      | _ => .ok t

/-- What stands at the path of a call once it has succeeded. -/
def written (t : FileTree) : FsWrite → Option Node
  | .unlink _ => none
  | .rmdir _ => none
  | .mkdir _ => some .dir
  | .openTrunc p mode =>
      match t.node p with
      | some (.file f) => some (.file ⟨[], f.mode⟩)
      | _ => some (.file ⟨[], mode⟩)
  | .fchmod p mode =>
      match t.node p with
      | some (.file f) => some (.file ⟨f.content, mode⟩)
      | n => n
  | .append p block =>
      match t.node p with
      | some (.file f) => some (.file ⟨f.content ++ block, f.mode⟩)
      | n => n

/-- A call that succeeds changes only what stands at its path. -/
theorem write_node {t t' : FileTree} {w : FsWrite} (h : t.write w = .ok t')
    (q : RelPath) :
    t'.node q = if q = w.path then t.written w else t.node q := by
  cases w with
  | unlink p =>
      simp only [write] at h
      split at h
      next f hn =>
        cases h
        have hp : p ≠ [] := by rintro rfl; simp at hn
        rw [node_dropNode hp]
        rfl
      next => cases h
      next => cases h
  | rmdir p =>
      simp only [write] at h
      split at h
      next hn =>
        split at h
        next =>
          split at h
          next => cases h
          next hp =>
            cases h
            rw [node_dropNode hp]
            rfl
        next => cases h
      next => cases h
      next => cases h
  | mkdir p =>
      simp only [write] at h
      split at h
      next => cases h
      next =>
        split at h
        next =>
          split at h
          next => cases h
          next =>
            cases h
            rw [node_putNode]
            rfl
        next => cases h
  | openTrunc p mode =>
      simp only [write] at h
      split at h
      next => cases h
      next =>
        split at h
        next =>
          split at h
          next => cases h
          next f hn => cases h; simp [node_putNode, FsWrite.path, written, hn]
          next hn => cases h; simp [node_putNode, FsWrite.path, written, hn]
        next => cases h
  | fchmod p mode =>
      simp only [write] at h
      split at h
      next f hn => cases h; simp [node_putNode, FsWrite.path, written, hn]
      next hn =>
        cases h
        by_cases hq : q = p
        · subst hq
          simp only [FsWrite.path, written, if_true]
        · simp [FsWrite.path, hq]
  | append p block =>
      simp only [write] at h
      split at h
      next f hn => cases h; simp [node_putNode, FsWrite.path, written, hn]
      next hn =>
        cases h
        by_cases hq : q = p
        · subst hq
          simp only [FsWrite.path, written, if_true]
        · simp [FsWrite.path, hq]

-- ================================================ calls that succeed

/-- A path `hasChild` accepts has something directly below it. -/
theorem exists_child {t : FileTree} {p : RelPath} (h : t.hasChild p = true) :
    ∃ a n, t.node (p ++ [a]) = some n := by
  obtain ⟨q, hq, hparent⟩ := List.any_eq_true.mp h
  obtain ⟨n, hn⟩ := Store.mem_keys.mp hq
  have hroot : q ≠ [] := (t.closed _ (Store.mem_entries.mpr hn)).1
  have hsplit : q = p ++ [q.getLast hroot] := by
    rw [← of_decide_eq_true hparent, List.dropLast_append_getLast hroot]
  refine ⟨q.getLast hroot, n, ?_⟩
  rw [← hsplit, node_eq_get t hroot]
  exact hn

theorem file?_eq_some {t : FileTree} {p : RelPath} {f : FileImage} :
    t.file? p = some f ↔ t.node p = some (.file f) := by
  unfold file?
  split
  next h => simp [h]
  next h =>
    constructor
    · intro hf
      cases hf
    · intro hf
      exact absurd hf (h f)

theorem ne_nil_of_file {t : FileTree} {p : RelPath} {f : FileImage}
    (h : t.node p = some (.file f)) : p ≠ [] := by
  intro hp
  rw [hp, node_nil] at h
  cases h

theorem write_unlink {t : FileTree} {p : RelPath} {f : FileImage}
    (h : t.node p = some (.file f)) : ∃ t', t.write (.unlink p) = .ok t' := by
  simp only [write]
  split
  next => exact ⟨_, rfl⟩
  next hdir => rw [h] at hdir; cases hdir
  next hnone => rw [h] at hnone; cases hnone

theorem write_rmdir {t : FileTree} {p : RelPath} (h : t.node p = some .dir)
    (hroot : p ≠ []) (hchild : t.hasChild p = false) :
    ∃ t', t.write (.rmdir p) = .ok t' := by
  simp only [write, h]
  rw [dif_pos hchild, if_neg hroot]
  exact ⟨_, rfl⟩

theorem write_rmdir_error {t : FileTree} {p : RelPath} (h : t.node p = some .dir)
    (hchild : t.hasChild p = true) : t.write (.rmdir p) = .error .enotempty := by
  simp only [write, h]
  rw [dif_neg (by simp [hchild])]

theorem write_mkdir {t : FileTree} {p : RelPath} (h : t.node p = none)
    (hparent : t.node p.dropLast = some .dir) :
    ∃ t', t.write (.mkdir p) = .ok t' := by
  have hroot : p ≠ [] := by
    intro hp
    rw [hp, node_nil] at h
    cases h
  simp only [write]
  rw [dif_neg hroot, dif_pos hparent]
  split
  next hn => rw [h] at hn; cases hn
  next => exact ⟨_, rfl⟩

/-- A directory is made where nothing stood. -/
theorem node_of_write_mkdir {t t' : FileTree} {p : RelPath}
    (h : t.write (.mkdir p) = .ok t') : t.node p = none := by
  simp only [write] at h
  split at h
  next => cases h
  next =>
    split at h
    next =>
      split at h
      next => cases h
      next hnone => exact hnone
    next => cases h

theorem write_openTrunc {t : FileTree} {p : RelPath} (mode : Mode) (hroot : p ≠ [])
    (hparent : t.node p.dropLast = some .dir) (h : t.node p ≠ some .dir) :
    ∃ t', t.write (.openTrunc p mode) = .ok t' := by
  simp only [write]
  rw [dif_neg hroot, dif_pos hparent]
  split
  next hn => exact absurd hn h
  next => exact ⟨_, rfl⟩
  next => exact ⟨_, rfl⟩

/-- An opened file is empty. -/
theorem written_openTrunc (t : FileTree) (p : RelPath) (mode : Mode) :
    ∃ m, t.written (.openTrunc p mode) = some (.file ⟨[], m⟩) := by
  simp only [written]
  split <;> exact ⟨_, rfl⟩

theorem write_fchmod (t : FileTree) (p : RelPath) (mode : Mode) :
    ∃ t', t.write (.fchmod p mode) = .ok t' := by
  simp only [write]
  split <;> exact ⟨_, rfl⟩

theorem write_append (t : FileTree) (p : RelPath) (block : Content) :
    ∃ t', t.write (.append p block) = .ok t' := by
  simp only [write]
  split <;> exact ⟨_, rfl⟩

-- ========================================================== moving a file

/-- A file moved to a path, over the file that stands there. -/
def replace (t : FileTree) (src dst : RelPath) : Except Errno FileTree :=
  match hsrc : t.node src with
  | none => .error .enoent
  | some .dir => .error .eisdir
  | some (.file f) =>
      if hroot : dst = [] then .error .eisdir
      else if hparent : t.node dst.dropLast = some .dir then
        if hdst : t.node dst = some .dir then .error .eisdir
        else if src = dst then .ok t
        else (t.putNode dst (.file f) hroot hparent (Or.inr hdst)).write (.unlink src)
      else .error (t.missing dst.dropLast)

/-- A file is moved as a whole. -/
theorem node_replace {t t' : FileTree} {src dst : RelPath} {f : FileImage}
    (h : t.replace src dst = .ok t') (hsrc : t.node src = some (.file f)) (hne : src ≠ dst)
    (q : RelPath) :
    t'.node q = if q = src then none else if q = dst then some (.file f) else t.node q := by
  unfold replace at h
  split at h
  next hnone => rw [hsrc] at hnone; cases hnone
  next hdir => rw [hsrc] at hdir; cases hdir
  next f' hfile =>
    rw [hsrc] at hfile
    cases hfile
    split at h
    next => cases h
    next =>
      split at h
      next =>
        split at h
        next => cases h
        next =>
          rw [write_node h, node_putNode]
          rfl
      next => cases h

/-- A file is moved to any path in a directory at which no directory
stands. -/
theorem exists_replace {t : FileTree} {src dst : RelPath} {f : FileImage}
    (hsrc : t.node src = some (.file f)) (hroot : dst ≠ [])
    (hparent : t.node dst.dropLast = some .dir) (hdst : t.node dst ≠ some .dir) :
    ∃ t', t.replace src dst = .ok t' := by
  unfold replace
  split
  next hnone => rw [hsrc] at hnone; cases hnone
  next hdir => rw [hsrc] at hdir; cases hdir
  next f' hfile =>
    rw [dif_neg hroot, dif_pos hparent, dif_neg hdst]
    split
    next => exact ⟨_, rfl⟩
    next hne => exact write_unlink (by rw [node_putNode, if_neg hne]; exact hfile)

-- ==================================================== room for a file

/-- A file can be written at a path: no file stands above it and nothing
below. -/
structure HasRoom (t : FileTree) (p : RelPath) : Prop where
  above : ∀ q f, q <+: p → q ≠ p → t.node q ≠ some (.file f)
  below : ∀ q, p <+: q → q ≠ p → t.node q = none

/-- What a tree holds once a file was written with the directories above
it. -/
def nodeWithFile (t : FileTree) (p : RelPath) (image : FileImage) (q : RelPath) :
    Option Node :=
  if q = p then some (.file image)
  else if q <+: p then some .dir
  else t.node q

end FileTree
