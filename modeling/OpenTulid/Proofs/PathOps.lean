/-
What the path operations do when nobody else writes and no call fails.

A program alone is run on the data by `Proc.alone`. Each operation of
`pathops` gets one lemma for the case it succeeds in, saying what the tree
holds afterwards at every path, and one for the case it refuses: a file can
be written exactly where there is room for it (`FileTree.HasRoom`), once an
empty directory has been removed.
-/
import OpenTulid.PathOps

namespace OpenTulid

-- ===================================================== programs alone

/-- A program run alone, without a failing call. -/
def Proc.alone {α : Type} (E : Env) (p : Proc α) (d : Data) :
    Except Raised α × Data :=
  Prog.run (fun o d => o.apply E false d) p d

variable {E : Env} {α β : Type} {d : Data} {root : Root}

@[simp] theorem alone_ret (a : α) :
    Proc.alone E (.ret a) d = (.ok a, d) := rfl

theorem alone_read (f : Data → β) (g : β → Proc α) :
    Proc.alone E (read f >>= g) d = Proc.alone E (g (f d)) d := rfl

theorem alone_perform (o : Op) (g : o.Res → Proc α) :
    Proc.alone E (perform o >>= g) d
      = Proc.alone E (g (o.apply E false d).2) (o.apply E false d).1 := rfl

/-- A sequence whose first part returns. -/
theorem alone_bind {p : Proc β} {g : β → Proc α} {b : β} {d' : Data}
    (h : Proc.alone E p d = (.ok b, d')) :
    Proc.alone E (p >>= g) d = Proc.alone E (g b) d' :=
  Prog.run_bind_ok h

/-- A handled program that returns. -/
theorem alone_tryCatch {p : Proc α} {h : Raised → Proc α} {a : α} {d' : Data}
    (hp : Proc.alone E p d = (.ok a, d')) :
    Proc.alone E (Prog.tryCatch p h) d = (.ok a, d') := by
  unfold Proc.alone at hp ⊢
  rw [Prog.run_tryCatch, hp]

@[simp] theorem tree_setTree (t : FileTree) : (d.setTree root t).tree root = t := by
  cases root with
  | repo r => simp [Data.setTree, Data.tree]
  | artifacts p => simp [Data.setTree, Data.tree]

@[simp] theorem setTree_setTree (t t' : FileTree) :
    (d.setTree root t).setTree root t' = d.setTree root t' := by
  cases root with
  | repo r => simp [Data.setTree, Data.withRepo]
  | artifacts p => simp [Data.setTree, Data.withProject]

@[simp] theorem setTree_self : d.setTree root (d.tree root) = d := by
  cases root with
  | repo r => simp [Data.setTree, Data.tree, Data.withRepo]
  | artifacts p => simp [Data.setTree, Data.tree, Data.withProject]

/-- The working tree of a repository whose tree has been replaced. -/
theorem repo_tree_setTree (r : RepoId) (t : FileTree) :
    ((d.setTree (.repo r) t).repos r).tree = t := by
  simp [Data.setTree]

/-- Putting back the working tree that stands changes nothing. -/
theorem setTree_repo_self (r : RepoId) : d.setTree (.repo r) (d.repos r).tree = d := by
  simp [Data.setTree, Data.withRepo]

@[simp] theorem storages_setTree (t : FileTree) :
    (d.setTree root t).storages = d.storages := by
  cases root <;> rfl

theorem alone_fs {w : FsWrite} {t : FileTree} (h : (d.tree root).write w = .ok t)
    (g : (Op.fs root w).Res → Proc α) :
    Proc.alone E (perform (.fs root w) >>= g) d
      = Proc.alone E (g (Except.ok () : Except Errno Unit)) (d.setTree root t) := by
  have happly : (Op.fs root w).apply E false d
      = (d.setTree root t, (Except.ok () : Except Errno Unit)) := by
    simp only [Op.apply, h, Bool.false_eq_true, if_false]
    rfl
  rw [alone_perform, happly]

theorem alone_fs_error {w : FsWrite} {e : Errno}
    (h : (d.tree root).write w = .error e) (g : (Op.fs root w).Res → Proc α) :
    Proc.alone E (perform (.fs root w) >>= g) d
      = Proc.alone E (g (Except.error e : Except Errno Unit)) d := by
  have happly : (Op.fs root w).apply E false d
      = (d, (Except.error e : Except Errno Unit)) := by
    simp only [Op.apply, h, Bool.false_eq_true, if_false]
    rfl
  rw [alone_perform, happly]

-- ================================================= opening the parents

/-- The prefixes of a list are listed from the shortest to the longest. -/
theorem pairwise_inits {α : Type} (l : List α) : l.inits.Pairwise (· <+: ·) := by
  induction l with
  | nil => simp
  | cons a rest ih =>
      rw [List.inits_cons]
      refine List.pairwise_cons.mpr ⟨fun q _ => List.nil_prefix, ?_⟩
      exact List.pairwise_map.mpr (ih.imp fun h => (List.prefix_cons_inj a).mpr h)

/-- A path above another is a proper prefix of it. -/
theorem prefix_dropLast {p q : RelPath} (hp : p ≠ []) :
    q <+: p.dropLast ↔ q <+: p ∧ q ≠ p := by
  constructor
  · intro h
    refine ⟨h.trans (List.dropLast_prefix p), fun heq => ?_⟩
    have hlength := h.length_le
    rw [heq, List.length_dropLast] at hlength
    have := List.length_pos_of_ne_nil hp
    omega
  · intro h
    obtain ⟨⟨tail, rfl⟩, hne⟩ := h
    have htail : tail ≠ [] := by
      intro hnil
      rw [hnil, List.append_nil] at hne
      exact hne rfl
    rw [List.dropLast_append_of_ne_nil htail]
    exact List.prefix_append _ _

/-- What stands above something is a directory. -/
theorem dir_above {t : FileTree} {p q : RelPath} {n : Node} (h : t.node p = some n)
    (hq : q <+: p) (hne : q ≠ p) : t.node q = some .dir := by
  obtain ⟨tail, rfl⟩ := hq
  refine FileTree.node_prefix h fun hnil => ?_
  rw [hnil, List.append_nil] at hne
  exact hne rfl

/-- The parents of what stands somewhere can be opened. -/
theorem openParent_of_node {t : FileTree} {p : RelPath} {n : Node}
    (h : t.node p = some n) : openParent t p = .ok () := by
  unfold openParent
  have hnone : (p.dropLast.inits.find? fun q => t.node q ≠ some .dir) = none := by
    refine List.find?_eq_none.mpr fun q hq => ?_
    have hpre : q <+: p.dropLast := (List.mem_inits _ _).mp hq
    have hdir : t.node q = some .dir := by
      by_cases hnil : p = []
      · subst hnil
        rw [List.prefix_nil.mp hpre]
        rfl
      · obtain ⟨habove, hne⟩ := (prefix_dropLast hnil).mp hpre
        exact dir_above h habove hne
    simp [hdir]
  rw [hnone]

/-- A file above a path keeps its parents from being opened. -/
theorem openParent_of_file {t : FileTree} {p q : RelPath} {f : FileImage}
    (hq : q <+: p) (hne : q ≠ p) (h : t.node q = some (.file f)) :
    openParent t p = .error .enotdir := by
  have hp : p ≠ [] := by
    intro hnil
    subst hnil
    exact hne (List.prefix_nil.mp hq)
  have hmem : q ∈ p.dropLast.inits :=
    (List.mem_inits _ _).mpr ((prefix_dropLast hp).mpr ⟨hq, hne⟩)
  unfold openParent
  cases hfind : p.dropLast.inits.find? fun q => t.node q ≠ some .dir with
  | none =>
      have := List.find?_eq_none.mp hfind q hmem
      simp [h] at this
  | some first =>
      obtain ⟨hfirst, before, after, hsplit, hbefore⟩ :=
        List.find?_eq_some_iff_append.mp hfind
      have hsome : t.node first ≠ none := by
        intro hnone
        rw [hsplit, List.mem_append, List.mem_cons] at hmem
        rcases hmem with hmem | rfl | hmem
        · have := hbefore q hmem
          simp [h] at this
        · rw [h] at hnone
          cases hnone
        · -- the file stands below the first missing directory
          have hsorted := pairwise_inits p.dropLast
          rw [hsplit] at hsorted
          have hpre := (List.pairwise_cons.mp
            (List.pairwise_append.mp hsorted).2.1).1 q hmem
          by_cases heq : first = q
          · rw [heq, h] at hnone
            cases hnone
          · rw [dir_above h hpre heq] at hnone
            cases hnone
      simp only [hsome, if_false]

/-- Without a file above it the parents of a path can be opened, or one of
them is missing and nothing stands at the path. -/
theorem openParent_of_room {t : FileTree} {p : RelPath} (hp : p ≠ [])
    (h : ∀ q f, q <+: p → q ≠ p → t.node q ≠ some (.file f)) :
    (openParent t p = .ok () ∧ t.node p.dropLast = some .dir) ∨
      (openParent t p = .error .enoent ∧ t.node p = none) := by
  unfold openParent
  cases hfind : p.dropLast.inits.find? fun q => t.node q ≠ some .dir with
  | none =>
      refine Or.inl ⟨rfl, ?_⟩
      have := List.find?_eq_none.mp hfind p.dropLast
        ((List.mem_inits _ _).mpr (List.prefix_refl _))
      simpa using this
  | some first =>
      have hdir : t.node first ≠ some .dir := by
        simpa using List.find?_some hfind
      obtain ⟨habove, hne⟩ := (prefix_dropLast hp).mp
        ((List.mem_inits _ _).mp (List.mem_of_find?_eq_some hfind))
      have hnone : t.node first = none := by
        cases hn : t.node first with
        | none => rfl
        | some n =>
            cases n with
            | dir => exact absurd hn hdir
            | file f => exact absurd hn (h first f habove hne)
      refine Or.inr ⟨by simp only [hnone, if_true], ?_⟩
      cases hn : t.node p with
      | none => rfl
      | some n => exact absurd (dir_above hn habove hne) hdir

-- ==================================================== the operations

/-- A file is removed. -/
theorem alone_unlinkRegularNofollow {p : RelPath} {f : FileImage}
    (h : (d.tree root).node p = some (.file f)) :
    ∃ t, Proc.alone E (unlinkRegularNofollow root p) d
        = (.ok (.ok true), d.setTree root t) ∧
      ∀ q, t.node q = if q = p then none else (d.tree root).node q := by
  obtain ⟨t, ht⟩ := FileTree.write_unlink h
  refine ⟨t, ?_, FileTree.write_node ht⟩
  unfold unlinkRegularNofollow
  rw [alone_read, openParent_of_node h]
  simp only [h]
  exact alone_fs ht _

/-- An empty directory is removed, and anything else that leaves room is
left as it stands. -/
theorem alone_rmdirIfEmptyNofollow {p : RelPath} (hp : p ≠ [])
    (hroom : (d.tree root).HasRoom p) :
    ∃ t removed, Proc.alone E (rmdirIfEmptyNofollow root p) d
        = (.ok (.ok removed), d.setTree root t) ∧ t.node p ≠ some .dir ∧
      ∀ q, q ≠ p → t.node q = (d.tree root).node q := by
  unfold rmdirIfEmptyNofollow
  rw [alone_read]
  rcases openParent_of_room hp hroom.above with ⟨hopen, -⟩ | ⟨hopen, hnone⟩
  · rw [hopen]
    cases hn : (d.tree root).node p with
    | none =>
        refine ⟨d.tree root, false, ?_, by simp [hn], fun _ _ => rfl⟩
        rw [setTree_self]
        rfl
    | some n =>
        cases n with
        | file f =>
            refine ⟨d.tree root, false, ?_, by simp [hn], fun _ _ => rfl⟩
            rw [setTree_self]
            rfl
        | dir =>
            have hchild : (d.tree root).hasChild p = false := by
              cases hchild : (d.tree root).hasChild p with
              | false => rfl
              | true =>
                  obtain ⟨a, n, hbelow⟩ := FileTree.exists_child hchild
                  have := hroom.below (p ++ [a]) (List.prefix_append _ _) (by simp)
                  rw [hbelow] at this
                  cases this
            obtain ⟨t, ht⟩ := FileTree.write_rmdir hn hp hchild
            have hnode : ∀ q, t.node q
                = if q = p then none else (d.tree root).node q :=
              FileTree.write_node ht
            refine ⟨t, true, alone_fs ht _, ?_, fun q hq => ?_⟩
            · rw [hnode, if_pos rfl]
              simp
            · rw [hnode, if_neg hq]
  · refine ⟨d.tree root, false, ?_, by simp [hnone], fun _ _ => rfl⟩
    rw [hopen, setTree_self]
    rfl

/-- Without room for a file the removal of an empty directory refuses. -/
theorem alone_rmdirIfEmptyNofollow_error {p : RelPath}
    (hroom : ¬ (d.tree root).HasRoom p) :
    ∃ e, Proc.alone E (rmdirIfEmptyNofollow root p) d = (.ok (.error e), d) := by
  unfold rmdirIfEmptyNofollow
  rw [alone_read]
  by_cases habove : ∃ q f, q <+: p ∧ q ≠ p ∧ (d.tree root).node q = some (.file f)
  · obtain ⟨q, f, hq, hne, hfile⟩ := habove
    rw [openParent_of_file hq hne hfile]
    exact ⟨_, rfl⟩
  · have hbelow : ∃ q, p <+: q ∧ q ≠ p ∧ (d.tree root).node q ≠ none := by
      by_contra hbelow
      refine hroom ⟨fun q f hq hne hfile => habove ⟨q, f, hq, hne, hfile⟩, ?_⟩
      intro q hq hne
      by_contra hn
      exact hbelow ⟨q, hq, hne, hn⟩
    obtain ⟨q, hq, hne, hn⟩ := hbelow
    obtain ⟨n, hn⟩ := Option.ne_none_iff_exists'.mp hn
    have hdir := dir_above hn hq (Ne.symm hne)
    have hchild : (d.tree root).hasChild p = true := by
      obtain ⟨tail, rfl⟩ := hq
      cases tail with
      | nil => exact absurd (List.append_nil p) hne
      | cons a rest =>
          by_cases hrest : rest = []
          · subst hrest
            exact FileTree.hasChild_of_node hn
          · refine FileTree.hasChild_of_node (a := a) (n := .dir) ?_
            exact dir_above hn ⟨rest, by simp⟩ (by simpa using Ne.symm hrest)
    rw [openParent_of_node hdir]
    simp only [hdir]
    rw [alone_fs_error (FileTree.write_rmdir_error hdir hchild)]
    exact ⟨_, rfl⟩

-- ========================================================== the copies

/-- Directories that can be opened or made one after the other, each after
its parent. -/
structure Openable (t : FileTree) (paths : List RelPath) : Prop where
  noFile : ∀ q ∈ paths, ∀ f, t.node q ≠ some (.file f)
  parentFirst : ∀ before q after, paths = before ++ q :: after →
    q = [] ∨ t.node q.dropLast = some .dir ∨ q.dropLast ∈ before

/-- What the rest of the directories needs holds once the first is there. -/
theorem Openable.tail {t t' : FileTree} {q : RelPath} {rest : List RelPath}
    (h : Openable t (q :: rest)) (hq : t'.node q = some .dir)
    (hothers : ∀ x, x ≠ q → t'.node x = t.node x) : Openable t' rest where
  noFile x hx f := by
    by_cases heq : x = q
    · rw [heq, hq]
      exact fun hfile => by cases hfile
    · rw [hothers x heq]
      exact h.noFile x (List.mem_cons_of_mem _ hx) f
  parentFirst before x after hsplit := by
    rcases h.parentFirst (q :: before) x after (by rw [hsplit]; rfl) with
      hnil | hdir | hmem
    · exact Or.inl hnil
    · by_cases heq : x.dropLast = q
      · exact Or.inr (Or.inl (heq ▸ hq))
      · exact Or.inr (Or.inl (by rw [hothers _ heq, hdir]))
    · rcases List.mem_cons.mp hmem with heq | hmem
      · exact Or.inr (Or.inl (heq ▸ hq))
      · exact Or.inr (Or.inr hmem)

theorem alone_openDirs {paths : List RelPath} (h : Openable (d.tree root) paths) :
    ∃ t, Proc.alone E (openDirs root paths) d
        = (.ok (.ok ()), d.setTree root t) ∧
      ∀ q, t.node q = if q ∈ paths then some .dir else (d.tree root).node q := by
  induction paths generalizing d with
  | nil =>
      refine ⟨d.tree root, ?_, fun q => by simp⟩
      rw [setTree_self]
      rfl
  | cons q rest ih =>
      unfold openDirs
      rw [alone_read]
      have hcons : ∀ x, (if x ∈ q :: rest then some Node.dir else (d.tree root).node x)
          = if x ∈ rest then some Node.dir
            else if x = q then some Node.dir else (d.tree root).node x := by
        intro x
        by_cases hx : x ∈ rest
        · simp [hx]
        · by_cases hq : x = q
          · simp [hq]
          · simp [hx, hq]
      cases hn : (d.tree root).node q with
      | some n =>
          cases n with
          | file f => exact absurd hn (h.noFile q List.mem_cons_self f)
          | dir =>
              obtain ⟨t, hrun, hnode⟩ := ih (h.tail hn fun _ _ => rfl)
              refine ⟨t, hrun, fun x => ?_⟩
              rw [hnode, hcons]
              by_cases hq : x = q
              · simp [hq, hn]
              · rw [if_neg hq]
      | none =>
          have hparent : (d.tree root).node q.dropLast = some .dir := by
            rcases h.parentFirst [] q rest rfl with hnil | hdir | hmem
            · rw [hnil] at hn
              cases hn
            · exact hdir
            · cases hmem
          obtain ⟨made, hmade⟩ := FileTree.write_mkdir hn hparent
          have hmadeNode : ∀ x, made.node x
              = if x = q then some .dir else (d.tree root).node x :=
            FileTree.write_node hmade
          have htail : Openable ((d.setTree root made).tree root) rest := by
            rw [tree_setTree]
            refine h.tail ?_ fun x hx => ?_
            · rw [hmadeNode, if_pos rfl]
            · rw [hmadeNode, if_neg hx]
          obtain ⟨t, hrun, hnode⟩ := ih htail
          rw [setTree_setTree] at hrun
          refine ⟨t, (alone_fs hmade _).trans hrun, fun x => ?_⟩
          rw [hnode, hcons, tree_setTree, hmadeNode]

/-- The directories above a path are listed parents first. -/
theorem openable_inits {t : FileTree} {p : RelPath} (hp : p ≠ [])
    (habove : ∀ q f, q <+: p → q ≠ p → t.node q ≠ some (.file f)) :
    Openable t p.dropLast.inits where
  noFile q hq f := by
    obtain ⟨hpre, hne⟩ := (prefix_dropLast hp).mp ((List.mem_inits _ _).mp hq)
    exact habove q f hpre hne
  parentFirst before q after hsplit := by
    by_cases hnil : q = []
    · exact Or.inl hnil
    · refine Or.inr (Or.inr ?_)
      have hmem : q.dropLast ∈ p.dropLast.inits := by
        refine (List.mem_inits _ _).mpr ((List.dropLast_prefix q).trans ?_)
        refine (List.mem_inits _ _).mp ?_
        rw [hsplit]
        exact List.mem_append_right _ List.mem_cons_self
      have hlt : ¬ q <+: q.dropLast := fun h =>
        ((prefix_dropLast hnil).mp h).2 rfl
      have hsorted := pairwise_inits p.dropLast
      rw [hsplit] at hmem hsorted
      rcases List.mem_append.mp hmem with hmem | hmem
      · exact hmem
      · rcases List.mem_cons.mp hmem with heq | hmem
        · exact absurd ⟨[], by rw [List.append_nil, heq]⟩ hlt
        · exact absurd ((List.pairwise_cons.mp
            (List.pairwise_append.mp hsorted).2.1).1 _ hmem) hlt

/-- The blocks of a content come to stand behind what the file holds. -/
theorem alone_writeBlocks {p : RelPath} {content : Content} {mode : Mode}
    (blocks : List Content)
    (h : (d.tree root).node p = some (.file ⟨content, mode⟩)) :
    ∃ t, Proc.alone E (writeBlocks root p blocks) d
        = (.ok (.ok ()), d.setTree root t) ∧
      ∀ q, t.node q = if q = p then some (.file ⟨content ++ blocks.flatten, mode⟩)
        else (d.tree root).node q := by
  induction blocks generalizing d content with
  | nil =>
      refine ⟨d.tree root, ?_, fun q => ?_⟩
      · rw [setTree_self]
        rfl
      · by_cases hq : q = p
        · simp [hq, h]
        · rw [if_neg hq]
  | cons block rest ih =>
      obtain ⟨written, hwritten⟩ := FileTree.write_append (d.tree root) p block
      have hnode : ∀ q, written.node q
          = if q = p then some (.file ⟨content ++ block, mode⟩)
            else (d.tree root).node q := by
        intro q
        rw [FileTree.write_node hwritten]
        simp only [FsWrite.path, FileTree.written, h]
      have hfile : ((d.setTree root written).tree root).node p
          = some (.file ⟨content ++ block, mode⟩) := by
        rw [tree_setTree, hnode, if_pos rfl]
      obtain ⟨t, hrun, ht⟩ := ih hfile
      rw [setTree_setTree] at hrun
      refine ⟨t, ?_, fun q => ?_⟩
      · unfold writeBlocks
        exact (alone_fs hwritten _).trans hrun
      · rw [ht, tree_setTree, hnode, List.flatten_cons, List.append_assoc]
        by_cases hq : q = p
        · simp [hq]
        · simp [hq]

/-- A file is copied where no file stands above and no directory at the
target. -/
theorem alone_copyRegularNofollow {source : SourcePath} {p : RelPath}
    {f : FileImage} (mode : Option Mode) (hsource : readSource d source = .ok f)
    (hp : p ≠ [])
    (habove : ∀ q f, q <+: p → q ≠ p → (d.tree root).node q ≠ some (.file f))
    (hdir : (d.tree root).node p ≠ some .dir) :
    ∃ t, Proc.alone E (copyRegularNofollow E source root p mode) d
        = (.ok (.ok ()), d.setTree root t) ∧
      ∀ q, t.node q
        = (d.tree root).nodeWithFile p ⟨f.content, mode.getD f.mode⟩ q := by
  obtain ⟨parents, hparents, hparentsNode⟩ :=
    alone_openDirs (E := E) (openable_inits hp habove)
  have hmem : ∀ q, q ∈ p.dropLast.inits ↔ q <+: p ∧ q ≠ p := by
    intro q
    rw [List.mem_inits, prefix_dropLast hp]
  have hparent : parents.node p.dropLast = some .dir := by
    rw [hparentsNode, if_pos ((List.mem_inits _ _).mpr (List.prefix_refl _))]
  have htarget : parents.node p = (d.tree root).node p := by
    rw [hparentsNode, if_neg]
    exact fun h => ((hmem p).mp h).2 rfl
  obtain ⟨opened, hopened⟩ := FileTree.write_openTrunc (t := parents)
    (E.createMode (mode.getD f.mode)) hp hparent (by rw [htarget]; exact hdir)
  obtain ⟨m, hopenedNode⟩ : ∃ m, ∀ q, opened.node q
      = if q = p then some (.file ⟨[], m⟩) else parents.node q := by
    obtain ⟨m, hm⟩ :=
      FileTree.written_openTrunc parents p (E.createMode (mode.getD f.mode))
    refine ⟨m, fun q => ?_⟩
    rw [FileTree.write_node hopened, hm]
    rfl
  obtain ⟨moded, hmoded⟩ := FileTree.write_fchmod opened p (mode.getD f.mode)
  have hmodedNode : ∀ q, moded.node q
      = if q = p then some (.file ⟨[], mode.getD f.mode⟩) else parents.node q := by
    intro q
    have hfile : opened.node p = some (.file ⟨[], m⟩) := by
      rw [hopenedNode, if_pos rfl]
    rw [FileTree.write_node hmoded]
    simp only [FsWrite.path, FileTree.written, hfile]
    by_cases hq : q = p
    · rw [if_pos hq, if_pos hq]
    · rw [if_neg hq, if_neg hq, hopenedNode, if_neg hq]
  have hempty : ((d.setTree root moded).tree root).node p
      = some (.file ⟨[], mode.getD f.mode⟩) := by
    rw [tree_setTree, hmodedNode, if_pos rfl]
  obtain ⟨t, hwrite, ht⟩ := alone_writeBlocks (E := E) (E.blocks f.content) hempty
  rw [setTree_setTree] at hwrite
  refine ⟨t, ?_, fun q => ?_⟩
  · unfold copyRegularNofollow
    rw [alone_read, hsource]
    show Proc.alone E (openTargetParents root p >>= _) d = _
    refine (alone_bind hparents).trans ?_
    have hopened' : ((d.setTree root parents).tree root).write
        (.openTrunc p (E.createMode (mode.getD f.mode))) = .ok opened := by
      rw [tree_setTree]
      exact hopened
    refine (alone_fs hopened' _).trans ?_
    rw [setTree_setTree]
    have hmoded' : ((d.setTree root opened).tree root).write
        (.fchmod p (mode.getD f.mode)) = .ok moded := by
      rw [tree_setTree]
      exact hmoded
    refine (alone_fs hmoded' _).trans ?_
    rw [setTree_setTree]
    exact hwrite
  · rw [ht, tree_setTree, hmodedNode, E.blocks_flatten, hparentsNode]
    unfold FileTree.nodeWithFile
    by_cases hq : q = p
    · rw [if_pos hq, if_pos hq]
      rfl
    · rw [if_neg hq, if_neg hq, if_neg hq]
      by_cases hpre : q <+: p
      · rw [if_pos hpre, if_pos ((hmem q).mpr ⟨hpre, hq⟩)]
      · rw [if_neg hpre, if_neg fun h => hpre ((hmem q).mp h).1]

end OpenTulid
