/-
Delivering a candidate: the plan of its changes, performed alone on the
repository, against the candidate.

# What the plan writes

A baseline and a candidate are surfaces: files under paths, as a selection
sees them. The delta of the two gives the plan its deletions and its
promotions (`mem_plannedDeletes`, `mem_plannedPromotes`). Deletions always
succeed. A promotion succeeds exactly where a file has room, and the
promotions of one candidate never take each other's room, since no file of a
tree stands above another.

# When the candidate arrives

`delivers_iff`: exactly when there is room for every promoted file once the
plan's files are deleted (`RoomForAll`), and the selection that is read from
the repository afterwards sees the candidate's files and nothing else
(`SelectionsAgree`). Deleting the files of a directory leaves its folders
standing, so a directory that held another one leaves no room for a file.
-/
import OpenTulid.Proofs.PathOps
import OpenTulid.Proofs.VerificationCopy
import OpenTulid.Completion.Plan
import Mathlib.Data.Set.List

namespace OpenTulid

-- ========================================================= the effects

/-- The runtime that performs the effects of a completion. -/
def effectRuntime (E : Env) (S : CompletionService) : FileTransactionRuntime where
  project := S.project
  applyEffect := applyEffect E S
  compensateEffect := some (compensateEffect S)
  validateFinalState := none

section Effects

variable {E : Env} {S : CompletionService} {d d' : Data} {j : JournalId}
  {k : Nat} {effect : Effect} {rest : List Effect}
  {applied : List (Nat × Effect)} {result : EffectResult}

/-- What the loop over the effects does with the first. -/
theorem alone_applyEffects_cons
    (h : Proc.alone E (applyEffect E S effect) d = (.ok result, d')) :
    Proc.alone E ((effectRuntime E S).applyEffects j k (effect :: rest) applied) d
      = if result.accepted then
          Proc.alone E ((effectRuntime E S).applyEffects j (k + 1) rest
            ((k, effect) :: applied)) d'
        else (.ok (applied, some (operationError result)), d') := by
  have hcaught : Proc.alone E (Prog.tryCatch
      (do return Except.ok (← (effectRuntime E S).applyEffect effect))
      fun e => return Except.error (⟨"effect.exception",
        s!"Effect raised exception: {e.text}", none⟩ : DomainError)) d
      = (.ok (.ok result), d') :=
    alone_tryCatch (alone_bind h)
  have hstart : Proc.alone E
      ((effectRuntime E S).applyEffects j k (effect :: rest) applied) d
      = Proc.alone E (if result.accepted then do
            perform (.mark (.succeeds j k))
            (effectRuntime E S).applyEffects j (k + 1) rest ((k, effect) :: applied)
          else return (applied, some (operationError result))) d' :=
    alone_bind hcaught
  rw [hstart]
  cases result.accepted <;> rfl

end Effects

-- ======================================================== the deletions

section Phases

variable {E : Env} {S : CompletionService} {r : RepoId} {j : JournalId}

/-- A planned deletion of a file that stands removes it. -/
theorem alone_delete (hS : S.repo = some r) {d : Data} {deletion : FileDeletion}
    {f : FileImage} (h : (d.repos r).tree.node deletion.target = some (.file f)) :
    ∃ t result, Proc.alone E (applyEffect E S (.deleteChangedFile deletion)) d
        = (.ok result, d.setTree (.repo r) t) ∧ result.accepted = true ∧
      ∀ q, t.node q
        = if q = deletion.target then none else (d.repos r).tree.node q := by
  obtain ⟨t, hrun, hnode⟩ :=
    alone_unlinkRegularNofollow (E := E)
      (show (d.tree (.repo r)).node deletion.target = some (.file f) from h)
  refine ⟨t, { accepted := true }, ?_, rfl, hnode⟩
  simp only [applyEffect, hS]
  exact alone_bind hrun

/-- Deletions of files that stand all succeed, and remove just them. -/
theorem alone_deletes (hS : S.repo = some r) {deletes : List FileDeletion}
    (hnodup : (deletes.map (·.target)).Nodup) (rest : List Effect) {d : Data}
    (hfiles : ∀ x ∈ deletes, ∃ f, (d.repos r).tree.node x.target = some (.file f))
    (k : Nat) (applied : List (Nat × Effect)) :
    ∃ t k' applied', Proc.alone E ((effectRuntime E S).applyEffects j k
          (deletes.map Effect.deleteChangedFile ++ rest) applied) d
        = Proc.alone E ((effectRuntime E S).applyEffects j k' rest applied')
            (d.setTree (.repo r) t) ∧
      ∀ q, t.node q = if q ∈ deletes.map (·.target) then none
        else (d.repos r).tree.node q := by
  induction deletes generalizing d k applied with
  | nil =>
      refine ⟨(d.repos r).tree, k, applied, ?_, fun q => by simp⟩
      rw [show d.setTree (.repo r) (d.repos r).tree = d from
        setTree_repo_self r]
      rfl
  | cons x others ih =>
      obtain ⟨hx, hothers⟩ := List.nodup_cons.mp hnodup
      obtain ⟨f, hf⟩ := hfiles x List.mem_cons_self
      obtain ⟨t, result, hrun, haccepted, hnode⟩ := alone_delete (E := E) hS hf
      have htree : ((d.setTree (.repo r) t).repos r).tree = t :=
        repo_tree_setTree r t
      obtain ⟨t', k', applied', hrest, hnode'⟩ :=
        ih hothers (d := d.setTree (.repo r) t) (fun y hy => by
          have hne : y.target ≠ x.target := by
            intro heq
            exact hx (List.mem_map.mpr ⟨y, hy, heq⟩)
          obtain ⟨g, hg⟩ := hfiles y (List.mem_cons_of_mem _ hy)
          refine ⟨g, ?_⟩
          rw [htree, hnode, if_neg hne, hg]) (k + 1)
          ((k, Effect.deleteChangedFile x) :: applied)
      rw [setTree_setTree] at hrest
      refine ⟨t', k', applied', ?_, fun q => ?_⟩
      · rw [List.map_cons, List.cons_append, alone_applyEffects_cons hrun,
          if_pos haccepted]
        exact hrest
      · rw [hnode', htree, hnode, List.map_cons]
        by_cases hq : q ∈ others.map (·.target)
        · simp [hq]
        · by_cases hqx : q = x.target
          · simp [hqx]
          · simp [hq, hqx]

-- ======================================================= the promotions

/-- Where there is room a promotion writes its file. -/
theorem alone_promote (hS : S.repo = some r) {d : Data} {p : FilePromotion}
    {f : FileImage} (hsource : readSource d p.source = .ok f)
    (hmode : p.expectedAfterMode.getD f.mode = f.mode) (htarget : p.target ≠ [])
    (hroom : (d.repos r).tree.HasRoom p.target) :
    ∃ t result, Proc.alone E (applyEffect E S (.promoteChangedFile p)) d
        = (.ok result, d.setTree (.repo r) t) ∧ result.accepted = true ∧
      ∀ q, t.node q = (d.repos r).tree.nodeWithFile p.target f q := by
  obtain ⟨cleared, removed, hclear, hdir, hcleared⟩ :=
    alone_rmdirIfEmptyNofollow (E := E) htarget
      (show (d.tree (.repo r)).HasRoom p.target from hroom)
  have htree : (d.setTree (.repo r) cleared).tree (.repo r) = cleared :=
    tree_setTree cleared
  have hsource' : readSource (d.setTree (.repo r) cleared) p.source = .ok f := by
    unfold readSource
    rw [storages_setTree]
    exact hsource
  have habove : ∀ q g, q <+: p.target → q ≠ p.target →
      ((d.setTree (.repo r) cleared).tree (.repo r)).node q ≠ some (.file g) := by
    intro q g hq hne
    rw [htree, hcleared q hne]
    exact hroom.above q g hq hne
  obtain ⟨t, hcopy, hnode⟩ := alone_copyRegularNofollow (E := E) p.expectedAfterMode
    hsource' htarget habove (by rw [htree]; exact hdir)
  rw [setTree_setTree] at hcopy
  refine ⟨t, { accepted := true }, ?_, rfl, fun q => ?_⟩
  · simp only [applyEffect, hS]
    unfold promoteChangedNofollow
    exact (alone_bind hclear).trans (alone_bind hcopy)
  · rw [hnode, htree, hmode]
    unfold FileTree.nodeWithFile
    by_cases hq : q = p.target
    · rw [if_pos hq, if_pos hq]
    · rw [if_neg hq, if_neg hq, hcleared q hq]
      rfl

/-- Without room a promotion is refused. -/
theorem alone_promote_refused (hS : S.repo = some r) {d : Data} {p : FilePromotion}
    (hroom : ¬ (d.repos r).tree.HasRoom p.target) :
    ∃ result, Proc.alone E (applyEffect E S (.promoteChangedFile p)) d
        = (.ok result, d) ∧ result.accepted = false := by
  obtain ⟨e, hclear⟩ :=
    alone_rmdirIfEmptyNofollow_error (E := E)
      (show ¬ (d.tree (.repo r)).HasRoom p.target from hroom)
  refine ⟨⟨false, "Cannot promote changed file",
    [⟨"changed_file.promotion_failed", "Cannot promote changed file",
      some ("/".intercalate p.target)⟩]⟩, ?_, rfl⟩
  simp only [applyEffect, hS]
  unfold promoteChangedNofollow
  exact alone_bind hclear

end Phases

/-- A file that was written takes no room from a path it neither stands above
nor below. -/
theorem FileTree.hasRoom_nodeWithFile {t t' : FileTree} {p p' : RelPath} {f : FileImage}
    (hnode : ∀ q, t'.node q = t.nodeWithFile p f q) (hroom : t.HasRoom p)
    (habove : ¬ p <+: p') (hbelow : ¬ p' <+: p) :
    t'.HasRoom p' ↔ t.HasRoom p' := by
  have hsame : ∀ q, ¬ q <+: p → t'.node q = t.node q := by
    intro q hq
    rw [hnode]
    unfold FileTree.nodeWithFile
    have hne : q ≠ p := by
      intro heq
      subst heq
      exact hq (List.prefix_refl q)
    rw [if_neg hne, if_neg hq]
  have hdirs : ∀ q, q <+: p → q ≠ p → t'.node q = some .dir := by
    intro q hq hne
    rw [hnode]
    unfold FileTree.nodeWithFile
    rw [if_neg hne, if_pos hq]
  have hbelowPath : ∀ q, p' <+: q → ¬ q <+: p := fun q hq hqp => hbelow (hq.trans hqp)
  constructor
  · intro h
    constructor
    · intro q g hq hne
      by_cases hqp : q <+: p
      · by_cases heq : q = p
        · subst heq
          exact absurd hq habove
        · exact hroom.above q g hqp heq
      · rw [← hsame q hqp]
        exact h.above q g hq hne
    · intro q hq hne
      rw [← hsame q (hbelowPath q hq)]
      exact h.below q hq hne
  · intro h
    constructor
    · intro q g hq hne
      by_cases hqp : q <+: p
      · by_cases heq : q = p
        · subst heq
          exact absurd hq habove
        · rw [hdirs q hqp heq]
          exact fun hfile => by cases hfile
      · rw [hsame q hqp]
        exact h.above q g hq hne
    · intro q hq hne
      rw [hsame q (hbelowPath q hq)]
      exact h.below q hq hne

/-- The files of a tree after a file was written where there was room. -/
theorem FileTree.file?_nodeWithFile {t t' : FileTree} {p : RelPath} {f : FileImage}
    (hnode : ∀ q, t'.node q = t.nodeWithFile p f q) (hroom : t.HasRoom p)
    (q : RelPath) : t'.file? q = if q = p then some f else t.file? q := by
  unfold FileTree.file?
  rw [hnode]
  unfold FileTree.nodeWithFile
  by_cases hq : q = p
  · rw [if_pos hq, if_pos hq]
  · rw [if_neg hq, if_neg hq]
    by_cases hpre : q <+: p
    · rw [if_pos hpre]
      cases hn : t.node q with
      | none => rfl
      | some n =>
          cases n with
          | dir => rfl
          | file g => exact absurd hn (hroom.above q g hpre hq)
    · rw [if_neg hpre]

/-- A promotion whose source holds the image meant for its target. -/
structure PromotesImage (image : RelPath → Option FileImage) (d : Data)
    (p : FilePromotion) (f : FileImage) : Prop where
  target : p.target ≠ []
  image : image p.target = some f
  source : readSource d p.source = .ok f
  mode : p.expectedAfterMode.getD f.mode = f.mode

theorem PromotesImage.setTree {image : RelPath → Option FileImage} {d : Data}
    {p : FilePromotion} {f : FileImage} (h : PromotesImage image d p f)
    (root : Root) (t : FileTree) : PromotesImage image (d.setTree root t) p f where
  target := h.target
  image := h.image
  source := by
    unfold readSource
    rw [storages_setTree]
    exact h.source
  mode := h.mode

/-- Neither path stands above the other. -/
def Apart (p q : RelPath) : Prop := ¬ p <+: q ∧ ¬ q <+: p

section Promotions

variable {E : Env} {S : CompletionService} {r : RepoId} {j : JournalId}
  {image : RelPath → Option FileImage}

/-- Promotions that are apart and have room all succeed, and write just their
images. -/
theorem alone_promotes (hS : S.repo = some r) {promotes : List FilePromotion}
    (hapart : promotes.Pairwise fun x y => Apart x.target y.target) {d : Data}
    (hmeant : ∀ x ∈ promotes, ∃ f, PromotesImage image d x f)
    (hroom : ∀ x ∈ promotes, (d.repos r).tree.HasRoom x.target)
    (k : Nat) (applied : List (Nat × Effect)) :
    ∃ t applied', Proc.alone E ((effectRuntime E S).applyEffects j k
          (promotes.map Effect.promoteChangedFile) applied) d
        = (.ok (applied', none), d.setTree (.repo r) t) ∧
      ∀ q, t.file? q = if q ∈ promotes.map (·.target) then image q
        else (d.repos r).tree.file? q := by
  induction promotes generalizing d k applied with
  | nil =>
      refine ⟨(d.repos r).tree, applied, ?_, fun q => by simp⟩
      rw [show d.setTree (.repo r) (d.repos r).tree = d from
        setTree_repo_self r]
      rfl
  | cons x others ih =>
      obtain ⟨hx, hothers⟩ := List.pairwise_cons.mp hapart
      obtain ⟨f, hf⟩ := hmeant x List.mem_cons_self
      have hxroom := hroom x List.mem_cons_self
      obtain ⟨t, result, hrun, haccepted, hnode⟩ :=
        alone_promote (E := E) hS hf.source hf.mode hf.target hxroom
      have htree : ((d.setTree (.repo r) t).repos r).tree = t :=
        repo_tree_setTree r t
      have hrestRoom : ∀ y ∈ others,
          ((d.setTree (.repo r) t).repos r).tree.HasRoom y.target := by
        intro y hy
        rw [htree]
        exact (FileTree.hasRoom_nodeWithFile hnode hxroom (hx y hy).1 (hx y hy).2).mpr
          (hroom y (List.mem_cons_of_mem _ hy))
      have hrestMeant : ∀ y ∈ others,
          ∃ g, PromotesImage image (d.setTree (.repo r) t) y g := by
        intro y hy
        obtain ⟨g, hg⟩ := hmeant y (List.mem_cons_of_mem _ hy)
        exact ⟨g, hg.setTree (.repo r) t⟩
      obtain ⟨t', applied', hrest, hfile⟩ := ih hothers hrestMeant hrestRoom
        (k + 1) ((k, Effect.promoteChangedFile x) :: applied)
      rw [setTree_setTree] at hrest
      refine ⟨t', applied', ?_, fun q => ?_⟩
      · rw [List.map_cons, alone_applyEffects_cons hrun, if_pos haccepted]
        exact hrest
      · rw [hfile, htree, FileTree.file?_nodeWithFile hnode hxroom, List.map_cons]
        by_cases hq : q ∈ others.map (·.target)
        · simp [hq]
        · by_cases hqx : q = x.target
          · simp [hqx, hf.image]
          · simp [hq, hqx]

/-- When one of the promotions has no room the list ends with an error. -/
theorem alone_promotes_refused (hS : S.repo = some r)
    {promotes : List FilePromotion}
    (hapart : promotes.Pairwise fun x y => Apart x.target y.target) {d : Data}
    (hmeant : ∀ x ∈ promotes, ∃ f, PromotesImage image d x f)
    (hroom : ¬ ∀ x ∈ promotes, (d.repos r).tree.HasRoom x.target)
    (k : Nat) (applied : List (Nat × Effect)) :
    ∃ applied' error d', Proc.alone E ((effectRuntime E S).applyEffects j k
          (promotes.map Effect.promoteChangedFile) applied) d
        = (.ok (applied', some error), d') := by
  induction promotes generalizing d k applied with
  | nil => exact absurd (fun x hx => by cases hx) hroom
  | cons x others ih =>
      obtain ⟨hx, hothers⟩ := List.pairwise_cons.mp hapart
      by_cases hxroom : (d.repos r).tree.HasRoom x.target
      · obtain ⟨f, hf⟩ := hmeant x List.mem_cons_self
        obtain ⟨t, result, hrun, haccepted, hnode⟩ :=
          alone_promote (E := E) hS hf.source hf.mode hf.target hxroom
        have htree : ((d.setTree (.repo r) t).repos r).tree = t :=
          repo_tree_setTree r t
        have hrestRoom : ¬ ∀ y ∈ others,
            ((d.setTree (.repo r) t).repos r).tree.HasRoom y.target := by
          intro h
          refine hroom fun y hy => ?_
          rcases List.mem_cons.mp hy with heq | hy
          · rw [heq]
            exact hxroom
          · have hy' := h y hy
            rw [htree] at hy'
            exact (FileTree.hasRoom_nodeWithFile hnode hxroom (hx y hy).1
              (hx y hy).2).mp hy'
        have hrestMeant : ∀ y ∈ others,
            ∃ g, PromotesImage image (d.setTree (.repo r) t) y g := by
          intro y hy
          obtain ⟨g, hg⟩ := hmeant y (List.mem_cons_of_mem _ hy)
          exact ⟨g, hg.setTree (.repo r) t⟩
        rw [List.map_cons, alone_applyEffects_cons hrun, if_pos haccepted]
        exact ih hothers hrestMeant hrestRoom _ _
      · obtain ⟨result, hrun, hrefused⟩ :=
          alone_promote_refused (E := E) hS hxroom
        rw [List.map_cons, alone_applyEffects_cons hrun, hrefused, if_neg (by simp)]
        exact ⟨_, _, _, rfl⟩

end Promotions

-- ==================================================== the surfaces

section Surfaces

variable {gitignoreMatches : List IgnoreFile → RelPath → Bool → Bool}

/-- A manifest lists what the surface shows. -/
theorem mem_captured_iff {selection : SourceSelection} {t : FileTree}
    {e : ManifestEntry} :
    e ∈ captureDeliverableManifest gitignoreMatches selection t ↔
      surfaceAt (delivers gitignoreMatches selection) t e.path
        = some ⟨e.sha256, e.mode⟩ := by
  rw [mem_captureDeliverableManifest]
  unfold surfaceAt iterDeliverableFiles
  constructor
  · intro h
    obtain ⟨hp, hfile⟩ := h
    have hselected := (List.mem_filter.mp hp).2
    rw [Bool.and_eq_true] at hselected
    rw [if_pos hselected.2, hfile]
  · intro h
    split at h
    next hselected =>
      have hnode := FileTree.file?_eq_some.mp h
      refine ⟨List.mem_filter.mpr ⟨?_, ?_⟩, h⟩
      · rw [FileTree.node_eq_get t (FileTree.ne_nil_of_file hnode)] at hnode
        exact Store.mem_keys.mpr ⟨_, hnode⟩
      · rw [h, hselected]
        rfl
    next => cases h

/-- The entry of a path is the file the surface shows there. -/
theorem entryAt_captured (selection : SourceSelection) (t : FileTree) (p : RelPath) :
    (captureDeliverableManifest gitignoreMatches selection t).entryAt p
      = (surfaceAt (delivers gitignoreMatches selection) t p).map
          fun f => ⟨p, f.content, f.mode⟩ := by
  unfold Manifest.entryAt
  cases hfind : (captureDeliverableManifest gitignoreMatches selection t).find?
      fun e => e.path = p with
  | none =>
      cases hsurface : surfaceAt (delivers gitignoreMatches selection) t p with
      | none => rfl
      | some f =>
          have := List.find?_eq_none.mp hfind ⟨p, f.content, f.mode⟩
            (mem_captured_iff.mpr hsurface)
          simp at this
  | some e =>
      have hpath : e.path = p := by simpa using List.find?_some hfind
      have hsurface := mem_captured_iff.mp (List.mem_of_find?_eq_some hfind)
      rw [hpath] at hsurface
      rw [hsurface, ← hpath]
      rfl

/-- What is delivered lies outside the reserved folder. -/
theorem not_reserved_of_delivers {selection : SourceSelection} {p : RelPath}
    (h : delivers gitignoreMatches selection p = true) : ".open-tulid" ∉ p := by
  unfold delivers takes at h
  rw [Bool.and_eq_true] at h
  intro hmem
  have hreserved : isReservedPath p = true := by
    unfold isReservedPath
    exact List.any_eq_true.mpr ⟨_, hmem, by decide⟩
  rw [hreserved] at h
  have hfalse := h.2
  split at hfalse
  next => cases hfalse
  next => cases hfalse

/-- A surface shows files of the tree. -/
theorem file_of_surfaceAt {selects : RelPath → Bool} {t : FileTree} {p : RelPath}
    {f : FileImage} (h : surfaceAt selects t p = some f) :
    selects p = true ∧ t.file? p = some f := by
  unfold surfaceAt at h
  split at h
  next hselected => exact ⟨hselected, h⟩
  next => cases h

end Surfaces

-- ========================================================= the delta

/-- What a change of the delta of two surfaces says. -/
inductive ChangeMeans (before after : RelPath → Option FileImage)
    (change : CandidateChange) : Prop where
  | deleted (hkind : change.kind = .delete)
      (hbefore : (before change.path).isSome) (hafter : after change.path = none)
  | written (f : FileImage) (hkind : change.kind ≠ .delete)
      (hafter : after change.path = some f)
      (hbefore : before change.path ≠ some f)
      (hsha : change.afterSha256 = some f.content)
      (hmode : change.afterMode = some f.mode)

section Delta

variable {gitignoreMatches : List IgnoreFile → RelPath → Bool → Bool}
  {selection selection' : SourceSelection} {t s : FileTree}

theorem mem_inPathOrder {changes : List CandidateChange} {x : CandidateChange} :
    x ∈ inPathOrder changes ↔ x ∈ changes := by
  unfold inPathOrder
  exact List.mem_insertionSort _

/-- Every change of the delta says what became of its path. -/
theorem changeMeans_of_mem {change : CandidateChange}
    (h : change ∈ computeDelta
      (captureDeliverableManifest gitignoreMatches selection t)
      (captureDeliverableManifest gitignoreMatches selection' s)) :
    ChangeMeans (surfaceAt (delivers gitignoreMatches selection) t)
      (surfaceAt (delivers gitignoreMatches selection') s) change := by
  unfold computeDelta at h
  rw [List.mem_append, List.mem_append, mem_inPathOrder, mem_inPathOrder,
    mem_inPathOrder] at h
  rcases h with (hadded | hdeleted) | hedited
  · obtain ⟨e, he, rfl⟩ := List.mem_map.mp hadded
    obtain ⟨hmem, hnew⟩ := List.mem_filter.mp he
    rw [entryAt_captured, Option.isNone_map] at hnew
    have hnone := Option.isNone_iff_eq_none.mp hnew
    refine .written ⟨e.sha256, e.mode⟩ (by simp [addedChange])
      (mem_captured_iff.mp hmem) ?_ rfl rfl
    show surfaceAt _ t e.path ≠ _
    rw [hnone]
    simp
  · obtain ⟨e, he, rfl⟩ := List.mem_map.mp hdeleted
    obtain ⟨hmem, hgone⟩ := List.mem_filter.mp he
    rw [entryAt_captured, Option.isNone_map] at hgone
    refine .deleted rfl ?_ (Option.isNone_iff_eq_none.mp hgone)
    show (surfaceAt _ t e.path).isSome = true
    rw [mem_captured_iff.mp hmem]
    rfl
  · obtain ⟨b, hb, hbind⟩ := List.mem_filterMap.mp hedited
    rw [entryAt_captured] at hbind
    cases hafter : surfaceAt (delivers gitignoreMatches selection') s b.path with
    | none =>
        rw [hafter] at hbind
        cases hbind
    | some f =>
        rw [hafter] at hbind
        have hedit : editedChange b ⟨b.path, f.content, f.mode⟩ = some change := hbind
        unfold editedChange at hedit
        split at hedit
        next hdiffer =>
          cases hedit
          refine .written f (by simp) hafter ?_ rfl rfl
          show surfaceAt _ t b.path ≠ _
          rw [mem_captured_iff.mp hb]
          intro heq
          cases heq
          simp at hdiffer
        next => cases hedit

/-- Where the surfaces differ the delta has a change. -/
theorem exists_change {p : RelPath}
    (h : surfaceAt (delivers gitignoreMatches selection) t p
      ≠ surfaceAt (delivers gitignoreMatches selection') s p) :
    ∃ change ∈ computeDelta
      (captureDeliverableManifest gitignoreMatches selection t)
      (captureDeliverableManifest gitignoreMatches selection' s),
      change.path = p := by
  unfold computeDelta
  simp only [List.mem_append, mem_inPathOrder]
  cases hbefore : surfaceAt (delivers gitignoreMatches selection) t p with
  | none =>
      cases hafter : surfaceAt (delivers gitignoreMatches selection') s p with
      | none => exact absurd (hbefore.trans hafter.symm) h
      | some f =>
          refine ⟨addedChange ⟨p, f.content, f.mode⟩, Or.inl (Or.inl ?_), rfl⟩
          refine List.mem_map_of_mem (List.mem_filter.mpr
            ⟨mem_captured_iff.mpr hafter, ?_⟩)
          rw [entryAt_captured, hbefore]
          rfl
  | some b =>
      have hmem : (⟨p, b.content, b.mode⟩ : ManifestEntry) ∈
          captureDeliverableManifest gitignoreMatches selection t :=
        mem_captured_iff.mpr hbefore
      cases hafter : surfaceAt (delivers gitignoreMatches selection') s p with
      | none =>
          refine ⟨deletedChange ⟨p, b.content, b.mode⟩, Or.inl (Or.inr ?_), rfl⟩
          refine List.mem_map_of_mem (List.mem_filter.mpr ⟨hmem, ?_⟩)
          rw [entryAt_captured, hafter]
          rfl
      | some f =>
          have hdiffer : b.content ≠ f.content ∨ b.mode ≠ f.mode := by
            by_contra hsame
            rw [not_or, not_not, not_not] at hsame
            refine h ?_
            rw [hbefore, hafter]
            obtain ⟨content, mode⟩ := b
            obtain ⟨rfl, rfl⟩ := hsame
            rfl
          let edit : CandidateChange :=
            { kind := .edit
              path := p
              beforeSha256 := some b.content
              afterSha256 := some f.content
              beforeMode := some b.mode
              afterMode := some f.mode }
          refine ⟨edit, Or.inr (List.mem_filterMap.mpr
            ⟨⟨p, b.content, b.mode⟩, hmem, ?_⟩), rfl⟩
          show ((captureDeliverableManifest gitignoreMatches selection' s).entryAt
            p).bind _ = _
          rw [entryAt_captured, hafter]
          show editedChange _ _ = _
          unfold editedChange
          rw [if_pos hdiffer]

end Delta

-- ========================================================== the plan

/-- Paths are planned once. -/
theorem firstOfPaths_spec (seen : List RelPath) (changes : List CandidateChange) :
    (firstOfPaths seen changes).Sublist changes ∧
      ((firstOfPaths seen changes).map (·.path)).Nodup ∧
      (∀ x ∈ firstOfPaths seen changes, x.path ∉ seen) ∧
      ∀ x ∈ changes, x.path ∉ seen →
        ∃ y ∈ firstOfPaths seen changes, y.path = x.path := by
  induction changes generalizing seen with
  | nil =>
      refine ⟨List.Sublist.refl _, List.nodup_nil, fun x hx => ?_, fun x hx => ?_⟩
      · cases hx
      · cases hx
  | cons change rest ih =>
      unfold firstOfPaths
      split
      next hseen =>
        obtain ⟨hsub, hnodup, hnew, hall⟩ := ih seen
        refine ⟨hsub.cons _, hnodup, hnew, fun x hx hx' => ?_⟩
        rcases List.mem_cons.mp hx with rfl | hx
        · exact absurd hseen hx'
        · exact hall x hx hx'
      next hnot =>
        obtain ⟨hsub, hnodup, hnew, hall⟩ := ih (change.path :: seen)
        refine ⟨hsub.cons_cons _, ?_, fun x hx => ?_, fun x hx hx' => ?_⟩
        · refine List.nodup_cons.mpr ⟨fun hmem => ?_, hnodup⟩
          obtain ⟨y, hy, heq⟩ := List.mem_map.mp hmem
          exact hnew y hy (heq ▸ List.mem_cons_self)
        · rcases List.mem_cons.mp hx with rfl | hx
          · exact hnot
          · exact fun hmem => hnew x hx (List.mem_cons_of_mem _ hmem)
        · rcases List.mem_cons.mp hx with rfl | hx
          · exact ⟨x, List.mem_cons_self, rfl⟩
          · by_cases heq : x.path = change.path
            · exact ⟨change, List.mem_cons_self, heq.symm⟩
            · obtain ⟨y, hy, hpath⟩ := hall x hx (by simp [heq, hx'])
              exact ⟨y, List.mem_cons_of_mem _ hy, hpath⟩

/-- A plan is about the path of its change. -/
theorem targetPath_planChange {d : Data} {r : RepoId} {storage : StorageId}
    {change : CandidateChange} {effect : Effect}
    (h : planChange d r storage change = some effect) :
    effect.targetPath = change.path := by
  unfold planChange at h
  split at h
  next =>
    cases h
    rfl
  next =>
    split at h
    next => cases h
    next =>
      dsimp only at h
      split at h
      next => cases h
      next =>
        cases h
        rfl

/-- The plans of changes of distinct paths have distinct targets. -/
theorem nodup_targets {d : Data} {r : RepoId} {storage : StorageId}
    {changes : List CandidateChange} (h : (changes.map (·.path)).Nodup) :
    ((changes.filterMap (planChange d r storage)).map Effect.targetPath).Nodup := by
  have hsub : ((changes.filterMap (planChange d r storage)).map
      Effect.targetPath).Sublist (changes.map (·.path)) := by
    clear h
    induction changes with
    | nil => exact List.Sublist.refl _
    | cons change rest ih =>
        rw [List.filterMap_cons]
        cases hplan : planChange d r storage change with
        | none => exact ih.cons _
        | some effect =>
            rw [List.map_cons, List.map_cons, targetPath_planChange hplan]
            exact ih.cons_cons _
  exact hsub.nodup h

theorem mem_sortByTarget {effects : List Effect} {e : Effect} :
    e ∈ sortByTarget effects ↔ e ∈ effects := by
  unfold sortByTarget
  exact List.mem_insertionSort _

theorem nodup_sortByTarget {effects : List Effect}
    (h : (effects.map Effect.targetPath).Nodup) :
    ((sortByTarget effects).map Effect.targetPath).Nodup := by
  unfold sortByTarget
  exact ((List.perm_insertionSort _ _).map _).nodup_iff.mpr h

-- ======================================================= the delivery

/-- A candidate sealed against a baseline that the repository still shows,
and the repository and storage it is to be delivered from. -/
structure Delivery where
  gitignoreMatches : List IgnoreFile → RelPath → Bool → Bool
  /-- the selection the baseline was read under -/
  baselineSelection : SourceSelection
  /-- the selection the candidate was sealed under -/
  candidateSelection : SourceSelection
  data : Data
  repo : RepoId
  candidate : Candidate
  artifactPaths : List RelPath
  /-- the changes are those of the sealed files against the repository's -/
  delta : candidate.changes = computeDelta
    (captureDeliverableManifest gitignoreMatches baselineSelection
      (data.repos repo).tree)
    (captureDeliverableManifest gitignoreMatches candidateSelection
      (data.storages candidate.storage))
  /-- no entry of a folder is named `..` -/
  named : ∀ p, ((data.repos repo).tree.node p).isSome ∨
    ((data.storages candidate.storage).node p).isSome → ".." ∉ p

namespace Delivery

variable (D : Delivery)

/-- The repository's files. -/
def tree : FileTree := (D.data.repos D.repo).tree

/-- The sealed files. -/
def storage : FileTree := D.data.storages D.candidate.storage

/-- The baseline's file at a path. -/
def baselineFile : RelPath → Option FileImage :=
  surfaceAt (delivers D.gitignoreMatches D.baselineSelection) D.tree

/-- The candidate's file at a path. -/
def candidateFile : RelPath → Option FileImage :=
  surfaceAt (delivers D.gitignoreMatches D.candidateSelection) D.storage

/-- The plan. -/
def plan : List Effect :=
  candidateChangePlan D.data (some D.repo) D.candidate.storage
    D.candidate.changes D.artifactPaths

/-- A file the plan deletes. -/
structure Deleted (p : RelPath) : Prop where
  source : p ∉ D.artifactPaths
  before : (D.baselineFile p).isSome
  after : D.candidateFile p = none

/-- A file the plan promotes: one that does not stand in the repository as
the candidate has it. -/
structure Promoted (p : RelPath) (f : FileImage) : Prop where
  source : p ∉ D.artifactPaths
  after : D.candidateFile p = some f
  stale : D.tree.file? p ≠ some f

/-- Every promoted file has room once the plan's files are deleted: no other
file stands above it, and nothing else below it. -/
def RoomForAll : Prop :=
  ∀ p f, D.Promoted p f →
    (∀ q, q <+: p → q ≠ p → (D.tree.file? q).isSome → D.Deleted q) ∧
      ∀ q, p <+: q → q ≠ p → (D.tree.node q).isSome → D.Deleted q

/-- The selection read from the repository afterwards sees the candidate's
files, and none that the repository holds beside the baseline and the
candidate. -/
structure SelectionsAgree (after : SourceSelection) : Prop where
  sees : ∀ p, p ∉ D.artifactPaths → (D.candidateFile p).isSome →
    delivers D.gitignoreMatches after p = true
  hides : ∀ p, p ∉ D.artifactPaths → (D.tree.file? p).isSome →
    D.baselineFile p = none → D.candidateFile p = none →
    delivers D.gitignoreMatches after p = false

/-- Performing the plan succeeds, the repository then shows the candidate's
files outside the artifacts, and its validation has nothing to report. -/
def Delivers (E : Env) (S : CompletionService) (after : SourceSelection) : Prop :=
  ∃ applied d', Proc.alone E
      ((effectRuntime E S).applyEffects "" 0 D.plan []) D.data
        = (.ok (applied, none), d') ∧
    (∀ p, p ∉ D.artifactPaths →
      surfaceAt (delivers D.gitignoreMatches after) (d'.repos D.repo).tree p
        = D.candidateFile p) ∧
    (E.scanErrors (d'.repos D.repo) = [] →
      E.selects (d'.repos D.repo) = delivers D.gitignoreMatches after →
      E.candidateSelects D.candidate
        = delivers D.gitignoreMatches D.candidateSelection →
      validateIntegratedSource E d' D.repo D.candidate none
        (some D.artifactPaths) = [])

-- ================================================ the planned effects

variable {D}

theorem file_of_baseline {p : RelPath} {f : FileImage}
    (h : D.baselineFile p = some f) : D.tree.node p = some (.file f) :=
  FileTree.file?_eq_some.mp (file_of_surfaceAt h).2

theorem file_of_candidate {p : RelPath} {f : FileImage}
    (h : D.candidateFile p = some f) : D.storage.node p = some (.file f) :=
  FileTree.file?_eq_some.mp (file_of_surfaceAt h).2

/-- A change of the delta is transported unless it is an artifact. -/
theorem transported {change : CandidateChange} (h : change ∈ D.candidate.changes) :
    ".." ∉ change.path ∧ ".open-tulid" ∉ change.path := by
  rw [D.delta] at h
  cases changeMeans_of_mem h with
  | deleted hkind hbefore hafter =>
      obtain ⟨f, hf⟩ := Option.isSome_iff_exists.mp hbefore
      obtain ⟨hselected, hfile⟩ := file_of_surfaceAt hf
      refine ⟨D.named _ (Or.inl ?_), not_reserved_of_delivers hselected⟩
      rw [FileTree.file?_eq_some.mp hfile]
      rfl
  | written f hkind hafter hbefore hsha hmode =>
      obtain ⟨hselected, hfile⟩ := file_of_surfaceAt hafter
      refine ⟨D.named _ (Or.inr ?_), not_reserved_of_delivers hselected⟩
      rw [FileTree.file?_eq_some.mp hfile]
      rfl

/-- The changes the plan is made of. -/
def changes (D : Delivery) : List CandidateChange :=
  transportedChanges D.candidate.changes D.artifactPaths

theorem mem_changes {change : CandidateChange} (h : change ∈ D.changes) :
    change.path ∉ D.artifactPaths ∧
      ChangeMeans D.baselineFile D.candidateFile change := by
  unfold changes transportedChanges at h
  have hmem := (firstOfPaths_spec [] _).1.subset h
  obtain ⟨hchange, hkept⟩ := List.mem_filter.mp hmem
  have hkept : change.path ∉ D.artifactPaths ∧ ".." ∉ change.path ∧
      ".open-tulid" ∉ change.path := by simpa using hkept
  rw [D.delta] at hchange
  exact ⟨hkept.1, changeMeans_of_mem hchange⟩

/-- Where the surfaces differ outside the artifacts the plan has a change. -/
theorem exists_change_of_ne {p : RelPath} (hp : p ∉ D.artifactPaths)
    (h : D.baselineFile p ≠ D.candidateFile p) :
    ∃ change ∈ D.changes, change.path = p := by
  obtain ⟨change, hchange, hpath⟩ := exists_change h
  have hmem : change ∈ D.candidate.changes := by
    rw [D.delta]
    exact hchange
  obtain ⟨hdots, hreserved⟩ := transported hmem
  have hout : change.path ∉ D.artifactPaths := by
    rw [hpath]
    exact hp
  have hkept : change ∈ D.candidate.changes.filter fun change =>
      change.path ∉ D.artifactPaths ∧ ".." ∉ change.path ∧
        ".open-tulid" ∉ change.path :=
    List.mem_filter.mpr ⟨hmem, decide_eq_true ⟨hout, hdots, hreserved⟩⟩
  obtain ⟨y, hy, hsame⟩ :=
    (firstOfPaths_spec [] _).2.2.2 change hkept List.not_mem_nil
  exact ⟨y, hy, hsame.trans hpath⟩

/-- The effects the plan orders. -/
def planned (D : Delivery) : List Effect :=
  D.changes.filterMap (planChange D.data D.repo D.candidate.storage)

theorem plan_eq : D.plan = sortByTarget (D.planned.filter Effect.isDelete) ++
    sortByTarget (D.planned.filter fun e => !e.isDelete) := rfl

theorem nodup_planned : (D.planned.map Effect.targetPath).Nodup :=
  nodup_targets (firstOfPaths_spec [] _).2.1

/-- What is planned deletes what the candidate dropped, or writes what the
candidate has and the repository does not show. -/
theorem planned_cases {e : Effect} (h : e ∈ D.planned) :
    (∃ x : FileDeletion, e = .deleteChangedFile x ∧ D.Deleted x.target) ∨
      ∃ (x : FilePromotion) (f : FileImage), e = .promoteChangedFile x ∧
        D.Promoted x.target f ∧ PromotesImage D.candidateFile D.data x f := by
  obtain ⟨change, hchange, hplan⟩ := List.mem_filterMap.mp h
  obtain ⟨hout, hmeans⟩ := mem_changes hchange
  unfold planChange at hplan
  cases hmeans with
  | deleted hkind hbefore hafter =>
      rw [hkind] at hplan
      cases hplan
      exact Or.inl ⟨_, rfl, hout, hbefore, hafter⟩
  | written f hkind hafter hbefore hsha hmode =>
      have hnode := file_of_candidate hafter
      have hfile := FileTree.file?_eq_some.mpr hnode
      have hstored : ((D.data.storages D.candidate.storage).file? change.path).isNone
          = false := by
        rw [show (D.data.storages D.candidate.storage).file? change.path = some f
          from hfile]
        rfl
      split at hplan
      next hdelete => exact absurd hdelete hkind
      next =>
        rw [hstored, if_neg (by simp)] at hplan
        split at hplan
        next => cases hplan
        next hdiffer =>
          cases hplan
          refine Or.inr ⟨_, f, rfl, ⟨hout, hafter, fun hsame => ?_⟩, ?_⟩
          · refine hdiffer ?_
            unfold sameFileContent
            rw [show (D.data.storages D.candidate.storage).file? change.path = some f
              from hfile, show (D.data.tree (.repo D.repo)).file? change.path = some f
              from hsame]
            exact decide_eq_true rfl
          · refine ⟨FileTree.ne_nil_of_file hnode, hafter, ?_, ?_⟩
            · unfold readSource
              rw [show (D.data.storages D.candidate.storage).node change.path
                = some (.file f) from hnode]
            · rw [hmode]
              rfl

/-- What the candidate dropped is planned. -/
theorem exists_planned_of_deleted {p : RelPath} (h : D.Deleted p) :
    ∃ e ∈ D.planned, e.isDelete = true ∧ e.targetPath = p := by
  obtain ⟨change, hchange, rfl⟩ := exists_change_of_ne h.source (by
    rw [h.after]
    exact Option.isSome_iff_ne_none.mp h.before)
  cases (mem_changes hchange).2 with
  | deleted hkind hbefore hafter =>
      refine ⟨.deleteChangedFile ⟨change.path, change.beforeSha256⟩,
        List.mem_filterMap.mpr ⟨change, hchange, ?_⟩, rfl, rfl⟩
      unfold planChange
      rw [hkind]
  | written f hkind hafter hbefore hsha hmode =>
      rw [h.after] at hafter
      cases hafter

/-- What the repository does not show as the candidate has it is planned. -/
theorem exists_planned_of_promoted {p : RelPath} {f : FileImage}
    (h : D.Promoted p f) :
    ∃ e ∈ D.planned, e.isDelete = false ∧ e.targetPath = p := by
  have hne : D.baselineFile p ≠ D.candidateFile p := by
    intro hsame
    rw [h.after] at hsame
    exact h.stale (file_of_surfaceAt hsame).2
  obtain ⟨change, hchange, rfl⟩ := exists_change_of_ne h.source hne
  cases (mem_changes hchange).2 with
  | deleted hkind hbefore hafter =>
      rw [h.after] at hafter
      cases hafter
  | written g hkind hafter hbefore hsha hmode =>
      have hfile : (D.data.storages D.candidate.storage).file? change.path = some f :=
        FileTree.file?_eq_some.mpr (file_of_candidate h.after)
      have hdiffer : ¬ sameFileContent D.data
          ⟨D.candidate.storage, change.path⟩ (.repo D.repo) change.path = true := by
        intro hsame
        unfold sameFileContent at hsame
        rw [hfile] at hsame
        split at hsame
        next s t hs ht =>
          cases hs
          rw [of_decide_eq_true hsame] at h
          exact h.stale ht
        next => cases hsame
      let promotion : FilePromotion :=
        { source := ⟨D.candidate.storage, change.path⟩
          target := change.path
          expectedAfterSha256 := change.afterSha256
          expectedBeforeSha256 := change.beforeSha256
          expectedBeforeMode := change.beforeMode
          expectedAfterMode := change.afterMode
          targetExisted := ((D.data.repos D.repo).tree.node change.path).isSome }
      refine ⟨.promoteChangedFile promotion,
        List.mem_filterMap.mpr ⟨change, hchange, ?_⟩, rfl, rfl⟩
      unfold planChange
      split
      next hdelete => exact absurd hdelete hkind
      next =>
        rw [hfile, if_neg (by simp)]
        exact if_neg hdiffer

/-- The deletions of the plan: each dropped file once. -/
theorem exists_deletes (D : Delivery) : ∃ deletes : List FileDeletion,
    sortByTarget (D.planned.filter Effect.isDelete)
        = deletes.map Effect.deleteChangedFile ∧
      (deletes.map (·.target)).Nodup ∧
      ∀ p, p ∈ deletes.map (·.target) ↔ D.Deleted p := by
  have hform : ∀ e ∈ sortByTarget (D.planned.filter Effect.isDelete),
      ∃ x, Effect.deleteChangedFile x = e ∧ D.Deleted x.target := by
    intro e he
    obtain ⟨hplanned, hdelete⟩ := List.mem_filter.mp (mem_sortByTarget.mp he)
    rcases planned_cases hplanned with ⟨x, rfl, hx⟩ | ⟨x, f, rfl, -, -⟩
    · exact ⟨x, rfl, hx⟩
    · cases hdelete
  obtain ⟨deletes, hdeletes⟩ : ∃ deletes : List FileDeletion,
      deletes.map Effect.deleteChangedFile
        = sortByTarget (D.planned.filter Effect.isDelete) := by
    have hrange := Set.range_list_map Effect.deleteChangedFile
    refine (Set.ext_iff.mp hrange _).mpr fun e he => ?_
    obtain ⟨x, hx, -⟩ := hform e he
    exact ⟨x, hx⟩
  have htargets : deletes.map (·.target)
      = (sortByTarget (D.planned.filter Effect.isDelete)).map Effect.targetPath := by
    rw [← hdeletes, List.map_map]
    rfl
  refine ⟨deletes, hdeletes.symm, ?_, fun p => ?_⟩
  · rw [htargets]
    exact nodup_sortByTarget ((List.filter_sublist.map _).nodup nodup_planned)
  · constructor
    · intro hp
      obtain ⟨x, hx, rfl⟩ := List.mem_map.mp hp
      have hmem : Effect.deleteChangedFile x ∈
          sortByTarget (D.planned.filter Effect.isDelete) := by
        rw [← hdeletes]
        exact List.mem_map_of_mem hx
      obtain ⟨y, hy, hdeleted⟩ := hform _ hmem
      cases hy
      exact hdeleted
    · intro hp
      obtain ⟨e, he, hdelete, rfl⟩ := exists_planned_of_deleted hp
      rw [htargets]
      exact List.mem_map_of_mem (mem_sortByTarget.mpr (List.mem_filter.mpr ⟨he, hdelete⟩))

/-- Two files of the candidate do not stand above each other. -/
theorem apart_of_ne {p q : RelPath} (hp : (D.candidateFile p).isSome)
    (hq : (D.candidateFile q).isSome) (hne : p ≠ q) : Apart p q := by
  obtain ⟨f, hf⟩ := Option.isSome_iff_exists.mp hp
  obtain ⟨g, hg⟩ := Option.isSome_iff_exists.mp hq
  constructor
  · intro hpre
    have hdir := dir_above (file_of_candidate hg) hpre hne
    rw [file_of_candidate hf] at hdir
    cases hdir
  · intro hpre
    have hdir := dir_above (file_of_candidate hf) hpre (Ne.symm hne)
    rw [file_of_candidate hg] at hdir
    cases hdir

/-- The promotions of the plan: each stale file once, and none above
another. -/
theorem exists_promotes (D : Delivery) : ∃ promotes : List FilePromotion,
    sortByTarget (D.planned.filter fun e => !e.isDelete)
        = promotes.map Effect.promoteChangedFile ∧
      promotes.Pairwise (fun x y => Apart x.target y.target) ∧
      (∀ x ∈ promotes, ∃ f, D.Promoted x.target f ∧
        PromotesImage D.candidateFile D.data x f) ∧
      ∀ p f, D.Promoted p f → p ∈ promotes.map (·.target) := by
  have hform : ∀ e ∈ sortByTarget (D.planned.filter fun e => !e.isDelete),
      ∃ x, Effect.promoteChangedFile x = e ∧ ∃ f, D.Promoted x.target f ∧
        PromotesImage D.candidateFile D.data x f := by
    intro e he
    obtain ⟨hplanned, hwrite⟩ := List.mem_filter.mp (mem_sortByTarget.mp he)
    rcases planned_cases hplanned with ⟨x, rfl, -⟩ | ⟨x, f, rfl, hx, himage⟩
    · cases hwrite
    · exact ⟨x, rfl, f, hx, himage⟩
  obtain ⟨promotes, hpromotes⟩ : ∃ promotes : List FilePromotion,
      promotes.map Effect.promoteChangedFile
        = sortByTarget (D.planned.filter fun e => !e.isDelete) := by
    have hrange := Set.range_list_map Effect.promoteChangedFile
    refine (Set.ext_iff.mp hrange _).mpr fun e he => ?_
    obtain ⟨x, hx, -⟩ := hform e he
    exact ⟨x, hx⟩
  have hmeant : ∀ x ∈ promotes, ∃ f, D.Promoted x.target f ∧
      PromotesImage D.candidateFile D.data x f := by
    intro x hx
    have hmem : Effect.promoteChangedFile x ∈
        sortByTarget (D.planned.filter fun e => !e.isDelete) := by
      rw [← hpromotes]
      exact List.mem_map_of_mem hx
    obtain ⟨y, hy, hmeant⟩ := hform _ hmem
    cases hy
    exact hmeant
  have htargets : promotes.map (·.target)
      = (sortByTarget (D.planned.filter fun e => !e.isDelete)).map
          Effect.targetPath := by
    rw [← hpromotes, List.map_map]
    rfl
  have hnodup : (promotes.map (·.target)).Nodup := by
    rw [htargets]
    exact nodup_sortByTarget ((List.filter_sublist.map _).nodup nodup_planned)
  refine ⟨promotes, hpromotes.symm, ?_, hmeant, fun p f hp => ?_⟩
  · refine List.Pairwise.imp_of_mem ?_ (List.pairwise_map.mp hnodup)
    intro x y hx hy hne
    obtain ⟨f, hf, -⟩ := hmeant x hx
    obtain ⟨g, hg, -⟩ := hmeant y hy
    exact apart_of_ne (by rw [hf.after]; rfl) (by rw [hg.after]; rfl) hne
  · obtain ⟨e, he, hwrite, rfl⟩ := exists_planned_of_promoted hp
    rw [htargets]
    exact List.mem_map_of_mem (mem_sortByTarget.mpr
      (List.mem_filter.mpr ⟨he, by rw [hwrite]; rfl⟩))

-- ==================================================== running the plan

/-- What the deletions leave. -/
def Cleared (D : Delivery) (t : FileTree) : Prop :=
  (∀ p, D.Deleted p → t.node p = none) ∧
    ∀ p, ¬ D.Deleted p → t.node p = D.tree.node p

/-- Room once the plan's files are deleted is room for every promoted file in
the cleared tree. -/
theorem roomForAll_iff {t : FileTree} (ht : D.Cleared t) :
    D.RoomForAll ↔ ∀ p f, D.Promoted p f → t.HasRoom p := by
  constructor
  · intro h p f hp
    obtain ⟨habove, hbelow⟩ := h p f hp
    constructor
    · intro q g hq hne hnode
      by_cases hdeleted : D.Deleted q
      · rw [ht.1 q hdeleted] at hnode
        cases hnode
      · rw [ht.2 q hdeleted] at hnode
        refine hdeleted (habove q hq hne ?_)
        rw [FileTree.file?_eq_some.mpr hnode]
        rfl
    · intro q hq hne
      by_cases hdeleted : D.Deleted q
      · exact ht.1 q hdeleted
      · rw [ht.2 q hdeleted]
        cases hnode : D.tree.node q with
        | none => rfl
        | some n => exact absurd (hbelow q hq hne (by rw [hnode]; rfl)) hdeleted
  · intro h p f hp
    have hroom := h p f hp
    constructor
    · intro q hq hne hfile
      by_contra hdeleted
      obtain ⟨g, hg⟩ := Option.isSome_iff_exists.mp hfile
      have hnode := FileTree.file?_eq_some.mp hg
      rw [← ht.2 q hdeleted] at hnode
      exact hroom.above q g hq hne hnode
    · intro q hq hne hsome
      by_contra hdeleted
      rw [← ht.2 q hdeleted, hroom.below q hq hne] at hsome
      cases hsome

/-- The files of the repository once the plan was performed. -/
def Arrived (D : Delivery) (t : FileTree) : Prop :=
  ∀ p, p ∉ D.artifactPaths → t.file? p
    = if (D.candidateFile p).isSome then D.candidateFile p
      else if (D.baselineFile p).isSome then none else D.tree.file? p

/-- Promoting what is stale in the cleared tree makes the candidate's files
arrive. -/
theorem arrived_of_promoted {t t' : FileTree} (ht : D.Cleared t) (targets : List RelPath)
    (htargets : ∀ p ∈ targets, ∃ f, D.Promoted p f)
    (hall : ∀ p f, D.Promoted p f → p ∈ targets)
    (hfile : ∀ p, t'.file? p
      = if p ∈ targets then D.candidateFile p else t.file? p) : D.Arrived t' := by
  have hsame : ∀ p, ¬ D.Deleted p → t.file? p = D.tree.file? p := by
    intro p hp
    unfold FileTree.file?
    rw [ht.2 p hp]
  intro p hp
  rw [hfile]
  cases hafter : D.candidateFile p with
  | some f =>
      rw [Option.isSome_some, if_pos rfl]
      by_cases hstale : D.tree.file? p = some f
      · split
        · rfl
        · rw [hsame p fun h => by rw [h.after] at hafter; cases hafter]
          exact hstale
      · rw [if_pos (hall p f ⟨hp, hafter, hstale⟩)]
  | none =>
      have hkept : p ∉ targets := by
        intro hmem
        obtain ⟨f, hf⟩ := htargets p hmem
        rw [hf.after] at hafter
        cases hafter
      rw [if_neg hkept, Option.isSome_none, if_neg (by simp)]
      by_cases hbefore : (D.baselineFile p).isSome
      · rw [if_pos hbefore]
        unfold FileTree.file?
        rw [ht.1 p ⟨hp, hbefore, hafter⟩]
      · rw [if_neg hbefore]
        exact hsame p fun h => hbefore h.before

/-- The plan succeeds exactly when every promoted file has room, and then the
candidate's files have arrived. -/
theorem alone_plan {E : Env} {S : CompletionService} (hS : S.repo = some D.repo) :
    (D.RoomForAll → ∃ applied t, Proc.alone E
        ((effectRuntime E S).applyEffects "" 0 D.plan []) D.data
          = (.ok (applied, none), D.data.setTree (.repo D.repo) t) ∧ D.Arrived t) ∧
      (¬ D.RoomForAll → ∃ applied error d', Proc.alone E
        ((effectRuntime E S).applyEffects "" 0 D.plan []) D.data
          = (.ok (applied, some error), d')) := by
  obtain ⟨deletes, hdeletes, hnodup, hdeleted⟩ := D.exists_deletes
  obtain ⟨promotes, hpromotes, hapart, hmeant, hpromoted⟩ := D.exists_promotes
  have hfiles : ∀ x ∈ deletes,
      ∃ f, (D.data.repos D.repo).tree.node x.target = some (.file f) := by
    intro x hx
    have hx := (hdeleted x.target).mp (List.mem_map_of_mem hx)
    obtain ⟨f, hf⟩ := Option.isSome_iff_exists.mp hx.before
    exact ⟨f, file_of_baseline hf⟩
  obtain ⟨cleared, k, applied, hrun, hnode⟩ := alone_deletes (E := E) (j := "") hS
    hnodup (promotes.map Effect.promoteChangedFile) hfiles 0 []
  have hcleared : D.Cleared cleared := by
    constructor
    · intro p hp
      rw [hnode, if_pos ((hdeleted p).mpr hp)]
    · intro p hp
      rw [hnode, if_neg fun h => hp ((hdeleted p).mp h)]
      rfl
  have htree : ((D.data.setTree (.repo D.repo) cleared).repos D.repo).tree = cleared :=
    repo_tree_setTree D.repo cleared
  have hmeant' : ∀ x ∈ promotes, ∃ f, PromotesImage D.candidateFile
      (D.data.setTree (.repo D.repo) cleared) x f := by
    intro x hx
    obtain ⟨f, -, himage⟩ := hmeant x hx
    exact ⟨f, himage.setTree _ _⟩
  have hroomIff : D.RoomForAll ↔ ∀ x ∈ promotes,
      ((D.data.setTree (.repo D.repo) cleared).repos D.repo).tree.HasRoom x.target := by
    rw [roomForAll_iff hcleared, htree]
    constructor
    · intro h x hx
      obtain ⟨f, hf, -⟩ := hmeant x hx
      exact h _ f hf
    · intro h p f hp
      obtain ⟨x, hx, rfl⟩ := List.mem_map.mp (hpromoted p f hp)
      exact h x hx
  rw [plan_eq, hdeletes, hpromotes, hrun]
  constructor
  · intro hroom
    obtain ⟨t, applied', hdone, hfile⟩ := alone_promotes (E := E) hS hapart hmeant'
      (hroomIff.mp hroom) k applied
    rw [setTree_setTree] at hdone
    refine ⟨applied', t, hdone, arrived_of_promoted hcleared (promotes.map (·.target))
      ?_ hpromoted ?_⟩
    · intro p hp
      obtain ⟨x, hx, rfl⟩ := List.mem_map.mp hp
      obtain ⟨f, hf, -⟩ := hmeant x hx
      exact ⟨f, hf⟩
    · intro p
      rw [hfile, htree]
  · intro hroom
    exact alone_promotes_refused (E := E) hS hapart hmeant'
      (fun h => hroom (hroomIff.mpr h)) k applied

-- ================================================ the final surface

/-- The repository shows the candidate's files exactly when the selections
agree. -/
theorem surface_iff {t : FileTree} (ht : D.Arrived t) {after : SourceSelection} :
    (∀ p, p ∉ D.artifactPaths →
      surfaceAt (delivers D.gitignoreMatches after) t p = D.candidateFile p) ↔
      D.SelectionsAgree after := by
  unfold surfaceAt
  constructor
  · intro h
    constructor
    · intro p hp hafter
      by_contra hnot
      have := h p hp
      rw [if_neg hnot] at this
      rw [← this] at hafter
      cases hafter
    · intro p hp hfile hbefore hafter
      cases hselected : delivers D.gitignoreMatches after p with
      | false => rfl
      | true =>
          have := h p hp
          rw [hselected, if_pos rfl, ht p hp, hbefore, hafter] at this
          rw [Option.isSome_none, if_neg (by simp), if_neg (by simp)] at this
          rw [this] at hfile
          cases hfile
  · intro h p hp
    cases hafter : D.candidateFile p with
    | some f =>
        rw [if_pos (h.sees p hp (by rw [hafter]; rfl)), ht p hp, hafter]
        rfl
    | none =>
        split
        next hselected =>
          rw [ht p hp, hafter, Option.isSome_none, if_neg (by simp)]
          by_cases hbefore : (D.baselineFile p).isSome
          · rw [if_pos hbefore]
          · rw [if_neg hbefore]
            by_contra hsome
            have hhidden := h.hides p hp (Option.isSome_iff_ne_none.mpr hsome)
              (Option.not_isSome_iff_eq_none.mp hbefore) hafter
            rw [hselected] at hhidden
            cases hhidden
        next => rfl

/-- Where the candidate's files have arrived, no change has an error. -/
theorem integratedChangeError_eq_none {t : FileTree} (ht : D.Arrived t)
    {change : CandidateChange} (hchange : change ∈ D.candidate.changes)
    (hout : change.path ∉ D.artifactPaths) :
    integratedChangeError t change = none := by
  have hfile := ht change.path hout
  rw [D.delta] at hchange
  unfold integratedChangeError
  cases changeMeans_of_mem hchange with
  | deleted hkind hbefore hafter =>
      have hafter : D.candidateFile change.path = none := hafter
      have hbefore : (D.baselineFile change.path).isSome := hbefore
      rw [hafter, Option.isSome_none, if_neg (by simp), if_pos hbefore] at hfile
      rw [hkind]
      cases hnode : t.node change.path with
      | none => rfl
      | some n =>
          cases n with
          | dir => rfl
          | file f =>
              rw [FileTree.file?_eq_some.mpr hnode] at hfile
              cases hfile
  | written f hkind hafter hbefore hsha hmode =>
      have hafter : D.candidateFile change.path = some f := hafter
      rw [hafter, Option.isSome_some, if_pos rfl] at hfile
      rw [FileTree.file?_eq_some.mp hfile, hsha, hmode]
      cases hchangeKind : change.kind with
      | delete => exact absurd hchangeKind hkind
      | add => exact if_neg (by simp [sha256])
      | edit => exact if_neg (by simp [sha256])

/-- Where the surfaces agree and every change arrived, validation reports
nothing. -/
theorem validates {E : Env} {t : FileTree} {after : SourceSelection} (ht : D.Arrived t)
    (hsurface : ∀ p, p ∉ D.artifactPaths →
      surfaceAt (delivers D.gitignoreMatches after) t p = D.candidateFile p)
    {d : Data} (htree : (d.repos D.repo).tree = t)
    (hstorages : d.storages = D.data.storages)
    (hscan : E.scanErrors (d.repos D.repo) = [])
    (hselects : E.selects (d.repos D.repo) = delivers D.gitignoreMatches after)
    (hcandidate : E.candidateSelects D.candidate
      = delivers D.gitignoreMatches D.candidateSelection) :
    validateIntegratedSource E d D.repo D.candidate none (some D.artifactPaths) = [] := by
  have hexcluded : ∀ p, excludedPath none (some D.artifactPaths) p
      = decide (p ∈ D.artifactPaths) := fun p => rfl
  have hsame : sameSurface (E.candidateSelects D.candidate)
      (E.selects (d.repos D.repo)) (excludedPath none (some D.artifactPaths))
      (d.storages D.candidate.storage) t = true := by
    unfold sameSurface
    refine List.all_eq_true.mpr fun p _ => ?_
    rw [hexcluded]
    by_cases hp : p ∈ D.artifactPaths
    · simp [hp]
    · have hfile : surfaceAt (E.candidateSelects D.candidate)
          (d.storages D.candidate.storage) p = D.candidateFile p := by
        rw [hcandidate, hstorages]
        rfl
      rw [hfile, hselects, hsurface p hp]
      simp
  have hchanges : (D.candidate.changes.filter fun change =>
      !excludedPath none (some D.artifactPaths) change.path &&
        ".." ∉ change.path && ".open-tulid" ∉ change.path
      ).filterMap (integratedChangeError t) = [] := by
    refine List.filterMap_eq_nil_iff.mpr fun change hchange => ?_
    obtain ⟨hmem, hkept⟩ := List.mem_filter.mp hchange
    rw [hexcluded] at hkept
    have hout : change.path ∉ D.artifactPaths := by
      intro hin
      simp [hin] at hkept
    exact integratedChangeError_eq_none ht hmem hout
  unfold validateIntegratedSource
  simp only [hscan, ne_eq, not_true_eq_false, if_false, hsame, if_true, htree,
    List.nil_append]
  exact hchanges

/-- One selection throughout agrees with itself. -/
theorem selectionsAgree_of_same {selection : SourceSelection}
    (hbefore : D.baselineSelection = selection)
    (hcandidate : D.candidateSelection = selection) :
    D.SelectionsAgree selection where
  sees p _ hafter := by
    obtain ⟨f, hf⟩ := Option.isSome_iff_exists.mp hafter
    rw [← hcandidate]
    exact (file_of_surfaceAt hf).1
  hides p _ hfile hnone _ := by
    cases hselected : delivers D.gitignoreMatches selection p with
    | false => rfl
    | true =>
        unfold baselineFile surfaceAt at hnone
        rw [hbefore, hselected, if_pos rfl] at hnone
        rw [hnone] at hfile
        cases hfile

end Delivery

-- ================================================== a folder in the way

/-- A tree has no entry named `..` when no recorded path has. -/
theorem named_of_keys {t : FileTree} (h : ∀ p ∈ t.nodes.keys, ".." ∉ p) {p : RelPath}
    (hp : (t.node p).isSome) : ".." ∉ p := by
  by_cases hnil : p = []
  · rw [hnil]
    exact List.not_mem_nil
  · obtain ⟨n, hn⟩ := Option.isSome_iff_exists.mp hp
    rw [FileTree.node_eq_get t hnil] at hn
    exact h p (Store.mem_keys.mpr ⟨n, hn⟩)

/-- A repository with one file two folders down. -/
def nestedTree : FileTree where
  nodes := Store.ofList [(["a"], .dir), (["a", "x"], .dir),
    (["a", "x", "b.txt"], .file ⟨[98], 0o644⟩)]
  closed := by decide

/-- A candidate that has a file in the place of the outer folder. -/
def flatTree : FileTree where
  nodes := Store.ofList [(["a"], .file ⟨[97], 0o644⟩)]
  closed := by decide

/-- The selection of a source without Git. -/
def plainSelection : SourceSelection := { git := false }

/-- Delivering the file over the folders. -/
def flatten : Delivery where
  gitignoreMatches _ _ _ := false
  baselineSelection := plainSelection
  candidateSelection := plainSelection
  data :=
    { projects := fun _ => {}
      repos := fun _ => { tree := nestedTree, git := none }
      storages := fun _ => flatTree
      leases := [] }
  repo := "r"
  candidate :=
    { candidateId := "c"
      storage := "s"
      manifest := []
      changes := computeDelta
        (captureDeliverableManifest (fun _ _ _ => false) plainSelection nestedTree)
        (captureDeliverableManifest (fun _ _ _ => false) plainSelection flatTree) }
  artifactPaths := []
  delta := rfl
  named p h := by
    rcases h with h | h
    · exact named_of_keys (t := nestedTree) (by decide) h
    · exact named_of_keys (t := flatTree) (by decide) h

/-- The service of its repository. -/
def flattenService : CompletionService := { project := "p", repo := some "r" }

end OpenTulid
