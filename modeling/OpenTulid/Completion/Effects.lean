/-
The effects of an acceptance: performing them, compensating them, and
validating the state they leave.
-/
import OpenTulid.PathOps
import OpenTulid.Transactions

namespace OpenTulid

/-- A completion service: the project whose stores it writes, the
repository it is configured with and its repair limit. -/
structure CompletionService where
  project : ProjectId
  repo : Option RepoId
  maxRepairAttempts : Nat := 2
  deriving DecidableEq, Repr

/-- The task with other artifact links. -/
def taskWithLinks (task : Task) (links : List String) : Task :=
  { task with artifactLinks := links }

/-- The task with a section listing its derived tasks at the end of its
body. -/
def taskWithDerivedLinks (task : Task) (childLinks : List String) : Task :=
  { task with
    body := task.body.trimEnd ++ [.blank, .heading "Derived tasks"] ++
      childLinks.map fun link => .text s!"- [[{link}]]" }

/-- The links without repetition, first occurrences kept. -/
def dedupLinks (links : List String) : List String :=
  links.foldl (fun kept l => if l ∈ kept then kept else kept ++ [l]) []

/-- Two files hold the same bytes under the same mode. -/
def sameFileContent (d : Data) (source : SourcePath) (root : Root)
    (target : RelPath) : Bool :=
  match (d.storages source.storage).file? source.path, (d.tree root).file? target with
  | some s, some t => s = t
  | _, _ => false

/-- The answer of a tracker write. -/
def EffectResult.ofWrite (message : String) :
    Except (List DomainError) Unit → EffectResult
  | .ok () => { accepted := true, message := message }
  | .error errors => { accepted := false, message := message, errors := errors }

/-- Read one task. -/
def readTask (p : ProjectId) (id : TaskId) : Proc (Except (List DomainError) Task) :=
  read fun d => (d.projects p).tracker.readTask id

/-- `_delete_changed_nofollow`. -/
def deleteChangedNofollow (r : RepoId) (deletion : FileDeletion) :
    Proc EffectResult := do
  match ← unlinkRegularNofollow (.repo r) deletion.target with
  | .ok _ => return { accepted := true }
  | .error (.sourcePath text) => return ⟨false, text,
      [⟨"changed_file.delete_conflict", text, some ("/".intercalate deletion.target)⟩]⟩
  | .error (.os _) => return ⟨false, "Cannot delete changed file",
      [⟨"changed_file.delete_failed", "Cannot delete changed file",
        some ("/".intercalate deletion.target)⟩]⟩

/-- `_promote_changed_nofollow`: an empty directory left at the target
makes room first. -/
def promoteChangedNofollow (E : Env) (r : RepoId) (p : FilePromotion) :
    Proc EffectResult := do
  let failed : EffectResult := ⟨false, "Cannot promote changed file",
    [⟨"changed_file.promotion_failed", "Cannot promote changed file",
      some ("/".intercalate p.target)⟩]⟩
  match ← rmdirIfEmptyNofollow (.repo r) p.target with
  | .error _ => return failed
  | .ok _ =>
      match ← copyRegularNofollow E p.source (.repo r) p.target p.expectedAfterMode with
      | .error _ => return failed
      | .ok () => return { accepted := true }

/-- The file part of promoting an artifact. -/
def promoteArtifactFile (E : Env) (S : CompletionService)
    (a : ArtifactPromotion) : Proc (Except FsError Unit) := do
  match ← openTargetParents (.artifacts S.project) a.target with
  | .error e => return .error e
  | .ok () => copy2 E a.source (.artifacts S.project) a.target

/-- The link part of promoting an artifact: a task that cannot be read is
left without the link. -/
def promoteArtifactLink (S : CompletionService) (a : ArtifactPromotion) :
    Proc EffectResult := do
  if a.link = "" then return { accepted := true }
  else match ← readTask S.project a.taskId with
  | .error _ => return { accepted := true }
  | .ok task =>
      match ← perform (.writeTask S.project
          (taskWithLinks task (dedupLinks (task.artifactLinks ++ [a.link])))) with
      | .ok () => return { accepted := true }
      | .error errors => return ⟨false, "artifact link update failed", errors⟩

/-- `_apply_effect`. File and commit effects need the configured
repository. -/
def applyEffect (E : Env) (S : CompletionService) : Effect → Proc EffectResult
  | .moveTask taskId toState => do
      return .ofWrite "task moved" (← perform (.moveTask S.project taskId toState))
  | .createTask task => do
      return .ofWrite "task created" (← perform (.createTask S.project task))
  | .linkDerivedTasks parentId childLinks => do
      match ← readTask S.project parentId with
      | .error errors => return ⟨false, "parent task missing", errors⟩
      | .ok task =>
          return .ofWrite "parent linked"
            (← perform (.writeTask S.project (taskWithDerivedLinks task childLinks)))
  | .promoteArtifact a => do
      match ← promoteArtifactFile E S a with
      | .error _ => return ⟨false, "artifact promotion failed",
          [⟨"artifact.promotion_failed", "Cannot promote artifact",
            some ("/".intercalate a.target)⟩]⟩
      | .ok () => promoteArtifactLink S a
  | .deleteChangedFile deletion =>
      match S.repo with
      | some r => deleteChangedNofollow r deletion
      | none => return ⟨false, "no repository configured", []⟩
  | .promoteChangedFile p =>
      match S.repo with
      | some r => promoteChangedNofollow E r p
      | none => return ⟨false, "no repository configured", []⟩
  | .commitRepoChanges message paths =>
      match S.repo with
      | none => return { accepted := true }
      | some r =>
          if E.gitRaises then .raise ⟨"git executable not found"⟩ else do
          match ← perform (.commit r message paths) with
          | .ok () => return { accepted := true }
          | .error stderr => return ⟨false, s!"repo commit failed: {stderr}",
              [⟨"repo.commit_failed", s!"Cannot commit accepted changes: {stderr}", some r⟩]⟩
  | .createExecutionJob _ => return ⟨false, "unknown effect",
      [⟨"effect.unknown", "Unknown completion effect", none⟩]⟩

/-- The part of `_compensate_effect` that removes a promoted file: nothing
for a target that existed before, a refusal when its content is not the
promoted one any more. -/
def compensateArtifactFile (S : CompletionService) (a : ArtifactPromotion) :
    Proc EffectResult := do
  let node ← read fun d => (d.projects S.project).artifacts.node a.target
  match a.targetExisted, node with
  | true, _ => return { accepted := true }
  | false, none => return { accepted := true }
  | false, some .dir =>
      -- reading the bytes of a directory raises; without a digest to
      -- compare, unlinking it fails
      if a.expectedAfterSha256.isSome then .raise ⟨"Is a directory"⟩
      else return ⟨false, "artifact compensation failed", []⟩
  | false, some (.file f) =>
      if a.expectedAfterSha256.any (· ≠ sha256 f.content) then
        return ⟨false, "artifact compensation blocked by intervening change", []⟩
      else match ← perform (.fs (.artifacts S.project) (.unlink a.target)) with
      | .ok () => return { accepted := true }
      | .error _ => return ⟨false, "artifact compensation failed", []⟩

/-- `_compensate_effect`: promoted artifacts and their links are taken
back; derived tasks and their links are kept, deliberately. -/
def compensateEffect (S : CompletionService) : Effect → Proc EffectResult
  | .promoteArtifact a => do
      let removed ← compensateArtifactFile S a
      if removed.accepted then
        match ← readTask S.project a.taskId with
        | .error _ => return { accepted := true }
        | .ok task =>
            match ← perform (.writeTask S.project (taskWithLinks task a.previousLinks)) with
            | .ok () => return { accepted := true }
            | .error errors => return ⟨false, "artifact link compensation failed", errors⟩
      else return removed
  | _ => return { accepted := true }

/-- Two surfaces agree outside the paths transported as artifacts. -/
def sameSurface (selects selects' : RelPath → Bool) (excluded : RelPath → Bool)
    (t t' : FileTree) : Bool :=
  (t.nodes.keys ++ t'.nodes.keys).all fun p =>
    excluded p || surfaceAt selects t p = surfaceAt selects' t' p

/-- The paths source validation leaves out: the submitted artifacts, or for
a record without their list the whole output folder. -/
def excludedPath (outputRelative : Option RelPath) (artifactPaths : Option (List RelPath))
    (p : RelPath) : Bool :=
  match artifactPaths, outputRelative with
  | some paths, _ => p ∈ paths
  | none, some out => out <+: p
  | none, none => false

/-- What one change must show in the integrated repository. -/
def integratedChangeError (t : FileTree) (change : CandidateChange) :
    Option DomainError :=
  let location := some ("/".intercalate change.path)
  match change.kind, t.node change.path with
  | .delete, some (.file _) => some ⟨"transaction.integrated_delete_missed",
      "Deleted change still exists in the integrated repository.", location⟩
  | .delete, _ => none
  | _, some (.file f) =>
      if change.afterSha256.any (· ≠ sha256 f.content) ∨
          change.afterMode.any (· ≠ f.mode) then
        some ⟨"transaction.integrated_source_mismatch",
          "Change content differs from the verified candidate.", location⟩
      else none
  | _, _ => some ⟨"transaction.integrated_source_missing",
      "Change did not reach the integrated repository.", location⟩

/-- `_validate_integrated_source`. -/
def validateIntegratedSource (E : Env) (d : Data) (r : RepoId)
    (candidate : Candidate) (outputRelative : Option RelPath)
    (artifactPaths : Option (List RelPath)) : List DomainError :=
  let repo := d.repos r
  let excluded := excludedPath outputRelative artifactPaths
  (if E.scanErrors repo ≠ [] then [⟨"transaction.integrated_manifest_unreadable",
      "Cannot scan the integrated repository.", some r⟩]
    else if sameSurface (E.candidateSelects candidate) (E.selects repo) excluded
      (d.storages candidate.storage) repo.tree then []
    else [⟨"transaction.integrated_manifest_mismatch",
      "Integrated source differs from the complete verified candidate.", some r⟩]) ++
  (candidate.changes.filter fun change =>
      !excluded change.path && ".." ∉ change.path && ".open-tulid" ∉ change.path
    ).filterMap (integratedChangeError repo.tree)

/-- `_validate_final_state`. -/
def validateFinalState (E : Env) (S : CompletionService) (taskId : TaskId)
    (expectedToState : String) (candidate : Option Candidate)
    (outputRelative : Option RelPath) (artifactPaths : Option (List RelPath)) :
    Proc EffectResult :=
  read fun d =>
    match (d.projects S.project).tracker.readTask taskId with
    | .error errors => ⟨false, "task missing after apply", errors⟩
    | .ok task =>
        if task.currentState ≠ expectedToState then
          ⟨false, "task final state mismatch", [⟨"transaction.final_state_invalid",
            s!"Task {taskId} ended in {task.currentState}, expected {expectedToState}.",
            some taskId⟩]⟩
        else match S.repo, candidate with
        | some r, some candidate =>
            match validateIntegratedSource E d r candidate outputRelative artifactPaths with
            | [] => { accepted := true }
            | errors => ⟨false,
                "integrated deliverable manifest does not match the verified candidate", errors⟩
        | _, _ => { accepted := true }

end OpenTulid
