/-
What an acceptance plans before it touches anything: artifact promotions,
changed files, the commit, and the derived tasks with their fresh ids.
-/
import OpenTulid.Completion.Effects

namespace OpenTulid

-- ================================================== artifact promotions

/-- The stem and the suffix of a file name. -/
def splitSuffix (name : String) : String × String :=
  let rev := name.toList.reverse
  let tail := rev.takeWhile (· ≠ '.')
  let stem := (rev.drop (tail.length + 1)).reverse
  if tail = [] ∨ stem = [] ∨ tail.length = rev.length then (name, "")
  else (String.ofList stem, String.ofList ('.' :: tail.reverse))

/-- The name an artifact gets in the artifact store: implementation
contracts carry a digest. -/
def artifactFileName (E : Env) (d : Data) (source : SourcePath)
    (artifact : ArtifactSubmission) : String :=
  let name := artifact.path.getLast?.getD ""
  if artifact.type = "ImplementationContract" then
    let hash := match (d.storages source.storage).file? source.path with
      | some f => E.digestName (sha256 f.content)
      | none => "unreadable"
    let (stem, suffix) := splitSuffix name
    s!"{stem}-{hash}{suffix}"
  else name

/-- The plan of one artifact; a source that cannot be inspected raises. -/
def planPromotion (E : Env) (S : CompletionService) (d : Data)
    (storage : StorageId) (outputRelative : RelPath) (taskId : TaskId)
    (existingTask : Option Task) (artifact : ArtifactSubmission) :
    Except Raised ArtifactPromotion :=
  let source : SourcePath := ⟨storage, outputRelative ++ artifact.path⟩
  let target : RelPath := [taskId, artifact.type, artifactFileName E d source artifact]
  let existing := (d.projects S.project).artifacts.file? target
  match (d.storages storage).node source.path with
  | none => .error ⟨"No such file or directory"⟩
  | some node => .ok {
      artifactType := artifact.type
      taskId := taskId
      source := source
      target := target
      link := "/".intercalate ("artifacts" :: target)
      targetExisted := ((d.projects S.project).artifacts.node target).isSome
      previousLinks := (existingTask.map (·.artifactLinks)).getD []
      expectedAfterSha256 := match node with
        | .file f => some (sha256 f.content)
        | .dir => none
      expectedBeforeSha256 := existing.map fun f => sha256 f.content
      expectedBeforeMode := existing.map (·.mode) }

/-- `_promotion_plan`. -/
def promotionPlan (E : Env) (S : CompletionService) (d : Data)
    (storage : StorageId) (outputRelative : RelPath) (taskId : TaskId)
    (artifacts : List ArtifactSubmission) (existingTask : Option Task) :
    Except Raised (List ArtifactPromotion) :=
  artifacts.mapM (planPromotion E S d storage outputRelative taskId existingTask)

-- ======================================================= changed files

/-- The plan of one change; a file that is in place already needs none. -/
def planChange (d : Data) (r : RepoId) (storage : StorageId)
    (change : CandidateChange) : Option Effect :=
  let source : SourcePath := ⟨storage, change.path⟩
  match change.kind with
  | .delete => some (.deleteChangedFile ⟨change.path, change.beforeSha256⟩)
  | _ =>
      if ((d.storages storage).file? change.path).isNone then none
      else if sameFileContent d source (.repo r) change.path then none
      else some (.promoteChangedFile {
        source := source
        target := change.path
        expectedAfterSha256 := change.afterSha256
        expectedBeforeSha256 := change.beforeSha256
        expectedBeforeMode := change.beforeMode
        expectedAfterMode := change.afterMode
        targetExisted := ((d.repos r).tree.node change.path).isSome })

/-- The first change of every path not seen before. -/
def firstOfPaths : List RelPath → List CandidateChange → List CandidateChange
  | _, [] => []
  | seen, change :: rest =>
      if change.path ∈ seen then firstOfPaths seen rest
      else change :: firstOfPaths (change.path :: seen) rest

/-- The changes that are transported as source files, each path once. -/
def transportedChanges (changes : List CandidateChange)
    (artifactPaths : List RelPath) : List CandidateChange :=
  firstOfPaths [] <| changes.filter fun change =>
    change.path ∉ artifactPaths ∧ ".." ∉ change.path ∧
      ".open-tulid" ∉ change.path

/-- The path of a file effect. -/
def Effect.targetPath : Effect → RelPath
  | .deleteChangedFile deletion => deletion.target
  | .promoteChangedFile p => p.target
  | _ => []

/-- The effect deletes a file. -/
def Effect.isDelete : Effect → Bool
  | .deleteChangedFile _ => true
  | _ => false

/-- In the order of the target paths. -/
def sortByTarget (effects : List Effect) : List Effect :=
  effects.insertionSort fun a b =>
    "/".intercalate a.targetPath ≤ "/".intercalate b.targetPath

/-- `_candidate_change_plan`: every deletion before every promotion. -/
def candidateChangePlan (d : Data) (repo : Option RepoId)
    (storage : StorageId) (changes : List CandidateChange)
    (artifactPaths : List RelPath) : List Effect :=
  match repo with
  | none => []
  | some r =>
      let planned := (transportedChanges changes artifactPaths).filterMap
        (planChange d r storage)
      sortByTarget (planned.filter Effect.isDelete) ++
        sortByTarget (planned.filter fun e => !e.isDelete)

/-- `_commit_message`. -/
def commitMessage (task : Task) : String :=
  if task.id ≠ "" ∧ task.title ≠ "" then s!"{task.id}: {task.title}"
  else if task.title ≠ "" then task.title
  else s!"Task {task.id}"

/-- `_commit_plan`. -/
def commitPlan (d : Data) (repo : Option RepoId) (changedFiles : List Effect)
    (task : Option Task) : Option Effect :=
  match repo, task with
  | some r, some task =>
      if changedFiles = [] ∨ (d.repos r).git.isNone then none
      else some (.commitRepoChanges (commitMessage task)
        (changedFiles.map Effect.targetPath))
  | _, _ => none

-- ======================================================= derived tasks

/-- The value of a numeric task id: a positive number without leading
zeros. -/
def numericTaskId (id : TaskId) : Option Nat :=
  match id.toList with
  | [] => none
  | c :: cs =>
      if c ≠ '0' ∧ (c :: cs).all Char.isDigit then
        some ((c :: cs).foldl (fun n c => 10 * n + (c.toNat - '0'.toNat)) 0)
      else none

/-- The highest numeric task id, zero when there is none. -/
def highestNumericId (ids : List TaskId) : Nat :=
  ids.foldl (fun highest id => max highest ((numericTaskId id).getD 0)) 0

/-- `_allocate_numeric_task_ids`: the ids of the local ids, in order. -/
def allocateNumericTaskIds (localIds : List String)
    (existingTaskIds : List TaskId) : List (String × TaskId) :=
  localIds.zipIdx.map fun (localId, n) =>
    (localId, toString (highestNumericId existingTaskIds + 1 + n))

/-- A derived task before it has an id, with the artifact it comes from. -/
structure DerivedDraft where
  parsed : ParsedDerived
  path : RelPath
  sourceLink : Option String
  deriving DecidableEq, Repr

/-- Parse the selected artifacts: the drafts and the errors, in order. -/
def parseDerivedFiles (E : Env) (d : Data) (storage : StorageId)
    (outputRelative : RelPath) (sourceLinks : List ((String × RelPath) × String)) :
    List RelPath → List String → List ArtifactSubmission →
      List DerivedDraft × List DomainError
  | _, _, [] => ([], [])
  | seenPaths, localIds, artifact :: rest =>
      let location := some ("/".intercalate artifact.path)
      let duplicate := if artifact.path ∈ seenPaths then
        [(⟨"task.derived_duplicate_path", "Duplicate derived task artifact path", location⟩ :
          DomainError)] else []
      let parsed := match (d.storages storage).file? (outputRelative ++ artifact.path) with
        | none => Except.error (⟨"task.derived_source_unreadable",
            "Derived task source is not readable", location⟩ : DomainError)
        | some f => match E.parseDerived f.content with
          | .error text => .error ⟨"task.derived_invalid", text, location⟩
          | .ok parsed => .ok parsed
      match parsed with
      | .error e =>
          let (drafts, errors) := parseDerivedFiles E d storage outputRelative
            sourceLinks (artifact.path :: seenPaths) localIds rest
          (drafts, duplicate ++ e :: errors)
      | .ok parsed =>
          let known := if parsed.localId ∈ localIds then
            [(⟨"task.derived_duplicate_local_id",
              s!"Duplicate derived task local_id: {parsed.localId}",
              some parsed.localId⟩ : DomainError)] else []
          let (drafts, errors) := parseDerivedFiles E d storage outputRelative
            sourceLinks (artifact.path :: seenPaths) (parsed.localId :: localIds) rest
          (⟨parsed, artifact.path, sourceLinks.lookup (artifact.type, artifact.path)⟩ :: drafts,
            duplicate ++ known ++ errors)

/-- The errors of the references of one draft. -/
def derivedReferenceErrors (localIds : List String) (existing : List TaskId)
    (parsed : ParsedDerived) : List DomainError :=
  (if parsed.localId ∈ existing then
    [⟨"task.derived_existing_prerequisite_collision",
      s!"Derived local_id {parsed.localId} collides with an existing task; existing unfinished work must be reused, not duplicated.",
      some parsed.localId⟩] else []) ++
  parsed.dependencies.filterMap fun dep =>
    if dep = parsed.localId then some ⟨"task.derived_self_dependency",
      s!"Derived task {parsed.localId} must not depend on itself.", some parsed.localId⟩
    else if dep ∈ localIds then none
    else if dep ∈ existing then some ⟨"task.derived_existing_prerequisite_unrepresentable",
      s!"Derived task {parsed.localId} depends on existing unfinished task {dep}, but the derived-task format can only express dependencies on local batch IDs.",
      some parsed.localId⟩
    else some ⟨"task.derived_unknown_dependency",
      s!"Derived task {parsed.localId} references unknown local dependency: {dep}",
      some parsed.localId⟩

/-- The state of the cycle search. -/
structure CycleSearch where
  visited : List String := []
  errors : List DomainError := []

/-- `_visit` of `_derived_cycle_errors`. The stack holds the path from the
root of the search, last first; each descent adds a node to it, so the
number of nodes bounds the depth. -/
def visitDerived (deps : String → List String) (known : String → Bool) :
    Nat → List String → CycleSearch → String → CycleSearch
  | 0, _, s, _ => s
  | fuel + 1, stack, s, node =>
      let stack := node :: stack
      (deps node).foldl
        (fun s dep =>
          if !known dep then s
          else if dep ∈ stack then
            let cycle := (stack.takeWhile (· ≠ dep) ++ [dep]).reverse ++ [dep]
            { s with errors := s.errors ++ [⟨"task.derived_dependency_cycle",
              "Derived task dependency cycle detected: " ++ " -> ".intercalate cycle,
              some node⟩] }
          else if dep ∈ s.visited then s
          else visitDerived deps known fuel stack s dep)
        { s with visited := node :: s.visited }

/-- `_derived_cycle_errors`. -/
def derivedCycleErrors (drafts : List ParsedDerived) : List DomainError :=
  let localIds := drafts.map (·.localId)
  let deps := fun node =>
    ((drafts.reverse.find? fun p => p.localId = node).map (·.dependencies)).getD []
  (localIds.foldl
    (fun s node => if node ∈ s.visited then s
      else visitDerived deps (· ∈ localIds) (localIds.length + 1) [] s node)
    ({} : CycleSearch)).errors

/-- A planned child with the link its parent gets. -/
structure DerivedTask where
  task : Task
  link : String
  deriving DecidableEq, Repr

/-- The child of one draft under the allocated ids. -/
def derivedTask (derives : DerivesDefinition) (parentId : TaskId)
    (ids : List (String × TaskId)) (draft : DerivedDraft) : DerivedTask :=
  let taskId := (ids.lookup draft.parsed.localId).getD ""
  { task := {
      id := taskId
      title := draft.parsed.title
      currentState := derives.state
      taskType := derives.taskType
      dependencies := draft.parsed.dependencies.map fun dep => (ids.lookup dep).getD ""
      artifactLinks := draft.sourceLink.toList
      parentId := some parentId
      body := draft.parsed.body }
    link := s!"{taskId}-{slugify draft.parsed.title}" }

/-- `_derived_task_plan`: the whole batch, or its errors and no task. -/
def derivedTaskPlan (E : Env) (d : Data) (storage : StorageId)
    (outputRelative : RelPath) (transition : TransitionDefinition)
    (artifacts : List ArtifactSubmission) (parentId : TaskId)
    (existingTaskIds : List TaskId)
    (sourceLinks : List ((String × RelPath) × String)) :
    Except (List DomainError) (List DerivedTask) :=
  match transition.derives with
  | none => .ok []
  | some derives =>
      let selected := artifacts.filter fun a => a.type = derives.artifactType
      let (drafts, errors) :=
        parseDerivedFiles E d storage outputRelative sourceLinks [] [] selected
      if errors ≠ [] then .error errors
      else
        let localIds := drafts.map (·.parsed.localId)
        let errors := drafts.flatMap (fun draft =>
            derivedReferenceErrors localIds existingTaskIds draft.parsed) ++
          derivedCycleErrors (drafts.map (·.parsed))
        if errors ≠ [] then .error errors
        else
          let ids := allocateNumericTaskIds localIds existingTaskIds
          let planned := drafts.map (derivedTask derives parentId ids)
          let errors := planned.flatMap fun child => E.schemaErrors child.task
          if errors ≠ [] then .error errors else .ok planned

end OpenTulid
