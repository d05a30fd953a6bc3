/-
Loading a project's workflow through the process's cache.

# The cache

An entry of the cache is kept under the path of the workflow file, links
followed, and answers every later load of that path as long as the file has
the same bytes. What an entry holds comes from the bytes and from a look at
the agents folder beside the file.

# Histories

A `CacheState` is the process with the files its loads depend on: where the
project's `workflow.yaml` leads, the workflow files, the agents folders, and
the cache. `checked` remembers the agents folder each entry was made from; no
load reads it.

Reading bytes as UTF-8 and as YAML are parameters (`Frontend`).
-/
import OpenTulid.Engine.Compiler
import OpenTulid.Runtime.Instructions

namespace OpenTulid.Engine

open Doc

/-- The UTF-8 decoder and `parse_yaml`, with the diagnostics of the latter. -/
structure Frontend where
  decode : Content → Option String
  parseYaml : String → List Diagnostic × Value

/-- `WorkflowLoadResult`. -/
structure WorkflowLoadResult where
  definition : Option CompiledWorkflow
  diagnostics : List Diagnostic
  deriving DecidableEq

/-- `valid`. -/
def WorkflowLoadResult.valid (r : WorkflowLoadResult) : Bool :=
  r.definition.isSome && noErrors r.diagnostics

/-- The references of a definition: those of its workers, task types and
transitions. -/
def CompiledWorkflow.instructionRefs (w : CompiledWorkflow) : List String :=
  w.workers.values.flatMap (·.instructions) ++ w.taskTypes.values.flatMap (·.instructions) ++
    w.transitions.values.flatMap (·.instructions)

/-- What is wrong with a reference at load time. -/
def instructionDiagnostic (agents : AgentFolder) (ref : String) : List Diagnostic :=
  if leavesAgents ref then [⟨"instructions.invalid_ref",
    s!"Instruction reference must stay inside agents/: {ref}", .error⟩]
  else if (agents.matchesOf ref).length ≠ 1 then [⟨"instructions.not_found",
    s!"Instruction reference must resolve to exactly one agents/*.agent.md file: {ref}", .error⟩]
  else []

/-- `_instruction_diagnostics`. -/
def instructionDiagnostics (w : CompiledWorkflow) (agents : AgentFolder) : List Diagnostic :=
  (w.instructionRefs.dedup.insertionSort (· ≤ ·)).flatMap (instructionDiagnostic agents)

/-- A failed load. -/
def loadFailed (message : String) : WorkflowLoadResult :=
  ⟨none, [⟨"workflow.load.failed", message, .error⟩]⟩

/-- What a load makes of the bytes alone. -/
def compiledResult (F : Frontend) (source : Content) : WorkflowLoadResult :=
  match F.decode source with
  | none => loadFailed "Workflow file is not valid UTF-8"
  | some text =>
      let parsed := F.parseYaml text
      if parsed.1 ≠ [] then ⟨none, parsed.1⟩
      else match buildAst parsed.2 with
      | ([], some document) =>
          if noErrors (validate document) then
            let compiled := compileWorkflow builtinRegistries document
            ⟨compiled.2, compiled.1⟩
          else ⟨none, validate document⟩
      | (diags, _) => ⟨none, diags⟩

/-- `load_workflow_definition` behind the cache: the references of a
definition are looked up beside it. -/
def freshResult (F : Frontend) (source : Content) (agents : AgentFolder) : WorkflowLoadResult :=
  let compiled := compiledResult F source
  { compiled with diagnostics := compiled.diagnostics ++
      compiled.definition.toList.flatMap fun w => instructionDiagnostics w agents }

-- ============================================================== histories

/-- Where a workflow file really lies: its folder and its name. -/
structure WorkflowPath where
  folder : String
  name : String
  deriving DecidableEq, Repr

/-- `_CachedWorkflow`. -/
structure CachedWorkflow where
  fingerprint : Digest
  result : WorkflowLoadResult
  deriving DecidableEq

/-- The process and the files. -/
structure CacheState where
  /-- where the project's workflow file leads -/
  workflowPath : WorkflowPath
  sources : WorkflowPath → Option Content
  agents : String → AgentFolder
  cache : WorkflowPath → Option CachedWorkflow
  /-- the agents folder an entry was made from -/
  checked : WorkflowPath → AgentFolder

/-- An edit of the files, or a load. -/
inductive CacheStep where
  /-- `workflow.yaml` becomes a link, or a file of its own again -/
  | relink (path : WorkflowPath)
  /-- a workflow file is written or removed -/
  | write (path : WorkflowPath) (source : Option Content)
  /-- an agents folder changes -/
  | editAgents (folder : String) (agents : AgentFolder)
  | load

namespace CacheState

/-- The agents folder beside the workflow file. -/
def agentsBeside (s : CacheState) : AgentFolder := s.agents s.workflowPath.folder

/-- `load_workflow_definition`: the answer, and the process after it. -/
def load (F : Frontend) (s : CacheState) : WorkflowLoadResult × CacheState :=
  match s.sources s.workflowPath with
  | none => (loadFailed "Cannot read workflow file", s)
  | some source =>
      match (s.cache s.workflowPath).filter (·.fingerprint = sha256 source) with
      | some cached => (cached.result, s)
      | none =>
          let result := freshResult F source s.agentsBeside
          (result, { s with
            cache := Function.update s.cache s.workflowPath (some ⟨sha256 source, result⟩)
            checked := Function.update s.checked s.workflowPath s.agentsBeside })

/-- The same files under an empty cache. -/
def emptied (s : CacheState) : CacheState := { s with cache := fun _ => none }

/-- One step. -/
def step (F : Frontend) (s : CacheState) : CacheStep → CacheState
  | .relink path => { s with workflowPath := path }
  | .write path source => { s with sources := Function.update s.sources path source }
  | .editAgents folder agents => { s with agents := Function.update s.agents folder agents }
  | .load => (s.load F).2

/-- The states in which a history loads. -/
def loadStates (F : Frontend) (s : CacheState) : List CacheStep → List CacheState
  | [] => []
  | .load :: rest => s :: (s.step F .load).loadStates F rest
  | edit :: rest => (s.step F edit).loadStates F rest

end CacheState

end OpenTulid.Engine
