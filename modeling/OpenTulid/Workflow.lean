/-
The compiled workflow, and what a task's state and type mean under it.

Declared terminal outcomes are one of three: the compiler refuses any other
spelling. The `review` a transition was compiled with (`Domain`) is the
verdict of `is_review_transition`; `declaredReview` keeps whether it was
declared.
-/
import OpenTulid.World

namespace OpenTulid

/-- What reaching a state means to the tasks that depend on it. -/
inductive TerminalOutcome where
  | success
  | failure
  | cancelled
  deriving DecidableEq, Repr

/-- The spelling of an outcome. -/
def TerminalOutcome.value : TerminalOutcome → String
  | .success => "success"
  | .failure => "failure"
  | .cancelled => "cancelled"

/-- A state of the workflow. -/
structure StateDefinition where
  id : String
  terminalOutcome : Option TerminalOutcome := none
  deriving DecidableEq, Repr

/-- A transition with what the scheduler and the context read of it. -/
structure WorkflowTransition extends TransitionDefinition where
  requiredArtifacts : List String := []
  defaultForScheduler : Bool := false
  declaredReview : Bool := false
  deriving DecidableEq, Repr

/-- A compiled workflow. -/
structure WorkflowDefinition where
  states : Store String StateDefinition
  taskTypes : List String
  transitions : Store String WorkflowTransition
  deriving DecidableEq

namespace WorkflowDefinition

/-- `terminal_outcome_of`. -/
def terminalOutcomeOf (w : WorkflowDefinition) (state : String) : Option TerminalOutcome :=
  (w.states.get state).bind (·.terminalOutcome)

/-- `has_outgoing_transition`. -/
def hasOutgoingTransition (w : WorkflowDefinition) (taskType state : String) : Bool :=
  w.transitions.values.any fun t => t.taskType = taskType && t.fromState = state

end WorkflowDefinition

/-- What the state of a dependency says. -/
inductive DependencyOutcome where
  /-- it still has a transition to take -/
  | unmet
  /-- it ended without a declared outcome -/
  | ambiguous
  | declared (outcome : TerminalOutcome)
  deriving DecidableEq, Repr

namespace WorkflowDefinition

/-- `dependency_outcome`. -/
def dependencyOutcome (w : WorkflowDefinition) (taskType state : String) :
    DependencyOutcome :=
  if w.hasOutgoingTransition taskType state then .unmet
  else match w.terminalOutcomeOf state with
    | none => .ambiguous
    | some outcome => .declared outcome

/-- `task_uses_global_contract`. -/
def usesGlobalContract (w : WorkflowDefinition) (task : Task) : Bool :=
  task.taskType ∈ w.taskTypes &&
    (task.taskType = "ImplementationTask" ||
      w.transitions.values.any fun t => t.taskType = task.taskType && t.declaredReview)

/-- The transitions a worker can take a task through. -/
def eligibleTransitions (w : WorkflowDefinition) (task : Task) : List WorkflowTransition :=
  w.transitions.values.filter fun t =>
    t.taskType = task.taskType && t.fromState = task.currentState && t.worker.isSome

end WorkflowDefinition

/-- `select_scheduler_transition`. -/
def selectSchedulerTransition (task : Task) (w : WorkflowDefinition) :
    Except DomainError WorkflowTransition :=
  match w.eligibleTransitions task with
  | [] => .error ⟨"scheduler.no_transition",
      s!"Task {task.id} has no scheduler-eligible transition from state {task.currentState}.",
      some task.id⟩
  | [transition] => .ok transition
  | transitions =>
      match transitions.filter (·.defaultForScheduler) with
      | [transition] => .ok transition
      | _ => .error ⟨"scheduler.ambiguous_transition",
          s!"Task {task.id} has multiple scheduler-eligible transitions from state {task.currentState}.",
          some task.id⟩

end OpenTulid
