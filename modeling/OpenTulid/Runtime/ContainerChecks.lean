/-
The executor that runs the commands of a contract in containers.

`execute` is `ContainerCommandExecutor.execute`, branch by branch: a command
without a usable directory or an image is not run, and the exit codes that the
container engine uses for its own failures are never results of the command.
What the engine does with a request is the function `ContainerHost.run`.

`callable` are the argument vectors that the shell of the container runs as they
are.
-/
import OpenTulid.Lib.Shell
import OpenTulid.Runtime.Prompts
import OpenTulid.Runtime.Verifier

namespace OpenTulid.Verify

open Frozen.Prompt (shellJoin isShellSafe joined splitlines)

-- ================================================================ containers

/-- `AgentRunRequest`, as far as the executor fills it in. -/
structure AgentRunRequest where
  image : String
  args : List String
  entrypoint : List String
  env : List (String × String)
  workdir : String
  mountContainerPath : String
  timeoutSeconds : Int
  deriving DecidableEq

/-- `AgentRunResult`, as far as it is read. -/
structure AgentRunResult where
  returncode : Int
  stdout : String
  stderr : String
  deriving DecidableEq

/-- `VerificationEnvironment`, as far as the executor reads it. -/
structure VerificationEnvironment where
  projectImageIdentity : Option String
  containerWorkspace : String

/-- The container engine, and the directories of the verification copy. -/
structure ContainerHost (W : Type) where
  /-- `resolve_working_directory` finds a directory -/
  usable : String → W → Bool
  /-- `run_agent_container` -/
  run : AgentRunRequest → W → AgentRunResult × W
  /-- `_terminate_container` -/
  terminate : W → W

section Execute

variable {W : Type} (repr : String → String) (env : VerificationEnvironment)
  (host : ContainerHost W)

/-- `value or other` of texts. -/
def orText (value other : String) : String := if value = "" then other else value

/-- `_container_failure_detail` -/
def containerFailureDetail (checkId : String) (expected : Int) (result : AgentRunResult) :
    String :=
  let lines := splitlines (Frozen.Prompt.strip (result.stdout.toList ++ '\n' :: result.stderr.toList))
  let tail := lines.drop (lines.length - 5)
  let evidence := if tail = [] then "no output".toList else joined " " (tail.map Frozen.Prompt.strip)
  "Verification command " ++ repr checkId ++ " failed (exit code " ++ toString result.returncode ++
    " (expected " ++ toString expected ++ "); " ++ toString tail.length ++
    " output line(s) captured: " ++ String.ofList (evidence.take 400) ++ ")"

/-- The directory in the container. -/
def containerCwd (command : VerificationCommand) : String :=
  let parts := if command.workingDirectory = "" ∨ command.workingDirectory = "." then []
    else PosixPath.parts command.workingDirectory
  String.ofList (joined "/" ((env.containerWorkspace.toList.rdropWhile (· = '/')) ::
    parts.map String.toList))

/-- The request for a command. -/
def requestOf (image : String) (command : VerificationCommand) : AgentRunRequest where
  image := image
  args := ["-c", String.ofList (shellJoin command.argv)]
  entrypoint := ["/bin/sh"]
  env := [("OPEN_TULID_VERIFICATION", "1")]
  workdir := containerCwd env command
  mountContainerPath := env.containerWorkspace
  timeoutSeconds := command.timeoutSeconds

/-- The result of a command. -/
def checkResult (command : VerificationCommand) (status : String) (exitCode : Option Int)
    (stdout stderr : String) : VerificationCheckResult where
  id := command.name
  status := status
  argv := command.argv
  exitCode := exitCode
  stdout := stdout
  stderr := stderr
  workingDirectory := command.workingDirectory
  timeoutSeconds := command.timeoutSeconds
  expectedExitCode := command.expectedExitCode

/-- What a result of the engine is read as. -/
def outcomeOf (command : VerificationCommand) (result : AgentRunResult) : CommandExecutionOutcome :=
  if result.returncode = 124 then
    ⟨checkResult command "timeout" none result.stdout
        (orText result.stderr ("Verification container for " ++ repr command.name ++
          " timed out after " ++ toString command.timeoutSeconds ++ "s")),
      some ⟨"verification.check_timeout",
        "Verification command " ++ repr command.name ++ " timed out after " ++
          toString command.timeoutSeconds ++ "s; the container was terminated.",
        some command.name⟩⟩
  else if result.returncode ∈ ([125, 126, 127] : List Int) then
    ⟨checkResult command "environment_error" none "" (orText result.stderr result.stdout),
      some ⟨"verification.env_image_unavailable",
        "Verification cannot start container for " ++ repr command.name ++ ": " ++
          orText (orText result.stderr result.stdout) "container environment unavailable",
        some command.name⟩⟩
  else if result.returncode = command.expectedExitCode then
    ⟨checkResult command verificationPassed (some result.returncode) result.stdout
      result.stderr, none⟩
  else
    ⟨checkResult command "failed" (some result.returncode) result.stdout result.stderr,
      some ⟨"verification.check_failed",
        containerFailureDetail repr command.name command.expectedExitCode result,
        some command.name⟩⟩

/-- `ContainerCommandExecutor.execute`; a container that timed out is terminated. -/
def execute (command : VerificationCommand) (w : W) : CommandExecutionOutcome × W :=
  if !host.usable command.workingDirectory w then
    (⟨checkResult command "environment_error" none "" "working directory unavailable",
      some ⟨"verification.check_environment",
        "Verification command " ++ repr command.name ++ " has no usable working directory: " ++
          repr command.workingDirectory ++ ".", some command.name⟩⟩, w)
  else match env.projectImageIdentity with
    | none =>
        (⟨checkResult command "environment_error" none "" "no resolved project image for verification",
          some ⟨"verification.env_image_unavailable",
            "Verification cannot run in a container: no resolved project image identity is " ++
              "configured for " ++ repr command.name ++ ".", some command.name⟩⟩, w)
    | some image =>
        let answer := host.run (requestOf env image command) w
        (outcomeOf repr command answer.1,
          if answer.1.returncode = 124 then host.terminate answer.2 else answer.2)

theorem outcomeOf_named (command : VerificationCommand) (result : AgentRunResult) :
    (outcomeOf repr command result).check.id = command.name := by
  unfold outcomeOf
  split
  next => rfl
  next =>
    split
    next => rfl
    next =>
      split
      next => rfl
      next => rfl

theorem execute_named (command : VerificationCommand) (w : W) :
    (execute repr env host command w).1.check.id = command.name := by
  unfold execute
  split
  next => rfl
  next =>
    split
    next => rfl
    next => exact outcomeOf_named repr command _

/-- `ContainerCommandExecutor` -/
def containerExecutor : Executor W where
  execute := execute repr env host
  named := execute_named repr env host

end Execute

-- ================================================================== callable

/-- The shell of the container runs an argument vector as it is: its first word
is no option, no reserved word and no assignment, unless it has to be quoted. -/
def callable : List String → Bool
  | [] => false
  | first :: _ =>
      let text := first.toList
      !text.all isShellSafe ||
        !(Shell.isReserved (text.map (·, false)) || Shell.isAssignment (text.map (·, false)) ||
          text.head? = some '-' || text.head? = some '+')

end OpenTulid.Verify
