/-
The project's contract file, as `contract.yaml` is read and checked.

# Values and errors

The file is read as UTF-8 and loaded by a YAML reader that is a parameter:
any value, or an exception. A check never stops the reading: it notes an
error, puts a default in the value's place and goes on, so a contract comes
out exactly where no error was noted. What is not noted is raised: bytes
that are no UTF-8, and a key whose text cannot be written.

# The language

`Python` holds what the checks use of it and nothing here computes: the text
of a key that is no string, the quoted text of a string, and which
characters count as digits.
-/
import OpenTulid.Domain
import OpenTulid.Lib.Doc
import OpenTulid.Lib.PosixPath
import Mathlib.Data.List.DropRight

namespace OpenTulid.Standard

open Doc (Value Scalar Entries)

-- =============================================================== the texts

/-- The names of all fields of the contract. -/
def fieldNames : List String :=
  ["schema", "runtime", "commands", "retry", "container_user", "opencode_config_home",
    "name", "argv", "working_directory", "timeout_seconds", "expect", "exit_code",
    "max_attempts", "visible_feedback", "feedback"]

/-- What the checks use of the language. -/
structure Python where
  /-- `str` of a key; it raises for an integer of too many digits -/
  str : Scalar → Option String
  /-- `repr` of a string -/
  repr : String → String
  /-- `str.isdigit` of a character -/
  isDigit : Char → Bool
  str_str : ∀ s, str (.str s) = some s
  /-- no number, date or tuple has the text of a field's name -/
  foreign : ∀ key text, str key = some text → text ∈ fieldNames → key = .str text
  ascii : ∀ c : Char, c.toNat < 128 → isDigit c = c.isDigit

/-- `str.isspace` of a character. -/
def isSpace (c : Char) : Bool :=
  let n := c.toNat
  (9 ≤ n && n ≤ 13) || (28 ≤ n && n ≤ 32) || n = 0x85 || n = 0xa0 || n = 0x1680 ||
    (0x2000 ≤ n && n ≤ 0x200a) || n = 0x2028 || n = 0x2029 || n = 0x202f || n = 0x205f ||
    n = 0x3000

/-- `str.strip`. -/
def strip (s : String) : String :=
  String.ofList ((s.toList.dropWhile isSpace).rdropWhile isSpace)

-- ============================================================ the contract

def contractSchema : String := "tulid.contract/v1"

/-- `SHELL_CONTROL_TOKENS` -/
def shellControlTokens : List String := ["|", "||", "&&", ";", ">", ">>", "<", "<<"]

structure CommandExpectation where
  exitCode : Int := 0
  deriving DecidableEq, Repr

structure ProjectCommand where
  name : String
  argv : List String
  workingDirectory : String := "."
  timeoutSeconds : Int := 300
  expect : CommandExpectation := {}
  deriving DecidableEq, Repr

structure StandardRuntime where
  containerUser : Option String
  opencodeConfigHome : String
  deriving DecidableEq, Repr

structure RetryPolicy where
  maxAttempts : Int := 3
  visibleFeedback : Bool := true
  deriving DecidableEq, Repr

structure StandardContract where
  schema : String
  runtime : StandardRuntime
  commands : List ProjectCommand
  retry : RetryPolicy
  deriving DecidableEq, Repr

structure StandardContractResult where
  contract : Option StandardContract := none
  errors : List DomainError := []
  deriving DecidableEq, Repr

variable (P : Python)

/-- `_reject_unknown_fields`. -/
def rejectUnknownFields (allowed : List String) (location : String) :
    Entries → Except Raised (List DomainError)
  | [] => .ok []
  | (key, _) :: rest =>
      match P.str key with
      | none => .error ⟨"Exceeds the limit (4300 digits) for integer string conversion"⟩
      | some text => do
          let errors ← rejectUnknownFields allowed location rest
          return if text ∈ allowed then errors
            else ⟨"contract.unknown_field", s!"Unknown project contract field: {text}",
              some s!"{location}.{text}"⟩ :: errors

-- ============================================================= the runtime

/-- The parts of a user: what stands between colons, where something does. -/
def userParts (user : String) : List String :=
  ((user.toList.splitOn ':').map String.ofList).filter (· ≠ "")

/-- `str.isdigit` -/
def isDigits (s : String) : Bool := s ≠ "" && s.toList.all P.isDigit

/-- The part of `_parse_runtime` about the user of the container. -/
def parseContainerUser (raw : Value) (location : String) : Option String × List DomainError :=
  match raw with
  | .scalar .null => (none, [])
  | .scalar (.str user) =>
      if strip user = "" then
        (none, [⟨"contract.container_user_invalid",
          "runtime.container_user must be a non-empty string.",
          some s!"{location}.container_user"⟩])
      else
        let parts := userParts (strip user)
        let uid := parts.headD ""
        if isDigits P uid ∧ ∀ gid ∈ parts[1]?, isDigits P gid then (some (strip user), [])
        else
          (none, [⟨"contract.container_user_invalid",
            "runtime.container_user must be a numeric uid[:gid], for example '1000:1000'.",
            some s!"{location}.container_user"⟩])
  | _ =>
      (none, [⟨"contract.container_user_invalid",
        "runtime.container_user must be a non-empty string.",
        some s!"{location}.container_user"⟩])

def defaultHome : String := ".open-tulid/home"

/-- The text of the config home, or the default in its place. -/
def configHomeText (raw : Value) (location : String) : String × List DomainError :=
  let invalid : DomainError :=
    ⟨"contract.opencode_config_home_invalid",
      "runtime.opencode_config_home must be a non-empty string.",
      some s!"{location}.opencode_config_home"⟩
  match raw with
  | .scalar .null => (defaultHome, [])
  | .scalar (.str home) => if strip home = "" then (defaultHome, [invalid]) else (strip home, [])
  | _ => (defaultHome, [invalid])

/-- The part of `_parse_runtime` about the config home. -/
def parseConfigHome (raw : Value) (location : String) : String × List DomainError :=
  let (home, invalid) := configHomeText raw location
  let forbidden : List DomainError :=
    if home ∈ [".", "", "opencode.json"] then
      [⟨"contract.opencode_config_home_forbidden",
        "OpenCode config home must never be the project root; place it under an excluded runtime directory.",
        some s!"{location}.opencode_config_home"⟩]
    else []
  let outside : List DomainError :=
    if PosixPath.isAbsolute home ∨ ∃ part ∈ PosixPath.parts home, part = "" ∨ part = "." then
      let quoted := P.repr home
      [⟨"contract.opencode_config_home_invalid",
        s!"runtime.opencode_config_home must be a workspace-relative path: {quoted}.",
        some s!"{location}.opencode_config_home"⟩]
    else []
  (home, invalid ++ forbidden ++ outside)

/-- `_parse_runtime`. -/
def parseRuntime (raw : Value) (path : String) :
    Except Raised (StandardRuntime × List DomainError) :=
  let location := s!"{path}:runtime"
  match raw with
  | .map fields => do
      let unknown ←
        rejectUnknownFields P ["container_user", "opencode_config_home"] location fields
      let (user, userErrors) := parseContainerUser P (Entries.get fields "container_user") location
      let (home, homeErrors) := parseConfigHome P (Entries.get fields "opencode_config_home") location
      return (⟨user, home⟩, unknown ++ userErrors ++ homeErrors)
  | _ =>
      .ok (⟨none, defaultHome⟩,
        [⟨"contract.runtime_invalid", "runtime must be a mapping.", some location⟩])

-- ============================================================ the commands

/-- The error of an entry of an argv that is no text. -/
def argvItemError (location : String) : Value × Nat → Option DomainError
  | (.scalar (.str text), index) =>
      if strip text = "" then
        some ⟨"contract.command_argv_item_invalid",
          s!"Contract command argv entry {index} must be a non-empty string.",
          some s!"{location}[{index}]"⟩
      else none
  | (_, index) =>
      some ⟨"contract.command_argv_item_invalid",
        s!"Contract command argv entry {index} must be a non-empty string.",
        some s!"{location}[{index}]"⟩

/-- The text of an entry of an argv. -/
def argvPart : Value → Option String
  | .scalar (.str text) => if strip text = "" then none else some (strip text)
  | _ => none

/-- `_parse_argv`. -/
def parseArgv (raw : Value) (location : String) : List String × List DomainError :=
  match raw with
  | .scalar .null =>
      ([], [⟨"contract.command_argv_missing",
        "Contract command requires a non-empty argv array.", some location⟩])
  | .list items =>
      let itemErrors := items.zipIdx.filterMap (argvItemError location)
      let parts := items.filterMap argvPart
      if parts = [] then
        ([], itemErrors ++ [⟨"contract.command_argv_empty",
          "Contract command requires a non-empty argv array.", some location⟩])
      else
        let controls := parts.filter (· ∈ shellControlTokens)
        if controls = [] then (parts, itemErrors)
        else
          let listed := ", ".intercalate controls
          (parts, itemErrors ++ [⟨"contract.command_shell_control",
            s!"Contract command cannot contain shell control tokens: {listed}.",
            some location⟩])
  | _ =>
      ([], [⟨"contract.command_argv_invalid",
        "Contract command argv must be a list of strings.", some location⟩])

/-- The part of `_parse_commands` about a command's name. -/
def parseName (raw : Value) (index : Nat) (location : String) : String × List DomainError :=
  let missing : DomainError :=
    ⟨"contract.command_name_missing", "Contract command requires a non-empty name.",
      some s!"{location}.name"⟩
  match raw with
  | .scalar (.str name) =>
      if strip name = "" then (s!"command_{index}", [missing]) else (strip name, [])
  | _ => (s!"command_{index}", [missing])

/-- The part of `_parse_commands` about a command's directory. -/
def parseWorkingDirectory (raw : Value) (name location : String) : String × List DomainError :=
  let quoted := P.repr name
  let invalid : DomainError :=
    ⟨"contract.command_working_directory_invalid",
      s!"Contract command {quoted}.working_directory must be a workspace-relative directory.",
      some s!"{location}.working_directory"⟩
  match raw with
  | .scalar (.str directory) =>
      if strip directory = "" ∨ PosixPath.isAbsolute directory ∨
          ".." ∈ PosixPath.parts directory then (".", [invalid])
      else (directory, [])
  | _ => (".", [invalid])

/-- The part of `_parse_commands` about a command's time limit. -/
def parseTimeout (raw : Value) (name location : String) : Int × List DomainError :=
  let quoted := P.repr name
  let invalid : DomainError :=
    ⟨"contract.command_timeout_invalid",
      s!"Contract command {quoted}.timeout_seconds must be an integer from 1 to 3600.",
      some s!"{location}.timeout_seconds"⟩
  match raw with
  | .scalar (.int n) => if 1 ≤ n ∧ n ≤ 3600 then (n, []) else (300, [invalid])
  | _ => (300, [invalid])

/-- The part of `_parse_commands` about what a command is expected to
answer. -/
def parseExpect (raw : Value) (name location : String) :
    Except Raised (CommandExpectation × List DomainError) :=
  let quoted := P.repr name
  match raw with
  | .scalar .null => .ok ({}, [])
  | .map fields => do
      let unknown ← rejectUnknownFields P ["exit_code"] s!"{location}.expect" fields
      match (Entries.get? fields "exit_code").getD (.int 0) with
      | .scalar (.int n) => return (⟨n⟩, unknown)
      | _ =>
          return ({}, unknown ++ [⟨"contract.command_exit_code_invalid",
            s!"Contract command {quoted}.expect.exit_code must be an integer.",
            some s!"{location}.expect.exit_code"⟩])
  | _ =>
      .ok ({}, [⟨"contract.command_expect_invalid",
        s!"Contract command {quoted}.expect must be a mapping.",
        some s!"{location}.expect"⟩])

/-- The names of the fields of a command. -/
def commandFields : List String :=
  ["name", "argv", "working_directory", "timeout_seconds", "expect"]

/-- One round of the loop of `_parse_commands`, over the names seen before. -/
def parseCommand (path : String) (index : Nat) (seen : List String) (fields : Entries) :
    Except Raised (ProjectCommand × List DomainError) := do
  let location := s!"{path}:commands[{index}]"
  let unknown ← rejectUnknownFields P commandFields location fields
  let (name, nameErrors) := parseName (Entries.get fields "name") index location
  let duplicate : List DomainError :=
    if name ∈ seen then
      [⟨"contract.command_name_duplicate",
        s!"Contract command name appears more than once: {name}", some s!"{location}.name"⟩]
    else []
  let (argv, argvErrors) := parseArgv (Entries.get fields "argv") s!"{location}.argv"
  let (directory, directoryErrors) :=
    parseWorkingDirectory P ((Entries.get? fields "working_directory").getD (.str ".")) name location
  let (timeout, timeoutErrors) :=
    parseTimeout P ((Entries.get? fields "timeout_seconds").getD (.int 300)) name location
  let (expect, expectErrors) ← parseExpect P (Entries.get fields "expect") name location
  return (⟨name, argv, directory, timeout, expect⟩,
    unknown ++ nameErrors ++ duplicate ++ argvErrors ++ directoryErrors ++ timeoutErrors ++
      expectErrors)

/-- The loop of `_parse_commands`. -/
def parseCommandsFrom (path : String) (index : Nat) (seen : List String) :
    List Value → Except Raised (List ProjectCommand × List DomainError)
  | [] => .ok ([], [])
  | .map fields :: rest => do
      let (command, errors) ← parseCommand P path index seen fields
      let (commands, more) ←
        parseCommandsFrom path (index + 1) (command.name :: seen) rest
      return (command :: commands, errors ++ more)
  | _ :: rest => do
      let (commands, more) ← parseCommandsFrom path (index + 1) seen rest
      return (commands, ⟨"contract.command_invalid",
        "Each contract command must be a mapping.", some s!"{path}:commands[{index}]"⟩ :: more)

/-- `_parse_commands`. -/
def parseCommands (raw : Value) (path : String) :
    Except Raised (List ProjectCommand × List DomainError) :=
  let location := s!"{path}:commands"
  match raw with
  | .scalar .null =>
      .ok ([], [⟨"contract.commands_missing",
        "Project contract requires a non-empty commands list.", some location⟩])
  | .list (item :: items) => parseCommandsFrom P path 0 [] (item :: items)
  | _ =>
      .ok ([], [⟨"contract.commands_invalid",
        "commands must be a non-empty list of command definitions.", some location⟩])

-- ============================================================== the retries

/-- `_parse_retry`. -/
def parseRetry (raw : Value) (path : String) :
    Except Raised (RetryPolicy × List DomainError) :=
  let location := s!"{path}:retry"
  match raw with
  | .scalar .null => .ok ({}, [])
  | .map fields => do
      let unknown ←
        rejectUnknownFields P ["max_attempts", "visible_feedback", "feedback"] location fields
      let (attempts, attemptsErrors) : Int × List DomainError :=
        match (Entries.get? fields "max_attempts").getD (.int 3) with
        | .scalar (.int n) =>
            if 0 ≤ n then (n, [])
            else (3, [⟨"contract.retry_max_attempts_invalid",
              "retry.max_attempts must be a non-negative integer.",
              some s!"{location}.max_attempts"⟩])
        | _ => (3, [⟨"contract.retry_max_attempts_invalid",
            "retry.max_attempts must be a non-negative integer.",
            some s!"{location}.max_attempts"⟩])
      let (feedback, feedbackErrors) : Bool × List DomainError :=
        match (Entries.get? fields "visible_feedback").getD
            ((Entries.get? fields "feedback").getD (.bool true)) with
        | .scalar (.bool b) => (b, [])
        | _ => (true, [⟨"contract.retry_feedback_invalid",
            "retry.visible_feedback must be a boolean.",
            some s!"{location}.visible_feedback"⟩])
      return (⟨attempts, feedback⟩, unknown ++ attemptsErrors ++ feedbackErrors)
  | _ =>
      .ok ({}, [⟨"contract.retry_invalid", "retry must be a mapping.", some location⟩])

-- ================================================================ the file

/-- The check of the contract's schema. -/
def checkSchema (raw : Value) (path : String) : List DomainError :=
  if raw = .str contractSchema then []
  else
    let quoted := P.repr contractSchema
    [⟨"contract.unsupported_schema", s!"Project contract requires schema {quoted}.",
      some s!"{path}:schema"⟩]

/-- What is made of a mapping. -/
def parseContract (path : String) (fields : Entries) : Except Raised StandardContractResult := do
  let unknown ←
    rejectUnknownFields P ["schema", "runtime", "commands", "retry"] path fields
  let schemaErrors := checkSchema P (Entries.get fields "schema") path
  let (runtime, runtimeErrors) ←
    parseRuntime P ((Entries.get? fields "runtime").getD (.map [])) path
  let (commands, commandsErrors) ← parseCommands P (Entries.get fields "commands") path
  let (retry, retryErrors) ← parseRetry P (Entries.get fields "retry") path
  let errors := unknown ++ schemaErrors ++ runtimeErrors ++ commandsErrors ++ retryErrors
  return if errors = [] then
      { contract := some ⟨contractSchema, runtime, commands, retry⟩ }
    else { errors := errors }

/-- What is found under the contract's path. -/
inductive ContractFile where
  | missing
  /-- reading fails with an `OSError` -/
  | unreadable (text : String)
  | bytes (content : ByteArray)

/-- `load_standard_contract`, over a reader of YAML. -/
def loadStandardContract (yaml : String → Except String Value) (path : String) :
    ContractFile → Except Raised StandardContractResult
  | .missing => .ok {}
  | .unreadable text =>
      .ok { errors := [⟨"contract.read_failed", s!"Cannot read the project contract: {text}",
        some path⟩] }
  | .bytes content =>
      match String.fromUTF8? content with
      -- only an `OSError` is caught around the reading
      | none => .error ⟨"'utf-8' codec can't decode"⟩
      | some text =>
          match yaml text with
          | .error text =>
              .ok { errors := [⟨"contract.invalid_yaml",
                s!"Project contract is not valid YAML: {text}", some path⟩] }
          | .ok (.scalar .null) =>
              .ok { errors := [⟨"contract.empty", "Project contract is empty.", some path⟩] }
          | .ok (.map fields) => parseContract P path fields
          | .ok _ =>
              .ok { errors := [⟨"contract.invalid_shape",
                "Project contract must be a YAML mapping.", some path⟩] }

end OpenTulid.Standard
