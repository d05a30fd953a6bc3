/-
What a verification in containers accepts.

The text that a command is passed to the shell as is read back as the argument
vector of the command (`invoked_shellJoin`), exactly for the vectors of
`callable`. So the shell runs the program of the contract, and the commands of a
contract pass if each program in turn returns the exit code that the contract
expects (`Accepts`), unless that code is one that the engine keeps for itself.
-/
import Mathlib
import OpenTulid.Proofs.Verifier
import OpenTulid.Runtime.ContainerChecks

namespace OpenTulid.Verify

open Frozen.Prompt (shellJoin shellQuote isShellSafe joined)

-- ============================================================ the text read back

/-- A word as the shell reads it. -/
def wordOf (text : String) : Shell.Word :=
  text.toList.map (·, !text.toList.all isShellSafe)

theorem not_special {c : Char} (h : isShellSafe c = true) :
    Shell.isSpecial c = false ∧ c ≠ ' ' ∧ c ≠ '\t' ∧ c ≠ '\'' ∧ c ≠ '"' := by
  have hother : ∀ d, isShellSafe d = false → c ≠ d := by
    rintro d hd rfl
    rw [h] at hd
    cases hd
  have hall : ("|&;<>()$`\\\n\r*?[]#~!^\x7b\x7d".toList.all fun d => !isShellSafe d) = true := by rfl
  refine ⟨?_, hother _ rfl, hother _ rfl, hother _ rfl, hother _ rfl⟩
  rw [← Bool.not_eq_true]
  intro hspecial
  have hmem := List.all_eq_true.mp hall c (of_decide_eq_true hspecial)
  rw [h] at hmem
  cases hmem

/-- A quoted word is read back. -/
theorem words_shellQuote {text : String} {rest : List Char} :
    Shell.words .bare none (shellQuote text ++ rest) =
      Shell.words .bare (some (wordOf text)) rest := by
  unfold shellQuote wordOf
  by_cases hempty : text = ""
  · rw [if_pos hempty, hempty]
    rfl
  · rw [if_neg hempty]
    by_cases hsafe : text.toList.all isShellSafe = true
    · rw [if_pos hsafe, hsafe]
      have hchars := fun c hc => not_special (List.all_eq_true.mp hsafe c hc)
      cases hlist : text.toList with
      | nil => exact absurd (String.toList_eq_nil_iff.mp hlist) hempty
      | cons c more =>
          rw [hlist] at hchars
          obtain ⟨hspecial, hblank, htab, hsingle, hdouble⟩ := hchars c List.mem_cons_self
          have hspecial' : ¬ Shell.isSpecial c = true := by simp [hspecial]
          rw [List.cons_append, Shell.words, if_neg (not_or.mpr ⟨hblank, htab⟩), if_neg hsingle,
            if_neg hdouble, if_neg hspecial']
          exact Shell.words_bare fun d hd => hchars d (List.mem_cons_of_mem _ hd)
    · rw [if_neg hsafe]
      rw [Bool.not_eq_true] at hsafe
      rw [hsafe, List.append_assoc, List.cons_append]
      exact Shell.words_quoted

/-- All words are read back. -/
theorem words_shellJoin {first : String} {argv : List String} :
    Shell.words .bare none (shellJoin (first :: argv)) = some ((first :: argv).map wordOf) := by
  have hrest : ∀ word, Shell.words .bare (some word)
      ((argv.map shellQuote).flatMap (" ".toList ++ ·)) = some (word :: argv.map wordOf) := by
    induction argv with
    | nil =>
        intro word
        rfl
    | cons text argv ih =>
        intro word
        show Shell.words .bare (some word)
          (' ' :: (shellQuote text ++ (argv.map shellQuote).flatMap (" ".toList ++ ·))) = _
        rw [Shell.words, if_pos (.inl rfl), words_shellQuote, ih]
        rfl
  unfold shellJoin
  rw [List.map_cons, joined, words_shellQuote, hrest]
  rfl

/-- A text is no option if it was quoted. -/
theorem head_shellJoin {first : String} {argv : List String} :
    (shellJoin (first :: argv)).head? =
      if first.toList.all isShellSafe = true ∧ first ≠ "" then first.toList.head? else some '\'' := by
  have hquote : ∀ more, (shellQuote first ++ more).head? =
      if first.toList.all isShellSafe = true ∧ first ≠ "" then first.toList.head?
      else some '\'' := by
    intro more
    unfold shellQuote
    by_cases hempty : first = ""
    · rw [if_pos hempty, if_neg fun h => h.2 hempty]
      rfl
    · rw [if_neg hempty]
      by_cases hsafe : first.toList.all isShellSafe = true
      · rw [if_pos hsafe, if_pos ⟨hsafe, hempty⟩]
        cases hlist : first.toList with
        | nil => exact absurd (String.toList_eq_nil_iff.mp hlist) hempty
        | cons c rest => rfl
      · rw [if_neg hsafe, if_neg fun h => hsafe h.1]
        rfl
  unfold shellJoin
  rw [List.map_cons, joined, hquote]

/-- The shell runs exactly the callable vectors as they are. -/
theorem invoked_shellJoin {argv : List String} :
    Shell.invoked (shellJoin argv) = some (argv.map String.toList) ↔ callable argv = true := by
  cases argv with
  | nil => exact iff_of_false (by decide) (by decide)
  | cons first argv =>
      have htexts : ((first :: argv).map wordOf).map Shell.Word.text =
          (first :: argv).map String.toList := by
        rw [List.map_map]
        refine List.map_congr_left fun text _ => ?_
        exact Shell.text_marked
      have hhead := @head_shellJoin first argv
      unfold Shell.invoked callable
      dsimp only
      rw [words_shellJoin, ← htexts, Option.bind_some, List.map_cons, Shell.simple]
      by_cases hsafe : first.toList.all isShellSafe = true
      · by_cases hempty : first = ""
        · rw [hempty] at hhead ⊢
          rw [hhead]
          refine iff_of_true ?_ (by decide)
          rw [if_neg (by decide), if_neg (by decide)]
        · have hword : wordOf first = first.toList.map (·, false) := by
            unfold wordOf
            rw [hsafe]
            rfl
          rw [if_pos ⟨hsafe, hempty⟩] at hhead
          rw [hhead, hword, hsafe]
          by_cases hoption : first.toList.head? = some '-' ∨ first.toList.head? = some '+'
          · rw [if_pos hoption]
            refine iff_of_false (by simp) ?_
            rcases hoption with hminus | hplus
            · simp [hminus]
            · simp [hplus]
          · rw [if_neg hoption]
            rw [not_or] at hoption
            by_cases hplain : (Shell.isReserved (first.toList.map (·, false)) ||
                Shell.isAssignment (first.toList.map (·, false))) = true
            · rw [if_pos hplain, hplain]
              simp
            · rw [if_neg hplain]
              rw [Bool.not_eq_true] at hplain
              rw [hplain]
              simp [hoption.1, hoption.2]
      · have hne : first.toList ≠ [] := by
          intro hnil
          rw [hnil] at hsafe
          exact hsafe rfl
        have hword : wordOf first = first.toList.map (·, true) := by
          unfold wordOf
          rw [Bool.not_eq_true] at hsafe
          rw [hsafe]
          rfl
        rw [if_neg fun h => hsafe h.1] at hhead
        rw [hhead, hword, Shell.isReserved_quoted hne, Shell.isAssignment_quoted]
        rw [Bool.not_eq_true] at hsafe
        rw [hsafe]
        refine iff_of_true ?_ rfl
        rw [if_neg (by decide), if_neg (by decide)]

-- ============================================================== verification

section Checks

variable {W : Type} (m : Machine W) (repr : String → String) (env : VerificationEnvironment)
  (host : ContainerHost W)
  (program : String → String → List String → W → AgentRunResult × W)

/-- The shell of the container executes what a text invokes: `program` is the
engine with an image, a directory and an argument vector. -/
def ShellRuns : Prop :=
  ∀ (request : AgentRunRequest) (text : String) (argv : List String) (w : W),
    request.entrypoint = ["/bin/sh"] → request.args = ["-c", text] →
      Shell.invoked text.toList = some (argv.map String.toList) →
        host.run request w = program request.image request.workdir argv w

/-- The exit codes that a result is never read from. -/
def engineCodes : List Int := [124, 125, 126, 127]

/-- The state that a command and its logs leave. -/
def afterCommand (image : String) (index : Nat) (command : VerificationCommand) (w : W) : W :=
  let (result, after) := program image (containerCwd env command) command.argv w
  m.writeLog (logName index "stderr") result.stderr
    (m.writeLog (logName index "stdout") result.stdout after)

/-- Each program in turn returns what is expected of it. -/
def Accepts (image : String) : Nat → List VerificationCommand → W → Prop
  | _, [], _ => True
  | index, command :: rest, w =>
      host.usable command.workingDirectory w = true ∧
        (program image (containerCwd env command) command.argv w).1.returncode =
          command.expectedExitCode ∧
        command.expectedExitCode ∉ engineCodes ∧
        Accepts image (index + 1) rest (afterCommand m env program image index command w)

variable {m repr env host program}

/-- An outcome has no error if the code is the expected one and not one that the
engine keeps for itself; the outputs are then those of the run. -/
theorem outcomeOf_passes (repr : String → String) (command : VerificationCommand)
    (answer : AgentRunResult) :
    ((outcomeOf repr command answer).error = none ↔
      answer.returncode = command.expectedExitCode ∧
        command.expectedExitCode ∉ engineCodes) ∧
    ((outcomeOf repr command answer).error = none →
      answer.returncode ≠ 124 ∧ (outcomeOf repr command answer).check.stdout = answer.stdout ∧
        (outcomeOf repr command answer).check.stderr = answer.stderr) := by
  unfold outcomeOf
  by_cases htimeout : answer.returncode = 124
  · rw [if_pos htimeout]
    refine ⟨iff_of_false (by simp) ?_, by simp⟩
    rintro ⟨hcode, hengine⟩
    rw [← hcode, htimeout] at hengine
    exact hengine (by decide)
  · rw [if_neg htimeout]
    by_cases hengine : answer.returncode ∈ ([125, 126, 127] : List Int)
    · rw [if_pos hengine]
      refine ⟨iff_of_false (by simp) ?_, by simp⟩
      rintro ⟨hcode, hother⟩
      rw [← hcode] at hother
      exact hother (List.mem_cons_of_mem _ hengine)
    · rw [if_neg hengine]
      by_cases hcode : answer.returncode = command.expectedExitCode
      · rw [if_pos hcode]
        refine ⟨iff_of_true rfl ⟨hcode, ?_⟩, fun _ => ⟨htimeout, rfl, rfl⟩⟩
        rw [← hcode]
        intro hin
        rcases List.mem_cons.mp hin with hfirst | hlater
        · exact htimeout hfirst
        · exact hengine hlater
      · rw [if_neg hcode]
        refine ⟨iff_of_false (by simp) ?_, by simp⟩
        rintro ⟨hsame, -⟩
        exact hcode hsame

/-- One command: it passes if the program returns what is expected, and then its
output and the state are those of the program. -/
theorem execute_passes {image : String} {command : VerificationCommand} {w : W}
    (hshell : ShellRuns host program) (himage : env.projectImageIdentity = some image)
    (hcall : callable command.argv = true) :
    ((execute repr env host command w).1.error = none ↔
      host.usable command.workingDirectory w = true ∧
        (program image (containerCwd env command) command.argv w).1.returncode =
          command.expectedExitCode ∧ command.expectedExitCode ∉ engineCodes) ∧
    ((execute repr env host command w).1.error = none →
      (execute repr env host command w).2 =
          (program image (containerCwd env command) command.argv w).2 ∧
        (execute repr env host command w).1.check.stdout =
          (program image (containerCwd env command) command.argv w).1.stdout ∧
        (execute repr env host command w).1.check.stderr =
          (program image (containerCwd env command) command.argv w).1.stderr) := by
  have hrun : host.run (requestOf env image command) w =
      program image (containerCwd env command) command.argv w := by
    refine hshell _ _ _ _ rfl rfl ?_
    rw [String.toList_ofList]
    exact invoked_shellJoin.mpr hcall
  by_cases husable : host.usable command.workingDirectory w = true
  · have hexecute : execute repr env host command w =
        (outcomeOf repr command (program image (containerCwd env command) command.argv w).1,
          if (program image (containerCwd env command) command.argv w).1.returncode = 124 then
            host.terminate (program image (containerCwd env command) command.argv w).2
          else (program image (containerCwd env command) command.argv w).2) := by
      unfold execute
      rw [husable, if_neg (by decide), himage]
      dsimp only
      rw [hrun]
    rw [hexecute, iff_true_intro husable, true_and]
    obtain ⟨hpasses, hkept⟩ := outcomeOf_passes repr command
      (program image (containerCwd env command) command.argv w).1
    refine ⟨hpasses, fun hnone => ?_⟩
    obtain ⟨htimeout, hstdout, hstderr⟩ := hkept hnone
    exact ⟨if_neg htimeout, hstdout, hstderr⟩
  · have herror : (execute repr env host command w).1.error ≠ none := by
      rw [Bool.not_eq_true] at husable
      unfold execute
      rw [husable]
      simp
    exact ⟨iff_of_false herror fun h => husable h.1, fun h => absurd h herror⟩

theorem runCheck_state {image : String} {index : Nat} {command : VerificationCommand} {w : W}
    (hleft : (execute repr env host command w).1.error = none →
      (execute repr env host command w).2 =
          (program image (containerCwd env command) command.argv w).2 ∧
        (execute repr env host command w).1.check.stdout =
          (program image (containerCwd env command) command.argv w).1.stdout ∧
        (execute repr env host command w).1.check.stderr =
          (program image (containerCwd env command) command.argv w).1.stderr)
    (hnone : (execute repr env host command w).1.error = none) :
    (runCheck m (containerExecutor repr env host) index command w).2.2 =
      afterCommand m env program image index command w := by
  obtain ⟨hstate, hout, herr⟩ := hleft hnone
  show m.writeLog (logName index "stderr") (execute repr env host command w).1.check.stderr
    (m.writeLog (logName index "stdout") (execute repr env host command w).1.check.stdout
      (execute repr env host command w).2) = _
  rw [hstate, hout, herr]
  rfl

theorem runCommands_accepts {image : String} {index : Nat} {commands : List VerificationCommand}
    {w : W} (hshell : ShellRuns host program) (himage : env.projectImageIdentity = some image)
    (hcall : ∀ command ∈ commands, callable command.argv = true) :
    (runCommands m (containerExecutor repr env host) index commands w).2.1 = [] ↔
      Accepts m env host program image index commands w := by
  induction commands generalizing index w with
  | nil => exact iff_of_true rfl trivial
  | cons command commands ih =>
      obtain ⟨hpasses, hleft⟩ := @execute_passes W repr env host program image command w hshell
        himage (hcall command List.mem_cons_self)
      have hrest := fun index w => @ih index w fun c hc => hcall c (List.mem_cons_of_mem _ hc)
      have herrors : (runCommands m (containerExecutor repr env host) index (command :: commands)
            w).2.1 = (execute repr env host command w).1.error.toList ++
          (runCommands m (containerExecutor repr env host) (index + 1) commands
            (runCheck m (containerExecutor repr env host) index command w).2.2).2.1 := rfl
      rw [herrors, List.append_eq_nil_iff, Option.toList_eq_nil_iff, hrest, Accepts]
      constructor
      · rintro ⟨hnone, haccepts⟩
        obtain ⟨husable, hcode, hengine⟩ := hpasses.mp hnone
        refine ⟨husable, hcode, hengine, ?_⟩
        rw [← runCheck_state hleft hnone]
        exact haccepts
      · rintro ⟨husable, hcode, hengine, haccepts⟩
        have hnone := hpasses.mpr ⟨husable, hcode, hengine⟩
        refine ⟨hnone, ?_⟩
        rw [runCheck_state hleft hnone]
        exact haccepts

end Checks

-- ========================================================== a word with a quote

section Printing

/-- An image with one program that accepts one argument. -/
def printer (_image _workdir : String) (argv : List String) (w : Listing) :
    AgentRunResult × Listing :=
  if argv = ["printf", "it's"] then (⟨0, "it's", ""⟩, w) else (⟨1, "", "usage"⟩, w)

/-- An engine whose shell executes what a text invokes. -/
def shellHost : ContainerHost Listing where
  usable _ _ := true
  run request w :=
    match request.args with
    | ["-c", text] =>
        match Shell.invoked text.toList with
        | some argv => printer request.image request.workdir (argv.map String.ofList) w
        | none => (⟨2, "", "syntax error"⟩, w)
    | _ => (⟨2, "", "usage"⟩, w)
  terminate w := w

theorem shellHost_runs : ShellRuns shellHost printer := by
  intro request text argv w _ hargs hinvoked
  have hback : (argv.map String.toList).map String.ofList = argv := by
    rw [List.map_map]
    exact List.map_id'' (fun _ => String.ofList_toList) argv
  unfold shellHost
  simp only [hargs, hinvoked, hback]

def shellEnvironment : VerificationEnvironment where
  projectImageIdentity := some "image"
  containerWorkspace := "/project"

/-- A contract that prints a word with a quote. -/
def printContract : Frozen.ExecutionContract :=
  { installContract with
    resolvedChecks := [⟨"print", "global", "command", ["printf", "it's"], none, [], ".", 120, {}⟩] }

end Printing

end OpenTulid.Verify
