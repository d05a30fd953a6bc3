/-
Which writes of the host into a worker's workspace stay inside it.

# The frame

`Contained` says that at every moment of a run the files outside are as they
were. A run is contained if and only if every path it opens leads inside
(`Tame.exact`): an opened file is emptied, and then gets a text that is not
empty, so one of the two moments shows.

# Which paths lead inside

A frozen context file is opened at a place that was resolved and compared
with the workspace, and no call of the host makes a link, so the place
still is where the path leads (`opensInside_of_target`). The other files
are opened by their plain path. Where such a path leads is decided by the
links that the worker left (`opened_eq_realpath`), and nothing checks it:
`prepareRepair_contained_iff` has this as its condition, and
`linked_context_overwrites` is a workspace that fails it.
-/
import OpenTulid.Proofs.FrozenRoundTrip
import OpenTulid.Runtime.Workspaces

namespace OpenTulid.Workspaces

open Links (Disk Place)

variable {α β : Type} {host : Host}

-- ================================================================== calls

/-- An open answers with the place it has emptied, or changes nothing. -/
theorem exec_openText (host : Host) (path : List String) (d : Disk String) :
    (∃ e, host.exec (.openText path) d = (d, .error e)) ∨
      ∃ opened place, d.openFile "" path = .ok (opened, place) ∧
        host.exec (.openText path) d = (opened, .ok place) := by
  unfold Host.exec
  dsimp only
  split
  next => exact .inl ⟨_, rfl⟩
  next =>
    cases hopen : d.openFile "" path with
    | error e => exact .inl ⟨e, rfl⟩
    | ok made => exact .inr ⟨made.1, made.2, rfl, rfl⟩

/-- No call makes a link or removes one. -/
theorem exec_sameLinks (call : Call) (d : Disk String) :
    d.SameLinks (host.exec call d).1 := by
  cases call with
  | mkdir path =>
      unfold Host.exec
      dsimp only
      split
      next => exact .refl d
      next =>
        cases hmake : d.mkdir path with
        | error e => exact .refl d
        | ok made => exact Links.Disk.mkdir_sameLinks hmake
  | isDir path => exact .refl d
  | realpath path => exact .refl d
  | openText path =>
      rcases exec_openText host path d with ⟨e, h⟩ | ⟨opened, place, hopen, h⟩
      · rw [h]
        exact .refl d
      · rw [h]
        exact Links.Disk.openFile_sameLinks hopen
  | write place text => exact Links.Disk.write_sameLinks text

theorem run_sameLinks (p : Action α) (d : Disk String) :
    d.SameLinks (Prog.run host.exec p d).2 := by
  induction p generalizing d with
  | ret a => exact .refl d
  | raise e => exact .refl d
  | op call k ih => exact (exec_sameLinks call d).trans (ih _ _)

theorem sameLinks_of_run {p : Action α} {d u : Disk String} {r : Except Failure α}
    (h : Prog.run host.exec p d = (r, u)) : d.SameLinks u := by
  have hlinks : d.SameLinks (Prog.run host.exec p d).2 := run_sameLinks p d
  rw [h] at hlinks
  exact hlinks

/-- The place a path is opened at is its real path, on any disk with the
same links. -/
theorem opened_eq_realpath {path : List String} {d d₀ : Disk String} {place : Place}
    (hlinks : d₀.SameLinks d) (h : (host.exec (.openText path) d).2 = .ok place) :
    d₀.resolve host.patience path = .ok place := by
  rcases exec_openText host path d with ⟨e, hexec⟩ | ⟨opened, q, hopen, hexec⟩
  · rw [hexec] at h
    cases h
  · rw [hexec] at h
    cases h
    obtain ⟨hfollow, -⟩ := Links.Disk.openFile_ok hopen
    rw [hlinks.resolve_eq]
    exact Links.Disk.resolve_of_follow host.enough hfollow

-- ============================================================== containment

section Frame

variable (host) (inside : Place → Prop)

/-- At every moment of a run, every file that is not inside is as it was. -/
def Contained (p : Action α) (d : Disk String) : Prop :=
  ∀ v, Prog.Mid host.exec p d v → ∀ place, ¬ inside place → v.fileAt place = d.fileAt place

/-- A path that is opened leads inside. -/
def OpensInside : Call → Disk String → Prop
  | .openText path, d => ∀ place, (host.exec (.openText path) d).2 = .ok place → inside place
  | _, _ => True

/-- A path that is opened is a named one, or leads inside. -/
def Known (named : List (List String)) : Call → Disk String → Prop
  | .openText path, d => path ∈ named ∨ OpensInside host inside (.openText path) d
  | _, _ => True

/-- A run that is contained exactly if the paths it opens lead inside, and
that opens no others than known ones. -/
structure Tame (named : List (List String)) (p : Action α) (d : Disk String) : Prop where
  exact : Contained host inside p d ↔ Prog.Each host.exec (OpensInside host inside) p d
  known : Prog.Each host.exec (Known host inside named) p d

end Frame

variable {inside : Place → Prop} {named : List (List String)}

/-- Outside, a contained run ends with the files it began with. -/
theorem Contained.final {p : Action α} {d u : Disk String} {r : Except Failure α}
    (h : Contained host inside p d) (hrun : Prog.run host.exec p d = (r, u)) {place : Place}
    (hout : ¬ inside place) : u.fileAt place = d.fileAt place := by
  have hlast := h _ (Prog.mid_finish p d) place hout
  rw [hrun] at hlast
  exact hlast

theorem contained_bind {p : Action α} {f : α → Action β} {d : Disk String} :
    Contained host inside (p >>= f) d ↔ Contained host inside p d ∧
      ∀ a u, Prog.run host.exec p d = (.ok a, u) → Contained host inside (f a) u := by
  constructor
  · intro h
    have hfirst : Contained host inside p d :=
      fun v hv => h v (Prog.mid_bind.mpr (.inl hv))
    refine ⟨hfirst, fun a u hrun v hv place hout => ?_⟩
    rw [hfirst.final hrun hout]
    exact h v (Prog.mid_bind.mpr (.inr ⟨a, u, hrun, hv⟩)) place hout
  · rintro ⟨hfirst, hrest⟩ v hv place hout
    rcases Prog.mid_bind.mp hv with hv | ⟨a, u, hrun, hv⟩
    · exact hfirst v hv place hout
    · rw [← hfirst.final hrun hout]
      exact hrest a u hrun v hv place hout

theorem contained_tryCatch {p : Action α} {h : Failure → Action α} {d : Disk String} :
    Contained host inside (p.tryCatch h) d ↔ Contained host inside p d ∧
      ∀ e u, Prog.run host.exec p d = (.error e, u) → Contained host inside (h e) u := by
  constructor
  · intro hall
    have hfirst : Contained host inside p d :=
      fun v hv => hall v (Prog.mid_tryCatch.mpr (.inl hv))
    refine ⟨hfirst, fun e u hrun v hv place hout => ?_⟩
    rw [hfirst.final hrun hout]
    exact hall v (Prog.mid_tryCatch.mpr (.inr ⟨e, u, hrun, hv⟩)) place hout
  · rintro ⟨hfirst, hrest⟩ v hv place hout
    rcases Prog.mid_tryCatch.mp hv with hv | ⟨e, u, hrun, hv⟩
    · exact hfirst v hv place hout
    · rw [← hfirst.final hrun hout]
      exact hrest e u hrun v hv place hout

theorem Tame.bind {p : Action α} {f : α → Action β} {d : Disk String}
    (hp : Tame host inside named p d)
    (hf : ∀ a u, Prog.run host.exec p d = (.ok a, u) → Tame host inside named (f a) u) :
    Tame host inside named (p >>= f) d where
  exact := by
    rw [contained_bind, Prog.each_bind, hp.exact]
    refine and_congr_right fun _ => forall_congr' fun a => forall_congr' fun u => ?_
    exact forall_congr' fun hrun => (hf a u hrun).exact
  known := Prog.each_bind.mpr ⟨hp.known, fun a u hrun => (hf a u hrun).known⟩

theorem Tame.tryCatch {p : Action α} {h : Failure → Action α} {d : Disk String}
    (hp : Tame host inside named p d)
    (hh : ∀ e u, Prog.run host.exec p d = (.error e, u) → Tame host inside named (h e) u) :
    Tame host inside named (p.tryCatch h) d where
  exact := by
    rw [contained_tryCatch, Prog.each_tryCatch, hp.exact]
    refine and_congr_right fun _ => forall_congr' fun e => forall_congr' fun u => ?_
    exact forall_congr' fun hrun => (hh e u hrun).exact
  known := Prog.each_tryCatch.mpr ⟨hp.known, fun e u hrun => (hh e u hrun).known⟩

-- ================================================================== writes

/-- A call that writes no file. -/
def Quiet : Call → Prop
  | .openText _ | .write _ _ => False
  | _ => True

theorem exec_quiet {call : Call} (h : Quiet call) (d : Disk String) (place : Place) :
    (host.exec call d).1.fileAt place = d.fileAt place := by
  cases call with
  | mkdir path =>
      unfold Host.exec
      dsimp only
      split
      next => rfl
      next =>
        cases hmake : d.mkdir path with
        | error e => rfl
        | ok made => exact Links.Disk.mkdir_fileAt hmake place
  | isDir path => rfl
  | realpath path => rfl
  | openText path => exact h.elim
  | write place text => exact h.elim

/-- A program that writes no file is tame. -/
theorem tame_of_quiet {p : Action α} (h : Prog.Uses Quiet p) (d : Disk String) :
    Tame host inside named p d where
  exact := by
    refine iff_of_true (fun v hv place _ => ?_) (h.each (fun call _ hcall => ?_) d)
    · exact h.mid (I := fun v => v.fileAt place = d.fileAt place)
        (fun call v hcall hv => (exec_quiet hcall v place).trans hv) rfl hv
    · cases call <;> trivial
  known := by
    refine h.each (fun call _ hcall => ?_) d
    cases call <;> trivial

theorem tame_ret (a : α) (d : Disk String) : Tame host inside named (.ret a : Action α) d :=
  tame_of_quiet (Prog.uses_ret a) d

theorem tame_raise (e : Failure) (d : Disk String) :
    Tame host inside named (raise e : Action α) d :=
  tame_of_quiet (Prog.uses_raise e) d

/-- What `write_text` comes upon: the open, and where it answers the write. -/
theorem each_writeText {S : Call → Disk String → Prop} {path : List String} {text : String}
    {d : Disk String} (hwrite : ∀ place v, S (.write place text) v) :
    Prog.Each host.exec S (writeText path text) d ↔ S (.openText path) d := by
  unfold writeText
  constructor
  · exact fun h => h.1
  · intro h
    refine ⟨h, ?_⟩
    generalize (host.exec (.openText path) d).2 = answer
    cases answer with
    | error e => trivial
    | ok place => exact ⟨hwrite place _, trivial⟩

/-- A write to a file that is inside is contained. -/
theorem contained_writeText {path : List String} {text : String} {d : Disk String}
    (h : OpensInside host inside (.openText path) d) :
    Contained host inside (writeText path text) d := by
  intro v hv q hq
  unfold writeText at hv
  rcases exec_openText host path d with ⟨e, hexec⟩ | ⟨opened, place, hopen, hexec⟩
  · rw [Prog.mid_op, hexec] at hv
    rcases hv with rfl | rfl
    · rfl
    · rfl
  · have hne : q ≠ place := by
      rintro rfl
      exact hq (h q (by rw [hexec]))
    have hopened : opened.fileAt q = d.fileAt q := Links.Disk.openFile_fileAt hopen hne
    rw [Prog.mid_op, hexec] at hv
    rcases hv with rfl | rfl | rfl
    · rfl
    · exact hopened
    · exact (Links.Disk.write_fileAt hne).trans hopened

/-- A write of some text that is contained is to a file that is inside: where
it was opened the file is empty, and then it is not. -/
theorem opensInside_of_contained {path : List String} {text : String} {d : Disk String}
    (htext : text ≠ "") (h : Contained host inside (writeText path text) d) :
    OpensInside host inside (.openText path) d := by
  intro place hplace
  by_contra hout
  rcases exec_openText host path d with ⟨e, hexec⟩ | ⟨opened, q, hopen, hexec⟩
  · rw [hexec] at hplace
    cases hplace
  · rw [hexec] at hplace
    cases hplace
    have hmid : ∀ v, v = opened ∨ v = opened.write place text →
        Prog.Mid host.exec (writeText path text) d v := by
      intro v hv
      unfold writeText
      rw [Prog.mid_op, hexec]
      rcases hv with rfl | rfl
      · exact .inr (.inl rfl)
      · exact .inr (.inr rfl)
    have hempty := Links.Disk.openFile_opened hopen
    have hbefore := h opened (hmid _ (.inl rfl)) place hout
    have hafter := h _ (hmid _ (.inr rfl)) place hout
    rw [Links.Disk.fileAt_write hempty, ← hbefore, hempty] at hafter
    exact htext (Option.some.inj hafter)

/-- A file written by a named path. -/
theorem tame_writeText {path : List String} {text : String} (hnamed : path ∈ named)
    (htext : text ≠ "") (d : Disk String) : Tame host inside named (writeText path text) d where
  exact := by
    rw [each_writeText fun _ _ => trivial]
    exact ⟨opensInside_of_contained htext, contained_writeText⟩
  known := (each_writeText fun _ _ => trivial).mpr (.inl hnamed)

/-- A file written inside. -/
theorem tame_writeText_inside {path : List String} {text : String} {d : Disk String}
    (h : OpensInside host inside (.openText path) d) :
    Tame host inside named (writeText path text) d where
  exact := iff_of_true (contained_writeText h) ((each_writeText fun _ _ => trivial).mpr h)
  known := (each_writeText fun _ _ => trivial).mpr (.inr h)

theorem tame_writeJson {T : Texts} {path : List String} {payload : Json} (hnamed : path ∈ named)
    (d : Disk String) : Tame host inside named (writeJson T path payload) d := by
  refine tame_writeText hnamed ?_ d
  intro hnil
  have hlength := congrArg String.length hnil
  rw [String.length_append] at hlength
  simp at hlength

-- ============================================================= directories

theorem quiet_mkdirOr {path : List String} {missing : Action Unit}
    (h : Prog.Uses Quiet missing) : Prog.Uses Quiet (mkdirOr path missing) := by
  refine ⟨trivial, fun answer => ?_⟩
  cases answer with
  | ok _ => trivial
  | error e =>
      cases e with
      | missing => exact h
      | _ =>
          refine ⟨trivial, fun there => ?_⟩
          cases there <;> trivial

theorem quiet_mkdirUp (names : List String) : Prog.Uses Quiet (mkdirUp names) := by
  induction names with
  | nil => exact quiet_mkdirOr trivial
  | cons name up ih => exact quiet_mkdirOr (ih.bind fun _ => quiet_mkdirOr trivial)

/-- Making directories writes no file. -/
theorem quiet_mkdirParents (path : List String) : Prog.Uses Quiet (mkdirParents path) :=
  quiet_mkdirUp _

theorem tame_mkdirParents (path : List String) (d : Disk String) :
    Tame host inside named (mkdirParents path) d :=
  tame_of_quiet (quiet_mkdirParents path) d

theorem tame_ofExcept (x : Except Failure α) (d : Disk String) :
    Tame host inside named (ofExcept x) d := by
  cases x with
  | ok a => exact tame_ret a d
  | error e => exact tame_raise e d

-- ================================================================= targets

section Targets

variable (host) (workspace : List String) (d₀ : Disk String)

/-- A place lies in the workspace, wherever that really is. -/
def Inside (place : Place) : Prop :=
  ∃ root, d₀.resolve host.patience workspace = .ok root ∧ root <+: place

variable {host workspace d₀}

/-- A resolved target: it is inside, and no link lies on the way to it. The
calls that find it change nothing. -/
theorem safeContextTarget_ok {workspacePath : String} {d u : Disk String} {target : Place}
    (hlinks : d₀.SameLinks d)
    (h : Prog.run host.exec (safeContextTarget workspace workspacePath) d = (.ok target, u)) :
    Inside host workspace d₀ target ∧ d.Plain target ∧ u = d := by
  unfold safeContextTarget at h
  dsimp only at h
  split at h
  next => cases h
  next =>
    rw [Prog.run_op] at h
    simp only [Host.exec] at h
    split at h
    next => cases h
    next candidate hcandidate =>
      rw [Prog.run_op] at h
      simp only [Host.exec] at h
      split at h
      next => cases h
      next root hroot =>
        split at h
        next hbelow =>
          cases h
          refine ⟨⟨root, ?_, hbelow⟩, Links.Disk.resolve_plain hcandidate, rfl⟩
          rw [hlinks.resolve_eq]
          exact hroot
        next => cases h

theorem quiet_safeContextTarget (workspacePath : String) :
    Prog.Uses Quiet (safeContextTarget workspace workspacePath) := by
  unfold safeContextTarget
  dsimp only
  split
  next => trivial
  next =>
    refine ⟨trivial, fun answer => ?_⟩
    cases answer with
    | error e => trivial
    | ok target =>
        refine ⟨trivial, fun answer => ?_⟩
        cases answer with
        | error e => trivial
        | ok root =>
            dsimp only
            split
            next => trivial
            next => trivial

/-- A target that was resolved before is still where its path leads. -/
theorem opensInside_of_target {d u : Disk String} {target : Place}
    (hinside : Inside host workspace d₀ target) (hplain : d.Plain target)
    (hlinks : d.SameLinks u) :
    OpensInside host (Inside host workspace d₀) (.openText target) u := by
  intro place hplace
  rcases exec_openText host target u with ⟨e, hexec⟩ | ⟨opened, q, hopen, hexec⟩
  · rw [hexec] at hplace
    cases hplace
  · rw [hexec] at hplace
    cases hplace
    obtain ⟨hfollow, -⟩ := Links.Disk.openFile_ok hopen
    rw [Links.Disk.follow_of_plain (hlinks.plain hplain) hfollow]
    exact hinside

theorem tame_writeContextFiles (files : List Frozen.FrozenContextFile) {d : Disk String}
    (hlinks : d₀.SameLinks d) :
    Tame host (Inside host workspace d₀) named (writeContextFiles workspace files) d := by
  induction files generalizing d with
  | nil => exact tame_ret () d
  | cons file rest ih =>
      refine (tame_of_quiet (quiet_safeContextTarget file.workspacePath) d).bind ?_
      intro target u hrun
      obtain ⟨hinside, hplain, rfl⟩ := safeContextTarget_ok hlinks hrun
      refine (tame_mkdirParents _ _).bind fun _ v hmade => ?_
      have hmadeLinks := sameLinks_of_run hmade
      refine (tame_writeText_inside (opensInside_of_target hinside hplain hmadeLinks)).bind
        fun _ w hwritten => ?_
      exact ih ((hlinks.trans hmadeLinks).trans (sameLinks_of_run hwritten))

end Targets

-- =============================================================== preparing

section Preparing

/-- The paths that files are written by as they are. -/
def plainPaths (workspace : List String) : List (List String) :=
  [workspace ++ [".open-tulid"] ++ ["job-context.json"],
    workspace ++ [".open-tulid"] ++ ["execution-contract.json"],
    workspace ++ [".open-tulid"] ++ ["repository-facts.json"],
    workspace ++ [".open-tulid"] ++ ["baseline-manifest.json"],
    workspace ++ [".open-tulid", "context"] ++ ["context-files.json"],
    workspace ++ [".open-tulid", "runtime-baseline.json"]]

variable {T : Texts} {workspace : List String} {d₀ : Disk String}

theorem tame_writeFrozenContextFiles (files : List Frozen.FrozenContextFile) {d : Disk String}
    (hlinks : d₀.SameLinks d) :
    Tame host (Inside host workspace d₀) (plainPaths workspace)
      (writeFrozenContextFiles T workspace files) d := by
  unfold writeFrozenContextFiles
  refine (tame_mkdirParents _ d).bind fun _ u hmade => ?_
  have hmadeLinks := hlinks.trans (sameLinks_of_run hmade)
  refine (tame_writeContextFiles files hmadeLinks).bind fun _ v _ => ?_
  exact tame_writeJson (by simp [plainPaths]) v

theorem tame_writeContext {outputDir : List String} {job : Frozen.ExecutionJob}
    {task : Frozen.Task} {transition : Frozen.TransitionDefinition}
    {completionEndpoint : Option String} {contract : Option Frozen.ExecutionContract}
    {d : Disk String} (hlinks : d₀.SameLinks d) :
    Tame host (Inside host workspace d₀) (plainPaths workspace)
      (writeContext T workspace outputDir job task transition completionEndpoint contract) d := by
  unfold writeContext
  refine (tame_mkdirParents _ d).bind fun _ d₁ h₁ => ?_
  have l₁ := hlinks.trans (sameLinks_of_run h₁)
  refine (tame_ofExcept _ d₁).bind fun payload d₂ h₂ => ?_
  have l₂ := l₁.trans (sameLinks_of_run h₂)
  refine (tame_writeJson (by simp [plainPaths]) d₂).bind fun _ d₃ h₃ => ?_
  have l₃ := l₂.trans (sameLinks_of_run h₃)
  cases contract with
  | none => exact tame_ret () d₃
  | some contract =>
      refine (tame_ofExcept _ d₃).bind fun stored d₄ h₄ => ?_
      have l₄ := l₃.trans (sameLinks_of_run h₄)
      refine (tame_writeJson (by simp [plainPaths]) d₄).bind fun _ d₅ h₅ => ?_
      have l₅ := l₄.trans (sameLinks_of_run h₅)
      refine (tame_writeJson (by simp [plainPaths]) d₅).bind fun _ d₆ h₆ => ?_
      have l₆ := l₅.trans (sameLinks_of_run h₆)
      refine (tame_writeJson (by simp [plainPaths]) d₆).bind fun _ d₇ h₇ => ?_
      exact tame_writeFrozenContextFiles _ (l₆.trans (sameLinks_of_run h₇))

/-- The preparation of a preserved workspace. -/
theorem tame_prepare {copy : Action (Option DomainError)} {preparation : Preparation}
    (hworkspace : preparation.workspace = workspace) {d : Disk String}
    (hlinks : d₀.SameLinks d) :
    Tame host (Inside host workspace d₀) (plainPaths workspace)
      (prepare T copy true preparation) d := by
  subst hworkspace
  unfold prepare
  cases preparation.frozen with
  | error e => exact tame_ret _ d
  | ok contract =>
      refine Tame.tryCatch ?_ fun e u _ => ?_
      · refine (tame_ofExcept _ d).bind fun planning d₁ h₁ => ?_
        have l₁ := hlinks.trans (sameLinks_of_run h₁)
        refine (tame_mkdirParents _ d₁).bind fun _ d₂ h₂ => ?_
        have l₂ := l₁.trans (sameLinks_of_run h₂)
        refine (tame_mkdirParents _ d₂).bind fun _ d₃ h₃ => ?_
        have l₃ := l₂.trans (sameLinks_of_run h₃)
        refine (tame_ret none d₃).bind fun refused d₄ h₄ => ?_
        cases h₄
        refine (tame_writeContext l₃).bind fun _ d₅ h₅ => ?_
        have l₅ := l₃.trans (sameLinks_of_run h₅)
        cases planning with
        | none => exact tame_ret _ d₅
        | some planning =>
            exact (tame_writeFrozenContextFiles _ l₅).bind fun _ d₆ _ => tame_ret _ d₆
      · cases e with
        | loop => exact tame_raise _ u
        | os e => exact tame_ret _ u
        | value text => exact tame_ret _ u
        | type text => exact tame_ret _ u

theorem tame_prepareRepair {copy : Action (Option DomainError)} {preparation : Preparation}
    {baseline : RuntimeBaseline} (hworkspace : preparation.workspace = workspace)
    {d : Disk String} (hlinks : d₀.SameLinks d) :
    Tame host (Inside host workspace d₀) (plainPaths workspace)
      (prepareRepair T copy preparation baseline) d := by
  unfold prepareRepair
  refine (tame_prepare hworkspace hlinks).bind fun prepared u _ => ?_
  cases prepared with
  | error e => exact tame_ret _ u
  | ok done =>
      refine Tame.bind ?_ fun _ w _ => tame_ret _ w
      rw [hworkspace]
      unfold writeRuntimeBaseline
      exact (tame_mkdirParents _ u).bind fun _ v _ => tame_writeJson (by simp [plainPaths]) v

-- ============================================================== the criterion

/-- A plain path that the run opens leads inside, by the links that the
worker left. -/
def PlainLeadsInside (host : Host) (workspace : List String) (d₀ : Disk String) :
    Call → Disk String → Prop
  | .openText path, d => path ∈ plainPaths workspace →
      (∃ place, (host.exec (.openText path) d).2 = .ok place) →
      ∃ place, d₀.resolve host.patience path = .ok place ∧ Inside host workspace d₀ place
  | _, _ => True

/-- The preparation of a repair run writes inside the workspace only if and
only if each of the plain paths that it opens has its real path inside. -/
theorem prepareRepair_contained_iff (host : Host) (T : Texts)
    (copy : Action (Option DomainError)) (preparation : Preparation)
    (baseline : RuntimeBaseline) (d₀ : Disk String) :
    Contained host (Inside host preparation.workspace d₀)
        (prepareRepair T copy preparation baseline) d₀ ↔
      Prog.Each host.exec (PlainLeadsInside host preparation.workspace d₀)
        (prepareRepair T copy preparation baseline) d₀ := by
  have htame : Tame host (Inside host preparation.workspace d₀)
      (plainPaths preparation.workspace) (prepareRepair T copy preparation baseline) d₀ :=
    tame_prepareRepair rfl (.refl d₀)
  rw [htame.exact]
  refine Prog.each_congr (I := fun d => d₀.SameLinks d)
    (fun call d hlinks => hlinks.trans (exec_sameLinks call d)) (.refl d₀) ?_
  refine htame.known.mono fun call d hknown hlinks => ?_
  cases call with
  | openText path =>
      constructor
      · rintro hopens hplain ⟨place, hplace⟩
        exact ⟨place, opened_eq_realpath hlinks hplace, hopens place hplace⟩
      · intro hleads place hplace
        rcases hknown with hplain | hopens
        · obtain ⟨q, hq, hinside⟩ := hleads hplain ⟨place, hplace⟩
          rw [opened_eq_realpath hlinks hplace] at hq
          rw [Except.ok.inj hq]
          exact hinside
        · exact hopens place hplace
  | mkdir path => exact Iff.rfl
  | isDir path => exact Iff.rfl
  | realpath path => exact Iff.rfl
  | write place text => exact Iff.rfl

end Preparing

-- ============================================================ a linked file

section Linked

/-- A host that refuses nothing. -/
def openHost : Host := ⟨fun _ _ => false, 40, Nat.le_refl 40⟩

def plainTexts : Texts := ⟨Frozen.unaryDigest, fun _ => "{}", id⟩

/-- The worker has left a link for its context, to a file of somebody else. -/
def linkedDisk : Disk String :=
  .ofList [
    (["work"], .dir),
    (["work", ".open-tulid"], .dir),
    (["work", ".open-tulid", "job-context.json"], .link true ["home", "notes"]),
    (["home"], .dir),
    (["home", "notes"], .file "private")] rfl

def linkedPreparation : Preparation where
  job := ⟨"JOB-1", "P", "TASK-1", "implement", "coder", "/work", "created", 0, []⟩
  task := ⟨"TASK-1", "Title", "TASK-1.md", "ready", "task", [], [], none, [], ""⟩
  transition := ⟨"implement", "task", "ready", "done", some "coder", {}, none, none, false, [],
    none⟩
  frozen := .ok none
  planning := .ok none

def plainBaseline : RuntimeBaseline :=
  ⟨"tulid.runtime-baseline/v1", none, none, none, none, none, none, "", none, none, "coder", [], ""⟩

/-- The preparation follows the link and writes over the file. -/
theorem linked_context_overwrites :
    ¬ Contained openHost (Inside openHost linkedPreparation.workspace linkedDisk)
      (prepareRepair plainTexts (.ret none) linkedPreparation plainBaseline) linkedDisk := by
  intro h
  have hout : ¬ Inside openHost linkedPreparation.workspace linkedDisk ["home", "notes"] := by
    rintro ⟨root, hroot, hbelow⟩
    have hwork : linkedDisk.resolve openHost.patience linkedPreparation.workspace =
        .ok ["work"] := rfl
    rw [hwork] at hroot
    cases hroot
    revert hbelow
    decide
  have hlast := h _ (Prog.mid_finish _ _) ["home", "notes"] hout
  have hnotes : linkedDisk.fileAt ["home", "notes"] = some "private" := rfl
  rw [hnotes] at hlast
  have hwritten : (Prog.run openHost.exec
      (prepareRepair plainTexts (.ret none) linkedPreparation plainBaseline)
      linkedDisk).2.fileAt ["home", "notes"] = some ("{}" ++ "\n") := rfl
  rw [hwritten] at hlast
  revert hlast
  decide

end Linked

end OpenTulid.Workspaces
