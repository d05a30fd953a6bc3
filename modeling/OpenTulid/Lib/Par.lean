/-
Many programs on one world: interleaving, crashes, and the rely/guarantee
rule.

# The machine

A `Machine` says what one operation of process `i` does to the world and
what it is answered, with a flag for an operation that fails, when an
operation is enabled (a lock), and what is left of a process that crashes.
A `Config` is a world and, for every process, the rest of its program, or
nothing once it has crashed. The processes take their operations in any
order (`Step`), each operation atomic.

# Admissions

Some properties hold only of the runs whose steps meet a condition. An
`Admission` is such a condition on the world before the step; `Run` is a
run all of whose steps are admitted. `Admission.any` admits every step.

# The rule

A `Contract` gives each process what the others may do to the world
(`rely`) and what it does itself (`guar`). `Safe` says of a suspended
program that, whatever the others do meanwhile, each of its operations
keeps its guarantee and the outcome meets the postcondition. Safe programs
compose (`Safe.run`): along every admitted run each step keeps a guarantee
and every program stays safe.
-/
import OpenTulid.Lib.Prog
import Mathlib.Logic.Relation

namespace Par

/-- What the operations of the processes `Pid` do to a world `W`. -/
structure Machine (Pid Op : Type) (Res : Op → Type) (W : Type) where
  /-- the operation can be taken now -/
  enabled : Pid → Op → W → Bool
  /-- one operation; the flag says that it fails -/
  exec : Pid → Bool → (o : Op) → W → W × Res o
  /-- what a crash of the process does to the world -/
  crash : Pid → W → W

/-- A world and the rest of every process's program. -/
structure Config (Pid Op : Type) (Res : Op → Type) (ε α W : Type) where
  world : W
  procs : Pid → Option (Prog Op Res ε α)

/-- One step of an interleaving: an operation of a process, or its crash. -/
inductive Label (Pid : Type) where
  | step (i : Pid) (fault : Bool)
  | crash (i : Pid)
  deriving DecidableEq, Repr

/-- A condition on the steps of a run, read in the world before the step. -/
structure Admission (Pid Op W : Type) where
  step : Pid → Bool → Op → W → Prop
  crash : Pid → W → Prop

/-- Every step is admitted. -/
def Admission.any {Pid Op W : Type} : Admission Pid Op W :=
  ⟨fun _ _ _ _ => True, fun _ _ => True⟩

variable {Pid Op : Type} {Res : Op → Type} {ε α β W : Type}

-- ================================================= the interleavings

section Interleaving

variable [DecidableEq Pid]

/-- The configuration after a step, when the step can be taken. -/
def next (M : Machine Pid Op Res W) (c : Config Pid Op Res ε α W) :
    Label Pid → Option (Config Pid Op Res ε α W)
  | .step i fault =>
      match c.procs i with
      | some (.op o k) =>
          if M.enabled i o c.world then
            some ⟨(M.exec i fault o c.world).1,
              Function.update c.procs i
                (some (k (M.exec i fault o c.world).2))⟩
          else none
      | _ => none
  | .crash i =>
      some ⟨M.crash i c.world, Function.update c.procs i none⟩

/-- The configuration after a list of steps. -/
def nexts (M : Machine Pid Op Res W) :
    List (Label Pid) → Config Pid Op Res ε α W →
      Option (Config Pid Op Res ε α W)
  | [], c => some c
  | l :: ls, c => (next M c l).bind (nexts M ls)

/-- One admitted step. -/
inductive Step (M : Machine Pid Op Res W) (A : Admission Pid Op W) :
    Config Pid Op Res ε α W → Config Pid Op Res ε α W → Prop
  | exec {c : Config Pid Op Res ε α W} (i : Pid) (fault : Bool) (o : Op)
      (k : Res o → Prog Op Res ε α) (hprog : c.procs i = some (.op o k))
      (hen : M.enabled i o c.world = true)
      (hadm : A.step i fault o c.world) :
      Step M A c ⟨(M.exec i fault o c.world).1,
        Function.update c.procs i (some (k (M.exec i fault o c.world).2))⟩
  | crash {c : Config Pid Op Res ε α W} (i : Pid)
      (hadm : A.crash i c.world) :
      Step M A c ⟨M.crash i c.world, Function.update c.procs i none⟩

/-- A run of admitted steps. -/
def Run (M : Machine Pid Op Res W) (A : Admission Pid Op W) :
    Config Pid Op Res ε α W → Config Pid Op Res ε α W → Prop :=
  Relation.ReflTransGen (Step M A)

/-- The condition admits the step whatever the operation and the world. -/
def Admission.admits (A : Admission Pid Op W) : Label Pid → Prop
  | .step i fault => ∀ o w, A.step i fault o w
  | .crash i => ∀ w, A.crash i w

/-- What `next` computes is a step. -/
theorem step_of_next {M : Machine Pid Op Res W} {A : Admission Pid Op W}
    {c c' : Config Pid Op Res ε α W} {l : Label Pid} (hl : A.admits l)
    (h : next M c l = some c') : Step M A c c' := by
  cases l with
  | step i fault =>
      simp only [next] at h
      split at h
      next o k hprog =>
        split at h
        next hen =>
          cases h
          exact Step.exec i fault o k hprog hen (hl o c.world)
        next => cases h
      next => cases h
  | crash i =>
      cases h
      exact Step.crash i (hl c.world)

/-- What `nexts` computes is a run. -/
theorem run_of_nexts {M : Machine Pid Op Res W} {A : Admission Pid Op W}
    {ls : List (Label Pid)} (hls : ∀ l ∈ ls, A.admits l) :
    ∀ {c c' : Config Pid Op Res ε α W},
      nexts M ls c = some c' → Run M A c c' := by
  induction ls with
  | nil =>
      intro c c' h
      cases h
      exact .refl
  | cons l ls ih =>
      intro c c' h
      obtain ⟨d, hd, hrest⟩ := Option.bind_eq_some_iff.mp h
      exact .head (step_of_next (hls l List.mem_cons_self) hd)
        (ih (fun l hl => hls l (List.mem_cons_of_mem _ hl)) hrest)

/-- Admitted steps that can be taken are a run to where they lead. -/
theorem exists_admitted_run_of_nexts {M : Machine Pid Op Res W}
    {A : Admission Pid Op W} {l : List (Label Pid)}
    (hl : ∀ x ∈ l, A.admits x) {c : Config Pid Op Res ε α W}
    {P : Config Pid Op Res ε α W → Bool} (h : (nexts M l c).any P = true) :
    ∃ c', Run M A c c' ∧ P c' = true := by
  cases hc' : nexts M l c with
  | none => rw [hc'] at h; cases h
  | some c' =>
      rw [hc'] at h
      exact ⟨c', run_of_nexts hl hc', h⟩

/-- Steps that can be taken are a run to where they lead. -/
theorem exists_run_of_nexts {M : Machine Pid Op Res W} {l : List (Label Pid)}
    {c : Config Pid Op Res ε α W} {P : Config Pid Op Res ε α W → Bool}
    (h : (nexts M l c).any P = true) :
    ∃ c', Run M Admission.any c c' ∧ P c' = true := by
  refine exists_admitted_run_of_nexts (fun x _ => ?_) h
  cases x with
  | step i fault => exact fun _ _ => trivial
  | crash i => exact fun _ => trivial

/-- What every operation and every crash keeps, a run keeps. -/
theorem Run.invariant {M : Machine Pid Op Res W} {A : Admission Pid Op W}
    {I : W → Prop} (hexec : ∀ i fault o w, I w → I (M.exec i fault o w).1)
    (hcrash : ∀ i w, I w → I (M.crash i w)) {c c' : Config Pid Op Res ε α W}
    (hrun : Run M A c c') (hI : I c.world) : I c'.world := by
  induction hrun with
  | refl => exact hI
  | tail _ hstep ih =>
      cases hstep with
      | exec i fault o k hprog hen hadm => exact hexec i fault o _ ih
      | crash i hadm => exact hcrash i _ ih

/-- Every process's remaining program comes to operations of a kind only. -/
def AllUses (S : Op → Prop) (c : Config Pid Op Res ε α W) : Prop :=
  ∀ i p, c.procs i = some p → p.Uses S

/-- A step takes an operation of the kind, or is a crash. -/
theorem AllUses.step {M : Machine Pid Op Res W} {A : Admission Pid Op W}
    {S : Op → Prop} {c c' : Config Pid Op Res ε α W} (h : AllUses S c)
    (hstep : Step M A c c') :
    AllUses S c' ∧
      ((∃ i fault o, S o ∧ M.enabled i o c.world = true ∧
          A.step i fault o c.world ∧
          c'.world = (M.exec i fault o c.world).1) ∨
        ∃ i, A.crash i c.world ∧ c'.world = M.crash i c.world) := by
  cases hstep with
  | exec i fault o k hprog hen hadm =>
      have hp := h i _ hprog
      refine ⟨fun j p hj => ?_, Or.inl ⟨i, fault, o, hp.1, hen, hadm, rfl⟩⟩
      by_cases hij : j = i
      · subst hij
        have hk : k (M.exec j fault o c.world).2 = p := by simpa using hj
        exact hk ▸ hp.2 _
      · exact h j p (by simpa [Function.update_of_ne hij] using hj)
  | crash i hadm =>
      refine ⟨fun j p hj => ?_, Or.inr ⟨i, hadm, rfl⟩⟩
      by_cases hij : j = i
      · subst hij
        simp at hj
      · exact h j p (by simpa [Function.update_of_ne hij] using hj)

/-- Programs of a kind stay programs of the kind. -/
theorem AllUses.run {M : Machine Pid Op Res W} {A : Admission Pid Op W}
    {S : Op → Prop} {c c' : Config Pid Op Res ε α W} (h : AllUses S c)
    (hrun : Run M A c c') : AllUses S c' := by
  induction hrun with
  | refl => exact h
  | tail _ hstep ih => exact (ih.step hstep).1

/-- What every admitted operation of a kind and every crash keeps, a run of
programs of the kind keeps. -/
theorem AllUses.invariant {M : Machine Pid Op Res W} {A : Admission Pid Op W}
    {S : Op → Prop} {I : W → Prop}
    (hexec : ∀ i fault o w, S o → M.enabled i o w = true →
      A.step i fault o w → I w → I (M.exec i fault o w).1)
    (hcrash : ∀ i w, A.crash i w → I w → I (M.crash i w))
    {c c' : Config Pid Op Res ε α W} (h : AllUses S c)
    (hrun : Run M A c c') (hI : I c.world) : I c'.world := by
  induction hrun with
  | refl => exact hI
  | tail hrun hstep ih =>
      rcases ((h.run hrun).step hstep).2 with
        ⟨i, fault, o, ho, hen, hadm, hw⟩ | ⟨i, hadm, hw⟩
      · exact hw ▸ hexec i fault o _ ho hen hadm ih
      · exact hw ▸ hcrash i _ hadm ih

end Interleaving

-- ===================================================== the contracts

/-- What each process may expect of the others and what it promises. -/
structure Contract (Pid W : Type) where
  rely : Pid → W → W → Prop
  guar : Pid → W → W → Prop

/-- The contract's parts fit each other and the machine: a process may rely
on nothing more than what the others guarantee and a crash leaves. -/
structure Contract.Fits (C : Contract Pid W) (M : Machine Pid Op Res W)
    (A : Admission Pid Op W) : Prop where
  refl : ∀ i w, C.rely i w w
  trans : ∀ i u v w, C.rely i u v → C.rely i v w → C.rely i u w
  guar_rely : ∀ i j u v, i ≠ j → C.guar i u v → C.rely j u v
  crash_rely : ∀ i j w, i ≠ j → A.crash i w → C.rely j w (M.crash i w)

variable (M : Machine Pid Op Res W) (A : Admission Pid Op W)
  (C : Contract Pid W)

/-- The suspended program of process `i` keeps its guarantee at every
operation, and its outcome meets `Q`, as long as the others stay within
what `i` relies on. -/
def Safe (i : Pid) (Q : Except ε α → W → Prop) :
    Prog Op Res ε α → W → Prop
  | .ret a, w => Q (.ok a) w
  | .raise e, w => Q (.error e) w
  | .op o k, w => ∀ v, C.rely i w v → ∀ fault,
      M.enabled i o v = true → A.step i fault o v →
        C.guar i v (M.exec i fault o v).1 ∧
          Safe i Q (k (M.exec i fault o v).2) (M.exec i fault o v).1

variable {M A C}

@[simp] theorem safe_ret {i : Pid} {Q : Except ε α → W → Prop} {a : α}
    {w : W} :
    Safe M A C i Q (.ret a : Prog Op Res ε α) w ↔ Q (.ok a) w := Iff.rfl

@[simp] theorem safe_raise {i : Pid} {Q : Except ε α → W → Prop} {e : ε}
    {w : W} :
    Safe M A C i Q (.raise e : Prog Op Res ε α) w ↔ Q (.error e) w := Iff.rfl

/-- A weaker postcondition. -/
theorem Safe.mono {i : Pid} {Q R : Except ε α → W → Prop}
    {p : Prog Op Res ε α} {w : W} (h : Safe M A C i Q p w)
    (hQR : ∀ out w, Q out w → R out w) : Safe M A C i R p w := by
  induction p generalizing w with
  | ret a => exact hQR _ _ h
  | raise e => exact hQR _ _ h
  | op o k ih =>
      intro v hv fault hen hadm
      obtain ⟨hg, hk⟩ := h v hv fault hen hadm
      exact ⟨hg, ih _ hk⟩

/-- Sequencing: the second program is safe where the first returns. -/
theorem Safe.bind {i : Pid} {Q : Except ε β → W → Prop}
    {p : Prog Op Res ε α} {f : α → Prog Op Res ε β} {w : W}
    (h : Safe M A C i (fun out v => match out with
      | .ok a => Safe M A C i Q (f a) v
      | .error e => Q (.error e) v) p w) :
    Safe M A C i Q (p >>= f) w := by
  induction p generalizing w with
  | ret a => exact h
  | raise e => exact h
  | op o k ih =>
      intro v hv fault hen hadm
      obtain ⟨hg, hk⟩ := h v hv fault hen hadm
      exact ⟨hg, ih _ hk⟩

/-- Handling: the handler is safe where the body raises. -/
theorem Safe.tryCatch {i : Pid} {Q : Except ε α → W → Prop}
    {p : Prog Op Res ε α} {f : ε → Prog Op Res ε α} {w : W}
    (h : Safe M A C i (fun out v => match out with
      | .ok a => Q (.ok a) v
      | .error e => Safe M A C i Q (f e) v) p w) :
    Safe M A C i Q (p.tryCatch f) w := by
  induction p generalizing w with
  | ret a => exact h
  | raise e => exact h
  | op o k ih =>
      intro v hv fault hen hadm
      obtain ⟨hg, hk⟩ := h v hv fault hen hadm
      exact ⟨hg, ih _ hk⟩

/-- `try … finally`: the closing program is safe on both ways out. -/
theorem Safe.ensure {i : Pid} {Q : Except ε α → W → Prop}
    {p : Prog Op Res ε α} {q : Prog Op Res ε PUnit} {w : W}
    (h : Safe M A C i (fun out v => Safe M A C i (fun out' v' =>
      match out' with
      | .ok _ => Q out v'
      | .error e => Q (.error e) v') q v) p w) :
    Safe M A C i Q (p.ensure q) w := by
  induction p generalizing w with
  | ret a =>
      refine Safe.bind (Safe.mono h ?_)
      rintro (e | a') v hv <;> exact hv
  | raise e =>
      refine Safe.bind (Safe.mono h ?_)
      rintro (e' | a') v hv <;> exact hv
  | op o k ih =>
      intro v hv fault hen hadm
      obtain ⟨hg, hk⟩ := h v hv fault hen hadm
      exact ⟨hg, ih _ hk⟩

/-- One operation, from a fact `F` the others cannot break: what the
operation makes of `F` carries the rest. -/
theorem Safe.op {i : Pid} {Q : Except ε α → W → Prop} {o : Op}
    {k : Res o → Prog Op Res ε α} {w : W} {F : W → Prop} (hF : F w)
    (stable : ∀ u v, F u → C.rely i u v → F v)
    (hop : ∀ v fault, F v → M.enabled i o v = true → A.step i fault o v →
      C.guar i v (M.exec i fault o v).1 ∧
        Safe M A C i Q (k (M.exec i fault o v).2)
          (M.exec i fault o v).1) :
    Safe M A C i Q (.op o k) w :=
  fun v hv fault hen hadm => hop v fault (stable w v hF hv) hen hadm

/-- A program of operations that all keep a stable fact, guarantee
included, ends with that fact. -/
theorem Safe.of_uses {i : Pid} {S : Op → Prop} {F : W → Prop}
    (stable : ∀ u v, F u → C.rely i u v → F v)
    (keep : ∀ o v fault, S o → F v → A.step i fault o v →
      C.guar i v (M.exec i fault o v).1 ∧ F (M.exec i fault o v).1)
    {p : Prog Op Res ε α} (hp : p.Uses S) {w : W} (hF : F w) :
    Safe M A C i (fun _ v => F v) p w := by
  induction p generalizing w with
  | ret a => exact hF
  | raise e => exact hF
  | op o k ih =>
      intro v hv fault _ hadm
      obtain ⟨hg, hF'⟩ := keep o v fault hp.1 (stable w v hF hv) hadm
      exact ⟨hg, ih _ (hp.2 _) hF'⟩

/-- A program without exceptions ends by returning. -/
theorem Safe.returns {i : Pid} {Q : Except ε α → W → Prop}
    {p : Prog Op Res ε α} {w : W} (h : Safe M A C i Q p w) (hp : p.Returns) :
    Safe M A C i (fun out v => ∃ a, out = .ok a ∧ Q out v) p w := by
  induction p generalizing w with
  | ret a => exact ⟨a, rfl, h⟩
  | raise e => exact hp.elim
  | op o k ih =>
      intro v hv fault hen hadm
      obtain ⟨hg, hk⟩ := h v hv fault hen hadm
      exact ⟨hg, ih _ hk (hp _)⟩

/-- What the others do leaves a suspended program safe. -/
theorem Safe.rely (hfit : C.Fits M A) {i : Pid}
    {Q : Except ε α → W → Prop}
    (hQ : ∀ out u v, Q out u → C.rely i u v → Q out v)
    {p : Prog Op Res ε α} {w v : W} (h : Safe M A C i Q p w)
    (hv : C.rely i w v) : Safe M A C i Q p v := by
  cases p with
  | ret a => exact hQ _ _ _ h hv
  | raise e => exact hQ _ _ _ h hv
  | op o k => exact fun u hu => h u (hfit.trans i w v u hv hu)

-- ================================================== a process alone

/-- The contract of a process that runs alone: nothing changes but by its
own steps. -/
def Contract.alone (i₀ : Pid) : Contract Pid W where
  rely j u v := j = i₀ → v = u
  guar i _ _ := i = i₀

theorem Contract.alone_fits {i₀ : Pid} (hcrash : ∀ i w, A.crash i w → i = i₀) :
    (Contract.alone i₀ : Contract Pid W).Fits M A where
  refl _ _ _ := rfl
  trans _ _ _ _ huv hvw hi := (hvw hi).trans (huv hi)
  guar_rely _ _ _ _ hij hi hj := absurd (hi.trans hj.symm) hij
  crash_rely i _ w hij hi hj := absurd ((hcrash i w hi).trans hj.symm) hij

/-- An operation of a process that runs alone, and what follows it. -/
theorem Safe.perform_alone {i₀ : Pid} {Q : Except ε α → W → Prop} {o : Op}
    {f : Res o → Prog Op Res ε α} {w : W}
    (h : ∀ fault, A.step i₀ fault o w →
      Safe M A (.alone i₀) i₀ Q (f (M.exec i₀ fault o w).2)
        (M.exec i₀ fault o w).1) :
    Safe M A (.alone i₀) i₀ Q (Prog.perform o >>= f) w := by
  intro v hv fault _ hadm
  obtain rfl := hv rfl
  exact ⟨rfl, h fault hadm⟩

-- =================================================== the composition

/-- Every process's remaining program is safe. -/
def AllSafe (M : Machine Pid Op Res W) (A : Admission Pid Op W)
    (C : Contract Pid W) (Q : Pid → Except ε α → W → Prop)
    (c : Config Pid Op Res ε α W) : Prop :=
  ∀ i p, c.procs i = some p → Safe M A C i (Q i) p c.world

/-- The change of the world in an admitted step of safe programs: a
guarantee of the process that moved, or an admitted crash. -/
def Moved (M : Machine Pid Op Res W) (A : Admission Pid Op W)
    (C : Contract Pid W) (w v : W) : Prop :=
  (∃ i, C.guar i w v) ∨ ∃ i, A.crash i w ∧ v = M.crash i w

variable [DecidableEq Pid]

/-- A step of safe programs keeps a guarantee and leaves them safe. -/
theorem AllSafe.step (hfit : C.Fits M A)
    {Q : Pid → Except ε α → W → Prop}
    (hQ : ∀ i out u v, Q i out u → C.rely i u v → Q i out v)
    {c c' : Config Pid Op Res ε α W} (h : AllSafe M A C Q c)
    (hstep : Step M A c c') :
    Moved M A C c.world c'.world ∧ AllSafe M A C Q c' := by
  cases hstep with
  | exec i fault o k hprog hen hadm =>
      obtain ⟨hg, hk⟩ :=
        h i _ hprog c.world (hfit.refl i c.world) fault hen hadm
      refine ⟨Or.inl ⟨i, hg⟩, fun j p hj => ?_⟩
      by_cases hij : j = i
      · subst hij
        have hp : k (M.exec j fault o c.world).2 = p := by
          simpa using hj
        exact hp ▸ hk
      · have hj' : c.procs j = some p := by
          simpa [Function.update_of_ne hij] using hj
        exact (h j p hj').rely hfit (hQ j)
          (hfit.guar_rely i j _ _ (Ne.symm hij) hg)
  | crash i hadm =>
      refine ⟨Or.inr ⟨i, hadm, rfl⟩, fun j p hj => ?_⟩
      by_cases hij : j = i
      · subst hij
        simp at hj
      · have hj' : c.procs j = some p := by
          simpa [Function.update_of_ne hij] using hj
        exact (h j p hj').rely hfit (hQ j)
          (hfit.crash_rely i j _ (Ne.symm hij) hadm)

/-- Along every admitted run of safe programs the world moves by
guarantees and crashes only, and the programs stay safe. -/
theorem AllSafe.run (hfit : C.Fits M A)
    {Q : Pid → Except ε α → W → Prop}
    (hQ : ∀ i out u v, Q i out u → C.rely i u v → Q i out v)
    {c c' : Config Pid Op Res ε α W} (h : AllSafe M A C Q c)
    (hrun : Run M A c c') :
    Relation.ReflTransGen (Moved M A C) c.world c'.world ∧
      AllSafe M A C Q c' := by
  induction hrun with
  | refl => exact ⟨.refl, h⟩
  | tail _ hstep ih =>
      obtain ⟨hmoved, hsafe⟩ := ih.2.step hfit hQ hstep
      exact ⟨ih.1.tail hmoved, hsafe⟩

/-- An invariant of every guarantee and every crash is an invariant of
every admitted run. -/
theorem AllSafe.invariant (hfit : C.Fits M A)
    {Q : Pid → Except ε α → W → Prop}
    (hQ : ∀ i out u v, Q i out u → C.rely i u v → Q i out v)
    {I : W → Prop} (keep : ∀ w v, Moved M A C w v → I w → I v)
    {c c' : Config Pid Op Res ε α W} (h : AllSafe M A C Q c)
    (hrun : Run M A c c') (hI : I c.world) : I c'.world := by
  have hall : ∀ v,
      Relation.ReflTransGen (Moved M A C) c.world v → I v := by
    intro v hmoves
    induction hmoves with
    | refl => exact hI
    | tail _ hmove ih => exact keep _ _ hmove ih
  exact hall _ (h.run hfit hQ hrun).1

end Par
