/-
Resumption programs: a program is a tree of atomic operations on a shared
world, with the rest of the program waiting for each operation's answer.

# What a program is

`Prog Op Res ε α` is a program that performs operations `o : Op`, each
answered by a value of `Res o`, and ends with a value of `α` or an
uncaught exception of `ε`. The tree says what the program does next for
every answer, so the same term serves three readings:

- the run of one program alone, `Prog.run`;
- a crash, `Prog.Mid`: the worlds the run passes through, one for every
  number of operations performed so far;
- many programs interleaved (the sibling module `Par`).

# Control flow

`bind`, `tryCatch` and `ensure` are sequencing, `try … except` and
`try … finally`. An exception carries no operation: it skips to the
nearest handler.
-/
import Mathlib.Logic.Function.Basic

/-- A program over the operations `Op`, where `o : Op` is answered by a
`Res o`. -/
inductive Prog (Op : Type) (Res : Op → Type) (ε α : Type) where
  | ret (a : α)
  | raise (e : ε)
  | op (o : Op) (k : Res o → Prog Op Res ε α)

namespace Prog

variable {Op : Type} {Res : Op → Type} {ε α β γ W : Type}

-- ===================================================== control flow

/-- Sequencing: an exception of the first program skips the second. -/
def bind : Prog Op Res ε α → (α → Prog Op Res ε β) → Prog Op Res ε β
  | .ret a, f => f a
  | .raise e, _ => .raise e
  | .op o k, f => .op o fun r => (k r).bind f

/-- `try p except e: h e`. -/
def tryCatch : Prog Op Res ε α → (ε → Prog Op Res ε α) → Prog Op Res ε α
  | .ret a, _ => .ret a
  | .raise e, h => h e
  | .op o k, h => .op o fun r => (k r).tryCatch h

/-- `try p except e: h e` where the handler leaves other exceptions than the
body, or none. -/
def handle {ε' : Type} : Prog Op Res ε α → (ε → Prog Op Res ε' α) → Prog Op Res ε' α
  | .ret a, _ => .ret a
  | .raise e, h => h e
  | .op o k, h => .op o fun r => (k r).handle h

/-- `try p finally q`: `q` runs on both ways out, then the outcome of `p`
goes on. -/
def ensure : Prog Op Res ε α → Prog Op Res ε PUnit → Prog Op Res ε α
  | .ret a, q => q.bind fun _ => .ret a
  | .raise e, q => q.bind fun _ => .raise e
  | .op o k, q => .op o fun r => (k r).ensure q

/-- One operation and its answer. -/
def perform (o : Op) : Prog Op Res ε (Res o) := .op o .ret

/-- What a program that has ended answers. -/
def answer? : Prog Op Res ε α → Option (Except ε α)
  | .ret a => some (.ok a)
  | .raise e => some (.error e)
  | .op _ _ => none

theorem eq_ret_of_answer? {p : Prog Op Res ε α} {a : α} (h : p.answer? = some (.ok a)) :
    p = .ret a := by
  cases p with
  | ret b =>
      cases h
      rfl
  | raise | op => cases h

theorem eq_raise_of_answer? {p : Prog Op Res ε α} {e : ε} (h : p.answer? = some (.error e)) :
    p = .raise e := by
  cases p with
  | raise e' =>
      cases h
      rfl
  | ret | op => cases h

instance : Monad (Prog Op Res ε) where
  pure := .ret
  bind := bind

@[simp] theorem pure_eq (a : α) :
    (pure a : Prog Op Res ε α) = .ret a := rfl

@[simp] theorem ret_bind (a : α) (f : α → Prog Op Res ε β) :
    (.ret a : Prog Op Res ε α) >>= f = f a := rfl

@[simp] theorem raise_bind (e : ε) (f : α → Prog Op Res ε β) :
    (.raise e : Prog Op Res ε α) >>= f = .raise e := rfl

@[simp] theorem op_bind (o : Op) (k : Res o → Prog Op Res ε α)
    (f : α → Prog Op Res ε β) :
    (.op o k : Prog Op Res ε α) >>= f = .op o fun r => k r >>= f := rfl

@[simp] theorem perform_bind (o : Op) (f : Res o → Prog Op Res ε β) :
    (perform o : Prog Op Res ε (Res o)) >>= f = .op o f := rfl

@[simp] theorem ret_tryCatch (a : α) (h : ε → Prog Op Res ε α) :
    (.ret a : Prog Op Res ε α).tryCatch h = .ret a := rfl

@[simp] theorem raise_tryCatch (e : ε) (h : ε → Prog Op Res ε α) :
    (.raise e : Prog Op Res ε α).tryCatch h = h e := rfl

@[simp] theorem op_tryCatch (o : Op) (k : Res o → Prog Op Res ε α)
    (h : ε → Prog Op Res ε α) :
    (.op o k : Prog Op Res ε α).tryCatch h = .op o fun r => (k r).tryCatch h := rfl

/-- Sequencing is associative. -/
theorem bind_bind (p : Prog Op Res ε α) (f : α → Prog Op Res ε β)
    (g : β → Prog Op Res ε γ) :
    p >>= f >>= g = p >>= fun a => f a >>= g := by
  induction p with
  | ret a => rfl
  | raise e => rfl
  | op o k ih =>
      simp only [op_bind]
      congr 1
      funext r
      exact ih r

/-- A program that only returns its value changes nothing. -/
theorem bind_ret (p : Prog Op Res ε α) : p >>= .ret = p := by
  induction p with
  | ret a => rfl
  | raise e => rfl
  | op o k ih =>
      simp only [op_bind]
      congr 1
      funext r
      exact ih r

-- ============================================ one program run alone

/-- The run of one program alone: every operation is performed by `exec`
in order. -/
def run (exec : (o : Op) → W → W × Res o) :
    Prog Op Res ε α → W → Except ε α × W
  | .ret a, w => (.ok a, w)
  | .raise e, w => (.error e, w)
  | .op o k, w => run exec (k (exec o w).2) (exec o w).1

/-- The worlds a run passes through, from the first to the last: where a
crash can leave the world. -/
def Mid (exec : (o : Op) → W → W × Res o) :
    Prog Op Res ε α → W → W → Prop
  | .ret _, w, v => v = w
  | .raise _, w, v => v = w
  | .op o k, w, v => v = w ∨ Mid exec (k (exec o w).2) (exec o w).1 v

/-- The world after at most `n` operations of the run. -/
def after (exec : (o : Op) → W → W × Res o) :
    Nat → Prog Op Res ε α → W → W
  | 0, _, w => w
  | _ + 1, .ret _, w => w
  | _ + 1, .raise _, w => w
  | n + 1, .op o k, w => after exec n (k (exec o w).2) (exec o w).1

section Alone

variable {exec : (o : Op) → W → W × Res o}

@[simp] theorem run_ret (a : α) (w : W) :
    run exec (.ret a : Prog Op Res ε α) w = (.ok a, w) := rfl

@[simp] theorem run_raise (e : ε) (w : W) :
    run exec (.raise e : Prog Op Res ε α) w = (.error e, w) := rfl

@[simp] theorem run_op (o : Op) (k : Res o → Prog Op Res ε α) (w : W) :
    run exec (.op o k) w = run exec (k (exec o w).2) (exec o w).1 := rfl

/-- The run of a sequence, by the outcome of its first part. -/
theorem run_bind (p : Prog Op Res ε α) (f : α → Prog Op Res ε β) (w : W) :
    run exec (p >>= f) w =
      match run exec p w with
      | (.ok a, v) => run exec (f a) v
      | (.error e, v) => (.error e, v) := by
  induction p generalizing w with
  | ret a => rfl
  | raise e => rfl
  | op o k ih => exact ih _ _

/-- The run of a sequence whose first part returns. -/
theorem run_bind_ok {p : Prog Op Res ε α} {f : α → Prog Op Res ε β}
    {w v : W} {a : α} (h : run exec p w = (.ok a, v)) :
    run exec (p >>= f) w = run exec (f a) v := by
  rw [run_bind, h]

/-- The run of a sequence whose first part raises. -/
theorem run_bind_error {p : Prog Op Res ε α} {f : α → Prog Op Res ε β}
    {w v : W} {e : ε} (h : run exec p w = (.error e, v)) :
    run exec (p >>= f) w = (.error e, v) := by
  rw [run_bind, h]

/-- The run of `try … except`, by the outcome of its body. -/
theorem run_tryCatch (p : Prog Op Res ε α) (h : ε → Prog Op Res ε α)
    (w : W) :
    run exec (p.tryCatch h) w =
      match run exec p w with
      | (.ok a, v) => (.ok a, v)
      | (.error e, v) => run exec (h e) v := by
  induction p generalizing w with
  | ret a => rfl
  | raise e => rfl
  | op o k ih => exact ih _ _

/-- The run of a handled program, by the outcome of its body. -/
theorem run_handle {ε' : Type} (p : Prog Op Res ε α) (h : ε → Prog Op Res ε' α) (w : W) :
    run exec (p.handle h) w =
      match run exec p w with
      | (.ok a, v) => (.ok a, v)
      | (.error e, v) => run exec (h e) v := by
  induction p generalizing w with
  | ret a => rfl
  | raise e => rfl
  | op o k ih => exact ih _ _

@[simp] theorem mid_ret {a : α} {w v : W} :
    Mid exec (.ret a : Prog Op Res ε α) w v ↔ v = w := Iff.rfl

@[simp] theorem mid_raise {e : ε} {w v : W} :
    Mid exec (.raise e : Prog Op Res ε α) w v ↔ v = w := Iff.rfl

@[simp] theorem mid_op {o : Op} {k : Res o → Prog Op Res ε α} {w v : W} :
    Mid exec (.op o k) w v ↔
      v = w ∨ Mid exec (k (exec o w).2) (exec o w).1 v := Iff.rfl

/-- A run passes through its first world. -/
theorem mid_start (p : Prog Op Res ε α) (w : W) : Mid exec p w w := by
  cases p with
  | ret a => exact rfl
  | raise e => exact rfl
  | op o k => exact Or.inl rfl

/-- A run passes through its last world. -/
theorem mid_finish (p : Prog Op Res ε α) (w : W) :
    Mid exec p w (run exec p w).2 := by
  induction p generalizing w with
  | ret a => exact rfl
  | raise e => exact rfl
  | op o k ih => exact Or.inr (ih _ _)

/-- A crash inside a sequence falls in its first part or, once that has
returned, in its second. -/
theorem mid_bind {p : Prog Op Res ε α} {f : α → Prog Op Res ε β}
    {w v : W} :
    Mid exec (p >>= f) w v ↔
      Mid exec p w v ∨
        ∃ a u, run exec p w = (.ok a, u) ∧ Mid exec (f a) u v := by
  induction p generalizing w with
  | ret a =>
      constructor
      · intro h
        exact Or.inr ⟨a, w, rfl, h⟩
      · rintro (h | ⟨b, u, hrun, h⟩)
        · subst h
          exact mid_start _ _
        · cases hrun
          exact h
  | raise e =>
      constructor
      · intro h
        exact Or.inl h
      · rintro (h | ⟨b, u, hrun, h⟩)
        · exact h
        · cases hrun
  | op o k ih =>
      show (v = w ∨ Mid exec (k (exec o w).2 >>= f) (exec o w).1 v) ↔ _
      rw [ih]
      simp only [mid_op, run_op]
      exact or_assoc.symm

/-- A crash inside `try … except` falls in the body or, once that has
raised, in the handler. -/
theorem mid_tryCatch {p : Prog Op Res ε α} {h : ε → Prog Op Res ε α}
    {w v : W} :
    Mid exec (p.tryCatch h) w v ↔
      Mid exec p w v ∨
        ∃ e u, run exec p w = (.error e, u) ∧ Mid exec (h e) u v := by
  induction p generalizing w with
  | ret a =>
      constructor
      · intro hmid
        exact Or.inl hmid
      · rintro (hmid | ⟨e, u, hrun, hmid⟩)
        · exact hmid
        · cases hrun
  | raise e =>
      constructor
      · intro hmid
        exact Or.inr ⟨e, w, rfl, hmid⟩
      · rintro (hmid | ⟨e, u, hrun, hmid⟩)
        · subst hmid
          exact mid_start _ _
        · cases hrun
          exact hmid
  | op o k ih =>
      show (v = w ∨ Mid exec ((k (exec o w).2).tryCatch h) (exec o w).1 v) ↔ _
      rw [ih]
      simp only [mid_op, run_op]
      exact or_assoc.symm

/-- The worlds of a run are exactly those after some number of its
operations. -/
theorem mid_iff_after {p : Prog Op Res ε α} {w v : W} :
    Mid exec p w v ↔ ∃ n, after exec n p w = v := by
  induction p generalizing w with
  | ret a =>
      constructor
      · intro h
        exact ⟨0, h.symm⟩
      · rintro ⟨n, rfl⟩
        cases n <;> rfl
  | raise e =>
      constructor
      · intro h
        exact ⟨0, h.symm⟩
      · rintro ⟨n, rfl⟩
        cases n <;> rfl
  | op o k ih =>
      rw [mid_op, ih]
      constructor
      · rintro (rfl | ⟨n, rfl⟩)
        · exact ⟨0, rfl⟩
        · exact ⟨n + 1, rfl⟩
      · rintro ⟨n, rfl⟩
        cases n with
        | zero => exact Or.inl rfl
        | succ n => exact Or.inr ⟨n, rfl⟩

end Alone

-- ==================================================== how a run ends

/-- The run returns with `Q` or raises with `F`. -/
def Ends (exec : (o : Op) → W → W × Res o) (p : Prog Op Res ε α) (w : W)
    (Q : α → W → Prop) (F : ε → W → Prop) : Prop :=
  match run exec p w with
  | (.ok a, v) => Q a v
  | (.error e, v) => F e v

section Ends

variable {exec : (o : Op) → W → W × Res o} {w : W}

@[simp] theorem ends_ret {a : α} {Q : α → W → Prop} {F : ε → W → Prop} :
    Ends exec (.ret a) w Q F ↔ Q a w := Iff.rfl

@[simp] theorem ends_raise {e : ε} {Q : α → W → Prop} {F : ε → W → Prop} :
    Ends exec (.raise e) w Q F ↔ F e w := Iff.rfl

@[simp] theorem ends_op {o : Op} {k : Res o → Prog Op Res ε α} {Q : α → W → Prop}
    {F : ε → W → Prop} :
    Ends exec (.op o k) w Q F ↔ Ends exec (k (exec o w).2) (exec o w).1 Q F := Iff.rfl

/-- A sequence ends as its second part does after its first, or as the first
raises. -/
theorem ends_bind {p : Prog Op Res ε α} {f : α → Prog Op Res ε β} {Q : β → W → Prop}
    {F : ε → W → Prop} :
    Ends exec (p >>= f) w Q F ↔ Ends exec p w (fun a v => Ends exec (f a) v Q F) F := by
  induction p generalizing w with
  | ret a => exact Iff.rfl
  | raise e => exact Iff.rfl
  | op o k ih => exact ih _

/-- A handled program ends as its body returns, or as the handler does after
what the body raised. -/
theorem ends_handle {ε' : Type} {p : Prog Op Res ε α} {h : ε → Prog Op Res ε' α}
    {Q : α → W → Prop} {F : ε' → W → Prop} :
    Ends exec (p.handle h) w Q F ↔ Ends exec p w Q (fun e v => Ends exec (h e) v Q F) := by
  induction p generalizing w with
  | ret a => exact Iff.rfl
  | raise e => exact Iff.rfl
  | op o k ih => exact ih _

theorem Ends.mono {p : Prog Op Res ε α} {Q Q' : α → W → Prop} {F F' : ε → W → Prop}
    (h : Ends exec p w Q F) (hQ : ∀ a v, Q a v → Q' a v) (hF : ∀ e v, F e v → F' e v) :
    Ends exec p w Q' F' := by
  induction p generalizing w with
  | ret a => exact hQ a w h
  | raise e => exact hF e w h
  | op o k ih => exact ih _ h

end Ends

-- ============================ what the operations of a run come upon

/-- Every operation that the run performs satisfies `S` in the world it is
performed in. -/
def Each (exec : (o : Op) → W → W × Res o) (S : Op → W → Prop) :
    Prog Op Res ε α → W → Prop
  | .ret _, _ => True
  | .raise _, _ => True
  | .op o k, w => S o w ∧ Each exec S (k (exec o w).2) (exec o w).1

section Each

variable {exec : (o : Op) → W → W × Res o} {S T : Op → W → Prop}

/-- The operations of a sequence are those of its first part and, once that
has returned, of its second. -/
theorem each_bind {p : Prog Op Res ε α} {f : α → Prog Op Res ε β} {w : W} :
    Each exec S (p >>= f) w ↔
      Each exec S p w ∧ ∀ a u, run exec p w = (.ok a, u) → Each exec S (f a) u := by
  induction p generalizing w with
  | ret a =>
      constructor
      · intro h
        refine ⟨trivial, fun b u hrun => ?_⟩
        cases hrun
        exact h
      · rintro ⟨-, h⟩
        exact h a w rfl
  | raise e =>
      constructor
      · intro h
        exact ⟨h, fun b u hrun => by cases hrun⟩
      · rintro ⟨h, -⟩
        exact h
  | op o k ih =>
      show (S o w ∧ Each exec S (k (exec o w).2 >>= f) (exec o w).1) ↔ _
      rw [ih]
      exact and_assoc.symm

theorem each_tryCatch {p : Prog Op Res ε α} {h : ε → Prog Op Res ε α} {w : W} :
    Each exec S (p.tryCatch h) w ↔
      Each exec S p w ∧ ∀ e u, run exec p w = (.error e, u) → Each exec S (h e) u := by
  induction p generalizing w with
  | ret a =>
      constructor
      · intro heach
        exact ⟨heach, fun e u hrun => by cases hrun⟩
      · rintro ⟨heach, -⟩
        exact heach
  | raise e =>
      constructor
      · intro heach
        refine ⟨trivial, fun d u hrun => ?_⟩
        cases hrun
        exact heach
      · rintro ⟨-, heach⟩
        exact heach e w rfl
  | op o k ih =>
      show (S o w ∧ Each exec S ((k (exec o w).2).tryCatch h) (exec o w).1) ↔ _
      rw [ih]
      exact and_assoc.symm

/-- Along an invariant of the operations, two conditions that say the same
where it holds are met by the same runs. -/
theorem each_congr {I : W → Prop} (keep : ∀ o w, I w → I (exec o w).1)
    {p : Prog Op Res ε α} {w : W} (hw : I w)
    (hR : Each exec (fun o v => I v → (S o v ↔ T o v)) p w) :
    Each exec S p w ↔ Each exec T p w := by
  induction p generalizing w with
  | ret a => exact Iff.rfl
  | raise e => exact Iff.rfl
  | op o k ih => exact and_congr (hR.1 hw) (ih _ (keep o w hw) hR.2)

/-- A run whose operations meet a condition meets a weaker one. -/
theorem Each.mono {p : Prog Op Res ε α} {w : W} (h : Each exec S p w)
    (hST : ∀ o v, S o v → T o v) : Each exec T p w := by
  induction p generalizing w with
  | ret a => trivial
  | raise e => trivial
  | op o k ih => exact ⟨hST o w h.1, ih _ h.2⟩

end Each

-- ============================== facts kept by every operation of a kind

/-- Every operation the program can come to satisfies `S`. -/
def Uses (S : Op → Prop) : Prog Op Res ε α → Prop
  | .ret _ => True
  | .raise _ => True
  | .op o k => S o ∧ ∀ r, Uses S (k r)

section Uses

variable {S : Op → Prop}

@[simp] theorem uses_ret (a : α) : Uses S (.ret a : Prog Op Res ε α) :=
  trivial

@[simp] theorem uses_raise (e : ε) : Uses S (.raise e : Prog Op Res ε α) :=
  trivial

@[simp] theorem uses_op {o : Op} {k : Res o → Prog Op Res ε α} :
    Uses S (.op o k) ↔ S o ∧ ∀ r, Uses S (k r) := Iff.rfl

/-- A sequence comes to the operations of both parts. -/
theorem Uses.bind {p : Prog Op Res ε α} {f : α → Prog Op Res ε β}
    (hp : Uses S p) (hf : ∀ a, Uses S (f a)) : Uses S (p >>= f) := by
  induction p with
  | ret a => exact hf a
  | raise e => trivial
  | op o k ih => exact ⟨hp.1, fun r => ih r (hp.2 r)⟩

/-- A handled program comes to the operations of its body and of its
handler. -/
theorem Uses.tryCatch {p : Prog Op Res ε α} {h : ε → Prog Op Res ε α}
    (hp : Uses S p) (hh : ∀ e, Uses S (h e)) : Uses S (p.tryCatch h) := by
  induction p with
  | ret a => trivial
  | raise e => exact hh e
  | op o k ih => exact ⟨hp.1, fun r => ih r (hp.2 r)⟩

/-- A program closed by another comes to the operations of both. -/
theorem Uses.ensure {p : Prog Op Res ε α} {q : Prog Op Res ε PUnit}
    (hp : Uses S p) (hq : Uses S q) : Uses S (p.ensure q) := by
  induction p with
  | ret a => exact hq.bind fun _ => trivial
  | raise e => exact hq.bind fun _ => trivial
  | op o k ih => exact ⟨hp.1, fun r => ih r (hp.2 r)⟩

/-- A wider kind of operations. -/
theorem Uses.mono {T : Op → Prop} {p : Prog Op Res ε α} (hp : Uses S p)
    (hST : ∀ o, S o → T o) : Uses T p := by
  induction p with
  | ret a => trivial
  | raise e => trivial
  | op o k ih => exact ⟨hST o hp.1, fun r => ih r (hp.2 r)⟩

/-- A run of operations of a kind meets every condition that they meet. -/
theorem Uses.each {exec : (o : Op) → W → W × Res o} {T : Op → W → Prop}
    {p : Prog Op Res ε α} (hp : Uses S p) (hST : ∀ o w, S o → T o w) (w : W) :
    Each exec T p w := by
  induction p generalizing w with
  | ret a => trivial
  | raise e => trivial
  | op o k ih => exact ⟨hST o w hp.1, ih _ (hp.2 _) _⟩

/-- What every operation of a kind keeps, every world of a run of such
operations has. -/
theorem Uses.mid {exec : (o : Op) → W → W × Res o} {I : W → Prop}
    {p : Prog Op Res ε α} (hp : Uses S p)
    (keep : ∀ o w, S o → I w → I (exec o w).1) {w v : W} (hw : I w)
    (hmid : Mid exec p w v) : I v := by
  induction p generalizing w with
  | ret a => exact hmid ▸ hw
  | raise e => exact hmid ▸ hw
  | op o k ih =>
      rcases hmid with rfl | hmid
      · exact hw
      · exact ih _ (hp.2 _) (keep o w hp.1 hw) hmid

/-- What every operation of a kind keeps, the last world of a run of such
operations has. -/
theorem Uses.run {exec : (o : Op) → W → W × Res o} {I : W → Prop}
    {p : Prog Op Res ε α} (hp : Uses S p)
    (keep : ∀ o w, S o → I w → I (exec o w).1) {w : W} (hw : I w) :
    I (Prog.run exec p w).2 :=
  hp.mid keep hw (mid_finish p w)

/-- What every operation of a kind keeps holds however a run of such
operations ends. -/
theorem Uses.ends {exec : (o : Op) → W → W × Res o} {I : W → Prop}
    {p : Prog Op Res ε α} (hp : Uses S p)
    (keep : ∀ o w, S o → I w → I (exec o w).1) {w : W} (hw : I w) :
    Ends exec p w (fun _ => I) (fun _ => I) := by
  induction p generalizing w with
  | ret a => exact hw
  | raise e => exact hw
  | op o k ih => exact ih _ (hp.2 _) (keep o w hp.1 hw)

end Uses

-- ==================================================== no exceptions

/-- No answers lead the program to an uncaught exception. -/
def Returns : Prog Op Res ε α → Prop
  | .ret _ => True
  | .raise _ => False
  | .op _ k => ∀ r, Returns (k r)

theorem Returns.bind {p : Prog Op Res ε α} {f : α → Prog Op Res ε β}
    (hp : Returns p) (hf : ∀ a, Returns (f a)) : Returns (p >>= f) := by
  induction p with
  | ret a => exact hf a
  | raise e => exact hp.elim
  | op o k ih => exact fun r => ih r (hp r)

/-- A handler that returns makes a program that returns. -/
theorem Returns.tryCatch {p : Prog Op Res ε α} {h : ε → Prog Op Res ε α}
    (hh : ∀ e, Returns (h e)) : Returns (p.tryCatch h) := by
  induction p with
  | ret a => trivial
  | raise e => exact hh e
  | op o k ih => exact fun r => ih r

end Prog
