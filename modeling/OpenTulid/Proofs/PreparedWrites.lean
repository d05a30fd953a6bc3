/-
The writes of several files take effect together or not at all.

# The invariant

`Staged` describes the tree between two calls of the body or of the
handler, over the tree it began with: which temporary files there are and
what they hold, which targets have been replaced, and that everything else
is as before (`AsBefore`) or a directory made for a target. One lemma for
each kind of call says what it does to `Staged`; the loops follow by
induction on their lists, and the handler takes the temporary files and the
replaced targets away again, one by one.

# The directory above a target

Directories made for a target are kept. Where a target lies below another,
that directory stands at the other target, which was absent.
-/
import OpenTulid.Adapters.PreparedWrites

namespace OpenTulid.PreparedWrites

-- ============================================================= the tree

section Tree

variable (t₀ : FileTree) (writes : List PreparedWrite)

/-- A directory that was made for a target. -/
def MadeFor (t : FileTree) (q : RelPath) : Prop :=
  t₀.node q = none ∧ t.node q = some .dir ∧ ∃ w ∈ writes, q <+: w.path.dropLast

/-- The path holds what it held, but for the permission bits of a file. -/
def SameBytes (t : FileTree) (q : RelPath) : Prop :=
  t.node q = t₀.node q ∨
    ∃ f mode, t₀.node q = some (.file f) ∧ t.node q = some (.file ⟨f.content, mode⟩)

/-- The path is as before the writes. -/
def AsBefore (t : FileTree) (q : RelPath) : Prop :=
  t.node q = t₀.node q ∨ MadeFor t₀ writes t q ∨
    (∃ w ∈ writes, w.path = q) ∧ SameBytes t₀ t q

/-- A path where nothing stood, and which does not lead to a target. -/
def Fresh (q : RelPath) : Prop := t₀.node q = none ∧ ∀ w ∈ writes, ¬ q <+: w.path

/-- What `originals` has of a target. -/
def originalOf (w : PreparedWrite) : Original := (w.path, (t₀.file? w.path).map (·.content))

/-- The tree with the temporary files `live` and the targets of `done`
replaced. -/
structure Staged (live : List (RelPath × Content)) (done : List PreparedWrite)
    (t : FileTree) : Prop where
  kept : ∀ q, q ∉ live.map (·.1) → (∀ w ∈ done, w.path ≠ q) → AsBefore t₀ writes t q
  temps : ∀ e ∈ live, ∃ mode, t.node e.1 = some (.file ⟨e.2, mode⟩)
  fresh : ∀ e ∈ live, Fresh t₀ writes e.1
  nodup : (live.map (·.1)).Nodup
  written : ∀ w ∈ done, ∃ mode, t.node w.path = some (.file ⟨encode w.content, mode⟩)

end Tree

variable {t₀ t t' : FileTree} {writes done : List PreparedWrite} {live : List (RelPath × Content)}

theorem asBefore_congr {q : RelPath} (h : t'.node q = t.node q) (ht : AsBefore t₀ writes t q) :
    AsBefore t₀ writes t' q := by
  unfold AsBefore MadeFor SameBytes at *
  rwa [h]

/-- Nothing stood where nothing stands and nothing was written. -/
theorem none_of_asBefore {q : RelPath} (h : AsBefore t₀ writes t q) (hq : t.node q = none) :
    t₀.node q = none := by
  rcases h with h | ⟨h, -⟩ | ⟨-, h | ⟨f, mode, -, h⟩⟩
  · rw [← h, hq]
  · exact h
  · rw [← h, hq]
  · rw [hq] at h
    cases h

/-- A file that is as before holds the bytes it held. -/
theorem file_of_asBefore {q : RelPath} {f : FileImage} (h : AsBefore t₀ writes t q)
    (hq : t.node q = some (.file f)) :
    ∃ f₀, t₀.node q = some (.file f₀) ∧ f₀.content = f.content := by
  rcases h with h | ⟨-, h, -⟩ | ⟨-, h | ⟨f₀, mode, h₀, h⟩⟩
  · exact ⟨f, by rw [← h, hq], rfl⟩
  · rw [hq] at h
    cases h
  · exact ⟨f, by rw [← h, hq], rfl⟩
  · rw [hq] at h
    cases h
    exact ⟨f₀, h₀, rfl⟩

/-- A fresh path that is as before is empty. -/
theorem node_of_fresh {q : RelPath} (h : AsBefore t₀ writes t q) (hq : Fresh t₀ writes q) :
    t.node q = none := by
  rcases h with h | ⟨-, -, w, hw, hpre⟩ | ⟨⟨w, hw, rfl⟩, -⟩
  · rw [h, hq.1]
  · exact absurd (hpre.trans (List.dropLast_prefix _)) (hq.2 w hw)
  · exact absurd (List.prefix_refl _) (hq.2 w hw)

namespace Staged

theorem start : Staged t₀ writes [] [] t₀ where
  kept := fun _ _ _ => .inl rfl
  temps := nofun
  fresh := nofun
  nodup := List.nodup_nil
  written := nofun

/-- Only the targets that were replaced matter, not their order. -/
theorem of_mem {done' : List PreparedWrite} (h : Staged t₀ writes live done t)
    (hmem : ∀ w, w ∈ done ↔ w ∈ done') : Staged t₀ writes live done' t where
  kept := fun q hq hdone => h.kept q hq fun w hw => hdone w ((hmem w).mp hw)
  temps := h.temps
  fresh := h.fresh
  nodup := h.nodup
  written := fun w hw => h.written w ((hmem w).mpr hw)

/-- Where nothing stands there is no temporary file. -/
theorem not_mem_of_none {q : RelPath} (h : Staged t₀ writes live done t)
    (hq : t.node q = none) : q ∉ live.map (·.1) := by
  intro hmem
  obtain ⟨e, he, rfl⟩ := List.mem_map.mp hmem
  obtain ⟨mode, hnode⟩ := h.temps e he
  rw [hq] at hnode
  cases hnode

/-- Where nothing stands there is no replaced target. -/
theorem ne_of_none {q : RelPath} (h : Staged t₀ writes live done t) (hq : t.node q = none) :
    ∀ w ∈ done, w.path ≠ q := by
  intro w hw heq
  obtain ⟨mode, hnode⟩ := h.written w hw
  rw [heq, hq] at hnode
  cases hnode

/-- A temporary file is no target. -/
theorem path_not_mem {w : PreparedWrite} (h : Staged t₀ writes live done t) (hw : w ∈ writes) :
    w.path ∉ live.map (·.1) := by
  intro hmem
  obtain ⟨e, he, heq⟩ := List.mem_map.mp hmem
  exact (h.fresh e he).2 w hw (heq ▸ List.prefix_refl _)

/-- Nothing stood at a path where nothing stands. -/
theorem none_before {q : RelPath} (h : Staged t₀ writes live done t) (hq : t.node q = none) :
    t₀.node q = none :=
  none_of_asBefore (h.kept q (h.not_mem_of_none hq) (h.ne_of_none hq)) hq

/-- A directory is made above a target. -/
theorem mkdir {w : PreparedWrite} {p : RelPath} (h : Staged t₀ writes live done t)
    (hw : w ∈ writes) (hp : p <+: w.path.dropLast) (hnone : t.node p = none)
    (hnode : ∀ q, t'.node q = if q = p then some .dir else t.node q) :
    Staged t₀ writes live done t' where
  kept := fun q hq hdone => by
    by_cases hqp : q = p
    · subst hqp
      exact .inr (.inl ⟨h.none_before hnone, by rw [hnode, if_pos rfl], w, hw, hp⟩)
    · exact asBefore_congr (by rw [hnode, if_neg hqp]) (h.kept q hq hdone)
  temps := fun e he => by
    have hne : e.1 ≠ p := fun heq =>
      h.not_mem_of_none hnone (heq ▸ List.mem_map_of_mem he)
    rw [hnode, if_neg hne]
    exact h.temps e he
  fresh := h.fresh
  nodup := h.nodup
  written := fun w' hw' => by
    rw [hnode, if_neg (h.ne_of_none hnone w' hw')]
    exact h.written w' hw'

/-- A temporary file is opened. -/
theorem mkstemp {p : RelPath} {mode : Mode} (h : Staged t₀ writes live done t)
    (hp : ∀ w ∈ writes, ¬ p <+: w.path) (hdone : ∀ w ∈ done, w ∈ writes)
    (hnone : t.node p = none)
    (hnode : ∀ q, t'.node q = if q = p then some (.file ⟨[], mode⟩) else t.node q) :
    Staged t₀ writes (live ++ [(p, [])]) done t' where
  kept := fun q hq hdone => by
    rw [List.map_append, List.mem_append, not_or] at hq
    have hqp : q ≠ p := fun heq => hq.2 (by rw [heq]; exact List.mem_singleton_self _)
    exact asBefore_congr (by rw [hnode, if_neg hqp]) (h.kept q hq.1 hdone)
  temps := fun e he => by
    rcases List.mem_append.mp he with he | he
    · have hne : e.1 ≠ p := fun heq =>
        h.not_mem_of_none hnone (heq ▸ List.mem_map_of_mem he)
      rw [hnode, if_neg hne]
      exact h.temps e he
    · rw [List.mem_singleton.mp he]
      exact ⟨mode, by rw [hnode, if_pos rfl]⟩
  fresh := fun e he => by
    rcases List.mem_append.mp he with he | he
    · exact h.fresh e he
    · rw [List.mem_singleton.mp he]
      exact ⟨h.none_before hnone, hp⟩
  nodup := by
    rw [List.map_append, List.map_singleton, List.nodup_append]
    refine ⟨h.nodup, List.nodup_cons.mpr ⟨List.not_mem_nil, List.nodup_nil⟩, ?_⟩
    intro q hq q' hq' heq
    rw [heq, List.mem_singleton.mp hq'] at hq
    exact h.not_mem_of_none hnone hq
  written := fun w hw => by
    have hne : w.path ≠ p := fun heq => hp w (hdone w hw) (heq ▸ List.prefix_refl _)
    rw [hnode, if_neg hne]
    exact h.written w hw

/-- The last temporary file grows. -/
theorem fill {p : RelPath} {content content' : Content} {mode : Mode}
    (h : Staged t₀ writes (live ++ [(p, content)]) done t) (hdone : ∀ w ∈ done, w ∈ writes)
    (hnode : ∀ q, t'.node q = if q = p then some (.file ⟨content', mode⟩) else t.node q) :
    Staged t₀ writes (live ++ [(p, content')]) done t' where
  kept := fun q hq hdone => by
    rw [List.map_append] at hq
    have hqp : q ≠ p := fun heq =>
      hq (List.mem_append_right _ (by rw [heq]; exact List.mem_singleton_self _))
    refine asBefore_congr (by rw [hnode, if_neg hqp]) (h.kept q ?_ hdone)
    rw [List.map_append]
    exact hq
  temps := fun e he => by
    have hnodup := h.nodup
    rw [List.map_append, List.nodup_append] at hnodup
    rcases List.mem_append.mp he with he | he
    · have hne : e.1 ≠ p :=
        hnodup.2.2 _ (List.mem_map_of_mem he) _ (List.mem_singleton_self _)
      rw [hnode, if_neg hne]
      exact h.temps e (List.mem_append_left _ he)
    · rw [List.mem_singleton.mp he]
      exact ⟨mode, by rw [hnode, if_pos rfl]⟩
  fresh := fun e he => by
    rcases List.mem_append.mp he with he | he
    · exact h.fresh e (List.mem_append_left _ he)
    · rw [List.mem_singleton.mp he]
      exact h.fresh (p, content) (List.mem_append_right _ (List.mem_singleton_self _))
  nodup := by
    have hnodup := h.nodup
    rw [List.map_append] at hnodup ⊢
    exact hnodup
  written := fun w hw => by
    have hne : w.path ≠ p := fun heq =>
      (h.fresh (p, content) (List.mem_append_right _ (List.mem_singleton_self _))).2 w
        (hdone w hw) (heq ▸ List.prefix_refl _)
    rw [hnode, if_neg hne]
    exact h.written w hw

/-- The first temporary file takes the place of its target. -/
theorem replace {w : PreparedWrite} {p : RelPath} {mode : Mode}
    (h : Staged t₀ writes ((p, encode w.content) :: live) done t) (hw : w ∈ writes)
    (hdone : ∀ w' ∈ done, w' ∈ writes ∧ w'.path ≠ w.path)
    (hnode : ∀ q, t'.node q = if q = p then none
      else if q = w.path then some (.file ⟨encode w.content, mode⟩) else t.node q) :
    Staged t₀ writes live (done ++ [w]) t' := by
  have hfresh : Fresh t₀ writes p := h.fresh _ List.mem_cons_self
  have hnodup := h.nodup
  rw [List.map_cons, List.nodup_cons] at hnodup
  have hpath : w.path ≠ p := fun heq => hfresh.2 w hw (heq ▸ List.prefix_refl _)
  exact {
    kept := fun q hq hdone' => by
      have hqw : q ≠ w.path := fun heq =>
        hdone' w (List.mem_append_right _ (List.mem_singleton_self _)) heq.symm
      by_cases hqp : q = p
      · exact .inl (by rw [hnode, if_pos hqp, hqp, hfresh.1])
      · refine asBefore_congr (by rw [hnode, if_neg hqp, if_neg hqw]) (h.kept q ?_ ?_)
        · rw [List.map_cons, List.mem_cons, not_or]
          exact ⟨hqp, hq⟩
        · exact fun w' hw' => hdone' w' (List.mem_append_left _ hw')
    temps := fun e he => by
      have hne : e.1 ≠ p := fun heq => hnodup.1 (List.mem_map.mpr ⟨e, he, heq⟩)
      have hne' : e.1 ≠ w.path := fun heq =>
        (h.fresh e (List.mem_cons_of_mem _ he)).2 w hw (heq ▸ List.prefix_refl _)
      rw [hnode, if_neg hne, if_neg hne']
      exact h.temps e (List.mem_cons_of_mem _ he)
    fresh := fun e he => h.fresh e (List.mem_cons_of_mem _ he)
    nodup := hnodup.2
    written := fun w' hw' => by
      rcases List.mem_append.mp hw' with hw' | hw'
      · have hne : w'.path ≠ p := fun heq =>
          hfresh.2 w' (hdone w' hw').1 (heq ▸ List.prefix_refl _)
        rw [hnode, if_neg hne, if_neg (hdone w' hw').2]
        exact h.written w' hw'
      · rw [List.mem_singleton.mp hw']
        exact ⟨mode, by rw [hnode, if_neg hpath, if_pos rfl]⟩ }

/-- A replaced target is given back. -/
theorem restore {w : PreparedWrite} (h : Staged t₀ writes live (w :: done) t) (hw : w ∈ writes)
    (hdone : ∀ w' ∈ done, w'.path ≠ w.path) (hother : ∀ q, q ≠ w.path → t'.node q = t.node q)
    (hself : SameBytes t₀ t' w.path) : Staged t₀ writes live done t' where
  kept := fun q hq hdone' => by
    by_cases hqw : q = w.path
    · rw [hqw]
      exact .inr (.inr ⟨⟨w, hw, rfl⟩, hself⟩)
    · refine asBefore_congr (hother q hqw) (h.kept q hq ?_)
      intro w' hw'
      rcases List.mem_cons.mp hw' with rfl | hw'
      · exact Ne.symm hqw
      · exact hdone' w' hw'
  temps := fun e he => by
    have hne : e.1 ≠ w.path := fun heq =>
      h.path_not_mem hw (heq ▸ List.mem_map_of_mem he)
    rw [hother _ hne]
    exact h.temps e he
  fresh := h.fresh
  nodup := h.nodup
  written := fun w' hw' => by
    rw [hother _ (hdone w' hw')]
    exact h.written w' (List.mem_cons_of_mem _ hw')

/-- A temporary file is removed. -/
theorem remove {p : RelPath} (h : Staged t₀ writes live [] t) (hp : Fresh t₀ writes p)
    (hnode : ∀ q, t'.node q = if q = p then none else t.node q) :
    Staged t₀ writes (live.filter fun e => e.1 ≠ p) [] t' where
  kept := fun q hq _ => by
    by_cases hqp : q = p
    · exact .inl (by rw [hnode, if_pos hqp, hqp, hp.1])
    · refine asBefore_congr (by rw [hnode, if_neg hqp]) (h.kept q ?_ nofun)
      intro hmem
      obtain ⟨e, he, rfl⟩ := List.mem_map.mp hmem
      exact hq (List.mem_map_of_mem (List.mem_filter.mpr ⟨he, decide_eq_true hqp⟩))
  temps := fun e he => by
    obtain ⟨he, hne⟩ := List.mem_filter.mp he
    rw [hnode, if_neg (of_decide_eq_true hne)]
    exact h.temps e he
  fresh := fun e he => h.fresh e (List.mem_filter.mp he).1
  nodup := h.nodup.sublist ((List.filter_sublist).map _)
  written := nofun

end Staged

-- ============================================================== the calls

/-- No call fails from a number on. -/
def Calm (host : Host) (calls : Nat) : Prop := ∀ n, calls ≤ n → host.fault n = none

theorem Calm.next {host : Host} {n : Nat} (h : Calm host n) : Calm host (n + 1) :=
  fun k hk => h k (Nat.le_of_succ_le hk)

/-- A random name that `mkstemp` may try is no target and leads to none. -/
def NamesApart (host : Host) (writes : List PreparedWrite) : Prop :=
  ∀ w ∈ writes, ∀ n, ∀ random ∈ host.drawn n, ∀ w' ∈ writes,
    ¬ tempPath w.path.dropLast (w.path.getLast?.getD "") random <+: w'.path

variable {host : Host} {m : Machine}

theorem exec_of_fault {call : Call} {e : Errno} (h : host.fault m.calls = some e) :
    host.exec call m = (⟨m.tree, m.calls + 1⟩, .error e) := by
  unfold Host.exec
  rw [h]

theorem exec_of_not_fault {call : Call} (h : host.fault m.calls = none) :
    host.exec call m =
      (⟨(call.perform (host.drawn m.calls) m.tree).1, m.calls + 1⟩,
        (call.perform (host.drawn m.calls) m.tree).2) := by
  unfold Host.exec
  rw [h]

/-- A call fails by itself or ends as its effect says. -/
theorem ends_attempt {call : Call} {Q : call.Value → Machine → Prop}
    {F : Errno → Machine → Prop}
    (hfault : ∀ e, host.fault m.calls = some e → F e ⟨m.tree, m.calls + 1⟩)
    (hok : ∀ t' v, call.perform (host.drawn m.calls) m.tree = (t', .ok v) →
      Q v ⟨t', m.calls + 1⟩)
    (herror : ∀ t' e, call.perform (host.drawn m.calls) m.tree = (t', .error e) →
      F e ⟨t', m.calls + 1⟩) :
    Prog.Ends host.exec (attempt call) m Q F := by
  unfold attempt
  rw [Prog.ends_op]
  cases hcall : host.fault m.calls with
  | some e =>
      rw [exec_of_fault hcall]
      exact hfault e hcall
  | none =>
      rw [exec_of_not_fault hcall]
      dsimp only
      cases h : call.perform (host.drawn m.calls) m.tree with
      | mk t' answer =>
          cases answer with
          | ok v => exact hok t' v h
          | error e => exact herror t' e h

/-- A call that changes the tree only when it succeeds. -/
theorem changing_eq {x : Except Errno FileTree} {answer : Except Errno Unit}
    (h : changing t x = (t', answer)) :
    (x = .ok t' ∧ answer = .ok ()) ∨ ∃ e, x = .error e ∧ t' = t ∧ answer = .error e := by
  cases x with
  | ok s =>
      cases h
      exact .inl ⟨rfl, rfl⟩
  | error e =>
      cases h
      exact .inr ⟨e, rfl, rfl, rfl⟩

/-- The tree with a file of known content at one path. -/
def WithFile (t : FileTree) (p : RelPath) (content : Content) (t' : FileTree) : Prop :=
  ∃ mode, ∀ q, t'.node q = if q = p then some (.file ⟨content, mode⟩) else t.node q

theorem WithFile.append {p : RelPath} {content block : Content} {t'' : FileTree}
    (h : WithFile t p content t') (hwrite : t'.write (.append p block) = .ok t'') :
    WithFile t p (content ++ block) t'' := by
  obtain ⟨mode, hnode⟩ := h
  have hp : t'.node p = some (.file ⟨content, mode⟩) := by rw [hnode, if_pos rfl]
  refine ⟨mode, fun q => ?_⟩
  rw [FileTree.write_node hwrite]
  show (if q = p then t'.written (.append p block) else t'.node q) = _
  split
  next => simp only [FileTree.written, hp]
  next hne => rw [hnode, if_neg hne]

/-- The blocks written reach the file in their order; only a call that fails
stops them. -/
theorem ends_writeBlocks {p : RelPath} {content : Content} (blocks : List Content)
    (h : WithFile t p content m.tree) :
    Prog.Ends host.exec (writeBlocks p blocks) m
      (fun _ v => WithFile t p (content ++ blocks.flatten) v.tree ∧ m.calls ≤ v.calls)
      (fun _ v => (∃ written, WithFile t p written v.tree) ∧ ¬ Calm host m.calls) := by
  induction blocks generalizing content m with
  | nil =>
      refine ⟨?_, Nat.le_refl _⟩
      rw [List.flatten_nil, List.append_nil]
      exact h
  | cons block blocks ih =>
      unfold writeBlocks
      rw [Prog.ends_bind]
      refine ends_attempt ?_ ?_ ?_
      · intro e he
        refine ⟨⟨content, h⟩, fun hcalm => ?_⟩
        rw [hcalm _ (Nat.le_refl _)] at he
        cases he
      · intro t' v hperform
        rcases changing_eq hperform with ⟨hwrite, -⟩ | ⟨e, -, -, h⟩
        · refine (ih (h.append hwrite)).mono ?_ ?_
          · intro _ u hu
            rw [List.flatten_cons, ← List.append_assoc]
            exact ⟨hu.1, Nat.le_of_succ_le hu.2⟩
          · exact fun _ u hu => ⟨hu.1, fun hcalm => hu.2 hcalm.next⟩
        · cases h
      · intro t' e hperform
        obtain ⟨t'', hwrite⟩ := FileTree.write_append m.tree p block
        rcases changing_eq hperform with ⟨-, h⟩ | ⟨e, h, -, -⟩
        · cases h
        · rw [hwrite] at h
          cases h

-- ================================================================ the body

/-- The calls by which a directory is made. -/
def Making (dir : RelPath) : Call → Prop
  | .mkdir p => p <+: dir
  | .isDir _ => True
  | _ => False

theorem uses_mkdirOr {dir p : RelPath} {missing : Sys Errno Unit} (hp : p <+: dir)
    (h : Prog.Uses (Making dir) missing) : Prog.Uses (Making dir) (mkdirOr p missing) := by
  refine ⟨hp, fun answer => ?_⟩
  cases answer with
  | ok _ => trivial
  | error e =>
      cases e with
      | enoent => exact h
      | _ =>
          refine ⟨trivial, fun there => ?_⟩
          cases there with
          | error _ => trivial
          | ok there => cases there <;> trivial

theorem uses_mkdirUp {dir : RelPath} (names : List String) (h : names.reverse <+: dir) :
    Prog.Uses (Making dir) (mkdirUp names) := by
  induction names with
  | nil => exact uses_mkdirOr h trivial
  | cons name up ih =>
      have hup : up.reverse <+: dir := by
        rw [List.reverse_cons] at h
        exact (List.prefix_append _ _).trans h
      exact uses_mkdirOr h ((ih hup).bind fun _ => uses_mkdirOr h trivial)

/-- Making the directories of a target. -/
theorem keeps_making {w : PreparedWrite} (hw : w ∈ writes) (call : Call) (m : Machine)
    (hcall : Making w.path.dropLast call) (h : Staged t₀ writes live done m.tree) :
    Staged t₀ writes live done (host.exec call m).1.tree := by
  unfold Host.exec
  split
  next => exact h
  next =>
    cases call with
    | mkdir p =>
        show Staged t₀ writes live done (changing m.tree (m.tree.write (.mkdir p))).1
        cases hwrite : m.tree.write (.mkdir p) with
        | error e => exact h
        | ok t' =>
            show Staged t₀ writes live done t'
            refine h.mkdir hw hcall (FileTree.node_of_write_mkdir hwrite) fun q => ?_
            rw [FileTree.write_node hwrite]
            rfl
    | isDir p => exact h
    | _ => exact hcall.elim

theorem ends_mkdirParents {w : PreparedWrite} (hw : w ∈ writes)
    (h : Staged t₀ writes live done m.tree) :
    Prog.Ends host.exec (mkdirParents w.path.dropLast) m
      (fun _ v => Staged t₀ writes live done v.tree)
      (fun _ v => Staged t₀ writes live done v.tree) := by
  have huses : Prog.Uses (Making w.path.dropLast) (mkdirParents w.path.dropLast) :=
    uses_mkdirUp _ (by rw [List.reverse_reverse])
  exact huses.ends (fun call v hcall hv => keeps_making hw call v hcall hv) h

/-- What is read of a target is what it held before the writes. -/
theorem ends_readOriginal {w : PreparedWrite} (hw : w ∈ writes)
    (h : Staged t₀ writes live [] m.tree) :
    Prog.Ends host.exec (readOriginal w.path) m
      (fun original v => Staged t₀ writes live [] v.tree ∧
        (w.path, original) = originalOf t₀ w ∧ t₀.node w.path ≠ some .dir)
      (fun _ v => Staged t₀ writes live [] v.tree) := by
  unfold readOriginal
  rw [Prog.ends_bind]
  refine (ends_mkdirParents hw h).mono (fun _ v hv => ?_) fun _ _ hv => hv
  have hkept := hv.kept w.path (hv.path_not_mem hw) nofun
  rw [Prog.ends_bind]
  refine ends_attempt (fun _ _ => hv) ?_ ?_
  · intro t' there hperform
    cases hperform
    cases hnode : v.tree.node w.path with
    | none =>
        have hnone := none_of_asBefore hkept hnode
        refine ⟨hv, ?_, by rw [hnone]; exact nofun⟩
        unfold originalOf FileTree.file?
        rw [hnone]
        rfl
    | some n =>
        show Prog.Ends host.exec (attempt (.readBytes w.path) >>= _) _ _ _
        rw [Prog.ends_bind]
        refine ends_attempt (fun _ _ => hv) ?_ ?_
        · intro t' bytes hread
          unfold Call.perform at hread
          dsimp only at hread
          rw [hnode] at hread
          cases n with
          | dir => cases hread
          | file f =>
              cases hread
              obtain ⟨f₀, hfile, hcontent⟩ := file_of_asBefore hkept hnode
              refine ⟨hv, ?_, by rw [hfile]; exact nofun⟩
              unfold originalOf
              rw [FileTree.file?_eq_some.mpr hfile, Option.map_some, hcontent]
        · intro t' e hread
          unfold Call.perform at hread
          dsimp only at hread
          rw [hnode] at hread
          cases n with
          | dir =>
              cases hread
              exact hv
          | file f => cases hread
  · intro t' e hperform
    cases hperform

/-- What a failed body has left: temporary files that are all known, and
replaced targets whose originals are all known. -/
structure Broken (t₀ : FileTree) (writes : List PreparedWrite) (progress : Progress)
    (t : FileTree) (live : List (RelPath × Content)) (done : List PreparedWrite) : Prop where
  staged : Staged t₀ writes live done t
  temps : ∀ p ∈ progress.tempPaths, Fresh t₀ writes p
  live_mem : ∀ e ∈ live, e.1 ∈ progress.tempPaths
  replaced : progress.replaced = done.map (originalOf t₀)
  done_mem : ∀ w ∈ done, w ∈ writes
  done_file : ∀ w ∈ done, t₀.node w.path ≠ some .dir
  distinct : (done.map (·.path)).Nodup

/-- How the body may fail. -/
def Fails (t₀ : FileTree) (writes : List PreparedWrite) (i : Interrupted) (m : Machine) : Prop :=
  ∃ live done, Broken t₀ writes i.progress m.tree live done

/-- Where nothing is replaced yet, the temporary files are what there is to
know. -/
theorem fails_of_staged {i : Interrupted} (h : Staged t₀ writes live [] m.tree)
    (htemps : i.progress.tempPaths = live.map (·.1)) (hreplaced : i.progress.replaced = []) :
    Fails t₀ writes i m := by
  refine ⟨live, [], h, ?_, ?_, hreplaced, nofun, nofun, List.nodup_nil⟩
  · intro p hp
    rw [htemps] at hp
    obtain ⟨e, he, rfl⟩ := List.mem_map.mp hp
    exact h.fresh e he
  · intro e he
    rw [htemps]
    exact List.mem_map_of_mem he

/-- The state of the first loop after `front`. -/
structure Prepared (t₀ : FileTree) (writes front : List PreparedWrite) (progress : Progress)
    (live : List (RelPath × Content)) (t : FileTree) : Prop where
  staged : Staged t₀ writes live [] t
  temps : progress.tempPaths = live.map (·.1)
  contents : live.map (·.2) = front.map fun w => encode w.content
  originals : progress.originals = front.map (originalOf t₀)
  replaced : progress.replaced = []
  front_file : ∀ w ∈ front, t₀.node w.path ≠ some .dir

theorem ends_during {α : Type} {progress : Progress} {p : Sys Errno α} {Q : α → Machine → Prop}
    {F : Interrupted → Machine → Prop} :
    Prog.Ends host.exec (during progress p) m Q F ↔
      Prog.Ends host.exec p m Q fun e v => F ⟨e, progress⟩ v :=
  Prog.ends_handle

/-- A temporary file is made next to its target. -/
theorem ends_mkstemp {w : PreparedWrite} (hw : w ∈ writes) (hnames : NamesApart host writes)
    (h : Staged t₀ writes live [] m.tree) :
    Prog.Ends host.exec
      (attempt (.mkstemp w.path.dropLast (w.path.getLast?.getD ""))) m
      (fun temp v => Staged t₀ writes (live ++ [(temp, [])]) [] v.tree)
      (fun _ v => Staged t₀ writes live [] v.tree) := by
  refine ends_attempt (fun _ _ => h) ?_ ?_
  · intro t' temp hperform
    unfold Call.perform at hperform
    dsimp only at hperform
    split at hperform
    next => cases hperform
    next p hfind =>
      split at hperform
      next t'' hopen =>
        cases hperform
        have hnone : m.tree.node temp = none := by
          have := List.find?_some hfind
          exact Option.isNone_iff_eq_none.mp this
        obtain ⟨random, hrandom, rfl⟩ := List.mem_map.mp (List.mem_of_find?_eq_some hfind)
        obtain ⟨mode, hwritten⟩ := FileTree.written_openTrunc m.tree
          (tempPath w.path.dropLast (w.path.getLast?.getD "") random) 0o600
        have hnode : ∀ q, t'.node q =
            if q = tempPath w.path.dropLast (w.path.getLast?.getD "") random
            then some (.file ⟨[], mode⟩) else m.tree.node q := by
          intro q
          rw [FileTree.write_node hopen, hwritten]
          rfl
        exact h.mkstemp (hnames w hw _ random hrandom) nofun hnone hnode
      next => cases hperform
  · intro t' e hperform
    unfold Call.perform at hperform
    dsimp only at hperform
    split at hperform
    next =>
      cases hperform
      exact h
    next =>
      split at hperform
      next => cases hperform
      next =>
        cases hperform
        exact h

/-- The temporary file is filled with the new content. -/
theorem ends_fill {temp : RelPath} {content : String}
    (h : Staged t₀ writes (live ++ [(temp, [])]) [] m.tree) :
    Prog.Ends host.exec (fill host temp content) m
      (fun _ v => Staged t₀ writes (live ++ [(temp, encode content)]) [] v.tree)
      (fun _ v => ∃ written, Staged t₀ writes (live ++ [(temp, written)]) [] v.tree) := by
  obtain ⟨mode, hnode⟩ := h.temps (temp, []) (List.mem_append_right _ (List.mem_singleton_self _))
  have hself : WithFile m.tree temp [] m.tree := by
    refine ⟨mode, fun q => ?_⟩
    split
    next heq => rw [heq]; exact hnode
    next => rfl
  have hgrown : ∀ {written : Content} {t' : FileTree}, WithFile m.tree temp written t' →
      Staged t₀ writes (live ++ [(temp, written)]) [] t' := by
    intro written t' hwith
    obtain ⟨mode', hnode'⟩ := hwith
    exact h.fill nofun hnode'
  unfold fill
  rw [Prog.ends_bind]
  refine ends_attempt (fun _ _ => ⟨[], h⟩) ?_ (fun _ _ hperform => by cases hperform)
  intro t' _ hperform
  cases hperform
  rw [Prog.ends_bind]
  refine (ends_writeBlocks (m := ⟨m.tree, m.calls + 1⟩) _ hself).mono ?_ ?_
  · intro _ v hv
    rw [List.nil_append, host.blocks_flatten] at hv
    refine ends_attempt (fun _ _ => ⟨_, hgrown hv.1⟩) ?_ (fun _ _ hperform => by cases hperform)
    intro t' _ hperform
    cases hperform
    exact hgrown hv.1
  · rintro _ v ⟨⟨written, hwith⟩, -⟩
    exact ⟨written, hgrown hwith⟩

/-- One round of the first loop. -/
theorem ends_prepare {front : List PreparedWrite} {progress : Progress} {w : PreparedWrite}
    (hw : w ∈ writes) (hnames : NamesApart host writes)
    (h : Prepared t₀ writes front progress live m.tree) :
    Prog.Ends host.exec (prepare host progress w) m
      (fun progress' v => ∃ live', Prepared t₀ writes (front ++ [w]) progress' live' v.tree)
      (Fails t₀ writes) := by
  unfold prepare
  rw [Prog.ends_bind, ends_during]
  refine (ends_readOriginal hw h.staged).mono ?_ fun _ v hv => fails_of_staged hv h.temps h.replaced
  intro original v hv
  obtain ⟨hstaged, horiginal, hfile⟩ := hv
  dsimp only
  rw [Prog.ends_bind, ends_during]
  refine (ends_mkstemp hw hnames hstaged).mono ?_
    fun _ v hv => fails_of_staged hv h.temps h.replaced
  intro temp v hv
  have htemps : ∀ written : Content, progress.tempPaths ++ [temp] =
      (live ++ [(temp, written)]).map (·.1) := by
    intro written
    rw [List.map_append, h.temps]
    rfl
  rw [Prog.ends_bind, ends_during]
  refine (ends_fill hv).mono ?_ ?_
  · intro _ v hv
    refine ⟨_, hv, htemps _, ?_, ?_, h.replaced, ?_⟩
    · rw [List.map_append, List.map_append, h.contents]
      rfl
    · show progress.originals ++ [(w.path, original)] = _
      rw [List.map_append, h.originals, horiginal]
      rfl
    · intro w' hw'
      rcases List.mem_append.mp hw' with hw' | hw'
      · exact h.front_file w' hw'
      · rw [List.mem_singleton.mp hw']
        exact hfile
  · rintro _ v ⟨written, hv⟩
    exact fails_of_staged hv (htemps written) h.replaced

/-- The first loop. -/
theorem ends_prepareAll {front rest : List PreparedWrite} {progress : Progress}
    (hrest : ∀ w ∈ rest, w ∈ writes) (hnames : NamesApart host writes)
    (h : Prepared t₀ writes front progress live m.tree) :
    Prog.Ends host.exec (prepareAll host rest progress) m
      (fun progress' v => ∃ live', Prepared t₀ writes (front ++ rest) progress' live' v.tree)
      (Fails t₀ writes) := by
  induction rest generalizing front progress live m with
  | nil =>
      refine ⟨live, ?_⟩
      rw [List.append_nil]
      exact h
  | cons w rest ih =>
      unfold prepareAll
      rw [Prog.ends_bind]
      refine (ends_prepare (hrest w List.mem_cons_self) hnames h).mono ?_ fun _ _ hv => hv
      rintro progress' v ⟨live', hv⟩
      have hnext := ih (fun w' hw' => hrest w' (List.mem_cons_of_mem _ hw')) hv
      rw [List.append_assoc] at hnext
      exact hnext

/-- What the second loop still has before it: a temporary file for each
remaining write, with its new content. -/
def waiting (rest : List (PreparedWrite × RelPath)) : List (RelPath × Content) :=
  rest.map fun x => (x.2, encode x.1.content)

/-- The temporary files are those of the writes, in their order. -/
theorem waiting_zip {front : List PreparedWrite}
    (h : live.map (·.2) = front.map fun w => encode w.content) :
    waiting (front.zip (live.map (·.1))) = live := by
  induction front generalizing live with
  | nil =>
      rw [List.map_eq_nil_iff.mp (h.trans List.map_nil)]
      rfl
  | cons w front ih =>
      cases live with
      | nil => cases h
      | cons e live =>
          rw [List.map_cons, List.map_cons, List.cons.injEq] at h
          show (e.1, encode w.content) :: waiting (front.zip (live.map (·.1))) = _
          rw [ih h.2, ← h.1]

/-- The three lists go along together. -/
theorem zip_originals {front : List PreparedWrite} (temps : List RelPath) :
    front.zip (temps.zip (front.map (originalOf t₀))) =
      (front.zip temps).map fun x => (x.1, x.2, originalOf t₀ x.1) := by
  induction front generalizing temps with
  | nil => rfl
  | cons w front ih =>
      cases temps with
      | nil => rfl
      | cons temp temps =>
          rw [List.map_cons, List.zip_cons_cons, List.zip_cons_cons, List.zip_cons_cons, ih]
          rfl

/-- The second loop. -/
theorem ends_replaceAll {rest : List (PreparedWrite × RelPath)} {progress : Progress}
    (h : Broken t₀ writes progress m.tree (waiting rest) done)
    (hall : done ++ rest.map (·.1) = writes)
    (hdistinct : (writes.map (·.path)).Nodup) (hfile : ∀ w ∈ writes, t₀.node w.path ≠ some .dir) :
    Prog.Ends host.exec
      (replaceAll (rest.map fun x => (x.1, x.2, originalOf t₀ x.1)) progress) m
      (fun _ v => Staged t₀ writes [] writes v.tree)
      (Fails t₀ writes) := by
  induction rest generalizing done progress m with
  | nil =>
      rw [List.map_nil, List.append_nil] at hall
      exact hall ▸ h.staged
  | cons x rest ih =>
      obtain ⟨w, temp⟩ := x
      have hw : w ∈ writes := by
        rw [← hall]
        exact List.mem_append_right _ List.mem_cons_self
      have hpaths : ∀ w' ∈ done, w' ∈ writes ∧ w'.path ≠ w.path := by
        intro w' hw'
        refine ⟨h.done_mem w' hw', ?_⟩
        rw [← hall, List.map_append, List.nodup_append] at hdistinct
        exact hdistinct.2.2 _ (List.mem_map_of_mem hw') _ (List.mem_map_of_mem List.mem_cons_self)
      obtain ⟨mode, htemp⟩ := h.staged.temps (temp, encode w.content) List.mem_cons_self
      rw [List.map_cons]
      unfold replaceAll
      rw [Prog.ends_bind, ends_during]
      refine ends_attempt (fun _ _ => ⟨_, _, h⟩) ?_ ?_
      · intro t' _ hperform
        rcases changing_eq hperform with ⟨hreplace, -⟩ | ⟨e, -, -, hanswer⟩
        · have hne : temp ≠ w.path := fun heq =>
            (h.staged.fresh _ List.mem_cons_self).2 w hw (heq ▸ List.prefix_refl _)
          have hstaged : Staged t₀ writes (waiting rest) (done ++ [w]) t' :=
            h.staged.replace hw hpaths (FileTree.node_replace hreplace htemp hne)
          have hbroken : Broken t₀ writes
              { progress with replaced := progress.replaced ++ [originalOf t₀ w] } t'
              (waiting rest) (done ++ [w]) := {
            staged := hstaged
            temps := h.temps
            live_mem := fun e he => h.live_mem e (List.mem_cons_of_mem _ he)
            replaced := by
              rw [h.replaced, List.map_append]
              rfl
            done_mem := fun w' hw' => by
              rcases List.mem_append.mp hw' with hw' | hw'
              · exact h.done_mem w' hw'
              · rw [List.mem_singleton.mp hw']
                exact hw
            done_file := fun w' hw' => by
              rcases List.mem_append.mp hw' with hw' | hw'
              · exact h.done_file w' hw'
              · rw [List.mem_singleton.mp hw']
                exact hfile w hw
            distinct := by
              have hsub : (done ++ [w]).Sublist writes := by
                rw [← hall]
                exact (List.Sublist.refl _).append
                  (List.Sublist.cons_cons _ (List.nil_sublist _))
              exact hdistinct.sublist (hsub.map _) }
          exact ih hbroken (by rw [List.append_assoc]; exact hall)
        · cases hanswer
      · intro t' e hperform
        rcases changing_eq hperform with ⟨-, hanswer⟩ | ⟨e', -, rfl, -⟩
        · cases hanswer
        · exact ⟨_, _, h⟩

/-- The body replaces every target, or it fails with what the handler needs
to know. -/
theorem ends_body (hdistinct : (writes.map (·.path)).Nodup) (hnames : NamesApart host writes)
    (htree : m.tree = t₀) :
    Prog.Ends host.exec (body host writes) m
      (fun _ v => Staged t₀ writes [] writes v.tree) (Fails t₀ writes) := by
  have hstart : Prepared t₀ writes [] {} [] m.tree :=
    ⟨htree ▸ Staged.start, rfl, rfl, rfl, rfl, nofun⟩
  unfold body
  rw [Prog.ends_bind]
  refine (ends_prepareAll (fun _ hw => hw) hnames hstart).mono ?_ fun _ _ hv => hv
  rintro progress v ⟨live, hv⟩
  rw [List.nil_append] at hv
  have hwaiting : waiting (writes.zip progress.tempPaths) = live := by
    rw [hv.temps]
    exact waiting_zip hv.contents
  have hlength : writes.length ≤ progress.tempPaths.length := by
    have := congrArg List.length hv.contents
    rw [List.length_map, List.length_map] at this
    rw [hv.temps, List.length_map, this]
  rw [hv.originals, zip_originals]
  refine @ends_replaceAll _ _ [] _ _ _ _ ?_ ?_ hdistinct hv.front_file
  · rw [hwaiting]
    exact {
      staged := hv.staged
      temps := fun p hp => by
        rw [hv.temps] at hp
        obtain ⟨e, he, rfl⟩ := List.mem_map.mp hp
        exact hv.staged.fresh e he
      live_mem := fun e he => by
        rw [hv.temps]
        exact List.mem_map_of_mem he
      replaced := hv.replaced
      done_mem := nofun
      done_file := nofun
      distinct := List.nodup_nil }
  · rw [List.nil_append, List.map_fst_zip hlength]

-- ============================================================ the handler

/-- A call that does not fail by itself. -/
theorem ends_attempt_calm {call : Call} {Q : call.Value → Machine → Prop}
    {F : Errno → Machine → Prop} (hcalm : Calm host m.calls)
    (hok : ∀ t' v, call.perform (host.drawn m.calls) m.tree = (t', .ok v) →
      Q v ⟨t', m.calls + 1⟩)
    (herror : ∀ t' e, call.perform (host.drawn m.calls) m.tree = (t', .error e) →
      F e ⟨t', m.calls + 1⟩) :
    Prog.Ends host.exec (attempt call) m Q F := by
  refine ends_attempt ?_ hok herror
  intro e he
  rw [hcalm _ (Nat.le_refl _)] at he
  cases he

theorem ends_quietly {ε : Type} {p : Sys Errno Unit} {Q : Machine → Prop}
    {F : ε → Machine → Prop} (h : Prog.Ends host.exec p m (fun _ => Q) (fun _ => Q)) :
    Prog.Ends host.exec (quietly p : Sys ε Unit) m (fun _ => Q) F :=
  Prog.ends_handle.mpr h

/-- A file that is there is removed, and nothing else is touched. -/
theorem ends_unlink {p : RelPath} {f : FileImage} (hcalm : Calm host m.calls)
    (hfile : m.tree.node p = some (.file f)) {F : Errno → Machine → Prop} :
    Prog.Ends host.exec (attempt (.unlink p)) m
      (fun _ v => (∀ q, v.tree.node q = if q = p then none else m.tree.node q) ∧
        Calm host v.calls) F := by
  obtain ⟨t'', hunlink⟩ := FileTree.write_unlink hfile
  refine ends_attempt_calm hcalm ?_ ?_
  · intro t' _ hperform
    rcases changing_eq hperform with ⟨hwrite, -⟩ | ⟨e, -, -, h⟩
    · exact ⟨fun q => FileTree.write_node hwrite q, hcalm.next⟩
    · cases h
  · intro t' e hperform
    rcases changing_eq hperform with ⟨-, h⟩ | ⟨e', h, -, -⟩
    · cases h
    · rw [hunlink] at h
      cases h

/-- What is known of a path once it is restored. -/
theorem ends_restore {w : PreparedWrite} {f : FileImage} (hcalm : Calm host m.calls)
    (hnode : m.tree.node w.path = some (.file f)) (hfile : t₀.node w.path ≠ some .dir)
    {F : Errno → Machine → Prop} :
    Prog.Ends host.exec (restore host (originalOf t₀ w)) m
      (fun _ v => (∀ q, q ≠ w.path → v.tree.node q = m.tree.node q) ∧
        SameBytes t₀ v.tree w.path ∧ Calm host v.calls) F := by
  cases hbefore : t₀.node w.path with
  | none =>
      have horiginal : originalOf t₀ w = (w.path, none) := by
        unfold originalOf FileTree.file?
        rw [hbefore]
        rfl
      rw [horiginal]
      unfold restore
      rw [Prog.ends_bind]
      refine ends_attempt_calm hcalm ?_ (fun _ _ hperform => by cases hperform)
      intro t' there hperform
      cases hperform
      rw [hnode]
      refine (ends_unlink (m := ⟨m.tree, m.calls + 1⟩) hcalm.next hnode).mono ?_ fun _ _ hv => hv
      rintro _ v ⟨hv, hcalm⟩
      refine ⟨fun q hq => by rw [hv, if_neg hq], .inl ?_, hcalm⟩
      rw [hv, if_pos rfl, hbefore]
  | some n =>
      cases n with
      | dir => exact absurd hbefore hfile
      | file f₀ =>
          have horiginal : originalOf t₀ w = (w.path, some f₀.content) := by
            unfold originalOf
            rw [FileTree.file?_eq_some.mpr hbefore]
            rfl
          rw [horiginal]
          unfold restore
          rw [Prog.ends_bind]
          obtain ⟨t'', hopen⟩ := FileTree.write_openTrunc 0o644 (FileTree.ne_nil_of_file hnode)
            (FileTree.node_dropLast hnode (FileTree.ne_nil_of_file hnode))
            (by rw [hnode]; exact nofun)
          refine ends_attempt_calm hcalm ?_ ?_
          · intro t' _ hperform
            rcases changing_eq hperform with ⟨hwrite, -⟩ | ⟨e, -, -, h⟩
            · obtain ⟨mode, hwritten⟩ := FileTree.written_openTrunc m.tree w.path 0o644
              have hopened : WithFile m.tree w.path [] t' := by
                refine ⟨mode, fun q => ?_⟩
                rw [FileTree.write_node hwrite, hwritten]
                rfl
              rw [Prog.ends_bind]
              refine (ends_writeBlocks (m := ⟨t', m.calls + 1⟩) _ hopened).mono ?_ ?_
              · rintro _ v ⟨⟨mode, hv⟩, hcalls⟩
                rw [List.nil_append, host.blocks_flatten] at hv
                have hlater : Calm host v.calls :=
                  fun n hn => hcalm n (Nat.le_trans (Nat.le_of_succ_le hcalls) hn)
                refine ends_attempt_calm hlater ?_ (fun _ _ hperform => by cases hperform)
                intro t' _ hperform
                cases hperform
                refine ⟨fun q hq => by rw [hv, if_neg hq], .inr ⟨f₀, mode, hbefore, ?_⟩,
                  hlater.next⟩
                rw [hv, if_pos rfl]
              · rintro _ v ⟨-, hnot⟩
                exact absurd hcalm.next hnot
            · cases h
          · intro t' e hperform
            rcases changing_eq hperform with ⟨-, h⟩ | ⟨e', h, -, -⟩
            · cases h
            · rw [hopen] at h
              cases h

/-- The replaced targets are given back. -/
theorem ends_restoreAll {ε : Type} {F : ε → Machine → Prop} (hcalm : Calm host m.calls)
    (h : Staged t₀ writes live done m.tree) (hmem : ∀ w ∈ done, w ∈ writes)
    (hfile : ∀ w ∈ done, t₀.node w.path ≠ some .dir) (hdistinct : (done.map (·.path)).Nodup) :
    Prog.Ends host.exec
      (eachQuietly (restore host) (done.map (originalOf t₀)) : Sys ε Unit) m
      (fun _ v => Staged t₀ writes live [] v.tree ∧ Calm host v.calls) F := by
  induction done generalizing m with
  | nil => exact ⟨h, hcalm⟩
  | cons w done ih =>
      rw [List.map_cons, List.nodup_cons] at hdistinct
      obtain ⟨mode, hnode⟩ := h.written w List.mem_cons_self
      rw [List.map_cons]
      unfold eachQuietly
      rw [Prog.ends_bind]
      have hrestore := @ends_restore t₀ host m w _ hcalm hnode (hfile w List.mem_cons_self)
        fun _ _ => False
      refine (ends_quietly (hrestore.mono (fun _ _ hv => hv) fun _ _ hv => hv.elim)).mono ?_
        fun _ _ hv => hv
      rintro _ v ⟨hother, hself, hlater⟩
      have hpaths : ∀ w' ∈ done, w'.path ≠ w.path := fun w' hw' heq =>
        hdistinct.1 (List.mem_map.mpr ⟨w', hw', heq⟩)
      exact ih hlater (h.restore (hmem w List.mem_cons_self) hpaths hother hself)
        (fun w' hw' => hmem w' (List.mem_cons_of_mem _ hw'))
        (fun w' hw' => hfile w' (List.mem_cons_of_mem _ hw')) hdistinct.2

/-- A temporary file is gone, whether it was still there or not. -/
theorem ends_removeTemp {p : RelPath} (hcalm : Calm host m.calls)
    (h : Staged t₀ writes live [] m.tree) (hp : Fresh t₀ writes p)
    {F : Errno → Machine → Prop} :
    Prog.Ends host.exec (removeTemp p) m
      (fun _ v => Staged t₀ writes (live.filter fun e => e.1 ≠ p) [] v.tree ∧
        Calm host v.calls) F := by
  unfold removeTemp
  rw [Prog.ends_bind]
  refine ends_attempt_calm hcalm ?_ (fun _ _ hperform => by cases hperform)
  intro t' there hperform
  cases hperform
  by_cases hmem : p ∈ live.map (·.1)
  · obtain ⟨e, he, rfl⟩ := List.mem_map.mp hmem
    obtain ⟨mode, hnode⟩ := h.temps e he
    rw [hnode]
    refine (ends_unlink (m := ⟨m.tree, m.calls + 1⟩) hcalm.next hnode).mono ?_ fun _ _ hv => hv
    rintro _ v ⟨hv, hlater⟩
    exact ⟨h.remove hp hv, hlater⟩
  · have hnode := node_of_fresh (h.kept p hmem nofun) hp
    have hlive : (live.filter fun e => e.1 ≠ p) = live := by
      rw [List.filter_eq_self]
      intro e he
      exact decide_eq_true fun heq => hmem (List.mem_map.mpr ⟨e, he, heq⟩)
    rw [hnode, hlive]
    exact ⟨h, hcalm.next⟩

/-- The temporary files are removed. -/
theorem ends_removeTemps {ε : Type} {F : ε → Machine → Prop} {temps : List RelPath}
    (hcalm : Calm host m.calls) (h : Staged t₀ writes live [] m.tree)
    (hfresh : ∀ p ∈ temps, Fresh t₀ writes p) (hlive : ∀ e ∈ live, e.1 ∈ temps) :
    Prog.Ends host.exec (eachQuietly removeTemp temps : Sys ε Unit) m
      (fun _ v => Staged t₀ writes [] [] v.tree) F := by
  induction temps generalizing live m with
  | nil =>
      have hnil : live = [] := List.eq_nil_iff_forall_not_mem.mpr fun e he => by
        cases hlive e he
      exact hnil ▸ h
  | cons p temps ih =>
      unfold eachQuietly
      rw [Prog.ends_bind]
      have hremove := @ends_removeTemp t₀ writes live host m p hcalm h
        (hfresh p List.mem_cons_self) fun _ _ => False
      refine (ends_quietly (hremove.mono (fun _ _ hv => hv) fun _ _ hv => hv.elim)).mono ?_
        fun _ _ hv => hv
      rintro _ v ⟨hv, hlater⟩
      refine ih hlater hv (fun q hq => hfresh q (List.mem_cons_of_mem _ hq)) ?_
      intro e he
      obtain ⟨he, hne⟩ := List.mem_filter.mp he
      rcases List.mem_cons.mp (hlive e he) with heq | hmem
      · exact absurd heq (of_decide_eq_true hne)
      · exact hmem

/-- The handler leaves nothing of a failed body. -/
theorem ends_rollback {ε : Type} {F : ε → Machine → Prop} {i : Interrupted}
    (hcalm : Calm host m.calls) (h : Fails t₀ writes i m) :
    Prog.Ends host.exec (rollback host i.progress : Sys ε Unit) m
      (fun _ v => Staged t₀ writes [] [] v.tree) F := by
  obtain ⟨live, done, hbroken⟩ := h
  have hstaged : Staged t₀ writes live done.reverse m.tree :=
    hbroken.staged.of_mem fun w => List.mem_reverse.symm
  unfold rollback
  rw [Prog.ends_bind, hbroken.replaced, ← List.map_reverse]
  refine (ends_restoreAll hcalm hstaged ?_ ?_ ?_).mono ?_ fun _ _ hv => hv
  · exact fun w hw => hbroken.done_mem w (List.mem_reverse.mp hw)
  · exact fun w hw => hbroken.done_file w (List.mem_reverse.mp hw)
  · rw [List.map_reverse]
    exact List.pairwise_reverse.mpr (hbroken.distinct.imp Ne.symm)
  · rintro _ v ⟨hv, hlater⟩
    exact ends_removeTemps hlater hv hbroken.temps hbroken.live_mem

-- ============================================================= the result

/-- A failed call has given back every target and left nothing else but
directories made for targets. -/
structure RolledBack (t₀ : FileTree) (writes : List PreparedWrite) (t : FileTree) : Prop where
  target : ∀ w ∈ writes, SameBytes t₀ t w.path ∨ MadeFor t₀ writes t w.path
  other : ∀ q, (∀ w ∈ writes, w.path ≠ q) → t.node q = t₀.node q ∨ MadeFor t₀ writes t q

/-- A call that succeeds has given every target its content and changed
nothing else but for directories made for targets. -/
structure Stored (t₀ : FileTree) (writes : List PreparedWrite) (t : FileTree) : Prop where
  target : ∀ w ∈ writes, ∃ mode, t.node w.path = some (.file ⟨encode w.content, mode⟩)
  other : ∀ q, (∀ w ∈ writes, w.path ≠ q) → t.node q = t₀.node q ∨ MadeFor t₀ writes t q

theorem other_of_asBefore {q : RelPath} (h : AsBefore t₀ writes t q)
    (hq : ∀ w ∈ writes, w.path ≠ q) : t.node q = t₀.node q ∨ MadeFor t₀ writes t q := by
  rcases h with h | h | ⟨⟨w, hw, heq⟩, -⟩
  · exact .inl h
  · exact .inr h
  · exact absurd heq (hq w hw)

theorem rolledBack_of_staged (h : Staged t₀ writes [] [] t) : RolledBack t₀ writes t where
  target := fun w _ => by
    rcases h.kept w.path List.not_mem_nil nofun with h | h | ⟨-, h⟩
    · exact .inl (.inl h)
    · exact .inr h
    · exact .inl h
  other := fun q hq => other_of_asBefore (h.kept q List.not_mem_nil nofun) hq

theorem stored_of_staged (h : Staged t₀ writes [] writes t) : Stored t₀ writes t where
  target := h.written
  other := fun q hq => other_of_asBefore (h.kept q List.not_mem_nil hq) hq

/-- The call as a whole, by how its body ends. -/
theorem run_writePrepared (host : Host) (writes : List PreparedWrite) (m : Machine) :
    Prog.run host.exec (writePrepared host writes) m =
      match Prog.run host.exec (body host writes) m with
      | (.ok _, v) => (.ok { path := lastPath writes }, v)
      | (.error i, v) => Prog.run host.exec
          (rollback host i.progress >>= fun _ => .ret (failed host writes i.error)) v := by
  unfold writePrepared
  rw [Prog.run_handle, Prog.run_bind]
  cases Prog.run host.exec (body host writes) m with
  | mk outcome v => cases outcome <;> rfl

/-- A host on which at most one call fails. -/
def plainHost (failing : Option Nat) : Host where
  fault n := if some n = failing then some .eio else none
  drawn _ := ["x7"]
  blocks content := [content]
  blocks_flatten _ := List.append_nil _
  errorText _ := "Input/output error"

def boardAndTask : List PreparedWrite := [⟨["board.md"], "## Doing"⟩, ⟨["task.md"], "state"⟩]

/-- One target below the other. -/
def nestedWrites : List PreparedWrite := [⟨["a"], "1"⟩, ⟨["a", "b"], "2"⟩]

end OpenTulid.PreparedWrites
