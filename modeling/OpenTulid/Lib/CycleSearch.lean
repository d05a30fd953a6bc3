/-
Looking for cycles depth first.

# The search

A visit puts its node on the stack and looks at the successors in turn: one
that stands on the stack closes a cycle, one visited before is passed over,
and any other is visited. The stack never holds a node twice, so the number
of nodes bounds how deep a search goes.

# What it finds

Every cycle reported is a walk from a node back to it (`search_sound`), and
where nothing is reported no walk from a node returns to it
(`search_complete`). Together: something is reported exactly where there is
a cycle (`search_eq_nil_iff`).
-/
import Mathlib.Logic.Relation
import Mathlib.Data.List.Chain
import Mathlib.Data.List.Nodup

namespace CycleSearch

variable {α ε : Type}

-- ================================================================ search

/-- What a search has seen so far. -/
structure Search (α ε : Type) where
  visited : List α
  found : List ε

/-- The node has an edge to another. -/
def Edge (succ : α → List α) (a b : α) : Prop := b ∈ succ a

/-- From the node a walk leads back to it. -/
def OnCycle (succ : α → List α) (a : α) : Prop := Relation.TransGen (Edge succ) a a

section Search

variable [DecidableEq α]

/-- The part of the stack from a node on, closed by the node. -/
def closed (stack : List α) (dep : α) : List α := stack.dropWhile (· ≠ dep) ++ [dep]

variable (succ : α → List α) (report : α → List α → ε)

/-- A visit of a node below a stack, the root first. -/
def visit : Nat → List α → Search α ε → α → Search α ε
  | 0, _, s, _ => s
  | fuel + 1, stack, s, node =>
      (succ node).foldl
        (fun s dep =>
          if dep ∈ stack ++ [node] then
            { s with found := s.found ++ [report node (closed (stack ++ [node]) dep)] }
          else if dep ∈ s.visited then s
          else visit fuel (stack ++ [node]) s dep)
        { s with visited := s.visited ++ [node] }

/-- A search from every node that no visit before has reached. -/
def search (nodes : List α) : Search α ε :=
  nodes.foldl
    (fun s node => if node ∈ s.visited then s else visit succ report nodes.length [] s node)
    ⟨[], []⟩

end Search

section Spec

variable {succ : α → List α} {report : α → List α → ε} {nodes : List α}

/-- What holds at the start of a fold and after each of its steps holds at
its end. -/
theorem foldl_induction {σ β : Type} {f : σ → β → σ} {Q : List β → σ → Prop} {s : σ}
    {l : List β} (hinit : Q [] s)
    (hstep : ∀ done b s, b ∈ l → Q done s → Q (done ++ [b]) (f s b)) :
    Q l (l.foldl f s) := by
  induction l using List.reverseRecOn with
  | nil => exact hinit
  | append_singleton done b ih =>
      rw [List.foldl_concat]
      refine hstep done b _ (by simp) (ih fun done b s hb => hstep done b s ?_)
      exact List.mem_append_left _ hb

-- ============================================================ being clear

/-- Every walk from the node ends. -/
def Clear (succ : α → List α) (a : α) : Prop := Acc (fun b a => Edge succ a b) a

theorem clear_of_succ {a : α} (h : ∀ b ∈ succ a, Clear succ b) : Clear succ a :=
  Acc.intro a h

/-- Where every walk ends none comes back. -/
theorem Clear.not_onCycle {a : α} (h : Clear succ a) : ¬ OnCycle succ a := by
  induction h with
  | intro a _ ih =>
      intro hcycle
      obtain ⟨b, hedge, hback⟩ := Relation.TransGen.head'_iff.mp hcycle
      exact ih b hedge (Relation.TransGen.tail' hback hedge)

-- ============================================================= reporting

/-- It was reported for a walk that ends where it starts. -/
def Reported (succ : α → List α) (report : α → List α → ε) (e : ε) : Prop :=
  ∃ node dep between,
    e = report node (dep :: between ++ [dep]) ∧
      List.IsChain (Edge succ) (dep :: between ++ [dep])

/-- A walk back to its start is a cycle. -/
theorem Reported.onCycle {e : ε} (h : Reported succ report e) : ∃ a, OnCycle succ a := by
  obtain ⟨-, dep, between, -, hwalk⟩ := h
  refine ⟨dep, ?_⟩
  cases between with
  | nil => exact .single (List.isChain_pair.mp hwalk)
  | cons next rest =>
      obtain ⟨hedge, hrest⟩ := List.isChain_cons_cons.mp hwalk
      refine Relation.TransGen.head' hedge ?_
      exact List.relationReflTransGen_of_exists_isChain_cons _ hrest (by simp)

-- ================================================================= visits

/-- A way from a root down to a node. -/
structure Path (succ : α → List α) (nodes stack : List α) (node : α) : Prop where
  nodup : (stack ++ [node]).Nodup
  within : ∀ a ∈ stack ++ [node], a ∈ nodes
  walk : List.IsChain (Edge succ) (stack ++ [node])

/-- Whatever was reported is a cycle; and while nothing is, every node that
was visited and does not stand on the stack is clear. -/
structure Inv (succ : α → List α) (report : α → List α → ε) (stack : List α)
    (s : Search α ε) : Prop where
  sound : ∀ e ∈ s.found, Reported succ report e
  clear : s.found = [] → ∀ a ∈ s.visited, a ∈ stack ∨ Clear succ a

/-- What a visit adds. -/
structure Grows (s s' : Search α ε) : Prop where
  visited : ∀ a ∈ s.visited, a ∈ s'.visited
  found : s'.found = [] → s.found = []

theorem Grows.refl (s : Search α ε) : Grows s s := ⟨fun _ h => h, fun h => h⟩

theorem Grows.trans {s s' s'' : Search α ε} (h : Grows s s') (h' : Grows s' s'') :
    Grows s s'' :=
  ⟨fun a ha => h'.visited a (h.visited a ha), fun hf => h.found (h'.found hf)⟩

/-- A path has no more nodes than there are. -/
theorem Path.length_lt {stack : List α} {node : α} (h : Path succ nodes stack node) :
    stack.length < nodes.length := by
  have hle := h.nodup.length_le_of_subset h.within
  rw [List.length_append, List.length_singleton] at hle
  omega

/-- The path to a node goes on to a successor that is not on it. -/
theorem Path.extend {stack : List α} {node dep : α} (h : Path succ nodes stack node)
    (hclosed : ∀ a ∈ nodes, ∀ b ∈ succ a, b ∈ nodes) (hedge : dep ∈ succ node)
    (hdep : dep ∉ stack ++ [node]) : Path succ nodes (stack ++ [node]) dep where
  nodup := List.nodup_append.mpr ⟨h.nodup, List.nodup_singleton _, by
    rintro a ha b hb rfl
    exact hdep (List.mem_singleton.mp hb ▸ ha)⟩
  within a ha := by
    rcases List.mem_append.mp ha with ha | ha
    · exact h.within a ha
    · obtain rfl := List.mem_singleton.mp ha
      exact hclosed node (h.within node (by simp)) _ hedge
  walk := by
    refine List.isChain_append.mpr ⟨h.walk, List.isChain_singleton _, ?_⟩
    intro a ha b hb
    simp at ha hb
    subst ha hb
    exact hedge

section Visits

variable [DecidableEq α]

/-- A node on the stack closes a walk. -/
theorem closed_walk {stack : List α} {node dep : α}
    (hwalk : List.IsChain (Edge succ) (stack ++ [node])) (hedge : dep ∈ succ node)
    (hdep : dep ∈ stack ++ [node]) :
    Reported succ report (report node (closed (stack ++ [node]) dep)) := by
  have hlast : (stack ++ [node]).getLast? = some node := by simp
  obtain ⟨before, after, hsplit, hbefore⟩ := List.eq_append_cons_of_mem hdep
  rw [hsplit] at hwalk hlast ⊢
  refine ⟨node, dep, after, ?_, ?_⟩
  · have hdrop : (before ++ dep :: after).dropWhile (· ≠ dep) = dep :: after := by
      rw [List.dropWhile_append_of_pos]
      · simp
      · intro a ha
        simpa using fun heq : a = dep => hbefore (heq ▸ ha)
    rw [closed, hdrop]
  · refine List.isChain_append.mpr ⟨(List.isChain_append.mp hwalk).2.1,
      List.isChain_singleton _, ?_⟩
    intro a ha b hb
    rw [List.getLast?_append_of_ne_nil _ (List.cons_ne_nil _ _)] at hlast
    rw [hlast] at ha
    obtain rfl := Option.some.inj ha
    obtain rfl := Option.some.inj hb
    exact hedge

/-- One visit: it ends with its node visited, and nothing that stands below
its stack is forgotten. -/
theorem visit_spec (hclosed : ∀ a ∈ nodes, ∀ b ∈ succ a, b ∈ nodes) {fuel : Nat} :
    ∀ {stack : List α} {node : α} {s : Search α ε}, Path succ nodes stack node →
      nodes.length ≤ stack.length + fuel → Inv succ report stack s →
      Inv succ report stack (visit succ report fuel stack s node) ∧
        Grows s (visit succ report fuel stack s node) ∧
        node ∈ (visit succ report fuel stack s node).visited := by
  induction fuel with
  | zero =>
      intro stack node s hpath hfuel _
      exact absurd hpath.length_lt (by omega)
  | succ fuel ih =>
      intro stack node s hpath hfuel hinv
      have hloop := foldl_induction
        (Q := fun done t => Inv succ report (stack ++ [node]) t ∧
          Grows { s with visited := s.visited ++ [node] } t ∧
          (t.found = [] → ∀ b ∈ done, Clear succ b))
        (l := succ node)
        (s := { s with visited := s.visited ++ [node] })
        (f := fun s dep =>
          if dep ∈ stack ++ [node] then
            { s with found := s.found ++ [report node (closed (stack ++ [node]) dep)] }
          else if dep ∈ s.visited then s
          else visit succ report fuel (stack ++ [node]) s dep)
        ?_ ?_
      · obtain ⟨hinner, hgrows, hdone⟩ := hloop
        refine ⟨⟨hinner.sound, fun hfound a ha => ?_⟩, ⟨?_, hgrows.found⟩, ?_⟩
        · rcases hinner.clear hfound a ha with hstack | hclear
          · rcases List.mem_append.mp hstack with hstack | hnode
            · exact .inl hstack
            · obtain rfl := List.mem_singleton.mp hnode
              exact .inr (clear_of_succ (hdone hfound))
          · exact .inr hclear
        · exact fun a ha => hgrows.visited a (List.mem_append_left _ ha)
        · exact hgrows.visited node (by simp)
      · refine ⟨⟨hinv.sound, fun hfound a ha => ?_⟩, .refl _, fun _ b hb => ?_⟩
        · rcases List.mem_append.mp ha with ha | ha
          · exact (hinv.clear hfound a ha).imp_left (List.mem_append_left _)
          · exact .inl (List.mem_append_right _ ha)
        · cases hb
      · intro done dep t hdep ⟨hinner, hgrows, hdone⟩
        split
        next hon =>
          refine ⟨⟨?_, fun hfound => ?_⟩, ⟨hgrows.visited, fun hfound => ?_⟩, fun hfound => ?_⟩
          · intro e he
            rcases List.mem_append.mp he with he | he
            · exact hinner.sound e he
            · obtain rfl := List.mem_singleton.mp he
              exact closed_walk hpath.walk hdep hon
          all_goals simp at hfound
        next hoff =>
          split
          next hvisited =>
            refine ⟨hinner, hgrows, fun hfound b hb => ?_⟩
            rcases List.mem_append.mp hb with hb | hb
            · exact hdone hfound b hb
            · obtain rfl := List.mem_singleton.mp hb
              exact (hinner.clear hfound _ hvisited).resolve_left hoff
          next =>
            have hdeeper : nodes.length ≤ (stack ++ [node]).length + fuel := by
              rw [List.length_append, List.length_singleton]
              omega
            obtain ⟨hinv', hgrows', hmem⟩ :=
              ih (hpath.extend hclosed hdep hoff) hdeeper hinner
            refine ⟨hinv', hgrows.trans hgrows', fun hfound b hb => ?_⟩
            rcases List.mem_append.mp hb with hb | hb
            · exact hdone (hgrows'.found hfound) b hb
            · obtain rfl := List.mem_singleton.mp hb
              exact (hinv'.clear hfound _ hmem).resolve_left hoff

-- =============================================================== searches

/-- The whole search: it visits every node. -/
theorem search_spec (hclosed : ∀ a ∈ nodes, ∀ b ∈ succ a, b ∈ nodes) :
    Inv succ report [] (search succ report nodes) ∧
      ∀ a ∈ nodes, a ∈ (search succ report nodes).visited := by
  refine foldl_induction (l := nodes)
    (Q := fun done s => Inv succ report [] s ∧ ∀ a ∈ done, a ∈ s.visited) ?_ ?_
  · exact ⟨⟨nofun, nofun⟩, nofun⟩
  · intro done node s hnode ⟨hinv, hdone⟩
    have hall : ∀ {t : Search α ε}, Grows s t → node ∈ t.visited →
        ∀ a ∈ done ++ [node], a ∈ t.visited := by
      intro t hgrows hmem a ha
      rcases List.mem_append.mp ha with ha | ha
      · exact hgrows.visited a (hdone a ha)
      · obtain rfl := List.mem_singleton.mp ha
        exact hmem
    split
    next hvisited => exact ⟨hinv, hall (.refl s) hvisited⟩
    next =>
      have hpath : Path succ nodes [] node :=
        ⟨List.nodup_singleton _, by simpa using hnode, List.isChain_singleton _⟩
      obtain ⟨hinv', hgrows, hmem⟩ := visit_spec hclosed hpath (Nat.le_add_left _ _) hinv
      exact ⟨hinv', hall hgrows hmem⟩

/-- Everything reported is a cycle. -/
theorem search_sound (hclosed : ∀ a ∈ nodes, ∀ b ∈ succ a, b ∈ nodes) :
    ∀ e ∈ (search succ report nodes).found, Reported succ report e :=
  (search_spec hclosed).1.sound

/-- Where nothing is reported every walk ends. -/
theorem search_complete (hclosed : ∀ a ∈ nodes, ∀ b ∈ succ a, b ∈ nodes)
    (hfound : (search succ report nodes).found = []) : ∀ a ∈ nodes, Clear succ a := by
  intro a ha
  obtain ⟨hinv, hall⟩ : Inv succ report [] (search succ report nodes) ∧
      ∀ a ∈ nodes, a ∈ (search succ report nodes).visited := search_spec hclosed
  exact (hinv.clear hfound a (hall a ha)).resolve_left List.not_mem_nil

/-- Nothing is reported exactly where there is no cycle. -/
theorem search_eq_nil_iff (hclosed : ∀ a ∈ nodes, ∀ b ∈ succ a, b ∈ nodes)
    (hsucc : ∀ a, succ a ≠ [] → a ∈ nodes) :
    (search succ report nodes).found = [] ↔ ∀ a, ¬ OnCycle succ a := by
  constructor
  · intro hfound a hcycle
    obtain ⟨b, hedge, -⟩ := Relation.TransGen.head'_iff.mp hcycle
    have ha : a ∈ nodes := hsucc a (List.ne_nil_of_mem hedge)
    exact (search_complete hclosed hfound a ha).not_onCycle hcycle
  · intro hnone
    rw [List.eq_nil_iff_forall_not_mem]
    intro e he
    obtain ⟨a, ha⟩ := (search_sound hclosed e he).onCycle
    exact hnone a ha

end Visits

end Spec

end CycleSearch
