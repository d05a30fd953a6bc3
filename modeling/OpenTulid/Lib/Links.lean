/-
A file system with symbolic links: where a path leads, and what the calls
that make directories and open files for writing do there.

# Places and paths

A place is the list of names from the root down. A path is a list of names
as a program gives it, read from the root: it may name links, and `..`
goes up from wherever the links before it have led. `Disk` says what lies
at each place; everything but the root lies in a directory.

# Two ways to follow a path

`follow` is the walk of the system: a missing name ends it unless it is the
last one, and after `n` links it gives up. `resolve` is the walk of
`os.path.realpath`, which takes a missing name as it stands and goes on.
Where both arrive they arrive at the same place (`follow_eq_resolve`), a
resolved place names no link (`resolve_plain`), and so the system's walk of
a resolved place ends there or fails (`follow_of_plain`).

# What the calls change

No call removes a directory or a link (`Grows`), so a path that led to a
directory goes on leading there (`follow_grows`). No call makes a link
either (`SameLinks`), and `resolve` looks at nothing but links: it gives
the same place before and after (`SameLinks.resolve_eq`). A call changes
the file at one place at most (`mkdir_fileAt`, `openFile_fileAt`,
`write_fileAt`).
-/
import Mathlib.Data.List.Infix

namespace Links

/-- A place: the names from the root down. -/
abbrev Place := List String

/-- What can lie at a place. -/
inductive Node (C : Type) where
  | file (content : C)
  | dir
  | link (absolute : Bool) (target : List String)
  deriving DecidableEq, Repr

/-- Why a call fails. -/
inductive Errno where
  | missing
  | notDir
  | isDir
  | exists
  | loop
  | refused
  deriving DecidableEq, Repr

/-- A file system: what lies at each place, everything but the root in a
directory. -/
structure Disk (C : Type) where
  node : Place → Option (Node C)
  root : node [] = some .dir
  parent : ∀ p, p ≠ [] → node p ≠ none → node p.dropLast = some .dir

variable {C : Type}

namespace Disk

-- =============================================================== listing

/-- A list of what lies where has a directory above each of its places. -/
def listed (entries : List (Place × Node C)) : Bool :=
  entries.all fun entry => entry.1.dropLast = [] ||
    match entries.lookup entry.1.dropLast with
    | some .dir => true
    | _ => false

/-- The file system that a list describes. -/
def ofList (entries : List (Place × Node C)) (h : listed entries = true) : Disk C where
  node p := if p = [] then some .dir else entries.lookup p
  root := rfl
  parent := by
    intro p hp hnode
    rw [if_neg hp] at hnode
    obtain ⟨node, hlookup⟩ := Option.ne_none_iff_exists'.mp hnode
    obtain ⟨_, _, hmem⟩ := List.lookup_eq_some_iff.mp hlookup
    have hentry : (p, node) ∈ entries := by
      rw [hmem.1]
      simp
    have hcheck := List.all_eq_true.mp h _ hentry
    by_cases hroot : p.dropLast = []
    · rw [if_pos hroot]
    · rw [if_neg hroot]
      simp only [hroot, decide_false, Bool.false_or] at hcheck
      split at hcheck
      next hdir => exact hdir
      next => cases hcheck

-- ============================================================== walking

/-- A name that says nothing. -/
def idle (name : String) : Bool := name = "" || name = "."

/-- A walk up to the next link; what is left there is handed to `jump`. A
strict walk stops at a missing name or at a file with names after it. -/
def along (d : Disk C) (strict : Bool) (jump : Place → List String → Except Errno Place) :
    Place → List String → Except Errno Place
  | cur, [] => .ok cur
  | cur, name :: rest =>
      if idle name then d.along strict jump cur rest
      else if name = ".." then d.along strict jump cur.dropLast rest
      else
        match d.node (cur ++ [name]) with
        | some (.link absolute target) => jump (if absolute then [] else cur) (target ++ rest)
        | some .dir => d.along strict jump (cur ++ [name]) rest
        | some (.file _) =>
            if strict ∧ rest ≠ [] then .error .notDir
            else d.along strict jump (cur ++ [name]) rest
        | none =>
            if strict ∧ rest ≠ [] then .error .missing
            else d.along strict jump (cur ++ [name]) rest

/-- A walk that follows at most `n` links. -/
def walk (d : Disk C) (strict : Bool) : Nat → Place → List String → Except Errno Place
  | 0 => d.along strict fun _ _ => .error .loop
  | n + 1 => d.along strict (d.walk strict n)

/-- The walk of the system, which follows at most forty links. -/
def follow (d : Disk C) (path : List String) : Except Errno Place := d.walk true 40 [] path

/-- The walk of `os.path.realpath`. -/
def resolve (d : Disk C) (patience : Nat) (path : List String) : Except Errno Place :=
  d.walk false patience [] path

-- ================================================================ calls

/-- The text of the file at a place. -/
def fileAt (d : Disk C) (p : Place) : Option C :=
  match d.node p with
  | some (.file content) => some content
  | _ => none

/-- Something put at a place in a directory. -/
def put (d : Disk C) (p : Place) (n : Node C) (hp : p ≠ [])
    (hup : d.node p.dropLast = some .dir) (hdir : d.node p ≠ some .dir) : Disk C where
  node q := if q = p then some n else d.node q
  root := by
    rw [if_neg (Ne.symm hp)]
    exact d.root
  parent := by
    intro q hq hnode
    have hup' : d.node q.dropLast = some .dir := by
      by_cases h : q = p
      · rw [h]
        exact hup
      · rw [if_neg h] at hnode
        exact d.parent q hq hnode
    by_cases h : q.dropLast = p
    · exact absurd (h ▸ hup') hdir
    · rw [if_neg h]
      exact hup'

/-- `os.mkdir`: the last name is not followed. -/
def mkdir (d : Disk C) (path : List String) : Except Errno (Disk C) :=
  match path.getLast? with
  | none => .error .exists
  | some name =>
      match d.follow path.dropLast with
      | .error e => .error e
      | .ok up =>
          if idle name ∨ name = ".." then .error .exists
          else
            match hup : d.node up, h : d.node (up ++ [name]) with
            | some .dir, none =>
                .ok (d.put (up ++ [name]) .dir (by simp) (by simpa using hup) (by simp [h]))
            | some .dir, some _ => .error .exists
            | some _, _ => .error .notDir
            | none, _ => .error .missing

/-- `open` for writing: the file the path leads to, made or emptied. -/
def openFile (d : Disk C) (empty : C) (path : List String) : Except Errno (Disk C × Place) :=
  match d.follow path with
  | .error e => .error e
  | .ok p =>
      match h : d.node p with
      | some .dir => .error .isDir
      | some (.link _ _) => .error .loop
      | some (.file _) =>
          if hp : p ≠ [] then
            .ok (d.put p (.file empty) hp (d.parent p hp (by simp [h])) (by simp [h]), p)
          else .error .isDir
      | none =>
          if hp : p ≠ [] then
            match hup : d.node p.dropLast with
            | some .dir => .ok (d.put p (.file empty) hp hup (by simp [h]), p)
            | _ => .error .missing
          else .error .missing

/-- A text written to an open file. -/
def write (d : Disk C) (p : Place) (content : C) : Disk C :=
  match h : d.node p with
  | some (.file _) =>
      if hp : p ≠ [] then d.put p (.file content) hp (d.parent p hp (by simp [h])) (by simp [h])
      else d
  | _ => d

/-- The text of the file a path leads to. -/
def readFile (d : Disk C) (path : List String) : Option C :=
  match d.follow path with
  | .error _ => none
  | .ok p => d.fileAt p

/-- The files and links at some places removed. -/
def removeWhere (d : Disk C) (gone : Place → Bool) : Disk C where
  node q :=
    match d.node q with
    | some .dir => some .dir
    | n => if gone q then none else n
  root := by rw [d.root]
  parent := by
    intro q hq hnode
    have hold : d.node q ≠ none := by
      intro hnone
      rw [hnone] at hnode
      simp at hnode
    rw [d.parent q hq hold]

/-- Whether something stands where a path leads. -/
def pathExists (d : Disk C) (path : List String) : Bool :=
  match d.follow path with
  | .error _ => false
  | .ok p => (d.node p).isSome

/-- Whether the last name of a path is a link; it is not followed. -/
def isLink (d : Disk C) (path : List String) : Bool :=
  match path.getLast?, d.follow path.dropLast with
  | some name, .ok up => match d.node (up ++ [name]) with
    | some (.link _ _) => true
    | _ => false
  | _, _ => false

/-- Whether a path leads to a directory. -/
def isDir (d : Disk C) (path : List String) : Bool :=
  match d.follow path with
  | .error _ => false
  | .ok p => match d.node p with
    | some .dir => true
    | _ => false

-- ================================================= where a walk arrives

/-- A place as a resolved path gives it: real names, and no link on the
way. -/
structure Plain (d : Disk C) (p : Place) : Prop where
  real : ∀ name ∈ p, idle name = false ∧ name ≠ ".."
  bare : ∀ q, q <+: p → ∀ absolute target, d.node q ≠ some (.link absolute target)

theorem plain_nil (d : Disk C) : d.Plain [] where
  real := by
    intro name h
    cases h
  bare := by
    intro q hq absolute target h
    rw [List.prefix_nil.mp hq, d.root] at h
    cases h

/-- A place above a plain one is plain. -/
theorem Plain.mono {d : Disk C} {p q : Place} (h : d.Plain p) (hq : q <+: p) : d.Plain q where
  real := fun name hname => h.real name (hq.subset hname)
  bare := fun r hr => h.bare r (hr.trans hq)

/-- A plain place and one more name, which is no link. -/
theorem Plain.snoc {d : Disk C} {p : Place} {name : String} (h : d.Plain p)
    (hidle : idle name = false) (hup : name ≠ "..")
    (hlink : ∀ absolute target, d.node (p ++ [name]) ≠ some (.link absolute target)) :
    d.Plain (p ++ [name]) where
  real := by
    intro other hother
    rcases List.mem_append.mp hother with hother | hother
    · exact h.real other hother
    · rw [List.mem_singleton.mp hother]
      exact ⟨hidle, hup⟩
  bare := by
    intro q hq
    rcases List.prefix_concat_iff.mp hq with rfl | hq
    · exact hlink
    · exact h.bare q hq

section Walks

variable {d d' : Disk C} {strict : Bool} {jump jump' : Place → List String → Except Errno Place}

/-- What holds of the places a walk starts from and passes holds where it
arrives: the rule by which facts on walks are proved. -/
theorem along_ind {I : Place → Prop} (hroot : I [])
    (hdrop : ∀ p, I p → I p.dropLast)
    (hsnoc : ∀ p name, I p → idle name = false → name ≠ ".." →
      (∀ absolute target, d.node (p ++ [name]) ≠ some (.link absolute target)) →
      I (p ++ [name]))
    (hjump : ∀ cur rest p, I cur → jump cur rest = .ok p → I p)
    {cur : Place} {names : List String} {p : Place} (hcur : I cur)
    (h : d.along strict jump cur names = .ok p) : I p := by
  induction names generalizing cur with
  | nil =>
      cases h
      exact hcur
  | cons name rest ih =>
      unfold along at h
      split at h
      next => exact ih hcur h
      next hidle =>
        split at h
        next => exact ih (hdrop cur hcur) h
        next hup =>
          have hstep : (∀ absolute target,
              d.node (cur ++ [name]) ≠ some (.link absolute target)) → I (cur ++ [name]) :=
            hsnoc cur name hcur (by simpa using hidle) hup
          split at h
          next absolute target hnode =>
            refine hjump _ _ p ?_ h
            cases absolute with
            | true => exact hroot
            | false => exact hcur
          next hnode => exact ih (hstep (by simp [hnode])) h
          next hnode =>
            split at h
            next => cases h
            next => exact ih (hstep (by simp [hnode])) h
          next hnode =>
            split at h
            next => cases h
            next => exact ih (hstep (by simp [hnode])) h

theorem walk_plain {n : Nat} {cur : Place} {path : List String} {p : Place} (hcur : d.Plain cur)
    (h : d.walk strict n cur path = .ok p) : d.Plain p := by
  induction n generalizing cur path p with
  | zero =>
      refine along_ind (plain_nil d) (fun q hq => hq.mono q.dropLast_prefix)
        (fun q name hq hidle hup hlink => hq.snoc hidle hup hlink) ?_ hcur h
      intro _ _ _ _ hjump
      cases hjump
  | succ n ih =>
      exact along_ind (plain_nil d) (fun q hq => hq.mono q.dropLast_prefix)
        (fun q name hq hidle hup hlink => hq.snoc hidle hup hlink)
        (fun _ _ _ hfrom hjump => ih hfrom hjump) hcur h

/-- A resolved path names no link. -/
theorem resolve_plain {patience : Nat} {path : List String} {p : Place}
    (h : d.resolve patience path = .ok p) : d.Plain p :=
  walk_plain (plain_nil d) h

theorem along_of_plain {cur : Place} {names : List String} {p : Place}
    (hplain : d.Plain (cur ++ names)) (h : d.along true jump cur names = .ok p) :
    p = cur ++ names := by
  induction names generalizing cur with
  | nil =>
      obtain rfl := Except.ok.inj h
      exact (List.append_nil _).symm
  | cons name rest ih =>
      have hassoc : cur ++ name :: rest = cur ++ [name] ++ rest := by simp
      obtain ⟨hidle, hup⟩ := hplain.real name (by simp)
      have hbare := hplain.bare (cur ++ [name]) (hassoc ▸ List.prefix_append _ _)
      rw [hassoc] at hplain ⊢
      unfold along at h
      rw [if_neg (by simp [hidle]), if_neg hup] at h
      split at h
      next hnode => exact absurd hnode (hbare _ _)
      next => exact ih hplain h
      next =>
        split at h
        next => cases h
        next => exact ih hplain h
      next =>
        split at h
        next => cases h
        next => exact ih hplain h

/-- The system's walk of a plain place ends there or fails. -/
theorem follow_of_plain {p q : Place} (hplain : d.Plain p) (h : d.follow p = .ok q) : q = p :=
  @along_of_plain _ _ _ [] _ _ hplain h

/-- Everything above a place is a directory. -/
theorem dir_of_prefix {p q : Place} (h : q <+: p) (hp : d.node p = some .dir) :
    d.node q = some .dir := by
  induction p using List.reverseRecOn with
  | nil =>
      rw [List.prefix_nil.mp h]
      exact hp
  | append_singleton p name ih =>
      rcases List.prefix_concat_iff.mp h with rfl | h
      · exact hp
      · refine ih h ?_
        have hup := d.parent (p ++ [name]) (by simp) (by rw [hp]; exact nofun)
        rwa [List.dropLast_concat] at hup

theorem along_below {cur : Place} {names : List String} {name : String}
    (hplain : d.Plain (cur ++ names)) (hdir : d.node (cur ++ names) = some .dir)
    (hidle : idle name = false) (hup : name ≠ "..")
    (hlink : ∀ absolute target, d.node (cur ++ names ++ [name]) ≠ some (.link absolute target)) :
    d.along true jump cur (names ++ [name]) = .ok (cur ++ names ++ [name]) := by
  induction names generalizing cur with
  | nil =>
      rw [List.append_nil] at hlink ⊢
      rw [List.nil_append, along, if_neg (by simp [hidle]), if_neg hup]
      split
      next hnode => exact absurd hnode (hlink _ _)
      all_goals simp [along]
  | cons first rest ih =>
      have hassoc : cur ++ first :: rest = cur ++ [first] ++ rest := by simp
      obtain ⟨hfirst, hfirstUp⟩ := hplain.real first (by simp)
      have hnode : d.node (cur ++ [first]) = some .dir :=
        dir_of_prefix (hassoc ▸ List.prefix_append _ _) hdir
      rw [hassoc] at hplain hdir hlink ⊢
      rw [List.cons_append, along, if_neg (by simp [hfirst]), if_neg hfirstUp, hnode]
      exact ih hplain hdir hlink

/-- The system's walk of a name in a plain directory, where it is no link. -/
theorem follow_below {p : Place} {name : String} (hplain : d.Plain p)
    (hdir : d.node p = some .dir) (hidle : idle name = false) (hup : name ≠ "..")
    (hlink : ∀ absolute target, d.node (p ++ [name]) ≠ some (.link absolute target)) :
    d.follow (p ++ [name]) = .ok (p ++ [name]) :=
  @along_below _ _ _ [] _ _ hplain hdir hidle hup hlink

/-- The system's walk of a plain directory. -/
theorem along_dir {cur : Place} {names : List String} (hplain : d.Plain (cur ++ names))
    (hdir : d.node (cur ++ names) = some .dir) :
    d.along true jump cur names = .ok (cur ++ names) := by
  induction names generalizing cur with
  | nil =>
      rw [List.append_nil]
      rfl
  | cons first rest ih =>
      have hassoc : cur ++ first :: rest = cur ++ [first] ++ rest := by simp
      obtain ⟨hfirst, hfirstUp⟩ := hplain.real first (by simp)
      have hnode : d.node (cur ++ [first]) = some .dir :=
        dir_of_prefix (hassoc ▸ List.prefix_append _ _) hdir
      rw [hassoc] at hplain hdir ⊢
      rw [along, if_neg (by simp [hfirst]), if_neg hfirstUp, hnode]
      exact ih hplain hdir

theorem follow_dir {p : Place} (hplain : d.Plain p) (hdir : d.node p = some .dir) :
    d.follow p = .ok p :=
  @along_dir _ _ _ [] _ hplain hdir

theorem along_agree (hjump : ∀ cur rest p q, jump cur rest = .ok p → jump' cur rest = .ok q → p = q)
    {cur : Place} {names : List String} {p q : Place} (hp : d.along true jump cur names = .ok p)
    (hq : d.along false jump' cur names = .ok q) : p = q := by
  induction names generalizing cur with
  | nil =>
      cases hp
      cases hq
      rfl
  | cons name rest ih =>
      unfold along at hp hq
      split at hp
      next hidle =>
        rw [if_pos hidle] at hq
        exact ih hp hq
      next hidle =>
        rw [if_neg hidle] at hq
        split at hp
        next hup =>
          rw [if_pos hup] at hq
          exact ih hp hq
        next hup =>
          rw [if_neg hup] at hq
          split at hp
          next hnode =>
            rw [hnode] at hq
            exact hjump _ _ _ _ hp hq
          next hnode =>
            rw [hnode] at hq
            exact ih hp hq
          next hnode =>
            split at hp
            next => cases hp
            next =>
              rw [hnode] at hq
              exact ih hp (by simpa using hq)
          next hnode =>
            split at hp
            next => cases hp
            next =>
              rw [hnode] at hq
              exact ih hp (by simpa using hq)

theorem walk_agree {n m : Nat} {cur : Place} {path : List String} {p q : Place}
    (hp : d.walk true n cur path = .ok p) (hq : d.walk false m cur path = .ok q) : p = q := by
  induction n generalizing m cur path p q with
  | zero =>
      cases m with
      | zero => exact along_agree (fun _ _ _ _ h => by cases h) hp hq
      | succ m => exact along_agree (fun _ _ _ _ h => by cases h) hp hq
  | succ n ih =>
      cases m with
      | zero => exact along_agree (fun _ _ _ _ _ h => by cases h) hp hq
      | succ m => exact along_agree (fun _ _ _ _ h h' => ih h h') hp hq

/-- Where the system's walk and `os.path.realpath` both arrive, they arrive
at the same place. -/
theorem follow_eq_resolve {patience : Nat} {path : List String} {p q : Place}
    (hp : d.follow path = .ok p) (hq : d.resolve patience path = .ok q) : p = q :=
  walk_agree hp hq

theorem along_lax (hjump : ∀ cur rest p, jump cur rest = .ok p → jump' cur rest = .ok p)
    {cur : Place} {names : List String} {p : Place} (h : d.along true jump cur names = .ok p) :
    d.along false jump' cur names = .ok p := by
  induction names generalizing cur with
  | nil => exact h
  | cons name rest ih =>
      unfold along at h ⊢
      split at h
      next hidle =>
        rw [if_pos hidle]
        exact ih h
      next hidle =>
        rw [if_neg hidle]
        split at h
        next hup =>
          rw [if_pos hup]
          exact ih h
        next hup =>
          rw [if_neg hup]
          split at h
          next => exact hjump _ _ _ h
          next => exact ih h
          next =>
            split at h
            next => cases h
            next => exact ih h
          next =>
            split at h
            next => cases h
            next => exact ih h

theorem walk_lax {n m : Nat} (hle : n ≤ m) {cur : Place} {path : List String} {p : Place}
    (h : d.walk true n cur path = .ok p) : d.walk false m cur path = .ok p := by
  induction n generalizing m cur path p with
  | zero =>
      cases m with
      | zero => exact along_lax (fun _ _ _ h => by cases h) h
      | succ m => exact along_lax (fun _ _ _ h => by cases h) h
  | succ n ih =>
      cases m with
      | zero => omega
      | succ m => exact along_lax (fun _ _ _ h => ih (by omega) h) h

/-- Where the system's walk arrives, `os.path.realpath` arrives, if it
follows as many links. -/
theorem resolve_of_follow {patience : Nat} (hle : 40 ≤ patience) {path : List String} {p : Place}
    (h : d.follow path = .ok p) : d.resolve patience path = .ok p :=
  walk_lax hle h

-- ========================================================== later disks

/-- Directories and links stay. -/
structure Grows (d d' : Disk C) : Prop where
  dir : ∀ p, d.node p = some .dir → d'.node p = some .dir
  link : ∀ p absolute target, d.node p = some (.link absolute target) →
    d'.node p = some (.link absolute target)

theorem Grows.refl (d : Disk C) : d.Grows d := ⟨fun _ h => h, fun _ _ _ h => h⟩

theorem Grows.trans {d'' : Disk C} (h : d.Grows d') (h' : d'.Grows d'') : d.Grows d'' where
  dir := fun p hp => h'.dir p (h.dir p hp)
  link := fun p absolute target hp => h'.link p absolute target (h.link p absolute target hp)

theorem along_grows (hd : d.Grows d')
    (hjump : ∀ cur rest p, jump cur rest = .ok p → d.node p = some .dir → jump' cur rest = .ok p)
    {cur : Place} {names : List String} {p : Place} (h : d.along true jump cur names = .ok p)
    (hdir : d.node p = some .dir) : d'.along true jump' cur names = .ok p := by
  induction names generalizing cur with
  | nil => exact h
  | cons name rest ih =>
      unfold along at h ⊢
      split at h
      next hidle =>
        rw [if_pos hidle]
        exact ih h
      next hidle =>
        rw [if_neg hidle]
        split at h
        next hup =>
          rw [if_pos hup]
          exact ih h
        next hup =>
          rw [if_neg hup]
          split at h
          next hnode =>
            rw [hd.link _ _ _ hnode]
            exact hjump _ _ _ h hdir
          next hnode =>
            rw [hd.dir _ hnode]
            exact ih h
          -- a file or a missing name would be where the walk ends
          next hnode =>
            split at h
            next => cases h
            next hrest =>
              have hnil : rest = [] := by simpa using hrest
              subst hnil
              cases h
              rw [hnode] at hdir
              cases hdir
          next hnode =>
            split at h
            next => cases h
            next hrest =>
              have hnil : rest = [] := by simpa using hrest
              subst hnil
              cases h
              rw [hnode] at hdir
              cases hdir

theorem walk_grows (hd : d.Grows d') {n : Nat} {cur : Place} {path : List String} {p : Place}
    (h : d.walk true n cur path = .ok p) (hdir : d.node p = some .dir) :
    d'.walk true n cur path = .ok p := by
  induction n generalizing cur path p with
  | zero => exact along_grows hd (fun _ _ _ h => by cases h) h hdir
  | succ n ih => exact along_grows hd (fun _ _ _ h hp => ih h hp) h hdir

/-- A path that led to a directory goes on leading there. -/
theorem follow_grows (hd : d.Grows d') {path : List String} {p : Place}
    (h : d.follow path = .ok p) (hdir : d.node p = some .dir) : d'.follow path = .ok p :=
  walk_grows hd h hdir

-- ============================================================= same links

/-- The links are the same. -/
def SameLinks (d d' : Disk C) : Prop :=
  ∀ p absolute target,
    d.node p = some (.link absolute target) ↔ d'.node p = some (.link absolute target)

theorem SameLinks.refl (d : Disk C) : d.SameLinks d := fun _ _ _ => Iff.rfl

theorem SameLinks.trans {d'' : Disk C} (h : d.SameLinks d') (h' : d'.SameLinks d'') :
    d.SameLinks d'' :=
  fun p absolute target => (h p absolute target).trans (h' p absolute target)

/-- A name that is no link is passed by a walk that is not strict. -/
theorem along_false_cons {cur : Place} {name : String} {rest : List String}
    (hidle : ¬ idle name = true) (hup : name ≠ "..")
    (hlink : ∀ absolute target, d.node (cur ++ [name]) ≠ some (.link absolute target)) :
    d.along false jump cur (name :: rest) = d.along false jump (cur ++ [name]) rest := by
  rw [along, if_neg hidle, if_neg hup]
  split
  next hnode => exact absurd hnode (hlink _ _)
  next => rfl
  next => exact if_neg (by simp)
  next => exact if_neg (by simp)

theorem SameLinks.along_eq (hd : d.SameLinks d')
    (hjump : ∀ cur rest, jump cur rest = jump' cur rest) {cur : Place} {names : List String} :
    d.along false jump cur names = d'.along false jump' cur names := by
  induction names generalizing cur with
  | nil => rfl
  | cons name rest ih =>
      by_cases hidle : idle name = true
      · unfold along
        rw [if_pos hidle, if_pos hidle]
        exact ih
      · by_cases hup : name = ".."
        · unfold along
          rw [if_neg hidle, if_neg hidle, if_pos hup, if_pos hup]
          exact ih
        · by_cases hlink : ∃ absolute target, d.node (cur ++ [name]) = some (.link absolute target)
          · obtain ⟨absolute, target, hnode⟩ := hlink
            unfold along
            rw [if_neg hidle, if_neg hidle, if_neg hup, if_neg hup, hnode,
              (hd _ absolute target).mp hnode]
            exact hjump _ _
          · simp only [not_exists] at hlink
            rw [along_false_cons hidle hup hlink, along_false_cons hidle hup fun absolute target h =>
              hlink absolute target ((hd _ absolute target).mpr h)]
            exact ih

theorem SameLinks.walk_eq (hd : d.SameLinks d') {n : Nat} {cur : Place} {path : List String} :
    d.walk false n cur path = d'.walk false n cur path := by
  induction n generalizing cur path with
  | zero => exact hd.along_eq fun _ _ => rfl
  | succ n ih => exact hd.along_eq fun _ _ => ih

/-- `os.path.realpath` looks at nothing but links. -/
theorem SameLinks.resolve_eq (hd : d.SameLinks d') (patience : Nat) (path : List String) :
    d.resolve patience path = d'.resolve patience path :=
  hd.walk_eq

/-- A plain place stays plain where no link is made. -/
theorem SameLinks.plain (hd : d.SameLinks d') {p : Place} (h : d.Plain p) : d'.Plain p where
  real := h.real
  bare := fun q hq absolute target hnode => h.bare q hq absolute target ((hd _ _ _).mpr hnode)

end Walks

-- ==================================================== what a call changes

section Calls

variable {d d' : Disk C} {p q : Place} {n : Node C}

theorem node_put (hp : p ≠ []) (hup : d.node p.dropLast = some .dir)
    (hdir : d.node p ≠ some .dir) :
    (d.put p n hp hup hdir).node q = if q = p then some n else d.node q := rfl

theorem node_removeWhere (d : Disk C) (gone : Place → Bool) (q : Place) :
    (d.removeWhere gone).node q =
      match d.node q with
      | some .dir => some .dir
      | n => if gone q then none else n := rfl

/-- What is removed makes no links. -/
theorem Plain.removeWhere {p : Place} (h : d.Plain p) (gone : Place → Bool) :
    (d.removeWhere gone).Plain p where
  real := h.real
  bare := by
    intro q hq absolute target hnode
    rw [node_removeWhere] at hnode
    split at hnode
    next => cases hnode
    next =>
      split at hnode
      next => cases hnode
      next => exact h.bare q hq absolute target hnode

/-- What is put behind a plain place leaves it plain. -/
theorem Plain.put {r : Place} (h : d.Plain r) (hp : p ≠ []) (hup : d.node p.dropLast = some .dir)
    (hdir : d.node p ≠ some .dir) (hbehind : ¬ p <+: r) : (d.put p n hp hup hdir).Plain r where
  real := h.real
  bare := by
    intro q hq absolute target hnode
    have hne : q ≠ p := fun heq => hbehind (heq ▸ hq)
    rw [node_put, if_neg hne] at hnode
    exact h.bare q hq absolute target hnode

/-- What is put where no link lay leaves directories and links. -/
theorem grows_put (hp : p ≠ []) (hup : d.node p.dropLast = some .dir)
    (hdir : d.node p ≠ some .dir)
    (hlink : ∀ absolute target, d.node p ≠ some (.link absolute target)) :
    d.Grows (d.put p n hp hup hdir) where
  dir := by
    intro q hq
    have hne : q ≠ p := fun h => hdir (h ▸ hq)
    rw [node_put, if_neg hne, hq]
  link := by
    intro q absolute target hq
    have hne : q ≠ p := fun h => hlink absolute target (h ▸ hq)
    rw [node_put, if_neg hne, hq]

/-- What is put where no link lay, and is none, leaves the links. -/
theorem sameLinks_put (hp : p ≠ []) (hup : d.node p.dropLast = some .dir)
    (hdir : d.node p ≠ some .dir)
    (hlink : ∀ absolute target, d.node p ≠ some (.link absolute target))
    (hnew : ∀ absolute target, n ≠ .link absolute target) :
    d.SameLinks (d.put p n hp hup hdir) := by
  intro q absolute target
  rw [node_put]
  by_cases hq : q = p
  · rw [if_pos hq, hq]
    exact iff_of_false (hlink _ _) fun h => hnew _ _ (Option.some.inj h)
  · rw [if_neg hq]

theorem fileAt_put_of_ne (hp : p ≠ []) (hup : d.node p.dropLast = some .dir)
    (hdir : d.node p ≠ some .dir) (h : q ≠ p) :
    (d.put p n hp hup hdir).fileAt q = d.fileAt q := by
  simp only [fileAt, node_put, if_neg h]

/-- What `os.mkdir` does: a directory where nothing was. -/
theorem mkdir_ok {path : List String} (h : d.mkdir path = .ok d') :
    ∃ p, ∃ (hp : p ≠ []) (hup : d.node p.dropLast = some .dir) (hnone : d.node p = none),
      d' = d.put p .dir hp hup (by simp [hnone]) := by
  unfold mkdir at h
  split at h
  next => cases h
  next name _ =>
    split at h
    next => cases h
    next up _ =>
      split at h
      next => cases h
      next =>
        split at h
        next hup hnone =>
          cases h
          exact ⟨up ++ [name], by simp, by simpa using hup, hnone, rfl⟩
        next => cases h
        next => cases h
        next => cases h

theorem mkdir_grows {path : List String} (h : d.mkdir path = .ok d') : d.Grows d' := by
  obtain ⟨p, hp, hup, hnone, rfl⟩ := mkdir_ok h
  exact grows_put hp hup _ (by simp [hnone])

theorem mkdir_sameLinks {path : List String} (h : d.mkdir path = .ok d') : d.SameLinks d' := by
  obtain ⟨p, hp, hup, hnone, rfl⟩ := mkdir_ok h
  exact sameLinks_put hp hup _ (by simp [hnone]) (by simp)

/-- A new directory leaves every file. -/
theorem mkdir_fileAt {path : List String} (h : d.mkdir path = .ok d') (q : Place) :
    d'.fileAt q = d.fileAt q := by
  obtain ⟨p, hp, hup, hnone, rfl⟩ := mkdir_ok h
  by_cases hq : q = p
  · rw [hq]
    simp [fileAt, node_put, hnone]
  · exact fileAt_put_of_ne hp hup _ hq

/-- What `open` does: the place the path leads to holds the empty file, and
held no directory and no link. -/
theorem openFile_ok {empty : C} {path : List String} (h : d.openFile empty path = .ok (d', p)) :
    d.follow path = .ok p ∧ (∀ absolute target, d.node p ≠ some (.link absolute target)) ∧
      ∃ (hp : p ≠ []) (hup : d.node p.dropLast = some .dir) (hdir : d.node p ≠ some .dir),
        d' = d.put p (.file empty) hp hup hdir := by
  unfold openFile at h
  split at h
  next => cases h
  next place hfollow =>
    split at h
    next => cases h
    next => cases h
    next content hnode =>
      split at h
      next hp =>
        cases h
        exact ⟨hfollow, by simp [hnode], hp, d.parent p hp (by simp [hnode]), by simp [hnode], rfl⟩
      next => cases h
    next hnode =>
      split at h
      next hp =>
        split at h
        next hup =>
          cases h
          exact ⟨hfollow, by simp [hnode], hp, hup, by simp [hnode], rfl⟩
        next => cases h
      next => cases h

theorem openFile_grows {empty : C} {path : List String}
    (h : d.openFile empty path = .ok (d', p)) : d.Grows d' := by
  obtain ⟨-, hlink, hp, hup, hdir, rfl⟩ := openFile_ok h
  exact grows_put hp hup hdir hlink

theorem openFile_sameLinks {empty : C} {path : List String}
    (h : d.openFile empty path = .ok (d', p)) : d.SameLinks d' := by
  obtain ⟨-, hlink, hp, hup, hdir, rfl⟩ := openFile_ok h
  exact sameLinks_put hp hup hdir hlink (by simp)

/-- An open leaves every file but the one it opens. -/
theorem openFile_fileAt {empty : C} {path : List String}
    (h : d.openFile empty path = .ok (d', p)) (hq : q ≠ p) : d'.fileAt q = d.fileAt q := by
  obtain ⟨-, -, hp, hup, hdir, rfl⟩ := openFile_ok h
  exact fileAt_put_of_ne hp hup hdir hq

/-- The opened file is empty. -/
theorem openFile_opened {empty : C} {path : List String}
    (h : d.openFile empty path = .ok (d', p)) : d'.fileAt p = some empty := by
  obtain ⟨-, -, hp, hup, hdir, rfl⟩ := openFile_ok h
  simp [fileAt, node_put]

/-- What a write to an open file does. -/
theorem write_eq {content old : C} (hp : p ≠ []) (h : d.node p = some (.file old)) :
    d.write p content =
      d.put p (.file content) hp (d.parent p hp (by simp [h])) (by simp [h]) := by
  unfold write
  split
  next => rw [dif_pos hp]
  next hnot => exact absurd h (hnot old)

theorem write_of_not_file {content : C} (h : ∀ old, d.node p ≠ some (.file old)) :
    d.write p content = d := by
  unfold write
  split
  next old hnode => exact absurd hnode (h old)
  next => rfl

theorem write_sameLinks (content : C) : d.SameLinks (d.write p content) := by
  by_cases h : p ≠ [] ∧ ∃ old, d.node p = some (.file old)
  · obtain ⟨hp, old, hnode⟩ := h
    rw [write_eq hp hnode]
    exact sameLinks_put hp _ _ (by simp [hnode]) (by simp)
  · have hnot : ∀ old, d.node p ≠ some (.file old) := by
      intro old hnode
      refine h ⟨fun hp => ?_, old, hnode⟩
      rw [hp, d.root] at hnode
      cases hnode
    rw [write_of_not_file hnot]
    exact .refl d

/-- A write leaves every file but the one it writes. -/
theorem write_fileAt {content : C} (hq : q ≠ p) : (d.write p content).fileAt q = d.fileAt q := by
  by_cases h : p ≠ [] ∧ ∃ old, d.node p = some (.file old)
  · obtain ⟨hp, old, hnode⟩ := h
    rw [write_eq hp hnode]
    exact fileAt_put_of_ne hp _ _ hq
  · have hnot : ∀ old, d.node p ≠ some (.file old) := by
      intro old hnode
      refine h ⟨fun hp => ?_, old, hnode⟩
      rw [hp, d.root] at hnode
      cases hnode
    rw [write_of_not_file hnot]

/-- What was written to a file is read there. -/
theorem fileAt_write {content old : C} (h : d.fileAt p = some old) :
    (d.write p content).fileAt p = some content := by
  have hnode : d.node p = some (.file old) := by
    unfold fileAt at h
    split at h
    next hnode => rw [hnode, Option.some.inj h]
    next => cases h
  have hp : p ≠ [] := by
    intro hp
    rw [hp, d.root] at hnode
    cases hnode
  rw [write_eq hp hnode]
  simp [fileAt, node_put]

end Calls

end Disk
end Links
