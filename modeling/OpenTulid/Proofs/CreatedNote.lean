/-
The note of a created task, as it is read.

# Text

`serializeTask` writes a document whose body is the title as a heading and the
body of the task without a heading of its own (`serializeTask_eq`). Below a
frontmatter without fences the document is read with this body, its breaks as
newlines (`split_document`); with a fence inside, more is read than the task
has (`ink_comparedBody_document`).

# Fields

`TextFits` and `FieldsFit` are what the title, the body and the fields of a
task have to be like for the note to be read as the task (`reads_created`,
`fits_of_reads`).
-/
import OpenTulid.Proofs.TrimmedText
import OpenTulid.Proofs.MoveTask
import OpenTulid.Proofs.NoteNames

namespace OpenTulid.Obsidian

open Boards (ReadText stripped fence)
open Frozen (Key PyValue Entries)
open Frozen.Prompt (Text splitlines joined isLineBreak takeLine)
open Standard (isSpace)
open Trim (trim Trimmed)

variable {py : Python} {task : Task}

-- ==================================================================== texts

/-- The body that is written, without a title. -/
def plainBody (task : Task) : Text := stripNewlines (stripLeadingTitle task.body)

/-- The text below the frontmatter that is written. -/
def taskText (task : Task) : Text :=
  if stripped task.title = [] then plainBody task
  else titleMark ++ stripped task.title ++
    if plainBody task = [] then [] else "\n\n".toList ++ plainBody task

theorem trimmed_stripped (text : Text) : Trimmed isSpace (stripped text) :=
  Trim.trimmed_trim isSpace text

theorem trimmed_plainBody (task : Task) : Trimmed (· = '\n') (plainBody task) :=
  Trim.trimmed_trim _ _

theorem trimmed_taskText (task : Task) : Trimmed (· = '\n') (taskText task) := by
  unfold taskText
  split
  next => exact trimmed_plainBody task
  next hne =>
    refine ⟨?_, ?_⟩
    · intro c hc
      cases hc
      rfl
    · split
      next =>
        rw [List.append_nil, List.getLast?_append_of_ne_nil _ hne]
        intro c hc
        have hsolid := (trimmed_stripped task.title).last c hc
        refine decide_eq_false ?_
        rintro rfl
        cases hsolid
      next hbody =>
        rw [← List.append_assoc, List.getLast?_append_of_ne_nil _ hbody]
        exact (trimmed_plainBody task).last

theorem stripNewlines_taskText (task : Task) : stripNewlines (taskText task) = taskText task :=
  (trimmed_taskText task).trim_eq

/-- A task is written as a document. -/
theorem serializeTask_eq (task : Task) :
    serializeTask py task = (sortedEntries (taskFrontmatter task)).map fun sorted =>
      document (rstripNewlines (py.dump sorted)) (taskText task) := by
  have htail : ∀ frontmatter : Text,
      joined "\n" (frontmatter :: [] :: contentLines task) =
        frontmatter ++ documentTail (taskText task) := by
    intro frontmatter
    unfold documentTail contentLines
    rw [stripNewlines_taskText]
    unfold taskText
    show joined "\n" (frontmatter :: [] :: ((if stripped task.title = [] then [] else
      [titleMark ++ stripped task.title, []]) ++ if plainBody task = [] then [] else
        [plainBody task, []])) = _
    have hmark : ∀ rest : Text, titleMark ++ rest ≠ [] := fun rest => nofun
    by_cases htitle : stripped task.title = []
    · by_cases hbody : plainBody task = []
      · simp [htitle, hbody, joined]
      · simp [htitle, hbody, joined]
    · by_cases hbody : plainBody task = []
      · simp [htitle, hbody, joined, hmark]
      · simp [htitle, hbody, joined, hmark]
  unfold serializeTask serializeFrontmatter document
  cases sortedEntries (taskFrontmatter task) with
  | none => rfl
  | some sorted =>
      simp only [Option.map_some, htail]
      simp

-- ================================================================ what is read

/-- Reading depends on the lines alone, where a fence closes the frontmatter. -/
theorem splitFrontmatter_universalNewlines {content : Text} (h : closingFence content ≠ none) :
    splitFrontmatter py (universalNewlines content) = splitFrontmatter py content := by
  have hfence : closingFence (universalNewlines content) = closingFence content := by
    unfold closingFence
    rw [splitlines_universalNewlines]
  rw [splitFrontmatter_eq, splitFrontmatter_eq, hfence, splitlines_universalNewlines]
  unfold belowFence
  rw [hfence]
  cases hidx : closingFence content with
  | none => exact absurd hidx h
  | some idx =>
      dsimp only
      rw [Frozen.Prompt.splitlines_dropLines, Frozen.Prompt.splitlines_dropLines,
        splitlines_universalNewlines]

/-- A newline behind a text. -/
theorem newlined_concat (text : Text) :
    newlined (text ++ ['\n']) = newlined text ++ ['\n'] ∨ newlined (text ++ ['\n']) = newlined text := by
  unfold newlined
  fun_induction Frozen.Prompt.joinLineBreaks text with
  | case1 => exact .inl rfl
  | case2 rest ih =>
      rw [List.cons_append, List.cons_append, Frozen.Prompt.joinLineBreaks, List.map_cons,
        List.map_cons]
      rcases ih with h | h
      · exact .inl (by rw [h]; rfl)
      · exact .inr (by rw [h])
  | case3 c rest hnot ih =>
      by_cases hreturn : c = '\r' ∧ rest = []
      · obtain ⟨rfl, rfl⟩ := hreturn
        exact .inr rfl
      · rw [List.cons_append, Frozen.Prompt.joinLineBreaks, List.map_cons, List.map_cons]
        · rcases ih with h | h
          · exact .inl (by rw [h]; rfl)
          · exact .inr (by rw [h])
        · rintro rest' rfl heq
          cases rest with
          | nil => exact hreturn ⟨rfl, rfl⟩
          | cons d rest =>
              cases heq
              exact hnot _ rfl rfl

/-- Newlines around a text stay around it. -/
theorem stripNewlines_newlined_strip (text : Text) :
    stripNewlines (newlined (stripNewlines text)) = stripNewlines (newlined text) := by
  have hleft : ∀ before rest : Text, (∀ c ∈ before, c = '\n') →
      stripNewlines (newlined (before ++ rest)) = stripNewlines (newlined rest) := by
    intro before rest hbefore
    induction before with
    | nil => rfl
    | cons c before ih =>
        rw [hbefore c (.head _)]
        exact ih fun c hc => hbefore c (.tail _ hc)
  have hright : ∀ after rest : Text, (∀ c ∈ after, c = '\n') →
      stripNewlines (newlined (rest ++ after)) = stripNewlines (newlined rest) := by
    intro after
    induction after with
    | nil =>
        intro rest _
        rw [List.append_nil]
    | cons c after ih =>
        intro rest hafter
        rw [hafter c (.head _), ← List.singleton_append, ← List.append_assoc,
          ih (rest ++ ['\n']) fun c hc => hafter c (.tail _ hc)]
        rcases newlined_concat rest with h | h
        · rw [h, stripNewlines_concat]
        · rw [h]
  obtain ⟨before, after, htext, hbefore, hafter⟩ := stripNewlines_eq text
  conv => rhs; rw [htext]
  rw [hright after _ hafter, hleft before _ hbefore]

/-- What is read of a document that was written. -/
theorem split_document {yaml text : Text} (h : NoFence yaml) :
    splitFrontmatter py (universalNewlines (document yaml text)) =
      (parseFrontmatter py (joined "\n" (yamlLines yaml))) >>= fun frontmatter =>
        .ok (frontmatter, stripNewlines (newlined text)) := by
  have hclosed : closingFence (document yaml text) ≠ none := by
    rcases closingFence_document yaml text with ⟨-, hidx⟩ | ⟨hnot, -⟩
    · rw [hidx]
      nofun
    · exact absurd h hnot
  rw [splitFrontmatter_universalNewlines hclosed, splitFrontmatter_document h,
    ← stripNewlines_newlined, ← stripNewlines_newlined_strip, belowFence_document h,
    stripNewlines_newlined_strip]

-- ==================================================================== title

/-- The body that is read of a task that was written. -/
def bodyRead (task : Task) : Text := stripNewlines (newlined (taskText task))

/-- The first line of a text, and newlines for the breaks below. -/
theorem newlined_eq (text : Text) :
    ∃ below, newlined text = takeLine text ++ below ∧ ∀ c ∈ below.head?, c = '\n' := by
  have hkeep : (takeLine text).map newlineFor = takeLine text := by
    conv => rhs; rw [← List.map_id (takeLine text)]
    refine List.map_congr_left fun c hc => ?_
    unfold newlineFor
    rw [Frozen.Prompt.not_isLineBreak_takeLine hc]
    rfl
  unfold newlined
  rcases Frozen.Prompt.joinLineBreaks_eq text with ⟨-, hjoin, -⟩ | ⟨c, hbreak, hjoin⟩
  · exact ⟨[], by rw [hjoin, hkeep, List.append_nil], nofun⟩
  · refine ⟨newlineFor c :: (Frozen.Prompt.joinLineBreaks (Frozen.Prompt.dropLine text)).map newlineFor, ?_, ?_⟩
    · rw [hjoin, List.map_append, List.map_cons, hkeep]
    · intro d hd
      cases hd
      unfold newlineFor
      rw [if_pos hbreak]

/-- A first line that is not empty is read as the first line. -/
theorem head_splitlines {text : Text} (hne : takeLine text ≠ []) :
    ∃ rest, splitlines (stripNewlines (newlined text)) = takeLine text :: rest := by
  have hsolid : ∀ c ∈ takeLine text, isLineBreak c = false :=
    fun c hc => Frozen.Prompt.not_isLineBreak_takeLine hc
  have hnotNewline : ∀ c ∈ takeLine text, c ≠ '\n' := by
    rintro c hc rfl
    exact absurd (hsolid _ hc) (by decide)
  obtain ⟨below, htext, hbelow⟩ := newlined_eq text
  have hleft : (takeLine text ++ below).dropWhile (· = '\n') = takeLine text ++ below := by
    obtain ⟨c, line, hline⟩ := List.exists_cons_of_ne_nil hne
    rw [hline, List.cons_append]
    exact List.dropWhile_cons_of_neg (by simpa using hnotNewline c (hline ▸ .head _))
  unfold stripNewlines
  rw [htext, hleft]
  by_cases hempty : below.rdropWhile (· = '\n') = []
  · refine ⟨[], ?_⟩
    have hnewlines := List.rdropWhile_eq_nil_iff.mp hempty
    rw [Trim.rdropWhile_append_of_pos hnewlines, List.rdropWhile_eq_self_iff.mpr]
    · exact splitlines_line hsolid hne
    · intro hne'
      simpa using hnotNewline _ (List.getLast_mem hne')
  · rw [Trim.rdropWhile_append_of_ne_nil hempty]
    obtain ⟨c, rest, hrest⟩ := List.exists_cons_of_ne_nil hempty
    have hc : c = '\n' := by
      obtain ⟨tail, htail⟩ := List.rdropWhile_prefix (· = '\n') below
      refine hbelow c ?_
      rw [← htail, hrest]
      rfl
    rw [hrest, hc]
    exact ⟨_, splitlines_cons hsolid rest⟩

theorem takeLine_title (task : Task) (h : stripped task.title ≠ []) :
    ∃ line, takeLine (taskText task) = titleMark ++ line ∧ (∀ c ∈ line, isLineBreak c = false) ∧
      (∃ c rest, line = c :: rest ∧ isSpace c = false) ∧
      ((∀ c ∈ stripped task.title, isLineBreak c = false) → line = stripped task.title) := by
  obtain ⟨c, rest, htitle⟩ := List.exists_cons_of_ne_nil h
  have hsolid : isSpace c = false := (trimmed_stripped task.title).head c (by rw [htitle]; rfl)
  have hbreak : isLineBreak c = false := by
    cases hc : isLineBreak c with
    | false => rfl
    | true =>
        rw [isSpace_of_isLineBreak hc] at hsolid
        cases hsolid
  have htext : ∃ below, taskText task = titleMark ++ (stripped task.title ++ below) ∧
      (below = [] ∨ ∃ more, below = '\n' :: more) := by
    unfold taskText
    rw [if_neg h]
    by_cases hbody : plainBody task = []
    · rw [if_pos hbody]
      exact ⟨[], by rw [List.append_assoc], .inl rfl⟩
    · rw [if_neg hbody]
      exact ⟨_, List.append_assoc .., .inr ⟨_, rfl⟩⟩
  obtain ⟨below, htext, hbelow⟩ := htext
  refine ⟨takeLine (stripped task.title ++ below), ?_, ?_, ?_, ?_⟩
  · rw [htext]
    rfl
  · exact fun d hd => Frozen.Prompt.not_isLineBreak_takeLine hd
  · rw [htitle]
    refine ⟨c, takeLine (rest ++ below), ?_, hsolid⟩
    unfold Frozen.Prompt.takeLine
    rw [List.cons_append, List.takeWhile_cons_of_pos (by simp [hbreak])]
  · intro hone
    rcases hbelow with rfl | ⟨more, rfl⟩
    · rw [List.append_nil]
      exact takeLine_self hone
    · rw [Frozen.Prompt.takeLine_append]
      exact takeLine_self hone

/-- A line that starts with no blank, behind the mark of a title. -/
theorem stripped_titleMark {line : Text} (h : ∃ c rest, line = c :: rest ∧ isSpace c = false) :
    stripped (titleMark ++ line) = titleMark ++ stripped line ∧ stripped line ≠ [] := by
  obtain ⟨c, rest, rfl, hsolid⟩ := h
  have hne : stripped (c :: rest) ≠ [] := by
    intro hnil
    have := stripped_eq_nil_iff.mp hnil c (.head _)
    rw [hsolid] at this
    cases this
  have hleft : stripped (c :: rest) = (c :: rest).rdropWhile isSpace := by
    unfold stripped Frozen.Prompt.strip
    rw [List.dropWhile_cons_of_neg (by simp [hsolid])]
  refine ⟨?_, hne⟩
  rw [hleft] at hne ⊢
  unfold stripped Frozen.Prompt.strip
  show (titleMark ++ (c :: rest)).rdropWhile isSpace = _
  exact Trim.rdropWhile_append_of_ne_nil hne _

/-- The title that is read is the first line of the title that was written. -/
theorem extractTitle_bodyRead {line : Text} (h : takeLine (taskText task) = titleMark ++ line)
    (hline : ∃ c rest, line = c :: rest ∧ isSpace c = false) :
    extractTitle (bodyRead task) = some (stripped line) := by
  obtain ⟨rest, hrest⟩ := @head_splitlines (taskText task) (by rw [h]; nofun)
  obtain ⟨hmark, hne⟩ := stripped_titleMark hline
  unfold extractTitle bodyRead
  rw [hrest, List.findSome?_cons, h, hmark]
  have htitled : "# ".toList.isPrefixOf (titleMark ++ stripped line) = true :=
    List.isPrefixOf_iff_prefix.mpr ⟨_, rfl⟩
  rw [if_pos htitled]
  show some (stripped (stripped line)) = _
  exact congrArg some (Trim.trim_trim isSpace line)

/-- Below a title of one line the body is what it was. -/
theorem comparedBody_bodyRead (hne : stripped task.title ≠ [])
    (hone : ∀ c ∈ stripped task.title, isLineBreak c = false) :
    comparedBody (bodyRead task) = comparedBody task.body := by
  obtain ⟨c, rest, htitle⟩ := List.exists_cons_of_ne_nil hne
  have hsolid : isSpace c = false := (trimmed_stripped task.title).head c (by rw [htitle]; rfl)
  obtain ⟨hmark, -⟩ := stripped_titleMark ⟨c, rest, htitle, hsolid⟩
  have hself : stripped (stripped task.title) = stripped task.title := Trim.trim_trim _ _
  have htitled : titled (titleMark ++ stripped task.title) = true := by
    unfold titled
    rw [hmark]
    exact List.isPrefixOf_iff_prefix.mpr ⟨_, rfl⟩
  have hline : ∀ d ∈ titleMark ++ stripped task.title, isLineBreak d = false := by
    intro d hd
    rcases List.mem_append.mp hd with hd | hd
    · rcases hd with _ | ⟨_, hd⟩
      · rfl
      · rcases hd with _ | ⟨_, hd⟩
        · rfl
        · cases hd
    · exact hone d hd
  have hnotBlank : stripped (titleMark ++ stripped task.title) ≠ [] := by
    rw [hmark]
    exact List.cons_ne_nil _ _
  unfold bodyRead
  rw [comparedBody_stripNewlines, comparedBody_eq, ← stripped_stripLeadingTitle]
  unfold solidLines taskText
  rw [if_neg hne]
  by_cases hbody : plainBody task = []
  · rw [if_pos hbody, List.append_nil, splitlines_line hline (List.cons_ne_nil _ _),
      List.dropWhile_cons_of_neg (by simpa using hnotBlank)]
    dsimp only
    rw [if_pos htitled]
    unfold plainBody at hbody
    rw [hbody]
    rfl
  · rw [if_neg hbody]
    have hbreaks : "\n\n".toList ++ plainBody task = '\n' :: '\n' :: plainBody task := rfl
    rw [hbreaks, splitlines_cons hline, List.dropWhile_cons_of_neg (by simpa using hnotBlank)]
    dsimp only
    have hblank : splitlines ('\n' :: plainBody task) = [] :: splitlines (plainBody task) :=
      @splitlines_cons [] (fun c hc => absurd hc List.not_mem_nil) (plainBody task)
    rw [if_pos htitled, hblank, ← stripped_joined_dropWhile, List.dropWhile_cons_of_pos rfl,
      stripped_joined_dropWhile]
    rfl

-- ==================================================================== fences

/-- The characters that are no blanks. -/
def ink (text : Text) : Nat := text.countP fun c => !isSpace c

theorem ink_append (text rest : Text) : ink (text ++ rest) = ink text + ink rest :=
  List.countP_append

theorem ink_stripped (text : Text) : ink (stripped text) = ink text := Trim.countP_trim isSpace text

theorem ink_stripNewlines (text : Text) : ink (stripNewlines text) = ink text := by
  rw [← ink_stripped, stripped_stripNewlines, ink_stripped]

theorem ink_newlined (text : Text) : ink (newlined text) = ink text := by
  have hjoin : ink (Frozen.Prompt.joinLineBreaks text) = ink text := by
    fun_induction Frozen.Prompt.joinLineBreaks text with
    | case1 => rfl
    | case2 rest ih =>
        show ink (['\n'] ++ _) = ink (['\r', '\n'] ++ rest)
        rw [ink_append, ink_append, ih]
        rfl
    | case3 c rest hnot ih =>
        rw [← List.singleton_append, ink_append, ih, ← ink_append]
        rfl
  rw [← hjoin]
  unfold ink newlined
  rw [List.countP_map]
  refine List.countP_congr fun c _ => ?_
  show (!isSpace (newlineFor c)) = true ↔ _
  rw [isSpace_newlineFor]

theorem ink_joined_splitlines (text : Text) : ink (joined "\n" (splitlines text)) = ink text := by
  rw [← ink_stripped, ← stripped_newlined, ink_stripped, ink_newlined]

/-- Lines in front add to it. -/
theorem ink_joined_append (lines more : List Text) :
    ink (joined "\n" (lines ++ more)) = ink (joined "\n" lines) + ink (joined "\n" more) := by
  have hcons : ∀ (line : Text) (rest : List Text),
      ink (joined "\n" (line :: rest)) = ink line + ink (joined "\n" rest) := by
    intro line rest
    cases rest with
    | nil => simp [joined, ink]
    | cons next rest =>
        rw [Frozen.Prompt.joined_cons_cons, ink_append]
        rfl
  induction lines with
  | nil =>
      show _ = 0 + _
      rw [Nat.zero_add, List.nil_append]
  | cons line lines ih =>
      rw [List.cons_append, hcons, hcons, ih]
      omega

/-- A line that is a fence counts, wherever it stands. -/
theorem ink_comparedBody {text : Text} {lines more : List Text}
    (h : splitlines text = lines ++ fence :: more) :
    3 + ink (joined "\n" more) ≤ ink (comparedBody text) := by
  have hthree : ink fence = 3 := rfl
  have hfence : ∀ front : List Text,
      ink (joined "\n" (front ++ fence :: more)) =
        ink (joined "\n" front) + (3 + ink (joined "\n" more)) := by
    intro front
    rw [ink_joined_append, ← List.singleton_append, ink_joined_append]
    show _ + (ink (fence ++ []) + _) = _
    rw [List.append_nil, hthree]
  rw [comparedBody_eq]
  unfold solidLines
  rw [h, List.dropWhile_append]
  by_cases hempty : (lines.dropWhile fun line => stripped line = []).isEmpty = true
  · rw [if_pos hempty, List.dropWhile_cons_of_neg (by decide)]
    dsimp only
    have hplain : titled fence = false := rfl
    rw [hplain, if_neg (by simp), ink_stripped]
    have hstart := hfence []
    rw [List.nil_append] at hstart
    rw [hstart]
    omega
  · obtain ⟨first, front, hfront⟩ := List.exists_cons_of_ne_nil
      (fun hnil => hempty (List.isEmpty_iff.mpr hnil))
    rw [if_neg hempty, hfront, List.cons_append]
    dsimp only
    split
    next =>
      rw [ink_stripped, hfence]
      omega
    next =>
      rw [ink_stripped, ← List.cons_append, hfence]
      omega

/-- With a fence among the lines of the YAML library, more is read than the
body that was written. -/
theorem ink_document {yaml text body : Text} {frontmatter : Entries} (h : ¬ NoFence yaml)
    (hsplit : splitFrontmatter py (universalNewlines (document yaml text)) =
      .ok (frontmatter, body)) :
    ink text < ink (comparedBody body) := by
  rcases closingFence_document yaml text with ⟨hno, -⟩ | ⟨-, idx, hlt, hidx⟩
  · exact absurd hno h
  · rw [splitFrontmatter_universalNewlines (by rw [hidx]; nofun), splitFrontmatter_eq, hidx] at hsplit
    dsimp only at hsplit
    obtain ⟨parsed, -, hparts⟩ := Fallible.bind_eq_ok.mp hsplit
    cases hparts
    rw [← stripNewlines_newlined, comparedBody_stripNewlines]
    obtain ⟨below, htail, hlines⟩ := splitlines_fence text
    obtain ⟨below', htail', hstrip⟩ := documentTail_eq text
    have hbelow : below = below' := List.tail_eq_of_cons_eq (htail.symm.trans htail')
    have hread : splitlines (belowFence (document yaml text)) =
        (yamlLines yaml).drop (idx + 1) ++ fence :: splitlines below := by
      unfold belowFence
      rw [hidx]
      dsimp only
      rw [Frozen.Prompt.splitlines_dropLines, splitlines_document, hlines, List.drop_succ_cons,
        List.drop_append_of_le_length (Nat.succ_le_of_lt hlt)]
    have hink := ink_comparedBody hread
    rw [ink_joined_splitlines] at hink
    have hsame : ink below = ink text := by
      rw [hbelow, ← ink_stripNewlines below', hstrip, ink_stripNewlines]
    omega

/-- The body that is compared has no more than what was written. -/
theorem ink_comparedBody_le (task : Task) : ink (comparedBody task.body) ≤ ink (taskText task) := by
  rw [← stripped_stripLeadingTitle, ink_stripped, ink_joined_splitlines]
  show ink (plainBody task) ≤ _
  unfold taskText
  split
  next => exact le_refl _
  next =>
    rw [ink_append]
    by_cases hbody : plainBody task = []
    · rw [hbody]
      exact Nat.zero_le _
    · rw [if_neg hbody, ink_append "\n\n".toList]
      omega

-- ================================================================ the mapping

theorem mem_keys_set {values : Entries} {key : String} {v : PyValue} {k : Key}
    (hk : k ∈ (set values key v).map Prod.fst) : k = .str key ∨ k ∈ values.map Prod.fst := by
  induction values with
  | nil => exact .inl (List.mem_singleton.mp hk)
  | cons e values ih =>
      obtain ⟨first, w⟩ := e
      have hrest : k ∈ first :: (set values key v).map Prod.fst →
          k = .str key ∨ k ∈ (((first, w) :: values).map Prod.fst) := by
        intro hk
        rcases List.mem_cons.mp hk with rfl | hk
        · exact .inr (.head _)
        · exact (ih hk).imp id (.tail _)
      cases first with
      | str name =>
          unfold set at hk
          split at hk
          next => exact .inr hk
          next => exact hrest hk
      | _ => exact hrest hk

/-- Setting a key keeps the keys apart. -/
theorem nodup_set {values : Entries} (h : (values.map Prod.fst).Nodup) (key : String)
    (v : PyValue) : ((set values key v).map Prod.fst).Nodup := by
  induction values with
  | nil => exact List.nodup_singleton _
  | cons e values ih =>
      obtain ⟨first, w⟩ := e
      obtain ⟨hnot, hnodup⟩ := List.nodup_cons.mp h
      have hrest : first ≠ .str key → (first :: (set values key v).map Prod.fst).Nodup := by
        refine fun hne => List.nodup_cons.mpr ⟨fun hin => ?_, ih hnodup⟩
        rcases mem_keys_set hin with heq | hin
        · exact hne heq
        · exact hnot hin
      cases first with
      | str name =>
          unfold set
          split
          next => exact h
          next hne => exact hrest fun heq => hne (Key.str.inj heq)
      | _ => exact hrest (by simp)

theorem mem_of_get? {values : Entries} {key : String} {v : PyValue} (h : get? values key = some v) :
    (Key.str key, v) ∈ values := by
  induction values with
  | nil => cases h
  | cons e values ih =>
      obtain ⟨first, w⟩ := e
      cases first with
      | str name =>
          unfold get? at h
          split at h
          next heq =>
            cases h
            rw [heq]
            exact .head _
          next => exact .tail _ (ih h)
      | _ => exact .tail _ (ih h)

theorem get?_eq_some_iff {values : Entries} (hnodup : (values.map Prod.fst).Nodup) {key : String}
    {v : PyValue} : get? values key = some v ↔ (Key.str key, v) ∈ values := by
  refine ⟨mem_of_get?, fun h => ?_⟩
  induction values with
  | nil => cases h
  | cons e values ih =>
      obtain ⟨first, w⟩ := e
      obtain ⟨hnot, hrest⟩ := List.nodup_cons.mp hnodup
      rcases List.mem_cons.mp h with heq | hmem
      · cases heq
        unfold get?
        rw [if_pos rfl]
      · have hne : first ≠ .str key := by
          rintro rfl
          exact hnot (List.mem_map.mpr ⟨_, hmem, rfl⟩)
        cases first with
        | str name =>
            unfold get?
            rw [if_neg fun heq => hne (congrArg Key.str heq)]
            exact ih hrest hmem
        | _ => exact ih hrest hmem

/-- The order of the entries does not matter. -/
theorem get?_perm {values other : Entries} (hnodup : (values.map Prod.fst).Nodup)
    (h : values.Perm other) (key : String) : get? values key = get? other key := by
  have hother : (other.map Prod.fst).Nodup := (h.map Prod.fst).nodup_iff.mp hnodup
  refine Option.ext fun v => ?_
  rw [get?_eq_some_iff hnodup, get?_eq_some_iff hother, h.mem_iff]

theorem metadataOf_set {key : String} (h : key ∈ reservedKeys) (values : Entries) (v : PyValue) :
    metadataOf (set values key v) = metadataOf values := by
  have hnot : ∀ (w : PyValue) (rest : Entries),
      metadataOf ((.str key, w) :: rest) = metadataOf rest := by
    intro w rest
    unfold metadataOf
    exact List.filter_cons_of_neg (by simpa using h)
  induction values with
  | nil => exact hnot v []
  | cons e values ih =>
      obtain ⟨first, w⟩ := e
      have hcons : metadataOf ((first, w) :: set values key v) =
          metadataOf ((first, w) :: values) := by
        unfold metadataOf at ih ⊢
        rw [List.filter_cons, List.filter_cons, ih]
      cases first with
      | str name =>
          unfold set
          split
          next heq =>
            rw [heq, hnot, hnot]
          next => exact hcons
      | _ => exact hcons

/-- What a condition sets. -/
theorem get?_setIf (condition : Bool) (values : Entries) (key other : String) (v : PyValue) :
    get? (setIf condition values key v) other =
      if condition = true ∧ other = key then some v else get? values other := by
  unfold setIf
  cases condition with
  | false => rfl
  | true =>
      show get? (set values key v) other = _
      rw [get?_set]
      simp

theorem nodup_setIf {values : Entries} (h : (values.map Prod.fst).Nodup) (condition : Bool)
    (key : String) (v : PyValue) : ((setIf condition values key v).map Prod.fst).Nodup := by
  unfold setIf
  split
  next => exact nodup_set h key v
  next => exact h

theorem metadataOf_setIf {key : String} (h : key ∈ reservedKeys) (condition : Bool)
    (values : Entries) (v : PyValue) : metadataOf (setIf condition values key v) = metadataOf values := by
  unfold setIf
  split
  next => exact metadataOf_set h values v
  next => rfl

theorem nodup_taskFrontmatter (h : (task.metadata.map Prod.fst).Nodup) :
    ((taskFrontmatter task).map Prod.fst).Nodup := by
  unfold taskFrontmatter
  refine nodup_setIf ?_ _ _ _
  refine nodup_setIf ?_ _ _ _
  refine nodup_setIf ?_ _ _ _
  refine nodup_setIf ?_ _ _ _
  exact nodup_set (nodup_set h _ _) _ _

theorem metadataOf_taskFrontmatter (task : Task) :
    metadataOf (taskFrontmatter task) = metadataOf task.metadata := by
  unfold taskFrontmatter
  rw [metadataOf_setIf (by decide), metadataOf_setIf (by decide), metadataOf_setIf (by decide),
    metadataOf_setIf (by decide), metadataOf_set (by decide), metadataOf_set (by decide)]

/-- The value of a field in the mapping that is written. -/
theorem get?_taskFrontmatter (task : Task) (key : String) :
    get? (taskFrontmatter task) key =
      if task.parentId.isSome = true ∧ key = "parent_id" then
        some (textValue (task.parentId.getD []))
      else if task.artifactLinks ≠ [] ∧ key = "artifact_links" then
        some (textValues task.artifactLinks)
      else if task.dependencies ≠ [] ∧ key = "dependencies" then some (textValues task.dependencies)
      else if task.currentState ≠ [] ∧ key = "state" then some (textValue task.currentState)
      else if key = "type" then some (textValue task.taskType)
      else if key = "id" then some (textValue task.id)
      else get? task.metadata key := by
  unfold taskFrontmatter
  simp only [get?_setIf, get?_set, decide_eq_true_eq]

/-- The mapping that is written, in the order in which it is written. -/
def sortedFrontmatter (task : Task) : Entries := (taskFrontmatter task).insertionSort byText

theorem get?_sortedFrontmatter (h : (task.metadata.map Prod.fst).Nodup) (key : String) :
    get? (sortedFrontmatter task) key = get? (taskFrontmatter task) key :=
  (get?_perm (nodup_taskFrontmatter h) (List.perm_insertionSort byText _).symm key).symm

theorem perm_metadataOf (task : Task) :
    (metadataOf (sortedFrontmatter task)).Perm (metadataOf task.metadata) := by
  rw [← metadataOf_taskFrontmatter]
  exact (List.perm_insertionSort byText _).filter _

-- ==================================================================== fields

/-- A tuple of texts that is written and read: no text is blank, and metadata
of the same name stands for none. -/
def TextsFit (py : Python) (texts : List Text) (leaked : PyValue) : Prop :=
  if texts = [] then stringTuple py leaked = [] else ∀ text ∈ texts, stripped text ≠ []

/-- The fields of a task that are read as they were written. -/
structure FieldsFit (py : Python) (task : Task) : Prop where
  dependencies : TextsFit py task.dependencies (get task.metadata "dependencies")
  artifactLinks : TextsFit py task.artifactLinks (get task.metadata "artifact_links")
  /-- the parent has no blanks around, and metadata of the name stands for none -/
  parentId : match task.parentId with
    | none => optionalString py (get task.metadata "parent_id") = none
    | some id => id ≠ [] ∧ stripped id = id

theorem stringTuple_textValues (py : Python) (texts : List Text) :
    stringTuple py (textValues texts) = texts.filter fun text => stripped text ≠ [] := by
  unfold stringTuple textValues
  have hself : (texts.map textValue).map py.str = texts := by
    rw [List.map_map]
    conv => rhs; rw [← List.map_id texts]
    refine List.map_congr_left fun text _ => ?_
    show py.str (.str (String.ofList text)) = text
    rw [py.str_str, String.toList_ofList]
  dsimp only
  rw [hself]

theorem textsFit_iff {texts : List Text} {leaked : PyValue} :
    stringTuple py (if texts ≠ [] then textValues texts else leaked) = texts ↔
      TextsFit py texts leaked := by
  unfold TextsFit
  by_cases hempty : texts = []
  · rw [if_pos hempty, if_neg (by simpa using hempty), hempty]
  · rw [if_neg hempty, if_pos hempty, stringTuple_textValues, List.filter_eq_self]
    simp

theorem optionalString_textValue (py : Python) (text : Text) :
    optionalString py (textValue text) = if stripped text = [] then none else some (stripped text) := by
  unfold optionalString textValue
  dsimp only
  rw [py.str_str, String.toList_ofList]

/-- The state that the note of a task names. -/
def namedState (py : Python) (task : Task) : Text :=
  if task.currentState = [] then textField py task.metadata "state" [] else task.currentState

-- ================================================================ reading back

/-- A title that is read as it was written: it is of one line, or there is none
in the title, in the body and in the name of the note. -/
def TitleFits (stem : Text) (task : Task) : Prop :=
  (stripped task.title ≠ [] ∧ ∀ c ∈ stripped task.title, isLineBreak c = false) ∨
    (stripped task.title = [] ∧ stripped stem = [] ∧ extractTitle (bodyRead task) = none)

/-- What the title, the body and the mapping of a task have to be like, for a
note with this stem. -/
structure TextFits (py : Python) (stem : Text) (task : Task) : Prop where
  title : TitleFits stem task
  /-- the YAML library writes no line that is a fence -/
  fences : NoFence (yamlOf py (taskFrontmatter task))
  /-- no heading stands twice in the body -/
  structured : Derived.duplicateHeadingNames []
    (Derived.parseTaskBody (bodyRead task)).sections = []

/-- The YAML library reads the mapping that it wrote. -/
def YamlKeeps (py : Python) (task : Task) : Prop :=
  parseFrontmatter py (joined "\n" (yamlLines (yamlOf py (taskFrontmatter task)))) =
    .ok (sortedFrontmatter task)

theorem structure_iff (body : Text) (location : String) :
    Derived.validateTaskStructure body location false = [] ↔
      Derived.duplicateHeadingNames [] (Derived.parseTaskBody body).sections = [] := by
  unfold Derived.validateTaskStructure
  exact List.map_eq_nil_iff

variable {p : Project} {name : Text}

/-- The file of a created task, as it is read. -/
def createdFile (py : Python) (task : Task) : ReadText :=
  .text (universalNewlines (document (yamlOf py (taskFrontmatter task)) (taskText task)))

theorem get?_id (h : (task.metadata.map Prod.fst).Nodup) :
    get? (sortedFrontmatter task) "id" = some (textValue task.id) := by
  rw [get?_sortedFrontmatter h, get?_taskFrontmatter]
  simp

theorem get?_type (h : (task.metadata.map Prod.fst).Nodup) :
    get? (sortedFrontmatter task) "type" = some (textValue task.taskType) := by
  rw [get?_sortedFrontmatter h, get?_taskFrontmatter]
  simp

theorem textField_state (h : (task.metadata.map Prod.fst).Nodup) :
    textField py (sortedFrontmatter task) "state" [] = namedState py task := by
  unfold textField namedState
  rw [get?_sortedFrontmatter h, get?_taskFrontmatter]
  by_cases hstate : task.currentState = []
  · simp [hstate]
    rfl
  · simp [hstate, textValue, py.str_str]

theorem get_texts (h : (task.metadata.map Prod.fst).Nodup) :
    get (sortedFrontmatter task) "dependencies" =
        (if task.dependencies ≠ [] then textValues task.dependencies
          else get task.metadata "dependencies") ∧
      get (sortedFrontmatter task) "artifact_links" =
        if task.artifactLinks ≠ [] then textValues task.artifactLinks
          else get task.metadata "artifact_links" := by
  unfold get
  rw [get?_sortedFrontmatter h, get?_sortedFrontmatter h, get?_taskFrontmatter,
    get?_taskFrontmatter]
  constructor
  · by_cases hempty : task.dependencies = []
    · simp [hempty]
    · simp [hempty]
  · by_cases hempty : task.artifactLinks = []
    · simp [hempty]
    · simp [hempty]

theorem parentId_iff (h : (task.metadata.map Prod.fst).Nodup) :
    optionalString py (get (sortedFrontmatter task) "parent_id") = task.parentId ↔
      match task.parentId with
      | none => optionalString py (get task.metadata "parent_id") = none
      | some id => id ≠ [] ∧ stripped id = id := by
  unfold get
  rw [get?_sortedFrontmatter h, get?_taskFrontmatter]
  cases task.parentId with
  | none => simp
  | some id =>
      simp only [Option.isSome_some, and_self, if_true, Option.getD_some]
      rw [optionalString_textValue]
      by_cases hblank : stripped id = []
      · rw [if_pos hblank, hblank]
        simp only [reduceCtorEq, false_iff, not_and]
        exact fun hne heq => hne heq.symm
      · rw [if_neg hblank]
        constructor
        · intro heq
          have heq := Option.some.inj heq
          exact ⟨heq ▸ hblank, heq⟩
        · exact fun hid => congrArg some hid.2

/-- The fields of the task that is read. -/
theorem fields_iff (h : (task.metadata.map Prod.fst).Nodup) :
    (stringTuple py (get (sortedFrontmatter task) "dependencies") = task.dependencies ∧
      stringTuple py (get (sortedFrontmatter task) "artifact_links") = task.artifactLinks ∧
      optionalString py (get (sortedFrontmatter task) "parent_id") = task.parentId) ↔
      FieldsFit py task := by
  rw [(get_texts h).1, (get_texts h).2, textsFit_iff, textsFit_iff, parentId_iff h]
  exact ⟨fun ⟨hdeps, hlinks, hparent⟩ => ⟨hdeps, hlinks, hparent⟩,
    fun ⟨hdeps, hlinks, hparent⟩ => ⟨hdeps, hlinks, hparent⟩⟩

/-- The title that is read of a note. -/
def titleRead (stem body : Text) : Text :=
  match extractTitle body with
  | none | some [] => stem
  | some title => title

/-- The task that is read of a created note. -/
def taskRead (py : Python) (p : Project) (name : Text) (task : Task) (title : Text) : Task where
  id := task.id
  title := title
  path := p.domainPath (p.taskPath name)
  currentState := namedState py task
  taskType := task.taskType
  dependencies := stringTuple py (get (sortedFrontmatter task) "dependencies")
  artifactLinks := stringTuple py (get (sortedFrontmatter task) "artifact_links")
  parentId := optionalString py (get (sortedFrontmatter task) "parent_id")
  metadata := metadataOf (sortedFrontmatter task)
  body := bodyRead task

/-- A created note without fences is read with the fields that were written. -/
theorem task_created (hkeys : (task.metadata.map Prod.fst).Nodup) :
    (p.note name (createdFile py task)).task py p.domainPath task.id (sortedFrontmatter task)
        (bodyRead task) =
      taskRead py p name task (titleRead (stemOf name) (bodyRead task)) := by
  have htype : textField py (sortedFrontmatter task) "type" "task".toList = task.taskType := by
    unfold textField
    rw [get?_type hkeys]
    show py.str (.str (String.ofList task.taskType)) = _
    rw [py.str_str, String.toList_ofList]
  unfold Note.task taskRead titleRead
  rw [textField_state hkeys, htype]
  generalize extractTitle (bodyRead task) = found
  cases found with
  | none => rfl
  | some title =>
      cases title with
      | nil => rfl
      | cons c title => rfl

/-- What a created note without fences is read as. -/
theorem readsAs_created_iff (hkeys : (task.metadata.map Prod.fst).Nodup) (hyaml : YamlKeeps py task)
    (hid : isValidTaskId task.id = true) (hfences : NoFence (yamlOf py (taskFrontmatter task)))
    {t : Task} :
    ReadsAs py p (name, createdFile py task) t ↔
      Derived.duplicateHeadingNames [] (Derived.parseTaskBody (bodyRead task)).sections = [] ∧
      t = taskRead py p name task (titleRead (stemOf name) (bodyRead task)) := by
  have hstripped : stripped task.id = task.id :=
    stripped_of_solid fun c hc => (plain_of_isValidTaskId hid c hc).safe.1
  have hne : task.id ≠ [] := by
    intro hnil
    rw [hnil] at hid
    cases hid
  have hsplit := @split_document py _ (taskText task) hfences
  rw [hyaml, Fallible.ok_bind] at hsplit
  have hidRead : taskIdOf (get (sortedFrontmatter task) "id") = some (some task.id) := by
    unfold get
    rw [get?_id hkeys]
    show some (if stripped (String.ofList task.id).toList = [] then none
      else some (stripped (String.ofList task.id).toList)) = _
    rw [String.toList_ofList, hstripped, if_neg hne]
  constructor
  · intro hread
    obtain ⟨content, frontmatter, body, hfile, hsplit', hid', -, htask⟩ := hread.parts
    cases hfile
    rw [hsplit] at hsplit'
    cases hsplit'
    have hsame : t.id = task.id := (Option.some.inj (Option.some.inj (hidRead.symm.trans hid'))).symm
    have hbody : t.body = bodyRead task := by
      rw [htask]
      rfl
    refine ⟨(structure_iff _ _).mp (hbody ▸ hread.structured), ?_⟩
    refine htask.trans ?_
    rw [hsame]
    exact task_created hkeys
  · rintro ⟨hstructure, rfl⟩
    have hread := @reads_of_parts py p name _ (bodyRead task) task.id (sortedFrontmatter task)
      hsplit hidRead hid ((structure_iff _ _).mpr hstructure)
    have htask := @task_created py task p name hkeys
    unfold createdFile at htask ⊢
    rw [htask] at hread
    exact hread

/-- A title that is found is not blank. -/
theorem stripped_of_extractTitle {body title : Text} (h : extractTitle body = some title) :
    stripped title = title ∧ title ≠ [] := by
  unfold extractTitle at h
  obtain ⟨line, -, hline⟩ := List.exists_of_findSome?_eq_some h
  split at hline
  next hmark =>
    obtain ⟨rest, hrest⟩ := List.isPrefixOf_iff_prefix.mp hmark
    have htitle : stripped rest = title := by
      rw [← hrest] at hline
      exact Option.some.inj hline
    refine ⟨by rw [← htitle]; exact Trim.trim_trim _ _, ?_⟩
    rintro rfl
    -- a stripped line does not end with the blank of the mark
    have hspaces := stripped_eq_nil_iff.mp htitle
    have hlast := (trimmed_stripped line).last
    rw [← hrest] at hlast
    have hend : ∀ c ∈ ('#' :: ' ' :: rest).getLast?, isSpace c = true := by
      intro c hc
      rw [List.getLast?_cons_cons] at hc
      rcases List.mem_cons.mp (List.mem_of_getLast? hc) with rfl | hc
      · rfl
      · exact hspaces c hc
    have hc := List.getLast?_eq_some_getLast (List.cons_ne_nil '#' (' ' :: rest))
    have hsolid := hlast _ hc
    rw [hend _ hc] at hsolid
    cases hsolid
  next => cases hline

/-- The title that is read is the one that was written, if and only if it is
of one line, or there is none. -/
theorem title_iff : stripped (titleRead (stemOf name) (bodyRead task)) = stripped task.title ↔
    TitleFits (stemOf name) task := by
  unfold TitleFits
  by_cases hempty : stripped task.title = []
  · rw [hempty]
    have hread : stripped (titleRead (stemOf name) (bodyRead task)) = [] ↔
        stripped (stemOf name) = [] ∧ extractTitle (bodyRead task) = none := by
      unfold titleRead
      cases hfound : extractTitle (bodyRead task) with
      | none => exact ⟨fun hstem => ⟨hstem, rfl⟩, fun hboth => hboth.1⟩
      | some title =>
          obtain ⟨hself, hne⟩ := stripped_of_extractTitle hfound
          obtain ⟨c, rest, hcons⟩ := List.exists_cons_of_ne_nil hne
          rw [hcons]
          dsimp only
          rw [← hcons, hself]
          exact ⟨fun hnil => absurd hnil hne, fun hboth => nomatch hboth.2⟩
    rw [hread]
    exact ⟨fun hnone => .inr ⟨rfl, hnone⟩, fun hfits => hfits.elim (fun hone => absurd rfl hone.1)
      fun hnone => hnone.2⟩
  · obtain ⟨line, htake, hsolid, hstart, hwhole⟩ := takeLine_title task hempty
    obtain ⟨c, rest, hline⟩ := List.exists_cons_of_ne_nil (stripped_titleMark hstart).2
    have hread : titleRead (stemOf name) (bodyRead task) = stripped line := by
      unfold titleRead
      rw [extractTitle_bodyRead htake hstart, hline]
    rw [hread]
    constructor
    · intro heq
      refine .inl ⟨hempty, fun d hd => hsolid d ?_⟩
      rw [← heq] at hd
      exact mem_stripped (mem_stripped hd)
    · rintro (⟨-, hone⟩ | ⟨hnil, -⟩)
      · rw [hwhole hone]
        exact (Trim.trim_trim _ _).trans (Trim.trim_trim _ _)
      · exact absurd hnil hempty

/-- A body without titles is compared as a whole. -/
theorem comparedBody_untitled {body : Text} (h : extractTitle body = none) :
    comparedBody body = stripped (joined "\n" (splitlines body)) := by
  rw [comparedBody_eq, ← stripped_joined_dropWhile]
  show _ = stripped (joined "\n" (solidLines body))
  cases hsolid : solidLines body with
  | nil => rfl
  | cons first rest =>
      have hmem : first ∈ splitlines body := (List.dropWhile_suffix _).subset
        (show first ∈ solidLines body by rw [hsolid]; exact .head _)
      have hplain : titled first = false := by
        unfold extractTitle at h
        have hnone := List.findSome?_eq_none_iff.mp h first hmem
        cases htitled : titled first with
        | false => rfl
        | true =>
            unfold titled titleMark at htitled
            rw [if_pos htitled] at hnone
            cases hnone
      dsimp only
      rw [hplain, if_neg (by simp)]

/-- The body that is read is compared as the one that was written. -/
theorem comparedBody_read (h : TitleFits (stemOf name) task) :
    comparedBody (bodyRead task) = comparedBody task.body := by
  rcases h with ⟨hne, hone⟩ | ⟨hnil, -, hnone⟩
  · exact comparedBody_bodyRead hne hone
  · rw [comparedBody_untitled hnone, ← stripped_stripLeadingTitle, ← stripped_newlined,
      ← stripped_newlined]
    unfold bodyRead taskText
    rw [if_pos hnil, strip_newlined, stripped_stripNewlines, strip_newlined]
    rw [newlined_self fun c hc => newline_of_mem_newlined hc]
    exact (strip_newlined _).symm

/-- A created note that is read as the task has the text and the fields that it
has to have. -/
theorem fits_of_reads (hkeys : (task.metadata.map Prod.fst).Nodup) (hyaml : YamlKeeps py task)
    (hid : isValidTaskId task.id = true) {t : Task}
    {state : Text} (hread : ReadsAs py p (name, createdFile py task) t)
    (hmatch : CreatedTaskMatches { t with currentState := state } task) :
    TextFits py (stemOf name) task ∧ FieldsFit py task ∧ t.currentState = namedState py task := by
  have hfences : NoFence (yamlOf py (taskFrontmatter task)) := by
    by_contra hnot
    obtain ⟨content, frontmatter, body, hfile, hsplit, -, -, htask⟩ := hread.parts
    cases hfile
    have hink := ink_document hnot hsplit
    have hbody : comparedBody t.body = comparedBody task.body := hmatch.body
    have htbody : t.body = body := by
      rw [htask]
      rfl
    rw [← htbody, hbody] at hink
    have := ink_comparedBody_le task
    omega
  obtain ⟨hstructure, rfl⟩ := (readsAs_created_iff hkeys hyaml hid hfences).mp hread
  have hsame := hmatch.title
  dsimp only [taskRead] at hsame
  exact ⟨⟨title_iff.mp hsame, hfences, hstructure⟩,
    (fields_iff hkeys).mp ⟨hmatch.dependencies, hmatch.artifactLinks, hmatch.parentId⟩, rfl⟩

/-- A created note whose text and fields are what they have to be is read as the
task. -/
theorem reads_created (hkeys : (task.metadata.map Prod.fst).Nodup) (hyaml : YamlKeeps py task)
    (hid : isValidTaskId task.id = true) (htext : TextFits py (stemOf name) task) (hfields : FieldsFit py task) :
    ∃ t, ReadsAs py p (name, createdFile py task) t ∧ t.id = task.id ∧
      t.currentState = namedState py task ∧
      CreatedTaskMatches { t with currentState := task.currentState } task := by
  obtain ⟨htitle, hfences, hstructure⟩ := htext
  obtain ⟨hdeps, hlinks, hparent⟩ := (fields_iff hkeys).mpr hfields
  refine ⟨_, (readsAs_created_iff hkeys hyaml hid hfences).mpr ⟨hstructure, rfl⟩, rfl, rfl, ?_⟩
  have hmeta : metadataOf (metadataOf (sortedFrontmatter task)) =
      metadataOf (sortedFrontmatter task) := by
    unfold metadataOf
    rw [List.filter_filter]
    simp
  have hsame : stripped (titleRead (stemOf name) (bodyRead task)) = stripped task.title :=
    title_iff.mpr htitle
  constructor
  case id => rfl
  case title =>
    dsimp only [taskRead]
    exact hsame
  case currentState => rfl
  case taskType => rfl
  case dependencies => exact hdeps
  case artifactLinks => exact hlinks
  case parentId => exact hparent
  case metadata =>
    dsimp only [taskRead]
    rw [hmeta]
    exact perm_metadataOf task
  case body =>
    dsimp only [taskRead]
    exact comparedBody_read htitle

end OpenTulid.Obsidian
