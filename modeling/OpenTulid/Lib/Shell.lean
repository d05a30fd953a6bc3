/-
The words that a POSIX shell reads in the text of a simple command.

A word is the list of its characters, each with whether it was quoted. `words`
reads blanks, the two quotes and characters that mean themselves; texts with an
operator, an expansion or a pattern are not read. `invoked` says what
`sh -c` then executes: the words, if the first is no reserved word, no
assignment and no option of the shell itself.
-/
import Mathlib.Data.Char
import Mathlib.Data.List.Basic

namespace Shell

/-- The characters of a word, and which of them were quoted. -/
abbrev Word := List (Char × Bool)

/-- The characters that quotes take no meaning from. -/
def Word.text (word : Word) : List Char := word.map Prod.fst

/-- Where a reader stands. -/
inductive Quote where
  | bare
  | single
  | double
  deriving DecidableEq

/-- Characters with a meaning of their own outside quotes. -/
def isSpecial (c : Char) : Bool := c ∈ "|&;<>()$`\\\n\r*?[]#~!^\x7b\x7d".toList

/-- Characters with a meaning of their own within double quotes. -/
def isExpanded (c : Char) : Bool := c ∈ "$`\\".toList

/-- A word has begun, and may be empty. -/
def begun (word : Option Word) : Option Word := some (word.getD [])

def add (word : Option Word) (c : Char) (quoted : Bool) : Option Word :=
  some (word.getD [] ++ [(c, quoted)])

/-- The words of a text; the word that is being read comes in. -/
def words : Quote → Option Word → List Char → Option (List Word)
  | .bare, word, [] => some word.toList
  | .single, _, [] => none
  | .double, _, [] => none
  | .bare, word, c :: rest =>
      if c = ' ' ∨ c = '\t' then (words .bare none rest).map (word.toList ++ ·)
      else if c = '\'' then words .single (begun word) rest
      else if c = '"' then words .double (begun word) rest
      else if isSpecial c then none
      else words .bare (add word c false) rest
  | .single, word, c :: rest =>
      if c = '\'' then words .bare word rest else words .single (add word c true) rest
  | .double, word, c :: rest =>
      if c = '"' then words .bare word rest
      else if isExpanded c then none
      else words .double (add word c true) rest

def reservedWords : List String :=
  ["!", "case", "do", "done", "elif", "else", "esac", "fi", "for", "if", "in", "then", "until",
    "while", "\x7b", "\x7d"]

/-- A reserved word is one only without quotes. -/
def isReserved (word : Word) : Bool :=
  word.all (fun e => !e.2) && String.ofList word.text ∈ reservedWords

def isNamePart (e : Char × Bool) : Bool := !e.2 && (e.1.isAlphanum || e.1 = '_')

/-- A name and an equals sign, without quotes, at the beginning. -/
def isAssignment (word : Word) : Bool :=
  word.head?.any (fun e => isNamePart e && !e.1.isDigit) &&
    (word.dropWhile isNamePart).head? = some ('=', false)

/-- Words that are a simple command without assignments. -/
def simple : List Word → Option (List (List Char))
  | [] => none
  | first :: rest =>
      if isReserved first || isAssignment first then none
      else some ((first :: rest).map Word.text)

/-- The argument vector that `sh -c` executes for a text. -/
def invoked (text : List Char) : Option (List (List Char)) :=
  if text.head? = some '-' ∨ text.head? = some '+' then none
  else (words .bare none text).bind simple

-- =================================================================== quoted

variable {word : Word} {text rest : List Char}

/-- A quoted word is nothing but a word. -/
theorem isReserved_quoted (hne : text ≠ []) : isReserved (text.map (·, true)) = false := by
  cases text with
  | nil => exact absurd rfl hne
  | cons c text => rfl

theorem isAssignment_quoted : isAssignment (text.map (·, true)) = false := by
  cases text with
  | nil => rfl
  | cons c text => rfl

@[simp] theorem text_marked {quoted : Bool} : Word.text (text.map (·, quoted)) = text := by
  unfold Word.text
  rw [List.map_map]
  exact List.map_id _

/-- Between single quotes, characters mean themselves; a single quote is put between
double quotes. -/
theorem words_quoted :
    words .single (some word)
      (text.flatMap (fun c => if c = '\'' then "'\"'\"'".toList else [c]) ++ '\'' :: rest) =
      words .bare (some (word ++ text.map (·, true))) rest := by
  induction text generalizing word with
  | nil => simp [words]
  | cons c text ih =>
      rw [List.flatMap_cons, List.append_assoc]
      by_cases hc : c = '\''
      · rw [if_pos hc]
        have hstep : ∀ more, words .single (some word) ("'\"'\"'".toList ++ more) =
            words .single (some (word ++ [('\'', true)])) more := by
          intro more
          show words .single (some word) ('\'' :: '"' :: '\'' :: '"' :: '\'' :: more) = _
          simp [words, begun, add, isExpanded]
        rw [hstep, ih, hc]
        simp
      · rw [if_neg hc, List.singleton_append, words, if_neg hc]
        refine ih.trans ?_
        simp

/-- Without quotes, characters without a meaning of their own mean themselves. -/
theorem words_bare
    (h : ∀ c ∈ text, isSpecial c = false ∧ c ≠ ' ' ∧ c ≠ '\t' ∧ c ≠ '\'' ∧ c ≠ '"') :
    words .bare (some word) (text ++ rest) =
      words .bare (some (word ++ text.map (·, false))) rest := by
  induction text generalizing word with
  | nil => simp
  | cons c text ih =>
      obtain ⟨hspecial, hblank, htab, hsingle, hdouble⟩ := h c List.mem_cons_self
      have hspecial' : ¬ isSpecial c = true := by simp [hspecial]
      rw [List.cons_append, words, if_neg (not_or.mpr ⟨hblank, htab⟩), if_neg hsingle,
        if_neg hdouble, if_neg hspecial']
      refine (ih fun d hd => h d (List.mem_cons_of_mem _ hd)).trans ?_
      simp

end Shell
