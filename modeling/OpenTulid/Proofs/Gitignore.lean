/-
Where the reading of ignore files agrees with the documented format.

`globPieces_parts` carries the file: piece by piece, the text that the source
builds for a pattern is the text of the expressions of its parts. What the
source takes a pattern for (`Taken`) is then compared with what the format says
(`Pattern.Matches`). They agree exactly for the patterns of `Agrees`; for every
other pattern there is a path on which they differ.
-/
import Mathlib
import OpenTulid.Lib.Fallible
import OpenTulid.Lib.PosixPath
import OpenTulid.Proofs.Loading
import OpenTulid.Proofs.Walk
import OpenTulid.Source.Gitignore

namespace OpenTulid.Gitignore

open Glob
open Regex (ItemText AtomText seqAll)

variable {items : List Item} {parts : List Part} {text tail : List Char}
  {pieces : List (List Char)} {path : List (List Char)} {g : Pattern}

-- ================================================================ the pieces

theorem globPieces_skip {n : Nat} : globPieces n text = globPieces 0 (text.drop n) := by
  induction text generalizing n with
  | nil =>
      rw [List.drop_nil]
      cases n with
      | zero => rfl
      | succ n => rfl
  | cons c text ih =>
      cases n with
      | zero => rfl
      | succ n => exact ih

theorem atomText_any : AtomText ['[', '^', '/', ']'] (.set (.without '/')) := by
  have hranges : Regex.rangesOf ['/'] = some [('/', '/')] := by simp [Regex.rangesOf]
  exact Regex.atomText_negated hranges (by simp) (by simp) (by simp)

theorem itemText_dirs : ItemText 0 ['.', '*'] (.star (.set (.without '\n'))) := by
  have hdot : AtomText ['.'] (.set (.without '\n')) := by
    refine ⟨⟨by simp, by simp⟩, ⟨'.', _, rfl, by decide⟩, fun seqOf rest => ?_⟩
    rfl
  exact hdot.star

/-- The set between brackets is read as the set it stands for. -/
theorem itemText_set {content : List Char} {item : Item} (h : readSet content = some item)
    (hclose : ']' ∉ content) : ItemText 0 ('[' :: content ++ [']']) item.regex := by
  unfold readSet at h
  split at h
  next => cases h
  next hplain =>
    simp only [not_or] at hplain
    split at h
    next ranges hranges =>
      split at h
      next => cases h
      next =>
        cases h
        exact (Regex.atomText_set hranges hplain.1 hclose hplain.2.1 hplain.2.2.2.2).item
    next => cases h

/-- A set is read up to the bracket that closes it. -/
theorem readItems_set {content : List Char} (h : readItems (some content) text = some items) :
    ∃ more rest item others, text = more ++ ']' :: rest ∧ ']' ∉ more ∧
      readSet (content ++ more) = some item ∧ readItems none rest = some others ∧
      items = item :: others := by
  induction text generalizing content with
  | nil => cases h
  | cons c text ih =>
      unfold readItems at h
      split at h
      next hc =>
        obtain ⟨item, hitem, h⟩ := Option.bind_eq_some_iff.mp h
        obtain ⟨others, hothers, rfl⟩ := Option.map_eq_some_iff.mp h
        exact ⟨[], text, item, others, by rw [hc]; rfl, by simp, by rwa [List.append_nil], hothers, rfl⟩
      next hc =>
        obtain ⟨more, rest, item, others, rfl, hmore, hitem, hothers, rfl⟩ := ih h
        refine ⟨c :: more, rest, item, others, rfl, ?_, ?_, hothers, rfl⟩
        · rw [List.mem_cons, not_or]
          exact ⟨fun heq => hc heq.symm, hmore⟩
        · rw [List.append_assoc] at hitem
          exact hitem

/-- How one item of a name is read: the character it begins with and what stands
behind it, the item, and what is left. -/
inductive Reads : Char → List Char → Item → List Char → Prop where
  | star {rest : List Char} : rest.head? ≠ some '*' → Reads '*' rest .star rest
  | any {rest : List Char} : Reads '?' rest .any rest
  | set {content rest : List Char} {item : Item} :
      ']' ∉ content → readSet content = some item → Reads '[' (content ++ ']' :: rest) item rest
  | lit {c : Char} {rest : List Char} :
      c ≠ '*' → c ≠ '?' → c ≠ '[' → Reads c rest (.lit c) rest

/-- A name that is read is read item by item. -/
theorem readItems_cons {c : Char} (h : readItems none (c :: text) = some items) :
    ∃ item others rest, items = item :: others ∧ Reads c text item rest ∧
      readItems none rest = some others := by
  unfold readItems at h
  split at h
  next hc =>
    split at h
    next => cases h
    next hstar =>
      obtain ⟨others, hothers, rfl⟩ := Option.map_eq_some_iff.mp h
      rw [hc]
      exact ⟨.star, others, text, rfl, .star hstar, hothers⟩
  next hstar =>
    split at h
    next hc =>
      obtain ⟨others, hothers, rfl⟩ := Option.map_eq_some_iff.mp h
      rw [hc]
      exact ⟨.any, others, text, rfl, .any, hothers⟩
    next hany =>
      split at h
      next hc =>
        obtain ⟨more, rest, item, others, rfl, hmore, hitem, hothers, rfl⟩ := readItems_set h
        rw [hc]
        exact ⟨item, others, rest, rfl, .set hmore hitem, hothers⟩
      next hset =>
        split at h
        next => cases h
        next =>
          obtain ⟨others, hothers, rfl⟩ := Option.map_eq_some_iff.mp h
          exact ⟨.lit c, others, text, rfl, .lit hstar hany hset, hothers⟩

theorem Reads.length_le {c : Char} {item : Item} {rest : List Char} (h : Reads c text item rest) :
    rest.length ≤ text.length := by
  cases h with
  | star => exact Nat.le_refl _
  | any => exact Nat.le_refl _
  | set =>
      rw [List.length_append, List.length_cons]
      omega
  | lit => exact Nat.le_refl _

theorem idxOf?_append {a b : List Char} {c : Char} (h : c ∉ a) :
    (a ++ c :: b).idxOf? c = some a.length := by
  induction a with
  | nil => simp [List.idxOf?_cons]
  | cons d a ih =>
      rw [List.mem_cons, not_or] at h
      rw [List.cons_append, List.idxOf?_cons, ih h.2]
      simp [Ne.symm h.1]

/-- An item that is read has one piece, whatever stands behind it. -/
theorem Reads.piece {c : Char} {item : Item} {rest : List Char} (h : Reads c text item rest)
    (htail : tail.head? ≠ some '*') :
    ∃ piece, globPieces 0 (c :: text ++ tail) = piece :: globPieces 0 (rest ++ tail) ∧
      ItemText 0 piece item.regex := by
  cases h with
  | star hstar =>
      have hhead : (text ++ tail).head? ≠ some '*' := by
        cases text with
        | nil => exact htail
        | cons d text => exact hstar
      refine ⟨_, ?_, atomText_any.star⟩
      rw [List.cons_append, globPieces, if_pos rfl, if_neg hhead]
      rfl
  | any =>
      refine ⟨_, ?_, atomText_any.item⟩
      rw [List.cons_append, globPieces, if_neg (by decide), if_pos rfl]
  | @set content _ _ hcontent hitem =>
      refine ⟨_, ?_, itemText_set hitem hcontent⟩
      have hidx : (content ++ ']' :: rest ++ tail).idxOf? ']' = some content.length := by
        rw [List.append_assoc]
        exact idxOf?_append hcontent
      rw [List.cons_append, globPieces, if_neg (by decide), if_neg (by decide), if_pos rfl, hidx]
      dsimp only
      rw [globPieces_skip]
      simp
  | lit hstar hany hset =>
      refine ⟨_, ?_, (Regex.atomText_escape c).item⟩
      rw [List.cons_append, globPieces, if_neg hstar, if_neg hany, if_neg hset]

/-- The pieces of a name are the texts of its items. -/
theorem globPieces_items (h : readItems none text = some items) (htail : tail.head? ≠ some '*') :
    ∃ pieces, globPieces 0 (text ++ tail) = pieces ++ globPieces 0 tail ∧
      List.Forall₂ (ItemText 0) pieces (items.map Item.regex) := by
  induction hlen : text.length using Nat.strong_induction_on generalizing text items with
  | _ n ih =>
  subst hlen
  cases text with
  | nil =>
      cases h
      exact ⟨[], rfl, .nil⟩
  | cons c text =>
      obtain ⟨item, others, rest, rfl, hitem, hothers⟩ := readItems_cons h
      obtain ⟨piece, hpiece, htext⟩ := hitem.piece htail
      obtain ⟨pieces, heq, hall⟩ := ih rest.length (Nat.lt_succ_of_le hitem.length_le) hothers rfl
      refine ⟨piece :: pieces, ?_, .cons htext hall⟩
      rw [hpiece, heq]
      rfl

/-- The pieces of a part are the texts of its expressions. -/
theorem globPieces_part {part : Part} (h : readPart text = some part)
    (htail : tail.head? ≠ some '*') :
    ∃ pieces, globPieces 0 (text ++ tail) = pieces ++ globPieces 0 tail ∧
      List.Forall₂ (ItemText 0) pieces part.regexes := by
  unfold readPart at h
  split at h
  next hdirs =>
    cases h
    refine ⟨[['.', '*']], ?_, .cons itemText_dirs .nil⟩
    rw [hdirs]
    show globPieces 0 ('*' :: '*' :: tail) = _
    rw [globPieces, if_pos rfl, List.head?_cons, if_pos rfl, globPieces_skip]
    rfl
  next =>
    split at h
    next => cases h
    next =>
      obtain ⟨items, hitems, rfl⟩ := Option.map_eq_some_iff.mp h
      exact globPieces_items hitems htail

/-- The pieces of a pattern are the texts of the expressions of its parts. -/
theorem globPieces_parts {texts : List (List Char)}
    (h : List.Forall₂ (fun text part => readPart text = some part) texts parts) :
    List.Forall₂ (ItemText 0) (globPieces 0 (slashed texts)) (regexes parts) := by
  induction h with
  | nil => exact .nil
  | @cons text part texts parts hpart hparts ih =>
      by_cases hlast : texts = []
      · subst hlast
        cases hparts
        have htail : ([] : List Char).head? ≠ some '*' := by simp
        obtain ⟨pieces, heq, hall⟩ := globPieces_part hpart htail
        rw [List.append_nil, globPieces, List.append_nil] at heq
        rw [slashed_single, heq]
        exact hall
      · have hsome : parts ≠ [] := by
          rintro rfl
          exact hlast (List.forall₂_nil_right_iff.mp hparts)
        have htail : ('/' :: slashed texts).head? ≠ some '*' := by simp
        obtain ⟨pieces, heq, hall⟩ := globPieces_part hpart htail
        have hslash : globPieces 0 ('/' :: slashed texts) = ['/'] :: globPieces 0 (slashed texts) := by
          rw [globPieces, if_neg (by decide), if_neg (by decide), if_neg (by decide)]
          rfl
        rw [slashed_cons hlast, heq, hslash, regexes_cons hsome]
        exact List.rel_append hall (.cons (Regex.atomText_escape '/').item ih)

-- ===================================================== what a line is made of

theorem proper_set {content : List Char} {item : Item} (h : readSet content = some item)
    (hslash : '/' ∉ content) (hbreak : '\n' ∉ content) : item.Proper := by
  unfold readSet at h
  split at h
  next => cases h
  next hplain =>
    simp only [not_or] at hplain
    split at h
    next ranges hranges =>
      split at h
      next => cases h
      next hno =>
        cases h
        refine ⟨fun _ => by simpa [Item.takes] using hno, fun _ => ?_⟩
        cases content with
        | nil => exact absurd rfl hplain.1
        | cons c content =>
            rw [List.mem_cons, not_or] at hslash hbreak
            exact ⟨c, Regex.inRanges_head hranges, Ne.symm hslash.1, Ne.symm hbreak.1⟩
    next => cases h

theorem Reads.proper {c : Char} {item : Item} {rest : List Char} (h : Reads c text item rest)
    (hslash : '/' ∉ c :: text) (hbreak : '\n' ∉ c :: text) :
    item.Proper ∧ '/' ∉ rest ∧ '\n' ∉ rest := by
  rw [List.mem_cons, not_or] at hslash hbreak
  cases h with
  | star => exact ⟨⟨fun _ => rfl, fun hstar => absurd rfl hstar⟩, hslash.2, hbreak.2⟩
  | any =>
      refine ⟨⟨fun hany => absurd rfl hany, fun _ => ?_⟩, hslash.2, hbreak.2⟩
      exact ⟨'x', rfl, by decide, by decide⟩
  | set _ hitem =>
      simp only [List.mem_append, List.mem_cons, not_or] at hslash hbreak
      exact ⟨proper_set hitem hslash.2.1 hbreak.2.1, hslash.2.2.2, hbreak.2.2.2⟩
  | lit =>
      refine ⟨⟨fun _ => ?_, fun _ => ?_⟩, hslash.2, hbreak.2⟩
      · simpa [Item.takes] using hslash.1
      · exact ⟨c, by simp [Item.takes], Ne.symm hslash.1, Ne.symm hbreak.1⟩

theorem proper_items (h : readItems none text = some items) (hslash : '/' ∉ text)
    (hbreak : '\n' ∉ text) : ∀ item ∈ items, item.Proper := by
  induction hlen : text.length using Nat.strong_induction_on generalizing text items with
  | _ n ih =>
  subst hlen
  cases text with
  | nil =>
      cases h
      simp
  | cons c text =>
      obtain ⟨item, others, rest, rfl, hitem, hothers⟩ := readItems_cons h
      obtain ⟨hproper, hslash, hbreak⟩ := hitem.proper hslash hbreak
      intro i hi
      rcases List.mem_cons.mp hi with rfl | hi'
      · exact hproper
      · exact ih rest.length (Nat.lt_succ_of_le hitem.length_le) hothers hslash hbreak rfl i hi'

theorem proper_part {part : Part} (h : readPart text = some part) (hslash : '/' ∉ text)
    (hbreak : '\n' ∉ text) : part.Proper := by
  unfold readPart at h
  split at h
  next =>
    cases h
    exact .dirs
  next =>
    split at h
    next => cases h
    next hne =>
      obtain ⟨items, hitems, rfl⟩ := Option.map_eq_some_iff.mp h
      refine .name ?_ (proper_items hitems hslash hbreak)
      rintro rfl
      cases text with
      | nil => exact hne rfl
      | cons c text =>
          obtain ⟨item, others, rest, hcons, -⟩ := readItems_cons hitems
          cases hcons

-- ============================================================ one line read

/-- The expressions that a body is compiled to: those of its parts, at the
beginning of the path or anywhere. -/
def expressions (rooted : Bool) (parts : List Part) : List Regex :=
  if rooted then regexes parts else anywhere :: regexes parts

/-- `patternMatches` behind the signs of a line. -/
def matchBody (body : List Char) (rooted dirOnly : Bool) (path : List Char) (isDir : Bool) :
    Option Bool :=
  let slash := '/' ∈ body
  let body := body.rdropWhile (· = '/')
  let target := if slash then path else path.rtakeWhile (· ≠ '/')
  let regex :=
    if slash then globRegex body rooted
    else globRegex (if ['*', '*', '/'].isPrefixOf body then body.drop 3 else body) false
  regex.map fun regex =>
    if regex.fullmatch (if target = [] then ['/'] else target) then
      if dirOnly then isDir else true
    else false

/-- The reading of a line and the source take off the same signs. -/
theorem readPattern_body {line : List Char} (h : readPattern line = some g) :
    ∃ body, (∀ c ∈ body, c ∈ line) ∧
      List.Forall₂ (fun text part => readPart text = some part) (body.splitOn '/') g.parts ∧
      g.negated = decide (line.head? = some '!') ∧
      ∀ path isDir, patternMatches line path isDir = matchBody body g.rooted g.dirOnly path isDir := by
  unfold readPattern at h
  obtain ⟨parts, hparts, rfl⟩ := Option.map_eq_some_iff.mp h
  refine ⟨_, ?_, Fallible.mapM_eq_some.mp hparts, rfl, fun path isDir => ?_⟩
  · have hsub : ∀ {p : Prop} [Decidable p] {part whole : List Char}, part ⊆ whole →
        ∀ c ∈ (if p then part else whole), c ∈ whole := by
      intro p _ part whole hpart c hc
      split at hc
      next => exact hpart hc
      next => exact hc
    intro c hc
    exact hsub (List.tail_subset _) c
      (hsub (List.dropLast_subset _) c (hsub (List.tail_subset _) c hc))
  · unfold patternMatches matchBody
    simp only [decide_eq_true_eq]

theorem slashed_ne_nil (hpath : IsPath path) : slashed path ≠ [] := by
  intro hnil
  have hcount := count_slashed hpath.1 hpath.slashless
  rw [hnil] at hcount
  obtain ⟨name, rfl⟩ := List.length_eq_one_iff.mp hcount.symm
  rw [slashed_single] at hnil
  exact (hpath.2 name List.mem_cons_self).1 hnil

/-- The text of a path ends with no slash. -/
theorem rdropWhile_slashed (hpath : IsPath path) :
    (slashed path).rdropWhile (· = '/') = slashed path := by
  rw [List.rdropWhile_eq_self_iff]
  intro hne hlast
  have hslash : (slashed path).getLast hne = '/' := by simpa using hlast
  have hcut : slashed path = (slashed path).dropLast ++ '/' :: [] := by
    rw [← hslash]
    exact (List.dropLast_append_getLast hne).symm
  obtain ⟨dir, below, rfl, -, hbelow, -, hnil⟩ := slashed_cut hpath.slashless hcut
  exact slashed_ne_nil (hpath.rest hbelow) hnil.symm

/-- The last name of a path is what follows its last slash. -/
theorem rtakeWhile_slashed {dir : List (List Char)} {name : List Char} (hslash : '/' ∉ name) :
    (slashed (dir ++ [name])).rtakeWhile (· ≠ '/') = name := by
  have hall : ∀ c ∈ name.reverse, decide (c ≠ '/') = true := by
    intro c hc
    rw [decide_eq_true_eq]
    rintro rfl
    exact hslash (List.mem_reverse.mp hc)
  by_cases hdir : dir = []
  · rw [hdir, List.nil_append, slashed_single, List.rtakeWhile_eq_self_iff]
    intro c hc
    exact hall c (List.mem_reverse.mpr hc)
  · rw [slashed_append hdir (by simp), slashed_single, List.rtakeWhile, List.reverse_append,
      List.reverse_cons, List.append_assoc, List.takeWhile_append_of_pos hall]
    simp

/-- The text of a body compiles to the expressions of its parts. -/
theorem globRegex_parts {texts : List (List Char)} {rooted : Bool}
    (h : List.Forall₂ (fun text part => readPart text = some part) texts parts) :
    globRegex (slashed texts) rooted = some (seqAll (expressions rooted parts)) := by
  have hpieces := globPieces_parts h
  have hlen : ∀ {k ts rs}, List.Forall₂ (ItemText k) ts rs → ts.length ≤ ts.flatten.length := by
    intro k ts rs hts
    induction hts with
    | nil => exact Nat.le_refl _
    | cons hitem _ ih =>
        obtain ⟨c, rest, rfl, -⟩ := hitem.head
        rw [List.flatten_cons, List.length_append, List.length_cons, List.length_cons]
        omega
  unfold globRegex expressions
  dsimp only
  by_cases hroot : rooted = true
  · rw [if_pos hroot, if_pos hroot]
    exact Regex.compile_items hpieces (hlen hpieces)
  · rw [if_neg hroot, if_neg hroot]
    obtain ⟨group, hgroup, hlength, htext⟩ : ∃ group, ItemText 3 group anywhere ∧
        group.length = 8 ∧ "^(?:.*/)?".toList = '^' :: group :=
      ⟨_, .group (.cons itemText_dirs (.cons (Regex.atomText_escape '/').item .nil)), rfl, rfl⟩
    have hall : List.Forall₂ (ItemText 3) (group :: globPieces 0 (slashed texts))
        (anywhere :: regexes parts) :=
      .cons hgroup (hpieces.imp fun text r hitem => hitem.mono (Nat.zero_le 3))
    rw [htext, List.cons_append, ← List.flatten_cons]
    refine Regex.compile_items hall ?_
    have hrest := hlen hpieces
    rw [List.flatten_cons, List.length_cons, List.length_append, hlength]
    omega

-- ==================================================== what the source matches

/-- What the source takes a pattern for. Without a slash, it looks at the last
name only. -/
def Taken (g : Pattern) (path : List (List Char)) : Prop :=
  if 1 < g.parts.length then slashed path ∈ (seqAll (expressions g.rooted g.parts)).language
  else ∃ dir name, path = dir ++ [name] ∧
    name ∈ (seqAll (expressions false g.parts)).language

/-- What a line is made of. -/
theorem body_of_read {line : List Char} (hread : readPattern line = some g) (hbreak : '\n' ∉ line) :
    ∃ texts, IsPath texts ∧
      List.Forall₂ (fun text part => readPart text = some part) texts g.parts ∧
      (∀ part ∈ g.parts, part.Proper) ∧ g.parts ≠ [] ∧
      ∀ path isDir,
        patternMatches line path isDir = matchBody (slashed texts) g.rooted g.dirOnly path isDir := by
  obtain ⟨body, hsub, hparts, -, hmatch⟩ := readPattern_body hread
  have hbody : slashed (body.splitOn '/') = body := List.intercalate_splitOn '/'
  have hnames : ∀ text ∈ body.splitOn '/', '/' ∉ text ∧ '\n' ∉ text := by
    intro text htext
    refine ⟨PosixPath.not_mem_of_mem_splitOn htext, fun hin => hbreak (hsub _ ?_)⟩
    rw [← hbody]
    exact mem_slashed htext hin
  refine ⟨body.splitOn '/', ⟨List.splitOn_ne_nil _ _, ?_⟩, hparts, ?_, ?_, ?_⟩
  · intro text htext
    obtain ⟨part, -, hpart⟩ := Vault.exists_right_of_forall₂ hparts htext
    refine ⟨?_, hnames text htext⟩
    rintro rfl
    cases hpart
  · intro part hpart
    obtain ⟨text, htext, hpart⟩ := Vault.exists_left_of_forall₂ hparts hpart
    exact proper_part hpart (hnames text htext).1 (hnames text htext).2
  · intro hnil
    rw [hnil] at hparts
    exact List.splitOn_ne_nil _ _ (List.forall₂_nil_right_iff.mp hparts)
  · rw [hbody]
    exact hmatch

/-- A question is answered with a yes exactly if something holds. -/
def Says (answer : Option Bool) (p : Prop) : Prop := ∃ b, answer = some b ∧ (b = true ↔ p)

/-- Without a slash, a body begins with no directories. -/
theorem spread_notMem (h : '/' ∉ text) : ¬ ['*', '*', '/'].isPrefixOf text = true := by
  intro hbegin
  exact h ((List.isPrefixOf_iff_prefix.mp hbegin).subset (by simp))

theorem exists_last (hpath : IsPath path) : ∃ dir name, path = dir ++ [name] :=
  ⟨_, _, (List.dropLast_append_getLast hpath.1).symm⟩

/-- The source answers for every line that is read. -/
theorem patternMatches_taken {line : List Char} {isDir : Bool} (hread : readPattern line = some g)
    (hbreak : '\n' ∉ line) (hpath : IsPath path) :
    Says (patternMatches line (slashed path) isDir)
      ((g.dirOnly = true → isDir = true) ∧ Taken g path) := by
  obtain ⟨texts, htexts, hparts, -, -, hmatch⟩ := body_of_read hread hbreak
  have hslash : '/' ∈ slashed texts ↔ 1 < g.parts.length := by
    have hcount := count_slashed htexts.1 htexts.slashless
    rw [hparts.length_eq] at hcount
    rw [← List.count_pos_iff]
    omega
  obtain ⟨dir, name, rfl⟩ := exists_last hpath
  have hname := hpath.2 name (by simp)
  rw [hmatch]
  unfold matchBody
  dsimp only
  rw [rdropWhile_slashed htexts, rtakeWhile_slashed hname.2.1]
  unfold Taken
  by_cases hlen : 1 < g.parts.length
  · rw [if_pos (hslash.mpr hlen), if_pos (hslash.mpr hlen), if_pos hlen, globRegex_parts hparts,
      if_neg (slashed_ne_nil hpath)]
    refine ⟨_, rfl, ?_⟩
    rw [← Regex.fullmatch_iff]
    cases g.dirOnly <;> simp [and_comm]
  · have hno : ¬ '/' ∈ slashed texts := fun h => hlen (hslash.mp h)
    rw [if_neg hno, if_neg hno, if_neg (spread_notMem hno), if_neg hlen, globRegex_parts hparts,
      if_neg hname.1]
    refine ⟨_, rfl, ?_⟩
    have hlast : (∃ dir' name', dir ++ [name] = dir' ++ [name'] ∧
        name' ∈ (seqAll (expressions false g.parts)).language) ↔
        name ∈ (seqAll (expressions false g.parts)).language := by
      constructor
      · rintro ⟨dir', name', heq, hmem⟩
        obtain ⟨-, hsame⟩ := List.append_inj' heq rfl
        rw [(List.cons.inj hsame).1]
        exact hmem
      · intro hmem
        exact ⟨dir, name, rfl, hmem⟩
    rw [hlast, ← Regex.fullmatch_iff]
    cases g.dirOnly <;> simp [and_comm]

-- ================================================================ agreement

/-- The patterns that the source takes for what they stand for. -/
inductive Agrees (g : Pattern) : Prop where
  /-- one part, anywhere -/
  | name {part : Part} : g.rooted = false → g.parts = [part] → Agrees g
  /-- everything in the directory -/
  | inside : g.rooted = true → g.parts = [.dirs] → Agrees g
  /-- several parts behind a slash, directories at the end only -/
  | rooted : g.rooted = true → 1 < g.parts.length → .dirs ∉ g.parts.dropLast → Agrees g
  /-- names that are all names, and directories at the end -/
  | spread {names : List (List Item)} : g.rooted = false → names ≠ [] →
      g.parts = names.map .name ++ [.dirs] → (∀ items ∈ names, Universal items) → Agrees g

/-- One part takes the paths whose last name it stands for. -/
theorem taken_single {part : Part} (hone : g.parts = [part]) (hproper : part.Proper)
    (hpath : IsPath path) :
    Taken g path ↔ ∃ dir name, path = dir ++ [name] ∧ PathMatches [part] [name] := by
  have hlen : ¬ 1 < g.parts.length := by simp [hone]
  have hall : ∀ p ∈ [part], p.Proper := by simpa using hproper
  unfold Taken expressions
  rw [if_neg hlen, hone]
  have hname : ∀ dir name, path = dir ++ [name] →
      (name ∈ (seqAll (anywhere :: regexes [part])).language ↔ PathMatches [part] [name]) := by
    rintro dir name rfl
    have hlast : IsPath [name] := hpath.rest (by simp)
    have hanywhere : slashed [name] ∈ (seqAll (anywhere :: regexes [part])).language ↔ _ :=
      mem_anywhere hlast
    rw [← slashed_mem_iff (by simp) hall (by simp) hlast]
    rw [slashed_single] at hanywhere ⊢
    rw [hanywhere]
    constructor
    · rintro ⟨lead, below, heq, hbelow, hmem⟩
      cases lead with
      | nil =>
          rw [List.nil_append] at heq
          rw [← heq, slashed_single] at hmem
          exact hmem
      | cons first lead =>
          obtain ⟨-, hnil⟩ := List.cons.inj heq
          exact absurd (List.append_eq_nil_iff.mp hnil.symm).2 hbelow
    · intro hmem
      exact ⟨[], [name], rfl, by simp, by rwa [slashed_single]⟩
  constructor
  · rintro ⟨dir, name, heq, hmem⟩
    exact ⟨dir, name, heq, (hname dir name heq).mp hmem⟩
  · rintro ⟨dir, name, heq, hmem⟩
    exact ⟨dir, name, heq, (hname dir name heq).mpr hmem⟩

/-- Of several parts, the place in the pattern decides. -/
theorem agrees_iff_of_many (hne : g.parts ≠ []) (hproper : ∀ part ∈ g.parts, part.Proper)
    (hlen : 1 < g.parts.length) :
    (∀ path, IsPath path → (Taken g path ↔ PathMatches g.parts path)) ↔ Agrees g := by
  have htaken : ∀ path, Taken g path ↔
      slashed path ∈ (seqAll (expressions g.rooted g.parts)).language := by
    intro path
    unfold Taken
    rw [if_pos hlen]
  simp only [htaken]
  unfold expressions
  by_cases hroot : g.rooted = true
  · rw [if_pos hroot, rooted_iff hne hproper]
    constructor
    · intro hdirs
      exact .rooted hroot hlen hdirs
    · intro h
      cases h with
      | name hno _ => simp [hroot] at hno
      | inside _ hone => simp [hone] at hlen
      | rooted _ _ hdirs => exact hdirs
      | spread hno _ _ _ => simp [hroot] at hno
  · rw [if_neg hroot, spread_iff hne hproper]
    rw [Bool.not_eq_true] at hroot
    constructor
    · rintro ⟨names, hnames, hall⟩
      refine .spread hroot ?_ hnames hall
      rintro rfl
      simp [hnames] at hlen
    · intro h
      cases h with
      | name _ hone => simp [hone] at hlen
      | inside hyes _ => simp [hroot] at hyes
      | rooted hyes _ _ => simp [hroot] at hyes
      | spread _ _ hnames hall => exact ⟨_, hnames, hall⟩

/-- One part that is rooted: the source takes it for the last of the path. -/
theorem agrees_iff_of_rooted {part : Part} (hroot : g.rooted = true) (hone : g.parts = [part])
    (hpart : part.Proper) :
    (∀ path, IsPath path → (Taken g path ↔ PathMatches [part] path)) ↔ Agrees g := by
  cases hpart with
  | dirs =>
      refine iff_of_true (fun path hpath => ?_) (.inside hroot hone)
      obtain ⟨dir, name, heq⟩ := exists_last hpath
      exact iff_of_true ((taken_single hone .dirs hpath).mpr ⟨dir, name, heq, .inside⟩)
        (pathMatches_inside.mpr hpath.1)
  | @name items hitems hitem =>
      refine iff_of_false (fun hall => ?_) (fun h => ?_)
      · obtain ⟨name, hname, hmatch⟩ := exists_name hitems hitem
        -- a directory above is enough
        have hpath : IsPath [name, name] := ⟨by simp, by simpa using hname⟩
        have htaken := (taken_single hone (.name hitems hitem) hpath).mpr
          ⟨[name], name, rfl, .name hmatch .nil⟩
        obtain ⟨first, rest, heq, -, hrest⟩ := pathMatches_name.mp ((hall _ hpath).mp htaken)
        cases hrest
        cases heq
      · cases h with
        | name hno _ => simp [hroot] at hno
        | inside _ hdirs => simp [hone] at hdirs
        | rooted _ hlong _ => simp [hone] at hlong
        | spread hno _ _ _ => simp [hroot] at hno

/-- One part in any directory: the last of the path, for the source as well. -/
theorem taken_iff_of_one {part : Part} (hone : g.parts = [part]) (hpart : part.Proper)
    (hpath : IsPath path) : Taken g path ↔ PathMatches [.dirs, part] path := by
  rw [taken_single hone hpart hpath, pathMatches_dirs (by simp)]
  constructor
  · rintro ⟨dir, name, heq, hmatch⟩
    exact ⟨dir, [name], heq, hmatch⟩
  · rintro ⟨dir, below, rfl, hmatch⟩
    cases hpart with
    | dirs =>
        obtain ⟨dir', name, heq⟩ := exists_last hpath
        exact ⟨dir', name, heq, .inside⟩
    | name =>
        obtain ⟨name, rest, rfl, hname, hrest⟩ := pathMatches_name.mp hmatch
        cases hrest
        exact ⟨dir, name, rfl, .name hname .nil⟩

theorem agrees_iff (hne : g.parts ≠ []) (hproper : ∀ part ∈ g.parts, part.Proper) :
    (∀ path, IsPath path →
      (Taken g path ↔ PathMatches (if g.relative then g.parts else .dirs :: g.parts) path)) ↔
      Agrees g := by
  by_cases hlen : 1 < g.parts.length
  · have hrel : g.relative = true := by simp [Pattern.relative, hlen]
    rw [if_pos hrel]
    exact agrees_iff_of_many hne hproper hlen
  · obtain ⟨part, hone⟩ : ∃ part, g.parts = [part] := by
      have hpos := List.length_pos_iff.mpr hne
      exact List.length_eq_one_iff.mp (by omega)
    have hpart : part.Proper := hproper part (by simp [hone])
    by_cases hroot : g.rooted = true
    · have hrel : g.relative = true := by simp [Pattern.relative, hroot]
      rw [if_pos hrel, hone]
      exact agrees_iff_of_rooted hroot hone hpart
    · rw [Bool.not_eq_true] at hroot
      have hrel : ¬ g.relative = true := by simp [Pattern.relative, hroot, hone]
      rw [if_neg hrel, hone]
      exact iff_of_true (fun path hpath => taken_iff_of_one hone hpart hpath) (.name hroot hone)

theorem says_matches {line : List Char} {isDir : Bool} (hread : readPattern line = some g)
    (hbreak : '\n' ∉ line) (hagrees : Agrees g) (hpath : IsPath path) :
    Says (patternMatches line (slashed path) isDir) (g.Matches path isDir) := by
  obtain ⟨-, -, -, hproper, hne, -⟩ := body_of_read hread hbreak
  obtain ⟨b, hb, htaken⟩ := patternMatches_taken hread hbreak hpath
  refine ⟨b, hb, ?_⟩
  rw [htaken, (agrees_iff hne hproper).mpr hagrees path hpath]
  rfl

/-- The source agrees with the format on every path exactly for these patterns,
and answers for all of them. -/
theorem patternMatches_agrees_iff {line : List Char} (hread : readPattern line = some g)
    (hbreak : '\n' ∉ line) :
    (∀ path isDir, IsPath path →
      Says (patternMatches line (slashed path) isDir) (g.Matches path isDir)) ↔ Agrees g := by
  obtain ⟨-, -, -, hproper, hne, -⟩ := body_of_read hread hbreak
  constructor
  · intro hall
    rw [← agrees_iff hne hproper]
    intro path hpath
    obtain ⟨b, hb, hmatch⟩ := hall path true hpath
    obtain ⟨b', hb', htaken⟩ := patternMatches_taken hread hbreak hpath
    rw [hb] at hb'
    cases hb'
    rw [htaken] at hmatch
    simpa [Pattern.Matches] using hmatch
  · intro hagrees path isDir hpath
    exact says_matches hread hbreak hagrees hpath

/-- A directory behind a slash, and everything inside. -/
theorem docs_pattern_agrees :
    Says (patternMatches "/docs/**".toList (slashed ["docs".toList, "a.md".toList]) false)
      (Pattern.Matches ⟨false, false, true,
        [.name [.lit 'd', .lit 'o', .lit 'c', .lit 's'], .dirs]⟩
        ["docs".toList, "a.md".toList] false) :=
  (patternMatches_agrees_iff (by decide) (by decide)).mpr
    (.rooted rfl (by decide) (by decide)) _ _ ⟨by simp, by simp [IsName]⟩

-- ============================================================== whole layers

/-- What a text of slashes alone asks of the names of a pattern. -/
theorem names_of_slashes (hproper : ∀ part ∈ parts, part.Proper) (htext : ∀ c ∈ text, c = '/')
    (h : text ∈ (seqAll (regexes parts)).language) (hitems : .name items ∈ parts) :
    NameMatches items [] := by
  have hempty : ∀ {part : Part} {a : List Char}, part.Proper → (∀ c ∈ a, c = '/') →
      a ∈ (seqAll part.regexes).language → part = .name items → NameMatches items [] := by
    rintro part a hpart ha hmem rfl
    cases hpart with
    | name _ hitem =>
        obtain ⟨hslash, hmatch⟩ := (mem_items hitem).mp hmem
        have hnil : a = [] := by
          rw [List.eq_nil_iff_forall_not_mem]
          intro c hc
          rw [ha c hc] at hc
          exact hslash hc
        rwa [hnil] at hmatch
  induction parts generalizing text with
  | nil => cases hitems
  | cons part parts ih =>
      have hpart := hproper part List.mem_cons_self
      by_cases hlast : parts = []
      · rw [hlast] at h hitems
        exact hempty hpart htext h (List.mem_singleton.mp hitems).symm
      · rw [regexes_cons hlast] at h
        obtain ⟨a, ha, b, hb, rfl⟩ := mem_slash.mp h
        rcases List.mem_cons.mp hitems with hfirst | hlater
        · exact hempty hpart (fun c hc => htext c (by simp [hc])) ha hfirst.symm
        · exact ih (fun p hp => hproper p (List.mem_cons_of_mem _ hp))
            (fun c hc => htext c (by simp [hc])) hb hlater

/-- A pattern with a name that is more than stars. -/
def Named (g : Pattern) : Prop := ∃ items, .name items ∈ g.parts ∧ ¬ NameMatches items []

/-- Such a pattern says nothing about the directory of its own file. -/
theorem patternMatches_own {line : List Char} (isDir : Bool) (hread : readPattern line = some g)
    (hbreak : '\n' ∉ line) (hnamed : Named g) : patternMatches line [] isDir = some false := by
  obtain ⟨texts, htexts, hparts, hproper, -, hmatch⟩ := body_of_read hread hbreak
  obtain ⟨items, hitems, hmore⟩ := hnamed
  have hnone : ∀ rooted, (seqAll (expressions rooted g.parts)).fullmatch ['/'] = false := by
    intro rooted
    rw [← Bool.not_eq_true, Regex.fullmatch_iff]
    intro hmem
    unfold expressions at hmem
    split at hmem
    next => exact hmore (names_of_slashes hproper (by simp) hmem hitems)
    next =>
      obtain ⟨a, -, b, hb, hab⟩ := Regex.mem_seqAll_cons.mp hmem
      refine hmore (names_of_slashes hproper (fun c hc => ?_) hb hitems)
      have hin : c ∈ ['/'] := by
        rw [← hab]
        exact List.mem_append_right _ hc
      exact List.mem_singleton.mp hin
  rw [hmatch]
  unfold matchBody
  dsimp only
  rw [rdropWhile_slashed htexts, List.rtakeWhile_nil, ite_self, if_pos rfl]
  by_cases hslash : '/' ∈ slashed texts
  · rw [if_pos hslash, globRegex_parts hparts, Option.map_some, hnone]
    rfl
  · rw [if_neg hslash, if_neg (spread_notMem hslash), globRegex_parts hparts, Option.map_some, hnone]
    rfl

/-- An ignore file whose lines are patterns that the source agrees with. One
that is not at the top has names in its patterns. -/
structure ReadsAs (file : IgnoreFile) (layer : Layer) : Prop where
  base : layer.base = file.baseDir.map String.toList
  patterns : List.Forall₂
    (fun line p => readPattern line.toList = some p ∧ Agrees p)
    (patternsOf file.content) layer.patterns
  named : file.baseDir ≠ [] → ∀ p ∈ layer.patterns, Named p

/-- The pieces of a text hold nothing that it is split at. -/
theorem not_of_mem_splitOnP {p : Char → Bool} {piece : List Char} (h : piece ∈ text.splitOnP p) :
    ∀ c ∈ piece, p c = false := by
  induction text generalizing piece with
  | nil =>
      rw [List.splitOnP_nil, List.mem_singleton] at h
      simp [h]
  | cons first rest ih =>
      rw [List.splitOnP_cons_eq_if_modifyHead] at h
      split at h
      next =>
        rcases List.mem_cons.mp h with hnil | hlater
        · simp [hnil]
        · exact ih hlater
      next hfirst =>
        obtain ⟨head, pieces, hpieces⟩ :=
          List.exists_cons_of_ne_nil (List.splitOnP_ne_nil p rest)
        rw [hpieces, List.modifyHead_cons] at h
        rw [hpieces] at ih
        rcases List.mem_cons.mp h with hhead | hlater
        · intro c hc
          rw [hhead] at hc
          rcases List.mem_cons.mp hc with hc' | hc'
          · rw [hc']
            simpa using hfirst
          · exact ih List.mem_cons_self c hc'
        · exact ih (List.mem_cons_of_mem _ hlater)

/-- The patterns of a file are lines. -/
theorem break_notMem_patternsOf {content line : String} (h : line ∈ patternsOf content) :
    '\n' ∉ line.toList := by
  unfold patternsOf at h
  obtain ⟨text, htext, rfl⟩ := List.mem_map.mp (List.mem_filter.mp h).1
  intro hin
  unfold Standard.strip at hin
  rw [String.toList_ofList] at hin
  have hraw : '\n' ∈ text.toList :=
    (List.dropWhile_sublist _).subset ((List.rdropWhile_prefix _ _).subset hin)
  unfold splitLines at htext
  dsimp only at htext
  obtain ⟨piece, hpiece, rfl⟩ := List.mem_map.mp htext
  rw [String.toList_ofList] at hraw
  have hwhole : piece ∈ (splitLines.joined content.toList).splitOnP splitLines.ended := by
    split at hpiece
    next => exact List.dropLast_subset _ hpiece
    next => exact hpiece
  have hended : splitLines.ended '\n' = false := not_of_mem_splitOnP hwhole _ hraw
  exact absurd hended (by decide)

/-- Below the directory of a layer, the source answers as the patterns do that
are asked there. -/
theorem foldlM_asked {lines : List String} {patterns : List Pattern} {rest : RelPath}
    {isDir matched : Bool}
    (hall : List.Forall₂ (fun line p => readPattern line.toList = some p ∧ Agrees p) lines patterns)
    (hlines : ∀ line ∈ lines, '\n' ∉ line.toList) (hrest : IsPath (rest.map String.toList)) :
    lines.foldlM
        (fun matched pattern => (patternMatches pattern.toList (pathText rest) isDir).map
          fun found => if found then !negated pattern else matched)
        matched =
      some ((patterns.map fun p => (p, rest.map String.toList)).foldl (verdictStep isDir) matched) := by
  induction hall generalizing matched with
  | nil => rfl
  | @cons line p lines patterns hline _ ih =>
      obtain ⟨b, hb, hmatch⟩ :=
        says_matches hline.1 (hlines line List.mem_cons_self) hline.2 hrest
      obtain ⟨-, -, -, hneg, -⟩ := readPattern_body hline.1
      have hstep : (if b = true then !negated line else matched) =
          verdictStep isDir matched (p, rest.map String.toList) := by
        unfold verdictStep negated
        rw [hneg]
        by_cases hb' : b = true
        · rw [if_pos hb', if_pos (hmatch.mp hb')]
        · rw [if_neg hb', if_neg fun hm => hb' (hmatch.mpr hm)]
      rw [List.foldlM_cons, pathText, hb, List.map_cons, List.foldl_cons, ← hstep]
      exact ih fun l hl => hlines l (List.mem_cons_of_mem _ hl)

/-- The directory of a layer itself is taken by none of its patterns. -/
theorem foldlM_own {lines : List String} {patterns : List Pattern} {isDir matched : Bool}
    (hall : List.Forall₂ (fun line p => readPattern line.toList = some p ∧ Agrees p) lines patterns)
    (hlines : ∀ line ∈ lines, '\n' ∉ line.toList) (hnamed : ∀ p ∈ patterns, Named p) :
    lines.foldlM
        (fun matched pattern => (patternMatches pattern.toList (pathText []) isDir).map
          fun found => if found then !negated pattern else matched)
        matched = some matched := by
  have hempty : pathText [] = [] := rfl
  rw [hempty]
  induction hall with
  | nil => rfl
  | @cons line p lines patterns hline _ ih =>
      have hno := patternMatches_own isDir hline.1 (hlines line List.mem_cons_self)
        (hnamed p List.mem_cons_self)
      rw [List.foldlM_cons, hno]
      exact ih (fun l hl => hlines l (List.mem_cons_of_mem _ hl))
        fun q hq => hnamed q (List.mem_cons_of_mem _ hq)

/-- One layer, pattern by pattern. -/
theorem layerVerdict_asked {file : IgnoreFile} {layer : Layer} {relative : RelPath}
    {isDir matched : Bool} (h : ReadsAs file layer) (hpath : IsPath (relative.map String.toList)) :
    layerVerdict relative isDir matched file =
      some ((asked [layer] (relative.map String.toList)).foldl (verdictStep isDir) matched) := by
  have hbase : layer.base.isPrefixOf (relative.map String.toList) = true ↔
      file.baseDir.isPrefixOf relative = true := by
    rw [h.base, List.isPrefixOf_iff_prefix, List.isPrefixOf_iff_prefix]
    exact List.prefix_map_iff_of_injective fun a b hab => String.toList_inj.mp hab
  have hlength : layer.base.length = file.baseDir.length := by rw [h.base, List.length_map]
  have hasked : asked [layer] (relative.map String.toList) =
      if layer.base.isPrefixOf (relative.map String.toList) ∧
          layer.base.length < (relative.map String.toList).length then
        layer.patterns.map fun p => (p, (relative.map String.toList).drop layer.base.length)
      else [] := List.flatMap_singleton _ _
  unfold layerVerdict
  rw [hasked]
  by_cases hin : file.baseDir.isPrefixOf relative = true
  · rw [if_pos hin]
    by_cases hlt : file.baseDir.length < relative.length
    · -- a path below the directory: each pattern is asked about the rest of it
      rw [if_pos ⟨hbase.mpr hin, by rwa [hlength, List.length_map]⟩, hlength, ← List.map_drop]
      have hrest : IsPath ((relative.drop file.baseDir.length).map String.toList) := by
        refine ⟨by simpa using hlt, fun name hname => hpath.2 name ?_⟩
        rw [List.map_drop] at hname
        exact List.mem_of_mem_drop hname
      exact foldlM_asked h.patterns (fun line hline => break_notMem_patternsOf hline) hrest
    · -- the directory itself
      have hsame : relative.length ≤ file.baseDir.length := Nat.not_lt.mp hlt
      have hown : relative.drop file.baseDir.length = [] := List.drop_eq_nil_of_le hsame
      have hnested : file.baseDir ≠ [] := by
        intro hnil
        rw [hnil, List.length_nil, Nat.le_zero, List.length_eq_zero_iff] at hsame
        exact hpath.1 (by rw [hsame]; rfl)
      have hskip : ¬ (layer.base.isPrefixOf (relative.map String.toList) = true ∧
          layer.base.length < (relative.map String.toList).length) := by
        rintro ⟨-, hlong⟩
        rw [hlength, List.length_map] at hlong
        exact hlt hlong
      rw [if_neg hskip, hown]
      exact foldlM_own h.patterns (fun line hline => break_notMem_patternsOf hline)
        (h.named hnested)
  · rw [if_neg hin, if_neg fun hboth => hin (hbase.mp hboth.1)]
    rfl

theorem layerMatch_verdict {files : List IgnoreFile} {layers : List Layer} {relative : RelPath}
    {isDir : Bool} (h : List.Forall₂ ReadsAs files layers)
    (hpath : IsPath (relative.map String.toList)) :
    layerMatch files relative isDir = some (verdict layers (relative.map String.toList) isDir) := by
  have hrun : ∀ matched, files.foldlM (layerVerdict relative isDir) matched =
      some ((asked layers (relative.map String.toList)).foldl (verdictStep isDir) matched) := by
    induction h with
    | nil =>
        intro matched
        rfl
    | @cons file layer files layers hfile _ ih =>
        intro matched
        have hcut : asked (layer :: layers) (relative.map String.toList) =
            asked [layer] (relative.map String.toList) ++
              asked layers (relative.map String.toList) := by
          unfold asked
          simp
        rw [List.foldlM_cons, layerVerdict_asked hfile hpath, hcut, List.foldl_append]
        exact ih _
  exact hrun false

theorem anyM_some {α : Type} {f : α → Option Bool} {p : α → Bool} {l : List α}
    (h : ∀ a ∈ l, f a = some (p a)) : l.anyM f = some (l.any p) := by
  induction l with
  | nil => rfl
  | cons a l ih =>
      rw [List.anyM_cons, h a List.mem_cons_self, ih fun b hb => h b (List.mem_cons_of_mem _ hb),
        List.any_cons]
      cases p a <;> rfl

-- ==================================================== the rule of the selection

/-- What the reading of ignore files takes for the answer about one pattern. -/
def answer (pattern : String) (relative : RelPath) (isDir : Bool) : Bool :=
  (patternMatches pattern.toList (pathText relative) isDir).getD false

theorem foldl_of_foldlM {α β : Type} {f : β → α → Option β} {p : β → α → β} {l : List α} {b c : β}
    (hstep : ∀ b a c, f b a = some c → p b a = c) (h : l.foldlM f b = some c) :
    l.foldl p b = c := by
  induction l generalizing b with
  | nil =>
      cases h
      rfl
  | cons a l ih =>
      rw [List.foldlM_cons] at h
      obtain ⟨next, hnext, hrest⟩ := Option.bind_eq_some_iff.mp h
      rw [List.foldl_cons, hstep b a next hnext]
      exact ih hrest

theorem any_of_anyM {α : Type} {f : α → Option Bool} {p : α → Bool} {l : List α} {b : Bool}
    (hstep : ∀ a c, f a = some c → p a = c) (h : l.anyM f = some b) : l.any p = b := by
  induction l with
  | nil =>
      cases h
      rfl
  | cons a l ih =>
      rw [List.anyM_cons] at h
      obtain ⟨first, hfirst, hrest⟩ := Option.bind_eq_some_iff.mp h
      rw [List.any_cons, hstep a first hfirst]
      cases first with
      | true =>
          cases hrest
          rfl
      | false =>
          rw [Bool.false_or]
          exact ih hrest

theorem layerMatch_answer {files : List IgnoreFile} {relative : RelPath} {isDir b : Bool}
    (h : layerMatch files relative isDir = some b) :
    OpenTulid.layerMatch answer files relative isDir = b := by
  refine foldl_of_foldlM (fun matched file next hfile => ?_) h
  unfold layerVerdict at hfile
  unfold OpenTulid.layerVerdict
  split at hfile
  next hin =>
    rw [if_pos hin]
    refine foldl_of_foldlM (fun matched pattern next hline => ?_) hfile
    obtain ⟨found, hfound, hnext⟩ := Option.map_eq_some_iff.mp hline
    unfold answer
    rw [hfound]
    exact hnext
  next hin =>
    cases hfile
    rw [if_neg hin]

/-- An answer of the source is the answer of the rule that the selections and the
walks are modelled with. -/
theorem gitignoreMatches_answer {files : List IgnoreFile} {relative : RelPath} {isDir b : Bool}
    (h : gitignoreMatches files relative isDir = some b) :
    OpenTulid.gitignoreMatches answer files relative isDir = b := by
  unfold gitignoreMatches at h
  unfold OpenTulid.gitignoreMatches
  by_cases hnil : relative = []
  · rw [if_pos hnil] at h ⊢
    cases h
    rfl
  · rw [if_neg hnil] at h ⊢
    obtain ⟨inside, hinside, hrest⟩ := Option.bind_eq_some_iff.mp h
    rw [any_of_anyM (fun d c hd => layerMatch_answer hd) hinside]
    cases inside with
    | true =>
        cases hrest
        rfl
    | false => exact layerMatch_answer hrest

-- =========================================================== ignored paths

theorem isPath_of_mem_ancestors {d relative : RelPath} (hd : d ∈ ancestors relative)
    (hpath : IsPath (relative.map String.toList)) : IsPath (d.map String.toList) := by
  obtain ⟨hlead, hne, -⟩ := mem_ancestors.mp hd
  refine ⟨by simpa using hne, fun name hname => hpath.2 name ?_⟩
  exact (hlead.map String.toList).subset hname

/-- The directories that a path can be ignored below are those that the source
asks about: every one above the path but for the root. -/
theorem ignored_iff_ancestors {layers : List Layer} {relative : RelPath} {isDir : Bool} :
    Ignored layers (relative.map String.toList) isDir ↔
      verdict layers (relative.map String.toList) isDir = true ∨
        (ancestors relative).any (fun d => verdict layers (d.map String.toList) true) = true := by
  rw [ignored_iff, List.any_eq_true]
  refine or_congr_right ?_
  constructor
  · rintro ⟨dir, below, heq, hbelow, hdir⟩
    obtain ⟨upper, lower, rfl, rfl, rfl⟩ := List.map_eq_append_iff.mp heq
    refine ⟨upper, mem_ancestors.mpr ⟨List.prefix_append _ _, ?_, ?_⟩, hdir⟩
    · intro hroot
      subst hroot
      rw [List.map_nil, verdict_root] at hdir
      cases hdir
    · intro hall
      exact hbelow (by simpa using hall)
  · intro h
    obtain ⟨d, hd, hdir⟩ := h
    obtain ⟨⟨below, rfl⟩, -, hother⟩ := mem_ancestors.mp hd
    refine ⟨d.map String.toList, below.map String.toList, by simp, ?_, hdir⟩
    intro hnil
    rw [List.map_eq_nil_iff] at hnil
    exact hother (by rw [hnil, List.append_nil])

/-- For ignore files whose patterns the source agrees with, the source answers
for every path, and ignores exactly what the format ignores. -/
theorem gitignoreMatches_ignored {files : List IgnoreFile} {layers : List Layer}
    {relative : RelPath} {isDir : Bool} (hread : List.Forall₂ ReadsAs files layers)
    (hpath : IsPath (relative.map String.toList)) :
    Says (gitignoreMatches files relative isDir)
      (Ignored layers (relative.map String.toList) isDir) := by
  have hne : relative ≠ [] := by
    intro hroot
    subst hroot
    exact hpath.1 rfl
  have habove : ∀ d ∈ ancestors relative,
      layerMatch files d true = some (verdict layers (d.map String.toList) true) :=
    fun d hd => layerMatch_verdict hread (isPath_of_mem_ancestors hd hpath)
  unfold gitignoreMatches
  rw [if_neg hne, anyM_some habove, layerMatch_verdict hread hpath, ignored_iff_ancestors]
  by_cases hup : (ancestors relative).any
      (fun d => verdict layers (d.map String.toList) true) = true
  · exact ⟨true, by rw [hup]; rfl, by simp [hup]⟩
  · refine ⟨verdict layers (relative.map String.toList) isDir, ?_, by simp [hup]⟩
    rw [Bool.not_eq_true] at hup
    rw [hup]
    rfl

/-- Logs are ignored but for one, and so is one name of a directory. -/
theorem docs_draft_ignored :
    Says (gitignoreMatches [⟨[], "*.log\n!keep.log"⟩, ⟨["docs"], "draft"⟩] ["docs", "draft"] false)
      (Ignored
        [⟨[], [⟨false, false, false, [.name [.star, .lit '.', .lit 'l', .lit 'o', .lit 'g']]⟩,
            ⟨true, false, false, [.name ("keep.log".toList.map .lit)]⟩]⟩,
          ⟨["docs".toList], [⟨false, false, false, [.name ("draft".toList.map .lit)]⟩]⟩]
        (["docs", "draft"].map String.toList) false) := by
  have hlogs : patternsOf "*.log\n!keep.log" = ["*.log", "!keep.log"] := by decide
  have hdraft : patternsOf "draft" = ["draft"] := by decide
  refine gitignoreMatches_ignored (.cons ⟨rfl, ?_, by simp⟩ (.cons ⟨rfl, ?_, ?_⟩ .nil))
    ⟨by simp, by simp [IsName]⟩
  · rw [hlogs]
    exact .cons ⟨by decide, .name rfl rfl⟩ (.cons ⟨by decide, .name rfl rfl⟩ .nil)
  · rw [hdraft]
    exact .cons ⟨by decide, .name rfl rfl⟩ .nil
  · intro _ p hp
    rw [List.mem_singleton.mp hp]
    refine ⟨_, List.mem_singleton.mpr rfl, ?_⟩
    intro h
    cases h

end OpenTulid.Gitignore
