/-
How the sections of a packet are fitted to its budget.

Fitting replaces the texts of at most two sections, and everything else of
the sections stays in the packet (`fit_titles`, `mem_fitted`,
`path_infix_fitted`). It fails exactly when the packet is too long with the
repository facts cut to their minimum, both with its excerpts and with the
marker that stands in their place (`not_fits_iff`).
-/
import OpenTulid.Proofs.PromptTexts
import OpenTulid.Lib.Fallible

namespace OpenTulid.Frozen.Prompt

open Fallible
open Standard (isSpace)

-- ============================================================== sections

theorem sectionOf_cons (id : String) (s : PromptSection) (rest : List PromptSection) :
    sectionOf id (s :: rest) = if s.id = id then some s else sectionOf id rest := by
  unfold sectionOf
  rw [List.find?_cons]
  split
  next h => rw [if_pos (of_decide_eq_true h)]
  next h => rw [if_neg (of_decide_eq_false h)]

/-- What the packet has of a section. -/
def PromptSection.part (s : PromptSection) : Headed.Part Char := (s.heading.toList, s.text)

theorem renderSections_eq_map (sections : List PromptSection) :
    renderSections sections = Headed.render "## ".toList '\n' (sections.map (·.part)) := rfl

theorem renderRest_map_cons (s : PromptSection) (sections : List PromptSection) :
    Headed.renderRest "## ".toList '\n' ((s :: sections).map (·.part)) =
      ['\n', '\n'] ++ renderSections (s :: sections) := rfl

theorem length_renderRest_revise {id : String} (text : Text) {sections : List PromptSection}
    {item : PromptSection} (h : sectionOf id sections = some item) :
    (Headed.renderRest "## ".toList '\n' ((revise id text sections).map (·.part))).length +
        item.text.length =
      (Headed.renderRest "## ".toList '\n' (sections.map (·.part))).length + text.length := by
  induction sections with
  | nil => cases h
  | cons s sections ih =>
      rw [sectionOf_cons] at h
      rw [revise]
      split at h
      next hid =>
        obtain ⟨⟩ := h
        rw [if_pos hid]
        simp only [List.map_cons, Headed.renderRest, List.length_append, PromptSection.part]
        omega
      next hid =>
        rw [if_neg hid]
        have hrest := ih h
        simp only [List.map_cons, Headed.renderRest, List.length_append] at hrest ⊢
        omega

theorem revise_ne_nil {id : String} {text : Text} {sections : List PromptSection}
    (h : sections ≠ []) : revise id text sections ≠ [] := by
  cases sections with
  | nil => exact absurd rfl h
  | cons s sections =>
      rw [revise]
      split
      · exact List.cons_ne_nil _ _
      · exact List.cons_ne_nil _ _

theorem length_renderRest {sections : List PromptSection} (h : sections ≠ []) :
    (Headed.renderRest "## ".toList '\n' (sections.map (·.part))).length =
      (renderSections sections).length + 2 := by
  obtain ⟨s, sections, rfl⟩ := List.exists_cons_of_ne_nil h
  rw [renderRest_map_cons, List.length_append]
  exact Nat.add_comm _ _

/-- The packet gets longer or shorter by as much as the section does. -/
theorem length_revise {id : String} (text : Text) {sections : List PromptSection}
    {item : PromptSection} (h : sectionOf id sections = some item) :
    (renderSections (revise id text sections)).length + item.text.length =
      (renderSections sections).length + text.length := by
  have hne : sections ≠ [] := by
    rintro rfl
    cases h
  have hlength := length_renderRest_revise text h
  rw [length_renderRest (revise_ne_nil hne), length_renderRest hne] at hlength
  omega

theorem sectionOf_revise_self {id : String} {text : Text} {sections : List PromptSection}
    {item : PromptSection} (h : sectionOf id sections = some item) :
    sectionOf id (revise id text sections) =
      some { item with text := text, truncated := true } := by
  induction sections with
  | nil => cases h
  | cons s sections ih =>
      rw [sectionOf_cons] at h
      rw [revise]
      split at h
      next hid =>
        obtain ⟨⟩ := h
        rw [if_pos hid, sectionOf_cons, if_pos hid]
      next hid => rw [if_neg hid, sectionOf_cons, if_neg hid, ih h]

theorem sectionOf_revise_of_ne {id other : String} {text : Text}
    {sections : List PromptSection} (h : other ≠ id) :
    sectionOf other (revise id text sections) = sectionOf other sections := by
  induction sections with
  | nil => rfl
  | cons s sections ih =>
      rw [revise]
      split
      next hid =>
        have hother : s.id ≠ other := fun heq => h (heq.symm.trans hid)
        rw [sectionOf_cons, sectionOf_cons, if_neg hother, if_neg hother]
      next => rw [sectionOf_cons, sectionOf_cons, ih]

/-- A section keeps its place and its title. -/
theorem revise_titles (id : String) (text : Text) (sections : List PromptSection) :
    (revise id text sections).map (fun s => (s.id, s.heading)) =
      sections.map fun s => (s.id, s.heading) := by
  induction sections with
  | nil => rfl
  | cons s sections ih =>
      rw [revise]
      split
      · rfl
      · rw [List.map_cons, List.map_cons, ih]

/-- What is no text of the replaced section stays. -/
theorem mem_revise_of_ne {id : String} {text : Text} {sections : List PromptSection}
    {s : PromptSection} (hs : s ∈ sections) (hid : s.id ≠ id) : s ∈ revise id text sections := by
  induction sections with
  | nil => cases hs
  | cons first sections ih =>
      rw [revise]
      rcases List.mem_cons.mp hs with rfl | hs
      · rw [if_neg hid]
        exact List.mem_cons_self
      · split
        · exact List.mem_cons_of_mem _ hs
        · exact List.mem_cons_of_mem _ (ih hs)

/-- A section's text is a part of the packet. -/
theorem text_infix_render {s : PromptSection} {sections : List PromptSection}
    (h : s ∈ sections) : s.text <:+: renderSections sections :=
  (List.suffix_append _ _).isInfix.trans
    (Headed.infix_render (List.mem_map_of_mem (f := (·.part)) h))

-- =============================================================== fitting

theorem length_rstrip_le (text : Text) : (rstrip text).length ≤ text.length :=
  (List.rdropWhile_prefix isSpace text).length_le

/-- A cut text is as short as it has to be. -/
theorem length_truncate_le {text : Text} {limit : Nat} (h : truncationMarker.length < limit) :
    (truncate text limit).length ≤ limit := by
  unfold truncate
  rw [if_neg (by omega), if_neg (by omega), List.length_append]
  have hstrip := length_rstrip_le (text.take (limit - truncationMarker.length))
  rw [List.length_take] at hstrip
  omega

theorem length_truncationMarker : truncationMarker.length = 29 := by decide

/-- The sections with the repository facts cut to their minimum. -/
def withLeastFacts (sections : List PromptSection) : List PromptSection :=
  match sectionOf "repository_facts" sections with
  | none => sections
  | some item =>
      if 80 < item.text.length then
        revise "repository_facts" (truncate item.text 80) sections
      else sections

/-- The sections after the first stage. -/
def trimmed (sections : List PromptSection) : List PromptSection :=
  (trimOptional optionalTrimOrder sections).1

/-- How much of the repository facts the first stage keeps. -/
def factsKept (item : PromptSection) (sections : List PromptSection) : Nat :=
  max 80 (item.text.length - overflow sections)

theorem trimmed_eq (sections : List PromptSection) :
    trimmed sections =
      if Fits sections then sections
      else match sectionOf "repository_facts" sections with
        | none => sections
        | some item =>
            if factsKept item sections < item.text.length then
              revise "repository_facts" (truncate item.text (factsKept item sections)) sections
            else sections := by
  unfold trimmed optionalTrimOrder factsKept
  rw [trimOptional]
  split
  · rfl
  · cases sectionOf "repository_facts" sections with
    | none => rfl
    | some item =>
        dsimp only
        split <;> rfl

theorem length_withLeastFacts_le (sections : List PromptSection) :
    (renderSections (withLeastFacts sections)).length ≤ (renderSections sections).length := by
  unfold withLeastFacts
  split
  next => exact Nat.le_refl _
  next item hitem =>
    split
    next hlong =>
      have hcut : (truncate item.text 80).length ≤ 80 :=
        length_truncate_le (by rw [length_truncationMarker]; decide)
      have := length_revise (truncate item.text 80) hitem
      omega
    next => exact Nat.le_refl _

/-- What the first stage cuts is cut far enough, or to the minimum. -/
theorem fits_or_least {sections : List PromptSection} {item : PromptSection}
    (hitem : sectionOf "repository_facts" sections = some item) (hover : ¬ Fits sections) :
    Fits (revise "repository_facts" (truncate item.text (factsKept item sections)) sections) ∨
      factsKept item sections = 80 := by
  rcases le_total (item.text.length - overflow sections) 80 with hmin | hmore
  · exact .inr (Nat.max_eq_left hmin)
  · left
    have hkept : factsKept item sections = item.text.length - overflow sections :=
      Nat.max_eq_right hmore
    have hcut : (truncate item.text (factsKept item sections)).length ≤ factsKept item sections :=
      length_truncate_le (by rw [length_truncationMarker, hkept]; omega)
    have hlength := length_revise (truncate item.text (factsKept item sections)) hitem
    unfold Fits at hover ⊢
    unfold overflow at hkept hmore
    omega

/-- Where the packet is still too long after the first stage, the facts are
at their minimum. -/
theorem trimmed_of_not_fits {sections : List PromptSection} (h : ¬ Fits (trimmed sections)) :
    trimmed sections = withLeastFacts sections := by
  rw [trimmed_eq] at h ⊢
  unfold withLeastFacts
  by_cases hfits : Fits sections
  · rw [if_pos hfits] at h
    exact absurd hfits h
  · rw [if_neg hfits] at h ⊢
    cases hitem : sectionOf "repository_facts" sections with
    | none => rfl
    | some item =>
        simp only [hitem] at h ⊢
        by_cases hless : factsKept item sections < item.text.length
        · rw [if_pos hless] at h ⊢
          rcases fits_or_least hitem hfits with hyes | hmin
          · exact absurd hyes h
          · rw [hmin] at hless ⊢
            rw [if_pos hless]
        · rw [if_neg hless, if_neg]
          have : 80 ≤ factsKept item sections := Nat.le_max_left _ _
          intro hlong
          have hmin : item.text.length ≤ factsKept item sections := Nat.le_of_not_lt hless
          unfold factsKept overflow at hmin
          unfold Fits at hfits
          omega

/-- What is left after a stronger cut is not longer. -/
theorem length_truncate_mono {text : Text} {least limit : Nat}
    (hleast : truncationMarker.length < least) (h : least ≤ limit) :
    (truncate text least).length ≤ (truncate text limit).length := by
  have hlead : text.take (least - truncationMarker.length) <+:
      text.take (limit - truncationMarker.length) := List.take_prefix_take_left (by omega)
  have hinfix : rstrip (text.take (least - truncationMarker.length)) <:+:
      rstrip (text.take (limit - truncationMarker.length)) := by
    refine infix_rdropWhile (last_rstrip _) ?_
    exact ((List.rdropWhile_prefix _ _).trans hlead).isInfix
  unfold truncate
  rw [if_neg (by omega), if_neg (by omega), if_neg (by omega), if_neg (by omega),
    List.length_append, List.length_append]
  exact Nat.add_le_add_right hinfix.length_le _

theorem length_withLeastFacts_trimmed (sections : List PromptSection) :
    (renderSections (withLeastFacts sections)).length ≤
      (renderSections (trimmed sections)).length := by
  by_cases hover : Fits (trimmed sections)
  · rw [trimmed_eq]
    by_cases hfits : Fits sections
    · rw [if_pos hfits]
      exact length_withLeastFacts_le sections
    · rw [if_neg hfits]
      cases hitem : sectionOf "repository_facts" sections with
      | none => exact length_withLeastFacts_le sections
      | some item =>
          dsimp only
          by_cases hless : factsKept item sections < item.text.length
          · have hmin : 80 ≤ factsKept item sections := Nat.le_max_left _ _
            have hcut : (truncate item.text 80).length ≤
                (truncate item.text (factsKept item sections)).length :=
              length_truncate_mono (by rw [length_truncationMarker]; decide) hmin
            have hleast := length_revise (truncate item.text 80) hitem
            have hkept := length_revise (truncate item.text (factsKept item sections)) hitem
            unfold withLeastFacts
            simp only [hitem]
            rw [if_pos hless, if_pos (by omega)]
            omega
          · rw [if_neg hless]
            exact length_withLeastFacts_le sections
  · rw [trimmed_of_not_fits hover]

/-- Fitting by the facts alone goes as far as the minimum goes. -/
theorem fits_trimmed_iff (sections : List PromptSection) :
    Fits (trimmed sections) ↔ Fits (withLeastFacts sections) := by
  constructor
  · exact fun h => (length_withLeastFacts_trimmed sections).trans h
  · intro h
    by_contra hover
    rw [trimmed_of_not_fits hover] at hover
    exact hover h

-- ============================================================== excerpts

/-- Required reading without excerpts, and without a word about them. -/
def bareReading (contract : ExecutionContract) : Text :=
  joined "\n\n" (readingChunks contract)

theorem boundedParts_none (kept : List Text) (excerpts : List FrozenContextExcerpt) :
    boundedParts none kept excerpts = (kept ++ excerpts.map excerptBlock, 0) := by
  induction excerpts generalizing kept with
  | nil => rw [boundedParts, List.map_nil, List.append_nil]
  | cons excerpt excerpts ih =>
      rw [boundedParts]
      simp only [Bool.false_eq_true, if_false, ih, List.append_assoc, List.singleton_append,
        List.map_cons]

/-- What is kept extends what was kept before, and fits with the marker if
it is more; it is everything if nothing was dropped. -/
theorem boundedParts_some {limit : Nat} {kept parts : List Text} {dropped : Nat}
    {excerpts : List FrozenContextExcerpt}
    (h : boundedParts (some limit) kept excerpts = (parts, dropped)) :
    kept <+: parts ∧
      (parts = kept ∨ (joined "\n\n" parts).length + omissionMarker.length ≤ limit) ∧
      (dropped = 0 → parts = kept ++ excerpts.map excerptBlock) := by
  induction excerpts generalizing kept parts dropped with
  | nil =>
      rw [boundedParts] at h
      obtain ⟨rfl, rfl⟩ := Prod.mk.inj h
      exact ⟨List.prefix_refl _, .inl rfl, fun _ => (List.append_nil _).symm⟩
  | cons excerpt excerpts ih =>
      rw [boundedParts] at h
      dsimp only at h
      split at h
      next hlong =>
        -- dropped: the rest is bounded as before
        obtain ⟨hlead, hfits, -⟩ := ih (Prod.eta _).symm
        obtain ⟨rfl, rfl⟩ := Prod.mk.inj h
        exact ⟨hlead, hfits, nofun⟩
      next hshort =>
        obtain ⟨hlead, hfits, hall⟩ := ih h
        refine ⟨(List.prefix_append _ _).trans hlead, .inr ?_, ?_⟩
        · rcases hfits with rfl | hfits
          · simpa using hshort
          · exact hfits
        · intro hnone
          rw [hall hnone, List.append_assoc, List.singleton_append, List.map_cons]

theorem length_omissionMarker : omissionMarker.length = 147 := by
  unfold omissionMarker
  rw [String.toList_append, String.toList_append, String.toList_ofList, String.toList_ofList,
    String.toList_ofList]
  rfl

/-- Required reading in full. -/
theorem requiredReadingText_none (contract : ExecutionContract) :
    requiredReadingText contract none =
      joined "\n\n" (readingChunks contract ++ contract.contextExcerpts.map excerptBlock) := by
  unfold requiredReadingText
  rw [boundedParts_none]
  rfl

theorem requiredReadingText_of_no_excerpts {contract : ExecutionContract}
    (h : contract.contextExcerpts = []) (limit : Option Nat) :
    requiredReadingText contract limit = bareReading contract := by
  unfold requiredReadingText bareReading
  rw [h]
  rfl

/-- Bounded reading: without any excerpt, or within its bound. -/
theorem requiredReadingText_some {contract : ExecutionContract} {limit : Nat}
    (hexcerpts : contract.contextExcerpts ≠ [])
    (hlimit : limit < (requiredReadingText contract none).length + omissionMarker.length) :
    requiredReadingText contract (some limit) = bareReading contract ++ omissionMarker ∨
      (requiredReadingText contract (some limit)).length ≤ limit ∧
        (bareReading contract ++ omissionMarker).length ≤
          (requiredReadingText contract (some limit)).length := by
  obtain ⟨parts, dropped, hparts⟩ : ∃ parts dropped,
      boundedParts (some limit) (readingChunks contract) contract.contextExcerpts =
        (parts, dropped) := ⟨_, _, rfl⟩
  obtain ⟨hlead, hfits, hall⟩ := boundedParts_some hparts
  have hdropped : dropped ≠ 0 := by
    intro hnone
    obtain rfl := hall hnone
    rw [← requiredReadingText_none] at hfits
    rcases hfits with hnothing | hfits
    · exact hexcerpts (List.map_eq_nil_iff.mp (List.append_right_eq_self.mp hnothing))
    · omega
  have htext : requiredReadingText contract (some limit) =
      joined "\n\n" parts ++ omissionMarker := by
    unfold requiredReadingText
    rw [hparts]
    exact if_neg hdropped
  rw [htext]
  rcases hfits with rfl | hfits
  · exact .inl rfl
  · right
    obtain ⟨more, rfl⟩ := hlead
    have hle := (joined_isPrefix "\n\n" (readingChunks contract) more).length_le
    rw [List.length_append, List.length_append]
    exact ⟨hfits, Nat.add_le_add_right hle _⟩

/-- The sections without any excerpt, but with the word about them. -/
def withMarker (contract : ExecutionContract) (sections : List PromptSection) :
    List PromptSection :=
  revise "required_reading" (bareReading contract ++ omissionMarker) sections

/-- The required reading of the sections is that of the contract. -/
def ReadsRequired (contract : ExecutionContract) (sections : List PromptSection) : Prop :=
  ∃ item, sectionOf "required_reading" sections = some item ∧
    item.text = strip (requiredReadingText contract none)

/-- The second stage fits a packet if and only if it does with the marker in
place of all excerpts. -/
theorem fits_dropExcerpts_iff {contract : ExecutionContract} {sections : List PromptSection}
    (hreading : ReadsRequired contract sections) (hover : ¬ Fits sections) :
    Fits (dropExcerpts contract sections).1 ↔
      contract.contextExcerpts ≠ [] ∧ Fits (withMarker contract sections) := by
  obtain ⟨item, hitem, htext⟩ := hreading
  have hitemle : item.text.length ≤ (requiredReadingText contract none).length := by
    rw [htext]
    exact length_strip_le _
  unfold dropExcerpts
  simp only [if_neg hover, hitem]
  obtain ⟨target, htarget⟩ : ∃ target, max 1 (item.text.length - overflow sections) = target :=
    ⟨_, rfl⟩
  rw [htarget]
  by_cases hexcerpts : contract.contextExcerpts = []
  · -- nothing to drop
    rw [requiredReadingText_of_no_excerpts hexcerpts] at hitemle ⊢
    rw [if_neg (by omega)]
    exact iff_of_false hover (fun h => h.1 hexcerpts)
  · have hmarker := length_omissionMarker
    have hpositive : 0 < overflow sections := by
      unfold overflow Fits at *
      omega
    have hbelow : target < (requiredReadingText contract none).length + omissionMarker.length := by
      omega
    have hrevise := fun text : Text => length_revise text hitem
    rcases requiredReadingText_some hexcerpts hbelow with hbare | ⟨hfits, hleast⟩
    · rw [hbare]
      split
      next => exact ⟨fun h => ⟨hexcerpts, h⟩, fun h => h.2⟩
      next hlonger =>
        -- the marker is no shorter than what it stands for
        refine iff_of_false hover fun h => hover ?_
        have hlength := hrevise (bareReading contract ++ omissionMarker)
        have h := h.2
        unfold withMarker Fits at h
        unfold Fits
        omega
    · rw [List.length_append] at hleast
      have hless : target = item.text.length - overflow sections := by omega
      rw [if_pos (by omega)]
      dsimp only
      have hkept := hrevise (requiredReadingText contract (some target))
      have hbare := hrevise (bareReading contract ++ omissionMarker)
      rw [List.length_append] at hbare
      unfold overflow at hless hpositive
      refine iff_of_true ?_ ⟨hexcerpts, ?_⟩
      · unfold Fits
        omega
      · unfold withMarker Fits
        omega

theorem readsRequired_revise {contract : ExecutionContract} {id : String} {text : Text}
    {sections : List PromptSection} (hid : "required_reading" ≠ id)
    (h : ReadsRequired contract sections) : ReadsRequired contract (revise id text sections) := by
  obtain ⟨item, hitem, htext⟩ := h
  exact ⟨item, by rw [sectionOf_revise_of_ne hid, hitem], htext⟩

theorem readsRequired_trimmed {contract : ExecutionContract} {sections : List PromptSection}
    (h : ReadsRequired contract sections) : ReadsRequired contract (trimmed sections) := by
  rw [trimmed_eq]
  split
  · exact h
  · split
    · exact h
    · split
      · exact readsRequired_revise (by decide) h
      · exact h

/-- The sections that are fitted are those of the two stages. -/
theorem fitTotalBudget_eq (contract : ExecutionContract) (sections : List PromptSection) :
    (Fits (dropExcerpts contract (trimmed sections)).1 ∧
      ∃ omissions, fitTotalBudget contract sections =
        .ok ((dropExcerpts contract (trimmed sections)).1, omissions)) ∨
    ¬ Fits (dropExcerpts contract (trimmed sections)).1 ∧
      ∃ text, fitTotalBudget contract sections =
        .error (.budget "prompt.budget_exceeded" text) := by
  unfold fitTotalBudget
  dsimp only
  split
  next hfits => exact .inl ⟨hfits, _, rfl⟩
  next hover => exact .inr ⟨hover, _, rfl⟩

/-- A packet cannot be fitted if and only if it is too long with the facts at
their minimum, both with its excerpts and with the marker in their place. -/
theorem not_fits_iff {contract : ExecutionContract} {sections : List PromptSection}
    (hreading : ReadsRequired contract sections) :
    ¬ Fits (dropExcerpts contract (trimmed sections)).1 ↔
      ¬ Fits (withLeastFacts sections) ∧
        (contract.contextExcerpts = [] ∨
          ¬ Fits (withMarker contract (withLeastFacts sections))) := by
  by_cases hfits : Fits (trimmed sections)
  · have hsame : (dropExcerpts contract (trimmed sections)).1 = trimmed sections := by
      unfold dropExcerpts
      rw [if_pos hfits]
    rw [hsame]
    exact iff_of_false (fun h => h hfits) fun h => h.1 ((fits_trimmed_iff sections).mp hfits)
  · rw [fits_dropExcerpts_iff (readsRequired_trimmed hreading) hfits,
      trimmed_of_not_fits hfits, not_and_or, not_not]
    refine ⟨fun h => ⟨?_, h⟩, fun h => h.2⟩
    rw [← fits_trimmed_iff]
    exact hfits

theorem fit_eq_ok {contract : ExecutionContract} {sections fitted : List PromptSection}
    {omissions : List String} (h : fitTotalBudget contract sections = .ok (fitted, omissions)) :
    fitted = (dropExcerpts contract (trimmed sections)).1 ∧ Fits fitted := by
  rcases fitTotalBudget_eq contract sections with ⟨hfits, _, hfit⟩ | ⟨-, _, hfit⟩
  · rw [hfit] at h
    obtain ⟨rfl, -⟩ := Prod.mk.inj (Except.ok.inj h)
    exact ⟨rfl, hfits⟩
  · rw [hfit] at h
    cases h

theorem fit_eq_error {contract : ExecutionContract} {sections : List PromptSection}
    {e : PromptError} (h : fitTotalBudget contract sections = .error e) :
    ¬ Fits (dropExcerpts contract (trimmed sections)).1 := by
  rcases fitTotalBudget_eq contract sections with ⟨-, _, hfit⟩ | ⟨hover, -⟩
  · rw [hfit] at h
    cases h
  · exact hover

-- ============================================================= what stays

/-- The stages replace at most one text each. -/
theorem trimmed_cases (sections : List PromptSection) :
    trimmed sections = sections ∨
      ∃ text, trimmed sections = revise "repository_facts" text sections := by
  rw [trimmed_eq]
  split
  · exact .inl rfl
  · split
    · exact .inl rfl
    · split
      · exact .inr ⟨_, rfl⟩
      · exact .inl rfl

theorem dropExcerpts_cases (contract : ExecutionContract) (sections : List PromptSection) :
    (dropExcerpts contract sections).1 = sections ∨
      ∃ limit, (dropExcerpts contract sections).1 =
        revise "required_reading" (requiredReadingText contract (some limit)) sections := by
  unfold dropExcerpts
  split
  · exact .inl rfl
  · split
    · exact .inl rfl
    · dsimp only
      split
      · exact .inr ⟨_, rfl⟩
      · exact .inl rfl

/-- No section loses its title. -/
theorem fit_titles {contract : ExecutionContract} {sections fitted : List PromptSection}
    {omissions : List String} (h : fitTotalBudget contract sections = .ok (fitted, omissions)) :
    fitted.map (fun s => (s.id, s.heading)) = sections.map fun s => (s.id, s.heading) := by
  obtain ⟨rfl, -⟩ := fit_eq_ok h
  have htrimmed : (trimmed sections).map (fun s => (s.id, s.heading)) =
      sections.map fun s => (s.id, s.heading) := by
    rcases trimmed_cases sections with hsame | ⟨text, hrevised⟩
    · rw [hsame]
    · rw [hrevised, revise_titles]
  rcases dropExcerpts_cases contract (trimmed sections) with hsame | ⟨limit, hrevised⟩
  · rw [hsame, htrimmed]
  · rw [hrevised, revise_titles, htrimmed]

/-- Every section but the two that may be cut stays as it is. -/
theorem mem_fitted {contract : ExecutionContract} {sections fitted : List PromptSection}
    {omissions : List String} (h : fitTotalBudget contract sections = .ok (fitted, omissions))
    {s : PromptSection} (hs : s ∈ sections) (hfacts : s.id ≠ "repository_facts")
    (hreading : s.id ≠ "required_reading") : s ∈ fitted := by
  obtain ⟨rfl, -⟩ := fit_eq_ok h
  have htrimmed : s ∈ trimmed sections := by
    rcases trimmed_cases sections with hsame | ⟨text, hrevised⟩
    · rwa [hsame]
    · rw [hrevised]
      exact mem_revise_of_ne hs hfacts
  rcases dropExcerpts_cases contract (trimmed sections) with hsame | ⟨limit, hrevised⟩
  · rwa [hsame]
  · rw [hrevised]
    exact mem_revise_of_ne htrimmed hreading

theorem mem_of_sectionOf {id : String} {sections : List PromptSection} {s : PromptSection}
    (h : sectionOf id sections = some s) : s ∈ sections := List.mem_of_find?_eq_some h

/-- The required reading is still there, perhaps with fewer excerpts. -/
theorem reading_fitted {contract : ExecutionContract} {sections fitted : List PromptSection}
    {omissions : List String} (h : fitTotalBudget contract sections = .ok (fitted, omissions))
    (hreading : ReadsRequired contract sections) :
    ∃ s ∈ fitted, s.text = strip (requiredReadingText contract none) ∨
      ∃ limit, s.text = requiredReadingText contract (some limit) := by
  obtain ⟨rfl, -⟩ := fit_eq_ok h
  obtain ⟨item, hitem, htext⟩ := readsRequired_trimmed hreading
  rcases dropExcerpts_cases contract (trimmed sections) with hsame | ⟨limit, hrevised⟩
  · rw [hsame]
    exact ⟨item, mem_of_sectionOf hitem, .inl htext⟩
  · rw [hrevised]
    exact ⟨_, mem_of_sectionOf (sectionOf_revise_self hitem), .inr ⟨limit, rfl⟩⟩

/-- What the reading has before its excerpts, it has with any of them. -/
theorem chunk_infix_reading {contract : ExecutionContract} {chunk : Text}
    (h : chunk ∈ readingChunks contract) (limit : Option Nat) :
    chunk <:+: requiredReadingText contract limit := by
  cases limit with
  | none =>
      rw [requiredReadingText_none]
      exact infix_joined (List.mem_append_left _ h)
  | some limit =>
      obtain ⟨parts, dropped, hparts⟩ : ∃ parts dropped,
          boundedParts (some limit) (readingChunks contract) contract.contextExcerpts =
            (parts, dropped) := ⟨_, _, rfl⟩
      obtain ⟨hlead, -⟩ := boundedParts_some hparts
      have hchunk : chunk <:+: joined "\n\n" parts := infix_joined (hlead.subset h)
      unfold requiredReadingText
      rw [hparts]
      dsimp only
      split
      · exact hchunk
      · exact hchunk.trans (List.prefix_append _ _).isInfix

/-- The name of a frozen file, with the marks around it. -/
def quotedReference (file : FrozenContextFile) : Text :=
  "- \x60".toList ++ fileReference file ++ "\x60".toList

theorem tight_quotedReference (file : FrozenContextFile) : Tight (quotedReference file) := by
  refine Tight.append _ ⟨?_, ?_⟩ ⟨?_, ?_⟩ (by decide) (by decide)
  all_goals exact end_of_all rfl

theorem reference_infix_reading {contract : ExecutionContract} {file : FrozenContextFile}
    (h : file ∈ contract.contextFiles) (limit : Option Nat) :
    quotedReference file <:+: requiredReadingText contract limit := by
  have hne : contract.contextFiles ≠ [] := by
    intro hempty
    rw [hempty] at h
    cases h
  have hline : quotedReference file <:+: fileLine file := (List.prefix_append _ _).isInfix
  refine hline.trans ((infix_joined (List.mem_map_of_mem h)).trans
    (@chunk_infix_reading _ (joined "\n" (contract.contextFiles.map fileLine)) ?_ limit))
  unfold readingChunks
  rw [if_neg hne]
  exact List.mem_append_left _ (List.mem_cons_of_mem _ List.mem_cons_self)

/-- A frozen file keeps its place in the packet. -/
theorem path_infix_fitted {contract : ExecutionContract} {sections fitted : List PromptSection}
    {omissions : List String} (h : fitTotalBudget contract sections = .ok (fitted, omissions))
    (hreading : ReadsRequired contract sections) {file : FrozenContextFile}
    (hfile : file ∈ contract.contextFiles) :
    file.workspacePath.toList <:+: renderSections fitted := by
  have hpath : file.workspacePath.toList <:+: quotedReference file := by
    unfold quotedReference fileReference
    rw [List.append_assoc, List.append_assoc, ← List.append_assoc]
    exact List.infix_append' _ _ _
  obtain ⟨s, hs, htext | ⟨limit, htext⟩⟩ := reading_fitted h hreading
  · refine hpath.trans (List.IsInfix.trans ?_ (text_infix_render hs))
    rw [htext]
    exact (tight_quotedReference file).infix_strip (reference_infix_reading hfile none)
  · refine hpath.trans (List.IsInfix.trans ?_ (text_infix_render hs))
    rw [htext]
    exact reference_infix_reading hfile (some limit)

end OpenTulid.Frozen.Prompt
