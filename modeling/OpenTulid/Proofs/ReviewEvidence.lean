/-
The evidence of the implementation in the packet of a review.

# The rule

The lines of the evidence are kept in their order as long as they leave room
for the marker that says that the rest was left out (`boundedLines_eq`). The
marker is the end of the text if and only if a line was left out
(`evidenceMarker_suffix_iff`).

# The defect

The room that is kept free is that of the marker alone. The line break before
it is not counted, so lines that fill the rest exactly, with more to come,
leave the section one character too long, and the packet cannot be compiled
(`evidenceFits_iff`).
-/
import OpenTulid.Proofs.FrozenRoundTrip
import OpenTulid.Proofs.PromptTexts

namespace OpenTulid.Frozen.Prompt

open Json (Fields)

-- ============================================================== the lines

/-- The checks that a report lists. -/
def reportedChecks (evidence : ReviewEvidence) : List Json :=
  match evidence.verificationReport.get "checks" with
  | .arr checks => checks
  | _ => []

/-- All lines of the evidence. -/
def evidenceLines (P : Python) (evidence : ReviewEvidence) : List Text :=
  let report := evidence.verificationReport
  let changes : Json := match report.get "changes" with
    | .obj changes => .obj changes
    | _ => .obj []
  let checks := reportedChecks evidence
  let history := evidence.repairHistory
  [s!"Source implementation job: {evidence.sourceJobId}".toList,
    "Authoritative changes: ".toList ++ compactDumps changes,
    "Trusted implementation checks:".toList] ++
    checks.filterMap (evidenceLine P) ++
    (if checks = [] then [
      ("No trusted checks are recorded for this task. This packet is not " ++
        "evidence of a verified implementation; do not treat an empty diff " ++
        "as if verification ran.").toList]
    else []) ++
    (if history = [] then []
    else "Prior repair history:".toList ::
      (history.drop (history.length - 5)).map repairLine)

theorem reviewEvidenceText_eq (P : Python) (evidence : ReviewEvidence) :
    reviewEvidenceText P evidence =
      joined "\n" (boundedLines 0 [] (evidenceLines P evidence)) := rfl

/-- The number of characters of lines, with the line breaks between them. -/
def width (lines : List Text) : Nat := (joined "\n" lines).length

theorem width_concat (kept : List Text) (line : Text) :
    width (kept ++ [line]) = width kept + (line.length + if kept = [] then 0 else 1) := by
  unfold width
  cases kept with
  | nil => simp [joined]
  | cons first rest =>
      rw [joined_append, List.length_append]
      simp

theorem width_le_of_isPrefix {lines more : List Text} (h : lines <+: more) :
    width lines ≤ width more := by
  obtain ⟨rest, rfl⟩ := h
  exact (joined_isPrefix "\n" lines rest).length_le

/-- The lines kept are as many as leave room for the marker, and it comes
behind them if some are left. -/
theorem boundedLines_eq (kept lines : List Text) :
    ∃ k ≤ lines.length,
      boundedLines (width kept) kept lines =
        kept ++ lines.take k ++ (if k < lines.length then [evidenceMarker] else []) ∧
      (0 < k → width (kept ++ lines.take k) + evidenceMarker.length ≤ 2000) ∧
      (k < lines.length →
        2000 < width (kept ++ lines.take (k + 1)) + evidenceMarker.length) := by
  induction lines generalizing kept with
  | nil => exact ⟨0, Nat.le_refl 0, by simp [boundedLines], by simp, by simp⟩
  | cons line rest ih =>
      rw [boundedLines, ← width_concat]
      split
      next hlong =>
        refine ⟨0, Nat.zero_le _, by simp, by simp, fun _ => ?_⟩
        simpa using hlong
      next hfits =>
        obtain ⟨k, hk, heq, hroom, hlong⟩ := ih (kept ++ [line])
        refine ⟨k + 1, Nat.succ_le_succ hk, ?_, fun _ => ?_, fun hmore => ?_⟩
        · rw [heq]
          simp
        · by_cases hnone : k = 0
          · subst hnone
            simpa using Nat.le_of_not_lt hfits
          · simpa using hroom (Nat.pos_of_ne_zero hnone)
        · simpa using hlong (Nat.lt_of_succ_lt_succ hmore)

theorem take_ne_nil {lines : List Text} {j : Nat} (hj : 0 < j) (hjn : j ≤ lines.length) :
    lines.take j ≠ [] := by
  intro hnil
  have hlength := congrArg List.length hnil
  rw [List.length_take, List.length_nil] at hlength
  omega

/-- One line more makes the text longer. -/
theorem width_take_lt {lines : List Text} {j k : Nat} (hj : 0 < j) (hjk : j < k)
    (hk : k ≤ lines.length) : width (lines.take j) < width (lines.take k) := by
  have hlt : j < lines.length := Nat.lt_of_lt_of_le hjk hk
  have hnext : width (lines.take j) < width (lines.take (j + 1)) := by
    rw [List.take_succ_eq_append_getElem hlt, width_concat,
      if_neg (take_ne_nil hj (Nat.le_of_lt hlt))]
    omega
  exact Nat.lt_of_lt_of_le hnext (width_le_of_isPrefix (List.take_prefix_take_left hjk))

/-- The room of the text with a marker behind some lines. -/
theorem width_marked {kept : List Text} (h : kept ≠ []) :
    width (kept ++ [evidenceMarker]) = width kept + evidenceMarker.length + 1 := by
  rw [width_concat, if_neg h]
  omega

-- ================================================================ the ends

theorem getLast?_compactDumps (fields : Fields) :
    (compactDumps (.obj fields)).getLast? = some '}' := by
  rw [compactDumps, Json.canon, asciiText]
  exact List.getLast?_concat

/-- A line that does not end as the marker does. -/
def EndsOtherwise (line : Text) : Prop := ∃ c, line.getLast? = some c ∧ c ≠ ']'

theorem endsOtherwise_dumps (before : Text) (fields : Fields) :
    EndsOtherwise (before ++ compactDumps (.obj fields)) := by
  have hlast := getLast?_compactDumps fields
  have hne : compactDumps (.obj fields) ≠ [] := by
    intro hnil
    rw [hnil] at hlast
    cases hlast
  refine ⟨'}', ?_, by decide⟩
  rw [List.getLast?_append_of_ne_nil _ hne, hlast]

theorem evidenceLine_ends {P : Python} {check : Json} {line : Text}
    (h : evidenceLine P check = some line) : EndsOtherwise line := by
  cases check with
  | obj item =>
      rw [evidenceLine] at h
      cases h
      exact endsOtherwise_dumps _ _
  | null => cases h
  | bool b => cases h
  | int n => cases h
  | float f => cases h
  | str s => cases h
  | arr items => cases h

/-- Only the first line may end as the marker does. -/
theorem evidenceLines_ends (P : Python) (evidence : ReviewEvidence) {line : Text}
    (h : line ∈ (evidenceLines P evidence).tail) : EndsOtherwise line := by
  unfold evidenceLines at h
  dsimp only at h
  simp only [List.append_assoc, List.cons_append, List.nil_append, List.tail_cons] at h
  rcases List.mem_cons.mp h with rfl | h
  · split
    next => exact endsOtherwise_dumps _ _
    next => exact endsOtherwise_dumps _ _
  · rcases List.mem_cons.mp h with rfl | h
    · exact ⟨':', by decide, by decide⟩
    · rcases List.mem_append.mp h with h | h
      · obtain ⟨check, -, hline⟩ := List.mem_filterMap.mp h
        exact evidenceLine_ends hline
      · rcases List.mem_append.mp h with h | h
        · split at h
          next =>
            rw [List.mem_singleton.mp h, String.toList_append]
            refine ⟨'.', ?_, by decide⟩
            rw [List.getLast?_append_of_ne_nil _ (by decide)]
            decide
          next => cases h
        · split at h
          next => cases h
          next =>
            rcases List.mem_cons.mp h with rfl | h
            · exact ⟨':', by decide, by decide⟩
            · obtain ⟨item, -, rfl⟩ := List.mem_map.mp h
              exact endsOtherwise_dumps _ _

theorem two_le_length_evidenceLines (P : Python) (evidence : ReviewEvidence) :
    2 ≤ (evidenceLines P evidence).length := by
  unfold evidenceLines
  simp only [List.length_append, List.length_cons, List.length_nil]
  omega

/-- The end of lines is that of the last one. -/
theorem getLast?_joined {before : List Text} {last : Text} (h : last ≠ []) :
    (joined "\n" (before ++ [last])).getLast? = last.getLast? := by
  cases before with
  | nil => simp [joined]
  | cons first rest =>
      rw [joined_append, List.flatMap_singleton, List.getLast?_append_of_ne_nil _ (by simp),
        List.getLast?_append_of_ne_nil _ h]

/-- The full text of the evidence does not end as the marker does. -/
theorem endsOtherwise_evidence (P : Python) (evidence : ReviewEvidence) :
    EndsOtherwise (joined "\n" (evidenceLines P evidence)) := by
  have hlength := two_le_length_evidenceLines P evidence
  have hends := fun line => @evidenceLines_ends P evidence line
  generalize evidenceLines P evidence = lines at hlength hends ⊢
  rcases List.eq_nil_or_concat' lines with rfl | ⟨before, last, rfl⟩
  · simp at hlength
  · cases before with
    | nil => simp at hlength
    | cons first rest =>
        have hlast : EndsOtherwise last := hends last (by simp)
        obtain ⟨c, hc, hne⟩ := hlast
        have hsome : last ≠ [] := by
          intro hnil
          rw [hnil] at hc
          cases hc
        exact ⟨c, by rw [getLast?_joined hsome, hc], hne⟩

-- ============================================================== the section

/-- The marker is the end of the text exactly where a line was left out. -/
theorem evidenceMarker_suffix_iff (P : Python) (evidence : ReviewEvidence) (k : Nat) :
    (evidenceMarker <:+ joined "\n" ((evidenceLines P evidence).take k ++
        if k < (evidenceLines P evidence).length then [evidenceMarker] else [])) ↔
      k < (evidenceLines P evidence).length := by
  constructor
  · intro hsuffix
    by_contra hall
    rw [if_neg hall, List.append_nil, List.take_of_length_le (Nat.le_of_not_lt hall)] at hsuffix
    obtain ⟨c, hc, hne⟩ := endsOtherwise_evidence P evidence
    obtain ⟨before, heq⟩ := hsuffix
    rw [← heq, List.getLast?_append_of_ne_nil _ (by decide)] at hc
    have hmarker : evidenceMarker.getLast? = some ']' := by decide
    rw [hmarker] at hc
    exact hne (Option.some.inj hc).symm
  · intro hmore
    rw [if_pos hmore]
    generalize (evidenceLines P evidence).take k = kept
    cases kept with
    | nil => simp [joined]
    | cons first rest =>
        rw [joined_append, List.flatMap_singleton, ← List.append_assoc]
        exact List.suffix_append _ _

/-- The text of the evidence is some of the lines, with the marker behind
them if some are left. -/
theorem reviewEvidenceText_lines (P : Python) (evidence : ReviewEvidence) :
    ∃ k ≤ (evidenceLines P evidence).length,
      reviewEvidenceText P evidence = joined "\n" ((evidenceLines P evidence).take k ++
        if k < (evidenceLines P evidence).length then [evidenceMarker] else []) ∧
      (0 < k → width ((evidenceLines P evidence).take k) + evidenceMarker.length ≤ 2000) ∧
      (k < (evidenceLines P evidence).length →
        2000 < width ((evidenceLines P evidence).take (k + 1)) + evidenceMarker.length) := by
  obtain ⟨k, hk, htext, hroom, hlong⟩ := boundedLines_eq [] (evidenceLines P evidence)
  exact ⟨k, hk, congrArg (joined "\n") htext, hroom, hlong⟩

/-- The text of the evidence is as it should be: it fits its section, so
that the section is built, it is a beginning of the lines, and the marker is
its end exactly where a line was left out. -/
structure EvidenceFits (P : Python) (evidence : ReviewEvidence) : Prop where
  short : ∀ budget, sectionBudget "prior_implementation_evidence" = some budget →
    (reviewEvidenceText P evidence).length ≤ budget
  builds : ∀ heading sourceKind sourceRef selectionReason, ∃ s,
    promptSection "prior_implementation_evidence" heading (reviewEvidenceText P evidence)
      sourceKind sourceRef selectionReason false = .ok s
  lines : ∃ k ≤ (evidenceLines P evidence).length,
    reviewEvidenceText P evidence = joined "\n" ((evidenceLines P evidence).take k ++
      if k < (evidenceLines P evidence).length then [evidenceMarker] else []) ∧
    (evidenceMarker <:+ reviewEvidenceText P evidence ↔ k < (evidenceLines P evidence).length)

/-- A text that fits its section is a section. -/
theorem promptSection_builds {text : Text} (h : text.length ≤ 2000)
    (heading sourceKind sourceRef selectionReason : String) :
    ∃ s, promptSection "prior_implementation_evidence" heading text sourceKind sourceRef
      selectionReason false = .ok s := by
  have hclean : (strip text).length ≤ 2000 := Nat.le_trans (length_strip_le text) h
  refine ⟨⟨"prior_implementation_evidence", heading, strip text, sourceKind, sourceRef,
    selectionReason, some (2000 : Nat), false⟩, ?_⟩
  unfold promptSection
  simp only [sectionBudget]
  rw [if_pos hclean]

/-- Lines that fill the room exactly, with more behind them, make the text
too long. -/
theorem room_of_fits {P : Python} {evidence : ReviewEvidence} (hfits : EvidenceFits P evidence)
    {j : Nat} (hj : 0 < j) (hjn : j < (evidenceLines P evidence).length) :
    width ((evidenceLines P evidence).take j) + evidenceMarker.length ≠ 2000 := by
  obtain ⟨k, hk, hsame, hroom, hlong⟩ := reviewEvidenceText_lines P evidence
  intro hexact
  have hshort := hfits.short 2000 rfl
  have hkj : k = j := by
    rcases Nat.lt_trichotomy k j with hlt | heq | hgt
    · have hle : width ((evidenceLines P evidence).take (k + 1)) ≤
          width ((evidenceLines P evidence).take j) :=
        width_le_of_isPrefix (List.take_prefix_take_left hlt)
      have hover := hlong (Nat.lt_trans hlt hjn)
      omega
    · exact heq
    · have hlt := width_take_lt hj hgt hk
      have hunder := hroom (Nat.lt_trans hj hgt)
      omega
  subst hkj
  have hwidth := width_marked (take_ne_nil hj hk)
  rw [hsame, if_pos hjn] at hshort
  change width _ ≤ 2000 at hshort
  omega

/-- Where no lines do that the evidence fits its section. -/
theorem fits_of_room {P : Python} {evidence : ReviewEvidence}
    (hnone : ∀ j, 0 < j → j < (evidenceLines P evidence).length →
      width ((evidenceLines P evidence).take j) + evidenceMarker.length ≠ 2000) :
    EvidenceFits P evidence := by
  obtain ⟨k, hk, hsame, hroom, hlong⟩ := reviewEvidenceText_lines P evidence
  have hshort : (reviewEvidenceText P evidence).length ≤ 2000 := by
    rw [hsame]
    change width _ ≤ 2000
    split
    next hmore =>
      by_cases hzero : k = 0
      · subst hzero
        show width [evidenceMarker] ≤ 2000
        decide
      · have hpos := Nat.pos_of_ne_zero hzero
        have hwidth := width_marked (take_ne_nil hpos hk)
        have hunder := hroom hpos
        have hne := hnone k hpos hmore
        omega
    next hall =>
      have hlength := two_le_length_evidenceLines P evidence
      have hunder := hroom (by omega)
      rw [List.append_nil]
      omega
  exact {
    short := by
      intro budget hbudget
      cases hbudget
      exact hshort
    builds := promptSection_builds hshort
    lines := ⟨k, hk, hsame, by rw [hsame]; exact evidenceMarker_suffix_iff P evidence k⟩ }

/-- The evidence fits its section if and only if no part of the lines fills
the room exactly, the marker counted, with lines left behind it. -/
theorem evidenceFits_iff (P : Python) (evidence : ReviewEvidence) :
    EvidenceFits P evidence ↔
      ∀ j, 0 < j → j < (evidenceLines P evidence).length →
        width ((evidenceLines P evidence).take j) + evidenceMarker.length ≠ 2000 :=
  ⟨fun hfits _ hj hjn => room_of_fits hfits hj hjn, fits_of_room⟩

-- ========================================================== an exact filling

section Exact

/-- A report of one added file with a long path. -/
def longPathEvidence (n : Nat) : ReviewEvidence where
  sourceJobId := "JOB-1"
  verificationReport :=
    [("changes", .obj [("added", .arr [.str (String.ofList (List.replicate n 'a'))])])]

theorem length_compactDumps_longPath (n : Nat) :
    (compactDumps (.obj [("added", .arr [.str (String.ofList (List.replicate n 'a'))])])).length =
      14 + n := by
  have hescape : (List.replicate n 'a').flatMap asciiEscape = List.replicate n 'a' := by
    induction n with
    | zero => rfl
    | succ n ih =>
        rw [List.replicate_succ, List.flatMap_cons, ih]
        rfl
  have hcanon : Json.canon (.obj [("added",
      .arr [.str (String.ofList (List.replicate n 'a'))])]) =
      .obj [("added", .arr [.str (String.ofList (List.replicate n 'a'))])] := rfl
  rw [compactDumps, hcanon]
  simp only [asciiText, asciiFields, asciiItems, joined, List.flatMap_nil, List.append_nil,
    asciiQuoted, String.toList_ofList, hescape, List.length_append, List.length_cons,
    List.length_nil, List.length_replicate]
  have hkey : ("added".toList.flatMap asciiEscape).length = 5 := by decide
  have hcolon : (":".toList).length = 1 := by decide
  omega

theorem evidenceLines_longPath (P : Python) (n : Nat) : ∃ rest,
    evidenceLines P (longPathEvidence n) = ["Source implementation job: JOB-1".toList,
      "Authoritative changes: ".toList ++ compactDumps
        (.obj [("added", .arr [.str (String.ofList (List.replicate n 'a'))])]),
      "Trusted implementation checks:".toList] ++ [rest] := ⟨_, rfl⟩

/-- A path of the length that fills the room exactly makes the section one
character too long. -/
theorem not_fits_longPath {P : Python} {n : Nat} (hn : n = 1840) :
    ¬ EvidenceFits P (longPathEvidence n) := by
  intro hfits
  obtain ⟨rest, hlines⟩ := evidenceLines_longPath P n
  have hlength := length_compactDumps_longPath n
  have hfirst : ("Source implementation job: JOB-1".toList).length = 32 := by decide
  have hsecond : ("Authoritative changes: ".toList).length = 23 := by decide
  have hthird : ("Trusted implementation checks:".toList).length = 30 := by decide
  have hbreak : ("\n".toList).length = 1 := by decide
  have hmarker : evidenceMarker.length = 59 := by decide
  refine room_of_fits hfits (show 0 < 3 by decide) ?_ ?_
  · rw [hlines, List.length_append]
    exact Nat.lt_succ_self 3
  · rw [hlines, List.take_left' (by rfl), hmarker]
    unfold width
    simp only [joined, List.flatMap_cons, List.flatMap_nil, List.append_nil, List.length_append,
      hfirst, hsecond, hthird, hlength, hbreak]
    omega

/-- A report of one added file whose path has 1840 characters. -/
theorem long_path_overflows :
    ¬ EvidenceFits ⟨id, id, Char.isAlphanum, strictBuiltins⟩ (longPathEvidence 1840) :=
  not_fits_longPath rfl

end Exact

end OpenTulid.Frozen.Prompt
