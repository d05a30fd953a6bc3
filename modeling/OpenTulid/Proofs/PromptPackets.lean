/-
Stored prompt packets: what is stored with a job comes back, and what can be
changed in it unnoticed.

The reader walks the text by the lengths the manifest records, so it accepts
a manifest if and only if the text is the rendering of sections the manifest
describes (`parse_eq_ok`). The digest of the packet covers the text and not
the manifest. A manifest that divides the same text elsewhere, with the
lengths and digests of that division, is therefore accepted
(`divided_elsewhere_is_accepted`), and nothing else is: with the lengths or
with the digests kept, there is no other division (`Lib/Headed.lean`).
-/
import OpenTulid.Proofs.PromptBudget

namespace OpenTulid.Frozen.Prompt

open Json (Fields)
open Fallible

-- ================================================================ reading

/-- A section as it is read: its heading and its text. -/
abbrev Rendered := String × Text

/-- Sections as text. -/
def renderParts (parts : List Rendered) : Text :=
  Headed.render "## ".toList '\n' (parts.map fun part => (part.1.toList, part.2))

/-- The sections after the first, as text. -/
def renderPartsRest (parts : List Rendered) : Text :=
  Headed.renderRest "## ".toList '\n' (parts.map fun part => (part.1.toList, part.2))

theorem renderParts_cons (part : Rendered) (parts : List Rendered) :
    renderParts (part :: parts) =
      Headed.lead "## ".toList '\n' part.1.toList ++ (part.2 ++ renderPartsRest parts) := rfl

theorem renderSections_eq (sections : List PromptSection) :
    renderSections sections = renderParts (sections.map fun s => (s.heading, s.text)) := by
  unfold renderSections renderParts
  rw [List.map_map]
  rfl

/-- The entry records the heading and the length of the section. -/
def Measures (entry : Json) (part : Rendered) : Prop :=
  ∃ raw : Fields, entry = .obj raw ∧ raw.get "heading" = .str part.1 ∧ part.1 ≠ "" ∧
    raw.get "characters" = .int part.2.length

theorem sectionEntry_eq_ok {entry : Json} {raw : Fields} :
    sectionEntry entry = .ok raw ↔ entry = .obj raw := by
  cases entry <;> simp [sectionEntry]

theorem manifestString_eq_ok {raw : Fields} {key s : String} :
    manifestString raw key = .ok s ↔ raw.get key = .str s ∧ s ≠ "" := by
  unfold manifestString
  split
  next t ht =>
    rw [ht]
    split
    next hempty => simp [hempty]
    next hne =>
      constructor
      · rintro ⟨⟩
        exact ⟨rfl, hne⟩
      · rintro ⟨⟨⟩, -⟩
        rfl
  next hother => exact ⟨nofun, fun h => absurd h.1 (hother s)⟩

theorem manifestInt_eq_ok {raw : Fields} {key : String} {minimum n : Int} :
    manifestInt raw key minimum = .ok n ↔ raw.get key = .int n ∧ minimum ≤ n := by
  unfold manifestInt
  split
  next m hm =>
    rw [hm]
    split
    next hless =>
      refine ⟨nofun, ?_⟩
      rintro ⟨⟨⟩, hle⟩
      omega
    next hnot =>
      constructor
      · rintro ⟨⟩
        exact ⟨rfl, by omega⟩
      · rintro ⟨⟨⟩, -⟩
        rfl
  next hother => exact ⟨nofun, fun h => absurd h.1 (hother n)⟩

theorem sectionCharacters_eq_ok {raw : Fields} {n : Nat} :
    sectionCharacters raw = .ok n ↔ raw.get "characters" = .int n := by
  unfold sectionCharacters
  split
  next m hm =>
    rw [hm]
    constructor
    · rintro ⟨⟩
      rfl
    · rintro ⟨⟩
      rfl
  next hother => exact ⟨nofun, fun h => absurd h (hother n)⟩

/-- A section is read off the front of a text that starts with it. -/
theorem takeSection_eq_ok {entry : Json} {rest after : Text} {part : Rendered} :
    takeSection entry rest = .ok (part, after) ↔
      Measures entry part ∧
        rest = Headed.lead "## ".toList '\n' part.1.toList ++ (part.2 ++ after) := by
  simp only [takeSection, bind_eq_ok, pure_eq_ok, demand_eq_ok, sectionEntry_eq_ok,
    manifestString_eq_ok, sectionCharacters_eq_ok]
  constructor
  · rintro ⟨raw, hraw, heading, ⟨hheading, hfilled⟩, characters, hcharacters, -, ⟨left, rfl⟩, -,
      hlength, hpart⟩
    rw [List.drop_left] at hlength hpart
    obtain ⟨rfl, rfl⟩ := Prod.mk.inj hpart
    refine ⟨⟨raw, hraw, hheading, hfilled, ?_⟩, ?_⟩
    · rw [hcharacters, List.length_take, Nat.min_eq_left hlength]
    · rw [List.take_append_drop]
  · rintro ⟨⟨raw, hraw, hheading, hfilled, hcharacters⟩, rfl⟩
    refine ⟨raw, hraw, part.1, ⟨hheading, hfilled⟩, part.2.length, hcharacters, (),
      List.prefix_append _ _, (), ?_, ?_⟩
    · rw [List.drop_left, List.length_append]
      exact Nat.le_add_right _ _
    · rw [List.drop_left, List.take_left, List.drop_left]

theorem takeSeparator_eq_ok {last : Bool} {rest after : Text} :
    takeSeparator last rest = .ok after ↔
      rest = (if last then [] else ['\n', '\n']) ++ after := by
  unfold takeSeparator
  cases last with
  | true => exact pure_eq_ok
  | false =>
      simp only [Bool.false_eq_true, if_false, bind_eq_ok, pure_eq_ok, demand_eq_ok]
      constructor
      · rintro ⟨-, ⟨left, rfl⟩, rfl⟩
        rfl
      · rintro rfl
        exact ⟨(), List.prefix_append _ _, rfl⟩

/-- Behind a section: nothing, or a gap and the next one. -/
theorem renderPartsRest_eq (parts : List Rendered) :
    renderPartsRest parts =
      (if parts.isEmpty then [] else ['\n', '\n']) ++ renderParts parts := by
  cases parts <;> rfl

/-- The reader accepts a text if and only if it is the rendering of sections
that the entries measure. -/
theorem parse_eq_ok {entries : List Json} {text : Text} {parts : List Rendered} :
    parseRenderedSections entries text = .ok parts ↔
      List.Forall₂ Measures entries parts ∧ text = renderParts parts := by
  induction entries generalizing text parts with
  | nil =>
      rw [parseRenderedSections, List.forall₂_nil_left_iff]
      split
      next hempty =>
        constructor
        · rintro ⟨⟩
          exact ⟨rfl, hempty⟩
        · rintro ⟨rfl, -⟩
          rfl
      next hleft =>
        refine ⟨nofun, ?_⟩
        rintro ⟨rfl, htext⟩
        exact absurd htext hleft
  | cons entry entries ih =>
      simp only [parseRenderedSections, bind_eq_ok, pure_eq_ok, Prod.exists,
        takeSection_eq_ok, takeSeparator_eq_ok, ih]
      constructor
      · rintro ⟨heading, text', after, ⟨hentry, rfl⟩, left, rfl, parts, ⟨hparts, rfl⟩, rfl⟩
        refine ⟨.cons hentry hparts, ?_⟩
        have hempty : entries.isEmpty = parts.isEmpty := by cases hparts <;> rfl
        rw [renderParts_cons, renderPartsRest_eq, hempty]
      · rintro ⟨hall, rfl⟩
        cases hall with
        | @cons _ part _ parts hentry hparts =>
            have hempty : entries.isEmpty = parts.isEmpty := by cases hparts <;> rfl
            refine ⟨part.1, part.2, renderPartsRest parts, ⟨hentry, rfl⟩, renderParts parts, ?_,
              parts, ⟨hparts, rfl⟩, rfl⟩
            rw [renderPartsRest_eq, hempty]

-- ============================================================== integrity

theorem sectionDiagnostics_not_fatal {P : Python} {sections : List PromptSection}
    {normalized : List (Text × String)} {issue : DomainError}
    (h : issue ∈ sectionDiagnostics P normalized sections) :
    endsWith "hash_mismatch" issue.code = false := by
  induction sections generalizing normalized with
  | nil => cases h
  | cons s sections ih =>
      rw [sectionDiagnostics] at h
      rcases List.mem_append.mp h with h | h
      · rcases List.mem_append.mp h with h | h
        · split at h
          next =>
            split at h
            next => cases h
            next =>
              rw [List.mem_singleton.mp h]
              show endsWith "hash_mismatch" "prompt.duplicate_block" = false
              rfl
          next => cases h
        · split at h
          next =>
            rw [List.mem_singleton.mp h]
            show endsWith "hash_mismatch" "prompt.unresolved_marker" = false
            rfl
          next => cases h
      · exact ih h

/-- A packet that is the one of its manifest has no fatal issue. -/
theorem fatalIssues_eq_nil {P : Python} {S : Sha256} {compiled : CompiledPrompt}
    (h : sha256 S compiled.text = compiled.manifest.packetSha256) :
    fatalIssues P S compiled = [] := by
  unfold fatalIssues lintPacket
  rw [List.filter_eq_nil_iff]
  intro issue hissue
  rw [Bool.not_eq_true]
  simp only [h, ne_eq, not_true_eq_false, if_false, List.append_assoc, List.mem_append,
    List.mem_map, List.not_mem_nil, false_or] at hissue
  rcases hissue with ⟨_, -, rfl⟩ | hsection | hbudget | hcount | ⟨_, -, rfl⟩
  · exact (rfl : endsWith "hash_mismatch" "prompt.duplicate_section" = false)
  · exact sectionDiagnostics_not_fatal hsection
  · split at hbudget
    next =>
      rw [List.mem_singleton.mp hbudget]
      rfl
    next => cases hbudget
  · split at hcount
    next =>
      rw [List.mem_singleton.mp hcount]
      rfl
    next => cases hcount
  · exact (rfl : endsWith "hash_mismatch" "prompt.validation_duplicate" = false)

-- ================================================================ records

/-- What the manifest records of a section that its reader compares with the
packet. -/
def recordOf (S : Sha256) (part : Rendered) : Json × Json × Json :=
  (.str part.1, .int part.2.length, .str (sha256 S part.2))

/-- The heading, the character count and the digest of an entry. -/
def entryRecord : Json → Json × Json × Json
  | .obj raw =>
      (Fields.get raw "heading", Fields.get raw "characters", Fields.get raw "sha256")
  | _ => (.null, .null, .null)

/-- What the manifest in a job's metadata records of its sections. -/
def sectionRecords (metadata : Fields) : List (Json × Json × Json) :=
  match metadata.get "prompt_manifest" with
  | .obj raw =>
      match Fields.get raw "sections" with
      | .arr entries => entries.map entryRecord
      | _ => []
  | _ => []

/-- The sections of a packet, as they are rendered. -/
def CompiledPrompt.parts (compiled : CompiledPrompt) : List Rendered :=
  compiled.sections.map fun s => (s.heading, s.text)

theorem loadSection_eq_ok {P : Python} {S : Sha256} {entry : Json} {part : Rendered}
    {loaded : PromptSection} :
    loadSection P S entry part = .ok loaded ↔
      ∃ (raw : Fields) (id : String), entry = .obj raw ∧ (raw.get "id" = .str id ∧ id ≠ "") ∧
        (raw.get "heading" = .str part.1 ∧ part.1 ≠ "") ∧
        raw.get "sha256" = .str (sha256 S part.2) ∧ storedSection P raw id part = loaded := by
  simp only [loadSection, bind_eq_ok, pure_eq_ok, demand_eq_ok, sectionEntry_eq_ok,
    manifestString_eq_ok]
  constructor
  · rintro ⟨raw, hraw, id, hid, heading, hheading, -, hsame, -, hsha, hloaded⟩
    subst hsame
    exact ⟨raw, id, hraw, hid, hheading, hsha, hloaded⟩
  · rintro ⟨raw, id, hraw, hid, hheading, hsha, hloaded⟩
    exact ⟨raw, hraw, id, hid, part.1, hheading, (), rfl, (), hsha, hloaded⟩

/-- An entry that measures a section and lets it be loaded records it. -/
theorem entryRecord_eq {P : Python} {S : Sha256} {entry : Json} {part : Rendered}
    {loaded : PromptSection} (hmeasures : Measures entry part)
    (hload : loadSection P S entry part = .ok loaded) :
    entryRecord entry = recordOf S part := by
  obtain ⟨raw, rfl, hheading, -, hcharacters⟩ := hmeasures
  obtain ⟨raw, id, ⟨⟩, -, -, hsha, -⟩ := loadSection_eq_ok.mp hload
  show (raw.get "heading", raw.get "characters", raw.get "sha256") = recordOf S part
  rw [hheading, hcharacters, hsha]
  rfl

theorem records_of_loaded {P : Python} {S : Sha256} {entries : List Json}
    {parts : List Rendered} {sections : List PromptSection}
    (hmeasures : List.Forall₂ Measures entries parts)
    (hloaded : List.Forall₂ (fun e s => loadSection P S e.1 e.2 = .ok s)
      (entries.zip parts) sections) :
    entries.map entryRecord = parts.map (recordOf S) := by
  induction hmeasures generalizing sections with
  | nil => rfl
  | cons hentry _ ih =>
      rw [List.zip_cons_cons] at hloaded
      cases hloaded with
      | cons hfirst hrest => rw [List.map_cons, List.map_cons, ih hrest, entryRecord_eq hentry hfirst]

-- ========================================================== reading packets

/-- What a packet that is read back is made of. -/
theorem of_load {P : Python} {S : Sha256} {metadata : Fields} {compiled : CompiledPrompt}
    (h : compiledPromptFromMetadata P S metadata = .ok compiled) :
    ∃ (packet : String) (parts : List Rendered),
      metadata.get "prompt_packet" = .str packet ∧
      metadata.get "prompt_packet_sha256" = .str (S.hexdigest packet) ∧
      packet.toList = renderParts parts ∧
      sectionRecords metadata = parts.map (recordOf S) := by
  unfold compiledPromptFromMetadata at h
  split at h
  next packet raw expected hpacket hmanifest hdigest =>
    obtain ⟨_, hsha, h⟩ := bind_eq_ok.mp h
    obtain ⟨_, -, h⟩ := bind_eq_ok.mp h
    split at h
    next entries hentries =>
      obtain ⟨parts, hparts, h⟩ := bind_eq_ok.mp h
      obtain ⟨_, -, h⟩ := bind_eq_ok.mp h
      obtain ⟨sections, hsections, -⟩ := bind_eq_ok.mp h
      obtain ⟨hmeasures, htext⟩ := parse_eq_ok.mp hparts
      refine ⟨packet, parts, hpacket, ?_, htext, ?_⟩
      · rw [hdigest, demand_eq_ok.mp hsha]
      · unfold sectionRecords
        rw [hmanifest]
        simp only [hentries]
        exact records_of_loaded hmeasures (mapM_eq_ok.mp hsections)
    next => cases h
  next => cases h

/-- The manifest's own fields are as a stored packet has them. -/
structure HeadSound (S : Sha256) (metadata raw : Fields) (packet : String) : Prop where
  version : ∃ n, raw.get "compiler_version" = .int n ∧ 1 ≤ n
  packetType : ∃ s, raw.get "packet_type" = .str s ∧ s ≠ ""
  contract : ∃ s, raw.get "execution_contract_sha256" = .str s ∧ s ≠ "" ∧
    ∀ sha, metadata.get "execution_contract_sha256" = .str sha → sha = s
  digest : raw.get "packet_sha256" = .str (S.hexdigest packet)
  characters : raw.get? "characters" = some (.int packet.toList.length)
  budget : ∃ n, raw.get "character_budget" = .int n ∧ 1 ≤ n
  omissions : ∃ texts, raw.get "optional_omissions" = strings texts

theorem manifestOmissions_strings (texts : List String) :
    manifestOmissions (strings texts) = .ok texts := by
  unfold manifestOmissions strings
  simp only
  rw [mapM_eq_ok, List.forall₂_map_left_iff, List.forall₂_same]
  exact fun _ _ => rfl

theorem HeadSound.loads {S : Sha256} {metadata raw : Fields} {packet : String}
    (h : HeadSound S metadata raw packet) (entries : List Json) :
    checkManifest metadata raw packet.toList (S.hexdigest packet) = .ok () ∧
      ∃ manifest, loadManifest raw entries = .ok manifest ∧
        manifest.packetSha256 = S.hexdigest packet := by
  obtain ⟨n, hversion, hn⟩ := h.version
  obtain ⟨packetType, hpacketType, htyped⟩ := h.packetType
  obtain ⟨contract, hcontract, hfilled, hsame⟩ := h.contract
  obtain ⟨budget, hbudget, hpositive⟩ := h.budget
  obtain ⟨texts, homissions⟩ := h.omissions
  have hcharacters : raw.get "characters" = .int packet.toList.length := by
    unfold Fields.get
    rw [h.characters]
    rfl
  constructor
  · unfold checkManifest
    rw [h.characters]
    refine bind_eq_ok.mpr ⟨(), demand_eq_ok.mpr h.digest, bind_eq_ok.mpr ⟨(), ?_, ?_⟩⟩
    · rw [demand_eq_ok]
      simp [equalsInt]
    · split
      next sha hsha => rw [demand_eq_ok, hcontract, hsame sha hsha]
      next => rfl
  · refine ⟨⟨n, packetType, contract, entries.filterMap fun
        | .obj raw => some raw
        | _ => none, S.hexdigest packet, packet.toList.length, budget, texts⟩, ?_, rfl⟩
    unfold loadManifest
    simp only [bind_eq_ok, pure_eq_ok, manifestInt_eq_ok, manifestString_eq_ok]
    exact ⟨n, ⟨hversion, hn⟩, packetType, ⟨hpacketType, htyped⟩, contract,
      ⟨hcontract, hfilled⟩, _, ⟨h.digest, S.nonempty _⟩, _, ⟨hcharacters, by omega⟩, budget,
      ⟨hbudget, hpositive⟩, texts, by rw [homissions, manifestOmissions_strings], rfl⟩

/-- A packet is read back if its manifest divides its text into sections that
can be loaded. -/
theorem load_of_divided {P : Python} {S : Sha256} {metadata raw : Fields} {packet : String}
    {entries : List Json} {parts : List Rendered} {sections : List PromptSection}
    (hpacket : metadata.get "prompt_packet" = .str packet)
    (hmanifest : metadata.get "prompt_manifest" = .obj raw)
    (hdigest : metadata.get "prompt_packet_sha256" = .str (S.hexdigest packet))
    (hhead : HeadSound S metadata raw packet)
    (hentries : raw.get "sections" = .arr entries) (htext : packet.toList = renderParts parts)
    (hmeasures : List.Forall₂ Measures entries parts)
    (hloaded : List.Forall₂ (fun e s => loadSection P S e.1 e.2 = .ok s)
      (entries.zip parts) sections) :
    ∃ compiled, compiledPromptFromMetadata P S metadata = .ok compiled ∧
      compiled.text = packet.toList ∧ compiled.sections = sections := by
  obtain ⟨hcheck, manifest, hload, hsha⟩ := hhead.loads entries
  refine ⟨{ text := packet.toList, sections, manifest }, ?_, rfl, rfl⟩
  unfold compiledPromptFromMetadata
  rw [hpacket, hmanifest, hdigest]
  dsimp only
  rw [hentries]
  refine bind_eq_ok.mpr ⟨(), demand_eq_ok.mpr rfl, bind_eq_ok.mpr ⟨(), hcheck,
    bind_eq_ok.mpr ⟨parts, parse_eq_ok.mpr ⟨hmeasures, htext⟩, bind_eq_ok.mpr ⟨(),
      demand_eq_ok.mpr hmeasures.length_eq.symm, bind_eq_ok.mpr ⟨sections,
        mapM_eq_ok.mpr hloaded, bind_eq_ok.mpr ⟨manifest, hload, ?_⟩⟩⟩⟩⟩⟩
  have hintact : sha256 S packet.toList = manifest.packetSha256 := by
    unfold sha256
    rw [String.ofList_toList, hsha]
  rw [fatalIssues_eq_nil hintact]
  rfl

-- ========================================================= stored packets

/-- The metadata has the packet. -/
structure Stores (metadata : Fields) (compiled : CompiledPrompt) : Prop where
  packet : metadata.get "prompt_packet" = .str (String.ofList compiled.text)
  manifest : metadata.get "prompt_manifest" = compiled.manifest.toDict
  digest : metadata.get "prompt_packet_sha256" = .str compiled.manifest.packetSha256
  contract : ∀ sha, metadata.get "execution_contract_sha256" = .str sha →
    sha = compiled.manifest.executionContractSha256

/-- A section that can be recorded: it has a name and a heading. -/
structure Named (s : PromptSection) : Prop where
  named : s.id ≠ ""
  headed : s.heading ≠ ""

/-- A section with a line for its heading. -/
structure Titled (s : PromptSection) : Prop extends Named s where
  line : '\n' ∉ s.heading.toList

/-- What the compilers give to `_finalize`. -/
structure FromCompiler (contract : ExecutionContract) (packetType : String)
    (sections : List PromptSection) : Prop where
  titled : ∀ s ∈ sections, Titled s
  hashed : contract.sha256 ≠ ""
  typed : packetType ≠ ""

theorem finalize_eq_ok {P : Python} {S : Sha256} {contract : ExecutionContract}
    {packetType : String} {sections : List PromptSection} {compiled : CompiledPrompt}
    (h : finalize P S contract packetType sections = .ok compiled) :
    ∃ fitted omissions, fitTotalBudget contract sections = .ok (fitted, omissions) ∧
      compiled = packetOf S contract packetType fitted omissions := by
  obtain ⟨⟨fitted, omissions⟩, hfit, h⟩ := bind_eq_ok.mp h
  obtain ⟨diagnostics, -, h⟩ := bind_eq_ok.mp h
  refine ⟨fitted, omissions, hfit, ?_⟩
  split at h
  · exact (pure_eq_ok.mp h).symm
  · cases h

/-- Titles are kept where the sections are fitted. -/
theorem titled_fitted {contract : ExecutionContract} {sections fitted : List PromptSection}
    {omissions : List String} (hfit : fitTotalBudget contract sections = .ok (fitted, omissions))
    (h : ∀ s ∈ sections, Titled s) : ∀ s ∈ fitted, Titled s := by
  intro s hs
  have hmem : (s.id, s.heading) ∈ sections.map fun s => (s.id, s.heading) := by
    rw [← fit_titles hfit]
    exact List.mem_map_of_mem (f := fun s => (s.id, s.heading)) hs
  obtain ⟨t, ht, hsame⟩ := List.mem_map.mp hmem
  obtain ⟨hid, hheading⟩ := Prod.mk.inj hsame
  obtain ⟨⟨hnamed, hheaded⟩, hline⟩ := h t ht
  exact ⟨⟨hid ▸ hnamed, hheading ▸ hheaded⟩, hheading ▸ hline⟩

/-- The entry of a section measures it. -/
theorem measures_manifestEntry (S : Sha256) {s : PromptSection} (h : Named s) :
    Measures (.obj (manifestEntry S s)) (s.heading, s.text) :=
  ⟨manifestEntry S s, rfl, rfl, h.headed, rfl⟩

/-- A section comes back from its entry. -/
theorem loadSection_manifestEntry (P : Python) (S : Sha256) {s : PromptSection} (h : Named s) :
    ∃ loaded, loadSection P S (.obj (manifestEntry S s)) (s.heading, s.text) = .ok loaded ∧
      loaded.id = s.id ∧ loaded.heading = s.heading ∧ loaded.text = s.text ∧
      loaded.budget = s.budget := by
  refine ⟨_, loadSection_eq_ok.mpr ⟨manifestEntry S s, s.id, rfl, ⟨rfl, h.named⟩,
    ⟨rfl, h.headed⟩, rfl, rfl⟩, rfl, rfl, rfl, ?_⟩
  have hbudget : (manifestEntry S s : Fields).get "budget" = (s.budget.map Json.int).getD .null :=
    rfl
  unfold storedSection
  dsimp only
  rw [hbudget]
  cases s.budget with
  | none => rfl
  | some n => rfl

/-- The head of the manifest of a packet is sound. -/
theorem headSound_packetOf {S : Sha256} {contract : ExecutionContract} {packetType : String}
    {fitted : List PromptSection} {omissions : List String} {metadata : Fields} {raw : Fields}
    (hraw : (packetOf S contract packetType fitted omissions).manifest.toDict = .obj raw)
    (hcontract : ∀ sha, metadata.get "execution_contract_sha256" = .str sha →
      sha = contract.sha256)
    (hhashed : contract.sha256 ≠ "") (htyped : packetType ≠ "") :
    HeadSound S metadata raw (String.ofList (renderSections fitted)) := by
  obtain ⟨⟩ := hraw
  exact {
    version := ⟨promptCompilerVersion, rfl, by decide⟩
    packetType := ⟨packetType, rfl, htyped⟩
    contract := ⟨contract.sha256, rfl, hhashed, hcontract⟩
    digest := rfl
    characters := by
      rw [String.toList_ofList]
      rfl
    budget := ⟨totalBudget, rfl, by decide⟩
    omissions := ⟨omissions, rfl⟩ }

section Claim

variable (P : Python) (S : Sha256) (compiled : CompiledPrompt)

/-- What is compared of a section that was read back. -/
def PromptSection.core (s : PromptSection) : String × String × Text × Option Int :=
  (s.id, s.heading, s.text, s.budget)

/-- A stored packet is read back as it was. -/
def ReadsBack : Prop :=
  ∀ metadata, Stores metadata compiled →
    ∃ loaded, compiledPromptFromMetadata P S metadata = .ok loaded ∧
      loaded.text = compiled.text ∧
      loaded.sections.map (·.core) = compiled.sections.map (·.core)

/-- What is recorded of the sections of a packet. -/
def CompiledPrompt.records : List (Json × Json × Json) :=
  compiled.parts.map (recordOf S)

/-- With the same packet hash, a changed text and a changed record are
refused. -/
def CannotBeAltered : Prop :=
  ∀ metadata loaded,
    metadata.get "prompt_packet_sha256" = .str compiled.manifest.packetSha256 →
    compiledPromptFromMetadata P S metadata = .ok loaded →
    metadata.get "prompt_packet" = .str (String.ofList compiled.text) ∧
      sectionRecords metadata = compiled.records S

/-- The records are those of a division of the text into sections. -/
def Divides (text : Text) (records : List (Json × Json × Json)) : Prop :=
  ∃ parts : List Rendered, renderParts parts = text ∧ records = parts.map (recordOf S)

/-- With the same packet hash a changed text is refused, and a changed record
is refused unless both lengths and digests were changed, to those of another
division of the text. -/
def AlteredOnlyByDivision : Prop :=
  ∀ metadata loaded,
    metadata.get "prompt_packet_sha256" = .str compiled.manifest.packetSha256 →
    compiledPromptFromMetadata P S metadata = .ok loaded →
    metadata.get "prompt_packet" = .str (String.ofList compiled.text) ∧
      Divides S compiled.text (sectionRecords metadata) ∧
      ((sectionRecords metadata).map (·.2.1) = (compiled.records S).map (·.2.1) ∨
          (sectionRecords metadata).map (·.2.2) = (compiled.records S).map (·.2.2) →
        sectionRecords metadata = compiled.records S)

end Claim

-- ============================================================= reading back

/-- All sections come back from their entries. -/
theorem load_manifestEntries (P : Python) (S : Sha256) {sections : List PromptSection}
    (h : ∀ s ∈ sections, Named s) :
    ∃ loaded, List.Forall₂ (fun e s => loadSection P S e.1 e.2 = .ok s)
        (sections.map fun s => (Json.obj (manifestEntry S s), (s.heading, s.text))) loaded ∧
      loaded.map (·.core) = sections.map (·.core) := by
  induction sections with
  | nil => exact ⟨[], .nil, rfl⟩
  | cons s sections ih =>
      obtain ⟨rest, hrest, hcores⟩ := ih fun t ht => h t (List.mem_cons_of_mem _ ht)
      obtain ⟨first, hfirst, hid, hheading, htext, hbudget⟩ :=
        loadSection_manifestEntry P S (h s List.mem_cons_self)
      refine ⟨first :: rest, .cons hfirst hrest, ?_⟩
      rw [List.map_cons, List.map_cons, hcores]
      unfold PromptSection.core
      rw [hid, hheading, htext, hbudget]

theorem readsBack_of_packetOf (P : Python) {S : Sha256} {contract : ExecutionContract}
    {packetType : String} {fitted : List PromptSection} {omissions : List String}
    (hnamed : ∀ s ∈ fitted, Named s) (hhashed : contract.sha256 ≠ "")
    (htyped : packetType ≠ "") :
    ReadsBack P S (packetOf S contract packetType fitted omissions) := by
  intro metadata hstores
  obtain ⟨raw, hraw⟩ : ∃ raw,
      (packetOf S contract packetType fitted omissions).manifest.toDict = .obj raw := ⟨_, rfl⟩
  have hentries : Fields.get raw "sections" = .arr (fitted.map fun s => .obj (manifestEntry S s)) := by
    obtain ⟨⟩ := hraw
    show Json.arr ((fitted.map (manifestEntry S)).map .obj) = _
    rw [List.map_map]
    rfl
  have hparts : renderSections fitted = renderParts (fitted.map fun s => (s.heading, s.text)) :=
    renderSections_eq fitted
  have hmeasures : List.Forall₂ Measures (fitted.map fun s => .obj (manifestEntry S s))
      (fitted.map fun s => (s.heading, s.text)) := by
    rw [List.forall₂_map_left_iff, List.forall₂_map_right_iff, List.forall₂_same]
    exact fun s hs => measures_manifestEntry S (hnamed s hs)
  obtain ⟨sections, hloaded, hcores⟩ := load_manifestEntries P S hnamed
  rw [← List.zip_map'] at hloaded
  obtain ⟨loaded, hload, htext, hsections⟩ := load_of_divided hstores.packet
    (hstores.manifest.trans hraw) hstores.digest (headSound_packetOf hraw hstores.contract hhashed htyped) hentries
    (String.toList_ofList.trans hparts) hmeasures hloaded
  refine ⟨loaded, hload, ?_, ?_⟩
  · rw [htext]
    exact String.toList_ofList
  · exact (congrArg _ hsections).trans hcores

-- ============================================================= alterations

/-- Two divisions of one text into sections of the same lengths are the same,
if the headings of one are lines. -/
theorem parts_eq_of_lengths {own parts : List Rendered}
    (htext : renderParts own = renderParts parts) (hlines : ∀ part ∈ own, '\n' ∉ part.1.toList)
    (hlengths : List.Forall₂ (fun part other : Rendered => part.2.length = other.2.length)
      own parts) : own = parts := by
  have hsame : (own.map fun part => (part.1.toList, part.2)) =
      parts.map fun part => (part.1.toList, part.2) := by
    refine Headed.eq_of_render_eq (by decide) (by decide) ?_ ?_ htext
    · unfold Headed.SameLengths
      rw [List.forall₂_map_left_iff, List.forall₂_map_right_iff]
      exact hlengths
    · intro part hpart
      obtain ⟨first, hfirst, rfl⟩ := List.mem_map.mp hpart
      exact hlines first hfirst
  refine List.map_injective_iff.mpr ?_ hsame
  rintro ⟨heading, text⟩ ⟨heading', text'⟩ h
  obtain ⟨hheading, htext⟩ := Prod.mk.inj h
  exact Prod.ext (String.toList_inj.mp hheading) htext

/-- Sections that are recorded with the same lengths, or with the same
digests, have the same lengths. -/
theorem lengths_of_records {S : Sha256} {own parts : List Rendered}
    (h : (parts.map (recordOf S)).map (·.2.1) = (own.map (recordOf S)).map (·.2.1) ∨
      (parts.map (recordOf S)).map (·.2.2) = (own.map (recordOf S)).map (·.2.2)) :
    List.Forall₂ (fun part other : Rendered => part.2.length = other.2.length) own parts := by
  rcases h with h | h
  · rw [List.map_map, List.map_map, eq_comm, ← List.forall₂_eq_eq_eq,
      List.forall₂_map_left_iff, List.forall₂_map_right_iff] at h
    refine h.imp fun part other hsame => ?_
    exact Int.ofNat.inj (Json.int.inj hsame)
  · rw [List.map_map, List.map_map, eq_comm, ← List.forall₂_eq_eq_eq,
      List.forall₂_map_left_iff, List.forall₂_map_right_iff] at h
    refine h.imp fun part other hsame => ?_
    have htext := String.ofList_injective (S.injective (Json.str.inj hsame))
    rw [htext]

theorem alteredOnlyByDivision_of_packetOf (P : Python) {S : Sha256}
    {contract : ExecutionContract} {packetType : String} {fitted : List PromptSection}
    {omissions : List String} (htitled : ∀ s ∈ fitted, Titled s) :
    AlteredOnlyByDivision P S (packetOf S contract packetType fitted omissions) := by
  intro metadata loaded hdigest hload
  obtain ⟨packet, parts, hpacket, hsha, htext, hrecords⟩ := of_load hload
  rw [hsha] at hdigest
  have hsame : packet = String.ofList (renderSections fitted) :=
    S.injective (Json.str.inj hdigest)
  have hdivides : renderParts parts = renderSections fitted := by
    rw [← htext, hsame, String.toList_ofList]
  refine ⟨by rw [hpacket, hsame]; rfl, ⟨parts, hdivides, hrecords⟩, fun hkept => ?_⟩
  have hown : (packetOf S contract packetType fitted omissions).records S =
      (fitted.map fun s => (s.heading, s.text)).map (recordOf S) := rfl
  rw [hrecords, hown] at hkept ⊢
  rw [parts_eq_of_lengths (by rw [hdivides, renderSections_eq]) ?_ (lengths_of_records hkept)]
  intro part hpart
  obtain ⟨s, hs, rfl⟩ := List.mem_map.mp hpart
  exact (htitled s hs).line

/-- A stored packet is read back as it was, and with the same packet hash it
is only read as another division of the same text. -/
theorem stored_packet_resists (P : Python) (S : Sha256) {contract : ExecutionContract}
    {packetType : String} {sections : List PromptSection} {compiled : CompiledPrompt}
    (hfinal : finalize P S contract packetType sections = .ok compiled)
    (hfrom : FromCompiler contract packetType sections) :
    ReadsBack P S compiled ∧ AlteredOnlyByDivision P S compiled := by
  obtain ⟨fitted, omissions, hfit, rfl⟩ := finalize_eq_ok hfinal
  have htitled := titled_fitted hfit hfrom.titled
  exact ⟨readsBack_of_packetOf P (fun s hs => (htitled s hs).toNamed) hfrom.hashed hfrom.typed,
    alteredOnlyByDivision_of_packetOf P htitled⟩

/-- The compilers give nothing else to `_finalize`. -/
theorem fromCompiler_of_sectionsOf {P : Python} {contract : ExecutionContract}
    {evidence : Option ReviewEvidence} {sections : List PromptSection}
    (h : sectionsOf P contract evidence = .ok sections) (hhashed : contract.sha256 ≠ "") :
    FromCompiler contract
      (if isReviewTransition contract.transition then "self_review" else "implementation")
      sections := by
  refine ⟨fun s hs => ?_, hhashed, by split <;> decide⟩
  have hmem : (s.id, s.heading) ∈ sections.map fun s => (s.id, s.heading) :=
    List.mem_map_of_mem (f := fun s : PromptSection => (s.id, s.heading)) hs
  have hall : ∀ titles ∈ compilerTitles, ∀ title ∈ titles,
      title.1 ≠ "" ∧ title.2 ≠ "" ∧ '\n' ∉ title.2.toList := by decide +kernel
  obtain ⟨hnamed, hheaded, hline⟩ :=
    hall _ (compiledFrom_of_sectionsOf h).titles _ hmem
  exact ⟨⟨hnamed, hheaded⟩, hline⟩

-- ============================================================= an example

mutual

/-- Every digest the leak check looks for has 64 digits. -/
theorem length_auditHashesOf : ∀ (v : Json) (key : String),
    ∀ identity ∈ auditHashesOf key v, identity.length = 64
  | .obj fields, _, identity, h => length_auditHashesIn fields identity (by
      rw [auditHashesOf] at h
      exact h)
  | .str s, key, identity, h => by
      rw [auditHashesOf] at h
      split at h
      next hdigest =>
        rw [List.mem_singleton.mp h]
        exact of_decide_eq_true (Bool.and_eq_true_iff.mp hdigest).2
      next => cases h
  | .null, _, _, h => by cases h
  | .bool _, _, _, h => by cases h
  | .int _, _, _, h => by cases h
  | .float _, _, _, h => by cases h
  | .arr _, _, _, h => by cases h

theorem length_auditHashesIn : ∀ (fields : List (String × Json)),
    ∀ identity ∈ auditHashesIn fields, identity.length = 64
  | [], _, h => by cases h
  | (key, v) :: fields, identity, h => by
      rw [auditHashesIn] at h
      rcases List.mem_append.mp h with h | h
      · exact length_auditHashesOf v key identity h
      · exact length_auditHashesIn fields identity h

end

theorem infix_of_occurs {part text : Text} (h : occurs part text = true) : part <:+: text := by
  unfold occurs at h
  obtain ⟨tail, htail, hlead⟩ := List.any_eq_true.mp h
  exact List.infix_iff_prefix_suffix.mpr
    ⟨tail, List.isPrefixOf_iff_prefix.mp hlead, (List.mem_tails _ _).mp htail⟩

/-- A contract without checks, files and excerpts. -/
def plainContract : ExecutionContract :=
  { crowdedContract with
    sourceTask := { crowdedContract.sourceTask with body := "" }
    contextExcerpts := []
    contextFiles := [] }

/-- A section of two paragraphs. -/
def twoParagraphs : PromptSection where
  id := "completion_submission"
  heading := "Completion Submission"
  text := ['A', '\n', '\n'] ++ "\x60\x60\x60sh\ncurl -sS -X POST".toList
  sourceKind := "runtime"
  sourceRef := "completion_api"
  selectionReason := "Provides the sole completion mechanism."
  budget := some 900

/-- The strings of the example as they are. -/
def plainPython : Python := ⟨id, id, Char.isAlphanum, strictBuiltins⟩

theorem twoParagraphs_text : renderSections [twoParagraphs] =
    ['#', '#', ' ', 'C', 'o', 'm', 'p', 'l', 'e', 't', 'i', 'o', 'n', ' ', 'S', 'u', 'b', 'm', 'i',
      's', 's', 'i', 'o', 'n', '\n', '\n', 'A', '\n', '\n', '\x60', '\x60', '\x60', 's', 'h', '\n',
      'c', 'u', 'r', 'l', ' ', '-', 's', 'S', ' ', '-', 'X', ' ', 'P', 'O', 'S', 'T'] := by
  unfold renderSections twoParagraphs
  rw [String.toList_ofList, String.toList_ofList]
  rfl

theorem twoParagraphs_fits : Fits [twoParagraphs] := by
  unfold Fits
  rw [twoParagraphs_text]
  decide

/-- The section passes the lint of its packet. -/
theorem twoParagraphs_lint : lintPacket plainPython unaryDigest
    (packetOf unaryDigest plainContract "implementation" [twoParagraphs] []) = [] := by
  have hmarker : unresolvedMarker plainPython none twoParagraphs.text = false := by
    unfold twoParagraphs
    rw [String.toList_ofList]
    rfl
  have hsections : sectionDiagnostics plainPython [] [twoParagraphs] = [] := by
    unfold sectionDiagnostics
    dsimp only [List.lookup_nil]
    rw [if_neg fun h => Bool.false_ne_true (hmarker.symm.trans h.2)]
    rfl
  have hcount : count "curl -sS -X POST" (renderSections [twoParagraphs]) = 1 := by
    unfold count
    rw [twoParagraphs_text, String.toList_ofList]
    rfl
  have hlength : ¬ ((totalBudget : Int) < (renderSections [twoParagraphs]).length) := by
    rw [twoParagraphs_text]
    decide
  have hvalidation : textOf "required_validation" [twoParagraphs] = [] := rfl
  have hlines : (splitlines []).filter (fun line => "- ".toList.isPrefixOf (strip line)) = [] := by
    rfl
  unfold lintPacket packetOf
  dsimp only
  rw [hsections, hvalidation, hlines, if_neg (not_not.mpr rfl), if_neg hlength, hcount,
    if_neg (not_not.mpr rfl)]
  rfl

theorem twoParagraphs_lintContract : lintContract plainPython unaryDigest
    (packetOf unaryDigest plainContract "implementation" [twoParagraphs] []) plainContract =
      .ok [] := by
  obtain ⟨document, hdocument⟩ : ∃ document,
      executionContractToDict unaryDigest plainContract = .ok document := ⟨_, rfl⟩
  have hleak : (auditHashesIn document).any
      (fun identity => occurs identity.toList (renderSections [twoParagraphs])) = false := by
    rw [List.any_eq_false]
    intro identity hidentity hoccurs
    have hle := (infix_of_occurs hoccurs).length_le
    have hlength := length_auditHashesIn document identity hidentity
    rw [twoParagraphs_text, String.length_toList, hlength] at hle
    exact absurd hle (by decide)
  have hfences : shellFences (renderSections [twoParagraphs]) = 1 := by
    rw [twoParagraphs_text]
    rfl
  have hpaths : readingContextPaths (textOf "required_reading" [twoParagraphs]) = [] := by
    rfl
  have hbody : strip plainContract.sourceTask.body.toList = [] := rfl
  unfold lintContract packetOf
  rw [hdocument]
  refine bind_eq_ok.mpr ⟨document, rfl, ?_⟩
  dsimp only
  rw [hleak, hfences, hpaths, hbody, if_neg (not_not.mpr rfl), if_neg Bool.false_ne_true,
    if_neg fun h => h.1 rfl, if_neg (not_not.mpr rfl)]
  rfl

theorem twoParagraphs_final :
    finalize plainPython unaryDigest plainContract "implementation" [twoParagraphs] =
      .ok (packetOf unaryDigest plainContract "implementation" [twoParagraphs] []) := by
  have htrimmed : trimOptional optionalTrimOrder [twoParagraphs] = ([twoParagraphs], []) := by
    unfold optionalTrimOrder
    rw [trimOptional, if_pos twoParagraphs_fits]
  have hdropped : dropExcerpts plainContract [twoParagraphs] = ([twoParagraphs], []) := by
    unfold dropExcerpts
    rw [if_pos twoParagraphs_fits]
  have hfit : fitTotalBudget plainContract [twoParagraphs] = .ok ([twoParagraphs], []) := by
    unfold fitTotalBudget
    rw [htrimmed]
    dsimp only
    rw [hdropped]
    exact if_pos twoParagraphs_fits
  unfold finalize
  rw [hfit, ok_bind]
  dsimp only
  rw [twoParagraphs_lintContract, ok_bind, twoParagraphs_lint]
  rfl

theorem twoParagraphs_fromCompiler :
    FromCompiler plainContract "implementation" [twoParagraphs] where
  titled := by
    rw [List.forall_mem_singleton]
    exact ⟨⟨by decide, by decide⟩, by decide +kernel⟩
  hashed := by
    show "0" ≠ ""
    decide
  typed := by decide

/-- The metadata with a packet and nothing else. -/
def metadataOf (compiled : CompiledPrompt) : Fields := [
  ("prompt_packet", .str (String.ofList compiled.text)),
  ("prompt_manifest", compiled.manifest.toDict),
  ("prompt_packet_sha256", .str compiled.manifest.packetSha256)]

theorem stores_metadataOf (compiled : CompiledPrompt) : Stores (metadataOf compiled) compiled where
  packet := rfl
  manifest := rfl
  digest := rfl
  contract := nofun

/-- The section with its first paragraph as a part of its heading. -/
def firstParagraphAbove : PromptSection :=
  { twoParagraphs with
    heading := "Completion Submission\n\nA"
    text := "\x60\x60\x60sh\ncurl -sS -X POST".toList }

theorem render_firstParagraphAbove :
    renderSections [firstParagraphAbove] = renderSections [twoParagraphs] := by
  rw [twoParagraphs_text]
  unfold renderSections firstParagraphAbove
  rw [List.map_singleton, String.toList_ofList, String.toList_ofList]
  rfl

/-- The first paragraph of a section moves into its heading, the length and
the digest of the section change with it, and the packet is still accepted. -/
theorem divided_elsewhere_is_accepted :
    finalize plainPython unaryDigest plainContract "implementation" [twoParagraphs] =
        .ok (packetOf unaryDigest plainContract "implementation" [twoParagraphs] []) ∧
      ¬ CannotBeAltered plainPython unaryDigest
        (packetOf unaryDigest plainContract "implementation" [twoParagraphs] []) := by
  refine ⟨twoParagraphs_final, fun hclaim => ?_⟩
  have hnamed : ∀ s ∈ [firstParagraphAbove], Named s := by
    rw [List.forall_mem_singleton]
    exact ⟨by decide, by decide⟩
  have hsame : (packetOf unaryDigest plainContract "implementation"
      [firstParagraphAbove] []).manifest.packetSha256 =
        (packetOf unaryDigest plainContract "implementation"
          [twoParagraphs] []).manifest.packetSha256 :=
    congrArg (sha256 unaryDigest) render_firstParagraphAbove
  have hstores := stores_metadataOf (packetOf unaryDigest plainContract "implementation"
    [firstParagraphAbove] [])
  obtain ⟨loaded, hload, -⟩ := readsBack_of_packetOf plainPython hnamed
    twoParagraphs_fromCompiler.hashed twoParagraphs_fromCompiler.typed _ hstores
  obtain ⟨-, hrecords⟩ := hclaim _ loaded (hstores.digest.trans (congrArg Json.str hsame)) hload
  have hheading : "Completion Submission\n\nA" = "Completion Submission" :=
    Json.str.inj (Prod.mk.inj (List.cons.inj hrecords).1).1
  exact absurd hheading (by decide)

/-- The packet of the example is read back, and resists other changes. -/
theorem twoParagraphs_resists :
    ReadsBack plainPython unaryDigest
        (packetOf unaryDigest plainContract "implementation" [twoParagraphs] []) ∧
      AlteredOnlyByDivision plainPython unaryDigest
        (packetOf unaryDigest plainContract "implementation" [twoParagraphs] []) :=
  stored_packet_resists plainPython unaryDigest twoParagraphs_final twoParagraphs_fromCompiler

end OpenTulid.Frozen.Prompt
