/-
The walk over linked documents: what its packet holds.

# The invariant

`Gathered` is kept by every turn of the loop: the documents have distinct
contents, every reference kept for a content leads to it, and every flag of
a document goes back to a link that leads to it. A required link of the
start is either still in the queue or its document is required
(`Gathered.settled`), so once the queue is empty a document is required if
and only if a required link leads to it (`required_iff`).
-/
import OpenTulid.Runtime.Context
import Mathlib

namespace OpenTulid

namespace LinkedContextResolver

variable {R : LinkedContextResolver} {A : AnswerRefs} {g g' : Gathering}
  {link : QueuedLink} {links queue start : List QueuedLink}

-- ======================================================== where links lead

/-- The content a reference leads to: its only candidate can be read. -/
def leadsTo (R : LinkedContextResolver) (ref : String) (digest : Digest) : Prop :=
  ∃ path text, R.resolveCandidates ref = [path] ∧
    R.readText ((R.file path).getD []) = .ok text ∧ digest = sha256 (utf8 text)

theorem leadsTo_unique {ref : String} {d d' : Digest} (h : R.leadsTo ref d)
    (h' : R.leadsTo ref d') : d = d' := by
  obtain ⟨path, text, hpath, htext, rfl⟩ := h
  obtain ⟨path', text', hpath', htext', rfl⟩ := h'
  rw [hpath] at hpath'
  cases hpath'
  rw [htext] at htext'
  cases htext'
  rfl

/-- Candidates depend on the clean reference only. -/
theorem leadsTo_congr {ref ref' : String} {d : Digest} (h : cleanRef ref = cleanRef ref')
    (hd : R.leadsTo ref d) : R.leadsTo ref' d := by
  obtain ⟨path, text, hpath, htext, hdigest⟩ := hd
  refine ⟨path, text, ?_, htext, hdigest⟩
  simpa only [resolveCandidates, h] using hpath

/-- A reference that leads anywhere has a name. -/
theorem cleanRef_ne_of_leadsTo {ref : String} {d : Digest} (h : R.leadsTo ref d) :
    cleanRef ref ≠ "" := by
  obtain ⟨path, -, hpath, -⟩ := h
  intro hempty
  simp [resolveCandidates, hempty] at hpath

-- ============================================================== references

/-- The references kept for another content are untouched. -/
theorem lookup_addReference_of_ne {d digest : Digest} {ref : String} (h : d ≠ digest)
    (references : List (Digest × List String)) :
    (addReference digest ref references).lookup d = references.lookup d := by
  have hne : (d == digest) = false := by simpa using h
  induction references with
  | nil => simp only [addReference, List.lookup, hne]
  | cons entry rest ih =>
      rw [addReference]
      split
      next heq => simp only [List.lookup, heq, hne]
      next => simp only [List.lookup, ih]

/-- The references kept for the content afterwards. -/
theorem lookup_addReference {digest : Digest} {ref : String}
    (references : List (Digest × List String)) :
    (addReference digest ref references).lookup digest = some (
      let refs := (references.lookup digest).getD []
      if ref ∈ refs then refs else refs ++ [ref]) := by
  induction references with
  | nil => simp [addReference]
  | cons entry rest ih =>
      obtain ⟨d, refs⟩ := entry
      rw [addReference]
      split
      next heq => simp [heq]
      next hne =>
        have hne' : (digest == d) = false := by simpa using fun h => hne h.symm
        simpa only [List.lookup, hne'] using ih

-- ================================================================ documents

/-- A further link to a content: no document has it, or the one that does is
linked. -/
theorem linkFirst_cases (digest : Digest) (ref : String) (required : Bool)
    (docs : List ContextDocument) :
    (linkFirst A digest ref required docs = none ∧ ∀ doc ∈ docs, doc.sha256 ≠ digest) ∨
    ∃ before doc after, docs = before ++ doc :: after ∧ doc.sha256 = digest ∧
      linkFirst A digest ref required docs =
        some (before ++ doc.linked A ref required :: after) := by
  induction docs with
  | nil => exact .inl ⟨rfl, by simp⟩
  | cons doc rest ih =>
      rw [linkFirst]
      split
      next heq => exact .inr ⟨[], doc, rest, rfl, heq, rfl⟩
      next hne =>
        rcases ih with ⟨hnone, hall⟩ | ⟨before, d, after, rfl, heq, hsome⟩
        · left
          rw [hnone]
          refine ⟨rfl, fun d hd => ?_⟩
          rcases List.mem_cons.mp hd with rfl | hd
          · exact hne
          · exact hall d hd
        · right
          exact ⟨doc :: before, d, after, rfl, heq, by rw [hsome]; rfl⟩

/-- What the flags of a document go back to. -/
structure Traced (R : LinkedContextResolver) (A : AnswerRefs) (start : List QueuedLink)
    (doc : ContextDocument) : Prop where
  content : R.leadsTo doc.ref doc.sha256
  contract : doc.isExecutionContract = isImplementationContractLink doc.ref
  canonical : doc.isCanonicalQuestionRoundAnswers = true →
    ∃ ref, cleanRef ref ∈ A.canonical ∧ isImplementationTaskFileLink ref = false ∧
      R.leadsTo ref doc.sha256
  required : doc.required = true → ∃ link ∈ start, link.required = true ∧
    isImplementationTaskFileLink link.ref = false ∧ R.leadsTo link.ref doc.sha256

/-- A further link to the content keeps the flags traced. -/
theorem Traced.linked {doc : ContextDocument} (h : Traced R A start doc)
    (hlead : R.leadsTo link.ref doc.sha256)
    (hfile : isImplementationTaskFileLink link.ref = false)
    (hstart : link.required = true → link ∈ start) :
    Traced R A start (doc.linked A link.ref link.required) where
  content := h.content
  contract := h.contract
  canonical := fun hflag => by
    simp only [ContextDocument.linked, Bool.or_eq_true, decide_eq_true_eq] at hflag
    rcases hflag with hflag | hflag
    · exact h.canonical hflag
    · exact ⟨link.ref, hflag, hfile, hlead⟩
  required := fun hflag => by
    simp only [ContextDocument.linked, Bool.or_eq_true] at hflag
    rcases hflag with hflag | hflag
    · exact h.required hflag
    · exact ⟨link, hstart hflag, hflag, hfile, hlead⟩

-- ============================================================ the invariant

/-- What holds of a gathering while a queue waits. -/
structure Gathered (R : LinkedContextResolver) (A : AnswerRefs) (start : List QueuedLink)
    (g : Gathering) (queue : List QueuedLink) : Prop where
  traced : ∀ doc ∈ g.docs, Traced R A start doc
  distinct : (g.docs.map (·.sha256)).Nodup
  hashes : ∀ path d, g.pathHashes.lookup path = some d →
    ∃ text, R.readText ((R.file path).getD []) = .ok text ∧ d = sha256 (utf8 text)
  seen : ∀ path ∈ g.seen, ∃ d, g.pathHashes.lookup path = some d ∧
    ∃ doc ∈ g.docs, doc.sha256 = d
  references : ∀ d refs, g.references.lookup d = some refs →
    refs ≠ [] ∧ ∀ ref ∈ refs, R.leadsTo ref d
  named : ∀ doc ∈ g.docs, (g.references.lookup doc.sha256).isSome = true
  fromStart : ∀ link ∈ queue, link.required = true → link ∈ start
  settled : ∀ link ∈ start, link.required = true → link ∈ queue ∨ g.errors ≠ [] ∨
    isImplementationTaskFileLink link.ref = true ∨
    ∃ doc ∈ g.docs, doc.required = true ∧ R.leadsTo link.ref doc.sha256

namespace Gathered

/-- Nothing is gathered at the start. -/
theorem initial (R : LinkedContextResolver) (A : AnswerRefs) (start : List QueuedLink) :
    Gathered R A start {} start where
  traced := by simp
  distinct := List.nodup_nil
  hashes := by simp
  seen := by simp
  references := by simp
  named := by simp
  fromStart := fun _ h _ => h
  settled := fun _ h _ => .inl h

/-- An error settles every link. -/
theorem withError (h : Gathered R A start g (link :: queue)) (e : DomainError) :
    Gathered R A start (g.withError e) queue where
  traced := h.traced
  distinct := h.distinct
  hashes := h.hashes
  seen := h.seen
  references := h.references
  named := h.named
  fromStart := fun l hl => h.fromStart l (List.mem_cons_of_mem _ hl)
  settled := fun _ _ _ => .inr (.inl (by simp [Gathering.withError]))

/-- A link that is passed over. -/
theorem skip (h : Gathered R A start g (link :: queue))
    (hlink : link ∈ start → link.required = true → g.errors ≠ [] ∨
      isImplementationTaskFileLink link.ref = true ∨
      ∃ doc ∈ g.docs, doc.required = true ∧ R.leadsTo link.ref doc.sha256) :
    Gathered R A start g queue :=
  { h with
    fromStart := fun l hl => h.fromStart l (List.mem_cons_of_mem _ hl)
    settled := fun l hl hrequired => by
      rcases h.settled l hl hrequired with hmem | hdone
      · rcases List.mem_cons.mp hmem with rfl | hmem
        · exact .inr (hlink hl hrequired)
        · exact .inl hmem
      · exact .inr hdone }

/-- A reference kept for the content it leads to. -/
theorem addReference (h : Gathered R A start g queue) {ref : String} {digest : Digest}
    (hlead : R.leadsTo ref digest) :
    Gathered R A start { g with references := addReference digest ref g.references } queue :=
  { h with
    references := fun d refs hrefs => by
      by_cases hd : d = digest
      · subst hd
        rw [lookup_addReference] at hrefs
        obtain rfl := Option.some.inj hrefs
        have hold : ∀ r ∈ (g.references.lookup d).getD [], R.leadsTo r d := by
          cases hlookup : g.references.lookup d with
          | none => simp
          | some old => exact (h.references d old hlookup).2
        dsimp only
        split
        next hmem => exact ⟨List.ne_nil_of_mem hmem, hold⟩
        next =>
          refine ⟨by simp, fun r hr => ?_⟩
          rcases List.mem_append.mp hr with hr | hr
          · exact hold r hr
          · rw [List.mem_singleton.mp hr]
            exact hlead
      · rw [lookup_addReference_of_ne hd] at hrefs
        exact h.references d refs hrefs
    named := fun doc hdoc => by
      by_cases hd : doc.sha256 = digest
      · simp [hd, lookup_addReference]
      · simpa [lookup_addReference_of_ne hd] using h.named doc hdoc }

/-- A further link to a content that is taken in already. -/
theorem linked {before after : List ContextDocument} {doc : ContextDocument}
    (h : Gathered R A start g (link :: queue)) (hdocs : g.docs = before ++ doc :: after)
    (hlead : R.leadsTo link.ref doc.sha256)
    (hfile : isImplementationTaskFileLink link.ref = false) :
    Gathered R A start
      { g with docs := before ++ doc.linked A link.ref link.required :: after } queue where
  traced := fun d hd => by
    have hstart := h.fromStart link List.mem_cons_self
    rcases List.mem_append.mp hd with hd | hd
    · exact h.traced d (by rw [hdocs]; exact List.mem_append_left _ hd)
    · rcases List.mem_cons.mp hd with rfl | hd
      · exact (h.traced doc (by simp [hdocs])).linked hlead hfile hstart
      · exact h.traced d (by simp [hdocs, hd])
  distinct := by simpa [hdocs, ContextDocument.linked] using h.distinct
  hashes := h.hashes
  seen := fun path hpath => by
    obtain ⟨d, hd, doc', hdoc', rfl⟩ := h.seen path hpath
    refine ⟨doc'.sha256, hd, ?_⟩
    rw [hdocs] at hdoc'
    rcases List.mem_append.mp hdoc' with hmem | hmem
    · exact ⟨doc', List.mem_append_left _ hmem, rfl⟩
    · rcases List.mem_cons.mp hmem with rfl | hmem
      · exact ⟨_, List.mem_append_right _ List.mem_cons_self, rfl⟩
      · exact ⟨doc', by simp [hmem], rfl⟩
  references := h.references
  named := fun d hd => by
    rcases List.mem_append.mp hd with hd | hd
    · exact h.named d (by rw [hdocs]; exact List.mem_append_left _ hd)
    · rcases List.mem_cons.mp hd with rfl | hd
      · exact h.named doc (by simp [hdocs])
      · exact h.named d (by simp [hdocs, hd])
  fromStart := fun l hl => h.fromStart l (List.mem_cons_of_mem _ hl)
  settled := fun l hl hrequired => by
    rcases h.settled l hl hrequired with hmem | herrors | htask | ⟨d, hd, hreq, hleads⟩
    · rcases List.mem_cons.mp hmem with rfl | hmem
      · refine .inr (.inr (.inr ⟨doc.linked A l.ref l.required, by simp, ?_, hlead⟩))
        simp [ContextDocument.linked, hrequired]
      · exact .inl hmem
    · exact .inr (.inl herrors)
    · exact .inr (.inr (.inl htask))
    · rw [hdocs] at hd
      refine .inr (.inr (.inr ?_))
      rcases List.mem_append.mp hd with hd | hd
      · exact ⟨d, List.mem_append_left _ hd, hreq, hleads⟩
      · rcases List.mem_cons.mp hd with rfl | hd
        · exact ⟨_, List.mem_append_right _ List.mem_cons_self,
            by simp [ContextDocument.linked, hreq], hleads⟩
        · exact ⟨d, by simp [hd], hreq, hleads⟩

/-- `remember_reference` of a content that is taken in already. -/
theorem remember_true {digest : Digest} (h : Gathered R A start g (link :: queue))
    (hlead : R.leadsTo link.ref digest)
    (hfile : isImplementationTaskFileLink link.ref = false)
    (hremember : g.remember A digest link.ref link.required = (g', true)) :
    Gathered R A start g' queue ∧ ∃ doc ∈ g'.docs, doc.sha256 = digest := by
  have href := h.addReference hlead
  unfold Gathering.remember at hremember
  rcases linkFirst_cases (A := A) digest link.ref link.required g.docs with
    ⟨hnone, -⟩ | ⟨before, doc, after, hdocs, rfl, hsome⟩
  · simp only [hnone] at hremember
    cases hremember
  · simp only [hsome] at hremember
    cases hremember
    exact ⟨href.linked hdocs hlead hfile, _, List.mem_append_right _ List.mem_cons_self, rfl⟩

/-- `remember_reference` of a new content. -/
theorem remember_false {digest : Digest} (h : Gathered R A start g queue)
    (hlead : R.leadsTo link.ref digest)
    (hremember : g.remember A digest link.ref link.required = (g', false)) :
    Gathered R A start g' queue ∧ (∀ doc ∈ g'.docs, doc.sha256 ≠ digest) ∧
      (g'.references.lookup digest).isSome = true := by
  unfold Gathering.remember at hremember
  rcases linkFirst_cases (A := A) digest link.ref link.required g.docs with
    ⟨hnone, hall⟩ | ⟨before, doc, after, hdocs, rfl, hsome⟩
  · simp only [hnone] at hremember
    cases hremember
    exact ⟨h.addReference hlead, hall, by simp [lookup_addReference]⟩
  · simp only [hsome] at hremember
    cases hremember

/-- The digest of a path that is not seen yet. -/
theorem addHash {path : RelPath} {text : String} (h : Gathered R A start g queue)
    (hnew : path ∉ g.seen) (htext : R.readText ((R.file path).getD []) = .ok text) :
    Gathered R A start
      { g with pathHashes := (path, sha256 (utf8 text)) :: g.pathHashes } queue :=
  { h with
    hashes := fun p d hd => by
      simp only [List.lookup] at hd
      split at hd
      next heq =>
        obtain rfl : p = path := by simpa using heq
        exact ⟨text, htext, (Option.some.inj hd).symm⟩
      next => exact h.hashes p d hd
    seen := fun p hp => by
      have hne : (p == path) = false := by
        simpa using fun heq : p = path => hnew (heq ▸ hp)
      simpa only [List.lookup, hne] using h.seen p hp }

/-- A path whose content is taken in is seen. -/
theorem addSeen {path : RelPath} {d : Digest} (h : Gathered R A start g queue)
    (hpath : g.pathHashes.lookup path = some d) (hdoc : ∃ doc ∈ g.docs, doc.sha256 = d) :
    Gathered R A start { g with seen := g.seen ++ [path] } queue :=
  { h with
    seen := fun p hp => by
      rcases List.mem_append.mp hp with hp | hp
      · exact h.seen p hp
      · rw [List.mem_singleton.mp hp]
        exact ⟨d, hpath, hdoc⟩ }

/-- A document more, with its links. -/
theorem addDocument {doc : ContextDocument} (bytes : Nat) (links : List QueuedLink)
    (h : Gathered R A start g (link :: queue))
    (htraced : Traced R A start doc) (hrequired : link.required = true → doc.required = true)
    (hlead : R.leadsTo link.ref doc.sha256)
    (hnew : ∀ d ∈ g.docs, d.sha256 ≠ doc.sha256)
    (hnamed : (g.references.lookup doc.sha256).isSome = true)
    (hlinks : ∀ l ∈ links, l.required = false) :
    Gathered R A start { g with totalBytes := bytes, docs := g.docs ++ [doc] }
      (queue ++ links) where
  traced := fun d hd => by
    rcases List.mem_append.mp hd with hd | hd
    · exact h.traced d hd
    · rw [List.mem_singleton.mp hd]
      exact htraced
  distinct := by
    rw [List.map_append, List.nodup_append]
    refine ⟨h.distinct, List.nodup_singleton _, ?_⟩
    intro a ha b hb
    obtain ⟨d, hd, rfl⟩ := List.mem_map.mp ha
    rw [List.mem_singleton.mp hb]
    exact hnew d hd
  hashes := h.hashes
  seen := fun path hpath => by
    obtain ⟨d, hd, doc', hdoc', heq⟩ := h.seen path hpath
    exact ⟨d, hd, doc', List.mem_append_left _ hdoc', heq⟩
  references := h.references
  named := fun d hd => by
    rcases List.mem_append.mp hd with hd | hd
    · exact h.named d hd
    · rw [List.mem_singleton.mp hd]
      exact hnamed
  fromStart := fun l hl hreq => by
    rcases List.mem_append.mp hl with hl | hl
    · exact h.fromStart l (List.mem_cons_of_mem _ hl) hreq
    · rw [hlinks l hl] at hreq
      cases hreq
  settled := fun l hl hreq => by
    rcases h.settled l hl hreq with hmem | herrors | htask | ⟨d, hd, hdreq, hleads⟩
    · rcases List.mem_cons.mp hmem with rfl | hmem
      · exact .inr (.inr (.inr ⟨doc, List.mem_append_right _ List.mem_cons_self,
          hrequired hreq, hlead⟩))
      · exact .inl (List.mem_append_left _ hmem)
    · exact .inr (.inl herrors)
    · exact .inr (.inr (.inl htask))
    · exact .inr (.inr (.inr ⟨d, List.mem_append_left _ hd, hdreq, hleads⟩))

end Gathered

-- ================================================================= one turn

/-- What a turn keeps: the invariant, and the number of documents unless it
queues the links of a further one. -/
inductive TurnKeeps (R : LinkedContextResolver) (A : AnswerRefs) (start : List QueuedLink)
    (g : Gathering) (queue : List QueuedLink) : Turn → Prop where
  | next {g' : Gathering} (kept : Gathered R A start g' queue)
      (length : g'.docs.length = g.docs.length) : TurnKeeps R A start g queue (.next g')
  | queue {g' : Gathering} {links : List QueuedLink}
      (kept : Gathered R A start g' (queue ++ links))
      (room : g.docs.length < R.maxDocuments)
      (length : g'.docs.length = g.docs.length + 1) :
      TurnKeeps R A start g queue (.queue g' links)
  | stop {g' : Gathering} (failed : g'.errors ≠ []) : TurnKeeps R A start g queue (.stop g')

/-- A further link to a content leaves the number of documents. -/
theorem length_docs_remember (digest : Digest) (ref : String) (required : Bool) :
    (g.remember A digest ref required).1.docs.length = g.docs.length := by
  rcases linkFirst_cases (A := A) digest ref required g.docs with
    ⟨hnone, -⟩ | ⟨before, doc, after, hdocs, -, hsome⟩
  · simp only [Gathering.remember, hnone]
  · simp only [Gathering.remember, hsome]
    simp [hdocs]

/-- A content that is taken in is remembered. -/
theorem remember_eq_true {digest : Digest} {ref : String} {required : Bool}
    {doc : ContextDocument} (hdoc : doc ∈ g.docs) (heq : doc.sha256 = digest) :
    g.remember A digest ref required = ((g.remember A digest ref required).1, true) := by
  rcases linkFirst_cases (A := A) digest ref required g.docs with
    ⟨-, hall⟩ | ⟨before, d, after, -, -, hsome⟩
  · exact absurd heq (hall doc hdoc)
  · simp only [Gathering.remember, hsome]

/-- Nothing but the references and the documents is touched. -/
theorem pathHashes_remember (digest : Digest) (ref : String) (required : Bool) :
    (g.remember A digest ref required).1.pathHashes = g.pathHashes := by
  unfold Gathering.remember
  dsimp only
  split <;> rfl

/-- Taking a document in. -/
theorem keeps_take {g₀ : Gathering} {path : RelPath} {text : String}
    (hlength : g.docs.length = g₀.docs.length) (h : Gathered R A start g (link :: queue))
    (hfile : isImplementationTaskFileLink link.ref = false)
    (hlead : R.leadsTo link.ref (sha256 (utf8 text)))
    (hpath : g.pathHashes.lookup path = some (sha256 (utf8 text)))
    (hnew : ∀ doc ∈ g.docs, doc.sha256 ≠ sha256 (utf8 text))
    (hnamed : (g.references.lookup (sha256 (utf8 text))).isSome = true) :
    TurnKeeps R A start g₀ queue (R.take A g link path text) := by
  unfold take
  split
  next => exact .stop (by simp [Gathering.withError])
  next hroom =>
    split
    next => exact .stop (by simp [Gathering.withError])
    next =>
      have htraced : Traced R A start {
          ref := link.ref
          path := path
          content := text
          sha256 := sha256 (utf8 text)
          isExecutionContract := isImplementationContractLink link.ref
          isCanonicalQuestionRoundAnswers := cleanRef link.ref ∈ A.canonical
          isCurrentQuestionRoundAnswers := cleanRef link.ref = cleanRef A.current
          required := link.required } := {
        content := hlead
        contract := by simp only
        canonical := fun hflag => ⟨link.ref, of_decide_eq_true hflag, hfile, hlead⟩
        required := fun hflag =>
          ⟨link, h.fromStart link List.mem_cons_self hflag, hflag, hfile, hlead⟩ }
      have hdoc := h.addDocument (g.totalBytes + (utf8 text).length)
        ((wikiLinks text).map fun ref => ⟨ref, link.depth + 1, false⟩) htraced id hlead hnew hnamed (by simp)
      refine .queue ?_ (by omega) (by simp [hlength])
      exact hdoc.addSeen hpath ⟨_, List.mem_append_right _ List.mem_cons_self, rfl⟩

/-- What a turn can do: pass the link over, note an error, or remember the
reference of a content that is known or new. -/
theorem visit_cases {P : Turn → Prop}
    (passed : isImplementationTaskFileLink link.ref = true ∨ R.maxDepth < link.depth ∨
      link.required = false → P (.next g))
    (error : ∀ e, P (.next (g.withError e)))
    (seen : isImplementationTaskFileLink link.ref = false →
      ∀ path, R.resolveCandidates link.ref = [path] → path ∈ g.seen →
      P (.next (g.remember A ((g.pathHashes.lookup path).getD []) link.ref link.required).1))
    (known : isImplementationTaskFileLink link.ref = false →
      ∀ path text g', R.resolveCandidates link.ref = [path] → path ∉ g.seen →
      R.readText ((R.file path).getD []) = .ok text →
      Gathering.remember { g with pathHashes := (path, sha256 (utf8 text)) :: g.pathHashes }
        A (sha256 (utf8 text)) link.ref link.required = (g', true) →
      P (.next { g' with seen := g'.seen ++ [path] }))
    (new : isImplementationTaskFileLink link.ref = false →
      ∀ path text g', R.resolveCandidates link.ref = [path] → path ∉ g.seen →
      R.readText ((R.file path).getD []) = .ok text →
      Gathering.remember { g with pathHashes := (path, sha256 (utf8 text)) :: g.pathHashes }
        A (sha256 (utf8 text)) link.ref link.required = (g', false) →
      P (R.take A g' link path text)) :
    P (R.visit A g link) := by
  unfold visit
  split
  next hfile => exact passed (.inl hfile)
  next hfile =>
    have hfile : isImplementationTaskFileLink link.ref = false := eq_false_of_ne_true hfile
    split
    next hdeep => exact passed (.inr (.inl hdeep))
    next =>
      split
      next =>
        split
        next => exact error _
        next hoptional => exact passed (.inr (.inr (eq_false_of_ne_true hoptional)))
      next path hone =>
        split
        next hseen => exact seen hfile path hone hseen
        next hunseen =>
          split
          next => exact error _
          next text htext =>
            dsimp only
            split
            next g' hremember => exact known hfile path text g' hone hunseen htext hremember
            next g' hremember => exact new hfile path text g' hone hunseen htext hremember
      next => exact error _

/-- One turn of the loop keeps the invariant. -/
theorem keeps_visit (hdepth : ∀ l ∈ start, l.depth = 0)
    (h : Gathered R A start g (link :: queue)) :
    TurnKeeps R A start g queue (R.visit A g link) := by
  have hhashed := fun path text (hnew : path ∉ g.seen)
    (htext : R.readText ((R.file path).getD []) = .ok text) => h.addHash hnew htext
  refine visit_cases (P := TurnKeeps R A start g queue) ?passed ?error ?seen ?known ?new
  case passed =>
    intro hpassed
    refine .next (h.skip fun hstart hreq => ?_) rfl
    rcases hpassed with hfile | hdeep | hoptional
    · exact .inr (.inl hfile)
    · rw [hdepth link hstart] at hdeep
      exact absurd hdeep (Nat.not_lt_zero _)
    · rw [hoptional] at hreq
      cases hreq
  case error => exact fun e => .next (h.withError e) rfl
  case seen =>
    intro hfile path hone hseen
    obtain ⟨d, hd, doc, hdoc, heq⟩ := h.seen path hseen
    obtain ⟨text, htext, rfl⟩ := h.hashes path d hd
    refine .next ?_ (length_docs_remember _ _ _)
    rw [hd]
    exact (h.remember_true ⟨path, text, hone, htext, rfl⟩ hfile
      (remember_eq_true hdoc heq)).1
  case known =>
    intro hfile path text g' hone hunseen htext hremember
    have hlength := length_docs_remember (A := A) (sha256 (utf8 text)) link.ref link.required
      (g := { g with pathHashes := (path, sha256 (utf8 text)) :: g.pathHashes })
    have hpath := pathHashes_remember (A := A) (sha256 (utf8 text)) link.ref link.required
      (g := { g with pathHashes := (path, sha256 (utf8 text)) :: g.pathHashes })
    rw [hremember] at hlength hpath
    dsimp only at hlength hpath
    obtain ⟨hgathered, hdoc⟩ := (hhashed path text hunseen htext).remember_true
      ⟨path, text, hone, htext, rfl⟩ hfile hremember
    exact .next (hgathered.addSeen (by rw [hpath]; exact List.lookup_cons_self) hdoc) hlength
  case new =>
    intro hfile path text g' hone hunseen htext hremember
    have hlength := length_docs_remember (A := A) (sha256 (utf8 text)) link.ref link.required
      (g := { g with pathHashes := (path, sha256 (utf8 text)) :: g.pathHashes })
    have hpath := pathHashes_remember (A := A) (sha256 (utf8 text)) link.ref link.required
      (g := { g with pathHashes := (path, sha256 (utf8 text)) :: g.pathHashes })
    rw [hremember] at hlength hpath
    dsimp only at hlength hpath
    have hlead : R.leadsTo link.ref (sha256 (utf8 text)) := ⟨path, text, hone, htext, rfl⟩
    obtain ⟨hgathered, hnew, hnamed⟩ :=
      (hhashed path text hunseen htext).remember_false hlead hremember
    exact keeps_take hlength hgathered hfile hlead (by rw [hpath]; exact List.lookup_cons_self)
      hnew hnamed

-- ================================================================ the walk

/-- A turn keeps what holds of a gathering and its queue, or notes an
error. -/
inductive TurnTo (I : Gathering → List QueuedLink → Prop) (queue : List QueuedLink) :
    Turn → Prop where
  | next {g : Gathering} (kept : I g queue) : TurnTo I queue (.next g)
  | queue {g : Gathering} {links : List QueuedLink} (kept : I g (queue ++ links)) :
      TurnTo I queue (.queue g links)
  | stop {g : Gathering} (failed : g.errors ≠ []) : TurnTo I queue (.stop g)

/-- What is left of a walk: an error, or an empty queue with the invariant
and whatever else the turns keep. -/
def Ended (R : LinkedContextResolver) (A : AnswerRefs) (start : List QueuedLink)
    (I : Gathering → List QueuedLink → Prop) (g : Gathering) : Prop :=
  g.errors ≠ [] ∨ Gathered R A start g [] ∧ I g []

section Walk

variable {I : Gathering → List QueuedLink → Prop}
  (hkept : ∀ {g link queue}, Gathered R A start g (link :: queue) → I g (link :: queue) →
    TurnTo I queue (R.visit A g link))

include hkept

/-- The loop ends so when it does once a further document is taken in. -/
theorem ended_walkQueue {further : Gathering → List QueuedLink → Gathering}
    (hdepth : ∀ l ∈ start, l.depth = 0) {n : Nat}
    (hfurther : n < R.maxDocuments → ∀ g queue, Gathered R A start g queue → I g queue →
      g.docs.length = n + 1 → Ended R A start I (further g queue))
    (h : Gathered R A start g queue) (hi : I g queue) (hlength : g.docs.length = n) :
    Ended R A start I (R.walkQueue A further g queue) := by
  induction queue generalizing g with
  | nil =>
      rw [walkQueue]
      exact Or.inr ⟨h, hi⟩
  | cons link queue ih =>
      have hkeeps := keeps_visit hdepth h
      have hturn := hkept h hi
      rw [walkQueue]
      generalize R.visit A g link = turn at hkeeps hturn
      cases hkeeps with
      | next kept length =>
          cases hturn with
          | next hi' => exact ih kept hi' (length.trans hlength)
      | queue kept room length =>
          cases hturn with
          | queue hi' =>
              rw [hlength] at room length
              exact hfurther room _ _ kept hi' length
      | stop failed => exact .inl failed

/-- The walk ends so. -/
theorem ended_walk (hdepth : ∀ l ∈ start, l.depth = 0) {room : Nat}
    (h : Gathered R A start g queue) (hi : I g queue)
    (hroom : g.docs.length + room = R.maxDocuments) :
    Ended R A start I (R.walk A room g queue) := by
  induction room generalizing g queue with
  | zero =>
      rw [walk]
      refine ended_walkQueue hkept hdepth (fun hless => ?_) h hi hroom
      exact absurd hless (lt_irrefl _)
  | succ room ih =>
      rw [walk]
      refine ended_walkQueue hkept hdepth (fun _ g' queue' h' hi' hlength => ?_) h hi rfl
      exact ih h' hi' (by omega)

end Walk

/-- A turn keeps what holds of everything, unless it breaks. -/
theorem turnTo_true (hdepth : ∀ l ∈ start, l.depth = 0)
    (h : Gathered R A start g (link :: queue)) :
    TurnTo (fun _ _ => True) queue (R.visit A g link) := by
  have hkeeps := keeps_visit hdepth h
  generalize R.visit A g link = turn at hkeeps
  cases hkeeps with
  | next _ _ => exact .next trivial
  | queue _ _ _ => exact .queue trivial
  | stop failed => exact .stop failed

/-- Every link of the start queue stands at the task. -/
theorem depth_startQueue {task : Task} {parents : List Task} :
    ∀ l ∈ startQueue task parents, l.depth = 0 := by
  intro l hl
  simp only [startQueue, parentLinks, List.mem_append, List.mem_map, List.mem_flatMap] at hl
  rcases hl with ((⟨_, -, rfl⟩ | ⟨_, -, rfl⟩) | ⟨_, -, rfl⟩) | ⟨parent, -, ⟨_, -, rfl⟩ | ⟨_, -, rfl⟩⟩ <;>
    rfl

-- ============================================================== the packet

/-- What holds of an accepted packet. -/
structure PacketOf (R : LinkedContextResolver) (task : Task) (parents : List Task)
    (packet : ContextPacket) : Prop where
  traced : ∀ doc ∈ packet.documents,
    Traced R (answerRefs task parents) (startQueue task parents) doc
  distinct : (packet.documents.map (·.sha256)).Nodup
  references : ∀ doc ∈ packet.documents, ∃ refs,
    packet.references.lookup doc.sha256 = some refs ∧ refs ≠ [] ∧
      ∀ ref ∈ refs, R.leadsTo ref doc.sha256
  settled : ∀ link ∈ startQueue task parents, link.required = true →
    isImplementationTaskFileLink link.ref = true ∨
    ∃ doc ∈ packet.documents, doc.required = true ∧ R.leadsTo link.ref doc.sha256

/-- `build_context_packet` answers such packets. -/
theorem packetOf_of_accepted {task : Task} {parents : List Task} {packet : ContextPacket}
    (h : R.buildContextPacket task parents = .ok packet) : PacketOf R task parents packet := by
  unfold buildContextPacket at h
  split at h
  next => cases h
  next =>
    dsimp only at h
    split at h
    next => cases h
    next herrors =>
      have herrors : (R.gather task parents).errors = [] := not_not.mp herrors
      have hwalk : Ended R (answerRefs task parents) (startQueue task parents)
          (fun _ _ => True) (R.gather task parents) :=
        ended_walk (fun h _ => turnTo_true depth_startQueue h) depth_startQueue
          (Gathered.initial R _ _) trivial (by simp)
      cases h
      rcases hwalk with hfailed | ⟨hwalk, -⟩
      · exact absurd herrors hfailed
      · exact {
          traced := hwalk.traced
          distinct := hwalk.distinct
          references := fun doc hdoc => by
            obtain ⟨refs, hrefs⟩ := Option.isSome_iff_exists.mp (hwalk.named doc hdoc)
            exact ⟨refs, hrefs, hwalk.references _ _ hrefs⟩
          settled := fun link hlink hreq => by
            rcases hwalk.settled link hlink hreq with hmem | hfailed | hdone
            · cases hmem
            · exact absurd herrors hfailed
            · exact hdone }

/-- Two documents of a packet with one content are the same. -/
theorem PacketOf.eq_of_sha256 {task : Task} {parents : List Task} {packet : ContextPacket}
    (h : PacketOf R task parents packet) {doc doc' : ContextDocument}
    (hdoc : doc ∈ packet.documents) (hdoc' : doc' ∈ packet.documents)
    (heq : doc.sha256 = doc'.sha256) : doc = doc' :=
  List.inj_on_of_nodup_map h.distinct hdoc hdoc' heq

/-- An artifact link or an answer of the task or an ancestor leads to a
content. -/
def Requires (R : LinkedContextResolver) (task : Task) (parents : List Task)
    (digest : Digest) : Prop :=
  ∃ link ∈ startQueue task parents, link.required = true ∧
    isImplementationTaskFileLink link.ref = false ∧ R.leadsTo link.ref digest

/-- A document is required if and only if a required link of the task or an
ancestor leads to it. -/
theorem PacketOf.required_iff {task : Task} {parents : List Task} {packet : ContextPacket}
    (h : PacketOf R task parents packet) {doc : ContextDocument}
    (hdoc : doc ∈ packet.documents) :
    doc.required = true ↔ R.Requires task parents doc.sha256 := by
  constructor
  · exact (h.traced doc hdoc).required
  · intro hlink
    obtain ⟨link, hstart, hreq, hfile, hlead⟩ := hlink
    rcases h.settled link hstart hreq with htask | ⟨doc', hdoc', hreq', hlead'⟩
    · rw [hfile] at htask
      cases htask
    · rwa [h.eq_of_sha256 hdoc hdoc' (leadsTo_unique hlead hlead')]

/-- The answers of question rounds are required. -/
theorem PacketOf.required_of_canonical {task : Task} {parents : List Task}
    {packet : ContextPacket} (h : PacketOf R task parents packet) {doc : ContextDocument}
    (hdoc : doc ∈ packet.documents)
    (hcanonical : doc.isCanonicalQuestionRoundAnswers = true) : doc.required = true := by
  obtain ⟨ref, href, hfile, hlead⟩ := (h.traced doc hdoc).canonical hcanonical
  obtain ⟨answer, hanswer, hclean⟩ := List.mem_map.mp href
  refine (h.required_iff hdoc).mpr ⟨⟨answer, 0, true⟩, ?_, rfl, ?_, leadsTo_congr hclean.symm hlead⟩
  · exact List.mem_append_left _ (List.mem_append_left _ (List.mem_append_left _
      (List.mem_map_of_mem hanswer)))
  · rw [← hfile]
    unfold isImplementationTaskFileLink
    rw [hclean]

end LinkedContextResolver

end OpenTulid
