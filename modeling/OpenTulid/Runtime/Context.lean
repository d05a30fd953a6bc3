/-
The linked context of a task: the documents its links lead to, and which of
them its work requires.

# References

A reference is a path below the project root or the name of a note in
`tasks` or `docs`. It is read without brackets, label and heading
(`cleanRef`). The project root holds no symbolic links, so the three
candidates of a reference are never the same file.

# The walk

`buildContextPacket` works a queue off, breadth first: the answers of the
question rounds, the artifact links of the task and its ancestors (all
required), the wiki links of their bodies, and the wiki links of every
document it takes in (not required). `visit` is one turn of its loop. A
document is taken in once for each content; what leads to a content already
taken in only adds its reference and its flags (`remember`).
-/
import OpenTulid.Runtime.Revision

namespace OpenTulid

-- ========================================================== references

/-- The prefix of a text before a character. -/
def beforeChar (c : Char) (s : String) : String := String.ofList (s.toList.takeWhile (· ≠ c))

/-- A text without the brackets of a wiki link around it. -/
def unbracket (s : String) : String :=
  match s.toList with
  | '[' :: '[' :: rest =>
      match rest.reverse with
      | ']' :: ']' :: name => String.ofList name.reverse
      | _ => s
  | _ => s

/-- `_clean_ref`. -/
def cleanRef (ref : String) : String :=
  strip (beforeChar '#' (beforeChar '|' (unbracket (strip ref))))

/-- `Path(…).parts` below the root of the path. -/
def pathParts (s : String) : RelPath :=
  (((s.toList.splitOn '/').map String.ofList).filter fun part => part ≠ "" ∧ part ≠ ".")

/-- `Path(…).is_absolute()`. -/
def isAbsolute (s : String) : Bool := s.toList.head? = some '/'

/-- `_is_implementation_task_file_link`. -/
def isImplementationTaskFileLink (ref : String) : Bool :=
  "ImplementationTaskFile" ∈ pathParts (cleanRef ref)

/-- `_is_implementation_contract_link`. -/
def isImplementationContractLink (ref : String) : Bool :=
  "ImplementationContract" ∈ pathParts (cleanRef ref) ||
    (pathParts (cleanRef ref)).getLast? = some "implementation-contract.yaml"

/-- `_is_question_round_file_link`. -/
def isQuestionRoundFileLink (ref : String) : Bool :=
  "QuestionRoundFile" ∈ pathParts (cleanRef ref)

/-- `_canonical_question_round_answer_links`. -/
def canonicalQuestionRoundAnswerLinks (task : Task) : List String :=
  if task.taskType ≠ "QuestionRound" then []
  else task.artifactLinks.filter isQuestionRoundFileLink

/-- `_ancestor_question_round_answer_links`: one of each ancestor round. -/
def ancestorQuestionRoundAnswerLinks (parents : List Task) : List String :=
  parents.flatMap fun parent => (canonicalQuestionRoundAnswerLinks parent).head?.toList

/-- `_active_artifact_links`: of the contract links only the last. -/
def activeArtifactLinks : List String → List String
  | [] => []
  | link :: rest =>
      if isImplementationContractLink link ∧ rest.any isImplementationContractLink then
        activeArtifactLinks rest
      else link :: activeArtifactLinks rest

-- ========================================================== wiki links

/-- A character `[^\]|#\\]`. -/
def wikiChar (c : Char) : Bool := c ≠ ']' && c ≠ '|' && c ≠ '#' && c ≠ '\\'

/-- The text of a link's group is one: it does not start with a slash, and
what follows its first slash is not empty. -/
def wikiName (name : List Char) : Bool :=
  name.head? ≠ none && name.head? ≠ some '/' &&
    (name.dropWhile (· ≠ '/')).length ≠ 1

/-- The match of `WIKI_LINK_RE` at the start of a text: its group. -/
def wikiLinkAt : List Char → Option (List Char)
  | '[' :: '[' :: rest =>
      let name := rest.takeWhile wikiChar
      match rest.dropWhile wikiChar with
      | ']' :: ']' :: _ => if wikiName name then some name else none
      | _ => none
  | _ => none

/-- `finditer` over a text of which the first characters are consumed. -/
def wikiLinksFrom (consumed : Nat) : List Char → List String
  | [] => []
  | c :: rest =>
      match consumed with
      | n + 1 => wikiLinksFrom n rest
      | 0 =>
          match wikiLinkAt (c :: rest) with
          | some name => strip (String.ofList name) :: wikiLinksFrom (name.length + 3) rest
          | none => wikiLinksFrom 0 rest

/-- `_wiki_links`. -/
def wikiLinks (text : String) : List String := wikiLinksFrom 0 text.toList

/-- A line of a body as it is written. -/
def Line.written : Line → String
  | .title name => s!"# {name}"
  | .heading name => s!"## {name}"
  | .text content => content
  | .blank => ""

/-- The text of a body. -/
def Body.text (b : Body) : String := "\n".intercalate (b.map Line.written)

/-- A row of a derived-tasks section. -/
def isDerivedRow (line : String) : Bool :=
  let chars := line.toList
  7 ≤ chars.length && "- [[".toList.isPrefixOf chars && "]]".toList.isSuffixOf chars

/-- Up to its end a body has nothing but rows and further derived-tasks
sections, each with a row. -/
def derivedTail (row : Bool) : Body → Bool
  | [] => row
  | .text line :: rest => isDerivedRow line && derivedTail true rest
  | .heading name :: rest => row && name = "Derived tasks" && derivedTail false rest
  | .blank :: .heading name :: rest => row && name = "Derived tasks" && derivedTail false rest
  | _ => false

/-- The lines before the derived-tasks sections at the end of a body. -/
def beforeDerived : Body → Body
  | [] => []
  | line :: rest =>
      if line = .heading "Derived tasks" ∧ derivedTail false rest then []
      else line :: beforeDerived rest

/-- `sanitize_task_body_for_runtime`. A section on the first line has no line
break before it and stays. -/
def sanitizeTaskBodyForRuntime (body : Body) : Body :=
  match body.trimEnd with
  | [] => []
  | first :: rest => Body.trimEnd (first :: beforeDerived rest)

-- ======================================================== the resolver

/-- The project root as the resolver reads it: the regular files below it,
and the text or the error that reading one as UTF-8 answers. -/
structure LinkedContextResolver where
  file : RelPath → Option Content
  readText : Content → Except String String
  maxDepth : Nat := 8
  maxDocuments : Nat := 64
  maxBytes : Nat := 512000

/-- A text in UTF-8. -/
def utf8 (text : String) : Content := text.toList.flatMap String.utf8EncodeChar

/-- A document of the packet. -/
structure ContextDocument where
  ref : String
  path : RelPath
  content : String
  sha256 : Digest
  isExecutionContract : Bool
  isCanonicalQuestionRoundAnswers : Bool
  isCurrentQuestionRoundAnswers : Bool
  required : Bool
  deriving DecidableEq, Repr

/-- The documents of a task, with every reference to each content. -/
structure ContextPacket where
  documents : List ContextDocument
  references : List (Digest × List String)
  deriving DecidableEq, Repr

/-- A link that waits, with its distance from the task. -/
structure QueuedLink where
  ref : String
  depth : Nat
  required : Bool
  deriving DecidableEq, Repr

/-- The answer records of a task and its ancestors: the references of all of
them, and that of the task's own. -/
structure AnswerRefs where
  canonical : List String := []
  current : String := ""
  deriving DecidableEq, Repr

/-- What the walk has gathered. -/
structure Gathering where
  docs : List ContextDocument := []
  errors : List DomainError := []
  seen : List RelPath := []
  pathHashes : List (RelPath × Digest) := []
  references : List (Digest × List String) := []
  totalBytes : Nat := 0
  deriving DecidableEq, Repr

/-- The references of a content with one more. -/
def addReference (digest : Digest) (ref : String) :
    List (Digest × List String) → List (Digest × List String)
  | [] => [(digest, [ref])]
  | (d, refs) :: rest =>
      if d = digest then (d, if ref ∈ refs then refs else refs ++ [ref]) :: rest
      else (d, refs) :: addReference digest ref rest

/-- The document after a further link to its content. -/
def ContextDocument.linked (doc : ContextDocument) (A : AnswerRefs) (ref : String)
    (required : Bool) : ContextDocument :=
  { doc with
    required := doc.required || required
    isCanonicalQuestionRoundAnswers :=
      doc.isCanonicalQuestionRoundAnswers || cleanRef ref ∈ A.canonical
    isCurrentQuestionRoundAnswers :=
      doc.isCurrentQuestionRoundAnswers || cleanRef ref = cleanRef A.current }

/-- The documents after a further link to a content, when one has it. -/
def linkFirst (A : AnswerRefs) (digest : Digest) (ref : String) (required : Bool) :
    List ContextDocument → Option (List ContextDocument)
  | [] => none
  | doc :: rest =>
      if doc.sha256 = digest then some (doc.linked A ref required :: rest)
      else (linkFirst A digest ref required rest).map (doc :: ·)

/-- `remember_reference`: the reference is kept, and whether a document has
the content. -/
def Gathering.remember (g : Gathering) (A : AnswerRefs) (digest : Digest)
    (ref : String) (required : Bool) : Gathering × Bool :=
  let g := { g with references := addReference digest ref g.references }
  match linkFirst A digest ref required g.docs with
  | some docs => ({ g with docs := docs }, true)
  | none => (g, false)

/-- The gathering with an error more. -/
def Gathering.withError (g : Gathering) (e : DomainError) : Gathering :=
  { g with errors := g.errors ++ [e] }

/-- What one turn of the loop does: go on, go on with further links, or
break. -/
inductive Turn where
  | next (g : Gathering)
  | queue (g : Gathering) (links : List QueuedLink)
  | stop (g : Gathering)
  deriving DecidableEq

/-- How the loop goes on after a turn. -/
def Turn.followed (next : Gathering → Gathering)
    (queue : Gathering → List QueuedLink → Gathering) : Turn → Gathering
  | .next g => next g
  | .queue g links => queue g links
  | .stop g => g

namespace LinkedContextResolver

variable (R : LinkedContextResolver)

/-- `_resolve_candidates`. -/
def resolveCandidates (ref : String) : List RelPath :=
  let clean := cleanRef ref
  if clean = "" ∨ isAbsolute clean ∨ ".." ∈ pathParts clean then []
  else [pathParts clean, "tasks" :: pathParts (clean ++ ".md"),
    "docs" :: pathParts (clean ++ ".md")].filter fun path => (R.file path).isSome

/-- A document that is taken in, unless a limit is reached. -/
def take (A : AnswerRefs) (g : Gathering) (link : QueuedLink) (path : RelPath)
    (text : String) : Turn :=
  if R.maxDocuments ≤ g.docs.length then
    .stop (g.withError ⟨"context.document_limit",
      s!"Linked context exceeds document limit of {R.maxDocuments}.", some link.ref⟩)
  else if R.maxBytes < g.totalBytes + (utf8 text).length then
    .stop (g.withError ⟨"context.byte_limit",
      s!"Linked context exceeds byte limit of {R.maxBytes}.", some link.ref⟩)
  else .queue
    { g with
      seen := g.seen ++ [path]
      totalBytes := g.totalBytes + (utf8 text).length
      docs := g.docs ++ [{
        ref := link.ref
        path := path
        content := text
        sha256 := sha256 (utf8 text)
        isExecutionContract := isImplementationContractLink link.ref
        isCanonicalQuestionRoundAnswers := cleanRef link.ref ∈ A.canonical
        isCurrentQuestionRoundAnswers := cleanRef link.ref = cleanRef A.current
        required := link.required }] }
    ((wikiLinks text).map fun ref => ⟨ref, link.depth + 1, false⟩)

/-- One turn of the loop of `build_context_packet`. -/
def visit (A : AnswerRefs) (g : Gathering) (link : QueuedLink) : Turn :=
  if isImplementationTaskFileLink link.ref then .next g
  else if R.maxDepth < link.depth then .next g
  else match R.resolveCandidates link.ref with
  | [] =>
      if link.required then .next (g.withError ⟨"context.link_not_found",
        s!"Linked context file was not found: {link.ref}", some link.ref⟩)
      else .next g
  | [path] =>
      if path ∈ g.seen then
        .next (g.remember A ((g.pathHashes.lookup path).getD []) link.ref link.required).1
      else match R.readText ((R.file path).getD []) with
      | .error text => .next (g.withError ⟨"context.read_failed",
          s!"Cannot read linked context file {link.ref}: {text}", some link.ref⟩)
      | .ok text =>
          let digest := sha256 (utf8 text)
          let g := { g with pathHashes := (path, digest) :: g.pathHashes }
          match g.remember A digest link.ref link.required with
          | (g, true) => .next { g with seen := g.seen ++ [path] }
          | (g, false) => R.take A g link path text
  | _ => .next (g.withError ⟨"context.link_ambiguous",
      s!"Linked context reference '{link.ref}' resolves to more than one file under the project roots; disambiguate it.",
      some link.ref⟩)

/-- The loop until a document is taken in. -/
def walkQueue (A : AnswerRefs) (further : Gathering → List QueuedLink → Gathering) :
    Gathering → List QueuedLink → Gathering
  | g, [] => g
  | g, link :: queue => (R.visit A g link).followed
      (fun g => walkQueue A further g queue) fun g links => further g (queue ++ links)

/-- The loop, with room for a number of documents. -/
def walk (A : AnswerRefs) : Nat → Gathering → List QueuedLink → Gathering
  | 0 => R.walkQueue A fun g _ => g
  | room + 1 => R.walkQueue A (walk A room)

/-- The links of an ancestor. -/
def parentLinks (parent : Task) : List QueuedLink :=
  (((activeArtifactLinks parent.artifactLinks).filter fun link =>
      !isImplementationTaskFileLink link && !isQuestionRoundFileLink link).map
    fun link => ⟨link, 0, true⟩) ++
  (wikiLinks (sanitizeTaskBodyForRuntime parent.body).text).map fun link => ⟨link, 0, false⟩

/-- The queue at the start. -/
def startQueue (task : Task) (parents : List Task) : List QueuedLink :=
  ((ancestorQuestionRoundAnswerLinks parents ++
      canonicalQuestionRoundAnswerLinks task).map fun link => ⟨link, 0, true⟩) ++
  (((activeArtifactLinks task.artifactLinks).filter fun link =>
      !isQuestionRoundFileLink link).map fun link => ⟨link, 0, true⟩) ++
  ((wikiLinks (sanitizeTaskBodyForRuntime task.body).text).map
    fun link => ⟨link, 0, false⟩) ++
  parents.flatMap parentLinks

/-- The answer records of a task and its ancestors. -/
def answerRefs (task : Task) (parents : List Task) : AnswerRefs where
  canonical := (ancestorQuestionRoundAnswerLinks parents ++
    canonicalQuestionRoundAnswerLinks task).map cleanRef
  current := (canonicalQuestionRoundAnswerLinks task).head?.getD ""

/-- What the walk gathers for a task. -/
def gather (task : Task) (parents : List Task) : Gathering :=
  R.walk (answerRefs task parents) R.maxDocuments {} (startQueue task parents)

/-- `build_context_packet`. -/
def buildContextPacket (task : Task) (parents : List Task) :
    Except (List DomainError) ContextPacket :=
  if 1 < (canonicalQuestionRoundAnswerLinks task).length then
    .error [⟨"context.question_round_answer_conflict",
      "QuestionRound has multiple linked QuestionRoundFile artifacts; retain exactly one current answer source before review.",
      some task.id⟩]
  else
    let g := R.gather task parents
    if g.errors ≠ [] then .error g.errors else .ok ⟨g.docs, g.references⟩

end LinkedContextResolver

-- ============================================================= a task

/-- `_artifact_type_from_link`. -/
def artifactTypeFromLink (link : String) : Option String :=
  match (pathParts link).dropWhile (· ≠ "artifacts") with
  | _ :: _ :: type :: _ => some type
  | _ => none

/-- The artifact types a transition itself is about to require or derive. -/
def TransitionDefinition.ownArtifactTypes (t : TransitionDefinition) (task : Task) :
    List String :=
  t.requiredArtifacts ++
    (t.derives.filter fun d => d.taskType ≠ task.taskType).toList.map (·.artifactType)

/-- `task_for_context`. -/
def taskForContext (task : Task) (transition : TransitionDefinition) : Task :=
  { task with artifactLinks := task.artifactLinks.filter fun link =>
      (artifactTypeFromLink link).all (· ∉ transition.ownArtifactTypes task) }

/-- The loop of `load_parent_tasks`, for at most a number of ancestors. -/
def loadParentsFrom (readTask : TaskId → Option Task) :
    Nat → List TaskId → Option TaskId → List Task
  | room + 1, seen, some id =>
      if id = "" ∨ id ∈ seen then []
      else match readTask id with
      | none => []
      | some parent => parent :: loadParentsFrom readTask room (id :: seen) parent.parentId
  | _, _, _ => []

/-- `load_parent_tasks`: the ancestors, the first idea first. -/
def loadParentTasks (readTask : TaskId → Option Task) (task : Task) : List Task :=
  (loadParentsFrom readTask 64 [task.id] task.parentId).reverse

/-- `resolve_source_content_identities`. -/
def resolveSourceContentIdentities (R : LinkedContextResolver) (task : Task)
    (transition : TransitionDefinition) (parents : List Task) : List SourceIdentity :=
  match R.buildContextPacket (taskForContext task transition) parents with
  | .error _ => []
  | .ok packet =>
      (packet.documents.filter (·.required)).flatMap fun doc =>
        ((packet.references.lookup doc.sha256).getD [doc.ref]).map fun ref => (ref, doc.sha256)

end OpenTulid
