/-
The two stores of sessions give the same answers, and what the answers mean.

# The criterion

`ValidBy` reads the history alone: the token was issued, nothing after it
revoked the job or the attempt, and the clock is before the expiry.
`Invariant` ties both stores to the history after every call. The dictionary
holds what stands by the history (`Standing`), less some sessions whose
expiry has passed; the folder holds the file of every session of the
dictionary and no other.

# Which tokens

A token without a slash is the name of a file in the folder. Any other is a
path that may lead anywhere, also back into the folder: the calls of a run
must not be given one that leads to a file (`Confined`), nor one that no path
may hold.
-/
import OpenTulid.Runtime.ModelProxy

namespace OpenTulid.ModelProxy

open Links (Disk Place)

-- ============================================================ the history

section History

variable (py : Datetime) (ttl : Int)

/-- The call revokes the session, by its job or by its attempt. The empty
text names no attempt. -/
def Revokes (op : Op) (session : Session) : Prop :=
  match op with
  | .revokeJob jobId => session.jobId = jobId
  | .revokeAttempt (some attemptId) => attemptId ≠ "" ∧ session.attemptId = some attemptId
  | _ => False

/-- The session was issued under the token and not revoked since. -/
def Standing (history : History) (token : String) (session : Session) : Prop :=
  ∃ before at_ later request after,
    history = before ++ (at_, .issue token later request) :: after ∧
      session = newSession py ttl token request at_ ∧ ∀ e ∈ after, ¬ Revokes e.2 session

/-- The moment is before the expiry of the session. -/
def BeforeExpiry (session : Session) (now : Int) : Prop :=
  ∃ text expiry, session.expiresAt = some text ∧ py.fromisoformat text = some expiry ∧
    now < expiry

/-- By the history, the token is good at the moment. -/
def ValidBy (history : History) (token : String) (now : Int) : Prop :=
  ∃ session, Standing py ttl history token session ∧ BeforeExpiry py session now

/-- The token that a call of `issue` drew first. -/
def drawn : Int × Op → Option String
  | (_, .issue token _ _) => some token
  | _ => none

end History

variable {py : Datetime} {ttl : Int} {history : History} {token : String} {session : Session}
  {now : Int}

theorem expired_iff (h : session.expiresAt ≠ none) :
    session.expired py now = false ↔ BeforeExpiry py session now := by
  obtain ⟨text, htext⟩ := Option.ne_none_iff_exists'.mp h
  unfold Session.expired BeforeExpiry
  rw [htext]
  dsimp only
  cases hparse : py.fromisoformat text with
  | none =>
      refine iff_of_false nofun ?_
      rintro ⟨_, expiry, ⟨⟩, hexpiry, -⟩
      rw [hparse] at hexpiry
      cases hexpiry
  | some expiry =>
      constructor
      · intro hnot
        exact ⟨text, expiry, rfl, hparse, by simpa using hnot⟩
      · rintro ⟨_, expiry', ⟨⟩, hexpiry, hlt⟩
        rw [hparse] at hexpiry
        cases hexpiry
        simpa using hlt

/-- What has expired stays expired. -/
theorem expired_mono {later : Int} (h : session.expired py now = true) (hle : now ≤ later) :
    session.expired py later = true := by
  unfold Session.expired at h ⊢
  split at h
  next => cases h
  next =>
    split at h
    next => rfl
    next expiry _ =>
      have : expiry ≤ now := of_decide_eq_true h
      exact decide_eq_true (by omega)

theorem expiresAt_newSession (request : Request) :
    (newSession py ttl token request now).expiresAt ≠ none := by
  unfold newSession
  dsimp only
  split <;> exact nofun

/-- What stands after one more call: the session that it issued, or one that
stood and is not revoked by it. -/
theorem standing_concat {op : Op} :
    Standing py ttl (history ++ [(now, op)]) token session ↔
      (∃ later request, op = .issue token later request ∧
          session = newSession py ttl token request now) ∨
        Standing py ttl history token session ∧ ¬ Revokes op session := by
  constructor
  · rintro ⟨before, at_, later, request, after, heq, hsession, hafter⟩
    rcases List.eq_nil_or_concat after with rfl | ⟨after, e, rfl⟩
    · obtain ⟨-, heq⟩ := List.append_inj' heq rfl
      cases heq
      exact .inl ⟨later, request, rfl, hsession⟩
    · rw [← List.concat_eq_append] at heq
      have hsplit : history ++ [(now, op)] =
          (before ++ (at_, .issue token later request) :: after) ++ [e] := by
        rw [← List.concat_eq_append, heq]
        simp
      obtain ⟨hhistory, he⟩ := List.append_inj' hsplit rfl
      cases he
      refine .inr ⟨⟨before, at_, later, request, after, hhistory, hsession, ?_⟩, ?_⟩
      · exact fun e he => hafter e (by simp [he])
      · exact hafter (now, op) (by simp)
  · rintro (⟨later, request, rfl, hsession⟩ |
      ⟨⟨before, at_, later, request, after, rfl, hsession, hafter⟩, hop⟩)
    · exact ⟨history, now, later, request, [], rfl, hsession, nofun⟩
    · refine ⟨before, at_, later, request, after ++ [(now, op)], by simp, hsession, ?_⟩
      intro e he
      rcases List.mem_append.mp he with he | he
      · exact hafter e he
      · rw [List.mem_singleton.mp he]
        exact hop

/-- A token that stands was drawn. -/
theorem mem_drawn_of_standing (h : Standing py ttl history token session) :
    token ∈ history.filterMap drawn := by
  obtain ⟨before, at_, later, request, after, rfl, -⟩ := h
  exact List.mem_filterMap.mpr ⟨(at_, .issue token later request), by simp, rfl⟩

theorem expiresAt_of_standing (h : Standing py ttl history token session) :
    session.expiresAt ≠ none := by
  obtain ⟨before, at_, later, request, after, -, rfl, -⟩ := h
  exact expiresAt_newSession request

-- ======================================================== the dictionary

/-- What the dictionary has to do with the history, whose last call was at
`last`. -/
structure Remembers (py : Datetime) (ttl : Int) (history : History) (last : Int)
    (sessions : Sessions) : Prop where
  known : ∀ token session, sessions.get token = some session →
    Standing py ttl history token session
  held : ∀ token session, Standing py ttl history token session →
    sessions.get token = some session ∨ session.expired py last = true

theorem remembers_nil : Remembers py ttl [] now ∅ where
  known := by
    intro token session h
    cases h
  held := by
    rintro token session ⟨before, at_, later, request, after, heq, -⟩
    have := congrArg List.length heq
    simp at this

/-- The dictionary says that a token is valid exactly when the history does. -/
theorem Remembers.valid_iff {last : Int} {sessions : Sessions}
    (h : Remembers py ttl history last sessions) (hle : last ≤ now) :
    (∃ session, sessions.get token = some session ∧ session.expired py now = false) ↔
      ValidBy py ttl history token now := by
  constructor
  · rintro ⟨session, hget, hexpired⟩
    have hstanding := h.known token session hget
    exact ⟨session, hstanding, (expired_iff (expiresAt_of_standing hstanding)).mp hexpired⟩
  · rintro ⟨session, hstanding, hbefore⟩
    have hexpired := (expired_iff (expiresAt_of_standing hstanding)).mpr hbefore
    rcases h.held token session hstanding with hget | hpassed
    · exact ⟨session, hget, hexpired⟩
    · rw [expired_mono hpassed hle] at hexpired
      cases hexpired

/-- The answer of `get`. -/
def lookup (py : Datetime) (now : Int) : Option Session → Answer
  | none => .found .unknown none
  | some session =>
      if session.expired py now then .found .expired session else .found .valid session

theorem dictGet_answer (sessions : Sessions) :
    (dictGet py token now sessions).2 = lookup py now (sessions.get token) := by
  unfold dictGet lookup
  cases sessions.get token with
  | none => rfl
  | some session =>
      dsimp only
      split <;> rfl

theorem lookup_valid {found : Option Session} :
    (∃ s, lookup py now found = .found .valid s) ↔
      ∃ session, found = some session ∧ session.expired py now = false := by
  unfold lookup
  cases found with
  | none =>
      refine iff_of_false ?_ ?_
      · rintro ⟨_, ⟨⟩⟩
      · rintro ⟨_, ⟨⟩, -⟩
  | some session =>
      dsimp only
      split
      next h =>
        refine iff_of_false ?_ ?_
        · rintro ⟨_, ⟨⟩⟩
        · rintro ⟨_, ⟨⟩, h'⟩
          rw [h] at h'
          cases h'
      next h => exact iff_of_true ⟨_, rfl⟩ ⟨session, rfl, by simpa using h⟩

/-- What the dictionary holds after `get`: all but an expired session. -/
theorem dictGet_get (sessions : Sessions) (other : String) :
    (dictGet py token now sessions).1.get other =
      if other = token ∧ ∃ session, sessions.get token = some session ∧
        session.expired py now = true then none else sessions.get other := by
  unfold dictGet
  cases hget : sessions.get token with
  | none =>
      rw [if_neg (by rintro ⟨-, _, ⟨⟩, -⟩)]
  | some session =>
      dsimp only
      split
      next hexpired =>
        rw [Store.get_erase]
        by_cases hother : other = token
        · rw [if_pos hother, if_pos ⟨hother, session, rfl, hexpired⟩]
        · rw [if_neg hother, if_neg fun hand => hother hand.1]
      next hexpired =>
        rw [if_neg]
        rintro ⟨-, _, ⟨⟩, h⟩
        exact hexpired h

/-- Sessions that a call revokes go, all others stay. -/
theorem Remembers.filter {last : Int} {sessions : Sessions} {op : Op} {keep : Session → Bool}
    (h : Remembers py ttl history last sessions) (hle : last ≤ now)
    (hissue : drawn (now, op) = none)
    (hkeep : ∀ session, keep session = true ↔ ¬ Revokes op session) :
    Remembers py ttl (history ++ [(now, op)]) now (sessions.filter keep) where
  known := by
    intro token session hget
    rw [Store.get_filter, Option.filter_eq_some_iff] at hget
    exact standing_concat.mpr (.inr ⟨h.known token session hget.1, (hkeep session).mp hget.2⟩)
  held := by
    intro token session hstanding
    rcases standing_concat.mp hstanding with ⟨later, request, rfl, -⟩ | ⟨hstood, hop⟩
    · cases hissue
    · rcases h.held token session hstood with hget | hpassed
      · left
        rw [Store.get_filter, hget, Option.filter_eq_some_iff]
        exact ⟨rfl, (hkeep session).mpr hop⟩
      · exact .inr (expired_mono hpassed hle)

/-- Every call of the dictionary, for a token that was not drawn before. -/
theorem Remembers.step {last : Int} {sessions : Sessions} {op : Op}
    (h : Remembers py ttl history last sessions) (hle : last ≤ now)
    (hfresh : ∀ token later request, op = .issue token later request →
      token ∉ history.filterMap drawn) :
    Remembers py ttl (history ++ [(now, op)]) now (dictStep py ttl op now sessions).1 := by
  cases op with
  | issue token later request =>
      have hnew := hfresh token later request rfl
      unfold dictStep
      refine ⟨?_, ?_⟩
      · intro other session hget
        dsimp only at hget
        rw [Store.get_put] at hget
        split at hget
        next heq =>
          cases hget
          exact standing_concat.mpr (.inl ⟨later, request, by rw [heq], by rw [heq]⟩)
        next =>
          exact standing_concat.mpr (.inr ⟨h.known other session hget, id⟩)
      · intro other session hstanding
        dsimp only
        rw [Store.get_put]
        rcases standing_concat.mp hstanding with ⟨_, _, heq, rfl⟩ | ⟨hstood, -⟩
        · cases heq
          left
          rw [if_pos rfl]
        · have hne : other ≠ token := fun heq => hnew (heq ▸ mem_drawn_of_standing hstood)
          rw [if_neg hne]
          rcases h.held other session hstood with hget | hpassed
          · exact .inl hget
          · exact .inr (expired_mono hpassed hle)
  | get token =>
      show Remembers py ttl _ now (dictGet py token now sessions).1
      refine ⟨?_, ?_⟩
      · intro other session hget
        rw [dictGet_get] at hget
        split at hget
        next => cases hget
        next => exact standing_concat.mpr (.inr ⟨h.known other session hget, id⟩)
      · intro other session hstanding
        rcases standing_concat.mp hstanding with ⟨_, _, heq, -⟩ | ⟨hstood, -⟩
        · cases heq
        · rcases h.held other session hstood with hget | hpassed
          · rw [dictGet_get]
            split
            next hand =>
              obtain ⟨rfl, session', hget', hexpired⟩ := hand
              rw [hget] at hget'
              cases hget'
              exact .inr hexpired
            next => exact .inl hget
          · exact .inr (expired_mono hpassed hle)
  | revokeJob jobId =>
      show Remembers py ttl _ now (sessions.filter fun session => session.jobId ≠ jobId)
      refine h.filter hle ?_ fun session => ?_
      · rfl
      · unfold Revokes
        dsimp only
        rw [decide_eq_true_iff]
  | revokeAttempt attemptId =>
      have hidle : (∀ session, ¬ Revokes (.revokeAttempt attemptId) session) →
          Remembers py ttl (history ++ [(now, .revokeAttempt attemptId)]) now sessions := by
        intro hnone
        refine ⟨?_, ?_⟩
        · intro other session hget
          exact standing_concat.mpr (.inr ⟨h.known other session hget, hnone session⟩)
        · intro other session hstanding
          rcases standing_concat.mp hstanding with ⟨_, _, heq, -⟩ | ⟨hstood, -⟩
          · cases heq
          · rcases h.held other session hstood with hget | hpassed
            · exact .inl hget
            · exact .inr (expired_mono hpassed hle)
      cases attemptId with
      | none => exact hidle fun _ => id
      | some attemptId =>
          unfold dictStep
          dsimp only
          split
          next heq => exact hidle fun session hrevokes => hrevokes.1 heq
          next hne =>
            show Remembers py ttl _ now
              (sessions.filter fun session => session.attemptId ≠ some attemptId)
            refine h.filter hle ?_ fun session => ?_
            · rfl
            · unfold Revokes
              dsimp only
              rw [decide_eq_true_iff, not_and]
              exact ⟨fun hkeep _ => hkeep, fun hkeep => hkeep hne⟩

-- ============================================================= the folder

variable {root : Place} {s : FileStore root} {sessions : Sessions}

/-- A name of a file in the folder says something and is not the way up. -/
theorem fileName_name (token : String) :
    Disk.idle (fileName token) = false ∧ fileName token ≠ ".." ∧ fileName token ≠ "." ∧
      fileName token ≠ "" := by
  have hlength : 5 ≤ (fileName token).length := by
    unfold fileName
    rw [String.length_append]
    exact Nat.le_add_left 5 _
  have hne : ∀ text : String, text.length < 5 → fileName token ≠ text := by
    intro text htext heq
    rw [heq] at hlength
    omega
  unfold Disk.idle
  rw [Bool.or_eq_false_iff, decide_eq_false_iff_not, decide_eq_false_iff_not]
  exact ⟨⟨hne "" (by decide), hne "." (by decide)⟩, hne ".." (by decide), hne "." (by decide),
    hne "" (by decide)⟩

/-- A token without a slash names a file in the folder. -/
theorem sessionPath_eq (h : '/' ∉ token.toList) :
    sessionPath root token = root ++ [fileName token] := by
  have hslash : '/' ∉ (fileName token).toList := by
    unfold fileName
    rw [String.toList_append, List.mem_append, not_or]
    exact ⟨h, by decide⟩
  have habs : PosixPath.isAbsolute (fileName token) = false := by
    unfold PosixPath.isAbsolute
    rw [decide_eq_false_iff_not]
    intro hhead
    exact hslash (List.mem_of_mem_head? (Option.mem_def.mpr hhead))
  unfold sessionPath
  rw [habs, PosixPath.parts_of_not_slash hslash (fileName_name token).2.2.1,
    if_neg (fileName_name token).2.2.2]
  exact if_neg Bool.false_ne_true

/-- What the folder has to do with the dictionary: a file for each session,
under its token, and no other. -/
def Mirrors (sessions : Sessions) (s : FileStore root) : Prop :=
  ∀ token, '/' ∉ token.toList →
    s.disk.node (root ++ [fileName token]) =
      (sessions.get token).map fun session => .file (.session session)

/-- Where the name of a token leads. -/
theorem Mirrors.follow (h : Mirrors sessions s) (htoken : '/' ∉ token.toList) :
    s.disk.follow (sessionPath root token) = .ok (root ++ [fileName token]) := by
  rw [sessionPath_eq htoken]
  refine Disk.follow_below s.plain s.isDir (fileName_name token).1 (fileName_name token).2.1 ?_
  intro absolute target hnode
  rw [h token htoken] at hnode
  cases hget : sessions.get token with
  | none => rw [hget] at hnode; cases hnode
  | some session => rw [hget] at hnode; cases hnode

theorem Mirrors.readFile (h : Mirrors sessions s) (htoken : '/' ∉ token.toList) :
    s.disk.readFile (sessionPath root token) = (sessions.get token).map .session := by
  unfold Disk.readFile Disk.fileAt
  rw [h.follow htoken]
  dsimp only
  rw [h token htoken]
  cases sessions.get token <;> rfl

theorem fileName_inj {token token' : String} (h : fileName token = fileName token') :
    token = token' := by
  have := congrArg String.toList h
  unfold fileName at this
  rw [String.toList_append, String.toList_append] at this
  exact String.toList_inj.mp (List.append_cancel_right this)

/-- A token may be given to `get`: no path holds it otherwise, and unless it
names a file in the folder it leads to none. -/
def Confined (s : FileStore root) (token : String) : Prop :=
  nul ∉ token.toList ∧
    ('/' ∈ token.toList → s.disk.readFile (sessionPath root token) = none)

/-- The path of a file in the folder leads to it. -/
theorem unlink_eq (htoken : '/' ∉ token.toList) :
    s.unlink (sessionPath root token) =
      s.removeWhere fun p => p = root ++ [fileName token] := by
  rw [sessionPath_eq htoken]
  unfold FileStore.unlink
  rw [List.getLast?_concat, List.dropLast_concat, Disk.follow_dir s.plain s.isDir]

/-- Where the session of a file of the folder is. -/
theorem sessionAt_fileName (s : FileStore root) (token : String) :
    s.sessionAt (root ++ [fileName token]) =
      match s.disk.node (root ++ [fileName token]) with
      | some (.file (.session session)) => some session
      | _ => none := by
  unfold FileStore.sessionAt
  refine if_pos ⟨List.dropLast_concat, ?_⟩
  rw [List.getLast?_concat, Option.any_some, List.isSuffixOf_iff_suffix]
  unfold fileName
  rw [String.toList_append]
  exact List.suffix_append _ _

/-- Files removed from the folder as sessions are from the dictionary. -/
theorem Mirrors.removeWhere (h : Mirrors sessions s) {gone : Place → Bool} {kept : Sessions}
    (hkept : ∀ token, '/' ∉ token.toList → kept.get token =
      if gone (root ++ [fileName token]) then none else sessions.get token) :
    Mirrors kept (s.removeWhere gone) := by
  intro token htoken
  rw [hkept token htoken]
  show (s.disk.removeWhere gone).node _ = _
  rw [Disk.node_removeWhere, h token htoken]
  cases sessions.get token with
  | none => cases gone (root ++ [fileName token]) <;> rfl
  | some session => cases gone (root ++ [fileName token]) <;> rfl

theorem Mirrors.revoke (h : Mirrors sessions s) (meets : Session → Bool) :
    Mirrors (sessions.filter fun session => !meets session) (s.revoke meets) := by
  refine h.removeWhere fun token htoken => ?_
  rw [Store.get_filter, sessionAt_fileName, h token htoken]
  cases sessions.get token with
  | none => rfl
  | some session =>
      show (some session).filter _ = if (some session).any meets then none else some session
      rw [Option.filter_some, Option.any_some]
      cases meets session <;> rfl

/-- Both stores answer a confined token alike, and go on alike. -/
theorem Mirrors.get (h : Mirrors sessions s) (hconfined : Confined s token)
    (hnames : ∀ token session, sessions.get token = some session → '/' ∉ token.toList) :
    (fileGet py token now s).2 = lookup py now (sessions.get token) ∧
      Mirrors (dictGet py token now sessions).1 (fileGet py token now s).1 := by
  unfold fileGet
  rw [if_neg hconfined.1]
  by_cases hslash : '/' ∈ token.toList
  · have hnone : sessions.get token = none := by
      cases hget : sessions.get token with
      | none => rfl
      | some session => exact absurd hslash (hnames token session hget)
    rw [hconfined.2 hslash, hnone]
    refine ⟨rfl, ?_⟩
    unfold dictGet
    rw [hnone]
    exact h
  · rw [h.readFile hslash]
    unfold dictGet lookup
    cases hget : sessions.get token with
    | none => exact ⟨rfl, h⟩
    | some session =>
        dsimp only [Option.map_some]
        split
        next =>
          refine ⟨rfl, ?_⟩
          rw [unlink_eq hslash]
          refine h.removeWhere fun other _ => ?_
          rw [Store.get_erase]
          by_cases hother : other = token
          · rw [if_pos hother, if_pos (decide_eq_true (by rw [hother]))]
          · have hne : root ++ [fileName other] ≠ root ++ [fileName token] := fun heq =>
              hother (fileName_inj (List.singleton_inj.mp (List.append_cancel_left heq)))
            rw [if_neg hother, if_neg (by simpa using hne)]
        next => exact ⟨rfl, h⟩

/-- The folder takes the first token drawn when the dictionary does not have
it yet. -/
theorem Mirrors.issue (h : Mirrors sessions s) (htoken : '/' ∉ token.toList)
    (hfresh : sessions.get token = none) (later : List String) (request : Request) :
    (fileIssue py ttl (token :: later) request now s).2 =
        .issued (newSession py ttl token request now) ∧
      Mirrors (sessions.put token (newSession py ttl token request now))
        (fileIssue py ttl (token :: later) request now s).1 := by
  have hnode : s.disk.node (root ++ [fileName token]) = none := by
    rw [h token htoken, hfresh]
    rfl
  have hfree : s.disk.pathExists (sessionPath root token) = false := by
    unfold Disk.pathExists
    rw [h.follow htoken]
    dsimp only
    rw [hnode]
    rfl
  have hfind : (token :: later).find? (fun token =>
      !s.disk.pathExists (sessionPath root token)) = some token := by
    rw [List.find?_cons, hfree]
    rfl
  have hdir : s.disk.node (root ++ [fileName token]) ≠ some .dir := by
    rw [hnode]
    exact nofun
  unfold fileIssue
  rw [hfind]
  dsimp only
  unfold FileStore.save
  dsimp only
  split
  next hnone =>
    split at hnone
    next hisDir => exact absurd hisDir hdir
    next => cases hnone
  next s' hsome =>
    split at hsome
    next => cases hsome
    next =>
      cases hsome
      refine ⟨rfl, fun other hother => ?_⟩
      dsimp only
      rw [Disk.node_put, Store.get_put]
      show (if root ++ [fileName other] = root ++ [fileName token] then _ else _) = _
      by_cases heq : other = token
      · rw [if_pos heq, if_pos (by rw [heq])]
        rfl
      · have hne : root ++ [fileName other] ≠ root ++ [fileName token] := fun hpath =>
          heq (fileName_inj (List.singleton_inj.mp (List.append_cancel_left hpath)))
        rw [if_neg heq, if_neg hne]
        exact h other hother

-- =============================================================== the runs

/-- A text of `secrets.token_urlsafe`. -/
def UrlSafe (token : String) : Prop :=
  ∀ c ∈ token.toList, c.isAlphanum = true ∨ c = '-' ∨ c = '_'

theorem UrlSafe.not_slash (h : UrlSafe token) : '/' ∉ token.toList := by
  intro hslash
  rcases h _ hslash with h | h | h
  · exact absurd h (by decide)
  · exact absurd h (by decide)
  · exact absurd h (by decide)

/-- Every token given to `get` may be given to it when the call is made. -/
def Meets (py : Datetime) (ttl : Int) : FileStore root → History → Prop
  | _, [] => True
  | s, (now, op) :: rest =>
      (∀ token, op = .get token → Confined s token) ∧
        Meets py ttl (fileStep py ttl op now s).1 rest

/-- What both stores have to do with the history. -/
structure Invariant (py : Datetime) (ttl : Int) (history : History) (last : Int)
    (sessions : Sessions) (s : FileStore root) : Prop where
  remembers : Remembers py ttl history last sessions
  mirrors : Mirrors sessions s
  names : ∀ token ∈ history.filterMap drawn, UrlSafe token

theorem Invariant.not_slash {last : Int} (h : Invariant py ttl history last sessions s)
    (token : String) (session : Session) (hget : sessions.get token = some session) :
    '/' ∉ token.toList :=
  (h.names token (mem_drawn_of_standing (h.remembers.known token session hget))).not_slash

/-- One call: both stores answer alike and the invariant goes on. -/
theorem Invariant.step {last : Int} {op : Op} (h : Invariant py ttl history last sessions s)
    (hle : last ≤ now) (hfresh : ∀ token ∈ drawn (now, op), token ∉ history.filterMap drawn)
    (hsafe : ∀ token ∈ drawn (now, op), UrlSafe token)
    (hconfined : ∀ token, op = .get token → Confined s token) :
    (dictStep py ttl op now sessions).2 = (fileStep py ttl op now s).2 ∧
      Invariant py ttl (history ++ [(now, op)]) now (dictStep py ttl op now sessions).1
        (fileStep py ttl op now s).1 := by
  have hremembers : Remembers py ttl (history ++ [(now, op)]) now
      (dictStep py ttl op now sessions).1 := by
    refine h.remembers.step hle ?_
    rintro token later request rfl
    exact hfresh token rfl
  have hnames : ∀ token ∈ (history ++ [(now, op)]).filterMap drawn, UrlSafe token := by
    intro token htoken
    rw [List.filterMap_append, List.mem_append] at htoken
    rcases htoken with htoken | htoken
    · exact h.names token htoken
    · obtain ⟨e, he, heq⟩ := List.mem_filterMap.mp htoken
      rw [List.mem_singleton.mp he] at heq
      exact hsafe token heq
  suffices hmirrors : (dictStep py ttl op now sessions).2 = (fileStep py ttl op now s).2 ∧
      Mirrors (dictStep py ttl op now sessions).1 (fileStep py ttl op now s).1 from
    ⟨hmirrors.1, hremembers, hmirrors.2, hnames⟩
  cases op with
  | issue token later request =>
      have hslash := (hsafe token rfl).not_slash
      have hnone : sessions.get token = none := by
        cases hget : sessions.get token with
        | none => rfl
        | some session =>
            exact absurd (mem_drawn_of_standing (h.remembers.known token session hget))
              (hfresh token rfl)
      obtain ⟨hanswer, hmirrors⟩ :=
        @Mirrors.issue py ttl token now root s sessions h.mirrors hslash hnone later request
      exact ⟨hanswer.symm, hmirrors⟩
  | get token =>
      obtain ⟨hanswer, hmirrors⟩ := h.mirrors.get (hconfined token rfl) h.not_slash
      exact ⟨(dictGet_answer sessions).trans hanswer.symm, hmirrors⟩
  | revokeJob jobId =>
      refine ⟨rfl, ?_⟩
      have hrevoke := h.mirrors.revoke fun session => session.jobId = jobId
      have hsame : (fun session : Session => !decide (session.jobId = jobId)) =
          fun session => decide (session.jobId ≠ jobId) :=
        funext fun session => decide_not.symm
      rw [hsame] at hrevoke
      exact hrevoke
  | revokeAttempt attemptId =>
      cases attemptId with
      | none => exact ⟨rfl, h.mirrors⟩
      | some attemptId =>
          unfold dictStep fileStep
          dsimp only
          split
          next => exact ⟨rfl, h.mirrors⟩
          next =>
            refine ⟨rfl, ?_⟩
            have hrevoke := h.mirrors.revoke fun session => session.attemptId = some attemptId
            have hsame : (fun session : Session => !decide (session.attemptId = some attemptId)) =
                fun session => decide (session.attemptId ≠ some attemptId) :=
              funext fun session => decide_not.symm
            rw [hsame] at hrevoke
            exact hrevoke

/-- A run from any point of a history on. -/
theorem Invariant.run {last : Int} {rest : History}
    (h : Invariant py ttl history last sessions s)
    (hclock : rest.Pairwise fun a b => a.1 ≤ b.1) (hlast : ∀ e ∈ rest, last ≤ e.1)
    (hfresh : ((history ++ rest).filterMap drawn).Nodup)
    (hsafe : ∀ token ∈ rest.filterMap drawn, UrlSafe token) (hmeets : Meets py ttl s rest) :
    (run (dictStep py ttl) sessions rest).2 = (run (fileStep py ttl) s rest).2 ∧
      ∀ k now token, rest[k]? = some (now, .get token) →
        ((∃ found, (run (fileStep py ttl) s rest).2[k]? = some (.found .valid found)) ↔
          ValidBy py ttl (history ++ rest.take k) token now) := by
  induction rest generalizing history last sessions s with
  | nil => exact ⟨rfl, fun k now token hk => by cases hk⟩
  | cons e rest ih =>
      obtain ⟨now, op⟩ := e
      rw [List.pairwise_cons] at hclock
      have hle : last ≤ now := hlast (now, op) List.mem_cons_self
      have hnew : ∀ token ∈ drawn (now, op), token ∉ history.filterMap drawn := by
        intro token htoken hmem
        rw [List.filterMap_append, List.nodup_append] at hfresh
        refine hfresh.2.2 token hmem token ?_ rfl
        exact List.mem_filterMap.mpr ⟨(now, op), List.mem_cons_self, htoken⟩
      have hnewSafe : ∀ token ∈ drawn (now, op), UrlSafe token := fun token htoken =>
        hsafe token (List.mem_filterMap.mpr ⟨(now, op), List.mem_cons_self, htoken⟩)
      obtain ⟨hanswer, hnext⟩ := h.step hle hnew hnewSafe hmeets.1
      have hassoc : history ++ (now, op) :: rest = history ++ [(now, op)] ++ rest := by simp
      rw [hassoc] at hfresh
      have hlater : ∀ token ∈ rest.filterMap drawn, UrlSafe token := by
        intro token htoken
        obtain ⟨e, he, heq⟩ := List.mem_filterMap.mp htoken
        exact hsafe token (List.mem_filterMap.mpr ⟨e, List.mem_cons_of_mem _ he, heq⟩)
      obtain ⟨hrest, hvalid⟩ := ih hnext hclock.2 (fun e he => hclock.1 e he) hfresh hlater hmeets.2
      refine ⟨congrArg₂ List.cons hanswer hrest, ?_⟩
      intro k at_ token hk
      cases k with
      | zero =>
          cases hk
          show (∃ found, some (fileStep py ttl (.get token) now s).2 = some (.found .valid found)) ↔ _
          rw [← hanswer, List.take_zero, List.append_nil, ← h.remembers.valid_iff hle,
            ← lookup_valid, ← dictGet_answer]
          exact exists_congr fun found => Option.some_inj
      | succ k =>
          have hstep := hvalid k at_ token hk
          rw [List.append_assoc] at hstep
          exact hstep

/-- In every run whose clock does not go back, that draws no token twice and
gives `get` confined tokens only, the folder answers as the dictionary does,
and a token is valid exactly when the history says so. -/
theorem stores_agree (py : Datetime) (ttl : Int) (s : FileStore root) (history : History)
    (hempty : ∀ token, s.disk.node (root ++ [fileName token]) = none)
    (hclock : history.Pairwise fun a b => a.1 ≤ b.1)
    (hdrawn : (history.filterMap drawn).Nodup)
    (hsafe : ∀ token ∈ history.filterMap drawn, UrlSafe token)
    (hmeets : Meets py ttl s history) :
    (run (dictStep py ttl) ∅ history).2 = (run (fileStep py ttl) s history).2 ∧
      ∀ k now token, history[k]? = some (now, .get token) →
        ((∃ found, (run (fileStep py ttl) s history).2[k]? = some (.found .valid found)) ↔
          ValidBy py ttl (history.take k) token now) := by
  cases hhead : history with
  | nil => exact ⟨rfl, fun k now token hk => by cases hk⟩
  | cons e rest =>
      rw [hhead] at hclock hdrawn hsafe hmeets
      have hstart : Invariant py ttl [] e.1 ∅ s :=
        ⟨remembers_nil, fun token _ => hempty token, nofun⟩
      refine hstart.run hclock ?_ hdrawn hsafe hmeets
      intro e' he'
      rcases List.mem_cons.mp he' with rfl | he'
      · exact Int.le_refl _
      · exact (List.pairwise_cons.mp hclock).1 e' he'

/-- A moment as text, in one sign and dots. -/
def dots : Int → String
  | .ofNat n => String.ofList ('+' :: List.replicate n '.')
  | .negSucc n => String.ofList ('-' :: List.replicate n '.')

/-- The texts of two moments as they are, all others in dots. -/
def firstHour : Datetime where
  isoformat moment :=
    if moment = 0 then "1970-01-01T00:00:00+00:00"
    else if moment = 3600000000 then "1970-01-01T01:00:00+00:00"
    else dots moment
  fromisoformat text :=
    if text = "1970-01-01T00:00:00+00:00" then some 0
    else if text = "1970-01-01T01:00:00+00:00" then some 3600000000
    else match text.toList with
      | '+' :: rest => some (.ofNat rest.length)
      | '-' :: rest => some (.negSucc rest.length)
      | _ => none
  fromisoformat_isoformat moment := by
    have hdots : ∀ text : String, text.toList.head? = some '1' → dots moment ≠ text := by
      intro text htext heq
      rw [← heq] at htext
      unfold dots at htext
      cases moment <;> simp at htext
    by_cases hzero : moment = 0
    · rw [if_pos hzero, if_pos rfl, hzero]
    · rw [if_neg hzero]
      by_cases hhour : moment = 3600000000
      · rw [if_pos hhour, if_neg (by decide), if_pos rfl, hhour]
      · rw [if_neg hhour, if_neg (hdots _ rfl), if_neg (hdots _ rfl)]
        unfold dots
        cases moment <;> simp

/-- The root of a file system with an empty folder. -/
def emptyFolder : FileStore ["sessions"] where
  disk := Disk.ofList [(["sessions"], .dir)] rfl
  isDir := rfl
  plain := {
    real := by
      intro name hname
      rw [List.mem_singleton.mp hname]
      decide
    bare := by
      intro q hq absolute target hnode
      rcases List.prefix_cons_iff.mp hq with rfl | ⟨rest, rfl, hrest⟩
      · cases hnode
      · rw [List.prefix_nil.mp hrest] at hnode
        cases hnode }

def jobRequest : Request := ⟨"job-1", "worker", "proxy", "resource", some "attempt-1", none⟩

/-- A session is issued and asked for by its token. -/
def plainHistory : History := [(0, .issue "tok-1" [] jobRequest), (1, .get "tok-1")]

/-- A session is issued and asked for by another path to its file. -/
def dottedHistory : History := [(0, .issue "tok-1" [] jobRequest), (1, .get "./tok-1")]

theorem stores_agree_plain :
    (run (dictStep firstHour 3600000000) ∅ plainHistory).2 =
      (run (fileStep firstHour 3600000000) emptyFolder plainHistory).2 := by
  have hempty : ∀ token, emptyFolder.disk.node (["sessions"] ++ [fileName token]) = none :=
    fun token => rfl
  have hmeets : Meets firstHour 3600000000 emptyFolder plainHistory := by
    refine ⟨nofun, ?_, trivial⟩
    rintro token ⟨⟩
    exact ⟨by decide, fun h => absurd h (by decide)⟩
  have hsafe : ∀ token ∈ plainHistory.filterMap drawn, UrlSafe token := by
    intro token htoken c hc
    have hall : "tok-1".toList.all (fun c => c.isAlphanum || c == '-' || c == '_') = true := rfl
    rw [List.mem_singleton.mp (show token ∈ ["tok-1"] from htoken)] at hc
    simpa [or_assoc] using List.all_eq_true.mp hall c hc
  exact (stores_agree firstHour 3600000000 emptyFolder plainHistory hempty (by decide) (by decide)
    hsafe hmeets).1

/-- The folder finds the session under a token that was never issued. -/
theorem dotted_token_valid :
    (run (fileStep firstHour 3600000000) emptyFolder dottedHistory).2[1]? =
        some (.found .valid (some (newSession firstHour 3600000000 "tok-1" jobRequest 0))) ∧
      (run (dictStep firstHour 3600000000) ∅ dottedHistory).2[1]? = some (.found .unknown none) ∧
      ¬ ValidBy firstHour 3600000000 (dottedHistory.take 1) "./tok-1" 1 := by
  refine ⟨?_, rfl, ?_⟩
  · rfl
  · rintro ⟨session, hstanding, -⟩
    have := mem_drawn_of_standing hstanding
    exact absurd this (by decide)

end OpenTulid.ModelProxy
