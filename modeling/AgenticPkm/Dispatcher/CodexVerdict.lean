import AgenticPkm.Lib.Pages
import AgenticPkm.Lib.Text
import AgenticPkm.Lib.KeyedList

/-!
# The review verdict from a paginated server

`resolve_codex_verdict` fetches a pull request's reviews, review threads, comments and reactions
and classifies them.  The server hands each of them out in pages, and the comments of each thread
in pages of their own.  One loop reads on in all four connections at once, a second one in the
comments of each thread, both up to a cap; what the last page of a connection said about a next one
stays in the payload, and `parse_codex_verdict` calls a payload with such a page unresolved.

The client is any function of the query and of the number of queries before.  One that raises
leaves no verdict and is not modelled.

* `codex_pass_is_complete` — **a pass has read every connection to its end**.
-/

namespace AgenticPkm.Verdict

open List

/-! ### The payload -/

structure Review where
  author : Option String
  state : String
  body : Option String
  commit : Option String
  deriving DecidableEq, Repr

structure InlineComment where
  author : Option String
  body : Option String
  originalCommit : Option String
  deriving DecidableEq, Repr

structure IssueComment where
  author : Option String
  body : Option String
  createdAt : Option String
  deriving DecidableEq, Repr

structure Reaction where
  content : Option String
  createdAt : Option String
  user : Option String
  deriving DecidableEq, Repr

/-- A review thread as it is shown: its id and a page of its comments. -/
structure ThreadNode where
  id : String
  comments : Connection InlineComment
  deriving DecidableEq, Repr

structure Payload where
  reviews : Connection Review
  reviewThreads : Connection ThreadNode
  comments : Connection IssueComment
  reactions : Connection Reaction
  deriving DecidableEq, Repr

/-! ### The classification -/

inductive Status
  | pass
  | blocking
  | unresolved
  deriving DecidableEq, Repr

structure CodexVerdict where
  status : Status
  reason : String
  deriving DecidableEq, Repr

def CodexVerdict.isPass (verdict : CodexVerdict) : Bool := verdict.status = .pass

def isCodexLogin (login : Option String) : Bool :=
  login = some "chatgpt-codex-connector[bot]" || login = some "chatgpt-codex-connector"

def mentions (text : String) (body : Option String) : Bool :=
  text.toList <:+: (body.getD "").toList

/-- `str.replace`, on characters and for an old text that is not empty. -/
def replaceChars (old new : List Char) : ℕ → List Char → List Char
  | 0, cs => cs
  | _ + 1, [] => []
  | fuel + 1, c :: cs =>
      if old.isPrefixOf (c :: cs) then
        new ++ replaceChars old new fuel ((c :: cs).drop old.length)
      else c :: replaceChars old new fuel cs

/-- `str.replace`. -/
def replaceText (old new text : String) : String :=
  String.ofList (replaceChars old.toList new.toList text.toList.length text.toList)

def positiveReactions : List String := ["+1", "heart", "hooray", "rocket", "laugh"]

def negativeReactions : List String := ["-1", "confused"]

/-- A text that is there and not empty. -/
def given (text : Option String) : Option String := text.filter fun text => text ≠ ""

/-- The commit is the verified head, or no head was given. -/
def onHead (headSha : Option String) (oid : Option String) : Bool :=
  match given headSha with
  | none => true
  | some sha => oid = some sha

/-- Created after the head was started, if that is known. -/
def isFresh (headStartedAt : Option String) (createdAt : Option String) : Bool :=
  match given headStartedAt with
  | none => true
  | some started => started < createdAt.getD ""

def isNegative (content : Option String) : Bool :=
  replaceText "CONFUSED" "confused" (replaceText "THUMBS_DOWN" "-1" (content.getD ""))
    ∈ negativeReactions

def isPositive (content : Option String) : Bool :=
  replaceText "ROCKET" "rocket" (replaceText "HEART" "heart" (replaceText "HOORAY" "hooray"
    (replaceText "LAUGH" "laugh" (replaceText "THUMBS_UP" "+1" (content.getD "")))))
    ∈ positiveReactions

/-- The verdict on what was read, pages aside. -/
def classify (headSha headStartedAt : Option String) (reviews : List Review)
    (prComments : List InlineComment) (issueComments : List IssueComment)
    (reactions : List Reaction) : CodexVerdict :=
  let codexReviews := reviews.filter fun r => isCodexLogin r.author
  let codexPrComments := prComments.filter fun c => isCodexLogin c.author
  let codexIssueComments := issueComments.filter fun c => isCodexLogin c.author
  let headReviews := codexReviews.filter fun r => onHead headSha r.commit
  let botReactions := reactions.filter fun r => isCodexLogin r.user
  if headReviews.any fun r => r.state = "CHANGES_REQUESTED" then
    ⟨.blocking, "Codex requested changes on the verified head"⟩
  else if headReviews.any fun r => mentions "Useful? React" r.body then
    ⟨.blocking, "Codex review body contains findings on the verified head"⟩
  else if codexPrComments.any fun c => onHead headSha c.originalCommit then
    ⟨.blocking, "Codex inline comments exist on the verified head"⟩
  else if codexIssueComments.any fun c =>
      mentions "Useful? React" c.body && isFresh headStartedAt c.createdAt then
    ⟨.blocking, "Codex conversation comments contain findings"⟩
  else if botReactions.any fun r => isNegative r.content && isFresh headStartedAt r.createdAt then
    ⟨.blocking, "Codex left a negative reaction"⟩
  else if headReviews ≠ [] ∨
      botReactions.any fun r => isPositive r.content && isFresh headStartedAt r.createdAt then
    ⟨.pass, "Codex verdict passed"⟩
  else ⟨.unresolved, "No Codex verdict found"⟩

/-- Some connection has a page that was not read. -/
def Payload.paginated (payload : Payload) : Bool :=
  payload.reviews.pageInfo.hasNextPage || payload.reviewThreads.pageInfo.hasNextPage ||
    payload.comments.pageInfo.hasNextPage || payload.reactions.pageInfo.hasNextPage ||
    payload.reviewThreads.nodes.any fun thread => thread.comments.pageInfo.hasNextPage

def parseCodexVerdict (payload : Payload) (headSha headStartedAt : Option String) :
    CodexVerdict :=
  if payload.paginated then
    ⟨.unresolved, "Codex verdict evidence is paginated; fetch more before merging"⟩
  else
    classify headSha headStartedAt payload.reviews.nodes
      (payload.reviewThreads.nodes.flatMap fun thread => thread.comments.nodes)
      payload.comments.nodes payload.reactions.nodes

/-! ### The fetch -/

/-- The variables of the verdict query. -/
structure VerdictVariables where
  owner : String
  repo : String
  pr : ℕ
  reviewsCursor : Option String := none
  threadsCursor : Option String := none
  issueCommentsCursor : Option String := none
  reactionsCursor : Option String := none
  deriving DecidableEq, Repr

/-- The answers to the two queries, given the number of queries before. -/
structure Client where
  verdict : ℕ → VerdictVariables → Payload
  threadComments : ℕ → String → String → Connection InlineComment

def noCursor {α : Type} (connection : Connection α) : Bool :=
  connection.pageInfo.hasNextPage && (given connection.pageInfo.endCursor).isNone

/-- Some connection of the first level has a next page. -/
def Payload.hasNext (payload : Payload) : Bool :=
  payload.reviews.pageInfo.hasNextPage || payload.reviewThreads.pageInfo.hasNextPage ||
    payload.comments.pageInfo.hasNextPage || payload.reactions.pageInfo.hasNextPage

/-- Some connection of the first level has a next page and no cursor for it. -/
def Payload.lacksCursor (payload : Payload) : Bool :=
  noCursor payload.reviews || noCursor payload.reviewThreads || noCursor payload.comments ||
    noCursor payload.reactions

/-- The variables for the next pages. -/
def Payload.nextVariables (payload : Payload) (vars : VerdictVariables) : VerdictVariables :=
  { vars with
    reviewsCursor := payload.reviews.pending
    threadsCursor := payload.reviewThreads.pending
    issueCommentsCursor := payload.comments.pending
    reactionsCursor := payload.reactions.pending }

/-- `_merge_connection_nodes` for the connections that had a next page. -/
def Payload.merge (payload page : Payload) : Payload where
  reviews := payload.reviews.merge page.reviews
  reviewThreads := payload.reviewThreads.merge page.reviewThreads
  comments := payload.comments.merge page.comments
  reactions := payload.reactions.merge page.reactions

/-- The first loop: the payload, the number of queries, and whether the loop came to its end. -/
def fetchPages (client : Client) (vars : VerdictVariables) :
    ℕ → ℕ → Payload → Payload × ℕ × Bool
  | 0, calls, payload => (payload, calls, true)
  | cap + 1, calls, payload =>
      if !payload.hasNext then (payload, calls, true)
      else if payload.lacksCursor then (payload, calls, false)
      else fetchPages client vars cap (calls + 1)
        (payload.merge (client.verdict calls (payload.nextVariables vars)))

/-- The loop over the comments of a thread. -/
def fetchComments (client : Client) (threadId : String) :
    ℕ → ℕ → Connection InlineComment → Connection InlineComment × ℕ
  | 0, calls, comments => (comments, calls)
  | cap + 1, calls, comments =>
      if !comments.pageInfo.hasNextPage then (comments, calls)
      else
        match given comments.pageInfo.endCursor with
        | none => (comments, calls)
        | some cursor =>
            if threadId = "" then (comments, calls)
            else fetchComments client threadId cap (calls + 1)
              (comments.extend (client.threadComments calls threadId cursor))

/-- The second loop, over the threads. -/
def fetchThreads (client : Client) (cap : ℕ) : ℕ → List ThreadNode → List ThreadNode
  | _, [] => []
  | calls, thread :: threads =>
      let (comments, calls) := fetchComments client thread.id cap calls thread.comments
      { thread with comments } :: fetchThreads client cap calls threads

def fetchCompleteCodexPayload (client : Client) (vars : VerdictVariables) (cap : ℕ := 100) :
    Payload :=
  match fetchPages client vars cap 1 (client.verdict 0 vars) with
  | (payload, _, false) => payload
  | (payload, calls, true) =>
      { payload with
        reviewThreads :=
          { payload.reviewThreads with
            nodes := fetchThreads client cap calls payload.reviewThreads.nodes } }

/-- `repo.split("/", 1)` into two. -/
def splitRepo (repo : String) : Except String (String × String) :=
  match textBefore "/" repo with
  | none => .error "not enough values to unpack (expected 2, got 1)"
  | some owner => .ok (owner, textAfter (owner ++ "/") repo)

def resolveCodexVerdict (client : Client) (repo : String) (pr : ℕ)
    (headSha headStartedAt : Option String) : Except String CodexVerdict := do
  let (owner, name) ← splitRepo repo
  let payload := fetchCompleteCodexPayload client { owner, repo := name, pr }
  pure (parseCodexVerdict payload headSha headStartedAt)

/-! ### The state and a server for it -/

structure ReviewThread where
  id : String
  comments : List InlineComment
  deriving DecidableEq, Repr

/-- What a pull request has. -/
structure ReviewState where
  reviews : List Review
  threads : List ReviewThread
  comments : List IssueComment
  reactions : List Reaction
  deriving DecidableEq, Repr

def ReviewState.payload (state : ReviewState) : Payload where
  reviews := { nodes := state.reviews }
  reviewThreads :=
    { nodes := state.threads.map fun thread => ⟨thread.id, { nodes := thread.comments }⟩ }
  comments := { nodes := state.comments }
  reactions := { nodes := state.reactions }

/-- What the cursors of a server stand for. -/
structure Positions where
  reviews : String → ℕ
  threads : String → ℕ
  comments : String → ℕ
  reactions : String → ℕ
  threadComments : String → String → ℕ

open Connection (IsPage startOf)

/-- A thread is shown with its id and a first page of its comments. -/
def Shows (positions : Positions) (node : ThreadNode) (thread : ReviewThread) : Prop :=
  node.id = thread.id ∧
    IsPage Eq thread.comments (positions.threadComments thread.id) 0 node.comments

/-- Every answer is made of truthful pages of the state. -/
structure Faithful (client : Client) (owner repo : String) (pr : ℕ) (state : ReviewState)
    (positions : Positions) : Prop where
  reviews : ∀ calls v, v.owner = owner → v.repo = repo → v.pr = pr →
    IsPage Eq state.reviews positions.reviews (startOf positions.reviews v.reviewsCursor)
      (client.verdict calls v).reviews
  threads : ∀ calls v, v.owner = owner → v.repo = repo → v.pr = pr →
    IsPage (Shows positions) state.threads positions.threads
      (startOf positions.threads v.threadsCursor) (client.verdict calls v).reviewThreads
  comments : ∀ calls v, v.owner = owner → v.repo = repo → v.pr = pr →
    IsPage Eq state.comments positions.comments
      (startOf positions.comments v.issueCommentsCursor) (client.verdict calls v).comments
  reactions : ∀ calls v, v.owner = owner → v.repo = repo → v.pr = pr →
    IsPage Eq state.reactions positions.reactions
      (startOf positions.reactions v.reactionsCursor) (client.verdict calls v).reactions
  threadComments : ∀ calls, ∀ thread ∈ state.threads, ∀ cursor,
    IsPage Eq thread.comments (positions.threadComments thread.id)
      (positions.threadComments thread.id cursor)
      (client.threadComments calls thread.id cursor)

/-- Everything of the state was read. -/
def Payload.ReadsAll (payload : Payload) (state : ReviewState) : Prop :=
  payload.reviews.nodes = state.reviews ∧
  payload.reviewThreads.nodes.map (fun thread => (thread.id, thread.comments.nodes)) =
    state.threads.map (fun thread => (thread.id, thread.comments)) ∧
  payload.comments.nodes = state.comments ∧ payload.reactions.nodes = state.reactions

/-! ### What the fetch reads -/

/-- What was read of each connection is a truthful page from its start. -/
structure Reads (state : ReviewState) (positions : Positions) (payload : Payload) : Prop where
  reviews : IsPage Eq state.reviews positions.reviews 0 payload.reviews
  threads : IsPage (Shows positions) state.threads positions.threads 0 payload.reviewThreads
  comments : IsPage Eq state.comments positions.comments 0 payload.comments
  reactions : IsPage Eq state.reactions positions.reactions 0 payload.reactions

variable {client : Client} {owner repo : String} {pr : ℕ} {state : ReviewState}
  {positions : Positions}

theorem endCursor_ne_none {α : Type} {c : Connection α} (h : noCursor c = false)
    (hm : c.pageInfo.hasNextPage) : c.pageInfo.endCursor ≠ none := by
  intro hn
  simp [noCursor, hm, hn, given] at h

section

variable (hfaithful : Faithful client owner repo pr state positions)
include hfaithful

theorem Reads.merge {p : Payload}
    (h : Reads state positions p) (hcr : p.lacksCursor = false) (c : ℕ) :
    Reads state positions (p.merge (client.verdict c (p.nextVariables { owner, repo, pr }))) := by
  simp only [Payload.lacksCursor, Bool.or_eq_false_iff] at hcr
  obtain ⟨⟨⟨hrev, ht⟩, hcm⟩, hr⟩ := hcr
  exact
    { reviews := h.reviews.merge (endCursor_ne_none hrev)
        (hfaithful.reviews c (p.nextVariables { owner, repo, pr }) rfl rfl rfl)
      threads := h.threads.merge (endCursor_ne_none ht)
        (hfaithful.threads c (p.nextVariables { owner, repo, pr }) rfl rfl rfl)
      comments := h.comments.merge (endCursor_ne_none hcm)
        (hfaithful.comments c (p.nextVariables { owner, repo, pr }) rfl rfl rfl)
      reactions := h.reactions.merge (endCursor_ne_none hr)
        (hfaithful.reactions c (p.nextVariables { owner, repo, pr }) rfl rfl rfl) }

variable {cl : ℕ}

theorem Reads.fetchPages (cap : ℕ) {p : Payload} (h : Reads state positions p) :
    Reads state positions (fetchPages client { owner, repo, pr } cap cl p).1 := by
  induction cap generalizing cl p with
  | zero => exact h
  | succ cap ih =>
    rw [Verdict.fetchPages]
    split
    · exact h
    · split
      · exact h
      · next hl => exact ih (h.merge hfaithful (Bool.not_eq_true _ ▸ hl) cl)

theorem isPage_fetchComments {t : ReviewThread} (ht : t ∈ state.threads) (cap : ℕ)
    {c : Connection InlineComment} (h : IsPage Eq t.comments (positions.threadComments t.id) 0 c) :
    IsPage Eq t.comments (positions.threadComments t.id) 0
      (fetchComments client t.id cap cl c).1 := by
  induction cap generalizing cl c with
  | zero => exact h
  | succ cap ih =>
    rw [fetchComments]
    split
    · exact h
    · next hm =>
      rw [Bool.not_eq_true', Bool.not_eq_false] at hm
      split
      · exact h
      · next cursor hcr =>
        split
        · exact h
        · refine ih (h.extend ?_)
          have hend : c.pageInfo.endCursor = some cursor := (Option.filter_eq_some_iff.1 hcr).1
          have hp := h.cursor hm cursor hend
          rw [Nat.zero_add] at hp
          rw [← hp]
          exact hfaithful.threadComments cl t ht cursor

theorem shows_fetchThreads (cap : ℕ) {n : List ThreadNode} {threads : List ReviewThread}
    (hsub : threads ⊆ state.threads) (h : List.Forall₂ (Shows positions) n threads) :
    List.Forall₂ (Shows positions) (fetchThreads client cap cl n) threads := by
  induction h generalizing cl with
  | nil => exact .nil
  | cons hs _ ih =>
    rw [cons_subset] at hsub
    rw [fetchThreads]
    refine .cons ⟨hs.1, ?_⟩ (ih hsub.2)
    rw [hs.1]
    exact isPage_fetchComments hfaithful hsub.1 cap hs.2

theorem Reads.withThreads (cap : ℕ) {p : Payload} (h : Reads state positions p) :
    Reads state positions { p with reviewThreads :=
          { p.reviewThreads with
            nodes := fetchThreads client cap cl p.reviewThreads.nodes } } := by
  have hs := h.threads.slice
  have hsub : (state.threads.drop 0).take p.reviewThreads.nodes.length ⊆ state.threads :=
    List.Subset.trans (take_subset _ _) (drop_subset _ _)
  have hsh : List.Forall₂ (Shows positions)
      (fetchThreads client cap cl p.reviewThreads.nodes)
      ((state.threads.drop 0).take p.reviewThreads.nodes.length) :=
    shows_fetchThreads hfaithful cap hsub hs
  have hl : (fetchThreads client cap cl p.reviewThreads.nodes).length =
      p.reviewThreads.nodes.length :=
    hsh.length_eq.trans hs.length_eq.symm
  refine { h with threads := ⟨?_, ?_, ?_⟩ }
  · rw [hl]
    exact hsh
  · rw [hl]
    exact h.threads.more
  · rw [hl]
    exact h.threads.cursor

theorem reads_fetch (cap : ℕ) :
    Reads state positions (fetchCompleteCodexPayload client { owner, repo, pr } cap) := by
  have hf : Reads state positions (client.verdict 0 { owner, repo, pr }) :=
    { reviews := hfaithful.reviews 0 { owner, repo, pr } rfl rfl rfl
      threads := hfaithful.threads 0 { owner, repo, pr } rfl rfl rfl
      comments := hfaithful.comments 0 { owner, repo, pr } rfl rfl rfl
      reactions := hfaithful.reactions 0 { owner, repo, pr } rfl rfl rfl }
  have hl : Reads state positions (fetchPages client { owner, repo, pr } cap 1
      (client.verdict 0 { owner, repo, pr })).1 := hf.fetchPages hfaithful cap
  rw [fetchCompleteCodexPayload]
  split
  · next heq =>
    rw [heq] at hl
    exact hl
  · next heq =>
    rw [heq] at hl
    exact hl.withThreads hfaithful cap

end

/-! ### What a pass rests on -/

theorem Reads.readsAll {p : Payload} (h : Reads state positions p)
    (hp : p.paginated = false) : p.ReadsAll state := by
  simp only [Payload.paginated, Bool.or_eq_false_iff, any_eq_false] at hp
  obtain ⟨⟨⟨⟨hrev, ht⟩, hcm⟩, hr⟩, hi⟩ := hp
  refine ⟨h.reviews.complete_eq hrev, ?_, h.comments.complete_eq hcm, h.reactions.complete_eq hr⟩
  have ha := h.threads.complete ht
  generalize p.reviewThreads.nodes = nodes at ha hi ⊢
  generalize state.threads = threads at ha ⊢
  induction ha with
  | nil => rfl
  | cons hs _ ih =>
    have hl := hi _ mem_cons_self
    rw [Bool.not_eq_true] at hl
    have hrs := ih fun node hn => hi node (mem_cons_of_mem _ hn)
    rw [map_cons, map_cons, hrs, hs.1, hs.2.complete_eq hl]

theorem paginated_payload (s : ReviewState) : s.payload.paginated = false := by
  simp [Payload.paginated, ReviewState.payload]

theorem not_paginated_of_isPass {p : Payload} {headSha headStartedAt : Option String}
    (h : (parseCodexVerdict p headSha headStartedAt).isPass) : p.paginated = false := by
  cases hp : p.paginated with
  | false => rfl
  | true => simp [parseCodexVerdict, hp, CodexVerdict.isPass] at h

theorem parse_of_readsAll {p : Payload} (h : p.ReadsAll state)
    (hp : p.paginated = false) (headSha headStartedAt : Option String) :
    parseCodexVerdict p headSha headStartedAt =
      parseCodexVerdict state.payload headSha headStartedAt := by
  obtain ⟨hrev, ht, hcm, hr⟩ := h
  have hi : p.reviewThreads.nodes.flatMap (fun t => t.comments.nodes) =
      state.payload.reviewThreads.nodes.flatMap fun t => t.comments.nodes := by
    have hm := congrArg (List.map Prod.snd) ht
    rw [map_map, map_map] at hm
    rw [flatMap_def, flatMap_def]
    simp only [ReviewState.payload, map_map]
    exact congrArg List.flatten hm
  simp only [parseCodexVerdict, hp, paginated_payload, hi, hrev, hcm, hr]
  rfl

/-- **A pass is the verdict on the complete state, and no pass is given when a connection was not
read to its end.** -/
theorem codex_pass_is_complete (client : Client) (fullName owner repo : String) (pr : ℕ)
    (state : ReviewState) (positions : Positions) (headSha headStartedAt : Option String)
    (hrepo : splitRepo fullName = .ok (owner, repo))
    (hfaithful : Faithful client owner repo pr state positions) :
    (∀ verdict, resolveCodexVerdict client fullName pr headSha headStartedAt = .ok verdict →
      verdict.isPass = true →
      parseCodexVerdict state.payload headSha headStartedAt = verdict) ∧
    (¬ (fetchCompleteCodexPayload client { owner, repo, pr }).ReadsAll state →
      ∃ verdict, resolveCodexVerdict client fullName pr headSha headStartedAt = .ok verdict ∧
        verdict.isPass = false) := by
  have hr := reads_fetch hfaithful 100
  have hres : resolveCodexVerdict client fullName pr headSha headStartedAt =
      .ok (parseCodexVerdict (fetchCompleteCodexPayload client { owner, repo, pr })
        headSha headStartedAt) := by
    rw [resolveCodexVerdict, hrepo]
    rfl
  constructor
  · intro verdict hv hp
    rw [hres] at hv
    cases hv
    have hpag := not_paginated_of_isPass hp
    exact (parse_of_readsAll (hr.readsAll hpag) hpag headSha headStartedAt).symm
  · intro hu
    refine ⟨_, hres, ?_⟩
    rw [Bool.eq_false_iff]
    intro hp
    exact hu (hr.readsAll (not_paginated_of_isPass hp))

/-! ### Every state has a server -/

def ReviewState.server (state : ReviewState) (size : ℕ) : Client where
  verdict _ v :=
    { reviews := Connection.serve size state.reviews v.reviewsCursor
      reviewThreads :=
        { nodes := (Connection.serve size state.threads v.threadsCursor).nodes.map fun thread =>
            ⟨thread.id, Connection.serve size thread.comments none⟩
          pageInfo := (Connection.serve size state.threads v.threadsCursor).pageInfo }
      comments := Connection.serve size state.comments v.issueCommentsCursor
      reactions := Connection.serve size state.reactions v.reactionsCursor }
  threadComments _ id cursor :=
    match state.threads.find? fun thread => thread.id = id with
    | none => { nodes := [] }
    | some thread => Connection.serve size thread.comments (some cursor)

/-- The cursors of that server. -/
def byLength : Positions :=
  ⟨String.length, String.length, String.length, String.length, fun _ => String.length⟩

theorem faithful_server {s : ReviewState} (hi : DistinctKeys ReviewThread.id s.threads) (size : ℕ)
    (o repo : String) (pr : ℕ) : Faithful (s.server size) o repo pr s byLength where
  reviews _ v _ _ _ := Connection.isPage_serve size s.reviews v.reviewsCursor
  threads _ v _ _ _ := Connection.isPage_serve_map size s.threads v.threadsCursor
    fun thread _ => ⟨rfl, Connection.isPage_serve size thread.comments none⟩
  comments _ v _ _ _ := Connection.isPage_serve size s.comments v.issueCommentsCursor
  reactions _ v _ _ _ := Connection.isPage_serve size s.reactions v.reactionsCursor
  threadComments _ thread ht cursor := by
    have hf : s.threads.find? (fun ot => ot.id = thread.id) = some thread :=
      hi.find?_eq_some_iff.2 ⟨ht, rfl⟩
    simp only [ReviewState.server, hf]
    exact Connection.isPage_serve size thread.comments (some cursor)

/-- A pull request that Codex reviewed without findings, with an old thread of two comments. -/
def reviewedState : ReviewState where
  reviews :=
    [⟨some "octocat", "COMMENTED", some "nice", some "head"⟩,
      ⟨some "chatgpt-codex-connector", "APPROVED", none, some "head"⟩]
  threads :=
    [⟨"t", [⟨some "octocat", some "why?", some "head"⟩,
      ⟨some "chatgpt-codex-connector", some "fixed", some "base"⟩]⟩]
  comments := []
  reactions := []

/-- Served one element a page, it passes. -/
theorem reviewed_state_passes :
    Faithful (reviewedState.server 1) "o" "r" 1 reviewedState byLength ∧
    resolveCodexVerdict (reviewedState.server 1) "o/r" 1 (some "head") none =
      .ok ⟨.pass, "Codex verdict passed"⟩ ∧
    parseCodexVerdict reviewedState.payload (some "head") none =
      ⟨.pass, "Codex verdict passed"⟩ := by
  have hi : DistinctKeys ReviewThread.id reviewedState.threads := nodup_singleton "t"
  have hfaithful : Faithful (reviewedState.server 1) "o" "r" 1 reviewedState byLength :=
    faithful_server hi 1 "o" "r" 1
  have hres : resolveCodexVerdict (reviewedState.server 1) "o/r" 1 (some "head") none =
      .ok ⟨.pass, "Codex verdict passed"⟩ := by decide +kernel
  have hr : splitRepo "o/r" = .ok ("o", "r") := by decide +kernel
  exact ⟨hfaithful, hres,
    (codex_pass_is_complete (reviewedState.server 1) "o/r" "o" "r" 1 reviewedState byLength
      (some "head") none hr hfaithful).1 _ hres rfl⟩

end AgenticPkm.Verdict
