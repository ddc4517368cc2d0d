import AgenticPkm.Builderops.Reducer.Run

/-!
# Sessions

A session drives a run the way its executor does: it materialises the proposals of the run,
reports their outcomes as events, and feeds the events through admission with the accepted log as
prior evidence.  It carries the proof that its history is a logged run.

The last section has the small plan and the stand-in digest of the concrete sessions.
-/

namespace AgenticPkm.Builderops

variable {hash : Json → String}

/-- A run in progress, with the proof that it is one. -/
structure Session (S : RunSetup hash) where
  history : List (RunStep hash)
  state : DeliveryRunState
  reached : S.ReachesLogged history state

namespace Session

variable {S : RunSetup hash}

def start (S : RunSetup hash) : Session S := ⟨[], S.initial, .start⟩

def log (x : Session S) : EvidenceLog := evidenceLog (acceptedEvents x.history)

def submit (input : AdmissionInput) (x : Session S) : Except String (Session S) :=
  let cited : AdmissionInput :=
    { input with
      plan := S.plan
      priorEffects := x.log.effects
      priorEvents := x.log.events
      workerResults := x.log.workerResults
      reviewResults := x.log.reviewResults }
  match hadmit : resolveAdmission hash cited with
  | .error msg => .error msg
  | .ok fields =>
      if hseq : ∀ b ∈ acceptedEvents x.history, b.event.sequence < fields.event.sequence then
        let admitted : AdmittedEvent hash := ⟨fields, cited, hadmit⟩
        match hstep : reduceDeliveryRun x.state admitted with
        | .error msg => .error msg
        | .ok r =>
            .ok ⟨x.history ++ [⟨x.state, .event admitted, r⟩], r.state,
              x.reached.event ⟨⟨cited, hadmit, fun _ => rfl, rfl⟩, hseq⟩ hstep⟩
      else
        .error "events must be submitted in increasing sequence"

def control (c : LifecycleCommand) (x : Session S) : Except String (Session S) :=
  match hstep : reduceLifecycleCommand hash x.state c with
  | .error msg => .error msg
  | .ok r =>
      .ok ⟨x.history ++ [⟨x.state, .command c, r⟩], r.state, x.reached.command hstep⟩

def clock (x : Session S) : ℕ :=
  match (acceptedEvents x.history).getLast? with
  | none => 0
  | some a => a.event.sequence

/-- The last proposal of a class for an Issue, with the accepted event that caused
it. -/
def proposed (effectClass : EffectClass) (issue : IssueScope) (x : Session S) :
    Option (EffectProposal × ReducerEvent) :=
  x.history.reverse.findSome? fun st =>
    match st.acceptedEvent, st.result.effects.find? fun p =>
      p.effectClass == effectClass && p.issue == issue with
    | some a, some p => some (p, a.event)
    | _, _ => none

/-- An event of this run with its derived identity. -/
def event (S : RunSetup hash) (provenance : Provenance) (sequence : ℕ) (eventType : EventType)
    (subject : Option AuthoritySnapshot) (effectRef resultRef : Option ContractRef)
    (exception : Option DeliveryException) (outcome : Option EffectOutcomeEvidence) :
    ReducerEvent :=
  let inputHash := deliveryEventInputHash hash S.runId (S.plan.ref hash) sequence eventType
    subject effectRef resultRef exception outcome
  { eventId := deliveryEventId inputHash
    inputHash := inputHash
    runId := S.runId
    planRef := S.plan.ref hash
    sequence := sequence
    eventType := eventType
    subjectAuthority := subject
    effectRef := effectRef
    resultRef := resultRef
    exception := exception
    effectOutcome := outcome
    provenance := provenance }

def tick (provenance : Provenance) (x : Session S) : Except String (Session S) :=
  let sequence := if x.history.isEmpty then 0 else x.clock + 1
  let eventType := if x.history.isEmpty then EventType.runStarted else .timerElapsed
  x.submit
    { event := event S provenance sequence eventType none none none none none
      plan := S.plan }

def observe (provenance : Provenance) (subject : AuthoritySnapshot) (x : Session S) :
    Except String (Session S) :=
  x.submit
    { event := event S provenance (x.clock + 1) .authorityChanged (some subject) none none none
        none
      plan := S.plan }

def materialize (provenance : Provenance) (effectClass : EffectClass) (issue : IssueScope)
    (x : Session S) : Except String ReducerEffect := do
  let (proposal, cause) ← getOrRaise (x.proposed effectClass issue) "nothing was proposed"
  materializeEffect hash proposal x.state S.plan cause (x.clock + 1) provenance x.log

/-- Report the outcome of an effect: a success, or the given failure. -/
def reportOutcome (provenance : Provenance) (effect : ReducerEffect) (subject : AuthoritySnapshot)
    (failure : Option DeliveryException) (x : Session S) : Except String (Session S) :=
  let eventType := if failure.isNone then EventType.effectSucceeded else .effectFailed
  let outcome : EffectOutcomeEvidence :=
    { effectClass := effect.effectClass
      effectIdempotencyKey := effect.idempotencyKey
      outcomeState := expectedOutcomeState eventType effect.effectClass
      outcomeKeys := effect.expectedOutcomeKeys
      observedAt := provenance.createdAt
      evidenceRefs := ["outcome"] }
  x.submit
    { event := event S provenance (x.clock + 2) eventType (some subject)
        (some (effect.ref hash)) none failure (some outcome)
      plan := S.plan
      effect := some effect }

/-- Execute the proposed effect of a class and report its outcome. -/
def report (provenance : Provenance) (effectClass : EffectClass) (issue : IssueScope)
    (subject : AuthoritySnapshot) (failure : Option DeliveryException) (x : Session S) :
    Except String (Session S) := do
  let effect ← x.materialize provenance effectClass issue
  x.reportOutcome provenance effect subject failure

/-- Report once more on an effect of a class whose outcome was reported before. -/
def reportAgain (provenance : Provenance) (effectClass : EffectClass) (issue : IssueScope)
    (subject : AuthoritySnapshot) (failure : Option DeliveryException) (x : Session S) :
    Except String (Session S) := do
  let effect ← getOrRaise
    (x.log.effects.find? fun e => e.effectClass == effectClass && e.issue == issue)
    "nothing was reported"
  x.reportOutcome provenance effect subject failure

/-- The worker's evidence for a launch effect: context pack, invocation and result
around a delivery-domain result. -/
def workerBundle (hash : Json → String) (provenance : Provenance) (launch : ReducerEffect)
    (domain : StructuredWorkerResult) : WorkerContextPack × WorkerInvocation × WorkerResultV2 :=
  let pack : WorkerContextPack :=
    { contextPackId := "pack"
      runId := domain.runId
      planRef := domain.planRef
      effectRef := launch.ref hash
      issue := domain.issue
      baseHeadSha := none
      requiredSkills := []
      verifyTargets := ["tests"]
      contextRefs := []
      provenance := provenance }
  let inputHash := workerInvocationInputHash hash domain.runId domain.planRef (launch.ref hash)
    domain.issue none (pack.ref hash) "runtime"
  let invocation : WorkerInvocation :=
    { invocationId := workerInvocationIdempotencyKey inputHash
      runId := domain.runId
      planRef := domain.planRef
      effectRef := launch.ref hash
      issue := domain.issue
      baseHeadSha := none
      contextPackRef := pack.ref hash
      contextPackHash := (pack.ref hash).contentHash
      runtimeTarget := "runtime"
      idempotencyKey := workerInvocationIdempotencyKey inputHash
      inputHash := inputHash
      provenance := provenance }
  let result : WorkerResultV2 :=
    { resultId := domain.resultId
      runId := domain.runId
      planRef := domain.planRef
      effectRef := launch.ref hash
      issue := domain.issue
      baseHeadSha := none
      exactHeadSha := domain.exactHeadSha
      pullRequestNumber := domain.pullRequestNumber
      contextPackRef := pack.ref hash
      contextPackHash := (pack.ref hash).contentHash
      invocationRef := invocation.ref hash
      invocationIdempotencyKey := invocation.idempotencyKey
      deliveryResult := domain
      carrier := ⟨"carrier", "provider", "worker", "session", "usage", "provenance"⟩
      provenance := provenance }
  (pack, invocation, result)

/-- Record the result of the worker whose launch was reported for an Issue. -/
def deliver (provenance : Provenance) (domain : StructuredWorkerResult)
    (subject : AuthoritySnapshot) (x : Session S) : Except String (Session S) := do
  let launch ← getOrRaise
    (x.log.effects.find? fun e => e.effectClass == .launchWorker && e.issue == domain.issue)
    "no worker was launched"
  let bundle := workerBundle hash provenance launch domain
  x.submit
    { event := event S provenance (x.clock + 1) .workerResultRecorded (some subject) none
        (some (domain.ref hash)) none none
      plan := S.plan
      workerResult := some bundle.2.2
      contextPack := some bundle.1
      invocation := some bundle.2.1
      launchEffect := some launch }

def review (provenance : Provenance) (verdict : ReviewResult) (subject : AuthoritySnapshot)
    (x : Session S) : Except String (Session S) :=
  x.submit
    { event := event S provenance (x.clock + 1) .reviewResultRecorded (some subject) none
        (some (verdict.ref hash)) none none
      plan := S.plan
      reviewResult := some verdict }

theorem last_step {x : Session S} {st : RunStep hash} (hst : x.history.getLast? = some st) :
    ∃ h, x.history = h ++ [st] ∧ S.ReachesLogged h st.before ∧
      S.AdmitsLogged h st.before st.input ∧
      (reducer hash).step st.before st.input = .ok st.result ∧ x.state = st.result.state := by
  obtain ⟨h, hh⟩ := List.getLast?_eq_some_iff.mp hst
  have hr : S.ReachesLogged (h ++ [st]) x.state := hh ▸ x.reached
  obtain ⟨hb, ha, hstep⟩ := Machine.Run.of_append hr
  exact ⟨h, hh, hb, ha, hstep, Machine.Run.state_unique hr (Machine.Run.step hb ha hstep)⟩

theorem log_concat {x : Session S} {h : List (RunStep hash)} {st : RunStep hash}
    {a : AdmittedEvent hash} (hh : x.history = h ++ [st]) (ha : st.acceptedEvent = some a) :
    x.log = evidenceLog (acceptedEvents h ++ [a]) := by
  rw [log, hh, acceptedEvents_append, acceptedEvents_single, ha]
  rfl

end Session

/-! ### A small plan -/

namespace Demo

/-- The value at a position of a JSON object. -/
def fieldAt (n : ℕ) : Json → Json
  | .obj fields => (fields.map Prod.snd).getD n .null
  | _ => .null

/-- The texts of an array, joined. -/
def joined : List Json → String
  | [] => ""
  | .str s :: items => s ++ joined items
  | _ :: items => joined items

/-- A digest that tells the values of the small plan apart: events by their
sequence, effects by class, Issue and labels, and other contracts by identity. -/
def digest : Json → String
  | .obj fields =>
      match fields.length, fieldAt 2 (.obj fields) with
      | 9, .num sequence => toString sequence
      | 10, .str effectClass =>
          match fieldAt 1 (fieldAt 3 (.obj fields)), fieldAt 6 (.obj fields) with
          | .num issue, .arr (authority :: _) =>
              match fieldAt 4 authority with
              | .arr labels => effectClass ++ toString issue ++ joined labels
              | _ => effectClass
          | _, _ => effectClass
      | _, _ =>
          match fieldAt 1 (.obj fields) with
          | .str identity => identity
          | _ => "digest"
  | _ => "digest"

def stamp : String := "2026-07-27T10:00:00Z"

def provenance : Provenance where
  createdAt := stamp
  createdBy := ⟨.builderAgent, "builder", "owner/repo"⟩
  sourceRefs := [⟨"issue", "owner/repo#1", "source"⟩]
  correlationId := "demo"

def issue (n : ℕ) : IssueScope where
  repository := "owner/repo"
  issueNumber := n
  authorityId := IssueScope.expectedAuthorityId "owner/repo" n
  contractHash := "contract"

def authority (n : ℕ) (state : String) (labels : List String) : AuthoritySnapshot where
  authorityType := "github_issue"
  authorityId := IssueScope.expectedAuthorityId "owner/repo" n
  contentHash := "contract"
  observedState := state
  observedLabels := labels
  observedAt := stamp

def ready (n : ℕ) : AuthoritySnapshot := authority n "open" ["agent:ready", "type:task"]
def claimed (n : ℕ) : AuthoritySnapshot := authority n "open" ["agent:in-progress", "type:task"]
def closed (n : ℕ) : AuthoritySnapshot := authority n "closed" ["type:task"]
def relabelled (n : ℕ) : AuthoritySnapshot :=
  authority n "open" ["agent:ready", "priority:high", "type:task"]

def expectedState (n : ℕ) : ExpectedAuthorityState where
  issue := issue n
  issueState := .opened
  requiredLabels := ["agent:ready", "type:task"]
  forbiddenLabels := ["agent:blocked"]
  expectedContractHash := "contract"

def policy : PolicyProfile where
  profileId := "policy"
  profileVersion := "1"
  profileHash := "policy"
  minimumReviewConfidenceBasisPoints := 8000
  requiredCheckNames := ["tests"]

/-- Two Issues, the second in the wave after the first. -/
def plan : DeliveryPlan where
  planId := "plan"
  initiationRef := ⟨deliveryInitiationVersion, "initiation", "initiation"⟩
  inputAuthorities := [ready 1, ready 2]
  finalScope := [issue 1, issue 2]
  exclusions := []
  dependencyWaves := [⟨0, [issue 1]⟩, ⟨1, [issue 2]⟩]
  expectedStates := [expectedState 1, expectedState 2]
  policyProfile := policy
  budget := ⟨1, 1, 1, 1, 1⟩
  effectAllowlist := effectAllowlist
  provenance := provenance

def profile : DeliveryAcceptanceProfile where
  profileId := "profile"
  requiredEvidence := [.issueClosed, .pullRequestMerged, .requiredChecksGreen, .reviewAccepted]
  provenance := provenance

def initialState : DeliveryRunState :=
  match initialDeliveryRunState digest "run" plan profile ["owner/repo"] with
  | .ok s => s
  | .error _ => default

theorem plan_valid : plan.validate = .ok () := by decide +kernel

theorem initial_eq :
    initialDeliveryRunState digest "run" plan profile ["owner/repo"] = .ok initialState := by
  decide +kernel

def setup : RunSetup digest where
  runId := "run"
  plan := plan
  profile := profile
  controlScopes := ["owner/repo"]
  initial := initialState
  plan_valid := plan_valid
  initial_eq := initial_eq

/-! ### Concrete sessions -/

def head : String := "aaaaaaaaaaaaaaaaaaaaaaaaaaaaaaaaaaaaaaaa"

def work : StructuredWorkerResult where
  resultId := "work"
  runId := "run"
  planRef := plan.ref digest
  issue := issue 1
  status := .completed
  exactHeadSha := some head
  pullRequestNumber := some 7
  changedFiles := []
  validations := [⟨"tests", .passed, "tests", some head⟩]
  exceptions := []
  summary := "done"
  provenance := provenance

def verdict : ReviewResult where
  resultId := "review"
  runId := "run"
  planRef := plan.ref digest
  policyProfile := policy
  issue := issue 1
  pullRequestNumber := 7
  exactHeadSha := head
  disposition := .accept
  confidenceBasisPoints := 9000
  findings := []
  knownDefectRefs := []
  provenance := provenance

/-- A verdict that accepts it with one minor finding, deferred under a reference. -/
def riskVerdict (registryRef : String) : ReviewResult :=
  { verdict with
    disposition := .acceptWithRisk
    findings := [⟨"finding", .p2, "a minor defect", false, false, ["review"]⟩]
    knownDefectRefs := [registryRef] }

def failure : DeliveryException where
  kind := .executionFailed
  code := "failed"
  message := "the effect failed"
  retryable := false
  evidenceRefs := ["outcome"]

def command (kind : CommandKind) (version : ℕ) : LifecycleCommand where
  command := kind
  commandId := kind.text
  runId := "run"
  expectedRunVersion := version
  issuedBy := provenance.createdBy
  issuedAt := stamp

def startedRun : Except String (Session setup) := (Session.start setup).tick provenance

def claimedRun : Except String (Session setup) := do
  let x ← startedRun
  x.report provenance .claimIssue (issue 1) (claimed 1) none

def failedRun : Except String (Session setup) := do
  let x ← startedRun
  let x ← x.report provenance .claimIssue (issue 1) (ready 1) (some failure)
  x.tick provenance

/-- The success of the first claim is reported, and then its failure, with the
authority that the claim was made under. -/
def contradictedRun : Except String (Session setup) := do
  let x ← claimedRun
  x.reportAgain provenance .claimIssue (issue 1) (ready 1) (some failure)

def checkedRun : Except String (Session setup) := do
  let x ← claimedRun
  let x ← x.report provenance .launchWorker (issue 1) (claimed 1) none
  let x ← x.deliver provenance work (claimed 1)
  x.report provenance .awaitCi (issue 1) (claimed 1) none

def reviewedRun (verdict : ReviewResult) : Except String (Session setup) := do
  let x ← checkedRun
  x.review provenance verdict (claimed 1)

def deliveredRun : Except String (Session setup) := do
  let x ← reviewedRun verdict
  let x ← x.report provenance .mergePullRequest (issue 1) (claimed 1) none
  let x ← x.report provenance .closeIssue (issue 1) (closed 1) none
  x.report provenance .recordDeliveryReceipt (issue 1) (closed 1) none

def resumedRun : Except String (Session setup) := do
  let x ← (Session.start setup).control (command .pause 0)
  x.control (command .resume 1)

def restartedRun : Except String (Session setup) := do
  let x ← resumedRun
  x.tick provenance

def relabelledRun : Except String (Session setup) := do
  let x ← resumedRun
  let x ← x.observe provenance (relabelled 1)
  x.tick provenance

def labelChange (n sequence : ℕ) : AdmissionInput where
  event := Session.event setup provenance sequence .authorityChanged (some (relabelled n)) none
    none none none
  plan := plan

end Demo

end AgenticPkm.Builderops
