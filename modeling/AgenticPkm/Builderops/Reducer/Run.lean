import AgenticPkm.Builderops.Reducer.Lifecycle
import AgenticPkm.Lib.History

/-!
# Runs of the reducer

A run starts in the initial state of a validated plan and is fed admitted events
and lifecycle commands, in any order.  Its history is what every statement about
whole runs is read off: the events accepted so far, the effects proposed so far,
and the evidence log an admission may cite.
-/

namespace AgenticPkm.Builderops

/-- What a run is fed. -/
inductive RunInput (hash : Json → String)
  | event (admitted : AdmittedEvent hash)
  | command (command : LifecycleCommand)

/-- The reducer as a machine: events and commands step the run state. -/
def reducer (hash : Json → String) : Machine DeliveryRunState (RunInput hash) Reduction where
  step state
    | .event admitted => reduceDeliveryRun state admitted
    | .command command => reduceLifecycleCommand hash state command
  next := Reduction.state

abbrev RunStep (hash : Json → String) := Machine.Step DeliveryRunState (RunInput hash) Reduction

variable {hash : Json → String}

def RunStep.acceptedEvent (st : RunStep hash) : Option (AdmittedEvent hash) :=
  match st.input, st.result.refusal with
  | .event admitted, none => some admitted
  | _, _ => none

theorem RunStep.acceptedEvent_eq_some_iff {st : RunStep hash} {a : AdmittedEvent hash} :
    st.acceptedEvent = some a ↔ st.input = .event a ∧ st.result.refusal = none := by
  unfold RunStep.acceptedEvent
  split
  · next hi hr => simp [hi, hr]
  · next ho =>
    simp only [reduceCtorEq, false_iff, not_and]
    exact fun hi hr => ho a hi hr

/-- The events accepted in a history, oldest first. -/
def acceptedEvents (h : List (RunStep hash)) : List (AdmittedEvent hash) :=
  h.filterMap RunStep.acceptedEvent

def emittedProposals (h : List (RunStep hash)) : List EffectProposal :=
  h.flatMap fun st => st.result.effects

namespace AdmittedEvent

def reportedEffect (a : AdmittedEvent hash) : Option ReducerEffect :=
  if a.event.eventType.isEffectResult then a.effect else none

def recordedResult (a : AdmittedEvent hash) : Option StructuredWorkerResult :=
  if a.event.eventType == .workerResultRecorded then
    a.workerResult.map WorkerResultV2.deliveryResult
  else
    none

def recordedReview (a : AdmittedEvent hash) : Option ReviewResult :=
  if a.event.eventType == .reviewResultRecorded then a.reviewResult else none

/-- The event was admitted under the given plan. -/
def Under (plan : DeliveryPlan) (a : AdmittedEvent hash) : Prop :=
  ∃ input, resolveAdmission hash input = .ok a.toAdmission ∧ input.plan = plan

end AdmittedEvent

/-- The evidence the accepted events of a history are. -/
def evidenceLog (events : List (AdmittedEvent hash)) : EvidenceLog where
  effects := events.filterMap AdmittedEvent.reportedEffect
  events := events.map fun a => a.event
  workerResults := events.filterMap AdmittedEvent.recordedResult
  reviewResults := events.filterMap AdmittedEvent.recordedReview

/-- The start of a run: a validated plan, a profile, and the initial state. -/
structure RunSetup (hash : Json → String) where
  runId : String
  plan : DeliveryPlan
  profile : DeliveryAcceptanceProfile
  controlScopes : List String
  initial : DeliveryRunState
  plan_valid : plan.validate = .ok ()
  initial_eq : initialDeliveryRunState hash runId plan profile controlScopes = .ok initial

namespace RunSetup

variable (S : RunSetup hash)

/-- The inputs of a run: any command, and any admitted event.  Admission binds an
event to a plan by its content hash; the guard leaves out the collision, an event
that repeats the reference of this plan and was admitted under another one. -/
def Admits (_ : List (RunStep hash)) (_ : DeliveryRunState) : RunInput hash → Prop
  | .event a => a.event.planRef = S.plan.ref hash → a.Under S.plan
  | .command _ => True

/-- `S.Reaches h s`: the history `h` of admitted events and commands leads from the
initial state to `s`. -/
def Reaches (h : List (RunStep hash)) (s : DeliveryRunState) : Prop :=
  (reducer hash).Run S.Admits S.initial h s

/-- The inputs of an ordered run: an event is admitted against the accepted events
and comes after all of them. -/
def AdmitsOrdered (h : List (RunStep hash)) (_ : DeliveryRunState) : RunInput hash → Prop
  | .event a =>
      (∃ input, resolveAdmission hash input = .ok a.toAdmission ∧
        (a.event.planRef = S.plan.ref hash → input.plan = S.plan) ∧
        input.priorEvents = (acceptedEvents h).map fun b => b.event) ∧
      ∀ b ∈ acceptedEvents h, b.event.sequence < a.event.sequence
  | .command _ => True

/-- `S.ReachesOrdered h s`: the same for a run whose events are admitted against
the accepted events, in increasing sequence. -/
def ReachesOrdered (h : List (RunStep hash)) (s : DeliveryRunState) : Prop :=
  (reducer hash).Run S.AdmitsOrdered S.initial h s

/-- The inputs of a logged run: all prior evidence of an admission is the accepted
log. -/
def AdmitsLogged (h : List (RunStep hash)) (_ : DeliveryRunState) : RunInput hash → Prop
  | .event a =>
      (∃ input, resolveAdmission hash input = .ok a.toAdmission ∧
        (a.event.planRef = S.plan.ref hash → input.plan = S.plan) ∧
        input.log = evidenceLog (acceptedEvents h)) ∧
      ∀ b ∈ acceptedEvents h, b.event.sequence < a.event.sequence
  | .command _ => True

/-- `S.ReachesLogged h s`: the same for a run whose admissions cite exactly the
accepted log. -/
def ReachesLogged (h : List (RunStep hash)) (s : DeliveryRunState) : Prop :=
  (reducer hash).Run S.AdmitsLogged S.initial h s

variable {S} {h : List (RunStep hash)} {s : DeliveryRunState} {r : Reduction} {i : RunInput hash}

theorem ReachesLogged.event {a : AdmittedEvent hash} (hr : S.ReachesLogged h s)
    (ha : S.AdmitsLogged h s (.event a)) (hstep : reduceDeliveryRun s a = .ok r) :
    S.ReachesLogged (h ++ [⟨s, .event a, r⟩]) r.state :=
  Machine.Run.step (i := RunInput.event a) hr ha hstep

theorem ReachesLogged.command {c : LifecycleCommand} (hr : S.ReachesLogged h s)
    (hstep : reduceLifecycleCommand hash s c = .ok r) :
    S.ReachesLogged (h ++ [⟨s, .command c, r⟩]) r.state :=
  Machine.Run.step (i := RunInput.command c) hr trivial hstep

theorem AdmitsLogged.admitsOrdered (hi : S.AdmitsLogged h s i) : S.AdmitsOrdered h s i := by
  cases i with
  | command c => trivial
  | event a =>
    obtain ⟨⟨ip, hinp, hp, hl⟩, hseq⟩ := hi
    have hev : ip.log.events = (evidenceLog (acceptedEvents h)).events := by rw [hl]
    exact ⟨⟨ip, hinp, hp, hev⟩, hseq⟩

theorem ReachesLogged.reachesOrdered (hr : S.ReachesLogged h s) : S.ReachesOrdered h s :=
  Machine.Run.mono (fun _ _ _ hi => AdmitsLogged.admitsOrdered hi) hr

theorem AdmitsOrdered.admits (hi : S.AdmitsOrdered h s i) : S.Admits h s i := by
  cases i with
  | command c => trivial
  | event a =>
    intro hr
    obtain ⟨⟨ip, hinp, hp, -⟩, -⟩ := hi
    exact ⟨ip, hinp, hp hr⟩

theorem ReachesOrdered.reaches (hr : S.ReachesOrdered h s) : S.Reaches h s :=
  Machine.Run.mono (fun _ _ _ hi => AdmitsOrdered.admits hi) hr

end RunSetup

/-! ### Histories -/

@[simp] theorem acceptedEvents_append (h h' : List (RunStep hash)) :
    acceptedEvents (h ++ h') = acceptedEvents h ++ acceptedEvents h' := by
  simp [acceptedEvents]

@[simp] theorem emittedProposals_append (h h' : List (RunStep hash)) :
    emittedProposals (h ++ h') = emittedProposals h ++ emittedProposals h' := by
  simp [emittedProposals]

@[simp] theorem emittedProposals_single (st : RunStep hash) :
    emittedProposals [st] = st.result.effects := by
  simp [emittedProposals]

theorem acceptedEvents_single (st : RunStep hash) :
    acceptedEvents [st] = st.acceptedEvent.toList := by
  cases h : st.acceptedEvent <;> simp [acceptedEvents, h]

end AgenticPkm.Builderops
