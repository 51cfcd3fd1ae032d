import NodeAgent.Supervision.Queue

/-!
# The operator alert

A provider observation that shows a slash or a reputation drop raises an
alert, which is served in `/health` until it is cleared.  There is one alert
slot for all dangerous events.
-/

namespace NodeAgent.Supervision

/-- A dangerous change between two consecutive observations. -/
inductive AlertEvent
  | reputationDropped (previous current : Nat)
  | stakeSlashed (previous current : Nat)
deriving DecidableEq

/-- The text of the alert for this event. -/
def AlertEvent.text : AlertEvent → String
  | .reputationDropped previous current =>
      s!"reputation dropped >5% since last poll: {previous} → {current} bps"
  | .stakeSlashed previous current =>
      s!"stake slashed: {previous} → {current} wei"

/-- What a provider observation reads. -/
structure Observation where
  maxConcurrent : Nat
  reputationBps : Nat
  stakeWei : Nat
deriving DecidableEq

/-- The events that an observation shows against the previous one: less than
95% of its reputation, less than its stake. -/
def alertEvents (previous : Option Observation) (current : Observation) :
    List AlertEvent :=
  match previous with
  | none => []
  | some previous =>
      (if current.reputationBps * 100 < previous.reputationBps * 95 then
        [.reputationDropped previous.reputationBps current.reputationBps]
      else []) ++
      (if current.stakeWei < previous.stakeWei then
        [.stakeSlashed previous.stakeWei current.stakeWei]
      else [])

inductive AgentOp
  | observe (observation : Observation)
  | clearAlert
  | pause
  | resume
  | setBidding (bidding : Bool)
  | setIdle
  | setActiveJobs (active : Nat)
  | setProviderStats (maxConcurrent reputationBps : Nat)
  | recordHeartbeat (now : Nat)
  | setLastError (error : Option String)
  | queue (op : QueueOp)
deriving DecidableEq

def AgentOp.apply (agent : AgentState) : AgentOp → AgentState
  | .observe observation =>
      agent.recordProviderObservation observation.maxConcurrent
        observation.reputationBps observation.stakeWei
  | .clearAlert => agent.clearAlert
  | .pause => agent.pause
  | .resume => agent.resume
  | .setBidding bidding => agent.setBidding bidding
  | .setIdle => agent.setIdle
  | .setActiveJobs active => agent.setActiveJobs active
  | .setProviderStats maxConcurrent reputationBps =>
      agent.setProviderStats maxConcurrent reputationBps
  | .recordHeartbeat now => agent.recordHeartbeatAt now
  | .setLastError error => agent.setLastError error
  | .queue op => queueStep agent op

/-- The agent, with what a perfect operator remembers: the last observation,
and every event since the alert was cleared. -/
structure AlertHistory where
  agent : AgentState
  previous : Option Observation
  outstanding : List AlertEvent
deriving DecidableEq

namespace AlertHistory

def initial : AlertHistory := ⟨AgentState.new, none, []⟩

def step (history : AlertHistory) (op : AgentOp) : AlertHistory :=
  { agent := op.apply history.agent
    previous :=
      match op with
      | .observe observation => some observation
      | _ => history.previous
    outstanding :=
      match op with
      | .observe observation =>
          history.outstanding ++ alertEvents history.previous observation
      | .clearAlert => []
      | _ => history.outstanding }

end AlertHistory

/-- How an event has to be worded for the operator: some part of its text. -/
structure Wording where
  report : AlertEvent → String
  partOfText : ∀ event, (report event).toList <:+: event.text.toList

/-- The whole text, with the values before and after. -/
def fullText : Wording where
  report := AlertEvent.text
  partOfText _ := List.infix_rfl

/-- Every event since the last clear is reported by the alert in `/health`. -/
def Latched (wording : Wording) (history : AlertHistory) : Prop :=
  ∀ event ∈ history.outstanding, ∀ now,
    ∃ alert, (history.agent.healthAt now).alert = some alert ∧
      (wording.report event).toList <:+: alert.toList

/-- An observation that raises an alert while others are outstanding raises
events in the same words. -/
def Repeats (wording : Wording) (history : AlertHistory) : AgentOp → Prop
  | .observe observation =>
      alertEvents history.previous observation ≠ [] →
        ∀ event ∈ history.outstanding,
          ∃ again ∈ alertEvents history.previous observation,
            wording.report again = wording.report event
  | _ => True

/-- What the state keeps of the last observation. -/
def Remembers (history : AlertHistory) : Prop :=
  history.agent.prevReputationBps =
      history.previous.map Observation.reputationBps ∧
    history.agent.prevStakeWei = history.previous.map Observation.stakeWei

theorem observationAlerts_eq {history : AlertHistory}
    (remembers : Remembers history) (observation : Observation) :
    history.agent.observationAlerts observation.reputationBps
        observation.stakeWei =
      (alertEvents history.previous observation).map AlertEvent.text := by
  obtain ⟨reputation, stake⟩ := remembers
  unfold AgentState.observationAlerts
  rw [reputation, stake]
  cases history.previous with
  | none => rfl
  | some previous =>
      simp only [alertEvents, Option.map_some, List.map_append]
      congr 1 <;> split <;> rfl

theorem infix_intercalate {separator part : List Char} :
    ∀ {parts : List (List Char)}, part ∈ parts →
      part <:+: separator.intercalate parts
  | [], member => absurd member List.not_mem_nil
  | [first], member => by
      have same : separator.intercalate [first] = part := by
        rw [List.intercalate_singleton, List.mem_singleton.mp member]
      exact same ▸ List.infix_rfl
  | first :: second :: rest, member => by
      rw [List.intercalate_cons_cons]
      rcases List.mem_cons.mp member with rfl | later
      · exact ⟨[], separator ++ separator.intercalate (second :: rest), by simp⟩
      · have inRest : part <:+: separator.intercalate (second :: rest) :=
          infix_intercalate later
        exact inRest.trans ⟨first ++ separator, [], by simp⟩

theorem infix_joined {text : String} {texts : List String}
    (member : text ∈ texts) :
    text.toList <:+: ("; ".intercalate texts).toList := by
  rw [String.toList_intercalate]
  exact infix_intercalate (List.mem_map_of_mem member)

/-- An observation that shows events reports all of them; a quiet one leaves
the alert as it is. -/
theorem observe_alert {history : AlertHistory}
    (remembers : Remembers history) (observation : Observation) :
    (alertEvents history.previous observation = [] ∧
      (history.step (.observe observation)).agent.alert =
        history.agent.alert) ∨
    alertEvents history.previous observation ≠ [] ∧ ∃ alert,
      (history.step (.observe observation)).agent.alert = some alert ∧
      ∀ event ∈ alertEvents history.previous observation,
        event.text.toList <:+: alert.toList := by
  have alerts := observationAlerts_eq remembers observation
  cases raised : alertEvents history.previous observation with
  | nil =>
      left
      rw [raised] at alerts
      refine ⟨rfl, ?_⟩
      simp [AlertHistory.step, AgentOp.apply,
        AgentState.recordProviderObservation, AgentState.setProviderStats,
        alerts]
  | cons event events =>
      right
      refine ⟨List.cons_ne_nil event events, ?_⟩
      rw [← raised]
      have nonempty : (history.agent.observationAlerts
          observation.reputationBps observation.stakeWei).isEmpty = false := by
        simp [alerts, raised]
      refine ⟨"; ".intercalate (history.agent.observationAlerts
        observation.reputationBps observation.stakeWei), ?_, ?_⟩
      · simp [AlertHistory.step, AgentOp.apply,
          AgentState.recordProviderObservation, AgentState.setProviderStats,
          nonempty]
      · intro event member
        rw [alerts]
        exact infix_joined (List.mem_map_of_mem member)

/-- Every operation other than an observation and a clear leaves the alert and
the last observation as they are. -/
theorem apply_frame (agent : AgentState) {op : AgentOp}
    (notObserve : ∀ observation, op ≠ .observe observation)
    (notClear : op ≠ .clearAlert) :
    (op.apply agent).alert = agent.alert ∧
      (op.apply agent).prevReputationBps = agent.prevReputationBps ∧
      (op.apply agent).prevStakeWei = agent.prevStakeWei := by
  cases op with
  | observe observation => exact absurd rfl (notObserve observation)
  | clearAlert => exact absurd rfl notClear
  | setBidding bidding =>
      simp only [AgentOp.apply, AgentState.setBidding]
      split <;> exact ⟨rfl, rfl, rfl⟩
  | queue op =>
      obtain ⟨queue, counter, heartbeat, same⟩ := queueStep_frame agent op
      rw [AgentOp.apply, same]
      exact ⟨rfl, rfl, rfl⟩
  | _ => exact ⟨rfl, rfl, rfl⟩

theorem remembers_step {history : AlertHistory} (op : AgentOp)
    (remembers : Remembers history) : Remembers (history.step op) := by
  by_cases observes : ∃ observation, op = .observe observation
  · obtain ⟨observation, rfl⟩ := observes
    unfold Remembers
    simp only [AlertHistory.step, AgentOp.apply,
      AgentState.recordProviderObservation, AgentState.setProviderStats]
    exact ⟨rfl, rfl⟩
  · have notObserve observation : op ≠ .observe observation :=
      fun isObserve => observes ⟨observation, isObserve⟩
    have same : (history.step op).previous = history.previous := by
      cases op with
      | observe observation => exact absurd rfl (notObserve observation)
      | _ => rfl
    unfold Remembers
    rw [same]
    by_cases clears : op = .clearAlert
    · subst clears
      exact remembers
    · obtain ⟨-, reputation, stake⟩ :=
        apply_frame history.agent notObserve clears
      exact ⟨reputation.trans remembers.1, stake.trans remembers.2⟩

theorem latched_step {wording : Wording} {history : AlertHistory} {op : AgentOp}
    (remembers : Remembers history) (latched : Latched wording history)
    (repeats : Repeats wording history op) :
    Latched wording (history.step op) := by
  by_cases clears : op = .clearAlert
  · subst clears
    exact fun event none => absurd none List.not_mem_nil
  by_cases observes : ∃ observation, op = .observe observation
  · obtain ⟨observation, rfl⟩ := observes
    rcases observe_alert remembers observation with
      ⟨quiet, sameAlert⟩ | ⟨loud, alert, served, reported⟩
    · intro event outstanding now
      have earlier : event ∈ history.outstanding := by
        simpa [AlertHistory.step, quiet] using outstanding
      obtain ⟨alert, served, reports⟩ := latched event earlier now
      exact ⟨alert, sameAlert.trans served, reports⟩
    · intro event outstanding now
      refine ⟨alert, served, ?_⟩
      rcases List.mem_append.mp outstanding with earlier | raised
      · obtain ⟨again, raised, sameWords⟩ := repeats loud event earlier
        rw [← sameWords]
        exact (wording.partOfText again).trans (reported again raised)
      · exact (wording.partOfText event).trans (reported event raised)
  · have notObserve observation : op ≠ .observe observation :=
      fun isObserve => observes ⟨observation, isObserve⟩
    obtain ⟨sameAlert, -, -⟩ := apply_frame history.agent notObserve clears
    have same : (history.step op).outstanding = history.outstanding := by
      cases op with
      | observe observation => exact absurd rfl (notObserve observation)
      | clearAlert => exact absurd rfl clears
      | _ => rfl
    intro event outstanding now
    rw [same] at outstanding
    obtain ⟨alert, served, reports⟩ := latched event outstanding now
    exact ⟨alert, sameAlert.trans served, reports⟩

/-- Alerts latch in every run in which an observation that raises an alert
repeats the events that are outstanding. -/
theorem alerts_latch (wording : Wording) (schedule : List AgentOp)
    (repeats : Runs.Along AlertHistory.step (Repeats wording)
      AlertHistory.initial schedule) :
    Latched wording
      (Runs.run AlertHistory.step AlertHistory.initial schedule) := by
  have preserved (history : AlertHistory) (op : AgentOp)
      (kept : Remembers history ∧ Latched wording history)
      (repeats : Repeats wording history op) :
      Remembers (history.step op) ∧ Latched wording (history.step op) :=
    ⟨remembers_step op kept.1, latched_step kept.1 kept.2 repeats⟩
  have initially : Remembers AlertHistory.initial ∧
      Latched wording AlertHistory.initial :=
    ⟨⟨rfl, rfl⟩, fun event none => absurd none List.not_mem_nil⟩
  exact (Runs.invariant_run preserved initially repeats).2

/-- Healthy, slashed, then a reputation drop. -/
def slashThenDrop : List AgentOp :=
  [.observe ⟨10, 9230, 1000⟩, .observe ⟨10, 9230, 950⟩,
    .observe ⟨10, 8000, 950⟩]

/-- Slashed, then healthy readings and a pause. -/
def slashThenPause : List AgentOp :=
  [.observe ⟨10, 9230, 1000⟩, .observe ⟨10, 9230, 950⟩, .pause,
    .observe ⟨10, 9230, 950⟩]

theorem alerts_latch_slashThenPause :
    Latched fullText
      (Runs.run AlertHistory.step AlertHistory.initial slashThenPause) := by
  apply alerts_latch fullText slashThenPause
  simp [slashThenPause, Repeats, AlertHistory.step, AlertHistory.initial,
    alertEvents]

/-- The slash is no longer reported once the reputation has dropped. -/
theorem slash_forgotten :
    ¬∀ schedule, Latched fullText
      (Runs.run AlertHistory.step AlertHistory.initial schedule) := by
  intro always
  obtain ⟨alert, served, reported⟩ := always slashThenDrop
    (.stakeSlashed 1000 950) (by decide) 0
  have shown : ((Runs.run AlertHistory.step AlertHistory.initial
      slashThenDrop).agent.healthAt 0).alert =
        some "reputation dropped >5% since last poll: 9230 → 8000 bps" := by
    decide +kernel
  obtain rfl := Option.some.inj (shown.symm.trans served)
  revert reported
  decide +kernel

end NodeAgent.Supervision
