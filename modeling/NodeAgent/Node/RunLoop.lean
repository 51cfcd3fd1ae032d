import NodeAgent.Library.Trace
import NodeAgent.Node.Pause

/-!
# The supervised loop

`node-agent::daemon::run_loop`.  A round asks for the settings, runs one tick
with them, drives the won jobs and sends one heartbeat.  The settings source,
the market, the bid placer, the executor and the heartbeat sender are
operations, and any answer of theirs is possible.
-/

namespace NodeAgent.Node

open Chainio Interaction Lifecycle Supervision

inductive LoopOp
  | currentSettings
  | daemon (op : DaemonOp)
  | executorTick
  | sendHeartbeat (calldata : Bytes)
  | clock
  | sleep
deriving DecidableEq

abbrev LoopAnswer : LoopOp → Type
  | .currentSettings => Except String Bidder.Settings
  | .daemon op => DaemonAnswer op
  | .executorTick => Unit
  | .sendHeartbeat _ => Except HeartbeatError SendOutcome
  | .clock => Nat
  | .sleep => Unit

abbrev LoopProgram := Program LoopOp LoopAnswer

def HeartbeatError.display : HeartbeatError → String
  | .send message => s!"heartbeat send failed: {message}"

/-- The settings of a tick whose configuration could not be read. -/
def disabledSettings : Bidder.Settings where
  enabled := false
  schedule := .always
  currentHour := 0
  currentMin := 0
  currentDay := .mon

/-- The source's answer, or the disabled settings and the error to record. -/
def settingsForTick : Except String Bidder.Settings →
    Bidder.Settings × Option String
  | .ok settings => (settings, none)
  | .error error =>
      (disabledSettings,
        some s!"settings reload failed (not bidding): {error}")

/-- One acquisition of the state's lock. -/
def writeState (updates : List StateUpdate) : LoopProgram Unit :=
  Program.perform (LoopOp.daemon (.write updates))

/-- A tick as a part of the loop. -/
def tickInLoop (settings : Bidder.Settings) : LoopProgram TickOutcome :=
  (tick settings).interp fun op => Program.perform (LoopOp.daemon op)

section Hashes

variable [HashFunctions]

/-- `daemon::beat`.  Only a broadcast is recorded as liveness. -/
def beat : LoopProgram (Except HeartbeatError SendOutcome) := do
  let result ← Program.perform (LoopOp.sendHeartbeat heartbeatCalldata)
  match result with
  | .ok .broadcast =>
      let now ← Program.perform LoopOp.clock
      writeState [.recordHeartbeat now]
  | .ok .queued => writeState []
  | .error error => writeState [.setLastError (some error.display)]
  return result

def recordSettingsError : Option String → LoopProgram Unit
  | some error => writeState [.setLastError (some error)]
  | none => return ()

/-- The body of the loop, without the counting of ticks. -/
def loopBody : LoopProgram Unit := do
  let answer ← Program.perform LoopOp.currentSettings
  let (settings, error) := settingsForTick answer
  let _ ← tickInLoop settings
  recordSettingsError error
  Program.perform LoopOp.executorTick
  let _ ← beat
  return ()

def reached (maxTicks : Option Nat) (ticks : Nat) : Bool :=
  match maxTicks with
  | some max => ticks ≥ max
  | none => false

/-- At most `rounds` rounds of the loop, after the given number of ticks;
returns whether the loop ended by itself. -/
def runLoopFrom (maxTicks : Option Nat) : (rounds ticks : Nat) →
    LoopProgram Bool
  | 0, _ => return false
  | rounds + 1, ticks =>
      if reached maxTicks ticks then return true
      else do
        loopBody
        if reached maxTicks (ticks + 1) then return true
        else
          Program.perform LoopOp.sleep
          runLoopFrom maxTicks rounds (ticks + 1)

/-- `daemon::run_loop`, cut off after `rounds` rounds. -/
def runLoop (maxTicks : Option Nat) (rounds : Nat) : LoopProgram Bool :=
  runLoopFrom maxTicks rounds 0

end Hashes

abbrev LoopEvent := Event LoopAnswer

def readsSettings (event : LoopEvent) : Bool :=
  event.1 = .currentSettings

def refreshes (event : LoopEvent) : Bool :=
  event.1 = .daemon .refresh

def sendsHeartbeat (event : LoopEvent) : Bool :=
  match event.1 with
  | .sendHeartbeat _ => true
  | _ => false

def placesBid (event : LoopEvent) : Bool :=
  match event.1 with
  | .daemon (.place _ _ _ _) => true
  | _ => false

/-- The events permit this bid: the settings and the market were read, bids
are accepted, and the bidder decided on it. -/
def Permitted (events : List LoopEvent) (jobId priceWei expiresBlock : Nat) :
    Prop :=
  ∃ settings snapshot cost,
    ⟨.currentSettings, .ok settings⟩ ∈ events ∧
      ⟨.daemon .refresh, .ok snapshot⟩ ∈ events ∧
      ⟨.daemon .acceptsNewBids, true⟩ ∈ events ∧
      snapshot.bidExpiresBlock = some expiresBlock ∧
      Bidder.evaluate snapshot.job snapshot.oracle settings snapshot.caps =
        .bid jobId priceWei cost

/-- The events of a tick, or of the first part of one. -/
structure PartTick (events : List LoopEvent) : Prop where
  starts : ∀ event ∈ events.head?, readsSettings event = true
  settings : events.countP readsSettings ≤ 1
  refreshes : events.countP refreshes ≤ 1
  heartbeats : events.countP sendsHeartbeat ≤ 1
  places : events.countP placesBid ≤ 1
  permitted : ∀ before after jobId priceWei latencyMs expiresBlock answer,
    events = before ++
        ⟨.daemon (.place jobId priceWei latencyMs expiresBlock), answer⟩ ::
          after →
      Permitted before jobId priceWei expiresBlock

/-- The events of a whole tick. -/
structure WholeTick (events : List LoopEvent) : Prop
    extends PartTick events where
  settingsOnce : events.countP readsSettings = 1
  refreshedOnce : events.countP Node.refreshes = 1
  heartbeatOnce : events.countP sendsHeartbeat = 1

theorem partTick_nil : PartTick [] where
  starts := nofun
  settings := Nat.zero_le _
  refreshes := Nat.zero_le _
  heartbeats := Nat.zero_le _
  places := Nat.zero_le _
  permitted before _ _ _ _ _ _ split := by simp at split

theorem atMostOnce_of_append {happens : LoopEvent → Bool}
    {first second : List LoopEvent}
    (once : (first ++ second).countP happens ≤ 1) :
    first.countP happens ≤ 1 :=
  ((List.sublist_append_left first second).countP_le).trans once

/-- What a tick did until it was stopped is the first part of a tick. -/
theorem PartTick.of_append {first second : List LoopEvent}
    (part : PartTick (first ++ second)) : PartTick first where
  starts := by
    intro event head
    apply part.starts
    rw [List.head?_append, Option.mem_def.mp head]
    rfl
  settings := atMostOnce_of_append part.settings
  refreshes := atMostOnce_of_append part.refreshes
  heartbeats := atMostOnce_of_append part.heartbeats
  places := atMostOnce_of_append part.places
  permitted before after jobId priceWei latencyMs expiresBlock answer split :=
    part.permitted before (after ++ second) jobId priceWei latencyMs
      expiresBlock answer (by rw [split, List.append_assoc]; rfl)

/-- An event that reads nothing a bid depends on and places none. -/
def Neutral (event : LoopEvent) : Prop :=
  readsSettings event = false ∧ Node.refreshes event = false ∧
    placesBid event = false

section Neutral

variable {updates : List StateUpdate} {calldata : Bytes}

@[simp] theorem neutral_write
    {answer : LoopAnswer (.daemon (.write updates))} :
    Neutral ⟨.daemon (.write updates), answer⟩ := by
  simp [Neutral, readsSettings, refreshes, placesBid]

@[simp] theorem neutral_acceptsNewBids
    {answer : LoopAnswer (.daemon .acceptsNewBids)} :
    Neutral ⟨.daemon .acceptsNewBids, answer⟩ := by
  simp [Neutral, readsSettings, refreshes, placesBid]

@[simp] theorem neutral_sendHeartbeat
    {answer : LoopAnswer (.sendHeartbeat calldata)} :
    Neutral ⟨.sendHeartbeat calldata, answer⟩ := by
  simp [Neutral, readsSettings, refreshes, placesBid]

@[simp] theorem neutral_clock {now : LoopAnswer .clock} :
    Neutral ⟨.clock, now⟩ := by
  simp [Neutral, readsSettings, refreshes, placesBid]

@[simp] theorem neutral_executorTick {answer : LoopAnswer .executorTick} :
    Neutral ⟨.executorTick, answer⟩ := by
  simp [Neutral, readsSettings, refreshes, placesBid]

@[simp] theorem neutral_sleep {answer : LoopAnswer .sleep} :
    Neutral ⟨.sleep, answer⟩ := by
  simp [Neutral, readsSettings, refreshes, placesBid]

end Neutral

/-- The events of a whole tick: one refresh, and at most one bid, on that
refresh, after the pause flag was read. -/
inductive TickEvents (settings : Bidder.Settings) :
    List (Event DaemonAnswer) → Prop
  | quiet {view : Except String MarketSnapshot}
      {rest : List (Event DaemonAnswer)}
      (neutral : ∀ event ∈ rest, Neutral ⟨.daemon event.1, event.2⟩) :
      TickEvents settings (⟨.refresh, view⟩ :: rest)
  | placed {snapshot : MarketSnapshot} {updates after : List StateUpdate}
      {jobId priceWei cost latencyMs expiresBlock : Nat}
      {placed : Except String Unit}
      (isOpen : snapshot.bidExpiresBlock = some expiresBlock)
      (decided : Bidder.evaluate snapshot.job snapshot.oracle settings
        snapshot.caps = .bid jobId priceWei cost) :
      TickEvents settings
        [⟨.refresh, .ok snapshot⟩, ⟨.write updates, ()⟩,
          ⟨.acceptsNewBids, true⟩,
          ⟨.place jobId priceWei latencyMs expiresBlock, placed⟩,
          ⟨.write after, ()⟩]

theorem tick_events {settings : Bidder.Settings}
    {events : List (Event DaemonAnswer)} {outcome : TickOutcome}
    (traced : (tick settings).Traces events (some outcome)) :
    TickEvents settings events := by
  simp only [tick, Program.perform_bind, Program.traces_call] at traced
  obtain ⟨view, rest, rfl, traced⟩ := traced
  cases view with
  | error error =>
      simp only [Program.traces_call, Program.pure_eq,
        Program.traces_done] at traced
      obtain ⟨answer, rest, rfl, rfl, -⟩ := traced
      apply TickEvents.quiet
      simp
  | ok snapshot =>
      simp only [tickOn, Program.perform_bind, Program.traces_call] at traced
      obtain ⟨answer, rest, rfl, accepts, rest, rfl, traced⟩ := traced
      cases accepts with
      | false =>
          simp only [Program.pure_eq, Program.traces_done] at traced
          obtain ⟨rfl, -⟩ := traced
          apply TickEvents.quiet
          simp
      | true =>
          cases isOpen : snapshot.bidExpiresBlock with
          | none =>
              simp only [isOpen, Program.traces_call, Program.pure_eq,
                Program.traces_done] at traced
              obtain ⟨answer, rest, rfl, rfl, -⟩ := traced
              apply TickEvents.quiet
              simp
          | some expiresBlock =>
              simp only [isOpen] at traced
              cases decided : Bidder.evaluate snapshot.job snapshot.oracle
                  settings snapshot.caps with
              | skip jobId reason =>
                  simp only [decided, placeBid, Program.perform_bind,
                    Program.traces_call, Program.pure_eq,
                    Program.traces_done] at traced
                  obtain ⟨answer, rest, rfl, rfl, -⟩ := traced
                  apply TickEvents.quiet
                  simp
              | bid jobId priceWei cost =>
                  simp only [decided, placeBid, Program.perform_bind,
                    Program.traces_call] at traced
                  obtain ⟨placed, rest, rfl, traced⟩ := traced
                  cases placed <;>
                    simp only [Program.traces_call, Program.pure_eq,
                      Program.traces_done] at traced <;>
                    obtain ⟨answer, rest, rfl, rfl, -⟩ := traced <;>
                    exact .placed isOpen decided

section Hashes

variable [HashFunctions]

theorem beat_events {events : List LoopEvent}
    {result : Except HeartbeatError SendOutcome}
    (traced : beat.Traces events (some result)) :
    events.countP sendsHeartbeat = 1 ∧ ∀ event ∈ events, Neutral event := by
  simp only [beat, Program.perform_bind, Program.traces_call] at traced
  obtain ⟨answer, rest, rfl, traced⟩ := traced
  rcases answer with error | outcome
  · simp only [writeState, Program.perform_bind, Program.traces_call,
      Program.pure_eq, Program.traces_done] at traced
    obtain ⟨answer, rest, rfl, rfl, -⟩ := traced
    exact ⟨rfl, by simp⟩
  · cases outcome with
    | broadcast =>
        simp only [writeState, Program.perform_bind, Program.traces_call,
          Program.pure_eq, Program.traces_done] at traced
        obtain ⟨now, rest, rfl, answer, rest, rfl, rfl, -⟩ := traced
        exact ⟨rfl, by simp⟩
    | queued =>
        simp only [writeState, Program.perform_bind, Program.traces_call,
          Program.pure_eq, Program.traces_done] at traced
        obtain ⟨answer, rest, rfl, rfl, -⟩ := traced
        exact ⟨rfl, by simp⟩

/-- What follows the tick sends one heartbeat, whatever failed before. -/
theorem closing_events {error : Option String} {events : List LoopEvent}
    (traced : (do
      recordSettingsError error
      Program.perform LoopOp.executorTick
      let _ ← beat
      return () : LoopProgram Unit).Traces events (some ())) :
    events.countP sendsHeartbeat = 1 ∧ ∀ event ∈ events, Neutral event := by
  obtain ⟨_, recorded, closing, rfl, traced, closed⟩ :=
    Program.traces_bind_some traced
  have quiet : recorded.countP sendsHeartbeat = 0 ∧
      ∀ event ∈ recorded, Neutral event := by
    cases error with
    | none =>
        simp only [recordSettingsError, Program.pure_eq,
          Program.traces_done] at traced
        simp [traced.1]
    | some error =>
        simp only [recordSettingsError, writeState, Program.perform,
          Program.traces_call, Program.traces_done] at traced
        obtain ⟨answer, rest, rfl, rfl, -⟩ := traced
        exact ⟨rfl, by simp⟩
  simp only [Program.perform_bind, Program.traces_call] at closed
  obtain ⟨answer, rest, rfl, closed⟩ := closed
  obtain ⟨result, sent, nothing, rfl, beaten, done⟩ :=
    Program.traces_bind_some closed
  simp only [Program.pure_eq, Program.traces_done] at done
  obtain ⟨rfl, -⟩ := done
  obtain ⟨once, neutral⟩ := beat_events beaten
  constructor
  · have driven : sendsHeartbeat ⟨.executorTick, answer⟩ = false := rfl
    simp [quiet.1, once, driven]
  · intro event member
    simp only [List.append_nil, List.mem_append, List.mem_cons] at member
    rcases member with early | rfl | late
    · exact quiet.2 event early
    · simp
    · exact neutral event late

end Hashes

theorem countP_neutral {closing : List LoopEvent}
    (neutral : ∀ event ∈ closing, Neutral event) :
    closing.countP readsSettings = 0 ∧ closing.countP Node.refreshes = 0 ∧
      closing.countP placesBid = 0 := by
  refine ⟨List.countP_eq_zero.mpr ?_, List.countP_eq_zero.mpr ?_,
    List.countP_eq_zero.mpr ?_⟩ <;> intro event member
  · simp [(neutral event member).1]
  · simp [(neutral event member).2.1]
  · simp [(neutral event member).2.2]

/-- The events of a tick, as events of the loop. -/
def inLoop (events : List (Event DaemonAnswer)) : List LoopEvent :=
  events.map fun event => ⟨.daemon event.1, event.2⟩

@[simp] theorem inLoop_nil : inLoop [] = [] := rfl

@[simp] theorem inLoop_cons (event : Event DaemonAnswer)
    (rest : List (Event DaemonAnswer)) :
    inLoop (event :: rest) = ⟨.daemon event.1, event.2⟩ :: inLoop rest := rfl

theorem inLoop_counts (events : List (Event DaemonAnswer)) :
    (inLoop events).countP readsSettings = 0 ∧
      (inLoop events).countP sendsHeartbeat = 0 := by
  constructor <;> apply List.countP_eq_zero.mpr <;> intro event member <;>
    obtain ⟨inner, -, rfl⟩ := List.mem_map.mp member
  · simp [readsSettings]
  · simp [sendsHeartbeat]

/-- A bid can only be placed where the round places one. -/
theorem placed_split (first : List LoopEvent)
    {before after rest : List LoopEvent} {bid place : LoopEvent}
    (isPlace : placesBid bid = true)
    (quietFirst : first.countP placesBid = 0)
    (quietRest : rest.countP placesBid = 0)
    (split : first ++ place :: rest = before ++ bid :: after) :
    before = first ∧ bid = place := by
  have notFirst : bid ∉ first := fun member =>
    List.countP_eq_zero.mp quietFirst bid member isPlace
  have notRest : bid ∉ rest := fun member =>
    List.countP_eq_zero.mp quietRest bid member isPlace
  obtain ⟨same, equal, -⟩ :=
    (List.append_cons_inj_of_notMem notFirst notRest).mp split
  exact ⟨same.symm, equal.symm⟩

/-- A round is a whole tick when its tick is and one heartbeat follows. -/
theorem wholeTick_of {answer : Except String Bidder.Settings}
    {inner : List (Event DaemonAnswer)} {closing : List LoopEvent}
    (ticked : TickEvents (settingsForTick answer).1 inner)
    (once : closing.countP sendsHeartbeat = 1)
    (neutral : ∀ event ∈ closing, Neutral event) :
    WholeTick (⟨.currentSettings, answer⟩ :: (inLoop inner ++ closing)) := by
  obtain ⟨noSettings, noRefresh, noPlace⟩ := countP_neutral neutral
  obtain ⟨tickSettings, tickHeartbeat⟩ := inLoop_counts inner
  have settings : (⟨.currentSettings, answer⟩ ::
      (inLoop inner ++ closing) : List LoopEvent).countP readsSettings = 1 := by
    simp [tickSettings, noSettings, readsSettings]
  have heartbeat : (⟨.currentSettings, answer⟩ ::
      (inLoop inner ++ closing) : List LoopEvent).countP
        sendsHeartbeat = 1 := by
    simp [tickHeartbeat, once, sendsHeartbeat]
  have starts : ∀ event ∈ (⟨.currentSettings, answer⟩ ::
      (inLoop inner ++ closing) : List LoopEvent).head?,
      readsSettings event = true := by
    intro event head
    rw [← Option.some.inj head]
    rfl
  cases ticked with
  | @quiet view rest neutralRest =>
      have neutralTick : ∀ event ∈ inLoop rest, Neutral event := by
        intro event member
        obtain ⟨inner, isInner, rfl⟩ := List.mem_map.mp member
        exact neutralRest inner isInner
      obtain ⟨-, restRefresh, restPlace⟩ := countP_neutral neutralTick
      have refreshed : (⟨.currentSettings, answer⟩ ::
          (inLoop (⟨.refresh, view⟩ :: rest) ++ closing) :
            List LoopEvent).countP Node.refreshes = 1 := by
        simp [restRefresh, noRefresh, refreshes]
      have placed : (⟨.currentSettings, answer⟩ ::
          (inLoop (⟨.refresh, view⟩ :: rest) ++ closing) :
            List LoopEvent).countP placesBid = 0 := by
        simp [restPlace, noPlace, placesBid]
      refine ⟨⟨starts, settings.le, refreshed.le, heartbeat.le, ?_, ?_⟩,
        settings, refreshed, heartbeat⟩
      · omega
      · intro before after jobId priceWei latencyMs expiresBlock bid split
        rw [split] at placed
        have quiet := List.countP_eq_zero.mp placed _
          (List.mem_append_right before List.mem_cons_self)
        exact absurd rfl quiet
  | @placed snapshot updates later _ _ cost _ _ _ isOpen decided =>
      refine ⟨⟨starts, settings.le, ?_, heartbeat.le, ?_, ?_⟩, settings, ?_,
        heartbeat⟩
      · simp [noRefresh, refreshes]
      · simp [List.countP_cons, noPlace, placesBid]
      · intro before after jobId priceWei latencyMs expiresBlock bid split
        obtain ⟨rfl, same⟩ := placed_split
          [⟨.currentSettings, answer⟩, ⟨.daemon .refresh, .ok snapshot⟩,
            ⟨.daemon (.write updates), ()⟩, ⟨.daemon .acceptsNewBids, true⟩]
          rfl rfl (by simpa [placesBid] using noPlace) split
        cases same
        cases answer with
        | error error => exact Bidder.BidDecision.noConfusion decided
        | ok current =>
            exact ⟨current, snapshot, cost, by simp, by simp, by simp, isOpen,
              decided⟩
      · simp [noRefresh, refreshes]

section Hashes

variable [HashFunctions]

/-- A round of the loop is a whole tick, with the pause that follows it. -/
theorem loopBody_wholeTick {events : List LoopEvent} (pause : List LoopEvent)
    (traced : loopBody.Traces events (some ()))
    (neutral : ∀ event ∈ pause, Neutral event)
    (silent : pause.countP sendsHeartbeat = 0) :
    WholeTick (events ++ pause) := by
  simp only [loopBody, Program.perform_bind, Program.traces_call] at traced
  obtain ⟨answer, rest, rfl, traced⟩ := traced
  obtain ⟨outcome, ticked, closing, rfl, first, closed⟩ :=
    Program.traces_bind_some traced
  obtain ⟨inner, ran, rfl⟩ := Program.traces_interp first
  obtain ⟨once, neutralClosing⟩ := closing_events closed
  rw [List.cons_append, List.append_assoc]
  apply wholeTick_of (tick_events ran)
  · rw [List.countP_append, once, silent]
  · intro event member
    rcases List.mem_append.mp member with early | late
    · exact neutralClosing event early
    · exact neutral event late

theorem loopBody_partTick {events : List LoopEvent}
    (traced : loopBody.Traces events none) : PartTick events := by
  have answered (op : LoopOp) : Nonempty (LoopAnswer op) := by
    cases op with
    | daemon op =>
        cases op <;>
        exact ⟨by first | exact .error "" | exact true | exact ()⟩
    | currentSettings => exact ⟨.error ""⟩
    | executorTick => exact ⟨()⟩
    | sendHeartbeat calldata => exact ⟨.error (.send "")⟩
    | clock => exact ⟨0⟩
    | sleep => exact ⟨()⟩
  obtain ⟨rest, _, completed⟩ := traced.completes answered
  have whole := loopBody_wholeTick [] completed nofun rfl
  rw [List.append_nil] at whole
  exact whole.toPartTick.of_append

end Hashes

/-- A run consists of whole ticks, and of what was done of one more before the
run was stopped. -/
structure Disciplined (run : List LoopEvent) (returned : Bool)
    (ticks : List (List LoopEvent)) (unfinished : List LoopEvent) : Prop where
  split : run = ticks.flatten ++ unfinished
  whole : ∀ tick ∈ ticks, WholeTick tick
  part : PartTick unfinished
  finished : returned = true → unfinished = []

theorem disciplined_nil (returned : Bool) :
    Disciplined [] returned [] [] :=
  ⟨rfl, nofun, partTick_nil, fun _ => rfl⟩

theorem reached_eq {maxTicks : Option Nat} {done : Nat}
    (bounded : ∀ max ∈ maxTicks, done ≤ max)
    (here : reached maxTicks done = true) : maxTicks = some done := by
  cases maxTicks with
  | none => cases here
  | some max =>
      have within := bounded max rfl
      simp only [reached, decide_eq_true_eq] at here
      rw [Nat.le_antisymm within here]

theorem not_reached_succ {maxTicks : Option Nat} {done : Nat}
    (before : ¬reached maxTicks done = true) :
    ∀ max ∈ maxTicks, done + 1 ≤ max := by
  intro max isMax
  obtain rfl := Option.mem_def.mp isMax
  simp only [reached, decide_eq_true_eq] at before
  omega

theorem Disciplined.cons {tick rest unfinished : List LoopEvent}
    {returned : Bool} {ticks : List (List LoopEvent)} (whole : WholeTick tick)
    (disciplined : Disciplined rest returned ticks unfinished) :
    Disciplined (tick ++ rest) returned (tick :: ticks) unfinished where
  split := by
    rw [disciplined.split, List.flatten_cons, List.append_assoc]
  whole := by
    intro other member
    rcases List.mem_cons.mp member with rfl | later
    · exact whole
    · exact disciplined.whole other later
  part := disciplined.part
  finished := disciplined.finished

section Hashes

variable [HashFunctions]

theorem runLoopFrom_disciplined {maxTicks : Option Nat} {rounds done : Nat}
    (bounded : ∀ max ∈ maxTicks, done ≤ max) {run : List LoopEvent}
    {result : Option Bool}
    (traced : (runLoopFrom maxTicks rounds done).Traces run result) :
    ∃ ticks unfinished, Disciplined run result.isSome ticks unfinished ∧
      (result = some true → maxTicks = some (done + ticks.length)) ∧
      (result = some false → ticks.length = rounds) := by
  induction rounds generalizing done run with
  | zero =>
      cases traced with
      | stopped => exact ⟨[], [], disciplined_nil _, nofun, nofun⟩
      | done => exact ⟨[], [], disciplined_nil _, nofun, fun _ => rfl⟩
  | succ rounds ih =>
      rw [runLoopFrom] at traced
      by_cases here : reached maxTicks done = true
      · rw [if_pos here] at traced
        cases traced with
        | stopped => exact ⟨[], [], disciplined_nil _, nofun, nofun⟩
        | done =>
            exact ⟨[], [], disciplined_nil _, fun _ => reached_eq bounded here,
              nofun⟩
      · rw [if_neg here] at traced
        rcases Program.traces_bind traced with
          ⟨rfl, stopped⟩ | ⟨_, round, later, rfl, ran, after⟩
        · exact ⟨[], run, ⟨rfl, nofun, loopBody_partTick stopped, nofun⟩,
            nofun, nofun⟩
        · have whole := loopBody_wholeTick [] ran nofun rfl
          rw [List.append_nil] at whole
          have next := not_reached_succ here
          by_cases last : reached maxTicks (done + 1) = true
          · rw [if_pos last] at after
            have ended := reached_eq next last
            cases after with
            | stopped =>
                exact ⟨[round], [], (disciplined_nil _).cons whole, nofun,
                  nofun⟩
            | done =>
                exact ⟨[round], [], (disciplined_nil _).cons whole,
                  fun _ => ended, nofun⟩
          · rw [if_neg last] at after
            cases after with
            | stopped =>
                exact ⟨[round], [], (disciplined_nil _).cons whole, nofun,
                  nofun⟩
            | @call _ answer _ rest _ after =>
                obtain ⟨ticks, unfinished, disciplined, ended, cut⟩ :=
                  ih next after
                have paused := loopBody_wholeTick
                  [⟨.sleep, answer⟩] ran (by simp) rfl
                refine ⟨(round ++ [⟨.sleep, answer⟩]) :: ticks, unfinished,
                  ?_, ?_, ?_⟩
                · have longer := disciplined.cons paused
                  rwa [List.append_assoc] at longer
                · intro returned
                  rw [ended returned, List.length_cons]
                  congr 1
                  omega
                · intro returned
                  rw [List.length_cons, cut returned]

/-- A bid is only placed where the same tick permits it, and every tick sends
one heartbeat, in every run of the loop.  A loop that ends by itself has done all
its ticks, and one that is cut off has done one in each round. -/
theorem runLoop_disciplined {maxTicks : Option Nat} {rounds : Nat}
    {run : List LoopEvent} {result : Option Bool}
    (traced : (runLoop maxTicks rounds).Traces run result) :
    ∃ ticks unfinished, Disciplined run result.isSome ticks unfinished ∧
      (result = some true → maxTicks = some ticks.length) ∧
      (result = some false → ticks.length = rounds) := by
  have bounded : ∀ max ∈ maxTicks, 0 ≤ max := fun max _ => Nat.zero_le max
  simpa using runLoopFrom_disciplined bounded traced

end Hashes

/-- Everything succeeds, and the beat is queued. -/
def sampleAnswers : (op : LoopOp) → LoopAnswer op
  | .currentSettings => .ok sampleSettings
  | .daemon .refresh => .ok sampleSnapshot
  | .daemon (.write _) => ()
  | .daemon .acceptsNewBids => true
  | .daemon (.place _ _ _ _) => .ok ()
  | .executorTick => ()
  | .sendHeartbeat _ => .ok .queued
  | .clock => 0
  | .sleep => ()

/-- Two rounds of a loop of two ticks. -/
def sampleRun : List LoopEvent × Bool :=
  (@runLoop sampleHashes (some 2) 2).record sampleAnswers

theorem runLoop_disciplined_twoBids :
    sampleRun.1.countP placesBid = 2 ∧ sampleRun.2 = true ∧
      ∃ ticks unfinished,
        Disciplined sampleRun.1 true ticks unfinished ∧
          (some sampleRun.2 = some true → some 2 = some ticks.length) ∧
          (some sampleRun.2 = some false → ticks.length = 2) :=
  ⟨by decide, by decide,
    @runLoop_disciplined sampleHashes _ _ _ _
      (Program.traces_record sampleAnswers _)⟩

end NodeAgent.Node
