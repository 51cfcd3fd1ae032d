import Mathlib.Order.Basic
import NodeAgent.Bidder.ComputeSettings
import NodeAgent.Node.Clock
import NodeAgent.Node.RunLoop
import NodeAgent.Node.TornViews

/-!
# The loop on its live settings and views

`run_loop` with `LiveSettings`, which reads the settings file and the clock in
every tick, and with the market view on a JSON-RPC node.  The file, the clock,
the chain and the pause flag may change between any two operations: a bid is
still the one that the rules give for what this tick itself has read.
-/

namespace NodeAgent.Node

open Bidder Chainio Interaction Supervision

inductive SettingsOp
  | readToString
  | now

abbrev SettingsAnswer : SettingsOp → Type
  | .readToString => Except String String
  | .now => Nat

structure LiveSettings where
  configPath : String

/-- `LiveSettings::current`. -/
def LiveSettings.current [DocumentCrate] (source : LiveSettings) :
    Program SettingsOp SettingsAnswer (Except String Settings) := do
  match ← Program.perform SettingsOp.readToString with
  | .error error => return .error s!"reading {source.configPath}: {error}"
  | .ok raw =>
      match ComputeSettings.fromJson raw with
      | .error error =>
          return .error s!"parsing {source.configPath}: {error.display}"
      | .ok cfg =>
          let now ← Program.perform SettingsOp.now
          return .ok (settingsAt cfg.enabled cfg.schedule now)

inductive WiredLoopOp
  | settings (op : SettingsOp)
  | wire (op : WireOp)
  | loop (op : LoopOp)

abbrev WiredLoopAnswer : WiredLoopOp → Type
  | .settings op => SettingsAnswer op
  | .wire op => WireAnswer op
  | .loop op => LoopAnswer op

/-- What the loop is connected to. -/
structure LoopWires where
  settings : LiveSettings
  view : LiveMarketView
  client : RpcClient

section Wires

variable [DocumentCrate] [WireCrates] [HashFunctions]

def LoopWires.handler (wires : LoopWires) :
    (op : LoopOp) → Program WiredLoopOp WiredLoopAnswer (LoopAnswer op)
  | .currentSettings =>
      wires.settings.current.interp fun op =>
        Program.perform (WiredLoopOp.settings op)
  | .daemon .refresh =>
      (wires.view.refresh.interp (wire wires.client)).interp fun op =>
        Program.perform (WiredLoopOp.wire op)
  | op => Program.perform (WiredLoopOp.loop op)

/-- What the loop finds at each moment. -/
structure Surroundings (Moment : Type) where
  file : Moment → Except String String
  clock : Moment → Nat
  ledger : Moment → Ledger
  accepts : Moment → Bool

/-- The file, the clock and the flag are read as they are, and the node never
lies; nothing is assumed of the other answers. -/
def Surroundings.Answers {Moment : Type} (around : Surroundings Moment)
    (moment : Moment) : (op : WiredLoopOp) → WiredLoopAnswer op → Prop
  | .settings .readToString, answer => answer = around.file moment
  | .settings .now, answer => answer = around.clock moment
  | .wire op, answer => truthfulNode around.ledger moment op answer
  | .loop (.daemon .acceptsNewBids), answer => answer = around.accepts moment
  | .loop _, _ => True

end Wires

section Loop

variable {σ : Type} {evolves : σ → σ → Prop}
  {answers : σ → (op : LoopOp) → LoopAnswer op → Prop}
  {jobId priceWei latencyMs expiresBlock : Nat} {start finish : σ}

/-- A bid of a tick that begins in the first world: the settings, the market
and the flag were read in it, in this order. -/
inductive TickBids (evolves : σ → σ → Prop)
    (answers : σ → (op : LoopOp) → LoopAnswer op → Prop)
    (jobId priceWei latencyMs expiresBlock : Nat) (start finish : σ) : Prop
  | bid {read refreshed recorded asked : σ} {settings : Settings}
      {snapshot : MarketSnapshot} {cost : Nat}
      (began : evolves start read)
      (current : answers read .currentSettings (.ok settings))
      (moved : evolves read refreshed)
      (view : answers refreshed (.daemon .refresh) (.ok snapshot))
      (observed : evolves refreshed recorded)
      (continued : evolves recorded asked)
      (accepts : answers asked (.daemon .acceptsNewBids) true)
      (placed : evolves asked finish)
      (isOpen : snapshot.bidExpiresBlock = some expiresBlock)
      (latency : latencyMs = snapshot.job.estimatedExecSecs * 1000)
      (decided : evaluate snapshot.job snapshot.oracle settings snapshot.caps =
        .bid jobId priceWei cost) :
      TickBids evolves answers jobId priceWei latencyMs expiresBlock start
        finish

/-- A bid of `tick` follows on its own refresh and its own look at the flag. -/
theorem tick_bids {settings : Settings}
    {answers : σ → (op : DaemonOp) → DaemonAnswer op → Prop}
    (issued : IssuedAt evolves answers
      (.place jobId priceWei latencyMs expiresBlock) finish start
      (tick settings)) :
    ∃ snapshot cost refreshed recorded asked,
      evolves start refreshed ∧ answers refreshed .refresh (.ok snapshot) ∧
        evolves refreshed recorded ∧ evolves recorded asked ∧
        answers asked .acceptsNewBids true ∧ evolves asked finish ∧
        snapshot.bidExpiresBlock = some expiresBlock ∧
        latencyMs = snapshot.job.estimatedExecSecs * 1000 ∧
        evaluate snapshot.job snapshot.oracle settings snapshot.caps =
          .bid jobId priceWei cost := by
  simp only [tick, Program.perform_bind] at issued
  cases issued with
  | later view began answered issued =>
  cases view with
  | error error =>
      cases issued with
      | later written _ _ issued => cases issued
  | ok snapshot =>
      simp only [tickOn, Program.perform_bind] at issued
      cases issued with
      | later written observed _ issued =>
      cases issued with
      | later accepting continued accepts issued =>
      cases accepting with
      | false => cases issued
      | true =>
          cases isOpen : snapshot.bidExpiresBlock with
          | none =>
              simp only [isOpen] at issued
              cases issued with
              | later written _ _ issued => cases issued
          | some expires =>
              simp only [isOpen] at issued
              cases decided : evaluate snapshot.job snapshot.oracle settings
                  snapshot.caps with
              | skip job reason =>
                  simp only [decided, placeBid, Program.perform_bind] at issued
                  cases issued with
                  | later written _ _ issued => cases issued
              | bid job price cost =>
                  simp only [decided, placeBid, Program.perform_bind] at issued
                  cases issued with
                  | here moved =>
                      exact ⟨snapshot, cost, _, _, _, began, answered, observed,
                        continued, accepts, moved, isOpen, rfl, decided⟩
                  | later placed _ _ issued =>
                      cases placed with
                      | error error =>
                          cases issued with
                          | later written _ _ issued => cases issued
                      | ok done =>
                          cases issued with
                          | later written _ _ issued => cases issued

section Hashes

variable [HashFunctions]

omit [HashFunctions] in
theorem writeState_avoids {updates : List StateUpdate} :
    (writeState updates).Avoids
      (.daemon (.place jobId priceWei latencyMs expiresBlock)) :=
  Program.avoids_call nofun fun _ => Program.avoids_done _ _

theorem beat_avoids :
    beat.Avoids (.daemon (.place jobId priceWei latencyMs expiresBlock)) := by
  simp only [beat, Program.perform_bind]
  refine Program.avoids_call (by intro same; cases same) fun result => ?_
  rcases result with failed | sent
  · exact Program.avoids_bind writeState_avoids fun _ =>
      Program.avoids_done _ _
  · cases sent with
    | broadcast =>
        refine Program.avoids_call (by intro same; cases same) fun now => ?_
        exact Program.avoids_bind writeState_avoids fun _ =>
          Program.avoids_done _ _
    | queued =>
        exact Program.avoids_bind writeState_avoids fun _ =>
          Program.avoids_done _ _

theorem closing_avoids {error : Option String} :
    (do
      recordSettingsError error
      Program.perform LoopOp.executorTick
      let _ ← beat
      return () : LoopProgram Unit).Avoids
        (.daemon (.place jobId priceWei latencyMs expiresBlock)) := by
  apply Program.avoids_bind
  · cases error with
    | none => exact Program.avoids_done _ _
    | some error => exact writeState_avoids
  · intro _
    simp only [Program.perform_bind]
    refine Program.avoids_call nofun fun _ => ?_
    exact Program.avoids_bind beat_avoids fun _ => Program.avoids_done _ _

/-- A round of the loop places its bid in its tick. -/
theorem loopBody_bids
    (issued : IssuedAt evolves answers
      (.daemon (.place jobId priceWei latencyMs expiresBlock)) finish start
      loopBody) :
    TickBids evolves answers jobId priceWei latencyMs expiresBlock start
      finish := by
  simp only [loopBody, Program.perform_bind] at issued
  cases issued with
  | @later _ read _ _ answer began current issued =>
  rcases IssuedAt.of_bind issued with ticking | ⟨_, _, _, closing⟩
  · have ticking : IssuedAt evolves (fun world op => answers world (.daemon op))
        (.place jobId priceWei latencyMs expiresBlock) finish read
        (tick (settingsForTick answer).1) := by
      refine IssuedAt.of_interp executes_perform.mp ?_ ticking
      intro start op performed
      cases performed with
      | here moved => exact ⟨rfl, moved⟩
      | later answer moved answered rest => cases rest
    obtain ⟨snapshot, cost, refreshed, recorded, asked, moved, view, observed,
      continued, accepts, placed, isOpen, latency, decided⟩ := tick_bids ticking
    cases answer with
    | error error => exact BidDecision.noConfusion decided
    | ok settings =>
        exact .bid began current moved view observed continued accepts placed
          isOpen latency decided
  · exact absurd closing.issues closing_avoids

theorem runLoopFrom_bids {maxTicks : Option Nat} {rounds ticks : Nat}
    (issued : IssuedAt evolves answers
      (.daemon (.place jobId priceWei latencyMs expiresBlock)) finish start
      (runLoopFrom maxTicks rounds ticks)) :
    ∃ begun, Relation.ReflTransGen evolves start begun ∧
      TickBids evolves answers jobId priceWei latencyMs expiresBlock begun
        finish := by
  induction rounds generalizing ticks start with
  | zero => cases issued
  | succ rounds ih =>
      unfold runLoopFrom at issued
      split at issued
      · cases issued
      · rcases IssuedAt.of_bind issued with here | ⟨_, middle, first, later⟩
        · exact ⟨start, .refl, loopBody_bids here⟩
        · split at later
          · cases later
          · cases later with
            | later slept moved answered later =>
                obtain ⟨begun, reached, bids⟩ := ih later
                exact ⟨begun, first.reaches.trans (.head moved reached), bids⟩

end Hashes

end Loop

section Moments

variable {Moment : Type} [Preorder Moment] {around : Surroundings Moment}
  {start finish : Moment}

/-- The settings that a tick bids with are those of the file and of the clock
at two moments of it. -/
theorem current_reads [DocumentCrate] [WireCrates] [HashFunctions]
    {source : LiveSettings} {settings : Settings}
    (execution : Executes (· ≤ ·) around.Answers start
      (source.current.interp fun op =>
        Program.perform (WiredLoopOp.settings op)) (.ok settings) finish) :
    ∃ file text cfg, start ≤ file ∧ around.file file = .ok text ∧
      ComputeSettings.fromJson text = .ok cfg ∧ file ≤ finish ∧
      settings = settingsAt cfg.enabled cfg.schedule (around.clock finish) := by
  have reads : Executes (· ≤ ·)
      (fun moment op => around.Answers moment (.settings op)) start
      source.current (.ok settings) finish :=
    execution.of_interp executes_perform.mp
  simp only [LiveSettings.current, Program.perform_bind] at reads
  obtain ⟨file, answer, began, held, reads⟩ := executes_call.mp reads
  cases answer with
  | error error => cases (executes_done.mp reads).1
  | ok text =>
      dsimp only at reads
      split at reads
      · cases (executes_done.mp reads).1
      · next cfg read =>
        obtain ⟨clock, now, moved, told, done⟩ := executes_call.mp reads
        obtain ⟨same, rfl⟩ := executes_done.mp done
        have told : now = around.clock clock := told
        rw [← told]
        exact ⟨file, text, cfg, began, held.symm, read, moved,
          (Except.ok.inj same).symm⟩

theorem le_of_follows {first second : Moment × Moment}
    (follow : Follows (· ≤ ·) first second) : first.2 ≤ second.2 :=
  le_of_reaches follow.2

section Wires

variable [DocumentCrate] [WireCrates] [HashFunctions] {wires : LoopWires}

theorem handler_issues {op target : LoopOp}
    (issued : (wires.handler op).Issues (.loop target)) : op = target := by
  unfold LoopWires.handler at issued
  split at issued
  · obtain ⟨inner, -, handled⟩ := Program.issues_interp _ _ _ issued
    rcases handled with same | ⟨_, later⟩
    · cases same
    · cases later
  · obtain ⟨inner, -, handled⟩ := Program.issues_interp _ _ _ issued
    rcases handled with same | ⟨_, later⟩
    · cases same
    · cases later
  · rcases issued with same | ⟨_, later⟩
    · exact WiredLoopOp.loop.inj same
    · cases later

theorem handler_refresh (pinned : ReadsPinned)
    (fits : wires.view.jobId < 2 ^ 128) {snapshot : MarketSnapshot}
    (execution : Executes (· ≤ ·) around.Answers start
      (wires.handler (.daemon .refresh)) (.ok snapshot) finish) :
    Executes (· ≤ ·) (ledgerAnswers around.ledger) start wires.view.refresh
      (.ok snapshot) finish := by
  have exchanges : Executes (· ≤ ·) (truthfulNode around.ledger) start
      (wires.view.refresh.interp (wire wires.client)) (.ok snapshot) finish :=
    execution.of_interp executes_perform.mp
  exact wire_refines pinned (refresh_usesWhile fits) le_refl
    (fun _ _ _ => le_trans) exchanges

/-- The bid that the rules give on what was read of the chain.  They see the
values after the bridge's casts to 64 bits, and the bid is the one on the chain's
own values exactly when the casts that matter keep them. -/
structure BidsOn (chain : ChainView) (settings : Settings)
    (jobId priceWei latencyMs expiresBlock : Nat) : Prop where
  isOpen : bidExpiresBlock chain.job chain.head = some expiresBlock
  latency : latencyMs = chain.execSecs * 1000
  job : jobId = FixedWidth.narrow 64 chain.job.id
  rules : ∃ cost, ExactBid chain.snapshot.job chain.oracle settings
    chain.snapshot.caps priceWei cost
  faithful : FaithfulBid chain settings jobId priceWei ↔
    chain.job.id < 2 ^ 64 ∧
      (chain.profile.currentActiveJobs < 2 ^ 64 ∨
        chain.profile.currentActiveJobs * LOAD_CAP_DEN <
          chain.profile.maxConcurrentJobs * LOAD_CAP_NUM)

/-- This bid rests on what a tick between the two moments has read: a file that
says itself that the machine takes part, the clock inside its window, the market,
and then the flag that bids are accepted.  It is the bid of the exact rules on
the casts of what was read. -/
def FollowsPolicy (around : Surroundings Moment) (view : LiveMarketView)
    (fits : view.jobId < 2 ^ 128)
    (jobId priceWei latencyMs expiresBlock : Nat) (start finish : Moment) :
    Prop :=
  ∃ (file clock flag : Moment) (market : MarketMoments Moment)
    (text : String) (cfg : ComputeSettings) (estimate : Nat × Nat),
    start ≤ file ∧ file ≤ clock ∧ market.Within (· ≤ ·) clock flag ∧
      flag ≤ finish ∧ around.file file = .ok text ∧
      ComputeSettings.fromJson text = .ok cfg ∧
      (∃ json, document text = some json ∧ ComputeSettings.Enables json) ∧
      cfg.allocationPercent ≤ 100 ∧
      OpenAt cfg.schedule (around.clock clock) ∧
      around.accepts flag = true ∧
      BidsOn ((market.reads view ⟨view.jobId, fits⟩ around.ledger).chainView
          view.secsPerBlock estimate)
        (settingsAt cfg.enabled cfg.schedule (around.clock clock)) jobId
        priceWei latencyMs expiresBlock

end Wires

end Moments

/-- Job 7 is open for bids until block 100. -/
def openTuple (jobId : U128) : JobTuple :=
  { servedTuple jobId with state := .bidding }

def openHeld : (call : ReadCall) → call.function.Held
  | .getJob jobId => openTuple jobId
  | .saltPerPflopHour => ONE_SALT_WEI
  | call => servedHeld call

theorem openPrice_fits : ONE_SALT_WEI < 2 ^ 128 := by decide

theorem openHeld_fits (call : ReadCall) :
    ∀ value ∈ call.function.integers (openHeld call), value < 2 ^ 128 := by
  cases call with
  | getJob jobId => exact servedTuple_fits jobId
  | saltPerPflopHour => exact List.forall_mem_singleton.mpr openPrice_fits
  | _ => exact servedHeld_fits _

theorem openHeld_length (call : ReadCall) :
    (call.function.encode (openHeld call)).length ≤ 1024 := by
  cases call with
  | getJob jobId => exact tuple_length rfl
  | saltPerPflopHour => exact servedHeld_length .saltPerPflopHour
  | _ => exact servedHeld_length _

def openLedger : Ledger where
  head := 60
  timestamp := servedTimestamp
  held _ call := openHeld call
  encodable _ call :=
    { integers := fun value member =>
        (openHeld_fits call value member).trans (by decide)
      encoding := (openHeld_length call).trans_lt (by decide) }

theorem openLedger_answered (read : NodeRead) :
    @Answered sampleWire servedClient openLedger (sampleRespond openLedger)
      read.method (@NodeRead.params readHashes read) :=
  bounded_answered
    (ledger_bounded (by decide +kernel) servedTimestamp_short
      fun _ => openHeld_length) read

@[reducible] def sampleDocument : DocumentCrate where
  document text :=
    if text = "on" then some (.object [("enabled", .bool true)]) else none
  readError _ := "expected value at line 1 column 1"

/-- The file is gone after the first moment, and bids are refused after the
next one. -/
def openSurroundings : Surroundings Nat where
  file moment :=
    if moment = 0 then .ok "on"
    else .error "No such file or directory (os error 2)"
  clock _ := 0
  ledger _ := openLedger
  accepts moment := moment ≤ 1

def openWires : LoopWires := ⟨⟨"compute.json"⟩, sampleMarketView, servedClient⟩

/-- The profiler's estimate: a tenth of a petaflop hour in a minute. -/
def openEstimate : Nat × Nat := (10 ^ 17, 60)

def openMarket : MarketSnapshot :=
  (sampleMarketView.reads servedJob openLedger).snapshot 2 fun _ => openEstimate

theorem openSettings_executes :
    Executes (· ≤ ·) (@Surroundings.Answers sampleWire Nat openSurroundings) 0
      (@LoopWires.handler sampleDocument sampleWire readHashes openWires
        .currentSettings)
      (.ok (settingsAt true .always 0)) 0 :=
  .call (Nat.le_refl 0) rfl (.call (Nat.le_refl 0) rfl .done)

theorem openRefresh_executes :
    Executes (· ≤ ·) (@Surroundings.Answers sampleWire Nat openSurroundings) 0
      (@LoopWires.handler sampleDocument sampleWire readHashes openWires
        (.daemon .refresh))
      (.ok openMarket) 0 := by
  have possible : ∀ id op, @truthfulNode sampleWire _ openSurroundings.ledger 0
      op (wireHandle (sampleRespond openLedger) (fun _ => openEstimate) id
        op).1 := by
    intro id op
    cases op with
    | estimate => trivial
    | rpc op =>
        cases op with
        | nextId => trivial
        | post request => exact sampleRespond_truthful openLedger request
  have runs := Executes.of_runOn (Nat.le_refl 0) possible
    (sampleMarketView.refresh.interp (@wire sampleWire readHashes servedClient))
    1
  have refreshed :
      ((sampleMarketView.refresh.interp
        (@wire sampleWire readHashes servedClient)).runOn
          (wireHandle (sampleRespond openLedger) fun _ => openEstimate) 1).1 =
        .ok openMarket := by
    rw [Program.runOn_interp]
    refine (@refresh_runs sampleWire readHashes _ _ _ _ readHashes_pinned
      sampleMarketView servedJob (fun read _ => openLedger_answered read) rfl 1
      _).mpr ⟨?_, rfl⟩
    exact ⟨servedProfile_fits, openPrice_fits, servedTuple_fits servedJob⟩
  rw [refreshed] at runs
  have performed {start finish : Nat} {op : WireOp} {answer : WireAnswer op}
      (moved : start ≤ finish)
      (answered : @truthfulNode sampleWire _ openSurroundings.ledger finish op
        answer) :
      Executes (· ≤ ·) (@Surroundings.Answers sampleWire Nat openSurroundings)
        start (Program.perform (WiredLoopOp.wire op)) answer finish :=
    executes_perform.mpr ⟨moved, answered⟩
  exact runs.interp performed

theorem openBid_issued :
    IssuedAt (· ≤ ·) (@Surroundings.Answers sampleWire Nat openSurroundings)
      (.loop (.daemon (.place 7 115000000000000000 60000 100))) 2 0
      ((@runLoop readHashes none 1).interp
        (@LoopWires.handler sampleDocument sampleWire readHashes
          openWires)) := by
  refine IssuedAt.bind openSettings_executes ?_
  refine IssuedAt.bind openRefresh_executes ?_
  refine .later () (by decide : 0 ≤ 1) trivial ?_
  refine .later true (by decide : 1 ≤ 1) rfl ?_
  exact .here (by decide)

end NodeAgent.Node
