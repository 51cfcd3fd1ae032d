import NodeAgent.Library.RelyGuarantee
import NodeAgent.Node.Execution

/-!
# Executors over shared state directories

Several executors take steps over one filesystem, each operation of a step
being atomic.  An executor may crash between any two operations; it then starts
again with fresh progress.  The world also keeps a log of the nonces that were
minted, the outputs that were inferred and the requests that were handed to the
signer, which no executor can read.
-/

namespace NodeAgent.Node

open Chainio Executor Interaction Lifecycle RelyGuarantee

variable {ι : Type}

inductive ExecutorEvent (ι : Type)
  | minted (executor : ι) (nonce : Word)
  | inferred (executor : ι) (output : Bytes)
  | requested (executor : ι) (request : SignatureRequest)
deriving DecidableEq

structure ExecutorWorld (ι : Type) where
  files : Files
  log : List (ExecutorEvent ι)

/-- Everything the environment decides about one operation.  `minted` is what
the random generator returns, and the faults are those of the nonce store. -/
structure ExecutorChoice where
  resolved : Except String ResolvedJob
  loadFault : Option String
  minted : Word
  mintFault : Option MintFault
  artifactsFault : LoadFault
  saveFault : Option SaveFault
  input : Except String (Option Bytes)
  maxJobInputBytes : Nat
  cached : Option Bytes
  fetched : Except ProvisionError Bytes
  dirCreated : Except String Unit
  cacheWritten : Except String Unit
  inferred : Except InferenceError Bytes
  elapsedSecs : Nat
  signed : Except JobSignerError TxObserved

def ExecutorChoice.provision (choice : ExecutorChoice) :
    (op : ProvisionOp) → ProvisionAnswer op
  | .readCache _ => choice.cached
  | .removeCache _ => ()
  | .fetch _ => choice.fetched
  | .createDirAll _ => choice.dirCreated
  | .writeCache _ _ => choice.cacheWritten

def ExecutorWorld.record (world : ExecutorWorld ι) (event : ExecutorEvent ι) :
    ExecutorWorld ι :=
  { world with log := world.log ++ [event] }

/-- The requests handed to the signer, in order. -/
def ExecutorWorld.handed (world : ExecutorWorld ι) : List SignatureRequest :=
  world.log.filterMap fun event =>
    match event with
    | .requested _ request => some request
    | _ => none

theorem ExecutorWorld.mem_handed {world : ExecutorWorld ι}
    {request : SignatureRequest} :
    request ∈ world.handed ↔
      ∃ executor, .requested executor request ∈ world.log := by
  constructor
  · intro handed
    obtain ⟨event, logged, isRequest⟩ := List.mem_filterMap.mp handed
    cases event with
    | minted executor nonce => cases isRequest
    | inferred executor output => cases isRequest
    | requested executor request =>
        cases isRequest
        exact ⟨executor, logged⟩
  · intro requested
    obtain ⟨executor, logged⟩ := requested
    exact List.mem_filterMap.mpr ⟨_, logged, rfl⟩

/-- The step logs at most this event. -/
def ExecutorWorld.Logs (event : ExecutorEvent ι)
    (world after : ExecutorWorld ι) : Prop :=
  after.log = world.log ∨ after.log = world.log ++ [event]

theorem ExecutorWorld.Logs.subset {event : ExecutorEvent ι}
    {world after : ExecutorWorld ι} (logs : Logs event world after) :
    world.log ⊆ after.log := by
  rcases logs with same | added
  · rw [same]
    exact List.Subset.refl _
  · rw [added]
    exact List.subset_append_left _ _

theorem ExecutorWorld.Logs.other {event : ExecutorEvent ι}
    {world after : ExecutorWorld ι} (logs : Logs event world after)
    {earlier : ExecutorEvent ι} (different : earlier ≠ event)
    (logged : earlier ∈ after.log) : earlier ∈ world.log := by
  rcases logs with same | added
  · rwa [same] at logged
  · rw [added, List.mem_append, List.mem_singleton] at logged
    rcases logged with before | now
    · exact before
    · exact absurd now different

theorem ExecutorWorld.Logs.requested {event : ExecutorEvent ι}
    {world after : ExecutorWorld ι} (logs : Logs event world after)
    (other : ∀ executor request, event ≠ .requested executor request)
    {executor : ι} {request : SignatureRequest}
    (requested : .requested executor request ∈ after.log) :
    .requested executor request ∈ world.log :=
  logs.other (other executor request).symm requested

theorem ExecutorWorld.Logs.handed {event : ExecutorEvent ι}
    {world after : ExecutorWorld ι} (logs : Logs event world after)
    (other : ∀ executor request, event ≠ .requested executor request) :
    ∀ request ∈ after.handed, request ∈ world.handed := by
  intro request handed
  obtain ⟨executor, logged⟩ := ExecutorWorld.mem_handed.mp handed
  exact ExecutorWorld.mem_handed.mpr ⟨executor, logs.requested other logged⟩

theorem ExecutorWorld.mem_handed_requested {world after : ExecutorWorld ι}
    {executor : ι} {request : SignatureRequest}
    (log : after.log = world.log ++ [.requested executor request])
    {other : SignatureRequest} (handed : other ∈ after.handed) :
    other ∈ world.handed ∨ other = request := by
  obtain ⟨signer, logged⟩ := ExecutorWorld.mem_handed.mp handed
  rw [log, List.mem_append, List.mem_singleton] at logged
  rcases logged with earlier | now
  · exact Or.inl (ExecutorWorld.mem_handed.mpr ⟨signer, earlier⟩)
  · cases now
    exact Or.inr rfl

variable [HashFunctions]

/-- One operation of an executor's step. -/
def executorExec (executor : ι) (world : ExecutorWorld ι) :
    (op : StepOp) → ExecutorChoice → StepAnswer op × ExecutorWorld ι
  | .resolve _, choice => (choice.resolved, world)
  | .load store jobId, choice =>
      (store.load jobId choice.loadFault world.files, world)
  | .mint store jobId, choice =>
      let (answer, files) :=
        store.mint jobId choice.minted choice.mintFault world.files
      let created := (world.files (store.pathFor jobId)).isNone &&
        (files (store.pathFor jobId)).isSome
      let next := { world with files := files }
      (answer,
        if created then next.record (.minted executor choice.minted) else next)
  | .loadArtifacts store jobId, choice =>
      (store.loadArtifacts jobId choice.artifactsFault world.files, world)
  | .saveArtifacts store jobId art, choice =>
      let (answer, files) :=
        store.saveArtifacts jobId art choice.saveFault world.files
      (answer, { world with files := files })
  | .inputFor _, choice => (choice.input, world)
  | .write _, _ => ((), world)
  | .maxJobInputBytes, choice => (choice.maxJobInputBytes, world)
  | .provision op, choice => (choice.provision op, world)
  | .infer _ _, choice =>
      match choice.inferred with
      | .error error => (.error error, world)
      | .ok output => (.ok output, world.record (.inferred executor output))
  | .elapsedSecs, choice => (choice.elapsedSecs, world)
  | .recordProfile _ _, _ => ((), world)
  | .request request, choice =>
      (choice.signed, world.record (.requested executor request))

abbrev ExecutorAction (ι : Type) := Action ι Unit ExecutorChoice Empty

abbrev ExecutorPool (ι : Type) :=
  Pool ι StepOp StepAnswer JobProgress (ExecutorWorld ι)

/-- The executors of a machine, each repeating its step. -/
def executorSystem (executors : ι → JobExecutor) :
    System ι Unit JobProgress StepOp StepAnswer ExecutorChoice
      (ExecutorWorld ι) Empty where
  exec := executorExec
  disturb := fun world _ => world
  body := fun thread _ progress => do
    let (_, progress) ← (executors thread).step progress
    return progress
  fresh := JobProgress.fresh

/-- A run of the executors from a given state of the directory. -/
def runExecutors [DecidableEq ι] (executors : ι → JobExecutor) (files : Files)
    (schedule : List (ExecutorAction ι)) : ExecutorPool ι :=
  Runs.run (executorSystem executors).step
    ((executorSystem executors).initial ⟨files, []⟩) schedule

/-- The operations that leave the world as it is. -/
def isQuiet : StepOp → Bool
  | .mint _ _ | .saveArtifacts _ _ _ | .infer _ _ | .request _ => false
  | _ => true

theorem executorExec_quiet (executor : ι) (world : ExecutorWorld ι) {op : StepOp}
    (quiet : isQuiet op = true) (choice : ExecutorChoice) :
    (executorExec executor world op choice).2 = world := by
  cases op <;> first | rfl | cases quiet

section Effects

variable (executor : ι) {world after : ExecutorWorld ι}
  {choice : ExecutorChoice} {store : NonceStore} {jobId : Nat}

theorem executorExec_mint {answer : Except String Word}
    (executed : executorExec executor world (.mint store jobId) choice =
      (answer, after)) :
    NonceStore.MintEffect store jobId choice.minted world.files
        (answer, after.files) ∧
      world.Logs (.minted executor choice.minted) after ∧
      (world.files (store.pathFor jobId) = none →
        ∀ bytes, after.files (store.pathFor jobId) = some bytes →
          .minted executor choice.minted ∈ after.log) := by
  have effect := NonceStore.mintEffect store jobId choice.minted
    choice.mintFault world.files
  simp only [executorExec] at executed
  obtain ⟨rfl, rfl⟩ := Prod.mk.inj executed
  split
  · refine ⟨effect, Or.inr rfl, ?_⟩
    intro _ _ _
    exact List.mem_append_right _ List.mem_cons_self
  · rename_i notCreated
    refine ⟨effect, Or.inl rfl, ?_⟩
    intro absent bytes written
    simp only at written
    simp [absent, written] at notCreated

theorem executorExec_save {art : CommitmentArtifacts}
    {answer : Except String Unit}
    (executed : executorExec executor world (.saveArtifacts store jobId art)
      choice = (answer, after)) :
    NonceStore.SaveEffect store jobId art world.files (answer, after.files) ∧
      after.log = world.log := by
  cases executed
  exact ⟨NonceStore.saveEffect store jobId art choice.saveFault world.files,
    rfl⟩

theorem executorExec_infer {model : ProvisionedModel} {input : Bytes}
    {answer : Except InferenceError Bytes}
    (executed : executorExec executor world (.infer model input) choice =
      (answer, after)) :
    after.files = world.files ∧
      ∃ output, world.Logs (.inferred executor output) after ∧
        ∀ output, answer = .ok output →
          .inferred executor output ∈ after.log := by
  simp only [executorExec] at executed
  cases inferred : choice.inferred with
  | error error =>
      rw [inferred] at executed
      cases executed
      exact ⟨rfl, [], Or.inl rfl, nofun⟩
  | ok output =>
      rw [inferred] at executed
      cases executed
      refine ⟨rfl, output, Or.inr rfl, ?_⟩
      intro other same
      cases same
      exact List.mem_append_right _ List.mem_cons_self

theorem executorExec_request {request : SignatureRequest}
    {answer : Except JobSignerError TxObserved}
    (executed : executorExec executor world (.request request) choice =
      (answer, after)) :
    after.files = world.files ∧
      after.log = world.log ++ [.requested executor request] := by
  cases executed
  exact ⟨rfl, rfl⟩

end Effects

def sampleProvider : Address := List.Vector.replicate 20 0x22

/-- Job 7, executing and not committed, on the empty input. -/
def sampleJob : Job where
  id := 7
  requester := List.Vector.replicate 20 0
  modelHash := List.Vector.replicate 32 0x01
  maxPriceWei := 10 ^ 18
  tier := .commitment
  state := .executing
  assignedProvider := sampleProvider
  escrowWei := 10 ^ 18
  bidDeadlineBlock := 100
  executionDeadlineBlock := 1000
  createdAtBlock := 50
  bidCount := 1
  inputHash := some (firstWord [])

def sampleResolved : ResolvedJob where
  job := sampleJob
  ipfsCid := "bafkreigh2akiscaildcqabsyg3dfr6chu3fgpregiymsck7e7aqa4s52zy"
  isActive := true
  expectedSize := none
  expectedSha256 := some (firstWord [])
  currentBlock := 200
  committed := false
  gates := ⟨some .commitment, 0, 0, false⟩

def sampleStore : NonceStore := ⟨["state", "nonces"]⟩

def sampleExecutor : JobExecutor where
  jobId := 7
  me := sampleProvider
  marketplace := List.Vector.replicate 20 0x11
  chainId := 40204
  cacheDir := ["cache"]
  nonce := List.Vector.replicate 32 0
  nonceStore := some sampleStore

def sampleNonce : Word := List.Vector.replicate 32 0x5a

/-- No faults, and inference that returns `output`. -/
def sampleChoice (output : Bytes) : ExecutorChoice where
  resolved := .ok sampleResolved
  loadFault := none
  minted := sampleNonce
  mintFault := none
  artifactsFault := ⟨none, none⟩
  saveFault := none
  input := .ok (some [])
  maxJobInputBytes := 1024
  cached := some []
  fetched := .error (.fetch "offline")
  dirCreated := .ok ()
  cacheWritten := .ok ()
  inferred := .ok output
  elapsedSecs := 1
  signed := .ok ⟨none⟩

/-- A step of `count` operations. -/
def stepOf (thread : ι) (output : Bytes) (count : Nat) :
    List (ExecutorAction ι) :=
  .start thread () :: List.replicate count (.advance thread (sampleChoice output))

/-- No files at all. -/
def noFiles : Files := fun _ => none

end NodeAgent.Node
