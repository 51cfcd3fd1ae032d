import NodeAgent.Library.Runs
import NodeAgent.Node.Payout

/-!
# What a restart finds in the store

The nonce store after a save that succeeded and after a mint that did not.  The
save installs the whole proof or nothing, but does not apply the size limit of
the load; the mint writes its file in place.
-/

namespace NodeAgent.Node

open Chainio Executor Interaction Lifecycle Supervision

/-- A write of a store on the same directory. -/
inductive StoreOp
  | mint (jobId : Nat) (nonce : Word) (fault : Option MintFault)
  | save (jobId : Nat) (art : CommitmentArtifacts) (fault : Option SaveFault)

def storeStep (store : NonceStore) (files : Files) : StoreOp → Files
  | .mint jobId nonce fault => (store.mint jobId nonce fault files).2
  | .save jobId art fault => (store.saveArtifacts jobId art fault files).2

/-- The write saves no artifacts of this job. -/
def StoreOp.SavesOther (jobId : Nat) : StoreOp → Prop
  | .mint _ _ _ => True
  | .save other _ _ => other ≠ jobId

/-- The two files of the job. -/
structure Filed (store : NonceStore) (jobId : Nat) (nonce : Word)
    (proof : Bytes) (files : Files) : Prop where
  nonce : files (store.pathFor jobId) = some nonce.toList
  artifacts : files (store.artifactsPath jobId) = some proof

/-- Minting replaces no file, and the other jobs have their own artifacts. -/
theorem filed_step {store : NonceStore} {jobId : Nat} {nonce : Word}
    {proof : Bytes} (files : Files) (op : StoreOp)
    (filed : Filed store jobId nonce proof files)
    (other : op.SavesOther jobId) :
    Filed store jobId nonce proof (storeStep store files op) := by
  cases op with
  | mint minter fresh fault =>
      have effect := store.mintEffect minter fresh fault files
      exact ⟨effect.kept filed.nonce, effect.kept filed.artifacts⟩
  | save saver art fault =>
      have effect := store.saveEffect saver art fault files
      refine ⟨effect.nonceFile.trans filed.nonce, ?_⟩
      exact (effect.frame (Ne.symm other)).trans filed.artifacts

section Hashes

variable [HashFunctions]

theorem loadArtifacts_oversized {store : NonceStore} {jobId : Nat}
    {files : Files} {proof : Bytes}
    (stored : files (store.artifactsPath jobId) = some proof)
    (oversized : MAX_ARTIFACTS_BYTES < proof.length) :
    store.loadArtifacts jobId ⟨none, none⟩ files =
      .error (NonceStore.corrupt jobId "oversized") := by
  have cut : (proof.take (MAX_ARTIFACTS_BYTES + 1)).length >
      MAX_ARTIFACTS_BYTES := by
    rw [List.length_take]
    omega
  simp only [NonceStore.loadArtifacts, NonceStore.loadArtifactsCapped, stored]
  rw [if_pos cut]

/-- Whatever the other jobs write in between, saved artifacts are loaded back
exactly when their file is within the limit. -/
theorem loadArtifacts_afterSave_iff {store : NonceStore} {jobId : Nat}
    {output : Bytes} {nonce : Word} {fault : Option SaveFault}
    {files next : Files} {later : List StoreOp}
    (persisted : files (store.pathFor jobId) = some nonce.toList)
    (saved : store.saveArtifacts jobId (CommitmentProver.build output nonce)
      fault files = (.ok (), next))
    (others : ∀ op ∈ later, op.SavesOther jobId) :
    (NonceStore.mk store.dir).loadArtifacts jobId ⟨none, none⟩
        (Runs.run (storeStep store) next later) =
      .ok (some (CommitmentProver.build output nonce)) ↔
        64 + output.length ≤ MAX_ARTIFACTS_BYTES := by
  have effect := store.saveEffect jobId (CommitmentProver.build output nonce)
    fault files
  rw [saved] at effect
  have filed : Filed store jobId nonce
      (CommitmentProver.build output nonce).proof
      (Runs.run (storeStep store) next later) :=
    Runs.invariant_run filed_step
      ⟨effect.nonceFile.trans persisted, effect.ok⟩
      (Runs.along_of_mem others next)
  constructor
  · intro loaded
    by_contra oversized
    rw [loadArtifacts_oversized filed.artifacts (by
      rw [CommitmentProver.build_proof_length]
      omega)] at loaded
    cases loaded
  · exact NonceStore.loadArtifacts_saved filed.nonce filed.artifacts

end Hashes

def mintedFiles : Files :=
  noFiles.write (sampleStore.pathFor 7) sampleNonce.toList

theorem saved_ok (output : Bytes) :
    sampleStore.saveArtifacts 7 (@CommitmentProver.build sampleHashes output
        sampleNonce) none mintedFiles =
      (.ok (), (sampleStore.saveArtifacts 7 (@CommitmentProver.build
        sampleHashes output sampleNonce) none mintedFiles).2) :=
  Prod.ext (sampleStore.saveArtifacts_faultless _ _ _) rfl

theorem minted_persisted :
    mintedFiles (sampleStore.pathFor 7) = some sampleNonce.toList := by
  simp [mintedFiles, Files.write]

/-- Another job mints and saves, and this one mints again. -/
def otherWrites : List StoreOp :=
  [.mint 8 sampleNonce none,
    .save 8 (@CommitmentProver.build sampleHashes [0x68] sampleNonce) none,
    .mint 7 (List.Vector.replicate 32 0x77) none]

/-- Two bytes are loaded back after these. -/
theorem loadArtifacts_afterSave_otherWrites :
    @NonceStore.loadArtifacts sampleHashes (NonceStore.mk sampleStore.dir) 7
        ⟨none, none⟩ (Runs.run (storeStep sampleStore)
          (sampleStore.saveArtifacts 7 (@CommitmentProver.build
            sampleHashes [0x6f, 0x6b] sampleNonce) none mintedFiles).2
          otherWrites) =
      .ok (some (@CommitmentProver.build sampleHashes [0x6f, 0x6b]
        sampleNonce)) := by
  have others : ∀ op ∈ otherWrites, op.SavesOther 7 := by
    simp [otherWrites, StoreOp.SavesOther]
  exact (@loadArtifacts_afterSave_iff sampleHashes _ _ _ _ _ _ _ otherWrites
    minted_persisted (saved_ok [0x6f, 0x6b]) others).mpr (by decide)

/-- One byte more than the limit is saved, and refused when it is loaded. -/
theorem loadArtifacts_afterSave_oversized :
    ¬∀ (store : NonceStore) jobId output nonce fault files next,
      files (store.pathFor jobId) = some nonce.toList →
      store.saveArtifacts jobId (@CommitmentProver.build sampleHashes output
        nonce) fault files = (.ok (), next) →
      @NonceStore.loadArtifacts sampleHashes store jobId ⟨none, none⟩ next =
        .ok (some (@CommitmentProver.build sampleHashes output nonce)) := by
  intro reloads
  let output : Bytes := List.replicate (MAX_ARTIFACTS_BYTES - 63) 0
  have loaded := reloads sampleStore 7 output sampleNonce none mintedFiles _
    minted_persisted (saved_ok output)
  have effect := sampleStore.saveEffect 7 (@CommitmentProver.build sampleHashes
    output sampleNonce) none mintedFiles
  rw [saved_ok] at effect
  have size := @CommitmentProver.build_proof_length sampleHashes output
    sampleNonce
  rw [@loadArtifacts_oversized sampleHashes _ _ _ _ effect.ok (by
    rw [size, List.length_replicate, MAX_ARTIFACTS_BYTES]
    omega)] at loaded
  cases loaded

/-- Where minting a nonce stops: before its file is created, or in writing it,
after some bytes, by an error or by a crash. -/
inductive MintStop
  | beforeCreation
  | failed (message : String) (written : Nat)
  | crashed (written : Nat)

/-- The files that are left when `mint` stops there. -/
def MintStop.leaves (store : NonceStore) (jobId : Nat) (nonce : Word)
    (files : Files) : MintStop → Files
  | .beforeCreation => files
  | .failed message written =>
      (store.mint jobId nonce (some (.write (.torn message written))) files).2
  | .crashed written =>
      files.write (store.pathFor jobId) (nonce.toList.take written)

/-- Nothing of the nonce was written, or all of it. -/
def MintStop.Whole : MintStop → Prop
  | .beforeCreation => True
  | .failed _ written | .crashed written => 32 ≤ written

section Hashes

variable [HashFunctions]

/-- Once the disk works again, a step of the uncommitted job has its nonce. -/
structure Recoverable (store : NonceStore) (jobId : Nat) (nonce : Word)
    (files : Files) : Prop where
  allOrNothing : files (store.pathFor jobId) = none ∨
    files (store.pathFor jobId) = some nonce.toList
  reads : ∃ found, store.load jobId none files = .ok found ∧
    (found = none → ∀ fresh, (store.mint jobId fresh none files).1 = .ok fresh)
  step : ∀ executor : JobExecutor, executor.jobId = jobId →
    executor.nonceStore = some store → ∀ choice agent log,
      choice.loadFault = none → choice.mintFault = none →
        ∃ found, ((executor.resolveNonce false).runOn (localHandle choice)
          ⟨agent, ⟨files, log⟩⟩).1 = .ok found

theorem resolveNonce_obtains {executor : JobExecutor} {store : NonceStore}
    {committed : Bool} {choice : ExecutorChoice} {world : LocalWorld}
    {after : Files} (persistent : executor.nonceStore = some store)
    (ready : NonceReady store executor.jobId committed choice
      world.machine.files after) :
    ∃ found, ((executor.resolveNonce committed).runOn (localHandle choice)
      world).1 = .ok found := by
  have checked := resolveNonce_checked executor committed choice world
  generalize (executor.resolveNonce committed).runOn (localHandle choice)
    world = result at checked ⊢
  cases checked with
  | unneeded none => exact ⟨_, rfl⟩
  | ready persistent ready handed => exact ⟨_, rfl⟩
  | refused other unready handed =>
      obtain rfl := Option.some.inj (persistent.symm.trans other)
      exact absurd ready (unready after)

theorem recoverable_absent {store : NonceStore} {jobId : Nat} {nonce : Word}
    {files : Files} (absent : files (store.pathFor jobId) = none) :
    Recoverable store jobId nonce files where
  allOrNothing := Or.inl absent
  reads := by
    refine ⟨none, by simp [NonceStore.load, absent], fun _ fresh => ?_⟩
    rw [NonceStore.mint_faultless fresh absent]
  step := by
    rintro executor rfl persistent choice agent log loads mints
    have missing : store.load executor.jobId choice.loadFault files =
        .ok none := by
      simp [NonceStore.load, loads, absent]
    have minted := NonceStore.mint_faultless choice.minted absent
    rw [← mints] at minted
    exact resolveNonce_obtains persistent (.minted rfl missing minted)

theorem recoverable_written {store : NonceStore} {jobId : Nat} {nonce : Word}
    {files : Files}
    (written : files (store.pathFor jobId) = some nonce.toList) :
    Recoverable store jobId nonce files where
  allOrNothing := Or.inr written
  reads := ⟨some nonce, NonceStore.load_written written, nofun⟩
  step := by
    rintro executor rfl persistent choice agent log loads mints
    apply resolveNonce_obtains persistent
    apply NonceReady.loaded
    rw [loads]
    exact NonceStore.load_written written

theorem not_recoverable_torn {store : NonceStore} {jobId written : Nat}
    {nonce : Word} {files : Files} (short : written < 32)
    (torn : files (store.pathFor jobId) =
      some (nonce.toList.take written)) :
    ¬Recoverable store jobId nonce files := by
  intro recoverable
  rcases recoverable.allOrNothing with absent | whole
  · cases torn.symm.trans absent
  · have same := congrArg List.length
      (Option.some.inj (torn.symm.trans whole))
    rw [List.length_take, List.Vector.toList_length] at same
    omega

/-- A partial write wedges the job, whether or not the mint lived to report
it. -/
theorem torn_recoverable_iff {store : NonceStore} {jobId written : Nat}
    {nonce : Word} {files : Files}
    (torn : files (store.pathFor jobId) =
      some (nonce.toList.take written)) :
    Recoverable store jobId nonce files ↔ 32 ≤ written := by
  constructor
  · intro recoverable
    by_contra short
    exact not_recoverable_torn (Nat.lt_of_not_le short) torn recoverable
  · intro whole
    apply recoverable_written
    rw [torn, List.take_of_length_le]
    rwa [List.Vector.toList_length]

/-- A job without a nonce recovers from a mint exactly when the mint stopped
before it created the file or after it wrote all of it. -/
theorem mint_recoverable_iff {store : NonceStore} {jobId : Nat} {nonce : Word}
    {files : Files} (absent : files (store.pathFor jobId) = none)
    (stop : MintStop) :
    Recoverable store jobId nonce (stop.leaves store jobId nonce files) ↔
      stop.Whole := by
  cases stop with
  | beforeCreation =>
      constructor
      · intro _
        trivial
      · intro _
        exact recoverable_absent absent
  | failed message written =>
      apply torn_recoverable_iff
      simp [MintStop.leaves, NonceStore.mint, MintFault.inWrite, writeNew0600,
        absent, Files.write]
  | crashed written =>
      apply torn_recoverable_iff
      simp [MintStop.leaves, Files.write]

end Hashes

/-- A mint that failed after the last byte left a whole nonce. -/
theorem mint_recoverable_synced :
    @Recoverable sampleHashes sampleStore 7 sampleNonce
        ((MintStop.failed "EIO" 32).leaves sampleStore 7 sampleNonce noFiles) ↔
      (MintStop.failed "EIO" 32).Whole :=
  @mint_recoverable_iff sampleHashes _ _ _ _ rfl _

/-- A full disk after five bytes wedges the job. -/
theorem mint_unrecoverable_torn :
    ¬∀ (store : NonceStore) jobId nonce (files : Files) stop,
      files (store.pathFor jobId) = none →
      @Recoverable sampleHashes store jobId nonce
        (MintStop.leaves store jobId nonce files stop) := by
  intro recovers
  have torn := recovers sampleStore 7 sampleNonce noFiles
    (.failed "No space left on device (os error 28)" 5) rfl
  refine @not_recoverable_torn sampleHashes _ _ 5 _ _ (by decide) ?_ torn
  simp [MintStop.leaves, NonceStore.mint, MintFault.inWrite, writeNew0600,
    noFiles, Files.write]

end NodeAgent.Node
