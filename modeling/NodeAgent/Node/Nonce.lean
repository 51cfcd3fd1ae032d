import Mathlib.Logic.Function.Basic
import Std.Data.String.ToNat
import NodeAgent.Executor.Models
import NodeAgent.Executor.Proof

/-!
# Persisted nonces and artifacts

`node-agent::nonce`.  The store keeps two files a job, filed under the job id
alone.  A nonce file is created once and never replaced; an artifacts file is
written to a temporary file and renamed into place.  A fault is an argument of
each operation, so that every way an operation can fail is covered.
-/

namespace NodeAgent.Node

open Chainio Executor Lifecycle

/-- The contents of the filesystem. -/
abbrev Files := Path → Option Bytes

def Files.write (files : Files) (path : Path) (bytes : Bytes) : Files :=
  Function.update files path (some bytes)

def Files.remove (files : Files) (path : Path) : Files :=
  Function.update files path none

structure NonceStore where
  dir : Path
deriving DecidableEq

/-- Unicode `White_Space`, which `str::trim` removes. -/
def isWhitespace (char : Char) : Bool :=
  let code := char.toNat
  (9 ≤ code ∧ code ≤ 13) ∨ code = 0x20 ∨ code = 0x85 ∨ code = 0xa0 ∨
    code = 0x1680 ∨ (0x2000 ≤ code ∧ code ≤ 0x200a) ∨ code = 0x2028 ∨
    code = 0x2029 ∨ code = 0x202f ∨ code = 0x205f ∨ code = 0x3000

/-- `default_state_dir`, from the two environment variables it reads. -/
def defaultStateDir (stateDir home : Option String) : Path :=
  match stateDir.filter fun dir => !dir.toList.all isWhitespace with
  | some dir => [dir, "nonces"]
  | none => [home.getD ".", ".citrate", "node-agent", "nonces"]

/-- Upper bound on a persisted artifacts file. -/
def MAX_ARTIFACTS_BYTES : Nat := 64 * 1024 * 1024

/-- How creating a new file can fail: it was not opened, or writing and syncing
it failed after some bytes. -/
inductive WriteFault
  | notOpened (message : String)
  | torn (message : String) (written : Nat)
deriving DecidableEq

/-- Create a file that must not exist. -/
def writeNew0600 (path : Path) (bytes : Bytes) (fault : Option WriteFault)
    (files : Files) : Except String Unit × Files :=
  match fault with
  | some (.notOpened message) => (.error message, files)
  | other =>
      match files path with
      | some _ => (.error "File exists (os error 17)", files)
      | none =>
          match other with
          | some (.torn message written) =>
              (.error message, files.write path (bytes.take written))
          | _ => (.ok (), files.write path bytes)

/-- `setup` stands for everything before the nonce file is opened. -/
inductive MintFault
  | setup (message : String)
  | write (fault : WriteFault)
deriving DecidableEq

def MintFault.inWrite : MintFault → Option WriteFault
  | .write fault => some fault
  | .setup _ => none

/-- `setup` stands for everything before the temporary file is opened; `sync`
fails after the artifacts were installed. -/
inductive SaveFault
  | setup (message : String)
  | write (fault : WriteFault)
  | rename (message : String)
  | sync (message : String)
deriving DecidableEq

def SaveFault.inWrite : SaveFault → Option WriteFault
  | .write fault => some fault
  | _ => none

/-- Failures of the two reads of `load_artifacts`. -/
structure LoadFault where
  artifacts : Option String
  nonce : Option String
deriving DecidableEq

namespace NonceStore

def pathFor (store : NonceStore) (jobId : Nat) : Path :=
  store.dir ++ ["nonce-" ++ toString jobId ++ ".bin"]

def artifactsPath (store : NonceStore) (jobId : Nat) : Path :=
  store.dir ++ ["artifacts-" ++ toString jobId ++ ".bin"]

def artifactsTmp (store : NonceStore) (jobId : Nat) : Path :=
  store.dir ++ ["artifacts-" ++ toString jobId ++ ".bin.tmp"]

/-- The persisted nonce; a file of any other length is corrupt. -/
def load (store : NonceStore) (jobId : Nat) (fault : Option String)
    (files : Files) : Except String (Option Word) :=
  match fault with
  | some message => .error message
  | none =>
      match files (store.pathFor jobId) with
      | none => .ok none
      | some bytes =>
          if sized : bytes.length = 32 then .ok (some ⟨bytes, sized⟩)
          else
            .error s!"persisted nonce for job {jobId} is {bytes.length} bytes, expected 32 (corrupt)"

/-- Persist a fresh `nonce`, unless one exists. -/
def mint (store : NonceStore) (jobId : Nat) (nonce : Word)
    (fault : Option MintFault) (files : Files) : Except String Word × Files :=
  match fault with
  | some (.setup message) => (.error message, files)
  | other =>
      match writeNew0600 (store.pathFor jobId) nonce.toList
          (other.bind MintFault.inWrite) files with
      | (.error message, next) => (.error message, next)
      | (.ok (), next) => (.ok nonce, next)

/-- Write the proof to a fresh temporary file and rename it into place. -/
def saveArtifacts (store : NonceStore) (jobId : Nat) (art : CommitmentArtifacts)
    (fault : Option SaveFault) (files : Files) : Except String Unit × Files :=
  let tmp := store.artifactsTmp jobId
  match fault with
  | some (.setup message) => (.error message, files)
  | other =>
      match writeNew0600 tmp art.proof (other.bind SaveFault.inWrite)
          (files.remove tmp) with
      | (.error message, next) => (.error message, next)
      | (.ok (), written) =>
          match other with
          | some (.rename message) => (.error message, written)
          | _ =>
              let installed :=
                (written.write (store.artifactsPath jobId) art.proof).remove tmp
              match other with
              | some (.sync message) => (.error message, installed)
              | _ => (.ok (), installed)

variable [HashFunctions]

def corrupt (jobId : Nat) (why : String) : String :=
  s!"persisted artifacts for job {jobId} are corrupt: {why}"

/-- Reload the artifacts and verify them against their own commitment and the
persisted nonce. -/
def loadArtifactsCapped (store : NonceStore) (jobId max : Nat)
    (fault : LoadFault) (files : Files) :
    Except String (Option CommitmentArtifacts) :=
  match fault.artifacts with
  | some message => .error message
  | none =>
      match files (store.artifactsPath jobId) with
      | none => .ok none
      | some stored =>
          let proof := stored.take (max + 1)
          if proof.length > max then .error (corrupt jobId "oversized")
          else if short : proof.length < 64 then
            .error (corrupt jobId "shorter than commitment ‖ nonce")
          else
            let nonce : Word :=
              ⟨(proof.drop 32).take 32, by
                rw [List.length_take, List.length_drop]
                omega⟩
            let rebuilt := CommitmentProver.build (proof.drop 64) nonce
            if rebuilt.proof ≠ proof then
              .error (corrupt jobId
                "commitment does not match keccak256(output ‖ nonce)")
            else
              match store.load jobId fault.nonce files with
              | .error message => .error message
              | .ok persisted =>
                  if persisted = some nonce then .ok (some rebuilt)
                  else
                    .error (corrupt jobId
                      "nonce does not match the persisted commitment nonce")

def loadArtifacts (store : NonceStore) (jobId : Nat) (fault : LoadFault)
    (files : Files) : Except String (Option CommitmentArtifacts) :=
  store.loadArtifactsCapped jobId MAX_ARTIFACTS_BYTES fault files

end NonceStore

theorem fileName_inj {before after : String} {jobId other : Nat}
    (same : before ++ toString jobId ++ after =
      before ++ toString other ++ after) : jobId = other := by
  have chars := congrArg String.toList same
  simp only [String.toList_append, List.append_assoc] at chars
  have digits := List.append_cancel_right (List.append_cancel_left chars)
  exact Nat.repr_inj.mp (String.toList_inj.mp digits)

namespace NonceStore

theorem pathFor_inj {store : NonceStore} {jobId other : Nat}
    (same : store.pathFor jobId = store.pathFor other) : jobId = other :=
  fileName_inj (List.singleton_inj.mp (List.append_cancel_left same))

theorem artifactsPath_inj {store : NonceStore} {jobId other : Nat}
    (same : store.artifactsPath jobId = store.artifactsPath other) :
    jobId = other :=
  fileName_inj (List.singleton_inj.mp (List.append_cancel_left same))

theorem artifactsPath_ne_pathFor (store : NonceStore) (jobId other : Nat) :
    store.artifactsPath jobId ≠ store.pathFor other := by
  intro same
  have name := List.singleton_inj.mp (List.append_cancel_left same)
  have first := congrArg (fun text => text.toList.head?) name
  simp [String.toList_append] at first

theorem artifactsTmp_ne_pathFor (store : NonceStore) (jobId other : Nat) :
    store.artifactsTmp jobId ≠ store.pathFor other := by
  intro same
  have name := List.singleton_inj.mp (List.append_cancel_left same)
  have first := congrArg (fun text => text.toList.head?) name
  simp [String.toList_append] at first

theorem artifactsTmp_ne_artifactsPath (store : NonceStore)
    (jobId other : Nat) :
    store.artifactsTmp jobId ≠ store.artifactsPath other := by
  intro same
  have name := List.singleton_inj.mp (List.append_cancel_left same)
  have last := congrArg (fun text => text.toList.getLast?) name
  simp [String.toList_append, List.getLast?_cons] at last

/-- Everything the creation of a file can do. -/
inductive WriteEffect (path : Path) (bytes : Bytes) (files : Files) :
    Except String Unit × Files → Prop
  | refused (message : String) :
      WriteEffect path bytes files (.error message, files)
  | torn (message : String) (written : Nat) (absent : files path = none) :
      WriteEffect path bytes files
        (.error message, files.write path (bytes.take written))
  | created (absent : files path = none) :
      WriteEffect path bytes files (.ok (), files.write path bytes)

theorem writeEffect (path : Path) (bytes : Bytes) (fault : Option WriteFault)
    (files : Files) :
    WriteEffect path bytes files (writeNew0600 path bytes fault files) := by
  unfold writeNew0600
  split
  · exact .refused _
  · cases present : files path with
    | some existing => exact .refused _
    | none =>
        simp only
        split
        · exact .torn _ _ present
        · exact .created present

/-- Everything a `mint` can do: nothing, leave a torn file behind, or persist
the whole nonce. -/
inductive MintEffect (store : NonceStore) (jobId : Nat) (nonce : Word)
    (files : Files) : Except String Word × Files → Prop
  | refused (message : String) :
      MintEffect store jobId nonce files (.error message, files)
  | torn (message : String) (written : Nat)
      (absent : files (store.pathFor jobId) = none) :
      MintEffect store jobId nonce files (.error message,
        files.write (store.pathFor jobId) (nonce.toList.take written))
  | minted (absent : files (store.pathFor jobId) = none) :
      MintEffect store jobId nonce files (.ok nonce,
        files.write (store.pathFor jobId) nonce.toList)

theorem mintEffect (store : NonceStore) (jobId : Nat) (nonce : Word)
    (fault : Option MintFault) (files : Files) :
    MintEffect store jobId nonce files (store.mint jobId nonce fault files) := by
  unfold mint
  split
  · exact .refused _
  · have effect := writeEffect (store.pathFor jobId) nonce.toList
      (fault.bind MintFault.inWrite) files
    generalize writeNew0600 _ _ _ _ = written at effect ⊢
    cases effect with
    | refused message => exact .refused message
    | torn message count absent => exact .torn message count absent
    | created absent => exact .minted absent

theorem MintEffect.kept {store : NonceStore} {jobId : Nat} {nonce : Word}
    {files next : Files} {answer : Except String Word}
    (effect : MintEffect store jobId nonce files (answer, next)) {path : Path}
    {bytes : Bytes} (existing : files path = some bytes) :
    next path = some bytes := by
  have fresh (absent : files (store.pathFor jobId) = none) :
      path ≠ store.pathFor jobId := by
    rintro rfl
    rw [absent] at existing
    cases existing
  cases effect with
  | refused message => exact existing
  | torn message written absent =>
      rw [Files.write, Function.update_of_ne (fresh absent), existing]
  | minted absent =>
      rw [Files.write, Function.update_of_ne (fresh absent), existing]

theorem MintEffect.ok {store : NonceStore} {jobId : Nat} {nonce minted : Word}
    {files next : Files}
    (effect : MintEffect store jobId nonce files (.ok minted, next)) :
    minted = nonce ∧ next (store.pathFor jobId) = some nonce.toList := by
  cases effect with
  | minted absent => exact ⟨rfl, Function.update_self _ _ _⟩

/-- A whole nonce that is on disk after minting was there before, or is the
minted one. -/
theorem MintEffect.whole {store : NonceStore} {jobId : Nat}
    {minted nonce : Word} {files next : Files} {answer : Except String Word}
    (effect : MintEffect store jobId minted files (answer, next))
    (written : next (store.pathFor jobId) = some nonce.toList) :
    files (store.pathFor jobId) = some nonce.toList ∨
      files (store.pathFor jobId) = none ∧ nonce = minted := by
  cases effect with
  | refused message => exact Or.inl written
  | torn message count absent =>
      right
      refine ⟨absent, List.Vector.toList_injective ?_⟩
      rw [Files.write, Function.update_self] at written
      have torn : minted.toList.take count = nonce.toList :=
        Option.some.inj written
      have length := congrArg List.length torn
      simp only [List.length_take, List.Vector.toList_length] at length
      rw [← torn, List.take_of_length_le]
      rw [List.Vector.toList_length]
      omega
  | minted absent =>
      right
      refine ⟨absent, List.Vector.toList_injective ?_⟩
      rw [Files.write, Function.update_self] at written
      exact (Option.some.inj written).symm

theorem MintEffect.frame {store : NonceStore} {jobId : Nat} {nonce : Word}
    {files next : Files} {answer : Except String Word}
    (effect : MintEffect store jobId nonce files (answer, next)) {path : Path}
    (elsewhere : path ≠ store.pathFor jobId) : next path = files path := by
  cases effect with
  | refused message => rfl
  | torn message written absent => exact Function.update_of_ne elsewhere _ _
  | minted absent => exact Function.update_of_ne elsewhere _ _

/-- Everything `saveArtifacts` can do to the files that are read back: nothing,
or install the proof, whatever it then reports. -/
inductive SaveEffect (store : NonceStore) (jobId : Nat)
    (art : CommitmentArtifacts) (files : Files) :
    Except String Unit × Files → Prop
  | failed (message : String) {next : Files}
      (frame : ∀ path, path ≠ store.artifactsTmp jobId →
        next path = files path) :
      SaveEffect store jobId art files (.error message, next)
  | installed (result : Except String Unit) {next : Files}
      (proof : next (store.artifactsPath jobId) = some art.proof)
      (frame : ∀ path, path ≠ store.artifactsTmp jobId →
        path ≠ store.artifactsPath jobId → next path = files path) :
      SaveEffect store jobId art files (result, next)

theorem SaveEffect.nonceFile {store : NonceStore} {jobId other : Nat}
    {art : CommitmentArtifacts} {files next : Files}
    {answer : Except String Unit}
    (effect : SaveEffect store jobId art files (answer, next)) :
    next (store.pathFor other) = files (store.pathFor other) := by
  have notTmp := (store.artifactsTmp_ne_pathFor jobId other).symm
  have notFinal := (store.artifactsPath_ne_pathFor jobId other).symm
  cases effect with
  | failed message frame => exact frame _ notTmp
  | installed result proof frame => exact frame _ notTmp notFinal

theorem SaveEffect.artifactsFile {store : NonceStore} {jobId : Nat}
    {art : CommitmentArtifacts} {files next : Files}
    {answer : Except String Unit}
    (effect : SaveEffect store jobId art files (answer, next)) :
    next (store.artifactsPath jobId) = files (store.artifactsPath jobId) ∨
      next (store.artifactsPath jobId) = some art.proof := by
  cases effect with
  | failed message frame =>
      exact Or.inl (frame _ (store.artifactsTmp_ne_artifactsPath _ _).symm)
  | installed result proof frame => exact Or.inr proof

theorem SaveEffect.frame {store : NonceStore} {jobId other : Nat}
    {art : CommitmentArtifacts} {files next : Files}
    {answer : Except String Unit} (different : other ≠ jobId)
    (effect : SaveEffect store jobId art files (answer, next)) :
    next (store.artifactsPath other) = files (store.artifactsPath other) := by
  have notTmp := (store.artifactsTmp_ne_artifactsPath jobId other).symm
  cases effect with
  | failed message frame => exact frame _ notTmp
  | installed result proof frame =>
      exact frame _ notTmp fun same => different (artifactsPath_inj same)

theorem SaveEffect.ok {store : NonceStore} {jobId : Nat}
    {art : CommitmentArtifacts} {files next : Files}
    (effect : SaveEffect store jobId art files (.ok (), next)) :
    next (store.artifactsPath jobId) = some art.proof := by
  cases effect with
  | installed result proof frame => exact proof

theorem SaveEffect.renamed {store : NonceStore} {jobId : Nat}
    {art : CommitmentArtifacts} {files : Files} (result : Except String Unit) :
    SaveEffect store jobId art files (result,
      ((((files.remove (store.artifactsTmp jobId)).write
        (store.artifactsTmp jobId) art.proof).write
          (store.artifactsPath jobId) art.proof).remove
            (store.artifactsTmp jobId))) := by
  have notTmp := (store.artifactsTmp_ne_artifactsPath jobId jobId).symm
  apply SaveEffect.installed
  · simp [Files.write, Files.remove, notTmp]
  · intro path elsewhere notFinal
    simp [Files.write, Files.remove, elsewhere, notFinal]

theorem saveEffect (store : NonceStore) (jobId : Nat)
    (art : CommitmentArtifacts) (fault : Option SaveFault) (files : Files) :
    SaveEffect store jobId art files
      (store.saveArtifacts jobId art fault files) := by
  unfold saveArtifacts
  dsimp only
  split
  · exact .failed _ fun _ _ => rfl
  · have effect := writeEffect (store.artifactsTmp jobId) art.proof
      (fault.bind SaveFault.inWrite) (files.remove (store.artifactsTmp jobId))
    generalize writeNew0600 _ _ _ _ = written at effect ⊢
    cases effect with
    | refused message =>
        apply SaveEffect.failed message
        intro path elsewhere
        simp [Files.remove, elsewhere]
    | torn message count absent =>
        apply SaveEffect.failed message
        intro path elsewhere
        simp [Files.write, Files.remove, elsewhere]
    | created absent =>
        simp only
        split
        · apply SaveEffect.failed
          intro path elsewhere
          simp [Files.write, Files.remove, elsewhere]
        · split
          · exact .renamed _
          · exact .renamed _

theorem saveArtifacts_faultless (store : NonceStore) (jobId : Nat)
    (art : CommitmentArtifacts) (files : Files) :
    (store.saveArtifacts jobId art none files).1 = .ok () := by
  simp [saveArtifacts, writeNew0600, Files.remove]

theorem mint_faultless {store : NonceStore} {jobId : Nat} (nonce : Word)
    {files : Files} (absent : files (store.pathFor jobId) = none) :
    store.mint jobId nonce none files =
      (.ok nonce, files.write (store.pathFor jobId) nonce.toList) := by
  simp [mint, writeNew0600, absent]

theorem load_some {store : NonceStore} {jobId : Nat} {fault : Option String}
    {files : Files} {nonce : Word}
    (loaded : store.load jobId fault files = .ok (some nonce)) :
    files (store.pathFor jobId) = some nonce.toList := by
  unfold load at loaded
  split at loaded
  · cases loaded
  · cases present : files (store.pathFor jobId) with
    | none => simp [present] at loaded
    | some bytes =>
        simp only [present] at loaded
        split at loaded
        · cases loaded
          rfl
        · cases loaded

theorem load_written {store : NonceStore} {jobId : Nat} {files : Files}
    {nonce : Word}
    (written : files (store.pathFor jobId) = some nonce.toList) :
    store.load jobId none files = .ok (some nonce) := by
  simp [load, written]

section Artifacts

variable [HashFunctions]

/-- Artifacts that were loaded are an honest proof under the persisted nonce,
and the artifacts file is that proof. -/
theorem loadArtifacts_some {store : NonceStore} {jobId : Nat}
    {fault : LoadFault} {files : Files} {art : CommitmentArtifacts}
    (loaded : store.loadArtifacts jobId fault files = .ok (some art)) :
    ∃ output nonce, art = CommitmentProver.build output nonce ∧
      files (store.pathFor jobId) = some nonce.toList ∧
      files (store.artifactsPath jobId) = some art.proof := by
  unfold loadArtifacts loadArtifactsCapped at loaded
  split at loaded
  · cases loaded
  · cases present : files (store.artifactsPath jobId) with
    | none => simp [present] at loaded
    | some stored =>
        simp only [present] at loaded
        split at loaded
        · cases loaded
        · rename_i fits
          have whole : stored.take (MAX_ARTIFACTS_BYTES + 1) = stored := by
            apply List.take_of_length_le
            rw [List.length_take] at fits
            omega
          split at loaded
          · cases loaded
          · split at loaded
            · cases loaded
            · rename_i rebuilt
              cases persisted : store.load jobId fault.nonce files with
              | error message => simp [persisted] at loaded
              | ok found =>
                  simp only [persisted] at loaded
                  split at loaded
                  · rename_i same
                    cases loaded
                    refine ⟨_, _, rfl, load_some (same ▸ persisted), ?_⟩
                    rw [not_not.mp rebuilt, whole]
                  · cases loaded

theorem loadArtifacts_none {store : NonceStore} {jobId : Nat}
    {fault : LoadFault} {files : Files}
    (loaded : store.loadArtifacts jobId fault files = .ok none) :
    files (store.artifactsPath jobId) = none := by
  unfold loadArtifacts loadArtifactsCapped at loaded
  split at loaded
  · cases loaded
  · cases present : files (store.artifactsPath jobId) with
    | none => rfl
    | some stored =>
        simp only [present] at loaded
        repeat' split at loaded
        all_goals cases loaded

theorem loadArtifacts_saved {store : NonceStore} {jobId : Nat} {files : Files}
    {output : Bytes} {nonce : Word}
    (persisted : files (store.pathFor jobId) = some nonce.toList)
    (saved : files (store.artifactsPath jobId) =
      some (CommitmentProver.build output nonce).proof)
    (fits : 64 + output.length ≤ MAX_ARTIFACTS_BYTES) :
    store.loadArtifacts jobId ⟨none, none⟩ files =
      .ok (some (CommitmentProver.build output nonce)) := by
  have size := CommitmentProver.build_proof_length output nonce
  have whole : (CommitmentProver.build output nonce).proof.take
      (MAX_ARTIFACTS_BYTES + 1) =
        (CommitmentProver.build output nonce).proof := by
    apply List.take_of_length_le
    omega
  simp only [loadArtifacts, loadArtifactsCapped, saved, whole, size]
  rw [if_neg (by omega), dif_neg (by omega)]
  simp only [CommitmentProver.build_proof_drop,
    CommitmentProver.build_proof_nonce]
  simp [load_written persisted]

end Artifacts

end NonceStore

end NodeAgent.Node
