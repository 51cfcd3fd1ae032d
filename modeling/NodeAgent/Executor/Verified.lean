import NodeAgent.Executor.Models

/-!
# What provisioning leaves behind

`provision` against a cache on disk and a source of weights that may answer
anything.  Only bytes that hash to the commitment are returned or cached, and a
refusal leaves no fetched byte behind.
-/

namespace NodeAgent.Executor

open Chainio Interaction

/-- The cache files, and the CIDs the source was asked for. -/
structure CacheWorld where
  files : Path → Option Bytes
  fetches : List String

/-- What the source and the disk answer.  A read or a removal may fail, and a
write that fails writes nothing. -/
structure ProvisionEnv where
  source : String → Except ProvisionError Bytes
  reads : Bool
  removes : Bool
  created : Except String Unit
  written : Except String Unit

def CacheWorld.store (world : CacheWorld) (path : Path)
    (content : Option Bytes) : CacheWorld :=
  { world with
    files := fun file => if file = path then content else world.files file }

def provisionHandle (env : ProvisionEnv) (world : CacheWorld) :
    (op : ProvisionOp) → ProvisionAnswer op × CacheWorld
  | .readCache path => (if env.reads then world.files path else none, world)
  | .removeCache path =>
      ((), if env.removes then world.store path none else world)
  | .fetch cid =>
      (env.source cid, { world with fetches := world.fetches ++ [cid] })
  | .createDirAll _ => (env.created, world)
  | .writeCache path bytes =>
      match env.written with
      | .error error => (.error error, world)
      | .ok () => (.ok (), world.store path (some bytes))

/-- No file has other bytes than before. -/
def OnlyRemoved (before after : CacheWorld) : Prop :=
  ∀ file, after.files file = before.files file ∨ after.files file = none

theorem onlyRemoved_refl (world : CacheWorld) : OnlyRemoved world world :=
  fun _ => Or.inl rfl

theorem onlyRemoved_remove (world : CacheWorld) (path : Path) :
    OnlyRemoved world (world.store path none) := by
  intro file
  by_cases same : file = path
  · exact Or.inr (if_pos same)
  · exact Or.inl (if_neg same)

@[simp] theorem store_files (world : CacheWorld) (path : Path)
    (content : Option Bytes) :
    (world.store path content).files path = content :=
  if_pos rfl

@[simp] theorem store_fetches (world : CacheWorld) (path : Path)
    (content : Option Bytes) :
    (world.store path content).fetches = world.fetches := rfl

/-- The digest the weights are checked against, and where it comes from. -/
inductive CommitsTo (ipfsCid : String) : Option Word → Word → Integrity → Prop
  | caller {digest : Word} :
      CommitsTo ipfsCid (some digest) digest .sha256Verified
  | cid {digest : Word} (embedded : cidEmbeddedSha256 ipfsCid = some digest) :
      CommitsTo ipfsCid none digest .cidSha256Verified

theorem commitsTo_iff {ipfsCid : String} {expectedSha256 : Option Word}
    {digest : Word} {integrity : Integrity} :
    CommitsTo ipfsCid expectedSha256 digest integrity ↔
      integrityCommitment ipfsCid expectedSha256 =
        some (digest, integrity) := by
  constructor
  · intro commits
    cases commits with
    | caller => rfl
    | cid embedded => simp only [integrityCommitment, embedded, Option.map_some]
  · intro resolved
    cases expectedSha256 with
    | some caller =>
        cases resolved
        exact .caller
    | none =>
        obtain ⟨embedded, found, same⟩ := Option.map_eq_some_iff.mp resolved
        cases same
        exact .cid found

section Hashes

variable [HashFunctions]

/-- These bytes are what the digest and the size call for. -/
structure Matches (expectedSize : Option Nat) (digest : Word)
    (bytes : Bytes) : Prop where
  digest : sha256 bytes = digest
  size : ∀ size, expectedSize = some size → bytes.length = size

theorem matches_cached_iff {expectedSize : Option Nat} {digest : Word}
    {bytes : Bytes} :
    ((expectedSize.all fun size => size = bytes.length) ∧
      sha256Digest bytes = digest) ↔ Matches expectedSize digest bytes := by
  constructor
  · intro checked
    obtain ⟨sized, hashed⟩ := checked
    refine ⟨hashed, ?_⟩
    rintro size rfl
    exact (of_decide_eq_true sized).symm
  · intro good
    refine ⟨?_, good.digest⟩
    cases expectedSize with
    | none => rfl
    | some size => exact decide_eq_true (good.size size rfl).symm

theorem matches_fetched {expectedSize : Option Nat} {digest : Word}
    {bytes : Bytes}
    (sized : expectedSize.filter (fun size => bytes.length ≠ size) = none)
    (hashed : sha256Digest bytes = digest) :
    Matches expectedSize digest bytes := by
  refine ⟨hashed, ?_⟩
  rintro size rfl
  simpa using sized

variable (env : ProvisionEnv) (modelHash : Word) (ipfsCid : String)
  (isActive : Bool) (expectedSize : Option Nat) (expectedSha256 : Option Word)
  (digest : Word) (integrity : Integrity) (cacheDir : Path)

/-- A fetch ends in a verified file or leaves every file as it was. -/
structure Fetched (before after : CacheWorld)
    (result : Except ProvisionError ProvisionedModel) : Prop where
  fetches : after.fetches = before.fetches ++ [ipfsCid]
  cached : ∀ model, result = .ok model →
    ∃ bytes, model =
        ⟨modelHash, cacheFile cacheDir modelHash, bytes.length, integrity⟩ ∧
      after.files model.path = some bytes ∧ Matches expectedSize digest bytes
  refused : ∀ error, result = .error error → after.files = before.files

theorem fetched_refused (before : CacheWorld) (error : ProvisionError) :
    Fetched modelHash ipfsCid expectedSize digest integrity cacheDir before
      { before with fetches := before.fetches ++ [ipfsCid] }
      (.error error) where
  fetches := rfl
  cached _ same := by cases same
  refused _ _ := rfl

theorem fetchVerified_fetched (before : CacheWorld) :
    Fetched modelHash ipfsCid expectedSize digest integrity cacheDir before
      ((fetchVerified modelHash ipfsCid expectedSize digest integrity
        cacheDir).runOn (provisionHandle env) before).2
      ((fetchVerified modelHash ipfsCid expectedSize digest integrity
        cacheDir).runOn (provisionHandle env) before).1 := by
  simp only [fetchVerified, Program.perform_bind, Program.runOn_call,
    provisionHandle]
  cases env.source ipfsCid with
  | error error => exact fetched_refused _ _ _ _ _ _ _ _
  | ok bytes =>
      cases sized : expectedSize.filter (fun size => bytes.length ≠ size) with
      | some size =>
          simp only [sized]
          exact fetched_refused _ _ _ _ _ _ _ _
      | none =>
          simp only [sized]
          by_cases hashed : sha256Digest bytes = digest
          · rw [if_neg (not_not.mpr hashed)]
            simp only [Program.runOn_call, provisionHandle]
            cases env.created with
            | error error => exact fetched_refused _ _ _ _ _ _ _ _
            | ok created =>
                simp only [Program.runOn_call, provisionHandle]
                cases env.written with
                | error error => exact fetched_refused _ _ _ _ _ _ _ _
                | ok written =>
                    refine ⟨rfl, ?_, ?_⟩
                    · intro model same
                      cases same
                      exact ⟨bytes, rfl, if_pos rfl,
                        matches_fetched sized hashed⟩
                    · intro error same
                      cases same
          · rw [if_pos hashed]
            exact fetched_refused _ _ _ _ _ _ _ _

/-- The outcome of one provisioning.  A cached copy spares a fetch as long as it
can be read. -/
structure VerifiedOnly (reads : Bool) (before after : CacheWorld)
    (result : Except ProvisionError ProvisionedModel) : Prop where
  verified : ∀ model, result = .ok model →
    isActive = true ∧ validateCid ipfsCid = true ∧
      model.modelHash = modelHash ∧
      model.path = cacheFile cacheDir modelHash ∧
      ∃ digest bytes, CommitsTo ipfsCid expectedSha256 digest model.integrity ∧
        after.files model.path = some bytes ∧ bytes.length = model.bytesLen ∧
        Matches expectedSize digest bytes
  refused : ∀ error, result = .error error → OnlyRemoved before after
  fetchedOnce : after.fetches = before.fetches ∨
    after.fetches = before.fetches ++ [ipfsCid]
  cachedCopy : reads = true → ∀ digest integrity bytes,
    CommitsTo ipfsCid expectedSha256 digest integrity →
    before.files (cacheFile cacheDir modelHash) = some bytes →
    Matches expectedSize digest bytes → after.fetches = before.fetches
  committed : after.fetches ≠ before.fetches →
    isActive = true ∧ validateCid ipfsCid = true ∧
      ∃ digest integrity, CommitsTo ipfsCid expectedSha256 digest integrity

theorem verifiedOnly_refused (reads : Bool) (before : CacheWorld)
    (error : ProvisionError) :
    VerifiedOnly modelHash ipfsCid isActive expectedSize expectedSha256
      cacheDir reads before before (.error error) where
  verified _ same := by cases same
  refused _ _ := onlyRemoved_refl before
  fetchedOnce := Or.inl rfl
  cachedCopy _ _ _ _ _ _ _ := rfl
  committed fetched := absurd rfl fetched

variable {ipfsCid isActive expectedSize expectedSha256 digest integrity} in
theorem verifiedOnly_cached (reads : Bool) {before : CacheWorld} {bytes : Bytes}
    (active : isActive = true) (valid : validateCid ipfsCid = true)
    (commits : CommitsTo ipfsCid expectedSha256 digest integrity)
    (cached : before.files (cacheFile cacheDir modelHash) = some bytes)
    (good : Matches expectedSize digest bytes) :
    VerifiedOnly modelHash ipfsCid isActive expectedSize expectedSha256
      cacheDir reads before before
      (.ok ⟨modelHash, cacheFile cacheDir modelHash, bytes.length,
        integrity⟩) where
  verified model same := by
    cases same
    exact ⟨active, valid, rfl, rfl, digest, bytes, commits, cached, rfl, good⟩
  refused _ _ := onlyRemoved_refl before
  fetchedOnce := Or.inl rfl
  cachedCopy _ _ _ _ _ _ _ := rfl
  committed fetched := absurd rfl fetched

variable {ipfsCid isActive expectedSize expectedSha256 digest integrity} in
theorem Fetched.verifiedOnly {reads : Bool} {before cleared after : CacheWorld}
    {result : Except ProvisionError ProvisionedModel}
    (fetched : Fetched modelHash ipfsCid expectedSize digest integrity cacheDir
      cleared after result)
    (active : isActive = true) (valid : validateCid ipfsCid = true)
    (commits : CommitsTo ipfsCid expectedSha256 digest integrity)
    (removed : OnlyRemoved before cleared)
    (unfetched : cleared.fetches = before.fetches)
    (missing : reads = true →
      ∀ bytes, before.files (cacheFile cacheDir modelHash) = some bytes →
        ¬Matches expectedSize digest bytes) :
    VerifiedOnly modelHash ipfsCid isActive expectedSize expectedSha256
      cacheDir reads before after result where
  verified model same := by
    obtain ⟨bytes, rfl, stored, good⟩ := fetched.cached model same
    exact ⟨active, valid, rfl, rfl, digest, bytes, commits, stored, rfl, good⟩
  refused error same file := by
    rw [fetched.refused error same]
    exact removed file
  fetchedOnce := by
    rw [fetched.fetches, unfetched]
    exact Or.inr rfl
  cachedCopy readable digest' integrity' bytes commits' cached good := by
    rw [commitsTo_iff] at commits commits'
    cases commits.symm.trans commits'
    exact absurd good (missing readable bytes cached)
  committed _ := ⟨active, valid, digest, integrity, commits⟩

/-- Whatever the cache held and whatever the source answers, only verified
weights are returned or cached. -/
theorem provision_verifiedOnly (before : CacheWorld) :
    VerifiedOnly modelHash ipfsCid isActive expectedSize expectedSha256
      cacheDir env.reads before
      ((provision modelHash ipfsCid isActive expectedSize expectedSha256
        cacheDir).runOn (provisionHandle env) before).2
      ((provision modelHash ipfsCid isActive expectedSize expectedSha256
        cacheDir).runOn (provisionHandle env) before).1 := by
  unfold provision
  cases isActive
  · exact verifiedOnly_refused _ _ _ _ _ _ _ _ _
  by_cases empty : ipfsCid.isEmpty = true
  · simp only [empty, Bool.not_true, Bool.false_eq_true, if_false,
      if_true]
    exact verifiedOnly_refused _ _ _ _ _ _ _ _ _
  by_cases valid : validateCid ipfsCid = true
  case neg =>
    simp only [empty, valid, Bool.not_true, Bool.not_false,
      Bool.false_eq_true, if_false, if_true]
    exact verifiedOnly_refused _ _ _ _ _ _ _ _ _
  simp only [empty, valid, Bool.not_true, Bool.false_eq_true, if_false]
  cases resolved : integrityCommitment ipfsCid expectedSha256 with
  | none => exact verifiedOnly_refused _ _ _ _ _ _ _ _ _
  | some commitment =>
      obtain ⟨digest, integrity⟩ := commitment
      have commits := commitsTo_iff.mpr resolved
      simp only [Program.perform_bind, Program.runOn_call, provisionHandle]
      cases cached : (if env.reads then
          before.files (cacheFile cacheDir modelHash) else none) with
      | none =>
          dsimp only
          apply (fetchVerified_fetched _ _ _ _ _ _ _ before).verifiedOnly
            _ _ rfl valid commits (onlyRemoved_refl before) rfl
          intro readable bytes found
          rw [if_pos readable, found] at cached
          cases cached
      | some bytes =>
          have readable : env.reads = true := by
            by_contra unreadable
            rw [if_neg unreadable] at cached
            cases cached
          rw [if_pos readable] at cached
          dsimp only
          by_cases good : Matches expectedSize digest bytes
          · rw [if_pos (matches_cached_iff.mpr good)]
            exact verifiedOnly_cached _ _ _ rfl valid commits cached good
          · rw [if_neg fun hit => good (matches_cached_iff.mp hit)]
            have missing : env.reads = true → ∀ found,
                before.files (cacheFile cacheDir modelHash) = some found →
                  ¬Matches expectedSize digest found := by
              intro _ found same
              cases cached.symm.trans same
              exact good
            simp only [Program.runOn_call, provisionHandle]
            cases env.removes with
            | false =>
                exact (fetchVerified_fetched _ _ _ _ _ _ _ _).verifiedOnly
                  _ _ rfl valid commits (onlyRemoved_refl before) rfl missing
            | true =>
                exact (fetchVerified_fetched _ _ _ _ _ _ _ _).verifiedOnly
                  _ _ rfl valid commits (onlyRemoved_remove before _) rfl
                  missing

end Hashes

end NodeAgent.Executor
