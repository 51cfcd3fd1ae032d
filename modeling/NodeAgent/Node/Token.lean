import NodeAgent.Chainio.ModelRegistry
import NodeAgent.Library.Fallible
import NodeAgent.Library.Runs
import NodeAgent.Node.Nonce
import NodeAgent.Supervision.Server

/-!
# The supervision token's file

`supervision::auth`: the token is read from its file, or minted and persisted.
A link or a foreign file is never adopted, a file is created once and never
rewritten, and the permissions are repaired on every start.  A fault may hit
every operation; a crash is a fault that nobody reports.
-/

namespace NodeAgent.Node

open Chainio Executor Supervision

structure RegularFile where
  owner : Nat
  mode : Nat
  content : Bytes
deriving DecidableEq

/-- What stands at a path, without following links. -/
inductive Inode
  | file (file : RegularFile)
  | symlink (owner : Nat) (target : Option RegularFile)
  | directory (owner mode : Nat)
deriving DecidableEq

namespace Inode

def owner : Inode → Nat
  | .file regular => regular.owner
  | .symlink owner _ => owner
  | .directory owner _ => owner

def isSymlink : Inode → Bool
  | .symlink _ _ => true
  | _ => false

/-- Set the mode of what the path leads to; a link is followed. -/
def setMode (mode : Nat) : Inode → Option Inode
  | .file regular => some (.file { regular with mode := mode })
  | .symlink owner target =>
      target.map fun regular =>
        .symlink owner (some { regular with mode := mode })
  | .directory owner _ => some (.directory owner mode)

end Inode

/-- The token's path and its parent directory. -/
structure TokenDir where
  inode : Option Inode
  parentMode : Option Nat
deriving DecidableEq

/-- A path as it is printed, and whether its parent has a name. -/
structure TokenPath where
  display : String
  hasParent : Bool

/-- The daemon's user, and the mode that its umask leaves a new directory. -/
structure Process where
  euid : Nat
  newDirMode : Nat

/-- The operations that fail, in their order. -/
structure TokenFaults where
  stat : Option String
  opened : Option String
  read : Option String
  madeDir : Option String
  dirStat : Option String
  dirChmod : Option String
  create : Option WriteFault
  fileStat : Option String
  fileChmod : Option String

inductive TokenError
  | os (message : String)
  | invalidData (message : String)
  | permissionDenied (message : String)
deriving DecidableEq

abbrev TokenM := Fallible TokenError TokenDir

def failing : Option String → TokenM Unit
  | some message => throw (.os message)
  | none => pure ()

def notFound : TokenError := .os "No such file or directory (os error 2)"

/-- `str::trim`. -/
def trim (text : String) : String :=
  String.ofList
    (((text.toList.dropWhile isWhitespace).reverse.dropWhile
      isWhitespace).reverse)

/-- 64 hex digits, from 32 random bytes. -/
def SupervisionAuth.generate (bytes : Word) : SupervisionAuth where
  token := String.ofList (bytes.toList.flatMap fun byte =>
    [Nat.digitChar (byte.toNat / 16), Nat.digitChar (byte.toNat % 16)])

section Operations

variable (path : TokenPath) (process : Process) (faults : TokenFaults)

/-- The text of a safe file that exists; any error but `NotFound` is passed
on. -/
def readExistingToken : TokenM (Option String) := do
  failing faults.stat
  match (← get).inode with
  | none => return none
  | some inode =>
      if inode.isSymlink then
        throw (.invalidData
          s!"supervision token path {path.display} is a symlink; refusing to follow it (NA-B-007)")
      else if inode.owner ≠ process.euid then
        throw (.permissionDenied
          s!"supervision token file {path.display} is owned by uid {inode.owner} not {process.euid}; refusing to adopt it (NA-B-007)")
      else do
        failing faults.opened
        failing faults.read
        match inode with
        | .file file =>
            match fromUtf8 file.content with
            | some text => return some text
            | none =>
                throw (.invalidData "stream did not contain valid UTF-8")
        | _ => throw (.os "Is a directory (os error 21)")

def hardenDirPerms : TokenM Unit :=
  if path.hasParent then do
    failing faults.dirStat
    match (← get).parentMode with
    | none => throw notFound
    | some _ => do
        failing faults.dirChmod
        modify fun fs => { fs with parentMode := some 0o700 }
  else pure ()

def hardenPerms : TokenM Unit := do
  failing faults.fileStat
  match (← get).inode.bind (Inode.setMode 0o600) with
  | none => throw notFound
  | some hardened => do
      failing faults.fileChmod
      modify fun fs => { fs with inode := some hardened }

def createDirAll : TokenM Unit :=
  if path.hasParent then do
    failing faults.madeDir
    modify fun fs =>
      { fs with parentMode := some (fs.parentMode.getD process.newDirMode) }
  else pure ()

/-- Create the file, which must not exist, and write the token. -/
def createNewTokenFile (token : Bytes) : TokenM Unit := do
  match faults.create with
  | some (.notOpened message) => throw (.os message)
  | fault =>
      match (← get).inode with
      | some _ => throw (.os "File exists (os error 17)")
      | none =>
          match fault with
          | some (.torn message written) => do
              modify fun fs =>
                { fs with
                  inode := some (.file
                    ⟨process.euid, 0o600, token.take written⟩) }
              throw (.os message)
          | _ =>
              modify fun fs =>
                { fs with inode := some (.file ⟨process.euid, 0o600, token⟩) }

/-- `SupervisionAuth::load_or_create`, with the bytes it would mint. -/
def loadOrCreate (minted : Word) : TokenM SupervisionAuth := do
  match ← readExistingToken path process faults with
  | some existing =>
      let trimmed := trim existing
      if trimmed ≠ "" then do
        hardenDirPerms path faults
        hardenPerms faults
        return ⟨trimmed⟩
      else
        throw (.invalidData
          s!"supervision token file {path.display} exists but is empty; refusing to overwrite in place")
  | none => do
      let auth := SupervisionAuth.generate minted
      createDirAll path process faults
      hardenDirPerms path faults
      createNewTokenFile process faults (utf8 auth.token)
      hardenPerms faults
      return auth

end Operations

section Effects

variable {path : TokenPath} {process : Process} {faults : TokenFaults}

theorem failing_bind {α : Type} {fault : Option String} {pre : TokenDir → Prop}
    {next : Unit → TokenM α} {post : Except TokenError α → TokenDir → Prop}
    (fails : ∀ error fs, pre fs → post (.error error) fs)
    (rest : Fallible.Ensures pre (next ()) post) :
    Fallible.Ensures pre (failing fault >>= next) post := by
  constructor
  intro fs holds
  cases fault with
  | none =>
      rw [failing, Fallible.outcome_bind_ok (Fallible.outcome_pure () fs)]
      exact rest.holds fs holds
  | some message =>
      rw [failing, Fallible.outcome_bind_error (Fallible.outcome_throw _ fs)]
      exact fails _ fs holds

/-- The parent directory is open for its owner alone. -/
def DirHardened (path : TokenPath) (fs : TokenDir) : Prop :=
  path.hasParent = true → fs.parentMode = some 0o700

theorem hardenDirPerms_ensures (path : TokenPath) (faults : TokenFaults)
    (before : TokenDir) :
    Fallible.Ensures (fun fs => fs = before) (hardenDirPerms path faults)
      fun result after =>
        after.inode = before.inode ∧
          (result = .ok () → DirHardened path after ∧
            (path.hasParent = true → before.parentMode ≠ none)) := by
  rw [hardenDirPerms]
  split
  · apply failing_bind
    · rintro error _ rfl
      exact ⟨rfl, nofun⟩
    apply Fallible.ensures_get
    rintro fs rfl
    cases mode : fs.parentMode with
    | none =>
        apply Fallible.ensures_throw
        rintro _ rfl
        exact ⟨rfl, nofun⟩
    | some mode =>
        apply failing_bind
        · rintro error _ rfl
          exact ⟨rfl, nofun⟩
        apply Fallible.ensures_modify
        rintro _ rfl
        exact ⟨rfl, fun _ => ⟨fun _ => rfl, fun _ => Option.some_ne_none _⟩⟩
  · next bare =>
    apply Fallible.ensures_pure
    rintro _ rfl
    exact ⟨rfl, fun _ => ⟨fun parent => absurd parent bare,
      fun parent => absurd parent bare⟩⟩

theorem hardenPerms_ensures (faults : TokenFaults) (file : RegularFile)
    (parentMode : Option Nat) :
    Fallible.Ensures
      (fun fs => fs.inode = some (.file file) ∧ fs.parentMode = parentMode)
      (hardenPerms faults) fun result after =>
        after.parentMode = parentMode ∧
          (after.inode = some (.file file) ∧ result ≠ .ok () ∨
            after.inode = some (.file { file with mode := 0o600 })) := by
  rw [hardenPerms]
  apply failing_bind
  · intro error fs holds
    exact ⟨holds.2, Or.inl ⟨holds.1, nofun⟩⟩
  apply Fallible.ensures_get
  rintro fs ⟨inode, mode⟩
  rw [inode]
  apply failing_bind
  · rintro error _ rfl
    exact ⟨mode, Or.inl ⟨inode, nofun⟩⟩
  apply Fallible.ensures_modify
  rintro _ rfl
  exact ⟨mode, Or.inr rfl⟩

theorem createDirAll_ensures (before : TokenDir) :
    Fallible.Ensures (fun fs => fs.inode = before.inode)
      (createDirAll path process faults) fun _ after =>
        after.inode = before.inode := by
  rw [createDirAll]
  split
  · apply failing_bind
    · intro error fs same
      exact same
    apply Fallible.ensures_modify
    intro fs same
    exact same
  · apply Fallible.ensures_pure
    intro fs same
    exact same

/-- A new file holds what was written of the token, and nothing else changes. -/
theorem createNewTokenFile_ensures (process : Process) (faults : TokenFaults)
    (token : Bytes) (before : TokenDir) :
    Fallible.Ensures (fun fs => fs = before)
      (createNewTokenFile process faults token) fun result after =>
        result ≠ .ok () ∧ after = before ∨
          before.inode = none ∧ ∃ written,
            after = { before with
              inode := some (.file ⟨process.euid, 0o600, written⟩) } ∧
            (result = .ok () ∧ written = token ∨ result ≠ .ok () ∧
              ∃ message count, faults.create = some (.torn message count) ∧
                written = token.take count) := by
  rw [createNewTokenFile]
  split
  · next message _ =>
    apply Fallible.ensures_throw
    intro fs same
    exact Or.inl ⟨nofun, same⟩
  next fault opened =>
  apply Fallible.ensures_get
  rintro _ rfl
  split
  · apply Fallible.ensures_throw
    intro fs same
    exact Or.inl ⟨nofun, same⟩
  next absent =>
  split
  · next message count torn =>
    constructor
    rintro fs rfl
    exact Or.inr ⟨absent, token.take count, rfl,
      Or.inr ⟨nofun, message, count, torn, rfl⟩⟩
  · apply Fallible.ensures_modify
    rintro fs rfl
    exact Or.inr ⟨absent, token, rfl, Or.inl ⟨rfl, rfl⟩⟩

/-- Reading changes nothing, and reads nothing but the daemon's own file. -/
theorem readExistingToken_ensures (before : TokenDir) :
    Fallible.Ensures (fun fs => fs = before)
      (readExistingToken path process faults) fun result after =>
        after = before ∧ (result = .ok none → before.inode = none) ∧
          ∀ text, result = .ok (some text) → ∃ mode content,
            fromUtf8 content = some text ∧
              before.inode = some (.file ⟨process.euid, mode, content⟩) := by
  rw [readExistingToken]
  apply failing_bind
  · intro error fs same
    exact ⟨same, nofun, nofun⟩
  apply Fallible.ensures_get
  rintro _ rfl
  split
  · next absent =>
    apply Fallible.ensures_pure
    intro fs same
    exact ⟨same, fun _ => absent, nofun⟩
  next inode present =>
  split
  · apply Fallible.ensures_throw
    intro fs same
    exact ⟨same, nofun, nofun⟩
  split
  · apply Fallible.ensures_throw
    intro fs same
    exact ⟨same, nofun, nofun⟩
  next owned =>
  apply failing_bind
  · intro error fs same
    exact ⟨same, nofun, nofun⟩
  apply failing_bind
  · intro error fs same
    exact ⟨same, nofun, nofun⟩
  cases inode with
  | symlink | directory =>
      apply Fallible.ensures_throw
      intro fs same
      exact ⟨same, nofun, nofun⟩
  | file file =>
      dsimp only
      split
      · next text whole =>
        apply Fallible.ensures_pure
        intro fs same
        refine ⟨same, nofun, ?_⟩
        rintro _ ⟨⟩
        refine ⟨file.mode, file.content, whole, ?_⟩
        rw [present, ← not_not.mp owned]
        rfl
      · apply Fallible.ensures_throw
        intro fs same
        exact ⟨same, nofun, nofun⟩

/-- How a start ends, by what stood at the path. -/
inductive StartEffect (path : TokenPath) (process : Process)
    (faults : TokenFaults) (minted : Word) (before : TokenDir) :
    Except TokenError SupervisionAuth → TokenDir → Prop
  | refused {result : Except TokenError SupervisionAuth}
      (failed : ∀ auth, result ≠ .ok auth)
      (inode : before.inode ≠ none) :
      StartEffect path process faults minted before result before
  | notCreated {result : Except TokenError SupervisionAuth} {after : TokenDir}
      (failed : ∀ auth, result ≠ .ok auth)
      (absent : before.inode = none) (still : after.inode = none) :
      StartEffect path process faults minted before result after
  | adopted {result : Except TokenError SupervisionAuth} {after : TokenDir}
      {mode mode' : Nat} {content : Bytes} {text : String}
      (whole : fromUtf8 content = some text) (token : trim text ≠ "")
      (present : before.inode = some (.file ⟨process.euid, mode, content⟩))
      (kept : after.inode = some (.file ⟨process.euid, mode', content⟩))
      (repaired : mode' = mode ∨ mode' = 0o600)
      (served : ∀ auth, result = .ok auth →
        auth.token = trim text ∧ mode' = 0o600 ∧ DirHardened path after ∧
          (path.hasParent = true → before.parentMode ≠ none)) :
      StartEffect path process faults minted before result after
  | created {result : Except TokenError SupervisionAuth} {after : TokenDir}
      {written : Bytes} (absent : before.inode = none)
      (present : after.inode = some (.file ⟨process.euid, 0o600, written⟩))
      (whole : written = utf8 (SupervisionAuth.generate minted).token ∨
        (∀ auth, result ≠ .ok auth) ∧ ∃ message count,
          faults.create = some (.torn message count) ∧
            written = (utf8 (SupervisionAuth.generate minted).token).take count)
      (served : ∀ auth, result = .ok auth →
        auth = SupervisionAuth.generate minted ∧ DirHardened path after) :
      StartEffect path process faults minted before result after

theorem StartEffect.failed {minted : Word} {before : TokenDir}
    (error : TokenError) :
    StartEffect path process faults minted before (.error error) before := by
  cases present : before.inode with
  | none => exact .notCreated nofun present present
  | some inode => exact .refused nofun (by rw [present]; exact nofun)

/-- A token that is adopted stays in its file, and is served from a file and a
directory of the owner alone. -/
theorem adopt_effect {minted : Word} {before : TokenDir} {mode : Nat}
    {content : Bytes} {text : String} (whole : fromUtf8 content = some text)
    (token : trim text ≠ "")
    (present : before.inode = some (.file ⟨process.euid, mode, content⟩)) :
    Fallible.Ensures (fun fs => fs = before)
      (do
        hardenDirPerms path faults
        hardenPerms faults
        return ⟨trim text⟩)
      (StartEffect path process faults minted before) := by
  refine Fallible.ensures_bind
    (fun _ fs => fs.inode = before.inode ∧ DirHardened path fs ∧
      (path.hasParent = true → before.parentMode ≠ none)) ?_ ?_
  · apply (hardenDirPerms_ensures path faults before).weaken
    · exact fun _ => id
    · rintro result after ⟨kept, hardened⟩
      refine ⟨fun _ succeeded => ⟨kept, hardened succeeded⟩, fun error _ => ?_⟩
      exact .adopted whole token present (kept.trans present) (Or.inl rfl)
        nofun
  intro done
  refine Fallible.ensures_bind
    (fun _ fs => fs.inode = some (.file ⟨process.euid, 0o600, content⟩) ∧
      DirHardened path fs ∧ (path.hasParent = true →
        before.parentMode ≠ none)) ?_ ?_
  · constructor
    rintro middle ⟨kept, dir, parentExists⟩
    have repaired := (hardenPerms_ensures faults ⟨process.euid, mode, content⟩
      middle.parentMode).holds middle ⟨kept.trans present, rfl⟩
    obtain ⟨parent, repaired⟩ := repaired
    rcases repaired with ⟨still, failed⟩ | chmodded
    · refine ⟨fun _ succeeded => absurd succeeded failed, fun error _ => ?_⟩
      exact .adopted whole token present still (Or.inl rfl) nofun
    · refine ⟨fun _ _ => ⟨chmodded, ?_, parentExists⟩, fun error _ => ?_⟩
      · intro named
        rw [parent]
        exact dir named
      · exact .adopted whole token present chmodded (Or.inr rfl) nofun
  intro done
  apply Fallible.ensures_pure
  rintro after ⟨kept, dir, parentExists⟩
  refine .adopted whole token present kept (Or.inr rfl) ?_
  rintro _ ⟨⟩
  exact ⟨rfl, rfl, dir, parentExists⟩

/-- A token that is created is served whole or not at all. -/
theorem create_effect {minted : Word} {before : TokenDir}
    (absent : before.inode = none) :
    Fallible.Ensures (fun fs => fs = before)
      (do
        let auth := SupervisionAuth.generate minted
        createDirAll path process faults
        hardenDirPerms path faults
        createNewTokenFile process faults (utf8 auth.token)
        hardenPerms faults
        return auth)
      (StartEffect path process faults minted before) := by
  dsimp only
  refine Fallible.ensures_bind (fun _ fs => fs.inode = before.inode) ?_ ?_
  · apply (createDirAll_ensures before).weaken
    · rintro _ rfl
      rfl
    · intro result after kept
      exact ⟨fun _ _ => kept, fun error _ =>
        .notCreated nofun absent (kept.trans absent)⟩
  intro done
  refine Fallible.ensures_bind
    (fun _ fs => fs.inode = none ∧ DirHardened path fs) ?_ ?_
  · constructor
    intro middle still
    have still := still.trans absent
    obtain ⟨kept, hardened⟩ :=
      (hardenDirPerms_ensures path faults middle).holds middle rfl
    exact ⟨fun _ succeeded => ⟨kept.trans still, (hardened succeeded).1⟩,
      fun error _ => .notCreated nofun absent (kept.trans still)⟩
  intro done
  refine Fallible.ensures_bind
    (fun _ fs => fs.inode = some (.file ⟨process.euid, 0o600,
      utf8 (SupervisionAuth.generate minted).token⟩) ∧
        DirHardened path fs) ?_ ?_
  · constructor
    rintro middle ⟨still, dir⟩
    have effect := (createNewTokenFile_ensures process faults
      (utf8 (SupervisionAuth.generate minted).token) middle).holds middle rfl
    rcases effect with ⟨failed, same⟩ | ⟨-, written, same, outcome⟩
    · refine ⟨fun _ succeeded => absurd succeeded failed, fun error _ => ?_⟩
      exact .notCreated nofun absent ((congrArg TokenDir.inode same).trans still)
    · rw [same]
      rcases outcome with ⟨-, rfl⟩ | ⟨failed, message, count, torn, rfl⟩
      · exact ⟨fun _ _ => ⟨rfl, dir⟩, fun error _ =>
          .created absent rfl (Or.inl rfl) nofun⟩
      · exact ⟨fun _ succeeded => absurd succeeded failed, fun error _ =>
          .created absent rfl (Or.inr ⟨nofun, message, count, torn, rfl⟩)
            nofun⟩
  intro done
  refine Fallible.ensures_bind
    (fun _ fs => fs.inode = some (.file ⟨process.euid, 0o600,
      utf8 (SupervisionAuth.generate minted).token⟩) ∧
        DirHardened path fs) ?_ ?_
  · constructor
    rintro middle ⟨present, dir⟩
    obtain ⟨parent, repaired⟩ := (hardenPerms_ensures faults _
      middle.parentMode).holds middle ⟨present, rfl⟩
    have kept : (Fallible.outcome (hardenPerms faults) middle).2.inode =
        some (.file ⟨process.euid, 0o600,
          utf8 (SupervisionAuth.generate minted).token⟩) := by
      rcases repaired with ⟨still, -⟩ | chmodded
      · exact still
      · exact chmodded
    refine ⟨fun _ _ => ⟨kept, fun named => ?_⟩, fun error _ => ?_⟩
    · rw [parent]
      exact dir named
    · exact .created absent kept (Or.inl rfl) nofun
  intro done
  apply Fallible.ensures_pure
  rintro after ⟨present, dir⟩
  refine .created absent present (Or.inl rfl) ?_
  rintro _ ⟨⟩
  exact ⟨rfl, dir⟩

theorem loadOrCreate_effect (minted : Word) (before : TokenDir) :
    Fallible.Ensures (fun fs => fs = before)
      (loadOrCreate path process faults minted)
      (StartEffect path process faults minted before) := by
  rw [loadOrCreate]
  refine Fallible.ensures_bind
    (fun existing fs => fs = before ∧
      (existing = none → before.inode = none) ∧
      ∀ text, existing = some text → ∃ mode content,
        fromUtf8 content = some text ∧
          before.inode = some (.file ⟨process.euid, mode, content⟩)) ?_ ?_
  · apply (readExistingToken_ensures before).weaken
    · exact fun _ => id
    · rintro result after ⟨rfl, absent, present⟩
      refine ⟨?_, fun error _ => .failed error⟩
      rintro existing rfl
      refine ⟨rfl, ?_, ?_⟩
      · rintro rfl
        exact absent rfl
      · rintro text rfl
        exact present text rfl
  intro existing
  cases existing with
  | none =>
      constructor
      rintro fs ⟨rfl, absent, -⟩
      exact (create_effect (absent rfl)).holds fs rfl
  | some text =>
      constructor
      rintro fs ⟨rfl, -, present⟩
      obtain ⟨mode, content, whole, present⟩ := present text rfl
      dsimp only
      split
      · next token => exact (adopt_effect whole token present).holds fs rfl
      · exact .failed _

/-- What a start would mint, and what fails in it. -/
structure TokenStart where
  minted : Word
  faults : TokenFaults

def TokenStart.load (start : TokenStart) (path : TokenPath) (process : Process)
    (fs : TokenDir) : Except TokenError SupervisionAuth × TokenDir :=
  (loadOrCreate path process start.faults start.minted).outcome fs

def TokenDir.step (path : TokenPath) (process : Process) (fs : TokenDir)
    (start : TokenStart) : TokenDir :=
  (start.load path process fs).2

theorem TokenStart.effect (start : TokenStart) (path : TokenPath)
    (process : Process) (fs : TokenDir) :
    StartEffect path process start.faults start.minted fs
      (start.load path process fs).1 (fs.step path process start) :=
  (loadOrCreate_effect start.minted fs).holds fs rfl

/-- The daemon's own regular file holds this token. -/
def Holding (process : Process) (token : String) (fs : TokenDir) : Prop :=
  token ≠ "" ∧ ∃ mode content text, fromUtf8 content = some text ∧
    trim text = token ∧ fs.inode = some (.file ⟨process.euid, mode, content⟩)

/-- Nobody but the owner can reach the file or read it. -/
def Secured (path : TokenPath) (process : Process) (fs : TokenDir) : Prop :=
  DirHardened path fs ∧
    ∃ content, fs.inode = some (.file ⟨process.euid, 0o600, content⟩)

theorem fromUtf8_utf8 (text : String) : fromUtf8 (utf8 text) = some text :=
  ModelRegistry.fromUtf8_eq_some_iff.mpr rfl

theorem trim_solid {text : String}
    (solid : ∀ char ∈ text.toList, isWhitespace char = false) :
    trim text = text := by
  have kept (chars : List Char)
      (solid : ∀ char ∈ chars, isWhitespace char = false) :
      chars.dropWhile isWhitespace = chars := by
    cases chars with
    | nil => rfl
    | cons head tail =>
        rw [List.dropWhile_cons, solid head List.mem_cons_self]
        rfl
  rw [trim, kept _ solid, kept _ fun char member =>
    solid char (List.mem_reverse.mp member), List.reverse_reverse,
    String.ofList_toList]

theorem digits_solid (bytes : Bytes) :
    ∀ char ∈ bytes.flatMap (fun byte =>
        [Nat.digitChar (byte.toNat / 16), Nat.digitChar (byte.toNat % 16)]),
      isWhitespace char = false := by
  have digit : ∀ value < 16, isWhitespace (Nat.digitChar value) = false := by
    decide
  intro char member
  obtain ⟨byte, -, member⟩ := List.mem_flatMap.mp member
  have small := byte.toNat_lt
  rcases List.mem_pair.mp member with rfl | rfl
  · exact digit _ (by omega)
  · exact digit _ (Nat.mod_lt _ (by decide))

theorem trim_generate (minted : Word) :
    trim (SupervisionAuth.generate minted).token =
      (SupervisionAuth.generate minted).token := by
  apply trim_solid
  rw [SupervisionAuth.generate, String.toList_ofList]
  exact digits_solid minted.toList

theorem generate_nonempty (minted : Word) :
    (SupervisionAuth.generate minted).token ≠ "" := by
  intro empty
  have digits := congrArg String.toList empty
  rw [SupervisionAuth.generate, String.toList_ofList] at digits
  have none : minted.toList = [] := by
    cases bytes : minted.toList with
    | nil => rfl
    | cons byte rest =>
        rw [bytes] at digits
        cases digits
  have width := minted.toList_length
  rw [none] at width
  cases width

/-- A start that serves a token serves the one in the file, and has closed the
file and its directory. -/
theorem step_serves {start : TokenStart} {fs : TokenDir}
    {auth : SupervisionAuth}
    (served : (start.load path process fs).1 = .ok auth) :
    Secured path process (fs.step path process start) ∧
      Holding process auth.token (fs.step path process start) := by
  have effect := start.effect path process fs
  generalize (start.load path process fs).1 = result at served effect
  generalize fs.step path process start = after at effect ⊢
  cases effect with
  | refused failed => exact absurd served (failed auth)
  | notCreated failed => exact absurd served (failed auth)
  | adopted whole token present kept repaired serves =>
      obtain ⟨same, rfl, dir, -⟩ := serves auth served
      refine ⟨⟨dir, _, kept⟩, ?_, _, _, _, whole, same.symm, kept⟩
      rw [same]
      exact token
  | created absent present whole serves =>
      obtain ⟨rfl, dir⟩ := serves auth served
      refine ⟨⟨dir, _, present⟩, generate_nonempty _, _, _, _, ?_,
        trim_generate _, present⟩
      rcases whole with rfl | ⟨failed, -⟩
      · exact fromUtf8_utf8 _
      · exact absurd served (failed _)

/-- A token that is persisted is the only one that is served, and it stays. -/
theorem step_persists {start : TokenStart} {fs : TokenDir} {token : String}
    (persisted : Holding process token fs) :
    Holding process token (fs.step path process start) ∧
      ∀ auth, (start.load path process fs).1 = .ok auth →
        auth.token = token := by
  obtain ⟨nonempty, mode, content, text, whole, rfl, present⟩ := persisted
  have effect := start.effect path process fs
  generalize (start.load path process fs).1 = result at effect ⊢
  generalize fs.step path process start = after at effect ⊢
  cases effect with
  | refused failed =>
      refine ⟨⟨nonempty, mode, content, text, whole, rfl, present⟩, ?_⟩
      intro auth served
      exact absurd served (failed auth)
  | notCreated failed absent =>
      rw [present] at absent
      cases absent
  | adopted whole' token present' kept repaired serves =>
      rw [present] at present'
      cases present'
      cases whole.symm.trans whole'
      refine ⟨⟨nonempty, _, _, _, whole, rfl, kept⟩, ?_⟩
      intro auth served
      exact (serves auth served).1
  | created absent =>
      rw [present] at absent
      cases absent

theorem step_refuses {start : TokenStart} {fs : TokenDir}
    (inode : fs.inode ≠ none) (other : ∀ token, ¬Holding process token fs) :
    fs.step path process start = fs ∧
      ∀ auth, (start.load path process fs).1 ≠ .ok auth := by
  have effect := start.effect path process fs
  generalize (start.load path process fs).1 = result at effect ⊢
  generalize fs.step path process start = after at effect ⊢
  cases effect with
  | refused failed => exact ⟨rfl, failed⟩
  | notCreated failed absent => exact absurd absent inode
  | adopted whole token present =>
      exact absurd ⟨token, _, _, _, whole, rfl, present⟩ (other _)
  | created absent => exact absurd absent inode

/-- What this start writes into a new file. -/
def TokenStart.Wrote (start : TokenStart) (written : Bytes) : Prop :=
  let token := utf8 (SupervisionAuth.generate start.minted).token
  written = token ∨ ∃ message count,
    start.faults.create = some (.torn message count) ∧
      written = token.take count

/-- A file of the daemon's user that nobody else can read. -/
def Created (process : Process) (written : Bytes) (fs : TokenDir) : Prop :=
  fs.inode = some (.file ⟨process.euid, 0o600, written⟩)

theorem step_creates {start : TokenStart} {fs : TokenDir}
    (absent : fs.inode = none) :
    (fs.step path process start).inode = none ∨
      ∃ written, start.Wrote written ∧
        Created process written (fs.step path process start) := by
  have effect := start.effect path process fs
  generalize (start.load path process fs).1 = result at effect
  generalize fs.step path process start = after at effect ⊢
  cases effect with
  | refused failed inode => exact absurd absent inode
  | notCreated failed absent still => exact Or.inl still
  | adopted whole token present =>
      rw [absent] at present
      cases present
  | created absent present whole =>
      refine Or.inr ⟨_, ?_, present⟩
      rcases whole with same | ⟨-, torn⟩
      · exact Or.inl same
      · exact Or.inr torn

theorem step_created {start : TokenStart} {fs : TokenDir} {written : Bytes}
    (created : Created process written fs) :
    Created process written (fs.step path process start) := by
  have effect := start.effect path process fs
  generalize (start.load path process fs).1 = result at effect
  generalize fs.step path process start = after at effect ⊢
  rw [Created] at created
  cases effect with
  | refused failed => exact created
  | notCreated failed absent =>
      rw [absent] at created
      cases created
  | adopted whole token present kept repaired =>
      rw [present] at created
      cases created
      rcases repaired with rfl | rfl
      · exact kept
      · exact kept
  | created absent =>
      rw [absent] at created
      cases created

/-- A file that a run creates is created by one start, and never rewritten. -/
theorem run_creates {fs : TokenDir} (absent : fs.inode = none)
    (starts : List TokenStart) :
    (Runs.run (TokenDir.step path process) fs starts).inode = none ∨
      ∃ start ∈ starts, ∃ written, start.Wrote written ∧
        Created process written
          (Runs.run (TokenDir.step path process) fs starts) := by
  induction starts generalizing fs with
  | nil => exact Or.inl absent
  | cons start rest ih =>
      have first : (fs.step path process start).inode = none ∨ _ :=
        step_creates absent
      rcases first with still | ⟨written, wrote, created⟩
      · rcases ih still with none | ⟨later, member, found⟩
        · exact Or.inl none
        · exact Or.inr ⟨later, List.mem_cons_of_mem start member, found⟩
      · refine Or.inr ⟨start, List.mem_cons_self, written, wrote, ?_⟩
        refine Runs.invariant_run_always ?_ rest created
        intro state later holds
        exact step_created holds

/-- No operation fails. -/
def noFaults : TokenFaults :=
  ⟨none, none, none, none, none, none, none, none, none⟩

/-- When nothing fails, a start succeeds unless something else stands in the
way. -/
theorem faultless_serves_iff {start : TokenStart} {fs : TokenDir}
    (faultless : start.faults = noFaults) :
    (∃ auth, (start.load path process fs).1 = .ok auth) ↔
      fs.inode = none ∨ (∃ token, Holding process token fs) ∧
        (path.hasParent = true → fs.parentMode ≠ none) := by
  constructor
  · rintro ⟨auth, served⟩
    have effect := start.effect path process fs
    generalize (start.load path process fs).1 = result at served effect
    generalize fs.step path process start = after at effect
    cases effect with
    | refused failed => exact absurd served (failed auth)
    | notCreated failed => exact absurd served (failed auth)
    | adopted whole token present kept repaired serves =>
        exact Or.inr ⟨⟨_, token, _, _, _, whole, rfl, present⟩,
          (serves auth served).2.2.2⟩
    | created absent => exact Or.inl absent
  · obtain ⟨minted, faults⟩ := start
    obtain rfl := faultless
    obtain ⟨inode, parentMode⟩ := fs
    obtain ⟨display, hasParent⟩ := path
    rintro (absent | ⟨persisted, parent⟩)
    · obtain rfl := absent
      cases hasParent with
      | false => exact ⟨_, rfl⟩
      | true => exact ⟨_, rfl⟩
    · obtain ⟨token, nonempty, mode, content, text, whole, rfl, present⟩ :=
        persisted
      obtain rfl := present
      let fs : TokenDir :=
        ⟨some (.file ⟨process.euid, mode, content⟩), parentMode⟩
      have read : (readExistingToken ⟨display, hasParent⟩ process
          noFaults).outcome fs = (.ok (some text), fs) := by
        have statted : (failing noFaults.stat).outcome fs = (.ok (), fs) := rfl
        have opened : (failing noFaults.opened).outcome fs = (.ok (), fs) := rfl
        have read : (failing noFaults.read).outcome fs = (.ok (), fs) := rfl
        rw [readExistingToken, Fallible.outcome_bind_ok statted,
          Fallible.outcome_bind_ok (Fallible.outcome_get fs)]
        have plain : ¬(Inode.file ⟨process.euid, mode, content⟩).isSymlink =
            true := Bool.false_ne_true
        have own : ¬(Inode.file ⟨process.euid, mode, content⟩).owner ≠
            process.euid := not_not.mpr rfl
        dsimp only [fs]
        rw [if_neg plain, if_neg own, Fallible.outcome_bind_ok opened,
          Fallible.outcome_bind_ok read, whole]
        rfl
      refine ⟨⟨trim text⟩, ?_⟩
      rw [TokenStart.load, loadOrCreate, Fallible.outcome_bind_ok read]
      dsimp only
      rw [if_pos nonempty]
      cases hasParent with
      | false => rfl
      | true =>
          cases parentMode with
          | none => exact absurd rfl (parent rfl)
          | some mode => rfl

end Effects

/-- A crash between creating the file and writing to it: no later start is
served. -/
example :
    let crash : TokenStart :=
      ⟨List.Vector.replicate 32 0xab,
        { noFaults with create := some (.torn "crash" 0) }⟩
    let clean : TokenStart := ⟨List.Vector.replicate 32 0xcd, noFaults⟩
    let path : TokenPath := ⟨"t", true⟩
    let left := TokenDir.step path ⟨1000, 0o755⟩ ⟨none, none⟩ crash
    (clean.load path ⟨1000, 0o755⟩ left).1 =
      .error (.invalidData
        "supervision token file t exists but is empty; refusing to overwrite in place") := by
  rfl

end NodeAgent.Node
