import Mathlib.Order.Basic
import NodeAgent.Chainio.CappedRead
import NodeAgent.Library.Interaction

/-!
# The input drop

`live::FileInputSource`: the off-chain input of a job is a file that the
requester delivers.  The file is opened without following a link, looked at
through the open descriptor, and read under a cap, while anyone may replace it
or write to it between any two of these operations.
-/

namespace NodeAgent.Node

open Chainio FixedWidth Interaction

inductive OpenError
  | notFound
  | loop
  | other (message : String)

/-- What `fstat` says of an open file. -/
structure Metadata where
  isFile : Bool
  len : Nat

/-- The operations on the drop: the configured cap, and the system calls.  A
read is at the position of the descriptor, into a buffer of limited size. -/
inductive InputOp
  | maxJobInputBytes
  | openFile (path : String)
  | metadata (file : Nat)
  | read (file position limit : Nat)

abbrev InputAnswer : InputOp → Type
  | .maxJobInputBytes => Nat
  | .openFile _ => Except OpenError Nat
  | .metadata _ => Except String Metadata
  | .read _ _ _ => Except String Bytes

abbrev InputProgram := Program InputOp InputAnswer

/-- `Take::read_to_end`: read until the end of the file or of the limit. -/
def readToEnd (file limit : Nat) (buf : Bytes) :
    InputProgram (Except String Bytes) :=
  if limit = 0 then return .ok buf
  else .call (InputOp.read file buf.length limit) fun answer =>
    match answer with
    | .error error => return .error error
    | .ok [] => return .ok buf
    | .ok (byte :: rest) =>
        readToEnd file (limit - (rest.length + 1)) (buf ++ byte :: rest)
termination_by limit

/-- `read_capped_regular_file`, on the open file. -/
def readOpened (path : String) (max file : Nat) :
    InputProgram (Except String (Option Bytes)) := do
  match ← Program.perform (InputOp.metadata file) with
  | .error error => return .error s!"fstat {path}: {error}"
  | .ok found =>
      if !found.isFile then
        return .error
          s!"{path} is not a regular file; refusing it (PBA-L6b-022)"
      else if found.len > max then
        return .error
          s!"{found.len} bytes exceeds CITRATE_MAX_JOB_INPUT_BYTES {max}; refusing oversized delivery (NA-B-003)"
      else
        match ← readToEnd file (saturatingAdd 64 max 1) [] with
        | .error error => return .error s!"reading {path}: {error}"
        | .ok buf =>
            if buf.length > max then
              return .error
                s!"delivery grew past CITRATE_MAX_JOB_INPUT_BYTES {max} while being read; refusing it (NA-B-003)"
            else return .ok (some buf)

/-- `read_capped_regular_file`. -/
def readCappedRegularFile (path : String) (max : Nat) :
    InputProgram (Except String (Option Bytes)) := do
  match ← Program.perform (InputOp.openFile path) with
  | .error .notFound => return .ok none
  | .error .loop =>
      return .error
        s!"{path} is a symlink; refusing to follow it (PBA-L6b-022)"
  | .error (.other error) => return .error s!"open {path}: {error}"
  | .ok file => readOpened path max file

structure FileInputSource where
  dir : String

namespace FileInputSource

/-- `PathBuf::join` with a relative name. -/
def join (dir name : String) : String :=
  if dir = "" then name
  else if dir.toList.getLast? = some '/' then dir ++ name
  else dir ++ "/" ++ name

def path (source : FileInputSource) (jobId : Nat) : String :=
  join source.dir s!"{jobId}.bin"

/-- `InputSource::input_for`. -/
def inputFor (source : FileInputSource) (jobId : Nat) :
    InputProgram (Except String (Option Bytes)) := do
  let max ← Program.perform InputOp.maxJobInputBytes
  let delivered ← readCappedRegularFile (source.path jobId) max
  return delivered.mapError fun error => s!"job {jobId} input: {error}"

end FileInputSource

/-- What stands under a name: a symbolic link, or a file by its number. -/
inductive DirEntry
  | symlink
  | file (number : Nat)

/-- The drop at each moment, under the cap that the process was started with.
What kind a file has does not change, and its offsets are signed. -/
structure InputDir (Moment : Type) where
  maxInput : Nat
  entry : Moment → String → Option DirEntry
  regular : Nat → Bool
  content : Moment → Nat → Bytes
  small : ∀ moment file, (content moment file).length ≤ isizeMax

/-- A system call may fail at any time.  Where it succeeds, a link is not
followed, and a read returns a part of the content at the position, and nothing
only at the end. -/
def InputDir.Answers {Moment : Type} (drop : InputDir Moment)
    (moment : Moment) : (op : InputOp) → InputAnswer op → Prop
  | .maxJobInputBytes, max => max = drop.maxInput
  | .openFile path, .ok file =>
      drop.entry moment path = some (.file file)
  | .openFile path, .error .notFound => drop.entry moment path = none
  | .openFile path, .error .loop => drop.entry moment path = some .symlink
  | .openFile _, .error (.other _) => True
  | .metadata file, answer => ∀ found, answer = .ok found →
      found.isFile = drop.regular file ∧
        (found.isFile = true → found.len = (drop.content moment file).length)
  | .read file position limit, answer => ∀ bytes, answer = .ok bytes →
      bytes.length ≤ limit ∧
        bytes <+: (drop.content moment file).drop position ∧
        (bytes = [] → (drop.content moment file).length ≤ position)

section Moments

variable {Moment : Type} [Preorder Moment] {drop : InputDir Moment}
  {start finish : Moment}

/-- The bytes were in the file between the two moments, each at its own place,
and at one of them the file had no more. -/
structure ReadWhole (drop : InputDir Moment) (file : Nat) (bytes : Bytes)
    (start finish : Moment) : Prop where
  pieces : ∀ index < bytes.length, ∃ moment, start ≤ moment ∧ moment ≤ finish ∧
    (drop.content moment file)[index]? = bytes[index]?
  ended : ∃ moment, start ≤ moment ∧ moment ≤ finish ∧
    (drop.content moment file).length ≤ bytes.length

theorem ReadWhole.until {file : Nat} {bytes : Bytes} {later : Moment}
    (whole : ReadWhole drop file bytes start finish) (after : finish ≤ later) :
    ReadWhole drop file bytes start later where
  pieces index inside := by
    obtain ⟨moment, since, before, same⟩ := whole.pieces index inside
    exact ⟨moment, since, before.trans after, same⟩
  ended := by
    obtain ⟨moment, since, before, short⟩ := whole.ended
    exact ⟨moment, since, before.trans after, short⟩

theorem ReadWhole.since {file : Nat} {bytes : Bytes} {earlier : Moment}
    (whole : ReadWhole drop file bytes start finish)
    (before : earlier ≤ start) :
    ReadWhole drop file bytes earlier finish where
  pieces index inside := by
    obtain ⟨moment, after, rest⟩ := whole.pieces index inside
    exact ⟨moment, before.trans after, rest⟩
  ended := by
    obtain ⟨moment, after, rest⟩ := whole.ended
    exact ⟨moment, before.trans after, rest⟩

/-- A read from a position on, up to a limit. -/
structure ReadOn (drop : InputDir Moment) (file : Nat) (buf : Bytes)
    (limit : Nat) (bytes : Bytes) (start finish : Moment) : Prop where
  kept : buf <+: bytes
  within : bytes.length ≤ buf.length + limit
  pieces : ∀ index, buf.length ≤ index → index < bytes.length →
    ∃ moment, start ≤ moment ∧ moment ≤ finish ∧
      (drop.content moment file)[index]? = bytes[index]?
  ended : bytes.length = buf.length + limit ∨
    ∃ moment, start ≤ moment ∧ moment ≤ finish ∧
      (drop.content moment file).length ≤ bytes.length

theorem prefix_drop_getElem? {chunk content : Bytes} {position index : Nat}
    (isPrefix : chunk <+: content.drop position) (after : position ≤ index)
    (before : index < position + chunk.length) :
    content[index]? = chunk[index - position]? := by
  obtain ⟨rest, split⟩ := isPrefix
  have same : (content.drop position)[index - position]? =
      content[index]? := by
    rw [List.getElem?_drop]
    congr 1
    omega
  rw [← same, ← split, List.getElem?_append_left (by omega)]

theorem ReadOn.cons {file limit : Nat} {buf chunk bytes : Bytes}
    {read finish : Moment} (moved : start ≤ read) (after : read ≤ finish)
    (short : chunk.length ≤ limit)
    (here : chunk <+: (drop.content read file).drop buf.length)
    (rest : ReadOn drop file (buf ++ chunk) (limit - chunk.length) bytes read
      finish) : ReadOn drop file buf limit bytes start finish := by
  have length : (buf ++ chunk).length = buf.length + chunk.length :=
    List.length_append
  refine ⟨(List.prefix_append _ _).trans rest.kept, ?_, ?_, ?_⟩
  · have within := rest.within
    omega
  · intro index first last
    by_cases inChunk : index < buf.length + chunk.length
    · refine ⟨read, moved, after, ?_⟩
      obtain ⟨more, same⟩ := rest.kept
      rw [prefix_drop_getElem? here first inChunk, ← same,
        List.getElem?_append_left (by omega),
        List.getElem?_append_right first]
    · obtain ⟨moment, since, until', same⟩ :=
        rest.pieces index (by omega) last
      exact ⟨moment, moved.trans since, until', same⟩
  · rcases rest.ended with full | ⟨moment, since, until', short⟩
    · left
      omega
    · exact Or.inr ⟨moment, moved.trans since, until', short⟩

theorem readToEnd_readOn {file limit : Nat} {buf bytes : Bytes}
    (execution : Executes (· ≤ ·) drop.Answers start
      (readToEnd file limit buf) (.ok bytes) finish) :
    ReadOn drop file buf limit bytes start finish := by
  induction limit using Nat.strong_induction_on generalizing buf start with
  | _ limit ih =>
  rw [readToEnd] at execution
  split at execution
  · rename_i done
    obtain ⟨same, rfl⟩ := executes_done.mp execution
    cases same
    exact ⟨List.prefix_rfl, by omega, by omega, Or.inl (by omega)⟩
  · obtain ⟨read, answer, moved, answered, rest⟩ := executes_call.mp execution
    match answer with
    | .error error =>
        obtain ⟨same, -⟩ := executes_done.mp rest
        cases same
    | .ok [] =>
        obtain ⟨same, rfl⟩ := executes_done.mp rest
        cases same
        obtain ⟨-, -, ended⟩ := answered _ rfl
        exact ⟨List.prefix_rfl, by omega, by omega,
          Or.inr ⟨read, moved, le_rfl, ended rfl⟩⟩
    | .ok (byte :: more) =>
        obtain ⟨short, here, -⟩ := answered _ rfl
        have fewer : limit - (byte :: more).length < limit := by
          simp only [List.length_cons] at short ⊢
          omega
        have later := ih _ fewer rest
        have after : read ≤ finish :=
          rest.evolved le_refl fun _ _ _ => le_trans
        exact .cons moved after short here later

theorem ReadOn.whole {file limit : Nat} {bytes : Bytes}
    (read : ReadOn drop file [] limit bytes start finish)
    (below : bytes.length < limit) :
    ReadWhole drop file bytes start finish := by
  refine ⟨fun index inside => read.pieces index (Nat.zero_le _) inside, ?_⟩
  rcases read.ended with full | ended
  · simp only [List.length_nil] at full
    omega
  · exact ended

theorem ReadOn.small {file limit : Nat} {bytes : Bytes}
    (read : ReadOn drop file [] limit bytes start finish) :
    bytes.length ≤ isizeMax := by
  by_cases empty : bytes.length = 0
  · omega
  · obtain ⟨moment, -, -, same⟩ :=
      read.pieces (bytes.length - 1) (Nat.zero_le _) (by omega)
    have fits := drop.small moment file
    have inside : bytes.length - 1 < (drop.content moment file).length := by
      apply (List.getElem?_eq_some_iff.mp _).1
      · exact bytes[bytes.length - 1]
      · rw [same, List.getElem?_eq_getElem]
    omega

theorem ReadOn.belowCap {file : Nat} {bytes : Bytes}
    (read : ReadOn drop file [] (saturatingAdd 64 drop.maxInput 1) bytes start
      finish) (fits : bytes.length ≤ drop.maxInput) :
    ReadWhole drop file bytes start finish := by
  apply read.whole
  by_contra reached
  have saturated : bytes.length < maxValue 64 :=
    add_lt_maxValue read.small (Nat.zero_le _)
  have below := add_le_of_saturatingAdd_le saturated (not_lt.mp reached)
  omega

/-- A regular file of the drop, opened without following a link and read whole
under the cap. -/
structure Delivered (drop : InputDir Moment) (path : String) (bytes : Bytes)
    (start finish : Moment) : Prop where
  fits : bytes.length ≤ drop.maxInput
  read : ∃ file opened, start ≤ opened ∧ opened ≤ finish ∧
    drop.entry opened path = some (.file file) ∧ drop.regular file = true ∧
    ReadWhole drop file bytes opened finish

theorem Delivered.until {path : String} {bytes : Bytes} {later : Moment}
    (delivered : Delivered drop path bytes start finish)
    (after : finish ≤ later) : Delivered drop path bytes start later where
  fits := delivered.fits
  read := by
    obtain ⟨file, opened, since, before, named, regular, whole⟩ :=
      delivered.read
    exact ⟨file, opened, since, before.trans after, named, regular,
      whole.until after⟩

theorem Delivered.since {path : String} {bytes : Bytes} {earlier : Moment}
    (delivered : Delivered drop path bytes start finish)
    (before : earlier ≤ start) : Delivered drop path bytes earlier finish where
  fits := delivered.fits
  read := by
    obtain ⟨file, opened, after, rest⟩ := delivered.read
    exact ⟨file, opened, before.trans after, rest⟩

theorem readOpened_delivered {path : String} {file : Nat} {bytes : Bytes}
    (execution : Executes (· ≤ ·) drop.Answers start
      (readOpened path drop.maxInput file) (.ok (some bytes)) finish) :
    bytes.length ≤ drop.maxInput ∧ drop.regular file = true ∧
      ReadWhole drop file bytes start finish := by
  simp only [readOpened, Program.perform_bind] at execution
  obtain ⟨looked, answer, moved, answered, rest⟩ := executes_call.mp execution
  cases answer with
  | error error =>
      obtain ⟨same, -⟩ := executes_done.mp rest
      cases same
  | ok found =>
  obtain ⟨isFile, -⟩ := answered found rfl
  simp only at rest
  split at rest
  · obtain ⟨same, -⟩ := executes_done.mp rest
    cases same
  rename_i regular
  split at rest
  · obtain ⟨same, -⟩ := executes_done.mp rest
    cases same
  obtain ⟨outcome, middle, reading, rest⟩ := (executes_bind _ _).mp rest
  cases outcome with
  | error error =>
      obtain ⟨same, -⟩ := executes_done.mp rest
      cases same
  | ok buf =>
  simp only at rest
  split at rest
  · obtain ⟨same, -⟩ := executes_done.mp rest
    cases same
  rename_i fits
  obtain ⟨same, rfl⟩ := executes_done.mp rest
  cases same
  have whole := (readToEnd_readOn reading).belowCap (not_lt.mp fits)
  refine ⟨not_lt.mp fits, ?_, whole.since moved⟩
  rw [← isFile]
  simpa using regular

theorem readCappedRegularFile_delivered {path : String} {bytes : Bytes}
    (execution : Executes (· ≤ ·) drop.Answers start
      (readCappedRegularFile path drop.maxInput) (.ok (some bytes)) finish) :
    Delivered drop path bytes start finish := by
  simp only [readCappedRegularFile, Program.perform_bind] at execution
  obtain ⟨opened, answer, moved, answered, rest⟩ := executes_call.mp execution
  match answer with
  | .error .notFound =>
      obtain ⟨same, -⟩ := executes_done.mp rest
      cases same
  | .error .loop =>
      obtain ⟨same, -⟩ := executes_done.mp rest
      cases same
  | .error (.other error) =>
      obtain ⟨same, -⟩ := executes_done.mp rest
      cases same
  | .ok file =>
      obtain ⟨fits, regular, whole⟩ := readOpened_delivered rest
      have after : opened ≤ finish :=
        rest.evolved le_refl fun _ _ _ => le_trans
      exact ⟨fits, file, opened, moved, after, answered, regular, whole⟩

/-- What `input_for` delivers was read whole from the drop. -/
theorem FileInputSource.inputFor_delivered {source : FileInputSource}
    {jobId : Nat} {bytes : Bytes}
    (execution : Executes (· ≤ ·) drop.Answers start (source.inputFor jobId)
      (.ok (some bytes)) finish) :
    Delivered drop (source.path jobId) bytes start finish := by
  simp only [inputFor, Program.perform_bind] at execution
  obtain ⟨capped, max, moved, answered, rest⟩ := executes_call.mp execution
  obtain ⟨delivered, middle, reading, done⟩ := (executes_bind _ _).mp rest
  obtain ⟨same, rfl⟩ := executes_done.mp done
  cases delivered with
  | error error => cases same
  | ok bytes' =>
      cases same
      cases answered
      exact (readCappedRegularFile_delivered reading).since moved

end Moments

end NodeAgent.Node
