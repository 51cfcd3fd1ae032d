import Mathlib.Data.List.Basic
import Mathlib.Order.MinMax

/-!
# Bounded reads of a chunked stream

A stream arrives chunk by chunk, and a chunk may fail.  The reader appends each
chunk to a buffer unless the guard says that the two together are too long.  A
guard that agrees with the comparison of lengths makes the result a function of
the whole stream alone.
-/

namespace Chunks

variable {ε α : Type}

/-- The buffers that a read holds, in order, and its result. -/
structure Reading (ε α : Type) where
  buffers : List (List α)
  result : Except ε (List α)
deriving DecidableEq

namespace Reading

/-- A read that is refused before there is a buffer. -/
def refused (error : ε) : Reading ε α := ⟨[], .error error⟩

/-- A read that fails with this buffer. -/
def failed (buffer : List α) (error : ε) : Reading ε α :=
  ⟨[buffer], .error error⟩

/-- A read with a further buffer before its own. -/
def after (buffer : List α) (reading : Reading ε α) : Reading ε α :=
  ⟨buffer :: reading.buffers, reading.result⟩

/-- No buffer is ever longer than this. -/
def Within (cap : Nat) (reading : Reading ε α) : Prop :=
  ∀ buffer ∈ reading.buffers, buffer.length ≤ cap

/-- The read hands on the whole body if the cap admits it, fails otherwise, and
never holds more than the cap. -/
structure Caps (cap : Nat) (body : List α) (reading : Reading ε α) : Prop where
  whole : body.length ≤ cap → reading.result = .ok body
  refuses : cap < body.length → ∃ error, reading.result = .error error
  within : reading.Within cap

theorem within_refused (cap : Nat) (error : ε) :
    (refused error : Reading ε α).Within cap := by
  intro buffer held
  cases held

theorem caps_refused {cap : Nat} {body : List α} (long : cap < body.length)
    (error : ε) : (refused error : Reading ε α).Caps cap body where
  whole := fun short => absurd short (Nat.not_le.mpr long)
  refuses := fun _ => ⟨error, rfl⟩
  within := within_refused cap error

theorem within_failed {cap : Nat} {buffer : List α}
    (within : buffer.length ≤ cap) (error : ε) :
    (failed buffer error).Within cap := by
  intro held member
  rw [List.mem_singleton.mp member]
  exact within

theorem Within.after {cap : Nat} {buffer : List α} {reading : Reading ε α}
    (later : reading.Within cap) (within : buffer.length ≤ cap) :
    (reading.after buffer).Within cap := by
  intro held member
  rcases List.mem_cons.mp member with first | further
  · rw [first]
    exact within
  · exact later held further

end Reading

open Reading

variable (exceeds : List α → List α → Bool) (full : ε)

/-- Append chunk after chunk to the buffer. -/
def collect (buffer : List α) : List (Except ε (List α)) → Reading ε α
  | [] => ⟨[buffer], .ok buffer⟩
  | .error error :: _ => failed buffer error
  | .ok chunk :: rest =>
      if exceeds buffer chunk then failed buffer full
      else (collect (buffer ++ chunk) rest).after buffer

/-- The chunks of a stream that did not fail. -/
def arrived (stream : List (Except ε (List α))) : List (List α) :=
  stream.filterMap Except.toOption

@[simp] theorem arrived_ok (chunk : List α)
    (rest : List (Except ε (List α))) :
    arrived (.ok chunk :: rest) = chunk :: arrived rest := rfl

theorem arrived_map_ok (chunks : List (List α)) :
    arrived (chunks.map (.ok : List α → Except ε (List α))) = chunks := by
  induction chunks with
  | nil => rfl
  | cons chunk chunks ih => rw [List.map_cons, arrived_ok, ih]

/-- For the buffers up to `limit`, the guard compares the length to come with
the cap. -/
def Compares (limit cap : Nat) (chunks : List (List α)) : Prop :=
  ∀ buffer chunk, buffer.length ≤ limit → chunk ∈ chunks →
    (exceeds buffer chunk = true ↔ cap < buffer.length + chunk.length)

variable {exceeds full} {limit cap : Nat} {chunk : List α}
  {chunks : List (List α)}

theorem Compares.tail
    (compares : Compares exceeds limit cap (chunk :: chunks)) :
    Compares exceeds limit cap chunks := by
  intro buffer later small member
  exact compares buffer later small (List.mem_cons_of_mem _ member)

/-- The result is a function of the whole stream. -/
theorem collect_result (compares : Compares exceeds limit cap chunks)
    {buffer : List α} (within : buffer.length ≤ cap)
    (room : min cap (buffer.length + chunks.flatten.length) ≤ limit) :
    (collect exceeds full buffer (chunks.map .ok)).result =
      if buffer.length + chunks.flatten.length ≤ cap then
        .ok (buffer ++ chunks.flatten)
      else .error full := by
  induction chunks generalizing buffer with
  | nil => simp [collect, within]
  | cons chunk chunks ih =>
      rw [List.flatten_cons, List.length_append] at room
      rw [List.flatten_cons, List.length_append, List.map_cons, collect]
      have small : buffer.length ≤ limit := by omega
      have guard := compares buffer chunk small List.mem_cons_self
      by_cases long : cap < buffer.length + chunk.length
      · rw [if_pos (guard.mpr long), if_neg (by omega)]
        rfl
      · rw [if_neg (fun holds => long (guard.mp holds))]
        have fits : (buffer ++ chunk).length ≤ cap := by
          rw [List.length_append]
          omega
        have step := ih compares.tail fits (by
          rw [List.length_append]
          omega)
        rw [List.length_append, List.append_assoc, Nat.add_assoc] at step
        exact step

/-- No buffer passes the cap, whatever the stream does. -/
theorem collect_within {stream : List (Except ε (List α))}
    (compares : Compares exceeds limit cap (arrived stream))
    {buffer : List α} (within : buffer.length ≤ cap)
    (room : min cap (buffer.length + (arrived stream).flatten.length) ≤ limit) :
    (collect exceeds full buffer stream).Within cap := by
  induction stream generalizing buffer with
  | nil =>
      intro held member
      rw [List.mem_singleton.mp member]
      exact within
  | cons head rest ih =>
      cases head with
      | error error => exact within_failed within error
      | ok chunk =>
          rw [arrived_ok, List.flatten_cons, List.length_append] at room
          rw [arrived_ok] at compares
          rw [collect]
          split
          · exact within_failed within full
          · next admitted =>
              have small : buffer.length ≤ limit := by omega
              have guard := compares buffer chunk small List.mem_cons_self
              have fits : (buffer ++ chunk).length ≤ cap := by
                rw [List.length_append]
                exact Nat.le_of_not_lt (fun long => admitted (guard.mpr long))
              have later := ih compares.tail fits (by
                rw [List.length_append]
                omega)
              exact later.after within

theorem collect_ok {stream : List (Except ε (List α))} {buffer body : List α}
    (read : (collect exceeds full buffer stream).result = .ok body) :
    ∃ chunks : List (List α), stream = chunks.map .ok ∧
      body = buffer ++ chunks.flatten := by
  induction stream generalizing buffer with
  | nil =>
      cases read
      exact ⟨[], rfl, (List.append_nil _).symm⟩
  | cons head rest ih =>
      cases head with
      | error error => cases read
      | ok chunk =>
          rw [collect] at read
          split at read
          · cases read
          · obtain ⟨chunks, rfl, whole⟩ := ih read
            refine ⟨chunk :: chunks, rfl, ?_⟩
            rw [whole, List.flatten_cons, List.append_assoc]

theorem collect_caps (compares : Compares exceeds limit cap chunks)
    (room : min cap chunks.flatten.length ≤ limit) :
    (collect exceeds full [] (chunks.map .ok)).Caps cap chunks.flatten := by
  have start : min cap (([] : List α).length + chunks.flatten.length) ≤
      limit := by
    rwa [List.length_nil, Nat.zero_add]
  have result : (collect exceeds full [] (chunks.map .ok)).result = _ :=
    collect_result compares (Nat.zero_le cap) start
  rw [List.length_nil, Nat.zero_add, List.nil_append] at result
  constructor
  · intro short
    rw [result, if_pos short]
  · intro long
    rw [result, if_neg (Nat.not_le.mpr long)]
    exact ⟨full, rfl⟩
  · rw [← arrived_map_ok (ε := ε) chunks] at compares start
    exact collect_within compares (Nat.zero_le cap) start

end Chunks
