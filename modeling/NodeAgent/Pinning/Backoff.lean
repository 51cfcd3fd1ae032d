import NodeAgent.Library.FixedWidth
import NodeAgent.Library.Runs
import NodeAgent.Pinning.Tick

/-!
# The funding back-off

`pinning::SlotFundingBackoff` doubles the delay of a target with every hold for
want of funding, up to a maximum, and starts over after anything else.
-/

namespace NodeAgent.Pinning

open Runs

/-- The largest `Duration`: a `u64` of seconds and the nanoseconds of one. -/
def DURATION_MAX : Nat := FixedWidth.maxValue 64 * 10 ^ 9 + 999999999

/-- A span of time in nanoseconds. -/
structure Duration where
  nanos : Nat
  fits : nanos ≤ DURATION_MAX

namespace Duration

def saturatingMul (duration : Duration) (factor : Nat) : Duration :=
  ⟨min (duration.nanos * factor) DURATION_MAX, min_le_right _ _⟩

def min (left right : Duration) : Duration :=
  if left.nanos ≤ right.nanos then left else right

theorem nanos_min (left right : Duration) :
    (left.min right).nanos = Min.min left.nanos right.nanos := by
  rw [Duration.min]
  split
  · rename_i ordered
    exact (min_eq_left ordered).symm
  · rename_i unordered
    exact (min_eq_right (Nat.le_of_not_le unordered)).symm

end Duration

structure SlotFundingBackoff where
  base : Duration
  max : Duration
  current : Duration

abbrev TickResult := Except TickError TickOutcome

/-- A hold for want of slot funding. -/
def isFundingHold : TickResult → Bool
  | .ok (.hold .slotUnfunded) => true
  | _ => false

namespace SlotFundingBackoff

def new (base max : Duration) : SlotFundingBackoff where
  base := base
  max := max
  current := base

/-- The delay after an outcome, and the next state. -/
def after (outcome : TickResult) (backoff : SlotFundingBackoff) :
    Duration × SlotFundingBackoff :=
  if isFundingHold outcome then
    (backoff.current,
      { backoff with
        current := (backoff.current.saturatingMul 2).min backoff.max })
  else (backoff.base, { backoff with current := backoff.base })

/-- The state after a sequence of outcomes. -/
def feed (backoff : SlotFundingBackoff) (outcomes : List TickResult) :
    SlotFundingBackoff :=
  run (fun backoff outcome => (backoff.after outcome).2) backoff outcomes

/-- The delay for an outcome that comes after others. -/
def delay (backoff : SlotFundingBackoff) (earlier : List TickResult)
    (outcome : TickResult) : Nat :=
  ((backoff.feed earlier).after outcome).1.nanos

end SlotFundingBackoff

/-- The number of holds that a sequence ends with. -/
def trailingHolds (outcomes : List TickResult) : Nat :=
  (outcomes.reverse.takeWhile isFundingHold).length

theorem trailingHolds_append (outcomes : List TickResult)
    (outcome : TickResult) :
    trailingHolds (outcomes ++ [outcome]) =
      if isFundingHold outcome then trailingHolds outcomes + 1 else 0 := by
  rw [trailingHolds, List.reverse_append, List.reverse_singleton,
    List.singleton_append, List.takeWhile_cons]
  split
  · rfl
  · rfl

theorem trailingHolds_append_holds (earlier : List TickResult)
    {holds : List TickResult}
    (hold : ∀ outcome ∈ holds, isFundingHold outcome = true) :
    trailingHolds (earlier ++ holds) = trailingHolds earlier + holds.length := by
  induction holds using List.reverseRec with
  | nil => simp
  | append_singleton holds outcome ih =>
      rw [List.forall_mem_append, List.forall_mem_singleton] at hold
      rw [← List.append_assoc, trailingHolds_append, hold.2, if_pos rfl,
        ih hold.1, List.length_append, List.length_singleton, Nat.add_assoc]

theorem clamped_double {base max power : Nat} (fits : max ≤ DURATION_MAX) :
    min (min (min (base * power) max * 2) DURATION_MAX) max =
      min (base * (power * 2)) max := by
  rw [← Nat.mul_assoc]
  omega

namespace SlotFundingBackoff

variable (base max : Duration)

/-- The configuration stays, and the next hold waits the clamped power. -/
structure Tracks (backoff : SlotFundingBackoff) (outcomes : List TickResult) :
    Prop where
  sameBase : backoff.base = base
  sameMax : backoff.max = max
  current : backoff.current.nanos =
    Min.min (base.nanos * 2 ^ trailingHolds outcomes) max.nanos

variable {base max}

theorem Tracks.after {backoff : SlotFundingBackoff}
    {outcomes : List TickResult} (ordered : base.nanos ≤ max.nanos)
    (tracks : Tracks base max backoff outcomes) (outcome : TickResult) :
    Tracks base max (backoff.after outcome).2 (outcomes ++ [outcome]) := by
  rw [SlotFundingBackoff.after]
  cases hold : isFundingHold outcome with
  | false =>
      refine ⟨tracks.sameBase, tracks.sameMax, ?_⟩
      rw [trailingHolds_append, hold]
      simp [tracks.sameBase, ordered]
  | true =>
      refine ⟨tracks.sameBase, tracks.sameMax, ?_⟩
      rw [trailingHolds_append, hold, if_pos rfl, if_pos rfl, pow_succ,
        ← clamped_double max.fits, ← tracks.current, ← tracks.sameMax]
      exact Duration.nanos_min _ _

theorem tracks_feed (ordered : base.nanos ≤ max.nanos)
    (outcomes : List TickResult) :
    Tracks base max ((new base max).feed outcomes) outcomes := by
  induction outcomes using List.reverseRec with
  | nil =>
      refine ⟨rfl, rfl, ?_⟩
      simp [feed, new, trailingHolds, ordered]
  | append_singleton outcomes outcome ih =>
      rw [feed, run_append]
      exact ih.after ordered outcome

theorem delay_eq (ordered : base.nanos ≤ max.nanos)
    (earlier : List TickResult) (outcome : TickResult) :
    (new base max).delay earlier outcome =
      if isFundingHold outcome then
        Min.min (base.nanos * 2 ^ trailingHolds earlier) max.nanos
      else base.nanos := by
  have tracks := tracks_feed ordered earlier
  rw [delay, after]
  split
  · exact tracks.current
  · exact congrArg Duration.nanos tracks.sameBase

theorem delay_hold (ordered : base.nanos ≤ max.nanos)
    (earlier : List TickResult) {outcome : TickResult}
    (hold : isFundingHold outcome = true) :
    (new base max).delay earlier outcome =
      Min.min (base.nanos * 2 ^ trailingHolds earlier) max.nanos := by
  rw [delay_eq ordered, if_pos hold]

theorem delay_bounds (ordered : base.nanos ≤ max.nanos)
    (earlier : List TickResult) (outcome : TickResult) :
    base.nanos ≤ (new base max).delay earlier outcome ∧
      (new base max).delay earlier outcome ≤ max.nanos := by
  rw [delay_eq ordered]
  split
  · refine ⟨?_, min_le_right _ _⟩
    apply le_min _ ordered
    exact Nat.le_mul_of_pos_right _ (Nat.two_pow_pos _)
  · exact ⟨le_refl _, ordered⟩

theorem delay_mono (ordered : base.nanos ≤ max.nanos)
    (earlier : List TickResult) {holds : List TickResult}
    (hold : ∀ outcome ∈ holds, isFundingHold outcome = true)
    {first last : TickResult} (firstHold : isFundingHold first = true)
    (lastHold : isFundingHold last = true) :
    (new base max).delay earlier first ≤
      (new base max).delay (earlier ++ holds) last := by
  rw [delay_hold ordered earlier firstHold, delay_hold ordered _ lastHold,
    trailingHolds_append_holds earlier hold]
  apply min_le_min_right
  apply Nat.mul_le_mul_left
  exact Nat.pow_le_pow_right (by omega) (Nat.le_add_right _ _)

theorem delay_restart (ordered : base.nanos ≤ max.nanos)
    (earlier : List TickResult) {outcome : TickResult}
    (other : isFundingHold outcome = false) (next : TickResult) :
    (new base max).delay (earlier ++ [outcome]) next = base.nanos := by
  rw [delay_eq ordered, trailingHolds_append, other]
  split
  · simp [ordered]
  · rfl

/-- The closed form of the delays: the base for anything but a hold, and the
base doubled for each hold of the run before a hold, up to the maximum.  So
delays stay between the base and the maximum, grow within a run of holds and
start over after it, however long the run is. -/
theorem delay_closedForm {base max : Duration}
    (ordered : base.nanos ≤ max.nanos) :
    (∀ earlier outcome, (new base max).delay earlier outcome =
      if isFundingHold outcome then
        Min.min (base.nanos * 2 ^ trailingHolds earlier) max.nanos
      else base.nanos) ∧
    (∀ earlier outcome,
      base.nanos ≤ (new base max).delay earlier outcome ∧
        (new base max).delay earlier outcome ≤ max.nanos) ∧
    (∀ earlier holds first last,
      (∀ outcome ∈ holds, isFundingHold outcome = true) →
      isFundingHold first = true → isFundingHold last = true →
        (new base max).delay earlier first ≤
          (new base max).delay (earlier ++ holds) last) ∧
    ∀ earlier outcome next, isFundingHold outcome = false →
      (new base max).delay (earlier ++ [outcome]) next = base.nanos := by
  refine ⟨delay_eq ordered, delay_bounds ordered, ?_, ?_⟩
  · intro earlier holds first last hold firstHold lastHold
    exact delay_mono ordered earlier hold firstHold lastHold
  · intro earlier outcome next other
    exact delay_restart ordered earlier other next

/-- 30 s doubled for each of three holds, within 15 minutes. -/
theorem delay_closedForm_thirtySeconds :
    (new ⟨30 * 10 ^ 9, by decide⟩ ⟨900 * 10 ^ 9, by decide⟩).delay
        (List.replicate 3 (.ok (.hold .slotUnfunded)))
        (.ok (.hold .slotUnfunded)) = 240 * 10 ^ 9 :=
  (delay_closedForm (by decide)).1 _ _

end SlotFundingBackoff

end NodeAgent.Pinning
