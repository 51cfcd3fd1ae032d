import NodeAgent.Bidder.Exact

/-!
# The clock and the window margin

`node-agent::clock` splits a UNIX timestamp into the hour, the minute and the
weekday that the schedule is asked with.  The seconds of the minute are lost,
and the remaining time of the window is counted from the start of the minute.
-/

namespace NodeAgent.Node

open Bidder

/-- Epoch day 0 was a Thursday. -/
def weekdayOf : Fin 7 → Weekday
  | 0 => .thu
  | 1 => .fri
  | 2 => .sat
  | 3 => .sun
  | 4 => .mon
  | 5 => .tue
  | 6 => .wed

/-- The hour, the minute and the weekday in UTC. -/
def utcHourMinWeekday (unixSecs : Nat) : Nat × Nat × Weekday :=
  let secsOfDay := unixSecs % 86400
  let hour := FixedWidth.narrow 8 (secsOfDay / 3600)
  let minute := FixedWidth.narrow 8 (secsOfDay % 3600 / 60)
  let days := unixSecs / 86400
  let dow := (days % 7 + 7) % 7
  (hour, minute, weekdayOf ⟨dow, Nat.mod_lt _ (by decide)⟩)

/-- The settings a tick at this time evaluates with. -/
def settingsAt (enabled : Bool) (schedule : Schedule) (unixSecs : Nat) :
    Settings where
  enabled := enabled
  schedule := schedule
  currentHour := (utcHourMinWeekday unixSecs).1
  currentMin := (utcHourMinWeekday unixSecs).2.1
  currentDay := (utcHourMinWeekday unixSecs).2.2

/-- The schedule is in its window at this time. -/
def OpenAt (schedule : Schedule) (unixSecs : Nat) : Prop :=
  schedule.inWindow (utcHourMinWeekday unixSecs).1
    (utcHourMinWeekday unixSecs).2.2 = true

instance (schedule : Schedule) (unixSecs : Nat) :
    Decidable (OpenAt schedule unixSecs) :=
  inferInstanceAs (Decidable (_ = true))

/-- The remaining time of the window, as reported at this time. -/
def reportedSecs (schedule : Schedule) (unixSecs : Nat) : Nat :=
  schedule.secsUntilWindowClose (utcHourMinWeekday unixSecs).1
    (utcHourMinWeekday unixSecs).2.1 (utcHourMinWeekday unixSecs).2.2

/-- For as long as is reported, and for twice the work of every job that is
bid on, the window stays open. -/
structure NeverOptimistic (schedule : Schedule) (unixSecs : Nat) : Prop where
  reported : ∀ later < reportedSecs schedule unixSecs,
    unixSecs + later < 2 ^ 64 → OpenAt schedule (unixSecs + later)
  bids : ∀ enabled job oracle caps jobId priceWei costWei,
    evaluate job oracle (settingsAt enabled schedule unixSecs) caps =
        .bid jobId priceWei costWei →
      ∀ later < 2 * job.estimatedExecSecs, unixSecs + later < 2 ^ 64 →
        OpenAt schedule (unixSecs + later)

theorem utc_hour (unixSecs : Nat) :
    (utcHourMinWeekday unixSecs).1 = unixSecs % 86400 / 3600 := by
  apply FixedWidth.narrow_of_fits
  omega

theorem utc_minute (unixSecs : Nat) :
    (utcHourMinWeekday unixSecs).2.1 = unixSecs % 86400 % 3600 / 60 := by
  apply FixedWidth.narrow_of_fits
  omega

theorem utc_minutes (unixSecs : Nat) :
    (utcHourMinWeekday unixSecs).1 * 60 + (utcHourMinWeekday unixSecs).2.1 =
      unixSecs % 86400 / 60 := by
  rw [utc_hour, utc_minute]
  omega

theorem utc_weekend (unixSecs : Nat) :
    ((utcHourMinWeekday unixSecs).2.2 = .sat ↔ unixSecs / 86400 % 7 = 2) ∧
      ((utcHourMinWeekday unixSecs).2.2 = .sun ↔
        unixSecs / 86400 % 7 = 3) := by
  have days : ∀ dow : Fin 7, (weekdayOf dow = .sat ↔ dow.val = 2) ∧
      (weekdayOf dow = .sun ↔ dow.val = 3) := by decide
  have split := days ⟨(unixSecs / 86400 % 7 + 7) % 7, Nat.mod_lt _ (by decide)⟩
  simp only [Nat.add_mod_right, Nat.mod_mod] at split
  simpa only [utcHourMinWeekday, Nat.add_mod_right, Nat.mod_mod] using split

theorem openAt_nights (unixSecs : Nat) :
    OpenAt .nights unixSecs ↔
      unixSecs % 86400 < 21600 ∨ 79200 ≤ unixSecs % 86400 := by
  have hours : ¬unixSecs % 86400 / 3600 > 23 := by omega
  simp only [OpenAt, Schedule.inWindow, utc_hour, if_neg hours,
    Schedule.NIGHT_START_HOUR, Schedule.NIGHT_END_HOUR, Bool.or_eq_true,
    decide_eq_true_eq]
  omega

theorem openAt_weekends (unixSecs : Nat) :
    OpenAt .weekends unixSecs ↔
      unixSecs / 86400 % 7 = 2 ∨ unixSecs / 86400 % 7 = 3 := by
  have hours : ¬unixSecs % 86400 / 3600 > 23 := by omega
  simp only [OpenAt, Schedule.inWindow, utc_hour, if_neg hours,
    Bool.or_eq_true, decide_eq_true_eq, utc_weekend]

theorem openAt_always (unixSecs : Nat) : OpenAt .always unixSecs := by
  have hours : ¬unixSecs % 86400 / 3600 > 23 := by omega
  simp only [OpenAt, Schedule.inWindow, utc_hour, if_neg hours]

theorem reportedSecs_closed {schedule : Schedule} {unixSecs : Nat}
    (closed : ¬OpenAt schedule unixSecs) :
    reportedSecs schedule unixSecs = 0 := by
  simp only [OpenAt, Bool.not_eq_true] at closed
  simp [reportedSecs, Schedule.secsUntilWindowClose, closed]

theorem reportedSecs_open {schedule : Schedule} {unixSecs : Nat}
    (isOpen : OpenAt schedule unixSecs) :
    ¬((!schedule.inWindow (utcHourMinWeekday unixSecs).1
        (utcHourMinWeekday unixSecs).2.2) = true ∨
      (utcHourMinWeekday unixSecs).2.1 > 59) := by
  rw [OpenAt] at isOpen
  rw [isOpen, utc_minute]
  simp only [Bool.not_true, Bool.false_eq_true, false_or]
  omega

theorem secsUntilWindowClose_early {hour minute : Nat} {day : Weekday}
    (early : hour ≤ 5) (real : minute ≤ 59) :
    Schedule.nights.secsUntilWindowClose hour minute day =
      (360 - (hour * 60 + minute)) * 60 := by
  have isOpen : Schedule.nights.inWindow hour day = true := by
    have hours : ¬hour > 23 := by omega
    simp [Schedule.inWindow, hours, Schedule.NIGHT_END_HOUR, early]
  have before : ¬hour ≥ Schedule.NIGHT_START_HOUR := by
    rw [Schedule.NIGHT_START_HOUR]
    omega
  simp [Schedule.secsUntilWindowClose, isOpen, real, before,
    Schedule.NIGHT_END_HOUR]

theorem secsUntilWindowClose_late {hour minute : Nat} {day : Weekday}
    (late : 22 ≤ hour) (within : hour ≤ 23) (real : minute ≤ 59) :
    Schedule.nights.secsUntilWindowClose hour minute day =
      (1440 - (hour * 60 + minute) + 360) * 60 := by
  have after : hour ≥ Schedule.NIGHT_START_HOUR := late
  have isOpen : Schedule.nights.inWindow hour day = true := by
    have hours : ¬hour > 23 := by omega
    simp [Schedule.inWindow, hours, after]
  simp [Schedule.secsUntilWindowClose, isOpen, real, after,
    Schedule.NIGHT_END_HOUR]

theorem reportedSecs_morning {unixSecs : Nat}
    (morning : unixSecs % 86400 < 21600) :
    reportedSecs .nights unixSecs = 21600 - unixSecs % 86400 / 60 * 60 := by
  rw [reportedSecs, secsUntilWindowClose_early, utc_minutes]
  · omega
  · rw [utc_hour]
    omega
  · rw [utc_minute]
    omega

theorem reportedSecs_evening {unixSecs : Nat}
    (evening : 79200 ≤ unixSecs % 86400) :
    reportedSecs .nights unixSecs = 108000 - unixSecs % 86400 / 60 * 60 := by
  rw [reportedSecs, secsUntilWindowClose_late, utc_minutes]
  · omega
  · rw [utc_hour]
    omega
  · rw [utc_hour]
    omega
  · rw [utc_minute]
    omega

theorem reportedSecs_saturday {unixSecs : Nat}
    (saturday : unixSecs / 86400 % 7 = 2) :
    reportedSecs .weekends unixSecs =
      172800 - unixSecs % 86400 / 60 * 60 := by
  have isOpen := (openAt_weekends unixSecs).mpr (Or.inl saturday)
  unfold reportedSecs Schedule.secsUntilWindowClose
  rw [if_neg (reportedSecs_open isOpen), utc_minutes,
    (utc_weekend unixSecs).1.mpr saturday]
  dsimp only
  omega

theorem reportedSecs_sunday {unixSecs : Nat}
    (sunday : unixSecs / 86400 % 7 = 3) :
    reportedSecs .weekends unixSecs = 86400 - unixSecs % 86400 / 60 * 60 := by
  have isOpen := (openAt_weekends unixSecs).mpr (Or.inr sunday)
  unfold reportedSecs Schedule.secsUntilWindowClose
  rw [if_neg (reportedSecs_open isOpen), utc_minutes,
    (utc_weekend unixSecs).2.mpr sunday]
  dsimp only
  omega

/-- The window closes this many seconds from now, within the clock's range. -/
structure ClosesIn (schedule : Schedule) (unixSecs secs : Nat) : Prop where
  stays : ∀ later < secs, OpenAt schedule (unixSecs + later)
  closes : ¬OpenAt schedule (unixSecs + secs)
  inRange : unixSecs < 2 ^ 64 → unixSecs + secs < 2 ^ 64

/-- The reported time is counted from the start of the minute. -/
theorem closesIn {schedule : Schedule} {unixSecs : Nat}
    (timed : schedule ≠ .always) (isOpen : OpenAt schedule unixSecs) :
    ∃ secs, reportedSecs schedule unixSecs = secs + unixSecs % 60 ∧
      ClosesIn schedule unixSecs secs := by
  cases schedule with
  | always => exact absurd rfl timed
  | nights =>
      rcases (openAt_nights unixSecs).mp isOpen with morning | evening
      · rw [reportedSecs_morning morning]
        refine ⟨21600 - unixSecs % 86400, by omega, ?_, ?_, by omega⟩
        · intro later within
          rw [openAt_nights]
          omega
        · rw [openAt_nights]
          omega
      · rw [reportedSecs_evening evening]
        refine ⟨108000 - unixSecs % 86400, by omega, ?_, ?_, by omega⟩
        · intro later within
          rw [openAt_nights]
          omega
        · rw [openAt_nights]
          omega
  | weekends =>
      rcases (openAt_weekends unixSecs).mp isOpen with saturday | sunday
      · rw [reportedSecs_saturday saturday]
        refine ⟨172800 - unixSecs % 86400, by omega, ?_, ?_, by omega⟩
        · intro later within
          rw [openAt_weekends]
          omega
        · rw [openAt_weekends]
          omega
      · rw [reportedSecs_sunday sunday]
        refine ⟨86400 - unixSecs % 86400, by omega, ?_, ?_, by omega⟩
        · intro later within
          rw [openAt_weekends]
          omega
        · rw [openAt_weekends]
          omega

theorem ClosesIn.whole {schedule : Schedule} {unixSecs secs : Nat}
    (closing : ClosesIn schedule unixSecs secs) (inRange : unixSecs < 2 ^ 64)
    (reported : reportedSecs schedule unixSecs = secs + unixSecs % 60)
    (never : NeverOptimistic schedule unixSecs) : unixSecs % 60 = 0 := by
  apply Classical.byContradiction
  intro partly
  apply closing.closes
  apply never.reported
  · omega
  · exact closing.inRange inRange

theorem NeverOptimistic.of_reported {schedule : Schedule} {unixSecs : Nat}
    (stays : ∀ later < reportedSecs schedule unixSecs,
      unixSecs + later < 2 ^ 64 → OpenAt schedule (unixSecs + later)) :
    NeverOptimistic schedule unixSecs where
  reported := stays
  bids := by
    intro enabled job oracle caps jobId priceWei costWei decided later within
    rw [evaluate_bid_iff] at decided
    have window := decided.2.window
    simp only [settingsAt, DEADLINE_SAFETY_FACTOR] at window
    apply stays
    rw [reportedSecs]
    omega

/-- The seconds of the minute are the whole error. -/
theorem neverOptimistic_iff {schedule : Schedule} {unixSecs : Nat}
    (inRange : unixSecs < 2 ^ 64) :
    NeverOptimistic schedule unixSecs ↔
      schedule = .always ∨ ¬OpenAt schedule unixSecs ∨ unixSecs % 60 = 0 := by
  by_cases timed : schedule = .always
  · subst timed
    constructor
    · intro _
      exact Or.inl rfl
    · intro _
      exact .of_reported fun later _ _ => openAt_always (unixSecs + later)
  by_cases isOpen : OpenAt schedule unixSecs
  · obtain ⟨secs, reported, closing⟩ := closesIn timed isOpen
    constructor
    · intro never
      exact Or.inr (Or.inr (closing.whole inRange reported never))
    · rintro (always | closed | whole)
      · exact absurd always timed
      · exact absurd isOpen closed
      · apply NeverOptimistic.of_reported
        intro later within _
        apply closing.stays
        omega
  · constructor
    · intro _
      exact Or.inr (Or.inl isOpen)
    · intro _
      apply NeverOptimistic.of_reported
      intro later within
      rw [reportedSecs_closed isOpen] at within
      exact absurd within (Nat.not_lt_zero later)

/-- At 05:50:00 the night window is open for exactly the ten minutes. -/
theorem neverOptimistic_nights : NeverOptimistic .nights 21000 :=
  (neverOptimistic_iff (by decide)).mpr (Or.inr (Or.inr rfl))

/-- At 05:50:30 ten minutes are reported, and the window closes half a minute
before they are over. -/
theorem nights_optimistic :
    reportedSecs .nights 21030 = 600 ∧ ¬OpenAt .nights (21030 + 570) ∧
      ¬∀ schedule unixSecs, unixSecs < 2 ^ 64 →
        NeverOptimistic schedule unixSecs := by
  have closed : ¬OpenAt .nights (21030 + 570) := by decide
  have reported : reportedSecs .nights 21030 = 600 := by decide
  refine ⟨reported, closed, ?_⟩
  intro never
  apply closed
  apply (never .nights 21030 (by decide)).reported
  · rw [reported]
    decide
  · decide

end NodeAgent.Node
