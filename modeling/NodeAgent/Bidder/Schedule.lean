import Mathlib.Algebra.Group.Nat.Defs
import Mathlib.Order.Basic

/-!
# The participation schedule

The schedule windows of `config`: when the operator lets the machine take part
in the market, and how long the current window stays open.
-/

namespace NodeAgent.Bidder

inductive Schedule
  | always
  | nights
  | weekends
deriving DecidableEq

inductive Weekday
  | mon
  | tue
  | wed
  | thu
  | fri
  | sat
  | sun
deriving DecidableEq

namespace Schedule

def NIGHT_START_HOUR : Nat := 22

/-- The last hour inside the night window. -/
def NIGHT_END_HOUR : Nat := 5

/-- Whether the agent may take part at this local hour and day.  An hour
outside `0..=23` is outside every window. -/
def inWindow (schedule : Schedule) (hour : Nat) (day : Weekday) : Bool :=
  if hour > 23 then false
  else
    match schedule with
    | .always => true
    | .nights => hour ≥ NIGHT_START_HOUR || hour ≤ NIGHT_END_HOUR
    | .weekends => day = .sat || day = .sun

/-- Seconds until the current window closes, to the minute and rounded down;
zero outside the window. -/
def secsUntilWindowClose (schedule : Schedule) (hour minute : Nat)
    (day : Weekday) : Nat :=
  if !schedule.inWindow hour day ∨ minute > 59 then 0
  else
    let minutesSinceMidnight := hour * 60 + minute
    match schedule with
    | .always => 2 ^ 64 - 1
    | .nights =>
        let close := (NIGHT_END_HOUR + 1) * 60
        let remaining :=
          if hour ≥ NIGHT_START_HOUR then
            (24 * 60 - minutesSinceMidnight) + close
          else close - minutesSinceMidnight
        remaining * 60
    | .weekends =>
        let fullDaysLeft :=
          match day with
          | .sat => 1
          | _ => 0
        (fullDaysLeft * 24 * 60 + (24 * 60 - minutesSinceMidnight)) * 60

end Schedule

end NodeAgent.Bidder
