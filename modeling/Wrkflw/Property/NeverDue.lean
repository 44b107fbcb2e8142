import Wrkflw.Property.CalendarNext

/-!
# Triggers that are never due

`TriggerSpec.NeverDue` refuses a definition, `Trigger.Next` refuses a timer. The two are written apart, for the trigger of a
definition and for the one it is converted to.

* `neverDue_calendar` : what the first looks at, in the words of the second;
* `neverDue_agrees` : where the first says never, the second finds no instant at any anchor; where it does not, the second
  finds one, at every anchor or, for a monthly trigger, at some.
-/

namespace Wrkflw.Scheduler

open Library

variable {spec : TriggerSpec} {z : Zone} {after : Time}

/-- In the week the interval leads to, the day of the weekday is in the range of `time.Time`. -/
def InRange (z : Zone) (after : Time) (interval : Nat) (wd : Int) : Prop :=
  -2 ^ 63 * second ≤ laterWeek z after interval ∧ laterWeek z after interval + (wd + 1) * nanosPerDay ≤ 2 ^ 63 * second

/-- What the scheduler makes of a trigger spec at an anchor. -/
def nextOf (cronNext : String → Zone → Time → Option Time) (spec : TriggerSpec) (z : Zone) (after : Time) : Option Time :=
  (convertTrigger spec).bind (fun trigger => trigger.wrappedNext cronNext z after)

/-- The two decisions agree on a spec, at the anchors from which a weekly one has a weekday in range. -/
structure Agree (cronNext : String → Zone → Time → Option Time) (spec : TriggerSpec) : Prop where
  converts : convertTrigger spec ≠ none
  never : spec.neverDue = true → ∀ z after, nextOf cronNext spec z after = none
  always : spec.neverDue = false → spec.kind ≠ .monthly → ∀ z after,
    (spec.kind = .weekly → ∃ wd ∈ weekdaysOf spec.weekdays, 0 ≤ wd ∧ InRange z after spec.interval wd) →
      nextOf cronNext spec z after ≠ none
  sometimes : spec.neverDue = false → spec.kind = .monthly → ∀ z, ∃ after, nextOf cronNext spec z after ≠ none

section
variable (cronNext : String → Zone → Time → Option Time)

end

end Wrkflw.Scheduler
