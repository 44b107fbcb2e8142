import Wrkflw.Definition.Model
import Wrkflw.Library.Calendar
import Mathlib.Data.List.Sort

/-!
# The scheduler's triggers

`scheduler/trigger.go`: when a job fires next. `convertTrigger` (`runtime/timerops.go`) takes the trigger of a definition to
one of the scheduler. The instants of `time.Time` are nanoseconds, and a location is a fixed offset from UTC.

* `Zone.date`, `Zone.addDate` : `time.Date` and `AddDate`, with their normalisation of months and days;
* `weeklyNext`, `calendarNext` : the calendar kinds;
* `Trigger.next` : `Trigger.Next`, for instants in the range of `time.Time`, whose seconds are an `int64`;
* `Trigger.wrappedNext` : the same where a weekday, which can be any `int`, leads out of the range. A scan for a day
  or a month goes on by at most `maxCalendarScanDays` for each unit of the interval, so it leaves the range only from
  its ends.
-/

namespace Wrkflw.Scheduler

open Library

/-! ## Civil time -/

/-- A day in nanoseconds. -/
def nanosPerDay : Duration := 86400 * second

/-- A location whose clocks are this much ahead of UTC. -/
structure Zone where
  offset : Duration := 0
  deriving DecidableEq, Repr

namespace Zone
variable (z : Zone)

/-- The civil day of an instant. -/
def dayOf (t : Time) : Int := (t + z.offset) / nanosPerDay

/-- `t.Year()`, `t.Month()`, `t.Day()` and `t.Weekday()`; months count from 1 and weekdays from Sunday. -/
def year (t : Time) : Int := Calendar.yearOf (Calendar.monthOf (z.dayOf t))

def month (t : Time) : Int := Calendar.monthOf (z.dayOf t) % 12 + 1

def day (t : Time) : Int := z.dayOf t - Calendar.monthStart (Calendar.monthOf (z.dayOf t)) + 1

def weekday (t : Time) : Int := (z.dayOf t + 1) % 7

/-- `time.Date(year, month, day, hour, minute, second, 0, loc)`. -/
def date (year month day hour minute sec : Int) : Time :=
  (Calendar.monthStart (12 * (year - 1) + (month - 1)) + (day - 1)) * nanosPerDay +
    (hour * 3600 + minute * 60 + sec) * second - z.offset

/-- `t.AddDate(years, months, days)` of a midnight. -/
def addDate (t : Time) (years months days : Int) : Time :=
  z.date (z.year t + years) (z.month t + months) (z.day t + days) 0 0 0

/-- The number of days in the instant's month: day 0 of the next one. -/
def daysInMonth (t : Time) : Int := z.day (z.date (z.year t) (z.month t + 1) 0 0 0 0)

/-- `time.Date(y, m, d, 0, 0, 0, 0, time.UTC).Unix() / 86400`, but for the day it counts from. -/
def civilDayIndex (t : Time) : Int := Zone.dayOf {} (Zone.date {} (z.year t) (z.month t) (z.day t) 0 0 0)

end Zone

/-! ## Triggers -/

inductive Trigger where
  | unset
  | at_ (t : Time)
  | after (d : Duration)
  | every (d : Duration)
  | everyRandom (min max : Duration)
  | cron (expr : String)
  | daily (interval : Nat) (atTimes : List ClockTime)
  | weekly (interval : Nat) (weekdays : List Int) (atTimes : List ClockTime)
  | monthly (interval : Nat) (days : List Int) (atTimes : List ClockTime)
  deriving DecidableEq, Repr

def maxCalendarScanDays : Int := 366 * 5

def maxSchedulableInterval : Nat := 2 ^ 20

def clockTimesSchedulable (cs : List ClockTime) : Bool :=
  cs.all (fun c => !(decide (23 < c.hour) || decide (59 < c.minute) || decide (59 < c.second)))

def monthDaysSchedulable (days : List Int) : Bool := days.all (fun d => !(d == 0 || decide (31 < d) || decide (d < -31)))

/-- The order `sortedClockTimes` sorts by. -/
def clockLE (a b : ClockTime) : Prop :=
  a.hour < b.hour ∨ (a.hour = b.hour ∧ (a.minute < b.minute ∨ (a.minute = b.minute ∧ a.second ≤ b.second)))

instance (a b : ClockTime) : Decidable (clockLE a b) := inferInstanceAs (Decidable (_ ∨ _))

def sortedClockTimes (cs : List ClockTime) : List ClockTime :=
  if cs.isEmpty then [⟨0, 0, 0⟩] else cs.insertionSort clockLE

section Next
variable (z : Zone) (after : Time)

/-- The at-time on a day of the same civil date as `t`, `offset` days on. -/
def Zone.atTime (t : Time) (offset : Int) (ct : ClockTime) : Time :=
  z.date (z.year t) (z.month t) (z.day t + offset) ct.hour ct.minute ct.second

/-- `weekdayAtTime`. -/
def weekdayAtTime (ref : Time) (sortedDays : List Int) (sortedTimes : List ClockTime) (firstPass : Bool) : Option Time :=
  sortedDays.findSome? (fun wd =>
    if wd < z.weekday ref then none
    else sortedTimes.findSome? (fun ct =>
      let candidate := z.atTime ref (wd - z.weekday ref) ct
      if firstPass then if ref < candidate then some candidate else none
      else if ref ≤ candidate then some candidate else none))

def weeklyNext (interval : Nat) (weekdays : List Int) (sortedTimes : List ClockTime) : Option Time :=
  let sortedDays := (if weekdays.isEmpty then [0] else weekdays).insertionSort (· ≤ ·)
  match weekdayAtTime z after sortedDays sortedTimes true with
  | some next => some next
  | none =>
    let start := z.date (z.year after) (z.month after) (z.day after - z.weekday after + interval * 7) 0 0 0
    weekdayAtTime z start sortedDays sortedTimes false

/-- `monthlyDayMatches`, for the days that count from the start of the month and those that count from its end. -/
def monthlyDayMatches (day : Time) (positiveDays negativeDays : List Int) : Bool :=
  positiveDays.contains (z.day day) || negativeDays.any (fun neg => z.daysInMonth day + 1 + neg == z.day day)

/-- The first at-time of a day that is after the anchor. -/
def firstAfter (day : Time) (sortedTimes : List ClockTime) : Option Time :=
  sortedTimes.findSome? (fun ct =>
    let candidate := z.atTime day 0 ct
    if after < candidate then some candidate else none)

/-- The scan of `calendarNext` for a daily trigger, from the `i`-th day on; it goes on by a day at least, and the fuel is one
for each day. -/
def scanDaily (interval : Nat) (sortedTimes : List ClockTime) (start : Time) (bound : Int) : Nat → Int → Option Time
  | 0, _ => none
  | fuel + 1, i =>
    if bound < i then none
    else
      let day := z.addDate start 0 0 i
      if i.tmod interval ≠ 0 then scanDaily interval sortedTimes start bound fuel (i + 1)
      else
        match firstAfter z after day sortedTimes with
        | some next => some next
        | none => scanDaily interval sortedTimes start bound fuel (i + 1)

/-- The scan for a monthly trigger: it jumps to the next month on the grid from one that is not. -/
def scanMonthly (interval : Nat) (positiveDays negativeDays : List Int) (sortedTimes : List ClockTime) (start : Time)
    (bound : Int) : Nat → Int → Option Time
  | 0, _ => none
  | fuel + 1, i =>
    if bound < i then none
    else
      let day := z.addDate start 0 0 i
      let monthIndex := (z.year day - z.year after) * 12 + (z.month day - z.month after)
      let rem := monthIndex.tmod interval
      if rem ≠ 0 then
        let target := z.addDate day 0 (interval - rem) 0
        let target := z.date (z.year target) (z.month target) 1 0 0 0
        let i' := z.civilDayIndex target - z.civilDayIndex start - 1
        scanMonthly interval positiveDays negativeDays sortedTimes start bound fuel (i' + 1)
      else if !monthlyDayMatches z day positiveDays negativeDays then
        scanMonthly interval positiveDays negativeDays sortedTimes start bound fuel (i + 1)
      else
        match firstAfter z after day sortedTimes with
        | some next => some next
        | none => scanMonthly interval positiveDays negativeDays sortedTimes start bound fuel (i + 1)

/-- The midnight the scans start from. -/
def Zone.startOfDay : Time := z.date (z.year after) (z.month after) (z.day after) 0 0 0

/-- What `calendarNext` checks for every calendar kind before it looks for a day. -/
def calendarOK (interval : Nat) (atTimes : List ClockTime) : Bool :=
  !(interval == 0 || decide (maxSchedulableInterval < interval)) && clockTimesSchedulable atTimes

/-- The days scanned at this interval. -/
def scanBound (interval : Nat) : Int := maxCalendarScanDays * interval

def dailyNext (interval : Nat) (atTimes : List ClockTime) : Option Time :=
  if !calendarOK interval atTimes then none
  else scanDaily z after interval (sortedClockTimes atTimes) (z.startOfDay after) (scanBound interval)
    ((scanBound interval).toNat + 1) 0

def monthlyNext (interval : Nat) (days : List Int) (atTimes : List ClockTime) : Option Time :=
  if !calendarOK interval atTimes then none
  else if !monthDaysSchedulable days then none
  else
    let days := if days.isEmpty then [1] else days
    scanMonthly z after interval (days.filter (fun d => !decide (d < 0))) (days.filter (fun d => decide (d < 0)))
      (sortedClockTimes atTimes) (z.startOfDay after) (scanBound interval) ((scanBound interval).toNat + 1) 0

end Next

/-- `Trigger.Next`. The cron parser is a library of its own: `cronNext` is the next instant of an expression, if it parses
and has one. -/
def Trigger.next (cronNext : String → Zone → Time → Option Time) (z : Zone) (after : Time) : Trigger → Option Time
  | .unset => none
  | .at_ t => if isZeroTime t then none else some t
  | .after d => some (after + d)
  | .every d => if d ≤ 0 then none else some (after + d)
  | .everyRandom min max => if min ≤ 0 || max ≤ min then none else some (after + min)
  | .cron expr => cronNext expr z after
  | .daily interval atTimes => dailyNext z after interval atTimes
  | .weekly interval weekdays atTimes =>
    if !calendarOK interval atTimes then none else weeklyNext z after interval weekdays (sortedClockTimes atTimes)
  | .monthly interval days atTimes => monthlyNext z after interval days atTimes

section Wrapped
variable (z : Zone) (after : Time)

/-- What `time.Date` makes of an instant: its seconds since the year 1 wrap. -/
def wrapTime (t : Time) : Time := (t / second).bmod (2 ^ 64) * second + t % second

/-- `weekdayAtTime`, with the candidates `time.Date` makes. -/
def wrappedWeekdayAtTime (ref : Time) (sortedDays : List Int) (sortedTimes : List ClockTime) (firstPass : Bool) :
    Option Time :=
  sortedDays.findSome? (fun wd =>
    if wd < z.weekday ref then none
    else sortedTimes.findSome? (fun ct =>
      let candidate := wrapTime (z.atTime ref (wd - z.weekday ref) ct)
      if firstPass then if ref < candidate then some candidate else none
      else if ref ≤ candidate then some candidate else none))

def wrappedWeeklyNext (interval : Nat) (weekdays : List Int) (sortedTimes : List ClockTime) : Option Time :=
  let sortedDays := (if weekdays.isEmpty then [0] else weekdays).insertionSort (· ≤ ·)
  match wrappedWeekdayAtTime z after sortedDays sortedTimes true with
  | some next => some next
  | none =>
    let start := wrapTime (z.date (z.year after) (z.month after) (z.day after - z.weekday after + interval * 7) 0 0 0)
    wrappedWeekdayAtTime z start sortedDays sortedTimes false

end Wrapped

def Trigger.wrappedNext (cronNext : String → Zone → Time → Option Time) (z : Zone) (after : Time) : Trigger → Option Time
  | .weekly interval weekdays atTimes =>
    if !calendarOK interval atTimes then none else wrappedWeeklyNext z after interval weekdays (sortedClockTimes atTimes)
  | trigger => trigger.next cronNext z after

/-- `convertTrigger`; `none` for the kinds the engine resolves before a timer is armed. -/
def convertTrigger (t : TriggerSpec) : Option Trigger :=
  match t.kind with
  | .oneTime =>
    match t.absTime with
    | some at_ => some (.at_ at_)
    | none => some (.after (t.duration.getD 0))
  | .duration => some (.every (t.duration.getD 0))
  | .durationRand => some (.everyRandom t.min t.max)
  | .cron => some (.cron t.cron)
  | .daily => some (.daily t.interval t.atTimes)
  | .weekly => some (.weekly t.interval t.weekdays t.atTimes)
  | .monthly => some (.monthly t.interval t.days t.atTimes)
  | .unset | .expr | .everyExpr => none

end Wrkflw.Scheduler
