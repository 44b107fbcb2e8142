import Wrkflw.Scheduler.Trigger
import Mathlib.Order.Bounds.Basic

/-!
# The next fire of a calendar trigger

`Trigger.Next` finds the least instant after the anchor that is on the trigger's grid, on one of its days and at one of its
times, and finds none exactly where there is none.

* `Zone.instant` : the clock time of a civil day; `dayOf_*` : where the operations on civil dates lead;
* `Scanned` : what a scan over days comes to;
* `DailyDay`, `WeeklyDay`, `MonthlyDay` : the days of a trigger, counted from the anchor's day;
* `calendar_next_exact` : the next fire is the least instant of these days.
-/

namespace Wrkflw.Scheduler

open Library

variable {interval : Nat}

variable {z : Zone} {after t u : Time} {n m i : Int} {ct : ClockTime}

/-! ## Civil time -/

/-- The seconds of a clock time. -/
def clockSeconds (ct : ClockTime) : Int := ct.hour * 3600 + ct.minute * 60 + ct.second

/-- The instant of a clock time on a civil day. -/
def Zone.instant (z : Zone) (n : Int) (ct : ClockTime) : Time := n * nanosPerDay + clockSeconds ct * second - z.offset

/-- A clock time of the day. -/
def ClockOK (ct : ClockTime) : Prop := ct.hour ≤ 23 ∧ ct.minute ≤ 59 ∧ ct.second ≤ 59

theorem nanosPerDay_eq : nanosPerDay = 86400 * second := rfl

theorem second_pos : (0 : Int) < second := by decide

theorem instant_bounds (z : Zone) (n : Int) (h : ClockOK ct) :
    n * nanosPerDay ≤ z.instant n ct + z.offset ∧ z.instant n ct + z.offset < (n + 1) * nanosPerDay := by
  obtain ⟨hh, hm, hs⟩ := h
  have hlow : 0 ≤ clockSeconds ct := by
    unfold clockSeconds
    omega
  have hhigh : clockSeconds ct < 86400 := by
    unfold clockSeconds
    omega
  have hprod : 0 ≤ clockSeconds ct * second := mul_nonneg hlow second_pos.le
  have hprod' : clockSeconds ct * second < 86400 * second := mul_lt_mul_of_pos_right hhigh second_pos
  unfold Zone.instant
  rw [nanosPerDay_eq]
  constructor
  · linarith
  · linarith

theorem dayOf_eq_iff : z.dayOf t = n ↔ n * nanosPerDay ≤ t + z.offset ∧ t + z.offset < (n + 1) * nanosPerDay := by
  have hpos : (0 : Int) < nanosPerDay := by decide
  unfold Zone.dayOf
  rw [Int.ediv_eq_iff_of_pos hpos, add_mul, one_mul]

theorem dayOf_bounds (z : Zone) (t : Time) :
    z.dayOf t * nanosPerDay ≤ t + z.offset ∧ t + z.offset < (z.dayOf t + 1) * nanosPerDay := dayOf_eq_iff.mp rfl

theorem dayOf_instant (z : Zone) (n : Int) (h : ClockOK ct) : z.dayOf (z.instant n ct) = n :=
  dayOf_eq_iff.mpr (instant_bounds z n h)

/-- A later day has later instants. -/
theorem instant_lt {n n' : Int} {ct ct' : ClockTime} (h : ClockOK ct) (h' : ClockOK ct') (hlt : n < n') :
    z.instant n ct < z.instant n' ct' := by
  have hend := (instant_bounds z n h).2
  have hstart := (instant_bounds z n' h').1
  have hpos : (0 : Int) < nanosPerDay := by decide
  have hday : (n + 1) * nanosPerDay ≤ n' * nanosPerDay := mul_le_mul_of_nonneg_right (by omega) hpos.le
  linarith

/-- What is after an instant is on its day or on a later one. -/
theorem dayOf_le_of_lt (h : ClockOK ct) (hlt : after < z.instant n ct) : z.dayOf after ≤ n := by
  by_contra hgt
  have hend := (instant_bounds z n h).2
  have hstart := (dayOf_bounds z after).1
  have hpos : (0 : Int) < nanosPerDay := by decide
  have hday : (n + 1) * nanosPerDay ≤ z.dayOf after * nanosPerDay := mul_le_mul_of_nonneg_right (by omega) hpos.le
  linarith

/-- What is on a later day is after. -/
theorem lt_of_dayOf_lt (h : ClockOK ct) (hlt : z.dayOf after < n) : after < z.instant n ct := by
  have hstart := (instant_bounds z n h).1
  have hend := (dayOf_bounds z after).2
  have hpos : (0 : Int) < nanosPerDay := by decide
  have hday : (z.dayOf after + 1) * nanosPerDay ≤ n * nanosPerDay := mul_le_mul_of_nonneg_right (by omega) hpos.le
  linarith

/-- The month of an instant, from its year and the month in it. -/
theorem month_number (z : Zone) (t : Time) : 12 * (z.year t - 1) + (z.month t - 1) = Calendar.monthOf (z.dayOf t) := by
  unfold Zone.year Zone.month Calendar.yearOf
  omega

theorem date_of (z : Zone) (t : Time) (k j : Int) (ct : ClockTime) :
    z.date (z.year t) (z.month t + k) (z.day t + j) ct.hour ct.minute ct.second =
      z.instant (Calendar.monthStart (Calendar.monthOf (z.dayOf t) + k) +
        (z.dayOf t - Calendar.monthStart (Calendar.monthOf (z.dayOf t)) + j)) ct := by
  have hmonth : 12 * (z.year t - 1) + (z.month t + k - 1) = Calendar.monthOf (z.dayOf t) + k := by
    rw [← month_number z t]
    ring
  unfold Zone.date Zone.instant clockSeconds
  rw [hmonth]
  unfold Zone.day
  congr 3
  ring

theorem atTime_eq (z : Zone) (t : Time) (j : Int) (ct : ClockTime) : z.atTime t j ct = z.instant (z.dayOf t + j) ct := by
  have hdate := date_of z t 0 j ct
  rw [add_zero, add_zero] at hdate
  unfold Zone.atTime
  rw [hdate]
  congr 1
  ring

/-- Midnight. -/
def midnight : ClockTime := ⟨0, 0, 0⟩

theorem midnight_ok : ClockOK midnight := ⟨by decide, by decide, by decide⟩

/-- The day a date is on, for any month and day. -/
theorem dayOf_midnight (z : Zone) (y m d : Int) :
    z.dayOf (z.date y m d 0 0 0) = Calendar.monthStart (12 * (y - 1) + (m - 1)) + (d - 1) := by
  have hdate : z.date y m d 0 0 0 = z.instant (Calendar.monthStart (12 * (y - 1) + (m - 1)) + (d - 1)) midnight := by
    unfold Zone.date Zone.instant
    congr 1
  rw [hdate, dayOf_instant z _ midnight_ok]

theorem dayOf_startOfDay (z : Zone) (t : Time) : z.dayOf (z.startOfDay t) = z.dayOf t := by
  unfold Zone.startOfDay
  rw [dayOf_midnight, month_number]
  unfold Zone.day
  ring

theorem dayOf_addDays (z : Zone) (t : Time) (j : Int) : z.dayOf (z.addDate t 0 0 j) = z.dayOf t + j := by
  unfold Zone.addDate
  rw [dayOf_midnight, add_zero, add_zero, month_number]
  unfold Zone.day
  ring

/-- Months on from the first of a month. -/
theorem dayOf_addMonths (z : Zone) (t : Time) (k : Int) : z.dayOf (z.addDate t 0 k 0) =
    Calendar.monthStart (Calendar.monthOf (z.dayOf t) + k) + (z.day t - 1) := by
  have hmonth : 12 * (z.year t + 0 - 1) + (z.month t + k - 1) = Calendar.monthOf (z.dayOf t) + k := by
    rw [← month_number z t]
    ring
  unfold Zone.addDate
  rw [dayOf_midnight, hmonth, add_zero]

theorem civilDayIndex_eq (z : Zone) (t : Time) : z.civilDayIndex t = z.dayOf t := by
  unfold Zone.civilDayIndex
  rw [dayOf_midnight, month_number]
  unfold Zone.day
  ring

theorem monthOf_first (m : Int) : Calendar.monthOf (Calendar.monthStart m) = m := by
  rw [Calendar.monthOf_eq_iff]
  have hlen := (Calendar.monthLength_bounds m).1
  have hsucc := Calendar.monthStart_succ m
  exact ⟨le_rfl, by linarith⟩

theorem daysInMonth_eq (z : Zone) (t : Time) : z.daysInMonth t = Calendar.monthLength (Calendar.monthOf (z.dayOf t)) := by
  have hmonth : 12 * (z.year t - 1) + (z.month t + 1 - 1) = Calendar.monthOf (z.dayOf t) + 1 := by
    rw [← month_number z t]
    ring
  have hday : z.dayOf (z.date (z.year t) (z.month t + 1) 0 0 0 0) = Calendar.monthStart
    (Calendar.monthOf (z.dayOf t) + 1) - 1 := by
    rw [dayOf_midnight, hmonth]
    ring
  have hsucc := Calendar.monthStart_succ (Calendar.monthOf (z.dayOf t))
  have hlen := (Calendar.monthLength_bounds (Calendar.monthOf (z.dayOf t))).1
  -- the day before the first of the next month is in this one
  have hsame : Calendar.monthOf (Calendar.monthStart (Calendar.monthOf (z.dayOf t) + 1) - 1) =
    Calendar.monthOf (z.dayOf t) := by
    rw [Calendar.monthOf_eq_iff]
    constructor
    · linarith
    · linarith
  change z.dayOf _ - Calendar.monthStart (Calendar.monthOf (z.dayOf _)) + 1 = _
  rw [hday, hsame, hsucc]
  ring

/-! ## The times of a day -/

instance : Std.Total clockLE where
  total a b := by
    unfold clockLE
    omega

instance : IsTrans ClockTime clockLE where
  trans a b c := by
    unfold clockLE
    omega

/-- The times of a trigger; midnight where it has none. -/
def timesOf (atTimes : List ClockTime) : List ClockTime := if atTimes.isEmpty then [midnight] else atTimes

theorem mem_sortedClockTimes {atTimes : List ClockTime} : ct ∈ sortedClockTimes atTimes ↔ ct ∈ timesOf atTimes := by
  unfold sortedClockTimes timesOf
  split
  · rfl
  · exact List.mem_insertionSort _

theorem sortedClockTimes_sorted (atTimes : List ClockTime) : (sortedClockTimes atTimes).Pairwise clockLE := by
  unfold sortedClockTimes
  split
  · exact List.pairwise_singleton _ _
  · exact List.pairwise_insertionSort _ _

theorem times_ok {atTimes : List ClockTime} (h : clockTimesSchedulable atTimes = true) (hct : ct ∈ timesOf atTimes) :
    ClockOK ct := by
  unfold timesOf at hct
  split at hct
  · rw [List.mem_singleton.mp hct]
    exact midnight_ok
  · have hall := List.all_eq_true.mp h ct hct
    simp only [Bool.not_eq_true', Bool.or_eq_false_iff, decide_eq_false_iff_not, not_lt] at hall
    exact ⟨hall.1.1, hall.1.2, hall.2⟩

theorem instant_le {a b : ClockTime} (ha : ClockOK a) (hb : ClockOK b) (h : clockLE a b) (z : Zone) (n : Int) :
    z.instant n a ≤ z.instant n b := by
  have hsec : clockSeconds a ≤ clockSeconds b := by
    unfold clockLE at h
    unfold ClockOK at ha hb
    unfold clockSeconds
    omega
  have hprod : clockSeconds a * second ≤ clockSeconds b * second := mul_le_mul_of_nonneg_right hsec second_pos.le
  unfold Zone.instant
  linarith

/-- The first result of a list in order is the least one. -/
theorem findSome_least {α : Type} {R : α → α → Prop} {f : α → Option Time} {l : List α} (hl : l.Pairwise R)
    (hf : ∀ a ∈ l, ∀ b ∈ l, R a b → ∀ u v, f a = some u → f b = some v → u ≤ v) (h : l.findSome? f = some u) :
    (∃ a ∈ l, f a = some u) ∧ ∀ b ∈ l, ∀ v, f b = some v → u ≤ v := by
  induction l with
  | nil => cases h
  | cons a l ih =>
    rw [List.pairwise_cons] at hl
    rw [List.findSome?_cons] at h
    split at h
    · rename_i u' hu
      cases h
      refine ⟨⟨a, List.mem_cons_self, hu⟩, fun b hb v hv => ?_⟩
      rcases List.mem_cons.mp hb with rfl | hb
      · exact (Option.some.inj (hu.symm.trans hv)).le
      · exact hf a List.mem_cons_self b (List.mem_cons_of_mem _ hb) (hl.1 b hb) _ _ hu hv
    · rename_i hnone
      obtain ⟨⟨b, hb, hbu⟩, hleast⟩ := ih hl.2
        (fun a' ha b hb => hf a' (List.mem_cons_of_mem _ ha) b (List.mem_cons_of_mem _ hb)) h
      refine ⟨⟨b, List.mem_cons_of_mem _ hb, hbu⟩, fun b' hb' v hv => ?_⟩
      rcases List.mem_cons.mp hb' with rfl | hb'
      · rw [hnone] at hv
        cases hv
      · exact hleast b' hb' v hv

/-- The first of the times of a day that meets a condition is the least one that does. -/
theorem firstTime_least {atTimes : List ClockTime} (hok : clockTimesSchedulable atTimes = true) {P : Time → Prop}
    [DecidablePred P]
    (h : (sortedClockTimes atTimes).findSome? (fun ct => if P (z.instant n ct) then some (z.instant n ct) else none) =
      some u) :
    (∃ ct ∈ timesOf atTimes, u = z.instant n ct) ∧ P u ∧ ∀ ct ∈ timesOf atTimes, P (z.instant n ct) → u ≤ z.instant n ct := by
  have hval : ∀ {ct : ClockTime} {v : Time}, (if P (z.instant n ct) then some (z.instant n ct) else none) = some v →
      z.instant n ct = v ∧ P v := by
    intro ct v hv
    split at hv
    · rename_i hP
      cases hv
      exact ⟨rfl, hP⟩
    · cases hv
  have hmem : ∀ {ct}, ct ∈ sortedClockTimes atTimes → ClockOK ct := fun hct => times_ok hok (mem_sortedClockTimes.mp hct)
  obtain ⟨⟨ct, hct, hu⟩, hleast⟩ := findSome_least (sortedClockTimes_sorted atTimes)
    (fun a ha b hb hab u v hu hv => (hval hu).1 ▸ (hval hv).1 ▸ instant_le (hmem ha) (hmem hb) hab z n) h
  refine ⟨⟨ct, mem_sortedClockTimes.mp hct, (hval hu).1.symm⟩, (hval hu).2, fun ct' hct' hP => ?_⟩
  exact hleast ct' (mem_sortedClockTimes.mpr hct') _ (if_pos hP)

theorem firstTime_none {atTimes : List ClockTime} {P : Time → Prop} [DecidablePred P]
    (h : (sortedClockTimes atTimes).findSome? (fun ct => if P (z.instant n ct) then some (z.instant n ct) else none) = none) :
    ∀ ct ∈ timesOf atTimes, ¬ P (z.instant n ct) := by
  intro ct hct hP
  have hnone := List.findSome?_eq_none_iff.mp h ct (mem_sortedClockTimes.mpr hct)
  rw [if_pos hP] at hnone
  cases hnone

/-- The first of the times of a day that is after the anchor. -/
def fireOn (z : Zone) (after : Time) (atTimes : List ClockTime) (n : Int) : Option Time :=
  (sortedClockTimes atTimes).findSome? (fun ct => if after < z.instant n ct then some (z.instant n ct) else none)

theorem firstAfter_eq (z : Zone) (after day : Time) (atTimes : List ClockTime) :
    firstAfter z after day (sortedClockTimes atTimes) = fireOn z after atTimes (z.dayOf day) := by
  unfold firstAfter fireOn
  congr 1
  funext ct
  dsimp only
  rw [atTime_eq, add_zero]

theorem exists_time (atTimes : List ClockTime) : ∃ ct, ct ∈ timesOf atTimes := by
  unfold timesOf
  cases atTimes with
  | nil => exact ⟨midnight, List.mem_singleton.mpr rfl⟩
  | cons a l => exact ⟨a, List.mem_cons_self⟩

/-- A day behind the anchor's has a fire. -/
theorem fireOn_later {atTimes : List ClockTime} (hok : clockTimesSchedulable atTimes = true) (h : z.dayOf after < n) :
    fireOn z after atTimes n ≠ none := by
  intro hnone
  obtain ⟨ct, hct⟩ := exists_time atTimes
  exact firstTime_none hnone ct hct (lt_of_dayOf_lt (times_ok hok hct) h)

/-! ## The instants of a trigger -/

/-- The instants after the anchor, at the times of the trigger on its days. -/
def Fires (z : Zone) (after : Time) (days : Int → Prop) (atTimes : List ClockTime) : Set Time :=
  {u | ∃ n, days n ∧ ∃ ct ∈ timesOf atTimes, u = z.instant n ct ∧ after < u}

/-- The result is the least of the instants, and none where there are none. -/
def Exact (o : Option Time) (instants : Set Time) : Prop :=
  (∀ u, o = some u ↔ IsLeast instants u) ∧ (o = none ↔ instants = ∅)

theorem exact_of {o : Option Time} {instants : Set Time} (hsome : ∀ u, o = some u → IsLeast instants u)
    (hnone : o = none → instants = ∅) : Exact o instants := by
  cases o with
  | none =>
    have hempty := hnone rfl
    refine ⟨fun u => ⟨nofun, fun hu => ?_⟩, fun _ => hempty, fun _ => rfl⟩
    rw [hempty] at hu
    exact hu.1.elim
  | some v =>
    have hv := hsome v rfl
    refine ⟨fun u => ⟨fun he => ?_, fun hu => ?_⟩, nofun, fun hempty => ?_⟩
    · cases he
      exact hv
    · rw [hv.unique hu]
    · have hmem := hv.1
      rw [hempty] at hmem
      exact hmem.elim

/-! ## Scans -/

/-- What a scan from the `i`-th day to the bound comes to: the fire of the first of its days that has one. -/
def Scanned (days : Int → Prop) (fire : Int → Option Time) (i bound : Int) : Option Time → Prop
  | none => ∀ j, i ≤ j → j ≤ bound → days j → fire j = none
  | some u => ∃ j, i ≤ j ∧ days j ∧ fire j = some u ∧ ∀ j', i ≤ j' → j' < j → days j' → fire j' = none

namespace Scanned
variable {days : Int → Prop} {fire : Int → Option Time} {i i' bound : Int} {o : Option Time}

theorem beyond (h : bound < i) : Scanned days fire i bound none := fun j hi hj => by omega

theorem hit (hday : days i) (hfire : fire i = some u) : Scanned days fire i bound (some u) :=
  ⟨i, le_rfl, hday, hfire, fun j' h h' => by omega⟩

/-- The days up to the `i'`-th have no fire. -/
theorem skip (h : Scanned days fire i' bound o) (hle : i ≤ i') (hskip : ∀ j, i ≤ j → j < i' → days j → fire j = none) :
    Scanned days fire i bound o := by
  cases o with
  | none =>
    intro j hi hj hday
    by_cases hlt : j < i'
    · exact hskip j hi hlt hday
    · exact h j (by omega) hj hday
  | some u =>
    obtain ⟨j, hi, hday, hfire, hbefore⟩ := h
    refine ⟨j, by omega, hday, hfire, fun j' hij hj' hday' => ?_⟩
    by_cases hlt : j' < i'
    · exact hskip j' hij hlt hday'
    · exact hbefore j' (by omega) hj' hday'

/-- The `i`-th day has no fire. -/
theorem next (h : Scanned days fire (i + 1) bound o) (hnone : days i → fire i = none) : Scanned days fire i bound o := by
  refine h.skip (by omega) (fun j hi hj hday => ?_)
  obtain rfl : j = i := by omega
  exact hnone hday

end Scanned

/-- A scan of all days up to the bound is exact, if the days that have a fire at all have one within the bound. -/
theorem exact_of_scanned {atTimes : List ClockTime} (hok : clockTimesSchedulable atTimes = true) {days : Int → Prop}
    {bound : Int} {o : Option Time}
    (hscan : Scanned (fun j => days (z.dayOf after + j)) (fun j => fireOn z after atTimes (z.dayOf after + j)) 0 bound o)
    (hreach : ∀ n, z.dayOf after ≤ n → days n →
      ∃ j, 0 ≤ j ∧ j ≤ bound ∧ days (z.dayOf after + j) ∧ fireOn z after atTimes (z.dayOf after + j) ≠ none) :
    Exact o (Fires z after days atTimes) := by
  refine exact_of (fun u hu => ?_) (fun hnone => ?_)
  · rw [hu] at hscan
    obtain ⟨j, hj, hday, hfire, hbefore⟩ := hscan
    obtain ⟨⟨ct, hct, hu⟩, hlt, hleast⟩ := firstTime_least hok hfire
    refine ⟨⟨_, hday, ct, hct, hu, hlt⟩, ?_⟩
    rintro v ⟨n, hn, ct', hct', rfl, hv⟩
    have hle := dayOf_le_of_lt (times_ok hok hct') hv
    obtain ⟨k, rfl⟩ : ∃ k, n = z.dayOf after + k := ⟨n - z.dayOf after, by omega⟩
    rcases lt_trichotomy k j with hkj | rfl | hkj
    · exact absurd hv (firstTime_none (hbefore k (by omega) hkj hn) ct' hct')
    · exact hleast ct' hct' hv
    · rw [hu]
      exact (instant_lt (times_ok hok hct) (times_ok hok hct') (by omega)).le
  · rw [hnone] at hscan
    rw [Set.eq_empty_iff_forall_notMem]
    rintro v ⟨n, hn, ct', hct', rfl, hv⟩
    obtain ⟨j, hj, hbound, hday, hsome⟩ := hreach n (dayOf_le_of_lt (times_ok hok hct') hv) hn
    exact hsome (hscan j hj hbound hday)

/-! ## Daily -/

/-- Every so many days from the anchor's. -/
def DailyDay (anchor : Int) (interval : Nat) (n : Int) : Prop := (n - anchor) % interval = 0

theorem scanDaily_scanned {atTimes : List ClockTime} {start : Time} {bound : Int}
    (hstart : z.dayOf start = z.dayOf after) (fuel : Nat) (i : Int) (hi : 0 ≤ i) (hfuel : bound < i + fuel) :
    Scanned (fun j => DailyDay (z.dayOf after) interval (z.dayOf after + j))
      (fun j => fireOn z after atTimes (z.dayOf after + j)) i bound
      (scanDaily z after interval (sortedClockTimes atTimes) start bound fuel i) := by
  induction fuel generalizing i with
  | zero => exact Scanned.beyond (by simpa using hfuel)
  | succ fuel ih =>
    have hrest := ih (i + 1) (by omega) (by push_cast at hfuel; omega)
    have hoff : z.dayOf after + i - z.dayOf after = i := by ring
    unfold scanDaily
    split
    · rename_i hover
      exact Scanned.beyond hover
    · dsimp only
      rw [firstAfter_eq, dayOf_addDays, hstart, Int.tmod_eq_emod_of_nonneg hi]
      split
      · rename_i hgrid
        refine hrest.next (fun hday => absurd ?_ hgrid)
        unfold DailyDay at hday
        rw [hoff] at hday
        exact hday
      · rename_i hgrid
        split
        · rename_i u hfire
          refine Scanned.hit ?_ hfire
          unfold DailyDay
          rw [hoff]
          exact not_not.mp hgrid
        · rename_i hnone
          exact hrest.next (fun _ => hnone)

theorem calendarOK_iff {atTimes : List ClockTime} : calendarOK interval atTimes = true ↔
    1 ≤ interval ∧ interval ≤ 2 ^ 20 ∧ clockTimesSchedulable atTimes = true := by
  unfold calendarOK maxSchedulableInterval
  simp only [Bool.and_eq_true, Bool.not_eq_true', Bool.or_eq_false_iff, beq_eq_false_iff_ne, decide_eq_false_iff_not, not_lt,
    and_assoc, Nat.one_le_iff_ne_zero]

theorem daily_exact {atTimes : List ClockTime} (hok : calendarOK interval atTimes = true) (z : Zone)
    (after : Time) :
    Exact (dailyNext z after interval atTimes) (Fires z after (DailyDay (z.dayOf after) interval) atTimes) := by
  obtain ⟨hpos, hmax, htimes⟩ := calendarOK_iff.mp hok
  unfold dailyNext
  rw [hok]
  have hbound : 0 ≤ scanBound interval := by
    unfold scanBound maxCalendarScanDays
    omega
  refine exact_of_scanned htimes (scanDaily_scanned (dayOf_startOfDay z after) _ 0 le_rfl ?_) (fun n _ _ => ?_)
  · push_cast
    omega
  · -- the next day of the grid
    refine ⟨interval, by omega, ?_, ?_, fireOn_later htimes (by omega)⟩
    · unfold scanBound maxCalendarScanDays
      omega
    · unfold DailyDay
      rw [add_sub_cancel_left, Int.emod_self]

/-! ## Monthly -/

/-- The day in its month, from 1 on. -/
def dayOfMonth (n : Int) : Int := n - Calendar.monthStart (Calendar.monthOf n) + 1

/-- The day is one of these, counted from the start of its month or back from its end. -/
def MonthDay (days : List Int) (n : Int) : Prop :=
  ∃ d ∈ days, d = dayOfMonth n ∨ d = dayOfMonth n - Calendar.monthLength (Calendar.monthOf n) - 1

/-- The days of a trigger; the first where it has none. -/
def monthDaysOf (days : List Int) : List Int := if days.isEmpty then [1] else days

/-- One of the days of a month that is so many months from the anchor's. -/
def MonthlyDay (anchor : Int) (interval : Nat) (days : List Int) (n : Int) : Prop :=
  (Calendar.monthOf n - Calendar.monthOf anchor) % interval = 0 ∧ MonthDay (monthDaysOf days) n

theorem dayOfMonth_bounds (n : Int) : 1 ≤ dayOfMonth n ∧ dayOfMonth n ≤ Calendar.monthLength (Calendar.monthOf n) := by
  obtain ⟨hlow, hhigh⟩ := Calendar.monthOf_spec n
  rw [Calendar.monthStart_succ] at hhigh
  unfold dayOfMonth
  constructor
  · linarith
  · linarith

theorem monthlyDayMatches_iff (z : Zone) (t : Time) (days : List Int) :
    monthlyDayMatches z t (days.filter (fun d => !decide (d < 0))) (days.filter (fun d => decide (d < 0))) = true ↔
      MonthDay days (z.dayOf t) := by
  obtain ⟨hfirst, hlast⟩ := dayOfMonth_bounds (z.dayOf t)
  have hday : z.day t = dayOfMonth (z.dayOf t) := rfl
  unfold monthlyDayMatches MonthDay
  rw [daysInMonth_eq, hday, Bool.or_eq_true, List.contains_iff_mem, List.any_eq_true]
  simp only [List.mem_filter, Bool.not_eq_true', decide_eq_false_iff_not, decide_eq_true_eq, beq_iff_eq]
  constructor
  · rintro (⟨hmem, -⟩ | ⟨d, ⟨hmem, -⟩, hd⟩)
    · exact ⟨_, hmem, Or.inl rfl⟩
    · exact ⟨d, hmem, Or.inr (by linarith)⟩
  · rintro ⟨d, hmem, rfl | hd⟩
    · exact Or.inl ⟨hmem, by linarith⟩
    · exact Or.inr ⟨d, ⟨hmem, by linarith⟩, by linarith⟩

/-- A month ends and the next day is the first of the next. -/
theorem monthOf_next (n : Int) :
    Calendar.monthOf (n + 1) = Calendar.monthOf n ∨ n + 1 = Calendar.monthStart (Calendar.monthOf (n + 1)) := by
  obtain ⟨hlow, hhigh⟩ := Calendar.monthOf_spec n
  by_cases hend : n + 1 < Calendar.monthStart (Calendar.monthOf n + 1)
  · left
    exact Calendar.monthOf_eq_iff.mpr ⟨by linarith, hend⟩
  · right
    have hfirst : n + 1 = Calendar.monthStart (Calendar.monthOf n + 1) := by omega
    rw [hfirst, monthOf_first]

theorem monthOf_mono {n n' : Int} (h : n ≤ n') : Calendar.monthOf n ≤ Calendar.monthOf n' := by
  by_contra hlt
  have hstart := (Calendar.monthOf_spec n).1
  have hend := (Calendar.monthOf_spec n').2
  have hmono := Calendar.monthStart_mono (show Calendar.monthOf n' + 1 ≤ Calendar.monthOf n by omega)
  linarith

/-- The months between one that is off the grid and the next that is on it are all off it. -/
theorem off_grid {k k' : Int} (hpos : (0 : Int) < interval) (hk : k % interval ≠ 0) (hle : k ≤ k')
    (hlt : k' < k + (interval - k % interval)) : k' % interval ≠ 0 := by
  have hrem := Int.emod_lt_of_pos k hpos
  have hrem0 := Int.emod_nonneg k hpos.ne'
  obtain ⟨t, rfl⟩ : ∃ t, k' = k + t := ⟨k' - k, by omega⟩
  have hsum : (k + t) % interval = k % interval + t := by
    rw [Int.add_emod, Int.emod_eq_of_lt (by omega : 0 ≤ t) (by omega), Int.emod_eq_of_lt (by omega) (by omega)]
  omega

/-- Where the jump of the scan lands: on the first of the month. -/
theorem civilDayIndex_jump (z : Zone) (t : Time) (k : Int) (hday : z.day t = 1) :
    z.civilDayIndex (z.date (z.year (z.addDate t 0 k 0)) (z.month (z.addDate t 0 k 0)) 1 0 0 0) =
      Calendar.monthStart (Calendar.monthOf (z.dayOf t) + k) := by
  rw [civilDayIndex_eq, dayOf_midnight, month_number, dayOf_addMonths, hday, sub_self, add_zero, add_zero, monthOf_first]

theorem scanMonthly_scanned {days : List Int} {atTimes : List ClockTime} {start : Time} {bound : Int}
    (hpos : 1 ≤ interval) (hstart : z.dayOf start = z.dayOf after) (fuel : Nat) (i : Int) (hi : 0 ≤ i)
    (hfuel : bound < i + fuel)
    (hinv : (Calendar.monthOf (z.dayOf after + i) - Calendar.monthOf (z.dayOf after)) % interval = 0 ∨
      z.dayOf after + i = Calendar.monthStart (Calendar.monthOf (z.dayOf after + i))) :
    Scanned (fun j => MonthlyDay (z.dayOf after) interval days (z.dayOf after + j))
      (fun j => fireOn z after atTimes (z.dayOf after + j)) i bound
      (scanMonthly z after interval ((monthDaysOf days).filter (fun d => !decide (d < 0)))
        ((monthDaysOf days).filter (fun d => decide (d < 0))) (sortedClockTimes atTimes) start bound fuel i) := by
  induction fuel generalizing i with
  | zero => exact Scanned.beyond (by simpa using hfuel)
  | succ fuel ih =>
    unfold scanMonthly
    split
    · rename_i hover
      exact Scanned.beyond hover
    · dsimp only
      have hN : (0 : Int) < interval := by omega
      have hday : z.dayOf (z.addDate start 0 0 i) = z.dayOf after + i := by rw [dayOf_addDays, hstart]
      have hnonneg : 0 ≤ Calendar.monthOf (z.dayOf after + i) - Calendar.monthOf (z.dayOf after) := by
        have := monthOf_mono (show z.dayOf after ≤ z.dayOf after + i by omega)
        omega
      have hindex : (z.year (z.addDate start 0 0 i) - z.year after) * 12 +
          (z.month (z.addDate start 0 0 i) - z.month after) =
            Calendar.monthOf (z.dayOf after + i) - Calendar.monthOf (z.dayOf after) := by
        rw [← hday, ← month_number z (z.addDate start 0 0 i), ← month_number z after]
        ring
      rw [firstAfter_eq, hday, hindex, Int.tmod_eq_emod_of_nonneg hnonneg]
      -- the next day keeps the invariant from a month on the grid
      have hrest : (Calendar.monthOf (z.dayOf after + i) - Calendar.monthOf (z.dayOf after)) % interval = 0 →
          Scanned (fun j => MonthlyDay (z.dayOf after) interval days (z.dayOf after + j))
            (fun j => fireOn z after atTimes (z.dayOf after + j)) (i + 1) bound
            (scanMonthly z after interval ((monthDaysOf days).filter (fun d => !decide (d < 0)))
              ((monthDaysOf days).filter (fun d => decide (d < 0))) (sortedClockTimes atTimes) start bound fuel (i + 1)) := by
        intro hgrid
        refine ih (i + 1) (by omega) (by push_cast at hfuel; omega) ?_
        rw [← add_assoc]
        rcases monthOf_next (z.dayOf after + i) with hsame | hfirst
        · rw [hsame]
          exact Or.inl hgrid
        · exact Or.inr hfirst
      split
      · rename_i hoff
        have hfirst := hinv.resolve_left hoff
        have hone : z.day (z.addDate start 0 0 i) = 1 := by
          change z.dayOf _ - Calendar.monthStart (Calendar.monthOf (z.dayOf _)) + 1 = 1
          rw [hday]
          omega
        rw [civilDayIndex_jump z _ _ hone, civilDayIndex_eq, hday, hstart, sub_add_cancel]
        generalize hM : Calendar.monthOf (z.dayOf after + i) = M at hoff hfirst hnonneg ⊢
        generalize hM0 : Calendar.monthOf (z.dayOf after) = M0 at hoff hnonneg ⊢
        obtain ⟨k, hk⟩ : ∃ k : Nat, (interval : Int) - (M - M0) % interval = k := by
          have hrem := Int.emod_lt_of_pos (M - M0) hN
          exact ⟨((interval : Int) - (M - M0) % interval).toNat, by omega⟩
        have hkpos : 1 ≤ k := by
          have hrem := Int.emod_lt_of_pos (M - M0) hN
          omega
        have hlater := Calendar.add_le_monthStart M k
        have hland : z.dayOf after + (Calendar.monthStart (M + k) - z.dayOf after) = Calendar.monthStart (M + k) := by ring
        rw [hk]
        refine (ih (Calendar.monthStart (M + k) - z.dayOf after) (by omega) (by push_cast at hfuel; omega) ?_).skip
          (by omega) (fun j hij hj hmatch => ?_)
        · rw [hland, monthOf_first]
          exact Or.inr rfl
        · -- no month is skipped that is on the grid
          have hlow := monthOf_mono (show z.dayOf after + i ≤ z.dayOf after + j by omega)
          have hhigh : Calendar.monthOf (z.dayOf after + j) < M + k := by
            by_contra hge
            have hmono := Calendar.monthStart_mono (not_lt.mp hge)
            have hspec := (Calendar.monthOf_spec (z.dayOf after + j)).1
            omega
          refine absurd hmatch.1 (off_grid hN hoff ?_ ?_)
          · omega
          · omega
      · rename_i hgrid
        have hgrid := not_not.mp hgrid
        split
        · rename_i hmatch
          refine (hrest hgrid).next (fun hmonthly => ?_)
          rw [← hday] at hmonthly
          rw [(monthlyDayMatches_iff z _ _).mpr hmonthly.2] at hmatch
          cases hmatch
        · rename_i hmatch
          split
          · rename_i u hfire
            refine Scanned.hit ⟨hgrid, ?_⟩ hfire
            rw [← hday]
            exact (monthlyDayMatches_iff z _ _).mp (by simpa using hmatch)
          · rename_i hnone
            exact (hrest hgrid).next (fun _ => hnone)

/-- A month that is long enough has the day. -/
theorem exists_monthDay {days : List Int} {d : Int} (hmem : d ∈ days) (hd : d ≠ 0) (hlen : |d| ≤ Calendar.monthLength m) :
    ∃ n, Calendar.monthOf n = m ∧ MonthDay days n := by
  have hsucc := Calendar.monthStart_succ m
  rcases lt_or_gt_of_ne hd with hneg | hpos
  · rw [abs_of_neg hneg] at hlen
    have hmonth : Calendar.monthOf (Calendar.monthStart m + (Calendar.monthLength m + d)) = m :=
      Calendar.monthOf_eq_iff.mpr ⟨by omega, by omega⟩
    refine ⟨_, hmonth, d, hmem, Or.inr ?_⟩
    unfold dayOfMonth
    rw [hmonth]
    ring
  · rw [abs_of_pos hpos] at hlen
    have hmonth : Calendar.monthOf (Calendar.monthStart m + (d - 1)) = m :=
      Calendar.monthOf_eq_iff.mpr ⟨by omega, by omega⟩
    refine ⟨_, hmonth, d, hmem, Or.inl ?_⟩
    unfold dayOfMonth
    rw [hmonth]
    ring

theorem MonthDay.fits {days : List Int} (h : MonthDay days n) :
    ∃ d ∈ days, d ≠ 0 ∧ |d| ≤ Calendar.monthLength (Calendar.monthOf n) := by
  obtain ⟨d, hmem, hd⟩ := h
  obtain ⟨hfirst, hlast⟩ := dayOfMonth_bounds n
  refine ⟨d, hmem, by omega, abs_le.mpr ⟨by omega, by omega⟩⟩

/-- A month of the grid that has one of the days comes within the bound of the scan. -/
theorem monthly_reach {days : List Int} {atTimes : List ClockTime} (hpos : 1 ≤ interval)
    (htimes : clockTimesSchedulable atTimes = true) {k d : Int} (hmem : d ∈ monthDaysOf days) (hd : d ≠ 0)
    (hfit : |d| ≤ Calendar.monthLength (Calendar.monthOf (z.dayOf after) + k * interval)) :
    ∃ j, 0 ≤ j ∧ j ≤ scanBound interval ∧ MonthlyDay (z.dayOf after) interval days (z.dayOf after + j) ∧
      fireOn z after atTimes (z.dayOf after + j) ≠ none := by
  obtain ⟨k', hk1, hk16, hlong⟩ := Calendar.exists_long_month hfit
  obtain ⟨n', hmonth, hday⟩ := exists_monthDay hmem hd hlong
  obtain ⟨a, rfl⟩ : ∃ a : Nat, k' = a := ⟨k'.toNat, by omega⟩
  obtain ⟨hanchor, hend⟩ := Calendar.monthOf_spec (z.dayOf after)
  obtain ⟨hlow, hhigh⟩ := Calendar.monthOf_spec n'
  have hstep : interval ≤ a * interval := Nat.le_mul_of_pos_left _ (by omega)
  have hstep' : a * interval ≤ 16 * interval := Nat.mul_le_mul_right _ (by omega)
  have hcast : Calendar.monthOf (z.dayOf after) + (a : Int) * interval = Calendar.monthOf (z.dayOf after) +
    (a * interval : Nat) := by
    push_cast
    ring
  rw [hmonth, hcast] at hlow hhigh
  have hlater := Calendar.monthStart_mono
    (show Calendar.monthOf (z.dayOf after) + 1 ≤ Calendar.monthOf (z.dayOf after) + (a * interval : Nat) by omega)
  have hnear := Calendar.monthStart_add_le (Calendar.monthOf (z.dayOf after)) (a * interval + 1)
  rw [Nat.cast_succ, ← add_assoc] at hnear
  have hn' : z.dayOf after + (n' - z.dayOf after) = n' := by ring
  refine ⟨n' - z.dayOf after, by omega, ?_, ?_, ?_⟩
  · unfold scanBound maxCalendarScanDays
    omega
  · rw [hn']
    refine ⟨?_, hday⟩
    rw [hmonth, add_sub_cancel_left, Int.mul_emod_left]
  · rw [hn']
    exact fireOn_later htimes (by omega)

theorem monthly_exact {days : List Int} {atTimes : List ClockTime} (hok : calendarOK interval atTimes = true)
    (hdays : monthDaysSchedulable days = true) (z : Zone) (after : Time) :
    Exact (monthlyNext z after interval days atTimes) (Fires z after (MonthlyDay (z.dayOf after) interval days) atTimes) := by
  obtain ⟨hpos, hmax, htimes⟩ := calendarOK_iff.mp hok
  unfold monthlyNext
  rw [hok, hdays]
  have hbound : 0 ≤ scanBound interval := by
    unfold scanBound maxCalendarScanDays
    omega
  refine exact_of_scanned htimes
    (scanMonthly_scanned hpos (dayOf_startOfDay z after) _ 0 le_rfl ?_ (Or.inl ?_)) (fun n _ hn => ?_)
  · push_cast
    omega
  · rw [add_zero, sub_self, Int.zero_emod]
  · obtain ⟨d, hmem, hd, hfit⟩ := hn.2.fits
    obtain ⟨k, hk⟩ := Int.dvd_of_emod_eq_zero hn.1
    have hmonth : Calendar.monthOf n = Calendar.monthOf (z.dayOf after) + k * interval := by
      rw [mul_comm k, ← hk]
      ring
    rw [hmonth] at hfit
    exact monthly_reach hpos htimes hmem hd hfit

/-! ## Weekly -/

/-- The weekdays of a trigger; Sunday where it has none. -/
def weekdaysOf (weekdays : List Int) : List Int := if weekdays.isEmpty then [0] else weekdays

/-- One of the weekdays of a week that is so many weeks from the anchor's; weeks start on Sunday. -/
def WeeklyDay (anchor : Int) (interval : Nat) (weekdays : List Int) (n : Int) : Prop :=
  ((n + 1) / 7 - (anchor + 1) / 7) % interval = 0 ∧ (n + 1) % 7 ∈ weekdaysOf weekdays

/-- What a pass accepts: an instant after the reference, or not before it. -/
def Reached (firstPass : Bool) (ref u : Time) : Prop := ref < u ∨ (firstPass = false ∧ ref = u)

instance (firstPass : Bool) (ref u : Time) : Decidable (Reached firstPass ref u) := inferInstanceAs (Decidable (_ ∨ _))

/-- The day of a weekday in the week of an instant. -/
def weekdayIn (z : Zone) (ref : Time) (wd : Int) : Int := z.dayOf ref - z.weekday ref + wd

theorem weekdayAtTime_eq (z : Zone) (ref : Time) (sortedDays : List Int) (atTimes : List ClockTime) (firstPass : Bool) :
    weekdayAtTime z ref sortedDays (sortedClockTimes atTimes) firstPass = sortedDays.findSome? (fun wd =>
      if wd < z.weekday ref then none
      else (sortedClockTimes atTimes).findSome? (fun ct =>
        if Reached firstPass ref (z.instant (weekdayIn z ref wd) ct) then some (z.instant (weekdayIn z ref wd) ct)
        else none)) := by
  have hday : ∀ wd ct, z.atTime ref (wd - z.weekday ref) ct = z.instant (weekdayIn z ref wd) ct := by
    intro wd ct
    rw [atTime_eq]
    unfold weekdayIn
    congr 1
    ring
  unfold weekdayAtTime Reached
  simp only [hday]
  cases firstPass with
  | true => simp
  | false => simp [le_iff_lt_or_eq]

section WeekdayAtTime
variable {ref : Time} {weekdays : List Int} {atTimes : List ClockTime} {firstPass : Bool}

theorem weekdayAtTime_least (hok : clockTimesSchedulable atTimes = true)
    (h : weekdayAtTime z ref (weekdays.insertionSort (· ≤ ·)) (sortedClockTimes atTimes) firstPass = some u) :
    (∃ wd ∈ weekdays, z.weekday ref ≤ wd ∧ ∃ ct ∈ timesOf atTimes, u = z.instant (weekdayIn z ref wd) ct) ∧
      Reached firstPass ref u ∧
      ∀ wd ∈ weekdays, z.weekday ref ≤ wd → ∀ ct ∈ timesOf atTimes,
        Reached firstPass ref (z.instant (weekdayIn z ref wd) ct) → u ≤ z.instant (weekdayIn z ref wd) ct := by
  rw [weekdayAtTime_eq] at h
  have hval : ∀ {wd : Int} {v : Time}, (if wd < z.weekday ref then none
      else (sortedClockTimes atTimes).findSome? (fun ct =>
        if Reached firstPass ref (z.instant (weekdayIn z ref wd) ct) then some (z.instant (weekdayIn z ref wd) ct)
        else none)) = some v →
      z.weekday ref ≤ wd ∧ (∃ ct ∈ timesOf atTimes, v = z.instant (weekdayIn z ref wd) ct) ∧ Reached firstPass ref v ∧
        ∀ ct ∈ timesOf atTimes, Reached firstPass ref (z.instant (weekdayIn z ref wd) ct) →
          v ≤ z.instant (weekdayIn z ref wd) ct := by
    intro wd v hv
    split at hv
    · cases hv
    · rename_i hge
      exact ⟨not_lt.mp hge, firstTime_least hok hv⟩
  have hsorted : (weekdays.insertionSort (· ≤ ·)).Pairwise (· ≤ ·) := List.pairwise_insertionSort _ _
  have horder : ∀ {a b : Int} {v w : Time}, a ≤ b → (∃ ct ∈ timesOf atTimes, v = z.instant (weekdayIn z ref a) ct) →
      (∃ ct ∈ timesOf atTimes, w = z.instant (weekdayIn z ref b) ct) → a ≠ b → v ≤ w := by
    rintro a b v w hab ⟨ct, hct, rfl⟩ ⟨ct', hct', rfl⟩ hne
    refine (instant_lt (times_ok hok hct) (times_ok hok hct') ?_).le
    unfold weekdayIn
    omega
  obtain ⟨⟨wd, hwd, hu⟩, hleast⟩ := findSome_least hsorted (fun a ha b hb hab v w hv hw => by
    by_cases hne : a = b
    · subst hne
      exact (Option.some.inj (hv.symm.trans hw)).le
    · exact horder hab (hval hv).2.1 (hval hw).2.1 hne) h
  obtain ⟨hge, hat, hreached, -⟩ := hval hu
  refine ⟨⟨wd, (List.mem_insertionSort _).mp hwd, hge, hat⟩, hreached, fun wd' hwd' hge' ct hct hreached' => ?_⟩
  -- the weekday has a result of its own, and that one is not before
  cases hres : (sortedClockTimes atTimes).findSome? (fun ct =>
      if Reached firstPass ref (z.instant (weekdayIn z ref wd') ct) then some (z.instant (weekdayIn z ref wd') ct)
      else none) with
  | none => exact absurd hreached' (firstTime_none hres ct hct)
  | some v =>
    have hle := hleast wd' ((List.mem_insertionSort _).mpr hwd') v (by rw [if_neg (not_lt.mpr hge'), hres])
    exact hle.trans ((firstTime_least hok hres).2.2 ct hct hreached')

theorem weekdayAtTime_none
    (h : weekdayAtTime z ref (weekdays.insertionSort (· ≤ ·)) (sortedClockTimes atTimes) firstPass = none) :
    ∀ wd ∈ weekdays, z.weekday ref ≤ wd → ∀ ct ∈ timesOf atTimes,
      ¬ Reached firstPass ref (z.instant (weekdayIn z ref wd) ct) := by
  intro wd hwd hge
  rw [weekdayAtTime_eq] at h
  have hnone := List.findSome?_eq_none_iff.mp h wd ((List.mem_insertionSort _).mpr hwd)
  rw [if_neg (not_lt.mpr hge)] at hnone
  exact firstTime_none hnone

end WeekdayAtTime

/-- The Sunday the second pass starts from. -/
def laterWeek (z : Zone) (after : Time) (interval : Nat) : Time :=
  z.date (z.year after) (z.month after) (z.day after - z.weekday after + interval * 7) 0 0 0

theorem laterWeek_eq (z : Zone) (after : Time) (interval : Nat) :
    laterWeek z after interval = z.instant (weekdayIn z after (interval * 7)) midnight := by
  have hdate := date_of z after 0 (-z.weekday after + interval * 7) midnight
  rw [add_zero, add_zero] at hdate
  have hday : z.day after - z.weekday after + (interval : Int) * 7 = z.day after + (-z.weekday after + interval * 7) := by
    ring
  unfold laterWeek weekdayIn
  rw [hday]
  refine hdate.trans ?_
  congr 1
  ring

theorem weekday_bounds (z : Zone) (t : Time) : 0 ≤ z.weekday t ∧ z.weekday t ≤ 6 := by
  unfold Zone.weekday
  omega

/-- The weekdays of the week an interval on are counted from its Sunday. -/
theorem weekdayIn_laterWeek (z : Zone) (after : Time) (interval : Nat) (wd : Int) :
    z.weekday (laterWeek z after interval) = 0 ∧
      weekdayIn z (laterWeek z after interval) wd = weekdayIn z after (interval * 7 + wd) := by
  have hday : z.dayOf (laterWeek z after interval) = weekdayIn z after (interval * 7) := by
    rw [laterWeek_eq, dayOf_instant z _ midnight_ok]
  have hzero : z.weekday (laterWeek z after interval) = 0 := by
    unfold Zone.weekday
    rw [hday]
    unfold weekdayIn Zone.weekday
    omega
  refine ⟨hzero, ?_⟩
  conv_lhs => unfold weekdayIn
  rw [hzero, hday]
  unfold weekdayIn
  ring

/-- Every weekday from that Sunday on is reached. -/
theorem reached_laterWeek {wd : Int} (h : ClockOK ct) (hwd : 0 ≤ wd) (z : Zone) (after : Time) :
    Reached false (laterWeek z after interval) (z.instant (weekdayIn z (laterWeek z after interval) wd) ct) := by
  rw [(weekdayIn_laterWeek z after interval wd).2, laterWeek_eq]
  have hle : z.instant (weekdayIn z after (interval * 7)) midnight ≤ z.instant
    (weekdayIn z after (interval * 7 + wd)) ct := by
    rcases hwd.eq_or_lt with rfl | hpos
    · rw [add_zero]
      refine instant_le midnight_ok h ?_ z _
      unfold clockLE midnight
      dsimp only
      omega
    · refine (instant_lt midnight_ok h ?_).le
      unfold weekdayIn
      omega
  rcases hle.lt_or_eq with hlt | heq
  · exact Or.inl hlt
  · exact Or.inr ⟨rfl, heq⟩

theorem weeklyNext_eq (z : Zone) (after : Time) (interval : Nat) (weekdays : List Int) (sortedTimes : List ClockTime) :
    weeklyNext z after interval weekdays sortedTimes =
      match weekdayAtTime z after ((weekdaysOf weekdays).insertionSort (· ≤ ·)) sortedTimes true with
      | some next => some next
      | none => weekdayAtTime z (laterWeek z after interval)
          ((weekdaysOf weekdays).insertionSort (· ≤ ·)) sortedTimes false :=
  rfl

/-- A weekday of the grid is in the anchor's week, in the week an interval on, or in a later one. -/
theorem weekly_weeks {weekdays : List Int} (hpos : 1 ≤ interval) (hle : z.dayOf after ≤ n)
    (h : WeeklyDay (z.dayOf after) interval weekdays n) :
    ∃ wd ∈ weekdaysOf weekdays, 0 ≤ wd ∧ wd ≤ 6 ∧
      ((n = weekdayIn z after wd ∧ z.weekday after ≤ wd) ∨ n = weekdayIn z after (interval * 7 + wd) ∨
        weekdayIn z after (interval * 7 + 7) ≤ n) := by
  obtain ⟨hgrid, hmem⟩ := h
  obtain ⟨k, hk⟩ := Int.dvd_of_emod_eq_zero hgrid
  refine ⟨(n + 1) % 7, hmem, by omega, by omega, ?_⟩
  have hk0 : 0 ≤ k := by
    by_contra hneg
    have hprod : (interval : Int) * k ≤ interval * (-1) := mul_le_mul_of_nonneg_left (by omega) (by omega)
    omega
  unfold weekdayIn Zone.weekday
  rcases (show k = 0 ∨ k = 1 ∨ 2 ≤ k by omega) with rfl | rfl | hk2
  · omega
  · omega
  · have hprod : (interval : Int) * 2 ≤ interval * k := mul_le_mul_of_nonneg_left hk2 (by omega)
    omega

/-- The days of these weeks are on the grid. -/
theorem weeklyDay_of {weekdays : List Int} {wd : Int} (hmem : wd ∈ weekdaysOf weekdays) (h0 : 0 ≤ wd)
    (h6 : wd ≤ 6) (hn : n = weekdayIn z after wd ∨ n = weekdayIn z after (interval * 7 + wd)) :
    WeeklyDay (z.dayOf after) interval weekdays n := by
  unfold weekdayIn Zone.weekday at hn
  have hmod : (n + 1) % 7 = wd := by omega
  refine ⟨?_, hmod.symm ▸ hmem⟩
  rcases hn with hn | hn
  · rw [show (n + 1) / 7 - (z.dayOf after + 1) / 7 = 0 by omega, Int.zero_emod]
  · rw [show (n + 1) / 7 - (z.dayOf after + 1) / 7 = interval by omega, Int.emod_self]

theorem weekly_exact {weekdays : List Int} {atTimes : List ClockTime} (hok : calendarOK interval atTimes = true)
    (hdays : ∀ wd ∈ weekdays, 0 ≤ wd ∧ wd ≤ 6) (z : Zone) (after : Time) :
    Exact (weeklyNext z after interval weekdays (sortedClockTimes atTimes))
      (Fires z after (WeeklyDay (z.dayOf after) interval weekdays) atTimes) := by
  obtain ⟨hpos, hmax, htimes⟩ := calendarOK_iff.mp hok
  have hweek : ∀ wd ∈ weekdaysOf weekdays, 0 ≤ wd ∧ wd ≤ 6 := by
    unfold weekdaysOf
    split
    · simp
    · exact hdays
  have hbounds := weekday_bounds z after
  rw [weeklyNext_eq]
  cases hfirst : weekdayAtTime z after ((weekdaysOf weekdays).insertionSort (· ≤ ·)) (sortedClockTimes atTimes) true with
  | some v =>
    refine exact_of (fun u hu => ?_) nofun
    cases hu
    obtain ⟨⟨wd, hwd, hge, ct, hct, rfl⟩, hreached, hleast⟩ := weekdayAtTime_least htimes hfirst
    obtain ⟨h0, h6⟩ := hweek wd hwd
    refine ⟨⟨_, weeklyDay_of hwd h0 h6 (Or.inl rfl), ct, hct, rfl, hreached.resolve_right (by simp)⟩, ?_⟩
    rintro w ⟨n, hn, ct', hct', rfl, hw⟩
    obtain ⟨wd', hwd', h0', h6', ⟨rfl, hge'⟩ | hlater⟩ := weekly_weeks hpos (dayOf_le_of_lt (times_ok htimes hct') hw) hn
    · exact hleast wd' hwd' hge' ct' hct' (Or.inl hw)
    · refine (instant_lt (times_ok htimes hct) (times_ok htimes hct') ?_).le
      unfold weekdayIn at hlater ⊢
      omega
  | none =>
    have hpast := weekdayAtTime_none hfirst
    dsimp only
    refine exact_of (fun u hu => ?_) (fun hnone => ?_)
    · obtain ⟨⟨wd, hwd, hge, ct, hct, rfl⟩, -, hleast⟩ := weekdayAtTime_least htimes hu
      obtain ⟨h0, h6⟩ := hweek wd hwd
      rw [(weekdayIn_laterWeek z after interval wd).2] at hleast ⊢
      refine ⟨⟨_, weeklyDay_of hwd h0 h6 (Or.inr rfl), ct, hct, rfl, lt_of_dayOf_lt (times_ok htimes hct) ?_⟩, ?_⟩
      · unfold weekdayIn
        omega
      · rintro w ⟨n, hn, ct', hct', rfl, hw⟩
        obtain ⟨wd', hwd', h0', h6', ⟨rfl, hge'⟩ | rfl | hlater⟩ :=
          weekly_weeks hpos (dayOf_le_of_lt (times_ok htimes hct') hw) hn
        · exact absurd (Or.inl hw) (hpast wd' hwd' hge' ct' hct')
        · have hle := hleast wd' hwd' ((weekdayIn_laterWeek z after interval wd').1 ▸ h0') ct' hct'
            (reached_laterWeek (times_ok htimes hct') h0' z after)
          rw [(weekdayIn_laterWeek z after interval wd').2] at hle
          exact hle
        · refine (instant_lt (times_ok htimes hct) (times_ok htimes hct') ?_).le
          unfold weekdayIn at hlater ⊢
          omega
    · rw [Set.eq_empty_iff_forall_notMem]
      rintro w ⟨n, ⟨-, hwd⟩, ct', hct', rfl, hw⟩
      have hmod : 0 ≤ (n + 1) % 7 := by omega
      exact weekdayAtTime_none hnone _ hwd ((weekdayIn_laterWeek z after interval 0).1 ▸ hmod) ct' hct'
        (reached_laterWeek (times_ok htimes hct') hmod z after)

/-! ## Every calendar trigger -/

/-- A calendar trigger whose interval, days and times are ones the scheduler accepts. -/
def Trigger.Schedulable : Trigger → Prop
  | .daily interval atTimes => 1 ≤ interval ∧ interval ≤ 2 ^ 20 ∧ ∀ ct ∈ atTimes, ClockOK ct
  | .weekly interval weekdays atTimes =>
    1 ≤ interval ∧ interval ≤ 2 ^ 20 ∧ (∀ wd ∈ weekdays, 0 ≤ wd ∧ wd ≤ 6) ∧ ∀ ct ∈ atTimes, ClockOK ct
  | .monthly interval days atTimes =>
    1 ≤ interval ∧ interval ≤ 2 ^ 20 ∧ (∀ d ∈ days, 1 ≤ |d| ∧ |d| ≤ 31) ∧ ∀ ct ∈ atTimes, ClockOK ct
  | _ => False

/-- The instants after the anchor a calendar trigger is for. -/
def Trigger.instants (z : Zone) (after : Time) : Trigger → Set Time
  | .daily interval atTimes => Fires z after (DailyDay (z.dayOf after) interval) atTimes
  | .weekly interval weekdays atTimes => Fires z after (WeeklyDay (z.dayOf after) interval weekdays) atTimes
  | .monthly interval days atTimes => Fires z after (MonthlyDay (z.dayOf after) interval days) atTimes
  | _ => ∅

theorem clockTimesSchedulable_iff {atTimes : List ClockTime} :
    clockTimesSchedulable atTimes = true ↔ ∀ ct ∈ atTimes, ClockOK ct := by
  unfold clockTimesSchedulable ClockOK
  simp only [List.all_eq_true, Bool.not_eq_true', Bool.or_eq_false_iff, decide_eq_false_iff_not, not_lt, and_assoc]

theorem monthDaysSchedulable_iff {days : List Int} :
    monthDaysSchedulable days = true ↔ ∀ d ∈ days, 1 ≤ |d| ∧ |d| ≤ 31 := by
  unfold monthDaysSchedulable
  rw [List.all_eq_true]
  refine forall₂_congr (fun d _ => ?_)
  have habs : 1 ≤ |d| ↔ d ≠ 0 := ⟨fun h => abs_pos.mp (by omega), Int.one_le_abs⟩
  simp only [Bool.not_eq_true', Bool.or_eq_false_iff, beq_eq_false_iff_ne, decide_eq_false_iff_not, not_lt, abs_le, habs]
  omega

/-- **The next fire of a calendar trigger is the least instant after the anchor that is on its grid, on one of its days and at
one of its times; there is no next fire exactly where no instant is.** -/
theorem calendar_next_exact (cronNext : String → Zone → Time → Option Time) (z : Zone) (after : Time) {trigger : Trigger}
    (h : trigger.Schedulable) : Exact (trigger.next cronNext z after) (trigger.instants z after) := by
  cases trigger with
  | daily interval atTimes =>
    obtain ⟨hpos, hmax, htimes⟩ := h
    exact daily_exact (calendarOK_iff.mpr ⟨hpos, hmax, clockTimesSchedulable_iff.mpr htimes⟩) z after
  | weekly interval weekdays atTimes =>
    obtain ⟨hpos, hmax, hdays, htimes⟩ := h
    have hok : calendarOK interval atTimes = true := calendarOK_iff.mpr ⟨hpos, hmax, clockTimesSchedulable_iff.mpr htimes⟩
    change Exact (if !calendarOK interval atTimes then none else weeklyNext z after interval weekdays _) _
    rw [hok]
    exact weekly_exact hok hdays z after
  | monthly interval days atTimes =>
    obtain ⟨hpos, hmax, hdays, htimes⟩ := h
    exact monthly_exact (calendarOK_iff.mpr ⟨hpos, hmax, clockTimesSchedulable_iff.mpr htimes⟩)
      (monthDaysSchedulable_iff.mpr hdays) z after
  | unset | at_ | after | every | everyRandom | cron => exact h.elim

/-- The last day of every other month, at nine in the morning. -/
theorem month_end_next_exact :
    (Trigger.monthly 2 [-1] [⟨9, 0, 0⟩]).Schedulable ∧
      Exact ((Trigger.monthly 2 [-1] [⟨9, 0, 0⟩]).next (fun _ _ _ => none) {} 0)
        ((Trigger.monthly 2 [-1] [⟨9, 0, 0⟩]).instants {} 0) := by
  have h : (Trigger.monthly 2 [-1] [⟨9, 0, 0⟩]).Schedulable :=
    ⟨by decide, by decide, by decide, by simp [ClockOK]⟩
  exact ⟨h, calendar_next_exact _ _ _ h⟩

end Wrkflw.Scheduler
