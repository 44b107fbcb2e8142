import Mathlib.Tactic.IntervalCases
import Mathlib.Tactic.Linarith
import Mathlib.Tactic.Ring

/-!
# The civil calendar

The proleptic Gregorian calendar, by numbers: days count from the first day of the year 1, months from the first month of
that year, so that a month of any year has one number and months are added by adding numbers.

* `monthStart`, `monthLength` : the first day of a month and its length;
* `monthOf`, `monthOf_eq_iff` : the month of a day;
* `monthStart_add_le`, `add_le_monthStart` : months have between 28 and 31 days;
* `exists_long_month` : a length that a month of an arithmetic progression has is had by one of the next sixteen.
-/

namespace Wrkflw.Library.Calendar

/-- The year has a 29th of February. -/
def leap (y : Int) : Prop := y % 4 = 0 ∧ (y % 100 ≠ 0 ∨ y % 400 = 0)

instance (y : Int) : Decidable (leap y) := inferInstanceAs (Decidable (_ ∧ _))

/-- The first day of the year. -/
def yearStart (y : Int) : Int := 365 * (y - 1) + (y - 1) / 4 - (y - 1) / 100 + (y - 1) / 400

theorem yearStart_succ (y : Int) : yearStart (y + 1) = yearStart y + if leap y then 366 else 365 := by
  unfold yearStart
  split
  · rename_i h
    unfold leap at h
    omega
  · rename_i h
    unfold leap at h
    omega

/-- The year of a month. -/
def yearOf (m : Int) : Int := m / 12 + 1

def monthLength (m : Int) : Int :=
  if m % 12 = 1 then if leap (yearOf m) then 29 else 28
  else if m % 12 = 3 ∨ m % 12 = 5 ∨ m % 12 = 8 ∨ m % 12 = 10 then 30
  else 31

/-- The days of a year before its months, counted from 0: the two days February lacks, or the one, are taken off from March
on. -/
def daysBefore (y k : Int) : Int := (367 * k + 5) / 12 - if k < 2 then 0 else if leap y then 1 else 2

/-- The first day of the month. -/
def monthStart (m : Int) : Int := yearStart (yearOf m) + daysBefore (yearOf m) (m % 12)

theorem monthStart_succ (m : Int) : monthStart (m + 1) = monthStart m + monthLength m := by
  obtain ⟨y, k, rfl, hk0, hk⟩ : ∃ y k : Int, m = 12 * y + k ∧ 0 ≤ k ∧ k < 12 := ⟨m / 12, m % 12, by omega, by omega, by omega⟩
  have hy : (12 * y + k) / 12 = y := by omega
  have hm : (12 * y + k) % 12 = k := by omega
  by_cases hlast : k = 11
  · -- the year ends
    have hy' : (12 * y + k + 1) / 12 = y + 1 := by omega
    have hm' : (12 * y + k + 1) % 12 = 0 := by omega
    have hyear := yearStart_succ (y + 1)
    unfold monthStart monthLength yearOf daysBefore
    rw [hy, hm, hy', hm', hyear]
    subst hlast
    split_ifs <;> omega
  · have hy' : (12 * y + k + 1) / 12 = y := by omega
    have hm' : (12 * y + k + 1) % 12 = k + 1 := by omega
    unfold monthStart monthLength yearOf daysBefore
    rw [hy, hm, hy', hm']
    interval_cases k <;> split_ifs <;> omega

theorem monthLength_bounds (m : Int) : 28 ≤ monthLength m ∧ monthLength m ≤ 31 := by
  unfold monthLength
  split_ifs <;> omega

theorem add_le_monthStart (m : Int) (n : Nat) : monthStart m + 28 * n ≤ monthStart (m + n) := by
  induction n with
  | zero => simp
  | succ n ih =>
    have hsucc := monthStart_succ (m + n)
    have hlen := monthLength_bounds (m + n)
    push_cast
    rw [← add_assoc, hsucc]
    linarith

theorem monthStart_add_le (m : Int) (n : Nat) : monthStart (m + n) ≤ monthStart m + 31 * n := by
  induction n with
  | zero => simp
  | succ n ih =>
    have hsucc := monthStart_succ (m + n)
    have hlen := monthLength_bounds (m + n)
    push_cast
    rw [← add_assoc, hsucc]
    linarith

theorem monthStart_mono {m m' : Int} (h : m ≤ m') : monthStart m ≤ monthStart m' := by
  obtain ⟨n, rfl⟩ := Int.le.dest h
  have hadd := add_le_monthStart m n
  linarith [Int.natCast_nonneg n]

/-! ## The month of a day -/

/-- The year of a day: whole cycles of 400, 100, 4 years and one year; the last day of a leap year ends the years of its
cycle. -/
def yearOfDay (n : Int) : Int :=
  let r400 := n % 146097
  let r100 := r400 % 36524
  let r4 := r100 % 1461
  400 * (n / 146097) + 100 * (r400 / 36524) + 4 * (r100 / 1461) + r4 / 365 +
    if r400 / 36524 = 4 ∨ r4 / 365 = 4 then 0 else 1

theorem lt_yearStart_succ {y n : Int} (h : n < yearStart y + 365 ∨ (leap y ∧ n < yearStart y + 366)) :
    n < yearStart (y + 1) := by
  rw [yearStart_succ]
  split
  · rcases h with h | ⟨-, h⟩ <;> omega
  · rename_i hleap
    rcases h with h | ⟨h, -⟩
    · exact h
    · exact absurd h hleap

theorem yearOfDay_spec (n : Int) : yearStart (yearOfDay n) ≤ n ∧ n < yearStart (yearOfDay n + 1) := by
  unfold yearOfDay
  obtain ⟨a, r, rfl, hr0, hr⟩ : ∃ a r : Int, n = 146097 * a + r ∧ 0 ≤ r ∧ r < 146097 :=
    ⟨n / 146097, n % 146097, by omega, by omega, by omega⟩
  have ha : (146097 * a + r) / 146097 = a := by omega
  have hra : (146097 * a + r) % 146097 = r := by omega
  rw [ha, hra]
  dsimp only
  obtain ⟨b, r, rfl, hb0, hr0, hr⟩ : ∃ b r' : Int, r = 36524 * b + r' ∧ 0 ≤ b ∧ 0 ≤ r' ∧ r' < 36524 :=
    ⟨r / 36524, r % 36524, by omega, by omega, by omega, by omega⟩
  have hb : (36524 * b + r) / 36524 = b := by omega
  have hrb : (36524 * b + r) % 36524 = r := by omega
  rw [hb, hrb]
  obtain ⟨c, r, rfl, hc0, hr0, hr⟩ : ∃ c r' : Int, r = 1461 * c + r' ∧ 0 ≤ c ∧ 0 ≤ r' ∧ r' < 1461 :=
    ⟨r / 1461, r % 1461, by omega, by omega, by omega, by omega⟩
  have hc : (1461 * c + r) / 1461 = c := by omega
  have hrc : (1461 * c + r) % 1461 = r := by omega
  rw [hc, hrc]
  obtain ⟨d, r, rfl, hd0, hr0, hr⟩ : ∃ d r' : Int, r = 365 * d + r' ∧ 0 ≤ d ∧ 0 ≤ r' ∧ r' < 365 :=
    ⟨r / 365, r % 365, by omega, by omega, by omega, by omega⟩
  have hd : (365 * d + r) / 365 = d := by omega
  rw [hd]
  clear ha hra hb hrb hc hrc hd
  by_cases hcentury : b = 4
  · -- the last day of the 400 years
    obtain ⟨rfl, rfl, rfl⟩ : c = 0 ∧ d = 0 ∧ r = 0 := ⟨by omega, by omega, by omega⟩
    rw [if_pos (Or.inl hcentury)]
    have hstart : yearStart (400 * a + 100 * b + 4 * 0 + 0 + 0) = 146097 * a + 36524 * b - 365 := by
      unfold yearStart
      omega
    refine ⟨by omega, lt_yearStart_succ (Or.inr ⟨⟨by omega, by omega⟩, by omega⟩)⟩
  have hb3 : b ≤ 3 := by omega
  have hc24 : c ≤ 24 := by omega
  by_cases hyear : d = 4
  · -- the last day of a leap year
    have hc23 : c ≤ 23 := by omega
    rw [if_pos (Or.inr hyear)]
    have hstart : yearStart (400 * a + 100 * b + 4 * c + d + 0) = 146097 * a + 36524 * b + 1461 * c + 365 * 3 := by
      have hq4 : (400 * a + 100 * b + 4 * c + d + 0 - 1) / 4 = 100 * a + 25 * b + c := by omega
      have hq100 : (400 * a + 100 * b + 4 * c + d + 0 - 1) / 100 = 4 * a + b := by omega
      have hq400 : (400 * a + 100 * b + 4 * c + d + 0 - 1) / 400 = a := by omega
      unfold yearStart
      rw [hq4, hq100, hq400]
      omega
    refine ⟨by omega, lt_yearStart_succ (Or.inr ⟨⟨by omega, Or.inl (by omega)⟩, by omega⟩)⟩
  · rw [if_neg (by rintro (h | h); exacts [hcentury h, hyear h])]
    have hd3 : d ≤ 3 := by omega
    have hstart : yearStart (400 * a + 100 * b + 4 * c + d + 1) = 146097 * a + 36524 * b + 1461 * c + 365 * d := by
      have hq4 : (400 * a + 100 * b + 4 * c + d + 1 - 1) / 4 = 100 * a + 25 * b + c := by omega
      have hq100 : (400 * a + 100 * b + 4 * c + d + 1 - 1) / 100 = 4 * a + b := by omega
      have hq400 : (400 * a + 100 * b + 4 * c + d + 1 - 1) / 400 = a := by omega
      unfold yearStart
      rw [hq4, hq100, hq400]
      omega
    exact ⟨by omega, lt_yearStart_succ (Or.inl (by omega))⟩

/-- The month of a day. -/
def monthOf (n : Int) : Int :=
  let y := yearOfDay n
  let day := n - yearStart y
  let shift := if day < daysBefore y 2 then 0 else if leap y then 1 else 2
  12 * (y - 1) + ((12 * (day + shift) + 373) / 367 - 1)

theorem monthOf_spec (n : Int) : monthStart (monthOf n) ≤ n ∧ n < monthStart (monthOf n + 1) := by
  obtain ⟨hlow, hhigh⟩ := yearOfDay_spec n
  unfold monthOf
  dsimp only
  generalize yearOfDay n = y at hlow hhigh ⊢
  rw [yearStart_succ] at hhigh
  obtain ⟨day, rfl⟩ : ∃ day, n = yearStart y + day := ⟨n - yearStart y, by omega⟩
  have hday : yearStart y + day - yearStart y = day := by omega
  rw [hday]
  obtain ⟨k, hk⟩ : ∃ k, (12 * (day + if day < daysBefore y 2 then 0 else if leap y then 1 else 2) + 373) / 367 - 1 = k :=
    ⟨_, rfl⟩
  have hbounds : 0 ≤ k ∧ k < 12 ∧ daysBefore y k ≤ day ∧ day < daysBefore y (k + 1) := by
    unfold daysBefore at hk ⊢
    split_ifs at hk hhigh ⊢ <;> omega
  rw [hk]
  obtain ⟨hk0, hk12, hle, hlt⟩ := hbounds
  have hyear : yearOf (12 * (y - 1) + k) = y := by
    unfold yearOf
    omega
  have hmonth : (12 * (y - 1) + k) % 12 = k := by omega
  have hstart : monthStart (12 * (y - 1) + k) = yearStart y + daysBefore y k := by
    unfold monthStart
    rw [hyear, hmonth]
  have hlen : daysBefore y k + monthLength (12 * (y - 1) + k) = daysBefore y (k + 1) := by
    unfold monthLength daysBefore
    rw [hyear, hmonth]
    clear hle hlt hk hlow hhigh hday hstart
    interval_cases k <;> split_ifs <;> omega
  rw [monthStart_succ, hstart]
  constructor
  · linarith
  · linarith

theorem monthOf_eq_iff {n m : Int} : monthOf n = m ↔ monthStart m ≤ n ∧ n < monthStart (m + 1) := by
  constructor
  · rintro rfl
    exact monthOf_spec n
  · rintro ⟨hle, hlt⟩
    obtain ⟨hle', hlt'⟩ := monthOf_spec n
    by_contra hne
    rcases lt_or_gt_of_ne hne with h | h
    · have := monthStart_mono (show monthOf n + 1 ≤ m by omega)
      linarith
    · have := monthStart_mono (show m + 1 ≤ monthOf n by omega)
      linarith

/-! ## Months of a progression -/

theorem monthLength_mod {m m' : Int} (h : m % 12 = m' % 12) (hfeb : m % 12 ≠ 1) : monthLength m = monthLength m' := by
  have hfeb' : m' % 12 ≠ 1 := h ▸ hfeb
  unfold monthLength
  rw [h, if_neg hfeb', if_neg hfeb']

theorem monthLength_long {m : Int} (h : m % 12 ≠ 1) : 30 ≤ monthLength m := by
  unfold monthLength
  rw [if_neg h]
  split_ifs <;> omega

/-- The term of the progression with the same index modulo `p`, among the first `p` after the start. -/
theorem mod_index {p : Int} (hp : 0 < p) (k : Int) : ∃ k' q : Int, k = k' + p * q ∧ 1 ≤ k' ∧ k' ≤ p := by
  refine ⟨(k - 1) % p + 1, (k - 1) / p, ?_, ?_, ?_⟩
  · have := Int.emod_add_mul_ediv (k - 1) p
    linarith
  · have := Int.emod_nonneg (k - 1) hp.ne'
    linarith
  · have := Int.emod_lt_of_pos (k - 1) hp
    linarith

/-- If a year of a progression is a leap year, one of its next sixteen is. -/
theorem exists_leap {y m k : Int} (h : leap (y + k * m)) : ∃ k', 1 ≤ k' ∧ k' ≤ 16 ∧ leap (y + k' * m) := by
  obtain ⟨h4, hcentury⟩ := h
  obtain ⟨k1, q, rfl, hk1, hk4⟩ := mod_index (p := 4) (by decide) k
  have hterm : y + (k1 + 4 * q) * m = y + k1 * m + 4 * (q * m) := by ring
  -- the years with the same index modulo 4 are divisible by 4
  have hdiv : (y + k1 * m) % 4 = 0 := by omega
  by_cases h25 : (y + k1 * m) % 25 = 0
  · by_cases hm : m % 25 = 0
    · -- every century of the progression: one index in sixteen is a multiple of 400
      obtain ⟨e, rfl⟩ : ∃ e, m = 25 * e := ⟨m / 25, by omega⟩
      obtain ⟨k2, q2, hk, hk2, hk16⟩ := mod_index (p := 16) (by decide) (k1 + 4 * q)
      refine ⟨k2, hk2, hk16, ?_⟩
      have hsum : y + (k1 + 4 * q) * (25 * e) = y + k2 * (25 * e) + 400 * (q2 * e) := by
        rw [hk]
        ring
      have hcent : (y + (k1 + 4 * q) * (25 * e)) % 100 = 0 := by
        have : y + (k1 + 4 * q) * (25 * e) = y + k1 * (25 * e) + 100 * (q * e) := by ring
        omega
      unfold leap
      omega
    · -- the century four terms on is none
      refine ⟨k1 + 4, by omega, by omega, ?_, Or.inl ?_⟩
      · have : y + (k1 + 4) * m = y + k1 * m + 4 * m := by ring
        omega
      · have : y + (k1 + 4) * m = y + k1 * m + 4 * m := by ring
        omega
  · exact ⟨k1, hk1, by omega, hdiv, Or.inl (by omega)⟩

/-- **A length that a month of a progression has is had by one of its next sixteen months.** -/
theorem exists_long_month {m n k len : Int} (h : len ≤ monthLength (m + k * n)) :
    ∃ k', 1 ≤ k' ∧ k' ≤ 16 ∧ len ≤ monthLength (m + k' * n) := by
  obtain ⟨k1, q, rfl, hk1, hk12⟩ := mod_index (p := 12) (by decide) k
  have hmod : (m + (k1 + 12 * q) * n) % 12 = (m + k1 * n) % 12 := by
    have : m + (k1 + 12 * q) * n = m + k1 * n + 12 * (q * n) := by ring
    omega
  by_cases hfeb : (m + k1 * n) % 12 = 1
  · by_cases hnext : (m + (k1 + 1) * n) % 12 = 1
    · -- the months are all Februaries
      have hstep : (k1 + 1) * n = k1 * n + n := by ring
      obtain ⟨e, rfl⟩ : ∃ e, n = 12 * e := ⟨n / 12, by omega⟩
      obtain ⟨f, rfl⟩ : ∃ f, m = 12 * f + 1 := ⟨m / 12, by
        have : k1 * (12 * e) = 12 * (k1 * e) := by ring
        omega⟩
      have hmonth : ∀ j : Int, (12 * f + 1 + j * (12 * e)) % 12 = 1 ∧ yearOf (12 * f + 1 + j * (12 * e)) = f + 1 + j * e := by
        intro j
        have : j * (12 * e) = 12 * (j * e) := by ring
        unfold yearOf
        omega
      have hlen : ∀ j : Int, monthLength (12 * f + 1 + j * (12 * e)) = if leap (f + 1 + j * e) then 29 else 28 := by
        intro j
        unfold monthLength
        rw [if_pos (hmonth j).1, (hmonth j).2]
      rw [hlen] at h
      split at h
      · rename_i hleap
        obtain ⟨k', hk', hk16, hleap'⟩ := exists_leap hleap
        exact ⟨k', hk', hk16, by rw [hlen, if_pos hleap']; exact h⟩
      · refine ⟨1, by decide, by decide, h.trans ?_⟩
        exact (monthLength_bounds _).1
    · refine ⟨k1 + 1, by omega, by omega, h.trans ?_⟩
      have hshort : monthLength (m + (k1 + 12 * q) * n) ≤ 29 := by
        unfold monthLength
        rw [if_pos (hmod.trans hfeb)]
        split_ifs <;> omega
      have := monthLength_long hnext
      omega
  · exact ⟨k1, hk1, by omega, h.trans (monthLength_mod hmod (hmod ▸ hfeb)).le⟩

end Wrkflw.Library.Calendar
