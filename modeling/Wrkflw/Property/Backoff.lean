import Wrkflw.Store.Outbox
import Mathlib.Tactic.Linarith
import Mathlib.Tactic.Ring

/-!
# The backoff of the relay

The delay is doubled in a word of 64 bits, and the cap is looked at only after the doubling. A delay below the cap may so be
doubled past the word: the product wraps to a negative value, which no cap stops.

* `ExactBackoff` : the delay is the capped exponential, at every retry;
* `doubled_eq_min`, `doubled_wraps` : where one of the products lies between the cap and the end of the word, and where the
  first product that reaches the cap leaves the word;
* `relay_backoff_exact_iff` : the law holds of a configuration exactly where one of the products lies there.
-/

namespace Wrkflw

/-- The delays of a relay are its base doubled at each retry and cut at its maximum. -/
structure ExactBackoff (r : Relay) : Prop where
  exact : ∀ k : Nat, k < 2 ^ 63 → relayBackoff k r.base r.max = min (r.base * 2 ^ k) r.max
  nonneg : ∀ k : Nat, k < 2 ^ 63 → 0 ≤ relayBackoff k r.base r.max
  capped : ∀ k : Nat, k < 2 ^ 63 → relayBackoff k r.base r.max ≤ r.max
  grows : ∀ k j : Nat, k ≤ j → j < 2 ^ 63 → relayBackoff k r.base r.max ≤ relayBackoff j r.base r.max

/-! ## The doubling loop -/

theorem wrap64_of_lt {n : Int} (h0 : 0 ≤ n) (h : n < 2 ^ 63) : wrap64 n = n := by
  unfold wrap64
  apply Int.bmod_eq_of_le <;> omega

/-- Between the ends of the signed and of the unsigned word a value is read as negative. -/
theorem wrap64_neg {n : Int} (h : 2 ^ 63 ≤ n) (h' : n < 2 ^ 64) : wrap64 n < 0 := by
  unfold wrap64
  rw [Int.bmod_def]
  split <;> omega

theorem mul_two_pow_succ (d : Int) (n : Nat) : d * 2 ^ (n + 1) = d * 2 * 2 ^ n := by
  rw [pow_succ]
  ring

theorem le_mul_two_pow {d : Int} (h : 0 ≤ d) (n : Nat) : d ≤ d * 2 ^ n := by
  have h1 : (1 : Int) ≤ 2 ^ n := one_le_pow₀ (by decide)
  nlinarith

theorem doubled_eq_min {m : Int} {j : Nat} : ∀ (n : Nat) {d : Int}, 0 < d → 1 ≤ j → m ≤ d * 2 ^ j → d * 2 ^ j < 2 ^ 63 →
    doubled m n d = min (d * 2 ^ n) m := by
  intro n
  induction n generalizing j with
  | zero =>
    intro d _ _ _ _
    rw [doubled, pow_zero, mul_one]
    split
    · next hcap => exact (min_eq_right (le_of_lt hcap)).symm
    · next hcap => exact (min_eq_left (not_lt.mp hcap)).symm
  | succ n ih =>
    intro d hd hj hm hlt
    obtain ⟨i, rfl⟩ := Nat.exists_eq_add_of_le' hj
    rw [mul_two_pow_succ] at hm hlt
    have hfit : wrap64 (d * 2) = d * 2 := wrap64_of_lt (by omega) (lt_of_le_of_lt (le_mul_two_pow (by omega) i) hlt)
    rw [doubled, hfit, mul_two_pow_succ]
    split
    · next hcap => exact (min_eq_right (le_trans hcap (le_mul_two_pow (by omega) n))).symm
    · next hcap =>
      -- the cap is not reached yet, so the product that reaches it comes later
      cases i with
      | zero => exact absurd (by simpa using hm) hcap
      | succ i => exact ih (by omega) (by omega) hm hlt

/-- The first product that reaches the cap is out of the word: the loop goes past it. -/
theorem doubled_wraps {m : Int} (hm : m < 2 ^ 63) : ∀ (n : Nat) {d : Int}, 0 < d → d < 2 ^ 63 →
    (∀ i, 1 ≤ i → i ≤ n → d * 2 ^ i < m) → 2 ^ 63 ≤ d * 2 ^ (n + 1) → 0 < m → doubled m (n + 1) d < 0 := by
  intro n
  induction n with
  | zero =>
    intro d hd hlt _ hout hm0
    have hneg : wrap64 (d * 2) < 0 := wrap64_neg (by simpa using hout) (by omega)
    have hlow : wrap64 (d * 2) < m := lt_trans hneg hm0
    rw [doubled, if_neg (not_le.mpr hlow), doubled, if_neg (not_lt.mpr hlow.le)]
    exact hneg
  | succ n ih =>
    intro d hd hlt hbelow hout hm0
    have h2 : d * 2 < m := by simpa using hbelow 1 (by omega) (by omega)
    have hfit : wrap64 (d * 2) = d * 2 := wrap64_of_lt (by omega) (by omega)
    rw [doubled, hfit, if_neg (not_le.mpr h2)]
    refine ih (by omega) (by omega) (fun i h1 hi => ?_) (by rwa [← mul_two_pow_succ]) hm0
    rw [← mul_two_pow_succ]
    exact hbelow (i + 1) (by omega) (by omega)

/-! ## The law -/

theorem relayBackoff_eq {base m : Int} (h : 0 < base) (k : Nat) : relayBackoff k base m = doubled m k base := by
  rw [relayBackoff, if_neg (not_or.mpr ⟨not_le.mpr h, not_lt.mpr (Int.natCast_nonneg k)⟩), Int.toNat_natCast]

theorem exact_of_product {r : Relay} (hbase : 0 < r.base) (hmax : 0 < r.max)
    (h : ∃ j : Nat, 1 ≤ j ∧ r.max ≤ r.base * 2 ^ j ∧ r.base * 2 ^ j < 2 ^ 63) : ExactBackoff r := by
  obtain ⟨j, hj, hcap, hlt⟩ := h
  have hmin : ∀ k : Nat, relayBackoff k r.base r.max = min (r.base * 2 ^ k) r.max := by
    intro k
    rw [relayBackoff_eq hbase, doubled_eq_min k hbase hj hcap hlt]
  have hpos : ∀ k : Nat, (0 : Int) < 2 ^ k := fun k => pow_pos (by decide) k
  refine ⟨fun k _ => hmin k, fun k _ => ?_, fun k _ => ?_, fun k i hki _ => ?_⟩
  · rw [hmin]
    exact le_min (mul_pos hbase (hpos k)).le hmax.le
  · rw [hmin]
    exact min_le_right _ _
  · rw [hmin, hmin]
    have hpow : (2 : Int) ^ k ≤ 2 ^ i := pow_le_pow_right₀ (by decide) hki
    exact min_le_min_right _ (mul_le_mul_of_nonneg_left hpow hbase.le)

theorem product_of_exact {r : Relay} (hbase : 0 < r.base) (hlt : r.base < 2 ^ 63) (hmax : 0 < r.max)
    (hmaxlt : r.max < 2 ^ 63) (h : ExactBackoff r) :
    ∃ j : Nat, 1 ≤ j ∧ r.max ≤ r.base * 2 ^ j ∧ r.base * 2 ^ j < 2 ^ 63 := by
  -- the first product that reaches the cap
  have hfar : r.max ≤ r.base * 2 ^ (62 + 1) := by
    have hone : (1 : Int) ≤ r.base := hbase
    calc r.max ≤ 1 * 2 ^ 63 := by simpa using hmaxlt.le
      _ ≤ r.base * 2 ^ 63 := mul_le_mul_of_nonneg_right hone (by decide)
  have hreach : ∃ n : Nat, r.max ≤ r.base * 2 ^ (n + 1) := ⟨62, hfar⟩
  let n := Nat.find hreach
  have hn : r.max ≤ r.base * 2 ^ (n + 1) := Nat.find_spec hreach
  have hbelow : ∀ i, 1 ≤ i → i ≤ n → r.base * 2 ^ i < r.max := by
    intro i h1 hi
    obtain ⟨i, rfl⟩ := Nat.exists_eq_add_of_le' h1
    exact not_le.mp (Nat.find_min hreach (by omega))
  refine ⟨n + 1, by omega, hn, ?_⟩
  by_contra hout
  have hn62 : n ≤ 62 := Nat.find_min' hreach hfar
  have hneg := doubled_wraps hmaxlt n hbase hlt hbelow (not_lt.mp hout) hmax
  have hpos := h.nonneg (n + 1) (by omega)
  rw [relayBackoff_eq hbase] at hpos
  exact absurd hneg (not_lt.mpr hpos)

/-- A relay configured with a base and a maximum waits by the capped exponential exactly where one of the products of the
base lies between the maximum and the end of the word. -/
theorem relay_backoff_exact_iff (r : Relay) (base maxInterval : Duration) (hbase : 0 < base) (hbase' : base < 2 ^ 63)
    (hmax : 0 < maxInterval) (hmax' : maxInterval < 2 ^ 63) :
    ExactBackoff (withRelayBackoff base maxInterval r) ↔
      ∃ j : Nat, 1 ≤ j ∧ maxInterval ≤ base * 2 ^ j ∧ base * 2 ^ j < 2 ^ 63 := by
  have hb : (withRelayBackoff base maxInterval r).base = base := if_pos hbase
  have hm : (withRelayBackoff base maxInterval r).max = maxInterval := if_pos hmax
  constructor
  · intro h
    have := product_of_exact (by rwa [hb]) (by rwa [hb]) (by rwa [hm]) (by rwa [hm]) h
    rwa [hb, hm] at this
  · intro h
    exact exact_of_product (by rwa [hb]) (by rwa [hm]) (by rwa [hb, hm])

def defaultRelay : Relay := { batch := 100, maxDel := 10, base := 1000000000, max := 60000000000 }

/-- The defaults of the source. -/
theorem default_backoff_exact : ExactBackoff (withRelayBackoff 1000000000 60000000000 defaultRelay) :=
  (relay_backoff_exact_iff defaultRelay 1000000000 60000000000 (by decide) (by decide) (by decide) (by decide)).mpr
    ⟨6, by decide, by decide, by decide⟩

/-- The greatest maximum there is, and half of it as the base: the first retry is delayed by a negative time. -/
theorem wide_backoff_wraps :
    relayBackoff 1 (withRelayBackoff (2 ^ 62) (2 ^ 63 - 1) defaultRelay).base
        (withRelayBackoff (2 ^ 62) (2 ^ 63 - 1) defaultRelay).max = -2 ^ 63 ∧
      ¬ ExactBackoff (withRelayBackoff (2 ^ 62) (2 ^ 63 - 1) defaultRelay) := by
  have hneg : relayBackoff 1 (withRelayBackoff (2 ^ 62) (2 ^ 63 - 1) defaultRelay).base
      (withRelayBackoff (2 ^ 62) (2 ^ 63 - 1) defaultRelay).max = -2 ^ 63 := by decide
  refine ⟨hneg, fun h => ?_⟩
  have := h.nonneg 1 (by decide)
  rw [Nat.cast_one, hneg] at this
  exact absurd this (by decide)

end Wrkflw
