import Mathlib.Data.List.Basic
import Mathlib.Logic.Function.Iterate

/-!
# Batches from the front of a queue

At each round the first `b` of a queue are tried. What succeeds leaves, what fails keeps its place.

* `leave` : what one round leaves;
* `Blocked` : something that would succeed has `b` failing ones before it;
* `cleared_iff` : after some number of rounds nothing is left that would succeed exactly where nothing is blocked.
-/

namespace Wrkflw.Library

variable {α : Type} (good : α → Bool) (b : Nat)

def leave (l : List α) : List α := (l.take b).filter (fun x => !good x) ++ l.drop b

def failing (l : List α) : Nat := (l.filter (fun x => !good x)).length

def Blocked (l : List α) : Prop := ∃ pre x post, l = pre ++ x :: post ∧ good x = true ∧ b ≤ failing good pre

variable {good b} {l : List α}

theorem failing_append (k l : List α) : failing good (k ++ l) = failing good k + failing good l := by
  unfold failing
  rw [List.filter_append, List.length_append]

theorem failing_le (l : List α) : failing good l ≤ l.length := List.length_filter_le _ _

theorem failing_filter (l : List α) : failing good (l.filter (fun x => !good x)) = failing good l := by
  unfold failing
  rw [List.filter_filter]
  simp only [Bool.and_self]

theorem failing_eq_length {l : List α} (h : ∀ x ∈ l, good x = false) : failing good l = l.length := by
  unfold failing
  rw [List.filter_eq_self.mpr (fun x hx => by rw [h x hx]; rfl)]

/-- A round neither blocks nor frees. -/
theorem blocked_leave_iff : Blocked good b (leave good b l) ↔ Blocked good b l := by
  constructor
  · rintro ⟨pre, x, post, heq, hx, hpre⟩
    rcases List.append_eq_append_iff.mp heq with ⟨q, hq, hdrop⟩ | ⟨q, hq, hcons⟩
    · -- `x` is behind the batch
      refine ⟨l.take b ++ q, x, post, ?_, hx, ?_⟩
      · rw [List.append_assoc, ← hdrop, List.take_append_drop]
      · rwa [hq, failing_append, failing_filter, ← failing_append] at hpre
    · cases q with
      | nil =>
        refine ⟨l.take b, x, post, ?_, hx, ?_⟩
        · rw [hcons, List.nil_append, List.take_append_drop]
        · rw [← failing_filter, hq, List.append_nil]
          exact hpre
      | cons y q =>
        -- what failed is not good
        have hmem : x ∈ (l.take b).filter (fun x => !good x) := by
          rw [hq, (List.cons.inj hcons).1]
          exact List.mem_append_right _ List.mem_cons_self
        rw [List.mem_filter, hx] at hmem
        cases hmem.2
  · rintro ⟨pre, x, post, rfl, hx, hpre⟩
    have hlen : b ≤ pre.length := Nat.le_trans hpre (failing_le pre)
    refine ⟨(pre.take b).filter (fun x => !good x) ++ pre.drop b, x, post, ?_, hx, ?_⟩
    · unfold leave
      rw [List.take_append_of_le_length hlen, List.drop_append_of_le_length hlen, List.append_assoc]
    · rwa [failing_append, failing_filter, ← failing_append, List.take_append_drop]

theorem blocked_iterate_iff (n : Nat) : Blocked good b ((leave good b)^[n] l) ↔ Blocked good b l := by
  induction n generalizing l with
  | zero => rfl
  | succ n ih =>
    rw [Function.iterate_succ_apply, ih]
    exact blocked_leave_iff

/-- The first that would succeed. -/
theorem exists_first_good : ∀ {l : List α}, (∃ x ∈ l, good x = true) →
    ∃ pre x post, l = pre ++ x :: post ∧ (∀ y ∈ pre, good y = false) ∧ good x = true := by
  intro l
  induction l with
  | nil =>
    rintro ⟨x, hx, _⟩
    cases hx
  | cons y l ih =>
    intro h
    cases hy : good y with
    | true => exact ⟨[], y, l, rfl, fun z hz => absurd hz List.not_mem_nil, hy⟩
    | false =>
      obtain ⟨x, hx, hgood⟩ := h
      rcases List.mem_cons.mp hx with rfl | hmem
      · rw [hy] at hgood
        cases hgood
      · obtain ⟨pre, x, post, rfl, hpre, hgx⟩ := ih ⟨x, hmem, hgood⟩
        exact ⟨y :: pre, x, post, rfl, List.forall_mem_cons.mpr ⟨hy, hpre⟩, hgx⟩

/-- Where nothing is blocked and something would succeed, a round takes something out. -/
theorem length_leave_lt (h : ¬ Blocked good b l) (hgood : ∃ x ∈ l, good x = true) : (leave good b l).length < l.length := by
  obtain ⟨pre, x, post, rfl, hpre, hx⟩ := exists_first_good hgood
  have hlen : pre.length < b := by
    rw [← failing_eq_length hpre]
    by_contra hle
    exact h ⟨pre, x, post, rfl, hx, Nat.le_of_not_lt hle⟩
  have hmem : x ∈ (pre ++ x :: post).take b := by
    obtain ⟨k, rfl⟩ := Nat.exists_eq_add_of_lt hlen
    rw [List.take_append, List.take_of_length_le (by omega),
      show pre.length + k + 1 - pre.length = k + 1 by omega, List.take_succ_cons]
    exact List.mem_append_right _ List.mem_cons_self
  have hlt : (((pre ++ x :: post).take b).filter (fun x => !good x)).length < ((pre ++ x :: post).take b).length := by
    rw [List.length_filter_lt_length_iff_exists]
    exact ⟨x, hmem, by rw [hx]; decide⟩
  calc (leave good b (pre ++ x :: post)).length
      < ((pre ++ x :: post).take b).length + ((pre ++ x :: post).drop b).length := by
        unfold leave
        rw [List.length_append]
        omega
    _ = (pre ++ x :: post).length := by rw [← List.length_append, List.take_append_drop]

theorem cleared_of_not_blocked : ∀ (k : Nat) {l : List α}, l.length ≤ k → ¬ Blocked good b l →
    ∃ n, ∀ x ∈ (leave good b)^[n] l, good x = false := by
  intro k
  induction k with
  | zero =>
    intro l hk _
    refine ⟨0, fun x hx => ?_⟩
    rw [List.length_eq_zero_iff.mp (Nat.le_zero.mp hk)] at hx
    cases hx
  | succ k ih =>
    intro l hk h
    by_cases hgood : ∃ x ∈ l, good x = true
    · have hlt := length_leave_lt h hgood
      obtain ⟨n, hn⟩ := ih (by omega) (fun hb => h (blocked_leave_iff.mp hb))
      exact ⟨n + 1, by rwa [Function.iterate_succ_apply]⟩
    · refine ⟨0, fun x hx => ?_⟩
      by_contra hne
      exact hgood ⟨x, hx, Bool.not_eq_false _ |>.mp hne⟩

theorem cleared_iff : (∃ n, ∀ x ∈ (leave good b)^[n] l, good x = false) ↔ ¬ Blocked good b l := by
  refine ⟨?_, cleared_of_not_blocked l.length (Nat.le_refl _)⟩
  rintro ⟨n, hn⟩ hblocked
  obtain ⟨pre, x, post, heq, hx, _⟩ := (blocked_iterate_iff n).mpr hblocked
  have := hn x (by rw [heq]; exact List.mem_append_right _ List.mem_cons_self)
  rw [hx] at this
  cases this

end Wrkflw.Library
