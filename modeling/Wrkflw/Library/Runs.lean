import Mathlib.Tactic.Common

/-!
# Runs of a transition function

A transition function takes a state and a choice to the next state, if the choice can be made:

* `Runs` : the choices lead from one state to another, and each meets a condition on the state it is made in;
* `Runs.invariant` : what every transition keeps holds after every run;
* `plays`, `runs_of_plays` : the state after given choices, computed.
-/

namespace Wrkflw.Library

variable {σ τ : Type} {next : σ → τ → Option σ}

inductive Runs (next : σ → τ → Option σ) (P : σ → τ → Prop) (x : σ) : List τ → σ → Prop
  | refl : Runs next P x [] x
  | tail {choices : List τ} {y z : σ} (h : Runs next P x choices y) (choice : τ) (hP : P y choice)
      (hnext : next y choice = some z) : Runs next P x (choices ++ [choice]) z

theorem Runs.invariant {P : σ → τ → Prop} {x y : σ} {choices : List τ} {I : σ → Prop} (h : Runs next P x choices y) (hx : I x)
    (hnext : ∀ {y z : σ} {choice}, I y → P y choice → next y choice = some z → I z) : I y := by
  induction h with
  | refl => exact hx
  | tail _ choice hP hs ih => exact hnext ih hP hs

/-- The state after the choices, if each can be made and meets the condition. -/
def play (next : σ → τ → Option σ) (P : σ → τ → Prop) [∀ x choice, Decidable (P x choice)] (x : σ) : List τ → Option σ
  | [] => some x
  | choice :: choices => if P x choice then (next x choice).bind (fun z => play next P z choices) else none

theorem runs_of_play {P : σ → τ → Prop} [∀ x choice, Decidable (P x choice)] {x y z : σ} {before choices : List τ}
    (hrun : Runs next P x before y) (h : play next P y choices = some z) : Runs next P x (before ++ choices) z := by
  induction choices generalizing before y with
  | nil =>
    cases h
    rw [List.append_nil]
    exact hrun
  | cons choice choices ih =>
    unfold play at h
    split at h
    · rename_i hP
      obtain ⟨y', hstep, hrest⟩ := Option.bind_eq_some_iff.mp h
      have hlater := ih (hrun.tail choice hP hstep) hrest
      rw [List.append_assoc] at hlater
      exact hlater
    · cases h

/-- The choices can be made, and lead to a state with the property. -/
def plays (next : σ → τ → Option σ) (P : σ → τ → Prop) [∀ x choice, Decidable (P x choice)] (x : σ) (choices : List τ)
    (Q : σ → Bool) : Bool :=
  match play next P x choices with
  | some y => Q y
  | none => false

theorem runs_of_plays {P : σ → τ → Prop} [∀ x choice, Decidable (P x choice)] {x : σ} {choices : List τ} {Q : σ → Bool}
    (h : plays next P x choices Q = true) : ∃ y, Runs next P x choices y ∧ Q y = true := by
  unfold plays at h
  split at h
  · rename_i y hy
    exact ⟨y, runs_of_play .refl hy, h⟩
  · cases h

end Wrkflw.Library
