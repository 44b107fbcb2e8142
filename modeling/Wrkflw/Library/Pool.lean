import Mathlib.Data.List.Basic
import Mathlib.Tactic.Common

/-!
# Pools of running calls

Calls that run beside each other are a list; a step of one of them replaces it at its place or takes it away.

* `split_of_getElem?` : the list around the call at a place, with what replaces it and without it;
* `getElem?_set_cases` : a place after a step holds the call that stepped, or what it held before;
* `forall_mem_concat`, `forall_mem_set`, `forall_mem_eraseIdx` : what holds of every call holds after a step if it
  holds of the call that came or that stepped;
* `perm_flatMap_set`, `perm_flatMap_eraseIdx` : what the calls have done together, after a step.
-/

namespace Wrkflw.Library

open scoped List

variable {α β : Type} {l : List α} {i : Nat} {a : α}

theorem split_of_getElem? (h : l[i]? = some a) :
    ∃ before after, l = before ++ a :: after ∧ (∀ b, l.set i b = before ++ b :: after) ∧ l.eraseIdx i = before ++ after := by
  obtain ⟨hi, rfl⟩ := List.getElem?_eq_some_iff.mp h
  refine ⟨l.take i, l.drop (i + 1), ?_, fun b => ?_, List.eraseIdx_eq_take_drop_succ _ _⟩
  · rw [← List.drop_eq_getElem_cons hi, List.take_append_drop]
  · rw [List.set_eq_take_append_cons_drop, if_pos hi]

theorem getElem?_set_cases {b c : α} {j : Nat} (h : (l.set i b)[j]? = some c) :
    (j = i ∧ c = b) ∨ (j ≠ i ∧ l[j]? = some c) := by
  rw [List.getElem?_set] at h
  split at h
  · rename_i hij
    split at h
    · exact .inl ⟨hij.symm, (Option.some.inj h).symm⟩
    · cases h
  · rename_i hij
    exact .inr ⟨Ne.symm hij, h⟩

theorem forall_mem_concat {P : α → Prop} (hl : ∀ x ∈ l, P x) {b : α} (hb : P b) : ∀ x ∈ l ++ [b], P x := by
  intro x hx
  rcases List.mem_append.mp hx with hx | hx
  · exact hl x hx
  · rw [List.mem_singleton.mp hx]
    exact hb

theorem forall_mem_set {P : α → Prop} (hl : ∀ x ∈ l, P x) {b : α} (hb : P b) : ∀ x ∈ l.set i b, P x := by
  intro x hx
  rcases List.mem_or_eq_of_mem_set hx with hx | rfl
  · exact hl x hx
  · exact hb

theorem forall_mem_eraseIdx {P : α → Prop} (hl : ∀ x ∈ l, P x) : ∀ x ∈ l.eraseIdx i, P x :=
  fun x hx => hl x (List.mem_of_mem_eraseIdx hx)

theorem perm_flatMap_set (h : l[i]? = some a) (f : α → List β) {b : α} {n : List β} (hf : (f b).Perm (f a ++ n)) :
    ((l.set i b).flatMap f).Perm (l.flatMap f ++ n) := by
  obtain ⟨before, after, hl, hset, -⟩ := split_of_getElem? h
  rw [hset, hl, List.flatMap_append, List.flatMap_append, List.flatMap_cons, List.flatMap_cons, List.append_assoc,
    List.append_assoc]
  refine List.Perm.append_left _ ?_
  calc f b ++ after.flatMap f
      ~ (f a ++ n) ++ after.flatMap f := hf.append_right _
    _ = f a ++ (n ++ after.flatMap f) := List.append_assoc _ _ _
    _ ~ f a ++ (after.flatMap f ++ n) := List.perm_append_comm.append_left _

theorem perm_flatMap_eraseIdx (h : l[i]? = some a) (f : α → List β) :
    (l.flatMap f).Perm (f a ++ (l.eraseIdx i).flatMap f) := by
  obtain ⟨before, after, hl, -, herase⟩ := split_of_getElem? h
  rw [herase, hl, List.flatMap_append, List.flatMap_append, List.flatMap_cons]
  calc before.flatMap f ++ (f a ++ after.flatMap f)
      = (before.flatMap f ++ f a) ++ after.flatMap f := (List.append_assoc _ _ _).symm
    _ ~ (f a ++ before.flatMap f) ++ after.flatMap f := List.perm_append_comm.append_right _
    _ = f a ++ (before.flatMap f ++ after.flatMap f) := List.append_assoc _ _ _

end Wrkflw.Library
