import Mathlib.Data.List.Nodup

/-!
# Tables keyed by a text

A table is a list of rows with at most one row for a key:

* `putBy` : insert, or replace what stands under the key; `nodup_putBy` : the keys stay distinct;
* `orderBy` : the rows in the order of their keys; `filter_orderBy` : a selection may be made before the ordering or after;
* `map_putBy`, `map_orderBy` : both commute with a map of the rows that keeps the keys.
-/

namespace Wrkflw.Library

variable {α β : Type} {key : α → String} {key' : β → String} {f : α → β}

/-- Insert, or replace what stands under the key. -/
def putBy (key : α → String) (x : α) (l : List α) : List α :=
  if l.any (fun y => key y == key x) then l.map (fun y => if key y == key x then x else y) else l ++ [x]

/-- `ORDER BY key`. -/
def orderBy (key : α → String) (l : List α) : List α := l.mergeSort (fun x y => decide (key x ≤ key y))

theorem map_putBy (hkey : ∀ x, key' (f x) = key x) (x : α) (l : List α) :
    (putBy key x l).map f = putBy key' (f x) (l.map f) := by
  have hany : (l.map f).any (fun y => key' y == key' (f x)) = l.any (fun y => key y == key x) := by
    rw [List.any_map]
    congr 1
    funext y
    rw [Function.comp_apply, hkey, hkey]
  unfold putBy
  rw [hany]
  split
  · rw [List.map_map, List.map_map]
    refine List.map_congr_left (fun y _ => ?_)
    rw [Function.comp_apply, Function.comp_apply, hkey, hkey]
    split <;> rfl
  · rw [List.map_append, List.map_singleton]

theorem map_key_putBy (x : α) (l : List α) :
    (putBy key x l).map key = if key x ∈ l.map key then l.map key else l.map key ++ [key x] := by
  have hmem : (l.any (fun y => key y == key x) = true) ↔ key x ∈ l.map key := by
    rw [List.any_eq_true, List.mem_map]
    simp only [beq_iff_eq]
  unfold putBy
  by_cases hin : key x ∈ l.map key
  · rw [if_pos (hmem.mpr hin), if_pos hin, List.map_map]
    refine List.map_congr_left (fun y _ => ?_)
    rw [Function.comp_apply]
    split
    · rename_i he
      exact (beq_iff_eq.mp he).symm
    · rfl
  · rw [if_neg (fun h => hin (hmem.mp h)), if_neg hin, List.map_append, List.map_singleton]

theorem nodup_putBy {l : List α} (h : (l.map key).Nodup) (x : α) : ((putBy key x l).map key).Nodup := by
  rw [map_key_putBy]
  split
  · exact h
  · rename_i hin
    exact List.Nodup.append h (List.nodup_singleton _) (List.disjoint_singleton.mpr hin)

theorem mem_putBy {x y : α} {l : List α} (h : y ∈ putBy key x l) : y = x ∨ y ∈ l := by
  unfold putBy at h
  split at h
  · obtain ⟨z, hz, hy⟩ := List.mem_map.mp h
    split at hy
    · exact Or.inl hy.symm
    · exact Or.inr (hy ▸ hz)
  · rcases List.mem_append.mp h with h | h
    · exact Or.inr h
    · exact Or.inl (List.mem_singleton.mp h)

theorem map_orderBy (hkey : ∀ x, key' (f x) = key x) (l : List α) : (orderBy key l).map f = orderBy key' (l.map f) := by
  unfold orderBy
  refine List.map_mergeSort (fun x _ y _ => ?_)
  rw [hkey, hkey]

/-- Under distinct keys a selection may be made before the ordering or after it. -/
theorem filter_orderBy {l : List α} (h : (l.map key).Nodup) (p : α → Bool) :
    (orderBy key l).filter p = orderBy key (l.filter p) := by
  have htrans : ∀ x y z : α, decide (key x ≤ key y) = true → decide (key y ≤ key z) = true →
    decide (key x ≤ key z) = true := by
    intro x y z hxy hyz
    simp only [decide_eq_true_eq] at hxy hyz ⊢
    exact String.le_trans hxy hyz
  have htotal : ∀ x y : α, (decide (key x ≤ key y) || decide (key y ≤ key x)) = true := by
    intro x y
    simp only [Bool.or_eq_true, decide_eq_true_eq]
    exact String.le_total _ _
  unfold orderBy
  refine List.Perm.eq_of_pairwise ?_ ((List.pairwise_mergeSort htrans htotal l).filter p)
    (List.pairwise_mergeSort htrans htotal (l.filter p)) ?_
  · intro x y hx hy hxy hyx
    simp only [decide_eq_true_eq] at hxy hyx
    have hx' := List.mem_mergeSort.mp (List.mem_filter.mp hx).1
    have hy' := List.mem_of_mem_filter (List.mem_mergeSort.mp hy)
    exact List.inj_on_of_nodup_map h hx' hy' (String.le_antisymm hxy hyx)
  · exact ((List.mergeSort_perm l _).filter p).trans (List.mergeSort_perm _ _).symm

end Wrkflw.Library
