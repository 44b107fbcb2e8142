import Mathlib.Data.List.Nodup
import Mathlib.Data.List.Perm.Subperm
import Mathlib.Data.List.Basic
import Mathlib.Logic.Relation

/-!
# Breadth-first search over a finite successor list

`reach succ fuel seed` is the worklist loop: pop a vertex, append its successors that were not seen
before to the queue and to the visited list. `mem_reach_iff` : with one unit of fuel for each vertex
that can occur, the visited list is exactly the set of vertices the seed leads to.
-/

namespace Wrkflw.Library

variable {α : Type} [DecidableEq α]

/-- The members of `ys` that are neither in `seen` nor repeated. -/
def freshOf (seen : List α) : List α → List α
  | [] => []
  | y :: ys => if y ∈ seen then freshOf seen ys else y :: freshOf (seen ++ [y]) ys

/-- The worklist loop: `queue` still to pop, `seen` everything enqueued so far. -/
def expand (succ : α → List α) : Nat → List α → List α → List α
  | 0, _, seen => seen
  | _ + 1, [], seen => seen
  | n + 1, x :: queue, seen =>
    let new := freshOf seen (succ x)
    expand succ n (queue ++ new) (seen ++ new)

def reach (succ : α → List α) (fuel : Nat) (seed : α) : List α := expand succ fuel [seed] [seed]

theorem mem_freshOf {y : α} : ∀ {seen ys : List α}, y ∈ freshOf seen ys ↔ y ∈ ys ∧ y ∉ seen := by
  intro seen ys
  induction ys generalizing seen with
  | nil => simp [freshOf]
  | cons a ys ih =>
    by_cases ha : a ∈ seen
    · simp only [freshOf, ha, if_true, ih, List.mem_cons]
      constructor
      · rintro ⟨h, hn⟩; exact ⟨Or.inr h, hn⟩
      · rintro ⟨rfl | h, hn⟩
        · exact absurd ha hn
        · exact ⟨h, hn⟩
    · simp only [freshOf, ha, if_false, List.mem_cons, ih, List.mem_append, List.mem_nil_iff, or_false,
        not_or]
      constructor
      · rintro (rfl | ⟨h, hn, -⟩)
        · exact ⟨Or.inl rfl, ha⟩
        · exact ⟨Or.inr h, hn⟩
      · rintro ⟨rfl | h, hn⟩
        · exact Or.inl rfl
        · by_cases hya : y = a
          · exact Or.inl hya
          · exact Or.inr ⟨h, hn, hya⟩

theorem nodup_append_freshOf {seen ys : List α} (h : seen.Nodup) : (seen ++ freshOf seen ys).Nodup := by
  induction ys generalizing seen with
  | nil => simpa [freshOf] using h
  | cons a ys ih =>
    by_cases ha : a ∈ seen
    · simpa only [freshOf, ha, if_true] using ih h
    · have hs : (seen ++ [a]).Nodup := by
        rw [List.nodup_append]
        exact ⟨h, List.nodup_singleton a, fun x hx y hy => by
          rw [List.mem_singleton] at hy; subst hy; rintro rfl; exact ha hx⟩
      have := ih hs
      simpa only [freshOf, ha, if_false, List.append_assoc, List.singleton_append] using this

section Loop
variable (succ : α → List α)

/-- The edge relation of the successor function. -/
abbrev Edge (a b : α) : Prop := b ∈ succ a

/-- What the loop keeps: everything seen is reachable from the seed, the queue was seen, and the
successors of every popped vertex were seen. -/
structure LoopInv (seed : α) (queue seen : List α) : Prop where
  nodup : seen.Nodup
  seed_mem : seed ∈ seen
  sound : ∀ x ∈ seen, Relation.ReflTransGen (Edge succ) seed x
  closed : ∀ x ∈ seen, x ∉ queue → ∀ y ∈ succ x, y ∈ seen

omit [DecidableEq α] in
theorem LoopInv.init (seed : α) : LoopInv succ seed [seed] [seed] where
  nodup := List.nodup_singleton seed
  seed_mem := by simp
  sound := by
    intro x hx
    rw [List.mem_singleton] at hx
    subst hx
    exact Relation.ReflTransGen.refl
  closed := by
    intro x hx hq
    exact absurd hx hq

theorem LoopInv.pop {seed x : α} {queue seen : List α} (h : LoopInv succ seed (x :: queue) seen)
    (hx : x ∈ seen) :
    LoopInv succ seed (queue ++ freshOf seen (succ x)) (seen ++ freshOf seen (succ x)) where
  nodup := nodup_append_freshOf h.nodup
  seed_mem := List.mem_append_left _ h.seed_mem
  sound := by
    intro y hy
    rcases List.mem_append.mp hy with hy | hy
    · exact h.sound y hy
    · exact (h.sound x hx).tail (mem_freshOf.mp hy).1
  closed := by
    intro y hy hq z hz
    rw [List.mem_append, not_or] at hq
    rcases List.mem_append.mp hy with hy | hy
    · by_cases hyx : y = x
      · subst hyx
        by_cases hzs : z ∈ seen
        · exact List.mem_append_left _ hzs
        · exact List.mem_append_right _ (mem_freshOf.mpr ⟨hz, hzs⟩)
      · refine List.mem_append_left _ (h.closed y hy ?_ z hz)
        simp [hyx, hq.1]
    · exact absurd hy hq.2

omit [DecidableEq α] in
theorem LoopInv.complete {seed : α} {seen : List α} (h : LoopInv succ seed [] seen) {x : α}
    (hx : Relation.ReflTransGen (Edge succ) seed x) : x ∈ seen := by
  induction hx with
  | refl => exact h.seed_mem
  | tail _ hstep ih => exact h.closed _ ih (by simp) _ hstep

/-- Fuel for every vertex that is still to be popped or can still be enqueued suffices. -/
theorem expand_spec {univ : List α} (hsucc : ∀ x y, y ∈ succ x → y ∈ univ) (seed : α) :
    ∀ (fuel : Nat) (queue seen : List α), LoopInv succ seed queue seen → (∀ x ∈ queue, x ∈ seen) →
      (∀ x ∈ seen, x = seed ∨ x ∈ univ) → univ.length + 1 + queue.length ≤ fuel + seen.length →
      ∀ x, x ∈ expand succ fuel queue seen ↔ Relation.ReflTransGen (Edge succ) seed x := by
  intro fuel
  induction fuel with
  | zero =>
    intro queue seen hinv _ hsub hlen x
    have hle : seen.length ≤ (seed :: univ).length :=
      (List.subperm_of_subset hinv.nodup (fun y hy => by
        rcases hsub y hy with rfl | hu
        · exact List.mem_cons_self
        · exact List.mem_cons_of_mem _ hu)).length_le
    have hq : queue = [] := by
      rw [List.length_cons] at hle
      exact List.eq_nil_of_length_eq_zero (by omega)
    subst hq
    exact ⟨hinv.sound x, hinv.complete succ⟩
  | succ n ih =>
    intro queue seen hinv hqs hsub hlen x
    cases queue with
    | nil => exact ⟨hinv.sound x, hinv.complete succ⟩
    | cons a queue =>
      have ha : a ∈ seen := hqs a List.mem_cons_self
      refine ih (queue ++ freshOf seen (succ a)) (seen ++ freshOf seen (succ a)) (hinv.pop succ ha)
        ?_ ?_ ?_ x
      · intro y hy
        rcases List.mem_append.mp hy with hy | hy
        · exact List.mem_append_left _ (hqs y (List.mem_cons_of_mem _ hy))
        · exact List.mem_append_right _ hy
      · intro y hy
        rcases List.mem_append.mp hy with hy | hy
        · exact hsub y hy
        · exact Or.inr (hsucc a y (mem_freshOf.mp hy).1)
      · simp only [List.length_cons, List.length_append] at hlen ⊢
        omega

/-- With fuel for the seed and for every possible successor, the search finds exactly what the seed
leads to. -/
theorem mem_reach_iff {univ : List α} (hsucc : ∀ x y, y ∈ succ x → y ∈ univ) {seed : α} {fuel : Nat}
    (hfuel : univ.length + 1 ≤ fuel) (x : α) :
    x ∈ reach succ fuel seed ↔ Relation.ReflTransGen (Edge succ) seed x :=
  expand_spec succ hsucc seed fuel [seed] [seed] (LoopInv.init succ seed) (by simp)
    (by simp) (by simp; omega) x

end Loop

end Wrkflw.Library
