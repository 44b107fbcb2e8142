import Wrkflw.Runtime.Cancel

/-!
# A cancel and the tree of calls

A cancelled instance takes the instances it called with it. The walk follows the links that are running when it comes to
them: a live instance whose caller has ended is left behind.
-/

namespace Wrkflw

/-- The cancel returns, and every live instance below has been delivered a cancel exactly once. -/
def CancelsTree (w : CancelWorld) (links : MemCallLinks) (live : String → Prop) (root : String) : Prop :=
  ∃ bound, ∀ fuel ≥ bound, ∃ s, cancelInstance w fuel links root = some s ∧
    ∀ id, Relation.TransGen (Calls links) root id → live id → s.delivered.count id = 1

/-- A cancel that meets no error reaches every live instance below, once, exactly when running links lead to all of them. -/
theorem cancels_tree_iff {w : CancelWorld} (hok : ∀ id, w.loads id = true ∧ w.lookups id = true ∧ w.answer id ≠ .failed)
    (links : MemCallLinks) (live : String → Prop) (root : String) : CancelsTree w links live root ↔
      ∀ id, Relation.TransGen (Calls links) root id → live id → Relation.ReflTransGen (CallsRunning links) root id := by
  constructor
  · rintro ⟨bound, h⟩ id hbelow hlive
    obtain ⟨s, hs, hcount⟩ := h (bound + links.length + 1) (by omega)
    have hfuel : links.length < bound + links.length + 1 := by omega
    obtain ⟨s', hs', -, hmem⟩ := cancelInstance_delivers hok root hfuel
    rw [hs] at hs'
    rw [← hmem, ← Option.some.inj hs', ← List.count_pos_iff, hcount id hbelow hlive]
    exact Nat.one_pos
  · intro h
    refine ⟨links.length + 1, fun fuel hfuel => ?_⟩
    obtain ⟨s, hs, hnodup, hmem⟩ := cancelInstance_delivers hok root hfuel
    exact ⟨s, hs, fun id hbelow hlive => List.count_eq_one_of_mem hnodup ((hmem id).mpr (h id hbelow hlive))⟩

/-- Everything answers, and a cancel ends its instance. -/
def obliging : CancelWorld := ⟨fun _ => true, fun _ => true, fun _ => .ended, fun _ => {}⟩

theorem obliging_answers (id : String) : obliging.answer id ≠ .failed := by
  intro h
  cases h

/-- A child under its parent. -/
def linkOf (child parent : String) (terminal : Bool) : MemLink where
  link := ⟨child, parent, parent ++ "-c1", "d", 1, 1⟩
  terminal := terminal

/-- A cycle of three calls is cancelled, each instance once. -/
theorem cycle_cancelled : CancelsTree obliging [linkOf "b" "a" false, linkOf "c" "b" false, linkOf "a" "c" false]
    (fun _ => True) "a" := by
  refine (cancels_tree_iff (fun _ => ⟨rfl, rfl, obliging_answers _⟩) _ _ "a").mpr (fun id hbelow _ => ?_)
  refine Relation.ReflTransGen.mono ?_ "a" id hbelow.to_reflTransGen
  rintro p c ⟨l, hl, hp, hc⟩
  refine ⟨l, hl, ?_, hp, hc⟩
  simp only [List.mem_cons, List.not_mem_nil, or_false] at hl
  rcases hl with rfl | rfl | rfl <;> rfl

/-- The child has ended and its own child runs on: the cancel does not get there. -/
theorem grandchild_missed : ¬ CancelsTree obliging [linkOf "b" "a" true, linkOf "c" "b" false] (fun id => id = "c") "a" := by
  rintro ⟨bound, h⟩
  obtain ⟨s, hs, hcount⟩ := h (bound + 3) (by omega)
  have hbelow : Relation.TransGen (Calls [linkOf "b" "a" true, linkOf "c" "b" false]) "a" "c" := by
    refine .tail (.single (b := "b") ⟨linkOf "b" "a" true, List.mem_cons_self, rfl, rfl⟩) ?_
    exact ⟨linkOf "c" "b" false, List.mem_cons_of_mem _ List.mem_cons_self, rfl, rfl⟩
  have hrun : cancelInstance obliging (bound + 3) [linkOf "b" "a" true, linkOf "c" "b" false] "a" =
      some ⟨[linkOf "b" "a" true, linkOf "c" "b" false], ["a"], ["a"]⟩ := by rfl
  rw [hrun] at hs
  have hone := hcount "c" hbelow rfl
  rw [← Option.some.inj hs] at hone
  cases hone

end Wrkflw
