import Wrkflw.Machine.Names
import Mathlib.Data.List.Induction

/-!
# Scopes inside scopes

`Within scopes root id` is the nesting of scopes as a relation. `descendantScopeIDs`, one pass over the open scopes,
computes it since a scope is opened after its parent.
-/

namespace Wrkflw

/-- The scope is the root of the subtree or an open scope nested in it. -/
inductive Within (scopes : List Scope) (root : String) : String → Prop
  | self : Within scopes root root
  | child {sc : Scope} (hmem : sc ∈ scopes) (h : Within scopes root sc.parentID) : Within scopes root sc.id

namespace Within
variable {scopes scopes' : List Scope} {root id : String}

theorem mono (hsub : scopes ⊆ scopes') (h : Within scopes root id) : Within scopes' root id := by
  induction h with
  | self => exact self
  | child hmem _ ih => exact child (hsub hmem) ih

theorem trans {mid : String} (h : Within scopes root mid) (h' : Within scopes mid id) : Within scopes root id := by
  induction h' with
  | self => exact h
  | child hmem _ ih => exact child hmem ih

/-- A scope strictly inside another lies in one of its child scopes. -/
theorem split (h : Within scopes root id) : id = root ∨ ∃ sc ∈ scopes, sc.parentID = root ∧ Within scopes sc.id id := by
  induction h with
  | self => exact Or.inl rfl
  | @child sc hmem _ ih =>
    rcases ih with he | ⟨top, htop, hroot, hin⟩
    · exact Or.inr ⟨sc, hmem, he, self⟩
    · exact Or.inr ⟨top, htop, hroot, child hmem hin⟩

/-- The scope opened last is nobody's parent. -/
theorem of_snoc {sc : Scope} (hlast : ∀ a ∈ scopes, a.parentID ≠ sc.id) (hown : sc.parentID ≠ sc.id)
    (h : Within (scopes ++ [sc]) root id) : Within scopes root id ∨ (id = sc.id ∧ Within scopes root sc.parentID) := by
  induction h with
  | self => exact Or.inl self
  | @child a hmem _ ih =>
    rcases List.mem_append.mp hmem with hmem | hmem
    · rcases ih with ih | ⟨he, -⟩
      · exact Or.inl (child hmem ih)
      · exact absurd he (hlast a hmem)
    · obtain rfl := List.mem_singleton.mp hmem
      rcases ih with ih | ⟨he, -⟩
      · exact Or.inr ⟨rfl, ih⟩
      · exact absurd he hown

end Within

theorem descendantScopeIDs_snoc (scopes : List Scope) (sc : Scope) (root : String) :
    descendantScopeIDs (scopes ++ [sc]) root =
      if (descendantScopeIDs scopes root).contains sc.id || (descendantScopeIDs scopes root).contains sc.parentID
      then descendantScopeIDs scopes root ++ [sc.id] else descendantScopeIDs scopes root := by
  unfold descendantScopeIDs
  rw [List.foldl_append]
  rfl

/-- The one pass finds exactly the subtree, for scopes that were opened after their parents. -/
theorem mem_descendantScopeIDs {scopes : List Scope} (hord : scopes.Pairwise (fun a b => a.parentID ≠ b.id))
    (hown : ∀ sc ∈ scopes, sc.parentID ≠ sc.id) (root id : String) :
    id ∈ descendantScopeIDs scopes root ↔ Within scopes root id := by
  induction scopes using List.reverseRecOn generalizing id with
  | nil =>
    constructor
    · intro h
      rw [List.mem_singleton.mp h]
      exact Within.self
    · intro h
      cases h with
      | self => exact List.mem_singleton.mpr rfl
      | child hmem _ => cases hmem
  | append_singleton scopes sc ih =>
    obtain ⟨hord', -, hlast⟩ := List.pairwise_append.mp hord
    have ih' := ih hord' (fun a ha => hown a (List.mem_append_left _ ha))
    have hlast' : ∀ a ∈ scopes, a.parentID ≠ sc.id := fun a ha => hlast a ha sc List.mem_cons_self
    have hown' : sc.parentID ≠ sc.id := hown sc (List.mem_append_right _ List.mem_cons_self)
    have hsub : scopes ⊆ scopes ++ [sc] := List.subset_append_left _ _
    have hsc : sc ∈ scopes ++ [sc] := List.mem_append_right _ List.mem_cons_self
    rw [descendantScopeIDs_snoc]
    split
    · rename_i hin
      rw [Bool.or_eq_true, List.contains_iff_mem, List.contains_iff_mem, ih', ih'] at hin
      rw [List.mem_append, ih', List.mem_singleton]
      constructor
      · rintro (h | rfl)
        · exact h.mono hsub
        · rcases hin with hin | hin
          · exact hin.mono hsub
          · exact Within.child hsc (hin.mono hsub)
      · intro h
        exact (Within.of_snoc hlast' hown' h).imp (fun h => h) (fun h => h.1)
    · rename_i hout
      rw [Bool.or_eq_true, List.contains_iff_mem, List.contains_iff_mem, ih', ih', not_or] at hout
      rw [ih']
      constructor
      · exact fun h => h.mono hsub
      · intro h
        exact (Within.of_snoc hlast' hown' h).resolve_right (fun h => hout.2 h.2)

/-- In a state whose names are right, the code's subtree is the nesting. -/
theorem Names.within_iff {g : IDGenerator} {s : ControlState} (hn : Names g s) (root id : String) :
    id ∈ descendantScopeIDs s.scopes root ↔ Within s.scopes root id :=
  mem_descendantScopeIDs hn.scopes.ordered hn.scopes.notOwn root id

theorem tokensInScopeSubtree_pos {g : IDGenerator} {s : ControlState} (hn : Names g s) {tokens : List Token}
    (root : String) : 0 < tokensInScopeSubtree tokens s.scopes root ↔ ∃ t ∈ tokens, Within s.scopes root t.scopeID := by
  unfold tokensInScopeSubtree
  rw [List.length_pos_iff_exists_mem]
  constructor
  · rintro ⟨t, ht⟩
    obtain ⟨hmem, hin⟩ := List.mem_filter.mp ht
    exact ⟨t, hmem, (hn.within_iff root t.scopeID).mp (List.contains_iff_mem.mp hin)⟩
  · rintro ⟨t, hmem, hin⟩
    exact ⟨t, List.mem_filter.mpr ⟨hmem, List.contains_iff_mem.mpr ((hn.within_iff root t.scopeID).mpr hin)⟩⟩

end Wrkflw
