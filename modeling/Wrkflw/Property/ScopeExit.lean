import Wrkflw.Machine.Run
import Wrkflw.Machine.Subtree
import Wrkflw.Definition.Validate

/-!
# Scopes that complete

A sub-process scope should complete with nothing left inside it: no token in it or in a scope nested in it, and no
compensation throw whose walk will resume there. The code counts tokens over the whole subtree and holds the scope a
walk resumes in, but not the scopes around that one, and not the scope an event sub-process ends.
`scope_exits_empty_iff` says what that comes to for every exit of every run.
-/

namespace Wrkflw

section Exit
variable (scope : String) (tokens : List Token) (scopes : List Scope) (cursor : CompensationCursor)

/-- The walk of a compensation throw is in flight. -/
def CompensationCursor.ThrowWalk (cursor : CompensationCursor) : Prop :=
  cursor.activeCmdID ≠ "" ∧ cursor.resumeNode ≠ ""

/-- Nothing is left in the scope or in a scope nested in it. -/
structure NothingInside : Prop where
  tokens : ∀ t ∈ tokens, ¬ Within scopes scope t.scopeID
  walk : cursor.ThrowWalk → ¬ Within scopes scope cursor.resumeScope

/-- The walk in flight resumes outside the scopes the code does not hold. -/
structure ResumesOutside (enclosing : Bool) : Prop where
  nested : cursor.ThrowWalk → Within scopes scope cursor.resumeScope → cursor.resumeScope = scope
  own : enclosing = true → cursor.ThrowWalk → cursor.resumeScope ≠ scope

end Exit

/-- The tokens of a subtree are those of its root and of its child scopes. -/
theorem no_token_inside {g : IDGenerator} {p : ControlState} (hn : Names g p) {scope : String}
    (htok : tokensInScope p.tokens scope = 0)
    (hchild : ∀ sc ∈ p.scopes, sc.parentID = scope → tokensInScopeSubtree p.tokens p.scopes sc.id = 0) :
    ∀ t ∈ p.tokens, ¬ Within p.scopes scope t.scopeID := by
  intro t ht hin
  rcases hin.split with he | ⟨sc, hsc, hparent, hin⟩
  · unfold tokensInScope at htok
    have hmem : t ∈ p.tokens.filter (fun t => t.scopeID == scope) := List.mem_filter.mpr ⟨ht, by simpa using he⟩
    rw [List.length_eq_zero_iff.mp htok] at hmem
    cases hmem
  · have hpos := (tokensInScopeSubtree_pos hn sc.id).mpr ⟨t, ht, hin⟩
    rw [hchild sc hsc hparent] at hpos
    omega

/-- Every exit of every run: nothing is inside the scope exactly when no walk resumes in a scope nested in it, nor in
the scope itself when it ends with the event sub-process that ran in it. -/
theorem scope_exits_empty_iff {d : ProcessDefinition} {gen : Option IDGenerator} {inst : String} {calls : List Call}
    {x : InstanceState} (h : Run d gen inst calls x) {scope : String} {enclosing : Bool} {tokens : List Token}
    {scopes : List Scope} {cursor : CompensationCursor}
    (he : Event.exited scope enclosing tokens scopes cursor ∈ x.trace) :
    NothingInside scope tokens scopes cursor ↔ ResumesOutside scope scopes cursor enclosing := by
  obtain ⟨hne, p, hsaw, htok, hchild, hhold⟩ := h.noted _ he
  obtain ⟨hwf, rfl, rfl, rfl⟩ := hsaw
  have hempty := no_token_inside hwf.names htok hchild
  -- the code's hold on the exiting scope itself
  have hown : enclosing = false → p.compensating.ThrowWalk → p.compensating.resumeScope ≠ scope := by
    intro hf hwalk hs
    have hh := hhold hf
    unfold ControlState.compensationWalkHoldsScope at hh
    rw [if_neg (by simp [hwalk.1, hne])] at hh
    rw [hs, beq_self_eq_true] at hh
    cases hh
  constructor
  · intro hin
    refine ⟨fun hwalk hw => absurd hw (hin.walk hwalk), fun _ hwalk hs => ?_⟩
    refine hin.walk hwalk ?_
    rw [hs]
    exact Within.self
  · intro hout
    refine ⟨hempty, fun hwalk hw => ?_⟩
    have hs := hout.nested hwalk hw
    cases enclosing with
    | false => exact hown rfl hwalk hs
    | true => exact hout.own rfl hwalk hs

/-! ## A nested throw -/

/-- Two undoable tasks and a compensation throw. -/
def throwingSub : ProcessDefinition where
  id := "inner"
  version := 1
  nodes := [startNode "si", serviceNode "t1" "undo1", serviceNode "t2" "undo2",
    { id := "x", spec := .compensationThrowEvent {} }, endNode "e3"]
  flows := [flowOf "i1" "si" "t1", flowOf "i2" "t1" "t2", flowOf "i3" "t2" "x", flowOf "i4" "x" "e3"]

/-- The throwing sub-process beside a task. -/
def outerSub : ProcessDefinition where
  id := "outer"
  version := 1
  nodes := [startNode "so", forkNode "g",
    subProcessNode "inner" throwingSub, serviceNode "b" "",
    endNode "e1", endNode "e2"]
  flows := [flowOf "o1" "so" "g", flowOf "o2" "g" "inner", flowOf "o3" "g" "b", flowOf "o4" "inner" "e1",
    flowOf "o5" "b" "e2"]

def nestedThrow : ProcessDefinition where
  id := "nested"
  version := 1
  nodes := [startNode "s", subProcessNode "outer" outerSub, serviceNode "c" "",
    endNode "e"]
  flows := [flowOf "f1" "s" "outer", flowOf "f2" "outer" "c", flowOf "f3" "c" "e"]

/-- An exit while no walk is in flight. -/
def idleExit : Event → Bool
  | .exited _ _ _ _ cursor => cursor.activeCmdID == ""
  | _ => false

/-- An exit while a throw's walk resumes in a scope inside the exiting one. -/
def exitUnderWalk : Event → Bool
  | .exited scope _ _ scopes cursor => cursor.activeCmdID != "" && cursor.resumeNode != "" &&
      scopes.any (fun sc => sc.parentID == scope && sc.id == cursor.resumeScope)
  | _ => false

theorem idleExit_event {e : Event} (h : idleExit e = true) :
    ∃ scope enclosing tokens scopes cursor, e = .exited scope enclosing tokens scopes cursor ∧
      ResumesOutside scope scopes cursor enclosing := by
  cases e
  case exited scope enclosing tokens scopes cursor =>
    have hidle : cursor.activeCmdID = "" := beq_iff_eq.mp h
    exact ⟨_, _, _, _, _, rfl, fun hwalk => absurd hidle hwalk.1, fun _ hwalk => absurd hidle hwalk.1⟩
  all_goals cases h

theorem exitUnderWalk_event {e : Event} (h : exitUnderWalk e = true) :
    ∃ scope enclosing tokens scopes cursor, e = .exited scope enclosing tokens scopes cursor ∧
      ¬ NothingInside scope tokens scopes cursor := by
  cases e
  case exited scope enclosing tokens scopes cursor =>
    rw [exitUnderWalk, Bool.and_eq_true, Bool.and_eq_true, bne_iff_ne, bne_iff_ne] at h
    obtain ⟨sc, hsc, hp⟩ := List.any_eq_true.mp h.2
    rw [Bool.and_eq_true, beq_iff_eq, beq_iff_eq] at hp
    refine ⟨_, _, _, _, _, rfl, fun hin => hin.walk ⟨h.1.1, h.1.2⟩ ?_⟩
    rw [← hp.2]
    refine Within.child hsc ?_
    rw [hp.1]
    exact Within.self
  all_goals cases h

/-- Without a throw in the way the inner scope exits empty. -/
theorem nested_scope_exits_empty : ∃ x calls, Run nestedThrow none "i" calls x ∧
    ∃ scope enclosing tokens scopes cursor, Event.exited scope enclosing tokens scopes cursor ∈ x.trace ∧
      NothingInside scope tokens scopes cursor := by
  have hplay : playsTo nestedThrow [.startInstance [] "", .actionCompleted "i-c2" [], .actionCompleted "i-c3" [],
      .actionCompleted "i-c4" [], .actionCompleted "i-c5" []] (fun x => x.trace.any idleExit) = true := by decide
  obtain ⟨x, hrun, hany⟩ := run_of_playsTo hplay
  obtain ⟨e, he, hq⟩ := List.any_eq_true.mp hany
  obtain ⟨scope, enclosing, tokens, scopes, cursor, rfl, hout⟩ := idleExit_event hq
  exact ⟨x, _, hrun, scope, enclosing, tokens, scopes, cursor, he, (scope_exits_empty_iff hrun he).mpr hout⟩

/-- The outer scope exits while the throw's walk in the inner one is still in flight. -/
theorem scope_exits_under_walk : Accepted asciiTables nestedThrow ∧ ∃ x calls, Run nestedThrow none "i" calls x ∧
    ∃ scope enclosing tokens scopes cursor, Event.exited scope enclosing tokens scopes cursor ∈ x.trace ∧
      ¬ NothingInside scope tokens scopes cursor := by
  have hplay : playsTo nestedThrow [.startInstance [] "", .actionCompleted "i-c2" [], .actionCompleted "i-c3" [],
      .actionCompleted "i-c1" []] (fun x => x.trace.any exitUnderWalk) = true := by decide
  obtain ⟨x, hrun, hany⟩ := run_of_playsTo hplay
  obtain ⟨e, he, hq⟩ := List.any_eq_true.mp hany
  obtain ⟨scope, enclosing, tokens, scopes, cursor, rfl, hin⟩ := exitUnderWalk_event hq
  exact ⟨by decide, x, _, hrun, scope, enclosing, tokens, scopes, cursor, he, hin⟩

end Wrkflw
