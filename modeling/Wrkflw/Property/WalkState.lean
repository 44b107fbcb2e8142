import Wrkflw.Machine.Nesting
import Wrkflw.Property.ScopeExit
import Wrkflw.Property.Cancel

/-!
# What a reader of the state may rely on

The handlers of a compensation trust the status, the cursor and the scopes to agree: a retry reads the record the cursor
stands on, and the definition of a scope is looked up through its parents. The code guards both, with a bounds check and
with an error. `walk_state_consistent` and `open_scopes_resolve` say that no run reaches a state in which a guard is
needed.
-/

namespace Wrkflw

variable {d : ProcessDefinition} {gen : Option IDGenerator} {inst : String} {calls : List Call} {x : InstanceState}

/-! ## The walk -/

namespace ControlState

/-- The status, the cursor, the tokens and the scopes agree. -/
structure Consistent (s : ControlState) : Prop where
  status : s.status = .compensating ↔ s.compensating.activeCmdID ≠ ""
  idle : s.compensating.activeCmdID = "" → s.compensating = {}
  inBounds : s.compensating.activeCmdID ≠ "" → 0 ≤ s.compensating.nextIndex ∧
    s.compensating.nextIndex < (s.cursorRecords s.compensating).length
  ending : s.compensating.activeCmdID ≠ "" → s.compensating.resumeNode = "" → s.compensating.toNode = "" → s.tokens = []
  ended : s.status.isTerminal = true → s.compensating = {} ∧ s.scopes = []

end ControlState

/-- A record is found only where the index is in bounds. -/
theorem bounds_of_currentRecord {s : ControlState} {rec : CompensationRecord} (h : s.currentRecord = some rec) :
    0 ≤ s.compensating.nextIndex ∧ s.compensating.nextIndex < (s.cursorRecords s.compensating).length := by
  unfold ControlState.currentRecord at h
  split at h
  · cases h
  · rename_i hpos
    obtain ⟨hlt, -⟩ := List.getElem?_eq_some_iff.mp h
    omega

theorem Phase.consistent {g : IDGenerator} {s : ControlState} (h : Phase g s) : s.Consistent where
  status := h.status
  idle := fun hidle => h.idle (not_not.mpr hidle)
  inBounds := by
    intro hin
    obtain ⟨rec, hrec⟩ := (h.walk hin).currentRecord
    exact bounds_of_currentRecord hrec
  ending := fun hin hres hto => h.sealed (Or.inl ⟨hin, hres, hto⟩)
  ended := by
    intro hend
    have hout : ¬ s.InFlight := by
      intro hin
      rw [h.status.mpr hin] at hend
      cases hend
    exact ⟨h.idle hout, h.ended hend⟩

/-- In every state of a run a walk is in flight exactly while the status says so, and the cursor then stands on a record:
the bounds checks of the two retries never send a walk to its finish. -/
theorem walk_state_consistent (hrun : Run d gen inst calls x) :
    x.toControlState.Consistent ∧ (x.status = .compensating → ∃ rec, x.currentRecord = some rec ∧
      ∀ (drv : DriveLoop) (c : StepCtx), retryStalledCompensation drv c x = .ok (redispatchCurrent c
        ((x.retireCompensationStallIncidents x.compensating.activeCmdID).retireCompensationFailedIncidents
          x.compensating.activeCmdID) rec 0)) := by
  have hphase := hrun.sound.wf.phase
  refine ⟨hphase.consistent, fun hst => ?_⟩
  obtain ⟨rec, hrec⟩ := (hphase.walk (hphase.status.mp hst)).currentRecord
  refine ⟨rec, hrec, fun drv c => ?_⟩
  unfold retryStalledCompensation
  rw [hrec]

/-- A cancelled chain walks back, and its cursor stands on the record of the first task. -/
theorem cancelled_chain_consistent : ∃ x calls, Run undoableChain none "i" calls x ∧ x.status = .compensating ∧
    x.toControlState.Consistent := by
  have hplay : playsTo undoableChain [.startInstance [] "", .actionCompleted "i-c1" [], .cancelRequested]
      (fun x => x.status == .compensating) = true := by decide
  obtain ⟨x, hrun, hst⟩ := run_of_playsTo hplay
  exact ⟨x, _, hrun, beq_iff_eq.mp hst, (walk_state_consistent hrun).1⟩

/-! ## The scopes -/

/-- In every state of a run the open scopes are a forest under the root: their ids differ, the parent of each is open and was
opened before it, none is nested in itself, and each stands for a sub-process that the definition names. -/
theorem open_scopes_resolve (hrun : Run d gen inst calls x) : (x.scopes.map (·.id)).Nodup ∧ ∀ sc ∈ x.scopes,
    sc.id ≠ "" ∧ (sc.parentID = "" ∨ ∃ p ∈ x.scopes, p.id = sc.parentID) ∧ ¬ Within x.scopes sc.id sc.parentID ∧
      ∃ sub, defForScope d x.scopes sc.id = .ok sub := by
  have hnames := hrun.sound.wf.names
  have hnest := hrun.nested
  refine ⟨hnames.scopes.nodup, fun sc hsc => ⟨?_, hnest.parents sc hsc, ?_, ?_⟩⟩
  · exact (hnames.scopes.minted sc hsc).ne_empty
  · exact hnames.not_within_self hsc
  · exact hnest.resolves hnames (Or.inr ⟨sc, hsc, rfl⟩)

/-- Two scopes, one in the other. -/
theorem nested_scopes_resolve : ∃ x calls, Run nestedThrow none "i" calls x ∧ x.scopes.length = 2 ∧
    ∀ sc ∈ x.scopes, ∃ sub, defForScope nestedThrow x.scopes sc.id = .ok sub := by
  have hplay : playsTo nestedThrow [.startInstance [] ""] (fun x => x.scopes.length == 2) = true := by decide
  obtain ⟨x, hrun, hlen⟩ := run_of_playsTo hplay
  exact ⟨x, _, hrun, beq_iff_eq.mp hlen, fun sc hsc => ((open_scopes_resolve hrun).2 sc hsc).2.2.2⟩

end Wrkflw
