import Wrkflw.Machine.Filing
import Wrkflw.Definition.Validate

/-!
# The order of a full walk

A full walk dispatches the root's records from the end of the list to its beginning (`Paced`). The list is in the order of
recording as long as the archive does not join it; then it is sorted by the time of completion and, for records of one
moment, by the node id, which need not be the order of recording. A sub-process and the last activity in it are recorded in
one step.

* `ControlState.dispatches` : what was dispatched, the latest first;
* `Still` : the walk in flight stays where it is.
-/

namespace Wrkflw

open ControlState

def Event.dispatch? : Event → Option CompensationRecord
  | .dispatched rec _ => some rec
  | _ => none

def ControlState.dispatches (s : ControlState) : List CompensationRecord := s.trace.filterMap Event.dispatch?

/-- The walk has dispatched the root's records from the last one down to where it stands, one after another. -/
def Paced (s : ControlState) : Prop :=
  s.RootWalk → ∃ earlier, s.dispatches = s.rootCompensations.drop s.compensating.nextIndex.toNat ++ earlier

/-- A full walk was there before and stays where it is. -/
structure Holds (s s' : ControlState) : Prop where
  walk : s.RootWalk
  root : s'.rootCompensations = s.rootCompensations
  index : s'.compensating.nextIndex = s.compensating.nextIndex
  dispatches : s'.dispatches = s.dispatches

/-- Whatever full walk is in flight stays where it is. -/
def Still (s s' : ControlState) : Prop := s'.RootWalk → Holds s s'

namespace Still
variable {s s' : ControlState}

theorem of_bare (hroot : s'.rootCompensations = s.rootCompensations) (hcursor : s'.compensating.bare = s.compensating.bare)
    (hdisp : s'.dispatches = s.dispatches) : Still s s' := by
  intro ⟨hflight, hresume, hto⟩
  have hactive : s'.compensating.activeCmdID = s.compensating.activeCmdID :=
    (congrArg CompensationCursor.activeCmdID hcursor :)
  have hnode : s'.compensating.resumeNode = s.compensating.resumeNode := (congrArg CompensationCursor.resumeNode hcursor :)
  have htarget : s'.compensating.toNode = s.compensating.toNode := (congrArg CompensationCursor.toNode hcursor :)
  refine ⟨⟨?_, hnode.symm.trans hresume, htarget.symm.trans hto⟩, hroot, (congrArg CompensationCursor.nextIndex hcursor :),
    hdisp⟩
  unfold InFlight
  rw [← hactive]
  exact hflight

theorem same (hroot : s'.rootCompensations = s.rootCompensations) (hcursor : s'.compensating = s.compensating)
    (hdisp : s'.dispatches = s.dispatches) : Still s s' := of_bare hroot (congrArg _ hcursor) hdisp

theorem trans {s1 s2 s3 : ControlState} (h : Still s1 s2) (h' : Still s2 s3) : Still s1 s3 := by
  intro hwalk
  have h2 := h' hwalk
  have h1 := h h2.walk
  exact ⟨h1.walk, h2.root.trans h1.root, h2.index.trans h1.index, h2.dispatches.trans h1.dispatches⟩

theorem idle (h : ¬ s'.InFlight) : Still s s' := fun hwalk => absurd hwalk.1 h

theorem removeToken (s : ControlState) (id : String) : Still s (s.removeToken id) := by
  obtain ⟨p, he, -⟩ := s.removeToken_shape id
  rw [he]
  exact same rfl rfl rfl

theorem cancelToken (s : ControlState) (tok : Token) (at_ : Time) (kind : CloseKind) :
    Still s (s.cancelToken tok at_ kind) := by
  rcases s.cancelToken_shape tok at_ kind with he | ⟨t, -, -, -, h, -, he⟩
  · rw [he]
    exact same rfl rfl rfl
  · rw [he]
    exact same rfl rfl rfl

theorem closeScope (s : ControlState) (id : String) : Still s (s.closeScope id) := by
  obtain ⟨p, he⟩ := s.closeScope_shape id
  rw [he]
  exact same rfl rfl rfl

theorem archive (s : ControlState) (id : String) : Still s (s.archiveCompensations id) := by
  have ho := sameOutline (s.archiveCompensations_outline id)
  refine of_bare ?_ ho.compensating (congrArg (List.filterMap Event.dispatch?) ho.trace)
  unfold ControlState.archiveCompensations
  split
  · rfl
  · split
    · rfl
    · rfl

theorem archiveAll (ids : List String) (s : ControlState) : Still s (s.archiveAll ids) := by
  induction ids generalizing s with
  | nil => exact same rfl rfl rfl
  | cons id ids ih => exact (archive s id).trans (ih _)

theorem parkedOn {p : ControlState} {node : Node} {scopeID : String} (h : ParkedOn s p node scopeID) : Still s p := by
  rcases h with rfl | ⟨tok, -, -, -, -, rfl⟩
  · exact same rfl rfl rfl
  · exact same rfl rfl rfl

theorem paced (h : Still s s') (hs : Paced s) : Paced s' := by
  intro hwalk
  have hold := h hwalk
  obtain ⟨earlier, he⟩ := hs hold.walk
  refine ⟨earlier, ?_⟩
  rw [hold.dispatches, hold.root, hold.index]
  exact he

end Still

section Moves
variable {top : ProcessDefinition} {g : IDGenerator} {trg : TriggerBody} {s s' : ControlState}

/-- A walk begins with the last record. -/
theorem paced_beginWalk (g : IDGenerator) (p : ControlState) (o : CompensationOutcome) (at_ : Time) {rec : CompensationRecord}
    (hrec : p.rootCompensations.getLast? = some rec) : Paced (p.beginWalk g o at_ rec) := by
  intro _
  obtain ⟨before, hbefore⟩ := List.getLast?_eq_some_iff.mp hrec
  refine ⟨p.dispatches, ?_⟩
  change rec :: p.dispatches = p.rootCompensations.drop ((p.rootCompensations.length : Int) - 1).toNat ++ p.dispatches
  have hidx : ((p.rootCompensations.length : Int) - 1).toNat = before.length := by
    rw [hbefore, List.length_append, List.length_singleton]
    omega
  rw [hidx, hbefore, List.drop_left]
  rfl

/-- A walk goes on with the record before. -/
theorem paced_advance (hs : Paced s) (hphase : Phase g s) (hflight : s.InFlight) {rec : CompensationRecord}
    (hpos : 0 < s.compensating.nextIndex)
    (hrec : (s.cursorRecords s.compensating)[(s.compensating.nextIndex - 1).toNat]? = some rec) :
    Paced (s.advance g rec) := by
  have ho := sameOutline (dispatch_outline s.mintCommand { s.compensating with
    nextIndex := s.compensating.nextIndex - 1, activeCmdID := s.nextCmdID g, retryAttempts := 0, retryTimerID := "" }
    (s.compensating.nextIndex - 1) rec (s.nextCmdID g))
  have hidx : (s.advance g rec).compensating.nextIndex = s.compensating.nextIndex - 1 :=
    (congrArg CompensationCursor.nextIndex ho.compensating :)
  have hroot : (s.advance g rec).rootCompensations = s.rootCompensations := dispatch_rootCompensations _ _ _ _ _
  have hdisp : (s.advance g rec).dispatches = rec :: s.dispatches := congrArg (List.filterMap Event.dispatch?) ho.trace
  intro hwalk
  have hnode : s.compensating.resumeNode = "" :=
    (congrArg CompensationCursor.resumeNode ho.compensating :).symm.trans hwalk.2.1
  have hto : s.compensating.toNode = "" := (congrArg CompensationCursor.toNode ho.compensating :).symm.trans hwalk.2.2
  obtain ⟨earlier, he⟩ := hs ⟨hflight, hnode, hto⟩
  -- a full walk reads the root's own list
  obtain ⟨-, hmode⟩ := hphase.walk hflight
  have hlist : s.cursorRecords s.compensating = s.rootCompensations := by
    rcases hmode with ⟨hne, -⟩ | ⟨-, hrecords, hkey, hscope, -⟩
    · exact absurd hnode hne
    · unfold cursorRecords compensationRecordsForScope
      rw [hrecords, hkey, hscope]
      rfl
  rw [hlist] at hrec
  obtain ⟨hlt, hget⟩ := List.getElem?_eq_some_iff.mp hrec
  have hsucc : (s.compensating.nextIndex - 1).toNat + 1 = s.compensating.nextIndex.toNat := by omega
  refine ⟨earlier, ?_⟩
  rw [hdisp, hroot, hidx, List.drop_eq_getElem_cons hlt, hget, hsucc, he]
  rfl

theorem Move.paced (hphase : Phase g s) (hs : Paced s) (hmove : Move top g trg s s') : Paced s' := by
  have hphase' := hmove.phase hphase
  cases hmove with
  | consume tok hmem hfree => exact (Still.removeToken s tok.id).paced hs
  | cancel tok at_ kind => exact (Still.cancelToken s tok at_ kind).paced hs
  | park p d node scopeID kind at_ hp hsite hkind hnone => exact (Still.parkedOn hp).paced hs
  | fireParallel p d node scopeID consumed hp hsite hmatch =>
    exact ((Still.parkedOn hp).trans (Still.same rfl rfl rfl)).paced hs
  | fireInclusive p d node scopeID consumed hp hsite htok hsub hcons =>
    exact ((Still.parkedOn hp).trans (Still.same rfl rfl rfl)).paced hs
  | teardown scope => exact ((Still.archiveAll _ s).trans (Still.closeScope _ scope)).paced hs
  | interrupt scope => exact ((Still.archiveAll (s.subtreeIDs scope) s).trans (Still.same rfl rfl rfl)).paced hs
  | exit scope enclosing hne htok hchild hhold =>
    have hnote : Still s (s.note (.exited scope enclosing s.tokens s.scopes s.compensating)) := Still.same rfl rfl rfl
    exact ((hnote.trans (Still.archive _ scope)).trans (Still.closeScope _ scope)).paced hs
  | record scope rec hfwd hhist =>
    intro hwalk
    exact absurd (.inl ((Phase.Keeps.recordCompensation s scope rec).rootWalk.mp hwalk)) hfwd.unsealed
  | sweep s' hidle hsweep => exact (Still.idle (fun h => hidle ((Phase.Keeps.sweep hsweep hidle).inFlight.mp h))).paced hs
  | throwWalk tok at_ cur rec hthrow hfwd hidle hcur =>
    intro hwalk
    have ho := sameOutline
      (dispatch_outline { s.mintCommand.consumeToken tok at_ with status := .compensating } cur cur.nextIndex rec
      (s.nextCmdID g))
    have hnode : (s.mintCommand.throwDispatch tok at_ cur rec (s.nextCmdID g)).compensating.resumeNode = cur.resumeNode :=
      (congrArg CompensationCursor.resumeNode ho.compensating :)
    exact absurd (hnode.symm.trans hwalk.2.1) hcur.resumeNode
  | next rec hflight hans hpos hto hrec => exact paced_advance hs hphase hflight hpos hrec
  | again rec attempts hflight hrec htrg =>
    have hstill : Still s (s.retryCurrent g rec attempts) := fun hwalk => ⟨⟨hflight, hwalk.2⟩, rfl, rfl, rfl⟩
    exact hstill.paced hs
  | begin at_ o rec hidle hclear hasked hrec => exact paced_beginWalk g s o at_ hrec
  | resume cur at_ hfin hres hpend hscope =>
    refine (Still.idle (fun h => ?_)).paced hs
    have hrunning := (resumeControl_fields g at_ (finishPlan s.settled cur)
      (applyDeleteArchive (finishPlan s.settled cur) s.settled)).1
    rw [hphase'.status.mpr h] at hrunning
    cases hrunning
  | pendingWalk cur at_ p rec hfin hcons hpend hsweep hclear hrec => exact paced_beginWalk g p _ at_ hrec
  | _ => exact (Still.same rfl rfl rfl).paced hs

theorem End.paced (hs : Paced s) (hend : End trg s s') : Paced s' := by
  have hended : ∀ (p : ControlState) st err, ¬ (p.endControl st err).InFlight := by
    intro p st err h
    exact h rfl
  cases hend with
  | abandon hflight hans hmode =>
    refine (Still.idle (fun h => ?_)).paced hs
    unfold setScopeRecords InFlight at h
    rw [mapRecords_compensating] at h
    exact h rfl
  | _ => exact (Still.idle (hended _ _ _)).paced hs

end Moves

theorem Run.paced {d : ProcessDefinition} {gen : Option IDGenerator} {inst : String} {calls : List Call} {x : InstanceState}
    (hrun : Run d gen inst calls x) : Paced x.toControlState :=
  Run.induction (I := Paced) (P := fun _ => True) (C := fun _ => True) hrun (fun _ _ => trivial) (fun _ _ => trivial)
    (fun hwalk => absurd rfl hwalk.1) (fun hwf _ _ h hmove => hmove.paced hwf.phase h) (fun _ _ _ h hend => hend.paced h)

/-- **A full walk dispatches in reverse order of recording** in every run that records in ascending order of
completion (of two records of one moment, in the order of the node ids), and in every run that opens no scope: the
root's list, read from its end, is in the order of recording from the latest on, and what the walk has dispatched is
its end, in this order. -/
theorem full_walk_reverses {d : ProcessDefinition} {gen : Option IDGenerator} {inst : String} {calls : List Call}
    {x : InstanceState} (hrun : Run d gen inst calls x)
    (horder : Ascends x.recorded ∨ ∀ e ∈ x.trace, e.OpensNothing) (hwalk : x.RootWalk) :
    x.rootCompensations.reverse.Sublist x.recorded ∧
      ∃ earlier, x.dispatches = x.rootCompensations.drop x.compensating.nextIndex.toNat ++ earlier := by
  refine ⟨?_, hrun.paced hwalk⟩
  rcases horder with hasc | hplain
  · exact hrun.reversed.root hasc
  · exact (hrun.flat hplain).2

/-- A sub-process with one activity, both with a compensation action, before a task. -/
def undoneNested (outer inner : String) : ProcessDefinition where
  id := "nested"
  version := 1
  nodes := [startNode "s",
    { id := outer, spec := .subProcess { compensateAction := "undo-outer" } (some {
      id := "inner"
      version := 1
      nodes := [startNode "ns",
        { id := inner, spec := .serviceTask { compensateAction := "undo-inner" } "" }, endNode "ne"]
      flows := [flowOf "n1" "ns" inner, flowOf "n2" inner "ne"] }) },
    userNode "w", endNode "e"]
  flows := [flowOf "f1" "s" outer, flowOf "f2" outer "w", flowOf "f3" "w" "e"]

/-- The sub-process completes, the instance is cancelled and the first record is undone. -/
def undoneTriggers : List TriggerBody :=
  [.startInstance [] "", .actionCompleted "i-c1" [], .cancelRequested, .actionCompleted "i-c2" []]

/-- A full walk is in flight. -/
def walksFully (x : InstanceState) : Bool :=
  x.compensating.activeCmdID != "" && x.compensating.resumeNode == "" && x.compensating.toNode == ""

theorem rootWalk_of_walksFully {x : InstanceState} (h : walksFully x = true) : x.RootWalk := by
  simp only [walksFully, Bool.and_eq_true, bne_iff_ne, beq_iff_eq] at h
  exact ⟨h.1.1, h.1.2, h.2⟩

/-- Where the sub-process stands behind its activity in the order of the ids, it is undone first. -/
theorem outer_undone_first : ∃ x, Run (undoneNested "z" "p") none "i" (callsFrom 1 undoneTriggers) x ∧ x.RootWalk ∧
    x.rootCompensations.reverse.Sublist x.recorded ∧
    ∃ earlier, x.dispatches = x.rootCompensations.drop x.compensating.nextIndex.toNat ++ earlier := by
  have hplay : playsTo (undoneNested "z" "p") undoneTriggers (fun x => walksFully x && decide (Ascends x.recorded)) =
    true := by
    decide
  obtain ⟨x, hrun, hP⟩ := run_of_playsTo hplay
  obtain ⟨hwalks, hasc⟩ := Bool.and_eq_true_iff.mp hP
  have hwalk := rootWalk_of_walksFully hwalks
  exact ⟨x, hrun, hwalk, full_walk_reverses hrun (.inl (of_decide_eq_true hasc)) hwalk⟩

/-- The activity `z` and its sub-process `p` are recorded in this order, in one step, and undone in this order. -/
theorem inner_undone_first : Accepted asciiTables (undoneNested "p" "z") ∧
    ((callsFrom 1 undoneTriggers).map (·.trigger.occurredAt)).Pairwise (· ≤ ·) ∧
    ∃ x, Run (undoneNested "p" "z") none "i" (callsFrom 1 undoneTriggers) x ∧ x.RootWalk ∧
      x.recorded.map (·.nodeID) = ["p", "z"] ∧ x.dispatches = x.recorded ∧
      ¬ x.rootCompensations.reverse.Sublist x.recorded := by
  have hplay : playsTo (undoneNested "p" "z") undoneTriggers (fun x => walksFully x &&
      decide (x.recorded.map (·.nodeID) = ["p", "z"] ∧ x.dispatches = x.recorded ∧
        ¬ x.rootCompensations.reverse.Sublist x.recorded)) = true := by decide
  obtain ⟨x, hrun, hP⟩ := run_of_playsTo hplay
  obtain ⟨hwalks, hfacts⟩ := Bool.and_eq_true_iff.mp hP
  exact ⟨by decide, by decide, x, hrun, rootWalk_of_walksFully hwalks, of_decide_eq_true hfacts⟩

end Wrkflw
