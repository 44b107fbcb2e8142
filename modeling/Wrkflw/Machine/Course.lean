import Wrkflw.Machine.Run

/-!
# The course of an instance

What decides how an instance goes on: its status, the walk in flight and where that leads, and the pending cancel.

* `ControlState.outlook` : these fields together. Most moves keep them;
* `Course` : what a move does to the outlook otherwise; `Move.course` : every move takes one of these courses;
* `Moves.walking` : a walk that the trigger does not answer is in flight as long as the step lasts.
-/

namespace Wrkflw

open ControlState

variable {cur : CompensationCursor}

/-- Where a walk resumes, or how it ends the instance. -/
structure Aim where
  resumeNode : String
  toNode : String
  reverseNode : String
  finalStatus : Status
  finalErr : String
  deriving DecidableEq, Repr

def CompensationCursor.aim (cur : CompensationCursor) : Aim :=
  ⟨cur.resumeNode, cur.toNode, cur.reverseNode, cur.finalStatus, cur.finalErr⟩

structure Outlook where
  status : Status
  command : String
  aim : Aim
  pendingCancel : Bool
  pendingFinalStatus : Status
  pendingFinalErr : String
  deriving DecidableEq, Repr

namespace ControlState

def outlook (s : ControlState) : Outlook :=
  ⟨s.status, s.compensating.activeCmdID, s.compensating.aim, s.pendingCancel, s.pendingFinalStatus, s.pendingFinalErr⟩

/-- The outlook with a walk of this aim under this command. -/
def outlookWith (s : ControlState) (command : String) (aim : Aim) : Outlook :=
  { s.outlook with status := .compensating, command := command, aim := aim }

theorem outlook_of_outline {s s' : ControlState} (h : s'.outline = s.outline) : s'.outlook = s.outlook := by
  have hout : ∀ p : ControlState, p.outline.outlook = p.outlook := fun _ => rfl
  rw [← hout s', h, hout s]

theorem outlook_removeToken (s : ControlState) (id : String) : (s.removeToken id).outlook = s.outlook := by
  obtain ⟨p, he, -⟩ := s.removeToken_shape id
  rw [he]
  rfl

theorem outlook_cancelToken (s : ControlState) (tok : Token) (at_ : Time) (kind : CloseKind) :
    (s.cancelToken tok at_ kind).outlook = s.outlook := by
  rcases s.cancelToken_shape tok at_ kind with he | ⟨t, -, -, -, h, -, he⟩
  · rw [he]
  · rw [he]
    rfl

theorem outlook_cancelListed (at_ : Time) (kind : CloseKind) (toks : List Token) (s : ControlState) :
    (s.cancelListed at_ kind toks).outlook = s.outlook := by
  induction toks generalizing s with
  | nil => rfl
  | cons tok toks ih => exact (ih _).trans (s.outlook_cancelToken tok at_ kind)

theorem outlook_closeScope (s : ControlState) (id : String) : (s.closeScope id).outlook = s.outlook := by
  obtain ⟨p, he⟩ := s.closeScope_shape id
  rw [he]
  rfl

theorem outlook_recordCompensation (s : ControlState) (scope : String) (rec : CompensationRecord) :
    (s.recordCompensation scope rec).outlook = s.outlook := by
  unfold recordCompensation
  split
  · rfl
  · split <;> rfl

theorem outlook_popOneDeferredThrow (s : ControlState) : s.popOneDeferredThrow.outlook = s.outlook := by
  unfold popOneDeferredThrow
  split
  · rfl
  · dsimp only
    split <;> rfl

theorem outlook_sweep {s s' : ControlState} (h : Sweep s s') : s'.outlook = s.outlook := by
  cases h with
  | archive id => exact outlook_of_outline (s.archiveCompensations_outline id)
  | cancel tok at_ kind => exact s.outlook_cancelToken tok at_ kind
  | consolidate => exact outlook_of_outline s.consolidate_outline

theorem outlook_sweeps {s s' : ControlState} (h : Sweeps s s') : s'.outlook = s.outlook := by
  induction h with
  | refl => rfl
  | tail _ hstep ih => exact (outlook_sweep hstep).trans ih

theorem outlook_parkedOn {s p : ControlState} {node : Node} {scopeID : String} (h : ParkedOn s p node scopeID) :
    p.outlook = s.outlook := by
  rcases h with rfl | ⟨tok, -, -, -, -, rfl⟩ <;> rfl

theorem outlook_resumeControl (g : IDGenerator) (at_ : Time) (plan : FinishPlan) (s : ControlState) :
    (resumeControl g at_ plan s).outlook = { s.outlook with status := .running } := by
  have hclear := outlook_of_outline (applyPlanRecordClearing_outline plan s)
  have hrun : ({ applyPlanRecordClearing plan s with status := .running } : ControlState).outlook =
      { s.outlook with status := .running } := by
    change ({ (applyPlanRecordClearing plan s).outlook with status := .running } : Outlook) = _
    rw [hclear]
  unfold resumeControl
  dsimp only
  split
  · rw [outlook_popOneDeferredThrow]
    split <;> exact hrun
  · split <;> exact hrun

theorem outlook_takePending (plan : FinishPlan) (s : ControlState) : (takePending plan s).outlook =
    { s.outlook with
      status := .compensating, pendingCancel := false, pendingFinalStatus := .running, pendingFinalErr := "" } := by
  have hclear := outlook_of_outline (applyPlanRecordClearing_outline plan
    { s with pendingCancel := false, pendingFinalStatus := .running, pendingFinalErr := "" })
  unfold takePending
  change ({ (applyPlanRecordClearing plan { s with
    pendingCancel := false, pendingFinalStatus := .running, pendingFinalErr := "" }).outlook with
      status := .compensating } : Outlook) = _
  rw [hclear]
  rfl

theorem outlook_settledDelete (s : ControlState) (plan : FinishPlan) :
    (applyDeleteArchive plan s.settled).outlook = s.settled.outlook := outlook_of_outline (applyDeleteArchive_outline plan _)

end ControlState

/-- The aim of the walk an outcome asks for. -/
def CompensationOutcome.aim (o : CompensationOutcome) : Aim := ⟨"", o.toNode, o.reverseNode, o.finalStatus, o.finalErr⟩

/-- What a move does to the outlook. -/
inductive Course (g : IDGenerator) (trg : TriggerBody) (s s' : ControlState) : Prop
  | steady (h : s'.outlook = s.outlook)
  | goesOn (hflight : s.InFlight) (htrg : Answers s trg ∨ ∃ timerID, trg = .timerFired timerID)
      (h : s'.outlook = s.outlookWith (s.nextCmdID g) s.compensating.aim)
  | cancelPended (hflight : s.InFlight) (hmode : s.compensating.resumeNode ≠ "" ∨ s.compensating.reverseNode ≠ "")
      (he : Event.cancelPended s.compensating ∈ since s s')
      (h : s'.outlook = { s.outlook with
        pendingCancel := true, pendingFinalStatus := .terminated, pendingFinalErr := "cancelled" })
  | failurePended (err : String) (hflight : s.InFlight) (hfwd : s.Forward)
      (he : Event.deferredFailure err s.compensating ∈ since s s')
      (h : s'.outlook = { s.outlook with
        pendingCancel := true, pendingFinalStatus := .failed, pendingFinalErr := err })
  | throws (hidle : ¬ s.InFlight) (hfwd : s.Forward) (aim : Aim)
      (h : s'.outlook = s.outlookWith (s.nextCmdID g) aim)
  | begins (hidle : ¬ s.InFlight) (o : CompensationOutcome) (hasked : Asked s trg o)
      (h : s'.outlook = s.outlookWith (s.nextCmdID g) o.aim)
  | resumes (cur : CompensationCursor) (hfin : Finishing trg s cur) (hres : (finishPlan s.settled cur).resume = true)
      (hpend : (finishPlan s.settled cur).consumePendingCancel = true → s.pendingCancel = false)
      (h : s'.outlook = { s.settled.outlook with status := .running })
  | overtaken (cur : CompensationCursor) (hfin : Finishing trg s cur)
      (hcons : (finishPlan s.settled cur).consumePendingCancel = true) (hpend : s.pendingCancel = true)
      (command : String) (hcmd : command ≠ "")
      (h : s'.outlook = ⟨.compensating, command, (pendingOutcome s).aim, false, .running, ""⟩)

section Course
variable {top : ProcessDefinition} {g : IDGenerator} {trg : TriggerBody} {s s' : ControlState}

theorem outlook_dispatch {idx : Int} {rec : CompensationRecord} {cmdID : String}
    (hst : s.status = .compensating) (hcmd : cur.activeCmdID = cmdID) :
    (s.dispatch cur idx rec cmdID).outlook = s.outlookWith cmdID cur.aim := by
  rw [outlook_of_outline (dispatch_outline s cur idx rec cmdID)]
  change (⟨s.status, cur.activeCmdID, cur.aim, s.pendingCancel, s.pendingFinalStatus, s.pendingFinalErr⟩ : Outlook) = _
  rw [hst, hcmd]
  rfl

/-- What is left when a pending cancel overtakes a finished walk. -/
theorem outlook_overtaken {p : ControlState}
    (hsweep : Sweeps (takePending (finishPlan s.settled cur) (applyDeleteArchive (finishPlan s.settled cur) s.settled)) p) :
    p.outlook = ⟨.compensating, "", ({} : CompensationCursor).aim, false, .running, ""⟩ := by
  rw [outlook_sweeps hsweep, outlook_takePending, outlook_settledDelete]
  rfl

theorem Move.course (hs : Phase g s) (hmove : Move top g trg s s') : Course g trg s s' := by
  cases hmove with
  | consume tok hmem hfree => exact .steady (s.outlook_removeToken tok.id)
  | cancel tok at_ kind => exact .steady (s.outlook_cancelToken tok at_ kind)
  | park p d node scopeID kind at_ hp hsite hkind hnone => exact .steady (outlook_parkedOn hp)
  | fireParallel p d node scopeID consumed hp hsite hmatch =>
    refine .steady ?_
    change p.outlook = s.outlook
    exact outlook_parkedOn hp
  | fireInclusive p d node scopeID consumed hp hsite htok hsub hcons =>
    refine .steady ?_
    change p.outlook = s.outlook
    exact outlook_parkedOn hp
  | teardown scope =>
    exact .steady ((outlook_closeScope _ scope).trans (outlook_of_outline (s.archiveAll_outline _)))
  | interrupt scope =>
    refine .steady ?_
    change (s.archiveAll (s.subtreeIDs scope)).outlook = s.outlook
    exact outlook_of_outline (s.archiveAll_outline _)
  | exit scope enclosing hne htok hchild hhold =>
    have harch := outlook_of_outline ((s.note (.exited scope enclosing s.tokens s.scopes
      s.compensating)).archiveCompensations_outline scope)
    exact .steady ((outlook_closeScope _ scope).trans harch)
  | record scope rec hfwd hhist => exact .steady (s.outlook_recordCompensation scope rec)
  | sweep s' hidle hsweep => exact .steady (outlook_sweep hsweep)
  | throwWalk tok at_ cur rec hthrow hfwd hidle hcur =>
    refine .throws hidle hfwd cur.aim ?_
    unfold throwDispatch
    rw [outlook_dispatch rfl hcur.active]
    obtain ⟨v, -, he⟩ := s.mintCommand.consumeTokenAs_shape tok at_ .normal
    have hout : (s.mintCommand.consumeToken tok at_).outlook = s.outlook := by
      unfold consumeToken
      rw [he]
      change (s.mintCommand.removeToken tok.id).outlook = s.mintCommand.outlook
      exact s.mintCommand.outlook_removeToken tok.id
    change ({ (s.mintCommand.consumeToken tok at_).outlook with
      status := .compensating, command := s.nextCmdID g, aim := cur.aim } : Outlook) = _
    rw [hout]
    rfl
  | next rec hflight hans hpos hto hrec =>
    refine .goesOn hflight (Or.inl hans) ?_
    unfold advance
    rw [outlook_dispatch (s := s.mintCommand) (hs.status.mpr hflight) (by rfl)]
    rfl
  | again rec attempts hflight hrec htrg =>
    refine .goesOn hflight htrg ?_
    unfold outlookWith
    rw [← hs.status.mpr hflight]
    rfl
  | pendCancel hflight hmode => exact .cancelPended hflight hmode (mem_since rfl) rfl
  | pendFailure err hflight hfwd htok => exact .failurePended err hflight hfwd (mem_since rfl) rfl
  | begin at_ o rec hidle hclear hasked hrec => exact .begins hidle o hasked rfl
  | resume cur at_ hfin hres hpend hscope =>
    refine .resumes cur hfin hres hpend ?_
    rw [outlook_resumeControl, outlook_settledDelete]
  | pendingWalk cur at_ p rec hfin hcons hpend hsweep hclear hrec =>
    refine .overtaken cur hfin hcons hpend (p.nextCmdID g) (inFlight_nextCmdID g p) ?_
    change p.outlookWith (p.nextCmdID g) (pendingOutcome s).aim = _
    unfold outlookWith
    rw [outlook_overtaken hsweep]
  | _ => exact .steady rfl

/-- A walk stands on a record, so only an answer finishes it. -/
theorem Finishing.answers (hs : Phase g s) (hflight : s.InFlight) (hfin : Finishing trg s cur) :
    cur = s.compensating ∧ Answers s trg ∧ Exhausted s := by
  cases hfin with
  | walk _ hans =>
    rcases hans with hans | hnone
    · exact ⟨rfl, hans⟩
    · obtain ⟨rec, hrec⟩ := (hs.walk hflight).currentRecord
      rw [hrec] at hnone
      cases hnone
  | idle o hidle => exact absurd hflight hidle

/-! ## Endings -/

/-- The instance ended with this status and this error. -/
structure EndsAs (s s' : ControlState) (st : Status) (err : String) : Prop where
  status : s'.status = st
  idle : s'.compensating = {}
  event : ∃ cur, Event.ended st err cur ∈ since s s'

theorem EndsAs.endControl (s : ControlState) (st : Status) (err : String) : EndsAs s (s.endControl st err) st err := by
  refine ⟨endControl_ended s st err, rfl, s.compensating, ?_⟩
  have htr : (s.endControl st err).trace = [.ended st err s.compensating] ++ s.trace := by
    change Event.ended st err s.compensating :: ({ s with status := st }.harvestOpenScopeCompensations).trace = _
    rw [(sameOutline (harvest_outline { s with status := st })).trace]
    rfl
  rw [since_eq htr]
  exact List.mem_singleton.mpr rfl

theorem EndsAs.after {p : ControlState} {st : Status} {err : String} (h : EndsAs p s' st err) (hpre : Logs true top g s p)
    (hpost : Logs true top g p s') : EndsAs s s' st err := by
  refine ⟨h.status, h.idle, ?_⟩
  obtain ⟨cur, he⟩ := h.event
  refine ⟨cur, ?_⟩
  rw [hpre.since_trans hpost]
  exact List.mem_append_left _ he

theorem EndsAs.note {e : Event} {st : Status} {err : String} (h : EndsAs (s.note e) s' st err)
    (hpost : Logs true top g (s.note e) s') (he : e.Noted top g) : EndsAs s s' st err ∧ e ∈ since s s' := by
  have hnote : Logs true top g s (s.note e) := Logs.note (Logs.same (by rfl)) e he (by simp)
  refine ⟨h.after hnote hpost, ?_⟩
  rw [hnote.since_trans hpost]
  exact List.mem_append_right _ (mem_since rfl)

/-- How an end ends the instance. -/
inductive Ending (trg : TriggerBody) (s s' : ControlState) : Prop
  | complete (hlive : s.status.isTerminal = false) (hidle : ¬ s.InFlight) (htok : s.tokens = [])
      (h : EndsAs s s' .completed "")
  | idle (st : Status) (err : String) (hlive : s.status.isTerminal = false) (hidle : ¬ s.InFlight)
      (hst : st = .terminated ∨ st = .failed) (h : EndsAs s s' st err)
  | childFailed (err : String) (hlive : s.status.isTerminal = false) (htok : s.tokens ≠ [])
      (he : Event.childFailed err s.compensating ∈ since s s') (h : EndsAs s s' .failed err)
  | forced (outcome : TerminationOutcome) (err : String) (hlive : s.status.isTerminal = false) (htok : s.tokens ≠ [])
      (he : Event.forced outcome s.pendingCancel ∈ since s s') (h : EndsAs s s' (forcedStatus outcome) err)
  | terminate (cur : CompensationCursor) (hfin : Finishing trg s cur) (hmode : cur.walkMode = .admin)
      (h : EndsAs s s' (finalStatusOf cur.finalStatus) cur.finalErr)
  | abandon (hflight : s.InFlight) (hans : Answers s trg) (hmode : s.compensating.walkMode = .admin)
      (h : EndsAs s s' (finalStatusOf s.compensating.finalStatus) s.compensating.finalErr)
  | pending (cur : CompensationCursor) (hfin : Finishing trg s cur)
      (hcons : (finishPlan s.settled cur).consumePendingCancel = true) (hpend : s.pendingCancel = true)
      (h : EndsAs s s' (pendingOutcome s).finalStatus (pendingOutcome s).finalErr)

theorem Ending.endsAs (h : Ending trg s s') : ∃ st err, EndsAs s s' st err := by
  cases h with
  | complete hlive hidle htok h => exact ⟨_, _, h⟩
  | idle st err hlive hidle hst h => exact ⟨_, _, h⟩
  | childFailed err hlive htok he h => exact ⟨_, _, h⟩
  | forced outcome err hlive htok he h => exact ⟨_, _, h⟩
  | terminate cur hfin hmode h => exact ⟨_, _, h⟩
  | abandon hflight hans hmode h => exact ⟨_, _, h⟩
  | pending cur hfin hcons hpend h => exact ⟨_, _, h⟩

theorem End.ending (top : ProcessDefinition) (g : IDGenerator) (hend : End trg s s') : Ending trg s s' := by
  cases hend with
  | complete hlive hdrained =>
    unfold drained at hdrained
    rw [Bool.and_eq_true, beq_iff_eq, List.isEmpty_iff] at hdrained
    exact .complete hlive (fun hin => hin hdrained.2) hdrained.1 (EndsAs.endControl s .completed "")
  | idle st err hlive hidle hst => exact .idle st err hlive hidle hst (EndsAs.endControl s st err)
  | childFailed err hlive htok =>
    have hrest : Logs true top g (s.note (.childFailed err s.compensating)) _ := Logs.endControl _ .failed err
    obtain ⟨h, he⟩ := (EndsAs.endControl _ .failed err).note hrest trivial
    exact .childFailed err hlive htok he h
  | forced outcome at_ err hlive htok =>
    have hcancel : Logs true top g (s.note (.forced outcome s.pendingCancel)) _ :=
      Logs.cancelListed at_ .terminated s.tokens _
    have hrest : Logs true top g ((s.note (.forced outcome s.pendingCancel)).cancelListed at_ .terminated s.tokens) _ :=
      Logs.endControl _ (forcedStatus outcome) err
    obtain ⟨h, he⟩ := ((EndsAs.endControl _ (forcedStatus outcome) err).after hcancel hrest).note
      (hcancel.trans hrest) trivial
    exact .forced outcome err hlive htok he h
  | terminate cur hfin hmode =>
    refine .terminate cur hfin hmode ?_
    have hclear : Logs true top g s (s.settled.clearRecords cur.scopeID) :=
      Logs.trans (Logs.same (by rfl)) (Logs.of_outline (s.settled.mapRecords_outline cur.scopeID (fun _ => [])))
    exact (EndsAs.endControl _ (finalStatusOf cur.finalStatus) cur.finalErr).after hclear (Logs.endControl _ _ _)
  | abandon hflight hans hmode =>
    refine .abandon hflight hans hmode ?_
    have hclear : Logs true top g s (s.settled.clearRecords s.compensating.scopeID) :=
      Logs.trans (Logs.same (by rfl)) (Logs.of_outline (s.settled.mapRecords_outline s.compensating.scopeID (fun _ => [])))
    have hends := (EndsAs.endControl (s.settled.clearRecords s.compensating.scopeID)
      (finalStatusOf s.compensating.finalStatus) s.compensating.finalErr).after hclear (Logs.endControl _ _ _)
    -- the retained records come back after the end
    unfold setScopeRecords
    have ho := sameOutline (mapRecords_outline ((s.settled.clearRecords s.compensating.scopeID).endControl
      (finalStatusOf s.compensating.finalStatus) s.compensating.finalErr) s.compensating.scopeID
      (fun _ => s.retainedRecordPrefix s.compensating.scopeID s.compensating.nextIndex))
    refine ⟨ho.status.trans hends.status, (mapRecords_compensating _ _ _).trans hends.idle, ?_⟩
    obtain ⟨cur, he⟩ := hends.event
    refine ⟨cur, ?_⟩
    unfold since
    rw [ho.trace]
    exact he
  | pending cur p hfin hcons hpend hsweep hclear hnone =>
    refine .pending cur hfin hcons hpend ?_
    have htake : Logs true top g s p :=
      ((Logs.deleted s (finishPlan s.settled cur)).trans (Logs.takePending (finishPlan s.settled cur) _)).trans
        (Logs.sweeps hsweep)
    exact (EndsAs.endControl p _ _).after htake (Logs.endControl _ _ _)

end Course

end Wrkflw
