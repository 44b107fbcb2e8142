import Wrkflw.Machine.StepPaths

/-!
# What a step records

The compensation records of an instance are appended by the answer of an action and by the normal end of a sub-process
only. `ControlState.recorded` is what was recorded, newest first; each lemma below says that an operation, a handler or a
strategy records nothing by itself (`Unrecorded`): what is recorded behind it is recorded by the loop it hands over to.
-/

namespace Wrkflw

open ControlState
open InstanceState (cancelTimersForToken_control complete_control endInstance_control removeBoundaryArmsForHost_control
  removeTimer_control retireCompensationStallIncidents_control)

/-! ## What was recorded -/

def Event.record? : Event → Option CompensationRecord
  | .recorded rec => some rec
  | _ => none

namespace ControlState
variable (s : ControlState)

def recorded : List CompensationRecord := s.trace.filterMap Event.record?

@[simp] theorem recorded_updateOpenVisit (tokenID nodeID : String) (f : NodeVisit → NodeVisit) :
    (s.updateOpenVisit tokenID nodeID f).recorded = s.recorded := by
  unfold updateOpenVisit
  split <;> rfl

@[simp] theorem recorded_closeVisitAs (tokenID nodeID : String) (at_ : Time) (kind : CloseKind) :
    (s.closeVisitAs tokenID nodeID at_ kind).recorded = s.recorded := s.recorded_updateOpenVisit _ _ _

@[simp] theorem recorded_closeVisit (tokenID nodeID : String) (at_ : Time) :
    (s.closeVisit tokenID nodeID at_).recorded = s.recorded := s.recorded_updateOpenVisit _ _ _

@[simp] theorem recorded_setVisitTask (tokenID nodeID taskID : String) :
    (s.setVisitTask tokenID nodeID taskID).recorded = s.recorded := s.recorded_updateOpenVisit _ _ _

@[simp] theorem recorded_placeTokenInScope (g : IDGenerator) (nodeID scopeID flow : String) (at_ : Time) :
    (s.placeTokenInScope g nodeID scopeID flow at_).recorded = s.recorded := rfl

@[simp] theorem recorded_relocate (tok : Token) (target flow : String) (at_ : Time) :
    (s.relocate tok target flow at_).recorded = s.recorded := rfl

@[simp] theorem recorded_moveTokenToTargetAs (tok : Token) (target flow : String) (at_ : Time) (kind : CloseKind) :
    (s.moveTokenToTargetAs tok target flow at_ kind).recorded = s.recorded := s.recorded_closeVisitAs _ _ _ _

@[simp] theorem recorded_moveTokenToTarget (tok : Token) (target flow : String) (at_ : Time) :
    (s.moveTokenToTarget tok target flow at_).recorded = s.recorded := s.recorded_moveTokenToTargetAs _ _ _ _ _

@[simp] theorem recorded_removeToken (id : String) : (s.removeToken id).recorded = s.recorded := by
  unfold removeToken
  split <;> rfl

@[simp] theorem recorded_consumeTokenAs (tok : Token) (at_ : Time) (kind : CloseKind) :
    (s.consumeTokenAs tok at_ kind).recorded = s.recorded := by
  unfold consumeTokenAs
  rw [recorded_removeToken, recorded_closeVisitAs]

@[simp] theorem recorded_consumeToken (tok : Token) (at_ : Time) : (s.consumeToken tok at_).recorded = s.recorded :=
  s.recorded_consumeTokenAs _ _ _

@[simp] theorem recorded_cancelToken (tok : Token) (at_ : Time) (kind : CloseKind) :
    (s.cancelToken tok at_ kind).recorded = s.recorded := by
  unfold cancelToken
  split
  · exact s.recorded_consumeTokenAs _ _ _
  · rfl

/-- A fold over operations that record nothing records nothing. -/
theorem recorded_foldl {α : Type} {f : ControlState → α → ControlState} (hf : ∀ s a, (f s a).recorded = s.recorded)
    (l : List α) (s : ControlState) : (l.foldl f s).recorded = s.recorded := by
  induction l generalizing s with
  | nil => rfl
  | cons a l ih => exact (ih (f s a)).trans (hf s a)

@[simp] theorem recorded_cancelListed (at_ : Time) (kind : CloseKind) (toks : List Token) :
    (s.cancelListed at_ kind toks).recorded = s.recorded :=
  recorded_foldl (fun s tok => s.recorded_cancelToken tok at_ kind) toks s

@[simp] theorem recorded_cancelAllTokens (at_ : Time) (kind : CloseKind) :
    (s.cancelAllTokens at_ kind).recorded = s.recorded := by
  unfold cancelAllTokens
  refine recorded_foldl (fun s tok => ?_) s.tokens s
  exact s.recorded_closeVisitAs tok.id tok.nodeID at_ kind

@[simp] theorem recorded_archiveCompensations (id : String) : (s.archiveCompensations id).recorded = s.recorded := by
  unfold archiveCompensations
  split
  · rfl
  · split <;> rfl

@[simp] theorem recorded_archiveAll (ids : List String) : (s.archiveAll ids).recorded = s.recorded :=
  recorded_foldl (fun s id => s.recorded_archiveCompensations id) ids s

@[simp] theorem recorded_harvestOpenScopeCompensations : s.harvestOpenScopeCompensations.recorded = s.recorded :=
  s.recorded_archiveAll _

@[simp] theorem recorded_consolidateArchiveIntoRoot : s.consolidateArchiveIntoRoot.recorded = s.recorded := by
  unfold consolidateArchiveIntoRoot
  split <;> rfl

@[simp] theorem recorded_closeScope (id : String) : (s.closeScope id).recorded = s.recorded := by
  unfold closeScope
  split <;> rfl

@[simp] theorem recorded_exitScope (id : String) (enclosing : Bool) : (s.exitScope id enclosing).recorded = s.recorded := by
  unfold exitScope
  rw [recorded_closeScope, recorded_archiveCompensations]
  rfl

@[simp] theorem recorded_mapRecords (id : String) (f : List CompensationRecord → List CompensationRecord) :
    (s.mapRecords id f).recorded = s.recorded := by
  unfold mapRecords
  split <;> rfl

@[simp] theorem recorded_consumeDispatchedRecord (idx : Int) : (s.consumeDispatchedRecord idx).recorded = s.recorded := by
  unfold consumeDispatchedRecord
  dsimp only
  split
  · rfl
  · split
    · rfl
    · split <;> rfl

@[simp] theorem recorded_dispatch (cur : CompensationCursor) (idx : Int) (rec : CompensationRecord) (cmdID : String) :
    (s.dispatch cur idx rec cmdID).recorded = s.recorded :=
  { s with compensating := cur }.recorded_consumeDispatchedRecord idx

@[simp] theorem recorded_retryCurrent (g : IDGenerator) (rec : CompensationRecord) (attempts : Int) :
    (s.retryCurrent g rec attempts).recorded = s.recorded := rfl

@[simp] theorem recorded_throwDispatch (tok : Token) (at_ : Time) (cur : CompensationCursor) (rec : CompensationRecord)
    (cmdID : String) : (s.throwDispatch tok at_ cur rec cmdID).recorded = s.recorded := by
  unfold throwDispatch
  rw [recorded_dispatch]
  exact s.recorded_consumeToken tok at_

@[simp] theorem recorded_endControl (st : Status) (err : String) : (s.endControl st err).recorded = s.recorded :=
  { s with status := st }.recorded_harvestOpenScopeCompensations

@[simp] theorem recorded_popOneDeferredThrow : s.popOneDeferredThrow.recorded = s.recorded := by
  unfold popOneDeferredThrow
  split
  · rfl
  · dsimp only
    split <;> rfl

@[simp] theorem recorded_status (st : Status) : ({ s with status := st } : ControlState).recorded = s.recorded := rfl

theorem recorded_dropArchiveWindow (key : String) (offset : Int) (n : Nat) (s : ControlState) :
    (dropArchiveWindow key offset n s).recorded = s.recorded := by
  induction n generalizing s with
  | zero => rfl
  | succ n ih => exact ih _

@[simp] theorem recorded_applyPlanRecordClearing (plan : FinishPlan) :
    (applyPlanRecordClearing plan s).recorded = s.recorded := by
  unfold applyPlanRecordClearing
  split
  · rfl
  · split
    · dsimp only
      split
      · exact s.recorded_mapRecords _ _
      · rw [recorded_dropArchiveWindow]
        exact s.recorded_mapRecords _ _
    · exact s.recorded_mapRecords _ _

@[simp] theorem recorded_applyDeleteArchive (plan : FinishPlan) : (applyDeleteArchive plan s).recorded = s.recorded := by
  unfold applyDeleteArchive
  split <;> rfl

@[simp] theorem recorded_consumePending (plan : FinishPlan) : (consumePending plan s).recorded = s.recorded := by
  unfold consumePending takePending
  rw [recorded_harvestOpenScopeCompensations, recorded_status, recorded_applyPlanRecordClearing]
  rfl

@[simp] theorem recorded_resumeControl (g : IDGenerator) (at_ : Time) (plan : FinishPlan) :
    (resumeControl g at_ plan s).recorded = s.recorded := by
  have hcleared : ({ applyPlanRecordClearing plan s with status := .running }.note
      (.resumed plan.popDeferred s.deferredCompensationThrows)).recorded = s.recorded :=
        s.recorded_applyPlanRecordClearing plan
  unfold resumeControl
  dsimp only
  split
  · rw [recorded_popOneDeferredThrow]
    split
    · exact hcleared
    · exact hcleared
  · split
    · exact hcleared
    · exact hcleared

theorem recorded_placeOnFlows (g : IDGenerator) (scopeID : String) (at_ : Time) (fs : List FlowRef) (s : ControlState) :
    (placeOnFlows g scopeID at_ fs s).recorded = s.recorded := by
  induction fs generalizing s with
  | nil => rfl
  | cons f fs ih => exact ih _

theorem recorded_fireJoin (g : IDGenerator) (d : ProcessDefinition) (nodeID scopeID : String)
    (at_ : Time) (consumed : List Token) :
    (fireJoin g d s nodeID scopeID at_ consumed).recorded = s.recorded := by
  unfold fireJoin
  rw [recorded_placeOnFlows]
  exact recorded_foldl (fun s t => s.recorded_closeVisit t.id t.nodeID at_) consumed s

theorem recorded_tryJoin {g : IDGenerator} {d : ProcessDefinition} {s s' : ControlState} {node : Node} {scopeID : String}
    {at_ : Time} (h : tryJoin g d s node scopeID at_ = some s') : s'.recorded = s.recorded := by
  unfold tryJoin at h
  split at h
  · unfold tryParallelJoin at h
    split at h
    · cases h
    · cases h
      exact recorded_fireJoin _ _ _ _ _ _ _
  · unfold tryInclusiveJoin at h
    dsimp only at h
    split at h
    · cases h
    · split at h
      · cases h
      · cases h
        exact recorded_fireJoin _ _ _ _ _ _ _
  · cases h

end ControlState

/-! ## Results that record nothing -/

/-- Where there is a result, what was recorded is this. -/
def Unrecorded (rs : List CompensationRecord) (res : EngineResult) : Prop := ∀ r, res = .ok r → r.state.recorded = rs

/-- The loop records nothing. -/
def RecordsNothing (drv : DriveLoop) : Prop := ∀ x, Unrecorded x.recorded (drv x)

namespace Unrecorded
variable {rs : List CompensationRecord} {res : EngineResult}

theorem ok {r : StepResult} (h : r.state.recorded = rs) : Unrecorded rs (.ok r) := by
  intro r' hr
  cases hr
  exact h

theorem error (e : EngineError) : Unrecorded rs (.error e) := fun _ h => by cases h

theorem prepend (h : Unrecorded rs res) (cmds : List Command) : Unrecorded rs (res.map (·.prepend cmds)) := by
  intro r hr
  obtain ⟨r', hr', rfl⟩ := map_prepend_ok hr
  exact h r' hr'

theorem mapError (h : Unrecorded rs res) (f : EngineError → EngineError) : Unrecorded rs (res.mapError f) := by
  cases res with
  | error e => exact error _
  | ok r => exact h

theorem bind {α : Type} {x : Except EngineError α} {f : α → EngineResult} (h : ∀ a, x = .ok a → Unrecorded rs (f a)) :
    Unrecorded rs (x >>= f) := by
  intro r hr
  obtain ⟨a, ha, hr⟩ := bind_ok hr
  exact h a ha r hr

end Unrecorded

theorem recorded_moveAlong (g : IDGenerator) (d : ProcessDefinition) (x : InstanceState) (tok : Token) (at_ : Time) :
    (moveAlongSingleFlow g d x tok at_).recorded = x.recorded := by
  have hclosed : (x.onControl (·.closeVisit tok.id tok.nodeID at_)).recorded = x.recorded :=
    x.toControlState.recorded_closeVisit _ _ _
  unfold moveAlongSingleFlow
  dsimp only
  split
  · exact hclosed
  · exact hclosed

section Handlers
variable {drv : DriveLoop} {c : StepCtx} {x : InstanceState} (hdrv : RecordsNothing drv)
include hdrv

theorem unrecorded_thenDrive {rs : List CompensationRecord} {r : StepResult} (h : r.state.recorded = rs) :
    Unrecorded rs (thenDrive drv r) := by
  subst h
  exact (hdrv r.state).prepend r.commands

/-! ## Walks -/

theorem unrecorded_applyFinishWith {begin_ : InstanceState → CompensationOutcome → EngineResult}
    (hbegin : ∀ x o, Unrecorded x.recorded (begin_ x o)) (plan : FinishPlan) :
    Unrecorded x.recorded (applyFinishWith drv begin_ c x plan) := by
  have hdel : (x.onControl (applyDeleteArchive plan)).recorded = x.recorded :=
    x.toControlState.recorded_applyDeleteArchive plan
  unfold applyFinishWith
  dsimp only
  split
  · intro r hr
    refine (hbegin _ _ r hr).trans (Eq.trans ?_ hdel)
    exact ControlState.recorded_consumePending _ plan
  · split
    · refine Unrecorded.ok ?_
      unfold applyTerminate
      dsimp only
      rw [endInstance_control, recorded_endControl]
      exact (ControlState.recorded_applyPlanRecordClearing _ plan).trans hdel
    · have hres : (({ x.onControl (applyDeleteArchive plan) with
          endedAt := none, vars := resumeVars plan (x.onControl (applyDeleteArchive plan)) } : InstanceState).onControl
          (resumeControl c.ids c.at_ plan)).recorded = x.recorded :=
        (ControlState.recorded_resumeControl _ c.ids c.at_ plan).trans hdel
      split
      · refine Unrecorded.ok ?_
        rw [complete_control, recorded_endControl]
        exact hres
      · refine Unrecorded.bind (fun r hr => Unrecorded.bind (fun r' hr' => Unrecorded.ok ?_))
        refine (hdrv _ r' hr').trans ?_
        rw [rearmRoot_control hr]
        exact hres

theorem unrecorded_finishWith {begin_ : InstanceState → CompensationOutcome → EngineResult}
    (hbegin : ∀ x o, Unrecorded x.recorded (begin_ x o)) (toNode : String) :
    Unrecorded x.recorded (stepCompensationFinishWith drv begin_ c x toNode) :=
  (unrecorded_applyFinishWith hdrv hbegin _).prepend _

omit hdrv in
theorem unrecorded_beginWith {finish : InstanceState → String → EngineResult}
    (hfinish : ∀ x toNode, Unrecorded x.recorded (finish x toNode)) (o : CompensationOutcome) :
    Unrecorded x.recorded (beginCompensationWith finish c x o) := by
  have hclear : (clearForWalk c x o.closeKind).state.recorded = x.recorded := by
    rw [clearForWalk_control, recorded_consolidateArchiveIntoRoot, recorded_cancelListed]
  have hidle := (hfinish ((clearForWalk c x o.closeKind).state.onControl (fun s => { s with compensating := o.idleCursor }))
    o.toNode).prepend (clearForWalk c x o.closeKind).commands
  rw [show ((clearForWalk c x o.closeKind).state.onControl (fun s => { s with compensating := o.idleCursor })).recorded =
    x.recorded from hclear] at hidle
  unfold beginCompensationWith
  dsimp only
  split
  · exact Unrecorded.error _
  · split
    · exact hidle
    · split
      · exact hidle
      · refine Unrecorded.ok ?_
        rw [StepResult.prepend_state, afterDispatch_control]
        exact hclear

theorem unrecorded_beginTerminating (x : InstanceState) (o : CompensationOutcome) :
    Unrecorded x.recorded (beginTerminating drv c x o) :=
  unrecorded_beginWith (fun _ toNode => unrecorded_finishWith hdrv (fun _ _ => Unrecorded.error _) toNode) o

theorem unrecorded_finish (x : InstanceState) (toNode : String) :
    Unrecorded x.recorded (stepCompensationFinish drv c x toNode) :=
  unrecorded_finishWith hdrv (unrecorded_beginTerminating hdrv) toNode

theorem unrecorded_begin (x : InstanceState) (o : CompensationOutcome) :
    Unrecorded x.recorded (beginCompensation drv c x o) :=
  unrecorded_beginWith (unrecorded_finish hdrv) o

theorem unrecorded_advance : Unrecorded x.recorded (stepCompensationAdvance drv c x) := by
  have hret : (x.retireCompensationStallIncidents x.compensating.activeCmdID).recorded = x.recorded := by
    rw [retireCompensationStallIncidents_control]
  have hfin := unrecorded_finish (c := c) hdrv (x.retireCompensationStallIncidents x.compensating.activeCmdID)
    x.compensating.toNode
  rw [hret] at hfin
  unfold stepCompensationAdvance
  dsimp only
  split
  · exact hfin
  · split
    · exact hfin
    · refine Unrecorded.ok ?_
      rw [afterDispatch_control]
      refine (ControlState.recorded_dispatch _ _ _ _ _).trans ?_
      exact hret

theorem unrecorded_retryStalled : Unrecorded x.recorded (retryStalledCompensation drv c x) := by
  unfold retryStalledCompensation
  dsimp only
  split
  · have hfin := unrecorded_finish (c := c) hdrv (x.retireCompensationStallIncidents x.compensating.activeCmdID)
      x.compensating.toNode
    rw [retireCompensationStallIncidents_control] at hfin
    exact hfin
  · refine Unrecorded.ok ?_
    rw [redispatchCurrent_control, ControlState.recorded_retryCurrent,
      InstanceState.retireCompensationFailedIncidents_control, retireCompensationStallIncidents_control]

theorem unrecorded_retryFailed (tr : TimerRecord) : Unrecorded x.recorded (retryFailedCompensation drv c x tr) := by
  have hrem : (x.removeTimer tr.timerID).recorded = x.recorded := by rw [removeTimer_control]
  unfold retryFailedCompensation
  dsimp only
  split
  · exact Unrecorded.ok hrem
  · split
    · have hfin := unrecorded_finish (c := c) hdrv (x.removeTimer tr.timerID) (x.removeTimer tr.timerID).compensating.toNode
      rw [hrem] at hfin
      exact hfin
    · refine Unrecorded.ok ?_
      rw [redispatchCurrent_control, ControlState.recorded_retryCurrent,
        InstanceState.retireCompensationFailedIncidents_control, removeTimer_control]

theorem unrecorded_abandon : Unrecorded x.recorded (abandonCompensationWalk drv c x) := by
  unfold abandonCompensationWalk
  dsimp only
  split
  · exact Unrecorded.error _
  · refine Unrecorded.bind (fun r hr => Unrecorded.ok ?_)
    refine (ControlState.recorded_mapRecords _ _ _).trans ((unrecorded_finish hdrv _ _ r hr).trans ?_)
    rw [retireCompensationStallIncidents_control]

theorem unrecorded_resolveStall (commandID incidentID : String) (disposition : CompensationDisposition) :
    Unrecorded x.recorded (handleResolveCompensationStall drv c x commandID incidentID disposition) := by
  unfold handleResolveCompensationStall
  split
  · exact Unrecorded.error _
  · split
    · exact Unrecorded.error _
    · split
      · exact Unrecorded.error _
      · cases disposition with
        | retry => exact unrecorded_retryStalled hdrv
        | skip => exact unrecorded_advance hdrv
        | abandon => exact unrecorded_abandon hdrv

theorem unrecorded_compensateRequested (toNode reverseNode : String) (resetVars restoreTargetVars : Bool) :
    Unrecorded x.recorded (stepCompensateRequested drv c x toNode reverseNode resetVars restoreTargetVars) := by
  unfold stepCompensateRequested
  split
  · exact Unrecorded.error _
  · split
    · exact Unrecorded.error _
    · split
      · split
        · exact Unrecorded.error _
        · exact Unrecorded.ok rfl
      · split
        · exact Unrecorded.error _
        · intro r hr
          refine (unrecorded_begin hdrv _ _ r hr).trans ?_
          split
          · exact ControlState.recorded_harvestOpenScopeCompensations _
          · rfl

/-! ## Errors and arms -/

omit hdrv in
theorem recorded_fireOnce (name : String) : (emitFireOnceAction c.ids x name).state.recorded = x.recorded := by
  rcases emitFireOnceAction_control c.ids x name with he | he
  · rw [he]
  · rw [he]
    rfl

omit hdrv in
theorem recorded_cancelScopeSubtree (scopeID : String) (kind : CloseKind) :
    (cancelScopeSubtree x scopeID c.at_ kind).state.recorded = x.recorded := by
  obtain ⟨toks, he⟩ := cancelScopeSubtree_control x scopeID c.at_ kind
  rw [he, recorded_archiveAll, recorded_cancelListed]

theorem unrecorded_routeToBoundary {d : ProcessDefinition} {nodeID kind scopeID : String} {e : BoundaryEvent}
    {consume : InstanceState → StepResult} (hconsume : ∀ y, (consume y).state.recorded = y.recorded) :
    Unrecorded x.recorded (routeToBoundary drv c x d nodeID e kind scopeID consume) := by
  unfold routeToBoundary
  dsimp only
  split
  · exact Unrecorded.error _
  · refine unrecorded_thenDrive hdrv ?_
    exact (hconsume _).trans (recorded_fireOnce e.action)

theorem unrecorded_unhandled (scopeID nodeID tokenID errorCode : String) (raiseIncident : Bool) :
    Unrecorded x.recorded (handleUnhandledError drv c x scopeID nodeID tokenID errorCode raiseIncident) := by
  unfold handleUnhandledError
  split
  · refine Unrecorded.ok ?_
    unfold raiseActionIncident
    dsimp only
    rw [InstanceState.raise_control]
    split <;> rfl
  · split
    · refine Unrecorded.ok ?_
      unfold deferFailureToInFlightCompensationWalk
      dsimp only
      change (cancelTokens c.at_ .errored x.tokens x).state.recorded = x.recorded
      rw [cancelTokens_control, recorded_cancelListed]
    · dsimp only
      split
      · intro r hr
        refine (unrecorded_begin hdrv _ _ r hr).trans ?_
        exact x.toControlState.recorded_harvestOpenScopeCompensations
      · refine Unrecorded.ok ?_
        rw [endInstance_control, recorded_endControl]
        exact x.toControlState.recorded_harvestOpenScopeCompensations

theorem unrecorded_propagateError (scopeID nodeID tokenID errorCode : String) (cause : Option String) (raiseIncident : Bool) :
    Unrecorded x.recorded (propagateError drv c x scopeID nodeID tokenID errorCode cause raiseIncident) := by
  unfold propagateError
  refine Unrecorded.bind (fun ownDef _ => ?_)
  dsimp only
  split
  · refine unrecorded_routeToBoundary hdrv (fun y => ?_)
    unfold consumeFailing
    dsimp only
    split
    · exact ControlState.recorded_consumeTokenAs _ _ _ _
    · rfl
  · refine Unrecorded.bind (fun handler _ => ?_)
    split
    · refine unrecorded_routeToBoundary hdrv (fun y => ?_)
      exact (ControlState.recorded_closeScope _ _).trans (recorded_cancelScopeSubtree _ _)
    · exact unrecorded_unhandled hdrv _ _ _ _ _

theorem unrecorded_fireBoundaryArm (ba : BoundaryArm) : Unrecorded x.recorded (fireBoundaryArm drv c x ba) := by
  unfold fireBoundaryArm
  split
  · refine Unrecorded.ok ?_
    rw [removeBoundaryArmsForHost_control]
  · refine Unrecorded.bind (fun tdef _ => ?_)
    split
    · exact Unrecorded.error _
    · split
      · exact Unrecorded.error _
      · refine unrecorded_thenDrive hdrv ?_
        refine (ControlState.recorded_placeTokenInScope _ _ _ _ _ _).trans ?_
        split
        · exact recorded_fireOnce _
        · rw [cancelTokenWaits_control, recorded_cancelToken]
          exact recorded_fireOnce _

omit hdrv in
theorem recorded_interruptScope (scopeID : String) : (interruptScope c x scopeID).state.recorded = x.recorded := by
  refine Eq.trans ?_ (recorded_cancelScopeSubtree (c := c) scopeID .boundaryInterrupted)
  rfl

theorem unrecorded_fireEventSubprocess (ea : EventTriggeredSubprocessArm) :
    Unrecorded x.recorded (fireEventTriggeredSubprocessArm drv c x ea) := by
  unfold fireEventTriggeredSubprocessArm
  split
  · exact Unrecorded.ok rfl
  · split
    · exact Unrecorded.ok rfl
    · refine Unrecorded.bind (fun d _ => ?_)
      split
      · exact Unrecorded.ok rfl
      · refine unrecorded_thenDrive hdrv ?_
        have hopens : ∀ y : InstanceState, ∀ start, (y.onControl (openEventSubprocess c ea start)).recorded = y.recorded :=
          fun _ _ => rfl
        rw [hopens]
        split
        · rfl
        · exact recorded_interruptScope _

theorem unrecorded_gatewayWin (ae : ArmedEvent) : Unrecorded x.recorded (resolveGatewayWin drv c x ae) := by
  unfold resolveGatewayWin
  split
  · refine Unrecorded.ok ?_
    rw [InstanceState.removeArmedEventsForGateway_control]
  · refine Unrecorded.bind (fun tdef _ => ?_)
    refine unrecorded_thenDrive hdrv ?_
    dsimp only
    rw [InstanceState.removeArmedEventsForGateway_control]
    unfold winningMove
    dsimp only
    split
    · split
      · refine (ControlState.recorded_relocate _ _ _ _ _).trans ((ControlState.recorded_closeVisit _ _ _ _).trans ?_)
        rfl
      · exact recorded_moveAlong _ _ _ _ _
    · exact recorded_moveAlong _ _ _ _ _

theorem unrecorded_armCascade {onMatch : InstanceState → InstanceState} (hmatch : ∀ y, (onMatch y).recorded = y.recorded)
    {gw : Option ArmedEvent} {boundary : Option BoundaryArm} {eventSub : Option EventTriggeredSubprocessArm}
    {res : EngineResult}
    (h : dispatchArmCascade drv c x onMatch gw boundary eventSub = some res) : Unrecorded x.recorded res := by
  rw [← hmatch x]
  unfold dispatchArmCascade at h
  split at h
  · cases h
  · split at h
    · cases h
      exact unrecorded_gatewayWin hdrv _
    · cases h
      exact unrecorded_fireBoundaryArm hdrv _
    · cases h
      exact unrecorded_fireEventSubprocess hdrv _
    · cases h

/-! ## Triggers -/

theorem unrecorded_resume {rs : List CompensationRecord} (tdef : ProcessDefinition) {y : InstanceState} (hy : y.recorded = rs)
    (tok : Token) (cmds : List Command) : Unrecorded rs (resumeAndDrive drv c tdef y tok cmds) :=
  unrecorded_thenDrive hdrv ((recorded_moveAlong _ _ _ _ _).trans hy)

theorem unrecorded_startInstance (vars : Vars) (startNodeID : String) :
    Unrecorded x.recorded (handleStartInstance drv c x vars startNodeID) := by
  unfold handleStartInstance
  split
  · exact Unrecorded.error _
  · refine Unrecorded.bind (fun startID _ => Unrecorded.bind (fun r hr => ?_))
    refine unrecorded_thenDrive hdrv ?_
    rw [armEventTriggeredSubprocesses_control hr]
    rfl

theorem unrecorded_actionCompleted {commandID : String} {output : Vars}
    (hnone : ¬ ∃ tok, x.tokenAwaiting commandID = some tok ∧
      ¬ (x.status = .compensating ∧ x.compensating.activeCmdID = commandID) ∧
      x.isBenignCompensationDuplicate commandID = false) :
    Unrecorded x.recorded (handleActionCompleted drv c x commandID output) := by
  unfold handleActionCompleted
  split
  · have hadv := unrecorded_advance (c := c) (x := x.retireCompensationFailedIncidents commandID) hdrv
    rw [InstanceState.retireCompensationFailedIncidents_control] at hadv
    exact hadv
  · rename_i hwalk
    split
    · exact Unrecorded.ok rfl
    · rename_i hdup
      split
      · exact Unrecorded.error _
      · rename_i tok htok
        exact (hnone ⟨tok, htok, by simpa using hwalk, by simpa using hdup⟩).elim

theorem unrecorded_compensationFailed (commandID err : String) (retryable : Bool) :
    Unrecorded x.recorded (handleCompensationFailed drv c x commandID err retryable) := by
  unfold handleCompensationFailed
  dsimp only
  split
  · exact Unrecorded.ok rfl
  · split
    · rename_i r hr
      refine Unrecorded.ok ?_
      unfold armCompensationRetryTimer at hr
      split at hr
      · cases hr
      · dsimp only at hr
        split at hr
        · cases hr
        · split at hr
          · cases hr
          · cases hr
            rfl
    · exact unrecorded_advance hdrv

theorem unrecorded_takeRecoveryFlow (tdef : ProcessDefinition) (tok : Token) (nodeID recoveryFlow err : String)
    (cmds : List Command) : Unrecorded x.recorded (takeRecoveryFlow drv c x tdef tok nodeID recoveryFlow err cmds) := by
  unfold takeRecoveryFlow
  dsimp only
  split
  · exact Unrecorded.error _
  · split
    · exact Unrecorded.error _
    · refine unrecorded_thenDrive hdrv ?_
      refine (ControlState.recorded_moveTokenToTarget _ _ _ _ _).trans ?_
      rfl

theorem unrecorded_actionFailed (commandID err : String) (retryable : Bool) (jitter : Rat) (cause : Option String) :
    Unrecorded x.recorded (handleActionFailed drv c x commandID err retryable jitter cause) := by
  unfold handleActionFailed
  split
  · exact unrecorded_compensationFailed hdrv _ _ _
  · split
    · exact Unrecorded.ok rfl
    · split
      · exact Unrecorded.error _
      · rename_i tok _
        have harms : (x.removeBoundaryArmsForHost tok.id).state.recorded = x.recorded := by
          rw [removeBoundaryArmsForHost_control]
        refine Unrecorded.bind (fun tdef _ => ?_)
        dsimp only
        rw [← harms]
        split
        · exact (unrecorded_propagateError hdrv _ _ _ _ _ _).prepend _
        · split
          · exact Unrecorded.ok rfl
          · split
            · exact unrecorded_takeRecoveryFlow hdrv _ _ _ _ _ _
            · exact (unrecorded_propagateError hdrv _ _ _ _ _ _).prepend _

theorem unrecorded_cancelRequested : Unrecorded x.recorded (handleCancelRequested drv c x) := by
  have hharvest : (x.onControl (·.harvestOpenScopeCompensations)).recorded = x.recorded :=
    x.toControlState.recorded_harvestOpenScopeCompensations
  unfold handleCancelRequested
  dsimp only
  split
  · split
    · exact Unrecorded.ok rfl
    · split
      · exact Unrecorded.error _
      · exact Unrecorded.ok rfl
  · split
    · refine Unrecorded.prepend (fun r hr => ?_) _
      exact (unrecorded_begin hdrv _ _ r hr).trans hharvest
    · refine Unrecorded.ok ?_
      rw [StepResult.prepend_state, endInstance_control, recorded_endControl]
      exact (ControlState.recorded_cancelAllTokens _ _ _).trans hharvest

omit hdrv in
theorem unrecorded_withOpenTask {taskID : String} {closed : EngineResult} (hclosed : Unrecorded x.recorded closed)
    (f : HumanTask → HumanTask) : Unrecorded x.recorded (withOpenTask x taskID closed f) := by
  unfold withOpenTask
  split
  · exact Unrecorded.error _
  · split
    · exact hclosed
    · exact Unrecorded.ok rfl

omit hdrv in
theorem recorded_park {tdef : ProcessDefinition} {tok : Token} {cmds : List Command} {r : StepResult}
    (h : parkOnCompletionAction c tdef x tok cmds = some r) : r.state.recorded = x.recorded := by
  obtain ⟨cmdID, he⟩ := parkOnCompletionAction_control h
  rw [he]
  rfl

theorem unrecorded_humanCompleted (taskID outcome note : String) (output : Vars) (actor : Actor) :
    Unrecorded x.recorded (handleHumanCompleted drv c x taskID outcome note output actor) := by
  unfold handleHumanCompleted
  split
  · exact Unrecorded.error _
  · exact Unrecorded.error _
  · split
    · exact Unrecorded.error _
    · split
      · exact Unrecorded.error _
      · refine Unrecorded.bind (fun tdef _ => ?_)
        dsimp only
        split
        · exact Unrecorded.error _
        · have htaken : ∀ (y : InstanceState) (id taskID : String) (g : HumanTask → HumanTask) (f : Token → Token),
              (((((y.updateTask taskID g).onControl (·.updateToken id f)).cancelTimersByTaskID taskID
                "").state).removeBoundaryArmsForHost id).state.recorded = y.recorded := by
            intro y id taskID g f
            rw [removeBoundaryArmsForHost_control, InstanceState.cancelTimersByTaskID_control]
            rfl
          have hexposed : ∀ nodeID ut,
            (applyOutcomeExposure nodeID ut outcome (x.mergeVars output)).recorded = x.recorded := by
            intro nodeID ut
            rw [applyOutcomeExposure_control]
            rfl
          split
          · rename_i r hr
            exact Unrecorded.ok ((recorded_park hr).trans ((htaken _ _ _ _ _).trans (hexposed _ _)))
          · refine unrecorded_thenDrive hdrv ?_
            exact (recorded_moveAlong _ _ _ _ _).trans ((htaken _ _ _ _ _).trans (hexposed _ _))

theorem unrecorded_deadlineFired (tr : TimerRecord) : Unrecorded x.recorded (handleDeadlineFired drv c x tr) := by
  have hrem : (x.removeTimer tr.timerID).recorded = x.recorded := by rw [removeTimer_control]
  unfold handleDeadlineFired
  split
  · exact Unrecorded.ok hrem
  · rename_i tok _
    dsimp only
    split
    · exact Unrecorded.ok hrem
    · refine Unrecorded.bind (fun tdef _ => ?_)
      split
      · exact Unrecorded.error _
      · split
        · exact Unrecorded.error _
        · split
          · exact Unrecorded.error _
          · refine unrecorded_thenDrive hdrv ?_
            dsimp only
            rw [removeTimer_control, InstanceState.cancelTimersByTaskID_control]
            have hmoved : ∀ (y : InstanceState) (target flow : String), (y.onControl (fun s =>
                (s.updateToken tok.id
                  (fun t => { t.clearAwait with state := .active })).moveTokenToTargetAs tok target flow c.at_
                  .deadlineExpired)).recorded = y.recorded := by
              intro y target flow
              refine (ControlState.recorded_moveTokenToTargetAs _ _ _ _ _ _).trans ?_
              rfl
            split
            · exact (hmoved _ _ _).trans (recorded_fireOnce _)
            · exact (hmoved _ _ _).trans (recorded_fireOnce _)

omit hdrv in
theorem unrecorded_reinvoke (tok : Token) : Unrecorded x.recorded (reinvokeServiceAction c x tok) := by
  intro r hr
  rw [reinvoke_control hr]
  rfl

theorem unrecorded_tokenTimer (timerID : String) : Unrecorded x.recorded (handleTokenTimer drv c x timerID) := by
  unfold handleTokenTimer
  split
  · exact Unrecorded.ok rfl
  · split
    · exact Unrecorded.ok rfl
    · refine Unrecorded.bind (fun tdef _ => unrecorded_resume hdrv tdef ?_ _ _)
      rw [cancelTimersForToken_control]
      change (x.removeTimer timerID).recorded = x.recorded
      rw [removeTimer_control]

theorem unrecorded_timerFired (timerID : String) : Unrecorded x.recorded (handleTimerFired drv c x timerID) := by
  have hrem : ∀ id, (x.removeTimer id).recorded = x.recorded := by
    intro id
    rw [removeTimer_control]
  unfold handleTimerFired
  split
  · rename_i res hres
    exact unrecorded_armCascade hdrv (fun _ => rfl) hres
  · split
    · exact unrecorded_tokenTimer hdrv _
    · rename_i tr _
      split
      · exact Unrecorded.ok (hrem _)
      · split
        · exact unrecorded_deadlineFired hdrv _
        · unfold handleReminderFired
          split
          · exact Unrecorded.ok (hrem _)
          · split
            · exact Unrecorded.ok (hrem _)
            · refine Unrecorded.bind (fun tdef _ => ?_)
              split
              · exact Unrecorded.error _
              · exact Unrecorded.ok (recorded_fireOnce _)
        · unfold handleRetryFired
          split
          · exact Unrecorded.ok rfl
          · refine Unrecorded.mapError ?_ _
            rw [← hrem tr.timerID]
            exact unrecorded_reinvoke _
        · refine Unrecorded.ok ?_
          rw [stallFired_control]
        · exact unrecorded_retryFailed hdrv _
        · exact unrecorded_tokenTimer hdrv _

theorem unrecorded_fireTier {name : String} {payload : Vars} {matched : Bool} {tier : SignalTier} {res : EngineResult}
    (h : fireTier drv c name payload matched x tier = some res) : Unrecorded x.recorded res := by
  have hmark : (markMatched matched payload x).recorded = x.recorded := by rw [markMatched_control]
  rw [← hmark]
  cases tier with
  | gateway id =>
    obtain ⟨ae, -, rfl⟩ := Option.map_eq_some_iff.mp h
    exact unrecorded_gatewayWin hdrv _
  | boundary id =>
    obtain ⟨ba, -, rfl⟩ := Option.map_eq_some_iff.mp h
    exact unrecorded_fireBoundaryArm hdrv _
  | eventSub id =>
    obtain ⟨ea, -, rfl⟩ := Option.map_eq_some_iff.mp h
    exact unrecorded_fireEventSubprocess hdrv _
  | token id =>
    obtain ⟨tok, -, rfl⟩ := Option.map_eq_some_iff.mp h
    refine Unrecorded.bind (fun tdef _ => unrecorded_resume hdrv tdef ?_ _ _)
    rw [cancelTimersForToken_control]
    rfl

theorem unrecorded_fireTiers {name : String} {payload : Vars} (tiers : List SignalTier)
    (resolved : List String) (matched : Bool)
    (x : InstanceState) : Unrecorded x.recorded (fireTiers drv c name payload tiers resolved matched x) := by
  induction tiers generalizing resolved matched x with
  | nil => exact Unrecorded.ok rfl
  | cons tier tiers ih =>
    unfold fireTiers
    split
    · exact Unrecorded.ok rfl
    · split
      · exact ih _ _ _
      · split
        · exact ih _ _ _
        · rename_i res hres
          refine Unrecorded.bind (fun r hr => Unrecorded.bind (fun rest hrest => Unrecorded.ok ?_))
          exact (ih _ _ _ rest hrest).trans (unrecorded_fireTier hdrv hres r hr)

theorem unrecorded_messageReceived (name key : String) (payload : Vars) :
    Unrecorded x.recorded (handleMessageReceived drv c x name key payload) := by
  unfold handleMessageReceived
  split
  · rename_i res hres
    exact unrecorded_armCascade hdrv (fun y => congrArg ControlState.recorded (y.mergeVars_control payload)) hres
  · split
    · exact Unrecorded.ok rfl
    · split
      · exact Unrecorded.ok rfl
      · rename_i tok _ _
        have htaken : ((((x.mergeVars payload).onControl (·.updateToken tok.id (fun t =>
            { t with awaitMessage := "", awaitMessageKey := "" }))).cancelTimersForToken tok.id
              "").state.removeBoundaryArmsForHost
              tok.id).state.recorded = x.recorded := by
          rw [removeBoundaryArmsForHost_control, cancelTimersForToken_control]
          rfl
        refine Unrecorded.bind (fun tdef _ => ?_)
        split
        · rename_i r hr
          exact Unrecorded.ok ((recorded_park hr).trans htaken)
        · exact unrecorded_resume hdrv tdef htaken _ _

theorem unrecorded_subInstanceFailed (commandID err : String) :
    Unrecorded x.recorded (handleSubInstanceFailed drv c x commandID err) := by
  unfold handleSubInstanceFailed
  split
  · exact Unrecorded.error _
  · refine Unrecorded.bind (fun hostDef _ => ?_)
    split
    · refine unrecorded_routeToBoundary hdrv (fun y => ?_)
      refine (ControlState.recorded_consumeTokenAs _ _ _ _).trans ?_
      rw [removeBoundaryArmsForHost_control]
    · refine Unrecorded.ok ?_
      rw [endInstance_control, recorded_endControl]
      rfl

omit hdrv in
theorem unrecorded_resolveIncident (incidentID : String) (addAttempts : Int) :
    Unrecorded x.recorded (handleResolveIncident c x incidentID addAttempts) := by
  unfold handleResolveIncident
  split
  · exact Unrecorded.ok rfl
  · split
    · exact Unrecorded.error _
    · dsimp only
      split
      · exact Unrecorded.ok rfl
      · exact unrecorded_reinvoke _

/-- **A trigger that answers no action of a token records nothing by itself.** -/
theorem unrecorded_handle {body : TriggerBody}
    (hnone : ∀ id output, body = .actionCompleted id output → ¬ ∃ tok, x.tokenAwaiting id = some tok ∧
      ¬ (x.status = .compensating ∧ x.compensating.activeCmdID = id) ∧ x.isBenignCompensationDuplicate id = false) :
    Unrecorded x.recorded (handle drv c x body) := by
  cases body with
  | startInstance vars startNodeID => exact unrecorded_startInstance hdrv _ _
  | actionCompleted id output => exact unrecorded_actionCompleted hdrv (hnone id output rfl)
  | actionFailed id err retryable jitter cause => exact unrecorded_actionFailed hdrv _ _ _ _ _
  | humanCompleted id outcome note output actor => exact unrecorded_humanCompleted hdrv _ _ _ _ _
  | humanCandidatesResolved id candidates =>
    have hsame : Unrecorded x.recorded (.ok ⟨x, []⟩) := Unrecorded.ok rfl
    exact unrecorded_withOpenTask hsame _
  | humanClaimed id actor => exact unrecorded_withOpenTask (Unrecorded.error _) _
  | humanReassigned id _ reassignedTo _ => exact unrecorded_withOpenTask (Unrecorded.error _) _
  | timerFired id => exact unrecorded_timerFired hdrv _
  | signalReceived name payload => exact unrecorded_fireTiers hdrv _ _ _ _
  | messageReceived name key payload => exact unrecorded_messageReceived hdrv _ _ _
  | subInstanceCompleted id output =>
    change Unrecorded x.recorded (handleSubInstanceCompleted drv c x id output)
    unfold handleSubInstanceCompleted
    split
    · exact Unrecorded.error _
    · refine Unrecorded.bind (fun tdef _ => unrecorded_resume hdrv tdef ?_ _ _)
      rfl
  | subInstanceFailed id err => exact unrecorded_subInstanceFailed hdrv _ _
  | compensateRequested toNode reverseNode resetVars restoreTargetVars => exact unrecorded_compensateRequested hdrv _ _ _ _
  | cancelRequested => exact unrecorded_cancelRequested hdrv
  | resolveIncident id addAttempts => exact unrecorded_resolveIncident _ _
  | resolveCompensationStall id incidentID disposition => exact unrecorded_resolveStall hdrv _ _ _

end Handlers

/-! ## Strategies -/

section Strategies
variable {drv : DriveLoop} {c : StepCtx} {tdef : ProcessDefinition} {x : InstanceState} {tok : Token}
  {node : Node} {r : EnterResult}

theorem recorded_goOn (cmds : List Command) : (goOn c tdef x tok cmds).state.recorded = x.recorded :=
  recorded_moveAlong _ _ _ _ _

theorem recorded_exitRoot : (exitRootScope c x).state.recorded = x.recorded := by
  unfold exitRootScope
  split
  · rw [complete_control, recorded_endControl]
  · rfl

theorem recorded_endEvent (hdrv : RecordsNothing drv) {ev : EndEvent} (hin : ev.behavior = .normal → tok.scopeID = "")
    (h : endEvent drv c x tok ev = .ok r) : r.state.recorded = x.recorded := by
  unfold endEvent at h
  split at h
  · cases h
    unfold forceTerminate
    have hgone : (x.onControl
      (fun s => (s.note (.forced ev.outcome s.pendingCancel)).cancelAllTokens c.at_ .terminated)).recorded =
        x.recorded := ControlState.recorded_cancelAllTokens _ _ _
    dsimp only
    split
    · dsimp only
      rw [endInstance_control, recorded_endControl]
      exact hgone
    · dsimp only
      rw [complete_control, recorded_endControl]
      exact hgone
  · dsimp only at h
    split at h
    · cases h
    · rename_i r' hr'
      cases h
      refine (unrecorded_propagateError hdrv _ _ _ _ _ _ r' hr').trans ?_
      exact ControlState.recorded_consumeTokenAs _ _ _ _
  · rename_i hnormal
    dsimp only at h
    rw [if_pos (by simp [hin hnormal])] at h
    cases h
    exact recorded_exitRoot.trans (ControlState.recorded_consumeToken _ _ _)

theorem recorded_subProcess {sub : Option ProcessDefinition} (h : subProcess c x tok node sub = .ok r) :
    r.state.recorded = x.recorded := by
  unfold subProcess at h
  split at h
  · cases h
    rfl
  · split at h
    · cases h
    · split at h
      · cases h
      · obtain ⟨r1, h1, h⟩ := bind_ok h
        cases h
        change r1.state.recorded = x.recorded
        rw [armEventTriggeredSubprocesses_control h1]
        exact ControlState.recorded_consumeToken _ _ _

theorem recorded_userTask {u : UserTask} (h : userTask c tdef x tok node u = .ok r) : r.state.recorded = x.recorded := by
  have hvisit : ∀ taskID, ((x.nextTaskID c.ids).1.onControl (·.setVisitTask tok.id node.id taskID)).recorded = x.recorded :=
    fun _ => ControlState.recorded_setVisitTask _ _ _ _
  unfold userTask at h
  dsimp only at h
  split at h
  · cases h
    exact (recorded_goOn _).trans (hvisit _)
  · obtain ⟨p, hp, h⟩ := bind_ok h
    obtain ⟨r2, h2, h⟩ := bind_ok h
    obtain ⟨r3, h3, h⟩ := bind_ok h
    cases h
    change r3.state.recorded = x.recorded
    rw [armBoundaries_control h3]
    change r2.state.recorded = x.recorded
    rw [armWaitReminder_control h2, armDeadline_control hp]
    exact hvisit _

theorem recorded_reminded {y : InstanceState} {cmds : List Command} {key : String}
    (h : (armWaitReminder c y tok node key).map (fun r' => EnterResult.parked (r'.prepend cmds)) = .ok r) :
    r.state.recorded = y.recorded := by
  cases hr : armWaitReminder c y tok node key with
  | error e =>
    rw [hr] at h
    cases h
  | ok r' =>
    rw [hr] at h
    cases h
    change r'.state.recorded = y.recorded
    rw [armWaitReminder_control hr]

theorem recorded_catchEvent {e : IntermediateCatchEvent} (h : intermediateCatchEvent c x tok node e = .ok r) :
    r.state.recorded = x.recorded := by
  obtain ⟨spec, -, h⟩ := bind_ok h
  dsimp only at h
  split at h
  · exact (recorded_reminded h).trans rfl
  · split at h
    · exact (recorded_reminded h).trans rfl
    · split at h
      · obtain ⟨key, -, h⟩ := bind_ok h
        exact (recorded_reminded h).trans rfl
      · cases h
        rfl

theorem recorded_join : (joinGateway c tdef x tok node).state.recorded = x.recorded := by
  unfold joinGateway
  dsimp only
  split
  · rename_i ctl hjoin
    exact (recorded_tryJoin hjoin).trans rfl
  · rfl

theorem recorded_forkInclusive {g : IDGenerator} {eval : ConditionEvaluator} {vars : Vars} {s s' : ControlState} {at_ : Time}
    (h : forkInclusive g tdef eval vars s tok node at_ = .ok s') : s'.recorded = s.recorded := by
  unfold forkInclusive at h
  split at h
  · cases h
  · split at h
    · cases h
    · cases h
      exact (recorded_placeOnFlows _ _ _ _ _).trans (ControlState.recorded_consumeToken _ _ _)
  · cases h
    exact (recorded_placeOnFlows _ _ _ _ _).trans (ControlState.recorded_consumeToken _ _ _)

theorem recorded_throwWalk {y : InstanceState} (records : List CompensationRecord) (cursor : CompensationCursor)
    (resume : FlowRef) : (throwWalk c tdef tok y records cursor resume).state.recorded = y.recorded := by
  unfold throwWalk
  split
  · exact recorded_goOn _
  · unfold startCompensationWalk
    dsimp only [EnterResult.parked]
    rw [afterDispatch_control]
    exact ControlState.recorded_throwDispatch _ _ _ _ _ _

theorem recorded_throwEvent (e : CompensationThrowEvent) :
    (compensationThrowEvent c tdef x tok node e).state.recorded = x.recorded := by
  unfold compensationThrowEvent
  split
  · exact recorded_goOn _
  · split
    · exact recorded_goOn _
    · split
      · dsimp only
        split
        · exact recorded_goOn _
        · split
          · rfl
          · exact recorded_throwWalk _ _ _
      · split
        · rfl
        · dsimp only
          refine (recorded_throwWalk _ _ _).trans ?_
          split
          · exact ControlState.recorded_consolidateArchiveIntoRoot _
          · rfl

/-- **Entering a node records nothing by itself**, except where an end event ends a sub-process. -/
theorem recorded_enter (hdrv : RecordsNothing drv)
    (hin : ∀ ev, node.spec = .endEvent ev → ev.behavior = .normal → tok.scopeID = "")
    (h : enter drv c tdef x tok node = .ok r) : r.state.recorded = x.recorded := by
  unfold enter at h
  split at h
  · cases h
    exact recorded_goOn _
  · rename_i ev hspec
    exact recorded_endEvent hdrv (hin ev hspec) h
  · cases hr : emitActionInvoke c tdef x tok node with
    | error e =>
      rw [hr] at h
      cases h
    | ok r' =>
      rw [hr] at h
      cases h
      change r'.state.recorded = x.recorded
      rw [emitActionInvoke_control hr]
      rfl
  · cases hr : emitActionInvoke c tdef x tok node with
    | error e =>
      rw [hr] at h
      cases h
    | ok r' =>
      rw [hr] at h
      cases h
      change r'.state.recorded = x.recorded
      rw [emitActionInvoke_control hr]
      rfl
  · exact recorded_userTask h
  · obtain ⟨key, -, h⟩ := bind_ok h
    obtain ⟨r1, h1, h⟩ := bind_ok h
    obtain ⟨r2, h2, h⟩ := bind_ok h
    cases h
    change r2.state.recorded = x.recorded
    rw [armBoundaries_control h2, armWaitReminder_control h1]
    rfl
  · obtain ⟨key, -, h⟩ := bind_ok h
    cases h
    exact recorded_goOn _
  · exact recorded_subProcess h
  · cases h
    rfl
  · exact recorded_catchEvent h
  · cases h
    unfold intermediateThrowEvent
    split
    · exact recorded_goOn _
    · rfl
  · cases h
    rfl
  · obtain ⟨taken, -, h⟩ := bind_ok h
    cases h
    exact ControlState.recorded_moveTokenToTarget _ _ _ _ _
  · unfold parallelGateway at h
    split at h
    · cases h
      exact recorded_join
    · cases h
      exact (recorded_placeOnFlows _ _ _ _ _).trans (ControlState.recorded_consumeToken _ _ _)
  · unfold inclusiveGateway at h
    split at h
    · cases h
      exact recorded_join
    · split at h
      · cases h
      · rename_i ctl hctl
        cases h
        exact recorded_forkInclusive hctl
  · obtain ⟨r1, h1, h⟩ := bind_ok h
    cases h
    change r1.state.recorded = x.recorded
    rw [forEach_control (fun s f r h => armGatewayFlow_control h) h1]
    rfl
  · cases h
    exact recorded_throwEvent _

end Strategies

end Wrkflw
