import Wrkflw.Engine.Waits

/-!
# Compensation walks

The rollback machinery of `step_compensation.go` and the walk a compensation-throw event starts
(`step_nodes.go`):

* `beginCompensation`, `startCompensationWalk` : a walk dispatches its last record;
* `stepCompensationAdvance` : the next one, or the end of the walk;
* `stepCompensationFinish`, `applyFinish`, `applyTerminate` : what follows a walk: the pending cancel's
  own walk, the end of the instance, or the resume;
* the operator verbs of `handleResolveCompensationStall`.

`drv` is the `drive` loop. The source's recursion between `beginCompensation` and
`stepCompensationFinish` goes through a pending cancel at most once, since the walk it begins terminates;
`stepCompensationFinishWith` takes the beginning as a parameter and the recursion is tied twice.
-/

namespace Wrkflw

structure CompensationOutcome where
  toNode : String := ""
  finalStatus : Status := .running
  finalErr : String := ""
  reverseNode : String := ""
  reverseResetVars : Bool := false
  closeKind : CloseKind
  restoreTargetVars : Bool := false
  deriving DecidableEq, Repr

/-- The last position whose record is the node's, `-1` when there is none. -/
def lastRecordIndex (records : List CompensationRecord) (nodeID : String) : Int :=
  records.zipIdx.foldl (fun acc p => if p.1.nodeID == nodeID then (p.2 : Int) else acc) (-1)

/-- `eligibleRange`: where a walk over the records starts and the position it stops at. -/
def eligibleRange (records : List CompensationRecord) (toNode : String) : Int × Int :=
  ((records.length : Int) - 1, if toNode != "" then lastRecordIndex records toNode else -1)

def hasCompensationRecordsToWalk (s : ControlState) : Bool :=
  !s.rootCompensations.isEmpty || s.archivedCompensations.any (fun e => !e.2.isEmpty)

def compensationInvoke (rec : CompensationRecord) (cmdID : String) : Command :=
  .invokeAction cmdID rec.action rec.input false

/-! ## Walk timers -/

def cancelCompensationWalkTimers (s : InstanceState) : StepResult :=
  ⟨{ s with timers := s.timers.filter (fun tr => !tr.kind.firesOnDyingInstance) },
    cancelTimers ((s.timers.filter (·.kind.firesOnDyingInstance)).map (·.timerID))⟩

/-- Records and schedules a timer about the walk's active command. -/
def scheduleWalkTimer (g : IDGenerator) (s : InstanceState) (kind : TimerKind) (nodeID : String) (delay : Duration) :
    StepResult × String :=
  let (s', timerID) := s.nextTimerID g
  let tr : TimerRecord :=
    { timerID := timerID, kind := kind, nodeID := nodeID, scopeID := s.compensating.scopeID,
      commandID := s.compensating.activeCmdID }
  (⟨{ s' with timers := s'.timers ++ [tr] }, [.scheduleTimer timerID "" (TriggerSpec.afterDuration delay) kind]⟩,
    timerID)

def armCompensationStallTimer (c : StepCtx) (s : InstanceState) (nodeID : String) : StepResult :=
  let r := cancelCompensationWalkTimers s
  if c.opt.compensationStallAfter ≤ 0 then r
  else (scheduleWalkTimer c.ids r.state .compensationStall nodeID c.opt.compensationStallAfter).1.prepend r.commands

/-- `armCompensationRetryTimer`; `none` when the failed command is not to be retried. -/
def armCompensationRetryTimer (c : StepCtx) (s : InstanceState) (nodeID errMsg : String) (retryable : Bool) :
    Option StepResult :=
  match c.opt.compensationRetryPolicy with
  | none => none
  | some p =>
    let eff := p.normalize
    let cur := s.compensating
    if !retryable || eff.isNonRetryable errMsg then none
    else if eff.maxAttempts != 0 && decide (eff.maxAttempts ≤ cur.retryAttempts + 1) then none
    else
      let r := cancelCompensationWalkTimers s
      let (r', timerID) := scheduleWalkTimer c.ids r.state .compensationRetry nodeID
        (c.opt.floatOps.backoff eff cur.retryAttempts)
      let cur' := { cur with retryTimerID := timerID, retryAttempts := cur.retryAttempts + 1 }
      some ⟨r'.state.onControl (fun s => { s with compensating := cur' }), r.commands ++ r'.commands⟩

/-! ## Dispatching a record -/

/-- The cursor is set, the record at `idx` is consumed and its command is out. -/
def ControlState.dispatch (s : ControlState) (cur : CompensationCursor) (idx : Int) (rec : CompensationRecord)
    (cmdID : String) : ControlState :=
  (({ s with compensating := cur }.consumeDispatchedRecord idx).recordCompensationDispatch cmdID).note
    (.dispatched rec cmdID)

/-- The record the cursor stands on goes out again. -/
def ControlState.redispatch (s : ControlState) (cur : CompensationCursor) (rec : CompensationRecord)
    (cmdID : String) : ControlState :=
  ({ s with compensating := cur }.recordCompensationDispatch cmdID).note (.redispatched rec cmdID)

/-- The command of a dispatched record and its stall timer. -/
def afterDispatch (c : StepCtx) (s : InstanceState) (rec : CompensationRecord) (cmdID : String) : StepResult :=
  (armCompensationStallTimer c s rec.nodeID).prepend [compensationInvoke rec cmdID]

/-! ## Beginning a walk -/

/-- The cursor of a walk with nothing to dispatch. -/
def CompensationOutcome.idleCursor (o : CompensationOutcome) : CompensationCursor :=
  { finalStatus := o.finalStatus, finalErr := o.finalErr, reverseNode := o.reverseNode,
    reverseResetVars := o.reverseResetVars, restoreTargetVars := o.restoreTargetVars }

/-- The cursor of a root walk that dispatches the record at `startIndex`; what the outcome does not say
is kept from the state's cursor. -/
def CompensationOutcome.walkCursor (o : CompensationOutcome) (cur : CompensationCursor) (at_ : Time)
    (startIndex : Int) (cmdID : String) : CompensationCursor :=
  { cur with
    scopeID := "", startedAt := at_, toNode := o.toNode, nextIndex := startIndex, activeCmdID := cmdID,
    finalStatus := o.finalStatus, finalErr := o.finalErr, reverseNode := o.reverseNode,
    reverseResetVars := o.reverseResetVars, restoreTargetVars := o.restoreTargetVars }

/-- What `beginCompensation` does before it looks at the records: every token, timer, gateway arm and
boundary goes and the archive joins the root's records. -/
def clearForWalk (c : StepCtx) (s : InstanceState) (closeKind : CloseKind) : StepResult :=
  let r1 := cancelTokens c.at_ closeKind s.tokens s
  let r2 := r1.state.cancelAllTimers
  let r3 := r2.state.cancelAllArmsAndBoundaries
  ⟨r3.state.onControl (·.consolidateArchiveIntoRoot), r1.commands ++ r2.commands ++ r3.commands⟩

/-- The first dispatch of a root walk. The root list keeps its records while the walk runs over it, so
the dispatched one is not consumed here. -/
def ControlState.beginDispatch (s : ControlState) (cur : CompensationCursor) (rec : CompensationRecord)
    (cmdID : String) : ControlState :=
  ({ s with compensating := cur }.recordCompensationDispatch cmdID).note (.dispatched rec cmdID)

/-- `beginCompensation` over the finish it calls when there is nothing to dispatch. -/
def beginCompensationWith (finish : InstanceState → String → EngineResult) (c : StepCtx) (s : InstanceState)
    (o : CompensationOutcome) : EngineResult :=
  let r := clearForWalk c s o.closeKind
  let records := r.state.rootCompensations
  let (startIndex, toNodeIdx) := eligibleRange records o.toNode
  if o.toNode != "" && decide (toNodeIdx < 0) then
    .error (plainError ("compensation target node " ++ quoted o.toNode ++ " not found in scope records"))
  else
    let idle := (finish (r.state.onControl (fun s => { s with compensating := o.idleCursor })) o.toNode).map
      (·.prepend r.commands)
    if o.toNode != "" && decide (startIndex ≤ toNodeIdx) then idle
    else
      match records.getLast? with
      | none => idle
      | some rec =>
        let (s1, cmdID) := r.state.nextCommandID c.ids
        let cur := o.walkCursor s1.compensating c.at_ startIndex cmdID
        .ok ((afterDispatch c (s1.onControl (·.beginDispatch cur rec cmdID)) rec cmdID).prepend r.commands)

/-! ## Finishing a walk -/

structure FinishPlan where
  resume : Bool := false
  resumeAt : String := ""
  resumeScope : String := ""
  resumeFlow : String := ""
  clearScope : String := ""
  doClearRecords : Bool := false
  scopeWideThrow : Bool := false
  drainedCount : Int := 0
  archiveWindowKey : String := ""
  archiveWindowOffset : Int := 0
  archiveWindowCount : Int := 0
  resetVars : Bool := false
  restoreVars : Option Vars := none
  deleteArchive : String := ""
  archiveConsumed : Bool := false
  popDeferred : Bool := false
  consumePendingCancel : Bool := false
  rearmRootESP : Bool := false
  finalStatus : Status := .running
  finalErr : String := ""
  deriving DecidableEq, Repr

def normalizeTeardownWindow (key : String) (offset count : Int) : String × Int × Int :=
  if key == "" || decide (count ≤ 0) then ("", 0, 0) else (key, max offset 0, count)

/-- The input of the node's latest root record, unless it is a nil map. -/
def restoreVarsFor (s : ControlState) (toNode : String) : Option Vars :=
  match s.rootCompensations.reverse.find? (fun r => r.nodeID == toNode) with
  | some r => if r.input.isEmpty then none else some r.input
  | none => none

/-- The plan `stepCompensationFinish` makes from the finished walk's cursor. -/
def finishPlan (s : ControlState) (cur : CompensationCursor) : FinishPlan :=
  match cur.walkMode with
  | .throwTargeted =>
    { resume := true, resumeAt := cur.resumeNode, resumeFlow := cur.resumeFlow, resumeScope := cur.resumeScope,
      deleteArchive := cur.archiveKey, archiveConsumed := !cur.records.isEmpty, popDeferred := true,
      consumePendingCancel := true }
  | .throwScopeWide =>
    let (key, offset, count) := normalizeTeardownWindow cur.teardownArchiveKey cur.teardownArchiveOffset
      cur.teardownArchiveCount
    { resume := true, resumeAt := cur.resumeNode, resumeFlow := cur.resumeFlow, resumeScope := cur.resumeScope,
      deleteArchive := cur.archiveKey, archiveConsumed := !cur.records.isEmpty, popDeferred := true,
      consumePendingCancel := true, doClearRecords := true, clearScope := cur.scopeID, scopeWideThrow := true,
      drainedCount := cur.startRecordCount, archiveWindowKey := key, archiveWindowOffset := offset,
      archiveWindowCount := count }
  | .partialWalk =>
    { resume := true, resumeAt := cur.toNode,
      restoreVars := if cur.restoreTargetVars then restoreVarsFor s cur.toNode else none }
  | .reverse =>
    { resume := true, resumeAt := cur.reverseNode, doClearRecords := true, clearScope := cur.scopeID,
      resetVars := cur.reverseResetVars, rearmRootESP := cur.scopeID == "", consumePendingCancel := true }
  | .admin =>
    { resume := false, doClearRecords := true, clearScope := cur.scopeID, finalStatus := cur.finalStatus,
      finalErr := cur.finalErr }

/-- The archive window is dropped from its end. -/
def dropArchiveWindow (key : String) (offset : Int) : Nat → ControlState → ControlState
  | 0, s => s
  | n + 1, s => dropArchiveWindow key offset n (s.dropArchiveRecordAt key (offset + n))

def applyPlanRecordClearing (plan : FinishPlan) (s : ControlState) : ControlState :=
  if !plan.doClearRecords then s
  else if plan.scopeWideThrow then
    let s' := s.clearRecordsPrefix plan.clearScope plan.drainedCount
    if plan.archiveWindowKey == "" then s'
    else dropArchiveWindow plan.archiveWindowKey plan.archiveWindowOffset plan.archiveWindowCount.toNat s'
  else s.clearRecords plan.clearScope

def applyTerminate (c : StepCtx) (s : InstanceState) (plan : FinishPlan) : StepResult :=
  let finalStatus := if plan.finalStatus == .running then .terminated else plan.finalStatus
  let terminal := if plan.finalErr != "" then some (Command.failInstance plan.finalErr) else none
  (s.onControl (applyPlanRecordClearing plan)).endInstance finalStatus c.at_ terminal

/-- `deleteArchive` of the plan: a targeted walk's bucket goes once it is used up. -/
def applyDeleteArchive (plan : FinishPlan) (s : ControlState) : ControlState :=
  if plan.deleteArchive != "" &&
      (!plan.archiveConsumed || (s.archivedCompensations.get plan.deleteArchive).isEmpty) then
    s.deleteArchiveSlot plan.deleteArchive
  else s

/-- The pending cancel as the outcome of the walk it asks for. -/
def pendingOutcome (s : ControlState) : CompensationOutcome :=
  let (status, err) := if s.pendingFinalStatus == .running then (Status.terminated, "cancelled")
    else (s.pendingFinalStatus, s.pendingFinalErr)
  { closeKind := if status == .failed then .errored else .instanceCancelled, finalStatus := status, finalErr := err }

/-- The pending cancel is taken off the state and the finished walk's records are cleared. -/
def takePending (plan : FinishPlan) (s : ControlState) : ControlState :=
  { applyPlanRecordClearing plan
      { s with pendingCancel := false, pendingFinalStatus := .running, pendingFinalErr := "" } with
    status := .compensating }

/-- The state the pending cancel's walk begins in. -/
def consumePending (plan : FinishPlan) (s : ControlState) : ControlState :=
  (takePending plan s).harvestOpenScopeCompensations

/-- Whether the scope to resume in is gone. -/
def resumeDropped (plan : FinishPlan) (s : ControlState) : Bool :=
  plan.resumeScope != "" && (scopeByID s.scopes plan.resumeScope).isNone

/-- The control part of a resume: the records are cleared, the token is placed unless its scope is gone,
one deferred throw is re-activated. -/
def resumeControl (g : IDGenerator) (at_ : Time) (plan : FinishPlan) (s : ControlState) : ControlState :=
  let s1 := { applyPlanRecordClearing plan s with status := .running }.note
    (.resumed plan.popDeferred s.deferredCompensationThrows)
  let s2 := if resumeDropped plan s1 then s1
    else s1.placeTokenInScope g plan.resumeAt plan.resumeScope plan.resumeFlow at_
  if plan.popDeferred then s2.popOneDeferredThrow else s2

/-- The variables after a resume. -/
def resumeVars (plan : FinishPlan) (s : InstanceState) : Vars :=
  if plan.resetVars then s.startVariables else plan.restoreVars.getD s.vars

/-- The end events' completion. -/
def InstanceState.complete (s : InstanceState) (at_ : Time) : StepResult :=
  s.endInstance .completed at_ (some (.completeInstance s.vars))

section Finish
variable (drv : DriveLoop)

/-- The root's event sub-processes are armed afresh. -/
def rearmRoot (c : StepCtx) (plan : FinishPlan) (s : InstanceState) : EngineResult :=
  if !plan.rearmRootESP then .ok ⟨s, []⟩ else
    let r := s.removeEventTriggeredSubprocessArmsForScope ""
    (armEventTriggeredSubprocesses c c.top r.state "").map (·.prepend r.commands)

def applyFinishWith (begin_ : InstanceState → CompensationOutcome → EngineResult) (c : StepCtx)
    (s0 : InstanceState) (plan : FinishPlan) : EngineResult :=
  let s := s0.onControl (applyDeleteArchive plan)
  if plan.resume && plan.consumePendingCancel && s.pendingCancel then
    begin_ (s.onControl (consumePending plan)) (pendingOutcome s.toControlState)
  else if !plan.resume then .ok (applyTerminate c s plan)
  else
    let dropped := resumeDropped plan s.toControlState
    let s1 := { s with endedAt := none, vars := resumeVars plan s }.onControl (resumeControl c.ids c.at_ plan)
    if dropped && s1.tokens.isEmpty then .ok (s1.complete c.at_)
    else do
      let r ← rearmRoot c plan s1
      let r' ← drv r.state
      return r'.prepend r.commands

def stepCompensationFinishWith (begin_ : InstanceState → CompensationOutcome → EngineResult) (c : StepCtx)
    (s : InstanceState) (toNode : String) : EngineResult :=
  let cur := { s.compensating with toNode := toNode }
  let r := cancelCompensationWalkTimers (s.onControl (fun s => { s with compensating := {} }))
  (applyFinishWith drv begin_ c r.state (finishPlan r.state.toControlState cur)).map (·.prepend r.commands)

/-- The beginning of a terminating walk: its finish never begins another one. -/
def beginTerminating (c : StepCtx) (s : InstanceState) (o : CompensationOutcome) : EngineResult :=
  beginCompensationWith
    (stepCompensationFinishWith drv (fun _ _ => .error ⟨.outOfFuel, ""⟩) c) c s o

def applyFinish (c : StepCtx) (s : InstanceState) (plan : FinishPlan) : EngineResult :=
  applyFinishWith drv (beginTerminating drv c) c s plan

def stepCompensationFinish (c : StepCtx) (s : InstanceState) (toNode : String) : EngineResult :=
  stepCompensationFinishWith drv (beginTerminating drv c) c s toNode

def beginCompensation (c : StepCtx) (s : InstanceState) (o : CompensationOutcome) : EngineResult :=
  beginCompensationWith (stepCompensationFinish drv c) c s o

/-! ## Advancing a walk -/

def stepCompensationAdvance (c : StepCtx) (s : InstanceState) : EngineResult :=
  let cur := s.compensating
  let s1 := s.retireCompensationStallIncidents cur.activeCmdID
  let records := s1.cursorRecords cur
  let nextIdx := cur.nextIndex - 1
  if nextIdx < 0 || nextIdx ≤ (eligibleRange records cur.toNode).2 then stepCompensationFinish drv c s1 cur.toNode
  else
    match records[nextIdx.toNat]? with
    | none => stepCompensationFinish drv c s1 cur.toNode
    | some rec =>
      let (s2, cmdID) := s1.nextCommandID c.ids
      let cur' := { cur with nextIndex := nextIdx, activeCmdID := cmdID, retryAttempts := 0, retryTimerID := "" }
      .ok (afterDispatch c (s2.onControl (·.dispatch cur' nextIdx rec cmdID)) rec cmdID)

/-- The record a cursor stands on. -/
def ControlState.currentRecord (s : ControlState) : Option CompensationRecord :=
  if s.compensating.nextIndex < 0 then none else (s.cursorRecords s.compensating)[s.compensating.nextIndex.toNat]?

/-- Dispatches the record the cursor stands on again, under a new command. -/
def redispatchCurrent (c : StepCtx) (s : InstanceState) (rec : CompensationRecord) (retryAttempts : Int) :
    StepResult :=
  let (s1, cmdID) := s.nextCommandID c.ids
  let cur := { s1.compensating with activeCmdID := cmdID, retryAttempts := retryAttempts, retryTimerID := "" }
  afterDispatch c (s1.onControl (·.redispatch cur rec cmdID)) rec cmdID

/-- The operator's retry starts the attempts afresh. -/
def retryStalledCompensation (c : StepCtx) (s : InstanceState) : EngineResult :=
  let cmdID := s.compensating.activeCmdID
  match s.currentRecord with
  | none => stepCompensationFinish drv c (s.retireCompensationStallIncidents cmdID) s.compensating.toNode
  | some rec =>
    let s1 := (s.retireCompensationStallIncidents cmdID).retireCompensationFailedIncidents cmdID
    .ok (redispatchCurrent c s1 rec 0)

/-- The backoff timer of a failed compensation keeps the attempts. -/
def retryFailedCompensation (c : StepCtx) (s0 : InstanceState) (tr : TimerRecord) : EngineResult :=
  let s := s0.removeTimer tr.timerID
  if s.status != .compensating || tr.commandID != s.compensating.activeCmdID then .ok ⟨s, []⟩ else
  match s.currentRecord with
  | none => stepCompensationFinish drv c s s.compensating.toNode
  | some rec =>
    let s1 := s.retireCompensationFailedIncidents s.compensating.activeCmdID
    .ok (redispatchCurrent c s1 rec s.compensating.retryAttempts)

def abandonCompensationWalk (c : StepCtx) (s : InstanceState) : EngineResult :=
  let cur := s.compensating
  if cur.walkMode != .admin then .error (sentinel .compensationWalkResumes "") else do
    let retained := s.retainedRecordPrefix cur.scopeID cur.nextIndex
    let r ← stepCompensationFinish drv c (s.retireCompensationStallIncidents cur.activeCmdID) cur.toNode
    return ⟨r.state.onControl (·.setScopeRecords cur.scopeID retained), r.commands⟩

def handleResolveCompensationStall (c : StepCtx) (s : InstanceState) (commandID incidentID : String)
    (disposition : CompensationDisposition) : EngineResult :=
  if s.status != .compensating || s.compensating.activeCmdID == "" then .error (sentinel .noCompensationWalk "")
  else if commandID != s.compensating.activeCmdID then .error (sentinel .compensationCommandMismatch "")
  else if incidentID != "" && !s.hasOpenStallIncident incidentID then .error (sentinel .stallIncidentNotFound "")
  else
    match disposition with
    | .retry => retryStalledCompensation drv c s
    | .skip => stepCompensationAdvance drv c s
    | .abandon => abandonCompensationWalk drv c s

/-! ## Rollback requests -/

def stepCompensateRequested (c : StepCtx) (s : InstanceState) (toNode reverseNode : String)
    (resetVars restoreTargetVars : Bool) : EngineResult :=
  if resetVars && reverseNode == "" then
    .error (plainError "ResetVars requires ReverseNode (use NewReverseToStart)")
  else if restoreTargetVars && toNode == "" then
    .error (plainError "RestoreTargetVars requires ToNode (use NewReverseToNode)")
  else if s.status == .compensating && s.compensating.activeCmdID != "" then
    if reverseNode != "" || restoreTargetVars then
      .error (plainError "cannot reverse instance while a compensation walk is in flight")
    else .ok ⟨s, []⟩
  else if s.status.isTerminal && !hasCompensationRecordsToWalk s.toControlState then
    .error (sentinel .instanceTerminal (": nothing left to compensate (status " ++ s.status.toText ++ ")"))
  else
    let closeKind : CloseKind :=
      if reverseNode != "" || toNode != "" || restoreTargetVars then .reversed else .compensated
    let s1 := s.onControl (fun s => { s with status := .compensating })
    let s2 := if toNode == "" && reverseNode == "" then s1.onControl (·.harvestOpenScopeCompensations) else s1
    beginCompensation drv c s2
      { closeKind := closeKind, toNode := toNode, reverseNode := reverseNode, reverseResetVars := resetVars,
        restoreTargetVars := restoreTargetVars }

end Finish

/-! ## The throw's walk -/

/-- The throw token is consumed and the last of the records goes out; the walk works on a copy. -/
def ControlState.throwDispatch (s : ControlState) (tok : Token) (at_ : Time) (cur : CompensationCursor)
    (rec : CompensationRecord) (cmdID : String) : ControlState :=
  { s.consumeToken tok at_ with status := .compensating }.dispatch cur cur.nextIndex rec cmdID

def startCompensationWalk (c : StepCtx) (s : InstanceState) (tok : Token) (records : List CompensationRecord)
    (rec : CompensationRecord) (cursor : CompensationCursor) (resumeNode resumeFlow : String) : StepResult :=
  let (s1, cmdID) := s.nextCommandID c.ids
  let cur := { cursor with
    startedAt := c.at_, resumeNode := resumeNode, resumeFlow := resumeFlow, resumeScope := tok.scopeID,
    records := records, nextIndex := (records.length : Int) - 1, activeCmdID := cmdID }
  afterDispatch c (s1.onControl (·.throwDispatch tok c.at_ cur rec cmdID)) rec cmdID

end Wrkflw
