import Wrkflw.Engine.Nodes

/-!
# `Step`

The `drive` loop, the trigger handlers and `Step` itself (`step.go`, `step_triggers.go`,
`step_timers.go`, `step_arm_dispatch.go`, `step_stale_commands.go`, `trigger_validate.go`):

* `drive` : runs active tokens until none is left, over fuel, since a definition may loop forever;
* one handler per trigger;
* `dispatch` : the terminal guard and the handler table;
* `dropStaleTokenCommands` : commands whose awaiter the same step cancelled are dropped;
* `step` : validation, dispatch and the filter.
-/

namespace Wrkflw

/-- The `drive` loop. -/
def drive (c : StepCtx) : Nat → InstanceState → EngineResult
  | 0, _ => .error ⟨.outOfFuel, ""⟩
  | fuel + 1, s =>
    match s.firstActive with
    | none =>
      match retryParkedJoins c.ids c.top s.toControlState c.at_ with
      | some ctl => drive c fuel (s.onControl (fun _ => ctl))
      | none => .ok ⟨s, []⟩
    | some tok =>
      match defForScope c.top s.scopes tok.scopeID with
      | .error e => .error e
      | .ok tdef =>
        match tdef.node tok.nodeID with
        | none => drive c fuel (s.onControl (·.setTokenState tok.id .waiting))
        | some node =>
          match enter (drive c fuel) c tdef s tok node with
          | .error e => .error e
          | .ok r =>
            if r.halt || (c.opt.mode == .microStep && r.stopped) then .ok r.toStepResult
            else (drive c fuel r.state).map (·.prepend r.commands)

section Handlers
variable (drv : DriveLoop) (c : StepCtx) (s : InstanceState)

/-- `resumeAndDrive`: the waiting token becomes active and goes on. -/
def resumeAndDrive (tdef : ProcessDefinition) (s : InstanceState) (tok : Token) (preCmds : List Command) :
    EngineResult :=
  thenDrive drv
    ⟨moveAlongSingleFlow c.ids tdef (s.onControl (·.setTokenState tok.id .active)) tok c.at_, preCmds⟩

/-! ## Starting -/

def hasStarted : Bool := !isZeroTime s.startedAt || !s.tokens.isEmpty || !s.history.isEmpty

/-- The node a start trigger places its token on. -/
def startNodeFor (startNodeID : String) : Except EngineError String :=
  if startNodeID != "" then .ok startNodeID
  else match resolveManualStart c.top with
    | some n => .ok n
    | none => .error (sentinel .noManualStart "")

def handleStartInstance (vars : Vars) (startNodeID : String) : EngineResult :=
  if hasStarted s then .error (sentinel .instanceAlreadyStarted (": " ++ quoted s.instanceID)) else do
    let s1 := { s with startedAt := c.at_, defID := c.top.id, defVersion := c.top.version }.mergeVars vars
    let startID ← startNodeFor c startNodeID
    let s2 := { s1 with startVariables := s1.vars }.onControl (fun s =>
      { s with status := .running }.placeTokenInScope c.ids startID "" "" c.at_)
    let r ← armEventTriggeredSubprocesses c c.top s2 ""
    thenDrive drv r

/-! ## Actions -/

/-- The record of a completed activity that declares a compensation action. -/
def recordCompletion (tdef : ProcessDefinition) (tok : Token) : InstanceState :=
  match tdef.node tok.nodeID with
  | some node =>
    if node.compensateActionOf == "" then s
    else s.onControl (·.recordCompensation tok.scopeID
      { nodeID := node.id, action := node.compensateActionOf, completedAt := c.at_, input := s.vars })
  | none => s

/-- `tok.clearAwait()`. -/
def clearAwaitOf (tok : Token) (s : InstanceState) : InstanceState :=
  s.onControl (·.updateToken tok.id Token.clearAwait)

def noTokenAwaiting (id : String) : EngineError := sentinel .tokenNotFound (": " ++ quoted id)

def handleActionCompleted (commandID : String) (output : Vars) : EngineResult :=
  if s.status == .compensating && s.compensating.activeCmdID == commandID then
    stepCompensationAdvance drv c (s.retireCompensationFailedIncidents commandID)
  else if s.isBenignCompensationDuplicate commandID then .ok ⟨s, []⟩
  else
    match s.tokenAwaiting commandID with
    | none => .error (noTokenAwaiting commandID)
    | some tok => do
      let r := s.removeBoundaryArmsForHost tok.id
      let tdef ← defForScope c.top r.state.scopes tok.scopeID
      let s1 := (recordCompletion c r.state tdef tok).mergeVars output
      resumeAndDrive drv c tdef (clearAwaitOf tok s1) tok r.commands

/-- The policy an activity's retries follow; `none` when nothing sets one. -/
def effectiveRetryPolicy (opt : StepOptions) (node : Option Node) : Option RetryPolicy :=
  let rp := node.bind (·.retryPolicyOf)
  match opt.overrideRetryPolicy, rp, opt.defaultRetryPolicy with
  | some eff, some rp, _ =>
    some { eff with maxElapsed := rp.maxElapsed, nonRetryableErrors := rp.nonRetryableErrors }.normalize
  | some eff, none, _ => some eff.normalize
  | none, some rp, _ => some rp.normalize
  | none, none, some dflt => some dflt.normalize
  | none, none, none => none

/-- Whether a failed attempt is the last one. -/
def retryExhausted (eff : RetryPolicy) (tok : Token) (err : String) (retryable : Bool) : Bool :=
  !retryable || eff.isNonRetryable err ||
    (eff.maxAttempts != 0 && decide (eff.maxAttempts ≤ tok.retryAttempts + 1)) ||
    (decide (0 < eff.maxElapsed) && !isZeroTime tok.retryStartedAt &&
      decide (eff.maxElapsed < c.at_ - tok.retryStartedAt))

/-- The retry timer of a failed action; the token waits for it. -/
def scheduleRetry (eff : RetryPolicy) (tok : Token) (jitterFraction : Rat) : StepResult :=
  let delay := c.opt.floatOps.backoff eff tok.retryAttempts
  let delay := if 0 < jitterFraction then c.opt.floatOps.scale jitterFraction delay else delay
  let (s1, timerID) := s.nextTimerID c.ids
  let tr : TimerRecord :=
    { timerID := timerID, kind := .retry, token := tok.id, nodeID := tok.nodeID, scopeID := tok.scopeID }
  let s2 := { s1 with timers := s1.timers ++ [tr] }
  ⟨s2.onControl (·.updateToken tok.id (fun t =>
      { t with
        retryAttempts := t.retryAttempts + 1
        retryStartedAt := if isZeroTime t.retryStartedAt then c.at_ else t.retryStartedAt
        state := .waiting
        awaitCommand := timerID })),
    [.scheduleTimer timerID tok.id (TriggerSpec.afterDuration delay) .retry]⟩

/-- The token follows its node's recovery flow once the retries are used up. -/
def takeRecoveryFlow (tdef : ProcessDefinition) (tok : Token) (nodeID recoveryFlow err : String)
    (preCmds : List Command) : EngineResult :=
  let s1 := { s with vars := Vars.set (Vars.set s.vars "_errorMessage" (.str err)) "_errorAttempts"
                       (.int (tok.retryAttempts + 1)) }
  match flowRefByID tdef recoveryFlow with
  | none => .error (plainError ("retry exhaustion: RecoveryFlow " ++ quoted recoveryFlow ++
      " not found for node " ++ quoted nodeID))
  | some f =>
    if f.flow.target == "" then .error (plainError ("retry exhaustion: RecoveryFlow " ++ quoted recoveryFlow ++
      " not found for node " ++ quoted nodeID))
    else
      let s2 := s1.onControl (·.updateToken tok.id (fun t =>
        { t.clearAwait with retryAttempts := 0, retryStartedAt := 0 }))
      thenDrive drv ⟨s2.onControl (·.moveTokenToTarget tok f.flow.target f.identity c.at_), preCmds⟩

/-- A failed compensation command: an incident, then a retry or the next record. -/
def handleCompensationFailed (commandID err : String) (retryable : Bool) : EngineResult :=
  if s.compensating.retryTimerID != "" then .ok ⟨s, []⟩ else
    let failedNodeID := ((s.cursorRecords s.compensating)[s.compensating.nextIndex.toNat]?.map (·.nodeID)).getD ""
    let s1 := s.raise c.ids (fun id =>
      { id := id, kind := .compensationFailed, nodeID := failedNodeID, scopeID := s.compensating.scopeID,
        commandID := commandID, error := err, createdAt := c.at_ })
    match armCompensationRetryTimer c s1 failedNodeID err retryable with
    | some r => .ok r
    | none => stepCompensationAdvance drv c s1

def handleActionFailed (commandID err : String) (retryable : Bool) (jitterFraction : Rat) (cause : Option String) :
    EngineResult :=
  if s.status == .compensating && s.compensating.activeCmdID == commandID then
    handleCompensationFailed drv c s commandID err retryable
  else if s.isBenignCompensationDuplicate commandID then .ok ⟨s, []⟩
  else
    match s.tokenAwaiting commandID with
    | none => .error (noTokenAwaiting commandID)
    | some tok => do
      let r := s.removeBoundaryArmsForHost tok.id
      let tdef ← defForScope c.top r.state.scopes tok.scopeID
      let node := tdef.node tok.nodeID
      match effectiveRetryPolicy c.opt node with
      | none =>
        (propagateError drv c r.state tok.scopeID tok.nodeID tok.id err cause false).map (·.prepend r.commands)
      | some eff =>
        let recoveryFlow := (node.map (·.recoveryFlowOf)).getD ""
        if !retryExhausted c eff tok err retryable then
          return (scheduleRetry c r.state eff tok jitterFraction).prepend r.commands
        else if recoveryFlow != "" then
          takeRecoveryFlow drv c r.state tdef tok ((node.map (·.id)).getD "") recoveryFlow err r.commands
        else
          (propagateError drv c r.state tok.scopeID tok.nodeID tok.id err cause true).map (·.prepend r.commands)

/-! ## Cancelling -/

/-- The cancel actions of the nodes the tokens stand on. -/
def nodeCancelActions : List Command :=
  s.tokens.filterMap (fun tok =>
    match defForScope c.top s.scopes tok.scopeID with
    | .error _ => none
    | .ok tdef =>
      match tdef.node tok.nodeID with
      | none => none
      | some node =>
        if node.cancelActionOf == "" then none else some (.invokeCancelAction node.cancelActionOf s.vars))

def handleCancelRequested : EngineResult :=
  let cmds := c.top.cancelActions.map (fun name => Command.invokeCancelAction name s.vars) ++ nodeCancelActions c s
  if s.status == .compensating && s.compensating.activeCmdID != "" then
    if s.compensating.resumeNode != "" || s.compensating.reverseNode != "" then
      .ok ⟨s.onControl (fun s =>
        { s with pendingCancel := true, pendingFinalStatus := .terminated, pendingFinalErr := "cancelled" }.note
          (.cancelPended s.compensating)), cmds⟩
    else if !s.compensating.walkTerminates s.pendingCancel then
      .error (sentinel .cancelNotApplicable (": instance " ++ quoted s.instanceID))
    else .ok ⟨s, []⟩
  else
    let s1 := s.onControl (·.harvestOpenScopeCompensations)
    if s1.hasRecords then
      (beginCompensation drv c (s1.onControl (fun s => { s with status := .compensating }))
        { closeKind := .instanceCancelled, finalStatus := .terminated, finalErr := "cancelled" }).map (·.prepend cmds)
    else
      let s2 := s1.onControl (·.cancelAllTokens c.at_ .instanceCancelled)
      .ok ((s2.endInstance .terminated c.at_ (some (.failInstance "cancelled"))).prepend cmds)

/-! ## Human tasks -/

/-- A write to an open task; `closed` is the answer for one that is not open. -/
def withOpenTask (taskID : String) (closed : EngineResult) (f : HumanTask → HumanTask) : EngineResult :=
  match s.taskByID taskID with
  | none => .error (noTokenAwaiting taskID)
  | some task =>
    if !task.isOpen then closed
    else .ok ⟨s.updateTask taskID f, [.updateTask (f task)]⟩

def taskNotOpen (taskID : String) : EngineError := sentinel .taskNotOpen (": task " ++ quoted taskID)

def handleHumanClaimed (taskID : String) (actor : Actor) : EngineResult :=
  withOpenTask s taskID (.error (taskNotOpen taskID))
    (fun t => { t with claim := some (actor, c.at_), state := .claimed })

def handleHumanCandidatesResolved (taskID : String) (candidates : List Actor) : EngineResult :=
  withOpenTask s taskID (.ok ⟨s, []⟩) (fun t => { t with candidates := candidates })

def handleHumanReassigned (taskID reassignedTo : String) : EngineResult :=
  withOpenTask s taskID (.error (taskNotOpen taskID))
    (fun t => { t with claim := some ({ id := reassignedTo }, c.at_), state := .claimed })

/-- `parkOnCompletionAction`: the token waits for its node's completion action, when there is one. -/
def parkOnCompletionAction (tdef : ProcessDefinition) (s : InstanceState) (tok : Token) (cmds : List Command) :
    Option StepResult :=
  match tdef.node tok.nodeID with
  | none => none
  | some node =>
    let ca := match node.kind with
      | .userTask | .receiveTask => node.completionActionOf
      | _ => ""
    if ca == "" then none else
      let (s1, cmdID) := s.nextCommandID c.ids
      some ⟨s1.onControl (·.awaitCommand tok.id cmdID), cmds ++ [.invokeAction cmdID ca s1.vars false]⟩

/-- `applyOutcomeExposure`. -/
def applyOutcomeExposure (nodeID : String) (ut : UserTask) (outcome : String) (s : InstanceState) : InstanceState :=
  if outcome == "" then s
  else if ut.outcomeVariable != "" then s.mergeVars [(ut.outcomeVariable, .str outcome)]
  else if ut.exposeOutcome then s.mergeVars [(nodeID ++ "_outcome", .str outcome)]
  else s

/-- The user task a node is; the zero value on any other node. -/
def userTaskOf (node : Option Node) : UserTask :=
  match node with
  | some n =>
    match n.spec with
    | .userTask u => u
    | _ => {}
  | none => {}

/-- The checks on a completion's payload and outcome. -/
def checkCompletion (ut : UserTask) (nodeID outcome note : String) (output : Vars) : Option EngineError :=
  if ut.manual && !ut.manualImmediate && (!output.isEmpty || outcome != "" || note != "") then
    some (sentinel .manualTaskPayload (": node " ++ quoted nodeID))
  else if ut.manual || ut.outcomes.isEmpty then none
  else if outcome == "" then some (sentinel .outcomeRequired (": node " ++ quoted nodeID))
  else if !ut.outcomes.contains outcome then
    some (sentinel .invalidOutcome (": node " ++ quoted nodeID ++ " outcome " ++ quoted outcome))
  else none

def handleHumanCompleted (taskID outcome note : String) (output : Vars) (actor : Actor) : EngineResult :=
  match s.taskByID taskID, s.tokenAwaiting taskID with
  | none, none => .error (noTokenAwaiting taskID)
  | none, some _ => .error ((sentinel .taskNotFound "").wrap
      ("workflow-engine: human-completed for token " ++ quoted taskID ++ " has no task record: "))
  | some task, tok? =>
    if !task.isOpen then .error (taskNotOpen taskID) else
    match tok? with
    | none => .error (noTokenAwaiting taskID)
    | some tok => do
      let tdef ← defForScope c.top s.scopes tok.scopeID
      let node := tdef.node tok.nodeID
      let ut := userTaskOf node
      match checkCompletion ut tok.nodeID outcome note output with
      | some e => .error e
      | none =>
        let complete := fun (t : HumanTask) =>
          { t with state := .completed, completion := some ⟨actor, c.at_, outcome, note⟩ }
        let s1 := applyOutcomeExposure ((node.map (·.id)).getD "") ut outcome (s.mergeVars output)
        let s2 := (s1.updateTask taskID complete).onControl (·.updateToken tok.id (fun t =>
          { t.clearAwait with state := .active }))
        let r1 := s2.cancelTimersByTaskID taskID ""
        let r2 := r1.state.removeBoundaryArmsForHost tok.id
        let cmds := Command.updateTask (complete task) :: (r1.commands ++ r2.commands)
        match parkOnCompletionAction c tdef r2.state tok cmds with
        | some r => return r
        | none => thenDrive drv ⟨moveAlongSingleFlow c.ids tdef r2.state tok c.at_, cmds⟩

/-! ## Timers -/

/-- `dispatchArmCascade`: a gateway arm, else a boundary arm, else an event sub-process arm; `none` when
no arm matches or the instance starts no new work. -/
def dispatchArmCascade (onMatch : InstanceState → InstanceState) (gw : Option ArmedEvent) (boundary : Option BoundaryArm)
    (eventSub : Option EventTriggeredSubprocessArm) : Option EngineResult :=
  if !s.spawnsNewWork then none
  else match gw, boundary, eventSub with
    | some ae, _, _ => some (resolveGatewayWin drv c (onMatch s) ae)
    | none, some ba, _ => some (fireBoundaryArm drv c (onMatch s) ba)
    | none, none, some ea => some (fireEventTriggeredSubprocessArm drv c (onMatch s) ea)
    | none, none, none => none

def handleDeadlineFired (tr : TimerRecord) : EngineResult :=
  match s.tokenAwaiting tr.taskID with
  | none => .ok ⟨s.removeTimer tr.timerID, []⟩
  | some tok =>
    let task := s.taskByID tr.taskID
    if task.any (fun t => !t.isOpen) then .ok ⟨s.removeTimer tr.timerID, []⟩ else do
      let tdef ← defForScope c.top s.scopes tr.scopeID
      match tdef.node tr.nodeID with
      | none => .error (plainError ("deadline breach: node " ++ quoted tr.nodeID ++ " not found in definition"))
      | some node =>
        let (_, deadlineFlow, deadlineAction) := node.deadlineOf
        if deadlineFlow == "" then
          .error (plainError ("deadline breach: node " ++ quoted tr.nodeID ++ " has no DeadlineFlow defined"))
        else
          match (flowRefByID tdef deadlineFlow).filter (fun f => f.flow.target != "") with
          | none => .error (plainError ("deadline breach: DeadlineFlow " ++ quoted deadlineFlow ++
              " not found in definition flows for node " ++ quoted tr.nodeID))
          | some f =>
            let r1 := emitFireOnceAction c.ids s deadlineAction
            let s2 := r1.state.onControl (fun s =>
              (s.updateToken tok.id (fun t => { t.clearAwait with state := .active })).moveTokenToTargetAs tok
                f.flow.target f.identity c.at_ .deadlineExpired)
            let r3 : StepResult := match task with
              | some t => ⟨s2.updateTask tr.taskID HumanTask.cancel, [.updateTask t.cancel]⟩
              | none => ⟨s2, []⟩
            let r4 := r3.state.cancelTimersByTaskID tr.taskID tr.timerID
            thenDrive drv ⟨r4.state.removeTimer tr.timerID, r1.commands ++ r3.commands ++ r4.commands⟩

def handleCompensationStallFired (tr : TimerRecord) : StepResult :=
  let s1 := s.removeTimer tr.timerID
  if s1.status != .compensating || tr.commandID != s1.compensating.activeCmdID then ⟨s1, []⟩
  else ⟨s1.raise c.ids (fun id =>
    { id := id, kind := .compensationStall, nodeID := tr.nodeID, scopeID := tr.scopeID, commandID := tr.commandID,
      error := "compensation action stalled", createdAt := c.at_ }), []⟩

def handleReminderFired (tr : TimerRecord) : EngineResult :=
  match (s.tokenAwaiting tr.taskID).or (s.tokenByID tr.token) with
  | none => .ok ⟨s.removeTimer tr.timerID, []⟩
  | some _ =>
    if (s.taskByID tr.taskID).any (fun t => !t.isOpen) then .ok ⟨s.removeTimer tr.timerID, []⟩ else do
      let tdef ← defForScope c.top s.scopes tr.scopeID
      match tdef.node tr.nodeID with
      | none => .error (plainError ("reminder fired: node " ++ quoted tr.nodeID ++ " not found in definition"))
      | some node => return emitFireOnceAction c.ids s node.waitActionOf.2

def handleRetryFired (tr : TimerRecord) : EngineResult :=
  match s.tokenAwaiting tr.timerID with
  | none => .ok ⟨s, []⟩
  | some tok =>
    (reinvokeServiceAction c (s.removeTimer tr.timerID) tok).mapError (·.wrap "workflow-engine: retry fired: ")

/-- The intermediate timer of a token: the token goes on. -/
def handleTokenTimer (timerID : String) : EngineResult :=
  match s.tokenAwaiting timerID with
  | none => .ok ⟨s, []⟩
  | some tok =>
    if !s.spawnsNewWork then .ok ⟨s, []⟩ else do
      let s1 := clearAwaitOf tok (s.removeTimer timerID)
      let r := s1.cancelTimersForToken tok.id timerID
      let tdef ← defForScope c.top r.state.scopes tok.scopeID
      resumeAndDrive drv c tdef r.state tok r.commands

def handleTimerFired (timerID : String) : EngineResult :=
  match dispatchArmCascade drv c s id (armByTimer (·.toTriggerMatch) s.armedEvents timerID)
      (armByTimer (·.toTriggerMatch) s.boundaries timerID)
      (armByTimer (·.toTriggerMatch) s.eventTriggeredSubprocesses timerID) with
  | some r => r
  | none =>
    match s.timerByID timerID with
    | none => handleTokenTimer drv c s timerID
    | some tr =>
      if !tr.kind.firesOnDyingInstance && !s.spawnsNewWork then
        .ok ⟨s.removeTimer tr.timerID, [.cancelTimer tr.timerID]⟩
      else
        match tr.kind with
        | .deadline => handleDeadlineFired drv c s tr
        | .inWait => handleReminderFired c s tr
        | .retry => handleRetryFired c s tr
        | .compensationStall => .ok (handleCompensationStallFired c s tr)
        | .compensationRetry => retryFailedCompensation drv c s tr
        | .intermediate => handleTokenTimer drv c s timerID

/-! ## Signals and messages -/

/-- What a signal reaches: gateway arms, boundary arms, event sub-process arms, waiting tokens. -/
inductive SignalTier where
  | gateway (id : String × String)
  | boundary (id : String × String)
  | eventSub (id : String × String)
  | token (id : String)
  deriving DecidableEq, Repr

/-- The gateway token a tier resolves. -/
def SignalTier.gateways : SignalTier → List String
  | .gateway id => [id.1]
  | _ => []

/-- The tiers in the order the source fires them. -/
def signalTiers (name : String) : List SignalTier :=
  (armIDsBySignal (·.toTriggerMatch) ArmedEvent.identity s.armedEvents name).map .gateway ++
    (armIDsBySignal (·.toTriggerMatch) BoundaryArm.identity s.boundaries name).map .boundary ++
    (armIDsBySignal (·.toTriggerMatch) EventTriggeredSubprocessArm.identity s.eventTriggeredSubprocesses name).map
      .eventSub ++
    (s.tokenIDsAwaitingSignal name).map .token

/-- `markMatched`: the payload is merged by the first tier that matches. -/
def markMatched (matched : Bool) (payload : Vars) (s : InstanceState) : InstanceState :=
  if matched then s else s.mergeVars payload

/-- One tier; `none` when what it names is gone. -/
def fireTier (name : String) (payload : Vars) (matched : Bool) (s : InstanceState) :
    SignalTier → Option EngineResult
  | .gateway id => (s.armedEventByID id).map (resolveGatewayWin drv c (markMatched matched payload s))
  | .boundary id => (s.boundaryArmByID id).map (fireBoundaryArm drv c (markMatched matched payload s))
  | .eventSub id =>
    (s.eventTriggeredSubprocessArmByID id).map (fireEventTriggeredSubprocessArm drv c (markMatched matched payload s))
  | .token id =>
    ((s.tokenByID id).filter (fun t => t.awaitSignal == name)).map (fun tok => do
      let s1 := (markMatched matched payload s).onControl (·.updateToken tok.id (fun t => { t with awaitSignal := "" }))
      let r := s1.cancelTimersForToken tok.id ""
      let tdef ← defForScope c.top r.state.scopes tok.scopeID
      resumeAndDrive drv c tdef r.state tok r.commands)

/-- The tiers in turn, each only while the instance starts new work. A gateway that was resolved is not
resolved again, even when the loop behind it armed it anew. -/
def fireTiers (name : String) (payload : Vars) :
    List SignalTier → List String → Bool → InstanceState → EngineResult
  | [], _, _, s => .ok ⟨s, []⟩
  | tier :: tiers, resolved, matched, s =>
    if !s.spawnsNewWork then .ok ⟨s, []⟩
    else if tier.gateways.any resolved.contains then fireTiers name payload tiers resolved matched s
    else
      match fireTier drv c name payload matched s tier with
      | none => fireTiers name payload tiers resolved matched s
      | some r => do
        let r ← r
        let rest ← fireTiers name payload tiers (tier.gateways ++ resolved) true r.state
        return rest.prepend r.commands

def handleSignalReceived (name : String) (payload : Vars) : EngineResult :=
  fireTiers drv c name payload (signalTiers s name) [] false s

def handleMessageReceived (name correlationKey : String) (payload : Vars) : EngineResult :=
  match dispatchArmCascade drv c s (·.mergeVars payload)
      (armByMessage (·.toTriggerMatch) s.armedEvents name correlationKey)
      (armByMessage (·.toTriggerMatch) s.boundaries name correlationKey)
      (armByMessage (·.toTriggerMatch) s.eventTriggeredSubprocesses name correlationKey) with
  | some r => r
  | none =>
    match s.tokenAwaitingMessage name correlationKey with
    | none => .ok ⟨s, []⟩
    | some tok =>
      if !s.spawnsNewWork then .ok ⟨s, []⟩ else do
        let s1 := (s.mergeVars payload).onControl (·.updateToken tok.id (fun t =>
          { t with awaitMessage := "", awaitMessageKey := "" }))
        let r1 := s1.cancelTimersForToken tok.id ""
        let r2 := r1.state.removeBoundaryArmsForHost tok.id
        let tdef ← defForScope c.top r2.state.scopes tok.scopeID
        match parkOnCompletionAction c tdef r2.state tok (r1.commands ++ r2.commands) with
        | some r => return r
        | none => resumeAndDrive drv c tdef r2.state tok (r1.commands ++ r2.commands)

/-! ## Child instances and incidents -/

def handleSubInstanceCompleted (commandID : String) (output : Vars) : EngineResult :=
  match s.tokenAwaiting commandID with
  | none => .error (noTokenAwaiting commandID)
  | some tok => do
    let s1 := clearAwaitOf tok (s.mergeVars output)
    let tdef ← defForScope c.top s1.scopes tok.scopeID
    resumeAndDrive drv c tdef s1 tok []

/-- The call activity's token is consumed with its boundary arms. -/
def consumeCallActivity (tok : Token) (s : InstanceState) : StepResult :=
  let r := s.removeBoundaryArmsForHost tok.id
  ⟨r.state.onControl (·.consumeTokenAs tok c.at_ .boundaryInterrupted), r.commands⟩

def handleSubInstanceFailed (commandID err : String) : EngineResult :=
  match s.tokenAwaiting commandID with
  | none => .error (noTokenAwaiting commandID)
  | some tok => do
    let hostDef ← defForScope c.top s.scopes tok.scopeID
    match findDirectBoundary c.eval hostDef tok.nodeID err s.vars err with
    | some (nodeID, e) =>
      routeToBoundary drv c s hostDef nodeID e "call-activity boundary" tok.scopeID (consumeCallActivity c tok)
    | none =>
      let s1 := s.onControl (fun s => s.note (.childFailed err s.compensating))
      return s1.endInstance .failed c.at_ (some (.failInstance err))

/-- The attempts an operator grants are no negative number: near the least `int` the subtraction would wrap. -/
def handleResolveIncident (incidentID : String) (addAttempts : Int) : EngineResult :=
  match s.incidents.find? (fun inc => inc.id == incidentID) with
  | none => .ok ⟨s, []⟩
  | some inc =>
    if inc.kind != .action then .error (sentinel .incidentNotResolvable "") else
    let s1 := { s with incidents := s.incidents.eraseP (fun inc => inc.id == incidentID) }
    match s1.tokenByID inc.tokenID with
    | none => .ok ⟨s1, []⟩
    | some tok =>
      let s2 := s1.onControl (fun s =>
        (s.note (.resolved tok s.deferredCompensationThrows)).updateToken tok.id (fun t =>
          { t with retryAttempts := max 0 (t.retryAttempts - addAttempts), state := .active }))
      reinvokeServiceAction c s2 tok

end Handlers

/-! ## Dispatch -/

/-- The handler of a trigger. -/
def handle (drv : DriveLoop) (c : StepCtx) (s : InstanceState) : TriggerBody → EngineResult
  | .startInstance vars startNodeID => handleStartInstance drv c s vars startNodeID
  | .actionCompleted commandID output => handleActionCompleted drv c s commandID output
  | .actionFailed commandID err retryable jitter cause => handleActionFailed drv c s commandID err retryable jitter cause
  | .humanCompleted taskID outcome note output actor => handleHumanCompleted drv c s taskID outcome note output actor
  | .humanCandidatesResolved taskID candidates => handleHumanCandidatesResolved s taskID candidates
  | .humanClaimed taskID actor => handleHumanClaimed c s taskID actor
  | .humanReassigned taskID _ reassignedTo _ => handleHumanReassigned c s taskID reassignedTo
  | .timerFired timerID => handleTimerFired drv c s timerID
  | .signalReceived name payload => handleSignalReceived drv c s name payload
  | .messageReceived name key payload => handleMessageReceived drv c s name key payload
  | .subInstanceCompleted commandID output => handleSubInstanceCompleted drv c s commandID output
  | .subInstanceFailed commandID err => handleSubInstanceFailed drv c s commandID err
  | .compensateRequested toNode reverseNode resetVars restoreTargetVars =>
    stepCompensateRequested drv c s toNode reverseNode resetVars restoreTargetVars
  | .cancelRequested => handleCancelRequested drv c s
  | .resolveIncident incidentID addAttempts => handleResolveIncident c s incidentID addAttempts
  | .resolveCompensationStall commandID incidentID disposition =>
    handleResolveCompensationStall drv c s commandID incidentID disposition

def dispatch (drv : DriveLoop) (c : StepCtx) (s : InstanceState) (trg : TriggerBody) : EngineResult :=
  if s.status.isTerminal then
    match trg.terminalPolicy with
    | .rejectSilently => .ok ⟨s, []⟩
    | .rejectWithError => .error (sentinel .instanceTerminal (" (status " ++ s.status.toText ++ ")"))
    | .allowOnTerminal => handle drv c s trg
  else handle drv c s trg

/-! ## Stale commands -/

/-- The correlation id of a command that waits for an answer; empty otherwise. -/
def Command.correlationID : Command → String
  | .invokeAction commandID _ _ fireAndForget => if fireAndForget then "" else commandID
  | .startSubInstance commandID _ _ => commandID
  | .awaitHuman taskID _ => taskID
  | _ => ""

/-- `filterableCommand`. -/
def filterableCommand (cmd : Command) : Bool := cmd.correlationID != ""

def liveAwaiters (s : ControlState) : List String :=
  if s.status.isTerminal then []
  else (s.tokens.map (·.awaitCommand)).filter (· != "") ++
    (if s.compensating.activeCmdID != "" then [s.compensating.activeCmdID] else [])

/-- One command of the filter. A dropped `AwaitHuman` cancels its task. -/
def dropStaleCommand (live : List String) (s : InstanceState) (cmd : Command) : StepResult :=
  if cmd.correlationID == "" || live.contains cmd.correlationID then ⟨s, [cmd]⟩
  else
    match cmd with
    | .awaitHuman taskID _ =>
      match s.taskByID taskID with
      | some task =>
        if task.isOpen then ⟨s.updateTask taskID HumanTask.cancel, [.updateTask task.cancel]⟩ else ⟨s, []⟩
      | none => ⟨s, []⟩
    | _ => ⟨s, []⟩

def dropStaleCommands (live : List String) : List Command → InstanceState → StepResult
  | [], s => ⟨s, []⟩
  | cmd :: cmds, s =>
    let r := dropStaleCommand live s cmd
    (dropStaleCommands live cmds r.state).prepend r.commands

/-- `dropStaleTokenCommands`. -/
def dropStaleTokenCommands (r : StepResult) : StepResult :=
  if !r.commands.any filterableCommand then r
  else dropStaleCommands (liveAwaiters r.state.toControlState) r.commands r.state

/-! ## `Step` -/

def validateTriggerKey (trg : TriggerBody) : Except EngineError Unit :=
  match trg.validatedKey with
  | some (field, value) =>
    if value == "" then .error (sentinel .emptyTriggerKey (": " ++ trg.typeName ++ "." ++ field)) else .ok ()
  | none => .ok ()

/-- The reassignment target must be named. -/
def validateReassignTarget (trg : TriggerBody) : Except EngineError Unit :=
  match trg with
  | .humanReassigned _ _ reassignedTo _ =>
    if reassignedTo == "" then .error (sentinel .emptyReassignTarget (": " ++ trg.typeName ++ ".To")) else .ok ()
  | _ => .ok ()

/-- The ids of an instance: the supplied generator's, else the counter's. -/
def StepOptions.ids (opt : StepOptions) (instanceID : String) : IDGenerator :=
  opt.idGenerator.getD (counterIDs instanceID)

def stepCtx (d : ProcessDefinition) (s : InstanceState) (trg : Trigger) (opt : StepOptions) : StepCtx :=
  { top := d, ids := opt.ids s.instanceID, at_ := trg.occurredAt, opt := opt }

/-- `Step`, with `fuel` rounds for each `drive` loop. -/
def step (fuel : Nat) (d : ProcessDefinition) (s : InstanceState) (trg : Trigger) (opt : StepOptions) :
    EngineResult := do
  validateTriggerKey trg.body
  validateReassignTarget trg.body
  let c := stepCtx d s trg opt
  let r ← dispatch (drive c fuel) c s trg.body
  return dropStaleTokenCommands r

end Wrkflw
