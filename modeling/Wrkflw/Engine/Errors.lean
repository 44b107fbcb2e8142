import Wrkflw.Engine.Walk

/-!
# Errors and interrupting events

Error propagation (`step_errors.go`), the boundary and event sub-process arms that fire
(`step_boundaries.go`, `step_eventsubprocess.go`) and the winning arm of an event-based gateway
(`step_gateways.go`). Each of them changes the tokens and then runs the `drive` loop `drv`.
-/

namespace Wrkflw

/-! ## Finding a handler -/

/-- `boundaryErrorMatches`; an evaluator error is a failed match, as the callers treat it. -/
def boundaryErrorMatches (eval : ConditionEvaluator) (e : BoundaryEvent) (vars : Vars) (cause errorCode : String) :
    Bool :=
  match e.errorCheck with
  | some check => check vars cause
  | none =>
    if e.errorExpr != "" then
      match eval.evalBool e.errorExpr (vars.set "_error" (.str errorCode)) with
      | .ok b => b
      | .error _ => false
    else e.errorCode == "" || e.errorCode == errorCode

def isErrorBoundary (e : BoundaryEvent) : Bool := e.timer.isZero && e.signalName == "" && e.messageName == ""

/-- The first error boundary of the host that matches, with its node id. -/
def findDirectBoundary (eval : ConditionEvaluator) (hostDef : ProcessDefinition) (hostNodeID errorCode : String)
    (vars : Vars) (cause : String) : Option (String × BoundaryEvent) :=
  hostDef.nodes.findSome? (fun n => match n.spec with
    | .boundaryEvent e =>
      if e.attachedTo == hostNodeID && isErrorBoundary e && boundaryErrorMatches eval e vars cause errorCode then
        some (n.id, e)
      else none
    | _ => none)

/-- The boundary that handles an error thrown inside a scope: its node, the scope it closes, the scope
it resumes in and the definition it sits in. -/
structure EnclosingHandler where
  nodeID : String
  event : BoundaryEvent
  errScopeID : String
  targetScopeID : String
  lookupDef : ProcessDefinition

/-- `findEnclosingBoundary`, with one unit of fuel per enclosing scope. -/
def findEnclosingBoundary (c : StepCtx) (s : InstanceState) (errorCode cause : String) :
    Nat → String → Except EngineError (Option EnclosingHandler)
  | 0, _ => .ok none
  | fuel + 1, scopeID =>
    if scopeID == "" then .ok none else
    match scopeByID s.scopes scopeID with
    | none => .ok none
    | some scope =>
      match defForScope c.top s.scopes scope.parentID with
      | .error e =>
        .error (e.wrap ("workflow-engine: propagateError: resolving parent def for scope " ++ quoted scopeID ++ ": "))
      | .ok parentDef =>
        match findDirectBoundary c.eval parentDef scope.nodeID errorCode s.vars cause with
        | some (nodeID, e) => .ok (some ⟨nodeID, e, scopeID, scope.parentID, parentDef⟩)
        | none => findEnclosingBoundary c s errorCode cause fuel scope.parentID

section Routing
variable (drv : DriveLoop)

/-- A result followed by the `drive` loop. -/
def thenDrive (r : StepResult) : EngineResult := (drv r.state).map (·.prepend r.commands)

def routeToBoundary (c : StepCtx) (s : InstanceState) (lookupDef : ProcessDefinition) (nodeID : String)
    (e : BoundaryEvent) (kind targetScopeID : String) (consume : InstanceState → StepResult) : EngineResult :=
  let r1 := emitFireOnceAction c.ids s e.action
  let r2 := consume r1.state
  match outgoingFlows lookupDef nodeID with
  | [] => .error (plainError ("propagateError: " ++ kind ++ " " ++ quoted nodeID ++ " has no outgoing flow"))
  | f :: _ =>
    let s3 := r2.state.onControl (·.placeTokenInScope c.ids f.flow.target targetScopeID f.identity c.at_)
    thenDrive drv ⟨s3, r1.commands ++ r2.commands⟩

/-! ## Unhandled errors -/

/-- `deferFailureToInFlightCompensationWalk`: every wait goes and the failure waits for the walk. -/
def deferFailureToInFlightCompensationWalk (c : StepCtx) (s : InstanceState) (errorCode : String) : StepResult :=
  let r1 := cancelTokens c.at_ .errored s.tokens s
  let r2 := r1.state.cancelAllTimers
  let r3 := r2.state.cancelAllArmsAndBoundaries
  ⟨r3.state.onControl (fun s =>
      { s with pendingCancel := true, pendingFinalStatus := .failed, pendingFinalErr := errorCode }.note
        (.deferredFailure errorCode s.compensating)),
    r1.commands ++ r2.commands ++ r3.commands⟩

/-- The incident of a failed action whose error nothing handles. -/
def raiseActionIncident (c : StepCtx) (s : InstanceState) (scopeID originatingNodeID failingTokenID errorCode : String) :
    InstanceState :=
  let tok := s.tokenByID failingTokenID
  let attempts := match tok with
    | some t => t.retryAttempts + 1
    | none => 1
  let cmdID := match tok with
    | some t => t.awaitCommand
    | none => ""
  let s1 := match tok with
    | some t => s.onControl (·.setTokenState t.id .incident)
    | none => s
  s1.raise c.ids (fun id =>
    { id := id, tokenID := failingTokenID, nodeID := originatingNodeID, scopeID := scopeID, commandID := cmdID,
      error := errorCode, attempts := attempts, createdAt := c.at_ })

/-- `len(s.RootCompensations) > 0 || len(s.ArchivedCompensations) > 0`. -/
def ControlState.hasRecords (s : ControlState) : Bool :=
  !s.rootCompensations.isEmpty || !s.archivedCompensations.isEmpty

def handleUnhandledError (c : StepCtx) (s : InstanceState) (scopeID originatingNodeID failingTokenID errorCode : String)
    (raiseIncident : Bool) : EngineResult :=
  if raiseIncident then
    .ok ⟨raiseActionIncident c s scopeID originatingNodeID failingTokenID errorCode, []⟩
  else if s.status == .compensating && s.compensating.activeCmdID != "" then
    .ok (deferFailureToInFlightCompensationWalk c s errorCode)
  else
    let s1 := s.onControl (·.harvestOpenScopeCompensations)
    if s1.hasRecords then
      beginCompensation drv c (s1.onControl (fun s => { s with status := .compensating }))
        { closeKind := .errored, finalStatus := .failed, finalErr := errorCode }
    else .ok (s1.endInstance .failed c.at_ (some (.failInstance errorCode)))

/-- The failing token, or the first token on the node when its id is unknown, is consumed. -/
def consumeFailing (c : StepCtx) (scopeID originatingNodeID failingTokenID : String) (s : InstanceState) : StepResult :=
  let byNode := s.tokens.find? (fun t => t.nodeID == originatingNodeID && t.scopeID == scopeID)
  match (s.tokenByID failingTokenID).or byNode with
  | some t => ⟨s.onControl (·.consumeTokenAs t c.at_ .boundaryInterrupted), []⟩
  | none => ⟨s, []⟩

/-- The scope an enclosing boundary closes is cancelled with everything in it. -/
def consumeErrScope (c : StepCtx) (errScopeID : String) (s : InstanceState) : StepResult :=
  let r := cancelScopeSubtree s errScopeID c.at_ .boundaryInterrupted
  ⟨r.state.onControl (·.closeScope errScopeID), r.commands⟩

/-- The definition the direct-attachment check of `propagateError` looks in: none for an error without a node. -/
def directAttachmentDef (c : StepCtx) (s : InstanceState) (scopeID originatingNodeID : String) :
    Except EngineError (Option ProcessDefinition) :=
  if originatingNodeID == "" then .ok none else
  match defForScope c.top s.scopes scopeID with
  | .error e => .error (e.wrap
      "workflow-engine: propagateError: resolving own scope def for direct-attachment check: ")
  | .ok d => .ok (some d)

def propagateError (c : StepCtx) (s : InstanceState) (scopeID originatingNodeID failingTokenID errorCode : String)
    (cause : Option String) (raiseIncident : Bool) : EngineResult := do
  let cause := cause.getD errorCode
  let ownDef ← directAttachmentDef c s scopeID originatingNodeID
  let direct := ownDef.bind (fun d =>
    (findDirectBoundary c.eval d originatingNodeID errorCode s.vars cause).map (fun h => (d, h)))
  match direct with
  | some (d, nodeID, e) =>
    routeToBoundary drv c s d nodeID e "direct boundary" scopeID
      (consumeFailing c scopeID originatingNodeID failingTokenID)
  | none =>
    let handler ← findEnclosingBoundary c s errorCode cause (s.scopes.length + 1) scopeID
    match handler with
    | some h =>
      routeToBoundary drv c s h.lookupDef h.nodeID h.event "boundary error" h.targetScopeID
        (consumeErrScope c h.errScopeID)
    | none => handleUnhandledError drv c s scopeID originatingNodeID failingTokenID errorCode raiseIncident

/-! ## Arms that fire -/

def fireBoundaryArm (c : StepCtx) (s : InstanceState) (ba : BoundaryArm) : EngineResult :=
  match s.tokenByID ba.hostToken with
  | none => .ok ⟨(s.removeBoundaryArmsForHost ba.hostToken).state, []⟩
  | some hostTok => do
    let tdef ← defForScope c.top s.scopes hostTok.scopeID
    match outgoingFlows tdef ba.boundaryNode with
    | [] => .error (plainError ("boundary " ++ quoted ba.boundaryNode ++ ": has no outgoing flow"))
    | f :: _ =>
      if (tdef.node f.flow.target).isNone then
        .error (plainError ("boundary " ++ quoted ba.boundaryNode ++ ": outgoing flow " ++ quoted f.flow.id ++
          " targets unknown node " ++ quoted f.flow.target))
      else
        let r1 := emitFireOnceAction c.ids s ba.action
        let r2 : StepResult := if ba.nonInterrupting then ⟨r1.state, []⟩
          else cancelTokenWaits r1.state hostTok c.at_ .boundaryInterrupted
        let s3 := r2.state.onControl (·.placeTokenInScope c.ids f.flow.target hostTok.scopeID f.identity c.at_)
        thenDrive drv ⟨s3, r1.commands ++ r2.commands⟩

/-- Opens the event sub-process's scope and places a token on its start. -/
def openEventSubprocess (c : StepCtx) (ea : EventTriggeredSubprocessArm) (start : String) (s : ControlState) :
    ControlState :=
  let (s1, scopeID) := s.openScope c.ids ea.eventSubprocessNode ea.enclosingScopeID
  s1.placeTokenInScope c.ids start scopeID "" c.at_

/-- The enclosing scope is emptied before an interrupting event sub-process takes over in it. -/
def interruptScope (c : StepCtx) (s : InstanceState) (scopeID : String) : StepResult :=
  let r := cancelScopeSubtree s scopeID c.at_ .boundaryInterrupted
  ⟨r.state.onControl (fun t => (t.closeScopeDescendants scopeID).note (.interrupted scopeID s.compensating)), r.commands⟩

def fireEventTriggeredSubprocessArm (c : StepCtx) (s : InstanceState) (ea : EventTriggeredSubprocessArm) :
    EngineResult :=
  if !s.spawnsNewWork then .ok ⟨s, []⟩
  else if ea.enclosingScopeID != "" && (scopeByID s.scopes ea.enclosingScopeID).isNone then .ok ⟨s, []⟩
  else do
    let enclosingDef ← defForScope c.top s.scopes ea.enclosingScopeID
    match (enclosingDef.node ea.eventSubprocessNode).bind eventSubprocessNested with
    | none => return ⟨s, []⟩
    | some (start, _) =>
      let r : StepResult := if ea.nonInterrupting then ⟨s, []⟩ else interruptScope c s ea.enclosingScopeID
      thenDrive drv ⟨r.state.onControl (openEventSubprocess c ea start), r.commands⟩

/-- The gateway token follows the winning arm's catch event. -/
def winningMove (c : StepCtx) (tdef : ProcessDefinition) (s : InstanceState) (tok : Token) (catchNode : String) :
    InstanceState :=
  let s1 := s.onControl (·.updateToken tok.id (fun t => { t.clearAwait with state := .active }))
  match outgoingFlows tdef catchNode with
  | f :: _ =>
    if f.flow.target != "" then
      s1.onControl (fun s => (s.closeVisit tok.id tok.nodeID c.at_).relocate tok f.flow.target f.identity c.at_)
    else moveAlongSingleFlow c.ids tdef s1 tok c.at_
  | [] => moveAlongSingleFlow c.ids tdef s1 tok c.at_

def resolveGatewayWin (c : StepCtx) (s : InstanceState) (ae : ArmedEvent) : EngineResult :=
  match (s.tokenByID ae.gatewayToken).filter (fun t => t.awaitCommand == "evtgw:" ++ ae.gatewayToken) with
  | none => .ok ⟨(s.removeArmedEventsForGateway ae.gatewayToken).state, []⟩
  | some tok => do
    let tdef ← defForScope c.top s.scopes tok.scopeID
    let s1 := winningMove c tdef s tok ae.catchNode
    let r := s1.removeArmedEventsForGateway ae.gatewayToken
    thenDrive drv ⟨r.state, r.commands.filter (fun cmd => cmd != .cancelTimer ae.timerID)⟩

end Routing

end Wrkflw
