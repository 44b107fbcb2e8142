import Wrkflw.Engine.Errors
import Wrkflw.Engine.Gateways

/-!
# Node strategies

What an active token does on each kind of node (`step_nodes.go`, `step_dispatch.go`):

* `exitRootScope`, `exitSubprocessScope` : the normal end of a scope and the resume of its parent;
* `endEvent`, `subProcess`, `userTask`, … : one strategy per node kind;
* `enter` : the dispatch table.

`halt` ends the `drive` loop; `stopped` says that the token is no longer active, which ends the loop in
micro mode.
-/

namespace Wrkflw

structure EnterResult extends StepResult where
  halt : Bool := false
  stopped : Bool := false

/-- A fallible strategy. -/
abbrev Strategy := Except EngineError EnterResult

/-- The token stopped and the loop goes on. -/
def EnterResult.parked (r : StepResult) : EnterResult := { r with stopped := true }

/-- The token moved along its node's first flow; it stopped if there is none. -/
def goOn (c : StepCtx) (tdef : ProcessDefinition) (s : InstanceState) (tok : Token) (cmds : List Command) :
    EnterResult :=
  { state := moveAlongSingleFlow c.ids tdef s tok c.at_, commands := cmds,
    stopped := (outgoingFlows tdef tok.nodeID).isEmpty }

/-! ## Leaving a scope -/

/-- The scope ends normally: its records are archived and it closes with its descendants. `enclosing`
says that it ends because the event sub-process running in it did. -/
def ControlState.exitScope (s : ControlState) (scopeID : String) (enclosing : Bool) : ControlState :=
  ((s.note (.exited scopeID enclosing s.tokens s.scopes s.compensating)).archiveCompensations scopeID).closeScope
    scopeID

/-- Whether an end event reached at the root ends the instance. -/
def ControlState.drained (s : ControlState) : Bool := s.tokens.isEmpty && s.compensating.activeCmdID == ""

def exitRootScope (c : StepCtx) (s : InstanceState) : StepResult :=
  if s.drained then s.complete c.at_ else ⟨s, []⟩

def recordSubProcessCompensation (c : StepCtx) (parentDef : ProcessDefinition) (s : InstanceState)
    (enclosingNodeID parentScopeID : String) : InstanceState :=
  match parentDef.node enclosingNodeID with
  | some node =>
    match node.spec with
    | .subProcess a _ =>
      if a.compensateAction == "" then s
      else s.onControl (·.recordCompensation parentScopeID
        { nodeID := enclosingNodeID, action := a.compensateAction, completedAt := c.at_, input := s.vars })
    | _ => s
  | none => s

/-- `resumeInParentScope`; `none` when the sub-process node has no outgoing flow. -/
def resumeInParentScope (c : StepCtx) (parentDef : ProcessDefinition) (s : InstanceState)
    (enclosingNodeID parentScopeID : String) : Option InstanceState :=
  match outgoingFlows parentDef enclosingNodeID with
  | [] => none
  | f :: _ => some (s.onControl (·.placeTokenInScope c.ids f.flow.target parentScopeID f.identity c.at_))

def exitRegularSubprocessScope (c : StepCtx) (s : InstanceState) (currentScopeID subNodeID parentScopeID : String) :
    Strategy :=
  if hasChildScopeWithTokens s.tokens s.scopes currentScopeID "" then .ok { state := s } else
  let r := s.removeEventTriggeredSubprocessArmsForScope currentScopeID
  let s1 := r.state.onControl (·.exitScope currentScopeID false)
  match defForScope c.top s1.scopes parentScopeID with
  | .error e => .error (e.wrap "workflow-engine: sub-process exit: ")
  | .ok parentDef =>
    let s2 := recordSubProcessCompensation c parentDef s1 subNodeID parentScopeID
    match resumeInParentScope c parentDef s2 subNodeID parentScopeID with
    | none => .error (plainError ("sub-process exit: node " ++ quoted subNodeID ++
        " has no outgoing flows in parent definition"))
    | some s3 => .ok { state := s3, commands := r.commands, stopped := true }

def exitRootEventSubprocessScope (c : StepCtx) (s : InstanceState) (currentScopeID : String) : EnterResult :=
  if 0 < tokensInScope s.tokens "" then { state := s }
  else if hasChildScopeWithTokens s.tokens s.scopes "" currentScopeID then { state := s }
  else { exitRootScope c s with stopped := true }

def exitNestedEventSubprocessScope (c : StepCtx) (s : InstanceState) (currentScopeID parentScopeID : String) :
    Strategy :=
  match scopeByID s.scopes parentScopeID with
  | none => .ok { state := s }
  | some enclosing =>
    if 0 < tokensInScope s.tokens parentScopeID then .ok { state := s }
    else if hasChildScopeWithTokens s.tokens s.scopes parentScopeID currentScopeID then .ok { state := s }
    else
      let s1 := s.onControl (·.exitScope parentScopeID true)
      match defForScope c.top s1.scopes enclosing.parentID with
      | .error e => .error (e.wrap "workflow-engine: event sub-process exit: ")
      | .ok grandparentDef =>
        let s2 := recordSubProcessCompensation c grandparentDef s1 enclosing.nodeID enclosing.parentID
        let finish := fun (s3 : InstanceState) =>
          let r := s3.removeEventTriggeredSubprocessArmsForScope parentScopeID
          (Except.ok { state := r.state, commands := r.commands, stopped := true } : Strategy)
        match resumeInParentScope c grandparentDef s2 enclosing.nodeID enclosing.parentID with
        | some s3 => finish s3
        | none =>
          if enclosing.parentID != "" then
            .error (plainError ("event sub-process exit: enclosing node " ++ quoted enclosing.nodeID ++
              " has no outgoing flows in grandparent definition"))
          else if s2.drained then .ok (.parked (s2.complete c.at_))
          else finish s2

def exitEventSubprocessScope (c : StepCtx) (s : InstanceState) (currentScopeID parentScopeID : String) : Strategy :=
  if hasChildScopeWithTokens s.tokens s.scopes currentScopeID "" then .ok { state := s } else
  let s1 := s.onControl (·.exitScope currentScopeID false)
  if parentScopeID == "" then .ok (exitRootEventSubprocessScope c s1 currentScopeID)
  else exitNestedEventSubprocessScope c s1 currentScopeID parentScopeID

/-- Whether the scope's node is an event sub-process of its parent. -/
def isEventSubprocessScope (c : StepCtx) (s : InstanceState) (scope : Scope) : Bool :=
  match defForScope c.top s.scopes scope.parentID with
  | .error _ => false
  | .ok parentDef => ((parentDef.node scope.nodeID).bind eventSubprocessNested).isSome

def exitSubprocessScope (c : StepCtx) (s : InstanceState) (currentScopeID : String) : Strategy :=
  if tokensInScope s.tokens currentScopeID != 0 then .ok { state := s, stopped := true }
  else if s.compensationWalkHoldsScope currentScopeID then .ok { state := s, stopped := true }
  else
    match scopeByID s.scopes currentScopeID with
    | none => .error (plainError ("sub-process end: scope " ++ quoted currentScopeID ++ " not found"))
    | some scope =>
      if isEventSubprocessScope c s scope then exitEventSubprocessScope c s currentScopeID scope.parentID
      else exitRegularSubprocessScope c s currentScopeID scope.nodeID scope.parentID

/-- `forceTerminate`: every token goes and the instance ends with the event's outcome. -/
def forceTerminate (c : StepCtx) (s : InstanceState) (ev : EndEvent) : EnterResult :=
  let s1 := s.onControl (fun s => (s.note (.forced ev.outcome s.pendingCancel)).cancelAllTokens c.at_ .terminated)
  match ev.outcome with
  | .abort =>
    let reason := if ev.terminationReason == "" then "force-terminated" else ev.terminationReason
    { s1.endInstance .terminated c.at_ (some (.failInstance reason)) with halt := true }
  | .complete => { s1.complete c.at_ with halt := true }

/-! ## Strategies -/

section Strategies
variable (drv : DriveLoop) (c : StepCtx) (tdef : ProcessDefinition) (s : InstanceState)
  (tok : Token) (node : Node)

def endEvent (ev : EndEvent) : Strategy :=
  match ev.behavior with
  | .terminate => .ok (forceTerminate c s ev)
  | .error =>
    let s1 := s.onControl (·.consumeTokenAs tok c.at_ .errored)
    match propagateError drv c s1 tok.scopeID "" "" ev.errorCode none false with
    | .error e => .error e
    | .ok r => .ok { r with halt := true }
  | .normal =>
    let s1 := s.onControl (·.consumeToken tok c.at_)
    if tok.scopeID == "" then .ok (.parked (exitRootScope c s1)) else exitSubprocessScope c s1 tok.scopeID

/-- The manual start of a definition. -/
def resolveManualStart (d : ProcessDefinition) : Option String :=
  (d.startNodes.find? (fun n => match n.spec with
    | .startEvent e => e.messageName == "" && e.signalName == "" && e.timer.isZero
    | _ => false)).map (·.id)

def subProcess (sub : Option ProcessDefinition) : Strategy :=
  match sub with
  | none =>
    .ok (.parked ⟨recordDefinitionDefect c.ids s tok node.id "sub-process node carries no nested definition" c.at_, []⟩)
  | some sub =>
    if sub.startNodes.isEmpty then
      .error (plainError ("sub-process " ++ quoted node.id ++ ": nested definition has no start node"))
    else
      match resolveManualStart sub with
      | none => .error ((sentinel .noManualStart "").wrap ("workflow-engine: sub-process " ++ quoted node.id ++ ": "))
      | some start => do
        let opened := s.toControlState.openScope c.ids node.id tok.scopeID
        let s1 := s.onControl (fun _ =>
          (opened.1.placeTokenInScope c.ids start opened.2 "" c.at_).consumeToken tok c.at_)
        let r ← armEventTriggeredSubprocesses c sub s1 opened.2
        return .parked r

/-- The deadline of a user task: its timer and the due date of the task. -/
def armDeadline (u : UserTask) (taskID : String) (s : InstanceState) : Except EngineError (StepResult × Option Time) := do
  let spec ← resolveTriggerOr c ("deadline node " ++ quoted node.id) u.deadlineTimer s.vars
  if spec.isZero then return (⟨s, []⟩, none)
  else
    let due := match spec.absTime with
      | some at_ => some at_
      | none => spec.duration.map (c.at_ + ·)
    return (scheduleRecorded c.ids s tok .deadline taskID node.id spec, due)

def userTask (u : UserTask) : Strategy := do
  let (s1, taskID) := s.nextTaskID c.ids
  let spec : AuthzSpec := ⟨u.eligibleRoles, u.eligiblePrivileges, u.eligibleExpr⟩
  let ht : HumanTask :=
    { taskID := taskID, instanceID := s1.instanceID, nodeID := node.id, eligibility := spec, createdAt := c.at_,
      vars := s1.vars }
  let s2 := s1.onControl (·.setVisitTask tok.id node.id taskID)
  if u.manual && u.manualImmediate then
    return goOn c tdef { s2 with tasks := s2.tasks ++ [{ ht with state := .completed }] } tok []
  else
    let (r1, due) ← armDeadline c tok node u taskID s2
    let r2 ← armWaitReminder c r1.state tok node taskID
    let s3 := { r2.state with tasks := r2.state.tasks ++ [{ ht with dueAt := due }] }
    let r3 ← armBoundaries c tdef (s3.onControl (·.awaitCommand tok.id taskID)) tok.id node.id
    return .parked ⟨r3.state, r1.commands ++ r2.commands ++ [.awaitHuman taskID spec] ++ r3.commands⟩

/-- The token stops and waits for a message. -/
def ControlState.awaitMessage (s : ControlState) (tokenID name key : String) : ControlState :=
  s.updateToken tokenID (fun t => { t with state := .waiting, awaitMessage := name, awaitMessageKey := key })

def receiveTask (rt : ReceiveTask) : Strategy := do
  let key ← evalStringOr c ("receive task " ++ quoted node.id ++ " correlation key") rt.correlationKey s.vars
  let r1 ← armWaitReminder c (s.onControl (·.awaitMessage tok.id rt.messageName key)) tok node tok.id
  let r2 ← armBoundaries c tdef r1.state tok.id node.id
  return .parked (r2.prepend r1.commands)

def sendTask (st : SendTask) : Strategy := do
  let key ← evalStringOr c ("send task " ++ quoted node.id ++ " correlation key") st.correlationKey s.vars
  return goOn c tdef s tok [.sendMessage st.messageName key s.vars]

def intermediateCatchEvent (e : IntermediateCatchEvent) : Strategy := do
  let spec ← resolveTriggerOr c ("timer node " ++ quoted node.id) e.timer s.vars
  let reminded := fun (r : StepResult) =>
    (armWaitReminder c r.state tok node tok.id).map (fun r' => EnterResult.parked (r'.prepend r.commands))
  if !spec.isZero then
    let (s1, timerID) := s.nextTimerID c.ids
    reminded ⟨s1.onControl (·.updateToken tok.id (fun t =>
        { t with state := .waiting, awaitCommand := timerID, awaitTimer := timerID })),
      [.scheduleTimer timerID tok.id spec .intermediate]⟩
  else if e.signalName != "" then
    reminded ⟨s.onControl (·.updateToken tok.id (fun t => { t with state := .waiting, awaitSignal := e.signalName })), []⟩
  else if e.messageName != "" then
    let key ← evalStringOr c ("message node " ++ quoted node.id ++ " correlation key") e.correlationKey s.vars
    reminded ⟨s.onControl (·.awaitMessage tok.id e.messageName key), []⟩
  else
    return .parked ⟨recordDefinitionDefect c.ids s tok node.id
      "intermediate catch event declares no timer, signal or message trigger" c.at_, []⟩

def exclusiveGateway : Strategy := do
  let taken ← selectExclusiveTarget c.eval s.vars node none (outgoingFlows tdef node.id)
  return { state := s.onControl (·.moveTokenToTarget tok taken.flow.target taken.identity c.at_) }

/-- The token parks on a converging gateway and the join fires if it can. -/
def joinGateway : EnterResult :=
  let parked := s.onControl (·.setTokenState tok.id .joining)
  let s1 := match tryJoin c.ids tdef parked.toControlState node tok.scopeID c.at_ with
    | some ctl => parked.onControl (fun _ => ctl)
    | none => parked
  { state := s1, stopped := (s1.tokenByID tok.id).any (fun t => t.state == .joining) }

def parallelGateway : Strategy :=
  if 1 < (tdef.incoming node.id).length then .ok (joinGateway c tdef s tok node)
  else .ok { state := s.onControl (fun s => forkParallel c.ids tdef s tok node c.at_) }

def inclusiveGateway : Strategy :=
  if 1 < (tdef.incoming node.id).length then .ok (joinGateway c tdef s tok node)
  else
    match forkInclusive c.ids tdef c.eval s.vars s.toControlState tok node c.at_ with
    | .error e => .error e
    | .ok ctl => .ok { state := s.onControl (fun _ => ctl) }

/-- What the catch event behind an event-based gateway waits on. -/
def gatewayChoice (env : Vars) (target : Node) (e : IntermediateCatchEvent) : Except EngineError ArmChoice := do
  let text := "event-gateway " ++ quoted node.id
  let spec ← resolveTriggerOr c (text ++ " timer arm " ++ quoted target.id) e.timer env
  if !spec.isZero then return .timer spec
  else if e.signalName != "" then return .signal e.signalName
  else if e.messageName != "" then
    let key ← evalStringOr c (text ++ " message arm " ++ quoted target.id ++ " correlation key") e.correlationKey env
    return .message e.messageName key
  else return .nothing

/-- Arms the catch event an event-based gateway's flow leads to. -/
def armGatewayFlow (s : InstanceState) (f : SequenceFlow) : EngineResult :=
  match tdef.node f.target with
  | none => .ok ⟨s, []⟩
  | some target =>
    match target.spec with
    | .intermediateCatchEvent e => do
      let choice ← gatewayChoice c node s.vars target e
      let (s1, m, cmds) := armMatch c.ids s tok.id choice
      let ae : ArmedEvent := { m with gatewayToken := tok.id, catchNode := target.id, flow := f.id }
      return ⟨{ s1 with armedEvents := s1.armedEvents ++ [ae] }, cmds⟩
    | _ => .ok ⟨s, []⟩

def eventBasedGateway : Strategy := do
  let s1 := s.onControl (·.awaitCommand tok.id ("evtgw:" ++ tok.id))
  let r ← forEach (armGatewayFlow c tdef tok node) (tdef.outgoing node.id) s1
  return .parked r

def callActivity (defRef : Qualifier) : EnterResult :=
  let (s1, cmdID) := s.nextCommandID c.ids
  .parked ⟨s1.onControl (·.awaitCommand tok.id cmdID), [.startSubInstance cmdID defRef s1.vars]⟩

def intermediateThrowEvent (signalName : String) : EnterResult :=
  if signalName != "" then goOn c tdef s tok [.throwSignal signalName []]
  else .parked ⟨recordDefinitionDefect c.ids s tok node.id
    "intermediate throw event declares no signal to throw" c.at_, []⟩

/-- A throw that meets a walk in flight parks and queues its token. -/
def ControlState.deferCompensationThrow (s : ControlState) (tokenID : String) : ControlState :=
  { s.setTokenState tokenID .waiting with
    deferredCompensationThrows := s.deferredCompensationThrows ++ [tokenID] }

/-- A throw that has nothing to undo goes on. -/
def passThrow (s : InstanceState) : EnterResult :=
  goOn c tdef (s.onControl (fun s => s.note (.passed tok.id s.deferredCompensationThrows s.walking))) tok []

/-- The walk of a throw over its records, or the move on when there are none. -/
def throwWalk (s : InstanceState) (records : List CompensationRecord) (cursor : CompensationCursor)
    (resume : FlowRef) : EnterResult :=
  match records.getLast? with
  | none => passThrow c tdef tok s
  | some rec =>
    .parked (startCompensationWalk c s tok records rec cursor resume.flow.target resume.identity)

def compensationThrowEvent (e : CompensationThrowEvent) : EnterResult :=
  match outgoingFlows tdef node.id with
  | [] => passThrow c tdef tok s
  | resume :: _ =>
    if resume.flow.target == "" then passThrow c tdef tok s
    else if e.compensateRef != "" then
      let records := s.archivedCompensations.get e.compensateRef
      if records.isEmpty then passThrow c tdef tok s
      else if s.compensating.activeCmdID != "" then .parked ⟨s.onControl (·.deferCompensationThrow tok.id), []⟩
      else throwWalk c tdef tok s records { archiveKey := e.compensateRef } resume
    else if s.compensating.activeCmdID != "" then .parked ⟨s.onControl (·.deferCompensationThrow tok.id), []⟩
    else
      let s1 := if tok.scopeID == "" && !e.scopeLocal then s.onControl (·.consolidateArchiveIntoRoot) else s
      let records := s1.compensationRecordsForScope tok.scopeID
      throwWalk c tdef tok s1 records { scopeID := tok.scopeID, startRecordCount := records.length } resume

/-- The strategy of the node's kind. A boundary event has none: a token on it parks. -/
def enter : Strategy :=
  match node.spec with
  | .startEvent _ => .ok (goOn c tdef s tok [])
  | .endEvent ev => endEvent drv c s tok ev
  | .serviceTask .. | .businessRuleTask .. => (emitActionInvoke c tdef s tok node).map .parked
  | .userTask u => userTask c tdef s tok node u
  | .receiveTask r => receiveTask c tdef s tok node r
  | .sendTask t => sendTask c tdef s tok node t
  | .subProcess _ sub => subProcess c s tok node sub
  | .callActivity _ defRef => .ok (callActivity c s tok defRef)
  | .intermediateCatchEvent e => intermediateCatchEvent c s tok node e
  | .intermediateThrowEvent name => .ok (intermediateThrowEvent c tdef s tok node name)
  | .boundaryEvent _ => .ok (.parked ⟨s.onControl (·.setTokenState tok.id .waiting), []⟩)
  | .exclusiveGateway => exclusiveGateway c tdef s tok node
  | .parallelGateway => parallelGateway c tdef s tok node
  | .inclusiveGateway => inclusiveGateway c tdef s tok node
  | .eventBasedGateway => eventBasedGateway c tdef s tok node
  | .compensationThrowEvent e => .ok (compensationThrowEvent c tdef s tok node e)

end Strategies

end Wrkflw
