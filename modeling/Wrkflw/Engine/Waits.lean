import Wrkflw.Engine.State

/-!
# Arming waits

What a token waits on when it stops (`trigger_resolve.go`, `step_boundaries.go`,
`step_eventsubprocess.go` and the arming helpers of `step_nodes.go` and `step_timers.go`):

* `resolveTrigger` : an expression trigger becomes a fixed one;
* `armBoundaries`, `armEventTriggeredSubprocesses`, `armWaitReminder` : the arms and reminders of a node
  or a scope;
* `emitActionInvoke`, `reinvokeServiceAction` : the service action and its boundaries;
* `moveAlongSingleFlow` : the token goes on, or parks as an incident where no flow leads on.

None of these touches a scope or a compensation record.
-/

namespace Wrkflw

def resolveTrigger (eval : ConditionEvaluator) (spec : TriggerSpec) (env : Vars) : Except String TriggerSpec :=
  match spec.exprOf with
  | none => .ok spec
  | some (code, kind) =>
    match eval.evalDuration code env with
    | .error e => .error e
    | .ok d => .ok (if kind == .everyExpr then TriggerSpec.every d else TriggerSpec.afterDuration d)

/-- An evaluator's error behind a text. -/
def evaluatorError (text e : String) : EngineError := ⟨.evaluator, "workflow-engine: " ++ text ++ ": " ++ e⟩

/-- `resolveTrigger` with its error wrapped. -/
def resolveTriggerOr (c : StepCtx) (text : String) (spec : TriggerSpec) (env : Vars) :
    Except EngineError TriggerSpec :=
  (resolveTrigger c.eval spec env).mapError (evaluatorError text)

def evalStringOr (c : StepCtx) (text code : String) (env : Vars) : Except EngineError String :=
  (c.eval.evalString code env).mapError (evaluatorError text)

/-- What an arm waits on, in the source's order of preference, with the timer it schedules. -/
inductive ArmChoice where
  | timer (spec : TriggerSpec)
  | signal (name : String)
  | message (name key : String)
  | nothing

/-- The match of a choice. A timer choice mints its id and schedules it for the owner. -/
def armMatch (g : IDGenerator) (s : InstanceState) (owner : String) :
    ArmChoice → InstanceState × TriggerMatch × List Command
  | .timer spec =>
    let (s', timerID) := s.nextTimerID g
    (s', { timerID := timerID }, [.scheduleTimer timerID owner spec .intermediate])
  | .signal name => (s, { signal := name }, [])
  | .message name key => (s, { message := name, messageKey := key }, [])
  | .nothing => (s, {}, [])

/-! ## Boundaries -/

/-- What a boundary event waits on; an error boundary waits on nothing. -/
def boundaryChoice (c : StepCtx) (env : Vars) (nodeID hostNode : String) (e : BoundaryEvent) :
    Except EngineError ArmChoice := do
  let text := "boundary " ++ quoted nodeID ++ " on " ++ quoted hostNode
  let spec ← resolveTriggerOr c text e.timer env
  if !spec.isZero then return .timer spec
  else if e.signalName != "" then return .signal e.signalName
  else if e.messageName != "" then
    let key ← evalStringOr c (text ++ " message correlation key") e.correlationKey env
    return .message e.messageName key
  else return .nothing

def armBoundary (c : StepCtx) (d : ProcessDefinition) (hostTokenID hostNode : String) (s : InstanceState)
    (n : Node) : EngineResult :=
  match n.spec with
  | .boundaryEvent e =>
    if e.attachedTo != hostNode || (d.outgoing n.id).isEmpty then .ok ⟨s, []⟩ else do
      let choice ← boundaryChoice c s.vars n.id hostNode e
      let (s1, m, cmds) := armMatch c.ids s hostTokenID choice
      let arm : BoundaryArm := { m with
        hostToken := hostTokenID, hostNode := hostNode, boundaryNode := n.id,
        nonInterrupting := e.nonInterrupting, action := e.action }
      return ⟨{ s1 with boundaries := s1.boundaries ++ [arm] }, cmds⟩
  | _ => .ok ⟨s, []⟩

/-- Runs an operation for each element in turn and concatenates the commands. -/
def forEach {α : Type} (f : InstanceState → α → EngineResult) : List α → InstanceState → EngineResult
  | [], s => .ok ⟨s, []⟩
  | a :: as, s => do
    let r ← f s a
    let rest ← forEach f as r.state
    return rest.prepend r.commands

def armBoundaries (c : StepCtx) (d : ProcessDefinition) (s : InstanceState) (hostTokenID hostNode : String) :
    EngineResult :=
  forEach (armBoundary c d hostTokenID hostNode) d.nodes s

/-! ## Event sub-processes -/

/-- The first start event that declares a signal, a timer or a message. -/
def eventTriggeredStart (d : ProcessDefinition) : Option (String × StartEvent) :=
  d.startNodes.findSome? (fun n => match n.spec with
    | .startEvent e =>
      if e.signalName != "" || !e.timer.isZero || e.messageName != "" then some (n.id, e) else none
    | _ => none)

/-- The triggered start of an event sub-process; `none` on any other node. -/
def eventSubprocessNested (n : Node) : Option (String × StartEvent) :=
  match n.spec with
  | .subProcess _ (some sub) => eventTriggeredStart sub
  | _ => none

def eventSubprocessChoice (c : StepCtx) (env : Vars) (nodeID : String) (e : StartEvent) :
    Except EngineError ArmChoice := do
  if e.signalName != "" then return .signal e.signalName
  else if !e.timer.isZero then
    let spec ← resolveTriggerOr c ("event sub-process " ++ quoted nodeID ++ " timer") e.timer env
    return .timer spec
  else if e.messageName != "" then
    let key ← evalStringOr c ("event sub-process " ++ quoted nodeID ++ " message correlation key")
      e.correlationKey env
    return .message e.messageName key
  else return .nothing

def armEventTriggeredSubprocess (c : StepCtx) (enclosingScopeID : String) (s : InstanceState) (n : Node) :
    EngineResult :=
  match eventSubprocessNested n with
  | none => .ok ⟨s, []⟩
  | some (_, e) => do
    let choice ← eventSubprocessChoice c s.vars n.id e
    let (s1, m, cmds) := armMatch c.ids s "" choice
    let arm : EventTriggeredSubprocessArm := { m with
      enclosingScopeID := enclosingScopeID, eventSubprocessNode := n.id, nonInterrupting := e.nonInterrupting }
    return ⟨{ s1 with eventTriggeredSubprocesses := s1.eventTriggeredSubprocesses ++ [arm] }, cmds⟩

def armEventTriggeredSubprocesses (c : StepCtx) (d : ProcessDefinition) (s : InstanceState)
    (enclosingScopeID : String) : EngineResult :=
  forEach (armEventTriggeredSubprocess c enclosingScopeID) d.nodes s

/-! ## Reminders, actions and moves -/

/-- Schedules a timer of the token's task or node and records it. -/
def scheduleRecorded (g : IDGenerator) (s : InstanceState) (tok : Token) (kind : TimerKind) (taskID nodeID : String)
    (spec : TriggerSpec) : StepResult :=
  let (s', timerID) := s.nextTimerID g
  let tr : TimerRecord :=
    { timerID := timerID, kind := kind, token := tok.id, taskID := taskID, nodeID := nodeID, scopeID := tok.scopeID }
  ⟨{ s' with timers := s'.timers ++ [tr] }, [.scheduleTimer timerID tok.id spec kind]⟩

def armWaitReminder (c : StepCtx) (s : InstanceState) (tok : Token) (node : Node) (cancelKey : String) :
    EngineResult := do
  let spec ← resolveTriggerOr c ("reminder node " ++ quoted node.id) node.waitActionOf.1 s.vars
  if spec.isZero then return ⟨s, []⟩
  else return scheduleRecorded c.ids s tok .inWait cancelKey node.id spec

/-- The token stops and waits for the command. -/
def ControlState.awaitCommand (s : ControlState) (tokenID cmdID : String) : ControlState :=
  s.updateToken tokenID (fun t => { t with state := .waiting, awaitCommand := cmdID })

def emitActionInvoke (c : StepCtx) (tdef : ProcessDefinition) (s : InstanceState) (tok : Token) (node : Node) :
    EngineResult := do
  let (s1, cmdID) := s.nextCommandID c.ids
  let invoke := Command.invokeAction cmdID node.mainActionName (serviceActionInput s1 node) false
  let r ← armBoundaries c tdef (s1.onControl (·.awaitCommand tok.id cmdID)) tok.id node.id
  return r.prepend [invoke]

def reinvokeServiceAction (c : StepCtx) (s : InstanceState) (tok : Token) : EngineResult :=
  match defForScope c.top s.scopes tok.scopeID with
  | .error e => .error (e.wrap "workflow-engine: reinvoke: ")
  | .ok tdef =>
    match tdef.node tok.nodeID with
    | none => .error (plainError ("reinvoke: node " ++ quoted tok.nodeID ++ " not found"))
    | some node => emitActionInvoke c tdef s tok node

/-- The token parks as an incident no trigger can resume. -/
def recordDefinitionDefect (g : IDGenerator) (s : InstanceState) (tok : Token) (nodeID reason : String) (at_ : Time) :
    InstanceState :=
  (s.onControl (·.setTokenState tok.id .incident)).raise g (fun id =>
    { id := id, kind := .definitionDefect, tokenID := tok.id, nodeID := nodeID, scopeID := tok.scopeID,
      error := reason, attempts := 1, createdAt := at_ })

def moveAlongSingleFlow (g : IDGenerator) (d : ProcessDefinition) (s : InstanceState) (tok : Token) (at_ : Time) :
    InstanceState :=
  let closed := s.onControl (·.closeVisit tok.id tok.nodeID at_)
  match outgoingFlows d tok.nodeID with
  | [] =>
    recordDefinitionDefect g closed tok tok.nodeID "node has no outgoing flow, so the token can never advance" at_
  | f :: _ => closed.onControl (·.relocate tok f.flow.target f.identity at_)

end Wrkflw
