import Wrkflw.Runtime.Driver
import Wrkflw.Definition.Validate

/-!
# The input gate

`TargetNode` (`engine/target_node.go`) says which node an external input is for, before the step runs, and `validateInput`
(`runtime/processdriver.go`) judges the input by the strategy of that node. A driver whose gate is `inputGate` is the one
`deliverLoop` runs with.
-/

namespace Wrkflw

/-- `scopeOfToken`; the root for a token that does not exist. -/
def ControlState.scopeOfToken (s : ControlState) (tokenID : String) : String :=
  match s.tokenByID tokenID with
  | some tok => tok.scopeID
  | none => ""

/-- `messageTargetNodeScoped`: the node a message is for and the scope it is in. -/
def InstanceState.messageTargetNodeScoped (s : InstanceState) (name correlationKey : String) : Option (String × String) :=
  match armByMessage (·.toTriggerMatch) s.armedEvents name correlationKey with
  | some ae => some (ae.catchNode, s.scopeOfToken ae.gatewayToken)
  | none =>
    match armByMessage (·.toTriggerMatch) s.boundaries name correlationKey with
    | some ba => some (ba.boundaryNode, s.scopeOfToken ba.hostToken)
    | none =>
      match armByMessage (·.toTriggerMatch) s.eventTriggeredSubprocesses name correlationKey with
      | some ea => some (ea.eventSubprocessNode, ea.enclosingScopeID)
      | none =>
        match s.tokenAwaitingMessage name correlationKey with
        | some tok => some (tok.nodeID, tok.scopeID)
        | none => none

def nodeInScope (d : ProcessDefinition) (s : ControlState) (scopeID nodeID : String) : Option Node :=
  match defForScope d s.scopes scopeID with
  | .error _ => none
  | .ok scopeDef => scopeDef.node nodeID

/-- `TargetNode`. -/
def targetNode (d : ProcessDefinition) (s : InstanceState) : TriggerBody → Option Node
  | .startInstance _ startNodeID =>
    if startNodeID == "" then
      match resolveManualStart d with
      | none => none
      | some n => d.node n
    else d.node startNodeID
  | .messageReceived name correlationKey _ =>
    match s.messageTargetNodeScoped name correlationKey with
    | none => none
    | some (nodeID, scopeID) => nodeInScope d s.toControlState scopeID nodeID
  | .humanCompleted taskID _ _ _ _ =>
    match s.tokenAwaiting taskID with
    | none => none
    | some tok => nodeInScope d s.toControlState tok.scopeID tok.nodeID
  | _ => none

def inputOf : TriggerBody → Vars
  | .startInstance vars _ => vars
  | .messageReceived _ _ payload => payload
  | .humanCompleted _ _ _ output _ => output
  | _ => []

/-- What `validateInput` answers; `judge` is `gate.Validate` with the strategy of the node, outside the repository's own
packages for every strategy but the callback. -/
def inputGate (judge : Node → Vars → Option String) (d : ProcessDefinition) (s : InstanceState) (t : Trigger) :
    Option String :=
  match targetNode d s t.body with
  | none => none
  | some node => if node.hasValidation then judge node (inputOf t.body) else none

end Wrkflw
