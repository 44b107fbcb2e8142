import Wrkflw.Store.HumanTasks

/-!
# The actionable view

`NewActionableView` (`runtime/view/instance_actionable.go`): the open tasks of an instance, each with the flows that lead on
from its node. A nil slice is the empty list.
-/

namespace Wrkflw

structure NextAction where
  flowID : String
  target : String
  condition : String
  isDefault : Bool
  deriving DecidableEq, Repr

structure ActionableTask where
  taskID : String
  nodeID : String
  state : String
  claim : Option (Actor × Time)
  candidates : List Actor
  allowedActions : List NextAction
  deriving DecidableEq, Repr

structure ActionableView where
  instanceID : String
  status : String
  openTasks : List ActionableTask
  deriving DecidableEq, Repr

def nextAction (f : SequenceFlow) : NextAction := ⟨f.id, f.target, f.condition, f.isDefault⟩

/-- The flows out of the task's node, in the definition at hand. -/
def allowedActions (d : Option ProcessDefinition) (nodeID : String) : List NextAction :=
  match d with
  | none => []
  | some d => (d.outgoing nodeID).map nextAction

def actionableTask (d : Option ProcessDefinition) (t : HumanTask) : ActionableTask where
  taskID := t.taskID
  nodeID := t.nodeID
  state := t.state.toText
  claim := t.claim
  candidates := t.candidates
  allowedActions := allowedActions d t.nodeID

def newActionableView (s : InstanceState) (d : Option ProcessDefinition) : ActionableView where
  instanceID := s.instanceID
  status := s.status.toText
  openTasks := (s.tasks.filter (·.isOpen)).map (actionableTask d)

end Wrkflw
