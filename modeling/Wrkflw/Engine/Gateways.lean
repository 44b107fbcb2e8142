import Wrkflw.Engine.Control
import Wrkflw.Library.Graph

/-!
# Gateways

Forks, joins and the exclusive choice of `step_gateways.go`, as operations of the control state:

* `forkParallel`, `forkInclusive`, `selectExclusiveTarget`;
* `matchJoinTokensToFlows` : one parked token per incoming flow, tokens without an arrival flow filling
  what is left in a second pass;
* `tryParallelJoin`, `tryInclusiveJoin`, `retryParkedJoins` : the two joins and the sweep over the
  parked ones that `drive` makes when no token is active.
-/

namespace Wrkflw

open Library (reach)

/-- Places a token on the target of every flow. -/
def placeOnFlows (g : IDGenerator) (scopeID : String) (at_ : Time) : List FlowRef → ControlState → ControlState
  | [], s => s
  | f :: fs, s => placeOnFlows g scopeID at_ fs (s.placeTokenInScope g f.flow.target scopeID f.identity at_)

/-! ## Forks -/

def forkParallel (g : IDGenerator) (d : ProcessDefinition) (s : ControlState) (tok : Token) (node : Node)
    (at_ : Time) : ControlState :=
  placeOnFlows g tok.scopeID at_ (outgoingFlows d node.id) (s.consumeToken tok at_)

/-- The error an evaluator returns for a flow's condition. -/
def conditionError (node : Node) (f : FlowRef) (e : String) : EngineError :=
  ⟨.evaluator, "workflow-engine: gateway " ++ quoted node.id ++ " flow " ++ quoted f.flow.id ++ ": " ++ e⟩

/-- The flows an inclusive gateway takes before the default is considered. -/
def takenFlows (eval : ConditionEvaluator) (vars : Vars) (node : Node) :
    List FlowRef → Except EngineError (List FlowRef)
  | [] => .ok []
  | f :: fs =>
    if f.flow.isDefault then takenFlows eval vars node fs
    else if f.flow.condition == "" then (takenFlows eval vars node fs).map (f :: ·)
    else
      match eval.evalBool f.flow.condition vars with
      | .error e => .error (conditionError node f e)
      | .ok true => (takenFlows eval vars node fs).map (f :: ·)
      | .ok false => takenFlows eval vars node fs

/-- The flow marked as default that is listed last. -/
def defaultFlow (fs : List FlowRef) : Option FlowRef := (fs.filter (·.flow.isDefault)).getLast?

def forkInclusive (g : IDGenerator) (d : ProcessDefinition) (eval : ConditionEvaluator) (vars : Vars)
    (s : ControlState) (tok : Token) (node : Node) (at_ : Time) : Except EngineError ControlState :=
  match takenFlows eval vars node (outgoingFlows d node.id) with
  | .error e => .error e
  | .ok [] =>
    match defaultFlow (outgoingFlows d node.id) with
    | none => .error (sentinel .noMatchingFlow (": gateway " ++ quoted node.id))
    | some dflt => .ok (placeOnFlows g tok.scopeID at_ [dflt] (s.consumeToken tok at_))
  | .ok taken => .ok (placeOnFlows g tok.scopeID at_ taken (s.consumeToken tok at_))

/-- The exclusive gateway's choice: the first flow without a condition or with a true one, else the
default. -/
def selectExclusiveTarget (eval : ConditionEvaluator) (vars : Vars) (node : Node) (dflt : Option FlowRef) :
    List FlowRef → Except EngineError FlowRef
  | [] =>
    match dflt with
    | some f => .ok f
    | none => .error (sentinel .noMatchingFlow (": gateway " ++ quoted node.id))
  | f :: fs =>
    if f.flow.isDefault then selectExclusiveTarget eval vars node (some f) fs
    else if f.flow.condition == "" then .ok f
    else
      match eval.evalBool f.flow.condition vars with
      | .error e => .error (conditionError node f e)
      | .ok true => .ok f
      | .ok false => selectExclusiveTarget eval vars node dflt fs

/-! ## Joins -/

def joinedAt (t : Token) (nodeID scopeID : String) : Bool :=
  t.nodeID == nodeID && t.state == .joining && t.scopeID == scopeID

/-- Whether the token's id is among those of the list. -/
def hasToken (l : List Token) (t : Token) : Bool := l.any (fun a => a.id == t.id)

/-- `fireJoin`: the consumed tokens leave and every outgoing flow gets a token. -/
def fireJoin (g : IDGenerator) (d : ProcessDefinition) (s : ControlState) (nodeID scopeID : String) (at_ : Time)
    (consumed : List Token) : ControlState :=
  let closed := consumed.foldl (fun s t => s.closeVisit t.id t.nodeID at_) s
  let kept := s.tokens.filter (fun t => !(joinedAt t nodeID scopeID && hasToken consumed t))
  placeOnFlows g scopeID at_ (outgoingFlows d nodeID) { closed with tokens := kept }

/-- One pass of the matching: each flow takes the first unassigned parked token that fits. The result
is the tokens assigned so far and the flows still unsatisfied. -/
def matchPass (parked : List Token) (fits : FlowRef → Token → Bool) :
    List FlowRef → List Token → List Token × List FlowRef
  | [], assigned => (assigned, [])
  | f :: fs, assigned =>
    match parked.find? (fun t => !hasToken assigned t && fits f t) with
    | some t => matchPass parked fits fs (assigned ++ [t])
    | none =>
      let r := matchPass parked fits fs assigned
      (r.1, f :: r.2)

/-- `matchJoinTokensToFlows`: the tokens to consume when every incoming flow is satisfied. -/
def matchJoinTokensToFlows (d : ProcessDefinition) (tokens : List Token) (nodeID scopeID : String) :
    Option (List Token) :=
  let parked := tokens.filter (fun t => joinedAt t nodeID scopeID)
  let first := matchPass parked (fun f t => t.arrivalFlow == f.identity) (incomingFlows d nodeID) []
  let second := matchPass parked (fun _ t => t.arrivalFlow == "") first.2 first.1
  if second.2.isEmpty then some second.1 else none

/-- `tryParallelJoin` once the token is parked; `none` when the join does not fire. -/
def tryParallelJoin (g : IDGenerator) (d : ProcessDefinition) (s : ControlState) (nodeID scopeID : String)
    (at_ : Time) : Option ControlState :=
  match matchJoinTokensToFlows d s.tokens nodeID scopeID with
  | none => none
  | some consumed =>
    some (fireJoin g d (s.note (.parallelFired scopeID nodeID consumed)) nodeID scopeID at_ consumed)

/-- The sources of the flows into a node, without the target of the search. -/
def sourcesInto (d : ProcessDefinition) (target n : String) : List String :=
  ((d.incoming n).map (·.source)).filter (· != target)

/-- The nodes from which a token can travel to `target` along sequence flows, `target` excluded. -/
def nodesThatCanReach (d : ProcessDefinition) (target : String) : List String :=
  (reach (sourcesInto d target) (d.flows.length + 1) target).filter (· != target)

def subtreeCanReachJoin (tokens : List Token) (scopes : List Scope) (scopeID : String) (canReach : List String) :
    Bool :=
  scopes.any (fun sc => sc.parentID == scopeID && canReach.contains sc.nodeID &&
    decide (0 < tokensInScopeSubtree tokens scopes sc.id))

/-- `tryInclusiveJoin` once the token is parked; `none` when the join does not fire. -/
def tryInclusiveJoin (g : IDGenerator) (d : ProcessDefinition) (s : ControlState) (nodeID scopeID : String)
    (at_ : Time) : Option ControlState :=
  let canReach := nodesThatCanReach d nodeID
  if s.tokens.any (fun t => !joinedAt t nodeID scopeID && t.scopeID == scopeID && canReach.contains t.nodeID) then
    none
  else if subtreeCanReachJoin s.tokens s.scopes scopeID canReach then none
  else
    let consumed := s.tokens.filter (fun t => joinedAt t nodeID scopeID)
    some (fireJoin g d (s.note (.inclusiveFired scopeID nodeID consumed s.tokens s.scopes s.compensating)) nodeID
      scopeID at_ consumed)

/-- The join attempt of a token on a converging gateway. -/
def tryJoin (g : IDGenerator) (d : ProcessDefinition) (s : ControlState) (node : Node) (scopeID : String)
    (at_ : Time) : Option ControlState :=
  match node.kind with
  | .parallelGateway => tryParallelJoin g d s node.id scopeID at_
  | .inclusiveGateway => tryInclusiveJoin g d s node.id scopeID at_
  | _ => none

/-- `retryParkedJoins`, over the parked tokens that are left to look at. -/
def retryParked (g : IDGenerator) (top : ProcessDefinition) (s : ControlState) (at_ : Time) :
    List Token → Option ControlState
  | [] => none
  | tok :: toks =>
    if tok.state != .joining then retryParked g top s at_ toks else
    match defForScope top s.scopes tok.scopeID with
    | .error _ => retryParked g top s at_ toks
    | .ok tdef =>
      match tdef.node tok.nodeID with
      | none => retryParked g top s at_ toks
      | some node =>
        if (tdef.incoming node.id).length ≤ 1 then retryParked g top s at_ toks else
        match tryJoin g tdef s node tok.scopeID at_ with
        | some s' => some s'
        | none => retryParked g top s at_ toks

def retryParkedJoins (g : IDGenerator) (top : ProcessDefinition) (s : ControlState) (at_ : Time) :
    Option ControlState :=
  retryParked g top s at_ s.tokens

end Wrkflw
