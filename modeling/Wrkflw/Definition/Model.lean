import Mathlib.Data.Rat.Defs
import Mathlib.Data.List.Basic

/-!
# Process definitions

The data model a process definition is made of (`definition/model`, `definition/activity`,
`definition/event`, `definition/gateway`, `definition/flow`, `definition/schedule`):

* `TriggerSpec` : when a timer fires, with `NeverDue`, `Recurring` and the expression forms;
* `RetryPolicy` : the per-activity retry settings and their normal form;
* `SequenceFlow`, `Node`, `ProcessDefinition` : the graph. A sub-process node owns its nested
  definition, so the type of nodes is `NodeOf ProcessDefinition`;
* the accessors of `accessors.go`, one per optional field.

Instants and durations are integers (nanoseconds); the zero instant is `time.Time`'s zero value.
Payload values are opaque to the engine apart from the strings and counters it writes itself.
-/

namespace Wrkflw

/-- An instant, in nanoseconds from the zero time. -/
abbrev Time := Int

/-- A span of time in nanoseconds. -/
abbrev Duration := Int

/-- `time.Time.IsZero`. -/
def isZeroTime (t : Time) : Bool := t == 0

/-- A variable's value. The engine writes strings and counters; every other value is carried. -/
inductive Value where
  | str (s : String)
  | int (n : Int)
  | other (encoded : String)
  deriving DecidableEq, Repr

/-- A variable map, in the order its keys were first written. -/
abbrev Vars := List (String × Value)

/-- `m[k] = v`. -/
def Vars.set (m : Vars) (k : String) (v : Value) : Vars :=
  if m.any (fun e => e.1 == k) then m.map (fun e => if e.1 == k then (k, v) else e) else m ++ [(k, v)]

/-- `maps.Copy(dst, src)`. -/
def Vars.copyFrom (dst src : Vars) : Vars :=
  src.foldl (fun m e => m.set e.1 e.2) dst

/-- The text `%q` prints. -/
def quoted (s : String) : String := "\"" ++ s ++ "\""

/-! ## Triggers -/

inductive TriggerKind where
  | unset | oneTime | duration | durationRand | cron | daily | weekly | monthly | expr | everyExpr
  deriving DecidableEq, Repr

structure ClockTime where
  hour : Nat
  minute : Nat
  second : Nat
  deriving DecidableEq, Repr

structure TriggerSpec where
  kind : TriggerKind := .unset
  dur : Duration := 0
  at_ : Time := 0
  expr : String := ""
  cron : String := ""
  min : Duration := 0
  max : Duration := 0
  interval : Nat := 0
  atTimes : List ClockTime := []
  weekdays : List Int := []
  days : List Int := []
  deriving DecidableEq, Repr

namespace TriggerSpec

def afterDuration (d : Duration) : TriggerSpec := { kind := .oneTime, dur := d }

def every (d : Duration) : TriggerSpec := { kind := .duration, dur := d }

def isZero (s : TriggerSpec) : Bool := s.kind == .unset

def recurring (s : TriggerSpec) : Bool :=
  match s.kind with
  | .unset | .oneTime | .expr => false
  | _ => true

/-- The fixed offset of a one-shot or interval trigger. -/
def duration (s : TriggerSpec) : Option Duration :=
  if (s.kind == .oneTime && isZeroTime s.at_) || s.kind == .duration then some s.dur else none

def absTime (s : TriggerSpec) : Option Time :=
  if s.kind == .oneTime && !isZeroTime s.at_ then some s.at_ else none

/-- The expression of a dynamic trigger, with the kind that says whether it recurs. -/
def exprOf (s : TriggerSpec) : Option (String × TriggerKind) :=
  if s.kind == .expr || s.kind == .everyExpr then some (s.expr, s.kind) else none

def neverDue (s : TriggerSpec) : Bool :=
  match s.kind with
  | .duration => decide (s.dur ≤ 0)
  | .durationRand => decide (s.min ≤ 0) || decide (s.max ≤ s.min)
  | .daily | .weekly | .monthly =>
    if s.interval == 0 then true
    else if s.atTimes.any (fun a => decide (23 < a.hour) || decide (59 < a.minute) || decide (59 < a.second)) then true
    else if s.kind == .monthly && s.days.any (fun d => d == 0 || decide (31 < d) || decide (d < -31)) then true
    else if s.kind == .weekly && !s.weekdays.isEmpty then s.weekdays.all (fun w => decide (w < 0))
    else false
  | _ => false

end TriggerSpec

/-! ## Retry policies -/

structure RetryPolicy where
  maxAttempts : Int := 0
  initialInterval : Duration := 0
  backoffCoef : Rat := 0
  maxInterval : Duration := 0
  maxElapsed : Duration := 0
  nonRetryableErrors : List String := []
  deriving DecidableEq

/-- One second. -/
def second : Duration := 1000000000

def defaultRetryPolicy : RetryPolicy :=
  { maxAttempts := 3, initialInterval := second, backoffCoef := 2, maxInterval := 100 * second }

namespace RetryPolicy

/-- `strings.Contains`. -/
def containsText (s sub : String) : Bool := s.toList.tails.any (fun t => sub.toList.isPrefixOf t)

def isNonRetryable (p : RetryPolicy) (errMsg : String) : Bool :=
  p.nonRetryableErrors.any (fun s => s != "" && containsText errMsg s)

def normalize (p : RetryPolicy) : RetryPolicy :=
  let d := defaultRetryPolicy
  let p := if p.maxAttempts < 0 then { p with maxAttempts := d.maxAttempts } else p
  let p := if p.initialInterval ≤ 0 then { p with initialInterval := d.initialInterval } else p
  let p := if p.backoffCoef < 1 then { p with backoffCoef := d.backoffCoef } else p
  if p.maxInterval ≤ 0 then { p with maxInterval := d.maxInterval } else p

end RetryPolicy

/-! ## Nodes and flows -/

structure SequenceFlow where
  id : String
  source : String
  target : String
  condition : String := ""
  isDefault : Bool := false
  deriving DecidableEq, Repr

inductive NodeKind where
  | startEvent | endEvent | serviceTask | userTask | receiveTask | sendTask | businessRuleTask
  | subProcess | callActivity | intermediateCatchEvent | intermediateThrowEvent | boundaryEvent
  | exclusiveGateway | parallelGateway | inclusiveGateway | eventBasedGateway | compensationThrowEvent
  deriving DecidableEq, Repr

structure WaitFields where
  deadlineTimer : TriggerSpec := {}
  deadlineFlow : String := ""
  deadlineAction : String := ""
  waitEvery : TriggerSpec := {}
  waitAction : String := ""

structure ActivityFields extends WaitFields where
  retryPolicy : Option RetryPolicy := none
  recoveryFlow : String := ""
  compensateAction : String := ""
  cancelAction : String := ""
  completionAction : String := ""

/-- `validate.ValidationDescriptor`. -/
structure ValidationDescriptor where
  kind : String
  schema : String := ""
  deriving DecidableEq, Repr

/-- A start event. The strategy in its validation slot is a callback when it has no descriptor. -/
structure StartEvent where
  signalName : String := ""
  messageName : String := ""
  correlationKey : String := ""
  messageStartSingleton : Bool := false
  timer : TriggerSpec := {}
  nonInterrupting : Bool := false
  hasValidation : Bool := false
  descriptor : Option ValidationDescriptor := none

inductive TerminationOutcome where
  | complete | abort
  deriving DecidableEq, Repr

inductive EndBehavior where
  | normal | terminate | error
  deriving DecidableEq, Repr

structure EndEvent where
  behavior : EndBehavior := .normal
  terminationReason : String := ""
  outcome : TerminationOutcome := .complete
  errorCode : String := ""
  deriving DecidableEq, Repr

structure IntermediateCatchEvent extends WaitFields where
  timer : TriggerSpec := {}
  signalName : String := ""
  messageName : String := ""
  correlationKey : String := ""
  hasValidation : Bool := false
  descriptor : Option ValidationDescriptor := none

/-- A boundary event. `errorCheck` is the caller-supplied predicate on the variables and the cause. -/
structure BoundaryEvent where
  attachedTo : String
  nonInterrupting : Bool := false
  errorCode : String := ""
  signalName : String := ""
  messageName : String := ""
  correlationKey : String := ""
  timer : TriggerSpec := {}
  action : String := ""
  errorExpr : String := ""
  errorCheck : Option (Vars → String → Bool) := none

structure CompensationThrowEvent where
  compensateRef : String := ""
  scopeLocal : Bool := false
  deriving DecidableEq, Repr

structure UserTask extends ActivityFields where
  eligibleRoles : List String := []
  eligiblePrivileges : List String := []
  eligibleExpr : String := ""
  hasValidation : Bool := false
  descriptor : Option ValidationDescriptor := none
  manual : Bool := false
  manualImmediate : Bool := false
  outcomes : List String := []
  exposeOutcome : Bool := false
  outcomeVariable : String := ""

structure ReceiveTask extends ActivityFields where
  messageName : String := ""
  correlationKey : String := ""
  hasValidation : Bool := false
  descriptor : Option ValidationDescriptor := none

structure SendTask extends ActivityFields where
  messageName : String := ""
  correlationKey : String := ""

/-- A definition reference; version `0` is the latest one. -/
structure Qualifier where
  id : String
  version : Int := 0
  deriving DecidableEq, Repr

def Qualifier.toText (q : Qualifier) : String :=
  if q.version == 0 then q.id else q.id ++ ":" ++ toString q.version

/-- The rule reference of a business-rule task: a catalog name or an inline document. -/
structure RuleSpec where
  name : String := ""
  inline : String := ""
  deriving DecidableEq, Repr

/-- What a node is, over the type `D` of nested definitions. -/
inductive NodeSpec (D : Type) where
  | startEvent (e : StartEvent)
  | endEvent (e : EndEvent)
  | serviceTask (a : ActivityFields) (action : String)
  | userTask (u : UserTask)
  | receiveTask (r : ReceiveTask)
  | sendTask (t : SendTask)
  | businessRuleTask (a : ActivityFields) (action : String) (rule : Option RuleSpec)
  | subProcess (a : ActivityFields) (subprocess : Option D)
  | callActivity (a : ActivityFields) (defRef : Qualifier)
  | intermediateCatchEvent (e : IntermediateCatchEvent)
  | intermediateThrowEvent (signalName : String)
  | boundaryEvent (e : BoundaryEvent)
  | exclusiveGateway
  | parallelGateway
  | inclusiveGateway
  | eventBasedGateway
  | compensationThrowEvent (e : CompensationThrowEvent)

structure NodeOf (D : Type) where
  id : String
  name : String := ""
  spec : NodeSpec D

structure ProcessDefinition where
  id : String
  version : Int
  nodes : List (NodeOf ProcessDefinition)
  flows : List SequenceFlow
  cancelActions : List String := []

abbrev Node := NodeOf ProcessDefinition

namespace NodeOf
variable {D : Type}

def kind (n : NodeOf D) : NodeKind :=
  match n.spec with
  | .startEvent _ => .startEvent
  | .endEvent _ => .endEvent
  | .serviceTask _ _ => .serviceTask
  | .userTask _ => .userTask
  | .receiveTask _ => .receiveTask
  | .sendTask _ => .sendTask
  | .businessRuleTask _ _ _ => .businessRuleTask
  | .subProcess _ _ => .subProcess
  | .callActivity _ _ => .callActivity
  | .intermediateCatchEvent _ => .intermediateCatchEvent
  | .intermediateThrowEvent _ => .intermediateThrowEvent
  | .boundaryEvent _ => .boundaryEvent
  | .exclusiveGateway => .exclusiveGateway
  | .parallelGateway => .parallelGateway
  | .inclusiveGateway => .inclusiveGateway
  | .eventBasedGateway => .eventBasedGateway
  | .compensationThrowEvent _ => .compensationThrowEvent

/-- The fields every activity embeds; `none` on a node that is no activity. -/
def activityFields (n : NodeOf D) : Option ActivityFields :=
  match n.spec with
  | .serviceTask a _ => some a
  | .userTask u => some u.toActivityFields
  | .receiveTask r => some r.toActivityFields
  | .sendTask t => some t.toActivityFields
  | .businessRuleTask a _ _ => some a
  | .subProcess a _ => some a
  | .callActivity a _ => some a
  | _ => none

/-- The fields every waiting node embeds: the activities and the intermediate catch event. -/
def waitFields (n : NodeOf D) : Option WaitFields :=
  match n.spec with
  | .intermediateCatchEvent e => some e.toWaitFields
  | _ => n.activityFields.map (·.toWaitFields)

def retryPolicyOf (n : NodeOf D) : Option RetryPolicy := n.activityFields.bind (·.retryPolicy)

/-- Timer, flow and action of the node's deadline. -/
def deadlineOf (n : NodeOf D) : TriggerSpec × String × String :=
  match n.waitFields with
  | some w => (w.deadlineTimer, w.deadlineFlow, w.deadlineAction)
  | none => ({}, "", "")

/-- Trigger and action of the node's in-wait reminder. -/
def waitActionOf (n : NodeOf D) : TriggerSpec × String :=
  match n.waitFields with
  | some w => (w.waitEvery, w.waitAction)
  | none => ({}, "")

/-- A text field of the activity, empty on a node that is no activity. -/
def activityText (field : ActivityFields → String) (n : NodeOf D) : String :=
  match n.activityFields with
  | some a => field a
  | none => ""

def completionActionOf : NodeOf D → String := activityText (·.completionAction)
def compensateActionOf : NodeOf D → String := activityText (·.compensateAction)
def cancelActionOf : NodeOf D → String := activityText (·.cancelAction)
def recoveryFlowOf : NodeOf D → String := activityText (·.recoveryFlow)

def ruleOf (n : NodeOf D) : Option RuleSpec :=
  match n.spec with
  | .businessRuleTask _ _ rule => rule
  | _ => none

def actionOf (n : NodeOf D) : String :=
  match n.spec with
  | .serviceTask _ action => action
  | .businessRuleTask _ action _ => action
  | _ => ""

/-- `mainActionName`: the catalog name a service-style node invokes. -/
def mainActionName (n : NodeOf D) : String :=
  if n.actionOf != "" then n.actionOf else n.id

end NodeOf

namespace ProcessDefinition

def node (d : ProcessDefinition) (id : String) : Option Node := d.nodes.find? (fun n => n.id == id)

def outgoing (d : ProcessDefinition) (nodeID : String) : List SequenceFlow :=
  d.flows.filter (fun f => f.source == nodeID)

def incoming (d : ProcessDefinition) (nodeID : String) : List SequenceFlow :=
  d.flows.filter (fun f => f.target == nodeID)

def startNodes (d : ProcessDefinition) : List Node := d.nodes.filter (fun n => n.kind == .startEvent)

end ProcessDefinition

end Wrkflw
