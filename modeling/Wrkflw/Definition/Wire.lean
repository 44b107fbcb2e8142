import Wrkflw.Definition.Validate
import Wrkflw.Definition.Qualifier
import Wrkflw.Library.Json

/-!
# Definitions on the wire

`MarshalJSON` and `UnmarshalJSON` of a definition (`definition/model/node_wire.go`, `trigger_wire.go`,
`nodekind_json.go`), the two gates of the decoder (`node_wire_keys.go`, `node_wire_vocabulary.go`), and the `ToWire`
and `FromWire` of every kind (`definition/activity`, `event` and `gateway`).

* `TriggerWire`, `putTrigger`, `readTrigger`;
* `NodeWire` : the flat record of a node, in the groups the kinds share; `toWire`, `fromWire`;
* `marshalJSON`, `unmarshalJSON`.

A document is the tree of its values, and no key stands in it twice. Texts are valid UTF-8, a number with a fraction
is finite, and a time is its instant, in a zone of whole minutes. The raw text of an inline rule is carried unread.
Lists do not tell nil from empty here, and of a validation strategy only its descriptor is left, so that one read back
is described as it was. The names of definition-scoped actions are written and never read; they are left out.
-/

namespace Wrkflw

open Library

/-- A document; `any` holds raw JSON text. -/
abbrev WireDoc := Json String

/-! ## Triggers -/

structure TriggerWire where
  kind : String
  nanos : Int := 0
  at_ : Option Time := none
  expr : String := ""
  cron : String := ""
  minNanos : Int := 0
  maxNanos : Int := 0
  interval : Nat := 0
  atTimes : List ClockTime := []
  weekdays : List Int := []
  daysOfMonth : List Int := []

def kindString : TriggerKind → String
  | .oneTime => "onetime"
  | .duration => "duration"
  | .expr => "expr"
  | .everyExpr => "everyExpr"
  | .cron => "cron"
  | .durationRand => "durationRand"
  | .daily => "daily"
  | .weekly => "weekly"
  | .monthly => "monthly"
  | .unset => ""

def putTrigger (s : TriggerSpec) : Option TriggerWire :=
  if s.isZero then none
  else
    let w : TriggerWire := { kind := kindString s.kind }
    some (match s.kind with
      | .oneTime =>
        match s.absTime with
        | some t => { w with at_ := some t }
        | none => { w with nanos := s.duration.getD 0 }
      | .duration => { w with nanos := s.duration.getD 0 }
      | .expr | .everyExpr => { w with expr := s.expr }
      | .cron => { w with cron := s.cron }
      | .durationRand => { w with minNanos := s.min, maxNanos := s.max }
      | .daily | .weekly | .monthly =>
        { w with interval := s.interval, atTimes := s.atTimes, daysOfMonth := s.days, weekdays := s.weekdays }
      | .unset => w)

/-- The canonical form, or the text of the older one as an expression. -/
def readTrigger (w : Option TriggerWire) (flatExpr : String) (recurringFlat : Bool) : TriggerSpec :=
  match w with
  | none =>
    if flatExpr == "" then {}
    else if recurringFlat then { kind := .everyExpr, expr := flatExpr }
    else { kind := .expr, expr := flatExpr }
  | some w =>
    if w.kind == "onetime" then
      match w.at_ with
      | some t => { kind := .oneTime, at_ := t }
      | none => .afterDuration w.nanos
    else if w.kind == "duration" then .every w.nanos
    else if w.kind == "expr" then { kind := .expr, expr := w.expr }
    else if w.kind == "everyExpr" then { kind := .everyExpr, expr := w.expr }
    else if w.kind == "cron" then { kind := .cron, cron := w.cron }
    else if w.kind == "durationRand" then { kind := .durationRand, min := w.minNanos, max := w.maxNanos }
    else if w.kind == "daily" then { kind := .daily, interval := w.interval, atTimes := w.atTimes }
    else if w.kind == "weekly" then { kind := .weekly, interval := w.interval, weekdays := w.weekdays, atTimes := w.atTimes }
    else if w.kind == "monthly" then { kind := .monthly, interval := w.interval, days := w.daysOfMonth, atTimes := w.atTimes }
    else {}

/-- An instant RFC 3339 has a text for: its year is in 0..9999. -/
def TriggerWire.writable (w : TriggerWire) : Bool :=
  let day : Int := 86400 * 1000000000
  w.at_.all (fun t => decide (-366 * day ≤ t) && decide (t < 3652059 * day))

/-! ## Records -/

def strings : List String → Option WireDoc := listField .str

def readStringList : Option WireDoc → Option (List String) := readOr [] (Json.list? Json.text?)

/-- A key that is missing is read as `none`. -/
def readMaybe {β : Type} (read : WireDoc → Option β) : Option WireDoc → Option (Option β) :=
  readOr none (fun j => (read j).map some)

def readNat : WireDoc → Option Nat
  | .int n => if 0 ≤ n then some n.toNat else none
  | _ => none

/-- `DisallowUnknownFields`. -/
def onlyKeys {ρ : Type} (fields : List (String × (ρ → Option WireDoc))) (doc : List (String × WireDoc)) : Bool :=
  doc.all (fun e => (fields.map Prod.fst).contains e.1)

def clockFields : List (String × (ClockTime → Option WireDoc)) :=
  [("hour", fun c => some (.int c.hour)), ("minute", fun c => some (.int c.minute)),
    ("second", fun c => some (.int c.second))]

def clockJSON (c : ClockTime) : WireDoc := .obj (encodeRecord clockFields c)

def readClock : WireDoc → Option ClockTime
  | .obj doc => do
    guard (onlyKeys clockFields doc)
    let hour ← readOr 0 readNat (doc.lookup "hour")
    let minute ← readOr 0 readNat (doc.lookup "minute")
    let second ← readOr 0 readNat (doc.lookup "second")
    return ⟨hour, minute, second⟩
  | _ => none

def triggerWireFields : List (String × (TriggerWire → Option WireDoc)) :=
  [("kind", fun w => some (.str w.kind)), ("nanos", fun w => intField w.nanos), ("at", fun w => w.at_.map .time),
    ("expr", fun w => textField w.expr), ("cron", fun w => textField w.cron), ("min_nanos", fun w => intField w.minNanos),
    ("max_nanos", fun w => intField w.maxNanos), ("interval", fun w => intField w.interval),
    ("at_times", fun w => listField clockJSON w.atTimes), ("weekdays", fun w => listField .int w.weekdays),
    ("days_of_month", fun w => listField .int w.daysOfMonth)]

def readTriggerWire : WireDoc → Option TriggerWire
  | .obj doc => do
    guard (onlyKeys triggerWireFields doc)
    let kind ← readOr "" Json.text? (doc.lookup "kind")
    let nanos ← readOr 0 Json.int? (doc.lookup "nanos")
    let at_ ← readMaybe Json.time? (doc.lookup "at")
    let expr ← readOr "" Json.text? (doc.lookup "expr")
    let cron ← readOr "" Json.text? (doc.lookup "cron")
    let minNanos ← readOr 0 Json.int? (doc.lookup "min_nanos")
    let maxNanos ← readOr 0 Json.int? (doc.lookup "max_nanos")
    let interval ← readOr 0 readNat (doc.lookup "interval")
    let atTimes ← readOr [] (Json.list? readClock) (doc.lookup "at_times")
    let weekdays ← readOr [] (Json.list? Json.int?) (doc.lookup "weekdays")
    let daysOfMonth ← readOr [] (Json.list? Json.int?) (doc.lookup "days_of_month")
    return ⟨kind, nanos, at_, expr, cron, minNanos, maxNanos, interval, atTimes, weekdays, daysOfMonth⟩
  | _ => none

def triggerJSON (w : TriggerWire) : WireDoc := .obj (encodeRecord triggerWireFields w)

def retryFields : List (String × (RetryPolicy → Option WireDoc)) :=
  [("max_attempts", fun p => intField p.maxAttempts), ("initial_interval", fun p => intField p.initialInterval),
    ("backoff_coef", fun p => numField p.backoffCoef), ("max_interval", fun p => intField p.maxInterval),
    ("max_elapsed", fun p => intField p.maxElapsed), ("non_retryable_errors", fun p => strings p.nonRetryableErrors)]

def readRetry : WireDoc → Option RetryPolicy
  | .obj doc => do
    guard (onlyKeys retryFields doc)
    let maxAttempts ← readOr 0 Json.int? (doc.lookup "max_attempts")
    let initialInterval ← readOr 0 Json.int? (doc.lookup "initial_interval")
    let backoffCoef ← readOr 0 Json.num? (doc.lookup "backoff_coef")
    let maxInterval ← readOr 0 Json.int? (doc.lookup "max_interval")
    let maxElapsed ← readOr 0 Json.int? (doc.lookup "max_elapsed")
    let nonRetryableErrors ← readStringList (doc.lookup "non_retryable_errors")
    return ⟨maxAttempts, initialInterval, backoffCoef, maxInterval, maxElapsed, nonRetryableErrors⟩
  | _ => none

def retryJSON (p : RetryPolicy) : WireDoc := .obj (encodeRecord retryFields p)

def descriptorFields : List (String × (ValidationDescriptor → Option WireDoc)) :=
  [("kind", fun d => some (.str d.kind)), ("schema", fun d => textField d.schema)]

def readDescriptor : WireDoc → Option ValidationDescriptor
  | .obj doc => do
    guard (onlyKeys descriptorFields doc)
    let kind ← readOr "" Json.text? (doc.lookup "kind")
    let schema ← readOr "" Json.text? (doc.lookup "schema")
    return ⟨kind, schema⟩
  | _ => none

def descriptorJSON (d : ValidationDescriptor) : WireDoc := .obj (encodeRecord descriptorFields d)

/-- `shapeErr`, but for what the inline text is as JSON. -/
def RuleSpec.misshapen (r : RuleSpec) : Bool :=
  (r.name == "" && r.inline == "") || (r.name != "" && (r.inline != "" || isBlank r.name))

def ruleJSON (r : RuleSpec) : WireDoc := if r.name != "" then .str r.name else .any r.inline

def readRule : WireDoc → Option RuleSpec
  | .str name => if ({ name := name } : RuleSpec).misshapen then none else some { name := name }
  | .any inline => if ({ inline := inline } : RuleSpec).misshapen then none else some { inline := inline }
  | _ => none

def flowFields : List (String × (SequenceFlow → Option WireDoc)) :=
  [("id", fun f => some (.str f.id)), ("source", fun f => some (.str f.source)), ("target", fun f => some (.str f.target)),
    ("condition", fun f => textField f.condition), ("is_default", fun f => boolField f.isDefault)]

def readFlow : WireDoc → Option SequenceFlow
  | .obj doc => do
    guard (onlyKeys flowFields doc)
    let id ← readOr "" Json.text? (doc.lookup "id")
    let source ← readOr "" Json.text? (doc.lookup "source")
    let target ← readOr "" Json.text? (doc.lookup "target")
    let condition ← readOr "" Json.text? (doc.lookup "condition")
    let isDefault ← readOr false Json.bool? (doc.lookup "is_default")
    return ⟨id, source, target, condition, isDefault⟩
  | _ => none

def flowJSON (f : SequenceFlow) : WireDoc := .obj (encodeRecord flowFields f)

/-! ## Nodes -/

/-- `MarshalJSON` of a kind. -/
def NodeKind.name : NodeKind → String
  | .startEvent => "startEvent"
  | .endEvent => "endEvent"
  | .serviceTask => "serviceTask"
  | .userTask => "userTask"
  | .receiveTask => "receiveTask"
  | .sendTask => "sendTask"
  | .businessRuleTask => "businessRuleTask"
  | .subProcess => "subProcess"
  | .callActivity => "callActivity"
  | .intermediateCatchEvent => "intermediateCatchEvent"
  | .intermediateThrowEvent => "intermediateThrowEvent"
  | .boundaryEvent => "boundaryEvent"
  | .exclusiveGateway => "exclusiveGateway"
  | .parallelGateway => "parallelGateway"
  | .inclusiveGateway => "inclusiveGateway"
  | .eventBasedGateway => "eventBasedGateway"
  | .compensationThrowEvent => "compensationThrowEvent"

def nodeKinds : List NodeKind :=
  [.startEvent, .endEvent, .serviceTask, .userTask, .receiveTask, .sendTask, .businessRuleTask, .subProcess, .callActivity,
    .intermediateCatchEvent, .intermediateThrowEvent, .boundaryEvent, .exclusiveGateway, .parallelGateway, .inclusiveGateway,
    .eventBasedGateway, .compensationThrowEvent]

def readKind : WireDoc → Option NodeKind
  | .str name => nodeKinds.find? (fun k => k.name == name)
  | _ => none

/-- The fields of a waiting node. `deadlineDuration` and `waitEvery` are the older flat forms. -/
structure WaitWire where
  deadlineDuration : String := ""
  waitEvery : String := ""
  deadlineTrigger : Option TriggerWire := none
  waitTrigger : Option TriggerWire := none
  deadlineFlow : String := ""
  deadlineAction : String := ""
  waitAction : String := ""

structure ActivityWire where
  retryPolicy : Option RetryPolicy := none
  recoveryFlow : String := ""
  compensateAction : String := ""
  cancelAction : String := ""
  completionAction : String := ""

structure TaskWire where
  action : String := ""
  rule : Option RuleSpec := none
  eligibleRoles : List String := []
  eligiblePrivileges : List String := []
  eligibleExpr : String := ""
  manual : Bool := false
  manualImmediate : Bool := false
  outcomes : List String := []
  exposeOutcome : Bool := false
  outcomeVariable : String := ""
  defRef : String := ""

structure EventWire where
  timerDuration : String := ""
  timerTrigger : Option TriggerWire := none
  signalName : String := ""
  messageName : String := ""
  correlationKey : String := ""
  messageStartSingleton : Bool := false
  nonInterrupting : Bool := false
  compensateRef : String := ""
  compensateScopeLocal : Bool := false
  validation : Option ValidationDescriptor := none

structure EndWire where
  errorCode : String := ""
  endBehavior : String := ""
  terminationReason : String := ""
  terminationOutcome : String := ""
  attachedTo : String := ""
  boundaryAction : String := ""
  boundaryErrorExpr : String := ""

/-- `NodeWire`, in groups. The nested definition is a document of its own. -/
structure NodeWire (D : Type) where
  id : String
  kind : NodeKind
  name : String := ""
  wait : WaitWire := {}
  activity : ActivityWire := {}
  task : TaskWire := {}
  event : EventWire := {}
  ending : EndWire := {}
  subprocess : Option D := none

def putWait (a : WaitFields) : WaitWire :=
  { deadlineTrigger := putTrigger a.deadlineTimer, deadlineFlow := a.deadlineFlow, deadlineAction := a.deadlineAction,
    waitTrigger := putTrigger a.waitEvery, waitAction := a.waitAction }

def putActivity (a : ActivityFields) : ActivityWire :=
  { retryPolicy := a.retryPolicy, recoveryFlow := a.recoveryFlow, compensateAction := a.compensateAction,
    cancelAction := a.cancelAction, completionAction := a.completionAction }

def WaitWire.fields (w : WaitWire) : WaitFields where
  deadlineTimer := readTrigger w.deadlineTrigger w.deadlineDuration false
  deadlineFlow := w.deadlineFlow
  deadlineAction := w.deadlineAction
  waitEvery := readTrigger w.waitTrigger w.waitEvery true
  waitAction := w.waitAction

/-- `Activity`. -/
def NodeWire.activityOf {D : Type} (w : NodeWire D) : ActivityFields where
  toWaitFields := w.wait.fields
  retryPolicy := w.activity.retryPolicy
  recoveryFlow := w.activity.recoveryFlow
  compensateAction := w.activity.compensateAction
  cancelAction := w.activity.cancelAction
  completionAction := w.activity.completionAction

def TerminationOutcome.name : TerminationOutcome → String
  | .complete => "complete"
  | .abort => "abort"

/-- The strategy's descriptor, if it has one. -/
def putValidation (hasValidation : Bool) (descriptor : Option ValidationDescriptor) : Option ValidationDescriptor :=
  if hasValidation then descriptor else none

section Specs
variable {D E : Type}

/-- `toWire`, with the document of a nested definition. -/
def toWire (n : NodeOf D) (sub : Option E) : NodeWire E :=
  let w : NodeWire E := { id := n.id, kind := n.kind, name := n.name }
  match n.spec with
  | .startEvent e =>
    { w with event := { signalName := e.signalName, messageName := e.messageName, correlationKey := e.correlationKey,
                        messageStartSingleton := e.messageStartSingleton, timerTrigger := putTrigger e.timer,
                        validation := putValidation e.hasValidation e.descriptor, nonInterrupting := e.nonInterrupting } }
  | .endEvent e =>
    match e.behavior with
    | .normal => w
    | .terminate =>
      { w with ending := { endBehavior := "terminate", terminationReason := e.terminationReason,
                           terminationOutcome := e.outcome.name } }
    | .error => { w with ending := { endBehavior := "error", errorCode := e.errorCode } }
  | .serviceTask a action =>
      { w with wait := putWait a.toWaitFields, activity := putActivity a, task := { action := action } }
  | .userTask u =>
    { w with
      wait := putWait u.toWaitFields, activity := putActivity u.toActivityFields
      task := { eligibleRoles := u.eligibleRoles, eligiblePrivileges := u.eligiblePrivileges, eligibleExpr := u.eligibleExpr,
                manual := u.manual, manualImmediate := u.manualImmediate, outcomes := u.outcomes,
                exposeOutcome := u.exposeOutcome, outcomeVariable := u.outcomeVariable }
      event := { validation := putValidation u.hasValidation u.descriptor } }
  | .receiveTask r =>
    { w with
      wait := putWait r.toWaitFields, activity := putActivity r.toActivityFields
      event := { messageName := r.messageName, correlationKey := r.correlationKey,
                 validation := putValidation r.hasValidation r.descriptor } }
  | .sendTask t =>
    { w with
      wait := putWait t.toWaitFields, activity := putActivity t.toActivityFields
      event := { messageName := t.messageName, correlationKey := t.correlationKey } }
  | .businessRuleTask a action rule =>
    { w with wait := putWait a.toWaitFields, activity := putActivity a, task := { action := action, rule := rule } }
  | .subProcess a _ => { w with wait := putWait a.toWaitFields, activity := putActivity a, subprocess := sub }
  | .callActivity a ref =>
      { w with wait := putWait a.toWaitFields, activity := putActivity a, task := { defRef := ref.toText } }
  | .intermediateCatchEvent e =>
    { w with
      wait := putWait e.toWaitFields
      event := { timerTrigger := putTrigger e.timer, signalName := e.signalName, messageName := e.messageName,
                 correlationKey := e.correlationKey, validation := putValidation e.hasValidation e.descriptor } }
  | .intermediateThrowEvent name => { w with event := { signalName := name } }
  | .boundaryEvent e =>
    -- `ErrorCheck` is not written
    { w with
      event := { nonInterrupting := e.nonInterrupting, signalName := e.signalName, messageName := e.messageName,
                 correlationKey := e.correlationKey, timerTrigger := putTrigger e.timer }
      ending := { attachedTo := e.attachedTo, errorCode := e.errorCode, boundaryAction := e.action,
                  boundaryErrorExpr := e.errorExpr } }
  | .compensationThrowEvent e =>
    { w with event := { compensateRef := e.compensateRef, compensateScopeLocal := e.scopeLocal } }
  | .exclusiveGateway | .parallelGateway | .inclusiveGateway | .eventBasedGateway => w

/-- `parseOrZero`. -/
def parseOrZero (s : String) : Qualifier :=
  match parseQualifier s with
  | .ok q => q
  | .error _ => { id := "" }

/-- `FromWire` of an end event. -/
def endOf (w : EndWire) : EndEvent :=
  if w.endBehavior == "terminate" then
    { behavior := .terminate, terminationReason := w.terminationReason,
      outcome := if w.terminationOutcome == "abort" then .abort else .complete }
  else if w.endBehavior == "error" then { behavior := .error, errorCode := w.errorCode }
  else {}

/-- `FromWire` of a kind. -/
def specOf (w : NodeWire D) : NodeSpec D :=
  match w.kind with
  | .startEvent =>
    .startEvent { signalName := w.event.signalName, messageName := w.event.messageName,
                  correlationKey := w.event.correlationKey, messageStartSingleton := w.event.messageStartSingleton,
                  timer := readTrigger w.event.timerTrigger w.event.timerDuration false,
                  nonInterrupting := w.event.nonInterrupting, hasValidation := w.event.validation.isSome,
                  descriptor := w.event.validation }
  | .endEvent => .endEvent (endOf w.ending)
  | .serviceTask => .serviceTask w.activityOf w.task.action
  | .userTask =>
    .userTask { toActivityFields := w.activityOf, eligibleRoles := w.task.eligibleRoles,
                eligiblePrivileges := w.task.eligiblePrivileges, eligibleExpr := w.task.eligibleExpr, manual := w.task.manual,
                manualImmediate := w.task.manualImmediate, outcomes := w.task.outcomes, exposeOutcome := w.task.exposeOutcome,
                outcomeVariable := w.task.outcomeVariable, hasValidation := w.event.validation.isSome,
                descriptor := w.event.validation }
  | .receiveTask =>
    .receiveTask { toActivityFields := w.activityOf, messageName := w.event.messageName,
                   correlationKey := w.event.correlationKey,
                   hasValidation := w.event.validation.isSome, descriptor := w.event.validation }
  | .sendTask =>
    .sendTask { toActivityFields := w.activityOf, messageName := w.event.messageName,
                correlationKey := w.event.correlationKey }
  | .businessRuleTask => .businessRuleTask w.activityOf w.task.action w.task.rule
  | .subProcess => .subProcess w.activityOf w.subprocess
  | .callActivity => .callActivity w.activityOf (parseOrZero w.task.defRef)
  | .intermediateCatchEvent =>
    .intermediateCatchEvent
      { toWaitFields := w.wait.fields, timer := readTrigger w.event.timerTrigger w.event.timerDuration false,
        signalName := w.event.signalName, messageName := w.event.messageName, correlationKey := w.event.correlationKey,
        hasValidation := w.event.validation.isSome, descriptor := w.event.validation }
  | .intermediateThrowEvent => .intermediateThrowEvent w.event.signalName
  | .boundaryEvent =>
    .boundaryEvent { attachedTo := w.ending.attachedTo, nonInterrupting := w.event.nonInterrupting,
                     errorCode := w.ending.errorCode, signalName := w.event.signalName,
                     messageName := w.event.messageName, correlationKey := w.event.correlationKey,
                     timer := readTrigger w.event.timerTrigger w.event.timerDuration false, action := w.ending.boundaryAction,
                     errorExpr := w.ending.boundaryErrorExpr }
  | .exclusiveGateway => .exclusiveGateway
  | .parallelGateway => .parallelGateway
  | .inclusiveGateway => .inclusiveGateway
  | .eventBasedGateway => .eventBasedGateway
  | .compensationThrowEvent =>
    .compensationThrowEvent { compensateRef := w.event.compensateRef, scopeLocal := w.event.compensateScopeLocal }

end Specs

/-! ### As records -/

def waitWireFields : List (String × (WaitWire → Option WireDoc)) :=
  [("deadline_duration", fun w => textField w.deadlineDuration), ("wait_every", fun w => textField w.waitEvery),
    ("deadline_trigger", fun w => w.deadlineTrigger.map triggerJSON),
    ("wait_trigger", fun w => w.waitTrigger.map triggerJSON), ("deadline_flow", fun w => textField w.deadlineFlow),
    ("deadline_action", fun w => textField w.deadlineAction), ("wait_action", fun w => textField w.waitAction)]

def readWaitWire (doc : List (String × WireDoc)) : Option WaitWire := do
  let deadlineDuration ← readOr "" Json.text? (doc.lookup "deadline_duration")
  let waitEvery ← readOr "" Json.text? (doc.lookup "wait_every")
  let deadlineTrigger ← readMaybe readTriggerWire (doc.lookup "deadline_trigger")
  let waitTrigger ← readMaybe readTriggerWire (doc.lookup "wait_trigger")
  let deadlineFlow ← readOr "" Json.text? (doc.lookup "deadline_flow")
  let deadlineAction ← readOr "" Json.text? (doc.lookup "deadline_action")
  let waitAction ← readOr "" Json.text? (doc.lookup "wait_action")
  return ⟨deadlineDuration, waitEvery, deadlineTrigger, waitTrigger, deadlineFlow, deadlineAction, waitAction⟩

def activityWireFields : List (String × (ActivityWire → Option WireDoc)) :=
  [("retry_policy", fun w => w.retryPolicy.map retryJSON), ("recovery_flow", fun w => textField w.recoveryFlow),
    ("compensate_action", fun w => textField w.compensateAction), ("cancel_action", fun w => textField w.cancelAction),
    ("completion_action", fun w => textField w.completionAction)]

def readActivityWire (doc : List (String × WireDoc)) : Option ActivityWire := do
  let retryPolicy ← readMaybe readRetry (doc.lookup "retry_policy")
  let recoveryFlow ← readOr "" Json.text? (doc.lookup "recovery_flow")
  let compensateAction ← readOr "" Json.text? (doc.lookup "compensate_action")
  let cancelAction ← readOr "" Json.text? (doc.lookup "cancel_action")
  let completionAction ← readOr "" Json.text? (doc.lookup "completion_action")
  return ⟨retryPolicy, recoveryFlow, compensateAction, cancelAction, completionAction⟩

def taskWireFields : List (String × (TaskWire → Option WireDoc)) :=
  [("action", fun w => textField w.action), ("rule", fun w => w.rule.map ruleJSON),
    ("eligible_roles", fun w => strings w.eligibleRoles), ("eligible_privileges", fun w => strings w.eligiblePrivileges),
    ("eligible_expr", fun w => textField w.eligibleExpr), ("manual", fun w => boolField w.manual),
    ("manual_immediate", fun w => boolField w.manualImmediate), ("outcomes", fun w => strings w.outcomes),
    ("expose_outcome", fun w => boolField w.exposeOutcome), ("outcome_variable", fun w => textField w.outcomeVariable),
    ("def_ref", fun w => textField w.defRef)]

def readTaskWire (doc : List (String × WireDoc)) : Option TaskWire := do
  let action ← readOr "" Json.text? (doc.lookup "action")
  let rule ← readMaybe readRule (doc.lookup "rule")
  let eligibleRoles ← readStringList (doc.lookup "eligible_roles")
  let eligiblePrivileges ← readStringList (doc.lookup "eligible_privileges")
  let eligibleExpr ← readOr "" Json.text? (doc.lookup "eligible_expr")
  let manual ← readOr false Json.bool? (doc.lookup "manual")
  let manualImmediate ← readOr false Json.bool? (doc.lookup "manual_immediate")
  let outcomes ← readStringList (doc.lookup "outcomes")
  let exposeOutcome ← readOr false Json.bool? (doc.lookup "expose_outcome")
  let outcomeVariable ← readOr "" Json.text? (doc.lookup "outcome_variable")
  let defRef ← readOr "" Json.text? (doc.lookup "def_ref")
  return ⟨action, rule, eligibleRoles, eligiblePrivileges, eligibleExpr, manual, manualImmediate, outcomes, exposeOutcome,
    outcomeVariable, defRef⟩

def eventWireFields : List (String × (EventWire → Option WireDoc)) :=
  [("timer_duration", fun w => textField w.timerDuration), ("timer_trigger", fun w => w.timerTrigger.map triggerJSON),
    ("signal_name", fun w => textField w.signalName), ("message_name", fun w => textField w.messageName),
    ("correlation_key", fun w => textField w.correlationKey),
    ("message_start_singleton", fun w => boolField w.messageStartSingleton),
    ("non_interrupting", fun w => boolField w.nonInterrupting), ("compensate_ref", fun w => textField w.compensateRef),
    ("compensate_scope_local", fun w => boolField w.compensateScopeLocal),
    ("validation", fun w => w.validation.map descriptorJSON)]

def readEventWire (doc : List (String × WireDoc)) : Option EventWire := do
  let timerDuration ← readOr "" Json.text? (doc.lookup "timer_duration")
  let timerTrigger ← readMaybe readTriggerWire (doc.lookup "timer_trigger")
  let signalName ← readOr "" Json.text? (doc.lookup "signal_name")
  let messageName ← readOr "" Json.text? (doc.lookup "message_name")
  let correlationKey ← readOr "" Json.text? (doc.lookup "correlation_key")
  let messageStartSingleton ← readOr false Json.bool? (doc.lookup "message_start_singleton")
  let nonInterrupting ← readOr false Json.bool? (doc.lookup "non_interrupting")
  let compensateRef ← readOr "" Json.text? (doc.lookup "compensate_ref")
  let compensateScopeLocal ← readOr false Json.bool? (doc.lookup "compensate_scope_local")
  let validation ← readMaybe readDescriptor (doc.lookup "validation")
  return ⟨timerDuration, timerTrigger, signalName, messageName, correlationKey, messageStartSingleton, nonInterrupting,
    compensateRef, compensateScopeLocal, validation⟩

def endWireFields : List (String × (EndWire → Option WireDoc)) :=
  [("error_code", fun w => textField w.errorCode), ("end_behavior", fun w => textField w.endBehavior),
    ("termination_reason", fun w => textField w.terminationReason),
    ("termination_outcome", fun w => textField w.terminationOutcome), ("attached_to", fun w => textField w.attachedTo),
    ("boundary_action", fun w => textField w.boundaryAction),
    ("boundary_error_expr", fun w => textField w.boundaryErrorExpr)]

def readEndWire (doc : List (String × WireDoc)) : Option EndWire := do
  let errorCode ← readOr "" Json.text? (doc.lookup "error_code")
  let endBehavior ← readOr "" Json.text? (doc.lookup "end_behavior")
  let terminationReason ← readOr "" Json.text? (doc.lookup "termination_reason")
  let terminationOutcome ← readOr "" Json.text? (doc.lookup "termination_outcome")
  let attachedTo ← readOr "" Json.text? (doc.lookup "attached_to")
  let boundaryAction ← readOr "" Json.text? (doc.lookup "boundary_action")
  let boundaryErrorExpr ← readOr "" Json.text? (doc.lookup "boundary_error_expr")
  return ⟨errorCode, endBehavior, terminationReason, terminationOutcome, attachedTo, boundaryAction, boundaryErrorExpr⟩

/-- The fields of a group, in the record it is part of. -/
def ofGroup {ρ τ : Type} (g : ρ → τ) (fields : List (String × (τ → Option WireDoc))) : List (String × (ρ → Option WireDoc)) :=
  fields.map (fun f => (f.1, fun w => f.2 (g w)))

/-- The fields a kind may or may not carry, but for the nested definition. -/
def gatedFields (D : Type) : List (String × (NodeWire D → Option WireDoc)) :=
  ofGroup NodeWire.wait waitWireFields ++ ofGroup NodeWire.activity activityWireFields ++
    ofGroup NodeWire.task taskWireFields ++
    ofGroup NodeWire.event eventWireFields ++ ofGroup NodeWire.ending endWireFields

def nodeFields : List (String × (NodeWire WireDoc → Option WireDoc)) :=
  [("id", fun w => some (.str w.id)), ("kind", fun w => some (.str w.kind.name)), ("name", fun w => textField w.name),
    ("subprocess", fun w => w.subprocess)] ++ gatedFields WireDoc

/-- The record of a node, with the definition that was read under `subprocess`. -/
def readNodeWire {D : Type} (doc : List (String × WireDoc)) (sub : Option D) : Option (NodeWire D) := do
  guard (onlyKeys nodeFields doc)
  let id ← readOr "" Json.text? (doc.lookup "id")
  let kind ← (doc.lookup "kind").bind readKind
  let name ← readOr "" Json.text? (doc.lookup "name")
  let wait ← readWaitWire doc
  let activity ← readActivityWire doc
  let task ← readTaskWire doc
  let event ← readEventWire doc
  let ending ← readEndWire doc
  return ⟨id, kind, name, wait, activity, task, event, ending, sub⟩

/-! ## The gates -/

def waitKeys : List String := waitWireFields.map Prod.fst

def activityKeys : List String := waitKeys ++ activityWireFields.map Prod.fst

/-- The keys the kind's `FromWire` reads. -/
def keysReadBy : NodeKind → List String
  | .startEvent =>
    ["signal_name", "message_name", "correlation_key", "message_start_singleton", "timer_trigger", "timer_duration",
      "non_interrupting", "validation"]
  | .endEvent => ["end_behavior", "termination_reason", "termination_outcome", "error_code"]
  | .serviceTask => activityKeys ++ ["action"]
  | .userTask =>
    activityKeys ++ ["eligible_roles", "eligible_privileges", "eligible_expr", "manual", "manual_immediate", "outcomes",
      "expose_outcome", "outcome_variable", "validation"]
  | .receiveTask => activityKeys ++ ["message_name", "correlation_key", "validation"]
  | .sendTask => activityKeys ++ ["message_name", "correlation_key"]
  | .businessRuleTask => activityKeys ++ ["action", "rule"]
  | .subProcess => activityKeys ++ ["subprocess"]
  | .callActivity => activityKeys ++ ["def_ref"]
  | .intermediateCatchEvent =>
    waitKeys ++ ["timer_trigger", "timer_duration", "signal_name", "message_name", "correlation_key", "validation"]
  | .intermediateThrowEvent => ["signal_name"]
  | .boundaryEvent =>
    ["attached_to", "non_interrupting", "error_code", "signal_name", "message_name", "correlation_key", "timer_trigger",
      "timer_duration", "boundary_action", "boundary_error_expr"]
  | .compensationThrowEvent => ["compensate_ref", "compensate_scope_local"]
  | .exclusiveGateway | .parallelGateway | .inclusiveGateway | .eventBasedGateway => []

section Gates
variable {D : Type}

/-- The keys whose fields are not zero. -/
def setKeys (w : NodeWire D) : List String :=
  (encodeRecord (gatedFields D) w).map Prod.fst ++ if w.subprocess.isSome then ["subprocess"] else []

def checkNodeKeys (w : NodeWire D) : Except String Unit :=
  match (setKeys w).find? (fun k => !(keysReadBy w.kind).contains k) with
  | some k =>
    .error ("workflow-definition: node kind does not carry key: node " ++ quoted w.id ++ " declares kind " ++
      quoted w.kind.name ++ ", which does not carry key " ++ quoted k)
  | none => .ok ()

def checkTerminationOutcome (w : NodeWire D) : Except String Unit :=
  if w.ending.terminationOutcome == "" || ["complete", "abort"].contains w.ending.terminationOutcome then .ok ()
  else
    .error ("workflow-definition: termination_outcome is outside its vocabulary: node " ++ quoted w.id ++
      " declares termination_outcome " ++ quoted w.ending.terminationOutcome ++ ", want one of [" ++
      quoted "complete" ++ " " ++ quoted "abort" ++
      "] or none; note that termination_outcome is read only alongside end_behavior " ++ quoted "terminate" ++
      ", and on any other end it is accepted and dropped")

def fromWire (w : NodeWire D) : Except String (NodeOf D) := do
  checkNodeKeys w
  checkTerminationOutcome w
  return { id := w.id, name := w.name, spec := specOf w }

end Gates

/-! ## Definitions -/

/-- The strategy of the node's validation slot has no descriptor. -/
def NodeOf.undescribed {D : Type} (n : NodeOf D) : Bool :=
  match n.spec with
  | .startEvent e => e.hasValidation && e.descriptor.isNone
  | .userTask u => u.hasValidation && u.descriptor.isNone
  | .receiveTask r => r.hasValidation && r.descriptor.isNone
  | .intermediateCatchEvent e => e.hasValidation && e.descriptor.isNone
  | _ => false

/-- Every instant and rule of the record has a text. -/
def NodeWire.writable {D : Type} (w : NodeWire D) : Bool :=
  w.wait.deadlineTrigger.all TriggerWire.writable && w.wait.waitTrigger.all TriggerWire.writable &&
    w.event.timerTrigger.all TriggerWire.writable && w.task.rule.all (fun r => !r.misshapen)

/-- `definitionWire`, with its nodes as documents. -/
structure DefinitionWire where
  id : String
  version : Int
  nodes : List WireDoc
  flows : List SequenceFlow
  cancelActions : List String

def definitionFields : List (String × (DefinitionWire → Option WireDoc)) :=
  [("id", fun d => some (.str d.id)), ("version", fun d => some (.int d.version)), ("nodes", fun d => some (.arr d.nodes)),
    ("flows", fun d => some (.arr (d.flows.map flowJSON))), ("cancel_actions", fun d => strings d.cancelActions),
    ("scoped_actions", fun _ => none)]

/-- A node, with the document of its nested definition. -/
def marshalNodeWith {D : Type} (n : NodeOf D) (sub : Option WireDoc) : Except String WireDoc :=
  if n.undescribed then .error ("workflow-model: validation strategy is not serializable: node " ++ quoted n.id)
  else if !(toWire n sub).writable then .error "json: error calling MarshalJSON"
  else .ok (.obj (encodeRecord nodeFields (toWire n sub)))

mutual

/-- `MarshalJSON`. -/
def marshalJSON : ProcessDefinition → Except String WireDoc
  | ⟨id, version, nodes, flows, cancelActions⟩ => do
    let docs ← marshalNodes nodes
    return .obj (encodeRecord definitionFields ⟨id, version, docs, flows, cancelActions⟩)

def marshalNodes : List (NodeOf ProcessDefinition) → Except String (List WireDoc)
  | [] => .ok []
  | n :: ns => do
    let doc ← marshalNode n
    let docs ← marshalNodes ns
    return doc :: docs

def marshalNode : NodeOf ProcessDefinition → Except String WireDoc
  | ⟨id, name, spec⟩ => do
    let sub ← marshalSpec spec
    marshalNodeWith ⟨id, name, spec⟩ sub

def marshalSpec : NodeSpec ProcessDefinition → Except String (Option WireDoc)
  | .subProcess _ sub => marshalSub sub
  | _ => .ok none

def marshalSub : Option ProcessDefinition → Except String (Option WireDoc)
  | none => .ok none
  | some d => do
    let doc ← marshalJSON d
    return some doc

end

def isNullDoc : WireDoc → Bool
  | .null => true
  | _ => false

def jsonError : String := "json: cannot unmarshal"

/-- The other fields of a definition whose nodes have been read. -/
def readDefinitionWith (doc : List (String × WireDoc)) (nodes : List (NodeOf ProcessDefinition)) :
    Option ProcessDefinition := do
  guard (onlyKeys definitionFields doc)
  let id ← readOr "" Json.text? (doc.lookup "id")
  let version ← readOr 0 Json.int? (doc.lookup "version")
  let flows ← readOr [] (Json.list? readFlow) (doc.lookup "flows")
  let cancelActions ← readStringList (doc.lookup "cancel_actions")
  return ⟨id, version, nodes, flows, cancelActions⟩

/-- A node whose nested definition has been read. -/
def readNodeWith (doc : List (String × WireDoc)) (sub : Option ProcessDefinition) :
    Except String (NodeOf ProcessDefinition) :=
  if (doc.lookup "label").isSome then
    .error "workflow-definition: the \"label\" node key is retired; use \"name\" (the display string)"
  else match readNodeWire doc sub with
    | none => .error jsonError
    | some w => fromWire w

mutual

/-- `UnmarshalJSON`. -/
def unmarshalJSON : WireDoc → Except String ProcessDefinition
  | .obj doc => do
    let nodes ← readNodesKey doc
    match readDefinitionWith doc nodes with
    | none => .error jsonError
    | some d => .ok d
  | _ => .error jsonError

def readNodesKey : List (String × WireDoc) → Except String (List (NodeOf ProcessDefinition))
  | [] => .ok []
  | (k, j) :: rest => if k == "nodes" then readNodeItems j else readNodesKey rest

def readNodeItems : WireDoc → Except String (List (NodeOf ProcessDefinition))
  | .null => .ok []
  | .arr items => readNodes items
  | _ => .error jsonError

def readNodes : List WireDoc → Except String (List (NodeOf ProcessDefinition))
  | [] => .ok []
  | j :: js => do
    let n ← readNode j
    let ns ← readNodes js
    return n :: ns

def readNode : WireDoc → Except String (NodeOf ProcessDefinition)
  | .obj doc => do
    let sub ← readSubKey doc
    readNodeWith doc sub
  | _ => .error jsonError

def readSubKey : List (String × WireDoc) → Except String (Option ProcessDefinition)
  | [] => .ok none
  | (k, j) :: rest =>
    if k == "subprocess" then
      if isNullDoc j then .ok none
      else do
        let d ← unmarshalJSON j
        return some d
    else readSubKey rest

end

end Wrkflw
