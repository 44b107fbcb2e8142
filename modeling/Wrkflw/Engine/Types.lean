import Wrkflw.Definition.Model
import Wrkflw.Library.Text

/-!
# Engine types

The values the engine's `Step` reads and writes (`engine/state.go`, `state_compensation.go`,
`state_arms.go`, `state_timers.go`, `command.go`, `trigger.go`, `errors.go`, `humantask`):

* `Status`, `Token`, `Scope`, `CompensationRecord`, `CompensationCursor` : the control state;
* `Incident`, `HumanTask`, `TimerRecord` and the three kinds of arms : the waits;
* `Command` : what a step asks the runtime to do; `Trigger` : what drives a step;
* `EngineError` : the sentinel and the text of a refused step;
* `IDGenerator`, `ConditionEvaluator`, `FloatOps` : the seams the caller supplies; `counterIDs` is the
  generator used when none is.
-/

namespace Wrkflw

/-! ## Status, tokens and scopes -/

/-- The instance status; `running` is the zero value. -/
inductive Status where
  | running | completed | failed | compensating | terminated
  deriving DecidableEq, Repr

namespace Status

def toText : Status → String
  | running => "running"
  | completed => "completed"
  | failed => "failed"
  | compensating => "compensating"
  | terminated => "terminated"

def isTerminal : Status → Bool
  | completed | failed | terminated => true
  | running | compensating => false

end Status

inductive TokenState where
  | active | waiting | joining | incident
  deriving DecidableEq, Repr

structure Token where
  id : String
  nodeID : String
  scopeID : String := ""
  state : TokenState := .active
  awaitCommand : String := ""
  awaitSignal : String := ""
  awaitMessage : String := ""
  awaitMessageKey : String := ""
  awaitTimer : String := ""
  enteredAt : Time := 0
  retryAttempts : Int := 0
  retryStartedAt : Time := 0
  arrivalFlow : String := ""
  deriving DecidableEq, Repr

def Token.clearAwait (t : Token) : Token := { t with awaitCommand := "", awaitTimer := "" }

structure CompensationRecord where
  nodeID : String
  action : String
  completedAt : Time
  input : Vars
  deriving DecidableEq, Repr

structure Scope where
  id : String
  nodeID : String
  parentID : String
  compensations : List CompensationRecord := []
  deriving DecidableEq, Repr

/-- Where a compensation walk stands. An in-flight walk has a non-empty `activeCmdID`; a nil
`Records` slice of the source is the empty list. -/
structure CompensationCursor where
  scopeID : String := ""
  archiveKey : String := ""
  records : List CompensationRecord := []
  resumeNode : String := ""
  resumeScope : String := ""
  resumeFlow : String := ""
  toNode : String := ""
  reverseNode : String := ""
  reverseResetVars : Bool := false
  restoreTargetVars : Bool := false
  startRecordCount : Int := 0
  teardownArchiveKey : String := ""
  teardownArchiveOffset : Int := 0
  teardownArchiveCount : Int := 0
  nextIndex : Int := 0
  startedAt : Time := 0
  activeCmdID : String := ""
  retryAttempts : Int := 0
  retryTimerID : String := ""
  finalStatus : Status := .running
  finalErr : String := ""
  deriving DecidableEq, Repr

inductive WalkMode where
  | admin | throwTargeted | throwScopeWide | partialWalk | reverse
  deriving DecidableEq, Repr

namespace CompensationCursor

def walkMode (c : CompensationCursor) : WalkMode :=
  if c.resumeNode != "" then
    if c.archiveKey == "" then .throwScopeWide else .throwTargeted
  else if c.toNode != "" then .partialWalk
  else if c.reverseNode != "" then .reverse
  else .admin

def walkTerminates (c : CompensationCursor) (pendingCancel : Bool) : Bool :=
  match c.walkMode with
  | .admin | .reverse => true
  | .partialWalk => false
  | _ => pendingCancel

end CompensationCursor

inductive CloseKind where
  | normal | instanceCancelled | terminated | boundaryInterrupted | errored | compensated | reversed
  | deadlineExpired
  deriving DecidableEq, Repr

structure NodeVisit where
  nodeID : String
  tokenID : String
  enteredAt : Time
  leftAt : Option Time := none
  taskID : String := ""
  closeKind : CloseKind := .normal
  deriving DecidableEq, Repr

/-! ## Waits, tasks and incidents -/

inductive TimerKind where
  | intermediate | deadline | inWait | retry | compensationStall | compensationRetry
  deriving DecidableEq, Repr

/-- `firesOnDyingInstance`. -/
def TimerKind.firesOnDyingInstance : TimerKind → Bool
  | compensationStall | compensationRetry => true
  | _ => false

structure TimerRecord where
  timerID : String
  kind : TimerKind
  token : String := ""
  taskID : String := ""
  nodeID : String := ""
  scopeID : String := ""
  commandID : String := ""
  deriving DecidableEq, Repr

structure TriggerMatch where
  timerID : String := ""
  signal : String := ""
  message : String := ""
  messageKey : String := ""
  deriving DecidableEq, Repr

structure ArmedEvent extends TriggerMatch where
  gatewayToken : String
  catchNode : String
  flow : String
  deriving DecidableEq, Repr

structure BoundaryArm extends TriggerMatch where
  hostToken : String
  hostNode : String
  boundaryNode : String
  nonInterrupting : Bool
  action : String
  deriving DecidableEq, Repr

structure EventTriggeredSubprocessArm extends TriggerMatch where
  enclosingScopeID : String
  eventSubprocessNode : String
  nonInterrupting : Bool
  deriving DecidableEq, Repr

inductive IncidentKind where
  | action | compensationStall | compensationFailed | definitionDefect
  deriving DecidableEq, Repr

structure Incident where
  id : String
  kind : IncidentKind := .action
  tokenID : String := ""
  nodeID : String := ""
  scopeID : String := ""
  commandID : String := ""
  error : String := ""
  attempts : Int := 0
  createdAt : Time
  deriving DecidableEq, Repr

structure Actor where
  id : String
  roles : List String := []
  privileges : List String := []
  attributes : Vars := []
  deriving DecidableEq, Repr

structure AuthzSpec where
  roles : List String
  privileges : List String
  attributeExpr : String
  deriving DecidableEq, Repr

inductive TaskState where
  | unclaimed | claimed | completed | cancelled
  deriving DecidableEq, Repr

structure Completion where
  actor : Actor
  timestamp : Time
  outcome : String
  note : String
  deriving DecidableEq, Repr

structure HumanTask where
  taskID : String
  instanceID : String
  nodeID : String
  eligibility : AuthzSpec
  candidates : List Actor := []
  state : TaskState := .unclaimed
  claim : Option (Actor × Time) := none
  completion : Option Completion := none
  createdAt : Time
  dueAt : Option Time := none
  vars : Vars
  deriving DecidableEq, Repr

def HumanTask.isOpen (t : HumanTask) : Bool := t.state == .unclaimed || t.state == .claimed

def HumanTask.cancel (t : HumanTask) : HumanTask := { t with state := .cancelled }

/-! ## Commands -/

inductive Command where
  | scheduleTimer (timerID token : String) (trigger : TriggerSpec) (kind : TimerKind)
  | cancelTimer (timerID : String)
  | invokeAction (commandID name : String) (input : Vars) (fireAndForget : Bool)
  | invokeCancelAction (name : String) (input : Vars)
  | completeInstance (result : Vars)
  | failInstance (err : String)
  | awaitHuman (taskID : String) (eligibility : AuthzSpec)
  | updateTask (task : HumanTask)
  | throwSignal (name : String) (payload : Vars)
  | startSubInstance (commandID : String) (defRef : Qualifier) (input : Vars)
  | sendMessage (name correlationKey : String) (payload : Vars)
  deriving DecidableEq, Repr

/-! ## Triggers -/

inductive CompensationDisposition where
  | retry | skip | abandon
  deriving DecidableEq, Repr

/-- What a trigger carries besides the instant it occurred at. The jitter fraction of a failed action
is a rational; a cause is its message. -/
inductive TriggerBody where
  | startInstance (vars : Vars) (startNodeID : String)
  | actionCompleted (commandID : String) (output : Vars)
  | actionFailed (commandID err : String) (retryable : Bool) (jitterFraction : Rat) (cause : Option String)
  | humanCompleted (taskID outcome note : String) (output : Vars) (actor : Actor)
  | humanCandidatesResolved (taskID : String) (candidates : List Actor)
  | humanClaimed (taskID : String) (actor : Actor)
  | humanReassigned (taskID reassignedFrom reassignedTo : String) (by_ : Actor)
  | timerFired (timerID : String)
  | signalReceived (name : String) (payload : Vars)
  | messageReceived (name correlationKey : String) (payload : Vars)
  | subInstanceCompleted (commandID : String) (output : Vars)
  | subInstanceFailed (commandID err : String)
  | compensateRequested (toNode reverseNode : String) (resetVars restoreTargetVars : Bool)
  | cancelRequested
  | resolveIncident (incidentID : String) (addAttempts : Int)
  | resolveCompensationStall (commandID incidentID : String) (disposition : CompensationDisposition)
  deriving DecidableEq

structure Trigger where
  occurredAt : Time
  body : TriggerBody
  deriving DecidableEq

inductive TerminalPolicy where
  | rejectSilently | rejectWithError | allowOnTerminal
  deriving DecidableEq, Repr

namespace TriggerBody

def terminalPolicy : TriggerBody → TerminalPolicy
  | startInstance .. | humanCompleted .. | humanClaimed .. | humanReassigned .. | resolveIncident ..
  | resolveCompensationStall .. => .rejectWithError
  | compensateRequested toNode reverseNode _ _ =>
    if reverseNode != "" || toNode != "" then .rejectWithError else .allowOnTerminal
  | _ => .rejectSilently

/-- The trigger's type name and, for a validated kind, its identity field and value. -/
def typeName : TriggerBody → String
  | startInstance .. => "engine.StartInstance"
  | actionCompleted .. => "engine.ActionCompleted"
  | actionFailed .. => "engine.ActionFailed"
  | humanCompleted .. => "engine.HumanCompleted"
  | humanCandidatesResolved .. => "engine.HumanCandidatesResolved"
  | humanClaimed .. => "engine.HumanClaimed"
  | humanReassigned .. => "engine.HumanReassigned"
  | timerFired .. => "engine.TimerFired"
  | signalReceived .. => "engine.SignalReceived"
  | messageReceived .. => "engine.MessageReceived"
  | subInstanceCompleted .. => "engine.SubInstanceCompleted"
  | subInstanceFailed .. => "engine.SubInstanceFailed"
  | compensateRequested .. => "engine.CompensateRequested"
  | cancelRequested => "engine.CancelRequested"
  | resolveIncident .. => "engine.ResolveIncident"
  | resolveCompensationStall .. => "engine.ResolveCompensationStall"

/-- `validatedTriggerKinds`: the key field `validateTriggerKey` requires, with its value. -/
def validatedKey : TriggerBody → Option (String × String)
  | actionCompleted id _ | actionFailed id _ _ _ _ | subInstanceCompleted id _ | subInstanceFailed id _
  | resolveCompensationStall id _ _ => some ("CommandID", id)
  | humanCompleted id _ _ _ _ | humanClaimed id _ | humanReassigned id _ _ _
  | humanCandidatesResolved id _ => some ("TaskID", id)
  | signalReceived name _ | messageReceived name _ _ => some ("Name", name)
  | resolveIncident id _ => some ("IncidentID", id)
  | startInstance .. | timerFired .. | compensateRequested .. | cancelRequested => none

end TriggerBody

/-! ## Errors -/

/-- The sentinel an error wraps; `plain` is an error that wraps none. `outOfFuel` stands for a
`drive` loop the run's fuel did not cover and never for a returned error of the source. -/
inductive ErrKind where
  | tokenNotFound | instanceTerminal | taskNotOpen | instanceAlreadyStarted
  | cancelNotApplicable | noCompensationWalk | compensationCommandMismatch | stallIncidentNotFound
  | compensationWalkResumes | incidentNotResolvable | noMatchingFlow | manualTaskPayload
  | invalidOutcome | outcomeRequired | emptyTriggerKey | emptyReassignTarget | noManualStart
  | taskNotFound | evaluator | plain | outOfFuel
  deriving DecidableEq, Repr

structure EngineError where
  kind : ErrKind
  text : String
  deriving DecidableEq, Repr

/-- The sentinel's own text. -/
def ErrKind.toText : ErrKind → String
  | tokenNotFound => "workflow-engine: no token awaiting command: workflow-engine: invalid state transition"
  | instanceTerminal => "workflow-engine: instance is terminal: workflow-engine: invalid state transition"
  | taskNotOpen => "workflow-engine: human task is not open: workflow-engine: invalid state transition"
  | instanceAlreadyStarted =>
    "workflow-engine: instance has already been started: workflow-engine: invalid state transition"
  | cancelNotApplicable =>
    "workflow-engine: cancel is not applicable while a compensation walk is in flight: " ++
      "workflow-engine: invalid state transition"
  | noCompensationWalk =>
    "workflow-engine: no compensation walk in flight: workflow-engine: invalid state transition"
  | compensationCommandMismatch =>
    "workflow-engine: compensation command id does not match the walk in flight: " ++
      "workflow-engine: invalid state transition"
  | stallIncidentNotFound =>
    "workflow-engine: no open compensation-stall incident with that id: workflow-engine: invalid state transition"
  | compensationWalkResumes =>
    "workflow-engine: cannot abandon a compensation walk that resumes; use skip: " ++
      "workflow-engine: invalid state transition"
  | incidentNotResolvable =>
    "workflow-engine: this incident is not resolvable with resolve-incident; " ++
      "use the compensation-walk verbs (retry, skip, abandon): workflow-engine: invalid state transition"
  | noMatchingFlow => "workflow-engine: no matching outgoing flow"
  | manualTaskPayload => "workflow-engine: manual user task cannot carry a completion payload"
  | invalidOutcome => "workflow-engine: completion outcome is not declared by the user task"
  | outcomeRequired => "workflow-engine: user task requires a completion outcome"
  | emptyTriggerKey => "workflow-engine: trigger identity key is empty"
  | emptyReassignTarget => "workflow-engine: reassignment target is empty"
  | noManualStart => "workflow-engine: definition has no manual start event"
  | taskNotFound => "workflow-humantask: task not found"
  | evaluator | plain | outOfFuel => ""

/-- `fmt.Errorf("%w…", sentinel, …)`. -/
def sentinel (kind : ErrKind) (detail : String) : EngineError := ⟨kind, kind.toText ++ detail⟩

/-- `fmt.Errorf` with no wrapped sentinel. -/
def plainError (text : String) : EngineError := ⟨.plain, "workflow-engine: " ++ text⟩

/-- `fmt.Errorf(".. : %w", err)`. -/
def EngineError.wrap (text : String) (e : EngineError) : EngineError := ⟨e.kind, text ++ e.text⟩

/-! ## Seams -/

/-- The kinds of objects an id is minted for. -/
inductive IDKind where
  | token | task | command | timer | incident | scope
  deriving DecidableEq, Repr

/-- The short name of a kind in a counter id. -/
def IDKind.tag : IDKind → String
  | token => "t"
  | task => "h"
  | command => "c"
  | timer => "tm"
  | incident => "inc"
  | scope => "s"

/-- The identifiers a run mints: the `n`-th object of each kind gets `newID kind n`. Every object of a
run has its own id and no id is blank, as `IDGenerator` documents (opaque, globally unique). -/
structure IDGenerator where
  newID : IDKind → Nat → String
  newID_ne_empty : ∀ k n, newID k n ≠ ""
  newID_inj : ∀ j m k n, newID j m = newID k n → j = k ∧ m = n

/-- The built-in id `"<instance>-<kind><n>"`. -/
def counterID (instanceID : String) (kind : IDKind) (n : Nat) : String :=
  instanceID ++ "-" ++ kind.tag ++ toString n

/-- No tag is followed by digits the way another one is. -/
theorem tag_digits_inj (j k : IDKind) {m n : Nat}
    (h : j.tag.toList ++ Nat.toDigits 10 m = k.tag.toList ++ Nat.toDigits 10 n) : j = k ∧ m = n := by
  have hsame : ∀ k : IDKind, k.tag.toList ++ Nat.toDigits 10 m = k.tag.toList ++ Nat.toDigits 10 n → m = n :=
    fun k h => Library.toDigits_inj (List.append_cancel_left h)
  -- only the tags of tokens and timers share their first letter
  by_cases hjk : j = k
  · subst hjk; exact ⟨rfl, hsame j h⟩
  · cases j <;> cases k <;> first
      | exact absurd rfl hjk
      | exact absurd (List.cons.inj h).1 (by decide)
      | exact absurd (Library.digits_of_cons_eq (List.cons.inj h).2) (by decide)
      | exact absurd (Library.digits_of_cons_eq (List.cons.inj h).2.symm) (by decide)

/-- The generator a step uses when none is supplied. -/
def counterIDs (instanceID : String) : IDGenerator where
  newID := counterID instanceID
  newID_ne_empty := by
    intro k n h
    have hlen := congrArg (fun s => s.toList.length) h
    simp [counterID] at hlen
  newID_inj := by
    intro j m k n h
    have hl := congrArg String.toList h
    simp only [counterID, String.toList_append, Library.toList_toString, List.append_assoc] at hl
    exact tag_digits_inj j k (List.append_cancel_left (List.append_cancel_left hl))

/-- The expression engine; an error is its text. -/
structure ConditionEvaluator where
  evalBool : String → Vars → Except String Bool
  evalDuration : String → Vars → Except String Duration
  evalString : String → Vars → Except String String

/-- The two floating-point computations on retry delays. -/
structure FloatOps where
  backoff : RetryPolicy → Int → Duration
  scale : Rat → Duration → Duration

inductive StepMode where
  | macroStep | microStep
  deriving DecidableEq, Repr

structure StepOptions where
  mode : StepMode := .macroStep
  defaultRetryPolicy : Option RetryPolicy := none
  overrideRetryPolicy : Option RetryPolicy := none
  evaluator : ConditionEvaluator
  floatOps : FloatOps
  idGenerator : Option IDGenerator := none
  compensationStallAfter : Duration := 0
  compensationRetryPolicy : Option RetryPolicy := none

end Wrkflw
