import Wrkflw.Runtime.Store

/-!
# The process driver

`ProcessDriver` (`runtime/processdriver.go`, `processdriver_action.go`, `processdriver_child.go`): the load, step, commit and
perform cycle of `deliverLoop`, its retry on a lost commit, and the calls that run it.

Any number of calls run at once. A transition of the whole system lets one call do the next thing that touches what
the calls share: load, take a step and commit it, perform one command, return. What the outside world answers during
a transition is a `World`. The validation of inputs is a parameter of the driver, as is the hash of child ids;
tracing, metrics and outbox events are left out, and of the timer store only that its writes may fail.
-/

namespace Wrkflw

/-! ## Errors -/

def StoreError.toText : StoreError → String
  | instanceExists => "workflow-runtime: instance already exists"
  | instanceNotFound => "workflow-runtime: instance not found"
  | concurrentUpdate => "workflow-runtime: concurrent update"

/-- An error a call returns: its text, and the sentinel of the store or of the engine it wraps. -/
structure DriverError where
  sentinel : Option StoreError := none
  kind : Option ErrKind := none
  text : String
  deriving DecidableEq, Repr

namespace DriverError

/-- `fmt.Errorf("..: %w", err)`. -/
def wrap (pre : String) (e : DriverError) : DriverError := { e with text := pre ++ e.text }

def ofStore (e : StoreError) : DriverError := { sentinel := some e, text := e.toText }

/-- `errors.Is(err, kernel.ErrConcurrentUpdate)`. -/
def isConcurrent (e : DriverError) : Bool := e.sentinel == some .concurrentUpdate

end DriverError

/-! ## The driver -/

/-- What a driver is configured with. `gen` names the objects of every instance. -/
structure ProcessDriver (gen : Option IDGenerator) where
  defaultRetryPolicy : Option RetryPolicy := none
  overrideRetryPolicy : ProcessDefinition → InstanceState → Trigger → Option RetryPolicy := fun _ _ _ => none
  conditionEval : ConditionEvaluator
  floatOps : FloatOps
  compensationStallAfter : Duration := 0
  compensationRetryPolicy : Option RetryPolicy := none
  /-- `gate.Validate` with the strategy of the trigger's target node. -/
  gate : ProcessDefinition → InstanceState → Trigger → Option String := fun _ _ _ => none
  resolver : Option (AuthzSpec → Vars → Except String (List Actor)) := none
  /-- The driver has the call-link store of its instance store. -/
  callLinks : Bool := false
  /-- The first hex digits of the SHA-256 digest. -/
  shortHash : String → Nat → String

/-- What an action's run comes to. -/
inductive ActionResult where
  | unknown
  | completed (output : Vars)
  | failed (err : String) (retryable : Bool) (jitterFraction : Rat) (cause : Option String)

/-- What the world outside answers during one transition. -/
structure World where
  now : Time
  fuel : Nat
  action : ActionResult := .unknown
  /-- The error of the task store, the signal bus, the definition registry or the timer store the transition needs,
  also where none is configured. -/
  failure : Option DriverError := none
  /-- What a lookup in the definition registry finds. -/
  definition : ProcessDefinition := ⟨"", 0, [], [], []⟩
  /-- `driver.admit`. -/
  admitted : Bool := true

section Driver
variable {gen : Option IDGenerator} (driver : ProcessDriver gen)

namespace ProcessDriver

def stepOptions (d : ProcessDefinition) (s : InstanceState) (t : Trigger) : StepOptions where
  defaultRetryPolicy := driver.defaultRetryPolicy
  overrideRetryPolicy := driver.overrideRetryPolicy d s t
  evaluator := driver.conditionEval
  floatOps := driver.floatOps
  compensationStallAfter := driver.compensationStallAfter
  compensationRetryPolicy := driver.compensationRetryPolicy
  idGenerator := gen

/-- Only the triggers `engine.TargetNode` finds a node for carry an input. -/
def validateInput (d : ProcessDefinition) (s : InstanceState) (t : Trigger) : Option String :=
  match t.body with
  | .startInstance .. | .messageReceived .. | .humanCompleted .. => driver.gate d s t
  | _ => none

end ProcessDriver

/-- `humantask.Validate`. -/
def HumanTask.validate (t : HumanTask) : Option String :=
  match t.state, t.claim with
  | .claimed, none => some
      ("workflow-humantask: invalid task: task " ++ quoted t.taskID ++ ": state claimed requires a claim")
  | .unclaimed, some _ =>
    some ("workflow-humantask: invalid task: task " ++ quoted t.taskID ++ ": state unclaimed must not carry a claim")
  | _, _ => none

def validateTaskCommands : List Command → Except DriverError Unit
  | [] => .ok ()
  | .updateTask t :: cmds =>
    match t.validate with
    | some err => .error { text := "workflow-runtime: reject step: " ++ err }
    | none => validateTaskCommands cmds
  | _ :: cmds => validateTaskCommands cmds

/-- The candidates of every `AwaitHuman` command are written on its task. -/
def ProcessDriver.resolveHumanCandidates (s : InstanceState) : List Command → Except DriverError InstanceState
  | [] => .ok s
  | .awaitHuman taskID eligibility :: cmds =>
    match driver.resolver with
    | none =>
      .error { text := "workflow-runtime: resolve candidates for task " ++ taskID ++ ": no ActorResolver configured" }
    | some candidates =>
      match candidates eligibility s.vars with
      | .error err => .error { text := "workflow-runtime: resolve candidates: " ++ err }
      | .ok actors =>
        match s.taskByID taskID with
        | none =>
          .error { text := "workflow-runtime: resolve candidates: no task record for " ++ quoted taskID ++ ": " ++
                           ErrKind.taskNotFound.toText }
        | some _ =>
          ProcessDriver.resolveHumanCandidates (s.updateTask taskID (fun t => { t with candidates := actors })) cmds
  | _ :: cmds => ProcessDriver.resolveHumanCandidates s cmds

def causeOfDeathIncident (s : InstanceState) : Option Incident := s.incidents.find? (fun inc => inc.kind == .action)

def terminalErr (s : InstanceState) : String :=
  match causeOfDeathIncident s with
  | some inc => inc.error
  | none => if s.status = .terminated then "instance terminated" else "instance failed"

/-- What the parent of an ended child is told. -/
def callOutcomeOf (s : InstanceState) : CallOutcome :=
  if s.status = .completed then { completed := true, output := s.vars } else { err := terminalErr s }

/-- One iteration of `deliverLoop` up to its commit: the state, the commands and the outcome of a child that ends here.
A step the fuel does not cover has no result. -/
def ProcessDriver.prepare (fuel : Nat) (d : ProcessDefinition) (s : InstanceState) (t : Trigger) :
    Option (Except DriverError (StepResult × Option CallOutcome)) :=
  match driver.validateInput d s t with
  | some err => some (.error { text := "workflow-runtime: validate input: " ++ err })
  | none =>
    match step fuel d s t (driver.stepOptions d s t) with
    | .error e =>
      if e.kind = .outOfFuel then none
        else some (.error { kind := some e.kind, text := "workflow-runtime: step: " ++ e.text })
    | .ok r =>
      some do
        validateTaskCommands r.commands
        let state ← driver.resolveHumanCandidates r.state r.commands
        let ends := driver.callLinks && state.status.isTerminal && !s.status.isTerminal
        return (⟨state, r.commands⟩, if ends then some (callOutcomeOf state) else none)

/-! ## Performing a command -/

/-- `"c"` and at least one digit. -/
def isEngineCommandCounter (s : List Char) : Bool :=
  match s with
  | 'c' :: digits => !digits.isEmpty && digits.all (fun c => '0' ≤ c && c ≤ '9')
  | _ => false

namespace ProcessDriver

def childCommandSuffix (parentInstanceID commandID : String) : String :=
  let pre := (parentInstanceID ++ "-").toList
  let seq := commandID.toList.drop pre.length
  if pre.isPrefixOf commandID.toList && isEngineCommandCounter seq then String.ofList seq
  else driver.shortHash commandID 8

def childInstanceIDFor (parentInstanceID commandID : String) : String :=
  let id := parentInstanceID ++ "-sub-" ++ driver.childCommandSuffix parentInstanceID commandID
  if id.utf8ByteSize ≤ 200 then id else "sub-" ++ driver.shortHash id 32

end ProcessDriver

def maxCallDepth : Nat := 64

/-- A child to run: its definition, its id and its input; the link of one that runs on its own. -/
structure Child where
  definition : ProcessDefinition
  instanceID : String
  input : Vars
  link : Option CallLink

/-- What performing a command comes to: a trigger for the loop or none, or a child to run first. -/
inductive Performed where
  | next (trigger : Option Trigger)
  | child (child : Child)

/-- `LookupChild`. -/
def MemCallLinks.lookupChild (links : MemCallLinks) (childID : String) : Option CallLink :=
  (links.find? (fun l => l.link.childInstanceID == childID)).map (·.link)

/-- The depth of an instance's child in its chain of calls. -/
def MemCallLinks.childDepth (links : MemCallLinks) (instanceID : String) : Int :=
  match links.lookupChild instanceID with
  | some parent => parent.depth + 1
  | none => 1

namespace ProcessDriver

def performInvokeAction (w : World) (commandID name : String) (fireAndForget : Bool) : Option Trigger :=
  if fireAndForget then none
  else match w.action with
    | .unknown => some ⟨w.now, .actionFailed commandID ("unknown action: " ++ name) false 0 none⟩
    | .completed output => some ⟨w.now, .actionCompleted commandID output⟩
    | .failed err retryable jitter cause => some ⟨w.now, .actionFailed commandID err retryable jitter cause⟩

/-- The child's definition, then its link with the depth of the chain, or the depth guard of the in-process runner. -/
def performStartSubInstance (w : World) (links : MemCallLinks) (depth : Nat) (d : ProcessDefinition) (s : InstanceState)
    (commandID : String) (defRef : Qualifier) (input : Vars) : Performed :=
  let fails (err : String) : Performed := .next (some ⟨w.now, .subInstanceFailed commandID err⟩)
  let childID := driver.childInstanceIDFor s.instanceID commandID
  if driver.callLinks then
    if links.childDepth s.instanceID > maxCallDepth then
      fails ("workflow-runtime: call activity depth limit 64 exceeded (possible recursive definition: " ++
        quoted defRef.toText ++ "); async call activity chain is too deep")
    else .child ⟨w.definition, childID, input,
      some ⟨childID, s.instanceID, commandID, d.id, d.version, links.childDepth s.instanceID⟩⟩
  else if depth ≥ maxCallDepth then
    fails ("workflow-runtime: call activity depth limit 64 exceeded (possible recursive definition: " ++
      quoted defRef.toText ++ "); the synchronous runner does not support cyclic or deeply nested call activities")
  else if !w.admitted then fails "workflow-runtime: driver is shutting down"
  else .child ⟨w.definition, childID, input, none⟩

/-- The link of a child names it. -/
theorem performStartSubInstance_link {w : World} {links : MemCallLinks} {depth : Nat} {d : ProcessDefinition}
    {s : InstanceState} {commandID : String} {defRef : Qualifier} {input : Vars} {child : Child}
    (h : driver.performStartSubInstance w links depth d s commandID defRef input = .child child) :
    ∀ link ∈ child.link, link.childInstanceID = child.instanceID := by
  unfold performStartSubInstance at h
  dsimp only at h
  intro link hlink
  split at h
  · split at h
    · cases h
    · cases h
      cases hlink
      rfl
  · split at h
    · cases h
    · split at h
      · cases h
      · cases h
        cases hlink

/-- What the error of a command's own store is wrapped in; `none` for a command that needs none. -/
def performsOn : Command → Option String
  | .awaitHuman .. => some "workflow-runtime: upsert task: "
  | .updateTask _ => some "workflow-runtime: update task: "
  | .throwSignal name _ => some ("workflow-runtime: perform ThrowSignal " ++ quoted name ++ ": ")
  | .startSubInstance _ defRef _ =>
    some ("workflow-runtime: perform StartSubInstance " ++ quoted defRef.toText ++ ": definition not found" ++
      " (register it via runtime.RegisterDefinition or supply a registry via WithDefinitions): ")
  | _ => none

/-- The timer commands are done with the commit and never performed. -/
def perform (w : World) (links : MemCallLinks) (depth : Nat) (d : ProcessDefinition) (s : InstanceState) (cmd : Command) :
    Except DriverError Performed :=
  match performsOn cmd, w.failure with
  | some pre, some e => .error (e.wrap pre)
  | _, _ =>
    match cmd with
    | .invokeAction commandID name _ fireAndForget => .ok (.next (performInvokeAction w commandID name fireAndForget))
    | .startSubInstance commandID defRef input =>
      .ok (driver.performStartSubInstance w links depth d s commandID defRef input)
    | _ => .ok (.next none)

/-- The number of a status. -/
def ordinal : Status → Nat
  | .running => 0
  | .completed => 1
  | .failed => 2
  | .compensating => 3
  | .terminated => 4

/-- How the parent goes on when its child's call has returned. -/
def afterChild (w : World) (commandID childID : String) (result : Except DriverError InstanceState) : Option Trigger :=
  match result with
  | .error e => some ⟨w.now, .subInstanceFailed commandID e.text⟩
  | .ok child =>
    if driver.callLinks then none
    else match child.status with
      | .completed => some ⟨w.now, .subInstanceCompleted commandID child.vars⟩
      | .running =>
        some ⟨w.now, .subInstanceFailed commandID ("workflow-runtime: call activity child " ++ quoted childID ++
          " parked (status running): the synchronous runner does not support children that wait on human tasks, " ++
          "timers, or events; async call activity is a future enhancement")⟩
      | status =>
        some ⟨w.now, .subInstanceFailed commandID ("workflow-runtime: call activity child " ++ quoted childID ++
          " ended with status " ++ toString (ordinal status))⟩

end ProcessDriver

end Driver

end Wrkflw
