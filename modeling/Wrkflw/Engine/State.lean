import Wrkflw.Engine.Control

/-!
# The instance state

`InstanceState` adds to the control state what the waits are made of: variables, human tasks, timers,
arms and incidents. The operations are those of `state.go`, `state_arms.go`, `state_timers.go`,
`step_cancel.go` and the variable helpers of `step_state.go`.

An operation that returns commands returns a `StepResult`. `onControl` applies a control-state
operation and leaves the rest alone.
-/

namespace Wrkflw

structure InstanceState extends ControlState where
  defID : String := ""
  defVersion : Int := 0
  vars : Vars := []
  startVariables : Vars := []
  startedAt : Time := 0
  endedAt : Option Time := none
  tasks : List HumanTask := []
  timers : List TimerRecord := []
  armedEvents : List ArmedEvent := []
  boundaries : List BoundaryArm := []
  eventTriggeredSubprocesses : List EventTriggeredSubprocessArm := []
  incidents : List Incident := []
  taskSeq : Nat := 0
  timerSeq : Nat := 0
  incidentSeq : Nat := 0
  deriving Repr

/-- The state after an operation and the commands it produced. -/
structure StepResult where
  state : InstanceState
  commands : List Command := []
  deriving Repr

/-- A fallible operation. -/
abbrev EngineResult := Except EngineError StepResult

/-- The rest of a step, as it is handed to what ends in it. -/
abbrev DriveLoop := InstanceState → EngineResult

/-- What stays fixed during one step: the definition, the ids, the instant and the options. -/
structure StepCtx where
  top : ProcessDefinition
  ids : IDGenerator
  at_ : Time
  opt : StepOptions

def StepCtx.eval (c : StepCtx) : ConditionEvaluator := c.opt.evaluator

/-- Commands put in front of a result's own. -/
def StepResult.prepend (cmds : List Command) (r : StepResult) : StepResult :=
  { r with commands := cmds ++ r.commands }

def cancelTimers (timerIDs : List String) : List Command := timerIDs.map .cancelTimer

/-! ## Arms -/

section Arms
variable {α : Type} (trigger : α → TriggerMatch)

def armByTimer (arms : List α) (timerID : String) : Option α :=
  if timerID == "" then none else arms.find? (fun a => (trigger a).timerID == timerID)

def armByMessage (arms : List α) (name correlationKey : String) : Option α :=
  if name == "" then none
  else arms.find? (fun a => (trigger a).message == name && (trigger a).messageKey == correlationKey)

/-- The distinct identities of the arms on a signal, in order. -/
def armIDsBySignal (identity : α → String × String) (arms : List α) (name : String) : List (String × String) :=
  if name == "" then []
  else (arms.filter (fun a => (trigger a).signal == name)).foldl
    (fun out a => if out.contains (identity a) then out else out ++ [identity a]) []

/-- The timer ids of the arms `removeArmsWhere` drops. -/
def ownedTimerIDs (arms : List α) (owned : α → Bool) : List String :=
  ((arms.filter owned).map (fun a => (trigger a).timerID)).filter (· != "")

end Arms

def ArmedEvent.identity (ae : ArmedEvent) : String × String := (ae.gatewayToken, ae.catchNode)
def BoundaryArm.identity (ba : BoundaryArm) : String × String := (ba.hostToken, ba.boundaryNode)
def EventTriggeredSubprocessArm.identity (ea : EventTriggeredSubprocessArm) : String × String :=
  (ea.enclosingScopeID, ea.eventSubprocessNode)

namespace InstanceState
variable (s : InstanceState)

/-- Applies an operation of the control state. -/
def onControl (f : ControlState → ControlState) : InstanceState := { s with toControlState := f s.toControlState }

@[simp] theorem onControl_toControlState (f : ControlState → ControlState) :
    (s.onControl f).toControlState = f s.toControlState := rfl

def nextCommandID (g : IDGenerator) : InstanceState × String :=
  ({ s with cmdSeq := s.cmdSeq + 1 }, g.newID .command (s.cmdSeq + 1))

def nextTaskID (g : IDGenerator) : InstanceState × String :=
  ({ s with taskSeq := s.taskSeq + 1 }, g.newID .task (s.taskSeq + 1))

def nextTimerID (g : IDGenerator) : InstanceState × String :=
  ({ s with timerSeq := s.timerSeq + 1 }, g.newID .timer (s.timerSeq + 1))

/-- Appends an incident under the next incident id. -/
def raise (g : IDGenerator) (inc : String → Incident) : InstanceState :=
  { s with
    incidentSeq := s.incidentSeq + 1
    incidents := s.incidents ++ [inc (g.newID .incident (s.incidentSeq + 1))] }

/-! ## Tasks and incidents -/

def taskByID (taskID : String) : Option HumanTask :=
  if taskID == "" then none else s.tasks.find? (fun t => t.taskID == taskID)

/-- A write through the pointer `TaskByID` returns. -/
def updateTask (taskID : String) (f : HumanTask → HumanTask) : InstanceState :=
  { s with tasks := updateFirst (fun t => t.taskID == taskID) f s.tasks }

def removeIncidentsForToken (tokenID : String) : InstanceState :=
  if tokenID == "" then s else { s with incidents := s.incidents.filter (fun inc => inc.tokenID != tokenID) }

def removeOrphanedIncidents : InstanceState :=
  { s with incidents := s.incidents.filter (fun inc =>
             !(inc.tokenID != "" && (s.tokenByID inc.tokenID).isNone)) }

/-- The two `retireCompensation…Incidents`: the incidents of one kind about one command go. -/
def retireIncidents (kind : IncidentKind) (commandID : String) : InstanceState :=
  if commandID == "" then s
  else { s with incidents := s.incidents.filter (fun inc => !(inc.kind == kind && inc.commandID == commandID)) }

def retireCompensationStallIncidents (commandID : String) : InstanceState :=
  s.retireIncidents .compensationStall commandID

def retireCompensationFailedIncidents (commandID : String) : InstanceState :=
  s.retireIncidents .compensationFailed commandID

def hasOpenStallIncident (incidentID : String) : Bool :=
  incidentID != "" && s.incidents.any (fun inc => inc.id == incidentID && inc.kind == .compensationStall)

def cancelOpenTasks : StepResult where
  state := { s with tasks := s.tasks.map (fun t => if t.isOpen then t.cancel else t) }
  commands := (s.tasks.filter (·.isOpen)).map (fun t => .updateTask t.cancel)

/-! ## Timers and arms -/

def timerByID (timerID : String) : Option TimerRecord :=
  if timerID == "" then none else s.timers.find? (fun tr => tr.timerID == timerID)

def removeTimer (timerID : String) : InstanceState :=
  if timerID == "" then s else { s with timers := s.timers.filter (fun tr => tr.timerID != timerID) }

def cancelTimersWhere (key excludeTimerID : String) (keyOf : TimerRecord → String) : StepResult :=
  if key == "" then ⟨s, []⟩ else
    let owned := fun (tr : TimerRecord) => keyOf tr == key && tr.timerID != excludeTimerID
    ⟨{ s with timers := s.timers.filter (fun tr => !owned tr) },
      cancelTimers ((s.timers.filter owned).map (·.timerID))⟩

def cancelTimersByTaskID (taskID excludeTimerID : String) : StepResult :=
  s.cancelTimersWhere taskID excludeTimerID (·.taskID)

def cancelTimersForToken (tokenID excludeTimerID : String) : StepResult :=
  s.cancelTimersWhere tokenID excludeTimerID (·.token)

def cancelAllTimers : StepResult :=
  ⟨{ s with timers := [] }, cancelTimers (s.timers.map (·.timerID))⟩

def removeArmedEventsForGateway (gatewayToken : String) : StepResult :=
  if gatewayToken == "" then ⟨s, []⟩ else
    let owned := fun (ae : ArmedEvent) => ae.gatewayToken == gatewayToken
    ⟨{ s with armedEvents := s.armedEvents.filter (fun ae => !owned ae) },
      cancelTimers (ownedTimerIDs (·.toTriggerMatch) s.armedEvents owned)⟩

def removeBoundaryArmsForHost (hostToken : String) : StepResult :=
  if hostToken == "" then ⟨s, []⟩ else
    let owned := fun (ba : BoundaryArm) => ba.hostToken == hostToken
    ⟨{ s with boundaries := s.boundaries.filter (fun ba => !owned ba) },
      cancelTimers (ownedTimerIDs (·.toTriggerMatch) s.boundaries owned)⟩

def removeEventTriggeredSubprocessArmsForScope (scopeID : String) : StepResult :=
  let owned := fun (ea : EventTriggeredSubprocessArm) => ea.enclosingScopeID == scopeID
  ⟨{ s with eventTriggeredSubprocesses := s.eventTriggeredSubprocesses.filter (fun ea => !owned ea) },
    cancelTimers (ownedTimerIDs (·.toTriggerMatch) s.eventTriggeredSubprocesses owned)⟩

def cancelAllArmsAndBoundaries : StepResult :=
  ⟨{ s with armedEvents := [], boundaries := [] },
    cancelTimers (ownedTimerIDs (·.toTriggerMatch) s.armedEvents (fun _ => true)) ++
      cancelTimers (ownedTimerIDs (·.toTriggerMatch) s.boundaries (fun _ => true))⟩

def removeAllEventTriggeredSubprocessArms : StepResult :=
  ⟨{ s with eventTriggeredSubprocesses := [] },
    cancelTimers (ownedTimerIDs (·.toTriggerMatch) s.eventTriggeredSubprocesses (fun _ => true))⟩

def cancelAllScheduledWork : StepResult :=
  let r1 := s.cancelAllTimers
  let r2 := r1.state.cancelAllArmsAndBoundaries
  let r3 := r2.state.removeAllEventTriggeredSubprocessArms
  ⟨r3.state, r1.commands ++ r2.commands ++ r3.commands⟩

def armedEventByID (id : String × String) : Option ArmedEvent :=
  if id.1 == "" then none else s.armedEvents.find? (fun ae => ae.identity == id)

def boundaryArmByID (id : String × String) : Option BoundaryArm :=
  if id.1 == "" then none else s.boundaries.find? (fun ba => ba.identity == id)

def eventTriggeredSubprocessArmByID (id : String × String) : Option EventTriggeredSubprocessArm :=
  s.eventTriggeredSubprocesses.find? (fun ea => ea.identity == id)

/-! ## Ending the instance -/

/-- The error a terminal command reports. -/
def terminalErr : Option Command → String
  | some (.failInstance err) => err
  | _ => ""

/-- `endInstance`: status, harvest, cursor, tasks, timers, arms and scopes, in the source's order. -/
def endInstance (status : Status) (at_ : Time) (terminal : Option Command) : StepResult :=
  let s1 := s.retireCompensationStallIncidents s.compensating.activeCmdID
  let s2 := { s1 with endedAt := some at_ }.onControl (·.endControl status (terminalErr terminal))
  let r1 := s2.removeOrphanedIncidents.cancelOpenTasks
  let r2 := r1.state.cancelAllScheduledWork
  ⟨r2.state, r1.commands ++ terminal.toList ++ r2.commands⟩

/-! ## Variables -/

/-- `mergeVars`. -/
def mergeVars (input : Vars) : InstanceState := { s with vars := s.vars.copyFrom input }

end InstanceState

/-- `strings.EqualFold` against an ASCII name: the characters that fold onto an ASCII letter are its
two cases, the Kelvin sign and the long s. -/
def foldAscii (c : Char) : Char :=
  if c.toNat == 0x212A then 'k' else if c.toNat == 0x17F then 's' else c.toLower

def reservedEngineVarNames : List String := ["_idempotencyKey", "_errorMessage", "_errorAttempts"]

def foldsOntoReservedName (k : String) : Bool :=
  reservedEngineVarNames.any (fun reserved =>
    k != reserved && k.toList.map foldAscii == reserved.toList.map foldAscii)

def serviceActionInput (s : InstanceState) (node : Node) : Vars :=
  (Vars.set (s.vars.filter (fun e => !foldsOntoReservedName e.1)) "_idempotencyKey"
    (.str (s.instanceID ++ ":" ++ node.id)))

/-- `emitFireOnceAction`. -/
def emitFireOnceAction (g : IDGenerator) (s : InstanceState) (actionName : String) : StepResult :=
  if actionName == "" then ⟨s, []⟩
  else
    let (s', cmdID) := s.nextCommandID g
    ⟨s', [.invokeAction cmdID actionName s.vars true]⟩

/-! ## Cancelling tokens -/

/-- `strings.HasPrefix(s, "evtgw:")`. -/
def awaitsEventGateway (awaitCommand : String) : Bool := "evtgw:".toList.isPrefixOf awaitCommand.toList

/-- `cancelTokenWaits`: everything the token waits on goes, then the token. -/
def cancelTokenWaits (s : InstanceState) (tok : Token) (at_ : Time) (closeKind : CloseKind) : StepResult :=
  let r1 := s.cancelTimersByTaskID tok.awaitCommand ""
  let r2 := r1.state.cancelTimersForToken tok.id ""
  let r3 := r2.state.removeBoundaryArmsForHost tok.id
  let r4 := if awaitsEventGateway tok.awaitCommand then r3.state.removeArmedEventsForGateway tok.id
    else ⟨r3.state, []⟩
  let r5 : StepResult := match r4.state.taskByID tok.awaitCommand with
    | some task =>
      if task.isOpen then
        ⟨r4.state.updateTask tok.awaitCommand HumanTask.cancel,
          [.updateTask task.cancel]⟩
      else ⟨r4.state, []⟩
    | none => ⟨r4.state, []⟩
  ⟨(r5.state.removeIncidentsForToken tok.id).onControl (·.cancelToken tok at_ closeKind),
    r1.commands ++ r2.commands ++ r3.commands ++ r4.commands ++ r5.commands⟩

/-- `cancelTokenWaits` over a snapshot of tokens. -/
def cancelTokens (at_ : Time) (closeKind : CloseKind) : List Token → InstanceState → StepResult
  | [], s => ⟨s, []⟩
  | tok :: toks, s =>
    let r := cancelTokenWaits s tok at_ closeKind
    (cancelTokens at_ closeKind toks r.state).prepend r.commands

/-- The event sub-process arms and the records of each scope in the list. -/
def teardownScopes : List String → InstanceState → StepResult
  | [], s => ⟨s, []⟩
  | id :: ids, s =>
    let r := s.removeEventTriggeredSubprocessArmsForScope id
    (teardownScopes ids (r.state.onControl (·.archiveCompensations id))).prepend r.commands

/-- `cancelScopeSubtree`: the scope itself first, then its open descendants in order. -/
def cancelScopeSubtree (s : InstanceState) (scopeID : String) (at_ : Time) (kind : CloseKind) : StepResult :=
  let ids := descendantScopeIDs s.scopes scopeID
  let r := cancelTokens at_ kind (s.tokens.filter (fun t => ids.contains t.scopeID)) s
  let descendants := (s.scopes.map (·.id)).filter (fun id => id != scopeID && ids.contains id)
  (teardownScopes (scopeID :: descendants) r.state).prepend r.commands

end Wrkflw
