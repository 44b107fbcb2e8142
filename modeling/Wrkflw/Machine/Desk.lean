import Wrkflw.Machine.Quiet
import Mathlib.Data.List.Perm.Basic

/-!
# The waits machine

A second abstract machine, over what an instance waits for: `Desk` is the part of a state that tokens, tasks, timers,
arms and incidents are about, `Act` is one thing the engine does to it, with the commands that go out, and `Acts` is
what a whole operation does.

* `Front` : the part of a desk that belongs to the control state;
* `Token.Clears`, `Token.Hears`, `Token.Steps` : how a token is freed from a wait, and how an active token goes on;
* `Wait` : what an active token may come to wait for;
* `Named` : the waiting token a trigger is about.

A desk whose tokens share ids is left open (`Acts.stray`): no run reaches one.
-/

namespace Wrkflw

/-! ## The desk -/

/-- The scope an exit closes, with the scopes that were open. -/
def Event.exit? : Event → Option (String × List Scope)
  | .exited scope _ _ scopes _ => some (scope, scopes.map Scope.bare)
  | _ => none

/-- A cancelled token that waited for a timer of its own. -/
def Event.cut? : Event → Option Token
  | .cancelled token _ _ => if token.awaitTimer == "" then none else some token
  | _ => none

/-- A command that went out for a compensation record, and whether it is a further one for the record of the command
before it. -/
def Event.try? : Event → Option (String × Bool)
  | .dispatched _ cmdID => some (cmdID, false)
  | .redispatched _ cmdID => some (cmdID, true)
  | _ => none

/-- The part of the control state a desk has. -/
structure Front where
  live : Bool
  tokens : List Token
  scopes : List Scope
  queue : List String
  walk : String
  backoff : Bool
  tries : List (String × Bool)
  finals : List Status
  cmdSeq : Nat
  tokenSeq : Nat
  scopeSeq : Nat
  exits : List (String × List Scope)
  cuts : List Token
  ends : List Status
  instanceID : String

def ControlState.front (s : ControlState) : Front where
  live := !s.status.isTerminal
  tokens := s.tokens
  scopes := s.scopes.map Scope.bare
  queue := s.deferredCompensationThrows
  walk := s.compensating.activeCmdID
  backoff := s.compensating.retryTimerID != ""
  tries := s.trace.filterMap Event.try?
  finals := [s.compensating.finalStatus, s.pendingFinalStatus]
  cmdSeq := s.cmdSeq
  tokenSeq := s.tokenSeq
  scopeSeq := s.scopeSeq
  exits := s.trace.filterMap Event.exit?
  cuts := s.trace.filterMap Event.cut?
  ends := s.trace.filterMap Event.end?
  instanceID := s.instanceID

structure Desk extends Front where
  timers : List TimerRecord
  armedEvents : List ArmedEvent
  boundaries : List BoundaryArm
  eventSubs : List EventTriggeredSubprocessArm
  tasks : List HumanTask
  incidents : List Incident
  taskSeq : Nat
  timerSeq : Nat
  incidentSeq : Nat

def InstanceState.desk (s : InstanceState) : Desk where
  toFront := s.toControlState.front
  timers := s.timers
  armedEvents := s.armedEvents
  boundaries := s.boundaries
  eventSubs := s.eventTriggeredSubprocesses
  tasks := s.tasks
  incidents := s.incidents
  taskSeq := s.taskSeq
  timerSeq := s.timerSeq
  incidentSeq := s.incidentSeq

namespace Desk
variable (d : Desk)

def update (id : String) (f : Token → Token) : Desk :=
  { d with tokens := d.tokens.map (fun t => if t.id == id then f t else t) }

def remove (id : String) : Desk := { d with tokens := d.tokens.filter (fun t => t.id != id) }

/-- The tokens have ids, each its own, and a walk or a pending cancel ends the instance in an abort. -/
structure Sane : Prop where
  nodup : (d.tokens.map (·.id)).Nodup
  named : ∀ t ∈ d.tokens, t.id ≠ ""
  finals : ∀ st ∈ d.finals, st.Aborts

/-- The tasks once the open one of this id is cancelled, with the command that says so. -/
def closedTask (taskID : String) : List HumanTask × List Command :=
  if taskID == "" then (d.tasks, []) else
  match d.tasks.find? (fun t => t.taskID == taskID) with
  | some task =>
    if task.isOpen then
      (updateFirst (fun t => t.taskID == taskID) HumanTask.cancel d.tasks, [.updateTask task.cancel])
    else (d.tasks, [])
  | none => (d.tasks, [])

/-- The incident outlives the instance: it is no stall of the walk and its token, if it has one, is still there. -/
def outlives (tokens : List Token) (inc : Incident) : Bool :=
  !(d.walk != "" && inc.kind == .compensationStall && inc.commandID == d.walk) &&
    !(inc.tokenID != "" && !tokens.any (fun t => t.id == inc.tokenID))

/-- A walk is on and no failure of its command is open. -/
def Renewable : Prop := d.walk ≠ "" ∧ ∀ inc ∈ d.incidents, inc.kind = .compensationFailed → inc.commandID ≠ d.walk

/-- The id is the root's or an open scope's. -/
def HasScope (scopeID : String) : Prop := scopeID = "" ∨ ∃ sc ∈ d.scopes, sc.id = scopeID

end Desk

/-! ## Commands -/

/-- The command has nothing to do with a wait, and no id. -/
def Command.Neutral : Command → Prop
  | .scheduleTimer .. | .cancelTimer _ | .startSubInstance .. | .awaitHuman .. | .updateTask _ | .invokeAction .. => False
  | _ => True

/-- The id a command brings into the world, with its kind. -/
def Command.named? : Command → Option (IDKind × String)
  | .scheduleTimer timerID .. => some (.timer, timerID)
  | .invokeAction commandID .. => some (.command, commandID)
  | .startSubInstance commandID .. => some (.command, commandID)
  | .awaitHuman taskID _ => some (.task, taskID)
  | _ => none

/-- The ids are fresh timer ids and the commands schedule exactly them. -/
structure Schedules (g : IDGenerator) (n m : Nat) (ids : List String) (cmds : List Command) : Prop where
  le : n ≤ m
  fresh : ∀ id ∈ ids, ∃ k, n < k ∧ k ≤ m ∧ id = g.newID .timer k
  nodup : ids.Nodup
  only : ∀ cmd ∈ cmds, ∃ id ∈ ids, ∃ owner spec kind, cmd = .scheduleTimer id owner spec kind
  all : ∀ id ∈ ids, ∃ owner spec kind, Command.scheduleTimer id owner spec kind ∈ cmds
  once : (cmds.filterMap Command.named?).Perm (ids.map (fun id => (.timer, id)))

/-- The commands cancel timers of the list, and every one of it but the excepted. -/
structure Cancels (ids : List String) (except : String) (cmds : List Command) : Prop where
  only : ∀ cmd ∈ cmds, ∃ id ∈ ids, cmd = .cancelTimer id
  all : ∀ id ∈ ids, id ≠ "" → id = except ∨ Command.cancelTimer id ∈ cmds

/-! ## Tokens -/

namespace Token

/-- An active token stops without a wait, or goes on: what it waits for is as before. -/
structure Steps (t t' : Token) : Prop where
  id : t'.id = t.id
  scopeID : t'.scopeID = t.scopeID
  awaitCommand : t'.awaitCommand = t.awaitCommand
  awaitSignal : t'.awaitSignal = t.awaitSignal
  awaitMessage : t'.awaitMessage = t.awaitMessage
  awaitTimer : t'.awaitTimer = t.awaitTimer
  state : t.state = .active → t'.state ≠ .incident

/-- The two tokens stand on the same node, under the same name. -/
structure Same (t t' : Token) : Prop where
  id : t'.id = t.id
  nodeID : t'.nodeID = t.nodeID
  scopeID : t'.scopeID = t.scopeID

/-- The token is freed from what it waited for under `awaitCommand`. -/
structure Clears (t t' : Token) : Prop extends Same t t' where
  state : t'.state = .active
  awaitCommand : t'.awaitCommand = ""
  awaitTimer : t'.awaitTimer = ""
  awaitSignal : t'.awaitSignal = t.awaitSignal
  awaitMessage : t'.awaitMessage = t.awaitMessage

/-- The token is freed from a signal or a message. -/
structure Hears (t t' : Token) : Prop extends Same t t' where
  state : t'.state = .active
  awaitCommand : t'.awaitCommand = t.awaitCommand
  awaitTimer : t'.awaitTimer = t.awaitTimer
  heard : (t.awaitSignal ≠ "" ∧ t'.awaitSignal = "" ∧ t'.awaitMessage = t.awaitMessage) ∨
    (t.awaitMessage ≠ "" ∧ t'.awaitMessage = "" ∧ t'.awaitSignal = t.awaitSignal)

/-- The token waits for the command, under its own state otherwise. -/
structure Expects (cmdID : String) (t t' : Token) : Prop extends Same t t' where
  state : t'.state = .waiting
  awaitCommand : t'.awaitCommand = cmdID
  awaitSignal : t'.awaitSignal = t.awaitSignal
  awaitMessage : t'.awaitMessage = t.awaitMessage
  awaitTimer : t'.awaitTimer = t.awaitTimer

end Token

/-- The task as it is opened: nobody has claimed it. -/
structure HumanTask.Posted (ht : HumanTask) (spec : AuthzSpec) (instanceID : String) : Prop where
  state : ht.state = .unclaimed
  claim : ht.claim = none
  completion : ht.completion = none
  eligibility : ht.eligibility = spec
  instanceID : ht.instanceID = instanceID

/-- The task is done without anybody's doing, as an immediate manual task is. -/
structure HumanTask.Immediate (ht : HumanTask) : Prop where
  state : ht.state = .completed
  claim : ht.claim = none
  completion : ht.completion = none

/-- The trigger writes to an open task and does nothing else. -/
def TriggerBody.edits : TriggerBody → Bool
  | .humanClaimed .. | .humanReassigned .. | .humanCandidatesResolved .. => true
  | _ => false

/-- What an active token comes to wait for: the token's update, the new task, the sequence numbers used and the
commands. -/
inductive Wait (g : IDGenerator) (d : Desk) (tok : Token) :
    (Token → Token) → List HumanTask → Nat → Nat → Nat → List Command → Prop
  | command (f : Token → Token) (cmd : Command) (hf : ∀ t : Token, t.Expects (g.newID .command (d.cmdSeq + 1)) (f t))
      (hcmd : cmd.correlationID = g.newID .command (d.cmdSeq + 1)) (hkind : ∀ id spec, cmd ≠ .awaitHuman id spec) :
      Wait g d tok f [] (d.cmdSeq + 1) d.taskSeq d.timerSeq [cmd]
  | task (f : Token → Token) (ht : HumanTask) (spec : AuthzSpec) (hf : ∀ t : Token, t.Expects ht.taskID (f t))
      (hid : ht.taskID = g.newID .task (d.taskSeq + 1)) (hopen : ht.isOpen = true) (hnode : ht.nodeID = tok.nodeID)
      (hnew : ht.Posted spec d.instanceID) :
      Wait g d tok f [ht] d.cmdSeq (d.taskSeq + 1) d.timerSeq [.awaitHuman ht.taskID spec]
  | timer (spec : TriggerSpec) :
      Wait g d tok (fun t => { t with state := .waiting, awaitCommand := g.newID .timer (d.timerSeq + 1),
                                      awaitTimer := g.newID .timer (d.timerSeq + 1) })
        [] d.cmdSeq d.taskSeq (d.timerSeq + 1) [.scheduleTimer (g.newID .timer (d.timerSeq + 1)) tok.id spec .intermediate]
  | signal (name : String) (hname : name ≠ "") :
      Wait g d tok (fun t => { t with state := .waiting, awaitSignal := name }) [] d.cmdSeq d.taskSeq d.timerSeq []
  | message (name key : String) :
      Wait g d tok (fun t => { t with state := .waiting, awaitMessage := name, awaitMessageKey := key }) []
        d.cmdSeq d.taskSeq d.timerSeq []
  | gateway (f : Token → Token) (hf : ∀ t : Token, t.Expects ("evtgw:" ++ tok.id) (f t)) :
      Wait g d tok f [] d.cmdSeq d.taskSeq d.timerSeq []

/-- The timers the arms of a parking token wait for. -/
def parkedTimerIDs (arms : List BoundaryArm) (gws : List ArmedEvent) (trs : List TimerRecord) : List String :=
  (arms.map (·.timerID)).filter (· != "") ++ (gws.map (·.timerID)).filter (· != "") ++ trs.map (·.timerID)

/-- What is armed for a parking token: boundaries on its node, or the events behind its gateway, and timers of its
own. -/
structure Arming (g : IDGenerator) (tok : Token) (f : Token → Token) (arms : List BoundaryArm) (gws : List ArmedEvent)
    (trs : List TimerRecord) (n m : Nat) (cmds : List Command) : Prop where
  host : ∀ ba ∈ arms, ba.hostToken = tok.id ∧ ba.hostNode = tok.nodeID
  gateway : ∀ ae ∈ gws, ae.gatewayToken = tok.id ∧ (f tok).awaitCommand = "evtgw:" ++ tok.id
  alone : arms = [] ∨ gws = []
  timers : Schedules g n m (parkedTimerIDs arms gws trs) cmds

/-- A deadline among the timers is that of a task, opened for a token of this scope. -/
def Deadlines (tok : Token) (tasks : List HumanTask) (trs : List TimerRecord) : Prop :=
  ∀ tr ∈ trs, tr.kind = .deadline → ∃ ht ∈ tasks, tr.taskID = ht.taskID ∧ tr.scopeID = tok.scopeID

/-! ## Replies -/

/-- The trigger is a reply to what the token waits for under `awaitCommand`. -/
inductive Replies (d0 : Desk) (tok : Token) : TriggerBody → Prop
  | completed (output : Vars) : Replies d0 tok (.actionCompleted tok.awaitCommand output)
  | failed (err : String) (retryable : Bool) (jitter : Rat) (cause : Option String) :
      Replies d0 tok (.actionFailed tok.awaitCommand err retryable jitter cause)
  | childCompleted (output : Vars) : Replies d0 tok (.subInstanceCompleted tok.awaitCommand output)
  | childFailed (err : String) : Replies d0 tok (.subInstanceFailed tok.awaitCommand err)
  | human (outcome note : String) (output : Vars) (actor : Actor) :
      Replies d0 tok (.humanCompleted tok.awaitCommand outcome note output actor)
  | timer : Replies d0 tok (.timerFired tok.awaitCommand)
  | deadline (tr : TimerRecord) (htr : tr ∈ d0.timers) (htask : tr.taskID = tok.awaitCommand) :
      Replies d0 tok (.timerFired tr.timerID)

/-- The trigger is about this waiting token of the desk the step began with. -/
structure Named (d0 : Desk) (trg : TriggerBody) (tok : Token) : Prop where
  mem : tok ∈ d0.tokens
  await : tok.awaitCommand ≠ ""
  replies : Replies d0 tok trg

/-- The trigger reports that what the token waits for failed. -/
def ReportsFailure (trg : TriggerBody) (tok : Token) : Prop :=
  (∃ err retryable jitter cause, trg = .actionFailed tok.awaitCommand err retryable jitter cause) ∨
    ∃ err, trg = .subInstanceFailed tok.awaitCommand err

/-- The trigger completes the token's task, or tells a deadline. -/
def TendsTask (trg : TriggerBody) (tok : Token) : Prop :=
  (∃ outcome note output actor, trg = .humanCompleted tok.awaitCommand outcome note output actor) ∨
    ∃ id, trg = .timerFired id ∧ id ≠ tok.awaitCommand

/-- No boundary is armed on the token, or the reply is of a kind that leaves the boundaries alone. -/
def Disarmed (d0 d : Desk) (trg : TriggerBody) (tok : Token) : Prop :=
  (∀ ba ∈ d.boundaries, ba.hostToken ≠ tok.id) ∨
    (d.boundaries = d0.boundaries ∧
      ((∃ output, trg = .subInstanceCompleted tok.awaitCommand output) ∨ ∃ id, trg = .timerFired id))

/-- The trigger reports that the walk's command failed. -/
def WalkFails (d0 : Desk) (trg : TriggerBody) : Prop :=
  ∃ err retryable jitter cause, trg = .actionFailed d0.walk err retryable jitter cause

/-- The incident is about the walk's command, which failed just now: the walk has moved on from it, or waits to try it
again. -/
structure WalkFailure (d0 d : Desk) (trg : TriggerBody) (inc : Incident) : Prop where
  names : inc.commandID = d0.walk
  walking : d0.walk ≠ ""
  fails : WalkFails d0 trg
  first : d0.backoff = false
  old : d.incidents ⊆ d0.incidents
  tries : d.tries = d0.tries
  moved : d.walk = "" ∨ d.backoff = true

/-- The trigger may make an earlier failure of the walk's command obsolete: a success, or a retry. -/
def WalkRenews (d0 : Desk) : TriggerBody → Prop
  | .actionCompleted commandID _ => commandID = d0.walk
  | .resolveCompensationStall commandID _ disposition => commandID = d0.walk ∧ disposition = .retry
  | .timerFired timerID =>
    ∃ tr ∈ d0.timers, tr.timerID = timerID ∧ tr.kind = .compensationRetry ∧ tr.commandID = d0.walk
  | _ => False

/-! ## Acts -/

/-- One thing the engine does to what an instance waits for, with the commands that go out. -/
inductive Act (g : IDGenerator) (trg : TriggerBody) (d0 d : Desk) : Desk → List Command → Prop
  | fire (name : String) (input : Vars) :
      Act g trg d0 d { d with cmdSeq := d.cmdSeq + 1 } [.invokeAction (g.newID .command (d.cmdSeq + 1)) name input true]
  | say (cmds : List Command) (hcmds : ∀ cmd ∈ cmds, cmd.Neutral) : Act g trg d0 d d cmds
  | place (node scope flow : String) (at_ : Time) :
      Act g trg d0 d { d with
        tokenSeq := d.tokenSeq + 1
        tokens := d.tokens ++ [{ id := g.newID .token (d.tokenSeq + 1), nodeID := node, scopeID := scope, enteredAt := at_,
                                 arrivalFlow := flow }] } []
  | step (tok : Token) (f : Token → Token) (hmem : tok ∈ d.tokens) (hactive : tok.state = .active)
      (hf : ∀ t : Token, t.Steps (f t)) : Act g trg d0 d (d.update tok.id f) []
  | drop (p : Token → Bool) (hp : ∀ t ∈ d.tokens, p t = false → t.state = .active ∨ t.state = .joining) :
      Act g trg d0 d { d with tokens := d.tokens.filter p } []
  | openScope (node parent : String) :
      Act g trg d0 d { d with
        scopeSeq := d.scopeSeq + 1
        scopes := d.scopes ++ [{ id := g.newID .scope (d.scopeSeq + 1), nodeID := node, parentID := parent }] } []
  | closeScopes (p : Scope → Bool)
      (hp : ∀ sc ∈ d.scopes, p sc = false → ∀ ea ∈ d.eventSubs, ea.enclosingScopeID ≠ sc.id) :
      Act g trg d0 d { d with scopes := d.scopes.filter p } []
  | exitScope (id : String) (p : Scope → Bool) (plain : Bool)
      (hid : plain = true → ∀ ea ∈ d.eventSubs, ea.enclosingScopeID ≠ id)
      (hp : ∀ sc ∈ d.scopes, p sc = false → sc.id ∈ descendantScopeIDs d.scopes id) :
      Act g trg d0 d { d with scopes := d.scopes.filter p, exits := (id, d.scopes) :: d.exits } []
  | defer (tok : Token) (hmem : tok ∈ d.tokens) (hactive : tok.state = .active) :
      Act g trg d0 d { d.update tok.id (fun t => { t with state := .waiting }) with queue := d.queue ++ [tok.id] } []
  | pop (id : String) (rest : List String) (hq : d.queue = id :: rest) :
      Act g trg d0 d { d.update id (fun t => { t with state := .active }) with queue := rest } []
  | park (tok : Token) (f : Token → Token) (tasks : List HumanTask) (nc nt n m : Nat) (cmds armCmds : List Command)
      (arms : List BoundaryArm) (gws : List ArmedEvent) (trs : List TimerRecord) (hmem : tok ∈ d.tokens)
      (hactive : tok.state = .active) (hwait : Wait g d tok f tasks nc nt n cmds)
      (harm : Arming g tok f arms gws trs n m armCmds) (hdeadline : Deadlines tok tasks trs) :
      Act g trg d0 d { d.update tok.id f with
        tasks := d.tasks ++ tasks, boundaries := d.boundaries ++ arms, armedEvents := d.armedEvents ++ gws,
        timers := d.timers ++ trs, cmdSeq := nc, taskSeq := nt, timerSeq := m } (cmds ++ armCmds)
  | defect (tok : Token) (inc : Incident) (hmem : tok ∈ d.tokens) (hactive : tok.state = .active)
      (hid : inc.id = g.newID .incident (d.incidentSeq + 1)) (hkind : inc.kind = .definitionDefect)
      (htok : inc.tokenID = tok.id) (hnode : inc.nodeID = tok.nodeID) :
      Act g trg d0 d { d.update tok.id (fun t => { t with state := .incident }) with
        incidents := d.incidents ++ [inc], incidentSeq := d.incidentSeq + 1 } []
  | filed (ht : HumanTask) (hid : ht.taskID = g.newID .task (d.taskSeq + 1)) (hclosed : ht.isOpen = false)
      (hdone : ht.Immediate) :
      Act g trg d0 d { d with tasks := d.tasks ++ [ht], taskSeq := d.taskSeq + 1 } []
  | answer (tok : Token) (f : Token → Token) (hmem : tok ∈ d.tokens) (hnamed : Named d0 trg tok)
      (hf : ∀ t : Token, t.Clears (f t)) (harms : Disarmed d0 d trg tok)
      (hnone : TendsTask trg tok → ∀ ht ∈ d.tasks, ht.taskID ≠ tok.awaitCommand) : Act g trg d0 d (d.update tok.id f) []
  | finishTask (tok : Token) (f : Token → Token) (task : HumanTask) (close : HumanTask → HumanTask)
      (hmem : tok ∈ d.tokens) (hnamed : Named d0 trg tok) (hf : ∀ t : Token, t.Clears (f t)) (harms : Disarmed d0 d trg tok)
      (htask : d.tasks.find? (fun t => t.taskID == tok.awaitCommand) = some task) (hopen : task.isOpen = true)
      (hclose : ∀ t, (close t).isOpen = false ∧ (close t).taskID = t.taskID) :
      Act g trg d0 d { d.update tok.id f with
        tasks := updateFirst (fun t => t.taskID == tok.awaitCommand) close d.tasks } [.updateTask (close task)]
  | hear (tok : Token) (f : Token → Token) (hmem : tok ∈ d.tokens) (hf : tok.Hears (f tok))
      (hid : ∀ t : Token, (f t).id = t.id)
      (harms : tok.awaitSignal ≠ "" ∨ ∀ ba ∈ d.boundaries, ba.hostToken ≠ tok.id) :
      Act g trg d0 d (d.update tok.id f) []
  | win (tok : Token) (f : Token → Token) (won : String) (cmds : List Command) (hmem : tok ∈ d.tokens)
      (hawait : tok.awaitCommand = "evtgw:" ++ tok.id) (harmed : ∃ ae ∈ d.armedEvents, ae.gatewayToken = tok.id)
      (hf : ∀ t : Token, t.Clears (f t))
      (hcmds : Cancels ((d.armedEvents.filter (fun a => a.gatewayToken == tok.id)).map (·.timerID)) won cmds) :
      Act g trg d0 d { d.update tok.id f with
        armedEvents := d.armedEvents.filter (fun a => !(a.gatewayToken == tok.id)) } cmds
  | rewait (tok : Token) (f : Token → Token) (tr : TimerRecord) (spec : TriggerSpec) (hmem : tok ∈ d.tokens)
      (hnamed : Named d0 trg tok) (htrg : ∃ err retryable jitter cause,
        trg = .actionFailed tok.awaitCommand err retryable jitter cause)
      (hf : ∀ t : Token, t.Expects (g.newID .timer (d.timerSeq + 1)) (f t))
        (harms : ∀ ba ∈ d.boundaries, ba.hostToken ≠ tok.id)
      (htr : tr.timerID = g.newID .timer (d.timerSeq + 1)) (hdeadline : tr.kind ≠ .deadline) :
      Act g trg d0 d { d.update tok.id f with timers := d.timers ++ [tr], timerSeq := d.timerSeq + 1 }
        [.scheduleTimer tr.timerID tok.id spec .retry]
  | fail (tok : Token) (inc : Incident) (hmem : tok ∈ d.tokens) (hnamed : Named d0 trg tok)
      (htrg : ∃ err retryable jitter cause, trg = .actionFailed tok.awaitCommand err retryable jitter cause)
      (harms : ∀ ba ∈ d.boundaries, ba.hostToken ≠ tok.id)
      (hid : inc.id = g.newID .incident (d.incidentSeq + 1)) (hkind : inc.kind = .action) (htok : inc.tokenID = tok.id)
      (hnode : inc.nodeID = tok.nodeID) :
      Act g trg d0 d { d.update tok.id (fun t => { t with state := .incident }) with
        incidents := d.incidents ++ [inc], incidentSeq := d.incidentSeq + 1 } []
  | reinvoke (tok : Token) (f : Token → Token) (cmd : Command) (arms : List BoundaryArm) (m : Nat)
      (armCmds : List Command) (hmem : tok ∈ d.tokens) (hnamed : Named d0 trg tok) (htrg : trg = .timerFired tok.awaitCommand)
      (hf : ∀ t : Token, t.Expects (g.newID .command (d.cmdSeq + 1)) (f t))
      (hcmd : cmd.correlationID = g.newID .command (d.cmdSeq + 1)) (hkind : ∀ id spec, cmd ≠ .awaitHuman id spec)
      (harm : Arming g tok f arms [] [] d.timerSeq m armCmds) :
      Act g trg d0 d { d.update tok.id f with
        boundaries := d.boundaries ++ arms, cmdSeq := d.cmdSeq + 1, timerSeq := m } (cmd :: armCmds)
  | resolve (inc : Incident) (tok : Token) (f : Token → Token) (cmd : Command) (arms : List BoundaryArm) (m : Nat)
      (armCmds : List Command) (n : Int) (hd : d = d0) (htrg : trg = .resolveIncident inc.id n)
      (hinc : d.incidents.find? (fun i => i.id == inc.id) = some inc) (hkind : inc.kind = .action) (hmem : tok ∈ d.tokens)
      (htok : inc.tokenID = tok.id) (hf : ∀ t : Token, t.Expects (g.newID .command (d.cmdSeq + 1)) (f t))
      (hcmd : cmd.correlationID = g.newID .command (d.cmdSeq + 1)) (hhuman : ∀ id spec, cmd ≠ .awaitHuman id spec)
      (harm : Arming g tok f arms [] [] d.timerSeq m armCmds) :
      Act g trg d0 d { d.update tok.id f with
        incidents := d.incidents.eraseP (fun i => i.id == inc.id), boundaries := d.boundaries ++ arms,
        cmdSeq := d.cmdSeq + 1, timerSeq := m } (cmd :: armCmds)
  | resolveGone (inc : Incident) (hinc : d.incidents.find? (fun i => i.id == inc.id) = some inc) (hkind : inc.kind = .action)
      (hgone : ∀ t ∈ d.tokens, t.id ≠ inc.tokenID) :
      Act g trg d0 d { d with incidents := d.incidents.eraseP (fun i => i.id == inc.id) } []
  | lose (tok : Token) (hmem : tok ∈ d.tokens) (hnamed : Named d0 trg tok) (htrg : ReportsFailure trg tok)
      (harms : ∀ ba ∈ d.boundaries, ba.hostToken ≠ tok.id) : Act g trg d0 d (d.remove tok.id) []
  | cancel (tok : Token) (hmem : tok ∈ d.tokens)
      (harms : (∀ ba ∈ d.boundaries, ba.hostToken ≠ tok.id) ∧
        (awaitsEventGateway tok.awaitCommand = true → ∀ ae ∈ d.armedEvents, ae.gatewayToken ≠ tok.id)) :
      Act g trg d0 d { d.remove tok.id with
        tasks := (d.closedTask tok.awaitCommand).1
        incidents := d.incidents.filter (fun inc => inc.tokenID != tok.id)
        cuts := (if tok.awaitTimer == "" then d.cuts else tok :: d.cuts) } (d.closedTask tok.awaitCommand).2
  | armEventSubs (scope : String) (arms : List EventTriggeredSubprocessArm) (m : Nat) (cmds : List Command)
      (hscope : d.HasScope scope) (harm : ∀ ea ∈ arms, ea.enclosingScopeID = scope)
      (htimers : Schedules g d.timerSeq m ((arms.map (·.timerID)).filter (· != "")) cmds) :
      Act g trg d0 d { d with eventSubs := d.eventSubs ++ arms, timerSeq := m } cmds
  | dropEventSubs (p : EventTriggeredSubprocessArm → Bool) (cmds : List Command)
      (hcmds : Cancels ((d.eventSubs.filter (fun a => !p a)).map (·.timerID)) "" cmds) :
      Act g trg d0 d { d with eventSubs := d.eventSubs.filter p } cmds
  | dropBoundaries (p : BoundaryArm → Bool) (cmds : List Command)
      (hcmds : Cancels ((d.boundaries.filter (fun a => !p a)).map (·.timerID)) "" cmds) :
      Act g trg d0 d { d with boundaries := d.boundaries.filter p } cmds
  | dropGateways (p : ArmedEvent → Bool) (won : String) (cmds : List Command)
      (hcmds : Cancels ((d.armedEvents.filter (fun a => !p a)).map (·.timerID)) won cmds) :
      Act g trg d0 d { d with armedEvents := d.armedEvents.filter p } cmds
  | dropDeadHost (host : String) (hhost : ∀ t ∈ d.tokens, t.id ≠ host) :
      Act g trg d0 d { d with boundaries := d.boundaries.filter (fun a => a.hostToken != host) } []
  | dropDeadGateway (gw : String) (hgw : ∀ t ∈ d.tokens, t.id = gw → t.awaitCommand ≠ "evtgw:" ++ gw) :
      Act g trg d0 d { d with armedEvents := d.armedEvents.filter (fun a => a.gatewayToken != gw) } []
  | dropTimers (p : TimerRecord → Bool) (fired : String) (cmds : List Command)
      (hfired : fired = "" ∨ trg = .timerFired fired)
      (hcmds : Cancels ((d.timers.filter (fun tr => !p tr)).map (·.timerID)) fired cmds) :
      Act g trg d0 d { d with timers := d.timers.filter p } cmds
  | schedule (tr : TimerRecord) (spec : TriggerSpec) (hid : tr.timerID = g.newID .timer (d.timerSeq + 1))
      (hdeadline : tr.kind ≠ .deadline) :
      Act g trg d0 d { d with timers := d.timers ++ [tr], timerSeq := d.timerSeq + 1 }
        [.scheduleTimer tr.timerID tr.token spec tr.kind]
  | editTask (taskID : String) (task : HumanTask) (f : HumanTask → HumanTask)
      (htask : d.tasks.find? (fun t => t.taskID == taskID) = some task) (hopen : task.isOpen = true)
      (hf : ∀ t, t.isOpen = true → (f t).isOpen = true ∧ (f t).taskID = t.taskID ∧ (f t).nodeID = t.nodeID)
      (htrg : trg.edits = true) :
      Act g trg d0 d { d with tasks := updateFirst (fun t => t.taskID == taskID) f d.tasks } [.updateTask (f task)]
  | walkCommand (cmd : Command) (again backoff : Bool) (hcmd : cmd.correlationID = g.newID .command (d.cmdSeq + 1))
      (hhuman : ∀ id spec, cmd ≠ .awaitHuman id spec) (hagain : again = true → d.Renewable) :
      Act g trg d0 d { d with
        walk := g.newID .command (d.cmdSeq + 1), cmdSeq := d.cmdSeq + 1, backoff := backoff,
        tries := (g.newID .command (d.cmdSeq + 1), again) :: d.tries } [cmd]
  | settle : Act g trg d0 d { d with walk := "", backoff := false } []
  | backOff : Act g trg d0 d { d with backoff := true } []
  | report (inc : Incident) (hid : inc.id = g.newID .incident (d.incidentSeq + 1)) (htok : inc.tokenID = "")
      (hkind : inc.kind ≠ .action ∧ inc.kind ≠ .definitionDefect)
      (hfailed : inc.kind = .compensationFailed → WalkFailure d0 d trg inc) :
      Act g trg d0 d { d with incidents := d.incidents ++ [inc], incidentSeq := d.incidentSeq + 1 } []
  | retire (p : Incident → Bool)
      (hp : ∀ inc, p inc = false → inc.kind ≠ .action ∧ inc.kind ≠ .definitionDefect)
      (hfailed : ∀ inc, p inc = false → inc.kind = .compensationFailed → inc.commandID = d0.walk ∧ WalkRenews d0 trg) :
      Act g trg d0 d { d with incidents := d.incidents.filter p } []
  | finish (tokens : List Token) (cmds : List Command) (cuts : List Token) (exits : List (String × List Scope)) (st : Status)
      (htokens : (tokens = d.tokens ∧ cuts = d.cuts) ∨
        (tokens = [] ∧ d.cuts ⊆ cuts ∧ ∀ t ∈ d.tokens, t.awaitTimer ≠ "" → t ∈ cuts))
      (hcancel : ∀ id, id ≠ "" → id ∈ d.timers.map (·.timerID) ∨ id ∈ d.armedEvents.map (·.timerID) ∨
        id ∈ d.boundaries.map (·.timerID) ∨ id ∈ d.eventSubs.map (·.timerID) → Command.cancelTimer id ∈ cmds)
      (hcmds : ∃ terminal timers,
        cmds = (d.tasks.filter (·.isOpen)).map (fun t => .updateTask t.cancel) ++ terminal ++ timers ∧
        (∀ cmd ∈ terminal, cmd.Neutral) ∧ ∀ cmd ∈ timers, ∃ id, cmd = .cancelTimer id) :
      Act g trg d0 d { d with
        live := false, tokens := tokens, scopes := [], walk := "", backoff := false,
        finals := [.running, d.finals.getLastD .running], timers := [], armedEvents := [], boundaries := [],
        eventSubs := [], exits := exits, cuts := cuts, ends := st :: d.ends,
        tasks := d.tasks.map (fun t => if t.isOpen then t.cancel else t),
        incidents := d.incidents.filter (d.outlives tokens) } cmds
  | aim (finals : List Status) (h : ∀ st ∈ finals, st.Aborts) : Act g trg d0 d { d with finals := finals } []
  | reopen : Act g trg d0 d { d with live := true } []

/-- What an operation does, with its commands in some order. -/
inductive Acts (g : IDGenerator) (trg : TriggerBody) (d0 : Desk) : Desk → Desk → List Command → Prop
  | nil (d : Desk) : Acts g trg d0 d d []
  | cons {d d1 d2 : Desk} {cmds cmds' cmds'' : List Command} (h : Act g trg d0 d d1 cmds)
      (h' : Acts g trg d0 d1 d2 cmds') (hperm : (cmds ++ cmds').Perm cmds'') : Acts g trg d0 d d2 cmds''
  | stray {d : Desk} (h : ¬ d.Sane) (d' : Desk) (cmds : List Command) : Acts g trg d0 d d' cmds

end Wrkflw
