import Wrkflw.Runtime.System
import Wrkflw.Runtime.Waiters

/-!
# What follows a commit

The views a process keeps of an instance beside its stored state: the records of the task store, the registrations on
the signal bus and in the table of message waiters, and the activated timers. `deliverLoop`
(`runtime/processdriver.go`) writes them after each commit: `Activate` and `Deactivate`, `syncWaiters`
(`processdriver_waiters.go`), `performAwaitHuman` and `performUpdateTask` (`processdriver_action.go`). Nothing stands
between a commit and that work, so calls to one instance interleave there as well.

* `timerArms`, `timerCancels` : `timerJobsFor` (`timerops.go`);
* `PostCommit`, `Views.does` : one piece of the work, and what it does to the views;
* `ApplyCall`, `ViewedInstance` : the calls to one instance in one process, one step at a time.

The rows of the timers are written after the state, in one transaction where the store has them: there a write that
fails takes the commit back, and elsewhere the state and the rows before it stay. A task store, a signal bus and a
timer store are configured. What answers an action is any trigger.
-/

namespace Wrkflw

/-! ## Timers -/

/-- `convertTrigger` knows the kind. -/
def TriggerSpec.convertible (s : TriggerSpec) : Bool :=
  match s.kind with
  | .unset | .expr | .everyExpr => false
  | _ => true

/-- The timers a step arms, and whether each recurs. `due` says which triggers have a next run at the reading of the clock. -/
def timerArms (due : TriggerSpec → Bool) (cmds : List Command) : List (String × Bool) :=
  cmds.filterMap (fun cmd => match cmd with
    | .scheduleTimer timerID _ trigger _ =>
      if trigger.convertible && due trigger then some (timerID, trigger.recurring) else none
    | _ => none)

/-- The timers a step cancels. The one that fired goes with them, unless it recurs or its row cannot be read. -/
def timerCancels (rows : String → Option Bool) (determinable : Bool) (t : Trigger) (cmds : List Command) : List String :=
  cmds.filterMap (fun cmd => match cmd with
    | .cancelTimer timerID => some timerID
    | _ => none) ++
  match t.body with
  | .timerFired timerID => if determinable && !(rows timerID).getD false then [timerID] else []
  | _ => []

/-- The rows after a commit: the armed are saved, then the cancelled deleted. -/
def saveTimers (rows : String → Option Bool) (arms : List (String × Bool)) (cancels : List String) : String → Option Bool :=
  cancels.foldl (fun rows id => Function.update rows id none)
    (arms.foldl (fun rows arm => Function.update rows arm.1 (some arm.2)) rows)

/-! ## Views -/

structure Views where
  /-- The records of the task store. -/
  tasks : String → Option HumanTask := fun _ => none
  /-- The signals the bus has the instance registered for. -/
  signals : String → Bool := fun _ => false
  messages : MsgWaiters := fun _ => none
  /-- The timers that are activated. -/
  timers : String → Bool := fun _ => false

/-- The record `performAwaitHuman` writes: the fields the engine owns are those of the committed task. -/
def awaitRecord (now : Time) (st : InstanceState) (taskID : String) (eligibility : AuthzSpec) : HumanTask :=
  let task : HumanTask :=
    { taskID := taskID, instanceID := st.instanceID, nodeID := "", eligibility := eligibility,
      createdAt := now, vars := st.vars }
  match st.taskByID taskID with
  | some t =>
    { task with nodeID := t.nodeID, createdAt := t.createdAt, vars := t.vars, candidates := t.candidates, dueAt := t.dueAt }
  | none => task

/-- One piece of the work that follows a commit. -/
inductive PostCommit where
  | activate (timerID : String)
  | deactivate (timerID : String)
  | syncSignalBus
  | syncMsgWaiters
  | perform (cmd : Command)

/-- What follows the commit of a step, in its order. -/
def postCommit (arms : List (String × Bool)) (cancels : List String) (cmds : List Command) : List PostCommit :=
  arms.map (fun arm => .activate arm.1) ++ cancels.map .deactivate ++ [.syncSignalBus, .syncMsgWaiters] ++
    (cmds.filter (fun cmd => !cmd.ofTimer)).map .perform

/-- The work is done with the state the call committed. -/
def Views.does (v : Views) (now : Time) (st : InstanceState) : PostCommit → Views
  | .activate timerID => { v with timers := Function.update v.timers timerID true }
  | .deactivate timerID => { v with timers := Function.update v.timers timerID false }
  | .syncSignalBus => { v with signals := fun name => !st.status.isTerminal && st.signalWaiters.contains name }
  | .syncMsgWaiters => { v with messages := Wrkflw.syncMsgWaiters v.messages st }
  | .perform (.awaitHuman taskID eligibility) =>
    { v with tasks := Function.update v.tasks taskID (some (awaitRecord now st taskID eligibility)) }
  | .perform (.updateTask task) => { v with tasks := Function.update v.tasks task.taskID (some task) }
  | .perform _ => v

/-! ## Calls -/

inductive ApplyStage where
  | load
  | iterate (st : InstanceState) (token : Option Nat) (queue : List Trigger)
  | postCommit (st : InstanceState) (token : Option Nat) (queue : List Trigger) (todo : List PostCommit)
  | done (ok : Bool)

/-- One call to the instance. Its token is the version it goes by; one that creates the instance has none. -/
structure ApplyCall (gen : Option IDGenerator) where
  driver : ProcessDriver gen
  definition : ProcessDefinition
  trigger : Trigger
  retries : Nat := 0
  stage : ApplyStage

structure ViewedInstance (gen : Option IDGenerator) where
  instanceID : String
  /-- The stored state and its version. -/
  stored : Option (InstanceState × Nat) := none
  timerRows : String → Option Bool := fun _ => none
  views : Views := {}
  calls : List (ApplyCall gen) := []

/-- What the world outside answers during one transition. -/
structure Tick where
  now : Time
  fuel : Nat := 0
  /-- What performing the command answers. -/
  next : Option Trigger := none
  /-- A write of the commit, the activation or the performing fails. -/
  fails : Bool := false
  /-- How many of the timer writes were made before one failed, in a store that does not roll back. -/
  kept : Option Nat := none
  due : TriggerSpec → Bool := fun _ => true
  determinable : Bool := true

inductive ViewChoice (gen : Option IDGenerator) where
  | create (driver : ProcessDriver gen) (d : ProcessDefinition) (trg : Trigger)
  | apply (driver : ProcessDriver gen) (d : ProcessDefinition) (trg : Trigger) (retrying : Bool)
  | advance (i : Nat) (w : Tick)

section Calls
variable {gen : Option IDGenerator}

/-- A lost commit is tried again while attempts are left. -/
def ApplyCall.loses (c : ApplyCall gen) : ApplyCall gen :=
  match c.retries with
  | 0 => { c with stage := .done false }
  | n + 1 => { c with retries := n, stage := .load }

namespace ViewedInstance
variable (y : ViewedInstance gen)

def version : Option Nat := y.stored.map (·.2)

/-- The last committed state; before any, an instance that has only its id. -/
def state : InstanceState := (y.stored.map (·.1)).getD { instanceID := y.instanceID }

/-- The head of the queue is stepped and the result committed, if nobody else committed since. -/
def iterate (c : ApplyCall gen) (w : Tick) (st : InstanceState) (token : Option Nat) (t : Trigger) (queue : List Trigger) :
    Option (ViewedInstance gen × ApplyCall gen) :=
  match c.driver.prepare w.fuel c.definition st t with
  | none => none
  | some (.error _) => some (y, { c with stage := .done false })
  | some (.ok (r, _)) =>
    let version := token.getD 0 + 1
    let arms := timerArms w.due r.commands
    let cancels := timerCancels y.timerRows w.determinable t r.commands
    if token ≠ y.version then some (y, c.loses)
    else if w.fails then
      match w.kept with
      | none => some (y, { c with stage := .done false })
      | some n =>
        some ({ y with
                stored := some (r.state, version)
                timerRows := saveTimers y.timerRows (arms.take n) (cancels.take (n - arms.length)) },
          { c with stage := .done false })
    else
      some ({ y with stored := some (r.state, version), timerRows := saveTimers y.timerRows arms cancels },
        { c with stage := .postCommit r.state (some version) queue (Wrkflw.postCommit arms cancels r.commands) })

/-- One piece of the work. An activation that fails, or is not due any more, is logged; a failed command ends the call. -/
def work (c : ApplyCall gen) (w : Tick) (st : InstanceState) (token : Option Nat) (queue : List Trigger) (item : PostCommit)
    (todo : List PostCommit) : ViewedInstance gen × ApplyCall gen :=
  match item, w.fails with
  | .perform _, true => (y, { c with stage := .done false })
  | .activate _, true | .deactivate _, true => (y, { c with stage := .postCommit st token queue todo })
  | item, _ =>
    let next := match item with
      | .perform cmd => if cmd.answers then w.next.toList else []
      | _ => []
    ({ y with views := y.views.does w.now st item }, { c with stage := .postCommit st token (queue ++ next) todo })

/-- What a call does next. -/
def advance (c : ApplyCall gen) (w : Tick) : Option (ViewedInstance gen × ApplyCall gen) :=
  match c.stage with
  | .load =>
    match y.stored with
    | none => some (y, { c with stage := .done false })
    | some (st, version) => some (y, { c with stage := .iterate st (some version) [c.trigger] })
  | .iterate _ _ [] => some (y, { c with stage := .done true })
  | .iterate st token (t :: queue) => y.iterate c w st token t queue
  | .postCommit st token queue [] => some (y, { c with stage := .iterate st token queue })
  | .postCommit st token queue (item :: todo) => some (y.work c w st token queue item todo)
  | .done _ => none

def next (choice : ViewChoice gen) : Option (ViewedInstance gen) :=
  match choice with
  | .create driver d trg =>
    some { y with calls := y.calls ++ [{ driver := driver, definition := d, trigger := trg,
                                         stage := .iterate { instanceID := y.instanceID } none [trg] }] }
  | .apply driver d trg retrying =>
    some { y with calls := y.calls ++ [{ driver := driver, definition := d, trigger := trg,
                                         retries := if retrying then casRetryAttempts - 1 else 0, stage := .load }] }
  | .advance i w => do
    let c ← y.calls[i]?
    let (z, c') ← y.advance c w
    return { z with calls := y.calls.set i c' }

end ViewedInstance

end Calls

end Wrkflw
