import Wrkflw.Runtime.Waiters
import Wrkflw.Scheduler.Trigger
import Wrkflw.Store.Outbox

/-!
# Timer starts

`RehydrateStartTimers` (`runtime/timerops.go`): the timer starts of the newest definitions are armed on the scheduler, each
under an id made of its definition's id and version and its node's id. The scheduler's table of armed jobs has one job for
an id (`Activate` of `scheduler/scheduler.go`).

* `startTimerID` : the id;
* `timerStartDefs` : the timer starts (`runtime/event_start.go`);
* `rehydrateStartTimers` : `RehydrateStartTimers`;
* `StartTimers.step` : registrations, calls of it and fires of the jobs, in one process.
-/

namespace Wrkflw

/-- `startTimerID`. -/
def startTimerID (defID : String) (version : Int) (nodeID : String) : String :=
  "start-timer:" ++ defID ++ ":" ++ toString version ++ ":" ++ nodeID

/-- `timerStartHit`. -/
structure TimerStartHit where
  defn : ProcessDefinition
  nodeID : String
  trigger : TriggerSpec

def TimerStartHit.timerID (hit : TimerStartHit) : String := startTimerID hit.defn.id hit.defn.version hit.nodeID

/-- The start events of a definition that have a timer. -/
def ProcessDefinition.timerStarts (d : ProcessDefinition) : List TimerStartHit :=
  d.startNodes.filterMap (fun n =>
    match n.spec with
    | .startEvent e => if e.timer.isZero then none else some ⟨d, n.id, e.timer⟩
    | _ => none)

def timerStartDefs (defs : List ProcessDefinition) : List TimerStartHit := (latestPerID defs).flatMap (·.timerStarts)

/-- The armed jobs, by id. -/
abbrev ArmedStarts := String → Option TimerStartHit

/-- What the arms of one call meet: the clock readings of the driver and of the scheduler for the `i`-th of them, whether the
scheduler is closed then, and whether the engine below it takes the job. -/
structure ArmEnv where
  cronNext : String → Scheduler.Zone → Time → Option Time
  zone : Scheduler.Zone
  now : Nat → Time
  schedulerNow : Nat → Time
  closed : Nat → Bool
  accepts : Nat → Bool

/-- `neverDueNextRun`. -/
def neverDueNextRun (next : Option Time) : Bool :=
  match next with
  | none => true
  | some next => isZeroTime next

/-- `scheduleStartTimerJob`, up to the scheduler's table: whether the job is armed. -/
def ArmEnv.schedules (env : ArmEnv) (i : Nat) (hit : TimerStartHit) : Bool :=
  match Scheduler.convertTrigger hit.trigger with
  | none => false
  | some trigger =>
    if neverDueNextRun (trigger.next env.cronNext env.zone (env.now i)) then false
    else !env.closed i && (trigger.next env.cronNext env.zone (env.schedulerNow i)).isSome && env.accepts i

/-- `armStartTimer`: an armed job takes the place of the one under its id. -/
def armStartTimer (env : ArmEnv) (armed : ArmedStarts) (i : Nat) (hit : TimerStartHit) : ArmedStarts :=
  if env.schedules i hit then fun id => if id = hit.timerID then some hit else armed id else armed

def armStartTimers (env : ArmEnv) : List TimerStartHit → Nat → ArmedStarts → ArmedStarts
  | [], _, armed => armed
  | hit :: hits, i, armed => armStartTimers env hits (i + 1) (armStartTimer env armed i hit)

/-- `RehydrateStartTimers`, of a registry that lists its definitions. -/
def rehydrateStartTimers (env : ArmEnv) (defs : List ProcessDefinition) (armed : ArmedStarts) : ArmedStarts :=
  armStartTimers env (timerStartDefs defs) 0 armed

/-- No timer start is skipped. -/
def ArmEnv.ArmsAll (env : ArmEnv) (defs : List ProcessDefinition) : Prop :=
  ∀ hit ∈ (timerStartDefs defs).zipIdx, env.schedules hit.2 hit.1 = true

instance (env : ArmEnv) (defs : List ProcessDefinition) : Decidable (env.ArmsAll defs) :=
  inferInstanceAs (Decidable (∀ hit ∈ (timerStartDefs defs).zipIdx, env.schedules hit.2 hit.1 = true))

/-! ## One process -/

/-- The registered definitions and the armed jobs. -/
structure StartTimers where
  defs : List ProcessDefinition := []
  armed : ArmedStarts := fun _ => none
  /-- What the last call was given, where it skipped no timer start; no transition reads it. -/
  seen : Option (List ProcessDefinition) := none

inductive StartTimersEvent where
  | register (d : ProcessDefinition)
  /-- `RehydrateStartTimers`, with what `ListDefinitions` gives. -/
  | rehydrate (env : ArmEnv) (listed : List ProcessDefinition)
  /-- A job fires, and leaves the table where it was its last time. -/
  | fire (id : String) (ended : Bool)

def StartTimers.step (u : UnicodeTables) (x : StartTimers) : StartTimersEvent → Option StartTimers
  | .register d =>
    match validateDefinition u d with
    | .error _ => some x
    | .ok () => if x.defs.any (fun o => o.qualifier == d.qualifier) then some x else some { x with defs := x.defs ++ [d] }
  | .rehydrate env listed =>
    some { x with
      armed := rehydrateStartTimers env listed x.armed
      seen := if env.ArmsAll listed then some listed else none }
  | .fire id ended =>
    match x.armed id with
    | none => none
    | some _ => some { x with armed := fun k => if k = id ∧ ended = true then none else x.armed k }

end Wrkflw
