import Wrkflw.Eventing.InProcess
import Wrkflw.Library.Runs
import Wrkflw.Runtime.System

/-!
# Chaining

When an instance ends, an event says so, and the chainer starts a successor (`runtime/chain/chainer.go`,
`eventing/chaining.go`, `runtime/kernel/chainlink.go`): the policy names its definition and variables, the hop is recorded
among the chain links, and the driver starts the instance under an id made of the predecessor's. Events come any number of
times, and a delivery that returns an error is delivered again.

A `ChainRoom` is the system of driver calls with the links and the deliveries that came to a successor, transition by
transition; a delivery may stop for good at any of them. What the policy answers is part of the choice.
-/

namespace Wrkflw

open Library

variable {gen : Option IDGenerator}

inductive ChainOutcome where
  | completed | failed | terminated
  deriving DecidableEq, Repr

def ChainOutcome.toText : ChainOutcome → String
  | .completed => "completed"
  | .failed => "failed"
  | .terminated => "terminated"

structure ChainEvent where
  predecessorID : String
  predecessorDefinitionRef : Qualifier
  outcome : ChainOutcome
  result : Option Vars

structure ChainLink where
  predecessorID : String
  predecessorDefinitionRef : Qualifier
  outcome : ChainOutcome
  successorID : String
  successorDefinitionRef : Qualifier
  startVars : Vars
  createdAt : Time

structure SuccessorDecision where
  definition : ProcessDefinition
  vars : Vars

def successorID (predecessorID : String) (outcome : ChainOutcome) : String := predecessorID ++ "-next-" ++ outcome.toText

/-! ## From an envelope to an event -/

/-- `chainTopics`. -/
def chainOutcomeOf (topic : String) : Option ChainOutcome :=
  if topic == "instance.completed" then some .completed
  else if topic == "instance.failed" then some .failed
  else if topic == "instance.terminated" then some .terminated
  else none

/-- The value a metadata key has, the empty text if it is missing. -/
def Envelope.meta (env : Envelope) (key : String) : String := (env.metadata.lookup key).getD ""

def envelopeTopic (env : Envelope) : String := if env.topic != "" then env.topic else env.meta "topic"

/-- `NewChainHandler` up to the core; nothing for an envelope that is acknowledged at once. -/
def chainEventOf (env : Envelope) : Option ChainEvent :=
  match chainOutcomeOf (envelopeTopic env) with
  | none => none
  | some outcome =>
    match unmarshalPayload env.body with
    | .error _ => none
    | .ok result =>
      some {
        predecessorID := env.meta "instance_id"
        predecessorDefinitionRef := match parseQualifier (env.meta "definition_ref") with
          | .ok q => q
          | .error _ => { id := "" }
        outcome := outcome
        result := result }

/-! ## The core -/

inductive ChainStage where
  /-- The policy has named a successor. -/
  | decided
  /-- The hop is recorded, or no links are kept. -/
  | recorded
  | driving
  | acked
  | nacked
  deriving DecidableEq, Repr

/-- A delivery for which the policy named a successor. -/
structure Handling where
  event : ChainEvent
  decision : SuccessorDecision
  stage : ChainStage := .decided
  /-- The place of its call among those of the driver. -/
  place : Option Nat := none

namespace Handling

/-- What the links are keyed by. -/
def hop (a : Handling) : String × ChainOutcome := (a.event.predecessorID, a.event.outcome)

def successor (a : Handling) : String := successorID a.event.predecessorID a.event.outcome

def link (a : Handling) (now : Time) : ChainLink where
  predecessorID := a.event.predecessorID
  predecessorDefinitionRef := a.event.predecessorDefinitionRef
  outcome := a.event.outcome
  successorID := a.successor
  successorDefinitionRef := a.decision.definition.qualifier
  startVars := a.decision.vars
  createdAt := now

end Handling

def ChainLink.hop (l : ChainLink) : String × ChainOutcome := (l.predecessorID, l.outcome)

/-- `Record`: the first link of a hop stays. -/
def recordLink (links : List ChainLink) (l : ChainLink) : List ChainLink :=
  if links.any (fun l' => l'.hop == l.hop) then links else links ++ [l]

structure ChainRoom (gen : Option IDGenerator) where
  system : System gen
  /-- Nothing where no link store is set. -/
  links : Option (List ChainLink)
  handlings : List Handling := []

inductive ChainChoice (gen : Option IDGenerator) where
  | system (choice : Choice gen)
  | deliver (env : Envelope) (decision : Option SuccessorDecision)
  /-- The link of delivery `i` is recorded, or the link store fails. -/
  | record (i : Nat) (now : Time) (fails : Bool)
  /-- `Drive` for delivery `i`, unless the driver shuts down. -/
  | drive (i : Nat) (driver : ProcessDriver gen) (now : Time) (admitted : Bool)
  /-- `Drive` has returned. -/
  | finish (i : Nat)
  /-- `PruneChainLinks`. -/
  | pruneChainLinks (cutoff : Time)

/-- What `Handle` makes of what `Drive` returned. -/
def chainStageOf : Except DriverError InstanceState → ChainStage
  | .ok _ => .acked
  | .error e => if e.sentinel = some .instanceExists then .acked else .nacked

namespace ChainRoom
variable (x : ChainRoom gen)

def deliver (env : Envelope) (decision : Option SuccessorDecision) : ChainRoom gen :=
  match chainEventOf env, decision with
  | some event, some decision => { x with handlings := x.handlings ++ [{ event := event, decision := decision }] }
  | _, _ => x

def record (i : Nat) (a : Handling) (now : Time) (fails : Bool) : ChainRoom gen :=
  match x.links with
  | none => { x with handlings := x.handlings.set i { a with stage := .recorded } }
  | some links =>
    if fails then { x with handlings := x.handlings.set i { a with stage := .nacked } }
    else { x with links := some (recordLink links (a.link now)),
                  handlings := x.handlings.set i { a with stage := .recorded } }

def drive (i : Nat) (a : Handling) (driver : ProcessDriver gen) (now : Time) (admitted : Bool) : ChainRoom gen :=
  if admitted then
    { x with
      system.calls := x.system.calls ++
        [.create driver a.decision.definition a.successor ⟨now, .startInstance a.decision.vars ""⟩ 0 none]
      handlings := x.handlings.set i { a with stage := .driving, place := some x.system.calls.length } }
  else { x with handlings := x.handlings.set i { a with stage := .nacked } }

/-- What the call of a delivery has returned. -/
def returned (a : Handling) : Option (Except DriverError InstanceState) :=
  match a.place.bind (fun p => x.system.calls[p]?) with
  | some c =>
    match c.stage with
    | .done result => some result
    | _ => none
  | none => none

def step : ChainChoice gen → Option (ChainRoom gen)
  | .system choice => (x.system.step choice).map (fun y => { x with system := y })
  | .deliver env decision => some (x.deliver env decision)
  | .record i now fails =>
    match x.handlings[i]? with
    | some a => if a.stage = .decided then some (x.record i a now fails) else none
    | none => none
  | .drive i driver now admitted =>
    match x.handlings[i]? with
    | some a => if a.stage = .recorded then some (x.drive i a driver now admitted) else none
    | none => none
  | .finish i =>
    match x.handlings[i]? with
    | some a =>
      if a.stage = .driving then
        (x.returned a).map (fun result => { x with handlings := x.handlings.set i { a with stage := chainStageOf result } })
      else none
    | none => none
  | .pruneChainLinks cutoff =>
    some { x with links := x.links.map (fun links => links.filter (fun l => decide (cutoff ≤ l.createdAt))) }

end ChainRoom

/-- Before any call, with links kept or not. -/
def ChainRoom.blank (callLinks : Option MemCallLinks) (recording : Bool) : ChainRoom gen where
  system := System.blank callLinks
  links := if recording then some [] else none

end Wrkflw
