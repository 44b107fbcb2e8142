import Wrkflw.Library.Runs
import Wrkflw.Runtime.System

/-!
# The call notifier

`CallNotifier.DrainOnce` (`runtime/calllink/notifier.go`) beside the calls of the driver: a notifier claims the links of
children that have ended and delivers what their links say to the parents.

An `Exchange` is the system with what the notifiers have claimed. Its `ends` is a record of each end an instance was ever
stored with, which no transition reads. Any number of notifiers may run; what one has claimed it may deliver at any later
time, or several times, as a drain that is tried again does. The triggers of a child's end come from here and from the
loop itself, never from a caller.
-/

namespace Wrkflw

variable {gen : Option IDGenerator}

/-- The trigger a parent is sent for a claimed link. -/
def PendingNotify.trigger (now : Time) (p : PendingNotify) : Trigger :=
  if p.outcome.completed then ⟨now, .subInstanceCompleted p.link.parentCommandID p.outcome.output⟩
  else ⟨now, .subInstanceFailed p.link.parentCommandID p.outcome.err⟩

/-- The trigger tells a parent of its child's end. -/
def TriggerBody.ofChild : TriggerBody → Bool
  | .subInstanceCompleted .. | .subInstanceFailed .. => true
  | _ => false

/-- A caller sends a trigger that is not its own. -/
def Choice.forges : Choice gen → Bool
  | .apply _ _ _ trg _ => trg.body.ofChild
  | _ => false

structure Exchange (gen : Option IDGenerator) where
  system : System gen
  claimed : List PendingNotify := []
  ends : List (String × Status) := []

inductive Errand (gen : Option IDGenerator) where
  | system (choice : Choice gen)
  /-- `ClaimPending`. -/
  | claim (limit : Int)
  /-- The parent of a claimed link is told, through a driver's `ApplyTrigger`. -/
  | notify (driver : ProcessDriver gen) (d : ProcessDefinition) (p : PendingNotify) (now : Time) (retrying : Bool)

/-- How the instance of a call is stored, if it has ended. -/
def System.endOf (y : System gen) (i : Nat) : List (String × Status) :=
  match y.calls[i]? with
  | none => []
  | some c =>
    match y.store.instances c.instanceID with
    | none => []
    | some inst => if inst.state.status.isTerminal then [(c.instanceID, inst.state.status)] else []

/-- The ends that a choice leaves on record. -/
def System.newEnds (z : System gen) : Choice gen → List (String × Status)
  | .advance i _ => z.endOf i
  | _ => []

def Exchange.step (x : Exchange gen) : Errand gen → Option (Exchange gen)
  | .system choice =>
    if choice.forges then none
    else (x.system.step choice).map (fun z => { x with system := z, ends := x.ends ++ z.newEnds choice })
  | .claim limit => some { x with claimed := x.claimed ++ (x.system.store.callLinks.getD []).claimPending limit }
  | .notify driver d p now retrying =>
    if p ∈ x.claimed then
      (x.system.step (.apply driver d p.link.parentInstanceID (p.trigger now) retrying)).map (fun z => { x with system := z })
    else none

/-- The errands lead from one exchange to the other, and each meets a condition on the exchange it is made in. -/
abbrev Exchange.Runs (P : Exchange gen → Errand gen → Prop) (x : Exchange gen) : List (Errand gen) → Exchange gen → Prop :=
  Library.Runs Exchange.step P x

/-- Before any call, with a call-link store. -/
def Exchange.blank : Exchange gen where
  system := System.blank (some [])

end Wrkflw
