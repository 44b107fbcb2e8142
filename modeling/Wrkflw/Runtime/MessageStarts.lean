import Wrkflw.Library.Runs
import Wrkflw.Runtime.System
import Wrkflw.Runtime.Waiters

/-!
# Message starts

`DeliverMessage` and `messageStartInstanceID` (`runtime/processdriver_message.go`) beside the calls of the driver. A message
goes to the instance that waits for it, or starts one: under an id made of the message's name and key, or under a fresh one.

A `Mailroom` is the system with a record of the deliveries that came to start an instance, which no transition reads. What a
driver's table of waiters and the registry hold at a delivery is part of the choice, as is what the id generator gives; the
hexadecimal digest of SHA-256 is a parameter.
-/

namespace Wrkflw

variable {gen : Option IDGenerator}

/-- What is hashed. -/
def messageStartInput (name correlationKey : String) : String := name ++ "\x00" ++ correlationKey

def messageStartInstanceID (sha256Hex : String → String) (name correlationKey : String) : String :=
  "msgstart-" ++ sha256Hex (messageStartInput name correlationKey)

def messageStartIsSingleton (d : ProcessDefinition) (nodeID : String) : Bool :=
  match d.node nodeID with
  | none => false
  | some n =>
    match n.spec with
    | .startEvent e => e.messageStartSingleton
    | _ => false

/-- The id a message start is given; none where a fresh one is minted. -/
def messageStartID (sha256Hex : String → String) (d : ProcessDefinition) (nodeID name correlationKey : String) :
    Option String :=
  if correlationKey ≠ "" then some (messageStartInstanceID sha256Hex name correlationKey)
  else if messageStartIsSingleton d nodeID then some (messageStartInstanceID sha256Hex name "")
  else none

/-- A delivery that starts an instance under an id of its own making; `place` is that of its call. -/
structure MessageStart where
  name : String
  key : String
  id : String
  place : Nat
  deriving DecidableEq, Repr

structure Mailroom (gen : Option IDGenerator) where
  system : System gen
  starts : List MessageStart := []

/-- What a delivery finds. -/
structure MessageEnv (gen : Option IDGenerator) where
  driver : ProcessDriver gen
  admitted : Bool := true
  waiters : MsgWaiters := fun _ => none
  defs : List ProcessDefinition := []
  /-- `resolveInstanceDef` of the instance that waits. -/
  resolved : Option ProcessDefinition := none
  /-- `idgen.NewID`. -/
  newID : Option String := none
  now : Time

inductive Posting (gen : Option IDGenerator) where
  | system (choice : Choice gen)
  | deliver (env : MessageEnv gen) (name correlationKey : String) (payload : Vars)

/-- A call of the driver begins. -/
def Mailroom.begins (x : Mailroom gen) (c : Delivery gen) : Mailroom gen :=
  { x with system := { x.system with calls := x.system.calls ++ [c] } }

/-- `DeliverMessage`, up to the call it makes; a delivery that returns at once leaves all as it is. -/
def Mailroom.deliver (sha256Hex : String → String) (x : Mailroom gen) (env : MessageEnv gen) (name correlationKey : String)
    (payload : Vars) : Mailroom gen :=
  if !env.admitted then x
  else match deliverMessage env.waiters env.defs name correlationKey with
    | .noop | .ambiguous => x
    | .correlate instanceID =>
      match env.resolved with
      | none => x
      | some d => x.begins (.apply env.driver d instanceID ⟨env.now, .messageReceived name correlationKey payload⟩ false)
    | .start d nodeID =>
      match messageStartID sha256Hex d nodeID name correlationKey with
      | some id =>
        { x.begins (.create env.driver d id ⟨env.now, .startInstance payload nodeID⟩ 0 none) with
          starts := x.starts ++ [⟨name, correlationKey, id, x.system.calls.length⟩] }
      | none =>
        match env.newID with
        | none => x
        | some id => x.begins (.create env.driver d id ⟨env.now, .startInstance payload nodeID⟩ 0 none)

def Mailroom.step (sha256Hex : String → String) (x : Mailroom gen) : Posting gen → Option (Mailroom gen)
  | .system choice => (x.system.step choice).map (fun y => { x with system := y })
  | .deliver env name correlationKey payload => some (x.deliver sha256Hex env name correlationKey payload)

/-- What `DeliverMessage` returns of a start's call under an id of its own making: an instance that exists is no error. -/
def startResult : Except DriverError InstanceState → Except DriverError Unit
  | .ok _ => .ok ()
  | .error e => if e.sentinel = some .instanceExists then .ok () else .error e

/-- Before any call. -/
def Mailroom.blank (links : Option MemCallLinks) : Mailroom gen where
  system := System.blank links

end Wrkflw
