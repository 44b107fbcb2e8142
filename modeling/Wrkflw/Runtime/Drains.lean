import Wrkflw.Machine.Faults
import Wrkflw.Runtime.Notifier

/-!
# Drains of the call notifiers

`CallNotifier.DrainOnce` (`runtime/calllink/notifier.go`), any number of times at once, beside the calls of the driver, over
the claims of a store with or without a lease (`ClaimPending` and `MarkNotified` of `runtime/kernel/mem_calllink.go`).

A `Drain` is one running `DrainOnce`. It claims a batch, then takes its links one after the other: the definition is looked
up, the trigger goes to the parent through a call of `ApplyTrigger`, and the link is marked when the call has returned and
what it returned allows it. A drain may stop for good between any two of these.

`told` is a record of what the live instances were told of their children's ends, which no transition reads.
-/

namespace Wrkflw

variable {gen : Option IDGenerator}

/-! ## Claims -/

/-- The link can be claimed; without a lease every pending one can. -/
def MemLink.claimable (leaseTTL : Duration) (claimedAt : String → Time) (now : Time) (l : MemLink) : Bool :=
  l.terminal && !l.notified && (decide (leaseTTL ≤ 0) || isZeroTime (claimedAt l.link.childInstanceID) ||
    decide (claimedAt l.link.childInstanceID ≤ now - leaseTTL))

/-- `ClaimPending` over the order in which the map is walked. -/
def claimFrom (leaseTTL : Duration) (claimedAt : String → Time) (now : Time) (limit : Int) (order : List MemLink) :
    List MemLink :=
  let eligible := order.filter (·.claimable leaseTTL claimedAt now)
  if limit > 0 then eligible.take limit.toNat else eligible

/-- The stamps of the links that were claimed. -/
def stampClaims (leaseTTL : Duration) (now : Time) (claimed : List MemLink) (claimedAt : String → Time) : String → Time :=
  if leaseTTL ≤ 0 then claimedAt
  else claimed.foldl (fun stamps l => MemInstanceStore.put stamps l.link.childInstanceID now) claimedAt

/-! ## Drains -/

structure Drain where
  pending : List PendingNotify := []
  /-- The link that is delivered, and the place of its call. -/
  current : Option (PendingNotify × Nat) := none

structure Notifiers (gen : Option IDGenerator) where
  system : System gen
  leaseTTL : Duration := 0
  claimedAt : String → Time := fun _ => 0
  drains : List Drain := []
  told : List (String × String) := []

/-- What may happen next. -/
inductive NotifierStep (gen : Option IDGenerator) where
  /-- A call begins or goes on. -/
  | system (choice : Choice gen)
  /-- A drain begins: it claims a batch. -/
  | claim (order : List MemLink) (limit : Int) (now : Time)
  /-- The definition is not found, or the driver is shutting down. -/
  | skip (k : Nat)
  | deliver (k : Nat) (driver : ProcessDriver gen) (d : ProcessDefinition) (now : Time)
  /-- The delivery has returned. -/
  | settle (k : Nat)
  | crash (k : Nat)

/-- The link is marked: the parent was told, or no token waits for the child. -/
def notifies : Except DriverError InstanceState → Bool
  | .ok _ => true
  | .error e => e.kind == some .tokenNotFound

/-- The transition is a drain's. -/
def Choice.marks : Choice gen → Bool
  | .markNotified _ => true
  | _ => false

/-- The children's ends that a transition of a call stored with a live instance. -/
def System.toldTo (y z : System gen) (i : Nat) : List (String × String) :=
  match y.calls[i]? with
  | none => []
  | some c =>
    match y.store.instances c.instanceID with
    | none => []
    | some inst =>
      if inst.state.status.isTerminal then []
      else
        let stored := (z.store.journal c.instanceID).drop (y.store.journal c.instanceID).length
        stored.filterMap (fun t => t.body.childCommand.map (fun commandID => (c.instanceID, commandID)))

def System.newTold (y z : System gen) : Choice gen → List (String × String)
  | .advance i _ => y.toldTo z i
  | _ => []

namespace Notifiers
variable (x : Notifiers gen)

/-- The drain that stands at a place goes on. -/
def setDrain (k : Nat) (drain : Drain) : Notifiers gen := { x with drains := x.drains.set k drain }

def step : NotifierStep gen → Option (Notifiers gen)
  | .system choice =>
    if choice.marks then none
    else (x.system.step choice).map (fun z => { x with system := z, told := x.told ++ x.system.newTold z choice })
  | .claim order limit now =>
    if order.isPerm (x.system.store.callLinks.getD []) then
      let claimed := claimFrom x.leaseTTL x.claimedAt now limit order
      some { x with
        claimedAt := stampClaims x.leaseTTL now claimed x.claimedAt
        drains := x.drains ++ [{ pending := claimed.map (fun l => ⟨l.link, l.outcome⟩) }] }
    else none
  | .skip k =>
    match x.drains[k]? with
    | some ⟨_ :: rest, none⟩ => some (x.setDrain k ⟨rest, none⟩)
    | _ => none
  | .deliver k driver d now =>
    match x.drains[k]? with
    | some ⟨p :: rest, none⟩ =>
      (x.system.step (.apply driver d p.link.parentInstanceID (p.trigger now) false)).map (fun z =>
        { x.setDrain k ⟨rest, some (p, x.system.calls.length)⟩ with system := z })
    | _ => none
  | .settle k =>
    match x.drains[k]? with
    | some ⟨rest, some (p, i)⟩ =>
      match x.system.calls[i]?.map Delivery.stage with
      | some (Stage.done result) =>
        if notifies result then
          (x.system.step (.markNotified p.link.childInstanceID)).map (fun z => { x.setDrain k ⟨rest, none⟩ with system := z })
        else some (x.setDrain k ⟨rest, none⟩)
      | _ => none
    | _ => none
  | .crash k => some (x.setDrain k {})

end Notifiers

/-- The steps lead from one system to the other. -/
abbrev Notifiers.Runs (x : Notifiers gen) : List (NotifierStep gen) → Notifiers gen → Prop :=
  Library.Runs Notifiers.step (fun _ _ => True) x

/-- Before any call, with a call-link store. -/
def Notifiers.blank (leaseTTL : Duration) : Notifiers gen where
  system := System.blank (some [])
  leaseTTL := leaseTTL

end Wrkflw
