import Wrkflw.Store.Outbox

/-!
# The in-process bus

`publishOne` of the publisher (`eventing/publisher.go`) and the bus without a broker (`eventing/inprocess.go`), as steps that
any goroutines may interleave: a step is what one goroutine does under one lock or in one `select`.

* `Subscription` : the queue and the one-slot signal, with `append` and `signal` (the two halves of `push`) and `pop`;
* `InProcess`, `fanout`, `register`, `unregister` : what the bus keeps under its mutex;
* `publishOne` : from an outbox event to the subscriptions its envelope goes to;
* `DeliverLoop`, `Consumer.turn` : `deliver` and `dispatch`, one step at a time;
* `BusSystem.step` : the calls and the loops together.

The context of a consumer may be cancelled at any time. A handler may acknowledge, fail or panic, at every call as it likes.
-/

namespace Wrkflw

open Library

structure Envelope where
  id : String
  topic : String
  metadata : List (String × String)
  body : Json Value

structure Subscription where
  /-- `notify`: a signal is pending. -/
  notify : Bool := false
  /-- `cancel` is set: the subscription was created by `Start`. -/
  cancel : Bool
  queue : List Envelope := []

/-- `push`, under its lock. -/
def Subscription.append (s : Subscription) (env : Envelope) : Subscription := { s with queue := s.queue ++ [env] }

/-- `push`, after its lock: a signal that is already pending stays. -/
def Subscription.signal (s : Subscription) : Subscription := { s with notify := true }

def Subscription.pop (s : Subscription) : Option Envelope × Subscription :=
  match s.queue with
  | [] => (none, s)
  | env :: queue => (some env, { s with queue := queue })

/-! ## The bus -/

inductive BusError where
  | busClosed | noSubscription
  deriving DecidableEq, Repr

def BusError.text : BusError → String
  | .busClosed => "workflow-eventing: in-process bus closed"
  | .noSubscription => "workflow-eventing: no live subscription on topic"

/-- A subscription is known by its number. -/
structure InProcess where
  requireSubTopics : List String
  subs : String → List Nat
  closed : Bool
  seen : List String

def newInProcess (requireSubTopics : List String) : InProcess := ⟨requireSubTopics, fun _ => [], false, []⟩

def InProcess.requiresSubscription (b : InProcess) (topic : String) : Bool := b.requireSubTopics.contains topic

/-- `fanout` up to its pushes: the subscriptions to push to. -/
def InProcess.fanout (b : InProcess) (env : Envelope) : Except BusError (List Nat) :=
  if b.closed then .error .busClosed
  else
    let subs := b.subs env.topic
    let known := b.seen.contains env.topic
    if subs.length = 0 ∧ (known || b.requiresSubscription env.topic) = true then .error .noSubscription else .ok subs

def InProcess.register (b : InProcess) (topic : String) (s : Nat) : Except BusError InProcess :=
  if b.closed then .error .busClosed
  else
    .ok { b with
      subs := fun t => if t = topic then b.subs topic ++ [s] else b.subs t
      seen := if b.seen.contains topic then b.seen else b.seen ++ [topic] }

def InProcess.unregister (b : InProcess) (topic : String) (target : Nat) : InProcess :=
  { b with subs := fun t => if t = topic then (b.subs topic).erase target else b.subs t }

/-! ## Publishing -/

inductive PublishError where
  | marshal (err : String)
  | mint (err : String)
  | publish (topic : String) (err : BusError)
  deriving DecidableEq, Repr

def PublishError.text : PublishError → String
  | .marshal err => "workflow-eventing: marshal payload: " ++ err
  | .mint err => "workflow-eventing: mint envelope id: " ++ err
  | .publish topic err => "workflow-eventing: publish topic=" ++ quoted topic ++ ": " ++ err.text

/-- What a publish calls outside of the bus: `json.Marshal`, the generator of ids and the propagator of the trace context. -/
structure PublishPorts where
  marshal : Option Vars → Except String (Json Value)
  newID : Except String String
  inject : List (String × String) → List (String × String)

/-- `publishOne` up to `p.publish`. -/
def PublishPorts.envelope (p : PublishPorts) (ev : OutboxEvent) : Except PublishError Envelope :=
  match p.marshal ev.payload with
  | .error err => .error (.marshal err)
  | .ok payload =>
    let metadata := p.inject
      [("topic", ev.topic), ("instance_id", ev.instanceID), ("definition_ref", ev.definitionRef.toText)]
    if ev.dedupKey = "" then
      match p.newID with
      | .error err => .error (.mint err)
      | .ok generated => .ok ⟨generated, ev.topic, metadata, payload⟩
    else .ok ⟨ev.dedupKey, ev.topic, metadata, payload⟩

/-- `publishOne` up to the pushes of `fanout`: with no error it pushes the envelope to these subscriptions and returns nil. -/
def InProcess.publishOne (b : InProcess) (p : PublishPorts) (ev : OutboxEvent) : Except PublishError (Envelope × List Nat) :=
  match p.envelope ev with
  | .error err => .error err
  | .ok env =>
    match b.fanout env with
    | .error err => .error (.publish ev.topic err)
    | .ok subs => .ok (env, subs)

/-! ## Delivery -/

/-- Where a delivery loop stands. -/
inductive DeliverLoop where
  | popping
  /-- In the `select` of `deliver`, on an empty queue. -/
  | waiting
  /-- In a call of the handler. -/
  | handling (env : Envelope)
  /-- In the `select` of `dispatch`, after a nack. -/
  | pausing (env : Envelope)
  /-- `dispatch` returned nil: before `stopped`. -/
  | checking
  /-- `deliver` returned: before the deferred `unregister`. -/
  | leaving
  | gone

/-- A subscription with its loop, and what was queued for it and acknowledged by its handler so far. -/
structure Consumer where
  topic : String
  sub : Subscription
  ctxDone : Bool := false
  loop : DeliverLoop := .popping
  queued : List Envelope := []
  acked : List Envelope := []

inductive HandlerResult where
  | ack | nack | panics
  deriving DecidableEq, Repr

/-- What the next step of a loop picks where it can: the ready case of a `select`, or what the handler does. -/
inductive Pick where
  | run
  | ctxDone
  | done
  | notify
  | timer
  | handler (result : HandlerResult)
  deriving DecidableEq, Repr

/-- A step of `deliver` or `dispatch`, but for the `unregister`; none where the loop is blocked on the case. -/
def Consumer.turn (closed : Bool) (c : Consumer) (pick : Pick) : Option Consumer :=
  match c.loop, pick with
  | .popping, .run =>
    match c.sub.pop with
    | (none, _) => some { c with loop := .waiting }
    | (some env, sub) => some { c with loop := .handling env, sub := sub }
  | .waiting, .ctxDone => if c.ctxDone then some { c with loop := .leaving } else none
  | .waiting, .done => if closed then some { c with loop := .leaving } else none
  | .waiting, .notify => if c.sub.notify then some { c with loop := .popping, sub := { c.sub with notify := false } }
      else none
  | .handling env, .handler .ack => some { c with loop := .checking, acked := c.acked ++ [env] }
  | .handling env, .handler .nack => some { c with loop := .pausing env }
  | .handling _, .handler .panics => some { c with loop := .leaving }
  | .pausing _, .ctxDone => if c.ctxDone then some { c with loop := .leaving } else none
  | .pausing _, .done => if closed then some { c with loop := .checking } else none
  | .pausing env, .timer => some { c with loop := .handling env }
  | .checking, .run => some { c with loop := if c.ctxDone || closed then .leaving else .popping }
  | _, _ => none

/-! ## Everything at once -/

/-- A call that is past its first lock. -/
inductive BusCall where
  /-- `fanout`, before the next push. -/
  | pushing (env : Envelope) (rest : List Nat)
  /-- In a push to `i`, between the lock and the signal. -/
  | signalling (env : Envelope) (i : Nat) (rest : List Nat)
  /-- `Close`, with contexts of `Start` to cancel. -/
  | closing (rest : List Nat)

structure BusSystem where
  bus : InProcess
  consumers : List Consumer
  calls : List BusCall

def BusSystem.init (requireSubTopics : List String) : BusSystem := ⟨newInProcess requireSubTopics, [], []⟩

inductive BusEvent where
  | publish (p : PublishPorts) (ev : OutboxEvent)
  /-- `Subscribe`, or `Start`, up to its `register`. -/
  | subscribe (topic : String) (start : Bool)
  /-- The context of a subscription is cancelled: by its owner, or by the stop function. -/
  | cancel (i : Nat)
  | close
  /-- A call goes on. -/
  | call (k : Nat)
  | turn (i : Nat) (pick : Pick)

/-- The subscriptions `Close` cancels. -/
def BusSystem.cancels (s : BusSystem) : List Nat :=
  (List.range s.consumers.length).filter (fun i =>
    match s.consumers[i]? with
    | some c => c.sub.cancel && (s.bus.subs c.topic).contains i
    | none => false)

/-- A call takes its next step: what becomes of the call and of the consumers. -/
def BusSystem.advance (s : BusSystem) (k : Nat) : BusCall → BusSystem
  | .pushing _ [] => { s with calls := s.calls.eraseIdx k }
  | .pushing env (i :: rest) =>
    { s with
      consumers := s.consumers.modify i (fun c => { c with sub := c.sub.append env, queued := c.queued ++ [env] })
      calls := s.calls.set k (.signalling env i rest) }
  | .signalling env i rest =>
    { s with
      consumers := s.consumers.modify i (fun c => { c with sub := c.sub.signal })
      calls := s.calls.set k (.pushing env rest) }
  | .closing [] => { s with calls := s.calls.eraseIdx k }
  | .closing (i :: rest) =>
    { s with
      consumers := s.consumers.modify i (fun c => { c with ctxDone := true })
      calls := s.calls.set k (.closing rest) }

def BusSystem.step (s : BusSystem) : BusEvent → Option BusSystem
  | .publish p ev =>
    match s.bus.publishOne p ev with
    | .error _ => some s
    | .ok (env, subs) => some { s with calls := s.calls ++ [.pushing env subs] }
  | .subscribe topic start =>
    match s.bus.register topic s.consumers.length with
    | .error _ => some s
    | .ok bus => some { s with bus := bus, consumers := s.consumers ++ [{ topic := topic, sub := { cancel := start } }] }
  | .cancel i => some { s with consumers := s.consumers.modify i (fun c => { c with ctxDone := true }) }
  | .close =>
    if s.bus.closed then some s
    else some { s with bus := { s.bus with closed := true }, calls := s.calls ++ [.closing s.cancels] }
  | .call k =>
    match s.calls[k]? with
    | none => none
    | some call => some (s.advance k call)
  | .turn i pick =>
    match s.consumers[i]? with
    | none => none
    | some c =>
      match c.loop, pick with
      | .leaving, .run =>
        some { s with bus := s.bus.unregister c.topic i, consumers := s.consumers.set i { c with loop := .gone } }
      | _, _ =>
        match c.turn s.bus.closed pick with
        | none => none
        | some c' => some { s with consumers := s.consumers.set i c' }

end Wrkflw
