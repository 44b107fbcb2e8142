import Wrkflw.Library.Session

/-!
# The leader electors

`PostgresElector` and `MySQLElector` (`scheduler/internal/gocron/pgelector/elector.go`, `myelector/mysql_elector.go`):
each contends for one advisory lock on one connection it keeps for its lifetime.

* `Elector` : the connection's session, the sticky flag and the callback's goroutine;
* `Elector.next` : one critical section of a call, of the heartbeat or of that goroutine;
* `electorsStep` : any number of electors on one key.

A call fails on a severed connection. On a live one it works or fails, and one that fails may have reached the server.
The key's hash stands for the key.
-/

namespace Wrkflw

open Library (Session Reply)

inductive ElectorDialect where
  | postgres | mysql
  deriving DecidableEq

/-- The goroutine of the callback; `acquiring` is set until it has cleared it. -/
inductive CallbackStage where
  | idle | launched | running | returned
  deriving DecidableEq

structure Elector where
  dialect : ElectorDialect := .postgres
  key : String
  /-- A callback is registered. -/
  onAcquire : Bool := false
  session : Session String := {}
  isLeader : Bool := false
  closed : Bool := false
  /-- The connection is back in the pool. -/
  released : Bool := false
  callback : CallbackStage := .idle

inductive ElectorChoice where
  | isLeader (reply : Reply)
  | heartbeat (reply : Reply)
  | callbackBegins
  | callbackReturns
  | callbackClears
  | close
  | finishClose (reply : Reply)
  | sever

namespace Elector
variable (e : Elector)

def acquiring : Bool := e.callback != .idle

/-- `fireOnAcquireLocked`. -/
def fireOnAcquire : Elector := if !e.onAcquire || e.acquiring then e else { e with callback := .launched }

/-- `IsLeader`; `free` says that no other session holds the lock. -/
def tryLead (free : Bool) (reply : Reply) : Elector :=
  if e.closed then e
  else if e.isLeader then e
  else
    let granted := e.session.granted e.key free
    let e1 := if e.session.reached reply && granted then { e with session := e.session.lock e.key } else e
    if e.session.answered reply && granted then { e1 with isLeader := true }.fireOnAcquire else e1

/-- `revalidate`: a ping that fails steps the elector down. -/
def revalidate (reply : Reply) : Elector :=
  if e.closed || !e.isLeader then e
  else if e.session.answered reply then e
  else { e with isLeader := false }

/-- The rest of `Close`, once the heartbeat and the callback are over. -/
def finishClose (reply : Reply) : Elector :=
  let unlocks := match e.dialect with
    | .postgres => e.isLeader
    | .mysql => true
  let e1 := if unlocks && e.session.reached reply then { e with session := e.session.unlockAll } else e
  { e1 with isLeader := (match e.dialect with
      | .postgres => false
      | .mysql => e.isLeader), released := true }

def next (free : Bool) : ElectorChoice → Option Elector
  | .isLeader reply => some (e.tryLead free reply)
  | .heartbeat reply => some (e.revalidate reply)
  | .callbackBegins => if e.callback = .launched then some { e with callback := .running } else none
  | .callbackReturns => if e.callback = .running then some { e with callback := .returned } else none
  | .callbackClears => if e.callback = .returned then some { e with callback := .idle } else none
  | .close => if e.closed then none else some { e with closed := true }
  | .finishClose reply =>
    if e.closed && !e.released && e.callback == .idle then some (e.finishClose reply) else none
  | .sever => if e.released then none else some { e with session := e.session.sever }

/-- The elector's session is alive and holds the lock. -/
def holds : Bool := e.session.alive && decide (0 < e.session.count e.key)

end Elector

/-- No elector but this one holds the lock. -/
def electorsFree (es : List Elector) (i : Nat) : Bool :=
  (List.range es.length).all (fun j => j == i || !(es[j]?).any Elector.holds)

/-- One elector goes on. -/
def electorsStep (es : List Elector) (choice : Nat × ElectorChoice) : Option (List Elector) := do
  let e ← es[choice.1]?
  let e' ← e.next (electorsFree es choice.1) choice.2
  return es.set choice.1 e'

end Wrkflw
