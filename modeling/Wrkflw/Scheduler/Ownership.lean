import Wrkflw.Library.Session

/-!
# Ownership and scheduler locks

`AdvisoryLockOwnership` with a `postgresLocker` (`internal/persistence/store/ownership.go`) and the pooled scheduler
lock (`persistence/scheduler_locker.go`), each on a connection of its own.

* `Ownership.next` : `Acquire`, `Release` and `Close`, each under the mutex;
* `SchedulerLock.next` : `Lock` takes a connection from the pool and gives it back unless it gets the lock; `Unlock` gives
  it back.

`asked` is a history variable: the ids the session was asked to lock.
-/

namespace Wrkflw

open Library (Session Reply)

structure Ownership where
  session : Session String := {}
  held : List String := []
  closed : Bool := false
  asked : List String := []

inductive OwnershipChoice where
  /-- `Acquire`; `free` says that no other session holds the lock. -/
  | acquire (instanceID : String) (free : Bool) (reply : Reply)
  | release (instanceID : String) (reply : Reply)
  | close (reply : String → Reply)
  | sever

namespace Ownership
variable (o : Ownership)

def acquire (instanceID : String) (free : Bool) (reply : Reply) : Ownership :=
  if o.held.contains instanceID then o
  else
    let granted := o.session.granted instanceID free
    let session := if o.session.reached reply && granted then o.session.lock instanceID else o.session
    { o with
      session := session
      held := if o.session.answered reply && granted then instanceID :: o.held else o.held
      asked := instanceID :: o.asked }

/-- `Unlock`. -/
def unlocked (s : Session String) (instanceID : String) (reply : Reply) : Session String :=
  if s.reached reply then s.unlock instanceID else s

def release (instanceID : String) (reply : Reply) : Ownership :=
  if !o.held.contains instanceID then o
  else
    { o with
      session := unlocked o.session instanceID reply
      held := if o.session.answered reply then o.held.filter (· != instanceID) else o.held }

/-- `Close`: every held lock is released, whether or not that works, and the connection goes back to the pool. -/
def close (reply : String → Reply) : Ownership :=
  { o with session := o.held.foldl (fun s id => unlocked s id (reply id)) o.session, held := [], closed := true }

def next : OwnershipChoice → Option Ownership
  | .acquire id free reply => if o.closed then none else some (o.acquire id free reply)
  | .release id reply => if o.closed then none else some (o.release id reply)
  | .close reply => if o.closed then none else some (o.close reply)
  | .sever => if o.closed then none else some { o with session := o.session.sever }

end Ownership

/-- A lock of the pooled locker, and whether its connection is back in the pool. -/
structure SchedulerLock where
  key : String
  session : Session String := {}
  locked : Bool := false
  released : Bool := false

inductive SchedulerLockChoice where
  | lock (free : Bool) (reply : Reply)
  | unlock (reply : Reply)
  | sever

namespace SchedulerLock
variable (l : SchedulerLock)

/-- `Lock`, on the connection it has taken. -/
def lock (free : Bool) (reply : Reply) : SchedulerLock :=
  let granted := l.session.granted l.key free
  let session := if l.session.reached reply && granted then l.session.lock l.key else l.session
  if l.session.answered reply && granted then { l with session := session, locked := true }
  else { l with session := session, released := true }

def unlock (reply : Reply) : SchedulerLock :=
  { l with
    session := if l.session.reached reply then l.session.unlock l.key else l.session
    released := true }

def next : SchedulerLockChoice → Option SchedulerLock
  | .lock free reply => if l.locked || l.released then none else some (l.lock free reply)
  | .unlock reply => if !l.locked || l.released then none else some (l.unlock reply)
  | .sever => if l.released then none else some { l with session := l.session.sever }

end SchedulerLock

end Wrkflw
