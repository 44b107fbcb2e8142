import Wrkflw.Library.Runs

/-!
# The admission gate

Every entry point of the driver asks `admit` first, and `Shutdown` closes the gate and waits for what was admitted
(`runtime/driver_shutdown.go`, `Shutdown` of `runtime/processdriver.go`). Any number of entry points and of `Shutdown`
calls run beside each other; a step is what one goroutine does between two accesses to the gate: taking or leaving
`gateMu`, loading or storing `draining`, adding to or waiting for `inflight`.
-/

namespace Wrkflw

/-- A call of an entry point. -/
inductive EntryCall where
  | called
  /-- The read lock is held. -/
  | reading
  /-- `draining` was seen unset, under the read lock. -/
  | clear
  /-- The slot is taken, under the read lock. -/
  | counted
  | working
  /-- `draining` was seen set, under the read lock. -/
  | refusing
  | refused
  | returned
  deriving DecidableEq, Repr

def EntryCall.locks : EntryCall → Bool
  | .reading | .clear | .counted | .refusing => true
  | .called | .working | .refused | .returned => false

/-- The call has its slot. -/
def EntryCall.inFlight : EntryCall → Bool
  | .counted | .working => true
  | .called | .reading | .clear | .refusing | .refused | .returned => false

/-- A call of `Shutdown`. -/
inductive Stop where
  | called
  /-- The write lock is held. -/
  | locked
  /-- `draining` is set, under the write lock. -/
  | stored
  /-- The scheduler is closed. -/
  | closing
  /-- `waitInflight`. -/
  | waiting
  | drained
  | timedOut
  deriving DecidableEq, Repr

def Stop.locks : Stop → Bool
  | .locked | .stored => true
  | .called | .closing | .waiting | .drained | .timedOut => false

/-- The call has set `draining`. -/
def Stop.past : Stop → Bool
  | .stored | .closing | .waiting | .drained | .timedOut => true
  | .called | .locked => false

structure Gate where
  draining : Bool := false
  inflight : Nat := 0
  entries : List EntryCall := []
  stops : List Stop := []

inductive GateStep where
  | enter
  | stop
  /-- Entry point `i` goes on. -/
  | entry (i : Nat)
  /-- `Shutdown` call `i` goes on; its context may be done. -/
  | shutdown (i : Nat) (expired : Bool)

namespace Gate
variable (g : Gate)

def entry (i : Nat) : EntryCall → Option Gate
  | .called => if g.stops.any Stop.locks then none else some { g with entries := g.entries.set i .reading }
  | .reading => some { g with entries := g.entries.set i (if g.draining then .refusing else .clear) }
  | .clear => some { g with inflight := g.inflight + 1, entries := g.entries.set i .counted }
  | .counted => some { g with entries := g.entries.set i .working }
  | .refusing => some { g with entries := g.entries.set i .refused }
  | .working => some { g with inflight := g.inflight - 1, entries := g.entries.set i .returned }
  | .refused | .returned => none

def shutdown (i : Nat) (expired : Bool) : Stop → Option Gate
  | .called =>
    if g.entries.any EntryCall.locks || g.stops.any Stop.locks then none else some { g with stops := g.stops.set i .locked }
  | .locked => some { g with draining := true, stops := g.stops.set i .stored }
  | .stored => some { g with stops := g.stops.set i .closing }
  | .closing => some { g with stops := g.stops.set i .waiting }
  | .waiting =>
    if expired then some { g with stops := g.stops.set i .timedOut }
    else if g.inflight = 0 then some { g with stops := g.stops.set i .drained }
    else none
  | .drained | .timedOut => none

def step : GateStep → Option Gate
  | .enter => some { g with entries := g.entries ++ [.called] }
  | .stop => some { g with stops := g.stops ++ [.called] }
  | .entry i => g.entries[i]?.bind (fun e => g.entry i e)
  | .shutdown i expired => g.stops[i]?.bind (fun s => g.shutdown i expired s)

end Gate

end Wrkflw
