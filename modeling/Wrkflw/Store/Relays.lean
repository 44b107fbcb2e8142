import Wrkflw.Library.Runs
import Wrkflw.Store.Outbox

/-!
# Relays beside each other

Any number of relays drain one outbox while events are written, dead rows redriven and published rows pruned
(`internal/persistence/store/relay.go`, `pruner.go`). A drain is one transaction: it claims due rows that no other drain has
locked (`FOR UPDATE SKIP LOCKED`), publishes them in turn and marks each with its outcome; its marks are seen by nobody until
it commits, and it may fail at any moment, which undoes its marks but not what it published.

An `OutboxTable` is the table with the drains that are open. `written`, `sent`, `undone`, `pruned` and `failed` record what
was done; no transition reads them.
-/

namespace Wrkflw

open Library

/-- The `UPDATE` of a claim: the row of the claim is set to its outcome. -/
def Relay.mark (r : Relay) (now : Time) (c : ClaimRow) (outcome : Option String) (row : OutboxRow) : OutboxRow :=
  if row.id ≠ c.id then row
  else match outcome with
    | none => { row with status := .published, publishedAt := some now }
    | some err =>
      { row with
        retryCount := c.retryCount + 1
        status := if r.maxDel ≤ c.retryCount + 1 then .dead else .pending
        nextAttemptAt := now + relayBackoff c.retryCount r.base r.max
        lastError := err }

/-- A `DrainOnce` call whose transaction is open. -/
structure RelayDrain where
  relay : Relay
  now : Time
  /-- The claims that are not published yet. -/
  todo : List ClaimRow
  /-- The claims that were published, each with its outcome, marked in the transaction. -/
  marks : List (ClaimRow × Option String) := []

namespace RelayDrain

/-- The rows the transaction has locked. -/
def held (d : RelayDrain) : List Nat := d.marks.map (·.1.id) ++ d.todo.map (·.id)

/-- The rows whose events went out. -/
def sent (d : RelayDrain) : List Nat := (d.marks.filter (·.2.isNone)).map (·.1.id)

/-- The rows whose events were refused. -/
def failed (d : RelayDrain) : List Nat := (d.marks.filter (·.2.isSome)).map (·.1.id)

/-- A row under the marks. -/
def marked (d : RelayDrain) (row : OutboxRow) : OutboxRow := d.marks.foldl (fun row m => d.relay.mark d.now m.1 m.2 row) row

end RelayDrain

structure OutboxTable where
  /-- The id the next row gets. -/
  nextID : Nat := 1
  rows : List OutboxRow := []
  drains : List RelayDrain := []
  /-- The rows as they were written. -/
  written : List OutboxRow := []
  /-- The rows whose events went out, in the order they did. -/
  sent : List Nat := []
  /-- The rows whose events went out from a drain that failed thereafter. -/
  undone : List Nat := []
  pruned : List Nat := []
  /-- The refusals that were committed, up to the last redrive of their row. -/
  failed : List Nat := []

inductive RelayStep where
  | write (instanceID : String) (seq : Int) (i : Nat) (ev : OutboxEvent) (createdAt : Time)
  /-- A drain begins its transaction and claims. -/
  | claim (relay : Relay) (now : Time)
  /-- Drain `i` publishes its next claim and marks it. -/
  | publish (i : Nat) (outcome : Option String)
  | commit (i : Nat)
  /-- A statement or the commit of drain `i` fails, or its process dies. -/
  | rollback (i : Nat)
  | redrive (ids : List Nat) (now : Time)
  | pruneOutbox (cutoff : Time)

/-- `Redrive` of one row. -/
def OutboxRow.redriven (ids : List Nat) (now : Time) (row : OutboxRow) : OutboxRow :=
  if row.status == .dead && ids.contains row.id then
    { row with status := .pending, retryCount := 0, nextAttemptAt := now, lastError := "" }
  else row

/-- `PruneOutbox` deletes the row. -/
def OutboxRow.prunable (cutoff : Time) (row : OutboxRow) : Bool :=
  row.status == .published && row.publishedAt.any (fun at_ => decide (at_ < cutoff))

namespace OutboxTable

def locked (x : OutboxTable) (id : Nat) : Bool := x.drains.any (fun d => d.held.contains id)

/-- The rows a claim locks: due, not locked, the first by id. -/
def claimable (x : OutboxTable) (r : Relay) (now : Time) : List OutboxRow :=
  (x.rows.filter (fun row => row.due now && !x.locked row.id)).take r.batch

/-- The claim and its scan; a row that cannot be read ends the drain. -/
def claim (x : OutboxTable) (r : Relay) (now : Time) : OutboxTable :=
  match scanClaimRows (x.claimable r now) with
  | .error _ => x
  | .ok claims => { x with drains := x.drains ++ [{ relay := r, now := now, todo := claims }] }

/-- The next claim of the drain goes out or is refused. -/
def publish (x : OutboxTable) (i : Nat) (d : RelayDrain) (outcome : Option String) : Option OutboxTable :=
  match d.todo with
  | [] => none
  | c :: todo =>
    some { x with
      drains := x.drains.set i { d with todo := todo, marks := d.marks ++ [(c, outcome)] }
      sent := if outcome.isNone then x.sent ++ [c.id] else x.sent }

def commit (x : OutboxTable) (i : Nat) (d : RelayDrain) : Option OutboxTable :=
  match d.todo with
  | [] =>
    some { x with
      rows := x.rows.map d.marked
      drains := x.drains.eraseIdx i
      failed := x.failed ++ d.failed }
  | _ :: _ => none

def step (x : OutboxTable) : RelayStep → Option OutboxTable
  | .write instanceID seq i ev createdAt =>
    some { x with
      nextID := x.nextID + 1
      rows := x.rows ++ [outboxRow x.nextID instanceID seq i ev createdAt]
      written := x.written ++ [outboxRow x.nextID instanceID seq i ev createdAt] }
  | .claim relay now => some (x.claim relay now)
  | .publish i outcome => x.drains[i]?.bind (fun d => x.publish i d outcome)
  | .commit i => x.drains[i]?.bind (fun d => x.commit i d)
  | .rollback i =>
    x.drains[i]?.map (fun d => { x with drains := x.drains.eraseIdx i, undone := x.undone ++ d.sent })
  | .redrive ids now =>
    some { x with
      rows := x.rows.map (OutboxRow.redriven ids now)
      failed := x.failed.filter
        (fun id => !(ids.contains id && x.rows.any (fun row => row.id == id && row.status == .dead))) }
  | .pruneOutbox cutoff =>
    some { x with
      rows := x.rows.filter (fun row => !row.prunable cutoff)
      pruned := x.pruned ++ (x.rows.filter (·.prunable cutoff)).map (·.id) }

/-- The rows that are marked as published. -/
def published (x : OutboxTable) : List Nat := (x.rows.filter (·.status == .published)).map (·.id)

end OutboxTable

end Wrkflw
