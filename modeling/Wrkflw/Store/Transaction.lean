import Wrkflw.Store.Outbox
import Wrkflw.Runtime.System

/-!
# Transactions of the SQL store

`transaction.Begin`, `JoinOrBegin` and the queriers they return (`internal/database/transaction/begin.go`), `RunInTx`
(`internal/persistence/store/txrunner.go`), `Store.Create` and `Store.Commit` (`store_core.go`), `TimerStore.UpsertJob` and
`DeleteJob` (`timerstore.go`), and the commit of one iteration of `deliverLoop` (`runtime/processdriver.go`).

* `Tx` : what a function does with the ambient transaction, statement by statement;
* `Handle`, `Tx.run` : the transaction with its rollback-only mark, and the run of such a function in it;
* `runInTx` : the owner;
* `SqlStore.create`, `.commit`, `.upsertJob`, `.deleteJob` : the participants, each of which joins the transaction;
* `SqlStore.commitFn`, `SqlStore.deliverStep` : the commit of a step and what follows it.

The database is atomic and isolated: a transaction works on its own copy of the tables, which a commit puts in place of them.
Any statement and the commit itself may fail, and a commit that reports an error may have taken place or not. `Faults` says
which of these happen.
-/

namespace Wrkflw

open Library

/-! ## Transactions -/

/-- A function over the ambient transaction. It sees how each statement went, with the number of rows it affected, and may
go on whatever it sees; `rollback` is that of a joined querier, whose commit does nothing. -/
inductive Tx (σ α : Type) where
  | ret (a : α)
  | exec (stmt : σ → Except String (σ × Nat)) (k : Except String Nat → Tx σ α)
  | rollback (k : Tx σ α)

namespace Tx

variable {σ α β : Type}

def bind : Tx σ α → (α → Tx σ β) → Tx σ β
  | ret a, f => f a
  | exec stmt k, f => exec stmt (fun r => (k r).bind f)
  | rollback k, f => rollback (k.bind f)

instance : Monad (Tx σ) where
  pure := ret
  bind := bind

end Tx

/-- `handle`: the driver's transaction and its mark. `statements` counts what was sent to the database. -/
structure Handle (σ : Type) where
  work : σ
  rollbackOnly : Bool := false
  statements : Nat := 0

/-- The errors of the database: of the begin, of each statement by its number, and of the commit, with whether the commit
took place. -/
structure Faults where
  begins : Option String := none
  statement : Nat → Option String := fun _ => none
  commit : Option (String × Bool) := none

/-- A statement is sent to the database: its answer, and the transaction after it. -/
def Handle.send {σ : Type} (faults : Faults) (stmt : σ → Except String (σ × Nat)) (h : Handle σ) :
    Except String Nat × Handle σ :=
  match faults.statement h.statements with
  | some e => (.error e, { h with statements := h.statements + 1 })
  | none =>
    match stmt h.work with
    | .error e => (.error e, { h with statements := h.statements + 1 })
    | .ok (work, n) => (.ok n, { h with work := work, statements := h.statements + 1 })

def Tx.run {σ α : Type} (faults : Faults) : Tx σ α → Handle σ → α × Handle σ
  | .ret a, h => (a, h)
  | .exec stmt k, h => (k (h.send faults stmt).1).run faults (h.send faults stmt).2
  | .rollback k, h => k.run faults { h with rollbackOnly := true }

/-- A participant rolls back in the course of the run. -/
def Tx.rollsBack {σ α : Type} (faults : Faults) : Tx σ α → Handle σ → Bool
  | .ret _, _ => false
  | .exec stmt k, h => (k (h.send faults stmt).1).rollsBack faults (h.send faults stmt).2
  | .rollback _, _ => true

/-- `ErrTxRolledBack`. -/
def errTxRolledBack : String := "workflow-store: run in tx: rolled back by participant"

/-- `RunInTx`: what it returns, and the tables after it. The deferred rollback leaves them as they were. -/
def runInTx {σ α : Type} (faults : Faults) (mapConflict : String → String) (fn : Tx σ (Except String α)) (db : σ) :
    Except String α × σ :=
  match faults.begins with
  | some e => (.error ("workflow-store: run in tx: begin: " ++ e), db)
  | none =>
    match fn.run faults { work := db } with
    | (.error e, _) => (.error e, db)
    | (.ok a, h) =>
      if h.rollbackOnly then (.error errTxRolledBack, db)
      else match faults.commit with
        | none => (.ok a, h.work)
        | some (e, took) => (.error (mapConflict ("workflow-store: run in tx: commit: " ++ e)), if took then h.work else db)

/-! ## Tables -/

structure InstanceRow where
  defID : String
  defVersion : Int
  status : Status
  snapshot : Json Value
  version : Nat
  startedAt : Time
  endedAt : Option Time
  updatedAt : Time

structure JournalRow where
  instanceID : String
  seq : Nat
  kind : String
  trigger : Json Value
  occurredAt : Time
  appliedAt : Time

inductive CallLinkStatus where
  | running | completed | failed | notified
  deriving DecidableEq, Repr

structure CallLinkRow where
  link : CallLink
  status : CallLinkStatus := .running
  output : Option (Json Value) := none
  error : Option String := none
  createdAt : Time
  notifiedAt : Option Time := none

/-- `kernel.JobSpec`, as `wrkflw_timers` keeps it. -/
structure JobSpec where
  timerID : String
  instanceID : String
  defID : String
  defVersion : Int
  trigger : TriggerSpec
  nextRun : Time
  kind : TimerKind

structure SqlRows where
  instances : String → Option InstanceRow := fun _ => none
  journal : List JournalRow := []
  outbox : List OutboxRow := []
  callLinks : List CallLinkRow := []
  timers : List JobSpec := []

/-- `kernel.AppliedStep`, with its outbox events. -/
structure SqlStep extends AppliedStep where
  events : List OutboxEvent := []

/-! ## Statements -/

/-- `INSERT INTO wrkflw_instances`. -/
def insertInstance (id : String) (row : InstanceRow) (db : SqlRows) : Except String (SqlRows × Nat) :=
  match db.instances id with
  | some _ => .error "unique violation"
  | none => .ok ({ db with instances := MemInstanceStore.put db.instances id (some row) }, 1)

/-- `UPDATE wrkflw_instances ... WHERE instance_id = ? AND version = ?`. -/
def updateInstance (id : String) (expected : Nat) (s : InstanceState) (snapshot : Json Value) (now : Time) (db : SqlRows) :
    Except String (SqlRows × Nat) :=
  match db.instances id with
  | none => .ok (db, 0)
  | some row =>
    if row.version = expected then
      .ok ({ db with instances := MemInstanceStore.put db.instances id (some { row with
        snapshot := snapshot, version := row.version + 1, status := s.status, endedAt := s.endedAt, updatedAt := now }) }, 1)
    else .ok (db, 0)

def insertJournal (row : JournalRow) (db : SqlRows) : Except String (SqlRows × Nat) :=
  .ok ({ db with journal := db.journal ++ [row] }, 1)

def insertOutbox (instanceID : String) (seq : Nat) (i : Nat) (ev : OutboxEvent) (now : Time) (db : SqlRows) :
    Except String (SqlRows × Nat) :=
  .ok ({ db with outbox := db.outbox ++ [outboxRow (db.outbox.length + 1) instanceID seq i ev now] }, 1)

def insertLink (link : CallLink) (now : Time) (db : SqlRows) : Except String (SqlRows × Nat) :=
  .ok ({ db with callLinks := db.callLinks ++ [{ link := link, createdAt := now }] }, 1)

/-- The row of an ended child. -/
def CallLinkRow.flip (out : CallOutcome) (row : CallLinkRow) : CallLinkRow :=
  { row with
    status := if out.completed then .completed else .failed
    output := if out.completed && !out.output.isEmpty then some (marshalPayload (some out.output)) else none
    error := if !out.completed && out.err != "" then some out.err else none }

def updateLink (childID : String) (out : CallOutcome) (db : SqlRows) : Except String (SqlRows × Nat) :=
  .ok ({ db with
    callLinks := db.callLinks.map (fun row => if row.link.childInstanceID == childID then row.flip out else row) },
    (db.callLinks.filter (fun row => row.link.childInstanceID == childID)).length)

/-- The rows of `wrkflw_timers` after an upsert. -/
def upsertTimerRow (spec : JobSpec) (timers : List JobSpec) : List JobSpec :=
  timers.filter (fun t => !(t.instanceID == spec.instanceID && t.timerID == spec.timerID)) ++ [spec]

def deleteTimerRow (key : String × String) (timers : List JobSpec) : List JobSpec :=
  timers.filter (fun t => !(t.instanceID == key.1 && t.timerID == key.2))

/-! ## The stores -/

/-- What the SQL stores are configured with. -/
structure SqlStore where
  isUniqueViolation : String → Bool
  isRetryableConflict : String → Bool
  /-- `marshalSnapshot`. -/
  marshalSnapshot : InstanceState → Except String (Json Value)
  /-- The wake statement; no text for a dialect without one, or a store that does not emit it. -/
  notifyStatement : String := ""
  /-- The driver has a timer writer. -/
  timerWriter : Bool := true
  now : Time

/-- A step of a participant: its error ends it. -/
abbrev TxStep (α : Type) := ExceptT String (Tx SqlRows) α

/-- `q.Exec`, with what its error is turned into. -/
def execStmt (wrap : String → String) (stmt : SqlRows → Except String (SqlRows × Nat)) : TxStep Nat :=
  ExceptT.mk (.exec stmt (fun
    | .ok n => .ret (.ok n)
    | .error e => .ret (.error (wrap e))))

/-- A function that has joined the transaction: unless it came to its commit, which does nothing, it rolls back. -/
def joined {α : Type} (body : TxStep α) : TxStep α :=
  ExceptT.mk (body.run.bind (fun
    | .ok a => .ret (.ok a)
    | .error e => .rollback (.ret (.error e))))

namespace SqlStore
variable (s : SqlStore)

/-- `mapConflict`. -/
def mapConflict (e : String) : String := if s.isRetryableConflict e then StoreError.concurrentUpdate.toText else e

def writeJournal (step : SqlStep) (seq : Nat) : TxStep Unit := do
  let (data, kind) ← ExceptT.mk (.ret ((marshalTrigger step.trigger).mapError s.mapConflict))
  let _ ← execStmt (fun e => s.mapConflict ("workflow-store: write journal: " ++ e))
    (insertJournal ⟨step.state.instanceID, seq, kind, data, step.trigger.occurredAt, s.now⟩)

/-- The events from number `i` on. -/
def writeOutbox (instanceID : String) (seq : Nat) : Nat → List OutboxEvent → TxStep Unit
  | _, [] => pure ()
  | i, ev :: events => do
    let _ ← execStmt (fun e => s.mapConflict ("workflow-store: write outbox: " ++ e)) (insertOutbox instanceID seq i ev s.now)
    writeOutbox instanceID seq (i + 1) events

def maybeNotify (events : List OutboxEvent) : TxStep Unit := do
  if s.notifyStatement == "" || events.isEmpty then pure ()
  else
    let _ ← execStmt (fun e => s.mapConflict ("workflow-store: notify outbox: " ++ e)) (fun db => .ok (db, 0))

def insertCallLink : Option CallLink → TxStep Unit
  | none => pure ()
  | some link => do
    let _ ← execStmt (fun e => s.mapConflict ("workflow-store: create: call link: " ++ e)) (insertLink link s.now)

def flipCallLink (childID : String) : Option CallOutcome → TxStep Unit
  | none => pure ()
  | some out => do
    let _ ← execStmt (fun e => s.mapConflict ("workflow-store: commit: call link: " ++ e)) (updateLink childID out)

/-- The instance row of a first step. -/
def firstRow (step : SqlStep) (snapshot : Json Value) : InstanceRow :=
  ⟨step.state.defID, step.state.defVersion, step.state.status, snapshot, 1, step.state.startedAt, step.state.endedAt, s.now⟩

def create (step : SqlStep) : TxStep Nat := joined do
  let snapshot ← ExceptT.mk
    (.ret ((s.marshalSnapshot step.state).mapError ("workflow-store: create: marshal snapshot: " ++ ·)))
  let _ ← execStmt (fun e => if s.isUniqueViolation e then StoreError.instanceExists.toText
      else s.mapConflict ("workflow-store: create: insert instance: " ++ e))
    (insertInstance step.state.instanceID (s.firstRow step snapshot))
  s.writeJournal step 1
  s.writeOutbox step.state.instanceID 1 0 step.events
  s.maybeNotify step.events
  s.insertCallLink step.newCallLink
  return 1

def commit (expected : Nat) (step : SqlStep) : TxStep Nat := joined do
  let snapshot ← ExceptT.mk
    (.ret ((s.marshalSnapshot step.state).mapError ("workflow-store: commit: marshal snapshot: " ++ ·)))
  let rows ← execStmt (fun e => s.mapConflict ("workflow-store: commit: update: " ++ e))
    (updateInstance step.state.instanceID expected step.state snapshot s.now)
  if rows = 0 then throw StoreError.concurrentUpdate.toText
  s.writeJournal step (expected + 1)
  s.writeOutbox step.state.instanceID (expected + 1) 0 step.events
  s.maybeNotify step.events
  s.flipCallLink step.state.instanceID step.callOutcome
  return expected + 1

def upsertJob (spec : JobSpec) : TxStep Unit := joined do
  let _ ← execStmt (fun e =>
    "workflow-store: upsert timer " ++ quoted spec.instanceID ++ "/" ++ quoted spec.timerID ++ ": " ++ e)
    (fun db => .ok ({ db with timers := upsertTimerRow spec db.timers }, 1))

def deleteJob (key : String × String) : TxStep Unit := joined do
  let _ ← execStmt (fun e => "workflow-store: delete timer " ++ quoted key.1 ++ "/" ++ quoted key.2 ++ ": " ++ e)
    (fun db => .ok ({ db with timers := deleteTimerRow key db.timers }, 1))

/-! ## The commit of a step -/

/-- `jobStore.Save` of each armed job; nothing without a timer writer. -/
def saveJobs : List JobSpec → TxStep Unit
  | [] => pure ()
  | spec :: specs => do
    if s.timerWriter then upsertJob spec
    saveJobs specs

def deleteJobs : List (String × String) → TxStep Unit
  | [] => pure ()
  | key :: keys => do
    if s.timerWriter then deleteJob key
    deleteJobs keys

/-- `commitFn`. -/
def commitFn (create : Bool) (token : Nat) (step : SqlStep) (arms : List JobSpec) (cancels : List (String × String)) :
    TxStep Nat := do
  let version ← if create then s.create step else s.commit token step
  s.saveJobs arms
  s.deleteJobs cancels
  return version

end SqlStore

/-- What one iteration of `deliverLoop` has done from its commit on: the error it returned, or the new token; the tables;
the timers it handed to the scheduler, the state it synced the waiters with and the commands it went on to perform. -/
structure StepOutcome where
  result : Except String Nat
  db : SqlRows
  activated : List JobSpec := []
  deactivated : List String := []
  synced : Option InstanceState := none
  performs : List Command := []

/-- The commit of an iteration and what follows it. `due` tells whether a job's trigger still fires when it was saved. -/
def SqlStore.deliverStep (s : SqlStore) (faults : Faults) (due : JobSpec → Bool) (create : Bool)
    (token : Nat) (step : SqlStep)
    (arms : List JobSpec) (cancels : List (String × String)) (commands : List Command) (db : SqlRows) : StepOutcome :=
  match runInTx faults s.mapConflict (s.commitFn create token step arms cancels).run db with
  | (.error e, db') => { result := .error ("workflow-runtime: commit: " ++ e), db := db' }
  | (.ok version, db') =>
    { result := .ok version, db := db', activated := arms.filter due, deactivated := cancels.map Prod.snd,
      synced := some step.state, performs := commands.filter (fun cmd => !cmd.ofTimer) }

end Wrkflw
