import Wrkflw.Runtime.Driver
import Wrkflw.Library.Runs

/-!
# The caching instance store

`CachingInstanceStore` (`persistence/caching_instance_store.go`) over a backing store and the ownership port, in every process
that shares the backing store.

The store keeps nothing across instances: rows, ownership, cache entries and the refcounted locks of `lockFor` all go by the
instance's id, so the model follows one instance, and of a transaction what it does with that instance.

* `CacheCall`, `CacheStage` : a call of a goroutine, and where it is;
* `CacheTx` : a `RunInTx` under way, with the write it has not committed and whether `put` marked the instance;
* `Caching.goOn` : the next action of a call on something shared;
* `Caching.step` : one step of any goroutine of any process.

A write outside a transaction commits at once. One inside a transaction is seen by that transaction alone until it
commits, and until then no other writer gets past the row. `past` keeps the earlier contents of the row, so that it
can be said what was committed between two moments. A call of the codec may fail, an error the store ignores, and a
cache entry may be dropped by its substrate at any time. A failed `Set` or `Delete` left the entry as it was; one that
fails after it has taken effect is one that did not fail.
-/

namespace Wrkflw

/-- `instanceEntry`. -/
structure InstanceEntry where
  state : InstanceState
  version : Nat

inductive CacheOp where
  | create (state : InstanceState)
  | load
  | commit (expected : Nat) (state : InstanceState)
  | release

inductive CacheStage where
  | called
  /-- `Create`: the row is in. -/
  | created (tok : Nat)
  /-- `Create`: the instance is owned, and the lock is next. -/
  | owns (tok : Nat)
  /-- `Load`: the instance is not owned. -/
  | bypasses
  /-- `Load`: the instance is owned, and the lock is next. -/
  | waits
  | looks
  | missed
  /-- `Load`: the entry it read and is to put. -/
  | holds (e : InstanceEntry)
  /-- `Commit`: under the lock, before the backing store's. -/
  | locked
  | committed (tok : Nat)
  | conflicted
  /-- `Create` and `Commit`: under the lock, with the entry to put. -/
  | writes (tok : Nat)
  /-- `Release`: the `Delete` was made, and the ownership port is next. -/
  | evicted
  /-- The entry of a `Load` that did not fail, and the moment. -/
  | returned (result : Option InstanceEntry) (moment : Nat)

/-- A call, the transaction its context carries, and the moment it was made. -/
structure CacheCall where
  proc : Nat
  op : CacheOp
  tx : Option Nat
  stage : CacheStage := .called
  since : Nat

inductive CacheTxPhase where
  | running
  /-- It returned an error, and the evictions are to come. -/
  | failed
  | over
  deriving DecidableEq

structure CacheTx where
  proc : Nat
  written : Option InstanceEntry := none
  touched : Bool := false
  phase : CacheTxPhase := .running

structure Caching where
  backing : Option InstanceEntry := none
  past : List (Option InstanceEntry) := []
  owner : Option Nat := none
  cache : Nat → Option InstanceEntry := fun _ => none
  lock : Nat → Option Nat := fun _ => none
  calls : List CacheCall := []
  txs : List CacheTx := []

/-- What the ownership port, the backing store or the codec answers. -/
inductive CacheAnswer where
  | granted | refused | failed
  deriving DecidableEq

inductive CacheChoice where
  | call (proc : Nat) (op : CacheOp) (tx : Option Nat)
  | goOn (call : Nat) (answer : CacheAnswer)
  | begin (proc : Nat)
  /-- The transaction comes to its end: whether it was committed, and whether `RunInTx` of the backing store returned nil. -/
  | finish (tx : Nat) (took : Bool) (reported : Bool)
  | evict (tx : Nat) (answer : CacheAnswer)
  | expire (proc : Nat)

/-- A map with another value at one key. -/
def putAt {α : Type} (f : Nat → α) (k : Nat) (a : α) : Nat → α := fun j => if j = k then a else f j

namespace Caching
variable (s : Caching)

/-- The row as a call in the transaction sees it. -/
def view : Option Nat → Option InstanceEntry
  | none => s.backing
  | some t => match s.txs[t]? with
    | none => s.backing
    | some u => u.written.or s.backing

/-- No other transaction has the row. -/
def rowFree (x : Option Nat) : Bool :=
  (List.range s.txs.length).all (fun t => x == some t || match s.txs[t]? with
    | none => true
    | some u => u.phase != .running || u.written.isNone)

def writeTx (t : Nat) (f : CacheTx → CacheTx) : Caching :=
  match s.txs[t]? with
  | none => s
  | some u => { s with txs := s.txs.set t (f u) }

/-- What was committed takes its place. -/
def replace (e : InstanceEntry) : Caching := { s with past := s.past ++ [s.backing], backing := some e }

/-- A write to the backing store. -/
def write (x : Option Nat) (e : InstanceEntry) : Caching :=
  match x with
  | none => s.replace e
  | some t => s.writeTx t (fun u => { u with written := some e })

/-- `put`: the transaction is told also where the `Set` failed. -/
def put (p : Nat) (x : Option Nat) (e : InstanceEntry) (answer : CacheAnswer) : Caching :=
  let s' := { s with cache := if answer = .failed then s.cache else putAt s.cache p (some e) }
  match x with
  | none => s'
  | some t => s'.writeTx t (fun u => { u with touched := true })

/-- The entry is gone. -/
def drop (p : Nat) : Caching := { s with cache := putAt s.cache p none }

/-- `evict`. -/
def evict (p : Nat) (answer : CacheAnswer) : Caching := if answer = .failed then s else s.drop p

def unlock (p : Nat) : Caching := { s with lock := putAt s.lock p none }

def setStage (i : Nat) (call : CacheCall) (stage : CacheStage) : Caching :=
  { s with calls := s.calls.set i { call with stage := stage } }

def finished (i : Nat) (call : CacheCall) (result : Option InstanceEntry) : Caching :=
  s.setStage i call (.returned result s.past.length)

/-- `lockFor`, which waits while another call has the lock. -/
def lockFor (i : Nat) (call : CacheCall) (stage : CacheStage) : Option Caching :=
  match s.lock call.proc with
  | some _ => none
  | none => some ({ s with lock := putAt s.lock call.proc (some i) }.setStage i call stage)

/-- `owner.Acquire`: an instance is granted to one process at a time. -/
def acquire (p : Nat) (granted other : Caching) : CacheAnswer → Option Caching
  | .granted => if s.owner = none ∨ s.owner = some p then some { granted with owner := some p } else none
  | _ => some other

/-- The next action of call `i`. A commit of the backing store is made by the owning process alone. -/
def goOn (i : Nat) (call : CacheCall) (answer : CacheAnswer) : Option Caching :=
  match call.op, call.stage with
  | .create state, .called =>
    if answer = .failed then some (s.finished i call none)
    else if !s.rowFree call.tx then none
    else match s.view call.tx with
      | some _ => some (s.finished i call none)
      | none => some ((s.write call.tx ⟨state, 1⟩).setStage i call (.created 1))
  | .create _, .created tok => s.acquire call.proc (s.setStage i call (.owns tok)) (s.finished i call none) answer
  | .create _, .owns tok => s.lockFor i call (.writes tok)
  | .create state, .writes tok =>
    some (((s.put call.proc call.tx ⟨state, tok⟩ answer).unlock call.proc).finished i call none)
  | .load, .called => s.acquire call.proc (s.setStage i call .waits) (s.setStage i call .bypasses) answer
  | .load, .bypasses => some (s.finished i call (if answer = .failed then none else s.view call.tx))
  | .load, .waits => s.lockFor i call .looks
  | .load, .looks =>
    match if answer = .failed then none else s.cache call.proc with
    | some e => some ((s.unlock call.proc).finished i call (some e))
    | none => some (s.setStage i call .missed)
  | .load, .missed =>
    if answer = .failed then some ((s.unlock call.proc).finished i call none)
    else match s.view call.tx with
      | none => some ((s.unlock call.proc).finished i call none)
      | some e => some (s.setStage i call (.holds e))
  | .load, .holds e => some (((s.put call.proc call.tx e answer).unlock call.proc).finished i call (some e))
  | .commit _ _, .called => s.lockFor i call .locked
  | .commit expected state, .locked =>
    if answer = .failed then some ((s.unlock call.proc).finished i call none)
    else if s.owner ≠ some call.proc || !s.rowFree call.tx then none
    else if (s.view call.tx).any (fun e => e.version == expected) then
      some ((s.write call.tx ⟨state, expected + 1⟩).setStage i call (.committed (expected + 1)))
    else some (s.setStage i call .conflicted)
  | .commit _ _, .conflicted => some (((s.evict call.proc answer).unlock call.proc).finished i call none)
  | .commit _ _, .committed tok =>
    s.acquire call.proc (s.setStage i call (.writes tok)) ((s.unlock call.proc).finished i call none) answer
  | .commit _ state, .writes tok =>
    some (((s.put call.proc call.tx ⟨state, tok⟩ answer).unlock call.proc).finished i call none)
  | .release, .called => some ((s.evict call.proc answer).setStage i call .evicted)
  | .release, .evicted =>
    if answer = .failed then some (s.finished i call none)
    else some ({ s with owner := if s.owner = some call.proc then none else s.owner }.finished i call none)
  | _, _ => none

end Caching

def CacheStage.isReturned : CacheStage → Bool
  | .returned _ _ => true
  | _ => false

/-- A call that has done something and has not returned. -/
def CacheCall.underWay (call : CacheCall) : Bool :=
  match call.stage with
  | .called => false
  | stage => !stage.isReturned

/-- A transaction that is not over and has written or read the instance through the store. -/
def CacheTx.uses (u : CacheTx) : Bool := u.phase != .over && (u.written.isSome || u.touched)

/-- One step. -/
def Caching.step (s : Caching) : CacheChoice → Option Caching
  | .call p op x =>
    match x with
    | none => some { s with calls := s.calls ++ [{ proc := p, op := op, tx := none, since := s.past.length }] }
    | some t =>
      match s.txs[t]? with
      | none => none
      | some u =>
        if u.proc = p ∧ u.phase = .running then
          some { s with calls := s.calls ++ [{ proc := p, op := op, tx := some t, since := s.past.length }] }
        else none
  | .goOn i answer =>
    match s.calls[i]? with
    | none => none
    | some call => s.goOn i call answer
  | .begin p => some { s with txs := s.txs ++ [{ proc := p }] }
  | .finish t took reported =>
    match s.txs[t]? with
    | none => none
    | some u =>
      -- the calls of the function it ran have returned
      if u.phase = .running ∧ (s.calls.all (fun call => call.tx != some t || call.stage.isReturned)) ∧ (reported → took) then
        let s' := { s with txs := s.txs.set t { u with phase := if reported then .over else .failed } }
        match u.written with
        | some e => some (if took then s'.replace e else s')
        | none => some s'
      else none
  | .evict t answer =>
    match s.txs[t]? with
    | none => none
    | some u =>
      if u.phase = .failed then
        let s' := if u.touched then s.evict u.proc answer else s
        some { s' with txs := s'.txs.set t { u with phase := .over } }
      else none
  | .expire p => some (s.drop p)

/-- What was committed from one moment to another. -/
def Caching.moments (s : Caching) (i j : Nat) : List (Option InstanceEntry) := ((s.past ++ [s.backing]).take (j + 1)).drop i

end Wrkflw
