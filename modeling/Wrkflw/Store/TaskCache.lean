import Wrkflw.Runtime.Driver
import Mathlib.Logic.Function.Basic

/-!
# The caching task store

`CachingTaskStore` (`persistence/caching_task_store.go`) over an atomic backing store: `Get` reads through the cache,
`Upsert` writes through it, and no lock stands between a call's access to the backing store and its write to the cache.

* `TaskCacheStage` : where a call of a goroutine is;
* `CachedTasks.goOn` : the next action of a call, on the cache or on the backing store;
* `CachedTasks.step` : one step of any goroutine.

The codec gives back the value it was given, or fails; it is asked through `Codec.Get` and `Codec.Set`
(`persistence/cache/codec.go`), and an entry may be dropped at any time. `number`, `settled` and `floor` are history
variables: no operation reads them.
-/

namespace Wrkflw

/-- A stored task, and which of the writes to the backing store it is. -/
structure WrittenTask where
  task : HumanTask
  number : Nat

inductive TaskCacheOp where
  | get (taskID : String)
  | upsert (task : HumanTask)

def TaskCacheOp.taskID : TaskCacheOp → String
  | .get taskID => taskID
  | .upsert task => task.taskID

inductive TaskCacheStage where
  | called
  /-- `Get`: the cache does not have it. -/
  | missed
  /-- `Get`: what it read from the backing store and is to cache. -/
  | read (w : WrittenTask)
  /-- `Upsert`: what it wrote to the backing store and is to cache. -/
  | wrote (w : WrittenTask)
  /-- The task of a `Get`; none where there is no such task, and of an `Upsert`. -/
  | returned (result : Option WrittenTask)
  | failed

/-- A call, and the newest write of its task that had returned when it was made. -/
structure TaskCacheCall where
  op : TaskCacheOp
  floor : Nat
  stage : TaskCacheStage := .called

structure CachedTasks where
  backing : String → Option WrittenTask := fun _ => none
  cache : String → Option WrittenTask := fun _ => none
  writes : Nat := 0
  /-- The newest write of a task whose `Upsert` has returned. -/
  settled : String → Nat := fun _ => 0
  calls : List TaskCacheCall := []

inductive TaskCacheChoice where
  | call (op : TaskCacheOp)
  /-- The call goes on; whether the cache or the backing store does what it is asked. -/
  | goOn (i : Nat) (ok : Bool)
  | expire (taskID : String)

namespace CachedTasks
variable (s : CachedTasks)

/-- `codec.Set`, whose error is ignored. -/
def set (taskID : String) (w : WrittenTask) (ok : Bool) : CachedTasks :=
  if ok then { s with cache := Function.update s.cache taskID (some w) } else s

def get (taskID : String) (stage : TaskCacheStage) (ok : Bool) : Option (CachedTasks × TaskCacheStage) :=
  match stage with
  | .called =>
    match s.cache taskID, ok with
    | some w, true => some (s, .returned (some w))
    | _, _ => some (s, .missed)
  | .missed =>
    if ok then
      match s.backing taskID with
      | some w => some (s, .read w)
      | none => some (s, .returned none)
    else some (s, .failed)
  | .read w => some (s.set taskID w ok, .returned (some w))
  | _ => none

def upsert (t : HumanTask) (stage : TaskCacheStage) (ok : Bool) : Option (CachedTasks × TaskCacheStage) :=
  match stage with
  | .called =>
    if t.validate.isNone && ok then
      let w : WrittenTask := ⟨t, s.writes + 1⟩
      some ({ s with backing := Function.update s.backing t.taskID (some w), writes := s.writes + 1 }, .wrote w)
    else some (s, .failed)
  | .wrote w =>
    some ({ s.set t.taskID w ok with
            settled := Function.update s.settled t.taskID (max (s.settled t.taskID) w.number) }, .returned none)
  | _ => none

/-- The next action of a call. -/
def goOn (c : TaskCacheCall) (ok : Bool) : Option (CachedTasks × TaskCacheStage) :=
  match c.op with
  | .get taskID => s.get taskID c.stage ok
  | .upsert t => s.upsert t c.stage ok

def step : TaskCacheChoice → Option CachedTasks
  | .call op => some { s with calls := s.calls ++ [{ op := op, floor := s.settled op.taskID }] }
  | .expire taskID => some { s with cache := Function.update s.cache taskID none }
  | .goOn i ok => do
    let c ← s.calls[i]?
    let (s', stage) ← s.goOn c ok
    return { s' with calls := s.calls.set i { c with stage := stage } }

end CachedTasks

end Wrkflw
