import Wrkflw.Engine.Step

/-!
# The in-memory instance store

`MemInstanceStore` and `MemCallLinkStore` (`runtime/kernel/memstore.go`, `mem_calllink.go`, `calllink.go`, `ports.go`): the
snapshot and the version of each instance, its journal, and the call links of the child instances.

Each operation holds the store's lock from its start to its end, so it is one function of the store.
-/

namespace Wrkflw

structure CallLink where
  childInstanceID : String
  parentInstanceID : String
  parentCommandID : String
  parentDefID : String
  parentDefVersion : Int
  depth : Int
  deriving DecidableEq, Repr

/-- A child's terminal result. -/
structure CallOutcome where
  completed : Bool := false
  output : Vars := []
  err : String := ""
  deriving DecidableEq, Repr

/-- A claimed terminal link. -/
structure PendingNotify where
  link : CallLink
  outcome : CallOutcome
  deriving DecidableEq, Repr

/-- `memLink`, for a store without a claim lease. -/
structure MemLink where
  link : CallLink
  terminal : Bool := false
  outcome : CallOutcome := {}
  notified : Bool := false
  deriving DecidableEq, Repr

structure AppliedStep where
  state : InstanceState
  trigger : Trigger
  callOutcome : Option CallOutcome := none
  newCallLink : Option CallLink := none

structure MemInstance where
  state : InstanceState
  version : Nat

inductive StoreError where
  | instanceExists | instanceNotFound | concurrentUpdate
  deriving DecidableEq, Repr

/-! ## Call links -/

/-- The links, one for each child; no list stands for a store that tracks none. -/
abbrev MemCallLinks := List MemLink

namespace MemCallLinks

/-- `m.links[link.ChildInstanceID] = &memLink{link: link}`. -/
def record (links : MemCallLinks) (link : CallLink) : MemCallLinks :=
  links.filter (fun l => l.link.childInstanceID != link.childInstanceID) ++ [{ link := link }]

def markTerminal (links : MemCallLinks) (childID : String) (out : CallOutcome) : MemCallLinks :=
  links.map (fun l => if l.link.childInstanceID == childID then { l with terminal := true, outcome := out } else l)

/-- `ClaimPending`: terminal links that were not notified, at most `limit` of them where it is positive. -/
def claimPending (links : MemCallLinks) (limit : Int) : List PendingNotify :=
  let pending := (links.filter (fun l => l.terminal && !l.notified)).map (fun l => (⟨l.link, l.outcome⟩ : PendingNotify))
  if limit > 0 then pending.take limit.toNat else pending

def markNotified (links : MemCallLinks) (childID : String) : MemCallLinks :=
  links.map (fun l => if l.link.childInstanceID == childID then { l with notified := true } else l)

/-- `ListRunningChildren`, in the order of the child ids. -/
def listRunningChildren (links : MemCallLinks) (parentInstanceID : String) : List CallLink :=
  ((links.filter (fun l => !l.terminal && l.link.parentInstanceID == parentInstanceID)).map (·.link)).insertionSort
    (fun a b => a.childInstanceID ≤ b.childInstanceID)

end MemCallLinks

/-! ## Instances -/

structure MemInstanceStore where
  instances : String → Option MemInstance := fun _ => none
  journal : String → List Trigger := fun _ => []
  callLinks : Option MemCallLinks := none

namespace MemInstanceStore

/-- One entry of a map is written. -/
def put {α : Type} (m : String → α) (key : String) (v : α) : String → α := fun k => if k = key then v else m k

@[simp] theorem put_same {α : Type} (m : String → α) (key : String) (v : α) : put m key v key = v := if_pos rfl

@[simp] theorem put_other {α : Type} (m : String → α) {key k : String} (v : α) (h : k ≠ key) : put m key v k = m k := if_neg h

/-- `Create`: the step's call link is recorded with its first version. -/
def create (m : MemInstanceStore) (step : AppliedStep) : Except StoreError (MemInstanceStore × Nat) :=
  match m.instances step.state.instanceID with
  | some _ => .error .instanceExists
  | none =>
    .ok ({ instances := put m.instances step.state.instanceID (some ⟨step.state, 1⟩)
           journal := put m.journal step.state.instanceID (m.journal step.state.instanceID ++ [step.trigger])
           callLinks := match step.newCallLink with
             | some link => m.callLinks.map (fun links => links.record link)
             | none => m.callLinks }, 1)

def load (m : MemInstanceStore) (id : String) : Except StoreError (InstanceState × Nat) :=
  match m.instances id with
  | some inst => .ok (inst.state, inst.version)
  | none => .error .instanceNotFound

/-- `Commit`: a stale token leaves the store as it was. -/
def commit (m : MemInstanceStore) (expected : Nat) (step : AppliedStep) : Except StoreError (MemInstanceStore × Nat) :=
  match m.instances step.state.instanceID with
  | none => .error .instanceNotFound
  | some inst =>
    if inst.version ≠ expected then .error .concurrentUpdate
    else
      .ok ({ instances := put m.instances step.state.instanceID (some ⟨step.state, inst.version + 1⟩)
             journal := put m.journal step.state.instanceID (m.journal step.state.instanceID ++ [step.trigger])
             callLinks := match step.callOutcome with
               | some out => m.callLinks.map (fun links => links.markTerminal step.state.instanceID out)
               | none => m.callLinks }, inst.version + 1)

/-- The version of an instance; `0` for none. -/
def versionOf (m : MemInstanceStore) (id : String) : Nat :=
  match m.instances id with
  | some inst => inst.version
  | none => 0

variable {m m' : MemInstanceStore} {step : AppliedStep} {v expected : Nat} {id : String}

/-- What a creation that succeeds does. -/
theorem create_ok (h : m.create step = .ok (m', v)) : m.instances step.state.instanceID = none ∧ v = 1 ∧
    m'.instances = put m.instances step.state.instanceID (some ⟨step.state, 1⟩) ∧
    m'.journal = put m.journal step.state.instanceID (m.journal step.state.instanceID ++ [step.trigger]) ∧
    m'.callLinks = (match step.newCallLink with
      | some link => m.callLinks.map (fun links => links.record link)
      | none => m.callLinks) := by
  unfold create at h
  cases hinst : m.instances step.state.instanceID with
  | some inst =>
    rw [hinst] at h
    cases h
  | none =>
    rw [hinst] at h
    obtain ⟨rfl, rfl⟩ := Prod.mk.inj (Except.ok.inj h)
    exact ⟨rfl, rfl, rfl, rfl, rfl⟩

/-- What a commit that succeeds does. -/
theorem commit_ok (h : m.commit expected step = .ok (m', v)) :
    ∃ inst, m.instances step.state.instanceID = some inst ∧ inst.version = expected ∧ v = expected + 1 ∧
      m'.instances = put m.instances step.state.instanceID (some ⟨step.state, expected + 1⟩) ∧
      m'.journal = put m.journal step.state.instanceID (m.journal step.state.instanceID ++ [step.trigger]) ∧
      m'.callLinks = (match step.callOutcome with
        | some out => m.callLinks.map (fun links => links.markTerminal step.state.instanceID out)
        | none => m.callLinks) := by
  unfold commit at h
  cases hinst : m.instances step.state.instanceID with
  | none =>
    rw [hinst] at h
    cases h
  | some inst =>
    rw [hinst] at h
    dsimp only at h
    by_cases hv : inst.version ≠ expected
    · rw [if_pos hv] at h
      cases h
    · rw [if_neg hv] at h
      obtain ⟨rfl, rfl⟩ := Prod.mk.inj (Except.ok.inj h)
      rw [not_not] at hv
      subst hv
      exact ⟨inst, rfl, rfl, rfl, rfl, rfl, rfl⟩

/-- A commit is refused as concurrent exactly when the token is stale. -/
theorem commit_concurrent (h : m.commit expected step = .error .concurrentUpdate) :
    m.versionOf step.state.instanceID ≠ expected := by
  unfold commit at h
  unfold versionOf
  cases hinst : m.instances step.state.instanceID with
  | none =>
    rw [hinst] at h
    cases h
  | some inst =>
    rw [hinst] at h
    dsimp only at h ⊢
    by_cases hv : inst.version ≠ expected
    · exact hv
    · rw [if_neg hv] at h
      cases h

end MemInstanceStore

end Wrkflw
