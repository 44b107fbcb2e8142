import Wrkflw.Runtime.Driver
import Wrkflw.Machine.Run

/-!
# Calls of the driver, interleaved

A `Delivery` is one running call: `Drive` and its siblings create an instance, `applyTrigger` delivers a trigger and
`applyTriggerRetryingCAS` delivers it again after a lost commit. A `System` is the store and the calls; `System.step` lets
one call do its next thing, or begins a call. `Delivery.Does` says all a call can do in one transition.

The fields `committed`, `dispatched`, `lost` and `answers` are the record of a call that the properties are about. No
transition reads them.
-/

namespace Wrkflw

open ControlState

/-- The local variables of `deliverLoop`. -/
structure Loop where
  st : InstanceState
  token : Nat
  create : Bool := false
  firstCallLink : Option CallLink := none
  queue : List Trigger

/-- Where a call stands. -/
inductive Stage where
  | load
  | iterate (l : Loop)
  | perform (l : Loop) (commands : List Command)
  /-- The call of a child runs; `callee` is its place among the calls. -/
  | child (l : Loop) (commandID childID : String) (commands : List Command) (callee : Nat)
  | done (result : Except DriverError InstanceState)

/-- The commits and the dispatches of one attempt. -/
structure Deeds where
  committed : List Trigger := []
  dispatched : List Command := []

structure Delivery (gen : Option IDGenerator) where
  driver : ProcessDriver gen
  definition : ProcessDefinition
  instanceID : String
  trigger : Trigger
  /-- How many further attempts a lost commit leaves. -/
  retries : Nat := 0
  /-- `callDepth`. -/
  depth : Nat := 0
  stage : Stage
  /-- What the attempt that runs, or ran last, has done. -/
  deeds : Deeds := {}
  /-- What each attempt that came to `ErrConcurrentUpdate` had done. -/
  lost : List Deeds := []
  /-- The triggers that performing a command gave. -/
  answers : List Trigger := []

def casRetryAttempts : Nat := 5

/-- Performing the command may give the loop a trigger. -/
def Command.answers : Command → Bool
  | .invokeAction _ _ _ fireAndForget => !fireAndForget
  | .startSubInstance .. => true
  | _ => false

/-- The commands that are done with the commit. -/
def Command.ofTimer : Command → Bool
  | .scheduleTimer .. | .cancelTimer _ => true
  | _ => false

variable {gen : Option IDGenerator}

namespace Delivery

/-- `applyTrigger`, or `applyTriggerRetryingCAS`. -/
def apply (driver : ProcessDriver gen) (d : ProcessDefinition) (instanceID : String) (trg : Trigger) (retrying : Bool) :
    Delivery gen where
  driver := driver
  definition := d
  instanceID := instanceID
  trigger := trg
  retries := if retrying then casRetryAttempts - 1 else 0
  stage := .load

/-- `Drive`, `createAtNode` and `runChild`: the loop begins with an instance that has only its id. -/
def create (driver : ProcessDriver gen) (d : ProcessDefinition) (instanceID : String) (trg : Trigger) (depth : Nat)
    (link : Option CallLink) : Delivery gen where
  driver := driver
  definition := d
  instanceID := instanceID
  trigger := trg
  depth := depth
  stage := .iterate { st := { instanceID := instanceID }, token := 0, create := true, firstCallLink := link, queue := [trg] }

variable (c : Delivery gen)

/-- The attempt ends with an error; a lost commit is tried again while attempts are left. -/
def returns (e : DriverError) : Delivery gen :=
  if e.isConcurrent then
    match c.retries with
    | 0 => { c with stage := .done (.error e), lost := c.lost ++ [c.deeds] }
    | n + 1 => { c with retries := n, stage := .load, deeds := {}, lost := c.lost ++ [c.deeds] }
  else { c with stage := .done (.error e) }

/-- A trigger joins the queue of the loop. -/
def resume (l : Loop) (commands : List Command) : Option Trigger → Delivery gen
  | none => { c with stage := .perform l commands }
  | some t => { c with stage := .perform { l with queue := l.queue ++ [t] } commands, answers := c.answers ++ [t] }

def notesCommit (t : Trigger) : Delivery gen := { c with deeds.committed := c.deeds.committed ++ [t] }

def notesDispatch (cmd : Command) : Delivery gen := { c with deeds.dispatched := c.deeds.dispatched ++ [cmd] }

/-- The step writes to the timer store: it arms or cancels a timer, or consumes the one that fired. -/
def writesTimers (t : Trigger) (commands : List Command) : Bool :=
  commands.any Command.ofTimer || (match t.body with | .timerFired _ => true | _ => false)

/-- The store's part of the commit. -/
def writes (m : MemInstanceStore) (l : Loop) (t : Trigger) (r : StepResult) (outcome : Option CallOutcome) :
    Except StoreError (MemInstanceStore × Nat) :=
  let applied : AppliedStep := ⟨r.state, t, outcome, if l.create then l.firstCallLink else none⟩
  if l.create then m.create applied else m.commit l.token applied

/-- The head of the queue is stepped and the result committed. A store without transactions keeps the commit when the
timer writes fail after it. -/
def iterate (w : World) (m : MemInstanceStore) (l : Loop) (t : Trigger) (queue : List Trigger) :
    Option (MemInstanceStore × Delivery gen) :=
  match c.driver.prepare w.fuel c.definition l.st t with
  | none => none
  | some (.error e) => some (m, c.returns e)
  | some (.ok (r, outcome)) =>
    match writes m l t r outcome with
    | .error e => some (m, c.returns ((DriverError.ofStore e).wrap "workflow-runtime: commit: "))
    | .ok (m', version) =>
      match writesTimers t r.commands, w.failure with
      | true, some e => some (m', (c.notesCommit t).returns (e.wrap "workflow-runtime: commit: "))
      | _, _ =>
        some (m', { c.notesCommit t with stage := .perform { st := r.state, token := version, queue := queue } r.commands })

/-- The next command is performed; a child's call begins at the place `callee`. -/
def performs (w : World) (m : MemInstanceStore) (callee : Nat) (l : Loop) (cmd : Command) (commands : List Command) :
    Delivery gen × Option (Delivery gen) :=
  if cmd.ofTimer then ({ c with stage := .perform l commands }, none)
  else
    let c := c.notesDispatch cmd
    match c.driver.perform w (m.callLinks.getD []) c.depth c.definition l.st cmd with
    | .error e => (c.returns e, none)
    | .ok (.next t) => (c.resume l commands t, none)
    | .ok (.child child) =>
      ({ c with stage := .child l cmd.correlationID child.instanceID commands callee },
        some (.create c.driver child.definition child.instanceID ⟨w.now, .startInstance child.input ""⟩
        (c.depth + 1) child.link))

end Delivery

/-! ## The system -/

structure System (gen : Option IDGenerator) where
  store : MemInstanceStore
  calls : List (Delivery gen) := []

namespace System
variable (y : System gen)

/-- The store and the calls after the call at a place has done its next thing; `none` when it can do nothing. -/
def advance (i : Nat) (w : World) : Option (System gen) :=
  match y.calls[i]? with
  | none => none
  | some c =>
    match c.stage with
    | .load =>
      match y.store.load c.instanceID with
      | .error e =>
        some { y with calls := y.calls.set i (c.returns ((DriverError.ofStore e).wrap "workflow-runtime: deliver: load: ")) }
      | .ok (st, token) =>
        some { y with calls := y.calls.set i { c with stage := .iterate { st := st, token := token, queue := [c.trigger] } } }
    | .iterate l =>
      match l.queue with
      | [] => some { y with calls := y.calls.set i { c with stage := .done (.ok l.st) } }
      | t :: queue => (c.iterate w y.store l t queue).map (fun (m, c') => { store := m, calls := y.calls.set i c' })
    | .perform l [] => some { y with calls := y.calls.set i { c with stage := .iterate l } }
    | .perform l (cmd :: commands) =>
      let (c', child) := c.performs w y.store y.calls.length l cmd commands
      some { y with calls := y.calls.set i c' ++ child.toList }
    | .child l commandID childID commands callee =>
      match y.calls[callee]? with
      | none => none
      | some callee =>
        match callee.stage with
        | .done result =>
          some { y with calls := y.calls.set i (c.resume l commands (c.driver.afterChild w commandID childID result)) }
        | _ => none
    | .done _ => none

end System

/-! ## What a call can do -/

/-- One transition of a call: the store and the call after it, and the call of a child it began. -/
inductive Delivery.Does (y : System gen) (w : World) (c : Delivery gen) :
    MemInstanceStore → Delivery gen → Option (Delivery gen) → Prop
  | notFound (hstage : c.stage = .load) (e : DriverError) (he : e.isConcurrent = false) :
      Does y w c y.store (c.returns e) none
  | loads (hstage : c.stage = .load) (st : InstanceState) (token : Nat)
      (hinst : y.store.instances c.instanceID = some ⟨st, token⟩) :
      Does y w c y.store { c with stage := .iterate { st := st, token := token, queue := [c.trigger] } } none
  | finishes (l : Loop) (hstage : c.stage = .iterate l) (hqueue : l.queue = []) :
      Does y w c y.store { c with stage := .done (.ok l.st) } none
  | refused (l : Loop) (hstage : c.stage = .iterate l) (t : Trigger) (queue : List Trigger) (hqueue : l.queue = t :: queue)
      (e : DriverError) (hprep : c.driver.prepare w.fuel c.definition l.st t = some (.error e)) :
      Does y w c y.store (c.returns e) none
  | loses (l : Loop) (hstage : c.stage = .iterate l) (t : Trigger) (queue : List Trigger) (hqueue : l.queue = t :: queue)
      (r : StepResult) (outcome : Option CallOutcome)
      (hprep : c.driver.prepare w.fuel c.definition l.st t = some (.ok (r, outcome))) (e : StoreError)
      (hwrite : writes y.store l t r outcome = .error e) :
      Does y w c y.store (c.returns ((DriverError.ofStore e).wrap "workflow-runtime: commit: ")) none
  | timersFail (l : Loop) (hstage : c.stage = .iterate l) (t : Trigger) (queue : List Trigger) (hqueue : l.queue = t :: queue)
      (r : StepResult) (outcome : Option CallOutcome)
      (hprep : c.driver.prepare w.fuel c.definition l.st t = some (.ok (r, outcome))) (m : MemInstanceStore) (version : Nat)
      (hwrite : writes y.store l t r outcome = .ok (m, version)) (e : DriverError) (hfail : w.failure = some e) :
      Does y w c m ((c.notesCommit t).returns (e.wrap "workflow-runtime: commit: ")) none
  | commits (l : Loop) (hstage : c.stage = .iterate l) (t : Trigger) (queue : List Trigger) (hqueue : l.queue = t :: queue)
      (r : StepResult) (outcome : Option CallOutcome)
      (hprep : c.driver.prepare w.fuel c.definition l.st t = some (.ok (r, outcome))) (m : MemInstanceStore) (version : Nat)
      (hwrite : writes y.store l t r outcome = .ok (m, version)) :
      Does y w c m
        { c.notesCommit t with stage := .perform { st := r.state, token := version, queue := queue } r.commands } none
  | performed (l : Loop) (hstage : c.stage = .perform l []) : Does y w c y.store { c with stage := .iterate l } none
  | skips (l : Loop) (cmd : Command) (commands : List Command) (hstage : c.stage = .perform l (cmd :: commands))
      (htimer : cmd.ofTimer = true) : Does y w c y.store { c with stage := .perform l commands } none
  | performFails (l : Loop) (cmd : Command) (commands : List Command) (hstage : c.stage = .perform l (cmd :: commands))
      (e : DriverError) (pre : String) (hfail : w.failure = some e) :
      Does y w c y.store ((c.notesDispatch cmd).returns (e.wrap pre)) none
  | performs (l : Loop) (cmd : Command) (commands : List Command) (hstage : c.stage = .perform l (cmd :: commands))
      (t : Option Trigger) (hanswers : t ≠ none → cmd.answers = true) :
      Does y w c y.store ((c.notesDispatch cmd).resume l commands t) none
  | spawns (l : Loop) (cmd : Command) (commands : List Command) (hstage : c.stage = .perform l (cmd :: commands))
      (hanswers : cmd.answers = true) (child : Child)
      (hlink : ∀ link ∈ child.link, link.childInstanceID = child.instanceID) :
      Does y w c y.store
        { c.notesDispatch cmd with
          stage := .child l cmd.correlationID child.instanceID commands y.calls.length }
        (some (.create c.driver child.definition child.instanceID ⟨w.now, .startInstance child.input ""⟩ (c.depth + 1)
          child.link))
  | resumes (l : Loop) (commandID childID : String) (commands : List Command) (callee : Nat)
      (hstage : c.stage = .child l commandID childID commands callee) (t : Option Trigger) :
      Does y w c y.store (c.resume l commands t) none

section Does
variable {y z : System gen} {w : World} {c : Delivery gen} {i : Nat}

theorem performInvokeAction_answers {commandID name : String} {input : Vars} {fireAndForget : Bool} :
    ProcessDriver.performInvokeAction w commandID name fireAndForget ≠ none →
      (Command.invokeAction commandID name input fireAndForget).answers = true := by
  cases fireAndForget with
  | false => exact fun _ => rfl
  | true => exact fun h => absurd rfl h

/-- Where performing a command leads. -/
theorem Delivery.performs_does (l : Loop) (cmd : Command) (commands : List Command)
    (hstage : c.stage = .perform l (cmd :: commands)) :
    c.Does y w y.store (c.performs w y.store y.calls.length l cmd commands).1
      (c.performs w y.store y.calls.length l cmd commands).2 := by
  unfold Delivery.performs
  split
  · rename_i htimer
    exact .skips l cmd commands hstage htimer
  · -- a store that fails comes first
    unfold ProcessDriver.perform
    split
    · rename_i pre e _ hfail
      exact .performFails l cmd commands hstage e pre hfail
    · cases cmd with
      | invokeAction commandID name input fireAndForget =>
        exact .performs l _ commands hstage _ performInvokeAction_answers
      | startSubInstance commandID defRef input =>
        dsimp only
        split
        · rename_i heq
          cases heq
        · rename_i t heq
          exact .performs l _ commands hstage t (fun _ => rfl)
        · rename_i child heq
          exact .spawns l _ commands hstage rfl child (ProcessDriver.performStartSubInstance_link _ (Except.ok.inj heq))
      | _ => exact .performs l _ commands hstage none (fun h => absurd rfl h)

/-- Where an iteration leads. -/
theorem Delivery.iterate_does {l : Loop} (hstage : c.stage = .iterate l) {t : Trigger} {queue : List Trigger}
    (hqueue : l.queue = t :: queue) {m : MemInstanceStore} {c' : Delivery gen}
    (h : c.iterate w y.store l t queue = some (m, c')) : c.Does y w m c' none := by
  unfold Delivery.iterate at h
  split at h
  · cases h
  · rename_i e hprep
    cases h
    exact .refused l hstage t queue hqueue e hprep
  · rename_i r outcome hprep
    split at h
    · rename_i e hwrite
      cases h
      exact .loses l hstage t queue hqueue r outcome hprep e hwrite
    · rename_i m' version hwrite
      split at h
      · rename_i e hw hfail
        cases h
        exact .timersFail l hstage t queue hqueue r outcome hprep m version hwrite e hfail
      · cases h
        exact .commits l hstage t queue hqueue r outcome hprep m version hwrite

/-- A transition is one of those. -/
theorem System.advance_does (h : y.advance i w = some z) :
    ∃ c m c' child, y.calls[i]? = some c ∧ c.Does y w m c' child ∧
      z = { store := m, calls := y.calls.set i c' ++ child.toList } := by
  unfold System.advance at h
  split at h
  · cases h
  · rename_i c hc
    refine ⟨c, ?_⟩
    have hone : ∀ {c' : Delivery gen}, c.Does y w y.store c' none → some { y with calls := y.calls.set i c' } = some z →
        ∃ m c' child, y.calls[i]? = some c ∧ c.Does y w m c' child ∧
          z = { store := m, calls := y.calls.set i c' ++ child.toList } := by
      intro c' hdoes he
      refine ⟨y.store, c', none, hc, hdoes, ?_⟩
      rw [← Option.some.inj he, Option.toList_none, List.append_nil]
    split at h
    · rename_i hstage
      unfold MemInstanceStore.load at h
      split at h
      · rename_i e hload
        refine hone (.notFound hstage _ ?_) h
        split at hload
        · cases hload
        · cases hload
          rfl
      · rename_i st token hload
        refine hone (.loads hstage st token ?_) h
        split at hload
        · rename_i inst hinst
          cases hload
          exact hinst
        · cases hload
    · rename_i l hstage
      split at h
      · rename_i hqueue
        exact hone (.finishes l hstage hqueue) h
      · rename_i t queue hqueue
        obtain ⟨⟨m, c'⟩, hit, rfl⟩ := Option.map_eq_some_iff.mp h
        refine ⟨m, c', none, hc, Delivery.iterate_does hstage hqueue hit, ?_⟩
        rw [Option.toList_none, List.append_nil]
    · rename_i l hstage
      exact hone (.performed l hstage) h
    · rename_i l cmd commands hstage
      exact ⟨_, _, _, hc, Delivery.performs_does l cmd commands hstage, (Option.some.inj h).symm⟩
    · rename_i l commandID childID commands callee hstage
      split at h
      · cases h
      · split at h
        · exact hone (.resumes l commandID childID commands callee hstage _) h
        · cases h
    · cases h

/-- A call that has returned does nothing. -/
theorem Delivery.Does.not_done {m : MemInstanceStore} {c' : Delivery gen} {child : Option (Delivery gen)}
    (h : c.Does y w m c' child) {r : Except DriverError InstanceState} (hdone : c.stage = .done r) : False := by
  cases h <;> simp_all only [reduceCtorEq]

end Does

/-- What may happen next: a call begins, one goes on, or a parent is told of its child's end. -/
inductive Choice (gen : Option IDGenerator) where
  | apply (driver : ProcessDriver gen) (d : ProcessDefinition) (instanceID : String) (trg : Trigger) (retrying : Bool)
  | start (driver : ProcessDriver gen) (d : ProcessDefinition) (instanceID : String) (at_ : Time) (vars : Vars)
      (startNodeID : String)
  | advance (i : Nat) (w : World)
  | markNotified (childID : String)

def System.step (y : System gen) : Choice gen → Option (System gen)
  | .apply driver d instanceID trg retrying =>
    some { y with calls := y.calls ++ [.apply driver d instanceID trg retrying] }
  | .start driver d instanceID at_ vars startNodeID =>
    some { y with calls := y.calls ++ [.create driver d instanceID ⟨at_, .startInstance vars startNodeID⟩ 0 none] }
  | .advance i w => y.advance i w
  | .markNotified childID =>
    some { y with store.callLinks := y.store.callLinks.map (fun links => links.markNotified childID) }

/-- The choices lead from one system to the other, and each meets a condition on the system it is made in. -/
inductive System.Runs (P : System gen → Choice gen → Prop) (x : System gen) : List (Choice gen) → System gen → Prop
  | refl : Runs P x [] x
  | tail {choices : List (Choice gen)} {y z : System gen} (h : Runs P x choices y) (choice : Choice gen) (hP : P y choice)
      (hstep : y.step choice = some z) : Runs P x (choices ++ [choice]) z

/-- What every transition keeps holds after every run. -/
theorem System.Runs.induction {P : System gen → Choice gen → Prop} {x y : System gen} {choices : List (Choice gen)}
    {I : System gen → Prop} (h : System.Runs P x choices y) (hx : I x)
    (hstep : ∀ {y z : System gen} {choice}, I y → P y choice → y.step choice = some z → I z) : I y := by
  induction h with
  | refl => exact hx
  | tail _ choice hP hs ih => exact hstep ih hP hs

/-- The system after the choices, if each can be made and meets the condition. -/
def System.play (P : System gen → Choice gen → Prop) [∀ y choice, Decidable (P y choice)] (y : System gen) :
    List (Choice gen) → Option (System gen)
  | [] => some y
  | choice :: choices => if P y choice then (y.step choice).bind (fun z => z.play P choices) else none

theorem System.runs_of_play {P : System gen → Choice gen → Prop} [∀ y choice, Decidable (P y choice)] {x y z : System gen}
    {before choices : List (Choice gen)} (hrun : System.Runs P x before y) (h : y.play P choices = some z) :
    System.Runs P x (before ++ choices) z := by
  induction choices generalizing before y with
  | nil =>
    cases h
    rw [List.append_nil]
    exact hrun
  | cons choice choices ih =>
    unfold System.play at h
    split at h
    · rename_i hP
      obtain ⟨y', hstep, hrest⟩ := Option.bind_eq_some_iff.mp h
      have hlater := ih (hrun.tail choice hP hstep) hrest
      rw [List.append_assoc] at hlater
      exact hlater
    · cases h

/-- The choices can be made, and lead to a system with the property. -/
def System.plays (P : System gen → Choice gen → Prop) [∀ y choice, Decidable (P y choice)] (x : System gen)
    (choices : List (Choice gen)) (Q : System gen → Bool) : Bool :=
  match x.play P choices with
  | some y => Q y
  | none => false

theorem System.runs_of_plays {P : System gen → Choice gen → Prop} [∀ y choice, Decidable (P y choice)] {x : System gen}
    {choices : List (Choice gen)} {Q : System gen → Bool} (h : System.plays P x choices Q = true) :
    ∃ y, System.Runs P x choices y ∧ Q y = true := by
  unfold System.plays at h
  split at h
  · rename_i y hy
    exact ⟨y, System.runs_of_play System.Runs.refl hy, h⟩
  · cases h

/-- A driver with an evaluator that says yes and a resolver that finds nobody. -/
def plainDriver : ProcessDriver none where
  conditionEval := plainOptions.evaluator
  floatOps := plainOptions.floatOps
  resolver := some (fun _ _ => .ok [])
  shortHash := fun s _ => s

/-! ## Steps, loads and commits -/

section Facts
variable {driver : ProcessDriver gen} {fuel : Nat} {d : ProcessDefinition} {s : InstanceState} {t : Trigger}
  {r : StepResult} {outcome : Option CallOutcome} {m m' : MemInstanceStore} {l : Loop} {id : String}

/-- Finding candidates changes nothing but tasks, and nothing where no command asks for it. -/
theorem resolveHumanCandidates_ok {commands : List Command} {s s' : InstanceState}
    (h : driver.resolveHumanCandidates s commands = .ok s') :
    (∃ tasks, s' = { s with tasks := tasks }) ∧ (commands = [] → s' = s) := by
  induction commands generalizing s with
  | nil =>
    have he : s' = s := (Except.ok.inj h).symm
    exact ⟨⟨s.tasks, he⟩, fun _ => he⟩
  | cons cmd commands ih =>
    refine ⟨?_, fun hnil => nomatch hnil⟩
    unfold ProcessDriver.resolveHumanCandidates at h
    split at h
    · rename_i hnil
      cases hnil
    · rename_i taskID eligibility cmds heq
      cases heq
      split at h
      · cases h
      · split at h
        · cases h
        · split at h
          · cases h
          · obtain ⟨⟨tasks, he⟩, -⟩ := ih h
            exact ⟨tasks, he⟩
    · rename_i cmds heq
      cases heq
      exact (ih h).1

/-- What a prepared step is: a step of the engine, with the candidates of its tasks. -/
theorem prepare_resolves (h : driver.prepare fuel d s t = some (.ok (r, outcome))) :
    ∃ r0, step fuel d s t (driver.stepOptions d s t) = .ok r0 ∧
      driver.resolveHumanCandidates r0.state r0.commands = .ok r.state ∧
      r.commands = r0.commands ∧
      outcome = (if driver.callLinks && r.state.status.isTerminal && !s.status.isTerminal then some (callOutcomeOf r.state)
        else none) := by
  unfold ProcessDriver.prepare at h
  split at h
  · cases h
  · split at h
    · split at h
      · cases h
      · cases h
    · rename_i r0 hstep
      have hdo := Option.some.inj h
      cases hvalid : validateTaskCommands r0.commands with
      | error e =>
        rw [hvalid] at hdo
        cases hdo
      | ok u =>
        cases hres : driver.resolveHumanCandidates r0.state r0.commands with
        | error e =>
          rw [hvalid, hres] at hdo
          cases hdo
        | ok state =>
          rw [hvalid, hres] at hdo
          cases hdo
          exact ⟨r0, hstep, hres, rfl, rfl⟩

/-- A prepared step differs from the step of the engine in its tasks only. -/
theorem prepare_ok (h : driver.prepare fuel d s t = some (.ok (r, outcome))) :
    ∃ r0, step fuel d s t (driver.stepOptions d s t) = .ok r0 ∧ (∃ tasks, r.state = { r0.state with tasks := tasks }) ∧
      r.commands = r0.commands ∧ (r0.commands = [] → r.state = r0.state) ∧
      outcome = (if driver.callLinks && r.state.status.isTerminal && !s.status.isTerminal then some (callOutcomeOf r.state)
        else none) := by
  obtain ⟨r0, hstep, hres, hcmds, houtcome⟩ := prepare_resolves h
  obtain ⟨htasks, hsame⟩ := resolveHumanCandidates_ok hres
  exact ⟨r0, hstep, htasks, hcmds, hsame, houtcome⟩

/-- An error that wraps no sentinel. -/
def DriverError.Bare (e : DriverError) : Prop := e.sentinel = none ∧ e.kind = none

theorem DriverError.Bare.not_concurrent {e : DriverError} (h : e.Bare) : e.isConcurrent = false := by
  unfold DriverError.isConcurrent
  rw [h.1]
  rfl

theorem validateTaskCommands_error {commands : List Command} {e : DriverError}
    (h : validateTaskCommands commands = .error e) : e.Bare := by
  induction commands with
  | nil => cases h
  | cons cmd commands ih =>
    unfold validateTaskCommands at h
    split at h
    · cases h
    · rename_i heq
      cases heq
      split at h
      · cases h
        exact ⟨rfl, rfl⟩
      · exact ih h
    · rename_i heq
      cases heq
      exact ih h

theorem resolveHumanCandidates_error {commands : List Command} {s : InstanceState} {e : DriverError}
    (h : driver.resolveHumanCandidates s commands = .error e) : e.Bare := by
  induction commands generalizing s with
  | nil => cases h
  | cons cmd commands ih =>
    unfold ProcessDriver.resolveHumanCandidates at h
    split at h
    · cases h
    · rename_i heq
      cases heq
      split at h
      · cases h
        exact ⟨rfl, rfl⟩
      · split at h
        · cases h
          exact ⟨rfl, rfl⟩
        · split at h
          · cases h
            exact ⟨rfl, rfl⟩
          · exact ih h
    · rename_i heq
      cases heq
      exact ih h

/-- What refuses a step is not the store. -/
theorem prepare_error {e : DriverError} (h : driver.prepare fuel d s t = some (.error e)) : e.isConcurrent = false := by
  unfold ProcessDriver.prepare at h
  split at h
  · cases h
    rfl
  · split at h
    · split at h
      · cases h
      · cases h
        rfl
    · rename_i r0 hstep
      have hdo := Option.some.inj h
      cases hvalid : validateTaskCommands r0.commands with
      | error e' =>
        rw [hvalid] at hdo
        cases hdo
        exact (validateTaskCommands_error hvalid).not_concurrent
      | ok u =>
        cases hres : driver.resolveHumanCandidates r0.state r0.commands with
        | error e' =>
          rw [hvalid, hres] at hdo
          cases hdo
          exact (resolveHumanCandidates_error hres).not_concurrent
        | ok state =>
          rw [hvalid, hres] at hdo
          cases hdo

theorem prepare_sound (hs : Steps.Sound gen id s) (h : driver.prepare fuel d s t = some (.ok (r, outcome))) :
    Steps.Sound gen id r.state := by
  obtain ⟨r0, hstep, ⟨tasks, hstate⟩, -⟩ := prepare_ok h
  let call : Call := ⟨fuel, t, driver.stepOptions d s t⟩
  have hgen : call.opt.idGenerator = _ := rfl
  have hsound := hs.step hgen hstep
  rw [hstate]
  exact ⟨hsound.instanceID, hsound.wf⟩

/-- A write that succeeds: the instance was at the loop's version, and is the new state at the next. -/
theorem Delivery.writes_ok {version : Nat} (hid : r.state.instanceID = id)
    (h : Delivery.writes m l t r outcome = .ok (m', version)) :
    (l.create = true ∧ m.instances id = none ∨ l.create = false ∧ ∃ st, m.instances id = some ⟨st, l.token⟩) ∧
      m'.instances = MemInstanceStore.put m.instances id (some ⟨r.state, version⟩) ∧
      m'.journal = MemInstanceStore.put m.journal id (m.journal id ++ [t]) := by
  subst hid
  unfold Delivery.writes at h
  dsimp only at h
  by_cases hcreate : l.create = true
  · rw [if_pos hcreate] at h
    obtain ⟨hnone, rfl, hinst, hjournal, -⟩ := MemInstanceStore.create_ok h
    exact ⟨Or.inl ⟨hcreate, hnone⟩, hinst, hjournal⟩
  · rw [if_neg hcreate] at h
    obtain ⟨⟨st, v⟩, hsome, rfl, rfl, hinst, hjournal, -⟩ := MemInstanceStore.commit_ok h
    exact ⟨Or.inr ⟨Bool.not_eq_true _ ▸ hcreate, st, hsome⟩, hinst, hjournal⟩

/-- A write that is refused as concurrent: the version is not the loop's. -/
theorem Delivery.writes_concurrent (hid : r.state.instanceID = id)
    (h : Delivery.writes m l t r outcome = .error .concurrentUpdate) : m.versionOf id ≠ l.token := by
  subst hid
  unfold Delivery.writes at h
  dsimp only at h
  by_cases hcreate : l.create = true
  · rw [if_pos hcreate] at h
    unfold MemInstanceStore.create at h
    split at h
    · cases h
    · cases h
  · rw [if_neg hcreate] at h
    exact MemInstanceStore.commit_concurrent h

end Facts

/-! ## Calls -/

/-- The calls after a transition. -/
theorem mem_calls_after {calls : List (Delivery gen)} {i : Nat} {c c' : Delivery gen} {child : Option (Delivery gen)}
    (h : c ∈ calls.set i c' ++ child.toList) : c = c' ∨ (∃ j, j ≠ i ∧ calls[j]? = some c) ∨ child = some c := by
  rcases List.mem_append.mp h with h | h
  · obtain ⟨j, hj⟩ := List.mem_iff_getElem?.mp h
    rw [List.getElem?_set] at hj
    by_cases hij : i = j
    · subst hij
      rw [if_pos rfl] at hj
      split at hj
      · exact Or.inl (Option.some.inj hj).symm
      · cases hj
    · rw [if_neg hij] at hj
      exact Or.inr (Or.inl ⟨j, Ne.symm hij, hj⟩)
  · exact Or.inr (Or.inr (Option.mem_toList.mp h))

/-- A call that has just begun. -/
inductive Delivery.Fresh : Delivery gen → Prop
  | apply (driver : ProcessDriver gen) (d : ProcessDefinition) (instanceID : String) (trg : Trigger) (retrying : Bool) :
      Fresh (.apply driver d instanceID trg retrying)
  | create (driver : ProcessDriver gen) (d : ProcessDefinition) (instanceID : String) (trg : Trigger) (depth : Nat)
      (link : Option CallLink) (hlink : ∀ l ∈ link, l.childInstanceID = instanceID) :
      Fresh (.create driver d instanceID trg depth link)

/-- What holds of a fresh call and survives every transition holds of every call. -/
theorem System.calls_induction {G : MemInstanceStore → Delivery gen → Prop} {y z : System gen} {choice : Choice gen}
    (hall : ∀ c ∈ y.calls, G y.store c) (hstep : y.step choice = some z)
    (hfresh : ∀ {m c}, c.Fresh → G m c)
    (hlinks : ∀ {m : MemInstanceStore} {c} links, G m c → G { m with callLinks := links } c)
    (hdoes : ∀ {i w c m c' child}, choice = .advance i w → y.calls[i]? = some c → c.Does y w m c' child →
      G m c' ∧ ∀ j c'', j ≠ i → y.calls[j]? = some c'' → G m c'') : ∀ c ∈ z.calls, G z.store c := by
  intro c hc
  cases choice with
  | apply driver d instanceID trg retrying =>
    cases hstep
    rcases List.mem_append.mp hc with hc | hc
    · exact hall c hc
    · rw [List.mem_singleton.mp hc]
      exact hfresh (.apply driver d instanceID trg retrying)
  | start driver d instanceID at_ vars startNodeID =>
    cases hstep
    rcases List.mem_append.mp hc with hc | hc
    · exact hall c hc
    · rw [List.mem_singleton.mp hc]
      exact hfresh (.create driver d instanceID _ 0 none (fun _ h => nomatch h))
  | markNotified childID =>
    cases hstep
    exact hlinks _ (hall c hc)
  | advance i w =>
    obtain ⟨c0, m, c', child, hget, hdo, rfl⟩ := System.advance_does hstep
    obtain ⟨hself, hothers⟩ := hdoes rfl hget hdo
    rcases mem_calls_after hc with rfl | ⟨j, hne, hj⟩ | hchild
    · exact hself
    · exact hothers j c hne hj
    · cases hdo with
      | spawns l cmd commands hstage hanswers child hlink =>
        cases hchild
        exact hfresh (.create _ _ _ _ _ _ hlink)
      | _ => cases hchild

/-- The loop of a call that runs. -/
def Stage.loop? : Stage → Option Loop
  | .iterate l | .perform l _ | .child l _ _ _ _ => some l
  | .load | .done _ => none

section Returns
variable {c : Delivery gen} {e : DriverError} {l : Loop} {commands : List Command} {t : Option Trigger}

@[simp] theorem Delivery.returns_instanceID : (c.returns e).instanceID = c.instanceID := by
  unfold Delivery.returns
  split
  · split <;> rfl
  · rfl

@[simp] theorem Delivery.returns_driver : (c.returns e).driver = c.driver := by
  unfold Delivery.returns
  split
  · split <;> rfl
  · rfl

@[simp] theorem Delivery.returns_loop : (c.returns e).stage.loop? = none := by
  unfold Delivery.returns
  split
  · split <;> rfl
  · rfl

theorem Delivery.returns_retries (h : c.retries = 0) : (c.returns e).retries = 0 := by
  unfold Delivery.returns
  split
  · rw [h]
  · exact h

/-- An attempt that was not lost ends the call. -/
theorem Delivery.returns_of_not_concurrent (he : e.isConcurrent = false) :
    c.returns e = { c with stage := .done (.error e) } := by
  unfold Delivery.returns
  rw [he]
  rfl

@[simp] theorem Delivery.resume_instanceID : (c.resume l commands t).instanceID = c.instanceID := by cases t <;> rfl

@[simp] theorem Delivery.resume_driver : (c.resume l commands t).driver = c.driver := by cases t <;> rfl

/-- The loop after a command was performed. -/
def Loop.append (l : Loop) (t : Option Trigger) : Loop := { l with queue := l.queue ++ t.toList }

theorem Delivery.resume_stage : (c.resume l commands t).stage = .perform (l.append t) commands := by
  cases t with
  | none =>
    unfold Delivery.resume Loop.append
    rw [Option.toList_none, List.append_nil]
  | some t => rfl

theorem Delivery.resume_deeds : (c.resume l commands t).deeds = c.deeds := by cases t <;> rfl

end Returns

/-! ## The states are an engine's -/

/-- Every stored state and every state a loop holds is sound. -/
structure System.Sound (y : System gen) : Prop where
  stored : ∀ id inst, y.store.instances id = some inst → Steps.Sound gen id inst.state
  held : ∀ c ∈ y.calls, ∀ l, c.stage.loop? = some l → Steps.Sound gen c.instanceID l.st

section Sound
variable {y z : System gen} {w : World} {c c' : Delivery gen} {m : MemInstanceStore} {child : Option (Delivery gen)}

theorem put_sound {instances : String → Option MemInstance} {id : String} {inst : MemInstance}
    (h : ∀ id inst, instances id = some inst → Steps.Sound gen id inst.state) (hnew : Steps.Sound gen id inst.state) :
    ∀ id' inst', MemInstanceStore.put instances id (some inst) id' = some inst' → Steps.Sound gen id' inst'.state := by
  intro id' inst' hput
  by_cases hid : id' = id
  · subst hid
    rw [MemInstanceStore.put_same] at hput
    cases hput
    exact hnew
  · rw [MemInstanceStore.put_other _ _ hid] at hput
    exact h id' inst' hput

/-- One transition keeps the states sound. -/
theorem Delivery.Does.sound (hstored : ∀ id inst, y.store.instances id = some inst → Steps.Sound gen id inst.state)
    (hheld : ∀ l, c.stage.loop? = some l → Steps.Sound gen c.instanceID l.st) (h : c.Does y w m c' child) :
    (∀ id inst, m.instances id = some inst → Steps.Sound gen id inst.state) ∧
      ∀ l, c'.stage.loop? = some l → Steps.Sound gen c'.instanceID l.st := by
  have hback : ∀ {e}, (∀ l, (c.returns e).stage.loop? = some l → Steps.Sound gen (c.returns e).instanceID l.st) := by
    intro e l hl
    rw [Delivery.returns_loop] at hl
    cases hl
  have hwrites : ∀ {l t r outcome version}, c.stage = .iterate l →
      c.driver.prepare w.fuel c.definition l.st t = some (.ok (r, outcome)) →
      Delivery.writes y.store l t r outcome = .ok (m, version) →
      Steps.Sound gen c.instanceID r.state ∧ ∀ id inst, m.instances id = some inst → Steps.Sound gen id inst.state := by
    intro l t r outcome version hstage hprep hwrite
    have hr := prepare_sound (hheld l (by rw [hstage]; rfl)) hprep
    obtain ⟨-, hinst, -⟩ := Delivery.writes_ok hr.instanceID hwrite
    refine ⟨hr, ?_⟩
    rw [hinst]
    exact put_sound hstored hr
  cases h with
  | notFound hstage e he => exact ⟨hstored, hback⟩
  | loads hstage st token hinst =>
    refine ⟨hstored, ?_⟩
    intro l hl
    cases hl
    exact hstored _ _ hinst
  | finishes l hstage hqueue => exact ⟨hstored, fun l hl => nomatch hl⟩
  | refused l hstage t queue hqueue e hprep => exact ⟨hstored, hback⟩
  | loses l hstage t queue hqueue r outcome hprep e hwrite => exact ⟨hstored, hback⟩
  | timersFail l hstage t queue hqueue r outcome hprep m version hwrite e hfail =>
    refine ⟨(hwrites hstage hprep hwrite).2, ?_⟩
    intro l hl
    rw [Delivery.returns_loop] at hl
    cases hl
  | commits l hstage t queue hqueue r outcome hprep m version hwrite =>
    obtain ⟨hr, hm⟩ := hwrites hstage hprep hwrite
    refine ⟨hm, ?_⟩
    intro l hl
    cases hl
    exact hr
  | performed l hstage =>
    refine ⟨hstored, ?_⟩
    intro l' hl
    cases hl
    exact hheld l (by rw [hstage]; rfl)
  | skips l cmd commands hstage htimer =>
    refine ⟨hstored, ?_⟩
    intro l' hl
    cases hl
    exact hheld l (by rw [hstage]; rfl)
  | performFails l cmd commands hstage e pre hfail =>
    refine ⟨hstored, ?_⟩
    intro l hl
    rw [Delivery.returns_loop] at hl
    cases hl
  | performs l cmd commands hstage t hanswers =>
    refine ⟨hstored, ?_⟩
    intro l' hl
    rw [Delivery.resume_stage] at hl
    cases hl
    rw [Delivery.resume_instanceID]
    exact hheld l (by rw [hstage]; rfl)
  | spawns l cmd commands hstage hanswers child hlink =>
    refine ⟨hstored, ?_⟩
    intro l' hl
    cases hl
    exact hheld l (by rw [hstage]; rfl)
  | resumes l commandID childID commands callee hstage t =>
    refine ⟨hstored, ?_⟩
    intro l' hl
    rw [Delivery.resume_stage] at hl
    cases hl
    rw [Delivery.resume_instanceID]
    exact hheld l (by rw [hstage]; rfl)

theorem System.Sound.step {choice : Choice gen} (h : y.Sound) (hstep : y.step choice = some z) : z.Sound := by
  have hheld : ∀ c ∈ z.calls, ∀ l, c.stage.loop? = some l → Steps.Sound gen c.instanceID l.st := by
    refine System.calls_induction (G := fun _ c => ∀ l, c.stage.loop? = some l → Steps.Sound gen c.instanceID l.st)
      h.held hstep ?_ (fun _ h => h) ?_
    · intro m c hfresh
      cases hfresh with
      | apply driver d instanceID trg retrying => exact fun l hl => nomatch hl
      | create driver d instanceID trg depth link hlink =>
        intro l hl
        cases hl
        exact Run.blank_sound gen instanceID
    · intro i w c m c' child _ hc hdoes
      refine ⟨(hdoes.sound h.stored (h.held c (List.mem_of_getElem? hc))).2, ?_⟩
      intro j c'' _ hj
      exact h.held c'' (List.mem_of_getElem? hj)
  refine ⟨?_, hheld⟩
  cases choice with
  | advance i w =>
    obtain ⟨c, m, c', child, hc, hdoes, rfl⟩ := System.advance_does hstep
    exact (hdoes.sound h.stored (h.held c (List.mem_of_getElem? hc))).1
  | _ =>
    cases hstep
    exact h.stored

end Sound

/-- Before any call. -/
def System.blank (links : Option MemCallLinks) : System gen where
  store := { callLinks := links }

theorem System.blank_sound (links : Option MemCallLinks) : (System.blank links : System gen).Sound where
  stored := fun _ _ h => nomatch h
  held := fun _ h => nomatch h

end Wrkflw
