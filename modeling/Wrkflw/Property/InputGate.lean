import Wrkflw.Machine.Home
import Wrkflw.Runtime.InputGate

/-!
# The gate and the node that takes the input

The gate finds the node an input is for before the step runs, from the same waits in the same order as the step. The two
agree as long as the token that hosts the winning arm is there. An arm can outlive its host (a deadline moves the host on
and leaves its boundary arms), and a message such an arm wins is merged by the step, while the gate looks for the node in
the top-level definition, whatever scope the arm belonged to.

* `Taker`, `messageTaker` : the wait that takes a message;
* `TakesIn` : the step merges the input because of the wait or the start of the node;
* `Taker.InSight` : the gate looks for the node where it is.
-/

namespace Wrkflw

open ControlState

/-- What takes a message. -/
inductive Taker where
  | gateway (ae : ArmedEvent)
  | boundary (ba : BoundaryArm)
  | eventSub (ea : EventTriggeredSubprocessArm)
  | token (tok : Token)

/-- The wait that takes a message, in the order the step tries them; none while the instance starts no new work. -/
def messageTaker (s : InstanceState) (name correlationKey : String) : Option Taker :=
  if !s.spawnsNewWork then none else
    match armByMessage (·.toTriggerMatch) s.armedEvents name correlationKey,
        armByMessage (·.toTriggerMatch) s.boundaries name correlationKey,
        armByMessage (·.toTriggerMatch) s.eventTriggeredSubprocesses name correlationKey,
        s.tokenAwaitingMessage name correlationKey with
    | some ae, _, _, _ => some (.gateway ae)
    | none, some ba, _, _ => some (.boundary ba)
    | none, none, some ea, _ => some (.eventSub ea)
    | none, none, none, some tok => some (.token tok)
    | none, none, none, none => none

/-- The token arrived in the scope; a token that is gone keeps it. -/
def HomeOf (s : ControlState) (tokenID scope : String) : Prop := (tokenID, scope) ∈ s.arrivals

/-- The node belongs to the scope, which may be closed by now. -/
def NodeOfScope (top : ProcessDefinition) (s : ControlState) (scope nodeID : String) (n : Node) : Prop :=
  ∃ d, ScopeDefn top s.trace scope d ∧ d.node nodeID = some n

/-- The wait is the node's. -/
def Taker.WaitOf (top : ProcessDefinition) (s : ControlState) (n : Node) : Taker → Prop
  | .gateway ae => ∃ scope, HomeOf s ae.gatewayToken scope ∧ NodeOfScope top s scope ae.catchNode n
  | .boundary ba => ∃ scope, HomeOf s ba.hostToken scope ∧ NodeOfScope top s scope ba.boundaryNode n
  | .eventSub ea => NodeOfScope top s ea.enclosingScopeID ea.eventSubprocessNode n
  | .token tok => NodeOfScope top s tok.scopeID tok.nodeID n

/-- The step merges the input because of the wait or the start of the node. -/
def TakesIn (top : ProcessDefinition) (s : InstanceState) (n : Node) : TriggerBody → Prop
  | .startInstance _ startNodeID => hasStarted s = false ∧
      ∃ startID, (startID = startNodeID ∧ startNodeID ≠ "" ∨ startNodeID = "" ∧ resolveManualStart top = some startID) ∧
        top.node startID = some n
  | .messageReceived name correlationKey _ => ∃ w, messageTaker s name correlationKey = some w ∧
      w.WaitOf top s.toControlState n
  | .humanCompleted taskID _ _ _ _ => ∃ tok, s.tokenAwaiting taskID = some tok ∧
      NodeOfScope top s.toControlState tok.scopeID tok.nodeID n
  | _ => False

/-- The scope of the token is open, as far as the root. -/
def Opens (top : ProcessDefinition) (s : ControlState) (scope : String) : Prop := ∃ d, defForScope top s.scopes scope = .ok d

/-- The gate looks for the node where it is: the host of the arm is there and its scope is open, or the host is gone and
the node is one of the top-level definition. -/
def Taker.InSight (top : ProcessDefinition) (s : ControlState) (n : Node) : Taker → Prop
  | .gateway ae => (∃ tok, s.tokenByID ae.gatewayToken = some tok ∧ Opens top s tok.scopeID) ∨
      (s.tokenByID ae.gatewayToken = none ∧ top.node ae.catchNode = some n)
  | .boundary ba => (∃ tok, s.tokenByID ba.hostToken = some tok ∧ Opens top s tok.scopeID) ∨
      (s.tokenByID ba.hostToken = none ∧ top.node ba.boundaryNode = some n)
  | .eventSub ea => Opens top s ea.enclosingScopeID
  | .token _ => True

/-- The wait that takes the input is in the gate's sight. -/
def GateSees (top : ProcessDefinition) (s : InstanceState) (n : Node) : TriggerBody → Prop
  | .messageReceived name correlationKey _ => ∃ w, messageTaker s name correlationKey = some w ∧
      w.InSight top s.toControlState n
  | _ => True

/-! ## Who takes a message -/

section
variable {c : StepCtx} {drv : DriveLoop} {s : InstanceState} {name key : String} {payload : Vars}

/-- The handler of the wait, behind the merge. -/
def takenBy (drv : DriveLoop) (c : StepCtx) (s : InstanceState) : Taker → EngineResult
  | .gateway ae => resolveGatewayWin drv c s ae
  | .boundary ba => fireBoundaryArm drv c s ba
  | .eventSub ea => fireEventTriggeredSubprocessArm drv c s ea
  | .token tok => do
    let s1 := s.onControl (·.updateToken tok.id (fun t => { t with awaitMessage := "", awaitMessageKey := "" }))
    let r1 := s1.cancelTimersForToken tok.id ""
    let r2 := r1.state.removeBoundaryArmsForHost tok.id
    let tdef ← defForScope c.top r2.state.scopes tok.scopeID
    match parkOnCompletionAction c tdef r2.state tok (r1.commands ++ r2.commands) with
    | some r => return r
    | none => resumeAndDrive drv c tdef r2.state tok (r1.commands ++ r2.commands)

/-- A message is merged for the wait that takes it, and for nothing else. -/
theorem messageReceived_taken (drv : DriveLoop) (c : StepCtx) (s : InstanceState) (name key : String)
    (payload : Vars) : handle drv c s (.messageReceived name key payload) = match messageTaker s name key with
      | some w => takenBy drv c (s.mergeVars payload) w
      | none => .ok ⟨s, []⟩ := by
  change handleMessageReceived drv c s name key payload = _
  unfold handleMessageReceived dispatchArmCascade messageTaker
  cases hspawns : s.spawnsNewWork with
  | false =>
    simp only [Bool.not_false, if_true]
    split <;> rfl
  | true =>
    simp only [Bool.not_true, Bool.false_eq_true, if_false]
    cases armByMessage (·.toTriggerMatch) s.armedEvents name key with
    | some ae => rfl
    | none =>
      cases armByMessage (·.toTriggerMatch) s.boundaries name key with
      | some ba => rfl
      | none =>
        cases armByMessage (·.toTriggerMatch) s.eventTriggeredSubprocesses name key with
        | some ea => rfl
        | none =>
          cases s.tokenAwaitingMessage name key with
          | some tok => rfl
          | none => rfl

/-- The node and the scope the gate looks in for a wait. -/
def Taker.target (s : ControlState) : Taker → String × String
  | .gateway ae => (ae.catchNode, s.scopeOfToken ae.gatewayToken)
  | .boundary ba => (ba.boundaryNode, s.scopeOfToken ba.hostToken)
  | .eventSub ea => (ea.eventSubprocessNode, ea.enclosingScopeID)
  | .token tok => (tok.nodeID, tok.scopeID)

theorem target_of_taker {w : Taker} (h : messageTaker s name key = some w) :
    s.messageTargetNodeScoped name key = some (w.target s.toControlState) := by
  unfold messageTaker at h
  unfold InstanceState.messageTargetNodeScoped
  split at h
  · cases h
  · cases hgw : armByMessage (·.toTriggerMatch) s.armedEvents name key with
    | some ae =>
      rw [hgw] at h
      cases h
      rfl
    | none =>
      rw [hgw] at h
      cases hba : armByMessage (·.toTriggerMatch) s.boundaries name key with
      | some ba =>
        rw [hba] at h
        cases h
        rfl
      | none =>
        rw [hba] at h
        cases hea : armByMessage (·.toTriggerMatch) s.eventTriggeredSubprocesses name key with
        | some ea =>
          rw [hea] at h
          cases h
          rfl
        | none =>
          rw [hea] at h
          cases htok : s.tokenAwaitingMessage name key with
          | some tok =>
            rw [htok] at h
            cases h
            rfl
          | none =>
            rw [htok] at h
            cases h

end

/-! ## Where the gate looks -/

section
variable {top : ProcessDefinition} {g : IDGenerator} {s : ControlState} {scope nodeID : String} {n : Node}

/-- In an open scope the gate finds the scope's node. -/
theorem nodeInScope_of_open (hn : Names g s) (hnode : NodeOfScope top s scope nodeID n) (hopen : Opens top s scope) :
    nodeInScope top s scope nodeID = some n := by
  obtain ⟨d, hd, hfound⟩ := hnode
  obtain ⟨d', hd'⟩ := hopen
  have he : d' = d := (defForScope_defn hn hd').unique hn.opened hd
  unfold nodeInScope
  rw [hd', he]
  exact hfound

/-- Behind the host of an arm: the gate looks in its scope while it is there, and at the root once it is gone. -/
theorem nodeInScope_host_iff {tokenID : String} (hn : Names g s) (hh : Homed g s) (hhome : HomeOf s tokenID scope)
    (hnode : NodeOfScope top s scope nodeID n) : nodeInScope top s (s.scopeOfToken tokenID) nodeID = some n ↔
      (∃ tok, s.tokenByID tokenID = some tok ∧ Opens top s tok.scopeID) ∨
        (s.tokenByID tokenID = none ∧ top.node nodeID = some n) := by
  unfold scopeOfToken
  cases htok : s.tokenByID tokenID with
  | none =>
    have hroot : nodeInScope top s "" nodeID = top.node nodeID := rfl
    dsimp only
    rw [hroot]
    refine ⟨fun h => .inr ⟨rfl, h⟩, ?_⟩
    rintro (⟨tok, h, -⟩ | ⟨-, h⟩)
    · cases h
    · exact h
  | some tok =>
    obtain ⟨hmem, hid, -⟩ := s.tokenByID_some htok
    have hscope : tok.scopeID = scope := hh.home _ hhome tok hmem hid
    dsimp only
    constructor
    · intro h
      refine .inl ⟨tok, rfl, ?_⟩
      unfold nodeInScope at h
      split at h
      · cases h
      · rename_i d hd
        exact ⟨d, hd⟩
    · rintro (⟨tok', h, hopen⟩ | ⟨h, -⟩)
      · cases h
        rw [hscope] at hopen ⊢
        exact nodeInScope_of_open hn hnode hopen
      · cases h

theorem opens_of_found (h : nodeInScope top s scope nodeID = some n) : Opens top s scope := by
  unfold nodeInScope at h
  split at h
  · cases h
  · rename_i d hd
    exact ⟨d, hd⟩

end

theorem Taker.target_iff {top : ProcessDefinition} {g : IDGenerator} {s : ControlState} {n : Node}
    {w : Taker} (hn : Names g s)
    (hh : Homed g s) (hwait : w.WaitOf top s n) (hopen : ∀ tok, w = .token tok → Opens top s tok.scopeID) :
    nodeInScope top s (w.target s).2 (w.target s).1 = some n ↔ w.InSight top s n := by
  cases w with
  | gateway ae =>
    obtain ⟨scope, hhome, hnode⟩ := hwait
    exact nodeInScope_host_iff hn hh hhome hnode
  | boundary ba =>
    obtain ⟨scope, hhome, hnode⟩ := hwait
    exact nodeInScope_host_iff hn hh hhome hnode
  | eventSub ea => exact ⟨opens_of_found, nodeInScope_of_open hn hwait⟩
  | token tok => exact iff_of_true (nodeInScope_of_open hn hwait (hopen tok rfl)) trivial

/-- A step that takes a message in for a token resolves the token's scope. -/
theorem opens_of_taken {drv : DriveLoop} {c : StepCtx} {s : InstanceState} {tok : Token} {payload : Vars}
    {r : StepResult} (h : takenBy drv c (s.mergeVars payload) (.token tok) = .ok r) :
    Opens c.top s.toControlState tok.scopeID := by
  obtain ⟨d, hd, -⟩ := bind_ok h
  rw [InstanceState.removeBoundaryArmsForHost_control, InstanceState.cancelTimersForToken_control] at hd
  exact ⟨d, hd⟩

theorem opens_of_completed {drv : DriveLoop} {c : StepCtx} {s : InstanceState} {tok : Token}
    {taskID outcome note : String} {output : Vars} {actor : Actor} {r : StepResult} (htok : s.tokenAwaiting taskID = some tok)
    (h : handle drv c s (.humanCompleted taskID outcome note output actor) = .ok r) :
    Opens c.top s.toControlState tok.scopeID := by
  change handleHumanCompleted drv c s taskID outcome note output actor = .ok r at h
  unfold handleHumanCompleted at h
  rw [htok] at h
  split at h
  · cases h
  · cases h
  · split at h
    · cases h
    · split at h
      · cases h
      · rename_i hsome
        cases hsome
        obtain ⟨d, hd, -⟩ := bind_ok h
        exact ⟨d, hd⟩

theorem target_started {top : ProcessDefinition} {s : InstanceState} {n : Node} {vars : Vars} {startNodeID : String}
    (h : TakesIn top s n (.startInstance vars startNodeID)) :
    targetNode top s (.startInstance vars startNodeID) = some n := by
  obtain ⟨-, startID, ⟨rfl, hne⟩ | ⟨rfl, hmanual⟩, hnode⟩ := h
  · unfold targetNode
    dsimp only
    rw [if_neg (by simpa using hne)]
    exact hnode
  · unfold targetNode
    dsimp only
    rw [if_pos (by rfl), hmanual]
    exact hnode

/-- The answer of the gate on the node that takes the input in. -/
theorem judged_of_prepared {gen : Option IDGenerator} {driver : ProcessDriver gen} {judge : Node → Vars → Option String}
    {fuel : Nat} {d : ProcessDefinition} {s : InstanceState} {t : Trigger} {n : Node} {out : StepResult × Option CallOutcome}
    (hgate : driver.gate = inputGate judge) (htakes : TakesIn d s n t.body) (hseen : targetNode d s t.body = some n)
    (hvalid : n.hasValidation = true) (h : driver.prepare fuel d s t = some (.ok out)) : judge n (inputOf t.body) = none := by
  have hpassed : driver.validateInput d s t = none := by
    unfold ProcessDriver.prepare at h
    split at h
    · cases h
    · rename_i hnone
      exact hnone
  have hinput : driver.validateInput d s t = driver.gate d s t := by
    unfold ProcessDriver.validateInput
    split
    · rfl
    · rfl
    · rfl
    · rename_i hstart hmessage hhuman
      unfold TakesIn at htakes
      split at htakes
      · rename_i heq
        exact absurd heq (hstart _ _)
      · rename_i heq
        exact absurd heq (hmessage _ _ _)
      · rename_i heq
        exact absurd heq (hhuman _ _ _ _ _)
      · cases htakes
  rw [hinput, hgate] at hpassed
  unfold inputGate at hpassed
  rw [hseen] at hpassed
  dsimp only at hpassed
  rw [if_pos hvalid] at hpassed
  exact hpassed

/-- **The gate judges the node that takes the input in if and only if the wait is in its sight**: always for a start and a
human completion, and for a message unless the host of the winning arm is gone (and its node is not one of the top-level
definition) or the scope of the arm is closed. Where it does, a driver commits no input that the node's strategy rejects. -/
theorem gate_judges_taker_iff {d : ProcessDefinition} {gen : Option IDGenerator} {inst : String} {calls : List Call}
    {s : InstanceState} (hrun : Run d gen inst calls s) (hlive : s.status.isTerminal = false) {fuel : Nat} {t : Trigger}
    {opt : StepOptions} {r : StepResult} (hstep : step fuel d s t opt = .ok r) {n : Node}
    (htakes : TakesIn d s n t.body) :
    (targetNode d s t.body = some n ↔ GateSees d s n t.body) ∧
    (GateSees d s n t.body → n.hasValidation = true → ∀ (driver : ProcessDriver gen) judge out,
      driver.gate = inputGate judge → driver.prepare fuel d s t = some (.ok out) → judge n (inputOf t.body) = none) := by
  have hn : Names (runIDs gen inst) s.toControlState := hrun.sound.wf.names
  obtain ⟨r', hok⟩ := handled_of_step hlive hstep
  have hiff : targetNode d s t.body = some n ↔ GateSees d s n t.body := by
    obtain ⟨at_, body⟩ := t
    cases body with
    | startInstance vars startNodeID => exact iff_of_true (target_started htakes) trivial
    | humanCompleted taskID outcome note output actor =>
      obtain ⟨tok, htok, hnode⟩ := htakes
      refine iff_of_true ?_ trivial
      unfold targetNode
      dsimp only
      rw [htok]
      exact nodeInScope_of_open hn hnode (opens_of_completed htok hok)
    | messageReceived name key payload =>
      obtain ⟨w, hw, hwait⟩ := htakes
      have hopen : ∀ tok, w = .token tok → Opens d s.toControlState tok.scopeID := by
        rintro tok rfl
        rw [messageReceived_taken, hw] at hok
        exact opens_of_taken hok
      have htarget := Taker.target_iff hn hrun.homed hwait hopen
      have heq : targetNode d s (.messageReceived name key payload) =
          nodeInScope d s.toControlState (w.target s.toControlState).2 (w.target s.toControlState).1 := by
        unfold targetNode
        dsimp only
        rw [target_of_taker hw]
      rw [show (⟨at_, .messageReceived name key payload⟩ : Trigger).body = .messageReceived name key payload from rfl,
        heq, htarget]
      refine ⟨fun h => ⟨w, hw, h⟩, ?_⟩
      rintro ⟨w', hw', h⟩
      cases hw.symm.trans hw'
      exact h
    | _ => cases htakes
  refine ⟨hiff, fun hsees hvalid driver judge out hgate hprepared => ?_⟩
  exact judged_of_prepared hgate htakes (hiff.mpr hsees) hvalid hprepared

/-- A user task with a deadline and a message boundary. -/
def reviewed : ProcessDefinition where
  id := "inner"
  version := 1
  nodes := [startNode "ns",
    { id := "u", spec := .userTask { deadlineTimer := TriggerSpec.afterDuration 5, deadlineFlow := "late" } },
    { id := "b", spec := .boundaryEvent { attachedTo := "u", messageName := "m", correlationKey := "k" } },
    endNode "ne"]
  flows := [flowOf "n1" "ns" "u", flowOf "ok" "u" "ne", flowOf "late" "u" "ne", flowOf "n3" "b" "ne"]

/-- The same in a sub-process before another task. -/
def reviewing : ProcessDefinition where
  id := "outer"
  version := 1
  nodes := [startNode "s", { id := "sp", spec := .subProcess {} (some reviewed) },
    userNode "w", endNode "e"]
  flows := [flowOf "f1" "s" "sp", flowOf "f2" "sp" "w", flowOf "f3" "w" "e"]

def reviewBoundary : Node :=
  { id := "b", spec := .boundaryEvent { attachedTo := "u", messageName := "m", correlationKey := "k" } }

/-- The boundary of the review is the wait that takes the message in. -/
def armWaits (x : InstanceState) : Bool :=
  x.status == .running && x.armedEvents.isEmpty && x.arrivals.contains ("i-t2", "i-s1") &&
    x.trace.any (fun e => match e with
      | .opened scope node parent => scope == "i-s1" && node == "sp" && parent == ""
      | _ => false) &&
    (armByMessage (·.toTriggerMatch) x.boundaries "m" "k").any (fun ba => ba.boundaryNode == "b" && ba.hostToken == "i-t2")

theorem takesIn_of_armWaits {x : InstanceState} (h : armWaits x = true) : x.status.isTerminal = false ∧
    ∃ ba, ba.hostToken = "i-t2" ∧ messageTaker x "m" "k" = some (.boundary ba) ∧
    (Taker.boundary ba).WaitOf reviewing x.toControlState reviewBoundary := by
  simp only [armWaits, Bool.and_eq_true, beq_iff_eq, List.isEmpty_iff] at h
  obtain ⟨⟨⟨⟨hrunning, hgw⟩, hhome⟩, hopened⟩, harm⟩ := h
  obtain ⟨ba, hba, hat⟩ := (Option.any_eq_true _ _).mp harm
  obtain ⟨hnode, hhost⟩ : ba.boundaryNode = "b" ∧ ba.hostToken = "i-t2" := by simpa using hat
  obtain ⟨e, he, hopen⟩ := List.any_eq_true.mp hopened
  have hev : Event.opened "i-s1" "sp" "" ∈ x.trace := by
    cases e with
    | opened scope node parent =>
      obtain ⟨⟨rfl, rfl⟩, rfl⟩ : (scope = "i-s1" ∧ node = "sp") ∧ parent = "" := by simpa using hopen
      exact he
    | _ => cases hopen
  refine ⟨by rw [hrunning]; rfl, ba, hhost, ?_, "i-s1", ?_, reviewed, .nested hev .root rfl rfl, ?_⟩
  · unfold messageTaker ControlState.spawnsNewWork
    rw [hrunning, hgw, hba]
    rfl
  · rw [hhost]
    exact List.contains_iff_mem.mp hhome
  · rw [hnode]
    rfl

/-- The message of the review. -/
def reviewMessage : TriggerBody := .messageReceived "m" "k" [("v", .int 1)]

/-- While the review is open the gate judges the boundary that takes the message. -/
theorem open_review_judged : ∃ x r, Run reviewing none "i" (callsFrom 1 [.startInstance [] ""]) x ∧
    step 50 reviewing x ⟨2, reviewMessage⟩ plainOptions = .ok r ∧ TakesIn reviewing x reviewBoundary reviewMessage ∧
    targetNode reviewing x reviewMessage = some reviewBoundary := by
  have hplay : playsThrough reviewing [.startInstance [] ""] reviewMessage [] (fun x _ _ => armWaits x &&
      (x.tokenByID "i-t2").any (fun t => (defForScope reviewing x.scopes t.scopeID).toBool)) = true := by decide
  obtain ⟨x, r, -, hrun, hstep, -, hP⟩ := run_of_playsThrough hplay
  obtain ⟨hwaits, hhost⟩ := Bool.and_eq_true_iff.mp hP
  obtain ⟨hlive, ba, hid, htaker, hwait⟩ := takesIn_of_armWaits hwaits
  obtain ⟨tok, htok, hopen⟩ := (Option.any_eq_true _ _).mp hhost
  have hopens : Opens reviewing x.toControlState tok.scopeID := by
    cases hd : defForScope reviewing x.scopes tok.scopeID with
    | error e =>
      rw [hd] at hopen
      cases hopen
    | ok d => exact ⟨d, hd⟩
  have htakes : TakesIn reviewing x reviewBoundary reviewMessage := ⟨_, htaker, hwait⟩
  refine ⟨x, r, hrun, hstep, htakes,
    (gate_judges_taker_iff hrun hlive hstep htakes).1.mpr ⟨_, htaker, .inl ⟨tok, ?_, hopens⟩⟩⟩
  rw [hid]
  exact htok

/-- After the deadline has moved the task on, its boundary arm still takes the message in, and the gate judges no node. -/
theorem late_review_unjudged : Accepted asciiTables reviewing ∧
    ∃ x r, Run reviewing none "i" (callsFrom 1 [.startInstance [] "", .timerFired "i-tm1"]) x ∧
      step 50 reviewing x ⟨3, reviewMessage⟩ plainOptions = .ok r ∧ r.state.vars = [("v", .int 1)] ∧
      TakesIn reviewing x reviewBoundary reviewMessage ∧ targetNode reviewing x reviewMessage = none := by
  have hplay : playsThrough reviewing [.startInstance [] "", .timerFired "i-tm1"] reviewMessage [] (fun x r _ => armWaits x &&
      decide (r.state.vars = [("v", .int 1)]) && (targetNode reviewing x reviewMessage).isNone) = true := by decide
  obtain ⟨x, r, -, hrun, hstep, -, hP⟩ := run_of_playsThrough hplay
  simp only [Bool.and_eq_true, decide_eq_true_eq, Option.isNone_iff_eq_none] at hP
  obtain ⟨⟨hwaits, hvars⟩, hnone⟩ := hP
  obtain ⟨-, ba, -, htaker, hwait⟩ := takesIn_of_armWaits hwaits
  exact ⟨by decide, x, r, hrun, hstep, hvars, ⟨_, htaker, hwait⟩, hnone⟩

end Wrkflw
