import Wrkflw.Machine.Run
import Wrkflw.Definition.Validate

/-!
# What a retry invokes

The retry timer and the resolution of an incident both re-invoke the service action of the node (`reinvokeServiceAction`).
A user or receive task that waits for its completion action was parked on another action, with another input, so its retry
invokes what never failed; and a token whose visit already has its boundary arms gets them a second time.

* `actionCommand` : the command a visit parks on, as it is first dispatched;
* `Reinvokes` : the trigger re-invokes the action of the token;
* `Redoes` : the same action under a fresh command, with the arms of the visit and no wait redone.
-/

namespace Wrkflw

open ControlState

variable {x : InstanceState}

/-- The activity can wait for an action. -/
def ParksOnAction (node : Node) : Prop :=
  (node.kind = .serviceTask ∨ node.kind = .businessRuleTask) ∨
    ((node.kind = .userTask ∨ node.kind = .receiveTask) ∧ node.completionActionOf ≠ "")

/-- The action a visit waits for: the completion action of a user or receive task, else the node's own. -/
def visitAction (node : Node) : String :=
  match node.kind with
  | .userTask | .receiveTask => node.completionActionOf
  | _ => node.mainActionName

/-- The input that action is invoked with. -/
def visitInput (s : InstanceState) (node : Node) : Vars :=
  match node.kind with
  | .userTask | .receiveTask => s.vars
  | _ => serviceActionInput s node

def actionCommand (s : InstanceState) (node : Node) (commandID : String) : Command :=
  .invokeAction commandID (visitAction node) (visitInput s node) false

/-- The boundary event of the host that an invocation arms. -/
def armedNode (d : ProcessDefinition) (hostNode : String) (n : Node) : Option String :=
  match n.spec with
  | .boundaryEvent e => if e.attachedTo != hostNode || (d.outgoing n.id).isEmpty then none else some n.id
  | _ => none

/-- The boundary arms the token hosts. -/
def hostedArms (s : InstanceState) (tokenID : String) : List BoundaryArm :=
  s.boundaries.filter (fun ba => ba.hostToken == tokenID)

/-- The trigger re-invokes the action of the token. -/
def Reinvokes (s : InstanceState) (tok : Token) : TriggerBody → Prop
  | .timerFired id => (∃ tr, s.timerByID id = some tr ∧ tr.kind = .retry ∧ s.tokenAwaiting tr.timerID = some tok) ∧
      s.spawnsNewWork = true ∧ armByTimer (·.toTriggerMatch) s.armedEvents id = none ∧
      armByTimer (·.toTriggerMatch) s.boundaries id = none ∧
      armByTimer (·.toTriggerMatch) s.eventTriggeredSubprocesses id = none
  | .resolveIncident id _ => ∃ inc, s.incidents.find? (fun inc => inc.id == id) = some inc ∧ inc.kind = .action ∧
      s.tokenByID inc.tokenID = some tok
  | _ => False

/-- The visit's action is invoked again, and that is all: the one command that is answered is the action's, under a fresh
id, the token waits for it and for no message more than before, and each boundary event of the node is armed once. -/
structure Redoes (c : StepCtx) (s : InstanceState) (tdef : ProcessDefinition) (tok : Token) (node : Node) (r : StepResult) :
    Prop where
  invokes : r.commands.filter filterableCommand = [actionCommand s node (s.nextCmdID c.ids)]
  fresh : ∀ id, Minted c.ids .command s.cmdSeq id → id ≠ s.nextCmdID c.ids
  awaits : ∀ t ∈ r.state.tokens, t.id = tok.id → t.awaitCommand = s.nextCmdID c.ids ∧
    ∃ t0 ∈ s.tokens, t0.id = t.id ∧ t0.nodeID = t.nodeID ∧ t0.awaitMessage = t.awaitMessage
  arms : (hostedArms r.state tok.id).map (·.boundaryNode) = tdef.nodes.filterMap (armedNode tdef node.id)

/-- The service action is what the visit waits for. -/
def ServesItself (s : InstanceState) (node : Node) : Prop :=
  (node.kind = .serviceTask ∨ node.kind = .businessRuleTask) ∨
    (node.completionActionOf = node.mainActionName ∧ s.vars = serviceActionInput s node)

/-! ## Arming -/

section
variable {c : StepCtx} {d tdef : ProcessDefinition} {s : InstanceState} {host hostNode : String} {r : StepResult}
  {tok : Token} {node : Node}

/-- What arming adds: the arms of these nodes for the host, and commands that wait for no answer. -/
structure Arms (host : String) (nodes : List String) (s : InstanceState) (r : StepResult) : Prop where
  arms : ∃ arms, r.state.boundaries = s.boundaries ++ arms ∧ arms.map (·.boundaryNode) = nodes ∧
    ∀ ba ∈ arms, ba.hostToken = host
  plain : r.commands.filter filterableCommand = []

theorem Arms.nothing (s : InstanceState) : Arms host [] s ⟨s, []⟩ := ⟨⟨[], by simp⟩, rfl⟩

theorem Arms.trans {nodes nodes' : List String} {r' : StepResult} (h : Arms host nodes s r)
    (h' : Arms host nodes' r.state r') :
    Arms host (nodes ++ nodes') s (r'.prepend r.commands) := by
  obtain ⟨⟨arms, hb, hmap, hhost⟩, hplain⟩ := h
  obtain ⟨⟨arms', hb', hmap', hhost'⟩, hplain'⟩ := h'
  refine ⟨⟨arms ++ arms', ?_, ?_, ?_⟩, ?_⟩
  · rw [StepResult.prepend_state, hb', hb, List.append_assoc]
  · rw [List.map_append, hmap, hmap']
  · intro ba hba
    exact (List.mem_append.mp hba).elim (hhost ba) (hhost' ba)
  · change (r.commands ++ r'.commands).filter filterableCommand = []
    rw [List.filter_append, hplain, hplain']
    rfl

theorem armedNode_boundary {n : Node} {e : BoundaryEvent} (hspec : n.spec = .boundaryEvent e) :
    armedNode d hostNode n = if e.attachedTo != hostNode || (d.outgoing n.id).isEmpty then none else some n.id := by
  unfold armedNode
  rw [hspec]

theorem armedNode_other {n : Node} (hspec : ∀ e, n.spec = .boundaryEvent e → False) : armedNode d hostNode n = none := by
  unfold armedNode
  split
  · rename_i e he
    exact absurd he (hspec e)
  · rfl

theorem armBoundary_arms {n : Node} (h : armBoundary c d host hostNode s n = .ok r) :
    Arms host (armedNode d hostNode n).toList s r := by
  unfold armBoundary at h
  split at h
  · rename_i e hspec
    rw [armedNode_boundary hspec]
    split at h
    · rename_i hskip
      rw [if_pos hskip]
      cases h
      exact Arms.nothing s
    · rename_i hskip
      rw [if_neg hskip]
      obtain ⟨choice, -, h⟩ := bind_ok h
      cases h
      have hsame : (armMatch c.ids s host choice).1.boundaries = s.boundaries := by cases choice <;> rfl
      refine ⟨⟨[_], congrArg (· ++ _) hsame, rfl, ?_⟩, ?_⟩
      · intro ba hba
        rw [List.mem_singleton.mp hba]
      · cases choice <;> rfl
  · rename_i hspec
    rw [armedNode_other hspec]
    cases h
    exact Arms.nothing s

theorem armBoundaries_arms (h : armBoundaries c d s host hostNode = .ok r) :
    Arms host (d.nodes.filterMap (armedNode d hostNode)) s r := by
  unfold armBoundaries at h
  generalize d.nodes = nodes at h
  induction nodes generalizing s r with
  | nil =>
    cases h
    exact Arms.nothing s
  | cons n nodes ih =>
    obtain ⟨r1, h1, h⟩ := bind_ok h
    obtain ⟨r2, h2, h⟩ := bind_ok h
    cases h
    have hboth := (armBoundary_arms h1).trans (ih h2)
    have hlist : (n :: nodes).filterMap (armedNode d hostNode) =
        (armedNode d hostNode n).toList ++ nodes.filterMap (armedNode d hostNode) := by
      rw [List.filterMap_cons]
      cases armedNode d hostNode n <;> rfl
    rw [hlist]
    exact hboth

/-! ## Invocations -/

theorem serviceActionInput_eq (hvars : x.vars = s.vars) (hid : x.instanceID = s.instanceID) (node : Node) :
    serviceActionInput x node = serviceActionInput s node := by
  unfold serviceActionInput
  rw [hvars, hid]

/-- The command an invocation dispatches, and the arms it adds. -/
theorem emitActionInvoke_invokes (h : emitActionInvoke c tdef s tok node = .ok r) :
    r.commands.filter filterableCommand =
        [.invokeAction (s.nextCmdID c.ids) node.mainActionName (serviceActionInput s node) false] ∧
      ∃ arms, r.state.boundaries = s.boundaries ++ arms ∧
        arms.map (·.boundaryNode) = tdef.nodes.filterMap (armedNode tdef node.id) ∧ ∀ ba ∈ arms, ba.hostToken = tok.id := by
  unfold emitActionInvoke at h
  obtain ⟨r', h', h⟩ := bind_ok h
  cases h
  have harms := armBoundaries_arms h'
  refine ⟨?_, harms.arms⟩
  have hanswered : ∀ action input, filterableCommand (.invokeAction (s.nextCmdID c.ids) action input false) = true :=
    fun _ _ => bne_iff_ne.mpr (c.ids.newID_ne_empty .command _)
  change (Command.invokeAction (s.nextCmdID c.ids) node.mainActionName (serviceActionInput s node) false ::
    r'.commands).filter filterableCommand = _
  rw [List.filter_cons_of_pos (hanswered _ _), harms.plain]

/-- The state an invocation starts from differs from the step's in what an invocation does not read. -/
structure SameVisit (s x : InstanceState) : Prop where
  vars : x.vars = s.vars
  instanceID : x.instanceID = s.instanceID
  cmdSeq : x.cmdSeq = s.cmdSeq
  boundaries : x.boundaries = s.boundaries
  scopes : x.scopes = s.scopes
  tokens : ∀ t ∈ x.tokens, ∃ t0 ∈ s.tokens, t0.id = t.id ∧ t0.nodeID = t.nodeID ∧ t0.awaitMessage = t.awaitMessage

theorem SameVisit.of_control (hctl : x.toControlState = s.toControlState) (hvars : x.vars = s.vars)
    (hb : x.boundaries = s.boundaries) : SameVisit s x := by
  refine ⟨hvars, ?_, ?_, hb, ?_, fun t ht => ⟨t, ?_, rfl, rfl, rfl⟩⟩
  · rw [hctl]
  · rw [hctl]
  · rw [hctl]
  · rwa [hctl] at ht

/-- The one command that is answered is the visit's own if and only if its action is the service action. -/
theorem serves_iff (hacts : ParksOnAction node) (id : String) :
    [Command.invokeAction id node.mainActionName (serviceActionInput s node) false] = [actionCommand s node id] ↔
      ServesItself s node := by
  unfold actionCommand visitAction visitInput ServesItself
  rcases hacts with (hkind | hkind) | ⟨hkind | hkind, -⟩
  · rw [hkind]
    exact iff_of_true rfl (.inl (.inl rfl))
  · rw [hkind]
    exact iff_of_true rfl (.inl (.inr rfl))
  · rw [hkind]
    simp only [List.cons.injEq, Command.invokeAction.injEq, and_true, true_and, reduceCtorEq, or_self, false_or]
    exact ⟨fun h => ⟨h.1.symm, h.2.symm⟩, fun h => ⟨h.1.symm, h.2.symm⟩⟩
  · rw [hkind]
    simp only [List.cons.injEq, Command.invokeAction.injEq, and_true, true_and, reduceCtorEq, or_self, false_or]
    exact ⟨fun h => ⟨h.1.symm, h.2.symm⟩, fun h => ⟨h.1.symm, h.2.symm⟩⟩

theorem redoes_iff (hacts : ParksOnAction node) (hx : SameVisit s x)
    (h : emitActionInvoke c tdef x tok node = .ok r) :
    Redoes c s tdef tok node r ↔ ServesItself s node ∧ hostedArms s tok.id = [] := by
  obtain ⟨hcmds, arms, hb, hmap, hhost⟩ := emitActionInvoke_invokes h
  have hcmd : x.nextCmdID c.ids = s.nextCmdID c.ids := by
    unfold ControlState.nextCmdID
    rw [hx.cmdSeq]
  rw [hcmd, serviceActionInput_eq hx.vars hx.instanceID] at hcmds
  have hmine : hostedArms r.state tok.id = hostedArms s tok.id ++ arms := by
    have hall : arms.filter (fun ba => ba.hostToken == tok.id) = arms :=
      List.filter_eq_self.mpr (fun ba hba => by simp [hhost ba hba])
    unfold hostedArms
    rw [hb, List.filter_append, hx.boundaries, hall]
  constructor
  · intro hredo
    refine ⟨(serves_iff hacts _).mp (hcmds.symm.trans hredo.invokes), ?_⟩
    have harms := hredo.arms
    rw [hmine, List.map_append, hmap] at harms
    exact List.map_eq_nil_iff.mp (List.append_left_eq_self.mp harms)
  · rintro ⟨hself, hnone⟩
    refine ⟨hcmds.trans ((serves_iff hacts _).mpr hself), fun id hid => hid.ne_next, fun t ht hid => ?_, ?_⟩
    · rw [emitActionInvoke_control h] at ht
      obtain ⟨t', ht', rfl⟩ := List.mem_map.mp ht
      obtain ⟨t0, hmem, hid0, hnode0, hmsg0⟩ := hx.tokens t' ht'
      split at hid
      · rename_i he
        rw [if_pos he]
        exact ⟨hcmd, t0, hmem, hid0, hnode0, hmsg0⟩
      · rename_i he
        exact absurd hid (by simpa using he)
    · rw [hmine, hnone]
      exact hmap

/-- A trigger that re-invokes the action of the token invokes it on the visit as it stands. -/
theorem Reinvokes.invokes {drv : DriveLoop} {body : TriggerBody} (h : Reinvokes s tok body)
    (hdef : defForScope c.top s.scopes tok.scopeID = .ok tdef) (hnode : tdef.node tok.nodeID = some node)
    (hok : handle drv c s body = .ok r) : ∃ x, SameVisit s x ∧ emitActionInvoke c tdef x tok node = .ok r := by
  have hreinvoke : ∀ {x : InstanceState}, SameVisit s x → reinvokeServiceAction c x tok = .ok r →
      ∃ x, SameVisit s x ∧ emitActionInvoke c tdef x tok node = .ok r := by
    intro x hx h
    unfold reinvokeServiceAction at h
    rw [hx.scopes, hdef] at h
    dsimp only at h
    rw [hnode] at h
    exact ⟨x, hx, h⟩
  unfold Reinvokes at h
  split at h
  · rename_i timerID
    obtain ⟨⟨tr, htr, hkind, htok⟩, hspawns, hgw, hba, hsub⟩ := h
    change handleTimerFired drv c s timerID = .ok r at hok
    have hcascade : dispatchArmCascade drv c s id none none none = none := by
      unfold dispatchArmCascade
      split <;> rfl
    unfold handleTimerFired at hok
    rw [hgw, hba, hsub] at hok
    rw [hcascade, htr] at hok
    dsimp only at hok
    rw [if_neg (by simp [hspawns]), hkind] at hok
    dsimp only [handleRetryFired] at hok
    rw [htok] at hok
    dsimp only at hok
    have hsame : SameVisit s (s.removeTimer tr.timerID) := by
      refine SameVisit.of_control (s.removeTimer_control _) ?_ ?_
      · unfold InstanceState.removeTimer
        split <;> rfl
      · unfold InstanceState.removeTimer
        split <;> rfl
    cases hre : reinvokeServiceAction c (s.removeTimer tr.timerID) tok with
    | error e =>
      rw [hre] at hok
      cases hok
    | ok r' =>
      rw [hre] at hok
      cases hok
      exact hreinvoke hsame hre
  · rename_i id addAttempts
    obtain ⟨inc, hinc, hkind, htok⟩ := h
    change handleResolveIncident c s id addAttempts = .ok r at hok
    unfold handleResolveIncident at hok
    rw [hinc] at hok
    dsimp only at hok
    rw [if_neg (by simp [hkind])] at hok
    rw [show ({ s with incidents := s.incidents.eraseP (fun inc => inc.id == id) } : InstanceState).tokenByID inc.tokenID =
      some tok from htok] at hok
    have hsame : ∀ l : List Incident, SameVisit s (({ s with incidents := l } : InstanceState).onControl (fun s =>
        (s.note (.resolved tok s.deferredCompensationThrows)).updateToken tok.id (fun t =>
          { t with retryAttempts := max 0 (t.retryAttempts - addAttempts), state := .active }))) := by
      intro l
      refine ⟨rfl, rfl, rfl, rfl, rfl, fun t ht => ?_⟩
      obtain ⟨t0, ht0, rfl⟩ := List.mem_map.mp ht
      refine ⟨t0, ht0, ?_⟩
      split <;> exact ⟨rfl, rfl, rfl⟩
    exact hreinvoke (hsame _) hok
  · cases h

/-- The command of the first dispatch of a service or business rule task. -/
theorem enter_invokes {drv : DriveLoop} {r : EnterResult}
    (hkind : node.kind = .serviceTask ∨ node.kind = .businessRuleTask) (h : enter drv c tdef s tok node = .ok r) :
    r.commands.filter filterableCommand = [actionCommand s node (s.nextCmdID c.ids)] := by
  have hemit : (emitActionInvoke c tdef s tok node).map EnterResult.parked = .ok r := by
    obtain ⟨id, name, spec⟩ := node
    cases spec with
    | serviceTask a action => exact h
    | businessRuleTask a action rule => exact h
    | _ => rcases hkind with hkind | hkind <;> cases hkind
  cases hr : emitActionInvoke c tdef s tok node with
  | error e =>
    rw [hr] at hemit
    cases hemit
  | ok r' =>
    rw [hr] at hemit
    cases hemit
    exact (emitActionInvoke_invokes hr).1.trans ((serves_iff (.inl hkind) _).mpr (.inl hkind))

/-- The command of the first dispatch of a completion action. -/
theorem park_invokes {cmds : List Command} (hnode : tdef.node tok.nodeID = some node)
    (hkind : node.kind = .userTask ∨ node.kind = .receiveTask) (h : parkOnCompletionAction c tdef s tok cmds = some r) :
    r.commands = cmds ++ [actionCommand s node (s.nextCmdID c.ids)] := by
  unfold parkOnCompletionAction at h
  rw [hnode] at h
  dsimp only at h
  unfold actionCommand visitAction visitInput
  rcases hkind with hkind | hkind
  · rw [hkind] at h ⊢
    dsimp only at h
    split at h
    · cases h
    · cases h
      rfl
  · rw [hkind] at h ⊢
    dsimp only at h
    split at h
    · cases h
    · cases h
      rfl

end

/-- **A retry re-invokes what failed if and only if what failed is the service action and the token hosts no boundary arm.**
The first two parts say what fails: the command a visit is first parked on, at the entry of a service or business rule task
and at the completion of a user or receive task. -/
theorem retry_redoes_iff {c : StepCtx} {tdef : ProcessDefinition} {tok : Token} {node : Node} (hacts : ParksOnAction node)
    (hnode : tdef.node tok.nodeID = some node) :
    (∀ {drv s r}, node.kind = .serviceTask ∨ node.kind = .businessRuleTask → enter drv c tdef s tok node = .ok r →
      r.commands.filter filterableCommand = [actionCommand s node (s.nextCmdID c.ids)]) ∧
    (∀ {s cmds r}, node.kind = .userTask ∨ node.kind = .receiveTask → parkOnCompletionAction c tdef s tok cmds = some r →
      r.commands = cmds ++ [actionCommand s node (s.nextCmdID c.ids)]) ∧
    (∀ {drv s body r}, Reinvokes s tok body → defForScope c.top s.scopes tok.scopeID = .ok tdef →
    handle drv c s body = .ok r →
      (Redoes c s tdef tok node r ↔ ServesItself s node ∧ hostedArms s tok.id = [])) := by
  refine ⟨fun hkind h => enter_invokes hkind h, fun hkind h => park_invokes hnode hkind h, fun hre hdef hok => ?_⟩
  obtain ⟨x, hx, h⟩ := hre.invokes hdef hnode hok
  exact redoes_iff hacts hx h

/-- One activity between the start and the end. -/
def retried (node : Node) : ProcessDefinition := rowOf "retried" [node]

/-- A service task that is tried three times. -/
def triedService : Node := { id := "a", spec := .serviceTask { retryPolicy := some { maxAttempts := 3 } } "pay" }

/-- A user task with a completion action that is tried three times. -/
def triedUser : Node :=
  { id := "a", spec := .userTask { retryPolicy := some { maxAttempts := 3 }, completionAction := "done" } }

/-- The token on the activity waits for the retry timer and hosts no arm. -/
def waitsForRetry (x : InstanceState) : Bool :=
  x.status == .running && x.boundaries.isEmpty && x.armedEvents.isEmpty && x.eventTriggeredSubprocesses.isEmpty &&
    (x.timerByID "i-tm1").any (fun tr => tr.kind == .retry &&
      (x.tokenAwaiting tr.timerID).any (fun t => t.nodeID == "a" && t.scopeID == ""))

theorem reinvokes_of_waitsForRetry (h : waitsForRetry x = true) :
    x.status = .running ∧ x.boundaries = [] ∧
      ∃ tok, Reinvokes x tok (.timerFired "i-tm1") ∧ tok.nodeID = "a" ∧ tok.scopeID = "" := by
  simp only [waitsForRetry, Bool.and_eq_true, beq_iff_eq, List.isEmpty_iff] at h
  obtain ⟨⟨⟨⟨hrunning, hb⟩, hgw⟩, hsub⟩, htimer⟩ := h
  obtain ⟨tr, htr, hretry⟩ := (Option.any_eq_true _ _).mp htimer
  obtain ⟨hkind, hwaits⟩ := Bool.and_eq_true_iff.mp hretry
  obtain ⟨tok, htok, hat⟩ := (Option.any_eq_true _ _).mp hwaits
  refine ⟨hrunning, hb, tok, ⟨⟨tr, htr, by simpa using hkind, htok⟩, ?_, ?_, ?_, ?_⟩, by simpa using hat⟩
  · unfold ControlState.spawnsNewWork
    rw [hrunning]
  · rw [hgw]
    rfl
  · rw [hb]
    rfl
  · rw [hsub]
    rfl

/-- The failed action of a service task is invoked again. -/
theorem service_task_redone : ∃ x tok r, Run (retried triedService) none "i"
      (callsFrom 1 [.startInstance [] "", .actionFailed "i-c1" "no" true 0 none]) x ∧
    Reinvokes x tok (.timerFired "i-tm1") ∧
    Redoes (stepCtx (retried triedService) x ⟨3, .timerFired "i-tm1"⟩ plainOptions) x (retried triedService) tok
      triedService r := by
  have hplay : playsThrough (retried triedService) [.startInstance [] "", .actionFailed "i-c1" "no" true 0 none]
      (.timerFired "i-tm1") [] (fun x _ _ => waitsForRetry x) = true := by decide
  obtain ⟨x, r, -, hrun, hstep, -, hP⟩ := run_of_playsThrough hplay
  obtain ⟨hrunning, hb, tok, hre, hnodeID, hscope⟩ := reinvokes_of_waitsForRetry hP
  obtain ⟨r', hok⟩ := handled_of_step (by rw [hrunning]; rfl) hstep
  have hnode : (retried triedService).node tok.nodeID = some triedService := by
    rw [hnodeID]
    rfl
  have hdef : defForScope (retried triedService) x.scopes tok.scopeID = .ok (retried triedService) := by
    rw [hscope]
    rfl
  refine ⟨x, tok, r', hrun, hre, ((retry_redoes_iff (.inl (.inl rfl)) hnode).2.2 hre hdef hok).mpr ⟨.inl (.inl rfl), ?_⟩⟩
  unfold hostedArms
  rw [hb]
  rfl

/-- The action of the node's id. -/
def invokesNode (cmd : Command) : Bool :=
  match cmd with
  | .invokeAction _ name _ _ => name == "a"
  | _ => false

/-- The completion action `done` of a user task fails, and its retry invokes an action by the name of the node. -/
theorem completion_action_not_redone : Accepted asciiTables (retried triedUser) ∧
    ∃ x tok r r', Run (retried triedUser) none "i" (callsFrom 1 [.startInstance [] "",
        .humanCompleted "i-h1" "" "" [] { id := "ann" }, .actionFailed "i-c1" "no" true 0 none]) x ∧
      step 50 (retried triedUser) x ⟨4, .timerFired "i-tm1"⟩ plainOptions = .ok r ∧ r.commands.any invokesNode = true ∧
      Reinvokes x tok (.timerFired "i-tm1") ∧ visitAction triedUser = "done" ∧
      handle (drive (stepCtx (retried triedUser) x ⟨4, .timerFired "i-tm1"⟩ plainOptions) 50)
        (stepCtx (retried triedUser) x ⟨4, .timerFired "i-tm1"⟩ plainOptions) x (.timerFired "i-tm1") = .ok r' ∧
      ¬ Redoes (stepCtx (retried triedUser) x ⟨4, .timerFired "i-tm1"⟩ plainOptions) x
      (retried triedUser) tok triedUser r' := by
  have hplay : playsThrough (retried triedUser) [.startInstance [] "", .humanCompleted "i-h1" "" "" [] { id := "ann" },
      .actionFailed "i-c1" "no" true 0 none] (.timerFired "i-tm1") []
      (fun x r _ => waitsForRetry x && r.commands.any invokesNode) = true := by decide
  obtain ⟨x, r, -, hrun, hstep, -, hP⟩ := run_of_playsThrough hplay
  obtain ⟨hwaits, hinvokes⟩ := Bool.and_eq_true_iff.mp hP
  obtain ⟨hrunning, -, tok, hre, hnodeID, hscope⟩ := reinvokes_of_waitsForRetry hwaits
  obtain ⟨r', hok⟩ := handled_of_step (by rw [hrunning]; rfl) hstep
  have hnode : (retried triedUser).node tok.nodeID = some triedUser := by
    rw [hnodeID]
    rfl
  have hdef : defForScope (retried triedUser) x.scopes tok.scopeID = .ok (retried triedUser) := by
    rw [hscope]
    rfl
  obtain ⟨y, hy, h⟩ := hre.invokes hdef hnode hok
  refine ⟨by decide, x, tok, r, r', hrun, hstep, hinvokes, hre, rfl, hok, fun hredo => ?_⟩
  have hself := ((redoes_iff (.inr ⟨.inl rfl, by decide⟩) hy h).mp hredo).1
  rcases hself with (hkind | hkind) | ⟨hname, -⟩
  · cases hkind
  · cases hkind
  · exact absurd hname (by decide)

end Wrkflw
