import Wrkflw.Property.ParallelJoin

/-!
# The flow a completed activity leaves over

Where a visit of an activity ends well (`Completes`), the token goes on along the first flow the definition declares out
of the node. Recovery and deadline flows stand in the same list, so success takes one of them where it is declared first.

* `Succeeds` : the trigger answers the wait of the token with success;
* `Completes` : the engine ends a visit well and goes on in the given state, at each place where it does;
* `LeavesOver` : the last thing done is the arrival over the flow.
-/

namespace Wrkflw

open ControlState

variable {body : TriggerBody} {r : StepResult} {output : Vars} {x : InstanceState} {scope : String}
  {rest : List FlowRef}

/-- Where a visit ends well. -/
inductive CompletionSite where
  | action | human | message | child | passing | subProcess | eventSubProcess
  deriving DecidableEq

/-- The trigger answers the wait of the token with success. -/
def Succeeds (s : InstanceState) (tok : Token) : TriggerBody → CompletionSite → Prop
  | .actionCompleted id _, .action => s.tokenAwaiting id = some tok ∧
      ¬ (s.status = .compensating ∧ s.compensating.activeCmdID = id) ∧ s.isBenignCompensationDuplicate id = false
  | .humanCompleted id _ _ _ _, .human => s.tokenAwaiting id = some tok
  | .messageReceived name key _, .message => s.tokenAwaitingMessage name key = some tok ∧
      armByMessage (·.toTriggerMatch) s.armedEvents name key = none ∧
      armByMessage (·.toTriggerMatch) s.boundaries name key = none ∧
      armByMessage (·.toTriggerMatch) s.eventTriggeredSubprocesses name key = none
  | .subInstanceCompleted id _, .child => s.tokenAwaiting id = some tok
  | _, _ => False

/-- The activity is over as soon as it is entered. -/
def PassesAtOnce (node : Node) : Prop :=
  match node.spec with
  | .sendTask _ => True
  | .userTask u => (u.manual && u.manualImmediate) = true
  | _ => False

/-- The engine ends a visit to the activity well and goes on in the given state: there it hands over to the loop, or the
loop goes on. -/
inductive Completes (c : StepCtx) (s : InstanceState) (tdef : ProcessDefinition) (node : Node) (scope : String) :
    CompletionSite → InstanceState → Prop
  | answered {site : CompletionSite} {body : TriggerBody} {tok : Token} {y : InstanceState} {cmds : List Command}
      (hans : Succeeds s tok body site) (hscope : tok.scopeID = scope)
      (hdef : defForScope c.top s.scopes scope = .ok tdef) (hnode : tdef.node tok.nodeID = some node)
      (hy : ∀ drv, handle drv c s body = thenDrive drv ⟨y, cmds⟩) : Completes c s tdef node scope site y
  | passed {drv : DriveLoop} {tok : Token} {r : EnterResult} (hpass : PassesAtOnce node)
      (hscope : tok.scopeID = scope) (hdef : defForScope c.top s.scopes scope = .ok tdef)
      (hnode : tdef.node tok.nodeID = some node) (h : enter drv c tdef s tok node = .ok r) :
      Completes c s tdef node scope .passing r.state
  | left {inner : String} {r : EnterResult} (hkind : node.kind = .subProcess)
      (hdef : defForScope c.top (s.toControlState.exitScope inner false).scopes scope = .ok tdef)
      (hnode : tdef.node node.id = some node) (h : exitRegularSubprocessScope c s inner node.id scope = .ok r)
      (hdone : r.stopped = true) : Completes c s tdef node scope .subProcess r.state
  | leftBy {inner event : String} {enclosing : Scope} {r : EnterResult} (hkind : node.kind = .subProcess)
      (henc : scopeByID s.scopes inner = some enclosing) (hid : enclosing.nodeID = node.id)
      (hparent : enclosing.parentID = scope)
      (hdef : defForScope c.top (s.toControlState.exitScope inner true).scopes scope = .ok tdef)
      (hnode : tdef.node node.id = some node) (h : exitNestedEventSubprocessScope c s event inner = .ok r)
      (hdone : r.stopped = true) (hout : outgoingFlows tdef node.id ≠ []) :
      Completes c s tdef node scope .subProcess r.state
  | ended {inner : String} {r : EnterResult} (hevent : (eventSubprocessNested node).isSome = true)
      (h : exitEventSubprocessScope c s inner scope = .ok r)
      (hdone : hasChildScopeWithTokens s.tokens s.scopes inner "" = false) :
      Completes c s tdef node scope .eventSubProcess (s.onControl (·.exitScope inner false))

/-- The flow is the node's recovery or deadline flow. -/
def NamesFailure (node : Node) (f : FlowRef) : Prop :=
  f.flow.id ≠ "" ∧ (f.flow.id = node.recoveryFlowOf ∨ f.flow.id = node.deadlineOf.2.1)

/-- The last thing done is the arrival over the flow. -/
def LeavesOver (y : InstanceState) (scope : String) (f : FlowRef) : Prop :=
  ∃ id, y.trace.head? = some (.arrived id f.flow.target scope f.identity)

/-! ## The state the loop takes over in -/

/-- The state a handler hands over in. -/
def handsOver (x : InstanceState) : EngineResult := .ok ⟨x, []⟩

section
variable {c : StepCtx} {s y : InstanceState} {tdef : ProcessDefinition} {node : Node} {tok : Token} {cmds : List Command}

theorem thenDrive_handsOver (r : StepResult) : thenDrive handsOver r = .ok ⟨r.state, r.commands ++ []⟩ := rfl

theorem handed_state (hy : ∀ drv, handle drv c s body = thenDrive drv ⟨y, cmds⟩)
    (h : handle handsOver c s body = .ok r) : r.state = y := by
  rw [hy handsOver, thenDrive_handsOver] at h
  rw [← Except.ok.inj h]

/-- A handler that hands over does not return by itself. -/
theorem not_returned (hy : ∀ drv, handle drv c s body = thenDrive drv ⟨y, cmds⟩)
    (h : ∀ drv, handle drv c s body = .ok r) : False := by
  have herr := (hy (fun _ => .error ⟨.outOfFuel, ""⟩)).symm.trans (h _)
  cases herr

/-- The state the token of a completed action goes on from. -/
def actionDone (c : StepCtx) (s : InstanceState) (tdef : ProcessDefinition) (tok : Token) (output : Vars) : InstanceState :=
  (clearAwaitOf tok ((recordCompletion c (s.removeBoundaryArmsForHost tok.id).state tdef tok).mergeVars output)).onControl
    (·.setTokenState tok.id .active)

theorem actionCompleted_eq {id : String} (hans : Succeeds s tok (.actionCompleted id output) .action)
    (hdef : defForScope c.top s.scopes tok.scopeID = .ok tdef) (drv : DriveLoop) :
    handle drv c s (.actionCompleted id output) =
      thenDrive drv ⟨moveAlongSingleFlow c.ids tdef (actionDone c s tdef tok output) tok c.at_,
        (s.removeBoundaryArmsForHost tok.id).commands⟩ := by
  obtain ⟨htok, hwalk, hdup⟩ := hans
  change handleActionCompleted drv c s id output = _
  unfold handleActionCompleted
  rw [if_neg (by simpa using hwalk), if_neg (by simp [hdup]), htok]
  dsimp only
  rw [show (s.removeBoundaryArmsForHost tok.id).state.scopes = s.scopes from
    congrArg ControlState.scopes (s.removeBoundaryArmsForHost_control tok.id), hdef]
  rfl

theorem actionCompleted_hands {id : String} (hans : Succeeds s tok (.actionCompleted id output) .action)
    (hdef : defForScope c.top s.scopes tok.scopeID = .ok tdef)
    (hy : ∀ drv, handle drv c s (.actionCompleted id output) = thenDrive drv ⟨y, cmds⟩) :
    y = moveAlongSingleFlow c.ids tdef (actionDone c s tdef tok output) tok c.at_ :=
  (handed_state hy (actionCompleted_eq hans hdef handsOver)).symm

/-- The token goes on from a state whose control state differs from the given one in its tokens and visits only. -/
def GoesOn (c : StepCtx) (s : InstanceState) (tdef : ProcessDefinition) (tok : Token) (y : InstanceState) : Prop :=
  ∃ x, x.toControlState = { s.toControlState with tokens := x.tokens, history := x.history } ∧
    y = moveAlongSingleFlow c.ids tdef x tok c.at_

theorem childCompleted_eq {id : String} (htok : s.tokenAwaiting id = some tok)
    (hdef : defForScope c.top s.scopes tok.scopeID = .ok tdef) (drv : DriveLoop) :
    handle drv c s (.subInstanceCompleted id output) =
      resumeAndDrive drv c tdef (clearAwaitOf tok (s.mergeVars output)) tok [] := by
  change handleSubInstanceCompleted drv c s id output = _
  unfold handleSubInstanceCompleted
  rw [htok]
  dsimp only
  rw [show (clearAwaitOf tok (s.mergeVars output)).scopes = s.scopes from rfl, hdef]
  rfl

theorem childCompleted_hands {id : String} (htok : s.tokenAwaiting id = some tok)
    (hdef : defForScope c.top s.scopes tok.scopeID = .ok tdef)
    (hy : ∀ drv, handle drv c s (.subInstanceCompleted id output) = thenDrive drv ⟨y, cmds⟩) : GoesOn c s tdef tok y :=
  ⟨(clearAwaitOf tok (s.mergeVars output)).onControl (·.setTokenState tok.id .active), rfl,
    (handed_state hy (childCompleted_eq htok hdef handsOver)).symm⟩

/-- A completion that does not park the token on its completion action hands over. -/
theorem unparked {pre : List Command}
    (hy : ∀ drv, handle drv c s body = thenDrive drv ⟨y, cmds⟩) {then_ : (InstanceState → EngineResult) → EngineResult}
    (h : ∀ drv, handle drv c s body = match parkOnCompletionAction c tdef x tok pre with
      | some r => .ok r
      | none => then_ drv) : handle handsOver c s body = then_ handsOver := by
  cases hpark : parkOnCompletionAction c tdef x tok pre with
  | none =>
    have hhere := h handsOver
    rw [hpark] at hhere
    exact hhere
  | some r =>
    refine (not_returned hy (r := r) (fun drv => ?_)).elim
    have hhere := h drv
    rw [hpark] at hhere
    exact hhere

/-- The state and commands once a message is taken in. -/
def messageTaken (s : InstanceState) (tok : Token) (payload : Vars) : StepResult :=
  let r1 := ((s.mergeVars payload).onControl (·.updateToken tok.id (fun t =>
    { t with awaitMessage := "", awaitMessageKey := "" }))).cancelTimersForToken tok.id ""
  let r2 := r1.state.removeBoundaryArmsForHost tok.id
  ⟨r2.state, r1.commands ++ r2.commands⟩

theorem messageTaken_control (payload : Vars) : (messageTaken s tok payload).state.toControlState =
    s.toControlState.updateToken tok.id (fun t => { t with awaitMessage := "", awaitMessageKey := "" }) := by
  unfold messageTaken
  dsimp only
  rw [InstanceState.removeBoundaryArmsForHost_control, InstanceState.cancelTimersForToken_control]
  rfl

theorem messageReceived_eq {name key : String} (payload : Vars)
    (hans : Succeeds s tok (.messageReceived name key payload) .message)
    (hdef : defForScope c.top s.scopes tok.scopeID = .ok tdef) (drv : DriveLoop) :
    handle drv c s (.messageReceived name key payload) =
      if !s.spawnsNewWork then .ok ⟨s, []⟩
      else match parkOnCompletionAction c tdef (messageTaken s tok payload).state tok
        (messageTaken s tok payload).commands with
        | some r => .ok r
        | none => resumeAndDrive drv c tdef (messageTaken s tok payload).state tok (messageTaken s tok payload).commands := by
  obtain ⟨htok, hgw, hba, hsub⟩ := hans
  have hnone : dispatchArmCascade drv c s (·.mergeVars payload)
      (armByMessage (·.toTriggerMatch) s.armedEvents name key) (armByMessage (·.toTriggerMatch) s.boundaries name key)
      (armByMessage (·.toTriggerMatch) s.eventTriggeredSubprocesses name key) = none := by
    unfold dispatchArmCascade
    rw [hgw, hba, hsub]
    split <;> rfl
  change handleMessageReceived drv c s name key payload = _
  unfold handleMessageReceived
  rw [hnone, htok]
  dsimp only
  split
  · rfl
  · have hscopes : (messageTaken s tok payload).state.scopes = s.scopes := by
      rw [messageTaken_control]
      rfl
    dsimp only [messageTaken] at hscopes ⊢
    rw [hscopes, hdef]
    rfl

theorem messageReceived_hands {name key : String} {payload : Vars}
    (hans : Succeeds s tok (.messageReceived name key payload) .message)
    (hdef : defForScope c.top s.scopes tok.scopeID = .ok tdef)
    (hy : ∀ drv, handle drv c s (.messageReceived name key payload) = thenDrive drv ⟨y, cmds⟩) :
    GoesOn c s tdef tok y := by
  have heq := messageReceived_eq payload hans hdef
  cases hspawns : s.spawnsNewWork with
  | false =>
    refine (not_returned hy (r := ⟨s, []⟩) (fun drv => ?_)).elim
    rw [heq drv, hspawns]
    rfl
  | true =>
    rw [hspawns] at heq
    have hhere := unparked hy heq
    refine ⟨(messageTaken s tok payload).state.onControl (·.setTokenState tok.id .active), ?_, (handed_state hy hhere).symm⟩
    dsimp only [InstanceState.onControl]
    rw [messageTaken_control]
    rfl

/-- The task of a human completion, completed. -/
def completeTask (c : StepCtx) (actor : Actor) (outcome note : String) (t : HumanTask) : HumanTask :=
  { t with state := .completed, completion := some ⟨actor, c.at_, outcome, note⟩ }

/-- The state and commands once a human completion is taken in. -/
def humanTaken (c : StepCtx) (s : InstanceState) (tok : Token) (node : Option Node) (task : HumanTask)
    (taskID outcome note : String) (output : Vars) (actor : Actor) : StepResult :=
  let s1 := applyOutcomeExposure ((node.map (·.id)).getD "") (userTaskOf node) outcome (s.mergeVars output)
  let s2 := (s1.updateTask taskID (completeTask c actor outcome note)).onControl (·.updateToken tok.id (fun t =>
    { t.clearAwait with state := .active }))
  let r1 := s2.cancelTimersByTaskID taskID ""
  let r2 := r1.state.removeBoundaryArmsForHost tok.id
  ⟨r2.state, .updateTask (completeTask c actor outcome note task) :: (r1.commands ++ r2.commands)⟩

theorem humanTaken_control (task : HumanTask) (node : Option Node) (taskID outcome note : String)
    (output : Vars) (actor : Actor) :
    (humanTaken c s tok node task taskID outcome note output actor).state.toControlState =
      s.toControlState.updateToken tok.id (fun t => { t.clearAwait with state := .active }) := by
  unfold humanTaken
  dsimp only
  rw [InstanceState.removeBoundaryArmsForHost_control, InstanceState.cancelTimersByTaskID_control,
    InstanceState.onControl_toControlState, InstanceState.updateTask_control]
  unfold applyOutcomeExposure
  split
  · rfl
  · split
    · rfl
    · split <;> rfl

theorem humanCompleted_eq {taskID outcome note : String} (actor : Actor) {task : HumanTask}
    (htok : s.tokenAwaiting taskID = some tok) (hdef : defForScope c.top s.scopes tok.scopeID = .ok tdef)
    (htask : s.taskByID taskID = some task) (hopen : task.isOpen = true)
    (hcheck : checkCompletion (userTaskOf (tdef.node tok.nodeID)) tok.nodeID outcome note output = none)
    (drv : DriveLoop) :
    handle drv c s (.humanCompleted taskID outcome note output actor) =
      let r := humanTaken c s tok (tdef.node tok.nodeID) task taskID outcome note output actor
      match parkOnCompletionAction c tdef r.state tok r.commands with
      | some r => .ok r
      | none => thenDrive drv ⟨moveAlongSingleFlow c.ids tdef r.state tok c.at_, r.commands⟩ := by
  change handleHumanCompleted drv c s taskID outcome note output actor = _
  unfold handleHumanCompleted
  rw [htask, htok]
  dsimp only
  rw [if_neg (by simp [hopen]), hdef]
  dsimp only [bind, Except.bind]
  rw [hcheck]
  rfl

/-- A human completion that succeeds is one of an open task whose payload passes the checks. -/
theorem humanCompleted_ok {taskID outcome note : String} {actor : Actor} {drv : DriveLoop}
    (htok : s.tokenAwaiting taskID = some tok) (hdef : defForScope c.top s.scopes tok.scopeID = .ok tdef)
    (hok : handle drv c s (.humanCompleted taskID outcome note output actor) = .ok r) :
    ∃ task, s.taskByID taskID = some task ∧ task.isOpen = true ∧
      checkCompletion (userTaskOf (tdef.node tok.nodeID)) tok.nodeID outcome note output = none := by
  change handleHumanCompleted drv c s taskID outcome note output actor = _ at hok
  unfold handleHumanCompleted at hok
  cases htask : s.taskByID taskID with
  | none =>
    rw [htask, htok] at hok
    cases hok
  | some task =>
    rw [htask, htok] at hok
    dsimp only at hok
    split at hok
    · cases hok
    · rename_i hopen
      rw [hdef] at hok
      dsimp only [bind, Except.bind] at hok
      refine ⟨task, rfl, by simpa using hopen, ?_⟩
      cases hcheck : checkCompletion (userTaskOf (tdef.node tok.nodeID)) tok.nodeID outcome note output with
      | none => rfl
      | some e =>
        rw [hcheck] at hok
        cases hok

theorem humanCompleted_hands {taskID outcome note : String} {actor : Actor}
    (htok : s.tokenAwaiting taskID = some tok) (hdef : defForScope c.top s.scopes tok.scopeID = .ok tdef)
    (hy : ∀ drv, handle drv c s (.humanCompleted taskID outcome note output actor) = thenDrive drv ⟨y, cmds⟩) :
    GoesOn c s tdef tok y := by
  obtain ⟨task, htask, hopen, hcheck⟩ := humanCompleted_ok htok hdef (hy handsOver)
  have hhere := unparked hy (humanCompleted_eq actor htok hdef htask hopen hcheck)
  refine ⟨_, ?_, (handed_state hy hhere).symm⟩
  rw [humanTaken_control]
  rfl

/-- An answer that is taken ends the visit, unless the token parks on a completion action or the instance starts no
new work. -/
theorem Succeeds.completes {site : CompletionSite} {drv : DriveLoop}
    (hans : Succeeds s tok body site) (hdef : defForScope c.top s.scopes tok.scopeID = .ok tdef)
    (hnode : tdef.node tok.nodeID = some node) (hok : handle drv c s body = .ok r)
    (hforward : site = .human ∨ site = .message → node.completionActionOf = "")
    (hspawns : site = .message → s.spawnsNewWork = true) :
    ∃ y, Completes c s tdef node tok.scopeID site y ∧ ∃ cmds r', drv y = .ok r' ∧ r = r'.prepend cmds := by
  have hpark : ∀ x pre, (site = .human ∨ site = .message) → parkOnCompletionAction c tdef x tok pre = none := by
    intro x pre hsite
    unfold parkOnCompletionAction
    rw [hnode]
    dsimp only
    rw [hforward hsite]
    split <;> rfl
  have hmade : ∃ y cmds, ∀ drv, handle drv c s body = thenDrive drv ⟨y, cmds⟩ := by
    unfold Succeeds at hans
    split at hans
    · exact ⟨_, _, actionCompleted_eq hans hdef⟩
    · rename_i id outcome note output actor
      obtain ⟨task, htask, hopen, hcheck⟩ := humanCompleted_ok hans hdef hok
      have heq := humanCompleted_eq actor hans hdef htask hopen hcheck
      simp only [hpark _ _ (.inl rfl)] at heq
      exact ⟨_, _, heq⟩
    · rename_i name key payload
      have heq := messageReceived_eq payload hans hdef
      simp only [hspawns rfl, hpark _ _ (.inr rfl)] at heq
      exact ⟨_, _, heq⟩
    · exact ⟨_, _, childCompleted_eq hans hdef⟩
    · cases hans
  obtain ⟨y, cmds, hy⟩ := hmade
  rw [hy drv] at hok
  obtain ⟨r', hdrv, hr⟩ := map_prepend_ok hok
  exact ⟨y, .answered hans rfl hdef hnode hy, cmds, r', hdrv, hr⟩

theorem passed_goesOn {drv : DriveLoop} {r : EnterResult} (hpass : PassesAtOnce node)
    (h : enter drv c tdef s tok node = .ok r) : GoesOn c s tdef tok r.state := by
  unfold PassesAtOnce at hpass
  unfold enter at h
  split at hpass
  · rename_i t hspec
    rw [hspec] at h
    obtain ⟨key, -, h⟩ := bind_ok (show (evalStringOr _ _ _ _ >>= _) = .ok r from h)
    cases h
    exact ⟨s, rfl, rfl⟩
  · rename_i u hspec
    rw [hspec] at h
    dsimp only [userTask] at h
    rw [if_pos hpass] at h
    cases h
    refine ⟨_, ?_, rfl⟩
    dsimp only [InstanceState.onControl, setVisitTask, updateOpenVisit]
    split <;> rfl
  · cases hpass

/-- A visit that ends at a sub-process's own end: what it records and where its parent goes on. -/
theorem left_eq {inner : String} {r : EnterResult}
    (hdef : defForScope c.top (s.toControlState.exitScope inner false).scopes scope = .ok tdef)
    (h : exitRegularSubprocessScope c s inner node.id scope = .ok r) (hdone : r.stopped = true) :
    ∃ x, x.toControlState = s.toControlState.exitScope inner false ∧
      resumeInParentScope c tdef (recordSubProcessCompensation c tdef x node.id scope) node.id scope = some r.state := by
  unfold exitRegularSubprocessScope at h
  split at h
  · cases h
    cases hdone
  · dsimp only at h
    split at h
    · cases h
    · rename_i parentDef hparent
      cases hdef.symm.trans hparent
      split at h
      · cases h
      · rename_i s3 hresume
        cases h
        exact ⟨_, rfl, hresume⟩

/-- The same where the event sub-process running in the scope ends it. -/
theorem leftBy_eq {inner event : String} {enclosing : Scope} {r : EnterResult}
    (henc : scopeByID s.scopes inner = some enclosing) (hid : enclosing.nodeID = node.id)
      (hparent : enclosing.parentID = scope)
    (hdef : defForScope c.top (s.toControlState.exitScope inner true).scopes scope = .ok tdef)
    (h : exitNestedEventSubprocessScope c s event inner = .ok r) (hdone : r.stopped = true)
    (hout : outgoingFlows tdef node.id ≠ []) :
    ∃ x y, x.toControlState = s.toControlState.exitScope inner true ∧ r.state.toControlState = y.toControlState ∧
      resumeInParentScope c tdef (recordSubProcessCompensation c tdef x node.id scope) node.id scope = some y := by
  unfold exitNestedEventSubprocessScope at h
  rw [henc] at h
  dsimp only at h
  split at h
  · cases h
    cases hdone
  · split at h
    · cases h
      cases hdone
    · split at h
      · cases h
      · rename_i grandparentDef hgrand
        rw [hparent] at hgrand
        cases hdef.symm.trans hgrand
        split at h
        · rename_i s3 hresume
          cases h
          rw [hid, hparent] at hresume
          exact ⟨_, s3, rfl, rfl, hresume⟩
        · rename_i hnone
          unfold resumeInParentScope at hnone
          split at hnone
          · rename_i hempty
            rw [hid] at hempty
            exact absurd hempty hout
          · cases hnone

/-! ## The first flow -/

theorem moveAlong_leaves {f : FlowRef}
    (hout : outgoingFlows tdef tok.nodeID = f :: rest) :
    LeavesOver (moveAlongSingleFlow c.ids tdef x tok c.at_) tok.scopeID f := by
  unfold moveAlongSingleFlow
  rw [hout]
  exact ⟨tok.id, rfl⟩

theorem resume_leaves {nodeID : String} {f : FlowRef}
    (hout : outgoingFlows tdef nodeID = f :: rest) (h : resumeInParentScope c tdef x nodeID scope = some y) :
    LeavesOver y scope f := by
  unfold resumeInParentScope at h
  rw [hout] at h
  cases h
  exact ⟨_, rfl⟩

/-- Whatever the activity and however its visit ends well, the first declared flow is taken. -/
theorem Completes.leaves_first {site : CompletionSite} (h : Completes c s tdef node scope site y)
    (hsite : site ≠ .eventSubProcess) {f : FlowRef} (hout : outgoingFlows tdef node.id = f :: rest) :
    LeavesOver y scope f := by
  cases h with
  | @answered site body tok y cmds hans hscope hdef hnode hy =>
    rw [node_id hnode] at hout
    subst hscope
    have hmoved : ∃ x, y = moveAlongSingleFlow c.ids tdef x tok c.at_ := by
      unfold Succeeds at hans
      split at hans
      · exact ⟨_, actionCompleted_hands hans hdef hy⟩
      · obtain ⟨x, -, hx⟩ := humanCompleted_hands hans hdef hy
        exact ⟨x, hx⟩
      · obtain ⟨x, -, hx⟩ := messageReceived_hands hans hdef hy
        exact ⟨x, hx⟩
      · obtain ⟨x, -, hx⟩ := childCompleted_hands hans hdef hy
        exact ⟨x, hx⟩
      · cases hans
    obtain ⟨x, rfl⟩ := hmoved
    exact moveAlong_leaves hout
  | passed hpass hscope hdef hnode h =>
    rw [node_id hnode] at hout
    subst hscope
    obtain ⟨x, -, hx⟩ := passed_goesOn hpass h
    rw [hx]
    exact moveAlong_leaves hout
  | left hkind hdef hnode h hdone =>
    obtain ⟨x, -, hresume⟩ := left_eq hdef h hdone
    exact resume_leaves hout hresume
  | leftBy hkind henc hid hparent hdef hnode h hdone hne =>
    obtain ⟨x, y, -, hstate, hresume⟩ := leftBy_eq henc hid hparent hdef h hdone hne
    obtain ⟨id, hhead⟩ := resume_leaves hout hresume
    refine ⟨id, ?_⟩
    rw [hstate]
    exact hhead
  | ended => exact absurd rfl hsite

/-- The arrival says which flow was taken. -/
theorem LeavesOver.unique {f f' : FlowRef} (h : LeavesOver y scope f) (h' : LeavesOver y scope f')
    (hf : f ∈ flowRefs tdef) (hf' : f' ∈ flowRefs tdef) : f = f' := by
  obtain ⟨id, h⟩ := h
  obtain ⟨id', h'⟩ := h'
  have hid : f.identity = f'.identity := (Event.arrived.inj (Option.some.inj (h.symm.trans h'))).2.2.2
  exact List.inj_on_of_nodup_map (flowRefs_index_nodup tdef) hf hf' (Library.numbered_inj hid).1

end

/-- **Success takes the failure path** exactly where the definition declares that flow first: wherever a visit of an
activity that names a recovery or a deadline flow and has another flow ends well, the token leaves over a flow that is
neither if and only if the first flow declared out of the node is neither. -/
theorem success_spares_failure_flow_iff {c : StepCtx} {s y : InstanceState} {tdef : ProcessDefinition} {node : Node}
    {scope : String} {site : CompletionSite} (h : Completes c s tdef node scope site y) (hsite : site ≠ .eventSubProcess)
    (hother : ∃ f ∈ outgoingFlows tdef node.id, ¬ NamesFailure node f) :
    (∃ f ∈ outgoingFlows tdef node.id, LeavesOver y scope f ∧ ¬ NamesFailure node f) ↔
      ∀ f, (outgoingFlows tdef node.id).head? = some f → ¬ NamesFailure node f := by
  cases hout : outgoingFlows tdef node.id with
  | nil =>
    obtain ⟨f, hf, -⟩ := hother
    rw [hout] at hf
    cases hf
  | cons first rest =>
    have hfirst := h.leaves_first hsite hout
    have hmem : ∀ f ∈ first :: rest, f ∈ flowRefs tdef := by
      intro f hf
      rw [← hout] at hf
      exact List.mem_of_mem_filter hf
    constructor
    · rintro ⟨f, hf, hleaves, hspares⟩ g hg
      cases hg
      rw [hfirst.unique hleaves (hmem first (List.mem_cons_self ..)) (hmem f hf)]
      exact hspares
    · intro hspares
      exact ⟨first, List.mem_cons_self .., hfirst, hspares first rfl⟩

/-- A service task with a recovery flow, and the flows out of it in the given order. -/
def recovering (flows : List SequenceFlow) : ProcessDefinition where
  id := "recovers"
  version := 1
  nodes := [startNode "s", { id := "a", spec := .serviceTask { recoveryFlow := "fix" } "" },
    endNode "good", endNode "bad"]
  flows := flowOf "f1" "s" "a" :: flows

def taskFlows : List SequenceFlow := [flowOf "ok" "a" "good", flowOf "fix" "a" "bad"]

theorem completes_of_waitsAtActivity (flows : List SequenceFlow) (h : waitsAtActivity x = true) (trg : Trigger) :
    ∃ node y, node.id = "a" ∧ node.recoveryFlowOf = "fix" ∧ node.deadlineOf.2.1 = "" ∧
      Completes (stepCtx (recovering flows) x trg plainOptions) x (recovering flows) node "" .action y := by
  obtain ⟨hrunning, hdup, tok, htok, hnodeID, hscope⟩ := waits_of_waitsAtActivity h
  have hans : Succeeds x tok (.actionCompleted "i-c1" []) .action :=
    ⟨htok, fun hw => (by cases hrunning.symm.trans hw.1), hdup⟩
  have hdef : defForScope (recovering flows) x.scopes "" = .ok (recovering flows) := rfl
  have hat : defForScope (recovering flows) x.scopes tok.scopeID = .ok (recovering flows) := by
    rw [hscope]
    exact hdef
  refine ⟨{ id := "a", spec := .serviceTask { recoveryFlow := "fix" } "" }, _, rfl, rfl, rfl,
    .answered hans hscope hdef ?_ (actionCompleted_eq hans hat)⟩
  rw [hnodeID]
  rfl

/-- Success goes to the good end where its flow is declared first. -/
theorem success_takes_own_flow : ∃ x node y trg, Run (recovering taskFlows) none "i" (callsFrom 1 [.startInstance [] ""]) x ∧
    Completes (stepCtx (recovering taskFlows) x trg plainOptions) x (recovering taskFlows) node "" .action y ∧
    ∃ f ∈ outgoingFlows (recovering taskFlows) node.id, LeavesOver y "" f ∧ ¬ NamesFailure node f := by
  have hplay : playsThrough (recovering taskFlows) [.startInstance [] ""] (.actionCompleted "i-c1" []) []
      (fun x _ _ => waitsAtActivity x) = true := by decide
  obtain ⟨x, r, y, hrun, -, -, hP⟩ := run_of_playsThrough hplay
  obtain ⟨node, y, hid, hrec, hdead, hdone⟩ := completes_of_waitsAtActivity taskFlows hP ⟨2, .actionCompleted "i-c1" []⟩
  have hspares : ∀ f, f.flow.id = "ok" → ¬ NamesFailure node f := by
    intro f hf hn
    unfold NamesFailure at hn
    rw [hf, hrec, hdead] at hn
    simp at hn
  refine ⟨x, node, y, _, hrun, hdone, (success_spares_failure_flow_iff hdone (by decide) ?_).mpr ?_⟩
  · rw [hid]
    exact ⟨⟨1, flowOf "ok" "a" "good"⟩, by decide, hspares _ rfl⟩
  · intro f hf
    rw [hid] at hf
    cases hf
    exact hspares _ rfl

/-- Success goes to the bad end where the recovery flow is declared first. -/
theorem success_takes_recovery_flow : Accepted asciiTables (recovering taskFlows.reverse) ∧
    ∃ x r node y, Run (recovering taskFlows.reverse) none "i" (callsFrom 1 [.startInstance [] ""]) x ∧
      step 50 (recovering taskFlows.reverse) x ⟨2, .actionCompleted "i-c1" []⟩ plainOptions = .ok r ∧
      Completes (stepCtx (recovering taskFlows.reverse) x ⟨2, .actionCompleted "i-c1" []⟩ plainOptions) x
        (recovering taskFlows.reverse) node "" .action y ∧
      (∃ f ∈ outgoingFlows (recovering taskFlows.reverse) node.id, ¬ NamesFailure node f) ∧
      ¬ (∃ f ∈ outgoingFlows (recovering taskFlows.reverse) node.id, LeavesOver y "" f ∧ ¬ NamesFailure node f) ∧
      r.state.history.getLast?.map (·.nodeID) = some "bad" := by
  have hplay : playsThrough (recovering taskFlows.reverse) [.startInstance [] ""] (.actionCompleted "i-c1" []) []
      (fun x r _ => waitsAtActivity x && r.state.history.getLast?.map (·.nodeID) == some "bad") = true := by decide
  obtain ⟨x, r, -, hrun, hstep, -, hP⟩ := run_of_playsThrough hplay
  obtain ⟨hwaits, hbad⟩ := Bool.and_eq_true_iff.mp hP
  obtain ⟨node, y, hid, hrec, hdead, hdone⟩ := completes_of_waitsAtActivity taskFlows.reverse hwaits
    ⟨2, .actionCompleted "i-c1" []⟩
  have hfirst : LeavesOver y "" ⟨1, flowOf "fix" "a" "bad"⟩ := by
    have hout : outgoingFlows (recovering taskFlows.reverse) node.id =
        [⟨1, flowOf "fix" "a" "bad"⟩, ⟨2, flowOf "ok" "a" "good"⟩] := by
      rw [hid]
      rfl
    exact hdone.leaves_first (by decide) hout
  refine ⟨by decide, x, r, node, y, hrun, hstep, hdone, ?_, ?_, by simpa using hbad⟩
  · rw [hid]
    refine ⟨⟨2, flowOf "ok" "a" "good"⟩, by decide, ?_⟩
    unfold NamesFailure
    rw [hrec, hdead]
    decide
  · rintro ⟨f, hf, hleaves, hspares⟩
    have hfix : (⟨1, flowOf "fix" "a" "bad"⟩ : FlowRef) ∈ flowRefs (recovering taskFlows.reverse) := by decide
    have he := hleaves.unique hfirst (List.mem_of_mem_filter hf) hfix
    subst he
    exact hspares ⟨by decide, .inl (by rw [hrec]; rfl)⟩

end Wrkflw
