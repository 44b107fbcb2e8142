import Wrkflw.Machine.Outcome

/-!
# The loop

* `Lands` : the ways a node strategy returns to the `drive` loop; `enter_lands` : every strategy returns in one of them;
* `LoopRule` : what a property of results needs to hold of everything the loop returns (`LoopRule.drive`).
-/

namespace Wrkflw

open ControlState

variable {scopeID : String}

/-! ## Node strategies -/

/-- The ways a node strategy returns to the loop: it goes on, the instance completed with no token left, or the strategy
ran the loop itself. -/
inductive Lands (c : StepCtx) (drv : DriveLoop) (r : EnterResult) : Prop
  | goesOn (hhalt : r.halt = false) (hable : Able r.state.toControlState) (hmute : Mute r.commands)
  | done (hcloses : Closes c.at_ r.toStepResult) (htok : r.state.tokens = [])
  | halts (hhalt : r.halt = true) (hruns : Runs c drv r.toStepResult)

section Strategies
variable {c : StepCtx} {drv : DriveLoop} {x : InstanceState} {tdef : ProcessDefinition} {tok : Token}
  {node : Node} {r : EnterResult} (hable : Able x.toControlState)

theorem parked_lands {r0 : StepResult} (hr : Able r0.state.toControlState) (hm : Mute r0.commands) :
    Lands c drv (.parked r0) := .goesOn rfl hr hm

theorem complete_lands (hd : x.drained = true) (hr : r.toStepResult = x.complete c.at_) : Lands c drv r := by
  have htok : x.tokens = [] := by
    unfold drained at hd
    rw [Bool.and_eq_true, List.isEmpty_iff] at hd
    exact hd.1
  refine .done (hr ▸ complete_closes htok c.at_) ?_
  rw [hr, InstanceState.complete_control, endControl_tokens]
  exact htok

include hable

theorem goOn_lands {cmds : List Command} (hm : Mute cmds) : Lands c drv (goOn c tdef x tok cmds) :=
  .goesOn rfl (hable.moveAlongSingleFlow c.ids tdef tok c.at_) hm

theorem defect_lands (nodeID reason : String) :
    Lands c drv (.parked ⟨recordDefinitionDefect c.ids x tok nodeID reason c.at_, []⟩) :=
  parked_lands (hable.setTokenState tok.id .incident) mute_nil

theorem exitRootScope_lands (hhalt : r.halt = false) (hr : r.toStepResult = exitRootScope c x) : Lands c drv r := by
  unfold exitRootScope at hr
  split at hr
  · rename_i hd
    exact complete_lands hd hr
  · refine .goesOn hhalt ?_ ?_
    · rw [hr]
      exact hable
    · rw [hr]
      exact mute_nil

theorem recordSubProcess_able (d : ProcessDefinition) (nodeID scopeID : String) :
    Able (recordSubProcessCompensation c d x nodeID scopeID).toControlState := by
  unfold recordSubProcessCompensation
  split
  · split
    · split
      · exact hable
      · exact hable.recordCompensation _ _
    · exact hable
  · exact hable

theorem resumeInParentScope_able {d : ProcessDefinition} {y : InstanceState} {nodeID : String}
    (h : resumeInParentScope c d x nodeID scopeID = some y) : Able y.toControlState := by
  unfold resumeInParentScope at h
  split at h
  · cases h
  · rw [← Option.some.inj h]
    exact hable.place c.ids _ _ _ c.at_

theorem exitRegularSubprocessScope_lands {nodeID parentID : String}
    (h : exitRegularSubprocessScope c x scopeID nodeID parentID = .ok r) : Lands c drv r := by
  unfold exitRegularSubprocessScope at h
  split at h
  · rw [← Except.ok.inj h]
    exact .goesOn rfl hable mute_nil
  · dsimp only at h
    split at h
    · cases h
    · rename_i parentDef _
      split at h
      · cases h
      · rename_i s3 hres
        rw [← Except.ok.inj h]
        refine .goesOn rfl ?_ (mute_cancelTimers _)
        exact resumeInParentScope_able (recordSubProcess_able (hable.exitScope scopeID false) parentDef nodeID parentID) hres

theorem exitRootEventSubprocessScope_lands (scopeID : String) :
    Lands c drv (exitRootEventSubprocessScope c x scopeID) := by
  unfold exitRootEventSubprocessScope
  split
  · exact .goesOn rfl hable mute_nil
  · split
    · exact .goesOn rfl hable mute_nil
    · exact exitRootScope_lands hable rfl rfl

theorem exitNestedEventSubprocessScope_lands {parentID : String}
    (h : exitNestedEventSubprocessScope c x scopeID parentID = .ok r) : Lands c drv r := by
  unfold exitNestedEventSubprocessScope at h
  split at h
  · rw [← Except.ok.inj h]
    exact .goesOn rfl hable mute_nil
  · rename_i enclosing _
    split at h
    · rw [← Except.ok.inj h]
      exact .goesOn rfl hable mute_nil
    · split at h
      · rw [← Except.ok.inj h]
        exact .goesOn rfl hable mute_nil
      · dsimp only at h
        split at h
        · cases h
        · rename_i grand _
          have hrecorded : Able (recordSubProcessCompensation c grand (x.onControl (·.exitScope parentID true))
              enclosing.nodeID enclosing.parentID).toControlState :=
            recordSubProcess_able (hable.exitScope parentID true) grand enclosing.nodeID enclosing.parentID
          split at h
          · rename_i s3 hres
            rw [← Except.ok.inj h]
            have hresumed := resumeInParentScope_able hrecorded hres
            exact .goesOn rfl hresumed (mute_cancelTimers _)
          · split at h
            · cases h
            · split at h
              · rename_i hd
                rw [← Except.ok.inj h]
                exact complete_lands hd rfl
              · rw [← Except.ok.inj h]
                exact .goesOn rfl hrecorded (mute_cancelTimers _)

theorem exitSubprocessScope_lands (h : exitSubprocessScope c x scopeID = .ok r) : Lands c drv r := by
  unfold exitSubprocessScope at h
  split at h
  · rw [← Except.ok.inj h]
    exact .goesOn rfl hable mute_nil
  · split at h
    · rw [← Except.ok.inj h]
      exact .goesOn rfl hable mute_nil
    · split at h
      · cases h
      · split at h
        · unfold exitEventSubprocessScope at h
          split at h
          · rw [← Except.ok.inj h]
            exact .goesOn rfl hable mute_nil
          · dsimp only at h
            split at h
            · rw [← Except.ok.inj h]
              exact exitRootEventSubprocessScope_lands (hable.exitScope scopeID false) _
            · exact exitNestedEventSubprocessScope_lands (hable.exitScope scopeID false) h
        · exact exitRegularSubprocessScope_lands hable h

theorem endEvent_lands {ev : EndEvent} (h : endEvent drv c x tok ev = .ok r) : Lands c drv r := by
  unfold endEvent at h
  split at h
  · rw [← Except.ok.inj h]
    unfold forceTerminate
    dsimp only
    split
    · refine .halts rfl (.ends (endInstance_closes _ rfl (Or.inr rfl) ?_))
      exact Or.inl rfl
    · exact .halts rfl (.ends (complete_closes rfl _))
  · dsimp only at h
    split at h
    · cases h
    · rename_i r' hprop
      rw [← Except.ok.inj h]
      exact .halts rfl ((propagateError_goes (hable.consumeTokenAs tok c.at_ .errored) hprop).2 rfl)
  · dsimp only at h
    split at h
    · rw [← Except.ok.inj h]
      exact exitRootScope_lands (hable.consumeTokenAs tok c.at_ .normal) rfl rfl
    · exact exitSubprocessScope_lands (hable.consumeTokenAs tok c.at_ .normal) h

theorem subProcess_lands {sub : Option ProcessDefinition} (h : subProcess c x tok node sub = .ok r) : Lands c drv r := by
  unfold subProcess at h
  split at h
  · rw [← Except.ok.inj h]
    exact defect_lands hable _ _
  · split at h
    · cases h
    · split at h
      · cases h
      · obtain ⟨r', h', h⟩ := bind_ok h
        rw [← Except.ok.inj h]
        refine parked_lands ?_ (mute_armEventTriggeredSubprocesses h')
        rw [armEventTriggeredSubprocesses_control h']
        have hopened : Able (x.toControlState.openScope c.ids node.id tok.scopeID).1 := hable.of_same rfl rfl
        exact (hopened.place c.ids _ _ _ c.at_).consumeTokenAs tok c.at_ .normal

theorem armDeadline_keeps {u : UserTask} {taskID : String} {p : StepResult × Option Time}
    (h : armDeadline c tok node u taskID x = .ok p) : Able p.1.state.toControlState ∧ Mute p.1.commands := by
  obtain ⟨spec, -, h⟩ := bind_ok h
  split at h
  · rw [← Except.ok.inj h]
    exact ⟨hable, mute_nil⟩
  · rw [← Except.ok.inj h]
    exact ⟨hable, by simp [scheduleRecorded, Command.ends]⟩

theorem userTask_lands {u : UserTask} (h : userTask c tdef x tok node u = .ok r) : Lands c drv r := by
  have hvisit := hable.updateOpenVisit tok.id node.id (fun v => { v with taskID := (x.nextTaskID c.ids).2 })
  unfold userTask at h
  dsimp only at h
  split at h
  · rw [← Except.ok.inj h]
    refine goOn_lands ?_ mute_nil
    exact hvisit
  · obtain ⟨p, h1, h⟩ := bind_ok h
    obtain ⟨r2, h2, h⟩ := bind_ok h
    obtain ⟨r3, h3, h⟩ := bind_ok h
    rw [← Except.ok.inj h]
    obtain ⟨harmed, hm⟩ := armDeadline_keeps hvisit h1
    refine parked_lands ?_ ?_
    · rw [armBoundaries_control h3]
      exact (harmed.of_control (armWaitReminder_control h2)).awaitCommand tok.id _
    · have hm2 := mute_armWaitReminder h2
      have hm3 := mute_armBoundaries h3
      simp [hm, hm2, hm3, Command.ends]

theorem receiveTask_lands {rt : ReceiveTask} (h : receiveTask c tdef x tok node rt = .ok r) : Lands c drv r := by
  obtain ⟨key, -, h⟩ := bind_ok h
  obtain ⟨r1, h1, h⟩ := bind_ok h
  obtain ⟨r2, h2, h⟩ := bind_ok h
  rw [← Except.ok.inj h]
  refine parked_lands ?_ (mute_prepend.mpr ⟨mute_armWaitReminder h1, mute_armBoundaries h2⟩)
  rw [StepResult.prepend_state, armBoundaries_control h2, armWaitReminder_control h1]
  exact hable.updateToken tok.id _ (fun _ => rfl)

theorem sendTask_lands {st : SendTask} (h : sendTask c tdef x tok node st = .ok r) : Lands c drv r := by
  obtain ⟨key, -, h⟩ := bind_ok h
  rw [← Except.ok.inj h]
  exact goOn_lands hable (by simp [Command.ends])

omit hable in
theorem reminded_lands {y : InstanceState} (hy : Able y.toControlState) {cmds : List Command} (hm : Mute cmds) {key : String}
    (h : (armWaitReminder c y tok node key).map (fun r' => EnterResult.parked (r'.prepend cmds)) = .ok r) :
    Lands c drv r := by
  cases harm : armWaitReminder c y tok node key with
  | error e =>
    rw [harm] at h
    cases h
  | ok r' =>
    rw [harm] at h
    rw [← Except.ok.inj h]
    refine parked_lands ?_ (mute_prepend.mpr ⟨hm, mute_armWaitReminder harm⟩)
    rw [StepResult.prepend_state, armWaitReminder_control harm]
    exact hy

theorem intermediateCatchEvent_lands {e : IntermediateCatchEvent} (h : intermediateCatchEvent c x tok node e = .ok r) :
    Lands c drv r := by
  have hwaits : ∀ f : Token → Token, (∀ t, (f t).id = t.id) → Able (x.toControlState.updateToken tok.id f) :=
    fun f hf => hable.updateToken tok.id f hf
  obtain ⟨spec, -, h⟩ := bind_ok h
  dsimp only at h
  split at h
  · refine reminded_lands ?_ ?_ h
    · exact hwaits _ (fun _ => rfl)
    · simp [Command.ends]
  · split at h
    · refine reminded_lands ?_ ?_ h
      · exact hwaits _ (fun _ => rfl)
      · exact mute_nil
    · split at h
      · obtain ⟨key, -, h⟩ := bind_ok h
        refine reminded_lands ?_ ?_ h
        · exact hwaits _ (fun _ => rfl)
        · exact mute_nil
      · rw [← Except.ok.inj h]
        exact defect_lands hable _ _

theorem exclusiveGateway_lands (h : exclusiveGateway c tdef x tok node = .ok r) : Lands c drv r := by
  obtain ⟨taken, -, h⟩ := bind_ok h
  rw [← Except.ok.inj h]
  exact .goesOn rfl (hable.moveTokenToTargetAs tok _ _ c.at_ .normal) mute_nil

theorem joinGateway_lands : Lands c drv (joinGateway c tdef x tok node) := by
  refine .goesOn rfl ?_ mute_nil
  unfold joinGateway
  dsimp only
  split
  · rename_i ctl htry
    exact (hable.setTokenState tok.id .joining).tryJoin htry
  · exact hable.setTokenState tok.id .joining

theorem parallelGateway_lands (h : parallelGateway c tdef x tok node = .ok r) : Lands c drv r := by
  unfold parallelGateway at h
  split at h
  · rw [← Except.ok.inj h]
    exact joinGateway_lands hable
  · rw [← Except.ok.inj h]
    exact .goesOn rfl ((hable.consumeTokenAs tok c.at_ .normal).placeOnFlows c.ids tok.scopeID c.at_ _) mute_nil

theorem inclusiveGateway_lands (h : inclusiveGateway c tdef x tok node = .ok r) : Lands c drv r := by
  unfold inclusiveGateway at h
  split at h
  · rw [← Except.ok.inj h]
    exact joinGateway_lands hable
  · split at h
    · cases h
    · rename_i ctl hfork
      rw [← Except.ok.inj h]
      refine .goesOn rfl ?_ mute_nil
      rw [InstanceState.onControl_toControlState]
      unfold forkInclusive at hfork
      split at hfork
      · cases hfork
      · split at hfork
        · cases hfork
        · rw [← Except.ok.inj hfork]
          exact (hable.consumeTokenAs tok c.at_ .normal).placeOnFlows c.ids tok.scopeID c.at_ _
      · rw [← Except.ok.inj hfork]
        exact (hable.consumeTokenAs tok c.at_ .normal).placeOnFlows c.ids tok.scopeID c.at_ _

omit hable in
theorem mute_armGatewayFlow {y : InstanceState} {f : SequenceFlow} {r : StepResult}
    (h : armGatewayFlow c tdef tok node y f = .ok r) : Mute r.commands := by
  unfold armGatewayFlow at h
  split at h
  · rw [← Except.ok.inj h]
    exact mute_nil
  · split at h
    · obtain ⟨choice, -, h⟩ := bind_ok h
      rw [← Except.ok.inj h]
      exact mute_armMatch y c.ids tok.id choice
    · rw [← Except.ok.inj h]
      exact mute_nil

theorem eventBasedGateway_lands (h : eventBasedGateway c tdef x tok node = .ok r) : Lands c drv r := by
  obtain ⟨r', h', h⟩ := bind_ok h
  rw [← Except.ok.inj h]
  refine parked_lands ?_ (mute_forEach (fun _ _ _ h => mute_armGatewayFlow h) h')
  rw [forEach_control (fun _ _ _ h => armGatewayFlow_control h) h']
  exact hable.awaitCommand tok.id _

theorem passThrow_lands : Lands c drv (passThrow c tdef tok x) := by
  refine goOn_lands ?_ mute_nil
  exact hable.note _

theorem throwWalk_lands (records : List CompensationRecord) {cursor : CompensationCursor} (hcur : cursor.finalStatus.Aborts)
    (resume : FlowRef) : Lands c drv (throwWalk c tdef tok x records cursor resume) := by
  unfold throwWalk
  split
  · exact passThrow_lands hable
  · refine parked_lands ?_ (mute_afterDispatch _ _ _ _)
    unfold startCompensationWalk
    dsimp only
    rw [afterDispatch_control, InstanceState.onControl_toControlState]
    unfold throwDispatch
    have hgone := hable.mint.consumeTokenAs tok c.at_ .normal
    have hsent : ∀ cur : CompensationCursor, cur.finalStatus.Aborts → ∀ idx rec cmdID,
        Able (({ x.toControlState.mintCommand.consumeToken tok c.at_ with status := .compensating } : ControlState).dispatch
          cur idx rec cmdID) := by
      intro cur hfinal idx rec cmdID
      have hannounced : Able (({ x.toControlState.mintCommand.consumeToken tok c.at_ with status := .compensating } :
          ControlState).announce cur rec cmdID) := ⟨⟨hgone.named, hfinal, hgone.pending⟩, rfl⟩
      exact hannounced.of_outline (dispatch_outline _ _ _ _ _)
    apply hsent
    exact hcur

theorem compensationThrowEvent_lands (e : CompensationThrowEvent) :
    Lands c drv (compensationThrowEvent c tdef x tok node e) := by
  have hdefer : Lands c drv (.parked ⟨x.onControl (·.deferCompensationThrow tok.id), []⟩) :=
    parked_lands ((hable.setTokenState tok.id .waiting).of_same rfl rfl) mute_nil
  unfold compensationThrowEvent
  split
  · exact passThrow_lands hable
  · split
    · exact passThrow_lands hable
    · split
      · dsimp only
        split
        · exact passThrow_lands hable
        · split
          · exact hdefer
          · exact throwWalk_lands hable _ (Or.inl rfl) _
      · split
        · exact hdefer
        · dsimp only
          split
          · exact throwWalk_lands (hable.of_outline (consolidate_outline _)) _ (Or.inl rfl) _
          · exact throwWalk_lands hable _ (Or.inl rfl) _

/-- Every strategy returns to the loop in one of the ways. -/
theorem enter_lands (h : enter drv c tdef x tok node = .ok r) : Lands c drv r := by
  unfold enter at h
  cases hspec : node.spec <;> rw [hspec] at h <;> dsimp only at h
  case startEvent ev =>
    rw [← Except.ok.inj h]
    exact goOn_lands hable mute_nil
  case endEvent ev => exact endEvent_lands hable h
  case serviceTask | businessRuleTask =>
    cases hemit : emitActionInvoke c tdef x tok node with
    | error e =>
      rw [hemit] at h
      cases h
    | ok r' =>
      rw [hemit] at h
      rw [← Except.ok.inj h]
      refine parked_lands ?_ (mute_emitActionInvoke hemit)
      rw [emitActionInvoke_control hemit]
      exact hable.mint.awaitCommand tok.id _
  case userTask u => exact userTask_lands hable h
  case receiveTask rt => exact receiveTask_lands hable h
  case sendTask st => exact sendTask_lands hable h
  case subProcess a sub => exact subProcess_lands hable h
  case callActivity a q =>
    rw [← Except.ok.inj h]
    exact parked_lands (hable.mint.awaitCommand tok.id _) (by simp [Command.ends])
  case intermediateCatchEvent ev => exact intermediateCatchEvent_lands hable h
  case intermediateThrowEvent name =>
    rw [← Except.ok.inj h]
    unfold intermediateThrowEvent
    split
    · exact goOn_lands hable (by simp [Command.ends])
    · exact defect_lands hable _ _
  case boundaryEvent ev =>
    rw [← Except.ok.inj h]
    exact parked_lands (hable.setTokenState tok.id .waiting) mute_nil
  case exclusiveGateway => exact exclusiveGateway_lands hable h
  case parallelGateway => exact parallelGateway_lands hable h
  case inclusiveGateway => exact inclusiveGateway_lands hable h
  case eventBasedGateway => exact eventBasedGateway_lands hable h
  case compensationThrowEvent e =>
    rw [← Except.ok.inj h]
    exact compensationThrowEvent_lands hable e

end Strategies

/-! ## The loop -/

/-- What a property of results needs to hold of everything the loop returns. -/
structure LoopRule (c : StepCtx) (P : StepResult → Prop) : Prop where
  prepend : ∀ {r : StepResult} {cmds : List Command}, Mute cmds → P r → P (r.prepend cmds)
  rests : ∀ {x : InstanceState}, Able x.toControlState → x.firstActive = none →
    retryParkedJoins c.ids c.top x.toControlState c.at_ = none → P ⟨x, []⟩
  stops : c.opt.mode = .microStep → ∀ {r : StepResult}, Able r.state.toControlState → Mute r.commands → P r
  empties : ∀ {r : StepResult}, Able r.state.toControlState → r.state.tokens = [] → Mute r.commands → P r
  closes : ∀ {r : StepResult}, Closes c.at_ r → P r

namespace LoopRule
variable {c : StepCtx} {P : StepResult → Prop} (hP : LoopRule c P)
include hP

theorem runs {drv : DriveLoop} (hdrv : ∀ {y r}, Able y.toControlState → drv y = .ok r → P r)
    {r : StepResult} (h : Runs c drv r) : P r := by
  cases h with
  | empties hable htok hmute => exact hP.empties hable htok hmute
  | drives y r' cmds hable hdrive hr hmute =>
    rw [hr]
    exact hP.prepend hmute (hdrv hable hdrive)
  | ends h => exact hP.closes h

/-- The rule over the loop, by induction on its fuel. -/
theorem drive (fuel : Nat) {x : InstanceState} {r : StepResult} (hable : Able x.toControlState)
    (h : drive c fuel x = .ok r) : P r := by
  induction fuel generalizing x r with
  | zero => cases h
  | succ n ih =>
    unfold Wrkflw.drive at h
    cases hact : x.firstActive with
    | none =>
      rw [hact] at h
      dsimp only at h
      cases hjoin : retryParkedJoins c.ids c.top x.toControlState c.at_ with
      | none =>
        rw [hjoin] at h
        rw [← Except.ok.inj h]
        exact hP.rests hable hact hjoin
      | some ctl =>
        rw [hjoin] at h
        have hfired : Able (x.onControl (fun _ => ctl)).toControlState := hable.retryParked hjoin
        exact ih hfired h
    | some tok =>
      rw [hact] at h
      dsimp only at h
      split at h
      · cases h
      · split at h
        · exact ih (hable.setTokenState tok.id .waiting) h
        · split at h
          · cases h
          · rename_i re hent
            cases enter_lands hable hent with
            | goesOn hhalt hnext hmute =>
              split at h
              · rename_i hstop
                rw [← Except.ok.inj h]
                rw [hhalt, Bool.false_or, Bool.and_eq_true, beq_iff_eq] at hstop
                exact hP.stops hstop.1 hnext hmute
              · obtain ⟨r', h', rfl⟩ := map_prepend_ok h
                exact hP.prepend hmute (ih hnext h')
            | done hcloses htok =>
              split at h
              · rw [← Except.ok.inj h]
                exact hP.closes hcloses
              · obtain ⟨r', h', rfl⟩ := map_prepend_ok h
                -- nothing is left to run
                have hr := drive_empty htok h'
                have heq : r'.prepend re.commands = re.toStepResult := by
                  rw [hr]
                  change (⟨re.state, re.commands ++ []⟩ : StepResult) = re.toStepResult
                  rw [List.append_nil]
                rw [heq]
                exact hP.closes hcloses
            | halts hhalt hruns =>
              rw [if_pos (by simp [hhalt])] at h
              rw [← Except.ok.inj h]
              exact hP.runs (fun hy hd => ih hy hd) hruns

end LoopRule

end Wrkflw
