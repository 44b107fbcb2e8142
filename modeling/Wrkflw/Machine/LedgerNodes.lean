import Wrkflw.Machine.LedgerPaths

/-!
# The ledger of visits under the node strategies

A strategy gets its token where it stands, in the definition of its scope; `drive_logged` is the ledger over the loop.
-/

namespace Wrkflw

open ControlState

variable {scopeID : String}

namespace Logged
variable {c : StepCtx} {given : Premises} {h0 : List NodeVisit} {drv : DriveLoop} {x : InstanceState}
  {tdef : ProcessDefinition} {tok : Token} {node : Node} {r : EnterResult}

/-! ## Leaving a scope -/

theorem exitRootScope (h : Logged c given h0 x) : Logged c given h0 (exitRootScope c x).state := by
  unfold Wrkflw.exitRootScope
  split
  · exact h.complete _
  · exact h

theorem exitScope {s : ControlState} (h : Ledger c given h0 [] s) (scopeID : String) (enclosing : Bool) :
    Ledger c given h0 [] (s.exitScope scopeID enclosing) :=
  closeScope ((h.note _).of_outline (archiveCompensations_outline _ scopeID)) scopeID

theorem recordSubProcess (h : Logged c given h0 x) (d : ProcessDefinition) (nodeID scopeID : String) :
    Logged c given h0 (recordSubProcessCompensation c d x nodeID scopeID) := by
  unfold recordSubProcessCompensation
  split
  · split
    · split
      · exact h
      · exact h.recordCompensation _ _
    · exact h
  · exact h

theorem recordSubProcess_trace (x : InstanceState) (d : ProcessDefinition) (nodeID scopeID : String) :
    x.trace ⊆ (recordSubProcessCompensation c d x nodeID scopeID).trace := by
  unfold recordSubProcessCompensation
  split
  · split
    · split
      · exact List.Subset.refl _
      · exact Ledger.recordCompensation_trace _ _ _
    · exact List.Subset.refl _
  · exact List.Subset.refl _

theorem resumeInParentScope (h : Logged c given h0 x) {d : ProcessDefinition} {y : InstanceState} {nodeID : String}
    (hd : ScopeDefn c.top x.trace scopeID d) (hr : resumeInParentScope c d x nodeID scopeID = some y) :
    Logged c given h0 y := by
  unfold Wrkflw.resumeInParentScope at hr
  split at hr
  · cases hr
  · rename_i f fs hout
    rw [← Option.some.inj hr]
    exact h.place (fun _ => CameBy.along hd (mem_flowRefs_of_leading hout))

theorem exitRegularSubprocessScope (h : Logged c given h0 x) {nodeID parentID : String}
    (hr : exitRegularSubprocessScope c x scopeID nodeID parentID = .ok r) : Logged c given h0 r.state := by
  unfold Wrkflw.exitRegularSubprocessScope at hr
  split at hr
  · rw [← Except.ok.inj hr]
    exact h
  · dsimp only at hr
    split at hr
    · cases hr
    · rename_i parentDef hdef
      split at hr
      · cases hr
      · rename_i s3 hres
        rw [← Except.ok.inj hr]
        have hexit : Logged c given h0 ((x.removeEventTriggeredSubprocessArmsForScope scopeID).state.onControl
            (·.exitScope scopeID false)) := exitScope (h.of_control rfl) scopeID false
        have hd := (hexit.scopeDef hdef).mono (recordSubProcess_trace (c := c) _ parentDef nodeID parentID)
        exact resumeInParentScope (hexit.recordSubProcess parentDef nodeID parentID) hd hres

theorem exitRootEventSubprocessScope (h : Logged c given h0 x) (scopeID : String) :
    Logged c given h0 (exitRootEventSubprocessScope c x scopeID).state := by
  unfold Wrkflw.exitRootEventSubprocessScope
  split
  · exact h
  · split
    · exact h
    · exact exitRootScope h

theorem exitNestedEventSubprocessScope (h : Logged c given h0 x) {parentID : String}
    (hr : exitNestedEventSubprocessScope c x scopeID parentID = .ok r) : Logged c given h0 r.state := by
  unfold Wrkflw.exitNestedEventSubprocessScope at hr
  split at hr
  · rw [← Except.ok.inj hr]
    exact h
  · rename_i enclosing _
    split at hr
    · rw [← Except.ok.inj hr]
      exact h
    · split at hr
      · rw [← Except.ok.inj hr]
        exact h
      · dsimp only at hr
        split at hr
        · cases hr
        · rename_i grand hdef
          have hexit : Logged c given h0 (x.onControl (·.exitScope parentID true)) := exitScope h parentID true
          have hrecorded := hexit.recordSubProcess grand enclosing.nodeID enclosing.parentID
          have hd := (hexit.scopeDef hdef).mono (recordSubProcess_trace (c := c) _ grand enclosing.nodeID enclosing.parentID)
          split at hr
          · rename_i s3 hres
            rw [← Except.ok.inj hr]
            have hresumed := resumeInParentScope hrecorded hd hres
            exact hresumed
          · split at hr
            · cases hr
            · split at hr
              · rw [← Except.ok.inj hr]
                exact hrecorded.complete _
              · rw [← Except.ok.inj hr]
                exact hrecorded

theorem exitSubprocessScope (h : Logged c given h0 x) (hr : exitSubprocessScope c x scopeID = .ok r) :
    Logged c given h0 r.state := by
  have hexit : Logged c given h0 (x.onControl (·.exitScope scopeID false)) := exitScope h scopeID false
  unfold Wrkflw.exitSubprocessScope at hr
  split at hr
  · rw [← Except.ok.inj hr]
    exact h
  · split at hr
    · rw [← Except.ok.inj hr]
      exact h
    · split at hr
      · cases hr
      · split at hr
        · unfold exitEventSubprocessScope at hr
          split at hr
          · rw [← Except.ok.inj hr]
            exact h
          · dsimp only at hr
            split at hr
            · rw [← Except.ok.inj hr]
              exact exitRootEventSubprocessScope hexit _
            · exact exitNestedEventSubprocessScope hexit hr
        · exact exitRegularSubprocessScope h hr

/-! ## Strategies -/

section Strategies
variable (hdrv : DrivesLogged c given h0 drv) (h : Logged c given h0 x) (hat : At x.toControlState tok)
  (hd : ScopeDefn c.top x.trace tok.scopeID tdef)

section Goes
include h hat hd

theorem goOn (cmds : List Command) : Logged c given h0 (goOn c tdef x tok cmds).state := moveAlongSingleFlow h hat hd

theorem passThrow : Logged c given h0 (passThrow c tdef tok x).state := by
  refine moveAlongSingleFlow (d := tdef) ?_ ?_ (hd.mono (List.subset_cons_self _ _))
  · exact h.note _
  · exact hat

theorem userTask {u : UserTask} (hr : userTask c tdef x tok node u = .ok r) : Logged c given h0 r.state := by
  have htask := h.annotate tok.id node.id (f := fun v => { v with taskID := (x.nextTaskID c.ids).2 })
    (fun _ => ⟨rfl, rfl, rfl, rfl⟩)
  have hhere := hat.updateOpenVisit tok.id node.id (fun v => { v with taskID := (x.nextTaskID c.ids).2 })
  unfold Wrkflw.userTask at hr
  dsimp only at hr
  split at hr
  · rw [← Except.ok.inj hr]
    refine goOn ?_ ?_ ?_ _
    · exact htask.of_books rfl (.inl rfl)
    · exact hhere
    · exact (updateOpenVisit_trace _ _ _ _).symm ▸ hd
  · obtain ⟨p, h1, hr⟩ := bind_ok hr
    obtain ⟨r2, h2, hr⟩ := bind_ok hr
    obtain ⟨r3, h3, hr⟩ := bind_ok hr
    rw [← Except.ok.inj hr]
    change Logged c given h0 r3.state
    unfold Logged
    rw [armBoundaries_control h3]
    have harmed : Logged c given h0 p.1.state := by
      obtain ⟨spec, -, h1⟩ := bind_ok h1
      split at h1
      · rw [← Except.ok.inj h1]
        exact htask.of_books rfl (.inl rfl)
      · rw [← Except.ok.inj h1]
        exact htask.of_books rfl (.inl rfl)
    exact (harmed.of_control (armWaitReminder_control h2)).awaitCommand tok.id _

theorem sendTask {st : SendTask} (hr : sendTask c tdef x tok node st = .ok r) : Logged c given h0 r.state := by
  obtain ⟨key, -, hr⟩ := bind_ok hr
  rw [← Except.ok.inj hr]
  exact goOn h hat hd _

theorem throwWalk (records : List CompensationRecord) (cursor : CompensationCursor) {resume : FlowRef}
    (hresume : resume ∈ flowRefs tdef) : Logged c given h0 (throwWalk c tdef tok x records cursor resume).state := by
  unfold Wrkflw.throwWalk
  split
  · exact passThrow h hat hd
  · change Logged c given h0 (startCompensationWalk c x tok records _ cursor resume.flow.target resume.identity).state
    unfold startCompensationWalk
    dsimp only
    unfold Logged
    rw [afterDispatch_control, InstanceState.onControl_toControlState]
    have hgone : Ledger c given h0 [] (x.toControlState.mintCommand.consumeToken tok c.at_) :=
      h.mint.consumeTokenAs hat .normal
    have htrace : (x.toControlState.mintCommand.consumeToken tok c.at_).trace = x.trace := consumeTokenAs_trace _ _ _ _
    unfold throwDispatch
    refine Ledger.dispatch ?_ ?_ _ _ _
    · exact hgone.of_books rfl (.inl rfl)
    · change CameBy c.top
        (x.toControlState.mintCommand.consumeToken tok c.at_).trace tok.scopeID resume.flow.target resume.identity
      rw [htrace]
      exact CameBy.along hd hresume

theorem compensationThrowEvent (e : CompensationThrowEvent) :
    Logged c given h0 (compensationThrowEvent c tdef x tok node e).state := by
  have hdefer : Logged c given h0 (x.onControl (·.deferCompensationThrow tok.id)) :=
    (h.setTokenState tok.id .waiting).of_books rfl (.inl rfl)
  unfold Wrkflw.compensationThrowEvent
  split
  · exact passThrow h hat hd
  · rename_i resume fs hout
    have hresume := mem_flowRefs_of_leading hout
    split
    · exact passThrow h hat hd
    · split
      · dsimp only
        split
        · exact passThrow h hat hd
        · split
          · exact hdefer
          · exact throwWalk h hat hd _ _ hresume
      · split
        · exact hdefer
        · dsimp only
          split
          · have hsame := sameOutline (consolidate_outline x.toControlState)
            refine throwWalk ?_ ?_ ?_ _ _ hresume
            · exact h.of_outline (consolidate_outline _)
            · exact hat.of_tokens hsame.tokens
            · exact hsame.trace.symm ▸ hd
          · exact throwWalk h hat hd _ _ hresume

end Goes

section Parks
include h

theorem defect (nodeID reason : String) : Logged c given h0 (recordDefinitionDefect c.ids x tok nodeID reason c.at_) :=
  h.setTokenState tok.id .incident

theorem receiveTask {rt : ReceiveTask} (hr : receiveTask c tdef x tok node rt = .ok r) : Logged c given h0 r.state := by
  obtain ⟨key, -, hr⟩ := bind_ok hr
  obtain ⟨r1, h1, hr⟩ := bind_ok hr
  obtain ⟨r2, h2, hr⟩ := bind_ok hr
  rw [← Except.ok.inj hr]
  change Logged c given h0 (r2.prepend r1.commands).state
  unfold Logged
  rw [StepResult.prepend_state, armBoundaries_control h2, armWaitReminder_control h1]
  exact h.updateToken tok.id (fun _ => ⟨rfl, rfl, rfl⟩) (fun _ => rfl)

omit h in
theorem reminded {y : InstanceState} (hy : Logged c given h0 y) {cmds : List Command} {key : String}
    (hr : (armWaitReminder c y tok node key).map (fun r' => EnterResult.parked (r'.prepend cmds)) = .ok r) :
    Logged c given h0 r.state := by
  cases harm : armWaitReminder c y tok node key with
  | error e =>
    rw [harm] at hr
    cases hr
  | ok r' =>
    rw [harm] at hr
    rw [← Except.ok.inj hr]
    change Logged c given h0 r'.state
    exact hy.of_control (armWaitReminder_control harm)

theorem intermediateCatchEvent {e : IntermediateCatchEvent} (hr : intermediateCatchEvent c x tok node e = .ok r) :
    Logged c given h0 r.state := by
  obtain ⟨spec, -, hr⟩ := bind_ok hr
  dsimp only at hr
  split at hr
  · refine reminded ?_ hr
    exact h.updateToken tok.id (fun _ => ⟨rfl, rfl, rfl⟩) (fun _ => rfl)
  · split at hr
    · refine reminded ?_ hr
      exact h.updateToken tok.id (fun _ => ⟨rfl, rfl, rfl⟩) (fun _ => rfl)
    · split at hr
      · obtain ⟨key, -, hr⟩ := bind_ok hr
        refine reminded ?_ hr
        exact h.updateToken tok.id (fun _ => ⟨rfl, rfl, rfl⟩) (fun _ => rfl)
      · rw [← Except.ok.inj hr]
        exact defect h _ _

include hd in
theorem joinGateway : Logged c given h0 (joinGateway c tdef x tok node).state := by
  have hparked := h.setTokenState tok.id .joining
  unfold Wrkflw.joinGateway
  dsimp only
  split
  · rename_i ctl htry
    exact tryJoin hparked hd htry
  · exact hparked

theorem eventBasedGateway (hr : eventBasedGateway c tdef x tok node = .ok r) : Logged c given h0 r.state := by
  obtain ⟨r', h', hr⟩ := bind_ok hr
  rw [← Except.ok.inj hr]
  change Logged c given h0 r'.state
  unfold Logged
  rw [forEach_control (fun _ _ _ h => armGatewayFlow_control h) h']
  exact h.awaitCommand tok.id _

end Parks

section Ends
include h hat

theorem subProcess {sub : Option ProcessDefinition} (hr : subProcess c x tok node sub = .ok r) :
    Logged c given h0 r.state := by
  unfold Wrkflw.subProcess at hr
  split at hr
  · rw [← Except.ok.inj hr]
    exact defect h _ _
  · split at hr
    · cases hr
    · split at hr
      · cases hr
      · obtain ⟨r', h', hr⟩ := bind_ok hr
        rw [← Except.ok.inj hr]
        change Logged c given h0 r'.state
        unfold Logged
        rw [armEventTriggeredSubprocesses_control h']
        have hopened := h.openScope node.id tok.scopeID
        have hhere : At (x.toControlState.openScope c.ids node.id tok.scopeID).1 tok := hat
        exact (hopened.place (fun _ => Or.inl rfl)).consumeTokenAs (hhere.place _ _ _ _ _) .normal

omit h hat in
theorem selectExclusiveTarget_mem {eval : ConditionEvaluator} {vars : Vars} {dflt : Option FlowRef} {fs all : List FlowRef}
    {taken : FlowRef} (hdflt : ∀ f, dflt = some f → f ∈ all) (hfs : fs ⊆ all)
    (hsel : selectExclusiveTarget eval vars node dflt fs = .ok taken) : taken ∈ all := by
  induction fs generalizing dflt with
  | nil =>
    unfold selectExclusiveTarget at hsel
    split at hsel
    · rename_i f
      rw [← Except.ok.inj hsel]
      exact hdflt f rfl
    · cases hsel
  | cons f fs ih =>
    have hhead : f ∈ all := hfs List.mem_cons_self
    have htail : fs ⊆ all := fun g hg => hfs (List.mem_cons_of_mem _ hg)
    unfold selectExclusiveTarget at hsel
    split at hsel
    · exact ih (fun g hg => Option.some.inj hg ▸ hhead) htail hsel
    · split at hsel
      · rw [← Except.ok.inj hsel]
        exact hhead
      · split at hsel
        · cases hsel
        · rw [← Except.ok.inj hsel]
          exact hhead
        · exact ih hdflt htail hsel

omit h hat in
theorem takenFlows_subset {eval : ConditionEvaluator} {vars : Vars} {fs taken : List FlowRef}
    (htaken : takenFlows eval vars node fs = .ok taken) : taken ⊆ fs := by
  induction fs generalizing taken with
  | nil =>
    rw [← Except.ok.inj htaken]
    exact List.Subset.refl _
  | cons f fs ih =>
    have htake : (takenFlows eval vars node fs).map (f :: ·) = .ok taken → taken ⊆ f :: fs := by
      intro hmap
      cases hrest : takenFlows eval vars node fs with
      | error e =>
        rw [hrest] at hmap
        cases hmap
      | ok rest =>
        rw [hrest] at hmap
        rw [← Except.ok.inj hmap]
        exact List.cons_subset_cons f (ih hrest)
    unfold takenFlows at htaken
    split at htaken
    · exact List.subset_cons_of_subset f (ih htaken)
    · split at htaken
      · exact htake htaken
      · split at htaken
        · cases htaken
        · exact htake htaken
        · exact List.subset_cons_of_subset f (ih htaken)

include hd

theorem exclusiveGateway (hr : exclusiveGateway c tdef x tok node = .ok r) : Logged c given h0 r.state := by
  obtain ⟨taken, hsel, hr⟩ := bind_ok hr
  have hout : taken ∈ outgoingFlows tdef node.id :=
    selectExclusiveTarget_mem (fun _ hnone => by cases hnone) (List.Subset.refl _) hsel
  rw [← Except.ok.inj hr]
  exact h.moveTokenToTargetAs hat (fun _ => CameBy.along hd (List.mem_of_mem_filter hout)) .normal

theorem forks {fs : List FlowRef} {nodeID : String} (hfs : fs ⊆ outgoingFlows tdef nodeID) :
    Ledger c given h0 [] (placeOnFlows c.ids tok.scopeID c.at_ fs (x.toControlState.consumeToken tok c.at_)) := by
  have htrace : (x.toControlState.consumeToken tok c.at_).trace = x.trace := consumeTokenAs_trace _ _ _ _
  exact (h.consumeTokenAs hat .normal).placeOnFlows (htrace.symm ▸ hd) (fun f hf => List.mem_of_mem_filter (hfs hf))

theorem parallelGateway (hr : parallelGateway c tdef x tok node = .ok r) : Logged c given h0 r.state := by
  unfold Wrkflw.parallelGateway at hr
  split at hr
  · rw [← Except.ok.inj hr]
    exact joinGateway h hd
  · rw [← Except.ok.inj hr]
    exact forks h hat hd (List.Subset.refl _)

theorem inclusiveGateway (hr : inclusiveGateway c tdef x tok node = .ok r) : Logged c given h0 r.state := by
  unfold Wrkflw.inclusiveGateway at hr
  split at hr
  · rw [← Except.ok.inj hr]
    exact joinGateway h hd
  · split at hr
    · cases hr
    · rename_i ctl hfork
      rw [← Except.ok.inj hr]
      change Ledger c given h0 [] ctl
      unfold forkInclusive at hfork
      split at hfork
      · cases hfork
      · split at hfork
        · cases hfork
        · rename_i dflt hdflt
          rw [← Except.ok.inj hfork]
          have hone : [dflt] ⊆ outgoingFlows tdef node.id :=
            List.cons_subset.mpr ⟨List.mem_of_mem_filter (List.mem_of_getLast? hdflt), List.nil_subset _⟩
          exact forks h hat hd hone
      · rename_i taken _ htaken
        rw [← Except.ok.inj hfork]
        exact forks h hat hd (takenFlows_subset htaken)

omit hd
include hdrv

theorem endEvent {ev : EndEvent} (hr : endEvent drv c x tok ev = .ok r) : Logged c given h0 r.state := by
  unfold Wrkflw.endEvent at hr
  split at hr
  · rw [← Except.ok.inj hr]
    have hforced : Ledger c given h0 [] ((x.toControlState.note (.forced ev.outcome x.pendingCancel)).cancelAllTokens c.at_
        .terminated) := (h.note _).cancelAllTokens .terminated
    unfold forceTerminate
    dsimp only
    split
    · refine endInstance ?_ _ _ _
      exact hforced
    · refine complete ?_ _
      exact hforced
  · dsimp only at hr
    split at hr
    · cases hr
    · rename_i r' hprop
      rw [← Except.ok.inj hr]
      refine propagateError hdrv ?_ hprop
      exact h.consumeTokenAs hat .errored
  · have hgone : Logged c given h0 (x.onControl (·.consumeToken tok c.at_)) := h.consumeTokenAs hat .normal
    dsimp only at hr
    split at hr
    · rw [← Except.ok.inj hr]
      exact exitRootScope hgone
    · exact exitSubprocessScope hgone hr

include hd

/-- Every strategy keeps the ledger. -/
theorem enter (hr : enter drv c tdef x tok node = .ok r) : Logged c given h0 r.state := by
  unfold Wrkflw.enter at hr
  cases hspec : node.spec <;> rw [hspec] at hr <;> dsimp only at hr
  case startEvent ev =>
    rw [← Except.ok.inj hr]
    exact goOn h hat hd _
  case endEvent ev => exact endEvent hdrv h hat hr
  case serviceTask | businessRuleTask =>
    cases hemit : emitActionInvoke c tdef x tok node with
    | error e =>
      rw [hemit] at hr
      cases hr
    | ok r' =>
      rw [hemit] at hr
      rw [← Except.ok.inj hr]
      change Logged c given h0 r'.state
      unfold Logged
      rw [emitActionInvoke_control hemit]
      exact h.mint.awaitCommand tok.id _
  case userTask u => exact userTask h hat hd hr
  case receiveTask rt => exact receiveTask h hr
  case sendTask st => exact sendTask h hat hd hr
  case subProcess a sub => exact subProcess h hat hr
  case callActivity a q =>
    rw [← Except.ok.inj hr]
    exact h.mint.awaitCommand tok.id _
  case intermediateCatchEvent ev => exact intermediateCatchEvent h hr
  case intermediateThrowEvent name =>
    rw [← Except.ok.inj hr]
    unfold intermediateThrowEvent
    split
    · exact goOn h hat hd _
    · exact defect h _ _
  case boundaryEvent ev =>
    rw [← Except.ok.inj hr]
    exact h.setTokenState tok.id .waiting
  case exclusiveGateway => exact exclusiveGateway h hat hd hr
  case parallelGateway => exact parallelGateway h hat hd hr
  case inclusiveGateway => exact inclusiveGateway h hat hd hr
  case eventBasedGateway => exact eventBasedGateway h hr
  case compensationThrowEvent e =>
    rw [← Except.ok.inj hr]
    exact compensationThrowEvent h hat hd e

end Ends

end Strategies

end Logged

/-! ## The loop -/

/-- The loop keeps the ledger, by induction on its fuel. -/
theorem drive_logged {c : StepCtx} (given : Premises) (h0 : List NodeVisit) (fuel : Nat) :
    DrivesLogged c given h0 (drive c fuel) := by
  induction fuel with
  | zero =>
    intro x r _ h
    cases h
  | succ n ih =>
    intro x r hlog h
    unfold Wrkflw.drive at h
    cases hact : x.firstActive with
    | none =>
      rw [hact] at h
      dsimp only at h
      cases hjoin : retryParkedJoins c.ids c.top x.toControlState c.at_ with
      | none =>
        rw [hjoin] at h
        rw [← Except.ok.inj h]
        exact hlog
      | some ctl =>
        rw [hjoin] at h
        have hfired : Logged c given h0 (x.onControl (fun _ => ctl)) := Logged.retryParked hlog hjoin
        exact ih hfired h
    | some tok =>
      have hmem : tok ∈ x.tokens := List.mem_of_find?_eq_some hact
      rw [hact] at h
      dsimp only at h
      split at h
      · cases h
      · rename_i tdef hdef
        split at h
        · exact ih (Ledger.setTokenState hlog tok.id .waiting) h
        · split at h
          · cases h
          · rename_i re hent
            have hnext := Logged.enter ih hlog (At.of_mem hmem) (hlog.scopeDef hdef) hent
            split at h
            · rw [← Except.ok.inj h]
              exact hnext
            · obtain ⟨r', h', rfl⟩ := map_prepend_ok h
              change Logged c given h0 r'.state
              exact ih hnext h'

end Wrkflw
