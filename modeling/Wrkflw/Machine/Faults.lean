import Wrkflw.Engine.Step

/-!
# What the loop can fail with

That no token waits for a command is said by a handler that looks for the token, before it does anything else. The `drive`
loop and all it calls fail for other reasons.
-/

namespace Wrkflw

variable {nodeID scopeID : String} {e : EngineError} {eval : ConditionEvaluator}

variable {α β : Type} {c : StepCtx} {s : InstanceState} {tdef : ProcessDefinition} {tok : Token} {node : Node}
  {drv : DriveLoop}

/-- No failure for want of a token. -/
def Met (x : Except EngineError α) : Prop := ∀ e, x = .error e → e.kind ≠ .tokenNotFound

namespace Met

theorem ok {a : α} : Met (.ok a) := nofun

theorem error (k : ErrKind) (hk : e.kind = k) (hne : k ≠ .tokenNotFound) :
    Met (.error e : Except EngineError α) := by
  intro e' he
  cases he
  exact hk ▸ hne

/-- A failure of a part, under another text. -/
theorem wrap {x : Except EngineError β} (hx : Met x) (he : x = .error e) (pre : String) :
    Met (.error (e.wrap pre) : Except EngineError α) := error e.kind rfl (hx e he)

theorem of_error {x : Except EngineError β} (hx : Met x) (he : x = .error e) :
    Met (.error e : Except EngineError α) := error e.kind rfl (hx e he)

theorem bind {x : Except EngineError α} {f : α → Except EngineError β} (hx : Met x) (hf : ∀ a, Met (f a)) :
    Met (x >>= f) := by
  cases x with
  | error e => exact of_error hx rfl
  | ok a => exact hf a

theorem map {x : Except EngineError α} (f : α → β) (hx : Met x) : Met (x.map f) := by
  cases x with
  | error e => exact of_error hx rfl
  | ok a => exact ok

end Met

/-! ## Definitions and expressions -/

theorem defForScopeAux_met (top : ProcessDefinition) (scopes : List Scope) (fuel : Nat) (scopeID : String) :
    Met (defForScopeAux top scopes fuel scopeID) := by
  induction fuel generalizing scopeID with
  | zero => exact .error .outOfFuel rfl (by decide)
  | succ fuel ih =>
    unfold defForScopeAux
    split
    · exact .ok
    · split
      · exact .error .plain rfl (by decide)
      · rename_i scope _
        split
        · rename_i he
          exact (ih scope.parentID).of_error he
        · split
          · exact .error .plain rfl (by decide)
          · split
            · exact .ok
            · exact .error .plain rfl (by decide)

theorem defForScope_met (top : ProcessDefinition) (scopes : List Scope) (scopeID : String) :
    Met (defForScope top scopes scopeID) := defForScopeAux_met top scopes _ scopeID

theorem mapError_met {x : Except String α} (text : String) : Met (x.mapError (evaluatorError text)) := by
  cases x with
  | error e => exact .error .evaluator rfl (by decide)
  | ok a => exact .ok

theorem resolveTriggerOr_met {text : String} {spec : TriggerSpec} {env : Vars} : Met (resolveTriggerOr c text spec env) :=
  mapError_met text

theorem evalStringOr_met {text code : String} {env : Vars} : Met (evalStringOr c text code env) := mapError_met text

/-! ## Waits -/

theorem boundaryChoice_met {env : Vars} {hostNode : String} {e : BoundaryEvent} :
    Met (boundaryChoice c env nodeID hostNode e) := by
  refine Met.bind resolveTriggerOr_met (fun spec => ?_)
  split
  · exact .ok
  · split
    · exact .ok
    · split
      · exact Met.bind evalStringOr_met (fun _ => .ok)
      · exact .ok

theorem armBoundary_met {hostTokenID hostNode : String} {n : Node} : Met (armBoundary c tdef hostTokenID hostNode s n) := by
  unfold armBoundary
  split
  · split
    · exact .ok
    · exact Met.bind boundaryChoice_met (fun _ => .ok)
  · exact .ok

theorem forEach_met {f : InstanceState → α → EngineResult} (hf : ∀ s a, Met (f s a)) (as : List α) (s : InstanceState) :
    Met (forEach f as s) := by
  induction as generalizing s with
  | nil => exact .ok
  | cons a as ih => exact Met.bind (hf s a) (fun r => Met.bind (ih r.state) (fun _ => .ok))

theorem armBoundaries_met {hostTokenID hostNode : String} : Met (armBoundaries c tdef s hostTokenID hostNode) :=
  forEach_met (fun _ _ => armBoundary_met) tdef.nodes s

theorem eventSubprocessChoice_met {env : Vars} {e : StartEvent} :
    Met (eventSubprocessChoice c env nodeID e) := by
  unfold eventSubprocessChoice
  split
  · exact .ok
  · split
    · exact Met.bind resolveTriggerOr_met (fun _ => .ok)
    · split
      · exact Met.bind evalStringOr_met (fun _ => .ok)
      · exact .ok

theorem armEventTriggeredSubprocesses_met : Met (armEventTriggeredSubprocesses c tdef s scopeID) := by
  refine forEach_met (fun s n => ?_) tdef.nodes s
  unfold armEventTriggeredSubprocess
  split
  · exact .ok
  · exact Met.bind eventSubprocessChoice_met (fun _ => .ok)

theorem armWaitReminder_met {key : String} : Met (armWaitReminder c s tok node key) := by
  refine Met.bind resolveTriggerOr_met (fun spec => ?_)
  split
  · exact .ok
  · exact .ok

theorem emitActionInvoke_met : Met (emitActionInvoke c tdef s tok node) :=
  Met.bind armBoundaries_met (fun _ => .ok)

/-! ## Gateways -/

theorem takenFlows_met {vars : Vars} (fs : List FlowRef) : Met (takenFlows eval vars node fs) := by
  induction fs with
  | nil => exact .ok
  | cons f fs ih =>
    unfold takenFlows
    split
    · exact ih
    · split
      · exact ih.map _
      · split
        · exact .error .evaluator rfl (by decide)
        · exact ih.map _
        · exact ih

theorem forkInclusive_met {g : IDGenerator} {vars : Vars} {x : ControlState} {at_ : Time} :
    Met (forkInclusive g tdef eval vars x tok node at_) := by
  unfold forkInclusive
  split
  · rename_i he
    exact (takenFlows_met _).of_error he
  · split
    · exact .error .noMatchingFlow rfl (by decide)
    · exact .ok
  · exact .ok

theorem selectExclusiveTarget_met {vars : Vars} (dflt : Option FlowRef) (fs : List FlowRef) :
    Met (selectExclusiveTarget eval vars node dflt fs) := by
  induction fs generalizing dflt with
  | nil =>
    cases dflt with
    | none => exact .error .noMatchingFlow rfl (by decide)
    | some f => exact .ok
  | cons f fs ih =>
    unfold selectExclusiveTarget
    split
    · exact ih _
    · split
      · exact .ok
      · split
        · exact .error .evaluator rfl (by decide)
        · exact .ok
        · exact ih _

theorem eventBasedGateway_met : Met (eventBasedGateway c tdef s tok node) := by
  refine Met.bind (forEach_met (fun s f => ?_) _ _) (fun _ => .ok)
  unfold armGatewayFlow
  split
  · exact .ok
  · split
    · refine Met.bind (Met.bind resolveTriggerOr_met (fun spec => ?_)) (fun _ => .ok)
      split
      · exact .ok
      · split
        · exact .ok
        · split
          · exact Met.bind evalStringOr_met (fun _ => .ok)
          · exact .ok
    · exact .ok

/-! ## Errors and walks -/

section Loop
variable (hdrv : ∀ s, Met (drv s))
include hdrv

theorem thenDrive_met (r : StepResult) : Met (thenDrive drv r) := (hdrv r.state).map _

theorem applyFinishWith_met {begin_ : InstanceState → CompensationOutcome → EngineResult} (hbegin : ∀ s o, Met (begin_ s o))
    {plan : FinishPlan} : Met (applyFinishWith drv begin_ c s plan) := by
  unfold applyFinishWith
  dsimp only
  split
  · exact hbegin _ _
  · split
    · exact .ok
    · split
      · exact .ok
      · refine Met.bind ?_ (fun r => Met.bind (hdrv r.state) (fun _ => .ok))
        unfold rearmRoot
        split
        · exact .ok
        · exact armEventTriggeredSubprocesses_met.map _

omit hdrv in
theorem beginCompensationWith_met {finish : InstanceState → String → EngineResult} (hfinish : ∀ s n, Met (finish s n))
    {o : CompensationOutcome} : Met (beginCompensationWith finish c s o) := by
  unfold beginCompensationWith
  dsimp only
  split
  · exact .error .plain rfl (by decide)
  · split
    · exact (hfinish _ _).map _
    · split
      · exact (hfinish _ _).map _
      · exact .ok

theorem beginCompensation_met {o : CompensationOutcome} : Met (beginCompensation drv c s o) := by
  have hfinish : ∀ {begin_ : InstanceState → CompensationOutcome → EngineResult}, (∀ s o, Met (begin_ s o)) → ∀ s n,
      Met (stepCompensationFinishWith drv begin_ c s n) :=
    fun hbegin s n => (applyFinishWith_met hdrv hbegin).map _
  refine beginCompensationWith_met (hfinish (fun s o => beginCompensationWith_met (hfinish (fun s o => ?_))))
  exact .error .outOfFuel rfl (by decide)

theorem routeToBoundary_met {d : ProcessDefinition} {kind : String} {e : BoundaryEvent}
    {consume : InstanceState → StepResult} : Met (routeToBoundary drv c s d nodeID e kind scopeID consume) := by
  unfold routeToBoundary
  dsimp only
  split
  · exact .error .plain rfl (by decide)
  · exact thenDrive_met hdrv _

omit hdrv in
theorem findEnclosingBoundary_met {errorCode cause : String} (fuel : Nat) (scopeID : String) :
    Met (findEnclosingBoundary c s errorCode cause fuel scopeID) := by
  induction fuel generalizing scopeID with
  | zero => exact .ok
  | succ fuel ih =>
    unfold findEnclosingBoundary
    split
    · exact .ok
    · split
      · exact .ok
      · split
        · rename_i he
          exact (defForScope_met _ _ _).wrap he _
        · split
          · exact .ok
          · exact ih _

theorem propagateError_met {tokenID errorCode : String} {cause : Option String} {raise : Bool} :
    Met (propagateError drv c s scopeID nodeID tokenID errorCode cause raise) := by
  unfold propagateError
  dsimp only
  refine Met.bind ?_ (fun ownDef => ?_)
  · unfold directAttachmentDef
    split
    · exact .ok
    · split
      · rename_i he
        exact (defForScope_met _ _ _).wrap he _
      · exact .ok
  · split
    · exact routeToBoundary_met hdrv
    · refine Met.bind (findEnclosingBoundary_met _ _) (fun handler => ?_)
      split
      · exact routeToBoundary_met hdrv
      · unfold handleUnhandledError
        dsimp only
        split
        · exact .ok
        · split
          · exact .ok
          · split
            · exact beginCompensation_met hdrv
            · exact .ok

/-! ## Nodes -/

omit hdrv in
theorem exitSubprocessScope_met : Met (exitSubprocessScope c s scopeID) := by
  unfold exitSubprocessScope
  split
  · exact .ok
  · split
    · exact .ok
    · split
      · exact .error .plain rfl (by decide)
      · split
        · unfold exitEventSubprocessScope
          dsimp only
          split
          · exact .ok
          · split
            · exact .ok
            · unfold exitNestedEventSubprocessScope
              dsimp only
              split
              · exact .ok
              · split
                · exact .ok
                · split
                  · exact .ok
                  · split
                    · rename_i he
                      exact (defForScope_met _ _ _).wrap he _
                    · split
                      · exact .ok
                      · split
                        · exact .error .plain rfl (by decide)
                        · split
                          · exact .ok
                          · exact .ok
        · unfold exitRegularSubprocessScope
          dsimp only
          split
          · exact .ok
          · split
            · rename_i he
              exact (defForScope_met _ _ _).wrap he _
            · split
              · exact .error .plain rfl (by decide)
              · exact .ok

theorem endEvent_met {ev : EndEvent} : Met (endEvent drv c s tok ev) := by
  unfold endEvent
  split
  · exact .ok
  · dsimp only
    split
    · rename_i he
      exact (propagateError_met hdrv).of_error he
    · exact .ok
  · dsimp only
    split
    · exact .ok
    · exact exitSubprocessScope_met

omit hdrv in
theorem subProcess_met {sub : Option ProcessDefinition} : Met (subProcess c s tok node sub) := by
  unfold subProcess
  split
  · exact .ok
  · split
    · exact .error .plain rfl (by decide)
    · split
      · exact .error .noManualStart rfl (by decide)
      · exact Met.bind armEventTriggeredSubprocesses_met (fun _ => .ok)

omit hdrv in
theorem userTask_met {u : UserTask} : Met (userTask c tdef s tok node u) := by
  unfold userTask
  dsimp only
  split
  · exact .ok
  · refine Met.bind ?_ (fun r1 => Met.bind armWaitReminder_met (fun r2 => Met.bind armBoundaries_met (fun _ => .ok)))
    refine Met.bind resolveTriggerOr_met (fun spec => ?_)
    split
    · exact .ok
    · exact .ok

omit hdrv in
theorem intermediateCatchEvent_met {e : IntermediateCatchEvent} : Met (intermediateCatchEvent c s tok node e) := by
  unfold intermediateCatchEvent
  refine Met.bind resolveTriggerOr_met (fun spec => ?_)
  dsimp only
  split
  · exact armWaitReminder_met.map _
  · split
    · exact armWaitReminder_met.map _
    · split
      · exact Met.bind evalStringOr_met (fun key => armWaitReminder_met.map _)
      · exact .ok

/-- Every node. -/
theorem enter_met : Met (enter drv c tdef s tok node) := by
  unfold enter
  split
  · exact .ok
  · exact endEvent_met hdrv
  · exact emitActionInvoke_met.map _
  · exact emitActionInvoke_met.map _
  · exact userTask_met
  · exact Met.bind evalStringOr_met (fun _ => Met.bind armWaitReminder_met (fun _ =>
      Met.bind armBoundaries_met (fun _ => .ok)))
  · exact Met.bind evalStringOr_met (fun _ => .ok)
  · exact subProcess_met
  · exact .ok
  · exact intermediateCatchEvent_met
  · exact .ok
  · exact .ok
  · exact Met.bind (selectExclusiveTarget_met none _) (fun _ => .ok)
  · unfold parallelGateway
    split
    · exact .ok
    · exact .ok
  · unfold inclusiveGateway
    split
    · exact .ok
    · split
      · rename_i he
        exact forkInclusive_met.of_error he
      · exact .ok
  · exact eventBasedGateway_met
  · exact .ok

end Loop

/-- The loop. -/
theorem drive_met (fuel : Nat) (s : InstanceState) : Met (drive c fuel s) := by
  induction fuel generalizing s with
  | zero => exact .error .outOfFuel rfl (by decide)
  | succ fuel ih =>
    unfold drive
    split
    · split
      · exact ih _
      · exact .ok
    · split
      · rename_i he
        exact (defForScope_met _ _ _).of_error he
      · split
        · exact ih _
        · split
          · rename_i he
            exact (enter_met ih).of_error he
          · split
            · exact .ok
            · exact (ih _).map _

/-- The command whose child a trigger says has ended. -/
def TriggerBody.childCommand : TriggerBody → Option String
  | .subInstanceCompleted commandID _ | .subInstanceFailed commandID _ => some commandID
  | _ => none

/-- A child's end is refused for want of a token exactly where the handler finds none. -/
theorem childEnd_lacks {fuel : Nat} {trg : TriggerBody} {commandID : String}
    (htrg : trg.childCommand = some commandID) (h : handle (drive c fuel) c s trg = .error e)
    (hkind : e.kind = .tokenNotFound) :
    s.tokenAwaiting commandID = none := by
  cases trg with
  | subInstanceCompleted id output =>
    cases htrg
    change handleSubInstanceCompleted _ _ _ _ _ = _ at h
    unfold handleSubInstanceCompleted at h
    split at h
    · assumption
    · refine absurd hkind ?_
      exact Met.bind (defForScope_met _ _ _) (fun td => thenDrive_met (drive_met fuel) _) e h
  | subInstanceFailed id err =>
    cases htrg
    change handleSubInstanceFailed _ _ _ _ _ = _ at h
    unfold handleSubInstanceFailed at h
    split at h
    · assumption
    · refine absurd hkind (Met.bind (defForScope_met _ _ _) (fun td => ?_) e h)
      split
      · exact routeToBoundary_met (drive_met fuel)
      · exact .ok
  | _ => cases htrg

end Wrkflw
