import Wrkflw.Machine.LedgerNodes

/-!
# The ledger of visits under the handlers

Every trigger keeps the ledger; `step_logged` is the ledger over a step.
-/

namespace Wrkflw

open ControlState
open InstanceState (cancelTimersByTaskID_control cancelTimersForToken_control mergeVars_control
  onControl_toControlState removeBoundaryArmsForHost_control updateTask_control)

variable {commandID err : String} {tdef : ProcessDefinition} {cmds : List Command}

/-- A deadline is about a token of its own scope. -/
def InstanceState.DeadlinesTold (x : InstanceState) : Prop :=
  ∀ tr ∈ x.timers, tr.kind = .deadline → ∀ t ∈ x.tokens, t.awaitCommand = tr.taskID → t.scopeID = tr.scopeID

namespace Logged
variable {c : StepCtx} {given : Premises} {h0 : List NodeVisit} {drv : DriveLoop} {x : InstanceState}
  {r : StepResult} {tok : Token}

theorem recordCompletion (h : Logged c given h0 x) (tdef : ProcessDefinition) (tok : Token) :
    Logged c given h0 (recordCompletion c x tdef tok) := by
  unfold Wrkflw.recordCompletion
  split
  · split
    · exact h
    · exact h.recordCompensation _ _
  · exact h

theorem recordCompletion_trace (x : InstanceState) (tdef : ProcessDefinition) (tok : Token) :
    x.trace ⊆ (Wrkflw.recordCompletion c x tdef tok).trace := by
  unfold Wrkflw.recordCompletion
  split
  · split
    · exact List.Subset.refl _
    · exact Ledger.recordCompensation_trace _ _ _
  · exact List.Subset.refl _

theorem at_of_tokens {y : InstanceState} (hmem : tok ∈ x.tokens) (ht : y.tokens = x.tokens) : At y.toControlState tok :=
  (At.of_mem hmem).of_tokens ht

theorem withOpenTask (h : Logged c given h0 x) {taskID : String} {closed : EngineResult} {f : HumanTask → HumanTask}
    (hclosed : ∀ r, closed = .ok r → r.state.toControlState = x.toControlState)
    (hr : withOpenTask x taskID closed f = .ok r) :
    Logged c given h0 r.state := h.of_control (withOpenTask_control hclosed hr)

theorem reinvoke (h : Logged c given h0 x) (hr : reinvokeServiceAction c x tok = .ok r) : Logged c given h0 r.state := by
  unfold Logged
  rw [reinvoke_control hr]
  exact h.mint.awaitCommand tok.id _

theorem scheduleRetry (h : Logged c given h0 x) (eff : RetryPolicy) (tok : Token) (jitter : Rat) :
    Logged c given h0 (scheduleRetry c x eff tok jitter).state := by
  unfold Wrkflw.scheduleRetry
  exact h.updateToken tok.id (fun _ => ⟨rfl, rfl, rfl⟩) (fun _ => rfl)

theorem park (h : Logged c given h0 x)
    (hr : parkOnCompletionAction c tdef x tok cmds = some r) : Logged c given h0 r.state := by
  obtain ⟨cmdID, hctl⟩ := parkOnCompletionAction_control hr
  unfold Logged
  rw [hctl]
  exact h.mint.awaitCommand tok.id cmdID

section Drive
variable (hdrv : DrivesLogged c given h0 drv)
include hdrv

/-- The answered token goes on. -/
theorem resumes (h : Logged c given h0 x) (hat : At x.toControlState tok)
    (hd : ScopeDefn c.top x.trace tok.scopeID tdef)
    (hr : resumeAndDrive drv c tdef x tok cmds = .ok r) : Logged c given h0 r.state := by
  have hactive : Logged c given h0 (x.onControl (·.setTokenState tok.id .active)) := h.setTokenState tok.id .active
  have hhere : At (x.onControl (·.setTokenState tok.id .active)).toControlState tok :=
    hat.updateToken tok.id (fun _ => ⟨rfl, rfl, rfl⟩)
  refine thenDrive hdrv ?_ hr
  exact moveAlongSingleFlow hactive hhere hd

/-- The answered token goes on, in the definition found by its scope. -/
theorem resumesIn (h : Logged c given h0 x) (hat : At x.toControlState tok)
    (hd : defForScope c.top x.scopes tok.scopeID = .ok tdef)
    (hr : resumeAndDrive drv c tdef x tok cmds = .ok r) : Logged c given h0 r.state := resumes hdrv h hat (h.scopeDef hd) hr

/-! ## Starting and actions -/

theorem startInstance (h : Logged c given h0 x) {vars : Vars} {start : String}
    (hr : handleStartInstance drv c x vars start = .ok r) : Logged c given h0 r.state := by
  unfold handleStartInstance at hr
  split at hr
  · cases hr
  · obtain ⟨startID, -, hr⟩ := bind_ok hr
    obtain ⟨r1, h1, hr⟩ := bind_ok hr
    refine thenDrive hdrv ?_ hr
    unfold Logged
    rw [armEventTriggeredSubprocesses_control h1]
    have hrun : Ledger c given h0 [] { x.toControlState with status := .running } := h.of_books rfl (.inl rfl)
    exact hrun.place (fun _ => Or.inl rfl)

theorem actionCompleted (h : Logged c given h0 x) {output : Vars}
    (hr : handleActionCompleted drv c x commandID output = .ok r) : Logged c given h0 r.state := by
  unfold handleActionCompleted at hr
  split at hr
  · exact advance hdrv (h.of_control (x.retireCompensationFailedIncidents_control _)) hr
  · split at hr
    · rw [← Except.ok.inj hr]
      exact h
    · split at hr
      · cases hr
      · rename_i tok htok
        obtain ⟨tdef, hd, hr⟩ := bind_ok hr
        have hctl := x.removeBoundaryArmsForHost_control tok.id
        have hrecorded := (h.of_control hctl).recordCompletion tdef tok
        have hmerged := hrecorded.of_control (mergeVars_control _ output)
        have hhere : At ((Wrkflw.recordCompletion c (x.removeBoundaryArmsForHost tok.id).state tdef tok).mergeVars
            output).toControlState tok := by
          refine at_of_tokens (tokenAwaiting_some htok).1 ?_
          rw [mergeVars_control, recordCompletion_tokens, hctl]
        refine resumes hdrv ?_ ?_ ?_ hr
        · exact hmerged.updateToken tok.id (fun _ => ⟨rfl, rfl, rfl⟩) (fun _ => rfl)
        · exact hhere.updateToken tok.id (fun _ => ⟨rfl, rfl, rfl⟩)
        · exact ((h.of_control hctl).scopeDef hd).mono (recordCompletion_trace _ tdef tok)

theorem compensationFailed (h : Logged c given h0 x) {retryable : Bool}
    (hr : handleCompensationFailed drv c x commandID err retryable = .ok r) : Logged c given h0 r.state := by
  unfold handleCompensationFailed at hr
  split at hr
  · rw [← Except.ok.inj hr]
    exact h
  · dsimp only at hr
    split at hr
    · rename_i r' harm
      rw [← Except.ok.inj hr]
      unfold armCompensationRetryTimer at harm
      split at harm
      · cases harm
      · dsimp only at harm
        split at harm
        · cases harm
        · split at harm
          · cases harm
          · rw [← Option.some.inj harm]
            exact h.of_books rfl (.inl rfl)
    · exact advance hdrv (h.of_control (x.raise_control _ _)) hr

theorem takeRecoveryFlow (h : Logged c given h0 x) (hat : At x.toControlState tok)
    (hd : ScopeDefn c.top x.trace tok.scopeID tdef) {nodeID flow : String}
    (hr : takeRecoveryFlow drv c x tdef tok nodeID flow err cmds = .ok r) :
    Logged c given h0 r.state := by
  unfold Wrkflw.takeRecoveryFlow at hr
  dsimp only at hr
  split at hr
  · cases hr
  · rename_i f hflow
    split at hr
    · cases hr
    · refine thenDrive hdrv ?_ hr
      refine Ledger.moveTokenToTargetAs ?_ ?_ (fun _ => ?_) .normal
      · exact h.updateToken tok.id (fun _ => ⟨rfl, rfl, rfl⟩) (fun _ => rfl)
      · exact hat.updateToken tok.id (fun _ => ⟨rfl, rfl, rfl⟩)
      · exact CameBy.along hd (List.mem_of_find?_eq_some hflow)

theorem actionFailed (h : Logged c given h0 x) {retryable : Bool} {jitter : Rat} {cause : Option String}
    (hr : handleActionFailed drv c x commandID err retryable jitter cause = .ok r) : Logged c given h0 r.state := by
  unfold handleActionFailed at hr
  split at hr
  · exact compensationFailed hdrv h hr
  · split at hr
    · rw [← Except.ok.inj hr]
      exact h
    · split at hr
      · cases hr
      · rename_i tok htok
        have hctl := x.removeBoundaryArmsForHost_control tok.id
        have hunarmed := h.of_control hctl
        obtain ⟨tdef, hdef, hr⟩ := bind_ok hr
        dsimp only at hr
        split at hr
        · obtain ⟨r', h', rfl⟩ := map_prepend_ok hr
          change Logged c given h0 r'.state
          exact propagateError hdrv hunarmed h'
        · rename_i eff _
          split at hr
          · rw [← Except.ok.inj hr]
            exact hunarmed.scheduleRetry eff tok jitter
          · split at hr
            · refine takeRecoveryFlow hdrv hunarmed ?_ (hunarmed.scopeDef hdef) hr
              rw [hctl]
              exact At.of_mem (tokenAwaiting_some htok).1
            · obtain ⟨r', h', rfl⟩ := map_prepend_ok hr
              change Logged c given h0 r'.state
              exact propagateError hdrv hunarmed h'

/-! ## Cancelling and human tasks -/

theorem cancelRequested (h : Logged c given h0 x) (hr : handleCancelRequested drv c x = .ok r) :
    Logged c given h0 r.state := by
  have hharvest : Logged c given h0 (x.onControl (·.harvestOpenScopeCompensations)) := h.of_outline (harvest_outline _)
  unfold handleCancelRequested at hr
  dsimp only at hr
  split at hr
  · split at hr
    · rw [← Except.ok.inj hr]
      refine Ledger.note ?_ _
      exact h.of_books rfl (.inl rfl)
    · split at hr
      · cases hr
      · rw [← Except.ok.inj hr]
        exact h
  · split at hr
    · obtain ⟨r', h', rfl⟩ := map_prepend_ok hr
      change Logged c given h0 r'.state
      refine beginCompensation hdrv ?_ h'
      exact hharvest.of_books rfl (.inl rfl)
    · rw [← Except.ok.inj hr]
      refine endInstance ?_ _ _ _
      exact hharvest.cancelAllTokens .instanceCancelled

theorem humanCompleted (h : Logged c given h0 x) {taskID outcome note : String} {output : Vars} {actor : Actor}
    (hr : handleHumanCompleted drv c x taskID outcome note output actor = .ok r) : Logged c given h0 r.state := by
  unfold handleHumanCompleted at hr
  split at hr
  · cases hr
  · cases hr
  · split at hr
    · cases hr
    · split at hr
      · cases hr
      · rename_i tok htok
        obtain ⟨tdef, hd, hr⟩ := bind_ok hr
        dsimp only at hr
        split at hr
        · cases hr
        · have hactive : Ledger c given h0 [] (x.toControlState.updateToken tok.id (fun t =>
              { t.clearAwait with state := .active })) := h.updateToken tok.id (fun _ => ⟨rfl, rfl, rfl⟩) (fun _ => rfl)
          have hhere : At (x.toControlState.updateToken tok.id (fun t => { t.clearAwait with state := .active })) tok :=
            (At.of_mem (tokenAwaiting_some htok).1).updateToken tok.id (fun _ => ⟨rfl, rfl, rfl⟩)
          split at hr
          · rename_i r' hpark
            rw [← Except.ok.inj hr]
            refine park ?_ hpark
            unfold Logged
            rw [removeBoundaryArmsForHost_control, cancelTimersByTaskID_control,
              onControl_toControlState, updateTask_control, applyOutcomeExposure_control,
              mergeVars_control]
            exact hactive
          · refine thenDrive hdrv ?_ hr
            refine moveAlongSingleFlow ?_ ?_ ?_
            · unfold Logged
              rw [removeBoundaryArmsForHost_control, cancelTimersByTaskID_control,
                onControl_toControlState, updateTask_control, applyOutcomeExposure_control,
                mergeVars_control]
              exact hactive
            · rw [removeBoundaryArmsForHost_control, cancelTimersByTaskID_control,
                onControl_toControlState, updateTask_control, applyOutcomeExposure_control,
                mergeVars_control]
              exact hhere
            · rw [removeBoundaryArmsForHost_control, cancelTimersByTaskID_control,
                onControl_toControlState, updateTask_control, applyOutcomeExposure_control,
                mergeVars_control]
              exact h.scopeDef hd

/-! ## Timers -/

theorem armCascade (h : Logged c given h0 x) {onMatch : InstanceState → InstanceState}
    (hmatch : (onMatch x).toControlState = x.toControlState) {gw : Option ArmedEvent} {boundary : Option BoundaryArm}
    {eventSub : Option EventTriggeredSubprocessArm} {res : EngineResult}
    (hr : dispatchArmCascade drv c x onMatch gw boundary eventSub = some res) (hok : res = .ok r) :
    Logged c given h0 r.state := by
  have hmatched := h.of_control hmatch
  unfold dispatchArmCascade at hr
  split at hr
  · cases hr
  · split at hr
    · exact resolveGatewayWin hdrv hmatched ((Option.some.inj hr).trans hok)
    · exact fireBoundaryArm hdrv hmatched ((Option.some.inj hr).trans hok)
    · exact fireEventSub hdrv hmatched ((Option.some.inj hr).trans hok)
    · cases hr

/-- The deadline's flow is looked up in the scope of the timer: the token leaves by a flow of its own scope if that is
where it is. -/
theorem deadlineFired (h : Logged c given h0 x) {tr : TimerRecord}
    (htold : given.told → ∀ t ∈ x.tokens, t.awaitCommand = tr.taskID → t.scopeID = tr.scopeID)
    (hr : handleDeadlineFired drv c x tr = .ok r) : Logged c given h0 r.state := by
  have hremoved := h.of_control (x.removeTimer_control tr.timerID)
  unfold handleDeadlineFired at hr
  split at hr
  · rw [← Except.ok.inj hr]
    exact hremoved
  · rename_i tok htok
    dsimp only at hr
    split at hr
    · rw [← Except.ok.inj hr]
      exact hremoved
    · obtain ⟨tdef, hdef, hr⟩ := bind_ok hr
      split at hr
      · cases hr
      · split at hr
        · cases hr
        · split at hr
          · cases hr
          · rename_i f hflow
            have hleads : f ∈ flowRefs tdef := List.mem_of_find?_eq_some (Option.filter_eq_some_iff.mp hflow).1
            refine thenDrive hdrv ?_ hr
            have hfired : ∀ action,
              Ledger c given h0 [] (((emitFireOnceAction c.ids x action).state.toControlState.updateToken tok.id
                (fun t => { t.clearAwait with state := .active })).moveTokenToTargetAs tok f.flow.target
                  (FlowRef.identity f) c.at_
                .deadlineExpired) := by
              intro action
              have hhere := at_fireOnce (At.of_mem (tokenAwaiting_some htok).1) c.ids action
              refine Ledger.moveTokenToTargetAs ?_ ?_ (fun hg => ?_) .deadlineExpired
              · exact (h.fireOnce c.ids action).updateToken tok.id (fun _ => ⟨rfl, rfl, rfl⟩) (fun _ => rfl)
              · exact hhere.updateToken tok.id (fun _ => ⟨rfl, rfl, rfl⟩)
              · have hscope := htold hg tok (tokenAwaiting_some htok).1 (tokenAwaiting_some htok).2.1
                rw [hscope]
                exact CameBy.along ((h.scopeDef hdef).mono (fireOnce_trace c.ids x action)) hleads
            dsimp only
            unfold Logged
            rw [InstanceState.removeTimer_control, cancelTimersByTaskID_control]
            split
            · exact hfired _
            · exact hfired _

omit hdrv in
theorem reminderFired (h : Logged c given h0 x) {tr : TimerRecord} (hr : handleReminderFired c x tr = .ok r) :
    Logged c given h0 r.state := by
  have hremoved := h.of_control (x.removeTimer_control tr.timerID)
  unfold handleReminderFired at hr
  split at hr
  · rw [← Except.ok.inj hr]
    exact hremoved
  · split at hr
    · rw [← Except.ok.inj hr]
      exact hremoved
    · obtain ⟨tdef, -, hr⟩ := bind_ok hr
      split at hr
      · cases hr
      · rw [← Except.ok.inj hr]
        exact h.fireOnce _ _

omit hdrv in
theorem retryFired (h : Logged c given h0 x) {tr : TimerRecord} (hr : handleRetryFired c x tr = .ok r) :
    Logged c given h0 r.state := by
  unfold handleRetryFired at hr
  split at hr
  · rw [← Except.ok.inj hr]
    exact h
  · rename_i tok _
    cases hre : reinvokeServiceAction c (x.removeTimer tr.timerID) tok with
    | error e =>
      rw [hre] at hr
      cases hr
    | ok r' =>
      rw [hre] at hr
      rw [← Except.ok.inj hr]
      exact reinvoke (h.of_control (x.removeTimer_control tr.timerID)) hre

theorem tokenTimer (h : Logged c given h0 x) {timerID : String} (hr : handleTokenTimer drv c x timerID = .ok r) :
    Logged c given h0 r.state := by
  unfold handleTokenTimer at hr
  split at hr
  · rw [← Except.ok.inj hr]
    exact h
  · rename_i tok htok
    split at hr
    · rw [← Except.ok.inj hr]
      exact h
    · obtain ⟨tdef, hd, hr⟩ := bind_ok hr
      have hctl := x.removeTimer_control timerID
      have hhere := at_of_tokens (y := x.removeTimer timerID) (tokenAwaiting_some htok).1 (by rw [hctl])
      have hcleared : Logged c given h0 (clearAwaitOf tok (x.removeTimer timerID)) :=
        Ledger.updateToken (h.of_control hctl) tok.id (fun _ => ⟨rfl, rfl, rfl⟩) (fun _ => rfl)
      have hswept := hcleared.of_control
        ((clearAwaitOf tok (x.removeTimer timerID)).cancelTimersForToken_control tok.id timerID)
      refine resumesIn hdrv hswept ?_ hd hr
      rw [cancelTimersForToken_control]
      exact hhere.updateToken tok.id (fun _ => ⟨rfl, rfl, rfl⟩)

theorem timerFired (h : Logged c given h0 x) (htold : given.told → x.DeadlinesTold) {timerID : String}
    (hr : handleTimerFired drv c x timerID = .ok r) :
    Logged c given h0 r.state := by
  unfold handleTimerFired at hr
  split at hr
  · rename_i res hcascade
    exact armCascade hdrv h rfl hcascade hr
  · split at hr
    · exact tokenTimer hdrv h hr
    · split at hr
      · rw [← Except.ok.inj hr]
        exact h.of_control (x.removeTimer_control _)
      · split at hr
        · rename_i tr hfind _ _ hkind
          exact deadlineFired hdrv h (fun hg => htold hg tr (timerByID_some hfind).1 hkind) hr
        · exact reminderFired h hr
        · exact retryFired h hr
        · rw [← Except.ok.inj hr]
          exact h.of_control (stallFired_control x _)
        · exact retryFailed hdrv h hr
        · exact tokenTimer hdrv h hr

/-! ## Signals and messages -/

theorem fireTier (h : Logged c given h0 x) {name : String} {payload : Vars} {matched : Bool} {tier : SignalTier}
    {res : EngineResult} (hr : fireTier drv c name payload matched x tier = some res) (hok : res = .ok r) :
    Logged c given h0 r.state := by
  have hctl := markMatched_control matched payload x
  have hmatched := h.of_control hctl
  cases tier with
  | gateway id =>
    obtain ⟨ae, -, hr⟩ := Option.map_eq_some_iff.mp hr
    exact resolveGatewayWin hdrv hmatched (hr.trans hok)
  | boundary id =>
    obtain ⟨ba, -, hr⟩ := Option.map_eq_some_iff.mp hr
    exact fireBoundaryArm hdrv hmatched (hr.trans hok)
  | eventSub id =>
    obtain ⟨ea, -, hr⟩ := Option.map_eq_some_iff.mp hr
    exact fireEventSub hdrv hmatched (hr.trans hok)
  | token id =>
    obtain ⟨tok, htok, hr⟩ := Option.map_eq_some_iff.mp hr
    obtain ⟨tdef, hd, hr⟩ := bind_ok (hr.trans hok)
    have hmem := (tokenByID_some _ (Option.filter_eq_some_iff.mp htok).1).1
    have hhere := at_of_tokens (y := markMatched matched payload x) hmem (by rw [hctl])
    refine resumesIn hdrv ?_ ?_ hd hr
    · unfold Logged
      rw [cancelTimersForToken_control]
      exact hmatched.updateToken tok.id (fun _ => ⟨rfl, rfl, rfl⟩) (fun _ => rfl)
    · rw [cancelTimersForToken_control]
      exact hhere.updateToken tok.id (fun _ => ⟨rfl, rfl, rfl⟩)

/-- The tiers one after the other, by induction on their list. -/
theorem fireTiers (h : Logged c given h0 x) {name : String} {payload : Vars} {tiers : List SignalTier}
    {resolved : List String}
    {matched : Bool} (hr : fireTiers drv c name payload tiers resolved matched x = .ok r) : Logged c given h0 r.state := by
  induction tiers generalizing x resolved matched r with
  | nil =>
    rw [← Except.ok.inj hr]
    exact h
  | cons tier tiers ih =>
    unfold Wrkflw.fireTiers at hr
    split at hr
    · rw [← Except.ok.inj hr]
      exact h
    · split at hr
      · exact ih h hr
      · split at hr
        · exact ih h hr
        · rename_i res hfire
          obtain ⟨r1, h1, hr⟩ := bind_ok hr
          obtain ⟨r2, h2, hr⟩ := bind_ok hr
          rw [← Except.ok.inj hr]
          change Logged c given h0 r2.state
          exact ih (fireTier hdrv h hfire h1) h2

theorem messageReceived (h : Logged c given h0 x) {name key : String} {payload : Vars}
    (hr : handleMessageReceived drv c x name key payload = .ok r) : Logged c given h0 r.state := by
  unfold handleMessageReceived at hr
  split at hr
  · rename_i res hcascade
    exact armCascade hdrv h (x.mergeVars_control payload) hcascade hr
  · split at hr
    · rw [← Except.ok.inj hr]
      exact h
    · rename_i tok htok
      split at hr
      · rw [← Except.ok.inj hr]
        exact h
      · obtain ⟨tdef, hd, hr⟩ := bind_ok hr
        have hcaught : Ledger c given h0 [] (x.toControlState.updateToken tok.id (fun t =>
            { t with awaitMessage := "", awaitMessageKey := "" })) := h.updateToken tok.id
              (fun _ => ⟨rfl, rfl, rfl⟩) (fun _ => rfl)
        have hhere : At (x.toControlState.updateToken tok.id
          (fun t => { t with awaitMessage := "", awaitMessageKey := "" })) tok :=
          (At.of_mem (tokenAwaitingMessage_some htok).1).updateToken tok.id (fun _ => ⟨rfl, rfl, rfl⟩)
        split at hr
        · rename_i r' hpark
          rw [← Except.ok.inj hr]
          refine park ?_ hpark
          unfold Logged
          rw [removeBoundaryArmsForHost_control, cancelTimersForToken_control]
          exact hcaught
        · refine resumesIn hdrv ?_ ?_ hd hr
          · unfold Logged
            rw [removeBoundaryArmsForHost_control, cancelTimersForToken_control]
            exact hcaught
          · rw [removeBoundaryArmsForHost_control, cancelTimersForToken_control]
            exact hhere

/-! ## Children and incidents -/

theorem subInstanceCompleted (h : Logged c given h0 x) {output : Vars}
    (hr : handleSubInstanceCompleted drv c x commandID output = .ok r) : Logged c given h0 r.state := by
  unfold handleSubInstanceCompleted at hr
  split at hr
  · cases hr
  · rename_i tok htok
    obtain ⟨tdef, hd, hr⟩ := bind_ok hr
    refine resumesIn hdrv ?_ ?_ hd hr
    · exact h.updateToken tok.id (fun _ => ⟨rfl, rfl, rfl⟩) (fun _ => rfl)
    · exact (At.of_mem (tokenAwaiting_some htok).1).updateToken tok.id (fun _ => ⟨rfl, rfl, rfl⟩)

omit hdrv in
theorem consumeCallActivity_trace (tok : Token) (y : InstanceState) :
    y.trace ⊆ (consumeCallActivity c tok y).state.trace := by
  unfold consumeCallActivity
  dsimp only
  rw [onControl_toControlState, consumeTokenAs_trace, removeBoundaryArmsForHost_control]
  exact List.Subset.refl _

theorem subInstanceFailed (h : Logged c given h0 x)
    (hr : handleSubInstanceFailed drv c x commandID err = .ok r) : Logged c given h0 r.state := by
  unfold handleSubInstanceFailed at hr
  split at hr
  · cases hr
  · rename_i tok htok
    obtain ⟨hostDef, hdef, hr⟩ := bind_ok hr
    split at hr
    · refine routeToBoundary hdrv h (h.scopeDef hdef) (fun hf => ?_) (consumeCallActivity_trace _ _) hr
      refine Ledger.consumeTokenAs ?_ ?_ .boundaryInterrupted
      · rw [removeBoundaryArmsForHost_control]
        exact hf
      · rw [removeBoundaryArmsForHost_control]
        exact at_fireOnce (At.of_mem (tokenAwaiting_some htok).1) c.ids _
    · rw [← Except.ok.inj hr]
      refine endInstance ?_ _ _ _
      exact h.note _

omit hdrv in
theorem resolveIncident (h : Logged c given h0 x) {incidentID : String} {addAttempts : Int}
    (hr : handleResolveIncident c x incidentID addAttempts = .ok r) : Logged c given h0 r.state := by
  unfold handleResolveIncident at hr
  split at hr
  · rw [← Except.ok.inj hr]
    exact h
  · split at hr
    · cases hr
    · dsimp only at hr
      split at hr
      · rw [← Except.ok.inj hr]
        exact h
      · rename_i tok _
        refine reinvoke ?_ hr
        exact (h.note _).updateToken tok.id (fun _ => ⟨rfl, rfl, rfl⟩) (fun _ => rfl)

/-! ## Steps -/

/-- Every handler keeps the ledger. -/
theorem handle (h : Logged c given h0 x) (htold : given.told → x.DeadlinesTold) {trg : TriggerBody}
    (hr : handle drv c x trg = .ok r) : Logged c given h0 r.state := by
  unfold Wrkflw.handle at hr
  split at hr
  · exact startInstance hdrv h hr
  · exact actionCompleted hdrv h hr
  · exact actionFailed hdrv h hr
  · exact humanCompleted hdrv h hr
  · exact h.withOpenTask (fun r hr => by rw [← Except.ok.inj hr]) hr
  · exact h.withOpenTask (fun r hr => by cases hr) hr
  · exact h.withOpenTask (fun r hr => by cases hr) hr
  · exact timerFired hdrv h htold hr
  · exact fireTiers hdrv h hr
  · exact messageReceived hdrv h hr
  · exact subInstanceCompleted hdrv h hr
  · exact subInstanceFailed hdrv h hr
  · exact compensateRequested hdrv h hr
  · exact cancelRequested hdrv h hr
  · exact resolveIncident h hr
  · exact resolveStall hdrv h hr

end Drive

end Logged

/-- A step keeps the ledger. -/
theorem step_logged {fuel : Nat} {d : ProcessDefinition} {x : InstanceState} {t : Trigger}
    {opt : StepOptions} {r : StepResult}
    {given : Premises} {h0 : List NodeVisit} (h : Logged (stepCtx d x t opt) given h0 x)
    (htold : given.told → x.DeadlinesTold) (hr : step fuel d x t opt = .ok r) :
    Logged (stepCtx d x t opt) given h0 r.state := by
  obtain ⟨r', h', rfl⟩ := step_dispatch hr
  refine Logged.of_control ?_ (dropStaleTokenCommands_control r')
  have hdrv : DrivesLogged (stepCtx d x t opt) given h0 (drive (stepCtx d x t opt) fuel) := drive_logged given h0 fuel
  unfold dispatch at h'
  split at h'
  · split at h'
    · rw [← Except.ok.inj h']
      exact h
    · cases h'
    · exact Logged.handle hdrv h htold h'
  · exact Logged.handle hdrv h htold h'

end Wrkflw
