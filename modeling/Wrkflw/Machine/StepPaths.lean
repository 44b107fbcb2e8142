import Wrkflw.Machine.NodePaths

/-!
# Every step is a path of the machine

* `drive_drives` : the `drive` loop, by induction on its fuel;
* `dispatch_reaches` : every handler, through the terminal guard;
* `step_reaches` : a successful step takes the control state along `Reaches`.
-/

namespace Wrkflw

open ControlState
open InstanceState (cancelTimersForToken_control endInstance_control onControl_toControlState
  removeBoundaryArmsForHost_control removeTimer_control)

variable {commandID err name : String} {d tdef : ProcessDefinition} {output payload : Vars} {x : InstanceState}
  {r : StepResult} {cmds : List Command}

variable {c : StepCtx} {trg : TriggerBody} {drv : DriveLoop}

/-- The loop has nothing to do without tokens. -/
theorem drive_empty {fuel : Nat} (htok : x.tokens = []) (h : drive c fuel x = .ok r) :
    r = ⟨x, []⟩ := by
  cases fuel with
  | zero => cases h
  | succ n =>
    unfold drive at h
    have hnone : x.firstActive = none := by
      unfold firstActive
      rw [htok]
      rfl
    have hjoin : retryParkedJoins c.ids c.top x.toControlState c.at_ = none := by
      unfold retryParkedJoins
      rw [htok]
      rfl
    rw [hnone, hjoin] at h
    rw [← Except.ok.inj h]

/-- The loop follows the machine, whatever its fuel. -/
theorem drive_drives (fuel : Nat) : Drives c trg (drive c fuel) := by
  induction fuel with
  | zero =>
    intro x r _ _ h
    cases h
  | succ n ih =>
    intro x r hwf hend h
    cases hlive : x.status.isTerminal with
    | true =>
      rw [drive_empty (hend hlive) h]
      exact Reaches.refl
    | false =>
      unfold drive at h
      cases hact : x.firstActive with
      | none =>
        rw [hact] at h
        dsimp only at h
        cases hjoin : retryParkedJoins c.ids c.top x.toControlState c.at_ with
        | none =>
          rw [hjoin] at h
          rw [← Except.ok.inj h]
          exact Reaches.refl
        | some ctl =>
          rw [hjoin] at h
          have hpath : Moves c.top c.ids trg x.toControlState (x.onControl (fun _ => ctl)).toControlState :=
            moves_retryParked hwf hlive c.at_ (List.Subset.refl _) hjoin
          exact ih.reaches hwf hlive hpath h
      | some tok =>
        rw [hact] at h
        dsimp only at h
        have hmem : tok ∈ x.tokens := List.mem_of_find?_eq_some hact
        have hstate : tok.state = .active := by simpa using List.find?_some hact
        cases hdef : defForScope c.top x.scopes tok.scopeID with
        | error e =>
          rw [hdef] at h
          cases h
        | ok tdef =>
          rw [hdef] at h
          dsimp only at h
          cases hnode : tdef.node tok.nodeID with
          | none =>
            -- a token on an unknown node parks
            rw [hnode] at h
            have hfree : Free c.top x.toControlState tok := by
              refine Or.inr ⟨hstate, tdef, hdef, ?_, ?_⟩
              · rintro ⟨n, hn, -⟩
                rw [hnode] at hn
                cases hn
              · rintro ⟨n, e, hn, -⟩
                rw [hnode] at hn
                cases hn
            have hpath : Moves c.top c.ids trg x.toControlState
                (x.onControl (·.setTokenState tok.id .waiting)).toControlState := by
              refine moves_touch hwf.names hmem _ ⟨⟨rfl, rfl, rfl, rfl⟩, Or.inl rfl, hfree, fun ha => ?_⟩
              obtain ⟨-, hsig, hmsg⟩ := ha.of_active hstate
              exact ⟨fun h => by simp at h, fun _ => ⟨hsig, hmsg⟩, fun _ => hmsg⟩
            exact ih.reaches hwf hlive hpath h
          | some node =>
            rw [hnode] at h
            dsimp only at h
            cases hent : enter (drive c n) c tdef x tok node with
            | error e =>
              rw [hent] at h
              cases h
            | ok re =>
              rw [hent] at h
              dsimp only at h
              have henters : Enters c trg x.toControlState re :=
                enter_enters ih ⟨hwf, hlive, hmem, hstate, hdef, hnode⟩ hent
              split at h
              · rw [← Except.ok.inj h]
                exact henters.reaches
              · rename_i hgo
                obtain ⟨r', h', rfl⟩ := map_prepend_ok h
                rw [StepResult.prepend_state]
                cases henters with
                | goesOn path => exact ih.reaches hwf hlive path h'
                | ended m path hend htok =>
                  rw [drive_empty htok h']
                  exact Moves.ends path hend
                | halted hhalt reaches => simp [hhalt] at hgo

/-! ## Tokens that are answered -/

section Answered
variable {s : ControlState} {tok : Token}

theorem tokenAwaiting_some {cmdID : String} (h : s.tokenAwaiting cmdID = some tok) :
    tok ∈ s.tokens ∧ tok.awaitCommand = cmdID ∧ cmdID ≠ "" := by
  unfold tokenAwaiting at h
  split at h
  · cases h
  · rename_i hne
    exact ⟨List.mem_of_find?_eq_some h, by simpa using List.find?_some h, by simpa using hne⟩

theorem tokenAwaitingMessage_some {key : String} (h : s.tokenAwaitingMessage name key = some tok) :
    tok ∈ s.tokens ∧ tok.awaitMessage = name ∧ name ≠ "" := by
  unfold tokenAwaitingMessage at h
  split at h
  · cases h
  · rename_i hne
    have hfound := List.find?_some h
    rw [Bool.and_eq_true, beq_iff_eq] at hfound
    exact ⟨List.mem_of_find?_eq_some h, hfound.1, by simpa using hne⟩

/-- A waiting token is made active and goes on. -/
theorem resumeAndDrive_reaches (hdrv : Drives c trg drv) (hs : Wf c.ids s) (hlive : s.status.isTerminal = false)
    (hmem : tok ∈ s.tokens) (hawait : tok.Awaits) (f : Token → Token) (hid : ∀ t, (f t).id = t.id)
    (hf : Resumes tok { f tok with state := .active }) {y : InstanceState} (hy : y.toControlState = s.updateToken tok.id f)
    (h : resumeAndDrive drv c tdef y tok cmds = .ok r) : Reaches c.top c.ids trg s r.state.toControlState := by
  refine hdrv.thenDrive hs hlive ?_ h
  refine moves_moveAlongSingleFlow hs.names hmem (Or.inl hawait) (fun t => { f t with state := .active }) hid hf tdef _ ?_
    c.at_
  rw [onControl_toControlState, hy]
  exact s.updateToken_updateToken tok.id f (fun t => { t with state := .active }) hid

/-- A waiting token waits on another command. -/
theorem moves_reawait (hn : Names c.ids s) (hmem : tok ∈ s.tokens) (hawait : tok.awaitCommand ≠ "") (f : Token → Token)
    (hplace : tok.SamePlace (f tok)) (hstate : (f tok).state = .waiting)
    (hsig : (f tok).awaitSignal = tok.awaitSignal) (hmsg : (f tok).awaitMessage = tok.awaitMessage) :
    Moves c.top c.ids trg s (s.updateToken tok.id f) := by
  refine moves_touch hn hmem f ⟨hplace, Or.inl hstate, Or.inl (Or.inl hawait), fun ha => ?_⟩
  obtain ⟨h1, h2⟩ := ha.command (Or.inl hawait)
  refine ⟨fun h => ?_, fun _ => ⟨hsig.trans h1, hmsg.trans h2⟩, fun _ => hmsg.trans h2⟩
  rcases h with h | h <;> rw [hstate] at h <;> cases h

theorem recordCompletion_clean (hs : Wf c.ids x.toControlState) (hlive : x.status.isTerminal = false)
    (hmem : tok ∈ x.tokens) (tdef : ProcessDefinition) :
    Clean c trg x.toControlState (recordCompletion c x tdef tok).toControlState := by
  unfold recordCompletion
  split
  · split
    · exact Clean.refl _
    · exact Clean.record _ _ (hs.forward hlive hmem) (hs.started.of_token hmem)
  · exact Clean.refl _

theorem recordCompletion_tokens (x : InstanceState) (tdef : ProcessDefinition) :
    (recordCompletion c x tdef tok).tokens = x.tokens := by
  unfold recordCompletion
  split
  · split
    · rfl
    · rw [onControl_toControlState, recordCompensation_tokens]
  · rfl

end Answered

/-! ## Starting and actions -/

theorem startInstance_reaches (hdrv : Drives c trg drv) (hs : Wf c.ids x.toControlState)
    (hlive : x.status.isTerminal = false) {vars : Vars} {startNodeID : String}
    (h : handleStartInstance drv c x vars startNodeID = .ok r) :
    Reaches c.top c.ids trg x.toControlState r.state.toControlState := by
  unfold handleStartInstance at h
  split at h
  · cases h
  · rename_i hstart
    obtain ⟨start, -, h⟩ := bind_ok h
    obtain ⟨r1, h1, h⟩ := bind_ok h
    -- an instance without a visit is blank, so it runs and nothing is in flight
    have hhist : x.history = [] := by
      unfold hasStarted at hstart
      simp only [Bool.or_eq_true, not_or] at hstart
      simpa using hstart.2
    have hblank : Blank x.toControlState := hs.started.resolve_left (fun hne => hne hhist)
    have hrun : x.status = .running := by
      cases hst : x.status with
      | running => rfl
      | compensating => exact absurd (hs.phase.status.mp hst) hblank.idle
      | completed | failed | terminated =>
        rw [hst] at hlive
        cases hlive
    have hfwd : x.toControlState.Forward := by
      refine ⟨hlive, ?_⟩
      rintro (hroot | hfail)
      · exact hblank.idle hroot.1
      · rcases hs.phase.failing hfail with hterm | hin
        · rw [hlive] at hterm
          cases hterm
        · exact hblank.idle hin.1
    have hsame : ({ x.toControlState with status := .running } : ControlState) = x.toControlState := by
      rw [← hrun]
    refine hdrv.thenDrive hs hlive ?_ h
    rw [armEventTriggeredSubprocesses_control h1, onControl_toControlState]
    change Moves c.top c.ids trg x.toControlState
      (({ x.toControlState with status := .running } : ControlState).placeTokenInScope c.ids start "" "" c.at_)
    rw [hsame]
    exact (Move.place start "" "" c.at_ hfwd (Or.inl rfl)).path

theorem answers_completed {s : ControlState}
    (h : s.compensating.activeCmdID = commandID) : Answers s (.actionCompleted commandID output) := h.symm

theorem actionCompleted_reaches
    (hdrv : Drives c (.actionCompleted commandID output) drv) (hs : Wf c.ids x.toControlState)
    (hlive : x.status.isTerminal = false) (h : handleActionCompleted drv c x commandID output = .ok r) :
    Reaches c.top c.ids (.actionCompleted commandID output) x.toControlState r.state.toControlState := by
  unfold handleActionCompleted at h
  split at h
  · rename_i hwalk
    rw [Bool.and_eq_true, beq_iff_eq, beq_iff_eq] at hwalk
    exact advance_reaches hdrv hs (hs.phase.status.mp hwalk.1) (answers_completed hwalk.2)
      (x.retireCompensationFailedIncidents_control commandID) h
  · split at h
    · rw [← Except.ok.inj h]
      exact Reaches.refl
    · split at h
      · cases h
      · rename_i tok htok
        obtain ⟨hmem, hcmd, hne⟩ := tokenAwaiting_some htok
        have hawait : tok.awaitCommand ≠ "" := hcmd ▸ hne
        obtain ⟨tdef, -, h⟩ := bind_ok h
        have harms := x.removeBoundaryArmsForHost_control tok.id
        set y := recordCompletion c (x.removeBoundaryArmsForHost tok.id).state tdef tok with hy
        have hclean : Clean c (.actionCompleted commandID output) x.toControlState y.toControlState := by
          have hrec : Clean c (.actionCompleted commandID output) _ y.toControlState :=
            recordCompletion_clean (harms ▸ hs) (harms ▸ hlive) (harms ▸ hmem) tdef
          rw [harms] at hrec
          exact hrec
        have hmem' : tok ∈ y.tokens := by
          rw [hy, recordCompletion_tokens, harms]
          exact hmem
        refine Moves.then hclean.path (resumeAndDrive_reaches hdrv (Moves.wf hs hclean.path) (hclean.keeps.live hlive) hmem'
          (Or.inl hawait) Token.clearAwait (fun _ => rfl) (Resumes.answered hawait) rfl h)

theorem retryLater_moves (hin : x.toControlState.InFlight) {nodeID : String} {retryable : Bool}
    (h : armCompensationRetryTimer c x nodeID err retryable = some r) :
    Moves c.top c.ids trg x.toControlState r.state.toControlState := by
  unfold armCompensationRetryTimer at h
  split at h
  · cases h
  · dsimp only at h
    split at h
    · cases h
    · split at h
      · cases h
      · rw [← Option.some.inj h]
        exact (Move.retryLater _ _ hin).path

theorem scheduleRetry_moves (hs : Wf c.ids x.toControlState) {tok : Token} (hmem : tok ∈ x.tokens)
    (hawait : tok.awaitCommand ≠ "") (eff : RetryPolicy) (jitter : Rat) :
    Moves c.top c.ids trg x.toControlState (scheduleRetry c x eff tok jitter).state.toControlState :=
  moves_reawait hs.names hmem hawait _ ⟨rfl, rfl, rfl, rfl⟩ rfl rfl rfl

theorem takeRecoveryFlow_reaches (hdrv : Drives c trg drv) (hs : Wf c.ids x.toControlState)
    (hlive : x.status.isTerminal = false) {tok : Token} (hmem : tok ∈ x.tokens) (hawait : tok.awaitCommand ≠ "")
    {nodeID flow : String}
    (h : takeRecoveryFlow drv c x tdef tok nodeID flow err cmds = .ok r) :
    Reaches c.top c.ids trg x.toControlState r.state.toControlState := by
  unfold takeRecoveryFlow at h
  dsimp only at h
  split at h
  · cases h
  · rename_i f _
    split at h
    · cases h
    · refine hdrv.thenDrive hs hlive ?_ h
      have hok := (Resumes.answered hawait).ok
      exact moves_moveTokenToTargetAs hs.names hmem (Or.inl (Or.inl hawait))
        (fun t => { t.clearAwait with retryAttempts := 0, retryStartedAt := 0 }) (fun _ => rfl)
        ⟨⟨rfl, rfl, rfl, rfl⟩, fun ha => ⟨(hok ha).quiet, (hok ha).command, (hok ha).signal⟩⟩ _ _ c.at_ .normal

theorem actionFailed_reaches {retryable : Bool} {jitter : Rat} {cause : Option String}
    (hdrv : Drives c (.actionFailed commandID err retryable jitter cause) drv)
    (hs : Wf c.ids x.toControlState) (hlive : x.status.isTerminal = false)
    (h : handleActionFailed drv c x commandID err retryable jitter cause = .ok r) :
    Reaches c.top c.ids (.actionFailed commandID err retryable jitter cause) x.toControlState r.state.toControlState := by
  unfold handleActionFailed at h
  split at h
  · rename_i hwalk
    rw [Bool.and_eq_true, beq_iff_eq, beq_iff_eq] at hwalk
    have hin := hs.phase.status.mp hwalk.1
    have hans : Answers x.toControlState (.actionFailed commandID err retryable jitter cause) := hwalk.2.symm
    unfold handleCompensationFailed at h
    split at h
    · rw [← Except.ok.inj h]
      exact Reaches.refl
    · dsimp only at h
      split at h
      · rename_i r' hretry
        rw [← Except.ok.inj h]
        exact Moves.reaches (retryLater_moves (x := x.raise c.ids _) hin hretry)
      · exact advance_reaches hdrv hs hin hans (x.raise_control c.ids _) h
  · split at h
    · rw [← Except.ok.inj h]
      exact Reaches.refl
    · split at h
      · cases h
      · rename_i tok htok
        obtain ⟨hmem, hcmd, hne⟩ := tokenAwaiting_some htok
        have hawait : tok.awaitCommand ≠ "" := hcmd ▸ hne
        have hfwd := hs.forward hlive hmem
        have harms := x.removeBoundaryArmsForHost_control tok.id
        obtain ⟨tdef, -, h⟩ := bind_ok h
        dsimp only at h
        have hprop : ∀ {raise : Bool} {r'}, propagateError drv c (x.removeBoundaryArmsForHost tok.id).state tok.scopeID
            tok.nodeID tok.id err cause raise = .ok r' → Reaches c.top c.ids
              (.actionFailed commandID err retryable jitter cause) x.toControlState r'.state.toControlState := fun h' =>
          propagateError_reaches hdrv hs hfwd harms (names_scopeRef hs.names hmem) (fun _ => ⟨tok, hmem, rfl, hawait⟩) h'
        split at h
        · obtain ⟨r', h', rfl⟩ := map_prepend_ok h
          rw [StepResult.prepend_state]
          exact hprop h'
        · rename_i eff _
          split at h
          · rw [← Except.ok.inj h]
            have hmoves : Moves c.top c.ids (.actionFailed commandID err retryable jitter cause) _ _ :=
              scheduleRetry_moves (harms ▸ hs) (harms ▸ hmem) hawait eff jitter
            rw [harms] at hmoves
            exact Moves.reaches hmoves
          · split at h
            · have hreach : Reaches c.top c.ids (.actionFailed commandID err retryable jitter cause) _ _ :=
                takeRecoveryFlow_reaches hdrv (harms ▸ hs) (harms ▸ hlive) (harms ▸ hmem) hawait h
              rw [harms] at hreach
              exact hreach
            · obtain ⟨r', h', rfl⟩ := map_prepend_ok h
              rw [StepResult.prepend_state]
              exact hprop h'

/-! ## Cancelling and human tasks -/

theorem cancelRequested_reaches (hdrv : Drives c trg drv) (hs : Wf c.ids x.toControlState)
    (hlive : x.status.isTerminal = false) (h : handleCancelRequested drv c x = .ok r) :
    Reaches c.top c.ids trg x.toControlState r.state.toControlState := by
  unfold handleCancelRequested at h
  dsimp only at h
  split at h
  · rename_i hwalk
    rw [Bool.and_eq_true, beq_iff_eq, bne_iff_ne] at hwalk
    split at h
    · rename_i hmode
      rw [Bool.or_eq_true, bne_iff_ne, bne_iff_ne] at hmode
      rw [← Except.ok.inj h]
      exact Moves.reaches (Move.pendCancel hwalk.2 hmode).path
    · split at h
      · cases h
      · rw [← Except.ok.inj h]
        exact Reaches.refl
  · rename_i hwalk
    have hidle : ¬ x.toControlState.InFlight := by
      intro hin
      refine hwalk ?_
      rw [Bool.and_eq_true, beq_iff_eq, bne_iff_ne]
      exact ⟨hs.phase.status.mpr hin, hin⟩
    split at h
    · obtain ⟨r', h', rfl⟩ := map_prepend_ok h
      rw [StepResult.prepend_state]
      exact harvest_reaches hdrv hs hidle rfl
        (fun m => Asked.failed m trg "cancelled" .instanceCancelled .terminated (Or.inl rfl)) h'
    · -- nothing to undo: every token goes and the instance ends
      have hsweep : Sweeps x.toControlState x.toControlState.harvestOpenScopeCompensations := sweeps_archiveAll _
      have hpath : Moves c.top c.ids trg x.toControlState x.toControlState.harvestOpenScopeCompensations :=
        moves_sweeps hidle hsweep
      have hk := Phase.Keeps.sweeps hsweep hidle
      have hall := cancelAllTokens_eq (Moves.wf hs hpath).names c.at_ .instanceCancelled
      have hcancel : Clean c trg _ _ := Clean.cancelListed c.at_ .instanceCancelled
        x.toControlState.harvestOpenScopeCompensations.tokens x.toControlState.harvestOpenScopeCompensations
      rw [← Except.ok.inj h, StepResult.prepend_state, endInstance_control,
        onControl_toControlState, onControl_toControlState, hall]
      have hk' := hk.trans hcancel.keeps
      exact Moves.ends (hpath.trans hcancel.path) (End.idle .terminated _ (hk'.live hlive)
        (fun hin => hidle (hk'.inFlight.mp hin)) (Or.inl rfl))

theorem withOpenTask_control {taskID : String} {closed : EngineResult} {f : HumanTask → HumanTask}
    (hclosed : ∀ r, closed = .ok r → r.state.toControlState = x.toControlState)
    (h : withOpenTask x taskID closed f = .ok r) : r.state.toControlState = x.toControlState := by
  unfold withOpenTask at h
  split at h
  · cases h
  · split at h
    · exact hclosed r h
    · rw [← Except.ok.inj h]
      rfl

theorem applyOutcomeExposure_control (nodeID : String) (ut : UserTask) (outcome : String) (x : InstanceState) :
    (applyOutcomeExposure nodeID ut outcome x).toControlState = x.toControlState := by
  unfold applyOutcomeExposure
  split
  · rfl
  · split
    · rfl
    · split <;> rfl

/-- The completion action of an answered token: it waits again. -/
theorem parkOnCompletionAction_control {y : InstanceState} {tok : Token}
    (h : parkOnCompletionAction c tdef y tok cmds = some r) :
    ∃ cmdID, r.state.toControlState = y.toControlState.mintCommand.awaitCommand tok.id cmdID := by
  unfold parkOnCompletionAction at h
  split at h
  · cases h
  · dsimp only at h
    split at h <;> split at h
    all_goals cases h
    all_goals exact ⟨_, rfl⟩

theorem humanCompleted_reaches (hdrv : Drives c trg drv) (hs : Wf c.ids x.toControlState)
    (hlive : x.status.isTerminal = false) {taskID outcome note : String} {actor : Actor}
    (h : handleHumanCompleted drv c x taskID outcome note output actor = .ok r) :
    Reaches c.top c.ids trg x.toControlState r.state.toControlState := by
  unfold handleHumanCompleted at h
  cases htask : x.taskByID taskID with
  | none =>
    rw [htask] at h
    cases htok : x.tokenAwaiting taskID with
    | none =>
      rw [htok] at h
      cases h
    | some tok =>
      rw [htok] at h
      cases h
  | some task =>
    rw [htask] at h
    dsimp only at h
    split at h
    · cases h
    · cases htok : x.tokenAwaiting taskID with
      | none =>
        rw [htok] at h
        cases h
      | some tok =>
        rw [htok] at h
        obtain ⟨hmem, hcmd, hne⟩ := tokenAwaiting_some htok
        have hawait : tok.awaitCommand ≠ "" := hcmd ▸ hne
        obtain ⟨tdef, -, h⟩ := bind_ok h
        split at h
        · cases h
        · set s1 := applyOutcomeExposure (((tdef.node tok.nodeID).map (·.id)).getD "") (userTaskOf (tdef.node tok.nodeID))
            outcome (x.mergeVars output) with hs1
          have hctl1 : s1.toControlState = x.toControlState := applyOutcomeExposure_control _ _ _ _
          set r2 := (((s1.updateTask taskID (fun t => { t with
              state := .completed, completion := some ⟨actor, c.at_, outcome, note⟩ })).onControl
              (·.updateToken tok.id (fun t => { t.clearAwait with state := .active }))).cancelTimersByTaskID taskID
                "").state.removeBoundaryArmsForHost tok.id with hr2
          have hctl2 : r2.state.toControlState =
              x.toControlState.updateToken tok.id (fun t => { t.clearAwait with state := .active }) := by
            rw [hr2, removeBoundaryArmsForHost_control, InstanceState.cancelTimersByTaskID_control,
              onControl_toControlState, InstanceState.updateTask_control, hctl1]
          split at h
          · rename_i rp hpark
            obtain ⟨cmdID, hctl⟩ := parkOnCompletionAction_control hpark
            rw [← Except.ok.inj h, hctl, hctl2]
            refine Moves.reaches ?_
            have hfuse := x.toControlState.updateToken_updateToken tok.id
              (fun t => { t.clearAwait with state := .active })
              (fun t => { t with state := .waiting, awaitCommand := cmdID }) (fun _ => rfl)
            have hmoves : Moves c.top c.ids trg x.toControlState (x.toControlState.updateToken tok.id
                (fun t => { t.clearAwait with state := .waiting, awaitCommand := cmdID })) :=
              moves_reawait hs.names hmem hawait _ ⟨rfl, rfl, rfl, rfl⟩ rfl rfl rfl
            rw [← hfuse] at hmoves
            exact hmoves.trans moves_mint
          · refine hdrv.thenDrive hs hlive ?_ h
            exact moves_moveAlongSingleFlow hs.names hmem (Or.inl (Or.inl hawait))
              (fun t => { t.clearAwait with state := .active }) (fun _ => rfl) (Resumes.answered hawait) tdef _ hctl2 c.at_

/-! ## Timers -/

theorem dispatchArmCascade_reaches (hdrv : Drives c trg drv) (hs : Wf c.ids x.toControlState)
    {onMatch : InstanceState → InstanceState} (hmatch : (onMatch x).toControlState = x.toControlState)
    {gw : Option ArmedEvent} {ba : Option BoundaryArm} {ea : Option EventTriggeredSubprocessArm} {res : EngineResult}
    (hcasc : dispatchArmCascade drv c x onMatch gw ba ea = some res) (h : res = .ok r) :
    Reaches c.top c.ids trg x.toControlState r.state.toControlState := by
  subst h
  unfold dispatchArmCascade at hcasc
  split at hcasc
  · cases hcasc
  · rename_i hspawn
    have hfwd := forward_of_spawnsNewWork hs (by simpa using hspawn)
    split at hcasc
    · exact resolveGatewayWin_reaches hdrv hs hfwd.live hmatch (Option.some.inj hcasc)
    · exact fireBoundaryArm_reaches hdrv hs hfwd hmatch (Option.some.inj hcasc)
    · exact fireEventTriggeredSubprocessArm_reaches hdrv hs hmatch (Option.some.inj hcasc)
    · cases hcasc

theorem deadlineFired_reaches (hdrv : Drives c trg drv) (hs : Wf c.ids x.toControlState)
    (hlive : x.status.isTerminal = false) {tr : TimerRecord}
    (h : handleDeadlineFired drv c x tr = .ok r) : Reaches c.top c.ids trg x.toControlState r.state.toControlState := by
  have hstay : Reaches c.top c.ids trg x.toControlState (x.removeTimer tr.timerID).toControlState := by
    rw [removeTimer_control]
    exact Reaches.refl
  unfold handleDeadlineFired at h
  split at h
  · rw [← Except.ok.inj h]
    exact hstay
  · rename_i tok htok
    obtain ⟨hmem, hcmd, hne⟩ := tokenAwaiting_some htok
    have hawait : tok.awaitCommand ≠ "" := hcmd ▸ hne
    dsimp only at h
    split at h
    · rw [← Except.ok.inj h]
      exact hstay
    · obtain ⟨tdef, -, h⟩ := bind_ok h
      split at h
      · cases h
      · rename_i node _
        split at h
        · cases h
        · split at h
          · cases h
          · rename_i f _
            refine hdrv.thenDrive hs hlive ?_ h
            have hfire : Clean c trg _ _ := Clean.fireOnce x node.deadlineOf.2.2
            set y := (emitFireOnceAction c.ids x node.deadlineOf.2.2).state with hy
            have hmem' : tok ∈ y.tokens := by
              rcases emitFireOnceAction_control c.ids x node.deadlineOf.2.2 with hc | hc
              · rw [hc]
                exact hmem
              · rw [hc]
                exact hmem
            have hok := (Resumes.answered hawait).ok
            have hmove : Moves c.top c.ids trg y.toControlState ((y.toControlState.updateToken tok.id
                (fun t => { t.clearAwait with state := .active })).moveTokenToTargetAs tok f.flow.target f.identity c.at_
                  .deadlineExpired) :=
              moves_moveTokenToTargetAs (Moves.wf hs hfire.path).names hmem' (Or.inl (Or.inl hawait))
                (fun t => { t.clearAwait with state := .active }) (fun _ => rfl) ⟨⟨rfl, rfl, rfl, rfl⟩, hok⟩ _ _ c.at_
                .deadlineExpired
            dsimp only
            rw [removeTimer_control, InstanceState.cancelTimersByTaskID_control]
            refine hfire.path.trans ?_
            split
            · exact hmove
            · exact hmove

theorem stallFired_control (x : InstanceState) (tr : TimerRecord) :
    (handleCompensationStallFired c x tr).state.toControlState = x.toControlState := by
  unfold handleCompensationStallFired
  dsimp only
  split
  · exact x.removeTimer_control tr.timerID
  · exact x.removeTimer_control tr.timerID

theorem reminderFired_reaches {tr : TimerRecord}
    (h : handleReminderFired c x tr = .ok r) : Reaches c.top c.ids trg x.toControlState r.state.toControlState := by
  have hstay : Reaches c.top c.ids trg x.toControlState (x.removeTimer tr.timerID).toControlState := by
    rw [removeTimer_control]
    exact Reaches.refl
  unfold handleReminderFired at h
  split at h
  · rw [← Except.ok.inj h]
    exact hstay
  · split at h
    · rw [← Except.ok.inj h]
      exact hstay
    · obtain ⟨tdef, -, h⟩ := bind_ok h
      split at h
      · cases h
      · rw [← Except.ok.inj h]
        exact Moves.reaches (moves_fireOnce x _)

/-- The control part of a re-invoked service action. -/
theorem reinvoke_control {y : InstanceState} {tok : Token} (h : reinvokeServiceAction c y tok = .ok r) :
    r.state.toControlState = y.toControlState.mintCommand.awaitCommand tok.id (y.toControlState.nextCmdID c.ids) := by
  unfold reinvokeServiceAction at h
  split at h
  · cases h
  · split at h
    · cases h
    · exact emitActionInvoke_control h

theorem retryFired_reaches (hs : Wf c.ids x.toControlState) {tr : TimerRecord}
    (h : handleRetryFired c x tr = .ok r) : Reaches c.top c.ids trg x.toControlState r.state.toControlState := by
  unfold handleRetryFired at h
  split at h
  · rw [← Except.ok.inj h]
    exact Reaches.refl
  · rename_i tok htok
    obtain ⟨hmem, hcmd, hne⟩ := tokenAwaiting_some htok
    have hawait : tok.awaitCommand ≠ "" := hcmd ▸ hne
    cases hre : reinvokeServiceAction c (x.removeTimer tr.timerID) tok with
    | error e =>
      rw [hre] at h
      cases h
    | ok r' =>
      rw [hre] at h
      rw [← Except.ok.inj h, reinvoke_control hre, removeTimer_control]
      refine Moves.reaches ?_
      have hmoves : Moves c.top c.ids trg x.toControlState
          (x.toControlState.awaitCommand tok.id (x.toControlState.nextCmdID c.ids)) :=
        moves_reawait hs.names hmem hawait _ ⟨rfl, rfl, rfl, rfl⟩ rfl rfl rfl
      exact hmoves.trans moves_mint

theorem tokenTimer_reaches (hdrv : Drives c trg drv) (hs : Wf c.ids x.toControlState)
    {timerID : String} (h : handleTokenTimer drv c x timerID = .ok r) :
    Reaches c.top c.ids trg x.toControlState r.state.toControlState := by
  unfold handleTokenTimer at h
  split at h
  · rw [← Except.ok.inj h]
    exact Reaches.refl
  · rename_i tok htok
    obtain ⟨hmem, hcmd, hne⟩ := tokenAwaiting_some htok
    have hawait : tok.awaitCommand ≠ "" := hcmd ▸ hne
    split at h
    · rw [← Except.ok.inj h]
      exact Reaches.refl
    · rename_i hspawn
      have hfwd := forward_of_spawnsNewWork hs (by simpa using hspawn)
      obtain ⟨tdef, -, h⟩ := bind_ok h
      refine resumeAndDrive_reaches hdrv hs hfwd.live hmem (Or.inl hawait) Token.clearAwait (fun _ => rfl)
        (Resumes.answered hawait) ?_ h
      rw [cancelTimersForToken_control]
      unfold clearAwaitOf
      rw [onControl_toControlState, removeTimer_control]

theorem timerFired_reaches {timerID : String} (hdrv : Drives c (.timerFired timerID) drv)
    (hs : Wf c.ids x.toControlState) (hlive : x.status.isTerminal = false)
    (h : handleTimerFired drv c x timerID = .ok r) :
    Reaches c.top c.ids (.timerFired timerID) x.toControlState r.state.toControlState := by
  unfold handleTimerFired at h
  split at h
  · rename_i res hcasc
    exact dispatchArmCascade_reaches hdrv hs rfl hcasc h
  · split at h
    · exact tokenTimer_reaches hdrv hs h
    · rename_i tr _
      split at h
      · rw [← Except.ok.inj h, removeTimer_control]
        exact Reaches.refl
      · split at h
        · exact deadlineFired_reaches hdrv hs hlive h
        · exact reminderFired_reaches h
        · exact retryFired_reaches hs h
        · rw [← Except.ok.inj h, stallFired_control]
          exact Reaches.refl
        · exact retryFailed_reaches hs ⟨timerID, rfl⟩ rfl h
        · exact tokenTimer_reaches hdrv hs h

/-! ## Signals and messages -/

theorem markMatched_control (matched : Bool) (payload : Vars) (x : InstanceState) :
    (markMatched matched payload x).toControlState = x.toControlState := by
  unfold markMatched
  split <;> rfl

/-- A token that waited on a signal or a message is made active again. -/
theorem Resumes.caught {tok : Token} (f : Token → Token) (hplace : tok.SamePlace (f tok))
    (hquiet : tok.AwaitOK → ¬ (f tok).Awaits) :
    Resumes tok { f tok with state := .active } := by
  refine ⟨⟨hplace.id, hplace.nodeID, hplace.scopeID, hplace.arrivalFlow⟩, rfl, fun ha => ?_⟩
  have hq := hquiet ha
  simp only [Token.Awaits, not_or, not_not] at hq
  refine ⟨fun _ => ?_, fun _ => ⟨hq.2.1, hq.2.2⟩, fun _ => hq.2.2⟩
  rintro (h | h | h)
  · exact h hq.1
  · exact h hq.2.1
  · exact h hq.2.2

theorem Token.AwaitOK.command_of_signal {tok : Token} (ha : tok.AwaitOK) (h : tok.awaitSignal ≠ "") :
    tok.awaitCommand = "" ∧ tok.awaitMessage = "" := by
  refine ⟨?_, ha.signal h⟩
  by_contra hne
  exact h (ha.command (Or.inl hne)).1

theorem Token.AwaitOK.command_of_message {tok : Token} (ha : tok.AwaitOK) (h : tok.awaitMessage ≠ "") :
    tok.awaitCommand = "" ∧ tok.awaitSignal = "" := by
  refine ⟨?_, ?_⟩
  · by_contra hne
    exact h (ha.command (Or.inl hne)).2
  · by_contra hne
    exact h (ha.signal hne)

theorem fireTier_reaches (hdrv : Drives c trg drv) (hs : Wf c.ids x.toControlState)
    (hfwd : x.toControlState.Forward) (hname : name ≠ "") {matched : Bool}
    {tier : SignalTier} {res : EngineResult} (hfire : fireTier drv c name payload matched x tier = some res)
    (h : res = .ok r) : Reaches c.top c.ids trg x.toControlState r.state.toControlState := by
  subst h
  have hctl := markMatched_control matched payload x
  unfold fireTier at hfire
  split at hfire
  · obtain ⟨ae, -, h⟩ := Option.map_eq_some_iff.mp hfire
    exact resolveGatewayWin_reaches hdrv hs hfwd.live hctl h
  · obtain ⟨ba, -, h⟩ := Option.map_eq_some_iff.mp hfire
    exact fireBoundaryArm_reaches hdrv hs hfwd hctl h
  · obtain ⟨ea, -, h⟩ := Option.map_eq_some_iff.mp hfire
    exact fireEventTriggeredSubprocessArm_reaches hdrv hs hctl h
  · obtain ⟨tok, htok, h⟩ := Option.map_eq_some_iff.mp hfire
    obtain ⟨hfind, hsig⟩ := Option.filter_eq_some_iff.mp htok
    obtain ⟨hmem, -, -⟩ := x.toControlState.tokenByID_some hfind
    have hsignal : tok.awaitSignal ≠ "" := (beq_iff_eq.mp hsig) ▸ hname
    obtain ⟨tdef, -, h⟩ := bind_ok h
    refine resumeAndDrive_reaches hdrv hs hfwd.live hmem (Or.inr (Or.inl hsignal)) (fun t => { t with awaitSignal := "" })
      (fun _ => rfl) (Resumes.caught (fun t => { t with awaitSignal := "" }) ⟨rfl, rfl, rfl, rfl⟩ (fun ha => ?_)) ?_ h
    · obtain ⟨hcmd, hmsg⟩ := ha.command_of_signal hsignal
      rintro (h | h | h)
      · exact h hcmd
      · exact h rfl
      · exact h hmsg
    · rw [cancelTimersForToken_control, onControl_toControlState, hctl]

/-- The tiers one after the other: a tier that ends the instance is the last. -/
theorem fireTiers_reaches (hdrv : Drives c trg drv) (hname : name ≠ "")
    (tiers : List SignalTier) {resolved : List String} {matched : Bool}
    (hs : Wf c.ids x.toControlState)
    (h : fireTiers drv c name payload tiers resolved matched x = .ok r) :
    Reaches c.top c.ids trg x.toControlState r.state.toControlState := by
  induction tiers generalizing resolved matched x r with
  | nil =>
    rw [← Except.ok.inj h]
    exact Reaches.refl
  | cons tier tiers ih =>
    unfold fireTiers at h
    split at h
    · rw [← Except.ok.inj h]
      exact Reaches.refl
    · rename_i hspawn
      have hfwd := forward_of_spawnsNewWork hs (by simpa using hspawn)
      split at h
      · exact ih hs h
      · split at h
        · exact ih hs h
        · rename_i res hfire
          obtain ⟨r1, h1, h⟩ := bind_ok h
          obtain ⟨r2, h2, h⟩ := bind_ok h
          rw [← Except.ok.inj h, StepResult.prepend_state]
          have hreach := fireTier_reaches hdrv hs hfwd hname hfire h1
          cases hterm : r1.state.status.isTerminal with
          | false => exact Moves.then (Reaches.moves hs hreach hterm) (ih (Reaches.wf hs hreach) h2)
          | true =>
            -- the rest of the tiers finds a dead instance
            have hsame : r2.state = r1.state := by
              cases tiers with
              | nil => rw [← Except.ok.inj h2]
              | cons t ts =>
                unfold fireTiers at h2
                have hno : r1.state.spawnsNewWork = false := by
                  unfold spawnsNewWork
                  cases hst : r1.state.status with
                  | running | compensating =>
                    rw [hst] at hterm
                    cases hterm
                  | completed | failed | terminated => rfl
                rw [hno] at h2
                rw [← Except.ok.inj h2]
            rw [hsame]
            exact hreach

theorem signalReceived_reaches (hdrv : Drives c trg drv) (hs : Wf c.ids x.toControlState)
    (h : handleSignalReceived drv c x name payload = .ok r) :
    Reaches c.top c.ids trg x.toControlState r.state.toControlState := by
  unfold handleSignalReceived at h
  by_cases hname : name = ""
  · -- no tier has the empty name
    have htiers : signalTiers x name = [] := by
      unfold signalTiers
      simp [hname, armIDsBySignal, tokenIDsAwaitingSignal]
    rw [htiers] at h
    rw [← Except.ok.inj h]
    exact Reaches.refl
  · exact fireTiers_reaches hdrv hname _ hs h

theorem messageReceived_reaches (hdrv : Drives c trg drv) (hs : Wf c.ids x.toControlState)
    {key : String} (h : handleMessageReceived drv c x name key payload = .ok r) :
    Reaches c.top c.ids trg x.toControlState r.state.toControlState := by
  unfold handleMessageReceived at h
  split at h
  · rename_i res hcasc
    exact dispatchArmCascade_reaches hdrv hs (x.mergeVars_control payload) hcasc h
  · split at h
    · rw [← Except.ok.inj h]
      exact Reaches.refl
    · rename_i tok htok
      obtain ⟨hmem, hmsg, hne⟩ := tokenAwaitingMessage_some htok
      have hmessage : tok.awaitMessage ≠ "" := hmsg ▸ hne
      split at h
      · rw [← Except.ok.inj h]
        exact Reaches.refl
      · rename_i hspawn
        have hfwd := forward_of_spawnsNewWork hs (by simpa using hspawn)
        obtain ⟨tdef, -, h⟩ := bind_ok h
        set y := ((((x.mergeVars payload).onControl (·.updateToken tok.id (fun t =>
          { t with awaitMessage := "", awaitMessageKey := "" }))).cancelTimersForToken tok.id
            "").state.removeBoundaryArmsForHost tok.id).state with hy
        have hctl : y.toControlState = x.toControlState.updateToken tok.id
            (fun t => { t with awaitMessage := "", awaitMessageKey := "" }) := by
          rw [hy, removeBoundaryArmsForHost_control, cancelTimersForToken_control,
            onControl_toControlState, InstanceState.mergeVars_control]
        have hfree : Free c.top x.toControlState tok := Or.inl (Or.inr (Or.inr hmessage))
        split at h
        · rename_i rp hpark
          obtain ⟨cmdID, hpc⟩ := parkOnCompletionAction_control hpark
          rw [← Except.ok.inj h, hpc, hctl]
          refine Moves.reaches ?_
          have hfuse := x.toControlState.updateToken_updateToken tok.id
            (fun t => { t with awaitMessage := "", awaitMessageKey := "" })
            (fun t => { t with state := .waiting, awaitCommand := cmdID }) (fun _ => rfl)
          have hmoves : Moves c.top c.ids trg x.toControlState (x.toControlState.updateToken tok.id
              (fun t => { t with awaitMessage := "", awaitMessageKey := "", state := .waiting, awaitCommand := cmdID })) := by
            refine moves_touch hs.names hmem _ ⟨⟨rfl, rfl, rfl, rfl⟩, Or.inl rfl, hfree, fun ha => ?_⟩
            obtain ⟨-, hsig⟩ := ha.command_of_message hmessage
            exact ⟨fun h => by simp at h, fun _ => ⟨hsig, rfl⟩, fun _ => rfl⟩
          rw [← hfuse] at hmoves
          exact hmoves.trans moves_mint
        · refine resumeAndDrive_reaches hdrv hs hfwd.live hmem (Or.inr (Or.inr hmessage))
            (fun t => { t with awaitMessage := "", awaitMessageKey := "" }) (fun _ => rfl)
            (Resumes.caught (fun t => { t with awaitMessage := "", awaitMessageKey := "" }) ⟨rfl, rfl, rfl, rfl⟩
              (fun ha => ?_)) hctl h
          obtain ⟨hcmd, hsig⟩ := ha.command_of_message hmessage
          rintro (h | h | h)
          · exact h hcmd
          · exact h hsig
          · exact h rfl

/-! ## Child instances and incidents -/

theorem subInstanceCompleted_reaches (hdrv : Drives c trg drv) (hs : Wf c.ids x.toControlState)
    (hlive : x.status.isTerminal = false)
    (h : handleSubInstanceCompleted drv c x commandID output = .ok r) :
    Reaches c.top c.ids trg x.toControlState r.state.toControlState := by
  unfold handleSubInstanceCompleted at h
  split at h
  · cases h
  · rename_i tok htok
    obtain ⟨hmem, hcmd, hne⟩ := tokenAwaiting_some htok
    have hawait : tok.awaitCommand ≠ "" := hcmd ▸ hne
    obtain ⟨tdef, -, h⟩ := bind_ok h
    exact resumeAndDrive_reaches hdrv hs hlive hmem (Or.inl hawait) Token.clearAwait (fun _ => rfl)
      (Resumes.answered hawait) rfl h

theorem subInstanceFailed_reaches (hdrv : Drives c trg drv) (hs : Wf c.ids x.toControlState)
    (hlive : x.status.isTerminal = false)
    (h : handleSubInstanceFailed drv c x commandID err = .ok r) :
    Reaches c.top c.ids trg x.toControlState r.state.toControlState := by
  unfold handleSubInstanceFailed at h
  split at h
  · cases h
  · rename_i tok htok
    obtain ⟨hmem, hcmd, hne⟩ := tokenAwaiting_some htok
    have hawait : tok.awaitCommand ≠ "" := hcmd ▸ hne
    obtain ⟨tdef, -, h⟩ := bind_ok h
    split at h
    · refine routeToBoundary_reaches hdrv hs (hs.forward hlive hmem) rfl (fun y hy => ?_) (names_scopeRef hs.names hmem) h
      have hmem' : tok ∈ y.tokens := by
        rcases hy with hy | hy
        · rw [hy]
          exact hmem
        · rw [hy]
          exact hmem
      unfold consumeCallActivity
      dsimp only
      rw [onControl_toControlState, removeBoundaryArmsForHost_control]
      exact Clean.consume c.at_ .boundaryInterrupted hmem' (Or.inl (Or.inl hawait))
    · rw [← Except.ok.inj h, endInstance_control]
      exact Moves.ends Relation.ReflTransGen.refl (End.childFailed err hlive (List.ne_nil_of_mem hmem))

theorem resolveIncident_reaches {incidentID : String} {addAttempts : Int}
    (h : handleResolveIncident c x incidentID addAttempts = .ok r) :
    Reaches c.top c.ids trg x.toControlState r.state.toControlState := by
  unfold handleResolveIncident at h
  split at h
  · rw [← Except.ok.inj h]
    exact Reaches.refl
  · rename_i inc _
    split at h
    · cases h
    · dsimp only at h
      split at h
      · rw [← Except.ok.inj h]
        exact Reaches.refl
      · rename_i tok htok
        obtain ⟨hmem, -, -⟩ := x.toControlState.tokenByID_some htok
        rw [reinvoke_control h]
        refine Moves.reaches ?_
        set cmdID := (({ x with incidents := x.incidents.eraseP (fun inc => inc.id == incidentID) } :
          InstanceState).onControl (fun s => (s.note (.resolved tok s.deferredCompensationThrows)).updateToken tok.id
            (fun t => { t with retryAttempts := max 0 (t.retryAttempts - addAttempts), state := .active
              }))).toControlState.nextCmdID c.ids with hcmdID
        have hmove : Move c.top c.ids trg x.toControlState ((x.toControlState.note
            (.resolved tok x.deferredCompensationThrows)).updateToken tok.id (fun t =>
              { t with retryAttempts := max 0 (t.retryAttempts - addAttempts), state := .waiting,
                       awaitCommand := cmdID })) := by
          refine Move.resolve tok _ hmem (fun t => ⟨⟨rfl, rfl, rfl, rfl⟩, rfl, fun hinc ha => ?_⟩)
          obtain ⟨hsig, hmsg⟩ := ha.command (Or.inr hinc)
          exact ⟨fun h => by simp at h, fun _ => ⟨hsig, hmsg⟩, fun _ => hmsg⟩
        have hfuse := (x.toControlState.note (.resolved tok x.deferredCompensationThrows)).updateToken_updateToken tok.id
          (fun t => { t with retryAttempts := max 0 (t.retryAttempts - addAttempts), state := .active })
          (fun t => { t with state := .waiting, awaitCommand := cmdID }) (fun _ => rfl)
        rw [← hfuse] at hmove
        exact hmove.path.trans moves_mint

/-! ## Steps -/

theorem handle_reaches (hdrv : Drives c trg drv) (hs : Wf c.ids x.toControlState)
    (hlive : x.status.isTerminal = true → trg.terminalPolicy = .allowOnTerminal)
    (h : handle drv c x trg = .ok r) : Reaches c.top c.ids trg x.toControlState r.state.toControlState := by
  -- only a full rollback is allowed on an ended instance
  have hnot : trg.terminalPolicy ≠ .allowOnTerminal → x.status.isTerminal = false := fun hp =>
    Bool.eq_false_iff.mpr (fun ht => hp (hlive ht))
  have hsame : ∀ {r : StepResult}, r.state.toControlState = x.toControlState →
      Reaches c.top c.ids trg x.toControlState r.state.toControlState := by
    intro r hr
    rw [hr]
    exact Reaches.refl
  unfold handle at h
  split at h
  · exact startInstance_reaches hdrv hs (hnot (by simp [TriggerBody.terminalPolicy])) h
  · exact actionCompleted_reaches hdrv hs (hnot (by simp [TriggerBody.terminalPolicy])) h
  · exact actionFailed_reaches hdrv hs (hnot (by simp [TriggerBody.terminalPolicy])) h
  · exact humanCompleted_reaches hdrv hs (hnot (by simp [TriggerBody.terminalPolicy])) h
  · exact hsame (withOpenTask_control (fun r hr => by rw [← Except.ok.inj hr]) h)
  · exact hsame (withOpenTask_control (fun r hr => by cases hr) h)
  · exact hsame (withOpenTask_control (fun r hr => by cases hr) h)
  · exact timerFired_reaches hdrv hs (hnot (by simp [TriggerBody.terminalPolicy])) h
  · exact signalReceived_reaches hdrv hs h
  · exact messageReceived_reaches hdrv hs h
  · exact subInstanceCompleted_reaches hdrv hs (hnot (by simp [TriggerBody.terminalPolicy])) h
  · exact subInstanceFailed_reaches hdrv hs (hnot (by simp [TriggerBody.terminalPolicy])) h
  · rename_i toNode reverseNode resetVars restoreTargetVars
    refine compensateRequested_reaches hdrv hs rfl (fun ht => ?_) h
    have hallow := hlive ht
    unfold TriggerBody.terminalPolicy at hallow
    dsimp only at hallow
    split at hallow
    · cases hallow
    · rename_i hplain
      simp only [Bool.or_eq_true, bne_iff_ne, not_or, not_not] at hplain
      exact ⟨hplain.2, hplain.1⟩
  · exact cancelRequested_reaches hdrv hs (hnot (by decide)) h
  · exact resolveIncident_reaches h
  · exact resolveStall_reaches hdrv hs rfl h

theorem dispatch_reaches (hdrv : Drives c trg drv) (hs : Wf c.ids x.toControlState)
    (h : dispatch drv c x trg = .ok r) : Reaches c.top c.ids trg x.toControlState r.state.toControlState := by
  unfold dispatch at h
  split at h
  · split at h
    · rw [← Except.ok.inj h]
      exact Reaches.refl
    · cases h
    · rename_i hallow
      exact handle_reaches hdrv hs (fun _ => hallow) h
  · rename_i hlive
    exact handle_reaches hdrv hs (fun ht => absurd ht hlive) h

theorem dropStaleCommands_control (live : List String) (cmds : List Command) (x : InstanceState) :
    (dropStaleCommands live cmds x).state.toControlState = x.toControlState := by
  induction cmds generalizing x with
  | nil => rfl
  | cons cmd cmds ih =>
    unfold dropStaleCommands
    dsimp only
    rw [StepResult.prepend_state, ih]
    unfold dropStaleCommand
    split
    · rfl
    · split
      · split
        · split <;> rfl
        · rfl
      · rfl

theorem dropStaleTokenCommands_control (r : StepResult) :
    (dropStaleTokenCommands r).state.toControlState = r.state.toControlState := by
  unfold dropStaleTokenCommands
  split
  · rfl
  · exact dropStaleCommands_control _ _ _

/-- The handler's result of a successful step. -/
theorem step_dispatch {fuel : Nat} {t : Trigger} {opt : StepOptions}
    (h : step fuel d x t opt = .ok r) :
    ∃ r', dispatch (drive (stepCtx d x t opt) fuel) (stepCtx d x t opt) x t.body = .ok r' ∧
      r = dropStaleTokenCommands r' := by
  unfold step at h
  obtain ⟨_, -, h⟩ := bind_ok h
  obtain ⟨_, -, h⟩ := bind_ok h
  obtain ⟨r', h', h⟩ := bind_ok h
  exact ⟨r', h', (Except.ok.inj h).symm⟩

/-- The step's own handler, on an instance that is not terminal. -/
theorem handled_of_step {fuel : Nat} {t : Trigger} {opt : StepOptions}
    (hlive : x.status.isTerminal = false) (h : step fuel d x t opt = .ok r) :
    ∃ r', handle (drive (stepCtx d x t opt) fuel) (stepCtx d x t opt) x t.body = .ok r' := by
  obtain ⟨r', hd, -⟩ := step_dispatch h
  unfold dispatch at hd
  rw [if_neg (by rw [hlive]; exact Bool.false_ne_true)] at hd
  exact ⟨r', hd⟩

/-- A successful step of the engine is a path of the machine. -/
theorem step_reaches {fuel : Nat} {t : Trigger} {opt : StepOptions}
    (hs : Wf (opt.ids x.instanceID) x.toControlState) (h : step fuel d x t opt = .ok r) :
    Reaches d (opt.ids x.instanceID) t.body x.toControlState r.state.toControlState := by
  obtain ⟨r', h', rfl⟩ := step_dispatch h
  rw [dropStaleTokenCommands_control]
  have hdrv : Drives (stepCtx d x t opt) t.body (drive (stepCtx d x t opt) fuel) := drive_drives fuel
  exact dispatch_reaches hdrv hs h'

end Wrkflw
