import Wrkflw.Machine.DeskSteps
import Wrkflw.Machine.StepPaths

/-!
# Triggers on a desk

The acts of every trigger handler, from the desk the step begins with. `dispatch_does` is the result: whatever `dispatch`
returns, it got there by acts.
-/

namespace Wrkflw

open ControlState

variable {cmdID err name taskID : String} {cmds : List Command} {retryable : Bool}

section
variable {trg : TriggerBody} {d0 : Desk} {s s' x : InstanceState} {r r' : StepResult} {c : StepCtx}
  {drv : DriveLoop} {g : IDGenerator} {td : ProcessDefinition} {tok : Token} {node : Node}

/-! ## Freed tokens -/

/-- The update of a token an answer frees. -/
def freed (t : Token) : Token := { t.clearAwait with state := .active }

theorem freed_clears (t : Token) : t.Clears (freed t) := ⟨⟨rfl, rfl, rfl⟩, rfl, rfl, rfl, rfl, rfl⟩

theorem running_update {k : Token → Token} (hmem : tok ∈ x.tokens) (hk : tok.Same (k tok))
    (hactive : (k tok).state = .active) :
    Running (x.onControl (·.updateToken tok.id k)) tok (k tok) := by
  refine ⟨List.mem_map.mpr ⟨tok, hmem, ?_⟩, hactive, hk.id, hk.nodeID⟩
  rw [beq_self_eq_true, if_pos rfl]

theorem ReportsFailure.not_task (h : ReportsFailure trg tok) : ¬ TendsTask trg tok := by
  rintro (⟨_, _, _, _, h'⟩ | ⟨_, h', -⟩)
  · rcases h with ⟨_, _, _, _, h⟩ | ⟨_, h⟩ <;> rw [h] at h' <;> cases h'
  · rcases h with ⟨_, _, _, _, h⟩ | ⟨_, h⟩ <;> rw [h] at h' <;> cases h'

theorem does_free {k : Token → Token} (hmem : tok ∈ x.tokens) (hn : Named d0 trg tok) (hk : ∀ t : Token, t.Clears (k t))
    (harms : Disarmed d0 x.desk trg tok) (hnone : TendsTask trg tok → ∀ ht ∈ x.tasks, ht.taskID ≠ tok.awaitCommand) :
    Does g trg d0 x ⟨x.onControl (·.updateToken tok.id k), []⟩ :=
  Does.of_act (.answer tok k hmem hn hk harms hnone)

/-- Clearing the wait and going active is one update. -/
theorem clear_activate (x : InstanceState) (tok : Token) :
    (clearAwaitOf tok x).onControl (·.setTokenState tok.id .active) = x.onControl (·.updateToken tok.id freed) := by
  have hfuse := x.toControlState.updateToken_updateToken tok.id Token.clearAwait (fun t => { t with state := .active })
    (fun _ => rfl)
  exact congrArg (fun ctl => x.onControl (fun _ => ctl)) hfuse

theorem does_thenMove (hdrv : DoesDrive c.ids trg d0 drv) {t : Token}
    (h0 : Does c.ids trg d0 s ⟨x, cmds⟩) (hrun : Running x tok t)
    (h : thenDrive drv ⟨moveAlongSingleFlow c.ids td x tok c.at_, cmds⟩ = .ok r) : Does c.ids trg d0 s r := by
  have hmove : Does c.ids trg d0 s ⟨moveAlongSingleFlow c.ids td x tok c.at_, cmds⟩ := by
    have hall := Acts.trans h0 (does_moveAlong hrun td c.at_)
    rw [List.append_nil] at hall
    exact hall
  exact does_thenDrive hdrv hmove h

theorem named_of (hmem : tok ∈ d0.tokens) (hcmd : tok.awaitCommand = cmdID) (hne : cmdID ≠ "")
    (hr : Replies d0 tok trg) : Named d0 trg tok := ⟨hmem, hcmd ▸ hne, hr⟩

theorem recordCompletion_desk (s : InstanceState) (td : ProcessDefinition) (tok : Token) :
    (recordCompletion c s td tok).desk = s.desk := by
  unfold recordCompletion
  split
  · split
    · rfl
    · exact desk_onControl (recordCompensation_front _ _)
  · rfl

theorem mergeVars_desk (s : InstanceState) (vars : Vars) : (s.mergeVars vars).desk = s.desk := rfl

/-! ## Starting -/

theorem does_start (hdrv : DoesDrive c.ids trg d0 drv) {vars : Vars} {start : String}
    (h : handleStartInstance drv c s vars start = .ok r) : Does c.ids trg d0 s r := by
  unfold handleStartInstance at h
  split at h
  · cases h
  · dsimp only at h
    obtain ⟨startID, -, h⟩ := bind_ok h
    obtain ⟨r1, h1, h2⟩ := bind_ok h
    set y : InstanceState := ({ s with startedAt := c.at_, defID := c.top.id, defVersion := c.top.version } :
      InstanceState).mergeVars vars with hy
    set z : InstanceState := { y with startVariables := y.vars } with hz
    have hzdesk : z.desk = s.desk := rfl
    have hopen : Does c.ids trg d0 z ⟨z.onControl (fun s => { s with status := .running }), []⟩ := does_reopen rfl
    have hplace : Does c.ids trg d0 (z.onControl (fun s => { s with status := .running }))
        ⟨z.onControl (fun s => { s with status := .running }.placeTokenInScope c.ids startID "" "" c.at_), []⟩ :=
      does_place _ startID "" "" c.at_
    obtain ⟨arms, m, hst, harm, hsch⟩ := armEventTriggeredSubprocesses_spec h1
    have harms : Does c.ids trg d0
        (z.onControl (fun s => { s with status := .running }.placeTokenInScope c.ids startID "" "" c.at_)) r1 := by
      unfold Does
      rw [hst]
      exact (Act.armEventSubs "" arms m r1.commands (Or.inl rfl) harm hsch).acts
    have hall := hopen.silently (hplace.silently harms)
    exact does_thenDrive hdrv (Does.after hzdesk hall) h2

/-! ## Actions -/

/-- The host of a reply is freed of its boundaries first. -/
theorem does_disarmed (hs : s.desk.Sane) (hmem : tok ∈ s.tokens) :
    tok ∈ (s.removeBoundaryArmsForHost tok.id).state.tokens ∧
      ∀ ba ∈ (s.removeBoundaryArmsForHost tok.id).state.boundaries, ba.hostToken ≠ tok.id := by
  refine ⟨?_, removeBoundaries_gone s (hs.named tok hmem)⟩
  rw [s.removeBoundaryArmsForHost_control tok.id]
  exact hmem

theorem does_actionCompleted (hdrv : DoesDrive c.ids (.actionCompleted cmdID output) s.desk drv)
    (h : handleActionCompleted drv c s cmdID output = .ok r) : Does c.ids (.actionCompleted cmdID output) s.desk s r := by
  unfold handleActionCompleted at h
  split at h
  · rename_i hactive
    have hwalk : cmdID = s.desk.walk := by
      simp only [Bool.and_eq_true, beq_iff_eq] at hactive
      exact hactive.2.symm
    have hren : WalkRenews s.desk (.actionCompleted cmdID output) := hwalk
    exact (does_retireFailed s hwalk hren).silently (does_advance hdrv h)
  · split at h
    · rw [← Except.ok.inj h]
      exact Does.refl s
    · split at h
      · cases h
      · rename_i tok htok
        obtain ⟨hmem, hcmd, hne⟩ := tokenAwaiting_some htok
        refine Acts.sane_or (fun hs => ?_)
        obtain ⟨hmem1, hgone⟩ := does_disarmed hs hmem
        set r1 := s.removeBoundaryArmsForHost tok.id with hr1
        obtain ⟨td, -, h⟩ := bind_ok h
        dsimp only at h
        set x := (recordCompletion c r1.state td tok).mergeVars output with hx
        have hxdesk : x.desk = r1.state.desk := recordCompletion_desk r1.state td tok
        have hxmem : tok ∈ x.tokens := by
          have htoks : x.tokens = r1.state.tokens := (congrArg (fun d : Desk => d.tokens) hxdesk :)
          rw [htoks]
          exact hmem1
        have hnamed : Named s.desk (.actionCompleted cmdID output) tok :=
          named_of hmem hcmd hne (hcmd ▸ Replies.completed output)
        have hfree : Does c.ids (.actionCompleted cmdID output) s.desk x ⟨x.onControl (·.updateToken tok.id freed), []⟩ :=
          does_free hxmem hnamed freed_clears (Or.inl (hxdesk ▸ hgone)) (by rintro (⟨_, _, _, _, h⟩ | ⟨_, h, _⟩) <;> cases h)
        have hto : Does c.ids (.actionCompleted cmdID output) s.desk s
            ⟨x.onControl (·.updateToken tok.id freed), r1.commands⟩ := by
          have hdrop : Does c.ids (.actionCompleted cmdID output) s.desk s (s.removeBoundaryArmsForHost tok.id) :=
            does_removeBoundaries s tok.id
          have hall := Acts.trans hdrop (Does.after hxdesk hfree)
          rw [List.append_nil] at hall
          exact hall
        unfold resumeAndDrive at h
        rw [clear_activate] at h
        exact does_thenMove hdrv hto (running_update hxmem (freed_clears tok).toSame rfl) h

theorem does_report (s : InstanceState) {mk : String → Incident} (hid : ∀ id, (mk id).id = id)
    (htok : ∀ id, (mk id).tokenID = "") (hkind : ∀ id, (mk id).kind ≠ .action ∧ (mk id).kind ≠ .definitionDefect)
    (hfailed : ∀ id, (mk id).kind = .compensationFailed → WalkFailure d0 s.desk trg (mk id)) :
    Does c.ids trg d0 s ⟨s.raise c.ids mk, []⟩ :=
  Does.of_act (Act.report (mk (c.ids.newID .incident (s.incidentSeq + 1))) (hid _) (htok _) (hkind _) (hfailed _))

/-- The failed command is to be tried again later: the timer is there before the incident. -/
theorem does_armRetry {nodeID : String} {mk : String → Incident}
    (hreport : ∀ y : InstanceState, y.desk.backoff = true → y.incidents = s.incidents → y.desk.tries = s.desk.tries →
      Does c.ids trg d0 y ⟨y.raise c.ids mk, []⟩)
    (h : armCompensationRetryTimer c (s.raise c.ids mk) nodeID err retryable = some r) : Does c.ids trg d0 s r := by
  unfold armCompensationRetryTimer at h
  split at h
  · cases h
  · dsimp only at h
    split at h
    · cases h
    · split at h
      · cases h
      · rw [← Option.some.inj h]
        rename_i p _ _ _
        set r1 := (scheduleWalkTimer c.ids (cancelCompensationWalkTimers s).state .compensationRetry nodeID
          (c.opt.floatOps.backoff p.normalize s.compensating.retryAttempts)).1 with hr1
        have hcancel : Does c.ids trg d0 s (cancelCompensationWalkTimers s) := does_cancelWalkTimers s
        have hkind : TimerKind.compensationRetry ≠ .deadline := by decide
        have htimer : Does c.ids trg d0 s (r1.prepend (cancelCompensationWalkTimers s).commands) :=
          hcancel.trans (does_scheduleWalkTimer (cancelCompensationWalkTimers s).state hkind nodeID
            (c.opt.floatOps.backoff p.normalize s.compensating.retryAttempts))
        let y : InstanceState := r1.state.onControl (fun a => { a with compensating := { s.compensating with
          retryTimerID := c.ids.newID .timer (s.timerSeq + 1), retryAttempts := s.compensating.retryAttempts + 1 } })
        have hy : y.desk.backoff = true := by
          simpa [y, InstanceState.desk, ControlState.front] using c.ids.newID_ne_empty .timer (s.timerSeq + 1)
        have hback : Act c.ids trg d0 r1.state.desk y.desk [] := by
          have hdesk : y.desk = { r1.state.desk with backoff := true } := by
            rw [← hy]
            rfl
          rw [hdesk]
          exact Act.backOff
        have hall := Acts.trans (Acts.trans htimer hback.acts) (hreport y hy rfl rfl)
        rw [List.append_nil, List.append_nil] at hall
        exact hall

/-- The incident a failure of the walk's command is reported with. -/
def failureIncident (c : StepCtx) (s : InstanceState) (cmdID err id : String) : Incident :=
  { id := id, kind := .compensationFailed,
    nodeID := ((s.cursorRecords s.compensating)[s.compensating.nextIndex.toNat]?.map (·.nodeID)).getD "",
    scopeID := s.compensating.scopeID, commandID := cmdID, error := err, createdAt := c.at_ }

theorem failureIncident_kind (c : StepCtx) (s : InstanceState) (cmdID err id : String) :
    (failureIncident c s cmdID err id).kind ≠ .action ∧ (failureIncident c s cmdID err id).kind ≠ .definitionDefect :=
  ⟨nofun, nofun⟩

/-- The walk's command has failed for the first time. -/
structure FailsNow (d0 : Desk) (trg : TriggerBody) (s : InstanceState) (cmdID : String) : Prop where
  incidents : s.incidents = d0.incidents
  tries : s.desk.tries = d0.tries
  names : cmdID = d0.walk
  named : cmdID ≠ ""
  fails : WalkFails d0 trg
  first : d0.backoff = false

theorem FailsNow.failure {id : String} {d : Desk} (h : FailsNow d0 trg s cmdID) (hincs : d.incidents = s.incidents)
    (htries : d.tries = s.desk.tries) (hmoved : d.walk = "" ∨ d.backoff = true) :
    WalkFailure d0 d trg (failureIncident c s cmdID err id) where
  names := h.names
  walking := h.names ▸ h.named
  fails := h.fails
  first := h.first
  old := by
    rw [hincs, h.incidents]
    exact List.Subset.refl _
  tries := htries.trans h.tries
  moved := hmoved

/-- The walk's command is off the desk when its failure is reported and the walk goes on. -/
theorem acts_reported (h : FailsNow d0 trg s cmdID) (err : String) :
    Acts c.ids trg d0 s.desk { (s.raise c.ids (failureIncident c s cmdID err)).desk with walk := "", backoff := false }
      [] := by
  have hsettle : Acts c.ids trg d0 s.desk { s.desk with walk := "", backoff := false } [] := Act.settle.acts
  have hreport : Act c.ids trg d0 { s.desk with walk := "", backoff := false }
      { (s.raise c.ids (failureIncident c s cmdID err)).desk with walk := "", backoff := false } [] :=
    Act.report (failureIncident c s cmdID err (c.ids.newID .incident (s.incidentSeq + 1))) rfl rfl
      (failureIncident_kind c s cmdID err _) (fun _ => h.failure rfl rfl (Or.inl rfl))
  exact hsettle.trans hreport.acts

theorem does_compensationFailed (hdrv : DoesDrive c.ids trg d0 drv)
    (hincs : s.incidents = d0.incidents) (hback : s.desk.backoff = d0.backoff) (htries : s.desk.tries = d0.tries)
    (hwalk : cmdID = d0.walk) (hne : cmdID ≠ "") (hfails : WalkFails d0 trg)
    (h : handleCompensationFailed drv c s cmdID err retryable = .ok r) : Does c.ids trg d0 s r := by
  unfold handleCompensationFailed at h
  split at h
  · rw [← Except.ok.inj h]
    exact Does.refl s
  · rename_i htimer
    have hnow : FailsNow d0 trg s cmdID := by
      refine ⟨hincs, htries, hwalk, hne, hfails, ?_⟩
      rw [← hback]
      simpa [InstanceState.desk, ControlState.front] using htimer
    dsimp only at h
    split at h
    · rename_i r1 hretry
      rw [← Except.ok.inj h]
      exact does_armRetry (fun y hy hinc htry => does_report y (fun _ => rfl)
        (fun _ => rfl) (failureIncident_kind c s cmdID err)
        (fun id _ => hnow.failure hinc htry (Or.inr hy))) hretry
    · exact (acts_reported (c := c) hnow err).trans (acts_advance hdrv h)

theorem does_scheduleRetry (hf : Failing d0 trg s tok)
    (htrg : ∃ err retryable jitter cause, trg = .actionFailed tok.awaitCommand err retryable jitter cause)
    (eff : RetryPolicy) (jitter : Rat) : Does c.ids trg d0 s (scheduleRetry c s eff tok jitter) :=
  Does.of_act (Act.rewait tok _
    { timerID := c.ids.newID .timer (s.timerSeq + 1), kind := .retry, token := tok.id, nodeID := tok.nodeID,
      scopeID := tok.scopeID } _ hf.mem hf.named htrg
    (fun _ => ⟨⟨rfl, rfl, rfl⟩, rfl, rfl, rfl, rfl, rfl⟩) hf.disarmed rfl nofun)

/-- The update of a token that leaves by its recovery flow. -/
def recovered (t : Token) : Token := { t.clearAwait with retryAttempts := 0, retryStartedAt := 0 }

/-- Where a token's move takes it. -/
def movedTo (target flow : String) (at_ : Time) (t : Token) : Token :=
  { t with state := .active, nodeID := target, enteredAt := at_, arrivalFlow := flow }

theorem moveTo_front (a : ControlState) (tok : Token) (target flow : String) (at_ : Time) (kind : CloseKind) :
    (a.moveTokenToTargetAs tok target flow at_ kind).front = (a.updateToken tok.id (movedTo target flow at_)).front := by
  have hclosed := a.closeVisitAs_front tok.id tok.nodeID at_ kind
  set b := a.closeVisitAs tok.id tok.nodeID at_ kind with hb
  have hfuse := b.updateToken_updateToken tok.id (fun t => { t with state := .active })
    (fun t => { t with nodeID := target, enteredAt := at_, arrivalFlow := flow }) (fun _ => rfl)
  have htok : b.tokens = a.tokens := congrArg Front.tokens hclosed
  have hmove : (a.moveTokenToTargetAs tok target flow at_ kind).front =
      ((b.updateToken tok.id (fun t => { t with state := .active })).updateToken tok.id
        (fun t => { t with nodeID := target, enteredAt := at_, arrivalFlow := flow })).front := rfl
  have hupd : (b.updateToken tok.id (movedTo target flow at_)).front = { b.front with
      tokens := b.tokens.map (fun t => if t.id == tok.id then movedTo target flow at_ t else t) } := rfl
  rw [hmove, hfuse]
  refine hupd.trans ?_
  rw [hclosed, htok]
  rfl

theorem does_recovery (hdrv : DoesDrive c.ids trg d0 drv) {nodeID flow : String}
    (h0 : Does c.ids trg d0 s ⟨x, cmds⟩) (hf : Failing d0 trg x tok)
    (h : takeRecoveryFlow drv c x td tok nodeID flow err cmds = .ok r) : Does c.ids trg d0 s r := by
  unfold takeRecoveryFlow at h
  dsimp only at h
  split at h
  · cases h
  · split at h
    · cases h
    · rename_i f _ _
      refine does_thenDrive hdrv ?_ h
      set y : InstanceState :=
        { x with vars := Vars.set (Vars.set x.vars "_errorMessage" (.str err)) "_errorAttempts"
                           (.int (tok.retryAttempts + 1)) } with hy
      have hydesk : y.desk = x.desk := rfl
      -- the move makes the token active: it may as well be so before
      set k : Token → Token := fun t => { recovered t with state := .active } with hk
      have hclears : ∀ t : Token, t.Clears (k t) := fun t => ⟨⟨rfl, rfl, rfl⟩, rfl, rfl, rfl, rfl, rfl⟩
      have hfree : Does c.ids trg d0 y ⟨y.onControl (·.updateToken tok.id k), []⟩ :=
        does_free hf.mem hf.named hclears (Or.inl hf.disarmed) (fun ht => absurd ht hf.reports.not_task)
      have hrun : Running (y.onControl (·.updateToken tok.id k)) tok (k tok) :=
        running_update (x := y) hf.mem (hclears tok).toSame rfl
      have hmove := hfree.silently (does_moveTo hrun f.flow.target f.identity c.at_ .normal)
      have hsame : ((y.onControl (·.updateToken tok.id k)).onControl
          (·.moveTokenToTargetAs tok f.flow.target f.identity c.at_ .normal)).desk =
          ((y.onControl (·.updateToken tok.id recovered)).onControl
          (·.moveTokenToTargetAs tok f.flow.target f.identity c.at_ .normal)).desk := by
        have hfront : ((y.toControlState.updateToken tok.id k).moveTokenToTargetAs tok f.flow.target f.identity c.at_
            .normal).front = ((y.toControlState.updateToken tok.id recovered).moveTokenToTargetAs tok f.flow.target f.identity
            c.at_ .normal).front := by
          have h1 := y.toControlState.updateToken_updateToken tok.id k (movedTo f.flow.target f.identity c.at_) (fun _ => rfl)
          have h2 := y.toControlState.updateToken_updateToken tok.id recovered (movedTo f.flow.target f.identity c.at_)
            (fun _ => rfl)
          rw [moveTo_front, moveTo_front, h1, h2]
          rfl
        exact congrArg (fun fr : Front => ({ y.desk with toFront := fr } : Desk)) hfront
      have hall := Acts.trans h0 (Does.after hydesk hmove)
      rw [List.append_nil, hsame] at hall
      exact hall

/-- A failure, over any desk the failing token is named in. -/
theorem does_failure {jitter : Rat} {cause : Option String}
    (hdrv : DoesDrive c.ids (.actionFailed cmdID err retryable jitter cause) d0 drv)
    (hnamed : ∀ tok, s.tokenAwaiting cmdID = some tok → Named d0 (.actionFailed cmdID err retryable jitter cause) tok)
    (hincs : s.incidents = d0.incidents) (hback : s.desk.backoff = d0.backoff) (htries : s.desk.tries = d0.tries)
    (hwalk : s.compensating.activeCmdID = d0.walk) (hne : cmdID ≠ "")
    (h : handleActionFailed drv c s cmdID err retryable jitter cause = .ok r) :
    Does c.ids (.actionFailed cmdID err retryable jitter cause) d0 s r := by
  unfold handleActionFailed at h
  split at h
  · rename_i hactive
    simp only [Bool.and_eq_true, beq_iff_eq] at hactive
    have hcmd : cmdID = d0.walk := hactive.2.symm.trans hwalk
    exact does_compensationFailed hdrv hincs hback htries hcmd hne ⟨err, retryable, jitter, cause, by rw [hcmd]⟩ h
  · split at h
    · rw [← Except.ok.inj h]
      exact Does.refl s
    · split at h
      · cases h
      · rename_i tok htok
        obtain ⟨hmem, hcmd, hne⟩ := tokenAwaiting_some htok
        refine Acts.sane_or (fun hs => ?_)
        obtain ⟨hmem1, hgone⟩ := does_disarmed hs hmem
        have htrg : ∃ err' retryable' jitter' cause', TriggerBody.actionFailed cmdID err retryable jitter cause =
            .actionFailed tok.awaitCommand err' retryable' jitter' cause' := ⟨err, retryable, jitter, cause, by rw [hcmd]⟩
        set r1 := s.removeBoundaryArmsForHost tok.id with hr1
        have hfailing : Failing d0 (.actionFailed cmdID err retryable jitter cause) r1.state tok :=
          ⟨hmem1, hnamed tok htok, hgone, Or.inl htrg⟩
        have hdrop : Does c.ids (.actionFailed cmdID err retryable jitter cause) d0 s r1 := does_removeBoundaries s tok.id
        obtain ⟨td, -, h⟩ := bind_ok h
        dsimp only at h
        split at h
        · obtain ⟨r2, h2, rfl⟩ := map_prepend_ok h
          exact hdrop.trans (does_propagate hdrv (Or.inr ⟨tok, hfailing, rfl, rfl, htrg⟩) h2)
        · rename_i eff _
          split at h
          · rw [← Except.ok.inj h]
            exact hdrop.trans (does_scheduleRetry hfailing htrg eff jitter)
          · split at h
            · exact does_recovery hdrv hdrop hfailing h
            · obtain ⟨r2, h2, rfl⟩ := map_prepend_ok h
              exact hdrop.trans (does_propagate hdrv (Or.inr ⟨tok, hfailing, rfl, rfl, htrg⟩) h2)

theorem does_actionFailed {jitter : Rat} {cause : Option String}
    (hdrv : DoesDrive c.ids (.actionFailed cmdID err retryable jitter cause) s.desk drv) (hne : cmdID ≠ "")
    (h : handleActionFailed drv c s cmdID err retryable jitter cause = .ok r) :
    Does c.ids (.actionFailed cmdID err retryable jitter cause) s.desk s r := by
  refine does_failure hdrv (fun tok htok => ?_) rfl rfl rfl rfl hne h
  obtain ⟨hmem, hcmd, hne⟩ := tokenAwaiting_some htok
  exact named_of hmem hcmd hne (hcmd ▸ Replies.failed err retryable jitter cause)

/-! ## Cancelling -/

theorem nodeCancelActions_neutral (s : InstanceState) : ∀ cmd ∈ nodeCancelActions c s, cmd.Neutral := by
  intro cmd hcmd
  obtain ⟨tok, -, h⟩ := List.mem_filterMap.mp hcmd
  split at h
  · cases h
  · split at h
    · cases h
    · split at h
      · cases h
      · rw [← Option.some.inj h]
        trivial

theorem does_cancelRequested (hdrv : DoesDrive c.ids trg d0 drv) (h : handleCancelRequested drv c s = .ok r) :
    Does c.ids trg d0 s r := by
  unfold handleCancelRequested at h
  dsimp only at h
  set cmds := c.top.cancelActions.map (fun name => Command.invokeCancelAction name s.vars) ++ nodeCancelActions c s with hcmds
  have hneutral : ∀ cmd ∈ cmds, cmd.Neutral := by
    intro cmd hcmd
    rcases List.mem_append.mp hcmd with hm | hm
    · obtain ⟨name, -, rfl⟩ := List.mem_map.mp hm
      trivial
    · exact nodeCancelActions_neutral s cmd hm
  have hsay : Does c.ids trg d0 s ⟨s, cmds⟩ := Does.say s hneutral
  have hharvest : (s.onControl (·.harvestOpenScopeCompensations)).desk = s.desk :=
    desk_onControl (front_of_outline (harvest_outline _))
  split at h
  · split at h
    · rw [← Except.ok.inj h]
      refine Acts.sane_or (fun hs => ?_)
      have haim : Act c.ids trg d0 s.desk { s.desk with finals := [s.compensating.finalStatus, .terminated] } [] := by
        refine .aim _ (fun st hst => ?_)
        rcases List.mem_cons.mp hst with rfl | hst
        · exact hs.finals _ List.mem_cons_self
        · rw [List.mem_singleton.mp hst]
          exact Or.inr (Or.inl rfl)
      have hall := Acts.trans hsay haim.acts
      rw [List.append_nil] at hall
      exact hall
    · split at h
      · cases h
      · rw [← Except.ok.inj h]
        exact Does.refl s
  · split at h
    · obtain ⟨r1, h1, rfl⟩ := map_prepend_ok h
      have hopen : Does c.ids trg d0 (s.onControl (·.harvestOpenScopeCompensations))
          ⟨(s.onControl (·.harvestOpenScopeCompensations)).onControl (fun s => { s with status := .compensating }), []⟩ :=
        does_reopen rfl
      exact hsay.trans (Does.after hharvest (hopen.silently (does_begin hdrv (Or.inr (Or.inl rfl)) h1)))
    · rw [← Except.ok.inj h]
      refine hsay.trans ?_
      obtain ⟨cuts, hfront, hsub, hall⟩ :=
        cancelAllTokens_front s.toControlState.harvestOpenScopeCompensations c.at_ .instanceCancelled
      have hctl : s.toControlState.harvestOpenScopeCompensations.front = s.toControlState.front :=
        front_of_outline (harvest_outline _)
      have htok : s.toControlState.harvestOpenScopeCompensations.tokens = s.tokens := congrArg Front.tokens hctl
      have hf : ((fun a : ControlState => a.harvestOpenScopeCompensations.cancelAllTokens c.at_ .instanceCancelled)
          s.toControlState).front = { s.toControlState.front with
            tokens := [], cuts := cuts, scopes := s.desk.scopes, exits := s.desk.exits } := by
        refine hfront.trans ?_
        rw [hctl]
        rfl
      rw [hctl] at hsub
      rw [htok] at hall
      have hterm : ∀ cmd ∈ some (Command.failInstance "cancelled"), cmd.Neutral := by
        intro cmd hcmd
        cases hcmd
        trivial
      have hend : Does c.ids trg d0 s ((s.onControl (fun a =>
          a.harvestOpenScopeCompensations.cancelAllTokens c.at_ .instanceCancelled)).endInstance .terminated c.at_
            (some (.failInstance "cancelled"))) := does_endInstance hf (Or.inr ⟨rfl, hsub, hall⟩) rfl c.at_ hterm
      exact hend

/-! ## Human tasks -/

theorem taskByID_some {task : HumanTask} (h : s.taskByID taskID = some task) :
    taskID ≠ "" ∧ s.tasks.find? (fun t => t.taskID == taskID) = some task := by
  unfold InstanceState.taskByID at h
  split at h
  · cases h
  · rename_i hne
    exact ⟨by simpa using hne, h⟩

theorem taskByID_none (hne : taskID ≠ "") (h : s.taskByID taskID = none) (ht : HumanTask)
    (hmem : ht ∈ s.tasks) : ht.taskID ≠ taskID := by
  unfold InstanceState.taskByID at h
  rw [if_neg (by simpa using hne), List.find?_eq_none] at h
  simpa using h ht hmem

theorem does_withOpenTask {closed : EngineResult} {f : HumanTask → HumanTask}
    (hclosed : ∀ r, closed = .ok r → r = ⟨s, []⟩)
    (hf : ∀ t : HumanTask, t.isOpen = true → (f t).isOpen = true ∧ (f t).taskID = t.taskID ∧ (f t).nodeID = t.nodeID)
    (htrg : trg.edits = true) (h : withOpenTask s taskID closed f = .ok r) : Does c.ids trg d0 s r := by
  unfold withOpenTask at h
  split at h
  · cases h
  · rename_i task htask
    split at h
    · rw [hclosed r h]
      exact Does.refl s
    · rename_i hopen
      rw [← Except.ok.inj h]
      exact Does.of_act (Act.editTask taskID task f (taskByID_some htask).2 (by simpa using hopen) hf htrg)

theorem does_parkOnCompletion {t : Token} (h0 : Does c.ids trg d0 s ⟨x, cmds⟩)
    (ht : Running x tok t) (h : parkOnCompletionAction c td x tok cmds = some r) : Does c.ids trg d0 s r := by
  have hexp : ∀ ca, Does c.ids trg d0 x ⟨(x.nextCommandID c.ids).1.onControl
      (·.awaitCommand tok.id (c.ids.newID .command (x.cmdSeq + 1))),
      [.invokeAction (c.ids.newID .command (x.cmdSeq + 1)) ca x.vars false]⟩ := by
    intro ca
    have hwait : Does c.ids trg d0 x ⟨(x.nextCommandID c.ids).1.onControl
        (·.awaitCommand t.id (c.ids.newID .command (x.cmdSeq + 1))),
        [.invokeAction (c.ids.newID .command (x.cmdSeq + 1)) ca x.vars false]⟩ :=
      does_expect ht.mem ht.active rfl (fun id spec h => by cases h)
    rw [ht.id] at hwait
    exact hwait
  unfold parkOnCompletionAction at h
  split at h
  · cases h
  · extract_lets ca at h
    split at h
    · cases h
    · rw [← Option.some.inj h]
      exact Acts.trans h0 (hexp ca)

theorem applyOutcomeExposure_desk (nodeID : String) (ut : UserTask) (outcome : String) (s : InstanceState) :
    (applyOutcomeExposure nodeID ut outcome s).desk = s.desk := by
  unfold applyOutcomeExposure
  split
  · rfl
  · split
    · rfl
    · split <;> rfl

/-- The task a token waited for is closed and the token freed. -/
def taskClosed (x : InstanceState) (tok : Token) (close : HumanTask → HumanTask) : InstanceState :=
  (x.updateTask tok.awaitCommand close).onControl (·.updateToken tok.id freed)

theorem taskClosed_running (close : HumanTask → HumanTask) (hmem : tok ∈ x.tokens) (key excl host : String) :
    Running (((taskClosed x tok close).cancelTimersByTaskID key excl).state.removeBoundaryArmsForHost host).state tok
      (freed tok) := by
  have hrun : Running (taskClosed x tok close) tok (freed tok) :=
    running_update (x := x.updateTask tok.awaitCommand close) hmem (freed_clears tok).toSame rfl
  have hctl : (((taskClosed x tok close).cancelTimersByTaskID key excl).state.removeBoundaryArmsForHost
      host).state.toControlState = (taskClosed x tok close).toControlState := by
    rw [InstanceState.removeBoundaryArmsForHost_control]
    unfold InstanceState.cancelTimersByTaskID InstanceState.cancelTimersWhere
    split <;> rfl
  refine ⟨?_, hrun.active, hrun.id, hrun.nodeID⟩
  rw [hctl]
  exact hrun.mem

/-- The open task is closed and its token freed, with the task's timers and the token's boundaries gone. -/
theorem does_closeOwnTask {task : HumanTask} {close : HumanTask → HumanTask} (hs : s.desk.Sane) (hx : x.desk = s.desk)
    (hmem : tok ∈ s.tokens) (hn : Named s.desk trg tok) (htask : s.taskByID tok.awaitCommand = some task)
    (hopen : task.isOpen = true) (hclose : ∀ t, (close t).isOpen = false ∧ (close t).taskID = t.taskID) :
    Does g trg s.desk s
      ⟨(((taskClosed x tok close).cancelTimersByTaskID tok.awaitCommand "").state.removeBoundaryArmsForHost tok.id).state,
        .updateTask (close task) :: (((taskClosed x tok close).cancelTimersByTaskID tok.awaitCommand "").commands ++
          (((taskClosed x tok close).cancelTimersByTaskID tok.awaitCommand "").state.removeBoundaryArmsForHost
            tok.id).commands)⟩ := by
  obtain ⟨hne, hfind⟩ := taskByID_some htask
  have hid := hs.named tok hmem
  -- the boundaries may as well go first
  have hdrop : Does g trg s.desk x (x.removeBoundaryArmsForHost tok.id) := does_removeBoundaries x tok.id
  set y := (x.removeBoundaryArmsForHost tok.id).state with hy
  have hgone := removeBoundaries_gone x hid
  have hctl : y.toControlState = x.toControlState := x.removeBoundaryArmsForHost_control tok.id
  have htoks : x.tokens = s.tokens := (congrArg (fun d : Desk => d.tokens) hx :)
  have htasks : x.tasks = s.tasks := (congrArg Desk.tasks hx :)
  have hyeq : y = { x with boundaries := x.boundaries.filter (fun ba => !(ba.hostToken == tok.id)) } := by
    rw [hy]
    unfold InstanceState.removeBoundaryArmsForHost
    rw [if_neg (by simpa using hid)]
  have hymem : tok ∈ y.tokens := by
    rw [hctl, htoks]
    exact hmem
  have hyfind : y.desk.tasks.find? (fun t => t.taskID == tok.awaitCommand) = some task := by
    rw [hyeq]
    change x.tasks.find? _ = _
    rw [htasks]
    exact hfind
  have hfin : Does g trg s.desk y ⟨taskClosed y tok close, [.updateTask (close task)]⟩ :=
    Does.of_act (Act.finishTask tok freed task close hymem hn freed_clears (Or.inl hgone) hyfind hopen hclose)
  set z := taskClosed y tok close with hz
  have htimers : Does g trg s.desk z (z.cancelTimersByTaskID tok.awaitCommand "") := does_cancelTimersWhere z _ _ _
  have hall := Acts.trans (Acts.trans hdrop hfin) htimers
  rw [hx] at hall
  have hne' : ¬ (tok.awaitCommand == "") = true := by simpa using hne
  have hid' : ¬ (tok.id == "") = true := by simpa using hid
  have hstate : (((taskClosed x tok close).cancelTimersByTaskID tok.awaitCommand "").state.removeBoundaryArmsForHost
    tok.id).state =
      (z.cancelTimersByTaskID tok.awaitCommand "").state := by
    rw [hz, hyeq]
    unfold InstanceState.removeBoundaryArmsForHost InstanceState.cancelTimersByTaskID InstanceState.cancelTimersWhere
    simp only [if_neg hne', if_neg hid']
    rfl
  have hboundary : (((taskClosed x tok close).cancelTimersByTaskID tok.awaitCommand "").state.removeBoundaryArmsForHost
      tok.id).commands = (x.removeBoundaryArmsForHost tok.id).commands := by
    unfold InstanceState.removeBoundaryArmsForHost InstanceState.cancelTimersByTaskID InstanceState.cancelTimersWhere
    simp only [if_neg hne', if_neg hid']
    rfl
  have hcancel : ((taskClosed x tok close).cancelTimersByTaskID tok.awaitCommand "").commands =
      (z.cancelTimersByTaskID tok.awaitCommand "").commands := by
    rw [hz, hyeq]
    unfold InstanceState.cancelTimersByTaskID InstanceState.cancelTimersWhere
    simp only [if_neg hne']
    rfl
  unfold Does
  rw [hstate, hboundary, hcancel]
  refine Acts.perm hall ?_
  change ((x.removeBoundaryArmsForHost tok.id).commands ++ [Command.updateTask (close task)] ++
    (z.cancelTimersByTaskID tok.awaitCommand "").commands).Perm _
  rw [List.append_assoc]
  refine (List.perm_append_comm).trans ?_
  rw [List.singleton_append, List.cons_append]

theorem does_humanCompleted {outcome note : String} {output : Vars} {actor : Actor}
    (hdrv : DoesDrive c.ids (.humanCompleted taskID outcome note output actor) s.desk drv)
    (h : handleHumanCompleted drv c s taskID outcome note output actor = .ok r) :
    Does c.ids (.humanCompleted taskID outcome note output actor) s.desk s r := by
  unfold handleHumanCompleted at h
  split at h
  · cases h
  · cases h
  · rename_i task tok? htask
    split at h
    · cases h
    · rename_i hopen
      split at h
      · cases h
      · rename_i tok htok
        obtain ⟨hmem, hcmd, hne⟩ := tokenAwaiting_some htok
        refine Acts.sane_or (fun hs => ?_)
        obtain ⟨td, -, h⟩ := bind_ok h
        dsimp only at h
        split at h
        · cases h
        · subst hcmd
          have hnamed : Named s.desk (.humanCompleted tok.awaitCommand outcome note output actor) tok :=
            ⟨hmem, hne, Replies.human outcome note output actor⟩
          set node := td.node tok.nodeID with hnode
          have hx : (applyOutcomeExposure ((node.map (·.id)).getD "") (userTaskOf node) outcome (s.mergeVars output)).desk =
              s.desk := applyOutcomeExposure_desk _ _ _ _
          set complete : HumanTask → HumanTask := fun t =>
            { t with state := .completed, completion := some ⟨actor, c.at_, outcome, note⟩ } with hcomplete
          have hclose : ∀ t, (complete t).isOpen = false ∧ (complete t).taskID = t.taskID := fun t => ⟨rfl, rfl⟩
          have hto := does_closeOwnTask (g := c.ids) hs hx hmem hnamed htask (by simpa using hopen) hclose
          have hxmem : tok ∈ (applyOutcomeExposure ((node.map (·.id)).getD "") (userTaskOf node) outcome
              (s.mergeVars output)).tokens := by
            change tok ∈ (applyOutcomeExposure _ _ _ _).desk.tokens
            rw [hx]
            exact hmem
          have hrun := taskClosed_running complete hxmem tok.awaitCommand "" tok.id
          split at h
          · rw [← Except.ok.inj h]
            rename_i hpark
            exact does_parkOnCompletion hto hrun hpark
          · exact does_thenMove hdrv hto hrun h

/-! ## Timers -/

theorem armByTimer_mem {α : Type} {trigger : α → TriggerMatch} {arms : List α} {id : String} {a : α}
    (h : armByTimer trigger arms id = some a) : a ∈ arms := by
  unfold armByTimer at h
  split at h
  · cases h
  · exact List.mem_of_find?_eq_some h

theorem armByMessage_mem {α : Type} {trigger : α → TriggerMatch} {arms : List α} {key : String} {a : α}
    (h : armByMessage trigger arms name key = some a) : a ∈ arms := by
  unfold armByMessage at h
  split at h
  · cases h
  · exact List.mem_of_find?_eq_some h

theorem does_cascade (hdrv : DoesDrive c.ids trg d0 drv) {onMatch : InstanceState → InstanceState}
    (hmatch : (onMatch s).desk = s.desk) {gw : Option ArmedEvent} (hgw : ∀ ae ∈ gw, ae ∈ s.armedEvents)
    {boundary : Option BoundaryArm} {eventSub : Option EventTriggeredSubprocessArm}
    (h : dispatchArmCascade drv c s onMatch gw boundary eventSub = some (.ok r)) : Does c.ids trg d0 s r := by
  unfold dispatchArmCascade at h
  split at h
  · cases h
  · split at h
    · rename_i ae
      have harms : (onMatch s).armedEvents = s.armedEvents := (congrArg Desk.armedEvents hmatch :)
      exact Does.after hmatch (does_gatewayWin hdrv (harms ▸ hgw ae rfl) (Option.some.inj h))
    · exact Does.after hmatch (does_fireBoundaryArm hdrv (Option.some.inj h))
    · exact Does.after hmatch (does_fireEventSub hdrv (Option.some.inj h))
    · cases h

theorem does_reinvoke {tr : TimerRecord} (hmem : tok ∈ s.tokens) (hn : Named d0 (.timerFired tr.timerID) tok)
    (hcmd : tok.awaitCommand = tr.timerID) (h : reinvokeServiceAction c (s.removeTimer tr.timerID) tok = .ok r) :
    Does c.ids (.timerFired tr.timerID) d0 s r := by
  have hrem : Does c.ids (.timerFired tr.timerID) d0 s ⟨s.removeTimer tr.timerID, []⟩ := does_removeTimer s rfl
  refine hrem.silently ?_
  have htoks : (s.removeTimer tr.timerID).tokens = s.tokens := by
    rw [InstanceState.removeTimer_control]
  set x := s.removeTimer tr.timerID with hx
  have hxmem : tok ∈ x.tokens := by
    rw [htoks]
    exact hmem
  unfold reinvokeServiceAction at h
  split at h
  · cases h
  · split at h
    · cases h
    · rename_i node hnode
      have hid : node.id = tok.nodeID := by
        unfold ProcessDefinition.node at hnode
        simpa using List.find?_some hnode
      obtain ⟨arms, m, armCmds, invoke, hst, hhost, hsch, hcmds, hcorr, hkind⟩ := emitActionInvoke_spec h
      have hact : Act c.ids (.timerFired tr.timerID) d0 x.desk _ _ := Act.reinvoke tok
        (expecting (c.ids.newID .command (x.cmdSeq + 1))) invoke arms m armCmds hxmem hn (by rw [hcmd])
        (expecting_expects _) hcorr hkind (arming_boundaries (hid ▸ hhost) hsch)
      unfold Does
      rw [hst, hcmds]
      exact hact.acts

theorem does_tokenTimer {timerID : String} (hdrv : DoesDrive c.ids (.timerFired timerID) s.desk drv)
    (h : handleTokenTimer drv c s timerID = .ok r) : Does c.ids (.timerFired timerID) s.desk s r := by
  unfold handleTokenTimer at h
  split at h
  · rw [← Except.ok.inj h]
    exact Does.refl s
  · rename_i tok htok
    obtain ⟨hmem, hcmd, hne⟩ := tokenAwaiting_some htok
    split at h
    · rw [← Except.ok.inj h]
      exact Does.refl s
    · dsimp only at h
      obtain ⟨td, -, h⟩ := bind_ok h
      have hrem : Does c.ids (.timerFired timerID) s.desk s ⟨s.removeTimer timerID, []⟩ := does_removeTimer s rfl
      set x := s.removeTimer timerID with hx
      have hxctl : x.toControlState = s.toControlState := s.removeTimer_control timerID
      have hxba : x.boundaries = s.boundaries := by
        rw [hx]
        unfold InstanceState.removeTimer
        split <;> rfl
      have hxmem : tok ∈ x.tokens := by
        rw [hxctl]
        exact hmem
      have hnamed : Named s.desk (.timerFired timerID) tok := named_of hmem hcmd hne (hcmd ▸ Replies.timer)
      -- the timers go while the token still waits
      have hdrop : Does c.ids (.timerFired timerID) s.desk x (x.cancelTimersForToken tok.id timerID) :=
        does_cancelTimersWhere x _ _ _
      set y := (x.cancelTimersForToken tok.id timerID).state with hy
      have hyctl : y.toControlState = x.toControlState := x.cancelTimersForToken_control tok.id timerID
      have hyba : y.boundaries = x.boundaries := by
        rw [hy]
        unfold InstanceState.cancelTimersForToken InstanceState.cancelTimersWhere
        split <;> rfl
      have hymem : tok ∈ y.tokens := by
        rw [hyctl]
        exact hxmem
      have hfree : Does c.ids (.timerFired timerID) s.desk y ⟨y.onControl (·.updateToken tok.id freed), []⟩ :=
        does_free hymem hnamed freed_clears (Or.inr ⟨hyba.trans hxba, Or.inr ⟨timerID, rfl⟩⟩) (by
          rintro (⟨_, _, _, _, h⟩ | ⟨id, h, hne⟩)
          · cases h
          · injection h with h
            exact absurd (h.symm.trans hcmd.symm) hne)
      have hto : Does c.ids (.timerFired timerID) s.desk s
          ⟨y.onControl (·.updateToken tok.id freed), (x.cancelTimersForToken tok.id timerID).commands⟩ := by
        have hall := Acts.trans hrem (Acts.trans hdrop hfree)
        rw [List.append_nil] at hall
        exact hall
      have hcomm : ((clearAwaitOf tok x).cancelTimersForToken tok.id timerID).commands =
          (x.cancelTimersForToken tok.id timerID).commands ∧
          ((clearAwaitOf tok x).cancelTimersForToken tok.id timerID).state = clearAwaitOf tok y := by
        rw [hy]
        unfold InstanceState.cancelTimersForToken InstanceState.cancelTimersWhere
        split <;> exact ⟨rfl, rfl⟩
      unfold resumeAndDrive at h
      rw [hcomm.1, hcomm.2, clear_activate] at h
      exact does_thenMove hdrv hto (running_update hymem (freed_clears tok).toSame rfl) h

/-- The deadline of a task: the token leaves by the deadline flow, with its task cancelled. -/
theorem does_deadline {tr : TimerRecord} (htr : tr ∈ s.timers)
    (hdrv : DoesDrive c.ids (.timerFired tr.timerID) s.desk drv)
    (h : handleDeadlineFired drv c s tr = .ok r) : Does c.ids (.timerFired tr.timerID) s.desk s r := by
  have hrem : Does c.ids (.timerFired tr.timerID) s.desk s ⟨s.removeTimer tr.timerID, []⟩ := does_removeTimer s rfl
  unfold handleDeadlineFired at h
  split at h
  · rw [← Except.ok.inj h]
    exact hrem
  · rename_i tok htok
    obtain ⟨hmem, hcmd, hne⟩ := tokenAwaiting_some htok
    dsimp only at h
    split at h
    · rw [← Except.ok.inj h]
      exact hrem
    · rename_i hclosed
      obtain ⟨td, -, h⟩ := bind_ok h
      split at h
      · cases h
      · rename_i node _
        split at h
        · cases h
        · split at h
          · cases h
          · rename_i f _
            refine does_thenDrive hdrv ?_ h
            have hnamed : Named s.desk (.timerFired tr.timerID) tok :=
              named_of hmem hcmd hne (Replies.deadline tr htr hcmd.symm)
            have hfire : Does c.ids (.timerFired tr.timerID) s.desk s (emitFireOnceAction c.ids s node.deadlineOf.2.2) :=
              does_fireOnce s _
            obtain ⟨htoks, hbas⟩ := fireOnce_tokens (g := c.ids) s node.deadlineOf.2.2
            have htasks : (emitFireOnceAction c.ids s node.deadlineOf.2.2).state.tasks = s.tasks := by
              unfold emitFireOnceAction
              split <;> rfl
            set x := (emitFireOnceAction c.ids s node.deadlineOf.2.2).state with hx
            have hxmem : tok ∈ x.tokens := by
              rw [htoks]
              exact hmem
            have hdis : Disarmed s.desk x.desk (.timerFired tr.timerID) tok := Or.inr ⟨hbas, Or.inr ⟨_, rfl⟩⟩
            -- the move is the last thing that happens to the token
            have hmove : ∀ {y : InstanceState} {cmds : List Command}, y.toControlState = x.toControlState →
                Does c.ids (.timerFired tr.timerID) s.desk x ⟨y.onControl (·.updateToken tok.id freed), cmds⟩ →
                Does c.ids (.timerFired tr.timerID) s.desk x
                ⟨y.onControl (fun a => (a.updateToken tok.id freed).moveTokenToTargetAs
                  tok f.flow.target f.identity c.at_ .deadlineExpired), cmds⟩ := by
              intro y cmds hy hd
              have hymem : tok ∈ y.tokens := by
                rw [hy]
                exact hxmem
              have hrun := running_update (x := y) hymem (freed_clears tok).toSame rfl
              have hall := Acts.trans hd (does_moveTo hrun f.flow.target f.identity c.at_ .deadlineExpired)
              rw [List.append_nil] at hall
              exact hall
            have hfin : ∀ {y : InstanceState} {cmds : List Command}, Does c.ids (.timerFired tr.timerID) s.desk x ⟨y, cmds⟩ →
                Does c.ids (.timerFired tr.timerID) s.desk s
                  ⟨(y.cancelTimersByTaskID tr.taskID tr.timerID).state.removeTimer tr.timerID,
                    (emitFireOnceAction c.ids s node.deadlineOf.2.2).commands ++ cmds ++
                      (y.cancelTimersByTaskID tr.taskID tr.timerID).commands⟩ := by
              intro y cmds hd
              have h1 := Acts.trans hfire hd
              have h2 : Does c.ids (.timerFired tr.timerID) s.desk y (y.cancelTimersByTaskID tr.taskID tr.timerID) :=
                does_cancelTimersWhere y _ _ _
              have h3 : Does c.ids (.timerFired tr.timerID) s.desk (y.cancelTimersByTaskID tr.taskID tr.timerID).state
                  ⟨(y.cancelTimersByTaskID tr.taskID tr.timerID).state.removeTimer tr.timerID, []⟩ := does_removeTimer _ rfl
              have hall := Acts.trans (Acts.trans h1 h2) h3
              rw [List.append_nil] at hall
              exact hall
            cases htask : s.taskByID tr.taskID with
            | none =>
              dsimp only
              have hfree : Does c.ids (.timerFired tr.timerID) s.desk x ⟨x.onControl (·.updateToken tok.id freed), []⟩ :=
                does_free hxmem hnamed freed_clears hdis (fun _ ht hht => by
                  rw [hcmd]
                  exact taskByID_none (hcmd ▸ hnamed.await) htask ht (htasks ▸ hht))
              exact hfin (hmove rfl hfree)
            | some task =>
              dsimp only
              rw [htask] at hclosed
              have hopen : task.isOpen = true := by simpa using hclosed
              have hfind : x.desk.tasks.find? (fun t => t.taskID == tok.awaitCommand) = some task := by
                change x.tasks.find? _ = _
                rw [htasks, hcmd]
                exact (taskByID_some htask).2
              have hfree : Does c.ids (.timerFired tr.timerID) s.desk x
                  ⟨(x.updateTask tr.taskID HumanTask.cancel).onControl (·.updateToken tok.id freed),
                    [.updateTask task.cancel]⟩ := by
                have hact : Act c.ids (.timerFired tr.timerID) s.desk x.desk _ _ := Act.finishTask tok freed task
                  HumanTask.cancel hxmem hnamed freed_clears hdis hfind hopen (fun t => ⟨rfl, rfl⟩)
                rw [hcmd] at hact
                exact Does.of_act hact
              exact hfin (hmove (y := x.updateTask tr.taskID HumanTask.cancel) rfl hfree)

theorem does_reminder {tr : TimerRecord} (h : handleReminderFired c s tr = .ok r) :
    Does c.ids (.timerFired tr.timerID) d0 s r := by
  have hrem : Does c.ids (.timerFired tr.timerID) d0 s ⟨s.removeTimer tr.timerID, []⟩ := does_removeTimer s rfl
  unfold handleReminderFired at h
  split at h
  · rw [← Except.ok.inj h]
    exact hrem
  · split at h
    · rw [← Except.ok.inj h]
      exact hrem
    · obtain ⟨td, -, h⟩ := bind_ok h
      split at h
      · cases h
      · rw [← Except.ok.inj h]
        exact does_fireOnce s _

theorem mapError_ok {ε ε' α : Type} {f : ε → ε'} {e : Except ε α} {a : α} (h : e.mapError f = .ok a) : e = .ok a := by
  cases e with
  | error e => cases h
  | ok a' =>
    cases h
    rfl

theorem does_timerFired {timerID : String} (hdrv : DoesDrive c.ids (.timerFired timerID) s.desk drv)
    (hflight : s.status = .compensating → s.InFlight)
    (h : handleTimerFired drv c s timerID = .ok r) : Does c.ids (.timerFired timerID) s.desk s r := by
  unfold handleTimerFired at h
  split at h
  · rename_i r1 hcascade
    rw [h] at hcascade
    exact does_cascade hdrv rfl (fun ae hae => armByTimer_mem hae) hcascade
  · split at h
    · exact does_tokenTimer hdrv h
    · rename_i tr htr
      obtain ⟨hmem, hid, hne⟩ := timerByID_some htr
      subst hid
      split at h
      · rw [← Except.ok.inj h]
        unfold InstanceState.removeTimer
        rw [if_neg (by simpa using hne)]
        refine Does.of_act (Act.dropTimers (fun t => t.timerID != tr.timerID) "" _ (Or.inl rfl) ⟨fun cmd hcmd => ?_,
          fun id hin _ => Or.inr ?_⟩)
        · rw [List.mem_singleton.mp hcmd]
          exact ⟨tr.timerID, List.mem_map.mpr ⟨tr, List.mem_filter.mpr ⟨hmem, by simp⟩, rfl⟩, rfl⟩
        · obtain ⟨t, ht, rfl⟩ := List.mem_map.mp hin
          have heq : t.timerID = tr.timerID := by simpa using (List.mem_filter.mp ht).2
          rw [heq]
          exact List.mem_singleton.mpr rfl
      · split at h
        · exact does_deadline hmem hdrv h
        · exact does_reminder h
        · unfold handleRetryFired at h
          split at h
          · rw [← Except.ok.inj h]
            exact Does.refl s
          · rename_i tok htok
            obtain ⟨htmem, hcmd, hcne⟩ := tokenAwaiting_some htok
            have hnamed : Named s.desk (.timerFired tr.timerID) tok := named_of htmem hcmd hcne (hcmd ▸ Replies.timer)
            exact does_reinvoke htmem hnamed hcmd (mapError_ok h)
        · rw [← Except.ok.inj h]
          have hrem : Does c.ids (.timerFired tr.timerID) s.desk s ⟨s.removeTimer tr.timerID, []⟩ := does_removeTimer s rfl
          unfold handleCompensationStallFired
          dsimp only
          split
          · exact hrem
          · exact hrem.silently (does_report _ (fun _ => rfl) (fun _ => rfl) (fun _ => by simp) (fun _ h => nomatch h))
        · rename_i hkind
          exact does_retryFailed hdrv rfl hmem hkind rfl hflight h
        · exact does_tokenTimer hdrv h

/-! ## Signals and messages -/

theorem markMatched_desk (matched : Bool) (payload : Vars) (s : InstanceState) :
    (markMatched matched payload s).desk = s.desk := by
  unfold markMatched
  split <;> rfl

/-- The token that hears a signal: its timers go, it goes on. -/
theorem does_hearSignal (hdrv : DoesDrive c.ids trg d0 drv) (hx : x.desk = s.desk) (hmem : tok ∈ s.tokens)
    (hne : tok.awaitSignal ≠ "")
    (h : resumeAndDrive drv c td
      ((x.onControl (·.updateToken tok.id (fun t => { t with awaitSignal := "" }))).cancelTimersForToken tok.id "").state tok
      ((x.onControl (·.updateToken tok.id (fun t => { t with awaitSignal := "" }))).cancelTimersForToken tok.id "").commands =
        .ok r) : Does c.ids trg d0 s r := by
  set k : Token → Token := fun t => { t with awaitSignal := "", state := .active } with hk
  have hxmem : tok ∈ x.tokens := by
    have htoks : x.tokens = s.tokens := (congrArg (fun d : Desk => d.tokens) hx :)
    rw [htoks]
    exact hmem
  have hhears : tok.Hears (k tok) := ⟨⟨rfl, rfl, rfl⟩, rfl, rfl, rfl, Or.inl ⟨hne, rfl, rfl⟩⟩
  have hhear : Does c.ids trg d0 x ⟨x.onControl (·.updateToken tok.id k), []⟩ :=
    Does.of_act (Act.hear tok k hxmem hhears (fun _ => rfl) (Or.inl hne))
  have hdrop : Does c.ids trg d0 (x.onControl (·.updateToken tok.id k))
      ((x.onControl (·.updateToken tok.id k)).cancelTimersForToken tok.id "") := does_cancelTimersWhere _ _ _ _
  have hto := Does.after hx (hhear.silently hdrop)
  -- the signal is taken before the token goes active: one update either way
  have hfuse := x.toControlState.updateToken_updateToken tok.id (fun t => { t with awaitSignal := "" })
    (fun t => { t with state := .active }) (fun _ => rfl)
  have hstate : ((x.onControl (·.updateToken tok.id (fun t => { t with awaitSignal := "" }))).cancelTimersForToken tok.id
      "").state.onControl (·.setTokenState tok.id .active) =
      ((x.onControl (·.updateToken tok.id k)).cancelTimersForToken tok.id "").state ∧
      ((x.onControl (·.updateToken tok.id (fun t => { t with awaitSignal := "" }))).cancelTimersForToken tok.id "").commands =
      ((x.onControl (·.updateToken tok.id k)).cancelTimersForToken tok.id "").commands := by
    have hctl : (x.onControl (·.updateToken tok.id (fun t => { t with awaitSignal := "" }))).onControl
        (·.setTokenState tok.id .active) = x.onControl (·.updateToken tok.id k) :=
      congrArg (fun ctl => x.onControl (fun _ => ctl)) hfuse
    rw [← hctl]
    unfold InstanceState.cancelTimersForToken InstanceState.cancelTimersWhere
    split <;> exact ⟨rfl, rfl⟩
  unfold resumeAndDrive at h
  rw [hstate.1, hstate.2] at h
  have hrun : Running ((x.onControl (·.updateToken tok.id k)).cancelTimersForToken tok.id "").state tok (k tok) := by
    have hr := running_update hxmem hhears.toSame rfl
    refine ⟨?_, hr.active, hr.id, hr.nodeID⟩
    rw [InstanceState.cancelTimersForToken_control]
    exact hr.mem
  exact does_thenMove hdrv hto hrun h

theorem does_fireTier (hdrv : DoesDrive c.ids trg d0 drv) (hname : name ≠ "") {payload : Vars}
    {matched : Bool} {tier : SignalTier} (h : fireTier drv c name payload matched s tier = some (.ok r)) :
    Does c.ids trg d0 s r := by
  have hx := markMatched_desk matched payload s
  unfold fireTier at h
  split at h
  · obtain ⟨ae, hae, h⟩ := Option.map_eq_some_iff.mp h
    have hmem : ae ∈ (markMatched matched payload s).armedEvents := by
      have harms : (markMatched matched payload s).armedEvents = s.armedEvents := (congrArg Desk.armedEvents hx :)
      rw [harms]
      unfold InstanceState.armedEventByID at hae
      split at hae
      · cases hae
      · exact List.mem_of_find?_eq_some hae
    exact Does.after hx (does_gatewayWin hdrv hmem h)
  · obtain ⟨ba, -, h⟩ := Option.map_eq_some_iff.mp h
    exact Does.after hx (does_fireBoundaryArm hdrv h)
  · obtain ⟨ea, -, h⟩ := Option.map_eq_some_iff.mp h
    exact Does.after hx (does_fireEventSub hdrv h)
  · obtain ⟨tok, htok, h⟩ := Option.map_eq_some_iff.mp h
    obtain ⟨hfind, hsig⟩ := Option.filter_eq_some_iff.mp htok
    obtain ⟨hmem, -, -⟩ := tokenByID_some _ hfind
    have hne : tok.awaitSignal ≠ "" := by
      have heq : tok.awaitSignal = name := by simpa using hsig
      rw [heq]
      exact hname
    dsimp only at h
    obtain ⟨td, -, h⟩ := bind_ok h
    exact does_hearSignal hdrv hx hmem hne h

theorem does_fireTiers (hdrv : DoesDrive c.ids trg d0 drv) (hname : name ≠ "") {payload : Vars}
    (tiers : List SignalTier) {resolved : List String} {matched : Bool}
    (h : fireTiers drv c name payload tiers resolved matched s = .ok r) : Does c.ids trg d0 s r := by
  induction tiers generalizing s r resolved matched with
  | nil =>
    rw [← Except.ok.inj h]
    exact Does.refl s
  | cons tier tiers ih =>
    unfold fireTiers at h
    split at h
    · rw [← Except.ok.inj h]
      exact Does.refl s
    · split at h
      · exact ih h
      · split at h
        · exact ih h
        · rename_i res hres
          obtain ⟨r1, h1, h⟩ := bind_ok h
          obtain ⟨r2, h2, h⟩ := bind_ok h
          rw [← Except.ok.inj h]
          rw [h1] at hres
          exact (does_fireTier hdrv hname hres).trans (ih h2)

/-- A token that parks again may as well go active before. -/
theorem parkOnCompletion_active (x : InstanceState) (tok : Token) (cmds : List Command) :
    parkOnCompletionAction c td (x.onControl (·.setTokenState tok.id .active)) tok cmds =
      parkOnCompletionAction c td x tok cmds := by
  have hfuse := (x.nextCommandID c.ids).1.toControlState.updateToken_updateToken tok.id (fun t => { t with state := .active })
    (expecting (c.ids.newID .command (x.cmdSeq + 1))) (fun _ => rfl)
  have hctl : ((x.onControl (·.setTokenState tok.id .active)).nextCommandID c.ids).1.onControl
      (·.awaitCommand tok.id (c.ids.newID .command (x.cmdSeq + 1))) =
      (x.nextCommandID c.ids).1.onControl (·.awaitCommand tok.id (c.ids.newID .command (x.cmdSeq + 1))) :=
    congrArg (fun ctl => (x.nextCommandID c.ids).1.onControl (fun _ => ctl)) hfuse
  unfold parkOnCompletionAction
  split
  · rfl
  · extract_lets ca
    split
    · rfl
    · exact congrArg (fun st => some (StepResult.mk st (cmds ++ [.invokeAction (c.ids.newID .command (x.cmdSeq + 1)) ca
        x.vars false]))) hctl

/-- The update of a token that hears a message. -/
def told (t : Token) : Token := { t with awaitMessage := "", awaitMessageKey := "" }

/-- The token that hears a message: its timers and boundaries go, it is free. -/
theorem does_hearMessage (hs : s.desk.Sane) (hx : x.desk = s.desk) (hmem : tok ∈ s.tokens) (hne : tok.awaitMessage ≠ "") :
    let r1 := (x.onControl (·.updateToken tok.id told)).cancelTimersForToken tok.id ""
    let r2 := r1.state.removeBoundaryArmsForHost tok.id
    Does c.ids trg d0 s ⟨r2.state.onControl (·.setTokenState tok.id .active), r1.commands ++ r2.commands⟩ ∧
      ∃ t, Running (r2.state.onControl (·.setTokenState tok.id .active)) tok t := by
  have hid := hs.named tok hmem
  have hid' : ¬ (tok.id == "") = true := by simpa using hid
  set k : Token → Token := fun t => { told t with state := .active } with hk
  set y := (x.removeBoundaryArmsForHost tok.id).state with hy
  have hyeq : y = { x with boundaries := x.boundaries.filter (fun ba => !(ba.hostToken == tok.id)) } := by
    rw [hy]
    unfold InstanceState.removeBoundaryArmsForHost
    rw [if_neg hid']
  have hymem : tok ∈ y.tokens := by
    have htoks : x.tokens = s.tokens := (congrArg (fun d : Desk => d.tokens) hx :)
    rw [hyeq]
    change tok ∈ x.tokens
    rw [htoks]
    exact hmem
  have hhears : tok.Hears (k tok) := ⟨⟨rfl, rfl, rfl⟩, rfl, rfl, rfl, Or.inr ⟨hne, rfl, rfl⟩⟩
  have hdrop : Does c.ids trg d0 x (x.removeBoundaryArmsForHost tok.id) := does_removeBoundaries x tok.id
  have hhear : Does c.ids trg d0 y ⟨y.onControl (·.updateToken tok.id k), []⟩ :=
    Does.of_act (Act.hear tok k hymem hhears (fun _ => rfl) (Or.inr (removeBoundaries_gone x hid)))
  set z := y.onControl (·.updateToken tok.id k) with hz
  have htimers : Does c.ids trg d0 z (z.cancelTimersForToken tok.id "") := does_cancelTimersWhere z _ _ _
  have hfuse := x.toControlState.updateToken_updateToken tok.id told (fun t => { t with state := .active }) (fun _ => rfl)
  have hctl : (x.onControl (·.updateToken tok.id told)).onControl (·.setTokenState tok.id .active) =
      x.onControl (·.updateToken tok.id k) := congrArg (fun ctl => x.onControl (fun _ => ctl)) hfuse
  have hstate : (((x.onControl (·.updateToken tok.id told)).cancelTimersForToken tok.id "").state.removeBoundaryArmsForHost
      tok.id).state.onControl (·.setTokenState tok.id .active) = (z.cancelTimersForToken tok.id "").state := by
    have hz' : z = { ((x.onControl (·.updateToken tok.id told)).onControl (·.setTokenState tok.id .active)) with
        boundaries := x.boundaries.filter (fun ba => !(ba.hostToken == tok.id)) } := by
      rw [hctl, hz, hyeq]
      rfl
    rw [hz']
    unfold InstanceState.removeBoundaryArmsForHost InstanceState.cancelTimersForToken InstanceState.cancelTimersWhere
    simp only [if_neg hid']
    rfl
  have hcmds1 : ((x.onControl (·.updateToken tok.id told)).cancelTimersForToken tok.id "").commands =
      (z.cancelTimersForToken tok.id "").commands := by
    rw [hz, hyeq]
    unfold InstanceState.cancelTimersForToken InstanceState.cancelTimersWhere
    simp only [if_neg hid']
    rfl
  have hcmds2 : (((x.onControl (·.updateToken tok.id told)).cancelTimersForToken tok.id "").state.removeBoundaryArmsForHost
      tok.id).commands = (x.removeBoundaryArmsForHost tok.id).commands := by
    unfold InstanceState.removeBoundaryArmsForHost InstanceState.cancelTimersForToken InstanceState.cancelTimersWhere
    simp only [if_neg hid']
    rfl
  dsimp only
  rw [hstate, hcmds1, hcmds2]
  constructor
  · have hall := Acts.trans hdrop (Acts.trans hhear htimers)
    rw [hx] at hall
    exact Acts.perm hall List.perm_append_comm
  · have hr := running_update hymem hhears.toSame rfl
    refine ⟨k tok, ?_, hr.active, hr.id, hr.nodeID⟩
    rw [InstanceState.cancelTimersForToken_control]
    exact hr.mem

theorem does_messageReceived (hdrv : DoesDrive c.ids trg d0 drv) {key : String} {payload : Vars}
    (h : handleMessageReceived drv c s name key payload = .ok r) : Does c.ids trg d0 s r := by
  unfold handleMessageReceived at h
  split at h
  · rename_i r1 hcascade
    rw [h] at hcascade
    exact does_cascade hdrv rfl (fun ae hae => armByMessage_mem hae) hcascade
  · split at h
    · rw [← Except.ok.inj h]
      exact Does.refl s
    · rename_i tok htok
      split at h
      · rw [← Except.ok.inj h]
        exact Does.refl s
      · obtain ⟨hmem, hname, hne⟩ := tokenAwaitingMessage_some htok
        refine Acts.sane_or (fun hs => ?_)
        dsimp only at h
        obtain ⟨td, -, h⟩ := bind_ok h
        have hsilent : tok.awaitMessage ≠ "" := by
          rw [hname]
          exact hne
        obtain ⟨hto, t, hrun⟩ :=
          @does_hearMessage trg d0 s (s.mergeVars payload) c tok hs (mergeVars_desk s payload) hmem hsilent
        split at h
        · rename_i r1 hpark
          rw [← Except.ok.inj h]
          have hpark' := (parkOnCompletion_active _ _ _).trans hpark
          exact does_parkOnCompletion hto hrun hpark'
        · exact does_thenMove hdrv hto hrun h

/-! ## Child instances and incidents -/

theorem does_childCompleted {output : Vars}
    (hdrv : DoesDrive c.ids (.subInstanceCompleted cmdID output) s.desk drv)
    (h : handleSubInstanceCompleted drv c s cmdID output = .ok r) :
    Does c.ids (.subInstanceCompleted cmdID output) s.desk s r := by
  unfold handleSubInstanceCompleted at h
  split at h
  · cases h
  · rename_i tok htok
    obtain ⟨hmem, hcmd, hne⟩ := tokenAwaiting_some htok
    dsimp only at h
    obtain ⟨td, -, h⟩ := bind_ok h
    have hnamed : Named s.desk (.subInstanceCompleted cmdID output) tok :=
      named_of hmem hcmd hne (hcmd ▸ Replies.childCompleted output)
    set x := s.mergeVars output with hx
    have hxdesk : x.desk = s.desk := mergeVars_desk s output
    have hfree : Does c.ids (.subInstanceCompleted cmdID output) s.desk x ⟨x.onControl (·.updateToken tok.id freed), []⟩ :=
      does_free (x := x) hmem hnamed freed_clears (Or.inr ⟨rfl, Or.inl ⟨output, by rw [hcmd]⟩⟩)
        (by rintro (⟨_, _, _, _, h⟩ | ⟨_, h, _⟩) <;> cases h)
    unfold resumeAndDrive at h
    rw [clear_activate] at h
    exact does_thenMove hdrv (Does.after hxdesk hfree) (running_update (x := x) hmem (freed_clears tok).toSame rfl) h

/-- The token of a failed child is consumed with its boundary arms. -/
theorem does_consumeCallActivity (hs : s.desk.Sane) (hmem : tok ∈ s.tokens)
    (hcmd : tok.awaitCommand = cmdID) (hne : cmdID ≠ "") :
    Does c.ids (.subInstanceFailed cmdID err) s.desk (emitFireOnceAction c.ids s name).state
      (consumeCallActivity c tok (emitFireOnceAction c.ids s name).state) := by
  have hnamed : Named s.desk (.subInstanceFailed cmdID err) tok := named_of hmem hcmd hne (hcmd ▸ Replies.childFailed err)
  set y := (emitFireOnceAction c.ids s name).state with hy
  have hytok : y.tokens = s.tokens := (fireOnce_tokens (g := c.ids) s name).1
  have hdrop : Does c.ids (.subInstanceFailed cmdID err) s.desk y (y.removeBoundaryArmsForHost tok.id) :=
    does_removeBoundaries y tok.id
  have hfailing : Failing s.desk (.subInstanceFailed cmdID err) (y.removeBoundaryArmsForHost tok.id).state tok := by
    refine ⟨?_, hnamed, removeBoundaries_gone y (hs.named tok hmem), Or.inr ⟨err, by rw [hcmd]⟩⟩
    rw [InstanceState.removeBoundaryArmsForHost_control, hytok]
    exact hmem
  have hall := Acts.trans hdrop (does_lose hfailing c.at_ .boundaryInterrupted)
  rw [List.append_nil] at hall
  exact hall

theorem does_childFailed (hdrv : DoesDrive c.ids (.subInstanceFailed cmdID err) s.desk drv)
    (h : handleSubInstanceFailed drv c s cmdID err = .ok r) : Does c.ids (.subInstanceFailed cmdID err) s.desk s r := by
  unfold handleSubInstanceFailed at h
  split at h
  · cases h
  · rename_i tok htok
    obtain ⟨hmem, hcmd, hne⟩ := tokenAwaiting_some htok
    refine Acts.sane_or (fun hs => ?_)
    obtain ⟨td, -, h⟩ := bind_ok h
    split at h
    · exact does_routeToBoundary hdrv (does_consumeCallActivity hs hmem hcmd hne) h
    · rw [← Except.ok.inj h]
      have hterm : ∀ cmd ∈ some (Command.failInstance err), cmd.Neutral := by
        intro cmd hcmd
        cases hcmd
        trivial
      have hend : Does c.ids (.subInstanceFailed cmdID err) s.desk
          (s.onControl (fun s => s.note (.childFailed err s.compensating)))
          ((s.onControl (fun s => s.note (.childFailed err s.compensating))).endInstance .failed c.at_
            (some (.failInstance err))) := does_end _ rfl c.at_ hterm
      exact Does.after rfl hend

theorem does_resolveIncident {incID : String} {n : Int} (h : handleResolveIncident c s incID n = .ok r) :
    Does c.ids (.resolveIncident incID n) s.desk s r := by
  unfold handleResolveIncident at h
  split at h
  · rw [← Except.ok.inj h]
    exact Does.refl s
  · rename_i inc hinc
    have hid : inc.id = incID := by simpa using List.find?_some hinc
    subst hid
    split at h
    · cases h
    · rename_i hkind
      dsimp only at h
      split at h
      · rename_i hnone
        rw [← Except.ok.inj h]
        refine Acts.sane_or (fun hs => Act.acts (Act.resolveGone inc hinc (by simpa using hkind) (fun t ht hid => ?_)))
        have hfind := tokenByID_of_sane hs ht
        rw [hid] at hfind
        exact absurd (hfind.symm.trans hnone) (by simp)
      · rename_i tok htok
        obtain ⟨hmem, hid, hne⟩ := tokenByID_some _ htok
        unfold reinvokeServiceAction at h
        split at h
        · cases h
        · split at h
          · cases h
          · rename_i node hnode
            have hnid : node.id = tok.nodeID := by
              unfold ProcessDefinition.node at hnode
              simpa using List.find?_some hnode
            obtain ⟨arms, m, armCmds, invoke, hst, hhost, hsch, hcmds, hcorr, hkind'⟩ := emitActionInvoke_spec h
            set f1 : Token → Token :=
              fun t => { t with retryAttempts := max 0 (t.retryAttempts - n), state := .active } with hf1
            set cmdID := c.ids.newID .command (s.cmdSeq + 1) with hcmdID
            set f : Token → Token := fun t => expecting cmdID (f1 t) with hf
            have hact : Act c.ids (.resolveIncident inc.id n) s.desk s.desk _ _ := Act.resolve inc tok f invoke arms m
              armCmds n rfl rfl hinc (by simpa using hkind) hmem hid.symm
              (fun t => ⟨⟨rfl, rfl, rfl⟩, rfl, rfl, rfl, rfl, rfl⟩) hcorr hkind' (arming_boundaries (hnid ▸ hhost) hsch)
            unfold Does
            rw [hcmds]
            have hdesk : r.state.desk = { s.desk.update tok.id f with
                incidents := s.desk.incidents.eraseP (fun i => i.id == inc.id), boundaries := s.desk.boundaries ++ arms,
                cmdSeq := s.desk.cmdSeq + 1, timerSeq := m } := by
              have hfuse := ({ s.toControlState.note (.resolved tok s.deferredCompensationThrows) with
                cmdSeq := s.cmdSeq + 1 } : ControlState).updateToken_updateToken tok.id f1 (expecting cmdID) (fun _ => rfl)
              have hfront : (({ s.toControlState.note (.resolved tok s.deferredCompensationThrows) with
                  cmdSeq := s.cmdSeq + 1 } : ControlState).updateToken tok.id f).front =
                  { s.toControlState.front with
                    tokens := s.tokens.map (fun t => if t.id == tok.id then f t else t), cmdSeq := s.cmdSeq + 1 } := rfl
              rw [hst]
              refine (congrArg (fun fr : Front =>
                ({ s.desk with
                  toFront := fr, incidents := s.desk.incidents.eraseP (fun i => i.id == inc.id),
                  boundaries := s.desk.boundaries ++ arms, timerSeq := m } : Desk))
                ((congrArg ControlState.front hfuse).trans hfront)).trans ?_
              rfl
            rw [hdesk]
            exact hact.acts

/-! ## Every trigger -/

theorem handle_does (hdrv : DoesDrive c.ids trg s.desk drv) (hkey : validateTriggerKey trg = .ok ())
    (hflight : s.status = .compensating → s.InFlight) (h : handle drv c s trg = .ok r) : Does c.ids trg s.desk s r := by
  have hedit : ∀ {f : HumanTask → HumanTask} {taskID : String} {e : EngineError},
      (∀ t : HumanTask, t.isOpen = true → (f t).isOpen = true ∧ (f t).taskID = t.taskID ∧ (f t).nodeID = t.nodeID) →
      trg.edits = true → withOpenTask s taskID (.error e) f = .ok r → Does c.ids trg s.desk s r := fun hf htrg h =>
    does_withOpenTask (fun r hr => by cases hr) hf htrg h
  unfold handle at h
  split at h
  · exact does_start hdrv h
  · exact does_actionCompleted hdrv h
  · refine does_actionFailed hdrv ?_ h
    rintro rfl
    cases hkey
  · exact does_humanCompleted hdrv h
  · unfold handleHumanCandidatesResolved at h
    refine does_withOpenTask (fun r hr => (Except.ok.inj hr).symm) ?_ rfl h
    exact fun t ht => ⟨ht, rfl, rfl⟩
  · unfold handleHumanClaimed at h
    refine hedit ?_ rfl h
    exact fun t ht => ⟨rfl, rfl, rfl⟩
  · unfold handleHumanReassigned at h
    refine hedit ?_ rfl h
    exact fun t ht => ⟨rfl, rfl, rfl⟩
  · exact does_timerFired hdrv hflight h
  · rename_i name payload
    have hname : name ≠ "" := by
      intro he
      subst he
      cases hkey
    exact does_fireTiers hdrv hname _ h
  · exact does_messageReceived hdrv h
  · exact does_childCompleted hdrv h
  · exact does_childFailed hdrv h
  · exact does_compensateRequested hdrv h
  · exact does_cancelRequested hdrv h
  · exact does_resolveIncident h
  · refine does_resolveStall hdrv ?_ h
    rintro rfl
    cases hkey

/-- Whatever `dispatch` returns, it got there by acts. -/
theorem dispatch_does {fuel : Nat} (hkey : validateTriggerKey trg = .ok ())
    (hflight : s.status = .compensating → s.InFlight) (h : dispatch (drive c fuel) c s trg = .ok r) :
    Does c.ids trg s.desk s r := by
  unfold dispatch at h
  split at h
  · split at h
    · rw [← Except.ok.inj h]
      exact Does.refl s
    · cases h
    · exact handle_does (does_drive fuel) hkey hflight h
  · exact handle_does (does_drive fuel) hkey hflight h

end

end Wrkflw
