import Wrkflw.Machine.Closing

/-!
# The outcome of a handler

How a trigger handler returns: it leaves the tokens where they are, it runs the `drive` loop on a live instance, or it
ends the instance.

* `Runs`, `Fires`, `FiresAll`, `Goes` : the ways to return, with the commands each produces;
* `handle_goes` : every handler of a live instance returns in one of them.
-/

namespace Wrkflw

open ControlState
open InstanceState (cancelTimersByTaskID_control cancelTimersForToken_control mergeVars_control
  onControl_toControlState removeBoundaryArmsForHost_control removeTimer_control updateTask_control)

variable {commandID err name nodeID : String} {cmds : List Command} {s : InstanceState} {plan : FinishPlan}
  {tr : TimerRecord} {tdef : ProcessDefinition} {payload : Vars}

/-! ## The ways a handler returns -/

/-- The handler took every token out, ran the loop on a live instance, or ended the instance. -/
inductive Runs (c : StepCtx) (drv : DriveLoop) (r : StepResult) : Prop
  | empties (hable : Able r.state.toControlState) (htok : r.state.tokens = []) (hmute : Mute r.commands)
  | drives (y : InstanceState) (r' : StepResult) (cmds : List Command) (hable : Able y.toControlState)
      (hdrv : drv y = .ok r') (hr : r = r'.prepend cmds) (hmute : Mute cmds)
  | ends (h : Closes c.at_ r)

/-- The token stops where it is. -/
structure Token.Rests (t t' : Token) : Prop where
  place : t.SamePlace t'
  idle : t'.state ≠ .active
  free : t'.state ≠ .joining

/-- An arm fired: the tokens stay where they are, or the loop was run. -/
inductive Fires (c : StepCtx) (drv : DriveLoop) (x : InstanceState) (r : StepResult) : Prop
  | still (hstatus : r.state.status = x.status) (htok : r.state.tokens = x.tokens)
      (hscopes : r.state.scopes.map Scope.bare = x.scopes.map Scope.bare) (hmute : Mute r.commands)
  | runs (h : Runs c drv r)

/-- Several arms fired, each on a live instance. -/
inductive FiresAll (c : StepCtx) (drv : DriveLoop) : InstanceState → StepResult → Prop
  | nil (x : InstanceState) : FiresAll c drv x ⟨x, []⟩
  | cons {x : InstanceState} {r1 r2 : StepResult} (hlive : x.status.isTerminal = false) (h1 : Fires c drv x r1)
      (h2 : FiresAll c drv r1.state r2) : FiresAll c drv x (r2.prepend r1.commands)

/-- The ways a handler of one wait returns. -/
inductive Goes (c : StepCtx) (drv : DriveLoop) (x : InstanceState) (r : StepResult) : Prop
  | fires (h : Fires c drv x r)
  | calms (id : String) (f : Token → Token) (hf : ∀ t : Token, t.Rests (f t)) (hstatus : r.state.status = x.status)
      (htok : r.state.tokens = (x.toControlState.updateToken id f).tokens)
      (hscopes : r.state.scopes.map Scope.bare = x.scopes.map Scope.bare) (hmute : Mute r.commands)

section Ways
variable {c : StepCtx} {drv : DriveLoop} {x y : InstanceState} {r : StepResult}

theorem Runs.prepend (h : Runs c drv r) (hm : Mute cmds) : Runs c drv (r.prepend cmds) := by
  cases h with
  | empties hable htok hmute => exact .empties hable htok (mute_append.mpr ⟨hm, hmute⟩)
  | drives y r' cmds' hable hdrv hr hmute =>
    refine .drives y r' (cmds ++ cmds') hable hdrv ?_ (mute_append.mpr ⟨hm, hmute⟩)
    rw [hr]
    change (⟨r'.state, cmds ++ (cmds' ++ r'.commands)⟩ : StepResult) = ⟨r'.state, cmds ++ cmds' ++ r'.commands⟩
    rw [List.append_assoc]
  | ends h => exact .ends (h.prepend hm)

theorem Fires.prepend (h : Fires c drv x r) (hm : Mute cmds) : Fires c drv x (r.prepend cmds) := by
  cases h with
  | still hstatus htok hscopes hmute => exact .still hstatus htok hscopes (mute_append.mpr ⟨hm, hmute⟩)
  | runs h => exact .runs (h.prepend hm)

/-- Only what is done to the tokens, the scopes and the status counts. -/
theorem Fires.of_control (h : Fires c drv y r) (hctl : y.toControlState = x.toControlState) : Fires c drv x r := by
  cases h with
  | still hs ht hsc hm => exact .still (hctl ▸ hs) (hctl ▸ ht) (hctl ▸ hsc) hm
  | runs h => exact .runs h

/-- Nothing but the waits changed. -/
theorem Fires.same (hctl : r.state.toControlState = x.toControlState) (hm : Mute r.commands) : Fires c drv x r :=
  .still (by rw [hctl]) (by rw [hctl]) (by rw [hctl]) hm

theorem Goes.same (hctl : r.state.toControlState = x.toControlState) (hm : Mute r.commands) : Goes c drv x r :=
  .fires (.same hctl hm)

theorem Goes.runs (h : Runs c drv r) : Goes c drv x r := .fires (.runs h)

theorem Goes.prepend (h : Goes c drv x r) (hm : Mute cmds) : Goes c drv x (r.prepend cmds) := by
  cases h with
  | fires h => exact .fires (h.prepend hm)
  | calms id f hf hstatus htok hscopes hmute =>
    exact .calms id f hf hstatus htok hscopes (mute_append.mpr ⟨hm, hmute⟩)

theorem Goes.of_control (h : Goes c drv y r) (hctl : y.toControlState = x.toControlState) : Goes c drv x r := by
  cases h with
  | fires h => exact .fires (h.of_control hctl)
  | calms id f hf hstatus htok hscopes hmute => exact .calms id f hf (hctl ▸ hstatus) (hctl ▸ htok) (hctl ▸ hscopes) hmute

theorem thenDrive_runs {r0 : StepResult} (hable : Able r0.state.toControlState) (hm : Mute r0.commands)
    (h : thenDrive drv r0 = .ok r) : Runs c drv r := by
  obtain ⟨r', h', rfl⟩ := map_prepend_ok h
  exact .drives r0.state r' r0.commands hable h' rfl hm

/-! ## Walks -/

theorem applyTerminate_closes (htok : s.tokens = []) (hst : plan.finalStatus.Aborts) :
    Closes c.at_ (applyTerminate c s plan) := by
  have hfinal : (if plan.finalStatus == .running then Status.terminated else plan.finalStatus) = .terminated ∨
      (if plan.finalStatus == .running then Status.terminated else plan.finalStatus) = .failed := by
    rcases hst with h | h | h <;> simp [h]
  unfold applyTerminate
  refine endInstance_closes _ (Status.isTerminal_of_aborted hfinal) (Or.inr ?_) ?_
  · rw [onControl_toControlState, (sameOutline (applyPlanRecordClearing_outline plan _)).tokens]
    exact htok
  by_cases herr : (plan.finalErr != "") = true
  · rw [if_pos herr]
    exact hfinal
  · rw [if_neg herr]
    exact hfinal

theorem finishPlan_final {s : ControlState} {cur : CompensationCursor} (h : cur.finalStatus.Aborts) :
    (finishPlan s cur).finalStatus.Aborts := by
  unfold finishPlan
  split
  · exact Or.inl rfl
  · exact Or.inl rfl
  · exact Or.inl rfl
  · exact Or.inl rfl
  · exact h

/-- What a walk's beginning must do for its finish to return rightly. -/
def Begins (c : StepCtx) (drv : DriveLoop) (begin_ : InstanceState → CompensationOutcome → EngineResult) :
    Prop :=
  ∀ {s : InstanceState} {o : CompensationOutcome} {r : StepResult}, Able s.toControlState → o.finalStatus.Aborts →
    begin_ s o = .ok r → Runs c drv r

theorem pendingOutcome_final {s : ControlState} (h : s.pendingFinalStatus.Aborts) :
    (pendingOutcome s).finalStatus.Aborts := by
  unfold pendingOutcome
  rcases h with h | h | h <;> simp [h, Status.Aborts]

theorem consumePending_able {s : ControlState} (h : Fit s) : Able (consumePending plan s) := by
  have hreset : Fit { s with pendingCancel := false, pendingFinalStatus := .running, pendingFinalErr := "" } :=
    ⟨h.named, h.final, Or.inl rfl⟩
  have hcleared := hreset.of_outline (applyPlanRecordClearing_outline plan _)
  have htake : Able (takePending plan s) := ⟨⟨hcleared.named, hcleared.final, hcleared.pending⟩, rfl⟩
  exact htake.of_outline (harvest_outline _)

/-- A resume runs the instance again. -/
theorem resumeControl_able {s : ControlState} (h : Fit s) (g : IDGenerator) (at_ : Time) :
    Able (resumeControl g at_ plan s) := by
  have hcleared := h.of_outline (applyPlanRecordClearing_outline plan s)
  have hrun : Able (({ applyPlanRecordClearing plan s with status := .running } : ControlState).note
      (.resumed plan.popDeferred s.deferredCompensationThrows)) :=
    ⟨⟨hcleared.named, hcleared.final, hcleared.pending⟩, rfl⟩
  have hpop : ∀ s : ControlState, Able s → Able s.popOneDeferredThrow := by
    intro s hs
    unfold popOneDeferredThrow
    split
    · exact hs
    · dsimp only
      split
      · exact (hs.setTokenState _ .active).of_same rfl rfl
      · exact hs.of_same rfl rfl
  unfold resumeControl
  dsimp only
  split
  · refine hpop _ ?_
    split
    · exact hrun
    · exact hrun.place g _ _ _ at_
  · split
    · exact hrun
    · exact hrun.place g _ _ _ at_

theorem applyFinishWith_runs {begin_ : InstanceState → CompensationOutcome → EngineResult} (hbegin : Begins c drv begin_)
    (hfit : Fit s.toControlState) (hplan : plan.finalStatus.Aborts)
    (hseal : plan.resume = false → s.tokens = []) (h : applyFinishWith drv begin_ c s plan = .ok r) : Runs c drv r := by
  have hdel := hfit.of_outline (applyDeleteArchive_outline plan s.toControlState)
  unfold applyFinishWith at h
  dsimp only at h
  split at h
  · -- the pending cancel's own walk
    exact hbegin (consumePending_able hdel) (pendingOutcome_final hdel.pending) h
  · split at h
    · rename_i hresume
      rw [← Except.ok.inj h]
      refine .ends (applyTerminate_closes ?_ hplan)
      rw [onControl_toControlState, (sameOutline (applyDeleteArchive_outline plan _)).tokens]
      exact hseal (by simpa using hresume)
    · split at h
      · rename_i hnone
        rw [← Except.ok.inj h]
        rw [Bool.and_eq_true, List.isEmpty_iff] at hnone
        exact .ends (complete_closes hnone.2 _)
      · obtain ⟨r1, h1, h⟩ := bind_ok h
        obtain ⟨r2, h2, h⟩ := bind_ok h
        refine .drives r1.state r2 r1.commands ?_ h2 (Except.ok.inj h).symm (mute_rearmRoot h1)
        rw [rearmRoot_control h1]
        exact resumeControl_able hdel c.ids c.at_

theorem finishPlan_resumes {s : ControlState} {cur : CompensationCursor} (h : (finishPlan s cur).resume = false) :
    cur.walkMode = .admin := by
  unfold finishPlan at h
  split at h
  · cases h
  · cases h
  · cases h
  · cases h
  · assumption

theorem stepCompensationFinishWith_runs {begin_ : InstanceState → CompensationOutcome → EngineResult}
    (hbegin : Begins c drv begin_) (hfit : Fit s.toControlState) {toNode : String}
    (hseal : ({ s.compensating with toNode := toNode } : CompensationCursor).walkMode = .admin → s.tokens = [])
    (h : stepCompensationFinishWith drv begin_ c s toNode = .ok r) : Runs c drv r := by
  obtain ⟨r', h', rfl⟩ := map_prepend_ok h
  refine (applyFinishWith_runs hbegin ?_ ?_ ?_ h').prepend (by simp)
  · exact ⟨hfit.named, Or.inl rfl, hfit.pending⟩
  · exact finishPlan_final hfit.final
  · exact fun hresume => hseal (finishPlan_resumes hresume)

theorem beginCompensationWith_begins {finish : InstanceState → String → EngineResult}
    (hfinish : ∀ {s toNode r}, Fit s.toControlState → s.tokens = [] → finish s toNode = .ok r → Runs c drv r) :
    Begins c drv (beginCompensationWith finish c) := by
  intro s o r hable hfinal h
  have hctl := clearForWalk_control c s o.closeKind
  have hclear : Able (clearForWalk c s o.closeKind).state.toControlState := by
    rw [hctl]
    exact (hable.cancelListed c.at_ o.closeKind s.tokens).of_outline (consolidate_outline _)
  have htok : (clearForWalk c s o.closeKind).state.tokens = [] := by
    rw [hctl, (sameOutline (consolidate_outline _)).tokens]
    exact hable.cancelled c.at_ o.closeKind
  have hidle : ∀ {r : StepResult}, (finish ((clearForWalk c s o.closeKind).state.onControl (fun s =>
      { s with compensating := o.idleCursor })) o.toNode).map (·.prepend (clearForWalk c s o.closeKind).commands) = .ok r →
      Runs c drv r := by
    intro r h
    obtain ⟨r', h', rfl⟩ := map_prepend_ok h
    refine (hfinish ?_ ?_ h').prepend (by simp)
    · exact ⟨hclear.named, hfinal, hclear.pending⟩
    · exact htok
  unfold beginCompensationWith at h
  dsimp only at h
  split at h
  · cases h
  · split at h
    · exact hidle h
    · split at h
      · exact hidle h
      · rw [← Except.ok.inj h]
        refine .empties ?_ ?_ (by simp)
        · rw [StepResult.prepend_state, afterDispatch_control]
          exact ⟨⟨hclear.named, hfinal, hclear.pending⟩, hclear.live⟩
        · rw [StepResult.prepend_state, afterDispatch_control]
          exact htok

theorem beginTerminating_begins : Begins c drv (beginTerminating drv c) := by
  refine beginCompensationWith_begins (fun hfit htok h => stepCompensationFinishWith_runs ?_ hfit (fun _ => htok) h)
  intro s o r _ _ h
  cases h

theorem stepCompensationFinish_runs (hfit : Fit s.toControlState) {toNode : String}
    (hseal : ({ s.compensating with toNode := toNode } : CompensationCursor).walkMode = .admin → s.tokens = [])
    (h : stepCompensationFinish drv c s toNode = .ok r) : Runs c drv r :=
  stepCompensationFinishWith_runs beginTerminating_begins hfit hseal h

theorem beginCompensation_begins : Begins c drv (beginCompensation drv c) :=
  beginCompensationWith_begins (fun hfit htok h => stepCompensationFinish_runs hfit (fun _ => htok) h)

/-- An operator's walk leaves no token. -/
def Seals (s : ControlState) : Prop := s.status = .compensating → s.compensating.walkMode = .admin → s.tokens = []

theorem Wf.seals {g : IDGenerator} {s : ControlState} (h : Wf g s) : Seals s := by
  intro hst hmode
  obtain ⟨hres, hto, -⟩ := walkMode_eq_admin.mp hmode
  exact h.phase.sealed (Or.inl ⟨h.phase.status.mp hst, hres, hto⟩)

/-- A record goes out; the tokens and the scopes stay. -/
theorem dispatched_goes (hs : s.toControlState = x.toControlState) (cur : CompensationCursor) (idx : Int)
    (rec : CompensationRecord) (cmdID : String) :
    Goes c drv x (afterDispatch c ((s.nextCommandID c.ids).1.onControl (·.dispatch cur idx rec cmdID)) rec cmdID) := by
  have hsame := sameOutline (dispatch_outline x.toControlState.mintCommand cur idx rec cmdID)
  refine .fires (.still ?_ ?_ ?_ (by simp))
  all_goals rw [afterDispatch_control, onControl_toControlState, InstanceState.nextCommandID_control, hs]
  · exact hsame.status
  · exact hsame.tokens
  · exact hsame.scopes

theorem redispatchCurrent_goes (hs : s.toControlState = x.toControlState) (rec : CompensationRecord)
    (retryAttempts : Int) : Goes c drv x (redispatchCurrent c s rec retryAttempts) := by
  unfold redispatchCurrent
  refine .fires (.still ?_ ?_ ?_ (by simp))
  all_goals
    rw [afterDispatch_control, ← hs]
    rfl

theorem stepCompensationAdvance_goes (hfit : Fit x.toControlState)
    (hseal : x.compensating.walkMode = .admin → x.tokens = []) (hs : s.toControlState = x.toControlState)
    (h : stepCompensationAdvance drv c s = .ok r) : Goes c drv x r := by
  have hret : (s.retireCompensationStallIncidents s.compensating.activeCmdID).toControlState = x.toControlState :=
    (s.retireCompensationStallIncidents_control _).trans hs
  have hfit' : Fit (s.retireCompensationStallIncidents s.compensating.activeCmdID).toControlState := hret ▸ hfit
  have hseal' : (s.retireCompensationStallIncidents s.compensating.activeCmdID).compensating.walkMode = .admin →
      (s.retireCompensationStallIncidents s.compensating.activeCmdID).tokens = [] := by
    rw [hret]
    exact hseal
  have hcur : s.compensating = (s.retireCompensationStallIncidents s.compensating.activeCmdID).compensating := by
    rw [hret, hs]
  unfold stepCompensationAdvance at h
  dsimp only at h
  split at h
  · exact .runs (stepCompensationFinish_runs hfit' (hcur ▸ hseal') h)
  · split at h
    · exact .runs (stepCompensationFinish_runs hfit' (hcur ▸ hseal') h)
    · rw [← Except.ok.inj h]
      exact dispatched_goes hret _ _ _ _

theorem retryStalledCompensation_goes (hfit : Fit x.toControlState)
    (hseal : x.compensating.walkMode = .admin → x.tokens = []) (h : retryStalledCompensation drv c x = .ok r) :
    Goes c drv x r := by
  unfold retryStalledCompensation at h
  dsimp only at h
  split at h
  · refine .runs (stepCompensationFinish_runs ?_ ?_ h)
    · rw [InstanceState.retireCompensationStallIncidents_control]
      exact hfit
    · rw [InstanceState.retireCompensationStallIncidents_control]
      exact hseal
  · rw [← Except.ok.inj h]
    refine redispatchCurrent_goes ?_ _ _
    rw [InstanceState.retireCompensationFailedIncidents_control, InstanceState.retireCompensationStallIncidents_control]

theorem retryFailedCompensation_goes (hfit : Fit x.toControlState) (hseal : Seals x.toControlState)
    (h : retryFailedCompensation drv c x tr = .ok r) : Goes c drv x r := by
  unfold retryFailedCompensation at h
  dsimp only at h
  split at h
  · rw [← Except.ok.inj h]
    exact .same (x.removeTimer_control _) mute_nil
  · rename_i hwalk
    simp only [Bool.or_eq_true, bne_iff_ne, not_or, not_not, removeTimer_control] at hwalk
    split at h
    · refine .runs (stepCompensationFinish_runs ?_ ?_ h)
      · rw [removeTimer_control]
        exact hfit
      · rw [removeTimer_control]
        exact hseal hwalk.1
    · rw [← Except.ok.inj h]
      refine redispatchCurrent_goes ?_ _ _
      rw [InstanceState.retireCompensationFailedIncidents_control, removeTimer_control]

/-- An operator's walk ends the instance. -/
theorem finish_admin_closes (hfit : Fit x.toControlState) (htok : x.tokens = []) (hmode : x.compensating.walkMode = .admin)
    (h : stepCompensationFinish drv c x x.compensating.toNode = .ok r) : Closes c.at_ r := by
  obtain ⟨r', h', rfl⟩ := map_prepend_ok h
  refine Closes.prepend ?_ (by simp)
  have hplan : ∀ s : ControlState, finishPlan s { x.compensating with toNode := x.compensating.toNode } =
      { doClearRecords := true, clearScope := x.compensating.scopeID, finalStatus := x.compensating.finalStatus,
        finalErr := x.compensating.finalErr } := by
    intro s
    have hm : ({ x.compensating with toNode := x.compensating.toNode } : CompensationCursor).walkMode = .admin := hmode
    unfold finishPlan
    rw [hm]
  rw [hplan] at h'
  unfold applyFinishWith at h'
  dsimp only at h'
  rw [if_neg (by simp), if_pos (by rfl)] at h'
  rw [← Except.ok.inj h']
  refine applyTerminate_closes ?_ hfit.final
  rw [onControl_toControlState, (sameOutline (applyDeleteArchive_outline _ _)).tokens]
  exact htok

theorem abandonCompensationWalk_goes (hfit : Fit x.toControlState)
    (hseal : x.compensating.walkMode = .admin → x.tokens = []) (h : abandonCompensationWalk drv c x = .ok r) :
    Goes c drv x r := by
  unfold abandonCompensationWalk at h
  dsimp only at h
  split at h
  · cases h
  · rename_i hmode
    obtain ⟨r', h', h⟩ := bind_ok h
    rw [← Except.ok.inj h]
    have hret := x.retireCompensationStallIncidents_control x.compensating.activeCmdID
    have hfin : stepCompensationFinish drv c (x.retireCompensationStallIncidents x.compensating.activeCmdID)
        (x.retireCompensationStallIncidents x.compensating.activeCmdID).compensating.toNode = .ok r' := by
      rw [hret]
      exact h'
    have hcloses : Closes c.at_ r' := by
      refine finish_admin_closes ?_ ?_ ?_ hfin
      · rw [hret]
        exact hfit
      · rw [hret]
        exact hseal (by simpa using hmode)
      · rw [hret]
        simpa using hmode
    exact .runs (.ends (hcloses.onControl (fun s => s.mapRecords_outline _ _)))

theorem handleResolveCompensationStall_goes (hfit : Fit x.toControlState) (hseal : Seals x.toControlState)
    {incidentID : String} {disposition : CompensationDisposition}
    (h : handleResolveCompensationStall drv c x commandID incidentID disposition = .ok r) : Goes c drv x r := by
  unfold handleResolveCompensationStall at h
  split at h
  · cases h
  · rename_i hwalk
    simp only [Bool.or_eq_true, bne_iff_ne, not_or, not_not] at hwalk
    split at h
    · cases h
    · split at h
      · cases h
      · split at h
        · exact retryStalledCompensation_goes hfit (hseal hwalk.1) h
        · exact stepCompensationAdvance_goes hfit (hseal hwalk.1) rfl h
        · exact abandonCompensationWalk_goes hfit (hseal hwalk.1) h

theorem stepCompensateRequested_goes (hfit : Fit x.toControlState) {toNode reverseNode : String}
    {resetVars restoreTargetVars : Bool}
    (h : stepCompensateRequested drv c x toNode reverseNode resetVars restoreTargetVars = .ok r) : Goes c drv x r := by
  unfold stepCompensateRequested at h
  split at h
  · cases h
  · split at h
    · cases h
    · split at h
      · split at h
        · cases h
        · rw [← Except.ok.inj h]
          exact .same rfl mute_nil
      · split at h
        · cases h
        · have hmark : Able ({ x.toControlState with status := .compensating } : ControlState) :=
            ⟨⟨hfit.named, hfit.final, hfit.pending⟩, rfl⟩
          refine .runs (beginCompensation_begins ?_ (Or.inl rfl) h)
          split
          · exact hmark.of_outline (harvest_outline _)
          · exact hmark

/-! ## Errors and arms -/

/-- What the interrupted side of a boundary does before its token is placed. -/
def Yields (consume : InstanceState → StepResult) : Prop :=
  ∀ y : InstanceState, Able y.toControlState → Able (consume y).state.toControlState ∧ Mute (consume y).commands

theorem routeToBoundary_runs (hable : Able x.toControlState) {d : ProcessDefinition} {e : BoundaryEvent}
    {kind target : String} {consume : InstanceState → StepResult} (hconsume : Yields consume)
    (h : routeToBoundary drv c x d nodeID e kind target consume = .ok r) : Runs c drv r := by
  obtain ⟨hleft, hm⟩ := hconsume _ (hable.fireOnce c.ids e.action)
  unfold routeToBoundary at h
  dsimp only at h
  split at h
  · cases h
  · refine thenDrive_runs ?_ (mute_append.mpr ⟨mute_emitFireOnceAction _ _ _, hm⟩) h
    exact hleft.place c.ids _ _ _ c.at_

theorem consumeFailing_yields (scopeID nodeID tokenID : String) : Yields (consumeFailing c scopeID nodeID tokenID) := by
  intro y hy
  unfold consumeFailing
  dsimp only
  split
  · exact ⟨hy.consumeTokenAs _ c.at_ _, mute_nil⟩
  · exact ⟨hy, mute_nil⟩

theorem consumeErrScope_yields (scopeID : String) : Yields (consumeErrScope c scopeID) := by
  intro y hy
  exact ⟨(hy.cancelScopeSubtree scopeID c.at_ .boundaryInterrupted).closeScope scopeID, mute_cancelScopeSubtree _ _ _ _⟩

theorem consumeCallActivity_yields (tok : Token) : Yields (consumeCallActivity c tok) := by
  intro y hy
  refine ⟨?_, mute_removeBoundaryArmsForHost _ _⟩
  exact (hy.of_control (y.removeBoundaryArmsForHost_control tok.id)).consumeTokenAs tok c.at_ .boundaryInterrupted

theorem deferFailure_runs (hable : Able x.toControlState) (errorCode : String) :
    Runs c drv (deferFailureToInFlightCompensationWalk c x errorCode) := by
  have hctl := cancelTokens_control c.at_ .errored x.tokens x
  have hcleared : Able (cancelTokens c.at_ .errored x.tokens x).state.toControlState := by
    rw [hctl]
    exact hable.cancelListed c.at_ .errored x.tokens
  unfold deferFailureToInFlightCompensationWalk
  refine .empties ?_ ?_ (by simp)
  · exact ⟨⟨hcleared.named, hcleared.final, Or.inr (Or.inr rfl)⟩, hcleared.live⟩
  · change (cancelTokens c.at_ .errored x.tokens x).state.tokens = []
    rw [hctl]
    exact hable.cancelled c.at_ .errored

theorem handleUnhandledError_runs (hable : Able x.toControlState) {scopeID tokenID errorCode : String}
    (h : handleUnhandledError drv c x scopeID nodeID tokenID errorCode false = .ok r) : Runs c drv r := by
  have hharvest := hable.of_outline (harvest_outline _)
  unfold handleUnhandledError at h
  rw [if_neg (by simp)] at h
  split at h
  · rw [← Except.ok.inj h]
    exact deferFailure_runs hable errorCode
  · dsimp only at h
    split at h
    · refine beginCompensation_begins ?_ (Or.inr (Or.inr rfl)) h
      exact ⟨⟨hharvest.named, hharvest.final, hharvest.pending⟩, rfl⟩
    · rw [← Except.ok.inj h]
      exact .ends (endInstance_closes _ rfl (Or.inl rfl) (Or.inr rfl))

theorem raiseActionIncident_goes (scopeID nodeID tokenID errorCode : String) :
    Goes c drv x ⟨raiseActionIncident c x scopeID nodeID tokenID errorCode, []⟩ := by
  unfold raiseActionIncident
  dsimp only
  split
  · rename_i t _
    exact .calms t.id (fun t => { t with state := .incident }) (fun t => ⟨⟨rfl, rfl, rfl, rfl⟩, nofun, nofun⟩) rfl rfl rfl
      mute_nil
  · exact .same rfl mute_nil

theorem propagateError_goes (hable : Able x.toControlState) {scopeID tokenID errorCode : String} {cause : Option String}
    {raiseIncident : Bool} (h : propagateError drv c x scopeID nodeID tokenID errorCode cause raiseIncident = .ok r) :
    Goes c drv x r ∧ (raiseIncident = false → Runs c drv r) := by
  unfold propagateError at h
  obtain ⟨ownDef, -, h⟩ := bind_ok h
  dsimp only at h
  split at h
  · have hrun := routeToBoundary_runs hable (consumeFailing_yields scopeID nodeID tokenID) h
    exact ⟨.runs hrun, fun _ => hrun⟩
  · obtain ⟨handler, -, h⟩ := bind_ok h
    split at h
    · have hrun := routeToBoundary_runs hable (consumeErrScope_yields _) h
      exact ⟨.runs hrun, fun _ => hrun⟩
    · cases raiseIncident with
      | false =>
        have hrun := handleUnhandledError_runs hable h
        exact ⟨.runs hrun, fun _ => hrun⟩
      | true =>
        refine ⟨?_, fun hf => nomatch hf⟩
        unfold handleUnhandledError at h
        rw [if_pos rfl] at h
        rw [← Except.ok.inj h]
        exact raiseActionIncident_goes _ _ _ _

theorem fireBoundaryArm_fires (hable : Able x.toControlState) {ba : BoundaryArm}
    (h : fireBoundaryArm drv c x ba = .ok r) : Fires c drv x r := by
  have hfired := hable.fireOnce c.ids ba.action
  unfold fireBoundaryArm at h
  split at h
  · rw [← Except.ok.inj h]
    exact .same (x.removeBoundaryArmsForHost_control _) mute_nil
  · obtain ⟨tdef, -, h⟩ := bind_ok h
    split at h
    · cases h
    · split at h
      · cases h
      · refine .runs (thenDrive_runs ?_ ?_ h)
        · dsimp only
          refine Able.place ?_ c.ids _ _ _ c.at_
          split
          · exact hfired
          · rw [cancelTokenWaits_control]
            exact hfired.cancelToken _ c.at_ _
        · refine mute_append.mpr ⟨mute_emitFireOnceAction _ _ _, ?_⟩
          split
          · exact mute_nil
          · exact mute_cancelTokenWaits _ _ _ _

theorem fireEventTriggeredSubprocessArm_fires (hable : Able x.toControlState) {ea : EventTriggeredSubprocessArm}
    (h : fireEventTriggeredSubprocessArm drv c x ea = .ok r) : Fires c drv x r := by
  have hstill : Fires c drv x ⟨x, []⟩ := .same rfl mute_nil
  unfold fireEventTriggeredSubprocessArm at h
  split at h
  · exact Except.ok.inj h ▸ hstill
  · split at h
    · exact Except.ok.inj h ▸ hstill
    · obtain ⟨enclosingDef, -, h⟩ := bind_ok h
      split at h
      · exact Except.ok.inj h ▸ hstill
      · refine .runs (thenDrive_runs ?_ ?_ h)
        · dsimp only
          refine Able.place ?_ c.ids _ _ _ c.at_
          split
          · exact hable.of_same rfl rfl
          · exact (hable.cancelScopeSubtree ea.enclosingScopeID c.at_ .boundaryInterrupted).of_same rfl rfl
        · dsimp only
          split
          · exact mute_nil
          · exact mute_cancelScopeSubtree _ _ _ _

theorem winningMove_able (hable : Able x.toControlState) (tdef : ProcessDefinition) (tok : Token) (catchNode : String) :
    Able (winningMove c tdef x tok catchNode).toControlState := by
  have hactive := hable.updateToken tok.id (fun t => { t.clearAwait with state := .active }) (fun _ => rfl)
  unfold winningMove
  dsimp only
  split
  · split
    · exact (hactive.updateOpenVisit tok.id tok.nodeID _).relocate tok _ _ c.at_
    · exact Able.moveAlongSingleFlow hactive c.ids tdef tok c.at_
  · exact Able.moveAlongSingleFlow hactive c.ids tdef tok c.at_

theorem resolveGatewayWin_fires (hable : Able x.toControlState) {ae : ArmedEvent}
    (h : resolveGatewayWin drv c x ae = .ok r) : Fires c drv x r := by
  unfold resolveGatewayWin at h
  split at h
  · rw [← Except.ok.inj h]
    exact .same (x.removeArmedEventsForGateway_control _) mute_nil
  · obtain ⟨tdef, -, h⟩ := bind_ok h
    refine .runs (thenDrive_runs ?_ ((mute_removeArmedEventsForGateway _ _).filter _) h)
    rw [InstanceState.removeArmedEventsForGateway_control]
    exact winningMove_able hable tdef _ _

theorem dispatchArmCascade_fires (hable : Able x.toControlState) {onMatch : InstanceState → InstanceState}
    (hmatch : (onMatch x).toControlState = x.toControlState) {gw : Option ArmedEvent} {boundary : Option BoundaryArm}
    {eventSub : Option EventTriggeredSubprocessArm} {res : EngineResult}
    (h : dispatchArmCascade drv c x onMatch gw boundary eventSub = some res) (hok : res = .ok r) : Fires c drv x r := by
  have hable' := hable.of_control hmatch
  unfold dispatchArmCascade at h
  split at h
  · cases h
  · split at h
    · exact (resolveGatewayWin_fires hable' ((Option.some.inj h).trans hok)).of_control hmatch
    · exact (fireBoundaryArm_fires hable' ((Option.some.inj h).trans hok)).of_control hmatch
    · exact (fireEventTriggeredSubprocessArm_fires hable' ((Option.some.inj h).trans hok)).of_control hmatch
    · cases h

/-! ## Handlers -/

theorem resumeAndDrive_runs {tok : Token} (hable : Able x.toControlState)
    (hm : Mute cmds) (h : resumeAndDrive drv c tdef x tok cmds = .ok r) : Runs c drv r := by
  refine thenDrive_runs ?_ hm h
  exact Able.moveAlongSingleFlow (hable.setTokenState tok.id .active) c.ids tdef tok c.at_

theorem handleStartInstance_runs (hfit : Fit x.toControlState) {vars : Vars} {start : String}
    (h : handleStartInstance drv c x vars start = .ok r) : Runs c drv r := by
  unfold handleStartInstance at h
  split at h
  · cases h
  · obtain ⟨startID, -, h⟩ := bind_ok h
    obtain ⟨r1, h1, h⟩ := bind_ok h
    refine thenDrive_runs ?_ (mute_armEventTriggeredSubprocesses h1) h
    rw [armEventTriggeredSubprocesses_control h1]
    have hrun : Able ({ x.toControlState with status := .running } : ControlState) :=
      ⟨⟨hfit.named, hfit.final, hfit.pending⟩, rfl⟩
    exact hrun.place c.ids startID "" "" c.at_

theorem recordCompletion_able (hable : Able x.toControlState) (tdef : ProcessDefinition) (tok : Token) :
    Able (recordCompletion c x tdef tok).toControlState := by
  unfold recordCompletion
  split
  · split
    · exact hable
    · exact hable.recordCompensation _ _
  · exact hable

theorem clearAwaitOf_able (hable : Able x.toControlState) (tok : Token) : Able (clearAwaitOf tok x).toControlState :=
  hable.updateToken tok.id _ (fun _ => rfl)

theorem handleActionCompleted_goes (hable : Able x.toControlState) (hseal : Seals x.toControlState)
    {output : Vars} (h : handleActionCompleted drv c x commandID output = .ok r) : Goes c drv x r := by
  unfold handleActionCompleted at h
  split at h
  · rename_i hwalk
    rw [Bool.and_eq_true, beq_iff_eq] at hwalk
    exact stepCompensationAdvance_goes hable.toFit (hseal hwalk.1) (x.retireCompensationFailedIncidents_control _) h
  · split at h
    · rw [← Except.ok.inj h]
      exact .same rfl mute_nil
    · split at h
      · cases h
      · rename_i tok _
        obtain ⟨tdef, -, h⟩ := bind_ok h
        refine .runs (resumeAndDrive_runs ?_ (by simp) h)
        have hrecorded := recordCompletion_able (c := c)
          (hable.of_control (x.removeBoundaryArmsForHost_control tok.id)) tdef tok
        exact clearAwaitOf_able (hrecorded.of_control (mergeVars_control _ output)) tok

theorem handleCompensationFailed_goes (hfit : Fit x.toControlState)
    (hseal : x.compensating.walkMode = .admin → x.tokens = []) {retryable : Bool}
    (h : handleCompensationFailed drv c x commandID err retryable = .ok r) : Goes c drv x r := by
  unfold handleCompensationFailed at h
  split at h
  · rw [← Except.ok.inj h]
    exact .same rfl mute_nil
  · dsimp only at h
    split at h
    · rename_i r' harm
      rw [← Except.ok.inj h]
      unfold armCompensationRetryTimer at harm
      split at harm
      · cases harm
      · dsimp only at harm
        split at harm
        · cases harm
        · split at harm
          · cases harm
          · rw [← Option.some.inj harm]
            exact .fires (.still rfl rfl rfl (by simp [scheduleWalkTimer, Command.ends]))
    · exact stepCompensationAdvance_goes hfit hseal (x.raise_control _ _) h

theorem scheduleRetry_goes (eff : RetryPolicy) (tok : Token) (jitter : Rat) :
    Goes c drv x (scheduleRetry c x eff tok jitter) := by
  unfold scheduleRetry
  exact .calms tok.id (fun t =>
    { t with
      retryAttempts := t.retryAttempts + 1
      retryStartedAt := if isZeroTime t.retryStartedAt then c.at_ else t.retryStartedAt
      state := .waiting
      awaitCommand := (x.nextTimerID c.ids).2 })
    (fun t => ⟨⟨rfl, rfl, rfl, rfl⟩, nofun, nofun⟩) rfl rfl rfl (by simp [Command.ends])

theorem takeRecoveryFlow_runs (hable : Able x.toControlState) {tok : Token}
    {flow : String} (hm : Mute cmds)
    (h : takeRecoveryFlow drv c x tdef tok nodeID flow err cmds = .ok r) : Runs c drv r := by
  unfold takeRecoveryFlow at h
  dsimp only at h
  split at h
  · cases h
  · split at h
    · cases h
    · refine thenDrive_runs ?_ hm h
      refine Able.moveTokenToTargetAs ?_ tok _ _ c.at_ .normal
      exact hable.updateToken tok.id _ (fun _ => rfl)

theorem handleActionFailed_goes (hable : Able x.toControlState) (hseal : Seals x.toControlState)
    {retryable : Bool} {jitter : Rat} {cause : Option String}
    (h : handleActionFailed drv c x commandID err retryable jitter cause = .ok r) : Goes c drv x r := by
  unfold handleActionFailed at h
  split at h
  · rename_i hwalk
    rw [Bool.and_eq_true, beq_iff_eq] at hwalk
    exact handleCompensationFailed_goes hable.toFit (hseal hwalk.1) h
  · split at h
    · rw [← Except.ok.inj h]
      exact .same rfl mute_nil
    · split at h
      · cases h
      · rename_i tok _
        have hctl := x.removeBoundaryArmsForHost_control tok.id
        have hable' := hable.of_control hctl
        obtain ⟨tdef, -, h⟩ := bind_ok h
        dsimp only at h
        split at h
        · obtain ⟨r', h', rfl⟩ := map_prepend_ok h
          exact .runs (((propagateError_goes hable' h').2 rfl).prepend (by simp))
        · split at h
          · rw [← Except.ok.inj h]
            exact ((scheduleRetry_goes _ _ _).of_control hctl).prepend (by simp)
          · split at h
            · exact .runs (takeRecoveryFlow_runs hable' (by simp) h)
            · obtain ⟨r', h', rfl⟩ := map_prepend_ok h
              exact ((propagateError_goes hable' h').1.of_control hctl).prepend (by simp)

theorem mute_nodeCancelActions : Mute (nodeCancelActions c x) := by
  intro cmd hmem
  unfold nodeCancelActions at hmem
  obtain ⟨tok, -, h⟩ := List.mem_filterMap.mp hmem
  split at h
  · cases h
  · split at h
    · cases h
    · split at h
      · cases h
      · rw [← Option.some.inj h]
        rfl

theorem handleCancelRequested_goes (hable : Able x.toControlState) (h : handleCancelRequested drv c x = .ok r) :
    Goes c drv x r := by
  have hm : Mute (c.top.cancelActions.map (fun name => Command.invokeCancelAction name x.vars) ++ nodeCancelActions c x) :=
    mute_append.mpr ⟨mute_map (fun _ => rfl) _, mute_nodeCancelActions⟩
  unfold handleCancelRequested at h
  dsimp only at h
  split at h
  · split at h
    · rw [← Except.ok.inj h]
      exact .fires (.still rfl rfl rfl hm)
    · split at h
      · cases h
      · rw [← Except.ok.inj h]
        exact .same rfl mute_nil
  · split at h
    · obtain ⟨r', h', rfl⟩ := map_prepend_ok h
      refine .runs (Runs.prepend (beginCompensation_begins ?_ (Or.inr (Or.inl rfl)) h') hm)
      have hharvest := hable.of_outline (harvest_outline _)
      exact ⟨⟨hharvest.named, hharvest.final, hharvest.pending⟩, rfl⟩
    · rw [← Except.ok.inj h]
      refine .runs (.ends (Closes.prepend (endInstance_closes _ rfl (Or.inr rfl) ?_) hm))
      exact Or.inl rfl

theorem withOpenTask_goes {taskID : String} {closed : EngineResult} {f : HumanTask → HumanTask}
    (hclosed : closed = .ok r → Goes c drv x r) (h : withOpenTask x taskID closed f = .ok r) : Goes c drv x r := by
  unfold withOpenTask at h
  split at h
  · cases h
  · split at h
    · exact hclosed h
    · rw [← Except.ok.inj h]
      exact .same rfl (by simp [Command.ends])

theorem mute_parkOnCompletionAction {tok : Token}
    (hm : Mute cmds) (h : parkOnCompletionAction c tdef s tok cmds = some r) : Mute r.commands := by
  unfold parkOnCompletionAction at h
  split at h
  · cases h
  · dsimp only at h
    split at h <;> split at h
    all_goals cases h
    all_goals exact mute_append.mpr ⟨hm, by simp [Command.ends]⟩

/-- The token is answered and then stops again, whatever it was meanwhile. -/
theorem Goes.answered {s : ControlState} {id cmdID : String} {f : Token → Token} (hid : ∀ t, (f t).id = t.id)
    (hf : ∀ t : Token, t.SamePlace (f t)) (hs : s.tokens = (x.toControlState.updateToken id f).tokens)
    (hstatus : s.status = x.status) (hscopes : s.scopes = x.scopes)
    (hr : r.state.toControlState = s.mintCommand.awaitCommand id cmdID) (hm : Mute r.commands) : Goes c drv x r := by
  have hfuse := x.toControlState.updateToken_updateToken id f
    (fun t => { t with state := .waiting, awaitCommand := cmdID }) hid
  refine .calms id (fun t => { f t with state := .waiting, awaitCommand := cmdID })
    (fun t => ⟨⟨(hf t).id, (hf t).nodeID, (hf t).scopeID, (hf t).arrivalFlow⟩, nofun, nofun⟩) ?_ ?_ ?_ hm
  · rw [hr]
    exact hstatus
  · rw [hr, ← hfuse]
    change s.tokens.map _ = (x.toControlState.updateToken id f).tokens.map _
    rw [hs]
  · rw [hr]
    change s.scopes.map Scope.bare = _
    rw [hscopes]

theorem handleHumanCompleted_goes (hable : Able x.toControlState) {taskID outcome note : String} {output : Vars}
    {actor : Actor} (h : handleHumanCompleted drv c x taskID outcome note output actor = .ok r) : Goes c drv x r := by
  unfold handleHumanCompleted at h
  split at h
  · cases h
  · cases h
  · split at h
    · cases h
    · split at h
      · cases h
      · rename_i tok _
        obtain ⟨tdef, -, h⟩ := bind_ok h
        dsimp only at h
        split at h
        · cases h
        · split at h
          · rename_i r' hpark
            rw [← Except.ok.inj h]
            obtain ⟨cmdID, hr⟩ := parkOnCompletionAction_control hpark
            rw [removeBoundaryArmsForHost_control, cancelTimersByTaskID_control,
              onControl_toControlState, updateTask_control, applyOutcomeExposure_control,
              mergeVars_control] at hr
            refine Goes.answered (f := fun t => { t.clearAwait with state := .active }) (fun _ => rfl)
              (fun _ => ⟨rfl, rfl, rfl, rfl⟩) ?_ ?_ ?_ hr (mute_parkOnCompletionAction (by simp [Command.ends]) hpark)
            all_goals rfl
          · refine .runs (thenDrive_runs ?_ (by simp [Command.ends]) h)
            refine Able.moveAlongSingleFlow ?_ c.ids tdef tok c.at_
            rw [removeBoundaryArmsForHost_control, cancelTimersByTaskID_control,
              onControl_toControlState, updateTask_control, applyOutcomeExposure_control,
              mergeVars_control]
            exact hable.updateToken tok.id _ (fun _ => rfl)

/-! ## Timers, signals and messages -/

theorem handleDeadlineFired_goes (hable : Able x.toControlState)
    (h : handleDeadlineFired drv c x tr = .ok r) : Goes c drv x r := by
  unfold handleDeadlineFired at h
  split at h
  · rw [← Except.ok.inj h]
    exact .same (x.removeTimer_control _) mute_nil
  · dsimp only at h
    split at h
    · rw [← Except.ok.inj h]
      exact .same (x.removeTimer_control _) mute_nil
    · obtain ⟨tdef, -, h⟩ := bind_ok h
      split at h
      · cases h
      · split at h
        · cases h
        · split at h
          · cases h
          · refine .runs (thenDrive_runs ?_ ?_ h)
            · dsimp only
              rw [removeTimer_control, cancelTimersByTaskID_control]
              split
              all_goals
                refine Able.moveTokenToTargetAs ?_ _ _ _ c.at_ .deadlineExpired
                exact (hable.fireOnce c.ids _).updateToken _ _ (fun _ => rfl)
            · refine mute_append.mpr ⟨mute_append.mpr ⟨mute_emitFireOnceAction _ _ _, ?_⟩, mute_cancelTimersByTaskID _ _ _⟩
              split <;> simp [Command.ends]

theorem handleReminderFired_goes (h : handleReminderFired c x tr = .ok r) : Goes c drv x r := by
  unfold handleReminderFired at h
  split at h
  · rw [← Except.ok.inj h]
    exact .same (x.removeTimer_control _) mute_nil
  · split at h
    · rw [← Except.ok.inj h]
      exact .same (x.removeTimer_control _) mute_nil
    · obtain ⟨tdef, -, h⟩ := bind_ok h
      split at h
      · cases h
      · rw [← Except.ok.inj h]
        refine .fires (.still ?_ ?_ ?_ (mute_emitFireOnceAction _ _ _))
        all_goals
          rcases emitFireOnceAction_control c.ids x _ with he | he
          · rw [he]
          · rw [he]
            rfl

/-- A token is sent out again for its node's action, whatever it was before. -/
theorem reinvokeServiceAction_calms {tok : Token} {f : Token → Token} (hid : ∀ t, (f t).id = t.id)
    (hf : ∀ t : Token, t.SamePlace (f t)) (hs : s.tokens = (x.toControlState.updateToken tok.id f).tokens)
    (hstatus : s.status = x.status) (hscopes : s.scopes = x.scopes) (h : reinvokeServiceAction c s tok = .ok r) :
    Goes c drv x r := by
  unfold reinvokeServiceAction at h
  split at h
  · cases h
  · split at h
    · cases h
    · exact Goes.answered hid hf hs hstatus hscopes (emitActionInvoke_control h) (mute_emitActionInvoke h)

theorem handleRetryFired_goes (h : handleRetryFired c x tr = .ok r) : Goes c drv x r := by
  unfold handleRetryFired at h
  split at h
  · rw [← Except.ok.inj h]
    exact .same rfl mute_nil
  · rename_i tok _
    cases hre : reinvokeServiceAction c (x.removeTimer tr.timerID) tok with
    | error e =>
      rw [hre] at h
      cases h
    | ok r' =>
      rw [hre] at h
      rw [← Except.ok.inj h]
      have hctl := x.removeTimer_control tr.timerID
      refine reinvokeServiceAction_calms (fun _ => rfl) (fun _ => ⟨rfl, rfl, rfl, rfl⟩) ?_ ?_ ?_ hre
      · rw [hctl, updateToken_id]
      · rw [hctl]
      · rw [hctl]

theorem handleTokenTimer_goes (hable : Able x.toControlState) {timerID : String}
    (h : handleTokenTimer drv c x timerID = .ok r) : Goes c drv x r := by
  unfold handleTokenTimer at h
  split at h
  · rw [← Except.ok.inj h]
    exact .same rfl mute_nil
  · split at h
    · rw [← Except.ok.inj h]
      exact .same rfl mute_nil
    · obtain ⟨tdef, -, h⟩ := bind_ok h
      refine .runs (resumeAndDrive_runs ?_ (by simp) h)
      rw [cancelTimersForToken_control]
      exact clearAwaitOf_able (hable.of_control (x.removeTimer_control timerID)) _

theorem handleCompensationStallFired_goes (tr : TimerRecord) : Goes c drv x (handleCompensationStallFired c x tr) := by
  unfold handleCompensationStallFired
  dsimp only
  split
  · exact .same (x.removeTimer_control _) mute_nil
  · refine .same ?_ mute_nil
    rw [InstanceState.raise_control, removeTimer_control]

theorem handleTimerFired_goes (hable : Able x.toControlState) (hseal : Seals x.toControlState) {timerID : String}
    (h : handleTimerFired drv c x timerID = .ok r) : Goes c drv x r := by
  unfold handleTimerFired at h
  split at h
  · rename_i res hcascade
    exact .fires (dispatchArmCascade_fires hable rfl hcascade h)
  · split at h
    · exact handleTokenTimer_goes hable h
    · split at h
      · rw [← Except.ok.inj h]
        exact .same (x.removeTimer_control _) (by simp [Command.ends])
      · split at h
        · exact handleDeadlineFired_goes hable h
        · exact handleReminderFired_goes h
        · exact handleRetryFired_goes h
        · rw [← Except.ok.inj h]
          exact handleCompensationStallFired_goes _
        · exact retryFailedCompensation_goes hable.toFit hseal h
        · exact handleTokenTimer_goes hable h

theorem fireTier_fires (hable : Able x.toControlState) {matched : Bool}
    {tier : SignalTier} {res : EngineResult} (h : fireTier drv c name payload matched x tier = some res) (hok : res = .ok r) :
    Fires c drv x r := by
  have hctl := markMatched_control matched payload x
  have hable' := hable.of_control hctl
  cases tier with
  | gateway id =>
    obtain ⟨ae, -, h⟩ := Option.map_eq_some_iff.mp h
    exact (resolveGatewayWin_fires hable' (h.trans hok)).of_control hctl
  | boundary id =>
    obtain ⟨ba, -, h⟩ := Option.map_eq_some_iff.mp h
    exact (fireBoundaryArm_fires hable' (h.trans hok)).of_control hctl
  | eventSub id =>
    obtain ⟨ea, -, h⟩ := Option.map_eq_some_iff.mp h
    exact (fireEventTriggeredSubprocessArm_fires hable' (h.trans hok)).of_control hctl
  | token id =>
    obtain ⟨tok, -, h⟩ := Option.map_eq_some_iff.mp h
    obtain ⟨tdef, -, h⟩ := bind_ok (h.trans hok)
    refine .runs (resumeAndDrive_runs ?_ (by simp) h)
    rw [cancelTimersForToken_control]
    exact hable'.updateToken tok.id _ (fun _ => rfl)

/-- The tiers one after the other; the machine says that each leaves the next one a well-formed state. -/
theorem fireTiers_firesAll {trg : TriggerBody} (hdrv : Drives c trg drv) (hs : Wf c.ids x.toControlState)
    (hname : name ≠ "") {tiers : List SignalTier} {resolved : List String} {matched : Bool}
    (h : fireTiers drv c name payload tiers resolved matched x = .ok r) : FiresAll c drv x r := by
  induction tiers generalizing x resolved matched r with
  | nil => exact Except.ok.inj h ▸ .nil x
  | cons tier tiers ih =>
    unfold fireTiers at h
    split at h
    · exact Except.ok.inj h ▸ .nil x
    · rename_i hspawn
      have hfwd := forward_of_spawnsNewWork hs (by simpa using hspawn)
      split at h
      · exact ih hs h
      · split at h
        · exact ih hs h
        · rename_i res hfire
          obtain ⟨r1, h1, h⟩ := bind_ok h
          obtain ⟨r2, h2, h⟩ := bind_ok h
          rw [← Except.ok.inj h]
          have hwf := Reaches.wf hs (fireTier_reaches hdrv hs hfwd hname hfire h1)
          exact .cons hfwd.live (fireTier_fires ⟨hs.fit, hfwd.live⟩ hfire h1) (ih hwf h2)

theorem handleSignalReceived_firesAll {trg : TriggerBody} (hdrv : Drives c trg drv) (hs : Wf c.ids x.toControlState)
    (h : handleSignalReceived drv c x name payload = .ok r) : FiresAll c drv x r := by
  unfold handleSignalReceived at h
  by_cases hname : name = ""
  · -- no tier has the empty name
    have htiers : signalTiers x name = [] := by
      unfold signalTiers
      simp [hname, armIDsBySignal, tokenIDsAwaitingSignal]
    rw [htiers] at h
    exact Except.ok.inj h ▸ .nil x
  · exact fireTiers_firesAll hdrv hs hname h

theorem handleMessageReceived_goes (hable : Able x.toControlState) {key : String}
    (h : handleMessageReceived drv c x name key payload = .ok r) : Goes c drv x r := by
  unfold handleMessageReceived at h
  split at h
  · rename_i res hcascade
    exact .fires (dispatchArmCascade_fires hable (x.mergeVars_control payload) hcascade h)
  · split at h
    · rw [← Except.ok.inj h]
      exact .same rfl mute_nil
    · split at h
      · rw [← Except.ok.inj h]
        exact .same rfl mute_nil
      · obtain ⟨tdef, -, h⟩ := bind_ok h
        split at h
        · rename_i r' hpark
          rw [← Except.ok.inj h]
          obtain ⟨cmdID, hr⟩ := parkOnCompletionAction_control hpark
          rw [removeBoundaryArmsForHost_control, cancelTimersForToken_control,
            onControl_toControlState, mergeVars_control] at hr
          refine Goes.answered (f := fun t => { t with awaitMessage := "", awaitMessageKey := "" }) (fun _ => rfl)
            (fun _ => ⟨rfl, rfl, rfl, rfl⟩) ?_ ?_ ?_ hr (mute_parkOnCompletionAction (by simp) hpark)
          all_goals rfl
        · refine .runs (resumeAndDrive_runs ?_ (by simp) h)
          rw [removeBoundaryArmsForHost_control, cancelTimersForToken_control]
          exact hable.updateToken _ _ (fun _ => rfl)

/-! ## Children and incidents -/

theorem handleSubInstanceCompleted_runs (hable : Able x.toControlState) {output : Vars}
    (h : handleSubInstanceCompleted drv c x commandID output = .ok r) : Runs c drv r := by
  unfold handleSubInstanceCompleted at h
  split at h
  · cases h
  · obtain ⟨tdef, -, h⟩ := bind_ok h
    exact resumeAndDrive_runs (clearAwaitOf_able (hable.of_control (x.mergeVars_control output)) _) mute_nil h

theorem handleSubInstanceFailed_runs (hable : Able x.toControlState)
    (h : handleSubInstanceFailed drv c x commandID err = .ok r) : Runs c drv r := by
  unfold handleSubInstanceFailed at h
  split at h
  · cases h
  · obtain ⟨hostDef, -, h⟩ := bind_ok h
    split at h
    · exact routeToBoundary_runs hable (consumeCallActivity_yields _) h
    · rw [← Except.ok.inj h]
      refine .ends (endInstance_closes _ rfl (Or.inl rfl) ?_)
      exact Or.inr rfl

theorem handleResolveIncident_goes {incidentID : String} {addAttempts : Int}
    (h : handleResolveIncident c x incidentID addAttempts = .ok r) : Goes c drv x r := by
  unfold handleResolveIncident at h
  split at h
  · rw [← Except.ok.inj h]
    exact .same rfl mute_nil
  · split at h
    · cases h
    · dsimp only at h
      split at h
      · rw [← Except.ok.inj h]
        exact .same rfl mute_nil
      · refine reinvokeServiceAction_calms (f := fun t =>
          { t with retryAttempts := max 0 (t.retryAttempts - addAttempts), state := .active }) (fun _ => rfl)
          (fun _ => ⟨rfl, rfl, rfl, rfl⟩) ?_ ?_ ?_ h
        all_goals rfl

/-- Every handler of a live instance returns in one of the ways. -/
theorem handle_goes {trg : TriggerBody} (hdrv : Drives c trg drv) (hs : Wf c.ids x.toControlState)
    (hlive : x.status.isTerminal = false) (h : handle drv c x trg = .ok r) : Goes c drv x r ∨ FiresAll c drv x r := by
  have hable : Able x.toControlState := ⟨hs.fit, hlive⟩
  cases trg with
  | startInstance vars start => exact .inl (.runs (handleStartInstance_runs hs.fit h))
  | actionCompleted commandID output => exact .inl (handleActionCompleted_goes hable hs.seals h)
  | actionFailed commandID err retryable jitter cause => exact .inl (handleActionFailed_goes hable hs.seals h)
  | humanCompleted taskID outcome note output actor => exact .inl (handleHumanCompleted_goes hable h)
  | humanCandidatesResolved taskID candidates =>
    refine .inl (withOpenTask_goes (fun hc => ?_) h)
    rw [← Except.ok.inj hc]
    exact .same rfl mute_nil
  | humanClaimed taskID actor =>
    refine .inl (withOpenTask_goes (fun hc => ?_) h)
    cases hc
  | humanReassigned taskID reassignedFrom reassignedTo actor =>
    refine .inl (withOpenTask_goes (fun hc => ?_) h)
    cases hc
  | timerFired timerID => exact .inl (handleTimerFired_goes hable hs.seals h)
  | signalReceived name payload => exact .inr (handleSignalReceived_firesAll hdrv hs h)
  | messageReceived name key payload => exact .inl (handleMessageReceived_goes hable h)
  | subInstanceCompleted commandID output => exact .inl (.runs (handleSubInstanceCompleted_runs hable h))
  | subInstanceFailed commandID err => exact .inl (.runs (handleSubInstanceFailed_runs hable h))
  | compensateRequested toNode reverseNode resetVars restoreTargetVars =>
    exact .inl (stepCompensateRequested_goes hs.fit h)
  | cancelRequested => exact .inl (handleCancelRequested_goes hable h)
  | resolveIncident incidentID addAttempts => exact .inl (handleResolveIncident_goes h)
  | resolveCompensationStall commandID incidentID disposition =>
    exact .inl (handleResolveCompensationStall_goes hs.fit hs.seals h)

end Ways

end Wrkflw
