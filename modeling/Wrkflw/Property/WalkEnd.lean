import Wrkflw.Property.Cancel

/-!
# The end of an instance under a walk

While a compensation command is out the instance should end only with its walk, or by force; what fails meanwhile waits
for the walk and then ends the instance. The failure of a child instance does not wait, and a failure that was left to a
rollback to a node is not taken up again. `walk_outlives_failures` says that nothing else goes around the walk.
-/

namespace Wrkflw

open ControlState

variable {r : StepResult}

/-- The trigger answers or skips the last command of the walk, or abandons the walk. -/
def ClosesWalk (s : ControlState) (trg : TriggerBody) : Prop :=
  Answers s trg ∧ (Exhausted s ∨ ∃ commandID incidentID, trg = .resolveCompensationStall commandID incidentID .abandon)

/-- A failure waits for the walk in flight. -/
structure FailurePending (err : String) (s : ControlState) : Prop where
  flight : s.InFlight
  pending : s.pendingCancel = true
  status : s.pendingFinalStatus = .failed
  error : s.pendingFinalErr = err

/-- The walk in flight is the one that ends the instance with the failure. -/
structure FailureWalk (err : String) (s : ControlState) : Prop where
  flight : s.InFlight
  mode : s.compensating.walkMode = .admin
  status : s.compensating.finalStatus = .failed
  error : s.compensating.finalErr = err

/-- The failure still waits, or ends the instance with the walk in flight, or has ended it. -/
def FailureHeld (err : String) (x s : ControlState) : Prop :=
  FailurePending err s ∨ FailureWalk err s ∨ ∃ cursor, Event.ended .failed err cursor ∈ since x s

/-- The event is none that goes around the walk in flight: a child's failure that ends the instance, or a failure left to
a walk that rolls back to a node. -/
def Event.sparesWalk : Event → Bool
  | .childFailed _ cursor => cursor.activeCmdID == ""
  | .deferredFailure _ cursor => cursor.toNode == ""
  | _ => true

/-- No cancel is left to a walk. -/
def Event.leavesFailure : Event → Bool
  | .cancelPended _ => false
  | _ => true

section WalkEnd
variable {top : ProcessDefinition} {g : IDGenerator} {trg : TriggerBody} {s s' x : ControlState} {err : String}

/-! ## Steps that do not answer the walk -/

theorem answers_congr (h : s'.compensating.activeCmdID = s.compensating.activeCmdID) : Answers s' trg ↔ Answers s trg := by
  unfold Answers
  rw [h]

/-- A trigger that does not answer the walk's command leaves the walk in flight. -/
theorem Move.unanswered (hs : Phase g s) (hflight : s.InFlight) (hno : ¬ Answers s trg) (hmove : Move top g trg s s') :
    s'.InFlight ∧ ¬ Answers s' trg := by
  have hsame : s'.outlook.command = s.outlook.command → s'.InFlight ∧ ¬ Answers s' trg := by
    intro he
    have hcmd : s'.compensating.activeCmdID = s.compensating.activeCmdID := he
    unfold InFlight
    rw [answers_congr hcmd, hcmd]
    exact ⟨hflight, hno⟩
  cases hmove.course hs with
  | steady he => exact hsame (by rw [he])
  | goesOn _ htrg he =>
    rcases htrg with hans | ⟨timerID, rfl⟩
    · exact absurd hans hno
    · have hcmd : s'.compensating.activeCmdID = s.nextCmdID g := congrArg Outlook.command he
      refine ⟨?_, fun hans => hans⟩
      unfold InFlight
      rw [hcmd]
      exact inFlight_nextCmdID g s
  | cancelPended _ hmode hev he => exact hsame (by rw [he])
  | failurePended err _ hfwd hev he => exact hsame (by rw [he])
  | throws hidle hfwd aim he => exact absurd hflight hidle
  | begins hidle o hasked he => exact absurd hflight hidle
  | resumes cur hfin hres hpend he => exact absurd (hfin.answers hs hflight).2.1 hno
  | overtaken cur hfin hcons hpend command hcmd he => exact absurd (hfin.answers hs hflight).2.1 hno

theorem Moves.unanswered (hs : Wf g s) (hflight : s.InFlight) (hno : ¬ Answers s trg) (h : Moves top g trg s s') :
    s'.InFlight ∧ ¬ Answers s' trg := by
  induction h with
  | refl => exact ⟨hflight, hno⟩
  | tail hpre hmove ih => exact hmove.unanswered (Moves.wf hs hpre).phase ih.1 ih.2

theorem End.unanswered (hs : Phase g s) (hflight : s.InFlight) (hno : ¬ Answers s trg) (hend : End trg s s')
    (hspares : ∀ e ∈ since s s', e.sparesWalk = true) (top : ProcessDefinition) :
    ∃ outcome pending, Event.forced outcome pending ∈ since s s' := by
  cases hend.ending top g with
  | complete hlive hidle htok he => exact absurd hflight hidle
  | idle st err hlive hidle hst he => exact absurd hflight hidle
  | childFailed err hlive htok hev he => exact absurd (beq_iff_eq.mp (hspares _ hev)) hflight
  | forced outcome err hlive htok hev he => exact ⟨outcome, _, hev⟩
  | terminate cur hfin hmode he => exact absurd (hfin.answers hs hflight).2.1 hno
  | abandon _ hans hmode he => exact absurd hans hno
  | pending cur hfin hcons hpend he => exact absurd (hfin.answers hs hflight).2.1 hno

theorem not_terminal (hst : s.status = .compensating) : ¬ s.status.isTerminal = true := by
  rw [hst]
  simp [Status.isTerminal]

/-! ## Answers -/

/-- The next record goes out, unless there is none. -/
theorem advance_last {drv : DriveLoop} {c : StepCtx} {y : InstanceState}
    (hst : y.status = .compensating) (h : stepCompensationAdvance drv c y = .ok r)
    (hterm : r.state.status.isTerminal = true) :
    Exhausted y.toControlState := by
  have hctl := y.retireCompensationStallIncidents_control y.compensating.activeCmdID
  unfold stepCompensationAdvance at h
  dsimp only at h
  generalize (y.retireCompensationStallIncidents y.compensating.activeCmdID) = z at h hctl
  rw [show z.toControlState = y.toControlState from hctl] at h
  split at h
  · rename_i hdone
    rw [Bool.or_eq_true, decide_eq_true_eq, decide_eq_true_eq] at hdone
    rcases hdone with hneg | hto
    · exact Or.inl (by omega)
    · exact Or.inr (Or.inr hto)
  · rename_i hmore
    rw [Bool.or_eq_true, decide_eq_true_eq, decide_eq_true_eq, not_or] at hmore
    split at h
    · rename_i hnone
      have hlen := List.getElem?_eq_none_iff.mp hnone
      have hpos := hmore.1
      exact Or.inr (Or.inl (by omega))
    · rename_i rec hrec
      rw [← Except.ok.inj h, afterDispatch_control, InstanceState.onControl_toControlState,
        (sameOutline (dispatch_outline _ _ _ _ _)).status] at hterm
      exact absurd hterm (not_terminal (by rw [InstanceState.nextCommandID_control, hctl]; exact hst))

theorem retryLater_status {c : StepCtx} {y : InstanceState} {nodeID e : String} {retryable : Bool}
    (h : armCompensationRetryTimer c y nodeID e retryable = some r) : r.state.status = y.status := by
  unfold armCompensationRetryTimer at h
  split at h
  · cases h
  · dsimp only at h
    split at h
    · cases h
    · split at h
      · cases h
      · rw [← Option.some.inj h]
        rfl

/-- An answer that ends the instance answers the last command, or abandons the walk. -/
theorem answered_last {drv : DriveLoop} {c : StepCtx} {y : InstanceState}
    (hs : Phase c.ids y.toControlState) (hflight : y.toControlState.InFlight) (hans : Answers y.toControlState trg)
    (h : handle drv c y trg = .ok r) (hterm : r.state.status.isTerminal = true) : ClosesWalk y.toControlState trg := by
  have hst : y.status = .compensating := hs.status.mpr hflight
  refine ⟨hans, ?_⟩
  cases trg with
  | actionCompleted commandID output =>
    have hid : commandID = y.compensating.activeCmdID := hans
    unfold handle handleActionCompleted at h
    dsimp only at h
    rw [if_pos (by rw [hst, hid]; simp)] at h
    have hctl := y.retireCompensationFailedIncidents_control commandID
    have hlast := advance_last ((congrArg ControlState.status hctl).trans hst) h hterm
    rw [hctl] at hlast
    exact Or.inl hlast
  | actionFailed commandID e retryable jitter cause =>
    have hid : commandID = y.compensating.activeCmdID := hans
    unfold handle handleActionFailed at h
    dsimp only at h
    rw [if_pos (by rw [hst, hid]; simp)] at h
    unfold handleCompensationFailed at h
    split at h
    · rw [← Except.ok.inj h] at hterm
      exact absurd hterm (not_terminal hst)
    · dsimp only at h
      split at h
      · rename_i r' hretry
        rw [← Except.ok.inj h] at hterm
        refine absurd hterm (not_terminal ?_)
        exact (retryLater_status hretry).trans ((congrArg ControlState.status (y.raise_control c.ids _)).trans hst)
      · have hlast := advance_last ((congrArg ControlState.status (y.raise_control c.ids _)).trans hst) h hterm
        rw [y.raise_control] at hlast
        exact Or.inl hlast
  | resolveCompensationStall commandID incidentID disposition =>
    have hid : commandID = y.compensating.activeCmdID := hans
    cases disposition with
    | abandon => exact Or.inr ⟨commandID, incidentID, rfl⟩
    | skip =>
      unfold handle handleResolveCompensationStall at h
      dsimp only at h
      split at h
      · cases h
      · split at h
        · cases h
        · split at h
          · cases h
          · exact Or.inl (advance_last hst h hterm)
    | retry =>
      exfalso
      obtain ⟨rec, hrec⟩ := (hs.walk hflight).currentRecord
      unfold handle handleResolveCompensationStall at h
      dsimp only at h
      split at h
      · cases h
      · split at h
        · cases h
        · split at h
          · cases h
          · unfold retryStalledCompensation at h
            dsimp only at h
            rw [hrec] at h
            dsimp only at h
            rw [← Except.ok.inj h] at hterm
            refine absurd hterm (not_terminal ?_)
            rw [redispatchCurrent_control, InstanceState.retireCompensationFailedIncidents_control,
              InstanceState.retireCompensationStallIncidents_control]
            exact hst
  | _ => exact hans.elim

/-! ## Pending failures -/

/-- A pending failure was left to a throw's walk, which is still in flight. -/
def FailureTraced (s : ControlState) : Prop :=
  s.pendingCancel = true → s.pendingFinalStatus = .failed →
    s.InFlight ∧ s.compensating.resumeNode ≠ "" ∧ s.compensating.toNode = "" ∧ FailureDeferred s.trace

theorem FailureDeferred.mono (hlogs : Logs true top g s s') (h : FailureDeferred s.trace) : FailureDeferred s'.trace := by
  obtain ⟨e, cur, hmem, hne⟩ := h
  refine ⟨e, cur, ?_, hne⟩
  rw [hlogs.since_append]
  exact List.mem_append_right _ hmem

theorem failureDeferred_of_since (hlogs : Logs true top g s s') {cur : CompensationCursor}
    (he : Event.deferredFailure err cur ∈ since s s') (hne : cur.resumeNode ≠ "") : FailureDeferred s'.trace := by
  refine ⟨err, cur, ?_, hne⟩
  rw [hlogs.since_append]
  exact List.mem_append_left _ he

/-- A finished walk of a throw takes a pending failure up. -/
theorem FailureTraced.not_resumed (hs : Phase g s) (h : FailureTraced s) (hp : s.pendingCancel = true)
    (hf : s.pendingFinalStatus = .failed) {cur : CompensationCursor} (hfin : Finishing trg s cur)
    (hpend : (finishPlan s.settled cur).consumePendingCancel = true → s.pendingCancel = false) : False := by
  obtain ⟨hflight, hres, -⟩ := h hp hf
  obtain ⟨rfl, -⟩ := hfin.answers hs hflight
  rw [hpend (finishPlan_throw _ hres)] at hp
  cases hp

theorem Move.failureTraced (hwf : Wf g s) (h : FailureTraced s) (hmove : Move top g trg s s')
    (hspares : ∀ e ∈ since s s', e.sparesWalk = true) : FailureTraced s' := by
  have hs := hwf.phase
  have hlogs : Logs true top g s s' := hmove.logs hwf
  -- the pending failure was there, with the same aim
  have hsame : s'.outlook = s.outlook → FailureTraced s' := by
    intro he hp hf
    have hp' : s.pendingCancel = true := (congrArg Outlook.pendingCancel he).symm.trans hp
    have hf' : s.pendingFinalStatus = .failed := (congrArg Outlook.pendingFinalStatus he).symm.trans hf
    obtain ⟨hflight, hres, hto, hd⟩ := h hp' hf'
    have hcmd : s'.compensating.activeCmdID = s.compensating.activeCmdID := congrArg Outlook.command he
    have haim : s'.compensating.aim = s.compensating.aim := congrArg Outlook.aim he
    exact ⟨fun hidle => hflight (hcmd.symm.trans hidle), fun hno => hres ((congrArg Aim.resumeNode haim).symm.trans hno),
      (congrArg Aim.toNode haim).trans hto, hd.mono hlogs⟩
  cases hmove.course hs with
  | steady he => exact hsame he
  | goesOn hflight htrg he =>
    intro hp hf
    have hp' : s.pendingCancel = true := (congrArg Outlook.pendingCancel he).symm.trans hp
    have hf' : s.pendingFinalStatus = .failed := (congrArg Outlook.pendingFinalStatus he).symm.trans hf
    obtain ⟨-, hres, hto, hd⟩ := h hp' hf'
    have hcmd : s'.compensating.activeCmdID = s.nextCmdID g := congrArg Outlook.command he
    have haim : s'.compensating.aim = s.compensating.aim := congrArg Outlook.aim he
    refine ⟨?_, fun hno => hres ((congrArg Aim.resumeNode haim).symm.trans hno), (congrArg Aim.toNode haim).trans hto,
      hd.mono hlogs⟩
    unfold InFlight
    rw [hcmd]
    exact inFlight_nextCmdID g s
  | cancelPended hflight hmode hev he =>
    intro hp hf
    have hst : s'.pendingFinalStatus = .terminated := congrArg Outlook.pendingFinalStatus he
    rw [hst] at hf
    cases hf
  | failurePended e hflight hfwd hev he =>
    intro hp hf
    have hcmd : s'.compensating.activeCmdID = s.compensating.activeCmdID := congrArg Outlook.command he
    have haim : s'.compensating.aim = s.compensating.aim := congrArg Outlook.aim he
    have hto : s.compensating.toNode = "" := beq_iff_eq.mp (hspares _ hev)
    have hres : s.compensating.resumeNode ≠ "" := fun hno => hfwd.unsealed (Or.inl ⟨hflight, hno, hto⟩)
    exact ⟨fun hidle => hflight (hcmd.symm.trans hidle), fun hno => hres ((congrArg Aim.resumeNode haim).symm.trans hno),
      (congrArg Aim.toNode haim).trans hto, failureDeferred_of_since hlogs hev hres⟩
  | throws hidle hfwd aim he =>
    intro hp hf
    have hp' : s.pendingCancel = true := (congrArg Outlook.pendingCancel he).symm.trans hp
    have hf' : s.pendingFinalStatus = .failed := (congrArg Outlook.pendingFinalStatus he).symm.trans hf
    exact absurd (h hp' hf').1 hidle
  | begins hidle o hasked he =>
    intro hp hf
    have hp' : s.pendingCancel = true := (congrArg Outlook.pendingCancel he).symm.trans hp
    have hf' : s.pendingFinalStatus = .failed := (congrArg Outlook.pendingFinalStatus he).symm.trans hf
    exact absurd (h hp' hf').1 hidle
  | resumes cur hfin hres hpend he =>
    intro hp hf
    have hp' : s.pendingCancel = true := (congrArg Outlook.pendingCancel he).symm.trans hp
    have hf' : s.pendingFinalStatus = .failed := (congrArg Outlook.pendingFinalStatus he).symm.trans hf
    exact (h.not_resumed hs hp' hf' hfin hpend).elim
  | overtaken cur hfin hcons hpend command hcmd he =>
    intro hp hf
    have hp' : s'.pendingCancel = false := congrArg Outlook.pendingCancel he
    rw [hp'] at hp
    cases hp

/-- An end leaves the pending flags alone, or takes them up. -/
theorem End.pending_flags (hend : End trg s s') (hp : s'.pendingCancel = true) :
    s.pendingCancel = true ∧ s'.pendingFinalStatus = s.pendingFinalStatus := by
  have hflags : ∀ (p : ControlState) (st : Status) (e : String), (p.endControl st e).pendingCancel = p.pendingCancel ∧
      (p.endControl st e).pendingFinalStatus = p.pendingFinalStatus := by
    intro p st e
    have ho := sameOutline (harvest_outline { p with status := st })
    exact ⟨ho.pendingCancel, ho.pendingFinalStatus⟩
  cases hend with
  | complete hlive hdrained => exact ⟨(hflags s _ _).1.symm.trans hp, (hflags s _ _).2⟩
  | idle st err hlive hidle hst => exact ⟨(hflags s _ _).1.symm.trans hp, (hflags s _ _).2⟩
  | childFailed err hlive htok =>
    exact ⟨(hflags (s.note (.childFailed err s.compensating)) _ _).1.symm.trans hp, (hflags (s.note _) _ _).2⟩
  | forced outcome at_ err hlive htok =>
    have ho := outlook_cancelListed at_ .terminated s.tokens (s.note (.forced outcome s.pendingCancel))
    have hk := hflags ((s.note (.forced outcome s.pendingCancel)).cancelListed at_ .terminated s.tokens)
      (forcedStatus outcome) err
    exact ⟨(congrArg Outlook.pendingCancel ho).symm.trans (hk.1.symm.trans hp),
      hk.2.trans (congrArg Outlook.pendingFinalStatus ho)⟩
  | terminate cur hfin hmode =>
    have ho := sameOutline (s.settled.mapRecords_outline cur.scopeID (fun _ => []))
    have hk := hflags (s.settled.clearRecords cur.scopeID) (finalStatusOf cur.finalStatus) cur.finalErr
    exact ⟨ho.pendingCancel.symm.trans (hk.1.symm.trans hp), hk.2.trans ho.pendingFinalStatus⟩
  | abandon hflight hans hmode =>
    have ho := sameOutline (s.settled.mapRecords_outline s.compensating.scopeID (fun _ => []))
    have hk := hflags (s.settled.clearRecords s.compensating.scopeID) (finalStatusOf s.compensating.finalStatus)
      s.compensating.finalErr
    have ho' := sameOutline (mapRecords_outline ((s.settled.clearRecords s.compensating.scopeID).endControl
      (finalStatusOf s.compensating.finalStatus) s.compensating.finalErr) s.compensating.scopeID
      (fun _ => s.retainedRecordPrefix s.compensating.scopeID s.compensating.nextIndex))
    exact ⟨ho.pendingCancel.symm.trans (hk.1.symm.trans (ho'.pendingCancel.symm.trans hp)),
      ho'.pendingFinalStatus.trans (hk.2.trans ho.pendingFinalStatus)⟩
  | pending cur p hfin hcons hpend hsweep hclear hnone =>
    have hk := hflags p (pendingOutcome s).finalStatus (pendingOutcome s).finalErr
    have hno : p.pendingCancel = false := congrArg Outlook.pendingCancel (outlook_overtaken hsweep)
    rw [hk.1, hno] at hp
    cases hp

/-- With a pending failure no token is left, so only the walk ends the instance. -/
theorem FailureTraced.tokens (hs : Phase g s) (h : FailureTraced s) (hp : s.pendingCancel = true)
    (hf : s.pendingFinalStatus = .failed) : s.tokens = [] := hs.sealed (Or.inr (h hp hf).2.2.2)

theorem End.failureTraced (hs : Phase g s) (h : FailureTraced s) (hend : End trg s s') : FailureTraced s' := by
  intro hp' hf'
  obtain ⟨hp, hst⟩ := hend.pending_flags hp'
  have hf : s.pendingFinalStatus = .failed := hst.symm.trans hf'
  obtain ⟨hflight, hres, hto, hd⟩ := h hp hf
  have htok := h.tokens hs hp hf
  exfalso
  have hadmin : s.compensating.walkMode ≠ .admin := fun hmode => hres (walkMode_eq_admin.mp hmode).1
  cases hend with
  | complete hlive hdrained =>
    unfold drained at hdrained
    rw [Bool.and_eq_true, beq_iff_eq] at hdrained
    exact hflight hdrained.2
  | idle st err hlive hidle hst => exact hidle hflight
  | childFailed err hlive htok' => exact htok' htok
  | forced outcome at_ err hlive htok' => exact htok' htok
  | terminate cur hfin hmode =>
    obtain ⟨rfl, -⟩ := hfin.answers hs hflight
    exact hadmin hmode
  | abandon _ hans hmode => exact hadmin hmode
  | pending cur p hfin hcons hpend hsweep hclear hnone =>
    have ho := sameOutline (harvest_outline { p with status := (pendingOutcome s).finalStatus })
    have hno : p.pendingCancel = false := congrArg Outlook.pendingCancel (outlook_overtaken hsweep)
    have hp'' : p.pendingCancel = true := ho.pendingCancel.symm.trans hp'
    rw [hno] at hp''
    cases hp''

theorem FailureWalk.root (h : FailureWalk err s) : s.Sealed := by
  obtain ⟨hres, hto, -⟩ := walkMode_eq_admin.mp h.mode
  exact Or.inl ⟨h.flight, hres, hto⟩

theorem FailurePending.outcome (h : FailurePending err s) :
    (pendingOutcome s).finalStatus = .failed ∧ (pendingOutcome s).finalErr = err := by
  unfold pendingOutcome
  rw [h.status, ← h.error]
  exact ⟨rfl, rfl⟩

/-- What is held of the failure in the walk's outlook. -/
theorem failureWalk_of_outlook (hcmd : s'.outlook.command ≠ "") (haim : s'.outlook.aim = ⟨"", "", "", .failed, err⟩) :
    FailureWalk err s' := by
  have hres : s'.compensating.resumeNode = "" := congrArg Aim.resumeNode haim
  have hto : s'.compensating.toNode = "" := congrArg Aim.toNode haim
  have hrev : s'.compensating.reverseNode = "" := congrArg Aim.reverseNode haim
  exact ⟨hcmd, walkMode_eq_admin.mpr ⟨hres, hto, hrev⟩, congrArg Aim.finalStatus haim, congrArg Aim.finalErr haim⟩

theorem FailureWalk.aim (h : FailureWalk err s) : s.outlook.aim = ⟨"", "", "", .failed, err⟩ := by
  obtain ⟨hres, hto, hrev⟩ := walkMode_eq_admin.mp h.mode
  change s.compensating.aim = _
  unfold CompensationCursor.aim
  rw [hres, hto, hrev, h.status, h.error]

theorem Move.failureHeld (hwf : Wf g s) (ht : FailureTraced s) (h : FailurePending err s ∨ FailureWalk err s)
    (hmove : Move top g trg s s') (hleaves : ∀ e ∈ since s s', e.leavesFailure = true) :
    FailurePending err s' ∨ FailureWalk err s' := by
  have hs := hwf.phase
  have hflight : s.InFlight := h.elim (·.flight) (·.flight)
  have hsealed : s.Sealed := h.elim (fun hp => Or.inr (ht hp.pending hp.status).2.2.2) (·.root)
  -- the walk and the flags are the same, under some command
  have hsame : ∀ {command : String}, command ≠ "" → s'.outlook.command = command → s'.outlook.aim = s.outlook.aim →
      s'.outlook.pendingCancel = s.outlook.pendingCancel → s'.outlook.pendingFinalStatus = s.outlook.pendingFinalStatus →
      s'.outlook.pendingFinalErr = s.outlook.pendingFinalErr → FailurePending err s' ∨ FailureWalk err s' := by
    intro command hne hcmd haim hpc hps hpe
    rcases h with hp | hw
    · exact Or.inl ⟨fun hidle => hne (hcmd.symm.trans hidle), hpc.trans hp.pending, hps.trans hp.status, hpe.trans hp.error⟩
    · exact Or.inr (failureWalk_of_outlook (hcmd ▸ hne) (haim.trans hw.aim))
  cases hmove.course hs with
  | steady he => exact hsame hflight (by rw [he]; rfl) (by rw [he]) (by rw [he]) (by rw [he]) (by rw [he])
  | goesOn _ htrg he =>
    exact hsame (inFlight_nextCmdID g s) (by rw [he]; rfl) (by rw [he]; rfl) (by rw [he]; rfl) (by rw [he]; rfl)
      (by rw [he]; rfl)
  | cancelPended _ hmode hev he => cases hleaves _ hev
  | failurePended e _ hfwd hev he => exact absurd hsealed hfwd.unsealed
  | throws hidle hfwd aim he => exact absurd hflight hidle
  | begins hidle o hasked he => exact absurd hflight hidle
  | resumes cur hfin hres hpend he =>
    rcases h with hp | hw
    · exact (ht.not_resumed hs hp.pending hp.status hfin hpend).elim
    · obtain ⟨rfl, -⟩ := hfin.answers hs hflight
      rw [finishPlan_admin s.settled hw.mode] at hres
      cases hres
  | overtaken cur hfin hcons hpend command hcmd he =>
    rcases h with hp | hw
    · obtain ⟨hst, herr⟩ := hp.outcome
      refine Or.inr (failureWalk_of_outlook (by rw [he]; exact hcmd) ?_)
      rw [he]
      change (pendingOutcome s).aim = _
      unfold CompensationOutcome.aim
      rw [hst, herr]
      rfl
    · obtain ⟨rfl, -⟩ := hfin.answers hs hflight
      unfold finishPlan at hcons
      rw [hw.mode] at hcons
      cases hcons

theorem End.failureHeld (hs : Phase g s) (ht : FailureTraced s) (h : FailurePending err s ∨ FailureWalk err s)
    (hend : End trg s s') (top : ProcessDefinition) : ∃ cursor, Event.ended .failed err cursor ∈ since s s' := by
  have hflight : s.InFlight := h.elim (·.flight) (·.flight)
  have hsealed : s.Sealed := h.elim (fun hp => Or.inr (ht hp.pending hp.status).2.2.2) (·.root)
  have htokens := hs.sealed hsealed
  have hadmin : s.compensating.walkMode = .admin → s.compensating.finalStatus = .failed ∧ s.compensating.finalErr = err := by
    intro hmode
    rcases h with hp | hw
    · exact absurd (walkMode_eq_admin.mp hmode).1 (ht hp.pending hp.status).2.1
    · exact ⟨hw.status, hw.error⟩
  cases hend.ending top g with
  | complete hlive hidle htok he => exact absurd hflight hidle
  | idle st err hlive hidle hst he => exact absurd hflight hidle
  | childFailed err hlive htok hev he => exact absurd htokens htok
  | forced outcome err hlive htok hev he => exact absurd htokens htok
  | terminate cur hfin hmode he =>
    obtain ⟨rfl, -⟩ := hfin.answers hs hflight
    obtain ⟨hst, herr⟩ := hadmin hmode
    have hev := he.event
    rw [hst, herr] at hev
    exact hev
  | abandon _ hans hmode he =>
    obtain ⟨hst, herr⟩ := hadmin hmode
    have hev := he.event
    rw [hst, herr] at hev
    exact hev
  | pending cur hfin hcons hpend he =>
    rcases h with hp | hw
    · have hev := he.event
      rw [hp.outcome.1, hp.outcome.2] at hev
      exact hev
    · obtain ⟨rfl, -⟩ := hfin.answers hs hflight
      unfold finishPlan at hcons
      rw [hw.mode] at hcons
      cases hcons

end WalkEnd

/-! ## Runs -/

variable {p : ProcessDefinition} {gen : Option IDGenerator} {inst : String} {calls later : List Call} {x y : InstanceState}

theorem failureTraced_run (hrun : Run p gen inst calls x) (hspares : ∀ e ∈ x.trace, e.sparesWalk = true) :
    FailureTraced x.toControlState := by
  have hlogs := Steps.logs hrun (Run.blank_sound gen inst)
  have hsince : ∀ e ∈ since ({ instanceID := inst } : ControlState) x.toControlState, e.sparesWalk = true := by
    intro e he
    refine hspares e ?_
    rw [hlogs.since_append]
    exact List.mem_append_left _ he
  exact Steps.induction (I := FailureTraced) (P := fun _ => True) (C := fun e => e.sparesWalk = true) hrun
    (Run.blank_sound gen inst) (fun _ _ => trivial) hsince (fun hp => by cases hp)
    (fun hwf _ hC h hmove => hmove.failureTraced hwf h hC) (fun hwf _ _ h hend => hend.failureTraced hwf.phase h)

theorem failureHeld_later (hx : Steps.Sound gen inst x) (ht : FailureTraced x.toControlState) {err : String}
    (h : FailurePending err x.toControlState) (hlater : Steps p gen x later y)
    (hsince : ∀ e ∈ since x.toControlState y.toControlState, e.sparesWalk = true ∧ e.leavesFailure = true) :
    FailureHeld err x.toControlState y.toControlState := by
  have hall := Steps.induction (I := fun s => Logs true p (runIDs gen inst) x.toControlState s ∧ FailureTraced s ∧
      FailureHeld err x.toControlState s) (P := fun _ => True) (C := fun e => e.sparesWalk = true ∧ e.leavesFailure = true)
    hlater hx (fun _ _ => trivial) hsince ⟨Logs.same (by rfl), ht, Or.inl h⟩ ?_ ?_
  · exact hall.2.2
  · intro trg s s' hwf _ hC ⟨hlogs, ht, h⟩ hmove
    have hmv : Logs true p (runIDs gen inst) _ _ := hmove.logs hwf
    refine ⟨hlogs.trans hmv, hmove.failureTraced hwf ht (fun e he => (hC e he).1), ?_⟩
    have hheld : FailurePending err s ∨ FailureWalk err s → FailureHeld err x.toControlState s' := by
      intro hor
      rcases hmove.failureHeld hwf ht hor (fun e he => (hC e he).2) with hp | hw
      · exact Or.inl hp
      · exact Or.inr (Or.inl hw)
    rcases h with hp | hw | ⟨cur, he⟩
    · exact hheld (Or.inl hp)
    · exact hheld (Or.inr hw)
    · refine Or.inr (Or.inr ⟨cur, ?_⟩)
      rw [hlogs.since_trans hmv]
      exact List.mem_append_right _ he
  · intro trg s s' hwf _ hC ⟨hlogs, ht, h⟩ hend
    have hlog : Logs true p (runIDs gen inst) s s' := hend.logs
    refine ⟨hlogs.trans hlog, hend.failureTraced hwf.phase ht, Or.inr (Or.inr ?_)⟩
    have hheld : FailurePending err s ∨ FailureWalk err s →
        ∃ cursor, Event.ended .failed err cursor ∈ since x.toControlState s' := by
      intro hor
      obtain ⟨cur, he⟩ := hend.failureHeld hwf.phase ht hor p
      refine ⟨cur, ?_⟩
      rw [hlogs.since_trans hlog]
      exact List.mem_append_left _ he
    rcases h with hp | hw | ⟨cur, he⟩
    · exact hheld (Or.inl hp)
    · exact hheld (Or.inr hw)
    · refine ⟨cur, ?_⟩
      rw [hlogs.since_trans hlog]
      exact List.mem_append_right _ he

/-- An error that nothing handles waits for the walk in flight. -/
theorem handleUnhandledError_pends {drv : DriveLoop} {c : StepCtx} {z : InstanceState}
    (hst : z.status = .compensating) (hflight : z.toControlState.InFlight) {scopeID nodeID tokenID err : String}
    (h : handleUnhandledError drv c z scopeID nodeID tokenID err false = .ok r) :
    FailurePending err r.state.toControlState := by
  unfold handleUnhandledError at h
  rw [if_neg (by simp), if_pos (by rw [hst, Bool.and_eq_true, bne_iff_ne]; exact ⟨rfl, hflight⟩)] at h
  rw [← Except.ok.inj h]
  refine ⟨?_, rfl, rfl, rfl⟩
  have hout := outlook_cancelListed c.at_ .errored z.tokens z.toControlState
  rw [← cancelTokens_control] at hout
  have hcmd : (cancelTokens c.at_ .errored z.tokens z).state.compensating.activeCmdID = z.compensating.activeCmdID :=
    congrArg Outlook.command hout
  exact fun hidle => hflight (hcmd.symm.trans hidle)

/-- A step under a walk in flight ends the instance only with the walk or by force; an error that nothing handles is put off,
a failure that a step has put off waits for the walk in flight, and it ends the instance once the walk is over. -/
theorem walk_outlives_failures (hrun : Run p gen inst calls x) (hspares : ∀ e ∈ x.trace, e.sparesWalk = true)
    (hflight : x.toControlState.InFlight) :
    (∀ (call : Call) (r : StepResult), call.opt.idGenerator = gen → step call.fuel p x call.trigger call.opt = .ok r →
      (∀ e ∈ since x.toControlState r.state.toControlState, e.sparesWalk = true) → r.state.status.isTerminal = true →
      ClosesWalk x.toControlState call.trigger.body ∨
        ∃ outcome pending, Event.forced outcome pending ∈ since x.toControlState r.state.toControlState) ∧
    (∀ (drv : DriveLoop) (c : StepCtx) (z : InstanceState) (scopeID nodeID tokenID err : String)
      (r : StepResult), z.status = .compensating → z.toControlState.InFlight →
      handleUnhandledError drv c z scopeID nodeID tokenID err false = .ok r → FailurePending err r.state.toControlState) ∧
    (∀ (call : Call) (r : StepResult), call.opt.idGenerator = gen → step call.fuel p x call.trigger call.opt = .ok r →
      (∀ e ∈ since x.toControlState r.state.toControlState, e.sparesWalk = true) → r.state.pendingCancel = true →
      r.state.pendingFinalStatus = .failed → FailurePending r.state.pendingFinalErr r.state.toControlState) ∧
    ∀ err later y, FailurePending err x.toControlState → Steps p gen x later y →
      (∀ e ∈ since x.toControlState y.toControlState, e.sparesWalk = true ∧ e.leavesFailure = true) →
      FailureHeld err x.toControlState y.toControlState := by
  have hx := hrun.sound
  refine ⟨fun call r hgen hstep hC hterm => ?_, fun drv c z scopeID nodeID tokenID err r hst hin h =>
    handleUnhandledError_pends hst hin h, fun call r hgen hstep hC hpend hst => ?_, fun err later y h hlater hC =>
    failureHeld_later hx (failureTraced_run hrun hspares) h hlater hC⟩
  swap
  · have htraced := failureTraced_run (Steps.tail hrun call r hgen hstep) (fun e he => ?_)
    · exact ⟨(htraced hpend hst).1, hpend, hst, rfl⟩
    · rw [((hx.reaches hgen hstep).logs hx.wf).since_append] at he
      exact (List.mem_append.mp he).elim (hC e) (hspares e)
  have hreach := hx.reaches hgen hstep
  by_cases hans : Answers x.toControlState call.trigger.body
  · -- the handler's own branches
    obtain ⟨r', h', rfl⟩ := step_dispatch hstep
    have hids : (stepCtx p x call.trigger call.opt).ids = runIDs gen inst := by
      unfold stepCtx StepOptions.ids runIDs
      rw [hgen, hx.instanceID]
    unfold dispatch at h'
    rw [if_neg (not_terminal (hx.wf.phase.status.mpr hflight))] at h'
    have hctl := dropStaleTokenCommands_control r'
    have hterm' : r'.state.status.isTerminal = true := by
      rw [← hterm]
      exact congrArg (fun s : ControlState => s.status.isTerminal) hctl.symm
    exact Or.inl (answered_last (hids ▸ hx.wf.phase) hflight hans h' hterm')
  · refine Or.inr ?_
    obtain ⟨m, hm, he | hend⟩ := hreach
    · obtain ⟨hin, -⟩ := Moves.unanswered hx.wf hflight hans hm
      have hst : r.state.status = .compensating := by
        rw [he]
        exact (Moves.wf hx.wf hm).phase.status.mpr hin
      exact absurd hterm (not_terminal hst)
    · obtain ⟨hin, hno⟩ := Moves.unanswered hx.wf hflight hans hm
      have hlogs : Logs true p (runIDs gen inst) x.toControlState m := Moves.logs hx.wf hm
      have hlog : Logs true p (runIDs gen inst) m r.state.toControlState := hend.logs
      rw [hlogs.since_trans hlog] at hC ⊢
      obtain ⟨outcome, pend, he⟩ := hend.unanswered (Moves.wf hx.wf hm).phase hin hno
        (fun e he => hC e (List.mem_append_left _ he)) p
      exact ⟨outcome, pend, List.mem_append_left _ he⟩

/-- The failed task beside the throw waits for the throw's walk, and the end of the walk fails the instance. -/
theorem failure_waits_for_throw : ∃ x r y calls later, Run throwBesideForcedEnd none "i" calls x ∧
    x.toControlState.InFlight ∧ step 50 throwBesideForcedEnd x ⟨4, .actionCompleted "i-c2" []⟩ plainOptions = .ok r ∧
    r.state.status = .failed ∧ ClosesWalk x.toControlState (.actionCompleted "i-c2" []) ∧
    FailurePending "down" x.toControlState ∧ Steps throwBesideForcedEnd none x later y ∧ y.status = .failed ∧
    FailureHeld "down" x.toControlState y.toControlState := by
  have hplay : playsThrough throwBesideForcedEnd [.startInstance [] "", .actionCompleted "i-c1" [],
      .actionFailed "i-c3" "down" true 0 none] (.actionCompleted "i-c2" []) [] (fun x r _ =>
        x.trace.all (·.sparesWalk) && x.compensating.activeCmdID != "" && r.state.status == .failed &&
        (since x.toControlState r.state.toControlState).all (fun e => e.sparesWalk && e.leavesFailure) &&
        (since x.toControlState r.state.toControlState).all (fun e => match e with | .forced _ _ => false | _ => true) &&
        x.pendingCancel && x.pendingFinalStatus == .failed && x.pendingFinalErr == "down") = true := by decide
  obtain ⟨x, r, y, hrun, hstep, -, hP⟩ := run_of_playsThrough hplay
  simp only [Bool.and_eq_true, List.all_eq_true, bne_iff_ne, beq_iff_eq] at hP
  obtain ⟨⟨⟨⟨⟨⟨⟨hspares, hflight⟩, hfailed⟩, hsince⟩, hforced⟩, hpend⟩, hst⟩, herr⟩ := hP
  have hall := walk_outlives_failures hrun hspares hflight
  have hpending : FailurePending "down" x.toControlState := ⟨hflight, hpend, hst, herr⟩
  have hlater : Steps throwBesideForcedEnd none x _ r.state :=
    Steps.tail Steps.refl ⟨50, ⟨4, .actionCompleted "i-c2" []⟩, plainOptions⟩ r rfl hstep
  have hterm : r.state.status.isTerminal = true := by
    rw [hfailed]
    rfl
  refine ⟨x, r, r.state, _, _, hrun, hflight, hstep, hfailed, ?_, hpending, hlater, hfailed,
    hall.2.2.2 "down" _ _ hpending hlater hsince⟩
  rcases hall.1 ⟨50, ⟨4, .actionCompleted "i-c2" []⟩, plainOptions⟩ r rfl hstep (fun e he => (hsince e he).1) hterm with
    hcl | ⟨outcome, pend, he⟩
  · exact hcl
  · cases hforced _ he

/-- After an undoable task, a compensation throw on one branch and a child instance on the other. -/
def throwBesideChild : ProcessDefinition where
  id := "child"
  version := 1
  nodes := [startNode "s", serviceNode "t" "undo", forkNode "g",
    { id := "x", spec := .compensationThrowEvent {} },
    { id := "c", spec := .callActivity {} ⟨"sub", 1⟩ }, endNode "e1", endNode "e2"]
  flows := [flowOf "f1" "s" "t", flowOf "f2" "t" "g", flowOf "f3" "g" "x", flowOf "f4" "g" "c", flowOf "f5" "x" "e1",
    flowOf "f6" "c" "e2"]

/-- The child's failure ends the instance under the throw's walk. -/
theorem child_failure_ends_walk : Accepted asciiTables throwBesideChild ∧ ∃ x r calls, Run throwBesideChild none "i" calls x ∧
    x.toControlState.InFlight ∧ step 50 throwBesideChild x ⟨3, .subInstanceFailed "i-c3" "down"⟩ plainOptions = .ok r ∧
    r.state.status = .failed ∧ ¬ ClosesWalk x.toControlState (.subInstanceFailed "i-c3" "down") ∧
    ∀ outcome pending, Event.forced outcome pending ∉ since x.toControlState r.state.toControlState := by
  have hplay : playsThrough throwBesideChild [.startInstance [] "", .actionCompleted "i-c1" []]
      (.subInstanceFailed "i-c3" "down") [] (fun x r _ => x.compensating.activeCmdID != "" && r.state.status == .failed &&
        (since x.toControlState r.state.toControlState).all (fun e => match e with | .forced _ _ => false | _ => true)) =
          true := by
    decide
  obtain ⟨x, r, y, hrun, hstep, -, hP⟩ := run_of_playsThrough hplay
  simp only [Bool.and_eq_true, List.all_eq_true, bne_iff_ne, beq_iff_eq] at hP
  obtain ⟨⟨hflight, hfailed⟩, hforced⟩ := hP
  refine ⟨by decide, x, r, _, hrun, hflight, hstep, hfailed, fun hcl => hcl.1, fun outcome pend he => ?_⟩
  cases hforced _ he

end Wrkflw
