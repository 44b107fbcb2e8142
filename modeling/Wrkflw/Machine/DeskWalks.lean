import Wrkflw.Machine.DeskPaths

/-!
# Walks, errors and events on a desk

The acts of the compensation walks (`Engine/Walk`), of error propagation and of the arms that fire (`Engine/Errors`). The
`drive` loop is a parameter that is itself a sequence of acts.
-/

namespace Wrkflw

open ControlState

variable {o : CompensationOutcome} {toNode : String}

/-- Every result of the loop is a sequence of acts. -/
def DoesDrive (g : IDGenerator) (trg : TriggerBody) (d0 : Desk) (drv : DriveLoop) : Prop :=
  ∀ s r, drv s = .ok r → Does g trg d0 s r

section
variable {trg : TriggerBody} {d0 : Desk} {s s' : InstanceState} {r r' : StepResult} {c : StepCtx}
  {drv : DriveLoop}

theorem does_thenDrive (hdrv : DoesDrive c.ids trg d0 drv) (h : Does c.ids trg d0 s r)
    (hr : thenDrive drv r = .ok r') : Does c.ids trg d0 s r' := by
  obtain ⟨r1, h1, rfl⟩ := map_prepend_ok hr
  exact h.trans (hdrv _ _ h1)

/-! ## Walk timers and incidents -/

theorem does_cancelWalkTimers (s : InstanceState) : Does c.ids trg d0 s (cancelCompensationWalkTimers s) := by
  refine Does.of_act (.dropTimers (fun tr => !tr.kind.firesOnDyingInstance) "" _ (Or.inl rfl) ?_)
  simp only [Bool.not_not]
  exact cancels_all _

theorem does_scheduleWalkTimer (s : InstanceState) {kind : TimerKind} (hkind : kind ≠ .deadline)
    (nodeID : String) (delay : Duration) :
    Does c.ids trg d0 s (scheduleWalkTimer c.ids s kind nodeID delay).1 :=
  Does.of_act (.schedule
    { timerID := c.ids.newID .timer (s.timerSeq + 1), kind := kind, nodeID := nodeID, scopeID := s.compensating.scopeID,
      commandID := s.compensating.activeCmdID } (TriggerSpec.afterDuration delay) rfl hkind)

theorem does_armStall (s : InstanceState) (nodeID : String) : Does c.ids trg d0 s (armCompensationStallTimer c s nodeID) := by
  unfold armCompensationStallTimer
  dsimp only
  split
  · exact does_cancelWalkTimers s
  · exact (does_cancelWalkTimers s).trans (does_scheduleWalkTimer _ (by decide) _ _)

/-- The incidents of the kind about the command are gone. -/
def Desk.retired (d : Desk) (kind : IncidentKind) (commandID : String) : Desk :=
  if commandID == "" then d
  else { d with incidents := d.incidents.filter (fun inc => !(inc.kind == kind && inc.commandID == commandID)) }

theorem retireIncidents_desk (s : InstanceState) (kind : IncidentKind) (cmdID : String) :
    (s.retireIncidents kind cmdID).desk = s.desk.retired kind cmdID := by
  unfold InstanceState.retireIncidents Desk.retired
  split <;> rfl

theorem acts_retired (d : Desk) {kind : IncidentKind} (hkind : kind ≠ .action ∧ kind ≠ .definitionDefect)
    (cmdID : String) (hfailed : kind = .compensationFailed → cmdID = d0.walk ∧ WalkRenews d0 trg) :
    Acts g trg d0 d (d.retired kind cmdID) [] := by
  unfold Desk.retired
  split
  · exact .nil d
  · have hgone : ∀ inc : Incident, (!(inc.kind == kind && inc.commandID == cmdID)) = false →
        inc.kind = kind ∧ inc.commandID = cmdID := by
      intro inc h
      simpa using h
    refine Act.acts (.retire (fun inc => !(inc.kind == kind && inc.commandID == cmdID)) (fun inc h => ?_)
      (fun inc h hk => ?_))
    · rw [(hgone inc h).1]
      exact hkind
    · obtain ⟨hcmd, hren⟩ := hfailed ((hgone inc h).1.symm.trans hk)
      exact ⟨(hgone inc h).2.trans hcmd, hren⟩

theorem does_retireStall (s : InstanceState) (cmdID : String) :
    Does c.ids trg d0 s ⟨s.retireCompensationStallIncidents cmdID, []⟩ := by
  unfold Does InstanceState.retireCompensationStallIncidents
  rw [retireIncidents_desk]
  exact acts_retired _ (by decide) cmdID (by simp)

theorem does_retireFailed (s : InstanceState) {cmdID : String} (hcmd : cmdID = d0.walk) (hren : WalkRenews d0 trg) :
    Does c.ids trg d0 s ⟨s.retireCompensationFailedIncidents cmdID, []⟩ := by
  unfold Does InstanceState.retireCompensationFailedIncidents
  rw [retireIncidents_desk]
  exact acts_retired _ (by decide) cmdID (fun _ => ⟨hcmd, hren⟩)

/-! ## Cursors -/

/-- The cursor is replaced by one that is not in flight. -/
theorem does_settle {f : ControlState → ControlState} {st : Status} (hst : st.Aborts)
    (hf : (f s.toControlState).front = { s.toControlState.front with
      walk := "", backoff := false, finals := [st, s.pendingFinalStatus] }) :
    Does c.ids trg d0 s ⟨s.onControl f, []⟩ := by
  refine Acts.sane_or (fun hs => ?_)
  have haim : Act c.ids trg d0 s.desk { s.desk with finals := [st, s.pendingFinalStatus] } [] := by
    refine .aim _ (fun st' h => ?_)
    rcases List.mem_cons.mp h with rfl | h
    · exact hst
    · exact hs.finals st' (List.mem_cons_of_mem _ h)
  have hsettle : Act c.ids trg d0 { s.desk with finals := [st, s.pendingFinalStatus] } (s.onControl f).desk [] := by
    rw [onControl_desk, hf]
    exact Act.settle
  exact haim.acts.trans hsettle.acts

/-- A record goes out under the next command, from a desk the walk's command may have been taken off already. -/
theorem acts_dispatched {f : ControlState → ControlState} {st : Status} {walk : String} {backoff b again : Bool}
    (hst : st.Aborts) (rec : CompensationRecord) (hs : ∀ st' ∈ s.desk.finals, st'.Aborts)
    (hagain : again = true → ({ s.desk with walk := walk, backoff := backoff } : Desk).Renewable)
    (hf : (f (s.nextCommandID c.ids).1.toControlState).front = { s.toControlState.front with
      walk := c.ids.newID .command (s.cmdSeq + 1), cmdSeq := s.cmdSeq + 1, backoff := b,
      tries := (c.ids.newID .command (s.cmdSeq + 1), again) :: s.toControlState.front.tries,
      finals := [st, s.pendingFinalStatus] }) :
    Acts c.ids trg d0 { s.desk with walk := walk, backoff := backoff }
      (afterDispatch c ((s.nextCommandID c.ids).1.onControl f) rec (c.ids.newID .command (s.cmdSeq + 1))).state.desk
      (afterDispatch c ((s.nextCommandID c.ids).1.onControl f) rec (c.ids.newID .command (s.cmdSeq + 1))).commands := by
  have hcmd : Act c.ids trg d0 { s.desk with walk := walk, backoff := backoff } _
      [compensationInvoke rec (c.ids.newID .command (s.cmdSeq + 1))] :=
    Act.walkCommand (compensationInvoke rec (c.ids.newID .command (s.cmdSeq + 1))) again b rfl (fun id spec h => by cases h)
      hagain
  have haim : Act c.ids trg d0 { s.desk with
      walk := c.ids.newID .command (s.cmdSeq + 1), cmdSeq := s.cmdSeq + 1, backoff := b,
      tries := (c.ids.newID .command (s.cmdSeq + 1), again) :: s.desk.tries }
      ((s.nextCommandID c.ids).1.onControl f).desk [] := by
    rw [onControl_desk, hf]
    refine .aim _ (fun st' h => ?_)
    rcases List.mem_cons.mp h with rfl | h
    · exact hst
    · exact hs st' (List.mem_cons_of_mem _ h)
  have hboth : Acts c.ids trg d0 { s.desk with walk := walk, backoff := backoff }
      ((s.nextCommandID c.ids).1.onControl f).desk
      ([compensationInvoke rec (c.ids.newID .command (s.cmdSeq + 1))] ++ []) := hcmd.acts.trans haim.acts
  have harm : Does c.ids trg d0 ((s.nextCommandID c.ids).1.onControl f)
      (armCompensationStallTimer c ((s.nextCommandID c.ids).1.onControl f) rec.nodeID) := does_armStall _ _
  exact hboth.trans harm

/-- A record goes out under the next command. -/
theorem does_dispatched {f : ControlState → ControlState} {st : Status} {b again : Bool} (hst : s.desk.Sane → st.Aborts)
    (rec : CompensationRecord) (hagain : again = true → s.desk.Renewable)
    (hf : (f (s.nextCommandID c.ids).1.toControlState).front = { s.toControlState.front with
      walk := c.ids.newID .command (s.cmdSeq + 1), cmdSeq := s.cmdSeq + 1, backoff := b,
      tries := (c.ids.newID .command (s.cmdSeq + 1), again) :: s.toControlState.front.tries,
      finals := [st, s.pendingFinalStatus] }) :
    Does c.ids trg d0 s (afterDispatch c ((s.nextCommandID c.ids).1.onControl f) rec
      (c.ids.newID .command (s.cmdSeq + 1))) :=
  Acts.sane_or (fun hs => acts_dispatched (hst hs) rec hs.finals hagain hf)

theorem dispatch_front (a : ControlState) (cur : CompensationCursor) (idx : Int) (rec : CompensationRecord)
    (cmdID : String) : (a.dispatch cur idx rec cmdID).front = { a.front with
      walk := cur.activeCmdID, backoff := cur.retryTimerID != "", tries := (cmdID, false) :: a.front.tries,
      finals := [cur.finalStatus, a.pendingFinalStatus] } :=
  (front_of_outline (dispatch_outline a cur idx rec cmdID)).trans rfl

/-- The instance is live again. -/
theorem does_reopen {f : ControlState → ControlState}
    (hf : (f s.toControlState).front = { s.toControlState.front with live := true }) :
    Does c.ids trg d0 s ⟨s.onControl f, []⟩ := by
  refine Does.of_act ?_
  rw [onControl_desk, hf]
  exact Act.reopen

/-! ## Beginning and finishing -/

theorem does_clearForWalk (s : InstanceState) (kind : CloseKind) : Does c.ids trg d0 s (clearForWalk c s kind) := by
  have h1 : Does c.ids trg d0 s (cancelTokens c.at_ kind s.tokens s) := does_cancelAll c.at_ kind
  have h2 := h1.trans (does_cancelAllTimers (cancelTokens c.at_ kind s.tokens s).state)
  have h3 := h2.trans (does_cancelAllArms (cancelTokens c.at_ kind s.tokens s).state.cancelAllTimers.state)
  have hsame : (clearForWalk c s kind).state.desk = _ := desk_onControl (front_of_outline (consolidate_outline _))
  have h4 := h3.thenSame hsame
  have hcmds : (clearForWalk c s kind).commands = (cancelTokens c.at_ kind s.tokens s).commands ++
      (cancelTokens c.at_ kind s.tokens s).state.cancelAllTimers.commands ++
      (cancelTokens c.at_ kind s.tokens s).state.cancelAllTimers.state.cancelAllArmsAndBoundaries.commands := rfl
  unfold Does
  rw [hcmds]
  exact h4

/-- A walk begins from the state that is cleared for it. -/
theorem does_beginCleared {finish : InstanceState → String → EngineResult}
    (hfinish : ∀ s n r, finish s n = .ok r → Does c.ids trg d0 s r) (ho : o.finalStatus.Aborts)
    (h : beginCompensationWith finish c s o = .ok r) :
    ∃ r0, Does c.ids trg d0 (clearForWalk c s o.closeKind).state r0 ∧
      r = r0.prepend (clearForWalk c s o.closeKind).commands := by
  have hidle : ∀ r, (finish ((clearForWalk c s o.closeKind).state.onControl (fun s =>
      { s with compensating := o.idleCursor })) o.toNode).map (·.prepend (clearForWalk c s o.closeKind).commands) = .ok r →
        ∃ r0, Does c.ids trg d0 (clearForWalk c s o.closeKind).state r0 ∧
          r = r0.prepend (clearForWalk c s o.closeKind).commands := by
    intro r h
    obtain ⟨r1, h1, rfl⟩ := map_prepend_ok h
    exact ⟨r1, (does_settle ho rfl).silently (hfinish _ _ _ h1), rfl⟩
  unfold beginCompensationWith at h
  dsimp only at h
  split at h
  · cases h
  · split at h
    · exact hidle r h
    · split at h
      · exact hidle r h
      · rename_i rec _
        rw [← Except.ok.inj h]
        exact ⟨_, does_dispatched (fun _ => ho) rec (fun h : false = true => by cases h) rfl, rfl⟩

theorem does_beginWith {finish : InstanceState → String → EngineResult}
    (hfinish : ∀ s n r, finish s n = .ok r → Does c.ids trg d0 s r) (ho : o.finalStatus.Aborts)
    (h : beginCompensationWith finish c s o = .ok r) : Does c.ids trg d0 s r := by
  obtain ⟨r0, hdoes, rfl⟩ := does_beginCleared hfinish ho h
  exact (does_clearForWalk s o.closeKind).trans hdoes

theorem does_terminate {plan : FinishPlan} (hplan : plan.finalStatus.Aborts) :
    Does c.ids trg d0 s (applyTerminate c s plan) := by
  unfold applyTerminate
  dsimp only
  have hst : (if (plan.finalStatus == .running) = true then Status.terminated else plan.finalStatus).isTerminal = true := by
    rcases hplan with h | h | h <;> rw [h] <;> rfl
  have hf : (applyPlanRecordClearing plan s.toControlState).front = { s.toControlState.front with
      tokens := s.tokens, cuts := s.desk.cuts, scopes := s.desk.scopes, exits := s.desk.exits } :=
    front_of_outline (applyPlanRecordClearing_outline plan _)
  refine does_endInstance hf (Or.inl ⟨rfl, rfl⟩) hst c.at_ (fun cmd hcmd => ?_)
  split at hcmd
  · cases hcmd
    trivial
  · cases hcmd

theorem does_pop (s : InstanceState) : Does c.ids trg d0 s ⟨s.onControl (·.popOneDeferredThrow), []⟩ := by
  refine Acts.sane_or (fun hs => ?_)
  cases hq : s.deferredCompensationThrows with
  | nil =>
    have hctl : s.toControlState.popOneDeferredThrow = s.toControlState := by
      unfold ControlState.popOneDeferredThrow
      rw [hq]
    exact Does.same (desk_onControl (congrArg ControlState.front hctl))
  | cons id rest =>
    have hact : Act c.ids trg d0 s.desk _ [] := Act.pop id rest hq
    have hfront : s.toControlState.popOneDeferredThrow.front = { s.toControlState.front with
        tokens := s.tokens.map (fun t => if t.id == id then { t with state := .active } else t), queue := rest } := by
      unfold ControlState.popOneDeferredThrow
      rw [hq]
      dsimp only
      cases hf : ({ s.toControlState with deferredCompensationThrows := rest }).tokenByID id with
      | some t =>
        dsimp only
        rw [← (tokenByID_some _ hf).2.1]
        rfl
      | none =>
        -- no token has the id
        have hnone : ∀ t ∈ s.tokens, (t.id == id) = false := by
          intro t ht
          unfold ControlState.tokenByID at hf
          split at hf
          · rename_i hid
            rw [beq_iff_eq.mp hid]
            exact beq_eq_false_iff_ne.mpr (hs.named t ht)
          · exact Bool.eq_false_iff.mpr (List.find?_eq_none.mp hf t ht)
        have hmap : s.tokens.map (fun t => if t.id == id then { t with state := .active } else t) = s.tokens := by
          conv_rhs => rw [← List.map_id s.tokens]
          refine List.map_congr_left (fun t ht => ?_)
          rw [hnone t ht]
          rfl
        rw [hmap]
        rfl
    rw [onControl_desk, hfront]
    exact hact.acts

/-- The token of a resume is placed and one deferred throw goes on. -/
theorem does_resumeControl (s : InstanceState) (plan : FinishPlan) :
    Does c.ids trg d0 s ⟨s.onControl (resumeControl c.ids c.at_ plan), []⟩ := by
  set s1 := s.onControl (fun a => { applyPlanRecordClearing plan a with status := .running }.note
    (.resumed plan.popDeferred a.deferredCompensationThrows)) with hs1
  have h1 : Does c.ids trg d0 s ⟨s1, []⟩ := by
    refine does_reopen ?_
    have ho := front_of_outline (applyPlanRecordClearing_outline plan s.toControlState)
    have hnote : ({ applyPlanRecordClearing plan s.toControlState with status := .running }.note
        (.resumed plan.popDeferred s.deferredCompensationThrows)).front =
        { (applyPlanRecordClearing plan s.toControlState).front with live := true } := rfl
    rw [hnote, ho]
  have h2 : Does c.ids trg d0 s ⟨if resumeDropped plan s1.toControlState then s1 else
      s1.onControl (·.placeTokenInScope c.ids plan.resumeAt plan.resumeScope plan.resumeFlow c.at_), []⟩ := by
    split
    · exact h1
    · exact h1.silently (does_place s1 _ _ _ _)
  set s2 := if resumeDropped plan s1.toControlState then s1 else
    s1.onControl (·.placeTokenInScope c.ids plan.resumeAt plan.resumeScope plan.resumeFlow c.at_) with hs2
  have hs2' : s2.toControlState = if resumeDropped plan s1.toControlState then s1.toControlState else
      s1.toControlState.placeTokenInScope c.ids plan.resumeAt plan.resumeScope plan.resumeFlow c.at_ := by
    rw [hs2]
    split <;> rfl
  have hres : s.onControl (resumeControl c.ids c.at_ plan) =
      if plan.popDeferred then s2.onControl (·.popOneDeferredThrow) else s2 := by
    unfold InstanceState.onControl
    have hctl : resumeControl c.ids c.at_ plan s.toControlState =
        if plan.popDeferred then s2.toControlState.popOneDeferredThrow else s2.toControlState := by
      rw [hs2']
      rfl
    rw [hctl]
    have hrest : s2 = { s with toControlState := s2.toControlState } := by
      rw [hs2]
      split <;> rfl
    split
    · conv_rhs => rw [hrest]
    · exact hrest.symm
  rw [hres]
  split
  · exact h2.silently (does_pop s2)
  · exact h2

theorem does_rearmRoot {plan : FinishPlan} (h : rearmRoot c plan s = .ok r) : Does c.ids trg d0 s r := by
  unfold rearmRoot at h
  split at h
  · rw [← Except.ok.inj h]
    exact Does.refl s
  · obtain ⟨r1, h1, rfl⟩ := map_prepend_ok h
    refine (does_removeEventSubs s "").trans ?_
    obtain ⟨arms, m, hst, harm, hsch⟩ := armEventTriggeredSubprocesses_spec h1
    unfold Does
    rw [hst]
    exact (Act.armEventSubs "" arms m r1.commands (Or.inl rfl) harm hsch).acts

/-- A beginning of a walk, or its result, is a sequence of acts. -/
def DoesBegin (c : StepCtx) (trg : TriggerBody) (d0 : Desk)
    (begin_ : InstanceState → CompensationOutcome → EngineResult) : Prop :=
  ∀ s o r, o.finalStatus.Aborts → begin_ s o = .ok r → Does c.ids trg d0 s r

variable {begin_ : InstanceState → CompensationOutcome → EngineResult}

theorem does_applyFinish (hdrv : DoesDrive c.ids trg d0 drv) (hbegin : DoesBegin c trg d0 begin_) {plan : FinishPlan}
    (hplan : plan.resume = false → plan.finalStatus.Aborts) (h : applyFinishWith drv begin_ c s plan = .ok r) :
    Does c.ids trg d0 s r := by
  have hdesk : (s.onControl (applyDeleteArchive plan)).desk = s.desk :=
    desk_onControl (front_of_outline (applyDeleteArchive_outline plan _))
  refine Does.after hdesk ?_
  unfold applyFinishWith at h
  dsimp only at h
  generalize s.onControl (applyDeleteArchive plan) = s1 at h
  split at h
  · -- the pending cancel's own walk
    refine Acts.sane_or (fun hs => ?_)
    have hpend : s1.pendingFinalStatus.Aborts := hs.finals _ (List.mem_cons_of_mem _ (List.mem_cons_self))
    have ho : (pendingOutcome s1.toControlState).finalStatus.Aborts :=
      Or.inr (pendingOutcome_aborts hpend)
    have hfront : (consumePending plan s1.toControlState).front = { s1.toControlState.front with
        live := true, finals := [s1.compensating.finalStatus, .running] } := by
      have h1 := front_of_outline (harvest_outline (takePending plan s1.toControlState))
      have h2 := front_of_outline (applyPlanRecordClearing_outline plan
        { s1.toControlState with pendingCancel := false, pendingFinalStatus := .running, pendingFinalErr := "" })
      have h3 : (takePending plan s1.toControlState).front = { (applyPlanRecordClearing plan
        { s1.toControlState with pendingCancel := false, pendingFinalStatus := .running, pendingFinalErr := "" }).front with
          live := true } := rfl
      exact h1.trans (h3.trans (by rw [h2]; rfl))
    have haim : Act c.ids trg d0 s1.desk { s1.desk with finals := [s1.compensating.finalStatus, .running] } [] := by
      refine .aim _ (fun st hst => ?_)
      rcases List.mem_cons.mp hst with rfl | hst
      · exact hs.finals _ List.mem_cons_self
      · rw [List.mem_singleton.mp hst]
        exact Or.inl rfl
    have hopen : Act c.ids trg d0 { s1.desk with finals := [s1.compensating.finalStatus, .running] }
        (s1.onControl (consumePending plan)).desk [] := by
      rw [onControl_desk, hfront]
      exact Act.reopen
    have hstart : Does c.ids trg d0 s1 ⟨s1.onControl (consumePending plan), []⟩ := haim.acts.trans hopen.acts
    exact hstart.silently (hbegin _ _ _ ho h)
  · split at h
    · rename_i hres
      rw [← Except.ok.inj h]
      exact does_terminate (hplan (by simpa using hres))
    · have hresume : Does c.ids trg d0 s1 ⟨({ s1 with endedAt := none, vars := resumeVars plan s1 }).onControl
          (resumeControl c.ids c.at_ plan), []⟩ := by
        have hrest : ({ s1 with endedAt := none, vars := resumeVars plan s1 } : InstanceState).desk = s1.desk := rfl
        exact Does.after hrest (does_resumeControl _ plan)
      split at h
      · rw [← Except.ok.inj h]
        exact hresume.silently (does_complete _ _)
      · obtain ⟨r1, h1, h⟩ := bind_ok h
        obtain ⟨r2, h2, h⟩ := bind_ok h
        rw [← Except.ok.inj h]
        exact (hresume.silently (does_rearmRoot h1)).trans (hdrv _ _ h2)

theorem finishPlan_finalStatus (a : ControlState) (cur : CompensationCursor) (h : (finishPlan a cur).resume = false) :
    (finishPlan a cur).finalStatus = cur.finalStatus := by
  unfold finishPlan at h ⊢
  cases hm : cur.walkMode <;> rw [hm] at h <;> first | rfl | cases h

/-- A walk's finish goes on from the state without the walk. -/
theorem does_finishSettled (hdrv : DoesDrive c.ids trg d0 drv) (hbegin : DoesBegin c trg d0 begin_)
    (hs : s.compensating.finalStatus.Aborts) (h : stepCompensationFinishWith drv begin_ c s toNode = .ok r) :
    Does c.ids trg d0 (s.onControl (fun s => { s with compensating := {} })) r := by
  unfold stepCompensationFinishWith at h
  dsimp only at h
  obtain ⟨r1, h1, rfl⟩ := map_prepend_ok h
  refine Does.trans (does_cancelWalkTimers _) (does_applyFinish hdrv hbegin (fun hres => ?_) h1)
  rw [finishPlan_finalStatus _ _ hres]
  exact hs

theorem does_finishWith (hdrv : DoesDrive c.ids trg d0 drv) (hbegin : DoesBegin c trg d0 begin_)
    (h : stepCompensationFinishWith drv begin_ c s toNode = .ok r) : Does c.ids trg d0 s r := by
  refine Acts.sane_or (fun hs => ?_)
  have hsettle : Does c.ids trg d0 s ⟨s.onControl (fun s => { s with compensating := {} }), []⟩ :=
    does_settle (show Status.running.Aborts from Or.inl rfl) rfl
  exact hsettle.silently (does_finishSettled hdrv hbegin (hs.finals _ List.mem_cons_self) h)

theorem does_beginTerminating (hdrv : DoesDrive c.ids trg d0 drv) : DoesBegin c trg d0 (beginTerminating drv c) := by
  intro s o r ho h
  exact does_beginWith (fun s n r h => does_finishWith hdrv (fun s o r _ h => by cases h) h) ho h

theorem does_finish (hdrv : DoesDrive c.ids trg d0 drv)
    (h : stepCompensationFinish drv c s toNode = .ok r) : Does c.ids trg d0 s r :=
  does_finishWith hdrv (does_beginTerminating hdrv) h

theorem does_begin (hdrv : DoesDrive c.ids trg d0 drv) (ho : o.finalStatus.Aborts)
    (h : beginCompensation drv c s o = .ok r) : Does c.ids trg d0 s r :=
  does_beginWith (fun _ _ _ h => does_finish hdrv h) ho h

/-! ## Advancing -/

/-- An advance goes on from the desk without the walk's command. -/
theorem acts_advance (hdrv : DoesDrive c.ids trg d0 drv) (h : stepCompensationAdvance drv c s = .ok r) :
    Acts c.ids trg d0 { s.desk with walk := "", backoff := false } r.state.desk r.commands := by
  refine Acts.sane_or (fun hs => ?_)
  have hfinals : ∀ st ∈ s.desk.finals, st.Aborts := hs.finals
  unfold stepCompensationAdvance at h
  dsimp only at h
  set y := s.retireCompensationStallIncidents s.compensating.activeCmdID with hy
  have hctl : y.toControlState = s.toControlState := InstanceState.retireCompensationStallIncidents_control _ _
  have hyfinals : ∀ st ∈ y.desk.finals, st.Aborts := by
    have hsame : y.desk.finals = s.desk.finals := (congrArg (fun a : ControlState => a.front.finals) hctl :)
    rw [hsame]
    exact hfinals
  have hret : Acts c.ids trg d0 { s.desk with walk := "", backoff := false } { y.desk with walk := "", backoff := false }
    [] := by
    have hdesk : ({ y.desk with walk := "", backoff := false } : Desk) =
        ({ s.desk with walk := "", backoff := false } : Desk).retired .compensationStall s.compensating.activeCmdID := by
      rw [hy, InstanceState.retireCompensationStallIncidents, retireIncidents_desk]
      unfold Desk.retired
      split <;> rfl
    rw [hdesk]
    exact acts_retired _ (by decide) _ (by simp)
  have hfinish : stepCompensationFinish drv c y s.compensating.toNode = .ok r →
      Acts c.ids trg d0 { y.desk with walk := "", backoff := false } r.state.desk r.commands := by
    intro h
    have haim : Act c.ids trg d0 { y.desk with walk := "", backoff := false }
        (y.onControl (fun s => { s with compensating := {} })).desk [] := by
      refine .aim _ (fun st hst => ?_)
      rcases List.mem_cons.mp hst with rfl | hst
      · exact Or.inl rfl
      · exact hyfinals st (List.mem_cons_of_mem _ hst)
    have hrest := does_finishSettled hdrv (does_beginTerminating hdrv) (hyfinals _ List.mem_cons_self) h
    exact haim.acts.trans hrest
  split at h
  · exact hret.trans (hfinish h)
  · split at h
    · exact hret.trans (hfinish h)
    · rename_i rec _
      rw [← Except.ok.inj h]
      refine hret.trans (acts_dispatched (b := false) (hfinals _ List.mem_cons_self) rec hyfinals
        (fun h : false = true => by cases h) ?_)
      rw [dispatch_front]
      rfl

theorem does_advance (hdrv : DoesDrive c.ids trg d0 drv) (h : stepCompensationAdvance drv c s = .ok r) :
    Does c.ids trg d0 s r := Act.settle.acts.trans (acts_advance hdrv h)

theorem does_redispatch (s : InstanceState) (rec : CompensationRecord) (n : Int) (hagain : s.desk.Renewable) :
    Does c.ids trg d0 s (redispatchCurrent c s rec n) :=
  have hst : s.desk.Sane → s.compensating.finalStatus.Aborts := fun hs => hs.finals _ List.mem_cons_self
  does_dispatched hst rec (fun _ => hagain) rfl

/-- Once the failures of the walk's command are retired, it may go out again. -/
theorem renewable_retired (s : InstanceState) (hflight : s.compensating.activeCmdID ≠ "") :
    (s.retireCompensationFailedIncidents s.compensating.activeCmdID).desk.Renewable := by
  have hctl := InstanceState.retireCompensationFailedIncidents_control s s.compensating.activeCmdID
  have hwalk : (s.retireCompensationFailedIncidents s.compensating.activeCmdID).desk.walk = s.compensating.activeCmdID :=
    (congrArg (fun a : ControlState => a.compensating.activeCmdID) hctl :)
  refine ⟨by rwa [hwalk], fun inc hinc hkind => ?_⟩
  rw [InstanceState.retireCompensationFailedIncidents, retireIncidents_desk, Desk.retired,
    if_neg (by simpa using hflight)] at hinc
  have hkept := (List.mem_filter.mp hinc).2
  rw [hwalk]
  simpa [hkind] using hkept

theorem does_retryStalled (hdrv : DoesDrive c.ids trg d0 drv) (hwalk : s.compensating.activeCmdID = d0.walk)
    (hflight : s.compensating.activeCmdID ≠ "") (hren : WalkRenews d0 trg) (h : retryStalledCompensation drv c s = .ok r) :
    Does c.ids trg d0 s r := by
  unfold retryStalledCompensation at h
  dsimp only at h
  split at h
  · exact (does_retireStall s _).silently (does_finish hdrv h)
  · rw [← Except.ok.inj h]
    have hagain := renewable_retired (s.retireCompensationStallIncidents s.compensating.activeCmdID)
      (by rwa [InstanceState.retireCompensationStallIncidents_control])
    rw [InstanceState.retireCompensationStallIncidents_control] at hagain
    exact (does_retireStall s _).silently ((does_retireFailed _ hwalk hren).silently (does_redispatch _ _ _ hagain))

theorem does_removeTimer (s : InstanceState) {id : String} (htrg : trg = .timerFired id) :
    Does c.ids trg d0 s ⟨s.removeTimer id, []⟩ := by
  unfold InstanceState.removeTimer
  split
  · exact Does.refl s
  · refine Does.of_act (.dropTimers (fun tr => tr.timerID != id) id [] (Or.inr htrg) ⟨by simp, fun i hi _ => Or.inl ?_⟩)
    obtain ⟨tr, htr, rfl⟩ := List.mem_map.mp hi
    simpa using (List.mem_filter.mp htr).2

theorem does_retryFailed (hdrv : DoesDrive c.ids trg d0 drv) {tr : TimerRecord} (htrg : trg = .timerFired tr.timerID)
    (htr : tr ∈ d0.timers) (hkind : tr.kind = .compensationRetry) (hwalk : s.compensating.activeCmdID = d0.walk)
    (hflight : s.status = .compensating → s.InFlight)
    (h : retryFailedCompensation drv c s tr = .ok r) :
    Does c.ids trg d0 s r := by
  unfold retryFailedCompensation at h
  dsimp only at h
  have hrem : Does c.ids trg d0 s ⟨s.removeTimer tr.timerID, []⟩ := does_removeTimer s htrg
  split at h
  · rw [← Except.ok.inj h]
    exact hrem
  · rename_i hguard
    simp only [Bool.or_eq_true, bne_iff_ne, ne_eq, not_or, not_not, InstanceState.removeTimer_control] at hguard
    split at h
    · exact hrem.silently (does_finish hdrv h)
    · rw [← Except.ok.inj h]
      have hren : WalkRenews d0 trg := htrg ▸ ⟨tr, htr, rfl, hkind, hguard.2.trans hwalk⟩
      have hagain := renewable_retired (s.removeTimer tr.timerID)
        (by rw [InstanceState.removeTimer_control]; exact hflight hguard.1)
      have hsame : (s.removeTimer tr.timerID).compensating.activeCmdID = d0.walk := by
        rw [InstanceState.removeTimer_control]
        exact hwalk
      exact hrem.silently ((does_retireFailed _ hsame hren).silently (does_redispatch _ _ _ hagain))

theorem does_abandon (hdrv : DoesDrive c.ids trg d0 drv) (h : abandonCompensationWalk drv c s = .ok r) :
    Does c.ids trg d0 s r := by
  unfold abandonCompensationWalk at h
  dsimp only at h
  split at h
  · cases h
  · obtain ⟨r1, h1, h⟩ := bind_ok h
    rw [← Except.ok.inj h]
    have hfin := (does_retireStall s s.compensating.activeCmdID).silently (does_finish (c := c) hdrv h1)
    exact hfin.thenSame (desk_onControl (front_of_outline (mapRecords_outline _ _ _)))

theorem does_resolveStall {cmdID incID : String} {disp : CompensationDisposition}
    (hdrv : DoesDrive c.ids (.resolveCompensationStall cmdID incID disp) s.desk drv) (hne : cmdID ≠ "")
    (h : handleResolveCompensationStall drv c s cmdID incID disp = .ok r) :
    Does c.ids (.resolveCompensationStall cmdID incID disp) s.desk s r := by
  unfold handleResolveCompensationStall at h
  split at h
  · cases h
  · split at h
    · cases h
    · rename_i hcmd
      split at h
      · cases h
      · split at h
        · have hwalk : cmdID = s.compensating.activeCmdID := by simpa using hcmd
          exact does_retryStalled hdrv rfl (hwalk ▸ hne) ⟨hwalk, rfl⟩ h
        · exact does_advance hdrv h
        · exact does_abandon hdrv h

theorem does_compensateRequested (hdrv : DoesDrive c.ids trg d0 drv) {reverseNode : String} {reset restore : Bool}
    (h : stepCompensateRequested drv c s toNode reverseNode reset restore = .ok r) : Does c.ids trg d0 s r := by
  unfold stepCompensateRequested at h
  split at h
  · cases h
  · split at h
    · cases h
    · split at h
      · split at h
        · cases h
        · rw [← Except.ok.inj h]
          exact Does.refl s
      · split at h
        · cases h
        · dsimp only at h
          have hopen : Does c.ids trg d0 s ⟨s.onControl (fun s => { s with status := .compensating }), []⟩ :=
            does_reopen rfl
          refine hopen.silently ?_
          have hbegin := does_begin hdrv (Or.inl rfl) h
          refine Does.after ?_ hbegin
          split
          · exact desk_onControl (front_of_outline (harvest_outline _))
          · rfl

end

end Wrkflw
