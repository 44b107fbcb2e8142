import Wrkflw.Machine.Buckets
import Wrkflw.Property.Cancel
import Wrkflw.Property.Commands

/-!
# Ended instances

An ended instance stays ended: only a plain rollback changes it, and only while it has records left to undo. It then
compensates, under whatever triggers, until it has ended again, and nothing is placed, opened or asked for besides the
compensations. `Outlook.Dead` is the invariant of these states, `terminal_absorbs` the result.
-/

namespace Wrkflw

open ControlState

/-- The instance ended, or a walk is in flight that can only end it. -/
def Outlook.Dead (o : Outlook) : Prop :=
  o.status.isTerminal = true ∨ (o.command ≠ "" ∧ o.aim.resumeNode = "" ∧ o.aim.toNode = "" ∧ o.aim.reverseNode = "")

section Dead
variable {top : ProcessDefinition} {g : IDGenerator} {trg : TriggerBody} {s s' : ControlState}

theorem Outlook.Dead.terminal (h : s.outlook.Dead) (hidle : ¬ s.InFlight) : s.status.isTerminal = true := by
  rcases h with h | ⟨hflight, -⟩
  · exact h
  · exact absurd hflight hidle

/-- The walk in flight goes over the root's records, and ends the instance. -/
theorem Outlook.Dead.walk (hs : Phase g s) (h : s.outlook.Dead) (hflight : s.InFlight) :
    s.compensating.resumeNode = "" ∧ s.compensating.toNode = "" ∧ s.compensating.reverseNode = "" := by
  rcases h with hterm | ⟨-, h⟩
  · have hst : s.outlook.status = .compensating := hs.status.mpr hflight
    rw [hst] at hterm
    cases hterm
  · exact h

/-- A walk that ends the instance leaves no token. -/
theorem Outlook.Dead.tokens (hs : Phase g s) (h : s.outlook.Dead) (hflight : s.InFlight) : s.tokens = [] := by
  obtain ⟨hres, hto, -⟩ := h.walk hs hflight
  exact hs.sealed (Or.inl ⟨hflight, hres, hto⟩)

theorem Outlook.Dead.not_forward (hs : Phase g s) (h : s.outlook.Dead) : ¬ s.Forward := by
  intro hfwd
  by_cases hflight : s.InFlight
  · obtain ⟨hres, hto, -⟩ := h.walk hs hflight
    exact hfwd.unsealed (Or.inl ⟨hflight, hres, hto⟩)
  · have hterm := h.terminal hflight
    rw [hfwd.live] at hterm
    cases hterm

/-- No finished walk resumes a dead instance. -/
theorem Outlook.Dead.not_resumed (hs : Phase g s) (h : s.outlook.Dead) {cur : CompensationCursor}
    (hfin : Finishing trg s cur) : (finishPlan s.settled cur).resume = false := by
  refine finishPlan_admin s.settled ?_
  cases hfin with
  | walk hflight hans =>
    obtain ⟨hres, hto, hrev⟩ := h.walk hs hflight
    exact walkMode_eq_admin.mpr ⟨hres, hto, hrev⟩
  | idle o hidle hclear hasked hnone =>
    obtain ⟨hto, hrev⟩ := hasked.terminal (h.terminal hidle)
    exact walkMode_eq_admin.mpr ⟨rfl, hto, hrev⟩

theorem Move.dead (hs : Phase g s) (h : s.outlook.Dead) (hmove : Move top g trg s s') : s'.outlook.Dead := by
  cases hmove.course hs with
  | steady he =>
    rw [he]
    exact h
  | goesOn hflight htrg he =>
    rw [he]
    exact Or.inr ⟨inFlight_nextCmdID g s, h.walk hs hflight⟩
  | cancelPended hflight hmode hev he =>
    rw [he]
    exact Or.inr ⟨hflight, h.walk hs hflight⟩
  | failurePended err hflight hfwd hev he =>
    rw [he]
    exact Or.inr ⟨hflight, h.walk hs hflight⟩
  | throws hidle hfwd aim he => exact absurd hfwd (h.not_forward hs)
  | begins hidle o hasked he =>
    obtain ⟨hto, hrev⟩ := hasked.terminal (h.terminal hidle)
    rw [he]
    exact Or.inr ⟨inFlight_nextCmdID g s, rfl, hto, hrev⟩
  | resumes cur hfin hres hpend he =>
    rw [h.not_resumed hs hfin] at hres
    cases hres
  | overtaken cur hfin hcons hpend command hcmd he =>
    rw [he]
    exact Or.inr ⟨hcmd, rfl, rfl, rfl⟩

/-- Nothing new has a name in a dead instance. -/
theorem Move.shrinks_of_dead (hs : Phase g s) (h : s.outlook.Dead) (hmove : Move top g trg s s') : Names.Shrinks s s' := by
  rcases hmove.shrinks_or_grows with hsh | hgr
  · exact hsh
  · cases hgr with
    | place node scope flow at_ hfwd hscope => exact absurd hfwd (h.not_forward hs)
    | openScope node parent hfwd hparent hopens => exact absurd hfwd (h.not_forward hs)
    | deferThrow tok hthrow hflight =>
      have hmem := hthrow.mem
      rw [h.tokens hs hflight] at hmem
      cases hmem
    | throwWalk tok at_ cur rec hmem hfwd hres => exact absurd hfwd (h.not_forward hs)
    | resume cur at_ hfin hres hscope =>
      rw [h.not_resumed hs hfin] at hres
      cases hres

theorem End.dead (hs : Phase g s) (hend : End trg s s') (top : ProcessDefinition) : s'.outlook.Dead := by
  refine Or.inl ?_
  change s'.status.isTerminal = true
  cases hend.ending top g with
  | complete hlive hidle htok he =>
    rw [he.status]
    rfl
  | idle st err hlive hidle hst he =>
    rw [he.status]
    exact Status.isTerminal_of_aborted hst
  | childFailed err hlive htok hev he =>
    rw [he.status]
    rfl
  | forced outcome err hlive htok hev he =>
    rw [he.status]
    cases outcome <;> rfl
  | terminate cur hfin hmode he =>
    rw [he.status]
    exact Status.isTerminal_of_aborted (finalStatusOf_aborts (hfin.finalStatus hs))
  | abandon hflight hans hmode he =>
    rw [he.status]
    exact Status.isTerminal_of_aborted (finalStatusOf_aborts hs.finals.1)
  | pending cur hfin hcons hpend he =>
    rw [he.status]
    exact Status.isTerminal_of_aborted (pendingOutcome_aborts hs.finals.2)

/-- A step of a live instance ends it with an end that is noted, or notes none. -/
theorem Reaches.ends (hs : Wf g s) (h : Reaches top g trg s s') (hlive : s.status.isTerminal = false) :
    (s'.status.isTerminal = false ∧ s'.trace.filterMap Event.end? = s.trace.filterMap Event.end?) ∨
      (s'.status.isTerminal = true ∧ (s.trace.filterMap Event.end?).length < (s'.trace.filterMap Event.end?).length) := by
  obtain ⟨m, hm, rfl | hend⟩ := h
  · have hlogs : Logs false top g s s' := Moves.logs hs hm
    exact Or.inl ⟨Moves.live hm hlive, hlogs.ends⟩
  · have hlogs : Logs false top g s m := Moves.logs hs hm
    have hlast : Logs true top g m s' := hend.logs
    have hterm : s'.status.isTerminal = true := by
      rcases End.dead (Moves.wf hs hm).phase hend top with hterm | ⟨hflight, -⟩
      · exact hterm
      · obtain ⟨st, err, hends⟩ := (hend.ending top g).endsAs
        exact absurd (congrArg CompensationCursor.activeCmdID hends.idle) hflight
    refine Or.inr ⟨hterm, ?_⟩
    obtain ⟨st, err, hends⟩ := (hend.ending top g).endsAs
    obtain ⟨cur, he⟩ := hends.event
    have hnew : st ∈ (since m s').filterMap Event.end? := List.mem_filterMap.mpr ⟨_, he, rfl⟩
    rw [hlast.since_append, List.filterMap_append, List.length_append, hlogs.ends]
    exact Nat.lt_add_of_pos_left (List.length_pos_of_mem hnew)

end Dead

/-! ## Runs -/

variable {p : ProcessDefinition} {gen : Option IDGenerator} {inst : String} {calls later : List Call} {x y : InstanceState}

/-- The later state of an ended instance. -/
structure Absorbed (x y : InstanceState) : Prop where
  /-- It has ended, or compensates. -/
  status : y.status.isTerminal = true ∨ y.status = .compensating
  /-- No token was placed. -/
  tokens : (y.tokens.map Token.place).Sublist (x.tokens.map Token.place)
  tokenSeq : y.tokenSeq = x.tokenSeq
  /-- No scope was opened. -/
  scopes : y.scopes = []
  scopeSeq : y.scopeSeq = x.scopeSeq
  /-- No arm, signal, message or timer of a token gets past the guard of new work, and no token is left to enter a node. -/
  spawns : y.spawnsNewWork = false
  unmoved : y.status = .compensating → y.tokens = []

/-- One step of an instance that ended before. -/
structure AbsorbsStep (y : InstanceState) (trg : TriggerBody) (r : StepResult) : Prop where
  /-- An ended instance is as before, or has records left to undo and is asked for a plain rollback. -/
  ended : y.status.isTerminal = true → (r.state = y ∧ r.commands = []) ∨
    (trg = .compensateRequested "" "" false false ∧ hasCompensationRecordsToWalk y.toControlState = true ∧
      r.state.status = .compensating)
  /-- Every command that waits for an answer is the walk's. -/
  commands : ∀ cmd ∈ r.commands, cmd.correlationID ≠ "" → r.state.status = .compensating ∧
    cmd.correlationID = r.state.compensating.activeCmdID

/-- A dead instance stays dead, and nothing new has a name in it. -/
theorem dead_stays (hx : Steps.Sound gen inst x) (hdead : x.toControlState.outlook.Dead) (hlater : Steps p gen x later y) :
    Names.Shrinks x.toControlState y.toControlState ∧ y.toControlState.outlook.Dead := by
  refine hlater.induction (I := fun s => Names.Shrinks x.toControlState s ∧ s.outlook.Dead) (P := fun _ => True)
    (C := fun _ => True) hx (fun _ _ => trivial) (fun _ _ => trivial) ⟨Names.Shrinks.refl _, hdead⟩ ?_ ?_
  · intro trg s s' hwf _ _ h hmove
    exact ⟨h.1.trans (hmove.shrinks_of_dead hwf.phase h.2), hmove.dead hwf.phase h.2⟩
  · intro trg s s' hwf _ _ h hend
    exact ⟨h.1.trans hend.shrinks, hend.dead hwf.phase p⟩

/-- An ended instance comes alive without tokens. -/
theorem revived_tokens (hx : Steps.Sound gen inst x) (hended : x.status.isTerminal = true) (hlater : Steps p gen x later y)
    (hlive : y.status.isTerminal = false) : y.tokens = [] := by
  obtain ⟨-, hdead⟩ := dead_stays hx (Or.inl hended) hlater
  have hflight : y.toControlState.InFlight := by
    by_contra hidle
    have hover := hdead.terminal hidle
    rw [hlive] at hover
    cases hover
  exact hdead.tokens (hlater.sound hx).wf.phase hflight

theorem keyed_later (hx : Steps.Sound gen inst x) (hk : x.archivedCompensations.Keyed) (hlater : Steps p gen x later y) :
    y.archivedCompensations.Keyed :=
  hlater.induction (I := fun s => s.archivedCompensations.Keyed) (P := fun _ => True) (C := fun _ => True) hx
    (fun _ _ => trivial) (fun _ _ => trivial) hk (fun _ _ _ h hmove => hmove.refiles h) (fun _ _ _ h hend => hend.refiles h)

theorem keyed_run (hrun : Run p gen inst calls x) : x.archivedCompensations.Keyed :=
  keyed_later (Run.blank_sound gen inst) List.nodup_nil hrun

theorem dead_status (hs : Phase (runIDs gen inst) y.toControlState) (h : y.toControlState.outlook.Dead) :
    y.status.isTerminal = true ∨ y.status = .compensating := by
  rcases h with h | ⟨hflight, -⟩
  · exact Or.inl h
  · exact Or.inr (hs.status.mpr hflight)

/-- The records are the same when the tokens are gone. -/
theorem cancelListed_records (at_ : Time) (kind : CloseKind) (toks : List Token) (s : ControlState) :
    (s.cancelListed at_ kind toks).rootCompensations = s.rootCompensations ∧
      (s.cancelListed at_ kind toks).archivedCompensations = s.archivedCompensations := by
  induction toks generalizing s with
  | nil => exact ⟨rfl, rfl⟩
  | cons tok toks ih =>
    have hone : (s.cancelToken tok at_ kind).rootCompensations = s.rootCompensations ∧
        (s.cancelToken tok at_ kind).archivedCompensations = s.archivedCompensations := by
      rcases s.cancelToken_shape tok at_ kind with he | ⟨t, -, -, -, h, -, he⟩
      · rw [he]
        exact ⟨rfl, rfl⟩
      · rw [he]
        exact ⟨rfl, rfl⟩
    have hrest := ih (s.cancelToken tok at_ kind)
    exact ⟨hrest.1.trans hone.1, hrest.2.trans hone.2⟩

/-- A plain rollback of an ended instance with records left begins a walk. -/
theorem rollback_begins {drv : DriveLoop} {c : StepCtx} {resetVars restoreTargetVars : Bool}
    (hs : Phase c.ids y.toControlState) (hk : y.archivedCompensations.Keyed) (hterm : y.status.isTerminal = true)
    {r : StepResult} (h : stepCompensateRequested drv c y "" "" resetVars restoreTargetVars = .ok r) :
    resetVars = false ∧ restoreTargetVars = false ∧ hasCompensationRecordsToWalk y.toControlState = true ∧
      r.state.status = .compensating := by
  have hst : y.status ≠ .compensating := by
    intro he
    rw [he] at hterm
    cases hterm
  have hidle : ¬ y.toControlState.InFlight := fun hin => hst (hs.status.mpr hin)
  unfold stepCompensateRequested at h
  split at h
  · cases h
  · rename_i hreset
    split at h
    · cases h
    · rename_i hrestore
      split at h
      · rename_i hwalk
        rw [Bool.and_eq_true, beq_iff_eq] at hwalk
        exact absurd hwalk.1 hst
      · split at h
        · cases h
        · rename_i hrecords
          rw [hterm, Bool.true_and, Bool.not_eq_true', Bool.not_eq_false] at hrecords
          refine ⟨by simpa using hreset, by simpa using hrestore, hrecords, ?_⟩
          -- no scope is open, so nothing is harvested
          have hharvest : ({ y.toControlState with status := .compensating } : ControlState).harvestOpenScopeCompensations =
              { y.toControlState with status := .compensating } := by
            unfold harvestOpenScopeCompensations
            rw [show ({ y.toControlState with status := .compensating } : ControlState).scopes = [] from hs.ended hterm]
            rfl
          obtain ⟨z, o, hz, hto, hbegin⟩ : ∃ z o, z.toControlState = { y.toControlState with status := .compensating } ∧
              o.toNode = "" ∧ beginCompensation drv c z o = .ok r := by
            refine ⟨_, _, ?_, rfl, h⟩
            rw [if_pos (by decide)]
            exact hharvest
          rcases beginCompensationWith_ok hbegin (by rw [hz]) (by rw [hz]; exact hs.idle hidle) with
            ⟨z', r', -, -, -, hnone⟩ | ⟨rec, -, he⟩
          · obtain ⟨hroot, harch⟩ := cancelListed_records c.at_ o.closeKind z.tokens z.toControlState
            refine absurd (hnone hto) (records_to_walk ?_ ?_)
            · rw [harch, hz]
              exact hk
            · unfold hasCompensationRecordsToWalk at hrecords ⊢
              rw [hroot, harch, hz]
              exact hrecords
          · change r.state.toControlState.status = _
            rw [he]
            rfl

/-- An ended instance that no rollback is asked of is as before. -/
theorem ended_step {fuel : Nat} {trg : Trigger} {opt : StepOptions} {r : StepResult} (hended : y.status.isTerminal = true)
    (hpolicy : trg.body.terminalPolicy ≠ .allowOnTerminal) (hstep : step fuel p y trg opt = .ok r) :
    r.state = y ∧ r.commands = [] := by
  obtain ⟨r', h', rfl⟩ := step_dispatch hstep
  unfold dispatch at h'
  rw [if_pos hended] at h'
  split at h'
  · rw [← Except.ok.inj h']
    exact ⟨rfl, rfl⟩
  · cases h'
  · rename_i hallow
    exact absurd hallow hpolicy

/-- In every continuation of an ended instance. -/
theorem terminal_absorbs (hrun : Run p gen inst calls x) (hterm : x.status.isTerminal = true)
    (hlater : Steps p gen x later y) : Absorbed x y ∧ ∀ call : Call, call.opt.idGenerator = gen → ∀ r,
      step call.fuel p y call.trigger call.opt = .ok r → AbsorbsStep y call.trigger.body r := by
  have hx := hrun.sound
  have hy := hlater.sound hx
  obtain ⟨hsh, hdead⟩ := dead_stays hx (Or.inl hterm) hlater
  have hscopes : y.scopes = [] := by
    have hsub := hsh.scopes
    rw [hx.wf.phase.ended hterm] at hsub
    exact List.map_eq_nil_iff.mp (List.sublist_nil.mp hsub)
  have hspawns : y.spawnsNewWork = false := by
    by_contra hnew
    exact hdead.not_forward hy.wf.phase (forward_of_spawnsNewWork hy.wf (by simpa using hnew))
  refine ⟨⟨dead_status hy.wf.phase hdead, hsh.tokens, hsh.tokenSeq, hscopes, hsh.scopeSeq, hspawns,
    fun hst => hdead.tokens hy.wf.phase (hy.wf.phase.status.mp hst)⟩, fun call hgen r hstep => ?_⟩
  have hr := hy.step hgen hstep
  obtain ⟨-, hrdead⟩ := dead_stays hx (Or.inl hterm) (Steps.tail hlater call r hgen hstep)
  obtain ⟨r', h', rfl⟩ := step_dispatch hstep
  refine ⟨fun hended => ?_, fun cmd hcmd hne => ?_⟩
  · by_cases hpolicy : call.trigger.body.terminalPolicy = .allowOnTerminal
    · refine Or.inr ?_
      unfold dispatch at h'
      rw [if_pos hended, hpolicy] at h'
      cases hbody : call.trigger.body with
      | compensateRequested toNode reverseNode resetVars restoreTargetVars =>
        rw [hbody] at h' hpolicy
        change (if reverseNode != "" || toNode != "" then TerminalPolicy.rejectWithError else .allowOnTerminal) = _ at hpolicy
        split at hpolicy
        · cases hpolicy
        · rename_i hplain
          rw [Bool.or_eq_true, bne_iff_ne, bne_iff_ne, not_or, not_not, not_not] at hplain
          obtain ⟨rfl, rfl⟩ := hplain
          have hids : (stepCtx p y call.trigger call.opt).ids = runIDs gen inst := by
            unfold stepCtx StepOptions.ids runIDs
            rw [hgen, hy.instanceID]
          obtain ⟨rfl, rfl, hrecords, hst⟩ :=
            rollback_begins (hids ▸ hy.wf.phase) (keyed_later hx (keyed_run hrun) hlater) hended h'
          exact ⟨rfl, hrecords, (congrArg ControlState.status (dropStaleTokenCommands_control r')).trans hst⟩
      | _ =>
        rw [hbody] at hpolicy
        cases hpolicy
    · exact Or.inl (ended_step hended hpolicy hstep)
  · -- what the filter keeps is awaited
    have hin : cmd.correlationID ∈ answerIDs (dropStaleTokenCommands r').commands :=
      List.mem_filter.mpr ⟨List.mem_map_of_mem hcmd, by simpa using hne⟩
    rw [dropStaleTokenCommands_answers] at hin
    have hlive : cmd.correlationID ∈ liveAwaiters r'.state.toControlState := by
      simpa using (List.mem_filter.mp hin).2
    have hctl := dropStaleTokenCommands_control r'
    rcases dead_status hr.wf.phase hrdead with hended | hst
    · have hended' : r'.state.status.isTerminal = true := by
        rw [← hended]
        exact (congrArg (fun s : ControlState => s.status.isTerminal) hctl).symm
      unfold liveAwaiters at hlive
      rw [if_pos hended'] at hlive
      cases hlive
    · refine ⟨hst, ?_⟩
      have hflight := hr.wf.phase.status.mp hst
      have htokens : r'.state.tokens = [] :=
        (congrArg ControlState.tokens hctl).symm.trans (hrdead.tokens hr.wf.phase hflight)
      unfold liveAwaiters at hlive
      rw [htokens] at hlive
      split at hlive
      · cases hlive
      · rw [List.map_nil, List.filter_nil, List.nil_append] at hlive
        split at hlive
        · rw [List.mem_singleton.mp hlive]
          exact (congrArg (fun s : ControlState => s.compensating.activeCmdID) hctl).symm
        · cases hlive

/-- The completed chain compensates when it is rolled back. -/
theorem completed_chain_absorbs : ∃ (x : InstanceState) (r : StepResult) (calls later : List Call),
    Run undoableChain none "i" calls x ∧ x.status = .completed ∧
    Steps undoableChain none x later r.state ∧ later ≠ [] ∧ r.state.status = .compensating ∧ Absorbed x r.state := by
  have hplay : playsThrough undoableChain [.startInstance [] "", .actionCompleted "i-c1" [], .actionCompleted "i-c2" [],
      .actionCompleted "i-c3" []] (.compensateRequested "" "" false false) []
      (fun x r _ => x.status == .completed && r.state.status == .compensating) = true := by decide
  obtain ⟨x, r, y, hrun, hstep, -, hP⟩ := run_of_playsThrough hplay
  rw [Bool.and_eq_true, beq_iff_eq, beq_iff_eq] at hP
  have hterm : x.status.isTerminal = true := by
    rw [hP.1]
    rfl
  have hlater : Steps undoableChain none x _ r.state :=
    Steps.tail Steps.refl ⟨50, ⟨5, .compensateRequested "" "" false false⟩, plainOptions⟩ r rfl hstep
  exact ⟨x, r, _, _, hrun, hP.1, hlater, by simp, hP.2, (terminal_absorbs hrun hterm hlater).1⟩

end Wrkflw
