import Wrkflw.Machine.Paths

/-!
# The walks of the engine are paths of the machine

`beginCompensation`, `stepCompensationFinish`, `stepCompensationAdvance` and the operator verbs, seen on the
control state. `Drives` is what is assumed of the `drive` loop a resume runs into.
-/

namespace Wrkflw

open ControlState

variable {m : ControlState} {x : InstanceState} {r : StepResult} {cur : CompensationCursor}

variable {top : ProcessDefinition} {g : IDGenerator} {trg : TriggerBody} {s s' : ControlState}

/-! ## Composing runs of the machine -/

theorem Moves.reaches (h : Moves top g trg s s') : Reaches top g trg s s' := ⟨s', h, Or.inl rfl⟩

theorem Reaches.refl : Reaches top g trg s s := Moves.reaches Relation.ReflTransGen.refl

theorem Moves.then (h : Moves top g trg s m) (h' : Reaches top g trg m s') :
    Reaches top g trg s s' := by
  obtain ⟨m', hm, he⟩ := h'
  exact ⟨m', h.trans hm, he⟩

theorem Moves.ends (h : Moves top g trg s m) (hend : End trg m s') : Reaches top g trg s s' :=
  ⟨m, h, Or.inr hend⟩

theorem Phase.Keeps.live (h : Phase.Keeps s s') (hl : s.status.isTerminal = false) : s'.status.isTerminal = false := by
  rw [h.status]
  exact hl

/-- No move ends the instance. -/
theorem Move.live (h : Move top g trg s s') (hl : s.status.isTerminal = false) : s'.status.isTerminal = false := by
  cases h with
  | park p d node scopeID kind at_ hp hsite hkind hnone => exact hp.keeps.live hl
  | fireParallel p d node scopeID consumed hp hsite hmatch => exact hp.keeps.live hl
  | fireInclusive p d node scopeID consumed hp hsite htok hsub hcons => exact hp.keeps.live hl
  | consume tok hmem hfree => exact (Phase.Keeps.removeToken s tok.id).live hl
  | cancel tok at_ kind => exact (Phase.Keeps.cancelToken s tok at_ kind).live hl
  | teardown scope => exact ((Phase.Keeps.archiveAll _ s).trans (Phase.Keeps.closeScope _ scope)).live hl
  | interrupt scope => exact (Phase.Keeps.archiveAll (s.subtreeIDs scope) s).live hl
  | exit scope enclosing hne htok hchild hhold =>
    have hnote := (Phase.Keeps.refl s).thenNote (by trivial) (e := .exited scope enclosing s.tokens s.scopes s.compensating)
    exact ((hnote.trans (Phase.Keeps.archiveCompensations _ scope)).trans (Phase.Keeps.closeScope _ scope)).live hl
  | record scope rec hfwd hhist => exact (Phase.Keeps.recordCompensation s scope rec).live hl
  | sweep s' hidle hsweep => exact (Phase.Keeps.sweep hsweep hidle).live hl
  | throwWalk tok at_ cur rec hthrow hfwd hidle hcur =>
    have ho := sameOutline (dispatch_outline { s.mintCommand.consumeToken tok at_ with status := .compensating } cur
      cur.nextIndex rec (s.nextCmdID g))
    unfold throwDispatch
    rw [ho.status]
    rfl
  | next rec hflight hans hpos hto hrec =>
    have ho := sameOutline (dispatch_outline s.mintCommand { s.compensating with
      nextIndex := s.compensating.nextIndex - 1, activeCmdID := s.nextCmdID g, retryAttempts := 0, retryTimerID := "" }
      (s.compensating.nextIndex - 1) rec (s.nextCmdID g))
    unfold advance
    rw [ho.status]
    exact hl
  | resume cur at_ hfin hres hpend hscope =>
    rw [(resumeControl_fields g at_ _ _).1]
    rfl
  | pendingWalk cur at_ p rec hfin hcons hpend hsweep hclear hrec => rfl
  | begin at_ o rec hidle hclear hasked hrec => rfl
  | _ => exact hl

theorem Moves.live (h : Moves top g trg s s') (hl : s.status.isTerminal = false) : s'.status.isTerminal = false := by
  induction h with
  | refl => exact hl
  | tail _ hstep ih => exact hstep.live ih

theorem endControl_ended (s : ControlState) (st : Status) (err : String) : (s.endControl st err).status = st := by
  unfold endControl
  exact (sameOutline (archiveAll_outline { s with status := st } (s.scopes.map (·.id)))).status

theorem End.terminal (hs : Phase g s) (hend : End trg s s') : s'.status.isTerminal = true := by
  cases hend with
  | complete hlive hdrained =>
    rw [endControl_ended]
    rfl
  | idle st err hlive hidle hst =>
    rw [endControl_ended]
    exact Status.isTerminal_of_aborted hst
  | childFailed err hlive htok =>
    rw [endControl_ended]
    rfl
  | forced outcome at_ err hlive htok =>
    rw [endControl_ended]
    cases outcome <;> rfl
  | terminate cur hfin hmode =>
    rw [endControl_ended]
    exact Status.isTerminal_of_aborted (finalStatusOf_aborts (hfin.finalStatus hs))
  | abandon hflight hans hmode =>
    rw [setScopeRecords, (sameOutline (ControlState.mapRecords_outline _ _ _)).status, endControl_ended]
    exact Status.isTerminal_of_aborted (finalStatusOf_aborts hs.finals.1)
  | pending cur p hfin hcons hpend hsweep hclear hnone =>
    rw [endControl_ended]
    exact Status.isTerminal_of_aborted (pendingOutcome_aborts hs.finals.2)

/-- What reaches a live state took moves only. -/
theorem Reaches.moves (hs : Wf g s) (h : Reaches top g trg s s') (hl : s'.status.isTerminal = false) :
    Moves top g trg s s' := by
  obtain ⟨m, hm, rfl | hend⟩ := h
  · exact hm
  · rw [hend.terminal (Moves.wf hs hm).phase] at hl
    cases hl

/-- The loop follows the machine from every well-formed state that has not ended, and from an ended one without
tokens. -/
def Drives (c : StepCtx) (trg : TriggerBody) (drv : DriveLoop) : Prop :=
  ∀ s r, Wf c.ids s.toControlState → (s.status.isTerminal = true → s.tokens = []) → drv s = .ok r →
    Reaches c.top c.ids trg s.toControlState r.state.toControlState

theorem Drives.reaches {c : StepCtx} {drv : DriveLoop} (hdrv : Drives c trg drv)
    (hs : Wf c.ids s) (hlive : s.status.isTerminal = false)
    (hpath : Moves c.top c.ids trg s x.toControlState) (h : drv x = .ok r) :
    Reaches c.top c.ids trg s r.state.toControlState := by
  refine Moves.then hpath (hdrv x r (Moves.wf hs hpath) (fun ht => ?_) h)
  rw [Moves.live hpath hlive] at ht
  cases ht

theorem Drives.thenDrive {c : StepCtx} {drv : DriveLoop} (hdrv : Drives c trg drv)
    (hs : Wf c.ids s) (hlive : s.status.isTerminal = false) {x : StepResult}
    (hpath : Moves c.top c.ids trg s x.state.toControlState) (h : thenDrive drv x = .ok r) :
    Reaches c.top c.ids trg s r.state.toControlState := by
  obtain ⟨r', h', rfl⟩ := map_prepend_ok h
  exact (hdrv.reaches hs hlive hpath h' :)

/-! ## The status is set apart -/

theorem cancelToken_status (s : ControlState) (st : Status) (tok : Token) (at_ : Time) (kind : CloseKind) :
    ({ s with status := st }).cancelToken tok at_ kind = { s.cancelToken tok at_ kind with status := st } := by
  have hfind : ({ s with status := st }).tokenByID tok.id = s.tokenByID tok.id := rfl
  unfold cancelToken
  rw [hfind]
  cases s.tokenByID tok.id with
  | none => rfl
  | some t =>
    dsimp only
    unfold consumeTokenAs closeVisitAs updateOpenVisit removeToken
    split <;> split <;> rfl

theorem cancelListed_status (st : Status) (at_ : Time) (kind : CloseKind) (toks : List Token) (s : ControlState) :
    ({ s with status := st }).cancelListed at_ kind toks = { s.cancelListed at_ kind toks with status := st } := by
  induction toks generalizing s with
  | nil => rfl
  | cons tok toks ih =>
    change (({ s with status := st }).cancelToken tok at_ kind).cancelListed at_ kind toks = _
    rw [cancelToken_status, ih]
    rfl

theorem consolidate_status (s : ControlState) (st : Status) :
    ({ s with status := st }).consolidateArchiveIntoRoot = { s.consolidateArchiveIntoRoot with status := st } := by
  unfold consolidateArchiveIntoRoot
  split <;> rfl

theorem archiveCompensations_status (s : ControlState) (st : Status) (id : String) :
    ({ s with status := st }).archiveCompensations id = { s.archiveCompensations id with status := st } := by
  have hpart : ∀ recs, ({ s with status := st }).partitionForLiveWalk id recs = s.partitionForLiveWalk id recs :=
    fun _ => rfl
  unfold archiveCompensations
  simp only [hpart]
  split
  · rfl
  · split
    · rfl
    · cases (s.partitionForLiveWalk id _).2 <;> rfl

theorem archiveAll_status (st : Status) (ids : List String) (s : ControlState) :
    ({ s with status := st }).archiveAll ids = { s.archiveAll ids with status := st } := by
  induction ids generalizing s with
  | nil => rfl
  | cons id ids ih =>
    change (({ s with status := st }).archiveCompensations id).archiveAll ids = _
    rw [archiveCompensations_status, ih]
    rfl

theorem mapRecords_status (s : ControlState) (st : Status) (id : String)
    (f : List CompensationRecord → List CompensationRecord) :
    ({ s with status := st }).mapRecords id f = { s.mapRecords id f with status := st } := by
  unfold mapRecords
  split <;> rfl

theorem applyDeleteArchive_status (plan : FinishPlan) (s : ControlState) (st : Status) :
    applyDeleteArchive plan { s with status := st } = { applyDeleteArchive plan s with status := st } := by
  unfold applyDeleteArchive
  split <;> rfl

theorem dropArchiveWindow_status (key : String) (offset : Int) (n : Nat) (s : ControlState) (st : Status) :
    dropArchiveWindow key offset n { s with status := st } = { dropArchiveWindow key offset n s with status := st } := by
  induction n generalizing s with
  | zero => rfl
  | succ n ih => exact ih (s.dropArchiveRecordAt key (offset + n))

theorem applyPlanRecordClearing_status (plan : FinishPlan) (s : ControlState) (st : Status) :
    applyPlanRecordClearing plan { s with status := st } = { applyPlanRecordClearing plan s with status := st } := by
  unfold applyPlanRecordClearing
  split
  · rfl
  · split
    · dsimp only
      unfold clearRecordsPrefix
      rw [mapRecords_status]
      split
      · rfl
      · exact dropArchiveWindow_status _ _ _ _ _
    · exact mapRecords_status s st _ _

theorem resumeControl_status (at_ : Time) (plan : FinishPlan) (s : ControlState) (st : Status) :
    resumeControl g at_ plan { s with status := st } = resumeControl g at_ plan s := by
  unfold resumeControl
  rw [applyPlanRecordClearing_status]

theorem takePending_status (plan : FinishPlan) (s : ControlState) (st : Status) :
    takePending plan { s with status := st } = takePending plan s := by
  have h := applyPlanRecordClearing_status plan
    { s with pendingCancel := false, pendingFinalStatus := .running, pendingFinalErr := "" } st
  unfold takePending
  rw [show ({ s with status := st, pendingCancel := false, pendingFinalStatus := .running, pendingFinalErr := "" } :
    ControlState) = { { s with pendingCancel := false, pendingFinalStatus := .running, pendingFinalErr := "" } with
      status := st } from rfl, h]

theorem endControl_status (s : ControlState) (st st' : Status) (err : String) :
    ({ s with status := st' }).endControl st err = s.endControl st err := rfl

theorem finishPlan_status (s : ControlState) (st : Status) (cur : CompensationCursor) :
    finishPlan { s with status := st } cur = finishPlan s cur := rfl

/-! ## Finishing a walk -/

section Finish
variable {c : StepCtx} {drv : DriveLoop} {begin_ : InstanceState → CompensationOutcome → EngineResult}

theorem applyTerminate_control (c : StepCtx) (x : InstanceState) (plan : FinishPlan) :
    (applyTerminate c x plan).state.toControlState =
      (applyPlanRecordClearing plan x.toControlState).endControl (finalStatusOf plan.finalStatus) plan.finalErr := by
  unfold applyTerminate
  rw [InstanceState.endInstance_control, InstanceState.onControl_toControlState]
  congr 1
  · unfold finalStatusOf
    by_cases h : plan.finalStatus = .running <;> simp [h]
  · by_cases h : plan.finalErr = ""
    · simp [h, InstanceState.terminalErr]
    · simp [h, InstanceState.terminalErr]

/-- The finish of a terminating walk ends the instance. -/
theorem finish_admin {toNode : String}
    (hmode : ({ x.compensating with toNode := toNode } : CompensationCursor).walkMode = .admin)
    (h : stepCompensationFinishWith drv begin_ c x toNode = .ok r) :
    r.state.toControlState = (x.toControlState.settled.clearRecords x.compensating.scopeID).endControl
      (finalStatusOf x.compensating.finalStatus) x.compensating.finalErr := by
  obtain ⟨r', h', rfl⟩ := map_prepend_ok h
  rw [StepResult.prepend_state]
  have hplan : ∀ y : ControlState, finishPlan y { x.compensating with toNode := toNode } =
      { resume := false, doClearRecords := true, clearScope := x.compensating.scopeID,
        finalStatus := x.compensating.finalStatus, finalErr := x.compensating.finalErr } := by
    intro y
    unfold finishPlan
    rw [hmode]
  rw [hplan] at h'
  unfold applyFinishWith at h'
  dsimp only at h'
  simp only [Bool.false_and, Bool.false_eq_true, if_false, Bool.not_false, if_true, Except.ok.injEq] at h'
  rw [← h', applyTerminate_control]
  rfl

/-- What a terminating walk's beginning does to a state without a walk: it dispatches its first record, or ends the
instance when there is none. -/
def BeginsOrEnds (c : StepCtx) (begin_ : InstanceState → CompensationOutcome → EngineResult) : Prop :=
  ∀ x o r, begin_ x o = .ok r → x.status = .compensating → x.compensating = {} → o.toNode = "" → o.reverseNode = "" →
    o.finalStatus = .terminated ∨ o.finalStatus = .failed →
    (∃ rec, (x.toControlState.cancelListed c.at_ o.closeKind x.tokens).consolidateArchiveIntoRoot.rootCompensations.getLast?
        = some rec ∧
      r.state.toControlState =
        (x.toControlState.cancelListed c.at_ o.closeKind x.tokens).consolidateArchiveIntoRoot.beginWalk c.ids o c.at_ rec) ∨
    ((x.toControlState.cancelListed c.at_ o.closeKind x.tokens).consolidateArchiveIntoRoot.rootCompensations = [] ∧
      r.state.toControlState =
        ((x.toControlState.cancelListed c.at_ o.closeKind x.tokens).consolidateArchiveIntoRoot).endControl o.finalStatus
          o.finalErr)

theorem keeps_clear (x : ControlState) (hidle : ¬ x.InFlight) (at_ : Time) (kind : CloseKind) :
    Phase.Keeps x (x.cancelListed at_ kind x.tokens).consolidateArchiveIntoRoot :=
  Phase.Keeps.sweeps (sweeps_clear at_ kind) hidle

theorem not_inFlight_of_idle {x : ControlState} (h : x.compensating = {}) : ¬ x.InFlight := by
  unfold InFlight
  rw [h]
  exact not_not.mpr rfl

/-- `beginCompensation` on a state without a walk: a finish when there is nothing to dispatch, else the first
dispatch. -/
theorem beginCompensationWith_ok {finish : InstanceState → String → EngineResult}
    {o : CompensationOutcome} (h : beginCompensationWith finish c x o = .ok r)
    (hst : x.status = .compensating) (hcur : x.compensating = {}) :
    (∃ y r', finish y o.toNode = .ok r' ∧ r.state = r'.state ∧
      y.toControlState = { (x.toControlState.cancelListed c.at_ o.closeKind x.tokens).consolidateArchiveIntoRoot with
        compensating := o.idleCursor } ∧
      (o.toNode = "" →
        (x.toControlState.cancelListed c.at_ o.closeKind x.tokens).consolidateArchiveIntoRoot.rootCompensations = [])) ∨
    (∃ rec, (x.toControlState.cancelListed c.at_ o.closeKind x.tokens).consolidateArchiveIntoRoot.rootCompensations.getLast?
        = some rec ∧
      r.state.toControlState =
        (x.toControlState.cancelListed c.at_ o.closeKind x.tokens).consolidateArchiveIntoRoot.beginWalk c.ids o c.at_
          rec) := by
  have hk := keeps_clear x.toControlState (not_inFlight_of_idle hcur) c.at_ o.closeKind
  have hclear := clearForWalk_control c x o.closeKind
  unfold beginCompensationWith at h
  generalize hp : (x.toControlState.cancelListed c.at_ o.closeKind x.tokens).consolidateArchiveIntoRoot = p at *
  have hpst : p.status = .compensating := hk.status.trans hst
  have hpcur : p.compensating = {} := (hk.idle (not_inFlight_of_idle hcur)).trans hcur
  have hroot : (clearForWalk c x o.closeKind).state.rootCompensations = p.rootCompensations := by
    rw [hclear]
  dsimp only at h
  rw [hroot] at h
  have hidle : ∀ {r'}, ((finish ((clearForWalk c x o.closeKind).state.onControl
      (fun s => { s with compensating := o.idleCursor })) o.toNode).map
        (·.prepend (clearForWalk c x o.closeKind).commands) = .ok r') → (o.toNode = "" → p.rootCompensations = []) →
      ∃ y r'', finish y o.toNode = .ok r'' ∧ r'.state = r''.state ∧
        y.toControlState = { p with compensating := o.idleCursor } ∧ (o.toNode = "" → p.rootCompensations = []) := by
    intro r' h' hnone
    obtain ⟨r'', h'', rfl⟩ := map_prepend_ok h'
    refine ⟨_, r'', h'', rfl, ?_, hnone⟩
    rw [InstanceState.onControl_toControlState, hclear]
  split at h
  · cases h
  · split at h
    · rename_i hto
      simp only [Bool.and_eq_true, bne_iff_ne] at hto
      exact Or.inl (hidle h (fun h0 => absurd h0 hto.1))
    · cases hlast : p.rootCompensations.getLast? with
      | none =>
        rw [hlast] at h
        exact Or.inl (hidle h (fun _ => List.getLast?_eq_none_iff.mp hlast))
      | some rec =>
        rw [hlast] at h
        dsimp only at h
        refine Or.inr ⟨rec, rfl, ?_⟩
        rw [← Except.ok.inj h, StepResult.prepend_state, afterDispatch_control, InstanceState.onControl_toControlState]
        -- the cleared state compensates already and has no cursor
        have hmint : ((clearForWalk c x o.closeKind).state.nextCommandID c.ids).1.toControlState = p.mintCommand := by
          rw [InstanceState.nextCommandID_control, hclear]
        have hid : ((clearForWalk c x o.closeKind).state.nextCommandID c.ids).2 = p.nextCmdID c.ids := by
          rw [InstanceState.nextCommandID_id, hclear]
        have hmcur : p.mintCommand.compensating = {} := hpcur
        rw [hmint, hid, hmcur]
        have hself : ({ p.mintCommand with status := .compensating } : ControlState) = p.mintCommand := by
          unfold mintCommand
          rw [← hpst]
        unfold ControlState.beginWalk
        rw [hself]
        rfl

theorem beginsOrEnds (drv : DriveLoop) (begin_ : InstanceState → CompensationOutcome → EngineResult) :
    BeginsOrEnds c (beginCompensationWith (stepCompensationFinishWith drv begin_ c) c) := by
  intro x o r h hst hcur hto hrev hfin
  rcases beginCompensationWith_ok h hst hcur with ⟨y, r', hf, hr, hy, hnone⟩ | ⟨rec, hrec, he⟩
  · refine Or.inr ⟨hnone hto, ?_⟩
    have hycur : y.compensating = o.idleCursor := by rw [hy]
    have hmode : ({ y.compensating with toNode := o.toNode } : CompensationCursor).walkMode = .admin := by
      rw [hycur]
      exact walkMode_eq_admin.mpr ⟨rfl, hto, hrev⟩
    rw [hr, finish_admin hmode hf, hycur]
    have hpcur : (x.toControlState.cancelListed c.at_ o.closeKind x.tokens).consolidateArchiveIntoRoot.compensating = {} :=
      ((keeps_clear x.toControlState (not_inFlight_of_idle hcur) c.at_ o.closeKind).idle (not_inFlight_of_idle hcur)).trans
        hcur
    have hsettled : y.toControlState.settled.clearRecords "" =
        (x.toControlState.cancelListed c.at_ o.closeKind x.tokens).consolidateArchiveIntoRoot := by
      rw [hy]
      generalize (x.toControlState.cancelListed c.at_ o.closeKind x.tokens).consolidateArchiveIntoRoot = p at *
      have hroot := hnone hto
      unfold clearRecords mapRecords settled
      cases p
      dsimp only at hroot hpcur
      rw [hroot, hpcur]
      rfl
    have hstat : finalStatusOf o.idleCursor.finalStatus = o.finalStatus := by
      change finalStatusOf o.finalStatus = o.finalStatus
      unfold finalStatusOf
      rcases hfin with h | h <;> rw [h] <;> rfl
    rw [hstat]
    change (y.toControlState.settled.clearRecords "").endControl o.finalStatus o.finalErr = _
    rw [hsettled]
  · exact Or.inl ⟨rec, hrec, he⟩

theorem finishPlan_resume (y : ControlState) (h : cur.walkMode ≠ .admin) :
    (finishPlan y cur).resume = true := by
  unfold finishPlan
  cases hm : cur.walkMode <;> first | exact absurd hm h | rfl

/-- The pending cancel's walk begins, or ends the instance at once. -/
theorem pending_reaches (hbegin : BeginsOrEnds c begin_) (hm : Wf c.ids m)
    (hfin : Finishing trg m cur) (hcons : (finishPlan m.settled cur).consumePendingCancel = true)
    (hpend : m.pendingCancel = true)
    (hx : x.toControlState = consumePending (finishPlan m.settled cur)
      (applyDeleteArchive (finishPlan m.settled cur) m.settled))
    (h : begin_ x (pendingOutcome m) = .ok r) : Reaches c.top c.ids trg m r.state.toControlState := by
  have htake := takePending_keeps (finishPlan m.settled cur) (applyDeleteArchive (finishPlan m.settled cur) m.settled)
  rw [applyDeleteArchive_compensating] at htake
  have hidle : ¬ (takePending (finishPlan m.settled cur)
      (applyDeleteArchive (finishPlan m.settled cur) m.settled)).InFlight := not_inFlight_of_idle htake.1
  have hharvest : Sweeps (takePending (finishPlan m.settled cur)
      (applyDeleteArchive (finishPlan m.settled cur) m.settled)) x.toControlState := by
    rw [hx]
    exact sweeps_archiveAll _
  have hk := Phase.Keeps.sweeps hharvest hidle
  have hnames : Names c.ids x.toControlState :=
    hm.names.of_shrinks (((Names.Shrinks.deleted m (finishPlan m.settled cur)).trans
      (Names.Shrinks.takePending (finishPlan m.settled cur) _)).trans (Names.Shrinks.sweeps hharvest))
  have hsweep := hharvest.trans (sweeps_clear (s := x.toControlState) c.at_ (pendingOutcome m).closeKind)
  have hclear := cleared_clear hnames c.at_ (pendingOutcome m).closeKind
  rcases hbegin x _ r h hk.status ((hk.idle hidle).trans htake.1) rfl rfl (pendingOutcome_aborts hm.phase.finals.2) with
    ⟨rec, hrec, he⟩ | ⟨hnone, he⟩
  · rw [he]
    exact (Move.pendingWalk cur c.at_ _ rec hfin hcons hpend hsweep hclear hrec).path.reaches
  · rw [he]
    exact Moves.ends Relation.ReflTransGen.refl (End.pending cur _ hfin hcons hpend hsweep hclear hnone)

/-- Every finish of a walk, or of a rollback with nothing to walk over, follows the machine. -/
theorem finish_reaches (hdrv : Drives c trg drv) (hbegin : BeginsOrEnds c begin_) (hm : Wf c.ids m)
    (hfin : Finishing trg m cur) (hscope : m.ScopeRef c.ids cur.resumeScope)
    {toNode : String} (st : Status)
    (hcur : ({ x.compensating with toNode := toNode } : CompensationCursor) = cur)
    (hx : x.toControlState.settled = { m.settled with status := st })
    (h : stepCompensationFinishWith drv begin_ c x toNode = .ok r) : Reaches c.top c.ids trg m r.state.toControlState := by
  by_cases hmode : cur.walkMode = .admin
  · have he := finish_admin (hcur ▸ hmode) h
    have hs : x.compensating.scopeID = cur.scopeID := (congrArg CompensationCursor.scopeID hcur :)
    have hf : x.compensating.finalStatus = cur.finalStatus := (congrArg CompensationCursor.finalStatus hcur :)
    have her : x.compensating.finalErr = cur.finalErr := (congrArg CompensationCursor.finalErr hcur :)
    rw [he, hx, hs, hf, her]
    unfold clearRecords
    rw [mapRecords_status, endControl_status]
    exact Moves.ends Relation.ReflTransGen.refl (End.terminate cur hfin hmode)
  · obtain ⟨r', h', rfl⟩ := map_prepend_ok h
    rw [StepResult.prepend_state]
    rw [hcur] at h'
    have hsettled : (cancelCompensationWalkTimers (x.onControl (fun s => { s with compensating := {} }))).state.toControlState
        = { m.settled with status := st } := hx
    have hplan : finishPlan (cancelCompensationWalkTimers
        (x.onControl (fun s => { s with compensating := {} }))).state.toControlState cur = finishPlan m.settled cur := by
      rw [hsettled, finishPlan_status]
    rw [hplan] at h'
    generalize hy : (cancelCompensationWalkTimers (x.onControl (fun s => { s with compensating := {} }))).state = y at *
    have hdel : (y.onControl (applyDeleteArchive (finishPlan m.settled cur))).toControlState =
        { applyDeleteArchive (finishPlan m.settled cur) m.settled with status := st } := by
      rw [InstanceState.onControl_toControlState, hsettled, applyDeleteArchive_status]
    have hpc : (y.onControl (applyDeleteArchive (finishPlan m.settled cur))).pendingCancel = m.pendingCancel := by
      rw [hdel]
      exact (sameOutline (applyDeleteArchive_outline (finishPlan m.settled cur) m.settled)).pendingCancel
    have hres := finishPlan_resume m.settled hmode
    unfold applyFinishWith at h'
    dsimp only at h'
    rw [hres, hpc] at h'
    simp only [Bool.true_and, Bool.not_true, Bool.false_eq_true, if_false] at h'
    split at h'
    · -- the pending cancel's own walk
      rename_i hpend
      simp only [Bool.and_eq_true] at hpend
      have hout : pendingOutcome (y.onControl (applyDeleteArchive (finishPlan m.settled cur))).toControlState =
          pendingOutcome m := by
        have ho := sameOutline (applyDeleteArchive_outline (finishPlan m.settled cur) m.settled)
        rw [hdel]
        unfold pendingOutcome
        dsimp only
        rw [ho.pendingFinalStatus, ho.pendingFinalErr]
        rfl
      rw [hout] at h'
      refine pending_reaches hbegin hm hfin hpend.1 hpend.2 ?_ h'
      rw [InstanceState.onControl_toControlState, hdel]
      unfold consumePending
      rw [takePending_status]
    · rename_i hpend
      have hpend' : (finishPlan m.settled cur).consumePendingCancel = true → m.pendingCancel = false := by
        intro hc
        rw [hc, Bool.true_and] at hpend
        exact Bool.eq_false_iff.mpr hpend
      have hmove : Move c.top c.ids trg m _ := Move.resume cur c.at_ hfin hres hpend' hscope
      generalize hz : ({ y.onControl (applyDeleteArchive (finishPlan m.settled cur)) with
          endedAt := none
          vars := resumeVars (finishPlan m.settled cur) (y.onControl (applyDeleteArchive (finishPlan m.settled cur)))
        }.onControl (resumeControl c.ids c.at_ (finishPlan m.settled cur))) = z at h'
      have hzc : z.toControlState = resumeControl c.ids c.at_ (finishPlan m.settled cur)
          (applyDeleteArchive (finishPlan m.settled cur) m.settled) := by
        rw [← hz, InstanceState.onControl_toControlState]
        change resumeControl c.ids c.at_ (finishPlan m.settled cur)
          (y.onControl (applyDeleteArchive (finishPlan m.settled cur))).toControlState = _
        rw [hdel, resumeControl_status]
      obtain ⟨hzst, hzcur, -, -⟩ := resumeControl_fields c.ids c.at_ (finishPlan m.settled cur)
        (applyDeleteArchive (finishPlan m.settled cur) m.settled)
      rw [← hzc] at hmove hzst hzcur
      have hlive : z.toControlState.status.isTerminal = false := by
        rw [hzst]
        rfl
      split at h'
      · -- the scope is gone and nothing is left
        rename_i hdrop
        rw [Bool.and_eq_true] at hdrop
        rw [← Except.ok.inj h', InstanceState.complete_control]
        refine Moves.ends hmove.path (End.complete hlive ?_)
        unfold drained
        rw [hzcur, applyDeleteArchive_compensating, hdrop.2]
        rfl
      · obtain ⟨r1, h1, h'⟩ := bind_ok h'
        obtain ⟨r2, h2, h'⟩ := bind_ok h'
        rw [← Except.ok.inj h']
        have hc := rearmRoot_control h1
        refine Moves.then hmove.path ?_
        rw [StepResult.prepend_state]
        exact hdrv.reaches (hmove.wf hm) hlive (hc ▸ Relation.ReflTransGen.refl) h2

/-! ## Beginning a walk -/

/-- `beginCompensation` from a state that was cleared for it. -/
theorem begin_reaches (hdrv : Drives c trg drv) (hm : Wf c.ids m) (hidle : ¬ m.InFlight)
    {o : CompensationOutcome} (hasked : Asked m trg o)
    (hx : x.toControlState = { m with status := .compensating }) (h : beginCompensation drv c x o = .ok r) :
    Reaches c.top c.ids trg m r.state.toControlState := by
  have hcur0 := hm.phase.idle hidle
  have hxcur : x.compensating = {} := by rw [hx]; exact hcur0
  have hxst : x.status = .compensating := by rw [hx]
  have hclearx : (x.toControlState.cancelListed c.at_ o.closeKind x.tokens).consolidateArchiveIntoRoot =
      { (m.cancelListed c.at_ o.closeKind m.tokens).consolidateArchiveIntoRoot with status := .compensating } := by
    have htok : x.tokens = m.tokens := by rw [hx]
    rw [htok, hx, cancelListed_status, consolidate_status]
  have hsweep := sweeps_clear (s := m) c.at_ o.closeKind
  have hk := Phase.Keeps.sweeps hsweep hidle
  have hclear := cleared_clear hm.names c.at_ o.closeKind
  have hpath : Moves c.top c.ids trg m _ := moves_sweeps hidle hsweep
  have hok := beginCompensationWith_ok h hxst hxcur
  rw [hclearx] at hok
  generalize (m.cancelListed c.at_ o.closeKind m.tokens).consolidateArchiveIntoRoot = p at *
  have hpidle : ¬ p.InFlight := fun hin => hidle (hk.inFlight.mp hin)
  have hpasked : Asked p trg o := by
    refine ⟨hasked.finalStatus, hasked.toNode, fun ht => hasked.terminal ?_⟩
    rw [← hk.status]
    exact ht
  have hpwf := Moves.wf hm hpath
  rcases hok with ⟨y, r', hf, hr, hy, hnone⟩ | ⟨rec, hrec, he⟩
  · have hycur : y.compensating = o.idleCursor := by rw [hy]
    have hpcur := hpwf.phase.idle hpidle
    refine Moves.then hpath ?_
    rw [hr]
    refine finish_reaches hdrv (beginsOrEnds drv _) hpwf (Finishing.idle o hpidle hclear hpasked hnone)
      (Or.inl rfl) .compensating ?_ ?_ hf
    · rw [hycur]
    · rw [hy]
      unfold settled
      rfl
  · rw [he]
    refine Moves.reaches (hpath.trans ?_)
    exact (Move.begin c.at_ o rec hpidle hclear hpasked hrec).path

/-! ## Advancing, retrying and abandoning a walk -/

theorem finish_walk_reaches (hdrv : Drives c trg drv) (hs : Wf c.ids s) (hflight : s.InFlight)
    (hans : (Answers s trg ∧ Exhausted s) ∨ s.currentRecord = none) (hx : x.toControlState = s)
    (h : stepCompensationFinish drv c x s.compensating.toNode = .ok r) :
    Reaches c.top c.ids trg s r.state.toControlState := by
  subst hx
  exact finish_reaches hdrv (beginsOrEnds drv _) hs (Finishing.walk hflight hans) hs.names.resume
    x.status rfl rfl h

theorem advance_reaches (hdrv : Drives c trg drv) (hs : Wf c.ids s) (hflight : s.InFlight) (hans : Answers s trg)
    (hx : x.toControlState = s) (h : stepCompensationAdvance drv c x = .ok r) :
    Reaches c.top c.ids trg s r.state.toControlState := by
  have hretire : (x.retireCompensationStallIncidents x.compensating.activeCmdID).toControlState = s := by
    rw [InstanceState.retireCompensationStallIncidents_control, hx]
  have hcur : x.compensating = s.compensating := by rw [hx]
  unfold stepCompensationAdvance at h
  dsimp only at h
  generalize (x.retireCompensationStallIncidents x.compensating.activeCmdID) = y at h hretire
  rw [hcur, hretire] at h
  split at h
  · rename_i hdone
    refine finish_walk_reaches hdrv hs hflight (Or.inl ⟨hans, ?_⟩) hretire h
    rw [Bool.or_eq_true, decide_eq_true_eq, decide_eq_true_eq] at hdone
    rcases hdone with h1 | h1
    · exact Or.inl (by omega)
    · exact Or.inr (Or.inr h1)
  · rename_i hmore
    rw [Bool.or_eq_true, decide_eq_true_eq, decide_eq_true_eq, not_or] at hmore
    cases hrec : (s.cursorRecords s.compensating)[(s.compensating.nextIndex - 1).toNat]? with
    | none =>
      rw [hrec] at h
      refine finish_walk_reaches hdrv hs hflight (Or.inl ⟨hans, Or.inr (Or.inl ?_)⟩) hretire h
      have hlen := List.getElem?_eq_none_iff.mp hrec
      omega
    | some rec =>
      rw [hrec] at h
      dsimp only at h
      rw [← Except.ok.inj h, afterDispatch_control, InstanceState.onControl_toControlState,
        InstanceState.nextCommandID_control, InstanceState.nextCommandID_id, hretire]
      exact (Move.next rec hflight hans (by omega) hmore.2 hrec).path.reaches

theorem redispatchCurrent_control (c : StepCtx) (x : InstanceState) (rec : CompensationRecord) (n : Int) :
    (redispatchCurrent c x rec n).state.toControlState = x.toControlState.retryCurrent c.ids rec n := by
  unfold redispatchCurrent
  dsimp only
  rw [afterDispatch_control]
  rfl

theorem retryStalled_reaches (hs : Wf c.ids s) (hflight : s.InFlight) (hans : Answers s trg)
    (hx : x.toControlState = s) (h : retryStalledCompensation drv c x = .ok r) :
    Reaches c.top c.ids trg s r.state.toControlState := by
  subst hx
  obtain ⟨rec, hrec⟩ := (hs.phase.walk hflight).currentRecord
  unfold retryStalledCompensation at h
  dsimp only at h
  rw [hrec] at h
  dsimp only at h
  rw [← Except.ok.inj h, redispatchCurrent_control, InstanceState.retireCompensationFailedIncidents_control,
    InstanceState.retireCompensationStallIncidents_control]
  exact (Move.again rec 0 hflight hrec (Or.inl hans)).path.reaches

theorem retryFailed_reaches (hs : Wf c.ids s) (htrg : ∃ timerID, trg = .timerFired timerID)
    (hx : x.toControlState = s) {tr : TimerRecord} (h : retryFailedCompensation drv c x tr = .ok r) :
    Reaches c.top c.ids trg s r.state.toControlState := by
  subst hx
  have htimer := x.removeTimer_control tr.timerID
  unfold retryFailedCompensation at h
  dsimp only at h
  split at h
  · rw [← Except.ok.inj h]
    exact (htimer ▸ Relation.ReflTransGen.refl : Moves c.top c.ids trg x.toControlState _).reaches
  · rename_i hcond
    have hflight : x.InFlight := by
      refine hs.phase.status.mp ?_
      by_contra hne
      refine hcond ?_
      rw [htimer]
      simp [hne]
    obtain ⟨rec, hrec⟩ := (hs.phase.walk hflight).currentRecord
    rw [htimer, hrec] at h
    dsimp only at h
    rw [← Except.ok.inj h, redispatchCurrent_control, InstanceState.retireCompensationFailedIncidents_control, htimer]
    exact (Move.again rec _ hflight hrec (Or.inr htrg)).path.reaches

theorem abandon_reaches (hflight : s.InFlight) (hans : Answers s trg)
    (hx : x.toControlState = s) (h : abandonCompensationWalk drv c x = .ok r) :
    Reaches c.top c.ids trg s r.state.toControlState := by
  subst hx
  unfold abandonCompensationWalk at h
  dsimp only at h
  split at h
  · cases h
  · rename_i hmode
    have hadmin : x.compensating.walkMode = .admin := by simpa using hmode
    obtain ⟨r1, h1, h⟩ := bind_ok h
    have hretire := x.retireCompensationStallIncidents_control x.compensating.activeCmdID
    generalize (x.retireCompensationStallIncidents x.compensating.activeCmdID) = y at h1 hretire
    have hycur : y.compensating = x.compensating := by rw [hretire]
    have he : r1.state.toControlState = _ := finish_admin (by rw [hycur]; exact hadmin) h1
    rw [hretire] at he
    rw [← Except.ok.inj h, InstanceState.onControl_toControlState, he]
    exact Moves.ends Relation.ReflTransGen.refl (End.abandon hflight hans hadmin)

theorem resolveStall_reaches (hdrv : Drives c trg drv) (hs : Wf c.ids x.toControlState)
    {commandID incidentID : String} {disposition : CompensationDisposition}
    (htrg : trg = .resolveCompensationStall commandID incidentID disposition)
    (h : handleResolveCompensationStall drv c x commandID incidentID disposition = .ok r) :
    Reaches c.top c.ids trg x.toControlState r.state.toControlState := by
  unfold handleResolveCompensationStall at h
  split at h
  · cases h
  · rename_i hwalk
    split at h
    · cases h
    · rename_i hid
      split at h
      · cases h
      · have hflight : x.InFlight := by
          intro h0
          refine hwalk ?_
          simp [h0]
        have hans : Answers x.toControlState trg := by
          subst htrg
          change commandID = x.compensating.activeCmdID
          simpa using hid
        cases disposition with
        | retry => exact retryStalled_reaches hs hflight hans rfl h
        | skip => exact advance_reaches hdrv hs hflight hans rfl h
        | abandon => exact abandon_reaches hflight hans rfl h

/-! ## Rollback requests -/

theorem compensateRequested_reaches (hdrv : Drives c trg drv) (hs : Wf c.ids x.toControlState)
    {toNode reverseNode : String} {resetVars restoreTargetVars : Bool}
    (htrg : trg = .compensateRequested toNode reverseNode resetVars restoreTargetVars)
    (hterm : x.status.isTerminal = true → toNode = "" ∧ reverseNode = "")
    (h : stepCompensateRequested drv c x toNode reverseNode resetVars restoreTargetVars = .ok r) :
    Reaches c.top c.ids trg x.toControlState r.state.toControlState := by
  unfold stepCompensateRequested at h
  split at h
  · cases h
  split at h
  · cases h
  split at h
  · split at h
    · cases h
    · rw [← Except.ok.inj h]
      exact Reaches.refl
  rename_i hwalk
  split at h
  · cases h
  have hidle : ¬ x.InFlight := by
    intro hin
    refine hwalk ?_
    rw [Bool.and_eq_true, beq_iff_eq, bne_iff_ne]
    exact ⟨hs.phase.status.mpr hin, hin⟩
  have hasked : ∀ m : ControlState, m.status = x.status → ∀ o : CompensationOutcome, o.finalStatus = .running →
      o.toNode = toNode → o.reverseNode = reverseNode → Asked m trg o := by
    rintro m hm o hf rfl rfl
    exact ⟨Or.inl hf, fun _ => ⟨_, _, _, htrg⟩, fun ht => hterm (hm ▸ ht)⟩
  dsimp only at h
  split at h
  · -- the open scopes' records are harvested first
    have hsweep : Sweeps x.toControlState (x.toControlState.archiveAll (x.scopes.map (·.id))) := sweeps_archiveAll _
    have hpath : Moves c.top c.ids trg x.toControlState _ := moves_sweeps hidle hsweep
    have hk := Phase.Keeps.sweeps hsweep hidle
    refine Moves.then hpath (begin_reaches hdrv (Moves.wf hs hpath) (fun hin => hidle (hk.inFlight.mp hin))
      (hasked _ hk.status _ rfl rfl rfl) ?_ h)
    simp only [InstanceState.onControl_toControlState]
    exact archiveAll_status .compensating (x.scopes.map (·.id)) x.toControlState
  · refine begin_reaches hdrv hs hidle (hasked _ rfl _ rfl rfl rfl) ?_ h
    rfl

end Finish

end Wrkflw
