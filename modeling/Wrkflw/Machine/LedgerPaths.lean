import Wrkflw.Machine.Ledger
import Wrkflw.Machine.StepPaths

/-!
# The ledger under the engine

Every function of the engine keeps the ledger of visits: `drive_logged` for the loop, `handle_logged` for the handlers.
-/

namespace Wrkflw

open ControlState

variable {nodeID scopeID : String} {d : ProcessDefinition} {s : ControlState} {o : CompensationOutcome}

/-- The ledger of an instance with no token on its way. -/
abbrev Logged (c : StepCtx) (given : Premises) (h0 : List NodeVisit) (x : InstanceState) : Prop :=
  Ledger c given h0 [] x.toControlState

/-- The loop keeps the ledger. -/
def DrivesLogged (c : StepCtx) (given : Premises) (h0 : List NodeVisit) (drv : DriveLoop) : Prop :=
  ∀ {y : InstanceState} {r : StepResult}, Logged c given h0 y → drv y = .ok r → Logged c given h0 r.state

namespace Logged
variable {c : StepCtx} {given : Premises} {h0 : List NodeVisit} {drv : DriveLoop} {x : InstanceState}
  {r : StepResult} {tok : Token}

theorem of_control (h : Logged c given h0 x) {y : InstanceState} (hctl : y.toControlState = x.toControlState) :
    Logged c given h0 y := by
  unfold Logged
  rw [hctl]
  exact h

/-! ## Joins -/

theorem matchPass_subset {parked : List Token} {fits : FlowRef → Token → Bool} {fs : List FlowRef} {assigned : List Token}
    (h : ∀ t ∈ assigned, t ∈ parked) : ∀ t ∈ (matchPass parked fits fs assigned).1, t ∈ parked := by
  induction fs generalizing assigned with
  | nil => exact h
  | cons f fs ih =>
    unfold matchPass
    cases hfind : parked.find? (fun t => !hasToken assigned t && fits f t) with
    | none => exact ih h
    | some t =>
      refine ih (fun a ha => ?_)
      rcases List.mem_append.mp ha with ha | ha
      · exact h a ha
      · rw [List.mem_singleton.mp ha]
        exact List.mem_of_find?_eq_some hfind

theorem matchJoin_parked {tokens consumed : List Token} {node scope : String}
    (h : matchJoinTokensToFlows d tokens node scope = some consumed) :
    ∀ t ∈ consumed, t ∈ tokens ∧ joinedAt t node scope = true := by
  unfold matchJoinTokensToFlows at h
  dsimp only at h
  split at h
  · intro t ht
    rw [← Option.some.inj h] at ht
    refine List.mem_filter.mp (matchPass_subset (matchPass_subset ?_) t ht)
    simp
  · cases h

theorem tryJoin {s' : ControlState} (h : Ledger c given h0 [] s) {node : Node} {scope : String}
    (hd : ScopeDefn c.top s.trace scope d) (hjoin : tryJoin c.ids d s node scope c.at_ = some s') :
    Ledger c given h0 [] s' := by
  unfold Wrkflw.tryJoin at hjoin
  split at hjoin
  · unfold tryParallelJoin at hjoin
    split at hjoin
    · cases hjoin
    · rename_i consumed hmatch
      rw [← Option.some.inj hjoin]
      exact (h.note _).fireJoin node.id (hd.mono (List.subset_cons_self _ _)) (matchJoin_parked hmatch)
  · unfold tryInclusiveJoin at hjoin
    dsimp only at hjoin
    split at hjoin
    · cases hjoin
    · split at hjoin
      · cases hjoin
      · rw [← Option.some.inj hjoin]
        exact (h.note _).fireJoin node.id (hd.mono (List.subset_cons_self _ _)) (fun t ht => List.mem_filter.mp ht)
  · cases hjoin

theorem retryParked {s' : ControlState} (h : Ledger c given h0 [] s) {toks : List Token}
    (hjoin : retryParked c.ids c.top s c.at_ toks = some s') : Ledger c given h0 [] s' := by
  induction toks with
  | nil => cases hjoin
  | cons tok toks ih =>
    unfold Wrkflw.retryParked at hjoin
    split at hjoin
    · exact ih hjoin
    · split at hjoin
      · exact ih hjoin
      · rename_i tdef hdef
        split at hjoin
        · exact ih hjoin
        · split at hjoin
          · exact ih hjoin
          · split at hjoin
            · rename_i s1 htry
              rw [← Option.some.inj hjoin]
              exact tryJoin h (h.scopeDef hdef) htry
            · exact ih hjoin

/-! ## Moves and cancellations -/

theorem mem_flowRefs_of_leading {f : FlowRef} {fs : List FlowRef}
    (h : outgoingFlows d nodeID = f :: fs) : f ∈ flowRefs d := by
  have hmem : f ∈ outgoingFlows d nodeID := h ▸ List.mem_cons_self
  exact List.mem_of_mem_filter hmem

theorem moveAlongSingleFlow (h : Logged c given h0 x) (hat : At x.toControlState tok)
    (hd : ScopeDefn c.top x.trace tok.scopeID d) :
    Logged c given h0 (moveAlongSingleFlow c.ids d x tok c.at_) := by
  unfold Wrkflw.moveAlongSingleFlow
  dsimp only
  split
  · rename_i hnone
    have hclosed := hat.updateOpenVisit tok.id tok.nodeID (fun v => { v with leftAt := some c.at_ })
    have htrace : (x.toControlState.closeVisit tok.id tok.nodeID c.at_).trace = x.trace := updateOpenVisit_trace _ _ _ _
    have hstays : Ledger c given h0 [] (x.toControlState.closeVisit tok.id tok.nodeID c.at_) :=
      (h.closeVisit hat).strand hclosed ⟨d, htrace ▸ hd, hnone⟩
    exact hstays.setTokenState tok.id .incident
  · rename_i f fs hout
    exact h.closeRelocate hat (fun _ => CameBy.along hd (mem_flowRefs_of_leading hout))

theorem fireOnce (h : Logged c given h0 x) (g : IDGenerator) (name : String) :
    Logged c given h0 (emitFireOnceAction g x name).state := by
  rcases emitFireOnceAction_control g x name with he | he
  · exact h.of_control he
  · unfold Logged
    rw [he]
    exact h.mint

theorem fireOnce_trace (g : IDGenerator) (x : InstanceState) (name : String) :
    x.trace ⊆ (emitFireOnceAction g x name).state.trace := by
  rcases emitFireOnceAction_control g x name with he | he
  · rw [he]
    exact List.Subset.refl _
  · rw [he]
    exact List.Subset.refl _

theorem consumeTokenAs_trace (s : ControlState) (tok : Token) (at_ : Time) (kind : CloseKind) :
    (s.consumeTokenAs tok at_ kind).trace = s.trace := by
  have hclosed := updateOpenVisit_trace s tok.id tok.nodeID (fun v => { v with leftAt := some at_, closeKind := kind })
  unfold ControlState.consumeTokenAs ControlState.removeToken
  split
  · exact hclosed
  · exact hclosed

theorem cancelToken_trace (s : ControlState) (tok : Token) (at_ : Time) (kind : CloseKind) :
    s.trace ⊆ (s.cancelToken tok at_ kind).trace := by
  unfold ControlState.cancelToken
  split
  · change s.trace ⊆ _ :: (s.consumeTokenAs _ at_ kind).trace
    rw [consumeTokenAs_trace]
    exact List.subset_cons_self _ _
  · exact List.Subset.refl _

theorem cancelListed_trace (s : ControlState) (at_ : Time) (kind : CloseKind) (toks : List Token) :
    s.trace ⊆ (s.cancelListed at_ kind toks).trace := by
  induction toks generalizing s with
  | nil => exact List.Subset.refl _
  | cons tok toks ih => exact List.Subset.trans (cancelToken_trace s tok at_ kind) (ih _)

theorem at_fireOnce (hat : At x.toControlState tok) (g : IDGenerator) (name : String) :
    At (emitFireOnceAction g x name).state.toControlState tok := by
  rcases emitFireOnceAction_control g x name with he | he
  · rw [he]
    exact hat
  · rw [he]
    exact hat

theorem cancelScopeSubtree (h : Logged c given h0 x) (id : String) (kind : CloseKind) :
    Logged c given h0 (cancelScopeSubtree x id c.at_ kind).state := by
  obtain ⟨toks, he⟩ := cancelScopeSubtree_control x id c.at_ kind
  unfold Logged
  rw [he]
  exact (h.cancelListed kind toks).of_outline (archiveAll_outline _ _)

theorem closeScope (h : Ledger c given h0 [] s) (id : String) : Ledger c given h0 [] (s.closeScope id) := by
  obtain ⟨p, he⟩ := s.closeScope_shape id
  rw [he]
  exact h.filterScopes p

theorem endInstance (h : Logged c given h0 x) (st : Status) (at_ : Time) (terminal : Option Command) :
    Logged c given h0 (x.endInstance st at_ terminal).state := by
  unfold Logged
  rw [InstanceState.endInstance_control]
  have hstatus : Ledger c given h0 [] { x.toControlState with status := st } := h.of_books rfl (.inl rfl)
  have hharvest := hstatus.of_outline (harvest_outline _)
  have hnoted := hharvest.note (.ended st (InstanceState.terminalErr terminal) x.compensating)
  exact hnoted.of_same rfl rfl rfl (List.Subset.refl _) (by simp [endControl]) (.inr rfl)

theorem complete (h : Logged c given h0 x) (at_ : Time) : Logged c given h0 (x.complete at_).state := h.endInstance _ _ _

/-! ## Walks -/

theorem applyTerminate (h : Logged c given h0 x) (plan : FinishPlan) : Logged c given h0 (applyTerminate c x plan).state := by
  unfold Wrkflw.applyTerminate
  dsimp only
  refine endInstance ?_ _ _ _
  exact h.of_outline (applyPlanRecordClearing_outline plan _)

theorem popOneDeferredThrow (h : Ledger c given h0 [] s) : Ledger c given h0 [] s.popOneDeferredThrow := by
  unfold ControlState.popOneDeferredThrow
  split
  · exact h
  · rename_i id rest _
    have hpopped : Ledger c given h0 [] { s with deferredCompensationThrows := rest } := h.of_books rfl (.inl rfl)
    dsimp only
    split
    · exact (hpopped.setTokenState _ .active).note _
    · exact hpopped

/-- Where the plan of a finished walk resumes. -/
theorem finishPlan_arrives {top : ProcessDefinition} {trace : List Event} {cur : CompensationCursor}
    (h : CameBy top trace cur.resumeScope cur.resumeNode cur.resumeFlow) :
    CameBy top trace (finishPlan s cur).resumeScope (finishPlan s cur).resumeAt (finishPlan s cur).resumeFlow := by
  unfold finishPlan
  cases cur.walkMode with
  | throwTargeted => exact h
  | throwScopeWide => exact h
  | partialWalk => exact Or.inl rfl
  | reverse => exact Or.inl rfl
  | admin => exact Or.inl rfl

theorem resumeControl (h : Ledger c given h0 [] s) {plan : FinishPlan}
    (hplan : CameBy c.top s.trace plan.resumeScope plan.resumeAt plan.resumeFlow) :
    Ledger c given h0 [] (resumeControl c.ids c.at_ plan s) := by
  have htrace : s.trace ⊆ (({ applyPlanRecordClearing plan s with status := .running } : ControlState).note
      (.resumed plan.popDeferred s.deferredCompensationThrows)).trace := by
    change s.trace ⊆ _ :: (applyPlanRecordClearing plan s).trace
    rw [(sameOutline (applyPlanRecordClearing_outline plan s)).trace]
    exact List.subset_cons_self _ _
  have hcleared := h.of_outline (applyPlanRecordClearing_outline plan s)
  have hstatus : Ledger c given h0 [] ({ applyPlanRecordClearing plan s with status := .running } : ControlState) :=
    hcleared.of_books rfl (.inl rfl)
  have hrun := hstatus.note (.resumed plan.popDeferred s.deferredCompensationThrows)
  unfold Wrkflw.resumeControl
  dsimp only
  split
  · refine popOneDeferredThrow ?_
    split
    · exact hrun
    · exact hrun.place (fun _ => hplan.mono htrace)
  · split
    · exact hrun
    · exact hrun.place (fun _ => hplan.mono htrace)

section Drive
variable (hdrv : DrivesLogged c given h0 drv)
include hdrv

theorem thenDrive {r0 : StepResult} (h : Logged c given h0 r0.state) (hd : thenDrive drv r0 = .ok r) :
    Logged c given h0 r.state := by
  obtain ⟨r', h', rfl⟩ := map_prepend_ok hd
  change Logged c given h0 r'.state
  exact hdrv h h'

theorem applyFinishWith {begin_ : InstanceState → CompensationOutcome → EngineResult}
    (hbegin : ∀ {y o r}, Logged c given h0 y → begin_ y o = .ok r → Logged c given h0 r.state)
    (h : Logged c given h0 x) {plan : FinishPlan}
    (hplan : CameBy c.top x.trace plan.resumeScope plan.resumeAt plan.resumeFlow)
    (hf : applyFinishWith drv begin_ c x plan = .ok r) : Logged c given h0 r.state := by
  have htrace : (x.onControl (applyDeleteArchive plan)).trace = x.trace :=
    (sameOutline (applyDeleteArchive_outline plan _)).trace
  have hdel : Logged c given h0 (x.onControl (applyDeleteArchive plan)) := h.of_outline (applyDeleteArchive_outline plan _)
  unfold Wrkflw.applyFinishWith at hf
  dsimp only at hf
  split at hf
  · refine hbegin ?_ hf
    refine Ledger.of_outline ?_ (harvest_outline _)
    have hreset : Ledger c given h0 [] { (x.onControl (applyDeleteArchive plan)).toControlState with
        pendingCancel := false, pendingFinalStatus := .running, pendingFinalErr := "" } := hdel.of_books rfl (.inl rfl)
    have hcleared := hreset.of_outline (applyPlanRecordClearing_outline plan _)
    exact hcleared.of_books rfl (.inl rfl)
  · split at hf
    · rw [← Except.ok.inj hf]
      exact applyTerminate hdel plan
    · have hresumed : Logged c given h0 ({ x.onControl (applyDeleteArchive plan) with
          endedAt := none, vars := resumeVars plan (x.onControl (applyDeleteArchive plan)) }.onControl
            (Wrkflw.resumeControl c.ids c.at_ plan)) := resumeControl hdel (htrace.symm ▸ hplan)
      split at hf
      · rw [← Except.ok.inj hf]
        exact complete hresumed _
      · obtain ⟨r1, h1, hf⟩ := bind_ok hf
        obtain ⟨r2, h2, hf⟩ := bind_ok hf
        rw [← Except.ok.inj hf]
        change Logged c given h0 r2.state
        exact hdrv (hresumed.of_control (rearmRoot_control h1)) h2

theorem finishWith {begin_ : InstanceState → CompensationOutcome → EngineResult}
    (hbegin : ∀ {y o r}, Logged c given h0 y → begin_ y o = .ok r → Logged c given h0 r.state)
    (h : Logged c given h0 x) {toNode : String} (hf : stepCompensationFinishWith drv begin_ c x toNode = .ok r) :
    Logged c given h0 r.state := by
  obtain ⟨r', h', rfl⟩ := map_prepend_ok hf
  change Logged c given h0 r'.state
  refine applyFinishWith hdrv hbegin ?_ ?_ h'
  · exact h.of_books rfl (.inr rfl)
  · exact finishPlan_arrives h.resumes

omit hdrv in
theorem beginWith {finish : InstanceState → String → EngineResult}
    (hfinish : ∀ {y toNode r}, Logged c given h0 y → finish y toNode = .ok r → Logged c given h0 r.state)
    (h : Logged c given h0 x) (hb : beginCompensationWith finish c x o = .ok r) :
    Logged c given h0 r.state := by
  have hclear : Logged c given h0 (clearForWalk c x o.closeKind).state := by
    unfold Logged
    rw [clearForWalk_control]
    exact (h.cancelListed o.closeKind x.tokens).of_outline (consolidate_outline _)
  have hidle : ∀ {r : StepResult}, (finish ((clearForWalk c x o.closeKind).state.onControl (fun s =>
      { s with compensating := o.idleCursor })) o.toNode).map (·.prepend (clearForWalk c x o.closeKind).commands) = .ok r →
      Logged c given h0 r.state := by
    intro r hi
    obtain ⟨r', h', rfl⟩ := map_prepend_ok hi
    change Logged c given h0 r'.state
    refine hfinish ?_ h'
    exact hclear.of_books rfl (.inr rfl)
  unfold beginCompensationWith at hb
  dsimp only at hb
  split at hb
  · cases hb
  · split at hb
    · exact hidle hb
    · split at hb
      · exact hidle hb
      · rw [← Except.ok.inj hb]
        unfold Logged
        rw [StepResult.prepend_state, afterDispatch_control]
        refine Ledger.note ?_ _
        exact hclear.of_books rfl (.inl rfl)

theorem beginTerminating (h : Logged c given h0 x) (hb : beginTerminating drv c x o = .ok r) :
    Logged c given h0 r.state := by
  refine beginWith (fun hy hf => finishWith hdrv ?_ hy hf) h hb
  intro y o r _ he
  cases he

theorem finish (h : Logged c given h0 x) {toNode : String} (hf : stepCompensationFinish drv c x toNode = .ok r) :
    Logged c given h0 r.state := finishWith hdrv (fun hy hb => beginTerminating hdrv hy hb) h hf

theorem beginCompensation (h : Logged c given h0 x) (hb : beginCompensation drv c x o = .ok r) :
    Logged c given h0 r.state := beginWith (fun hy hf => finish hdrv hy hf) h hb

omit hdrv in
theorem dispatched (h : Logged c given h0 x) {cur : CompensationCursor}
    (hcur : CameBy c.top x.trace cur.resumeScope cur.resumeNode cur.resumeFlow) (idx : Int) (rec : CompensationRecord)
    (cmdID : String) :
    Logged c given h0 (afterDispatch c
      ((x.nextCommandID c.ids).1.onControl (·.dispatch cur idx rec cmdID)) rec cmdID).state := by
  unfold Logged
  rw [afterDispatch_control]
  exact h.mint.dispatch hcur _ _ _

omit hdrv in
theorem redispatched (h : Logged c given h0 x) (rec : CompensationRecord) (n : Int) :
    Logged c given h0 (redispatchCurrent c x rec n).state := by
  unfold redispatchCurrent
  dsimp only
  unfold Logged
  rw [afterDispatch_control]
  refine Ledger.note ?_ _
  exact h.of_books rfl (.inl rfl)

theorem advance (h : Logged c given h0 x) (ha : stepCompensationAdvance drv c x = .ok r) : Logged c given h0 r.state := by
  have hret := h.of_control (x.retireCompensationStallIncidents_control x.compensating.activeCmdID)
  unfold stepCompensationAdvance at ha
  dsimp only at ha
  split at ha
  · exact finish hdrv hret ha
  · split at ha
    · exact finish hdrv hret ha
    · rw [← Except.ok.inj ha]
      refine dispatched hret ?_ _ _ _
      rw [x.retireCompensationStallIncidents_control]
      exact h.resumes

theorem retryStalled (h : Logged c given h0 x) (hr : retryStalledCompensation drv c x = .ok r) :
    Logged c given h0 r.state := by
  have hret := h.of_control (x.retireCompensationStallIncidents_control x.compensating.activeCmdID)
  unfold retryStalledCompensation at hr
  dsimp only at hr
  split at hr
  · exact finish hdrv hret hr
  · rw [← Except.ok.inj hr]
    exact redispatched (hret.of_control (InstanceState.retireCompensationFailedIncidents_control _ _)) _ _

theorem retryFailed (h : Logged c given h0 x) {tr : TimerRecord} (hr : retryFailedCompensation drv c x tr = .ok r) :
    Logged c given h0 r.state := by
  have hremoved := h.of_control (x.removeTimer_control tr.timerID)
  unfold retryFailedCompensation at hr
  dsimp only at hr
  split at hr
  · rw [← Except.ok.inj hr]
    exact hremoved
  · split at hr
    · exact finish hdrv hremoved hr
    · rw [← Except.ok.inj hr]
      exact redispatched (hremoved.of_control (InstanceState.retireCompensationFailedIncidents_control _ _)) _ _

theorem resolveStall (h : Logged c given h0 x) {commandID incidentID : String} {disposition : CompensationDisposition}
    (hr : handleResolveCompensationStall drv c x commandID incidentID disposition = .ok r) : Logged c given h0 r.state := by
  unfold handleResolveCompensationStall at hr
  split at hr
  · cases hr
  · split at hr
    · cases hr
    · split at hr
      · cases hr
      · split at hr
        · exact retryStalled hdrv h hr
        · exact advance hdrv h hr
        · unfold abandonCompensationWalk at hr
          dsimp only at hr
          split at hr
          · cases hr
          · obtain ⟨r', h', hr⟩ := bind_ok hr
            rw [← Except.ok.inj hr]
            have hended := finish hdrv (h.of_control (x.retireCompensationStallIncidents_control _)) h'
            exact hended.of_outline (mapRecords_outline _ _ _)

theorem compensateRequested (h : Logged c given h0 x) {toNode reverseNode : String} {resetVars restoreTargetVars : Bool}
    (hr : stepCompensateRequested drv c x toNode reverseNode resetVars restoreTargetVars = .ok r) :
      Logged c given h0 r.state := by
  have hwalks : Logged c given h0 (x.onControl (fun s => { s with status := .compensating })) := h.of_books rfl (.inl rfl)
  unfold stepCompensateRequested at hr
  split at hr
  · cases hr
  · split at hr
    · cases hr
    · split at hr
      · split at hr
        · cases hr
        · rw [← Except.ok.inj hr]
          exact h
      · split at hr
        · cases hr
        · dsimp only at hr
          refine beginCompensation hdrv ?_ hr
          split
          · exact hwalks.of_outline (harvest_outline _)
          · exact hwalks

/-! ## Errors -/

theorem routeToBoundary (h : Logged c given h0 x) {kind : String} {e : BoundaryEvent}
    (hd : ScopeDefn c.top x.trace scopeID d) {consume : InstanceState → StepResult}
    (hconsume : Logged c given h0 (emitFireOnceAction c.ids x e.action).state →
      Logged c given h0 (consume (emitFireOnceAction c.ids x e.action).state).state)
    (htrace : (emitFireOnceAction c.ids x e.action).state.trace ⊆
      (consume (emitFireOnceAction c.ids x e.action).state).state.trace)
    (hr : routeToBoundary drv c x d nodeID e kind scopeID consume = .ok r) : Logged c given h0 r.state := by
  unfold Wrkflw.routeToBoundary at hr
  dsimp only at hr
  split at hr
  · cases hr
  · rename_i f fs hout
    have hthere := hd.mono (List.Subset.trans (fireOnce_trace c.ids x e.action) htrace)
    refine thenDrive hdrv ?_ hr
    exact (hconsume (h.fireOnce _ _)).place (fun _ => CameBy.along hthere (mem_flowRefs_of_leading hout))

omit hdrv in
theorem deferFailure (h : Logged c given h0 x) (errorCode : String) :
    Logged c given h0 (deferFailureToInFlightCompensationWalk c x errorCode).state := by
  have hcancelled : Logged c given h0 (cancelTokens c.at_ .errored x.tokens x).state := by
    unfold Logged
    rw [cancelTokens_control]
    exact h.cancelListed .errored x.tokens
  have hswept := hcancelled.of_control ((InstanceState.cancelAllArmsAndBoundaries_control _).trans
    (InstanceState.cancelAllTimers_control _))
  refine Ledger.note ?_ _
  exact hswept.of_books rfl (.inl rfl)

omit hdrv in
theorem raiseActionIncident (h : Logged c given h0 x) (scopeID nodeID tokenID errorCode : String) :
    Logged c given h0 (raiseActionIncident c x scopeID nodeID tokenID errorCode) := by
  unfold Wrkflw.raiseActionIncident
  dsimp only
  unfold Logged
  rw [InstanceState.raise_control]
  split
  · exact h.setTokenState _ .incident
  · exact h

theorem unhandled (h : Logged c given h0 x) {tokenID errorCode : String} {raiseIncident : Bool}
    (hr : handleUnhandledError drv c x scopeID nodeID tokenID errorCode raiseIncident = .ok r) :
      Logged c given h0 r.state := by
  have hharvest : Logged c given h0 (x.onControl (·.harvestOpenScopeCompensations)) := h.of_outline (harvest_outline _)
  unfold handleUnhandledError at hr
  split at hr
  · rw [← Except.ok.inj hr]
    exact raiseActionIncident h _ _ _ _
  · split at hr
    · rw [← Except.ok.inj hr]
      exact deferFailure h errorCode
    · dsimp only at hr
      split at hr
      · refine beginCompensation hdrv ?_ hr
        exact hharvest.of_books rfl (.inl rfl)
      · rw [← Except.ok.inj hr]
        exact endInstance hharvest _ _ _

omit hdrv in
theorem consumeFailing (h : Logged c given h0 x) (scopeID nodeID tokenID : String) :
    Logged c given h0 (consumeFailing c scopeID nodeID tokenID x).state := by
  unfold Wrkflw.consumeFailing
  dsimp only
  split
  · rename_i t hfind
    have hmem : t ∈ x.tokens := by
      rcases Option.or_eq_some_iff.mp hfind with hid | ⟨-, hnode⟩
      · exact (tokenByID_some _ hid).1
      · exact List.mem_of_find?_eq_some hnode
    exact h.consumeTokenAs (At.of_mem hmem) .boundaryInterrupted
  · exact h

omit hdrv in
theorem consumeFailing_trace (scopeID nodeID tokenID : String) (y : InstanceState) :
    y.trace ⊆ (Wrkflw.consumeFailing c scopeID nodeID tokenID y).state.trace := by
  unfold Wrkflw.consumeFailing
  dsimp only
  split
  · rw [InstanceState.onControl_toControlState, consumeTokenAs_trace]
    exact List.Subset.refl _
  · exact List.Subset.refl _

omit hdrv in
theorem consumeErrScope_trace (scopeID : String) (y : InstanceState) :
    y.trace ⊆ (consumeErrScope c scopeID y).state.trace := by
  obtain ⟨toks, he⟩ := cancelScopeSubtree_control y scopeID c.at_ .boundaryInterrupted
  obtain ⟨p, hclose⟩ :=
    (Wrkflw.cancelScopeSubtree y scopeID c.at_ .boundaryInterrupted).state.toControlState.closeScope_shape scopeID
  unfold consumeErrScope
  dsimp only
  rw [InstanceState.onControl_toControlState, hclose, he, (sameOutline (archiveAll_outline _ _)).trace]
  exact cancelListed_trace _ _ _ _

omit hdrv in
/-- The boundary of an enclosing scope is in the definition of the scope it goes on in. -/
theorem enclosing_defn (h : Logged c given h0 x) {errorCode cause : String} {fuel : Nat} {eh : EnclosingHandler}
    (hfind : findEnclosingBoundary c x errorCode cause fuel scopeID = .ok (some eh)) :
    ScopeDefn c.top x.trace eh.targetScopeID eh.lookupDef := by
  induction fuel generalizing scopeID with
  | zero => cases hfind
  | succ fuel ih =>
    unfold findEnclosingBoundary at hfind
    split at hfind
    · cases hfind
    · split at hfind
      · cases hfind
      · split at hfind
        · cases hfind
        · rename_i parentDef hdef
          split at hfind
          · rw [← Option.some.inj (Except.ok.inj hfind)]
            exact h.scopeDef hdef
          · exact ih hfind

omit hdrv in
theorem directAttachment_defn (h : Logged c given h0 x)
    (hown : directAttachmentDef c x scopeID nodeID = .ok (some d)) : ScopeDefn c.top x.trace scopeID d := by
  unfold directAttachmentDef at hown
  split at hown
  · cases hown
  · split at hown
    · cases hown
    · rename_i own hdef
      rw [← Option.some.inj (Except.ok.inj hown)]
      exact h.scopeDef hdef

theorem propagateError (h : Logged c given h0 x) {tokenID errorCode : String} {cause : Option String}
    {raiseIncident : Bool} (hr : propagateError drv c x scopeID nodeID tokenID errorCode cause raiseIncident = .ok r) :
    Logged c given h0 r.state := by
  unfold Wrkflw.propagateError at hr
  obtain ⟨ownDef, hown, hr⟩ := bind_ok hr
  dsimp only at hr
  split at hr
  · rename_i d nodeID' e hdirect
    obtain ⟨d', rfl, hfound⟩ := Option.bind_eq_some_iff.mp hdirect
    obtain ⟨found, -, hpair⟩ := Option.map_eq_some_iff.mp hfound
    obtain ⟨rfl, -⟩ := Prod.mk.inj hpair
    exact routeToBoundary hdrv h (directAttachment_defn h hown) (fun hf => consumeFailing hf _ _ _)
      (consumeFailing_trace _ _ _ _) hr
  · obtain ⟨handler, hfind, hr⟩ := bind_ok hr
    split at hr
    · refine routeToBoundary hdrv h (enclosing_defn h hfind) (fun hf => ?_) (consumeErrScope_trace _ _) hr
      exact closeScope (cancelScopeSubtree hf _ .boundaryInterrupted) _
    · exact unhandled hdrv h hr

/-! ## Arms that fire -/

theorem fireBoundaryArm (h : Logged c given h0 x) {ba : BoundaryArm} (hr : fireBoundaryArm drv c x ba = .ok r) :
    Logged c given h0 r.state := by
  unfold Wrkflw.fireBoundaryArm at hr
  split at hr
  · rw [← Except.ok.inj hr]
    exact h.of_control (x.removeBoundaryArmsForHost_control _)
  · obtain ⟨tdef, hdef, hr⟩ := bind_ok hr
    split at hr
    · cases hr
    · rename_i f fs hout
      split at hr
      · cases hr
      · dsimp only at hr
        refine thenDrive hdrv ?_ hr
        refine Ledger.place ?_ (fun _ => CameBy.along ((h.scopeDef hdef).mono ?_) (mem_flowRefs_of_leading hout))
        · split
          · exact h.fireOnce _ _
          · rw [cancelTokenWaits_control]
            exact (h.fireOnce _ _).cancelToken _ .boundaryInterrupted
        · split
          · exact fireOnce_trace _ _ _
          · rw [cancelTokenWaits_control]
            exact List.Subset.trans (fireOnce_trace _ _ _) (cancelToken_trace _ _ _ _)

theorem fireEventSub (h : Logged c given h0 x) {ea : EventTriggeredSubprocessArm}
    (hr : fireEventTriggeredSubprocessArm drv c x ea = .ok r) : Logged c given h0 r.state := by
  unfold fireEventTriggeredSubprocessArm at hr
  split at hr
  · rw [← Except.ok.inj hr]
    exact h
  · split at hr
    · rw [← Except.ok.inj hr]
      exact h
    · obtain ⟨d, -, hr⟩ := bind_ok hr
      split at hr
      · rw [← Except.ok.inj hr]
        exact h
      · dsimp only at hr
        refine thenDrive hdrv ?_ hr
        refine Ledger.place ?_ (fun _ => Or.inl rfl)
        split
        · exact h.openScope _ _
        · refine Ledger.openScope ?_ _ _
          refine Ledger.note ?_ _
          exact (cancelScopeSubtree h ea.enclosingScopeID .boundaryInterrupted).filterScopes _

omit hdrv in
theorem winningMove (h : Logged c given h0 x) (hat : At x.toControlState tok)
    (hd : ScopeDefn c.top x.trace tok.scopeID d) (catchNode : String) :
    Logged c given h0 (winningMove c d x tok catchNode) := by
  have hactive : Logged c given h0 (x.onControl (·.updateToken tok.id (fun t => { t.clearAwait with state := .active }))) :=
    h.updateToken tok.id (fun _ => ⟨rfl, rfl, rfl⟩) (fun _ => rfl)
  have hhere : At (x.onControl (·.updateToken tok.id (fun t => { t.clearAwait with state := .active }))).toControlState tok :=
    hat.updateToken tok.id (fun _ => ⟨rfl, rfl, rfl⟩)
  unfold Wrkflw.winningMove
  dsimp only
  split
  · rename_i f fs hout
    split
    · exact hactive.closeRelocate hhere (fun _ => CameBy.along hd (mem_flowRefs_of_leading hout))
    · exact moveAlongSingleFlow hactive hhere hd
  · exact moveAlongSingleFlow hactive hhere hd

theorem resolveGatewayWin (h : Logged c given h0 x) {ae : ArmedEvent} (hr : resolveGatewayWin drv c x ae = .ok r) :
    Logged c given h0 r.state := by
  unfold Wrkflw.resolveGatewayWin at hr
  split at hr
  · rw [← Except.ok.inj hr]
    exact h.of_control (x.removeArmedEventsForGateway_control _)
  · rename_i tok hfind
    have hmem := (tokenByID_some _ (Option.filter_eq_some_iff.mp hfind).1).1
    obtain ⟨d, hd, hr⟩ := bind_ok hr
    dsimp only at hr
    refine thenDrive hdrv ?_ hr
    exact (winningMove h (At.of_mem hmem) (h.scopeDef hd) ae.catchNode).of_control
      (InstanceState.removeArmedEventsForGateway_control _ _)

end Drive

end Logged

end Wrkflw
