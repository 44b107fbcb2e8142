import Wrkflw.Machine.StepPaths

/-!
# What a step does to the retry counters

A token has the retry counters of its node. Only three places write them: the schedule of a retry, the resolution of an
incident and the recovery flow. Everything else leaves them on the token, wherever it goes: `Carries` says that each token
has the counters of the one of its id before, or counters of zero, and each lemma below says it of an operation, a handler
or a strategy.
-/

namespace Wrkflw

open ControlState
open InstanceState (cancelTimersForToken_control complete_control endInstance_control removeBoundaryArmsForHost_control
  removeTimer_control retireCompensationStallIncidents_control)

variable {s' : ControlState} {y : InstanceState} {scope : String}

/-! ## Counters -/

/-- No attempt was made: the count is zero and the clock of the retries has not started. -/
def Token.Unspent (t : Token) : Prop := t.retryAttempts = 0 ∧ t.retryStartedAt = 0

instance (t : Token) : Decidable t.Unspent := inferInstanceAs (Decidable (_ ∧ _))

/-- The token has the id and the counters of the other. -/
structure Token.Carried (t t' : Token) : Prop where
  id : t'.id = t.id
  retryAttempts : t'.retryAttempts = t.retryAttempts
  retryStartedAt : t'.retryStartedAt = t.retryStartedAt

/-- Every token is unspent or has the counters of one that was there. -/
def Carries (tokens before : List Token) : Prop := ∀ t' ∈ tokens, t'.Unspent ∨ ∃ t ∈ before, t.Carried t'

namespace Carries
variable {l l' l'' : List Token}

theorem of_subset (h : l' ⊆ l) : Carries l' l := fun t ht => Or.inr ⟨t, h ht, rfl, rfl, rfl⟩

@[refl] theorem refl (l : List Token) : Carries l l := of_subset (List.Subset.refl l)

theorem of_eq (h : l' = l) : Carries l' l := h ▸ refl l'

theorem trans (h : Carries l'' l') (h' : Carries l' l) : Carries l'' l := by
  intro t'' ht''
  rcases h t'' ht'' with hun | ⟨t', ht', hc⟩
  · exact Or.inl hun
  · rcases h' t' ht' with hun | ⟨t, ht, hc'⟩
    · exact Or.inl ⟨hc.retryAttempts.trans hun.1, hc.retryStartedAt.trans hun.2⟩
    · exact Or.inr ⟨t, ht, hc.id.trans hc'.id, hc.retryAttempts.trans hc'.retryAttempts,
        hc.retryStartedAt.trans hc'.retryStartedAt⟩

/-- Tokens that change keep their counters or lose them. -/
theorem map {f : Token → Token} (hf : ∀ t, (f t).Unspent ∨ t.Carried (f t)) (l : List Token) : Carries (l.map f) l := by
  intro t' ht'
  obtain ⟨t, ht, rfl⟩ := List.mem_map.mp ht'
  rcases hf t with hun | hc
  · exact Or.inl hun
  · exact Or.inr ⟨t, ht, hc⟩

theorem concat (l : List Token) {t : Token} (ht : t.Unspent) : Carries (l ++ [t]) l := by
  intro t' ht'
  rcases List.mem_append.mp ht' with ht' | ht'
  · exact refl l t' ht'
  · rw [List.mem_singleton.mp ht']
    exact Or.inl ht

end Carries

/-! ## Operations -/

namespace ControlState
variable (s : ControlState)

theorem carries_updateToken (id : String) {f : Token → Token} (hf : ∀ t, (f t).Unspent ∨ t.Carried (f t)) :
    Carries (s.updateToken id f).tokens s.tokens := by
  refine Carries.map (fun t => ?_) s.tokens
  split
  · exact hf t
  · exact Or.inr ⟨rfl, rfl, rfl⟩

theorem carries_setTokenState (id : String) (st : TokenState) : Carries (s.setTokenState id st).tokens s.tokens :=
  s.carries_updateToken id (fun _ => Or.inr ⟨rfl, rfl, rfl⟩)

theorem carries_awaitCommand (id cmdID : String) : Carries (s.awaitCommand id cmdID).tokens s.tokens :=
  s.carries_updateToken id (fun _ => Or.inr ⟨rfl, rfl, rfl⟩)

theorem carries_awaitMessage (id name key : String) : Carries (s.awaitMessage id name key).tokens s.tokens :=
  s.carries_updateToken id (fun _ => Or.inr ⟨rfl, rfl, rfl⟩)

theorem carries_deferCompensationThrow (id : String) : Carries (s.deferCompensationThrow id).tokens s.tokens :=
  s.carries_updateToken id (fun _ => Or.inr ⟨rfl, rfl, rfl⟩)

theorem carries_placeTokenInScope (g : IDGenerator) (nodeID scopeID flow : String) (at_ : Time) :
    Carries (s.placeTokenInScope g nodeID scopeID flow at_).tokens s.tokens := Carries.concat s.tokens ⟨rfl, rfl⟩

theorem carries_relocate (tok : Token) (target flow : String) (at_ : Time) :
    Carries (s.relocate tok target flow at_).tokens s.tokens :=
  s.carries_updateToken tok.id (fun _ => Or.inr ⟨rfl, rfl, rfl⟩)

theorem carries_updateOpenVisit (tokenID nodeID : String) (f : NodeVisit → NodeVisit) :
    Carries (s.updateOpenVisit tokenID nodeID f).tokens s.tokens := by
  unfold updateOpenVisit
  split <;> rfl

theorem carries_closeVisitAs (tokenID nodeID : String) (at_ : Time) (kind : CloseKind) :
    Carries (s.closeVisitAs tokenID nodeID at_ kind).tokens s.tokens := s.carries_updateOpenVisit _ _ _

theorem carries_closeVisit (tokenID nodeID : String) (at_ : Time) :
    Carries (s.closeVisit tokenID nodeID at_).tokens s.tokens := s.carries_updateOpenVisit _ _ _

theorem carries_setVisitTask (tokenID nodeID taskID : String) :
    Carries (s.setVisitTask tokenID nodeID taskID).tokens s.tokens := s.carries_updateOpenVisit _ _ _

theorem carries_moveTokenToTargetAs (tok : Token) (target flow : String) (at_ : Time) (kind : CloseKind) :
    Carries (s.moveTokenToTargetAs tok target flow at_ kind).tokens s.tokens :=
  (carries_relocate _ _ _ _ _).trans ((carries_setTokenState _ _ _).trans (s.carries_closeVisitAs _ _ _ _))

theorem carries_moveTokenToTarget (tok : Token) (target flow : String) (at_ : Time) :
    Carries (s.moveTokenToTarget tok target flow at_).tokens s.tokens := s.carries_moveTokenToTargetAs _ _ _ _ _

theorem carries_removeToken (id : String) : Carries (s.removeToken id).tokens s.tokens := by
  unfold removeToken
  split
  · rfl
  · exact .of_subset (List.filter_subset_self _)

theorem retryCurrent_tokens (s : ControlState) (g : IDGenerator) (rec : CompensationRecord) (attempts : Int) :
    (s.retryCurrent g rec attempts).tokens = s.tokens := rfl

theorem carries_consumeTokenAs (tok : Token) (at_ : Time) (kind : CloseKind) :
    Carries (s.consumeTokenAs tok at_ kind).tokens s.tokens :=
  (carries_removeToken _ _).trans (s.carries_closeVisitAs _ _ _ _)

theorem carries_consumeToken (tok : Token) (at_ : Time) : Carries (s.consumeToken tok at_).tokens s.tokens :=
  s.carries_consumeTokenAs _ _ _

theorem carries_cancelToken (tok : Token) (at_ : Time) (kind : CloseKind) :
    Carries (s.cancelToken tok at_ kind).tokens s.tokens := by
  unfold cancelToken
  split
  · exact s.carries_consumeTokenAs _ _ _
  · rfl

theorem carries_foldl {α : Type} {f : ControlState → α → ControlState} (hf : ∀ s a, Carries (f s a).tokens s.tokens)
    (l : List α) (s : ControlState) : Carries (l.foldl f s).tokens s.tokens := by
  induction l generalizing s with
  | nil => rfl
  | cons a l ih => exact (ih (f s a)).trans (hf s a)

theorem carries_cancelListed (at_ : Time) (kind : CloseKind) (toks : List Token) :
    Carries (s.cancelListed at_ kind toks).tokens s.tokens :=
  carries_foldl (fun s tok => s.carries_cancelToken tok at_ kind) toks s

theorem carries_cancelAllTokens (at_ : Time) (kind : CloseKind) : Carries (s.cancelAllTokens at_ kind).tokens s.tokens :=
  .of_subset (List.nil_subset _)

/-- An operation on records, scopes or the cursor. -/
theorem carries_outline {s : ControlState} (h : s'.outline = s.outline) : Carries s'.tokens s.tokens :=
  .of_eq (sameOutline h).tokens

theorem carries_closeScope (id : String) : Carries (s.closeScope id).tokens s.tokens := by
  unfold closeScope
  split <;> rfl

theorem carries_exitScope (id : String) (enclosing : Bool) : Carries (s.exitScope id enclosing).tokens s.tokens :=
  (carries_closeScope _ _).trans
    ((carries_outline (archiveCompensations_outline _ _)).trans (.refl _))

theorem carries_endControl (st : Status) (err : String) : Carries (s.endControl st err).tokens s.tokens :=
  .of_eq (endControl_tokens s st err)

theorem carries_recordCompensation (scope : String) (rec : CompensationRecord) :
    Carries (s.recordCompensation scope rec).tokens s.tokens := .of_eq (recordCompensation_tokens s scope rec)

theorem carries_popOneDeferredThrow : Carries s.popOneDeferredThrow.tokens s.tokens := by
  unfold popOneDeferredThrow
  split
  · rfl
  · dsimp only
    split
    · exact carries_setTokenState _ _ _
    · rfl

theorem carries_throwDispatch (tok : Token) (at_ : Time) (cur : CompensationCursor) (rec : CompensationRecord)
    (cmdID : String) : Carries (s.throwDispatch tok at_ cur rec cmdID).tokens s.tokens :=
  (carries_outline (dispatch_outline _ _ _ _ _)).trans (s.carries_consumeToken tok at_)

theorem carries_resumeControl (g : IDGenerator) (at_ : Time) (plan : FinishPlan) :
    Carries (resumeControl g at_ plan s).tokens s.tokens := by
  have hcleared : Carries (applyPlanRecordClearing plan s).tokens s.tokens :=
    carries_outline (applyPlanRecordClearing_outline plan s)
  have hplaced : ∀ y : ControlState, y.tokens = (applyPlanRecordClearing plan s).tokens → Carries
      (if resumeDropped plan y then y
        else y.placeTokenInScope g plan.resumeAt plan.resumeScope plan.resumeFlow at_).tokens s.tokens := by
    intro y hy
    split
    · rw [hy]
      exact hcleared
    · refine (carries_placeTokenInScope _ _ _ _ _ _).trans ?_
      rw [hy]
      exact hcleared
  unfold resumeControl
  dsimp only
  split
  · exact (carries_popOneDeferredThrow _).trans (hplaced _ rfl)
  · exact hplaced _ rfl

theorem carries_placeOnFlows (g : IDGenerator) (scopeID : String) (at_ : Time) (fs : List FlowRef) (s : ControlState) :
    Carries (placeOnFlows g scopeID at_ fs s).tokens s.tokens := by
  induction fs generalizing s with
  | nil => rfl
  | cons f fs ih => exact (ih _).trans (carries_placeTokenInScope _ _ _ _ _ _)

theorem carries_fireJoin (g : IDGenerator) (d : ProcessDefinition) (nodeID scopeID : String) (at_ : Time)
    (consumed : List Token) : Carries (fireJoin g d s nodeID scopeID at_ consumed).tokens s.tokens :=
  (carries_placeOnFlows _ _ _ _ _).trans (.of_subset (List.filter_subset_self _))

theorem carries_tryJoin {g : IDGenerator} {d : ProcessDefinition} {s : ControlState} {node : Node} {scopeID : String}
    {at_ : Time} (h : tryJoin g d s node scopeID at_ = some s') : Carries s'.tokens s.tokens := by
  unfold tryJoin at h
  split at h
  · unfold tryParallelJoin at h
    split at h
    · cases h
    · cases h
      exact carries_fireJoin _ _ _ _ _ _ _
  · unfold tryInclusiveJoin at h
    dsimp only at h
    split at h
    · cases h
    · split at h
      · cases h
      · cases h
        exact carries_fireJoin _ _ _ _ _ _ _
  · cases h

theorem carries_retryParked {g : IDGenerator} {top : ProcessDefinition} {s : ControlState} {at_ : Time} {toks : List Token}
    (h : retryParked g top s at_ toks = some s') : Carries s'.tokens s.tokens := by
  induction toks with
  | nil => cases h
  | cons tok toks ih =>
    unfold retryParked at h
    split at h
    · exact ih h
    · split at h
      · exact ih h
      · split at h
        · exact ih h
        · split at h
          · exact ih h
          · split at h
            · rename_i hjoin
              cases h
              exact carries_tryJoin hjoin
            · exact ih h

end ControlState

/-! ## Results -/

/-- Where there is a result, its tokens carry the counters on. -/
def Carried (before : List Token) (res : EngineResult) : Prop := ∀ r, res = .ok r → Carries r.state.tokens before

/-- The loop carries the counters on. -/
def CarriesOn (drv : DriveLoop) : Prop := ∀ x, Carried x.tokens (drv x)

namespace Carried
variable {rs : List Token} {res : EngineResult}

theorem ok {r : StepResult} (h : Carries r.state.tokens rs) : Carried rs (.ok r) := by
  intro r' hr
  cases hr
  exact h

theorem error (e : EngineError) : Carried rs (.error e) := fun _ h => by cases h

theorem after {rs' : List Token} (h : Carried rs' res) (hrs : Carries rs' rs) : Carried rs res :=
  fun r hr => (h r hr).trans hrs

theorem prepend (h : Carried rs res) (cmds : List Command) : Carried rs (res.map (·.prepend cmds)) := by
  intro r hr
  obtain ⟨r', hr', rfl⟩ := map_prepend_ok hr
  exact h r' hr'

theorem mapError (h : Carried rs res) (f : EngineError → EngineError) : Carried rs (res.mapError f) := by
  cases res with
  | error e => exact error _
  | ok r => exact h

theorem bind {α : Type} {x : Except EngineError α} {f : α → EngineResult} (h : ∀ a, x = .ok a → Carried rs (f a)) :
    Carried rs (x >>= f) := by
  intro r hr
  obtain ⟨a, ha, hr⟩ := bind_ok hr
  exact h a ha r hr

end Carried

theorem carries_moveAlong (g : IDGenerator) (d : ProcessDefinition) (x : InstanceState) (tok : Token) (at_ : Time) :
    Carries (moveAlongSingleFlow g d x tok at_).tokens x.tokens := by
  have hclosed : Carries (x.onControl (·.closeVisit tok.id tok.nodeID at_)).tokens x.tokens :=
    x.toControlState.carries_closeVisit _ _ _
  unfold moveAlongSingleFlow
  dsimp only
  split
  · refine Carries.trans ?_ hclosed
    unfold recordDefinitionDefect
    exact carries_setTokenState _ _ _
  · exact (carries_relocate _ _ _ _ _).trans hclosed

section Handlers
variable {drv : DriveLoop} {c : StepCtx} {x : InstanceState} (hdrv : CarriesOn drv)
include hdrv

theorem carried_thenDrive {rs : List Token} {r : StepResult} (h : Carries r.state.tokens rs) :
    Carried rs (thenDrive drv r) := ((hdrv r.state).prepend r.commands).after h

/-! ## Walks -/

theorem carried_applyFinishWith {begin_ : InstanceState → CompensationOutcome → EngineResult}
    (hbegin : ∀ x o, Carried x.tokens (begin_ x o)) (plan : FinishPlan) :
    Carried x.tokens (applyFinishWith drv begin_ c x plan) := by
  have hdel : Carries (x.onControl (applyDeleteArchive plan)).tokens x.tokens :=
    carries_outline (applyDeleteArchive_outline plan _)
  unfold applyFinishWith
  dsimp only
  split
  · intro r hr
    refine (hbegin _ _ r hr).trans (Carries.trans ?_ hdel)
    refine (carries_outline (harvest_outline _)).trans ?_
    exact (carries_outline (applyPlanRecordClearing_outline plan _)).trans (.refl _)
  · split
    · refine Carried.ok ?_
      unfold applyTerminate
      dsimp only
      rw [endInstance_control]
      exact (carries_endControl _ _ _).trans ((carries_outline (applyPlanRecordClearing_outline plan _)).trans hdel)
    · have hres : Carries (({ x.onControl (applyDeleteArchive plan) with
          endedAt := none, vars := resumeVars plan (x.onControl (applyDeleteArchive plan)) } : InstanceState).onControl
          (resumeControl c.ids c.at_ plan)).tokens x.tokens :=
        (ControlState.carries_resumeControl _ c.ids c.at_ plan).trans hdel
      split
      · refine Carried.ok ?_
        rw [complete_control]
        exact (carries_endControl _ _ _).trans hres
      · refine Carried.bind (fun r hr => Carried.bind (fun r' hr' => Carried.ok ?_))
        refine (hdrv _ r' hr').trans ?_
        rw [rearmRoot_control hr]
        exact hres

theorem carried_finishWith {begin_ : InstanceState → CompensationOutcome → EngineResult}
    (hbegin : ∀ x o, Carried x.tokens (begin_ x o)) (toNode : String) :
    Carried x.tokens (stepCompensationFinishWith drv begin_ c x toNode) :=
  (carried_applyFinishWith hdrv hbegin _).prepend _

omit hdrv in
theorem carried_beginWith {finish : InstanceState → String → EngineResult}
    (hfinish : ∀ x toNode, Carried x.tokens (finish x toNode)) (o : CompensationOutcome) :
    Carried x.tokens (beginCompensationWith finish c x o) := by
  have hclear : Carries (clearForWalk c x o.closeKind).state.tokens x.tokens := by
    rw [clearForWalk_control]
    exact (carries_outline (consolidate_outline _)).trans (carries_cancelListed _ _ _ _)
  have hidle := ((hfinish ((clearForWalk c x o.closeKind).state.onControl (fun s => { s with compensating := o.idleCursor }))
    o.toNode).prepend (clearForWalk c x o.closeKind).commands).after hclear
  unfold beginCompensationWith
  dsimp only
  split
  · exact Carried.error _
  · split
    · exact hidle
    · split
      · exact hidle
      · refine Carried.ok ?_
        rw [StepResult.prepend_state, afterDispatch_control]
        exact hclear

theorem carried_beginTerminating (x : InstanceState) (o : CompensationOutcome) :
    Carried x.tokens (beginTerminating drv c x o) :=
  carried_beginWith (fun _ toNode => carried_finishWith hdrv (fun _ _ => Carried.error _) toNode) o

theorem carried_finish (x : InstanceState) (toNode : String) : Carried x.tokens (stepCompensationFinish drv c x toNode) :=
  carried_finishWith hdrv (carried_beginTerminating hdrv) toNode

theorem carried_begin (x : InstanceState) (o : CompensationOutcome) : Carried x.tokens (beginCompensation drv c x o) :=
  carried_beginWith (carried_finish hdrv) o

theorem carried_advance : Carried x.tokens (stepCompensationAdvance drv c x) := by
  have hret : Carries (x.retireCompensationStallIncidents x.compensating.activeCmdID).tokens x.tokens := by
    rw [retireCompensationStallIncidents_control]
  have hfin := carried_finish (c := c) hdrv (x.retireCompensationStallIncidents x.compensating.activeCmdID)
    x.compensating.toNode
  replace hfin := hfin.after hret
  unfold stepCompensationAdvance
  dsimp only
  split
  · exact hfin
  · split
    · exact hfin
    · refine Carried.ok ?_
      rw [afterDispatch_control]
      exact (carries_outline (dispatch_outline _ _ _ _ _)).trans hret

theorem carried_retryStalled : Carried x.tokens (retryStalledCompensation drv c x) := by
  unfold retryStalledCompensation
  dsimp only
  split
  · have hfin := carried_finish (c := c) hdrv (x.retireCompensationStallIncidents x.compensating.activeCmdID)
      x.compensating.toNode
    rw [retireCompensationStallIncidents_control] at hfin
    exact hfin
  · refine Carried.ok ?_
    rw [redispatchCurrent_control, ControlState.retryCurrent_tokens,
      InstanceState.retireCompensationFailedIncidents_control, retireCompensationStallIncidents_control]

theorem carried_retryFailed (tr : TimerRecord) : Carried x.tokens (retryFailedCompensation drv c x tr) := by
  have hrem : Carries (x.removeTimer tr.timerID).tokens x.tokens := by rw [removeTimer_control]
  unfold retryFailedCompensation
  dsimp only
  split
  · exact Carried.ok hrem
  · split
    · exact (carried_finish hdrv _ _).after hrem
    · refine Carried.ok ?_
      rw [redispatchCurrent_control, ControlState.retryCurrent_tokens,
        InstanceState.retireCompensationFailedIncidents_control, removeTimer_control]

theorem carried_abandon : Carried x.tokens (abandonCompensationWalk drv c x) := by
  unfold abandonCompensationWalk
  dsimp only
  split
  · exact Carried.error _
  · refine Carried.bind (fun r hr => Carried.ok ?_)
    refine (carries_outline (mapRecords_outline _ _ _)).trans ((carried_finish hdrv _ _ r hr).trans ?_)
    rw [retireCompensationStallIncidents_control]

theorem carried_resolveStall (commandID incidentID : String) (disposition : CompensationDisposition) :
    Carried x.tokens (handleResolveCompensationStall drv c x commandID incidentID disposition) := by
  unfold handleResolveCompensationStall
  split
  · exact Carried.error _
  · split
    · exact Carried.error _
    · split
      · exact Carried.error _
      · cases disposition with
        | retry => exact carried_retryStalled hdrv
        | skip => exact carried_advance hdrv
        | abandon => exact carried_abandon hdrv

theorem carried_compensateRequested (toNode reverseNode : String) (resetVars restoreTargetVars : Bool) :
    Carried x.tokens (stepCompensateRequested drv c x toNode reverseNode resetVars restoreTargetVars) := by
  unfold stepCompensateRequested
  split
  · exact Carried.error _
  · split
    · exact Carried.error _
    · split
      · split
        · exact Carried.error _
        · exact Carried.ok (.refl _)
      · split
        · exact Carried.error _
        · intro r hr
          refine (carried_begin hdrv _ _ r hr).trans ?_
          split
          · exact (carries_outline (harvest_outline _)).trans (.refl _)
          · rfl

/-! ## Errors and arms -/

omit hdrv in
theorem carries_fireOnce (name : String) : Carries (emitFireOnceAction c.ids x name).state.tokens x.tokens := by
  rcases emitFireOnceAction_control c.ids x name with he | he
  · rw [he]
  · rw [he]
    rfl

omit hdrv in
theorem carries_cancelScopeSubtree (scopeID : String) (kind : CloseKind) :
    Carries (cancelScopeSubtree x scopeID c.at_ kind).state.tokens x.tokens := by
  obtain ⟨toks, he⟩ := cancelScopeSubtree_control x scopeID c.at_ kind
  rw [he]
  exact (carries_outline (archiveAll_outline _ _)).trans (carries_cancelListed _ _ _ _)

theorem carried_routeToBoundary {d : ProcessDefinition} {nodeID kind scopeID : String} {e : BoundaryEvent}
    {consume : InstanceState → StepResult} (hconsume : ∀ y, Carries (consume y).state.tokens y.tokens) :
    Carried x.tokens (routeToBoundary drv c x d nodeID e kind scopeID consume) := by
  unfold routeToBoundary
  dsimp only
  split
  · exact Carried.error _
  · refine carried_thenDrive hdrv ?_
    exact (carries_placeTokenInScope _ _ _ _ _ _).trans ((hconsume _).trans (carries_fireOnce e.action))

theorem carried_unhandled (scopeID nodeID tokenID errorCode : String) (raiseIncident : Bool) :
    Carried x.tokens (handleUnhandledError drv c x scopeID nodeID tokenID errorCode raiseIncident) := by
  unfold handleUnhandledError
  split
  · refine Carried.ok ?_
    unfold raiseActionIncident
    dsimp only
    rw [InstanceState.raise_control]
    split
    · exact carries_setTokenState _ _ _
    · rfl
  · split
    · refine Carried.ok ?_
      unfold deferFailureToInFlightCompensationWalk
      dsimp only
      change Carries (cancelTokens c.at_ .errored x.tokens x).state.tokens x.tokens
      rw [cancelTokens_control]
      exact carries_cancelListed _ _ _ _
    · dsimp only
      split
      · intro r hr
        refine (carried_begin hdrv _ _ r hr).trans ?_
        have hharvest : Carries x.toControlState.harvestOpenScopeCompensations.tokens x.tokens :=
          carries_outline (harvest_outline _)
        exact hharvest
      · refine Carried.ok ?_
        rw [endInstance_control]
        exact (carries_endControl _ _ _).trans (carries_outline (harvest_outline _))

theorem carried_propagateError (scopeID nodeID tokenID errorCode : String) (cause : Option String) (raiseIncident : Bool) :
    Carried x.tokens (propagateError drv c x scopeID nodeID tokenID errorCode cause raiseIncident) := by
  unfold propagateError
  refine Carried.bind (fun ownDef _ => ?_)
  dsimp only
  split
  · refine carried_routeToBoundary hdrv (fun y => ?_)
    unfold consumeFailing
    dsimp only
    split
    · exact ControlState.carries_consumeTokenAs _ _ _ _
    · rfl
  · refine Carried.bind (fun handler _ => ?_)
    split
    · refine carried_routeToBoundary hdrv (fun y => ?_)
      exact (ControlState.carries_closeScope _ _).trans (carries_cancelScopeSubtree _ _)
    · exact carried_unhandled hdrv _ _ _ _ _

theorem carried_fireBoundaryArm (ba : BoundaryArm) : Carried x.tokens (fireBoundaryArm drv c x ba) := by
  unfold fireBoundaryArm
  split
  · refine Carried.ok ?_
    rw [removeBoundaryArmsForHost_control]
  · refine Carried.bind (fun tdef _ => ?_)
    split
    · exact Carried.error _
    · split
      · exact Carried.error _
      · refine carried_thenDrive hdrv ?_
        refine (ControlState.carries_placeTokenInScope _ _ _ _ _ _).trans ?_
        split
        · exact carries_fireOnce _
        · rw [cancelTokenWaits_control]
          exact (carries_cancelToken _ _ _ _).trans (carries_fireOnce _)

omit hdrv in
theorem carries_interruptScope (scopeID : String) : Carries (interruptScope c x scopeID).state.tokens x.tokens := by
  refine Carries.trans ?_ (carries_cancelScopeSubtree (c := c) scopeID .boundaryInterrupted)
  rfl

theorem carried_fireEventSubprocess (ea : EventTriggeredSubprocessArm) :
    Carried x.tokens (fireEventTriggeredSubprocessArm drv c x ea) := by
  unfold fireEventTriggeredSubprocessArm
  split
  · exact Carried.ok (.refl _)
  · split
    · exact Carried.ok (.refl _)
    · refine Carried.bind (fun d _ => ?_)
      split
      · exact Carried.ok (.refl _)
      · refine carried_thenDrive hdrv ?_
        have hopens : ∀ y : InstanceState, ∀ start, Carries (y.onControl (openEventSubprocess c ea start)).tokens y.tokens :=
          fun y start => carries_placeTokenInScope (y.toControlState.openScope c.ids ea.eventSubprocessNode
            ea.enclosingScopeID).1 _ _ _ _ _
        refine (hopens _ _).trans ?_
        split
        · rfl
        · exact carries_interruptScope _

theorem carried_gatewayWin (ae : ArmedEvent) : Carried x.tokens (resolveGatewayWin drv c x ae) := by
  unfold resolveGatewayWin
  split
  · refine Carried.ok ?_
    rw [InstanceState.removeArmedEventsForGateway_control]
  · refine Carried.bind (fun tdef _ => ?_)
    refine carried_thenDrive hdrv ?_
    dsimp only
    rw [InstanceState.removeArmedEventsForGateway_control]
    unfold winningMove
    dsimp only
    have hfreed : ∀ id, Carries (x.onControl (·.updateToken id (fun t => { t.clearAwait with state := .active }))).tokens
        x.tokens := fun id => carries_updateToken _ _ (fun _ => Or.inr ⟨rfl, rfl, rfl⟩)
    split
    · split
      · exact (carries_relocate _ _ _ _ _).trans ((carries_closeVisit _ _ _ _).trans (hfreed _))
      · exact (carries_moveAlong _ _ _ _ _).trans (hfreed _)
    · exact (carries_moveAlong _ _ _ _ _).trans (hfreed _)

theorem carried_armCascade {onMatch : InstanceState → InstanceState} (hmatch : ∀ y, Carries (onMatch y).tokens y.tokens)
    {gw : Option ArmedEvent} {boundary : Option BoundaryArm} {eventSub : Option EventTriggeredSubprocessArm}
    {res : EngineResult}
    (h : dispatchArmCascade drv c x onMatch gw boundary eventSub = some res) : Carried x.tokens res := by
  unfold dispatchArmCascade at h
  split at h
  · cases h
  · split at h
    · cases h
      exact (carried_gatewayWin hdrv _).after (hmatch x)
    · cases h
      exact (carried_fireBoundaryArm hdrv _).after (hmatch x)
    · cases h
      exact (carried_fireEventSubprocess hdrv _).after (hmatch x)
    · cases h

/-! ## Triggers -/

theorem carried_resume {rs : List Token} (tdef : ProcessDefinition) (hy : Carries y.tokens rs)
    (tok : Token) (cmds : List Command) : Carried rs (resumeAndDrive drv c tdef y tok cmds) :=
  carried_thenDrive hdrv ((carries_moveAlong _ _ _ _ _).trans ((carries_setTokenState _ _ _).trans hy))

omit hdrv in
theorem carries_clearAwaitOf (tok : Token) (y : InstanceState) : Carries (clearAwaitOf tok y).tokens y.tokens :=
  y.toControlState.carries_updateToken _ (fun _ => Or.inr ⟨rfl, rfl, rfl⟩)

theorem carried_startInstance (vars : Vars) (startNodeID : String) :
    Carried x.tokens (handleStartInstance drv c x vars startNodeID) := by
  unfold handleStartInstance
  split
  · exact Carried.error _
  · refine Carried.bind (fun startID _ => Carried.bind (fun r hr => ?_))
    refine carried_thenDrive hdrv ?_
    rw [armEventTriggeredSubprocesses_control hr]
    exact carries_placeTokenInScope _ _ _ _ _ _

theorem carried_actionCompleted (commandID : String) (output : Vars) :
    Carried x.tokens (handleActionCompleted drv c x commandID output) := by
  unfold handleActionCompleted
  split
  · have hadv := carried_advance (c := c) (x := x.retireCompensationFailedIncidents commandID) hdrv
    rw [InstanceState.retireCompensationFailedIncidents_control] at hadv
    exact hadv
  · split
    · exact Carried.ok (.refl _)
    · split
      · exact Carried.error _
      · rename_i tok _
        refine Carried.bind (fun tdef _ => carried_resume hdrv tdef ?_ _ _)
        have hrecorded : Carries
          (recordCompletion c (x.removeBoundaryArmsForHost tok.id).state tdef tok).tokens x.tokens := by
          refine .of_eq ((recordCompletion_tokens _ _).trans ?_)
          rw [removeBoundaryArmsForHost_control]
        exact (carries_clearAwaitOf _ _).trans hrecorded

theorem carried_compensationFailed (commandID err : String) (retryable : Bool) :
    Carried x.tokens (handleCompensationFailed drv c x commandID err retryable) := by
  unfold handleCompensationFailed
  dsimp only
  split
  · exact Carried.ok (.refl _)
  · split
    · rename_i r hr
      refine Carried.ok ?_
      unfold armCompensationRetryTimer at hr
      split at hr
      · cases hr
      · dsimp only at hr
        split at hr
        · cases hr
        · split at hr
          · cases hr
          · cases hr
            rfl
    · exact carried_advance hdrv

theorem carried_takeRecoveryFlow (tdef : ProcessDefinition) (tok : Token) (nodeID recoveryFlow err : String)
    (cmds : List Command) : Carried x.tokens (takeRecoveryFlow drv c x tdef tok nodeID recoveryFlow err cmds) := by
  unfold takeRecoveryFlow
  dsimp only
  split
  · exact Carried.error _
  · split
    · exact Carried.error _
    · refine carried_thenDrive hdrv ?_
      refine (carries_moveTokenToTarget _ _ _ _ _).trans ?_
      exact carries_updateToken _ _ (fun _ => Or.inl ⟨rfl, rfl⟩)

/-- A failure leaves the counters on the tokens, or it schedules a retry. -/
theorem actionFailed_carries {commandID err : String} {retryable : Bool} {jitter : Rat}
    {cause : Option String} {r : StepResult}
    (h : handleActionFailed drv c x commandID err retryable jitter cause = .ok r) : Carries r.state.tokens x.tokens ∨
      ∃ tok tdef eff, x.tokenAwaiting commandID = some tok ∧ defForScope c.top x.scopes tok.scopeID = .ok tdef ∧
        effectiveRetryPolicy c.opt (tdef.node tok.nodeID) = some eff ∧ retryExhausted c eff tok err retryable = false ∧
        r.state.tokens = (x.toControlState.updateToken tok.id (fun t =>
          { t with
            retryAttempts := t.retryAttempts + 1
            retryStartedAt := if isZeroTime t.retryStartedAt then c.at_ else t.retryStartedAt
            state := .waiting
            awaitCommand := c.ids.newID .timer (x.timerSeq + 1) })).tokens := by
  unfold handleActionFailed at h
  split at h
  · exact Or.inl (carried_compensationFailed hdrv _ _ _ r h)
  · split at h
    · cases h
      exact Or.inl (.refl _)
    · split at h
      · cases h
      · rename_i tok htok
        have hctl := x.removeBoundaryArmsForHost_control tok.id
        have harms : Carries (x.removeBoundaryArmsForHost tok.id).state.tokens x.tokens := by rw [hctl]
        obtain ⟨tdef, hdef, h⟩ := bind_ok h
        rw [hctl] at hdef
        dsimp only at h
        split at h
        · exact Or.inl ((((carried_propagateError hdrv _ _ _ _ _ _).prepend _).after harms) r h)
        · rename_i eff heff
          split at h
          · rename_i hleft
            cases h
            refine Or.inr ⟨tok, tdef, eff, htok, hdef, heff, by simpa using hleft, ?_⟩
            have hseq : (x.removeBoundaryArmsForHost tok.id).state.timerSeq = x.timerSeq := by
              unfold InstanceState.removeBoundaryArmsForHost
              split <;> rfl
            rw [← hseq, ← hctl]
            rfl
          · split at h
            · exact Or.inl (((carried_takeRecoveryFlow hdrv _ _ _ _ _ _).after harms) r h)
            · exact Or.inl ((((carried_propagateError hdrv _ _ _ _ _ _).prepend _).after harms) r h)

theorem carried_cancelRequested : Carried x.tokens (handleCancelRequested drv c x) := by
  have hharvest : Carries (x.onControl (·.harvestOpenScopeCompensations)).tokens x.tokens :=
    carries_outline (harvest_outline _)
  unfold handleCancelRequested
  dsimp only
  split
  · split
    · exact Carried.ok (.refl _)
    · split
      · exact Carried.error _
      · exact Carried.ok (.refl _)
  · split
    · refine Carried.prepend (fun r hr => ?_) _
      exact (carried_begin hdrv _ _ r hr).trans hharvest
    · refine Carried.ok ?_
      rw [StepResult.prepend_state, endInstance_control]
      exact (carries_endControl _ _ _).trans ((carries_cancelAllTokens _ _ _).trans hharvest)

omit hdrv in
theorem carried_withOpenTask {taskID : String} {closed : EngineResult} (hclosed : Carried x.tokens closed)
    (f : HumanTask → HumanTask) : Carried x.tokens (withOpenTask x taskID closed f) := by
  unfold withOpenTask
  split
  · exact Carried.error _
  · split
    · exact hclosed
    · exact Carried.ok (.refl _)

omit hdrv in
theorem carries_park {tdef : ProcessDefinition} {tok : Token} {cmds : List Command} {r : StepResult}
    (h : parkOnCompletionAction c tdef x tok cmds = some r) : Carries r.state.tokens x.tokens := by
  obtain ⟨cmdID, he⟩ := parkOnCompletionAction_control h
  rw [he]
  exact carries_awaitCommand _ _ _

theorem carried_humanCompleted (taskID outcome note : String) (output : Vars) (actor : Actor) :
    Carried x.tokens (handleHumanCompleted drv c x taskID outcome note output actor) := by
  unfold handleHumanCompleted
  split
  · exact Carried.error _
  · exact Carried.error _
  · split
    · exact Carried.error _
    · split
      · exact Carried.error _
      · refine Carried.bind (fun tdef _ => ?_)
        dsimp only
        split
        · exact Carried.error _
        · have htaken : ∀ (y : InstanceState) (id taskID : String) (g : HumanTask → HumanTask),
              Carries (((((y.updateTask taskID g).onControl (·.updateToken id (fun t =>
                { t.clearAwait with state := .active }))).cancelTimersByTaskID taskID "").state).removeBoundaryArmsForHost
                  id).state.tokens y.tokens := by
            intro y id taskID g
            rw [removeBoundaryArmsForHost_control, InstanceState.cancelTimersByTaskID_control]
            exact carries_updateToken _ _ (fun _ => Or.inr ⟨rfl, rfl, rfl⟩)
          have hexposed : ∀ nodeID ut,
            Carries (applyOutcomeExposure nodeID ut outcome (x.mergeVars output)).tokens x.tokens := by
            intro nodeID ut
            rw [applyOutcomeExposure_control]
            rfl
          split
          · rename_i r hr
            exact Carried.ok ((carries_park hr).trans ((htaken _ _ _ _).trans (hexposed _ _)))
          · refine carried_thenDrive hdrv ?_
            exact (carries_moveAlong _ _ _ _ _).trans ((htaken _ _ _ _).trans (hexposed _ _))

theorem carried_deadlineFired (tr : TimerRecord) : Carried x.tokens (handleDeadlineFired drv c x tr) := by
  have hrem : Carries (x.removeTimer tr.timerID).tokens x.tokens := by rw [removeTimer_control]
  unfold handleDeadlineFired
  split
  · exact Carried.ok hrem
  · rename_i tok _
    dsimp only
    split
    · exact Carried.ok hrem
    · refine Carried.bind (fun tdef _ => ?_)
      split
      · exact Carried.error _
      · split
        · exact Carried.error _
        · split
          · exact Carried.error _
          · refine carried_thenDrive hdrv ?_
            dsimp only
            rw [removeTimer_control, InstanceState.cancelTimersByTaskID_control]
            have hmoved : ∀ (y : InstanceState) (target flow : String), Carries (y.onControl (fun s =>
                (s.updateToken tok.id (fun t => { t.clearAwait with state := .active })).moveTokenToTargetAs tok target flow
                  c.at_ .deadlineExpired)).tokens y.tokens := by
              intro y target flow
              refine (carries_moveTokenToTargetAs _ _ _ _ _ _).trans ?_
              exact carries_updateToken _ _ (fun _ => Or.inr ⟨rfl, rfl, rfl⟩)
            split
            · exact (hmoved _ _ _).trans (carries_fireOnce _)
            · exact (hmoved _ _ _).trans (carries_fireOnce _)

omit hdrv in
theorem carried_reinvoke (tok : Token) : Carried x.tokens (reinvokeServiceAction c x tok) := by
  intro r hr
  rw [reinvoke_control hr]
  exact carries_awaitCommand _ _ _

theorem carried_tokenTimer (timerID : String) : Carried x.tokens (handleTokenTimer drv c x timerID) := by
  unfold handleTokenTimer
  split
  · exact Carried.ok (.refl _)
  · split
    · exact Carried.ok (.refl _)
    · refine Carried.bind (fun tdef _ => carried_resume hdrv tdef ?_ _ _)
      rw [cancelTimersForToken_control]
      refine (carries_clearAwaitOf _ _).trans ?_
      rw [removeTimer_control]

theorem carried_timerFired (timerID : String) : Carried x.tokens (handleTimerFired drv c x timerID) := by
  have hrem : ∀ id, Carries (x.removeTimer id).tokens x.tokens := by
    intro id
    rw [removeTimer_control]
  unfold handleTimerFired
  split
  · rename_i res hres
    exact carried_armCascade hdrv (fun _ => .refl _) hres
  · split
    · exact carried_tokenTimer hdrv _
    · rename_i tr _
      split
      · exact Carried.ok (hrem _)
      · split
        · exact carried_deadlineFired hdrv _
        · unfold handleReminderFired
          split
          · exact Carried.ok (hrem _)
          · split
            · exact Carried.ok (hrem _)
            · refine Carried.bind (fun tdef _ => ?_)
              split
              · exact Carried.error _
              · exact Carried.ok (carries_fireOnce _)
        · unfold handleRetryFired
          split
          · exact Carried.ok (.refl _)
          · exact (Carried.mapError (carried_reinvoke _) _).after (hrem tr.timerID)
        · refine Carried.ok ?_
          rw [stallFired_control]
        · exact carried_retryFailed hdrv _
        · exact carried_tokenTimer hdrv _

theorem carried_fireTier {name : String} {payload : Vars} {matched : Bool} {tier : SignalTier} {res : EngineResult}
    (h : fireTier drv c name payload matched x tier = some res) : Carried x.tokens res := by
  have hmark : Carries (markMatched matched payload x).tokens x.tokens := by rw [markMatched_control]
  refine Carried.after ?_ hmark
  cases tier with
  | gateway id =>
    obtain ⟨ae, -, rfl⟩ := Option.map_eq_some_iff.mp h
    exact carried_gatewayWin hdrv _
  | boundary id =>
    obtain ⟨ba, -, rfl⟩ := Option.map_eq_some_iff.mp h
    exact carried_fireBoundaryArm hdrv _
  | eventSub id =>
    obtain ⟨ea, -, rfl⟩ := Option.map_eq_some_iff.mp h
    exact carried_fireEventSubprocess hdrv _
  | token id =>
    obtain ⟨tok, -, rfl⟩ := Option.map_eq_some_iff.mp h
    refine Carried.bind (fun tdef _ => carried_resume hdrv tdef ?_ _ _)
    rw [cancelTimersForToken_control]
    exact carries_updateToken _ _ (fun _ => Or.inr ⟨rfl, rfl, rfl⟩)

theorem carried_fireTiers {name : String} {payload : Vars} (tiers : List SignalTier) (resolved : List String) (matched : Bool)
    (x : InstanceState) : Carried x.tokens (fireTiers drv c name payload tiers resolved matched x) := by
  induction tiers generalizing resolved matched x with
  | nil => exact Carried.ok (.refl _)
  | cons tier tiers ih =>
    unfold fireTiers
    split
    · exact Carried.ok (.refl _)
    · split
      · exact ih _ _ _
      · split
        · exact ih _ _ _
        · rename_i res hres
          refine Carried.bind (fun r hr => Carried.bind (fun rest hrest => Carried.ok ?_))
          exact (ih _ _ _ rest hrest).trans (carried_fireTier hdrv hres r hr)

theorem carried_messageReceived (name key : String) (payload : Vars) :
    Carried x.tokens (handleMessageReceived drv c x name key payload) := by
  unfold handleMessageReceived
  split
  · rename_i res hres
    exact carried_armCascade hdrv (fun y => .of_eq (congrArg ControlState.tokens (y.mergeVars_control payload))) hres
  · split
    · exact Carried.ok (.refl _)
    · split
      · exact Carried.ok (.refl _)
      · rename_i tok _ _
        have htaken : Carries ((((x.mergeVars payload).onControl (·.updateToken tok.id (fun t =>
            { t with awaitMessage := "", awaitMessageKey := "" }))).cancelTimersForToken tok.id
              "").state.removeBoundaryArmsForHost
              tok.id).state.tokens x.tokens := by
          rw [removeBoundaryArmsForHost_control, cancelTimersForToken_control]
          exact carries_updateToken _ _ (fun _ => Or.inr ⟨rfl, rfl, rfl⟩)
        refine Carried.bind (fun tdef _ => ?_)
        split
        · rename_i r hr
          exact Carried.ok ((carries_park hr).trans htaken)
        · exact carried_resume hdrv tdef htaken _ _

theorem carried_subInstanceFailed (commandID err : String) :
    Carried x.tokens (handleSubInstanceFailed drv c x commandID err) := by
  unfold handleSubInstanceFailed
  split
  · exact Carried.error _
  · refine Carried.bind (fun hostDef _ => ?_)
    split
    · refine carried_routeToBoundary hdrv (fun y => ?_)
      refine (ControlState.carries_consumeTokenAs _ _ _ _).trans ?_
      rw [removeBoundaryArmsForHost_control]
    · refine Carried.ok ?_
      rw [endInstance_control]
      exact carries_endControl _ _ _

/-- **A trigger leaves the counters on the tokens**, unless it reports a failure or resolves an incident. -/
theorem carried_handle {body : TriggerBody}
    (hfail : ∀ id err retryable jitter cause, body ≠ .actionFailed id err retryable jitter cause)
    (hres : ∀ id n, body ≠ .resolveIncident id n) : Carried x.tokens (handle drv c x body) := by
  cases body with
  | startInstance vars startNodeID => exact carried_startInstance hdrv _ _
  | actionCompleted id output => exact carried_actionCompleted hdrv _ _
  | actionFailed id err retryable jitter cause => exact absurd rfl (hfail _ _ _ _ _)
  | humanCompleted id outcome note output actor => exact carried_humanCompleted hdrv _ _ _ _ _
  | humanCandidatesResolved id candidates =>
    have hsame : Carried x.tokens (.ok ⟨x, []⟩) := Carried.ok (.refl _)
    exact carried_withOpenTask hsame _
  | humanClaimed id actor => exact carried_withOpenTask (Carried.error _) _
  | humanReassigned id _ reassignedTo _ => exact carried_withOpenTask (Carried.error _) _
  | timerFired id => exact carried_timerFired hdrv _
  | signalReceived name payload => exact carried_fireTiers hdrv _ _ _ _
  | messageReceived name key payload => exact carried_messageReceived hdrv _ _ _
  | subInstanceCompleted id output =>
    change Carried x.tokens (handleSubInstanceCompleted drv c x id output)
    unfold handleSubInstanceCompleted
    split
    · exact Carried.error _
    · exact Carried.bind (fun tdef _ => carried_resume hdrv tdef (carries_clearAwaitOf _ _) _ _)
  | subInstanceFailed id err => exact carried_subInstanceFailed hdrv _ _
  | compensateRequested toNode reverseNode resetVars restoreTargetVars => exact carried_compensateRequested hdrv _ _ _ _
  | cancelRequested => exact carried_cancelRequested hdrv
  | resolveIncident id addAttempts => exact absurd rfl (hres id addAttempts)
  | resolveCompensationStall id incidentID disposition => exact carried_resolveStall hdrv _ _ _

end Handlers

/-! ## Strategies -/

section Strategies
variable {drv : DriveLoop} {c : StepCtx} {tdef : ProcessDefinition} {x : InstanceState} {tok : Token}
  {node : Node} {r : EnterResult}

theorem carries_goOn (cmds : List Command) : Carries (goOn c tdef x tok cmds).state.tokens x.tokens :=
  carries_moveAlong _ _ _ _ _

theorem carries_exitRoot : Carries (exitRootScope c x).state.tokens x.tokens := by
  unfold exitRootScope
  split
  · rw [complete_control]
    exact carries_endControl _ _ _
  · rfl

theorem carries_recordSubProcess (parentDef : ProcessDefinition) (nodeID scope : String) :
    Carries (recordSubProcessCompensation c parentDef x nodeID scope).tokens x.tokens := by
  unfold recordSubProcessCompensation
  split
  · split
    · split
      · rfl
      · exact carries_recordCompensation _ _ _
    · rfl
  · rfl

theorem carries_resumeInParent {parentDef : ProcessDefinition} {nodeID : String}
    (h : resumeInParentScope c parentDef x nodeID scope = some y) : Carries y.tokens x.tokens := by
  unfold resumeInParentScope at h
  split at h
  · cases h
  · cases h
    exact carries_placeTokenInScope _ _ _ _ _ _

theorem carries_exitRegular {nodeID parent : String}
    (h : exitRegularSubprocessScope c x scope nodeID parent = .ok r) : Carries r.state.tokens x.tokens := by
  unfold exitRegularSubprocessScope at h
  split at h
  · cases h
    rfl
  · dsimp only at h
    split at h
    · cases h
    · split at h
      · cases h
      · rename_i y hy
        cases h
        refine (carries_resumeInParent hy).trans ((carries_recordSubProcess _ _ _).trans ?_)
        refine (carries_exitScope _ _ _).trans ?_
        rw [InstanceState.removeEventTriggeredSubprocessArmsForScope_control]

theorem carries_exitNested {parent : String} (h : exitNestedEventSubprocessScope c x scope parent = .ok r) :
    Carries r.state.tokens x.tokens := by
  unfold exitNestedEventSubprocessScope at h
  split at h
  · cases h
    rfl
  · split at h
    · cases h
      rfl
    · split at h
      · cases h
        rfl
      · dsimp only at h
        split at h
        · cases h
        · have hleft : ∀ d nodeID outer,
            Carries (recordSubProcessCompensation c d (x.onControl (·.exitScope parent true)) nodeID
              outer).tokens x.tokens := fun d nodeID outer =>
            (carries_recordSubProcess d nodeID outer).trans (carries_exitScope _ _ _)
          split at h
          · rename_i y hy
            cases h
            dsimp only
            rw [InstanceState.removeEventTriggeredSubprocessArmsForScope_control]
            exact (carries_resumeInParent hy).trans (hleft _ _ _)
          · split at h
            · cases h
            · split at h
              · cases h
                dsimp only [EnterResult.parked]
                rw [complete_control]
                exact (carries_endControl _ _ _).trans (hleft _ _ _)
              · cases h
                dsimp only
                rw [InstanceState.removeEventTriggeredSubprocessArmsForScope_control]
                exact hleft _ _ _

theorem carries_exitSubprocess (h : exitSubprocessScope c x scope = .ok r) :
    Carries r.state.tokens x.tokens := by
  unfold exitSubprocessScope at h
  split at h
  · cases h
    rfl
  · split at h
    · cases h
      rfl
    · split at h
      · cases h
      · split at h
        · unfold exitEventSubprocessScope at h
          split at h
          · cases h
            rfl
          · dsimp only at h
            split at h
            · cases h
              unfold exitRootEventSubprocessScope
              split
              · exact carries_exitScope _ _ _
              · split
                · exact carries_exitScope _ _ _
                · exact carries_exitRoot.trans (carries_exitScope _ _ _)
            · exact (carries_exitNested h).trans (carries_exitScope _ _ _)
        · exact carries_exitRegular h

theorem carries_endEvent (hdrv : CarriesOn drv) {ev : EndEvent} (h : endEvent drv c x tok ev = .ok r) :
    Carries r.state.tokens x.tokens := by
  unfold endEvent at h
  split at h
  · cases h
    unfold forceTerminate
    have hgone : Carries (x.onControl (fun s =>
        (s.note (.forced ev.outcome s.pendingCancel)).cancelAllTokens c.at_ .terminated)).tokens x.tokens :=
      carries_cancelAllTokens _ _ _
    dsimp only
    split
    · dsimp only
      rw [endInstance_control]
      exact (carries_endControl _ _ _).trans hgone
    · dsimp only
      rw [complete_control]
      exact (carries_endControl _ _ _).trans hgone
  · dsimp only at h
    split at h
    · cases h
    · rename_i r' hr'
      cases h
      exact (carried_propagateError hdrv _ _ _ _ _ _ r' hr').trans (carries_consumeTokenAs _ _ _ _)
  · dsimp only at h
    split at h
    · cases h
      exact carries_exitRoot.trans (carries_consumeToken _ _ _)
    · exact (carries_exitSubprocess h).trans (carries_consumeToken _ _ _)

theorem carries_subProcess {sub : Option ProcessDefinition} (h : subProcess c x tok node sub = .ok r) :
    Carries r.state.tokens x.tokens := by
  unfold subProcess at h
  split at h
  · cases h
    exact carries_setTokenState _ _ _
  · split at h
    · cases h
    · split at h
      · cases h
      · obtain ⟨r1, h1, h⟩ := bind_ok h
        cases h
        change Carries r1.state.tokens x.tokens
        rw [armEventTriggeredSubprocesses_control h1]
        exact (carries_consumeToken _ _ _).trans
          (carries_placeTokenInScope (x.toControlState.openScope c.ids node.id tok.scopeID).1 _ _ _ _ _)

theorem carries_userTask {u : UserTask} (h : userTask c tdef x tok node u = .ok r) : Carries r.state.tokens x.tokens := by
  have hvisit : ∀ taskID, Carries ((x.nextTaskID c.ids).1.onControl (·.setVisitTask tok.id node.id taskID)).tokens x.tokens :=
    fun _ => carries_setVisitTask _ _ _ _
  unfold userTask at h
  dsimp only at h
  split at h
  · cases h
    exact (carries_goOn _).trans (hvisit _)
  · obtain ⟨p, hp, h⟩ := bind_ok h
    obtain ⟨r2, h2, h⟩ := bind_ok h
    obtain ⟨r3, h3, h⟩ := bind_ok h
    cases h
    change Carries r3.state.tokens x.tokens
    rw [armBoundaries_control h3]
    refine (carries_awaitCommand _ _ _).trans ?_
    change Carries r2.state.tokens x.tokens
    rw [armWaitReminder_control h2, armDeadline_control hp]
    exact hvisit _

theorem carries_reminded {cmds : List Command} {key : String}
    (h : (armWaitReminder c y tok node key).map (fun r' => EnterResult.parked (r'.prepend cmds)) = .ok r) :
    Carries r.state.tokens y.tokens := by
  cases hr : armWaitReminder c y tok node key with
  | error e =>
    rw [hr] at h
    cases h
  | ok r' =>
    rw [hr] at h
    cases h
    change Carries r'.state.tokens y.tokens
    rw [armWaitReminder_control hr]

theorem carries_catchEvent {e : IntermediateCatchEvent} (h : intermediateCatchEvent c x tok node e = .ok r) :
    Carries r.state.tokens x.tokens := by
  obtain ⟨spec, -, h⟩ := bind_ok h
  dsimp only at h
  split at h
  · exact (carries_reminded h).trans (carries_updateToken _ _ (fun _ => Or.inr ⟨rfl, rfl, rfl⟩))
  · split at h
    · exact (carries_reminded h).trans (carries_updateToken _ _ (fun _ => Or.inr ⟨rfl, rfl, rfl⟩))
    · split at h
      · obtain ⟨key, -, h⟩ := bind_ok h
        exact (carries_reminded h).trans (carries_awaitMessage _ _ _ _)
      · cases h
        exact carries_setTokenState _ _ _

theorem carries_join : Carries (joinGateway c tdef x tok node).state.tokens x.tokens := by
  unfold joinGateway
  dsimp only
  split
  · rename_i ctl hjoin
    exact (carries_tryJoin hjoin).trans (carries_setTokenState _ _ _)
  · exact carries_setTokenState _ _ _

theorem carries_forkInclusive {g : IDGenerator} {eval : ConditionEvaluator} {vars : Vars} {s : ControlState} {at_ : Time}
    (h : forkInclusive g tdef eval vars s tok node at_ = .ok s') : Carries s'.tokens s.tokens := by
  unfold forkInclusive at h
  split at h
  · cases h
  · split at h
    · cases h
    · cases h
      exact (carries_placeOnFlows _ _ _ _ _).trans (carries_consumeToken _ _ _)
  · cases h
    exact (carries_placeOnFlows _ _ _ _ _).trans (carries_consumeToken _ _ _)

theorem carries_throwWalk (records : List CompensationRecord) (cursor : CompensationCursor)
    (resume : FlowRef) : Carries (throwWalk c tdef tok y records cursor resume).state.tokens y.tokens := by
  unfold throwWalk
  split
  · exact carries_goOn _
  · unfold startCompensationWalk
    dsimp only [EnterResult.parked]
    rw [afterDispatch_control]
    exact carries_throwDispatch _ _ _ _ _ _

theorem carries_throwEvent (e : CompensationThrowEvent) :
    Carries (compensationThrowEvent c tdef x tok node e).state.tokens x.tokens := by
  unfold compensationThrowEvent
  split
  · exact carries_goOn _
  · split
    · exact carries_goOn _
    · split
      · dsimp only
        split
        · exact carries_goOn _
        · split
          · exact carries_deferCompensationThrow _ _
          · exact carries_throwWalk _ _ _
      · split
        · exact carries_deferCompensationThrow _ _
        · dsimp only
          refine (carries_throwWalk _ _ _).trans ?_
          split
          · exact carries_outline (consolidate_outline _)
          · rfl

theorem carries_invoke {y : StepResult} (h : emitActionInvoke c tdef x tok node = .ok y) :
    Carries y.state.tokens x.tokens := by
  rw [emitActionInvoke_control h]
  exact carries_awaitCommand _ _ _

/-- **Entering a node leaves the counters on the token.** -/
theorem carries_enter (hdrv : CarriesOn drv) (h : enter drv c tdef x tok node = .ok r) : Carries r.state.tokens x.tokens := by
  have hinvoke : (emitActionInvoke c tdef x tok node).map EnterResult.parked = .ok r → Carries r.state.tokens x.tokens := by
    intro h
    cases hr : emitActionInvoke c tdef x tok node with
    | error e =>
      rw [hr] at h
      cases h
    | ok r' =>
      rw [hr] at h
      cases h
      exact carries_invoke hr
  unfold enter at h
  split at h
  · cases h
    exact carries_goOn _
  · exact carries_endEvent hdrv h
  · exact hinvoke h
  · exact hinvoke h
  · exact carries_userTask h
  · obtain ⟨key, -, h⟩ := bind_ok h
    obtain ⟨r1, h1, h⟩ := bind_ok h
    obtain ⟨r2, h2, h⟩ := bind_ok h
    cases h
    change Carries r2.state.tokens x.tokens
    rw [armBoundaries_control h2, armWaitReminder_control h1]
    exact carries_awaitMessage _ _ _ _
  · obtain ⟨key, -, h⟩ := bind_ok h
    cases h
    exact carries_goOn _
  · exact carries_subProcess h
  · cases h
    exact carries_awaitCommand _ _ _
  · exact carries_catchEvent h
  · cases h
    unfold intermediateThrowEvent
    split
    · exact carries_goOn _
    · exact carries_setTokenState _ _ _
  · cases h
    exact carries_setTokenState _ _ _
  · obtain ⟨taken, -, h⟩ := bind_ok h
    cases h
    exact carries_moveTokenToTarget _ _ _ _ _
  · unfold parallelGateway at h
    split at h
    · cases h
      exact carries_join
    · cases h
      exact (carries_placeOnFlows _ _ _ _ _).trans (carries_consumeToken _ _ _)
  · unfold inclusiveGateway at h
    split at h
    · cases h
      exact carries_join
    · split at h
      · cases h
      · rename_i ctl hctl
        cases h
        exact carries_forkInclusive hctl
  · obtain ⟨r1, h1, h⟩ := bind_ok h
    cases h
    change Carries r1.state.tokens x.tokens
    rw [forEach_control (fun s f r h => armGatewayFlow_control h) h1]
    exact carries_awaitCommand _ _ _
  · cases h
    exact carries_throwEvent _

/-- **The loop leaves the counters on the tokens**, whatever its fuel. -/
theorem carriesOn_drive (fuel : Nat) : CarriesOn (drive c fuel) := by
  induction fuel with
  | zero => exact fun x => Carried.error _
  | succ n ih =>
    intro x
    unfold drive
    split
    · split
      · rename_i ctl hjoin
        exact (ih _).after (carries_retryParked hjoin)
      · exact Carried.ok (.refl _)
    · split
      · exact Carried.error _
      · split
        · exact (ih _).after (carries_setTokenState _ _ _)
        · split
          · exact Carried.error _
          · rename_i er hent
            have henter := carries_enter ih hent
            split
            · exact Carried.ok henter
            · exact ((ih _).prepend _).after henter

end Strategies

end Wrkflw
