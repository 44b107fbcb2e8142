import Wrkflw.Machine.Phase

/-!
# Well-formed states

* `Started` : an instance without a visit has nothing at all;
* `Wf` : names, phase and `Started` together. It holds initially and every move and every end keeps it, so
  it holds in every state a run reaches.
-/

namespace Wrkflw

open ControlState

/-- Nothing has happened to the instance. -/
structure Blank (s : ControlState) : Prop where
  tokens : s.tokens = []
  scopes : ∀ sc ∈ s.scopes, sc.compensations = []
  root : s.rootCompensations = []
  archive : s.archivedCompensations = []
  idle : ¬ s.InFlight
  calm : s.pendingCancel = false

def Started (s : ControlState) : Prop := s.history ≠ [] ∨ Blank s

variable {g : IDGenerator} {top : ProcessDefinition} {trg : TriggerBody} {s s' : ControlState}

theorem Started.of_token (h : Started s) {t : Token} (ht : t ∈ s.tokens) : s.history ≠ [] := by
  refine h.resolve_right (fun hb => ?_)
  rw [hb.tokens] at ht
  cases ht

theorem Started.of_inFlight (h : Started s) (hin : s.InFlight) : s.history ≠ [] :=
  h.resolve_right (fun hb => hb.idle hin)

/-- An operation that brings no visit, token, scope, record or walk. -/
theorem Started.of_blank (h : Started s) (hh : s.history ≠ [] → s'.history ≠ []) (hb : Blank s → Blank s') :
    Started s' := h.imp hh hb

namespace Blank

theorem archiveCompensations (h : Blank s) (id : String) : s.archiveCompensations id = s := by
  unfold ControlState.archiveCompensations
  split
  · rfl
  · rename_i scope hsc
    rw [if_pos (List.isEmpty_iff.mpr (h.scopes scope (List.mem_of_find?_eq_some hsc)))]

theorem archiveAll (h : Blank s) (ids : List String) : s.archiveAll ids = s := by
  induction ids with
  | nil => rfl
  | cons id ids ih =>
    change (s.archiveCompensations id).archiveAll ids = s
    rw [h.archiveCompensations id, ih]

theorem filterScopes (h : Blank s) (p : Scope → Bool) : Blank { s with scopes := s.scopes.filter p } :=
  ⟨h.tokens, fun sc hsc => h.scopes sc (List.mem_of_mem_filter hsc), h.root, h.archive, h.idle, h.calm⟩

theorem closeScope (h : Blank s) (id : String) : Blank (s.closeScope id) := by
  obtain ⟨p, he⟩ := s.closeScope_shape id
  rw [he]
  exact h.filterScopes p

theorem updateToken (h : Blank s) (id : String) (f : Token → Token) : s.updateToken id f = s := by
  unfold ControlState.updateToken
  have ht := h.tokens
  cases s
  dsimp only at ht
  rw [ht]
  rfl

theorem cancelToken (h : Blank s) (tok : Token) (at_ : Time) (kind : CloseKind) : s.cancelToken tok at_ kind = s := by
  rcases s.cancelToken_shape tok at_ kind with he | ⟨t, ht, -⟩
  · exact he
  · rw [h.tokens] at ht
    cases ht

theorem consolidate (h : Blank s) : s.consolidateArchiveIntoRoot = s := by
  unfold consolidateArchiveIntoRoot
  rw [h.archive]
  rfl

theorem sweep (h : Blank s) (hsweep : Sweep s s') : s' = s := by
  cases hsweep with
  | archive id => exact h.archiveCompensations id
  | cancel tok at_ kind => exact h.cancelToken tok at_ kind
  | consolidate => exact h.consolidate

end Blank

/-! ## Visits are never lost -/

theorem Sweep.history (h : Sweep s s') : s.history ≠ [] → s'.history ≠ [] := by
  cases h with
  | archive id =>
    rw [(sameOutline (s.archiveCompensations_outline id)).history]
    exact fun h => h
  | cancel tok at_ kind =>
    rcases s.cancelToken_shape tok at_ kind with he | ⟨t, -, -, -, v, hv, he⟩
    · rw [he]
      exact fun h => h
    · rw [he]
      exact hv.nonempty
  | consolidate =>
    rw [(sameOutline s.consolidate_outline).history]
    exact fun h => h

theorem Sweeps.history (h : Sweeps s s') : s.history ≠ [] → s'.history ≠ [] := by
  induction h with
  | refl => exact fun h => h
  | tail _ hstep ih => exact fun h => hstep.history (ih h)

theorem ParkedOn.history {p : ControlState} {node : Node} {scopeID : String} (h : ParkedOn s p node scopeID) :
    p.history = s.history := by
  rcases h with rfl | ⟨tok, -, -, -, -, rfl⟩ <;> rfl

theorem ParkedOn.blank {p : ControlState} {node : Node} {scopeID : String} (h : ParkedOn s p node scopeID)
    (hb : Blank s) : p = s := by
  rcases h with rfl | ⟨tok, -, -, -, -, rfl⟩
  · rfl
  · exact hb.updateToken _ _

theorem ParkedOn.started {p : ControlState} {node : Node} {scopeID : String} (h : ParkedOn s p node scopeID)
    (hs : Started s) : Started p :=
  hs.of_blank (fun hne => h.history.symm ▸ hne) (fun hb => (h.blank hb).symm ▸ hb)

theorem Started.withoutJoined (hs : Started s) (e : Event) (nodeID scopeID : String) (consumed : List Token) :
    Started ((s.note e).withoutJoined nodeID scopeID consumed) := by
  refine hs.of_blank (fun h => h) (fun hb => ⟨?_, hb.scopes, hb.root, hb.archive, hb.idle, hb.calm⟩)
  change s.tokens.filter _ = []
  rw [hb.tokens]
  rfl

theorem takePending_history (plan : FinishPlan) (s : ControlState) : (takePending plan s).history = s.history :=
  (sameOutline (applyPlanRecordClearing_outline plan
    { s with pendingCancel := false, pendingFinalStatus := .running, pendingFinalErr := "" })).history

theorem popOneDeferredThrow_history (s : ControlState) : s.popOneDeferredThrow.history = s.history := by
  unfold popOneDeferredThrow
  split
  · rfl
  · dsimp only
    split <;> rfl

theorem resumeControl_history (at_ : Time) (plan : FinishPlan) (s : ControlState)
    (h : s.history ≠ [] ∨ plan.resumeScope = "") : (resumeControl g at_ plan s).history ≠ [] := by
  have ho := sameOutline (applyPlanRecordClearing_outline plan s)
  have hplaced : ∀ b : Bool, (b = false ∨ s.history ≠ []) → (if b then
      ({ applyPlanRecordClearing plan s with status := .running }.note
        (.resumed plan.popDeferred s.deferredCompensationThrows))
      else ({ applyPlanRecordClearing plan s with status := .running }.note
        (.resumed plan.popDeferred s.deferredCompensationThrows)).placeTokenInScope g plan.resumeAt plan.resumeScope
          plan.resumeFlow at_).history ≠ [] := by
    intro b hb
    cases b with
    | false => exact List.append_ne_nil_of_right_ne_nil _ (by simp)
    | true =>
      have hne := hb.resolve_left (by simp)
      exact ho.history.symm ▸ hne
  unfold resumeControl
  dsimp only
  have hdropped : resumeDropped plan ({ applyPlanRecordClearing plan s with status := .running }.note
      (.resumed plan.popDeferred s.deferredCompensationThrows)) = false ∨ s.history ≠ [] := by
    rcases h with h | h
    · exact Or.inr h
    · refine Or.inl ?_
      unfold resumeDropped
      rw [h]
      rfl
  split
  · rw [popOneDeferredThrow_history]
    exact hplaced _ hdropped
  · exact hplaced _ hdropped

/-! ## Moves -/

theorem Move.started (hs : Started s) (hmove : Move top g trg s s') : Started s' := by
  cases hmove with
  | book h n hh hn => exact hs.of_blank hh (fun hb => ⟨hb.tokens, hb.scopes, hb.root, hb.archive, hb.idle, hb.calm⟩)
  | place node scope flow at_ hfwd hscope => exact Or.inl (List.append_ne_nil_of_right_ne_nil _ (by simp))
  | touch id f hf => exact hs.of_blank (fun h => h) (fun hb => (hb.updateToken id f).symm ▸ hb)
  | leave id target scope flow f hmem hf =>
    refine hs.of_blank (fun h => h) (fun hb => ?_)
    rw [hb.updateToken id f]
    exact ⟨hb.tokens, hb.scopes, hb.root, hb.archive, hb.idle, hb.calm⟩
  | pass tok hthrow => exact Or.inl (hs.of_token hthrow.mem)
  | resolve tok f hmem hf => exact Or.inl (hs.of_token hmem)
  | consume tok hmem hfree =>
    obtain ⟨p, he, -⟩ := s.removeToken_shape tok.id
    rw [he]
    exact Or.inl (hs.of_token hmem)
  | cancel tok at_ kind =>
    exact hs.of_blank (Sweep.cancel tok at_ kind).history (fun hb => (hb.cancelToken tok at_ kind).symm ▸ hb)
  | park p d node scopeID kind at_ hp hsite hkind hnone =>
    exact hs.of_blank (fun h => hp.history.symm ▸ h) (fun hb => (hp.blank hb).symm ▸ hb)
  | fireParallel p d node scopeID consumed hp hsite hmatch =>
    exact (hp.started hs).withoutJoined _ _ _ _
  | fireInclusive p d node scopeID consumed hp hsite htok hsub hcons =>
    exact (hp.started hs).withoutJoined _ _ _ _
  | openScope node parent hfwd hparent hopens =>
    refine hs.of_blank (fun h => h) (fun hb => ⟨hb.tokens, fun sc hsc => ?_, hb.root, hb.archive, hb.idle, hb.calm⟩)
    rcases List.mem_append.mp hsc with hsc | hsc
    · exact hb.scopes sc hsc
    · rw [List.mem_singleton.mp hsc]
  | teardown scope =>
    refine hs.of_blank (fun h => ?_) (fun hb => ?_)
    · obtain ⟨p, he⟩ := (s.archiveAll (s.subtreeIDs scope)).closeScope_shape scope
      rw [he]
      exact (sameOutline (s.archiveAll_outline _)).history.symm ▸ h
    · rw [hb.archiveAll]
      exact hb.closeScope scope
  | interrupt scope =>
    refine hs.of_blank (fun h => ?_) (fun hb => ?_)
    · exact (sameOutline (s.archiveAll_outline (s.subtreeIDs scope))).history.symm ▸ h
    · rw [hb.archiveAll]
      have hf := hb.filterScopes (fun sc => !(sc.id != scope && (descendantScopeIDs s.scopes scope).contains sc.id))
      exact ⟨hf.tokens, hf.scopes, hf.root, hf.archive, hf.idle, hf.calm⟩
  | exit scope enclosing hne htok hchild hhold =>
    refine hs.of_blank (fun h => ?_) (fun hb => ?_)
    · unfold ControlState.exitScope
      obtain ⟨p, he⟩ := ((s.note (.exited scope enclosing s.tokens s.scopes s.compensating)).archiveCompensations
        scope).closeScope_shape scope
      rw [he]
      exact (sameOutline (ControlState.archiveCompensations_outline _ scope)).history.symm ▸ h
    · have hn : Blank (s.note (.exited scope enclosing s.tokens s.scopes s.compensating)) :=
        ⟨hb.tokens, hb.scopes, hb.root, hb.archive, hb.idle, hb.calm⟩
      unfold ControlState.exitScope
      rw [hn.archiveCompensations]
      exact hn.closeScope scope
  | record scope rec hfwd hhist =>
    refine Or.inl ?_
    unfold ControlState.recordCompensation
    split
    · exact hhist
    · split <;> exact hhist
  | sweep s' hidle hsweep => exact hs.of_blank hsweep.history (fun hb => (hb.sweep hsweep).symm ▸ hb)
  | deferThrow tok hthrow hflight => exact Or.inl (hs.of_token hthrow.mem)
  | throwWalk tok at_ cur rec hthrow hfwd hidle hcur =>
    refine Or.inl ?_
    obtain ⟨v, hv, he⟩ := s.mintCommand.consumeTokenAs_shape tok at_ .normal
    have ho := sameOutline (dispatch_outline { s.mintCommand.consumeToken tok at_ with status := .compensating } cur
      cur.nextIndex rec (s.nextCmdID g))
    unfold throwDispatch
    rw [ho.history]
    change (s.mintCommand.consumeTokenAs tok at_ .normal).history ≠ []
    rw [he]
    exact hv.nonempty (hs.of_token hthrow.mem)
  | next rec hflight hans hpos hto hrec =>
    refine Or.inl ?_
    have ho := sameOutline (dispatch_outline s.mintCommand { s.compensating with
      nextIndex := s.compensating.nextIndex - 1, activeCmdID := s.nextCmdID g, retryAttempts := 0, retryTimerID := "" }
      (s.compensating.nextIndex - 1) rec (s.nextCmdID g))
    unfold advance
    rw [ho.history]
    exact hs.of_inFlight hflight
  | again rec attempts hflight hrec htrg => exact Or.inl (hs.of_inFlight hflight)
  | retryLater timerID attempts hflight => exact Or.inl (hs.of_inFlight hflight)
  | pendCancel hflight hmode => exact Or.inl (hs.of_inFlight hflight)
  | pendFailure err hflight hfwd htok => exact Or.inl (hs.of_inFlight hflight)
  | begin at_ o rec hidle hclear hasked hrec =>
    refine Or.inl (hs.resolve_right (fun hb => ?_))
    rw [hb.root] at hrec
    cases hrec
  | resume cur at_ hfin hres hpend hscope =>
    refine Or.inl (resumeControl_history at_ _ _ ?_)
    rw [(sameOutline (applyDeleteArchive_outline (finishPlan s.settled cur) s.settled)).history]
    cases hfin with
    | walk hflight hans => exact Or.inl (hs.of_inFlight hflight)
    | idle o hidle hclear hasked hnone =>
      refine Or.inr ?_
      rcases finishPlan_resumeScope s.settled { o.idleCursor with toNode := o.toNode } with h | h <;> exact h
  | pendingWalk cur at_ p rec hfin hcons hpend hsweep hclear hrec =>
    refine Or.inl ?_
    have hne : s.history ≠ [] := by
      refine hs.resolve_right (fun hb => ?_)
      rw [hb.calm] at hpend
      cases hpend
    have hswept : p.history ≠ [] := by
      refine Sweeps.history hsweep ?_
      rw [takePending_history, (sameOutline (applyDeleteArchive_outline (finishPlan s.settled cur) s.settled)).history]
      exact hne
    exact hswept

/-- Rewriting one entry keeps what holds of every entry. -/
theorem mem_updateFirst {α : Type} {P : α → Prop} (p : α → Bool) (f : α → α) (hf : ∀ a, P (f a)) {l : List α}
    (h : ∀ a ∈ l, P a) : ∀ a ∈ updateFirst p f l, P a := by
  induction l with
  | nil => exact h
  | cons b l ih =>
    intro a ha
    unfold updateFirst at ha
    split at ha
    · rcases List.mem_cons.mp ha with rfl | ha
      · exact hf b
      · exact h a (List.mem_cons_of_mem _ ha)
    · rcases List.mem_cons.mp ha with rfl | ha
      · exact h a List.mem_cons_self
      · exact ih (fun a ha => h a (List.mem_cons_of_mem _ ha)) a ha

theorem endControl_started (hs : Started s) (st : Status) (err : String) : Started (s.endControl st err) := by
  have ho := sameOutline (harvest_outline { s with status := st })
  refine hs.of_blank (fun h => ?_) (fun hb => ?_)
  · change ({ s with status := st }.harvestOpenScopeCompensations).history ≠ []
    rw [ho.history]
    exact h
  · have hb' : Blank { s with status := st } := ⟨hb.tokens, hb.scopes, hb.root, hb.archive, hb.idle, hb.calm⟩
    have hh : { s with status := st }.harvestOpenScopeCompensations = { s with status := st } := hb'.archiveAll _
    unfold endControl
    rw [hh]
    exact ⟨hb.tokens, fun sc hsc => absurd hsc (List.not_mem_nil), hb.root, hb.archive, fun h => h rfl, hb.calm⟩

theorem End.started (hs : Started s) (hend : End trg s s') : Started s' := by
  -- an end with a token, a walk or a pending cancel is no end of a blank instance
  cases hend with
  | complete hlive hdrained => exact endControl_started hs _ _
  | idle st err hlive hidle hst => exact endControl_started hs _ _
  | childFailed err hlive htok =>
    have hne : s.history ≠ [] := hs.resolve_right (fun hb => htok hb.tokens)
    exact endControl_started (s := s.note (.childFailed err s.compensating)) (Or.inl hne) _ _
  | forced outcome at_ err hlive htok =>
    have hne : s.history ≠ [] := hs.resolve_right (fun hb => htok hb.tokens)
    have hcancel : ∀ toks (m : ControlState), m.history ≠ [] → (m.cancelListed at_ .terminated toks).history ≠ [] := by
      intro toks
      induction toks with
      | nil => exact fun m h => h
      | cons tok toks ih => exact fun m h => ih _ ((Sweep.cancel tok at_ .terminated).history h)
    exact endControl_started (Or.inl (hcancel s.tokens (s.note (.forced outcome s.pendingCancel)) hne)) _ _
  | terminate cur hfin hmode =>
    refine endControl_started ?_ _ _
    have ho := sameOutline (s.settled.mapRecords_outline cur.scopeID (fun _ => []))
    refine hs.of_blank (fun h => ho.history.symm ▸ h) (fun hb => ?_)
    unfold clearRecords mapRecords setCompensations
    split
    · exact ⟨hb.tokens, hb.scopes, rfl, hb.archive, not_inFlight_settled s, hb.calm⟩
    · refine ⟨hb.tokens, ?_, hb.root, hb.archive, not_inFlight_settled s, hb.calm⟩
      exact mem_updateFirst (P := fun sc : Scope => sc.compensations = []) _ _ (fun _ => rfl) hb.scopes
  | abandon hflight hans hmode =>
    have hne := hs.of_inFlight hflight
    have ho := sameOutline (s.settled.mapRecords_outline s.compensating.scopeID (fun _ => []))
    refine Or.inl ?_
    have hh := (sameOutline (harvest_outline { s.settled.clearRecords s.compensating.scopeID with
      status := finalStatusOf s.compensating.finalStatus })).history
    unfold setScopeRecords
    rw [(sameOutline (ControlState.mapRecords_outline _ _ _)).history]
    change ({ s.settled.clearRecords s.compensating.scopeID with
      status := finalStatusOf s.compensating.finalStatus }.harvestOpenScopeCompensations).history ≠ []
    rw [hh]
    exact ho.history.symm ▸ hne
  | pending cur p hfin hcons hpend hsweep hclear hnone =>
    have hne : s.history ≠ [] := by
      refine hs.resolve_right (fun hb => ?_)
      rw [hb.calm] at hpend
      cases hpend
    refine endControl_started (Or.inl (Sweeps.history hsweep ?_)) _ _
    rw [takePending_history, (sameOutline (applyDeleteArchive_outline (finishPlan s.settled cur) s.settled)).history]
    exact hne

/-! ## Well-formed states -/

structure Wf (g : IDGenerator) (s : ControlState) : Prop where
  names : Names g s
  phase : Phase g s
  started : Started s

theorem wf_init (g : IDGenerator) (inst : String) : Wf g { instanceID := inst } where
  names := names_init g inst
  phase := phase_init g inst
  started := Or.inr ⟨rfl, fun _ h => absurd h List.not_mem_nil, rfl, rfl, not_not.mpr rfl, rfl⟩

theorem Move.wf (hs : Wf g s) (h : Move top g trg s s') :
    Wf g s' := ⟨h.names hs.names, h.phase hs.phase, h.started hs.started⟩

theorem End.wf (hs : Wf g s) (h : End trg s s') : Wf g s' := ⟨h.names hs.names, h.phase hs.phase, h.started hs.started⟩

theorem Moves.wf (hs : Wf g s) (h : Moves top g trg s s') : Wf g s' := by
  induction h with
  | refl => exact hs
  | tail _ hstep ih => exact hstep.wf ih

theorem Reaches.wf (hs : Wf g s) (h : Reaches top g trg s s') : Wf g s' := by
  obtain ⟨m, hm, rfl | hend⟩ := h
  · exact Moves.wf hs hm
  · exact hend.wf (Moves.wf hs hm)

/-- A token's instance may start new work. -/
theorem Wf.forward (hs : Wf g s) (hlive : s.status.isTerminal = false) {t : Token} (ht : t ∈ s.tokens) : s.Forward := by
  refine ⟨hlive, fun hsd => ?_⟩
  have h := hs.phase.sealed hsd
  rw [h] at ht
  cases ht

end Wrkflw
