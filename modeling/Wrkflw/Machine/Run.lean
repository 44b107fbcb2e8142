import Wrkflw.Machine.StepPaths

/-!
# Runs

A run is a sequence of successful calls of `step` on one definition, with one source of ids, from an instance that
has only its id. Every state of a run is well formed.

* `Event.Noted` : what held when an event was noted; `Run.noted` : it holds of every event of a run's trace;
* `since` : the events a state has and an earlier one has not;
* `Steps.induction`, `Run.induction` : what every move and every end keeps, when the triggers and the events satisfy
  a condition, holds in every later state.
-/

namespace Wrkflw

open ControlState

/-- One call of `step`. -/
structure Call where
  fuel : Nat
  trigger : Trigger
  opt : StepOptions

/-- The calls lead from one state to the other. -/
inductive Steps (d : ProcessDefinition) (gen : Option IDGenerator) (x : InstanceState) : List Call → InstanceState → Prop
  | refl : Steps d gen x [] x
  | tail {calls : List Call} {y : InstanceState} (h : Steps d gen x calls y) (call : Call) (r : StepResult)
      (hgen : call.opt.idGenerator = gen) (hstep : step call.fuel d y call.trigger call.opt = .ok r) :
      Steps d gen x (calls ++ [call]) r.state

/-- The calls lead from the blank instance to the state. -/
def Run (d : ProcessDefinition) (gen : Option IDGenerator) (inst : String) : List Call → InstanceState → Prop :=
  Steps d gen { instanceID := inst }

/-- The ids of a run. -/
def runIDs (gen : Option IDGenerator) (inst : String) : IDGenerator := gen.getD (counterIDs inst)

/-! ## What was true when an event was noted -/

/-- The state an event about tokens and scopes was noted in. -/
structure Saw (g : IDGenerator) (p : ControlState) (tokens : List Token) (scopes : List Scope)
    (cursor : CompensationCursor) : Prop where
  wf : Wf g p
  tokens : p.tokens = tokens
  scopes : p.scopes = scopes
  cursor : p.compensating = cursor

def Event.Noted (top : ProcessDefinition) (g : IDGenerator) : Event → Prop
  | .inclusiveFired scope node consumed tokens scopes cursor =>
    ∃ p d n, Saw g p tokens scopes cursor ∧ n.id = node ∧ JoinSite top p d n scope .inclusiveGateway ∧
      tokens.any (fun t => !joinedAt t node scope && t.scopeID == scope && (nodesThatCanReach d node).contains t.nodeID) =
        false ∧
      subtreeCanReachJoin tokens scopes scope (nodesThatCanReach d node) = false ∧
      consumed = tokens.filter (fun t => joinedAt t node scope)
  | .exited scope enclosing tokens scopes cursor =>
    scope ≠ "" ∧ ∃ p, Saw g p tokens scopes cursor ∧ tokensInScope tokens scope = 0 ∧
      (∀ sc ∈ scopes, sc.parentID = scope → tokensInScopeSubtree tokens scopes sc.id = 0) ∧
      (enclosing = false → p.compensationWalkHoldsScope scope = false)
  | _ => True

/-- What a run is told by: its instance and its events. -/
def ControlState.log (s : ControlState) : String × List Event := (s.instanceID, s.trace)

/-- The instance is the same and the trace grew by events that were noted rightly; it ended only if it may. -/
structure Logs (fin : Bool) (top : ProcessDefinition) (g : IDGenerator) (s s' : ControlState) : Prop where
  instanceID : s'.instanceID = s.instanceID
  trace : ∃ es, s'.trace = es ++ s.trace ∧ ∀ e ∈ es, e.Noted top g ∧ (fin = false → e.end? = none)

namespace Logs
variable {fin : Bool} {top : ProcessDefinition} {g : IDGenerator} {s s' : ControlState}

theorem same (h : s'.log = s.log) : Logs fin top g s s' :=
  ⟨(Prod.mk.inj h).1, [], (Prod.mk.inj h).2, by simp⟩

theorem trans {s1 : ControlState} (h : Logs fin top g s s1) (h' : Logs fin top g s1 s') : Logs fin top g s s' := by
  obtain ⟨es, he, hes⟩ := h.trace
  obtain ⟨es', he', hes'⟩ := h'.trace
  refine ⟨h'.instanceID.trans h.instanceID, es' ++ es, by rw [he', he, List.append_assoc], fun e hmem => ?_⟩
  rcases List.mem_append.mp hmem with hmem | hmem
  · exact hes' e hmem
  · exact hes e hmem

theorem note {s1 : ControlState} (h : Logs fin top g s s1) (e : Event) (he : e.Noted top g)
    (hend : fin = false → e.end? = none) : Logs fin top g s (s1.note e) := by
  refine h.trans ⟨rfl, [e], rfl, fun e' hmem => ?_⟩
  rw [List.mem_singleton.mp hmem]
  exact ⟨he, hend⟩

theorem of_outline (h : s'.outline = s.outline) : Logs fin top g s s' :=
  same (Prod.ext (sameOutline h).instanceID (sameOutline h).trace)

theorem removeToken (s : ControlState) (id : String) : Logs fin top g s (s.removeToken id) := by
  obtain ⟨p, he, -⟩ := s.removeToken_shape id
  rw [he]
  exact same (by rfl)

theorem cancelToken (s : ControlState) (tok : Token) (at_ : Time) (kind : CloseKind) :
    Logs fin top g s (s.cancelToken tok at_ kind) := by
  rcases s.cancelToken_shape tok at_ kind with he | ⟨t, -, -, -, h, -, he⟩
  · rw [he]
    exact same (by rfl)
  · rw [he]
    have hgone : Logs fin top g s { s with history := h, tokens := s.tokens.filter (fun t => t.id != tok.id) } :=
      same (by rfl)
    exact hgone.note (.cancelled t s.deferredCompensationThrows s.walking) trivial (fun _ => rfl)

theorem cancelListed (at_ : Time) (kind : CloseKind) (toks : List Token) (s : ControlState) :
    Logs fin top g s (s.cancelListed at_ kind toks) := by
  induction toks generalizing s with
  | nil => exact same (by rfl)
  | cons tok toks ih => exact (cancelToken s tok at_ kind).trans (ih _)

theorem closeScope (s : ControlState) (id : String) : Logs fin top g s (s.closeScope id) := by
  obtain ⟨p, he⟩ := s.closeScope_shape id
  rw [he]
  exact same (by rfl)

theorem sweep (h : Sweep s s') : Logs fin top g s s' := by
  cases h with
  | archive id => exact of_outline (s.archiveCompensations_outline id)
  | cancel tok at_ kind => exact cancelToken s tok at_ kind
  | consolidate => exact of_outline s.consolidate_outline

theorem sweeps (h : Sweeps s s') : Logs fin top g s s' := by
  induction h with
  | refl => exact same (by rfl)
  | tail _ hstep ih => exact ih.trans (sweep hstep)

theorem parkedOn {p : ControlState} {node : Node} {scopeID : String} (h : ParkedOn s p node scopeID) :
    Logs fin top g s p := by
  rcases h with rfl | ⟨tok, -, -, -, -, rfl⟩
  · exact same (by rfl)
  · exact same (by rfl)

theorem deleted (s : ControlState) (plan : FinishPlan) : Logs fin top g s (applyDeleteArchive plan s.settled) := by
  have hsettled : Logs fin top g s s.settled := same (by rfl)
  exact hsettled.trans (of_outline (applyDeleteArchive_outline plan _))

theorem takePending (plan : FinishPlan) (s : ControlState) : Logs fin top g s (takePending plan s) := by
  have hflags : Logs fin top g s { s with pendingCancel := false, pendingFinalStatus := .running, pendingFinalErr := "" } :=
    same (by rfl)
  exact (hflags.trans (of_outline (applyPlanRecordClearing_outline plan _))).trans (same (by rfl))

theorem dispatch (s : ControlState) (cur : CompensationCursor) (idx : Int) (rec : CompensationRecord) (cmdID : String) :
    Logs fin top g s (s.dispatch cur idx rec cmdID) := by
  have ho := sameOutline (dispatch_outline s cur idx rec cmdID)
  refine ⟨ho.instanceID, [.dispatched rec cmdID], ho.trace, fun e he => ?_⟩
  rw [List.mem_singleton.mp he]
  exact ⟨trivial, fun _ => rfl⟩

theorem beginWalk (s : ControlState) (o : CompensationOutcome) (at_ : Time) (rec : CompensationRecord) :
    Logs fin top g s (s.beginWalk g o at_ rec) := by
  refine ⟨rfl, [.dispatched rec (s.nextCmdID g)], rfl, fun e he => ?_⟩
  rw [List.mem_singleton.mp he]
  exact ⟨trivial, fun _ => rfl⟩

theorem placeTokenInScope (s : ControlState) (node scope flow : String) (at_ : Time) :
    Logs fin top g s (s.placeTokenInScope g node scope flow at_) := by
  refine ⟨rfl, [.arrived (g.newID .token (s.tokenSeq + 1)) node scope flow], rfl, fun e he => ?_⟩
  rw [List.mem_singleton.mp he]
  exact ⟨trivial, fun _ => rfl⟩

theorem popOneDeferredThrow (s : ControlState) : Logs fin top g s s.popOneDeferredThrow := by
  unfold ControlState.popOneDeferredThrow
  split
  · exact same (by rfl)
  · dsimp only
    split
    · exact Logs.note (same (by rfl)) _ (by trivial) (fun _ => by rfl)
    · exact same (by rfl)

theorem resumeControl (at_ : Time) (plan : FinishPlan) (s : ControlState) :
    Logs fin top g s (resumeControl g at_ plan s) := by
  have ho := sameOutline (applyPlanRecordClearing_outline plan s)
  have hclear : Logs fin top g s { applyPlanRecordClearing plan s with status := .running } :=
    same (Prod.ext ho.instanceID ho.trace)
  have hresumed := hclear.note (.resumed plan.popDeferred s.deferredCompensationThrows) trivial (fun _ => rfl)
  unfold Wrkflw.resumeControl
  dsimp only
  have hplaced : ∀ b : Bool, Logs fin top g s (if b then _ else _) := fun b => by
    cases b
    · exact hresumed.trans (placeTokenInScope _ plan.resumeAt plan.resumeScope plan.resumeFlow at_)
    · exact hresumed
  split
  · exact (hplaced _).trans (popOneDeferredThrow _)
  · exact hplaced _

theorem endControl (s : ControlState) (st : Status) (err : String) : Logs true top g s (s.endControl st err) := by
  have hst : Logs true top g s { s with status := st } := same (by rfl)
  have hharvest := hst.trans (of_outline (harvest_outline { s with status := st }))
  exact (hharvest.note (.ended st err s.compensating) trivial (by simp)).trans (same (by rfl))

end Logs

section Moves
variable {fin : Bool} {top : ProcessDefinition} {g : IDGenerator} {trg : TriggerBody} {s s' : ControlState}

theorem Wf.parkedOn (hs : Wf g s) {p : ControlState} {node : Node} {scopeID : String} (h : ParkedOn s p node scopeID) :
    Wf g p :=
  ⟨hs.names.of_shrinks (Names.Shrinks.parkedOn h), hs.phase.of_keeps (Phase.Keeps.parkedOn h), h.started hs.started⟩

theorem ParkedOn.scopes {p : ControlState} {node : Node} {scopeID : String} (h : ParkedOn s p node scopeID) :
    p.scopes = s.scopes := by
  rcases h with rfl | ⟨tok, -, -, -, -, rfl⟩ <;> rfl

theorem Move.logs (hs : Wf g s) (h : Move top g trg s s') : Logs fin top g s s' := by
  cases h with
  | place node scope flow at_ hfwd hscope => exact Logs.placeTokenInScope s node scope flow at_
  | consume tok hmem hfree => exact Logs.removeToken s tok.id
  | cancel tok at_ kind => exact Logs.cancelToken s tok at_ kind
  | park p d node scopeID kind at_ hp hsite hkind hnone => exact Logs.parkedOn hp
  | fireParallel p d node scopeID consumed hp hsite hmatch =>
    exact ((Logs.parkedOn hp).note (.parallelFired scopeID node.id consumed) trivial (fun _ => rfl)).trans
      (Logs.same (by rfl))
  | fireInclusive p d node scopeID consumed hp hsite htok hsub hcons =>
    refine ((Logs.parkedOn hp).note (.inclusiveFired scopeID node.id consumed p.tokens p.scopes p.compensating) ?_
      (fun _ => rfl)).trans (Logs.same (by rfl))
    refine ⟨p, d, node, ⟨hs.parkedOn hp, rfl, rfl, rfl⟩, rfl, ?_, htok, hsub, hcons⟩
    exact ⟨hp.scopes.symm ▸ hsite.defn, hsite.found, hsite.kind_eq, hsite.converging⟩
  | openScope node parent hfwd hparent hopens =>
    refine ⟨rfl, [_], rfl, fun e he => ?_⟩
    rw [List.mem_singleton.mp he]
    exact ⟨trivial, fun _ => rfl⟩
  | teardown scope => exact (Logs.of_outline (s.archiveAll_outline _)).trans (Logs.closeScope _ scope)
  | interrupt scope =>
    have harch : Logs fin top g s (s.archiveAll (s.subtreeIDs scope)) := Logs.of_outline (s.archiveAll_outline _)
    exact (harch.trans (Logs.same (by rfl))).note (.interrupted scope s.compensating) trivial (fun _ => rfl)
  | exit scope enclosing hne htok hchild hhold =>
    have hnote : Logs fin top g s (s.note (.exited scope enclosing s.tokens s.scopes s.compensating)) :=
      Logs.note (Logs.same (by rfl)) _ ⟨hne, s, ⟨hs, rfl, rfl, rfl⟩, htok, hchild, hhold⟩ (fun _ => rfl)
    have harch := hnote.trans (Logs.of_outline (ControlState.archiveCompensations_outline _ scope))
    exact harch.trans (Logs.closeScope _ scope)
  | record scope rec hfwd hhist =>
    unfold ControlState.recordCompensation
    split
    · exact Logs.note (Logs.same (by rfl)) (.recorded rec) (by trivial) (fun _ => rfl)
    · split
      · exact Logs.same (by rfl)
      · exact Logs.note (Logs.of_outline (s.setCompensations_outline _ _)) (.recorded rec) trivial (fun _ => rfl)
  | sweep s' hidle hsweep => exact Logs.sweep hsweep
  | throwWalk tok at_ cur rec hthrow hfwd hidle hcur =>
    obtain ⟨v, -, he⟩ := s.mintCommand.consumeTokenAs_shape tok at_ .normal
    have hcons : Logs fin top g s { s.mintCommand.consumeToken tok at_ with status := .compensating } := by
      unfold ControlState.consumeToken
      rw [he]
      have hmint : Logs fin top g s s.mintCommand := Logs.same (by rfl)
      exact (hmint.trans (Logs.removeToken s.mintCommand tok.id)).trans (Logs.same (by rfl))
    exact hcons.trans (Logs.dispatch _ cur cur.nextIndex rec _)
  | next rec hflight hans hpos hto hrec => exact Logs.trans (Logs.same (by rfl)) (Logs.dispatch s.mintCommand _ _ _ _)
  | begin at_ o rec hidle hclear hasked hrec => exact Logs.beginWalk s o at_ rec
  | resume cur at_ hfin hres hpend hscope =>
    exact (Logs.deleted s (finishPlan s.settled cur)).trans (Logs.resumeControl at_ _ _)
  | pendingWalk cur at_ p rec hfin hcons hpend hsweep hclear hrec =>
    have htake : Logs fin top g s _ :=
      (Logs.deleted s (finishPlan s.settled cur)).trans (Logs.takePending (finishPlan s.settled cur) _)
    exact (htake.trans (Logs.sweeps hsweep)).trans (Logs.beginWalk p _ at_ rec)
  | leave id target scope flow f hmem hf => exact Logs.note (Logs.same (by rfl)) _ (by trivial) (fun _ => by rfl)
  | pass tok hthrow => exact Logs.note (Logs.same (by rfl)) _ (by trivial) (fun _ => by rfl)
  | resolve tok f hmem hf =>
    exact (Logs.note (Logs.same (by rfl)) (.resolved tok s.deferredCompensationThrows) (by trivial) (fun _ => rfl)).trans
      (Logs.same (by rfl))
  | again rec attempts hflight hrec htrg => exact Logs.note (Logs.same (by rfl)) _ (by trivial) (fun _ => by rfl)
  | pendCancel hflight hmode => exact Logs.note (Logs.same (by rfl)) _ (by trivial) (fun _ => by rfl)
  | pendFailure err hflight hfwd htok => exact Logs.note (Logs.same (by rfl)) _ (by trivial) (fun _ => by rfl)
  | _ => exact Logs.same (by rfl)

theorem End.logs (h : End trg s s') : Logs true top g s s' := by
  cases h with
  | complete hlive hdrained => exact Logs.endControl s _ _
  | idle st err hlive hidle hst => exact Logs.endControl s _ _
  | childFailed err hlive htok =>
    have hnote : Logs true top g s (s.note (.childFailed err s.compensating)) :=
      Logs.note (Logs.same (by rfl)) _ (by trivial) (by simp)
    exact hnote.trans (Logs.endControl _ _ _)
  | forced outcome at_ err hlive htok =>
    have hnote : Logs true top g s (s.note (.forced outcome s.pendingCancel)) :=
      Logs.note (Logs.same (by rfl)) _ (by trivial) (by simp)
    exact (hnote.trans (Logs.cancelListed at_ .terminated s.tokens _)).trans (Logs.endControl _ _ _)
  | terminate cur hfin hmode =>
    have hclear : Logs true top g s (s.settled.clearRecords cur.scopeID) :=
      Logs.trans (Logs.same (by rfl)) (Logs.of_outline (s.settled.mapRecords_outline cur.scopeID (fun _ => [])))
    exact hclear.trans (Logs.endControl _ _ _)
  | abandon hflight hans hmode =>
    have hclear : Logs true top g s (s.settled.clearRecords s.compensating.scopeID) :=
      Logs.trans (Logs.same (by rfl)) (Logs.of_outline (s.settled.mapRecords_outline s.compensating.scopeID (fun _ => [])))
    exact (hclear.trans (Logs.endControl _ _ _)).trans (Logs.of_outline (ControlState.mapRecords_outline _ _ _))
  | pending cur p hfin hcons hpend hsweep hclear hnone =>
    have htake : Logs true top g s _ :=
      (Logs.deleted s (finishPlan s.settled cur)).trans (Logs.takePending (finishPlan s.settled cur) _)
    exact (htake.trans (Logs.sweeps hsweep)).trans (Logs.endControl _ _ _)

theorem Moves.logs (hs : Wf g s) (h : Moves top g trg s s') : Logs fin top g s s' := by
  induction h with
  | refl => exact Logs.same (by rfl)
  | tail hpre hstep ih => exact ih.trans (hstep.logs (Moves.wf hs hpre))

theorem Reaches.logs (hs : Wf g s) (h : Reaches top g trg s s') : Logs true top g s s' := by
  obtain ⟨m, hm, rfl | hend⟩ := h
  · exact Moves.logs hs hm
  · exact (Moves.logs hs hm).trans hend.logs

theorem Logs.subset (h : Logs fin top g s s') : s.trace ⊆ s'.trace := by
  obtain ⟨es, he, -⟩ := h.trace
  rw [he]
  exact List.subset_append_right _ _

/-- Moves alone note no end. -/
theorem Logs.ends (h : Logs false top g s s') : s'.trace.filterMap Event.end? = s.trace.filterMap Event.end? := by
  obtain ⟨es, he, hes⟩ := h.trace
  rw [he, List.filterMap_append, List.filterMap_eq_nil_iff.mpr (fun e hmem => (hes e hmem).2 rfl), List.nil_append]

end Moves

/-- The events of a state that an earlier one does not have. -/
def since (s s' : ControlState) : List Event := s'.trace.take (s'.trace.length - s.trace.length)

section Since
variable {fin : Bool} {top : ProcessDefinition} {g : IDGenerator} {s s1 s' : ControlState}

theorem Logs.since_append (h : Logs fin top g s s') : s'.trace = since s s' ++ s.trace := by
  obtain ⟨es, he, -⟩ := h.trace
  unfold since
  rw [he, List.length_append, Nat.add_sub_cancel, List.take_left]

theorem since_eq {es : List Event} (h : s'.trace = es ++ s.trace) : since s s' = es := by
  unfold since
  rw [h, List.length_append, Nat.add_sub_cancel, List.take_left]

theorem mem_since {e : Event} (h : s'.trace = e :: s.trace) : e ∈ since s s' := by
  have he : since s s' = [e] := since_eq h
  rw [he]
  exact List.mem_singleton.mpr rfl

theorem Logs.since_trans (h : Logs fin top g s s1) (h' : Logs fin top g s1 s') : since s s' = since s1 s' ++ since s s1 := by
  refine since_eq ?_
  rw [h'.since_append, h.since_append, List.append_assoc]

end Since

/-! ## Runs -/

namespace Steps
variable {d : ProcessDefinition} {gen : Option IDGenerator} {inst : String} {calls : List Call} {x y : InstanceState}

/-- The state keeps its id and its names come from one generator. -/
structure Sound (gen : Option IDGenerator) (inst : String) (x : InstanceState) : Prop where
  instanceID : x.instanceID = inst
  wf : Wf (runIDs gen inst) x.toControlState

/-- One call takes a sound state along the machine. -/
theorem Sound.reaches (h : Sound gen inst x) {call : Call} {r : StepResult} (hgen : call.opt.idGenerator = gen)
    (hstep : step call.fuel d x call.trigger call.opt = .ok r) :
    Reaches d (runIDs gen inst) call.trigger.body x.toControlState r.state.toControlState := by
  have hids : call.opt.ids x.instanceID = runIDs gen inst := by
    unfold StepOptions.ids runIDs
    rw [hgen, h.instanceID]
  have hreach := step_reaches (hids ▸ h.wf) hstep
  rw [hids] at hreach
  exact hreach

theorem Sound.step (h : Sound gen inst x) {call : Call} {r : StepResult} (hgen : call.opt.idGenerator = gen)
    (hstep : Wrkflw.step call.fuel d x call.trigger call.opt = .ok r) : Sound gen inst r.state := by
  have hreach := h.reaches hgen hstep
  exact ⟨(Reaches.logs h.wf hreach).instanceID.trans h.instanceID, Reaches.wf h.wf hreach⟩

theorem sound (h : Steps d gen x calls y) (hx : Sound gen inst x) : Sound gen inst y := by
  induction h with
  | refl => exact hx
  | tail _ call r hgen hstep ih => exact ih.step hgen hstep

theorem logs (h : Steps d gen x calls y) (hx : Sound gen inst x) :
    Logs true d (runIDs gen inst) x.toControlState y.toControlState := by
  induction h with
  | refl => exact Logs.same (by rfl)
  | tail hpre call r hgen hstep ih =>
    have hmid := hpre.sound hx
    exact ih.trans (Reaches.logs hmid.wf (hmid.reaches hgen hstep))

/-- What every move and every end keeps holds after any calls whose triggers satisfy `P` and whose events satisfy `C`. -/
theorem induction (h : Steps d gen x calls y) (hx : Sound gen inst x) {I : ControlState → Prop} {P : TriggerBody → Prop}
    {C : Event → Prop} (hcalls : ∀ call ∈ calls, P call.trigger.body)
    (hsince : ∀ e ∈ since x.toControlState y.toControlState, C e) (hI : I x.toControlState)
    (hmove : ∀ {trg s s'}, Wf (runIDs gen inst) s → P trg → (∀ e ∈ since s s', C e) → I s →
      Move d (runIDs gen inst) trg s s' → I s')
    (hend : ∀ {trg s s'}, Wf (runIDs gen inst) s → P trg → (∀ e ∈ since s s', C e) → I s → End trg s s' → I s') :
    I y.toControlState := by
  induction h with
  | refl => exact hI
  | @tail calls z hpre call r hgen hstep ih =>
    have hmid := hpre.sound hx
    have hreach := hmid.reaches hgen hstep
    have hP := hcalls call (List.mem_append_right _ List.mem_cons_self)
    have hsplit := (hpre.logs hx).since_trans (Reaches.logs hmid.wf hreach)
    rw [hsplit] at hsince
    have hIz := ih (fun call hc => hcalls call (List.mem_append_left _ hc))
      (fun e he => hsince e (List.mem_append_right _ he))
    have hnew : ∀ e ∈ since z.toControlState r.state.toControlState, C e := fun e he =>
      hsince e (List.mem_append_left _ he)
    -- along the moves of the last call
    have hmoves : ∀ {m}, Moves d (runIDs gen inst) call.trigger.body z.toControlState m →
        (∀ e ∈ since z.toControlState m, C e) → I m := by
      intro m hm
      induction hm with
      | refl => exact fun _ => hIz
      | tail hpre hmv ihm =>
        intro hC
        have hwf := Moves.wf hmid.wf hpre
        have hlogs : Logs false d (runIDs gen inst) z.toControlState _ := Moves.logs hmid.wf hpre
        rw [hlogs.since_trans (hmv.logs hwf)] at hC
        exact hmove hwf hP (fun e he => hC e (List.mem_append_left _ he))
          (ihm (fun e he => hC e (List.mem_append_right _ he))) hmv
    obtain ⟨m, hm, he | he⟩ := hreach
    · rw [he] at hnew ⊢
      exact hmoves hm hnew
    · have hlogs : Logs true d (runIDs gen inst) z.toControlState m := Moves.logs hmid.wf hm
      rw [hlogs.since_trans he.logs] at hnew
      exact hend (Moves.wf hmid.wf hm) hP (fun e hmem => hnew e (List.mem_append_left _ hmem))
        (hmoves hm (fun e hmem => hnew e (List.mem_append_right _ hmem))) he

end Steps

namespace Run
variable {d : ProcessDefinition} {gen : Option IDGenerator} {inst : String} {calls : List Call} {x : InstanceState}

theorem blank_sound (gen : Option IDGenerator) (inst : String) : Steps.Sound gen inst { instanceID := inst } :=
  ⟨rfl, wf_init _ inst⟩

theorem sound (h : Run d gen inst calls x) : Steps.Sound gen inst x := Steps.sound h (blank_sound gen inst)

/-- Every event of a run was noted rightly. -/
theorem noted (h : Run d gen inst calls x) : ∀ e ∈ x.trace, e.Noted d (runIDs gen inst) := by
  obtain ⟨es, he, hes⟩ := (Steps.logs h (blank_sound gen inst)).trace
  intro e hmem
  rw [he, List.append_nil] at hmem
  exact (hes e hmem).1

/-- The induction over a run whose triggers satisfy `P` and whose trace satisfies `C`. -/
theorem induction (h : Run d gen inst calls x) {I : ControlState → Prop} {P : TriggerBody → Prop} {C : Event → Prop}
    (hcalls : ∀ call ∈ calls, P call.trigger.body) (htrace : ∀ e ∈ x.trace, C e)
    (hstart : I { instanceID := inst })
    (hmove : ∀ {trg s s'}, Wf (runIDs gen inst) s → P trg → (∀ e ∈ s'.trace, C e) → I s →
      Move d (runIDs gen inst) trg s s' → I s')
    (hend : ∀ {trg s s'}, Wf (runIDs gen inst) s → P trg → (∀ e ∈ s'.trace, C e) → I s → End trg s s' → I s') :
    I x.toControlState := by
  have hlogs := Steps.logs h (blank_sound gen inst)
  have hsince : ∀ e ∈ since ({ instanceID := inst } : ControlState) x.toControlState, C e := by
    intro e he
    refine htrace e ?_
    rw [hlogs.since_append]
    exact List.mem_append_left _ he
  have hall : ∀ {s s'}, Logs true d (runIDs gen inst) s s' → (∀ e ∈ since s s', C e) → (∀ e ∈ s.trace, C e) →
      ∀ e ∈ s'.trace, C e := by
    intro s s' hl hnew hold e he
    rw [hl.since_append] at he
    exact (List.mem_append.mp he).elim (hnew e) (hold e)
  have hboth : I x.toControlState ∧ ∀ e ∈ x.trace, C e := by
    refine Steps.induction (I := fun s => I s ∧ ∀ e ∈ s.trace, C e) h (blank_sound gen inst) hcalls hsince
      ⟨hstart, by simp⟩ ?_ ?_
    · intro trg s s' hwf hP hnew hIs hmv
      have hC := hall (hmv.logs hwf) hnew hIs.2
      exact ⟨hmove hwf hP hC hIs.1 hmv, hC⟩
    · intro trg s s' hwf hP hnew hIs he
      have hC := hall he.logs hnew hIs.2
      exact ⟨hend hwf hP hC hIs.1 he, hC⟩
  exact hboth.1

end Run

/-! ## Running -/

def flowOf (id source target : String) : SequenceFlow := { id := id, source := source, target := target }

def serviceNode (id compensateAction : String) : Node :=
  { id := id, spec := .serviceTask { compensateAction := compensateAction } "" }

def subProcessNode (id : String) (sub : ProcessDefinition) : Node := { id := id, spec := .subProcess {} (some sub) }

def startNode (id : String) : Node := { id := id, spec := .startEvent {} }

def endNode (id : String) : Node := { id := id, spec := .endEvent {} }

def userNode (id : String) : Node := { id := id, spec := .userTask {} }

def forkNode (id : String) : Node := { id := id, spec := .parallelGateway }

/-- A flow from each node to the next, named after its source. -/
def rowFlows : List Node → List SequenceFlow
  | a :: b :: rest => flowOf a.id a.id b.id :: rowFlows (b :: rest)
  | _ => []

/-- The nodes one after another, between a start and an end. -/
def rowOf (id : String) (nodes : List Node) : ProcessDefinition where
  id := id
  version := 1
  nodes := startNode "s" :: nodes ++ [endNode "e"]
  flows := rowFlows (startNode "s" :: nodes ++ [endNode "e"])

/-- A token waits on the activity `a` for the answer to the first command. -/
def waitsAtActivity (x : InstanceState) : Bool :=
  x.status == .running && !x.isBenignCompensationDuplicate "i-c1" &&
    (x.tokenAwaiting "i-c1").any (fun t => t.nodeID == "a" && t.scopeID == "")

theorem waits_of_waitsAtActivity {x : InstanceState} (h : waitsAtActivity x = true) :
    x.status = .running ∧ x.isBenignCompensationDuplicate "i-c1" = false ∧
      ∃ tok, x.tokenAwaiting "i-c1" = some tok ∧ tok.nodeID = "a" ∧ tok.scopeID = "" := by
  simp only [waitsAtActivity, Bool.and_eq_true, beq_iff_eq, Bool.not_eq_true'] at h
  obtain ⟨⟨hrunning, hdup⟩, hwaits⟩ := h
  obtain ⟨tok, htok, hat⟩ := (Option.any_eq_true _ _).mp hwaits
  exact ⟨hrunning, hdup, tok, htok, by simpa using hat⟩

/-- The calls in turn, from a state. -/
def runCalls (d : ProcessDefinition) : List Call → InstanceState → Except EngineError InstanceState
  | [], x => .ok x
  | call :: calls, x =>
    match step call.fuel d x call.trigger call.opt with
    | .error e => .error e
    | .ok r => runCalls d calls r.state

theorem steps_of_runCalls {d : ProcessDefinition} {gen : Option IDGenerator} {x0 : InstanceState} {pre calls : List Call}
    {x y : InstanceState} (hx : Steps d gen x0 pre x) (hgen : ∀ call ∈ calls, call.opt.idGenerator = gen)
    (h : runCalls d calls x = .ok y) : Steps d gen x0 (pre ++ calls) y := by
  induction calls generalizing pre x with
  | nil =>
    rw [← Except.ok.inj h, List.append_nil]
    exact hx
  | cons call calls ih =>
    unfold runCalls at h
    split at h
    · cases h
    · rename_i r hstep
      have hrun := hx.tail call r (hgen call List.mem_cons_self) hstep
      rw [List.append_cons]
      exact ih hrun (fun call' hc => hgen call' (List.mem_cons_of_mem _ hc)) h

/-- Options with an evaluator that says yes and no delay. -/
def plainOptions : StepOptions where
  evaluator := ⟨fun _ _ => .ok true, fun _ _ => .ok 0, fun code _ => .ok code⟩
  floatOps := ⟨fun _ _ => 0, fun _ delay => delay⟩

/-- One call per trigger, at the times from `n` on. -/
def callsFrom (n : Nat) : List TriggerBody → List Call
  | [] => []
  | trg :: trgs => ⟨50, ⟨n, trg⟩, plainOptions⟩ :: callsFrom (n + 1) trgs

theorem callsFrom_gen (n : Nat) (trgs : List TriggerBody) : ∀ call ∈ callsFrom n trgs, call.opt.idGenerator = none := by
  induction trgs generalizing n with
  | nil => simp [callsFrom]
  | cons trg trgs ih =>
    intro call hc
    rcases List.mem_cons.mp hc with rfl | hc
    · rfl
    · exact ih (n + 1) call hc

/-- The triggers lead to a state with the property. -/
def playsTo (d : ProcessDefinition) (trgs : List TriggerBody) (P : InstanceState → Bool) : Bool :=
  match runCalls d (callsFrom 1 trgs) { instanceID := "i" } with
  | .ok x => P x
  | .error _ => false

theorem run_of_playsTo {d : ProcessDefinition} {trgs : List TriggerBody} {P : InstanceState → Bool}
    (h : playsTo d trgs P = true) : ∃ x, Run d none "i" (callsFrom 1 trgs) x ∧ P x = true := by
  unfold playsTo at h
  split at h
  · rename_i x hx
    exact ⟨x, steps_of_runCalls Steps.refl (callsFrom_gen 1 trgs) hx, h⟩
  · cases h

/-- The triggers before, the one in the middle and the ones after it lead through states with the property. -/
def playsThrough (d : ProcessDefinition) (before : List TriggerBody) (trg : TriggerBody) (after : List TriggerBody)
    (P : InstanceState → StepResult → InstanceState → Bool) : Bool :=
  match runCalls d (callsFrom 1 before) { instanceID := "i" } with
  | .error _ => false
  | .ok x =>
    match step 50 d x ⟨before.length + 1, trg⟩ plainOptions with
    | .error _ => false
    | .ok r =>
      match runCalls d (callsFrom (before.length + 2) after) r.state with
      | .error _ => false
      | .ok y => P x r y

theorem run_of_playsThrough {d : ProcessDefinition} {before after : List TriggerBody} {trg : TriggerBody}
    {P : InstanceState → StepResult → InstanceState → Bool} (h : playsThrough d before trg after P = true) :
    ∃ x r y, Run d none "i" (callsFrom 1 before) x ∧ step 50 d x ⟨before.length + 1, trg⟩ plainOptions = .ok r ∧
      Steps d none r.state (callsFrom (before.length + 2) after) y ∧ P x r y = true := by
  unfold playsThrough at h
  split at h
  · cases h
  · rename_i x hx
    split at h
    · cases h
    · rename_i r hr
      split at h
      · cases h
      · rename_i y hy
        refine ⟨x, r, y, steps_of_runCalls Steps.refl (callsFrom_gen 1 before) hx, hr, ?_, h⟩
        exact steps_of_runCalls Steps.refl (callsFrom_gen _ after) hy

end Wrkflw
