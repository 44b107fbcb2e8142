import Wrkflw.Machine.Run

/-!
# Replies that come again

The ring of recent compensation commands has the last sixteen that were dispatched, the earliest first, in every state of
a run (`Ringed`), so a reply to one of them that the walk has moved past changes nothing, and neither does a failure of the
active command while its backoff is armed.

* `ControlState.dispatchIDs` : the commands that were dispatched, the latest first;
* `Redelivered` : the replies that come again;
* `outcomes` : what a sequence of calls returns.
-/

namespace Wrkflw

open ControlState

variable {d : ProcessDefinition}

/-! ## The ring -/

def Event.dispatchID? : Event → Option String
  | .dispatched _ cmdID => some cmdID
  | .redispatched _ cmdID => some cmdID
  | _ => none

def ControlState.dispatchIDs (s : ControlState) : List String := s.trace.filterMap Event.dispatchID?

/-- The ring is what was dispatched last, and every command has an id. -/
structure Ringed (s : ControlState) : Prop where
  ring : s.recentCompensationCmdIDs = (s.dispatchIDs.take maxRecentCompensationCmdIDs).reverse
  named : ∀ id ∈ s.dispatchIDs, id ≠ ""

/-- Nothing is dispatched between the states. -/
structure Undispatched (s s' : ControlState) : Prop where
  ring : s'.recentCompensationCmdIDs = s.recentCompensationCmdIDs
  ids : s'.dispatchIDs = s.dispatchIDs

namespace Undispatched
variable {s s' s'' : ControlState}

theorem trans (h : Undispatched s s') (h' : Undispatched s' s'') : Undispatched s s'' :=
  ⟨h'.ring.trans h.ring, h'.ids.trans h.ids⟩

theorem same : Undispatched s s := ⟨rfl, rfl⟩

theorem note (h : Undispatched s s') (e : Event) (he : e.dispatchID? = none) : Undispatched s (s'.note e) := by
  refine ⟨h.ring, Eq.trans ?_ h.ids⟩
  change (e :: s'.trace).filterMap Event.dispatchID? = _
  rw [List.filterMap_cons_none he]
  rfl

theorem of_outline (h : s'.outline = s.outline) : Undispatched s s' :=
  ⟨(congrArg ControlState.recentCompensationCmdIDs h :), congrArg (List.filterMap Event.dispatchID?) (sameOutline h).trace⟩

theorem removeToken (s : ControlState) (id : String) : Undispatched s (s.removeToken id) := by
  obtain ⟨p, he, -⟩ := s.removeToken_shape id
  rw [he]
  exact ⟨rfl, rfl⟩

theorem cancelToken (s : ControlState) (tok : Token) (at_ : Time) (kind : CloseKind) :
    Undispatched s (s.cancelToken tok at_ kind) := by
  rcases s.cancelToken_shape tok at_ kind with he | ⟨t, -, -, -, h, -, he⟩
  · rw [he]
    exact same
  · rw [he]
    exact ⟨rfl, rfl⟩

theorem cancelListed (at_ : Time) (kind : CloseKind) (toks : List Token) (s : ControlState) :
    Undispatched s (s.cancelListed at_ kind toks) := by
  induction toks generalizing s with
  | nil => exact same
  | cons tok toks ih => exact (cancelToken s tok at_ kind).trans (ih _)

theorem closeScope (s : ControlState) (id : String) : Undispatched s (s.closeScope id) := by
  obtain ⟨p, he⟩ := s.closeScope_shape id
  rw [he]
  exact ⟨rfl, rfl⟩

theorem consumeTokenAs (s : ControlState) (tok : Token) (at_ : Time) (kind : CloseKind) :
    Undispatched s (s.consumeTokenAs tok at_ kind) := by
  obtain ⟨h, -, he⟩ := s.consumeTokenAs_shape tok at_ kind
  rw [he]
  exact (removeToken s tok.id).trans ⟨rfl, rfl⟩

theorem placeTokenInScope (g : IDGenerator) (s : ControlState) (node scope flow : String) (at_ : Time) :
    Undispatched s (s.placeTokenInScope g node scope flow at_) := ⟨rfl, rfl⟩

theorem sweep (h : Sweep s s') : Undispatched s s' := by
  cases h with
  | archive id => exact of_outline (s.archiveCompensations_outline id)
  | cancel tok at_ kind => exact cancelToken s tok at_ kind
  | consolidate => exact of_outline s.consolidate_outline

theorem sweeps (h : Sweeps s s') : Undispatched s s' := by
  induction h with
  | refl => exact same
  | tail _ hstep ih => exact ih.trans (sweep hstep)

theorem parkedOn {p : ControlState} {node : Node} {scopeID : String} (h : ParkedOn s p node scopeID) : Undispatched s p := by
  rcases h with rfl | ⟨tok, -, -, -, -, rfl⟩
  · exact same
  · exact ⟨rfl, rfl⟩

theorem deleted (s : ControlState) (plan : FinishPlan) : Undispatched s (applyDeleteArchive plan s.settled) := by
  have hsettled : Undispatched s s.settled := ⟨rfl, rfl⟩
  exact hsettled.trans (of_outline (applyDeleteArchive_outline plan _))

theorem takePending (plan : FinishPlan) (s : ControlState) : Undispatched s (takePending plan s) := by
  have hflags : Undispatched s { s with pendingCancel := false, pendingFinalStatus := .running, pendingFinalErr := "" } :=
    ⟨rfl, rfl⟩
  exact (hflags.trans (of_outline (applyPlanRecordClearing_outline plan _))).trans ⟨rfl, rfl⟩

theorem popOneDeferredThrow (s : ControlState) : Undispatched s s.popOneDeferredThrow := by
  unfold ControlState.popOneDeferredThrow
  split
  · exact same
  · dsimp only
    split
    · exact ⟨rfl, rfl⟩
    · exact ⟨rfl, rfl⟩

theorem resumeControl (g : IDGenerator) (at_ : Time) (plan : FinishPlan) (s : ControlState) :
    Undispatched s (resumeControl g at_ plan s) := by
  have hclear : Undispatched s { applyPlanRecordClearing plan s with status := .running } :=
    (of_outline (applyPlanRecordClearing_outline plan s)).trans ⟨rfl, rfl⟩
  have hresumed := hclear.note (.resumed plan.popDeferred s.deferredCompensationThrows) rfl
  unfold Wrkflw.resumeControl
  dsimp only
  have hplaced : ∀ b : Bool, Undispatched s (if b then _ else _) := fun b => by
    cases b
    · exact hresumed.trans (placeTokenInScope g _ plan.resumeAt plan.resumeScope plan.resumeFlow at_)
    · exact hresumed
  split
  · exact (hplaced _).trans (popOneDeferredThrow _)
  · exact hplaced _

theorem endControl (s : ControlState) (st : Status) (err : String) : Undispatched s (s.endControl st err) := by
  have hst : Undispatched s { s with status := st } := ⟨rfl, rfl⟩
  have hharvest := hst.trans (of_outline (harvest_outline { s with status := st }))
  exact hharvest.trans ⟨rfl, rfl⟩

end Undispatched

theorem Ringed.keep {s s' : ControlState} (hs : Ringed s) (h : Undispatched s s') : Ringed s' where
  ring := by
    rw [h.ring, h.ids]
    exact hs.ring
  named := by
    rw [h.ids]
    exact hs.named

/-- One more command is dispatched: the ring takes it up, and drops the earliest where it is full. -/
theorem Ringed.dispatched {s s' : ControlState} {cmdID : String} (hs : Ringed s) (hne : cmdID ≠ "")
    (hring : s'.recentCompensationCmdIDs = (s.recordCompensationDispatch cmdID).recentCompensationCmdIDs)
    (hids : s'.dispatchIDs = cmdID :: s.dispatchIDs) : Ringed s' := by
  refine ⟨?_, fun id hid => ?_⟩
  · rw [hring, hids]
    have happend : s.recentCompensationCmdIDs ++ [cmdID] =
      (cmdID :: s.dispatchIDs.take maxRecentCompensationCmdIDs).reverse := by
      rw [hs.ring, List.reverse_cons]
    unfold ControlState.recordCompensationDispatch
    dsimp only
    rw [happend, List.drop_reverse, List.length_reverse]
    congr 1
    rw [← List.take_succ_cons, List.take_take, List.take_eq_take_iff, List.length_take, List.length_cons]
    unfold maxRecentCompensationCmdIDs
    omega
  · rw [hids] at hid
    rcases List.mem_cons.mp hid with rfl | hid
    · exact hne
    · exact hs.named id hid

section Moves
variable {top : ProcessDefinition} {g : IDGenerator} {trg : TriggerBody} {s s' : ControlState}

theorem ringed_beginWalk (hs : Ringed s) (o : CompensationOutcome) (at_ : Time) (rec : CompensationRecord) :
    Ringed (s.beginWalk g o at_ rec) := hs.dispatched (g.newID_ne_empty _ _) rfl rfl

theorem Ringed.dispatch (hs : Ringed s) (cur : CompensationCursor) (idx : Int) (rec : CompensationRecord) {cmdID : String}
    (hne : cmdID ≠ "") : Ringed (s.dispatch cur idx rec cmdID) := by
  have ho := dispatch_outline s cur idx rec cmdID
  refine hs.dispatched hne (congrArg ControlState.recentCompensationCmdIDs ho :) ?_
  exact congrArg (List.filterMap Event.dispatchID?) (sameOutline ho).trace

theorem Move.ringed (hs : Ringed s) (hmove : Move top g trg s s') : Ringed s' := by
  cases hmove with
  | consume tok hmem hfree => exact hs.keep (Undispatched.removeToken s tok.id)
  | cancel tok at_ kind => exact hs.keep (Undispatched.cancelToken s tok at_ kind)
  | park p d node scopeID kind at_ hp hsite hkind hnone => exact hs.keep (Undispatched.parkedOn hp)
  | fireParallel p d node scopeID consumed hp hsite hmatch =>
    exact hs.keep ((Undispatched.parkedOn hp).trans ⟨rfl, rfl⟩)
  | fireInclusive p d node scopeID consumed hp hsite htok hsub hcons =>
    exact hs.keep ((Undispatched.parkedOn hp).trans ⟨rfl, rfl⟩)
  | teardown scope =>
    have harch := Undispatched.of_outline (s.archiveAll_outline (s.subtreeIDs scope))
    exact hs.keep (harch.trans (Undispatched.closeScope _ scope))
  | interrupt scope =>
    have harch := Undispatched.of_outline (s.archiveAll_outline (s.subtreeIDs scope))
    exact hs.keep (harch.trans ⟨rfl, rfl⟩)
  | exit scope enclosing hne htok hchild hhold =>
    have hnote : Undispatched s (s.note (.exited scope enclosing s.tokens s.scopes s.compensating)) := ⟨rfl, rfl⟩
    have harch := hnote.trans (Undispatched.of_outline (ControlState.archiveCompensations_outline _ scope))
    exact hs.keep (harch.trans (Undispatched.closeScope _ scope))
  | record scope rec hfwd hhist =>
    refine hs.keep ?_
    unfold ControlState.recordCompensation
    split
    · exact ⟨rfl, rfl⟩
    · split
      · exact Undispatched.same
      · exact (Undispatched.of_outline (s.setCompensations_outline scope _)).note _ rfl
  | sweep s' hidle hsweep => exact hs.keep (Undispatched.sweep hsweep)
  | throwWalk tok at_ cur rec hthrow hfwd hidle hcur =>
    have hconsumed : Undispatched s { s.mintCommand.consumeToken tok at_ with status := .compensating } := by
      have hmint : Undispatched s s.mintCommand := ⟨rfl, rfl⟩
      exact (hmint.trans (Undispatched.consumeTokenAs _ tok at_ _)).trans ⟨rfl, rfl⟩
    exact (hs.keep hconsumed).dispatch _ _ _ (g.newID_ne_empty _ _)
  | next rec hflight hans hpos hto hrec =>
    have hmint : Undispatched s s.mintCommand := ⟨rfl, rfl⟩
    exact (hs.keep hmint).dispatch _ _ _ (g.newID_ne_empty _ _)
  | again rec attempts hflight hrec htrg => exact hs.dispatched (g.newID_ne_empty _ _) rfl rfl
  | begin at_ o rec hidle hclear hasked hrec => exact ringed_beginWalk hs o at_ rec
  | resume cur at_ hfin hres hpend hscope =>
    exact hs.keep ((Undispatched.deleted s _).trans (Undispatched.resumeControl g at_ _ _))
  | pendingWalk cur at_ p rec hfin hcons hpend hsweep hclear hrec =>
    have htaken := (Undispatched.deleted s (finishPlan s.settled cur)).trans
      (Undispatched.takePending (finishPlan s.settled cur) _)
    exact ringed_beginWalk (hs.keep (htaken.trans (Undispatched.sweeps hsweep))) _ at_ rec
  | _ => exact hs.keep ⟨rfl, rfl⟩

theorem End.ringed (hs : Ringed s) (hend : End trg s s') : Ringed s' := by
  cases hend with
  | complete hlive hdrained => exact hs.keep (Undispatched.endControl s _ _)
  | idle st err hlive hidle hst => exact hs.keep (Undispatched.endControl s _ _)
  | childFailed err hlive htok =>
    have hnote : Undispatched s (s.note (.childFailed err s.compensating)) := ⟨rfl, rfl⟩
    exact hs.keep (hnote.trans (Undispatched.endControl _ _ _))
  | forced outcome at_ err hlive htok =>
    have hnote : Undispatched s (s.note (.forced outcome s.pendingCancel)) := ⟨rfl, rfl⟩
    exact hs.keep ((hnote.trans (Undispatched.cancelListed _ _ _ _)).trans (Undispatched.endControl _ _ _))
  | terminate cur hfin hmode =>
    have hsettled : Undispatched s s.settled := ⟨rfl, rfl⟩
    have hcleared := hsettled.trans (Undispatched.of_outline (s.settled.mapRecords_outline cur.scopeID (fun _ => [])))
    exact hs.keep (hcleared.trans (Undispatched.endControl _ _ _))
  | abandon hflight hans hmode =>
    have hsettled : Undispatched s s.settled := ⟨rfl, rfl⟩
    have hcleared := hsettled.trans
      (Undispatched.of_outline (s.settled.mapRecords_outline s.compensating.scopeID (fun _ => [])))
    have hended := hcleared.trans
      (Undispatched.endControl _ (finalStatusOf s.compensating.finalStatus) s.compensating.finalErr)
    exact hs.keep (hended.trans (Undispatched.of_outline (ControlState.mapRecords_outline _ _ _)))
  | pending cur p hfin hcons hpend hsweep hclear hnone =>
    have htaken := (Undispatched.deleted s (finishPlan s.settled cur)).trans
      (Undispatched.takePending (finishPlan s.settled cur) _)
    exact hs.keep ((htaken.trans (Undispatched.sweeps hsweep)).trans (Undispatched.endControl _ _ _))

end Moves

theorem Run.ringed {gen : Option IDGenerator} {inst : String} {calls : List Call} {x : InstanceState}
    (hrun : Run d gen inst calls x) : Ringed x.toControlState :=
  Run.induction (I := Ringed) (P := fun _ => True) (C := fun _ => True) hrun (fun _ _ => trivial) (fun _ _ => trivial)
    ⟨rfl, nofun⟩ (fun _ _ _ hs hmove => hmove.ringed hs) (fun _ _ _ hs hend => hend.ringed hs)

/-! ## Calls -/

/-- The state a call leaves: what it returned, or the state it was made in where it failed. -/
def stateAfter (x : InstanceState) : EngineResult → InstanceState
  | .ok r => r.state
  | .error _ => x

/-- What the calls return, one after another. -/
def outcomes (d : ProcessDefinition) : InstanceState → List Call → List EngineResult
  | _, [] => []
  | x, call :: calls =>
    let r := step call.fuel d x call.trigger call.opt
    r :: outcomes d (stateAfter x r) calls

/-- The state the calls lead to. -/
def lastState (d : ProcessDefinition) : InstanceState → List Call → InstanceState
  | x, [] => x
  | x, call :: calls => lastState d (stateAfter x (step call.fuel d x call.trigger call.opt)) calls

theorem outcomes_append (d : ProcessDefinition) (calls later : List Call) (x : InstanceState) :
    outcomes d x (calls ++ later) = outcomes d x calls ++ outcomes d (lastState d x calls) later := by
  induction calls generalizing x with
  | nil => rfl
  | cons call calls ih => exact congrArg (List.cons _) (ih _)

/-- A call that fails is none. -/
theorem steps_lastState {gen : Option IDGenerator} {x y : InstanceState} {done calls : List Call}
    (h : Steps d gen x done y) (hgen : ∀ call ∈ calls, call.opt.idGenerator = gen) :
    ∃ done', Steps d gen x done' (lastState d y calls) := by
  induction calls generalizing done y with
  | nil => exact ⟨done, h⟩
  | cons call calls ih =>
    have hrest : ∀ call ∈ calls, call.opt.idGenerator = gen := fun call' hc => hgen call' (List.mem_cons_of_mem _ hc)
    unfold lastState
    cases hstep : step call.fuel d y call.trigger call.opt with
    | error e => exact ih h hrest
    | ok r => exact ih (h.tail call r (hgen call List.mem_cons_self) hstep) hrest

/-! ## Replies that come again -/

/-- The walk has moved past the command, which is one of the last sixteen that were dispatched. -/
def MovedPast (s : ControlState) (commandID : String) : Prop :=
  commandID ≠ s.compensating.activeCmdID ∧ commandID ∈ s.dispatchIDs.take maxRecentCompensationCmdIDs

/-- The backoff of the command, which is the active one, is armed. -/
def BackingOff (s : ControlState) (commandID : String) : Prop :=
  s.InFlight ∧ commandID = s.compensating.activeCmdID ∧ s.compensating.retryTimerID ≠ ""

instance (s : ControlState) (commandID : String) : Decidable (MovedPast s commandID) := inferInstanceAs (Decidable (_ ∧ _))

/-- The trigger is a reply that comes again. -/
def Redelivered (s : ControlState) : TriggerBody → Prop
  | .actionCompleted commandID _ => MovedPast s commandID
  | .actionFailed commandID _ _ _ _ => MovedPast s commandID ∨ BackingOff s commandID
  | _ => False

section Replies
variable {g : IDGenerator} {drv : DriveLoop} {c : StepCtx} {x : InstanceState} {commandID : String}

theorem MovedPast.benign (h : MovedPast x.toControlState commandID) (hx : Ringed x.toControlState) :
    x.isBenignCompensationDuplicate commandID = true := by
  have hmem : commandID ∈ x.recentCompensationCmdIDs := by
    rw [hx.ring]
    exact List.mem_reverse.mpr h.2
  unfold isBenignCompensationDuplicate
  rw [Bool.and_eq_true, bne_iff_ne, List.contains_iff_mem]
  exact ⟨h.1, hmem⟩

theorem MovedPast.not_active (h : MovedPast x.toControlState commandID) :
    (x.status == .compensating && x.compensating.activeCmdID == commandID) = false := by
  rw [Bool.and_eq_false_iff]
  exact Or.inr (beq_false_of_ne (Ne.symm h.1))

theorem completed_again (h : MovedPast x.toControlState commandID) (hx : Ringed x.toControlState) (output : Vars) :
    handleActionCompleted drv c x commandID output = .ok ⟨x, []⟩ := by
  unfold handleActionCompleted
  rw [h.not_active, h.benign hx]
  rfl

theorem failed_again (h : MovedPast x.toControlState commandID ∨ BackingOff x.toControlState commandID)
    (hx : Ringed x.toControlState) (hphase : Phase g x.toControlState) (err : String) (retryable : Bool) (jitter : Rat)
    (cause : Option String) : handleActionFailed drv c x commandID err retryable jitter cause = .ok ⟨x, []⟩ := by
  unfold handleActionFailed
  rcases h with h | ⟨hflight, rfl, hretry⟩
  · rw [h.not_active, h.benign hx]
    rfl
  · have hactive : (x.status == .compensating && x.compensating.activeCmdID == x.compensating.activeCmdID) = true := by
      rw [hphase.status.mpr hflight]
      exact Bool.and_eq_true_iff.mpr ⟨rfl, beq_self_eq_true _⟩
    unfold handleCompensationFailed
    rw [if_pos hactive, if_pos (bne_iff_ne.mpr hretry)]

theorem Redelivered.key {trg : TriggerBody} (h : Redelivered x.toControlState trg) (hx : Ringed x.toControlState) :
    validateTriggerKey trg = .ok () := by
  have hnamed : ∀ {id : String}, id ≠ "" → (id == "") = false := fun hid => beq_false_of_ne hid
  have hpast : ∀ {id : String}, MovedPast x.toControlState id → id ≠ "" :=
    fun hm => hx.named _ (List.mem_of_mem_take hm.2)
  unfold validateTriggerKey
  cases trg with
  | actionCompleted commandID output =>
    change (if commandID == "" then _ else _) = _
    rw [hnamed (hpast h)]
    rfl
  | actionFailed commandID err retryable jitter cause =>
    have hne : commandID ≠ "" := by
      rcases h with h | ⟨hflight, rfl, -⟩
      · exact hpast h
      · exact hflight
    change (if commandID == "" then _ else _) = _
    rw [hnamed hne]
    rfl
  | _ => exact h.elim

/-- A reply that comes again is answered with the state and no command. -/
theorem Redelivered.step {dup : Call} (h : Redelivered x.toControlState dup.trigger.body)
    (hx : Ringed x.toControlState) (hphase : Phase g x.toControlState) :
    step dup.fuel d x dup.trigger dup.opt = .ok ⟨x, []⟩ := by
  have hreassign : validateReassignTarget dup.trigger.body = .ok () := by
    cases hb : dup.trigger.body <;> first | rfl | (rw [hb] at h; exact h.elim)
  have hdispatch : ∀ drv c, dispatch drv c x dup.trigger.body = .ok ⟨x, []⟩ := by
    intro drv c
    unfold dispatch
    cases hb : dup.trigger.body with
    | actionCompleted commandID output =>
      rw [hb] at h
      split
      · rfl
      · exact completed_again h hx output
    | actionFailed commandID err retryable jitter cause =>
      rw [hb] at h
      split
      · rfl
      · exact failed_again h hx hphase err retryable jitter cause
    | _ =>
      rw [hb] at h
      exact h.elim
  unfold Wrkflw.step
  rw [h.key hx, hreassign]
  change (dispatch _ _ x dup.trigger.body).bind _ = _
  rw [hdispatch]
  rfl

end Replies

/-- **A reply that comes again changes nothing**: put anywhere into a sequence of calls, it returns the state it finds and no
command, and every later call returns what it returns without it. -/
theorem redelivery_changes_nothing {d : ProcessDefinition} {gen : Option IDGenerator} (inst : String) {before : List Call}
    {dup : Call} (later : List Call) (hgen : ∀ call ∈ before, call.opt.idGenerator = gen)
    (hdup : Redelivered (lastState d { instanceID := inst } before).toControlState dup.trigger.body) :
    outcomes d { instanceID := inst } (before ++ later) =
        outcomes d { instanceID := inst } before ++ outcomes d (lastState d { instanceID := inst } before) later ∧
      outcomes d { instanceID := inst } (before ++ dup :: later) =
        outcomes d { instanceID := inst } before ++ .ok ⟨lastState d { instanceID := inst } before, []⟩ ::
          outcomes d (lastState d { instanceID := inst } before) later := by
  obtain ⟨done, hsteps⟩ := steps_lastState Steps.refl hgen
  have hrun : Run d gen inst done (lastState d { instanceID := inst } before) := hsteps
  refine ⟨outcomes_append d before later _, ?_⟩
  rw [outcomes_append]
  congr 1
  have hstep : step dup.fuel d (lastState d { instanceID := inst } before) dup.trigger dup.opt = .ok ⟨_, []⟩ :=
    hdup.step hrun.ringed hrun.sound.wf.phase
  change step _ _ _ _ _ :: outcomes d (stateAfter _ (step _ _ _ _ _)) later = _
  rw [hstep]
  rfl

/-- Two activities that are undone, before a task. -/
def undoneTwice : ProcessDefinition := rowOf "twice" [serviceNode "a" "undo-a", serviceNode "b" "undo-b", userNode "w"]

/-- The instance is cancelled and the first of its records is undone. -/
def undoneOnce : List Call :=
  callsFrom 1 [.startInstance [] "", .actionCompleted "i-c1" [], .actionCompleted "i-c2" [], .cancelRequested,
    .actionCompleted "i-c3" []]

/-- The reply to the second command. -/
def undoneBoth : List Call := callsFrom 7 [.actionCompleted "i-c4" []]

/-- The reply to the first compensation command comes again while the second is out. -/
theorem undone_reply_again :
    outcomes undoneTwice { instanceID := "i" }
        (undoneOnce ++ ⟨50, ⟨6, .actionCompleted "i-c3" []⟩, plainOptions⟩ :: undoneBoth) =
      outcomes undoneTwice { instanceID := "i" } undoneOnce ++
        .ok ⟨lastState undoneTwice { instanceID := "i" } undoneOnce, []⟩ ::
          outcomes undoneTwice (lastState undoneTwice { instanceID := "i" } undoneOnce) undoneBoth := by
  have hpast : MovedPast (lastState undoneTwice { instanceID := "i" } undoneOnce).toControlState "i-c3" := by decide
  have hdup : Redelivered (lastState undoneTwice { instanceID := "i" } undoneOnce).toControlState
    (.actionCompleted "i-c3" []) :=
    hpast
  exact (redelivery_changes_nothing "i" undoneBoth (callsFrom_gen 1 _) hdup).2

end Wrkflw
