import Wrkflw.Machine.Course
import Wrkflw.Definition.Validate

/-!
# An accepted cancel

A cancel that was accepted should stay in force: the instance ends terminated or failed, or compensates with the cancel
pending or with a walk that ends it. The code keeps the cancel of a throw's walk as a flag that the end of the walk
takes up, and two paths go around that flag: a force-termination with the outcome "complete", and a rollback to a node
that also names a reverse target. `accepted_cancel_held` says that every other continuation keeps the cancel.
-/

namespace Wrkflw

open ControlState

/-- The cancel is not forgotten. -/
def CancelHeld (s : ControlState) : Prop :=
  s.status = .terminated ∨ s.status = .failed ∨
    (s.status = .compensating ∧ (s.pendingCancel = true ∨ (s.InFlight ∧ s.compensating.walkMode = .admin)))

/-- The event is none that goes around a pending cancel: an end event that completes the instance by force, or a cancel
left to a walk that rolls back to a node. -/
def Event.mindsCancel : Event → Bool
  | .forced outcome pendingCancel => !(outcome == .complete && pendingCancel)
  | .cancelPended cursor => cursor.toNode == ""
  | _ => true

/-- The instance ended in an abort, or the walk in flight gives way to the cancel when it finishes. -/
def Outlook.Cancelled (o : Outlook) : Prop :=
  (o.status = .terminated ∨ o.status = .failed) ∨
    (o.command ≠ "" ∧ o.aim.toNode = "" ∧ (o.pendingCancel = true ∨ (o.aim.resumeNode = "" ∧ o.aim.reverseNode = "")))

section Cancelled
variable {top : ProcessDefinition} {g : IDGenerator} {trg : TriggerBody} {s s' : ControlState}

theorem CancelHeld.of_cancelled (hs : Phase g s) (h : s.outlook.Cancelled) : CancelHeld s := by
  rcases h with (h | h) | ⟨hflight, hto, hpend⟩
  · exact Or.inl h
  · exact Or.inr (Or.inl h)
  · refine Or.inr (Or.inr ⟨hs.status.mpr hflight, hpend.imp_right (fun hroot => ?_)⟩)
    exact ⟨hflight, walkMode_eq_admin.mpr ⟨hroot.1, hto, hroot.2⟩⟩

/-- While a walk is in flight the cancel is the walk's. -/
theorem Outlook.Cancelled.walk (hs : Phase g s) (h : s.outlook.Cancelled) (hflight : s.InFlight) :
    s.compensating.toNode = "" ∧
      (s.pendingCancel = true ∨ (s.compensating.resumeNode = "" ∧ s.compensating.reverseNode = "")) := by
  rcases h with h | ⟨-, h⟩
  · have hst := hs.status.mpr hflight
    rcases h with h | h
    · exact absurd (h.symm.trans hst) (by decide)
    · exact absurd (h.symm.trans hst) (by decide)
  · exact h

theorem Outlook.Cancelled.terminal (h : s.outlook.Cancelled) (hidle : ¬ s.InFlight) : s.status.isTerminal = true := by
  rcases h with h | ⟨hflight, -⟩
  · exact Status.isTerminal_of_aborted h
  · exact absurd hflight hidle

/-- No finished walk resumes a cancelled instance. -/
theorem Outlook.Cancelled.not_resumed (hs : Phase g s) (h : s.outlook.Cancelled) {cur : CompensationCursor}
    (hfin : Finishing trg s cur) (hres : (finishPlan s.settled cur).resume = true) :
    (finishPlan s.settled cur).consumePendingCancel = true ∧ s.pendingCancel = true := by
  have hadmin : cur.walkMode ≠ .admin := by
    intro hmode
    rw [finishPlan_admin s.settled hmode] at hres
    cases hres
  cases hfin with
  | walk hflight hans =>
    obtain ⟨hto, hpend⟩ := h.walk hs hflight
    have hroot : ¬ (s.compensating.resumeNode = "" ∧ s.compensating.reverseNode = "") := fun hr =>
      hadmin (walkMode_eq_admin.mpr ⟨hr.1, hto, hr.2⟩)
    refine ⟨?_, hpend.resolve_right hroot⟩
    by_cases hthrow : s.compensating.resumeNode = ""
    · have hrev : s.compensating.reverseNode ≠ "" := fun hr => hroot ⟨hthrow, hr⟩
      have hmode : s.compensating.walkMode = .reverse := by
        unfold CompensationCursor.walkMode
        simp [hthrow, hto, hrev]
      unfold finishPlan
      rw [hmode]
    · exact finishPlan_throw _ hthrow
  | idle o hidle hclear hasked hnone =>
    obtain ⟨hto, hrev⟩ := hasked.terminal (h.terminal hidle)
    exact absurd (walkMode_eq_admin.mpr ⟨rfl, hto, hrev⟩) hadmin

theorem Move.cancelled (hs : Phase g s) (h : s.outlook.Cancelled) (hmove : Move top g trg s s') : s'.outlook.Cancelled := by
  cases hmove.course hs with
  | steady he =>
    rw [he]
    exact h
  | goesOn hflight htrg he =>
    rw [he]
    exact Or.inr ⟨inFlight_nextCmdID g s, h.walk hs hflight⟩
  | cancelPended hflight hmode hev he =>
    rw [he]
    exact Or.inr ⟨hflight, (h.walk hs hflight).1, Or.inl rfl⟩
  | failurePended err hflight hfwd hev he =>
    rw [he]
    exact Or.inr ⟨hflight, (h.walk hs hflight).1, Or.inl rfl⟩
  | throws hidle hfwd aim he =>
    have hterm := h.terminal hidle
    rw [hfwd.live] at hterm
    cases hterm
  | begins hidle o hasked he =>
    obtain ⟨hto, hrev⟩ := hasked.terminal (h.terminal hidle)
    rw [he]
    exact Or.inr ⟨inFlight_nextCmdID g s, hto, Or.inr ⟨rfl, hrev⟩⟩
  | resumes cur hfin hres hpend he =>
    obtain ⟨hcons, hpending⟩ := h.not_resumed hs hfin hres
    rw [hpend hcons] at hpending
    cases hpending
  | overtaken cur hfin hcons hpend command hcmd he =>
    rw [he]
    exact Or.inr ⟨hcmd, rfl, Or.inr ⟨rfl, rfl⟩⟩

theorem End.cancelled (hs : Phase g s) (h : s.outlook.Cancelled) (hend : End trg s s')
    (hminds : ∀ e ∈ since s s', e.mindsCancel = true) (top : ProcessDefinition) : s'.outlook.Cancelled := by
  have hlate : ¬ s.InFlight → s.status.isTerminal = false → False := by
    intro hidle hlive
    have hterm := h.terminal hidle
    rw [hlive] at hterm
    cases hterm
  cases hend.ending top g with
  | complete hlive hidle htok he => exact (hlate hidle hlive).elim
  | idle st err hlive hidle hst he => exact (hlate hidle hlive).elim
  | childFailed err hlive htok hev he => exact Or.inl (Or.inr he.status)
  | forced outcome err hlive htok hev he =>
    cases outcome with
    | abort => exact Or.inl (Or.inl he.status)
    | complete =>
      -- a token is left, so the walk in flight is a throw's and the cancel pends
      have hin : s.InFlight := by
        by_contra hidle
        exact hlate hidle hlive
      obtain ⟨hto, hpend | hroot⟩ := h.walk hs hin
      · have hminds := hminds _ hev
        rw [hpend] at hminds
        cases hminds
      · exact absurd (hs.sealed (Or.inl ⟨hin, hroot.1, hto⟩)) htok
  | terminate cur hfin hmode he =>
    have hst := finalStatusOf_aborts (hfin.finalStatus hs)
    rw [← he.status] at hst
    exact Or.inl hst
  | abandon hflight hans hmode he =>
    have hst := finalStatusOf_aborts hs.finals.1
    rw [← he.status] at hst
    exact Or.inl hst
  | pending cur hfin hcons hpend he =>
    have hst := pendingOutcome_aborts hs.finals.2
    rw [← he.status] at hst
    exact Or.inl hst

/-- An accepted cancel holds at once. -/
theorem handleCancelRequested_cancelled {c : StepCtx} {drv : DriveLoop} {x : InstanceState}
    (hs : Phase c.ids x.toControlState) {r : StepResult} (h : handleCancelRequested drv c x = .ok r)
    (hminds : ∀ e ∈ since x.toControlState r.state.toControlState, e.mindsCancel = true) :
    r.state.toControlState.outlook.Cancelled := by
  unfold handleCancelRequested at h
  dsimp only at h
  split at h
  · rename_i hwalk
    rw [Bool.and_eq_true, beq_iff_eq, bne_iff_ne] at hwalk
    split at h
    · rw [← Except.ok.inj h] at hminds ⊢
      refine Or.inr ⟨hwalk.2, ?_, Or.inl rfl⟩
      exact beq_iff_eq.mp (hminds (.cancelPended x.compensating) (mem_since rfl))
    · rename_i hroot
      rw [Bool.or_eq_true, bne_iff_ne, bne_iff_ne, not_or, not_not, not_not] at hroot
      split at h
      · cases h
      · rename_i hends
        rw [← Except.ok.inj h]
        refine Or.inr ⟨hwalk.2, ?_, Or.inr hroot⟩
        -- a walk to a node that terminates is no walk to a node
        by_contra hto
        have hto : x.compensating.toNode ≠ "" := hto
        have hmode : x.compensating.walkMode = .partialWalk := by
          unfold CompensationCursor.walkMode
          simp [hroot.1, hto]
        unfold CompensationCursor.walkTerminates at hends
        rw [hmode] at hends
        exact hends rfl
  · rename_i hwalk
    have hidle : ¬ x.toControlState.InFlight := by
      intro hin
      refine hwalk ?_
      rw [Bool.and_eq_true, beq_iff_eq, bne_iff_ne]
      exact ⟨hs.status.mpr hin, hin⟩
    split at h
    · obtain ⟨r', h', rfl⟩ := map_prepend_ok h
      rw [StepResult.prepend_state]
      have hcur : x.toControlState.harvestOpenScopeCompensations.compensating = {} :=
        ((Phase.Keeps.archiveAll _ x.toControlState).idle hidle).trans (hs.idle hidle)
      rcases beginsOrEnds drv _ _ _ r' h' rfl hcur rfl rfl (Or.inl rfl) with ⟨rec, -, he⟩ | ⟨-, he⟩
      · rw [he]
        exact Or.inr ⟨inFlight_nextCmdID _ _, rfl, Or.inr ⟨rfl, rfl⟩⟩
      · rw [he]
        exact Or.inl (Or.inl (endControl_ended _ .terminated "cancelled"))
    · rw [← Except.ok.inj h, StepResult.prepend_state, InstanceState.endInstance_control]
      exact Or.inl (Or.inl (endControl_ended _ .terminated "cancelled"))

end Cancelled

/-- In every continuation that goes around no pending cancel, an accepted cancel stays in force. -/
theorem accepted_cancel_held {d : ProcessDefinition} {gen : Option IDGenerator} {inst : String} {calls : List Call}
    {x : InstanceState} (h : Run d gen inst calls x) (hlive : x.status.isTerminal = false) (call : Call)
    (hgen : call.opt.idGenerator = gen) (htrg : call.trigger.body = .cancelRequested) {r : StepResult}
    (hstep : step call.fuel d x call.trigger call.opt = .ok r) {later : List Call} {y : InstanceState}
    (hlater : Steps d gen r.state later y)
    (hminds : ∀ e ∈ since x.toControlState y.toControlState, e.mindsCancel = true) : CancelHeld y.toControlState := by
  have hx := h.sound
  have hr := hx.step hgen hstep
  rw [(Reaches.logs hx.wf (hx.reaches hgen hstep)).since_trans (hlater.logs hr)] at hminds
  -- the step that accepts it
  have haccepted : r.state.toControlState.outlook.Cancelled := by
    obtain ⟨r', h', rfl⟩ := step_dispatch hstep
    rw [dropStaleTokenCommands_control] at hminds ⊢
    unfold dispatch at h'
    rw [hlive, if_neg (by simp), htrg] at h'
    have hids : (stepCtx d x call.trigger call.opt).ids = runIDs gen inst := by
      unfold stepCtx StepOptions.ids runIDs
      rw [hgen, hx.instanceID]
    exact handleCancelRequested_cancelled (hids ▸ hx.wf.phase) h' (fun e he => hminds e (List.mem_append_right _ he))
  -- and the rest of the run
  have hheld := Steps.induction (I := fun s => s.outlook.Cancelled) (P := fun _ => True)
    (C := fun e => e.mindsCancel = true) hlater hr
    (fun _ _ => trivial) (fun e he => hminds e (List.mem_append_left _ he)) haccepted
    (fun hwf _ _ hI hmove => hmove.cancelled hwf.phase hI)
    (fun hwf _ hC hI hend => hend.cancelled hwf.phase hI hC d)
  exact CancelHeld.of_cancelled (hlater.sound hr).wf.phase hheld

/-! ## A throw beside a force-termination -/

/-- After an undoable task, a compensation throw on one branch and, on the other, a task and an end event that completes
the whole instance. -/
def throwBesideForcedEnd : ProcessDefinition where
  id := "forced"
  version := 1
  nodes := [startNode "s", serviceNode "t" "undo", forkNode "g",
    { id := "x", spec := .compensationThrowEvent {} },
    serviceNode "b" "", endNode "e1", { id := "e2", spec := .endEvent { behavior := .terminate } }]
  flows := [flowOf "f1" "s" "t", flowOf "f2" "t" "g", flowOf "f3" "g" "x", flowOf "f4" "g" "b", flowOf "f5" "x" "e1",
    flowOf "f6" "b" "e2"]

/-- The cancel of a throw's walk ends the instance once the walk is over. -/
theorem throw_cancel_held : ∃ x r y calls later, Run throwBesideForcedEnd none "i" calls x ∧
    step 50 throwBesideForcedEnd x ⟨3, .cancelRequested⟩ plainOptions = .ok r ∧
    Steps throwBesideForcedEnd none r.state later y ∧ later ≠ [] ∧ CancelHeld y.toControlState := by
  have hplay : playsThrough throwBesideForcedEnd [.startInstance [] "", .actionCompleted "i-c1" []] .cancelRequested
      [.actionCompleted "i-c2" []] (fun x _ y => !x.status.isTerminal &&
        (since x.toControlState y.toControlState).all (·.mindsCancel)) = true := by decide
  obtain ⟨x, r, y, hrun, hstep, hlater, hP⟩ := run_of_playsThrough hplay
  obtain ⟨hlive, hall⟩ := Bool.and_eq_true_iff.mp hP
  refine ⟨x, r, y, _, _, hrun, hstep, hlater, by simp [callsFrom], ?_⟩
  exact accepted_cancel_held hrun ((Bool.not_eq_true' _).mp hlive) ⟨50, ⟨3, .cancelRequested⟩, plainOptions⟩ rfl rfl hstep
    hlater (fun e he => List.all_eq_true.mp hall e he)

/-- Three tasks in a row, the first two undoable. -/
def undoableChain : ProcessDefinition := rowOf "chain" [serviceNode "a" "undoA", serviceNode "b" "undoB", serviceNode "c" ""]

/-- The triggers lead to a live instance that accepts a cancel, and then to one with this status. -/
def losesCancel (d : ProcessDefinition) (before after : List TriggerBody) (st : Status) : Bool :=
  playsThrough d before .cancelRequested after (fun x _ y => !x.status.isTerminal && y.status == st)

theorem cancel_lost {d : ProcessDefinition} {before after : List TriggerBody} {st : Status}
    (hst : st = .running ∨ st = .completed) (h : losesCancel d before after st = true) (n : Nat)
    (hn : before.length + 1 = n) :
    ∃ x r y calls later, Run d none "i" calls x ∧ x.status.isTerminal = false ∧
      step 50 d x ⟨n, .cancelRequested⟩ plainOptions = .ok r ∧ Steps d none r.state later y ∧ y.status = st ∧
      ¬ CancelHeld y.toControlState := by
  subst hn
  obtain ⟨x, r, y, hrun, hstep, hlater, hP⟩ := run_of_playsThrough h
  obtain ⟨hlive, hy⟩ := Bool.and_eq_true_iff.mp hP
  have hy : y.status = st := beq_iff_eq.mp hy
  refine ⟨x, r, y, _, _, hrun, (Bool.not_eq_true' _).mp hlive, hstep, hlater, hy, ?_⟩
  unfold CancelHeld
  rw [hy]
  rcases hst with rfl | rfl <;> simp

/-- A cancel was accepted, and a force-termination completes the instance; a cancel was accepted, and a rollback to a
node that names a reverse target too runs the instance again. -/
theorem accepted_cancel_lost : (Accepted asciiTables throwBesideForcedEnd ∧
    ∃ x r y calls later, Run throwBesideForcedEnd none "i" calls x ∧ x.status.isTerminal = false ∧
      step 50 throwBesideForcedEnd x ⟨3, .cancelRequested⟩ plainOptions = .ok r ∧
      Steps throwBesideForcedEnd none r.state later y ∧ y.status = .completed ∧ ¬ CancelHeld y.toControlState) ∧
    (Accepted asciiTables undoableChain ∧
    ∃ x r y calls later, Run undoableChain none "i" calls x ∧ x.status.isTerminal = false ∧
      step 50 undoableChain x ⟨5, .cancelRequested⟩ plainOptions = .ok r ∧
      Steps undoableChain none r.state later y ∧ y.status = .running ∧ ¬ CancelHeld y.toControlState) := by
  have hforced : losesCancel throwBesideForcedEnd [.startInstance [] "", .actionCompleted "i-c1" []]
      [.actionCompleted "i-c3" []] .completed = true := by decide
  have hresumed : losesCancel undoableChain [.startInstance [] "", .actionCompleted "i-c1" [], .actionCompleted "i-c2" [],
      .compensateRequested "a" "s" false false] [.actionCompleted "i-c4" []] .running = true := by decide
  exact ⟨⟨by decide, cancel_lost (Or.inr rfl) hforced 3 rfl⟩, by decide,
    cancel_lost (Or.inl rfl) hresumed 5 rfl⟩

end Wrkflw
