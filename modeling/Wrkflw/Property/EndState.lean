import Wrkflw.Machine.Loop
import Wrkflw.Property.Tasks

/-!
# The end of an instance

Every step that ends an instance releases what it waited for and reports the end once, by whatever handler it got there:
`Cleaned` is the state and the output of such a step, `step_cleans` the result. The tokens stay only where a failure ends
the instance at once, and only the walk of a plain rollback or an abandoned one ends it without a report.
-/

namespace Wrkflw

open ControlState

variable {at_ : Time}

/-! ## The output of the loop and of the handlers -/

/-- The instance goes on and nothing was reported, or it ended. -/
def Ended (at_ : Time) (r : StepResult) : Prop := (Able r.state.toControlState ∧ Mute r.commands) ∨ Closes at_ r

theorem Ended.prepend {r : StepResult} (h : Ended at_ r) {cmds : List Command} (hm : Mute cmds) :
    Ended at_ (r.prepend cmds) := by
  rcases h with ⟨hable, hmute⟩ | h
  · exact Or.inl ⟨hable, mute_append.mpr ⟨hm, hmute⟩⟩
  · exact Or.inr (h.prepend hm)

theorem Ended.loopRule (c : StepCtx) : LoopRule c (Ended c.at_) where
  prepend := fun hm h => h.prepend hm
  rests := fun hable _ _ => Or.inl ⟨hable, mute_nil⟩
  stops := fun _ _ hable hm => Or.inl ⟨hable, hm⟩
  empties := fun hable _ hm => Or.inl ⟨hable, hm⟩
  closes := Or.inr

/-- The instance is live and nothing was reported, or it ended. -/
def Reported (at_ : Time) (r : StepResult) : Prop :=
  (r.state.status.isTerminal = false ∧ Mute r.commands) ∨ Closes at_ r

section Handlers
variable {c : StepCtx} {drv : DriveLoop} {x : InstanceState} {r : StepResult}
  (hdrv : ∀ {y r}, Able y.toControlState → drv y = .ok r → Ended c.at_ r)

theorem Ended.reported (h : Ended at_ r) : Reported at_ r := by
  rcases h with ⟨hable, hm⟩ | h
  · exact Or.inl ⟨hable.live, hm⟩
  · exact Or.inr h

theorem Reported.prepend (h : Reported at_ r) {cmds : List Command} (hm : Mute cmds) :
    Reported at_ (r.prepend cmds) := by
  rcases h with ⟨hlive, hmute⟩ | h
  · exact Or.inl ⟨hlive, mute_append.mpr ⟨hm, hmute⟩⟩
  · exact Or.inr (h.prepend hm)

include hdrv

theorem Fires.reported (hlive : x.status.isTerminal = false) (h : Fires c drv x r) : Reported c.at_ r := by
  cases h with
  | still hstatus htok hscopes hmute =>
    refine Or.inl ⟨?_, hmute⟩
    rw [hstatus]
    exact hlive
  | runs h => exact ((Ended.loopRule c).runs hdrv h).reported

/-- The arms fire one after another; the one that ends the instance is the last. -/
theorem FiresAll.reported (hlive : x.status.isTerminal = false) (h : FiresAll c drv x r) : Reported c.at_ r := by
  induction h with
  | nil x => exact Or.inl ⟨hlive, mute_nil⟩
  | @cons x r1 r2 _ h1 h2 ih =>
    rcases h1.reported hdrv hlive with ⟨hlive1, hm⟩ | hcloses
    · exact (ih hlive1).prepend hm
    · cases h2 with
      | nil =>
        refine Or.inr ?_
        have heq : (⟨r1.state, []⟩ : StepResult).prepend r1.commands = r1 := by
          change (⟨r1.state, r1.commands ++ []⟩ : StepResult) = r1
          rw [List.append_nil]
        rw [heq]
        exact hcloses
      | cons hlive1 _ _ =>
        rw [hcloses.ended] at hlive1
        cases hlive1

theorem Goes.reported (hlive : x.status.isTerminal = false) (h : Goes c drv x r) : Reported c.at_ r := by
  cases h with
  | fires h => exact h.reported hdrv hlive
  | calms id f hf hstatus htok hscopes hmute =>
    refine Or.inl ⟨?_, hmute⟩
    rw [hstatus]
    exact hlive

end Handlers

/-! ## The filter of stale commands -/

/-- The filter takes no report away, and with no task open it leaves the state alone. -/
theorem dropStaleCommand_reports (live : List String) (s : InstanceState) (cmd : Command) :
    (dropStaleCommand live s cmd).commands.filter Command.ends = [cmd].filter Command.ends ∧
      ((∀ t ∈ s.tasks, t.isOpen = false) → (dropStaleCommand live s cmd).state = s) := by
  unfold dropStaleCommand
  split
  · exact ⟨rfl, fun _ => rfl⟩
  · rename_i hstale
    rw [Bool.or_eq_true, beq_iff_eq, not_or] at hstale
    have hmute : [cmd].filter Command.ends = [] := by
      cases cmd <;> first | rfl | exact absurd rfl hstale.1
    rw [hmute]
    split
    · split
      · rename_i task hfind
        split
        · rename_i hopen
          refine ⟨rfl, fun hclosed => ?_⟩
          rw [hclosed task (List.mem_of_find?_eq_some (taskByID_some hfind).2)] at hopen
          cases hopen
        · exact ⟨rfl, fun _ => rfl⟩
      · exact ⟨rfl, fun _ => rfl⟩
    · exact ⟨rfl, fun _ => rfl⟩

theorem dropStaleCommands_reports (live : List String) (cmds : List Command) (s : InstanceState) :
    (dropStaleCommands live cmds s).commands.filter Command.ends = cmds.filter Command.ends ∧
      ((∀ t ∈ s.tasks, t.isOpen = false) → (dropStaleCommands live cmds s).state = s) := by
  induction cmds generalizing s with
  | nil => exact ⟨rfl, fun _ => rfl⟩
  | cons cmd cmds ih =>
    obtain ⟨hone, hkept⟩ := dropStaleCommand_reports live s cmd
    obtain ⟨hrest, hrestKept⟩ := ih (dropStaleCommand live s cmd).state
    refine ⟨?_, fun hclosed => ?_⟩
    · change ((dropStaleCommand live s cmd).commands ++ _).filter Command.ends = ([cmd] ++ cmds).filter Command.ends
      rw [List.filter_append, List.filter_append, hone, hrest]
    · have hsame := hkept hclosed
      have hthen := hrestKept (by rw [hsame]; exact hclosed)
      exact hthen.trans hsame

theorem dropStaleTokenCommands_reports (r : StepResult) :
    (dropStaleTokenCommands r).commands.filter Command.ends = r.commands.filter Command.ends ∧
      ((∀ t ∈ r.state.tasks, t.isOpen = false) → (dropStaleTokenCommands r).state = r.state) := by
  unfold dropStaleTokenCommands
  split
  · exact ⟨rfl, fun _ => rfl⟩
  · exact dropStaleCommands_reports _ _ _

theorem Closes.filtered {r : StepResult} (h : Closes at_ r) : Closes at_ (dropStaleTokenCommands r) := by
  obtain ⟨hcmds, hkept⟩ := dropStaleTokenCommands_reports r
  have hsame := hkept h.swept.tasks
  obtain ⟨terminal, cur, hrep, hends, htr⟩ := h.report
  refine ⟨?_, ?_, ?_, terminal, cur, hcmds.trans hrep, ?_, ?_⟩
  · rw [hsame]
    exact h.swept
  · rw [hsame]
    exact h.tokens
  · rw [hsame]
    exact h.ended
  · rw [hsame]
    exact hends
  · rw [hsame]
    exact htr

/-! ## Runs -/

variable {d : ProcessDefinition} {gen : Option IDGenerator} {inst : String} {calls : List Call} {x : InstanceState}
  {call : Call} {r : StepResult}

/-- A step that ends a live instance returns what closing it returns. -/
theorem step_closes (hx : Steps.Sound gen inst x) (hgen : call.opt.idGenerator = gen)
    (hstep : step call.fuel d x call.trigger call.opt = .ok r) (hlive : x.status.isTerminal = false)
    (hended : r.state.status.isTerminal = true) : Closes call.trigger.occurredAt r := by
  obtain ⟨r', h', rfl⟩ := step_dispatch hstep
  have hids : (stepCtx d x call.trigger call.opt).ids = runIDs gen inst := by
    unfold stepCtx StepOptions.ids runIDs
    rw [hgen, hx.instanceID]
  have hloop : ∀ {y r}, Able y.toControlState → drive (stepCtx d x call.trigger call.opt) call.fuel y = .ok r →
      Ended call.trigger.occurredAt r := fun hable h => (Ended.loopRule _).drive call.fuel hable h
  have hpaths : Drives (stepCtx d x call.trigger call.opt) call.trigger.body
      (drive (stepCtx d x call.trigger call.opt) call.fuel) := drive_drives call.fuel
  unfold dispatch at h'
  rw [if_neg (by rw [hlive]; decide)] at h'
  have hgoes := handle_goes hpaths (hids ▸ hx.wf) hlive h'
  have hreported : Reported call.trigger.occurredAt r' := by
    rcases hgoes with hgoes | hall
    · exact hgoes.reported hloop hlive
    · exact hall.reported hloop hlive
  rcases hreported with ⟨hlive', -⟩ | hcloses
  · rw [dropStaleTokenCommands_control, hlive'] at hended
    cases hended
  · exact hcloses.filtered

/-- The output of a step that ended the instance. -/
structure Cleaned (at_ : Time) (r : StepResult) : Prop where
  /-- No task is open, no timer is recorded, no arm is left, and the end has its time. -/
  swept : Swept at_ r.state
  scopes : r.state.scopes = []
  cursor : r.state.compensating = {}
  /-- Only a failure leaves tokens. -/
  tokens : r.state.status = .failed ∨ r.state.tokens = []
  completed : r.state.status = .completed → r.commands.filter Command.ends = [.completeInstance r.state.vars]
  /-- The error the instance ended with is reported; without one there may be no report. -/
  aborted : r.state.status ≠ .completed → ∃ err cur, r.state.trace.head? = some (.ended r.state.status err cur) ∧
    (r.commands.filter Command.ends = [.failInstance err] ∨ (err = "" ∧ r.commands.filter Command.ends = []))

theorem Closes.cleaned (h : Closes at_ r) {g : IDGenerator} (hs : Phase g r.state.toControlState) : Cleaned at_ r := by
  have hidle : ¬ r.state.toControlState.InFlight := by
    intro hflight
    have hended := h.ended
    rw [hs.status.mpr hflight] at hended
    cases hended
  obtain ⟨terminal, cur, hcmds, hrep, htr⟩ := h.report
  refine ⟨h.swept, hs.ended h.ended, hs.idle hidle, h.tokens, fun hdone => ?_, fun hno => ?_⟩
  · rw [hcmds]
    rcases terminal with _ | cmd
    · rcases hrep with he | he
      · exact absurd (he.symm.trans hdone) (by decide)
      · exact absurd (he.symm.trans hdone) (by decide)
    · cases cmd with
      | completeInstance result => rw [hrep.2]; rfl
      | failInstance err =>
        rcases hrep with he | he
        · exact absurd (he.symm.trans hdone) (by decide)
        · exact absurd (he.symm.trans hdone) (by decide)
      | _ => exact hrep.elim
  · refine ⟨_, cur, htr, ?_⟩
    rw [hcmds]
    rcases terminal with _ | cmd
    · exact Or.inr ⟨rfl, rfl⟩
    · cases cmd with
      | completeInstance result => exact absurd hrep.1 hno
      | failInstance err => exact Or.inl rfl
      | _ => exact hrep.elim

/-- Every step that ends the instance cleans up and reports it; under a walk that ends the instance no token is left. -/
theorem step_cleans (hrun : Run d gen inst calls x) (hgen : call.opt.idGenerator = gen)
    (hstep : step call.fuel d x call.trigger call.opt = .ok r) (hlive : x.status.isTerminal = false)
    (hended : r.state.status.isTerminal = true) : Cleaned call.trigger.occurredAt r ∧
      (x.status = .compensating → x.compensating.walkMode = .admin → r.state.tokens = []) := by
  have hx := hrun.sound
  have hr := hx.step hgen hstep
  refine ⟨(step_closes hx hgen hstep hlive hended).cleaned hr.wf.phase, fun hst hmode => ?_⟩
  have hflight := hx.wf.phase.status.mp hst
  have hdead : x.toControlState.outlook.Dead := Or.inr ⟨hflight, walkMode_eq_admin.mp hmode⟩
  have hshrinks : Names.Shrinks x.toControlState r.state.toControlState :=
    (dead_stays hx hdead (Steps.tail Steps.refl call r hgen hstep)).1
  have htok := hshrinks.tokens
  rw [hdead.tokens hx.wf.phase hflight] at htok
  exact List.map_eq_nil_iff.mp (List.sublist_nil.mp htok)

/-- The cancelled chain undoes what it did and ends, with the one report. -/
theorem cancelled_chain_cleans : ∃ (x : InstanceState) (r : StepResult) (calls : List Call),
    Run undoableChain none "i" calls x ∧ step 50 undoableChain x ⟨4, .actionCompleted "i-c3" []⟩ plainOptions = .ok r ∧
    x.status = .compensating ∧ r.state.status = .terminated ∧ Cleaned 4 r ∧ r.state.tokens = [] ∧
    r.commands.filter Command.ends = [.failInstance "cancelled"] := by
  have hplay : playsThrough undoableChain [.startInstance [] "", .actionCompleted "i-c1" [], .cancelRequested]
      (.actionCompleted "i-c3" []) []
      (fun x r _ => x.status == .compensating && x.compensating.walkMode == .admin && r.state.status == .terminated &&
        r.commands.filter Command.ends == [.failInstance "cancelled"]) = true := by decide
  obtain ⟨x, r, y, hrun, hstep, -, hP⟩ := run_of_playsThrough hplay
  simp only [Bool.and_eq_true, beq_iff_eq] at hP
  obtain ⟨⟨⟨hwalks, hmode⟩, hended⟩, hreport⟩ := hP
  have hlive : x.status.isTerminal = false := by
    rw [hwalks]
    rfl
  have hterm : r.state.status.isTerminal = true := by
    rw [hended]
    rfl
  let call : Call := ⟨50, ⟨4, .actionCompleted "i-c3" []⟩, plainOptions⟩
  have hgen : call.opt.idGenerator = none := rfl
  obtain ⟨hclean, htok⟩ := step_cleans hrun hgen hstep hlive hterm
  exact ⟨x, r, _, hrun, hstep, hwalks, hended, hclean, htok hwalks hmode, hreport⟩

/-- After an undoable task, two compensation throws and, beside them, a task and an end event that completes the whole
instance. -/
def throwsBesideForcedEnd : ProcessDefinition where
  id := "twice"
  version := 1
  nodes := [startNode "s", serviceNode "t" "undo", forkNode "g",
    { id := "x", spec := .compensationThrowEvent {} },
    { id := "y", spec := .compensationThrowEvent {} }, serviceNode "b" "", endNode "e1",
    { id := "e2", spec := .endEvent { behavior := .terminate } }]
  flows := [flowOf "f1" "s" "t", flowOf "f2" "t" "g", flowOf "f3" "g" "x", flowOf "f4" "g" "y", flowOf "f5" "g" "b",
    flowOf "f6" "x" "e1", flowOf "f7" "y" "e1", flowOf "f8" "b" "e2"]

/-- A step of the live instance, reached by these triggers, ends it with this status and this property. -/
def endsWith (d : ProcessDefinition) (before : List TriggerBody) (trg : TriggerBody) (st : Status) (P : StepResult → Bool) :
    Bool :=
  playsThrough d before trg [] (fun x r _ => !x.status.isTerminal && r.state.status == st && P r)

theorem run_of_endsWith {d : ProcessDefinition} {before : List TriggerBody} {trg : TriggerBody} {st : Status}
    {P : StepResult → Bool} (h : endsWith d before trg st P = true) (n : Nat) (hn : before.length + 1 = n) :
    ∃ x r calls, Run d none "i" calls x ∧ x.status.isTerminal = false ∧ step 50 d x ⟨n, trg⟩ plainOptions = .ok r ∧
      r.state.status = st ∧ P r = true := by
  subst hn
  obtain ⟨x, r, y, hrun, hstep, -, hP⟩ := run_of_playsThrough h
  simp only [Bool.and_eq_true, Bool.not_eq_true', beq_iff_eq] at hP
  exact ⟨x, r, _, hrun, hP.1.1, hstep, hP.1.2, hP.2⟩

/-- A failure that nothing catches leaves the token of the task beside it; a rollback with nothing to undo ends the
instance without a report; a force-termination under a throw's walk leaves the pending cancel and the deferred throw. -/
theorem ends_uncleaned :
    (Accepted asciiTables failsBesideApproval ∧ ∃ x r calls, Run failsBesideApproval none "i" calls x ∧
      x.status.isTerminal = false ∧ step 50 failsBesideApproval x ⟨1, .startInstance [] ""⟩ plainOptions = .ok r ∧
      r.state.status = .failed ∧ (!r.state.tokens.isEmpty) = true) ∧
    (Accepted asciiTables approvesBeside ∧ ∃ x r calls, Run approvesBeside none "i" calls x ∧
      x.status.isTerminal = false ∧
      step 50 approvesBeside x ⟨2, .compensateRequested "" "" false false⟩ plainOptions = .ok r ∧
      r.state.status = .terminated ∧ (r.commands.filter Command.ends == []) = true) ∧
    (Accepted asciiTables throwsBesideForcedEnd ∧ ∃ x r calls, Run throwsBesideForcedEnd none "i" calls x ∧
      x.status.isTerminal = false ∧ step 50 throwsBesideForcedEnd x ⟨4, .actionCompleted "i-c3" []⟩ plainOptions = .ok r ∧
      r.state.status = .completed ∧ (r.state.pendingCancel && !r.state.deferredCompensationThrows.isEmpty) = true) := by
  have hfails : endsWith failsBesideApproval [] (.startInstance [] "") .failed (fun r => !r.state.tokens.isEmpty) = true := by
    decide
  have hsilent : endsWith approvesBeside [.startInstance [] ""] (.compensateRequested "" "" false false) .terminated
      (fun r => r.commands.filter Command.ends == []) = true := by decide
  have hforced : endsWith throwsBesideForcedEnd [.startInstance [] "", .actionCompleted "i-c1" [], .cancelRequested]
      (.actionCompleted "i-c3" []) .completed
      (fun r => r.state.pendingCancel && !r.state.deferredCompensationThrows.isEmpty) = true := by decide
  exact ⟨⟨by decide, run_of_endsWith hfails 1 rfl⟩, ⟨by decide, run_of_endsWith hsilent 2 rfl⟩,
    by decide, run_of_endsWith hforced 4 rfl⟩

end Wrkflw
