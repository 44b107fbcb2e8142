import Wrkflw.Machine.Course

/-!
# Ending the instance

* `Mute` : commands none of which reports the end of the instance;
* `Able` : the live states a walk may begin in; every operation but the end of the instance keeps it;
* `Closes` : the result of `endInstance`: nothing is left to wait for and the end is reported.
-/

namespace Wrkflw

open ControlState

variable {cmds : List Command} {c : StepCtx} {d : ProcessDefinition} {s' : ControlState}

/-! ## Commands -/

/-- The command reports the end of the instance. -/
def Command.ends : Command → Bool
  | .completeInstance _ | .failInstance _ => true
  | _ => false

/-- No command of the list reports the end of the instance. -/
def Mute (cmds : List Command) : Prop := ∀ cmd ∈ cmds, cmd.ends = false

section Mute

@[simp] theorem mute_nil : Mute [] := by simp [Mute]

@[simp] theorem mute_cons {cmd : Command} : Mute (cmd :: cmds) ↔ cmd.ends = false ∧ Mute cmds := by
  simp [Mute]

@[simp] theorem mute_append {cmds' : List Command} : Mute (cmds ++ cmds') ↔ Mute cmds ∧ Mute cmds' := by
  simp [Mute, or_imp, forall_and]

@[simp] theorem mute_prepend {r : StepResult} :
    Mute (r.prepend cmds).commands ↔ Mute cmds ∧ Mute r.commands := mute_append

theorem Mute.filter (h : Mute cmds) (p : Command → Bool) : Mute (cmds.filter p) :=
  fun cmd hmem => h cmd (List.mem_of_mem_filter hmem)

/-- The mute commands report nothing. -/
theorem Mute.reports (h : Mute cmds) : cmds.filter Command.ends = [] := by
  rw [List.filter_eq_nil_iff]
  intro cmd hmem
  simp [h cmd hmem]

theorem mute_map {α : Type} {f : α → Command} (hf : ∀ a, (f a).ends = false) (l : List α) : Mute (l.map f) := by
  intro cmd hmem
  obtain ⟨a, -, rfl⟩ := List.mem_map.mp hmem
  exact hf a

@[simp] theorem mute_cancelTimers (ids : List String) : Mute (cancelTimers ids) := mute_map (fun _ => rfl) ids

variable (s : InstanceState)

@[simp] theorem mute_cancelTimersWhere (key excl : String) (keyOf : TimerRecord → String) :
    Mute (s.cancelTimersWhere key excl keyOf).commands := by
  unfold InstanceState.cancelTimersWhere
  split <;> simp

@[simp] theorem mute_cancelTimersByTaskID (id excl : String) : Mute (s.cancelTimersByTaskID id excl).commands :=
  mute_cancelTimersWhere s _ _ _

@[simp] theorem mute_cancelTimersForToken (id excl : String) : Mute (s.cancelTimersForToken id excl).commands :=
  mute_cancelTimersWhere s _ _ _

@[simp] theorem mute_cancelAllTimers : Mute s.cancelAllTimers.commands := mute_cancelTimers _

@[simp] theorem mute_removeArmedEventsForGateway (id : String) : Mute (s.removeArmedEventsForGateway id).commands := by
  unfold InstanceState.removeArmedEventsForGateway
  split <;> simp

@[simp] theorem mute_removeBoundaryArmsForHost (id : String) : Mute (s.removeBoundaryArmsForHost id).commands := by
  unfold InstanceState.removeBoundaryArmsForHost
  split <;> simp

@[simp] theorem mute_removeEventTriggeredSubprocessArmsForScope (id : String) :
    Mute (s.removeEventTriggeredSubprocessArmsForScope id).commands := mute_cancelTimers _

@[simp] theorem mute_cancelAllArmsAndBoundaries : Mute s.cancelAllArmsAndBoundaries.commands := by
  simp [InstanceState.cancelAllArmsAndBoundaries]

@[simp] theorem mute_cancelAllScheduledWork : Mute s.cancelAllScheduledWork.commands := by
  simp [InstanceState.cancelAllScheduledWork, InstanceState.removeAllEventTriggeredSubprocessArms]

@[simp] theorem mute_cancelOpenTasks : Mute s.cancelOpenTasks.commands := mute_map (fun _ => rfl) _

@[simp] theorem mute_emitFireOnceAction (g : IDGenerator) (name : String) : Mute (emitFireOnceAction g s name).commands := by
  unfold emitFireOnceAction
  split <;> simp [Command.ends]

@[simp] theorem mute_cancelTokenWaits (tok : Token) (at_ : Time) (kind : CloseKind) :
    Mute (cancelTokenWaits s tok at_ kind).commands := by
  unfold cancelTokenWaits
  dsimp only
  refine mute_append.mpr ⟨mute_append.mpr ⟨by simp, ?_⟩, ?_⟩
  · split <;> simp
  · split
    · split <;> simp [Command.ends]
    · simp

@[simp] theorem mute_cancelTokens (at_ : Time) (kind : CloseKind) (toks : List Token) :
    Mute (cancelTokens at_ kind toks s).commands := by
  induction toks generalizing s with
  | nil => exact mute_nil
  | cons tok toks ih => exact mute_append.mpr ⟨mute_cancelTokenWaits s tok at_ kind, ih _⟩

@[simp] theorem mute_teardownScopes (ids : List String) : Mute (teardownScopes ids s).commands := by
  induction ids generalizing s with
  | nil => exact mute_nil
  | cons id ids ih => exact mute_append.mpr ⟨mute_removeEventTriggeredSubprocessArmsForScope s id, ih _⟩

@[simp] theorem mute_cancelScopeSubtree (id : String) (at_ : Time) (kind : CloseKind) :
    Mute (cancelScopeSubtree s id at_ kind).commands := by
  simp [cancelScopeSubtree]

@[simp] theorem mute_cancelCompensationWalkTimers : Mute (cancelCompensationWalkTimers s).commands := mute_cancelTimers _

@[simp] theorem mute_afterDispatch (c : StepCtx) (rec : CompensationRecord) (cmdID : String) :
    Mute (afterDispatch c s rec cmdID).commands := by
  unfold afterDispatch armCompensationStallTimer
  dsimp only
  split <;> simp [compensationInvoke, Command.ends, scheduleWalkTimer]

@[simp] theorem mute_clearForWalk (c : StepCtx) (kind : CloseKind) : Mute (clearForWalk c s kind).commands := by
  simp [clearForWalk]

theorem mute_armMatch (g : IDGenerator) (owner : String) (choice : ArmChoice) :
    Mute (armMatch g s owner choice).2.2 := by
  cases choice <;> simp [armMatch, Command.ends]

theorem mute_forEach {α : Type} {f : InstanceState → α → EngineResult}
    (hf : ∀ s a r, f s a = .ok r → Mute r.commands) :
    ∀ {l : List α} {s : InstanceState} {r : StepResult}, forEach f l s = .ok r → Mute r.commands := by
  intro l
  induction l with
  | nil =>
    intro s r h
    rw [← Except.ok.inj h]
    exact mute_nil
  | cons a l ih =>
    intro s r h
    obtain ⟨r1, h1, h⟩ := bind_ok h
    obtain ⟨r2, h2, h⟩ := bind_ok h
    rw [← Except.ok.inj h]
    exact mute_append.mpr ⟨hf s a r1 h1, ih h2⟩

theorem mute_armBoundaries {s : InstanceState} {host node : String} {r : StepResult}
    (h : armBoundaries c d s host node = .ok r) : Mute r.commands := by
  refine mute_forEach (fun s n r h => ?_) h
  unfold armBoundary at h
  split at h
  · split at h
    · rw [← Except.ok.inj h]
      exact mute_nil
    · obtain ⟨choice, -, h⟩ := bind_ok h
      rw [← Except.ok.inj h]
      exact mute_armMatch s c.ids host choice
  · rw [← Except.ok.inj h]
    exact mute_nil

theorem mute_armEventTriggeredSubprocesses {s : InstanceState} {scope : String}
    {r : StepResult} (h : armEventTriggeredSubprocesses c d s scope = .ok r) : Mute r.commands := by
  refine mute_forEach (fun s n r h => ?_) h
  unfold armEventTriggeredSubprocess at h
  split at h
  · rw [← Except.ok.inj h]
    exact mute_nil
  · obtain ⟨choice, -, h⟩ := bind_ok h
    rw [← Except.ok.inj h]
    exact mute_armMatch s c.ids "" choice

theorem mute_armWaitReminder {s : InstanceState} {tok : Token} {node : Node} {key : String} {r : StepResult}
    (h : armWaitReminder c s tok node key = .ok r) : Mute r.commands := by
  obtain ⟨spec, -, h⟩ := bind_ok h
  split at h
  · rw [← Except.ok.inj h]
    exact mute_nil
  · rw [← Except.ok.inj h]
    simp [scheduleRecorded, Command.ends]

theorem mute_emitActionInvoke {s : InstanceState} {tok : Token} {node : Node}
    {r : StepResult} (h : emitActionInvoke c d s tok node = .ok r) : Mute r.commands := by
  obtain ⟨r1, h1, h⟩ := bind_ok h
  rw [← Except.ok.inj h]
  exact mute_prepend.mpr ⟨by simp [Command.ends], mute_armBoundaries h1⟩

theorem mute_rearmRoot {plan : FinishPlan} {s : InstanceState} {r : StepResult}
    (h : rearmRoot c plan s = .ok r) : Mute r.commands := by
  unfold rearmRoot at h
  split at h
  · rw [← Except.ok.inj h]
    exact mute_nil
  · obtain ⟨r', h', rfl⟩ := map_prepend_ok h
    exact mute_prepend.mpr ⟨by simp, mute_armEventTriggeredSubprocesses h'⟩

end Mute

/-! ## States the loop may run on -/

/-- What a walk relies on: the tokens have names and the outcomes are those of an abort. -/
structure Fit (s : ControlState) : Prop where
  named : ∀ t ∈ s.tokens, t.id ≠ ""
  final : s.compensating.finalStatus.Aborts
  pending : s.pendingFinalStatus.Aborts

/-- A live instance a walk may begin in. -/
structure Able (s : ControlState) : Prop extends Fit s where
  live : s.status.isTerminal = false

theorem Wf.fit {g : IDGenerator} {s : ControlState} (h : Wf g s) : Fit s :=
  ⟨fun _ ht => h.names.tokens.ne_empty ht, h.phase.finals.1, h.phase.finals.2⟩

theorem Fit.of_outline {s : ControlState} (h : Fit s) (ho : s'.outline = s.outline) : Fit s' := by
  have hsame := sameOutline ho
  have hfinal : s'.compensating.bare.finalStatus = s.compensating.bare.finalStatus := by rw [hsame.compensating]
  refine ⟨?_, ?_, ?_⟩
  · rw [hsame.tokens]
    exact h.named
  · exact hfinal ▸ h.final
  · rw [hsame.pendingFinalStatus]
    exact h.pending

theorem Fit.cancelled {s : ControlState} (h : Fit s) (at_ : Time) (kind : CloseKind) :
    (s.cancelListed at_ kind s.tokens).tokens = [] := by
  refine List.eq_nil_iff_forall_not_mem.mpr (fun t ht => ?_)
  obtain ⟨hmem, hno⟩ := mem_cancelListed at_ kind h.named ht
  exact hno t hmem rfl

namespace Able
variable {s : ControlState} (h : Able s)
include h

theorem of_named (hn : ∀ t ∈ s'.tokens, t.id ≠ "") (hout : s'.outlook = s.outlook) : Able s' := by
  have hfinal : s'.compensating.finalStatus = s.compensating.finalStatus :=
    congrArg (fun o : Outlook => o.aim.finalStatus) hout
  have hpend : s'.pendingFinalStatus = s.pendingFinalStatus := congrArg Outlook.pendingFinalStatus hout
  have hstatus : s'.status = s.status := congrArg Outlook.status hout
  refine ⟨⟨hn, ?_, ?_⟩, ?_⟩
  · rw [hfinal]
    exact h.final
  · rw [hpend]
    exact h.pending
  · rw [hstatus]
    exact h.live

theorem of_same (ht : s'.tokens = s.tokens) (hout : s'.outlook = s.outlook) : Able s' := by
  refine h.of_named ?_ hout
  rw [ht]
  exact h.named

theorem of_outline (ho : s'.outline = s.outline) : Able s' :=
  h.of_same (sameOutline ho).tokens (outlook_of_outline ho)

/-- Tokens only leave. -/
theorem of_shrinks (hs : Names.Shrinks s s') (hout : s'.outlook = s.outlook) : Able s' := by
  refine h.of_named (fun t ht => ?_) hout
  obtain ⟨t', ht', hid⟩ := List.mem_map.mp (hs.tokens.subset (List.mem_map_of_mem ht))
  have hid' : t'.id = t.id := congrArg Prod.fst hid
  rw [← hid']
  exact h.named t' ht'

theorem note (e : Event) : Able (s.note e) := h.of_same rfl rfl

theorem mint : Able s.mintCommand := h.of_same rfl rfl

theorem updateOpenVisit (tokenID nodeID : String) (f : NodeVisit → NodeVisit) :
    Able (s.updateOpenVisit tokenID nodeID f) := by
  obtain ⟨v, -, he⟩ := s.updateOpenVisit_shape tokenID nodeID f
  rw [he]
  exact h.of_same rfl rfl

theorem updateToken (id : String) (f : Token → Token) (hid : ∀ t, (f t).id = t.id) : Able (s.updateToken id f) := by
  refine h.of_named (fun t ht => ?_) rfl
  obtain ⟨t', ht', rfl⟩ := List.mem_map.mp ht
  split
  · rw [hid]
    exact h.named t' ht'
  · exact h.named t' ht'

theorem setTokenState (id : String) (st : TokenState) : Able (s.setTokenState id st) := h.updateToken id _ (fun _ => rfl)

theorem awaitCommand (id cmdID : String) : Able (s.awaitCommand id cmdID) := h.updateToken id _ (fun _ => rfl)

theorem place (g : IDGenerator) (node scope flow : String) (at_ : Time) :
    Able (s.placeTokenInScope g node scope flow at_) := by
  refine h.of_named (fun t ht => ?_) rfl
  rcases List.mem_append.mp (show t ∈ s.tokens ++ [_] from ht) with ht | ht
  · exact h.named t ht
  · rw [List.mem_singleton.mp ht]
    exact g.newID_ne_empty _ _

theorem relocate (tok : Token) (target flow : String) (at_ : Time) : Able (s.relocate tok target flow at_) :=
  (h.updateToken tok.id (fun t => { t with nodeID := target, enteredAt := at_, arrivalFlow := flow })
    (fun _ => rfl)).of_same rfl rfl

theorem moveTokenToTargetAs (tok : Token) (target flow : String) (at_ : Time) (kind : CloseKind) :
    Able (s.moveTokenToTargetAs tok target flow at_ kind) :=
  ((h.updateOpenVisit tok.id tok.nodeID _).setTokenState tok.id .active).relocate tok target flow at_

theorem consumeTokenAs (tok : Token) (at_ : Time) (kind : CloseKind) : Able (s.consumeTokenAs tok at_ kind) := by
  have hclosed := h.updateOpenVisit tok.id tok.nodeID (fun v => { v with leftAt := some at_, closeKind := kind })
  exact hclosed.of_shrinks (Names.Shrinks.removeToken _ tok.id) (outlook_removeToken _ tok.id)

theorem cancelToken (tok : Token) (at_ : Time) (kind : CloseKind) : Able (s.cancelToken tok at_ kind) :=
  h.of_shrinks (Names.Shrinks.cancelToken s tok at_ kind) (s.outlook_cancelToken tok at_ kind)

theorem cancelListed (at_ : Time) (kind : CloseKind) (toks : List Token) : Able (s.cancelListed at_ kind toks) :=
  h.of_shrinks (Names.Shrinks.cancelListed at_ kind toks s) (outlook_cancelListed at_ kind toks s)

theorem closeScope (id : String) : Able (s.closeScope id) :=
  h.of_shrinks (Names.Shrinks.closeScope s id) (s.outlook_closeScope id)

theorem recordCompensation (scope : String) (rec : CompensationRecord) : Able (s.recordCompensation scope rec) :=
  h.of_same (recordCompensation_tokens s scope rec) (s.outlook_recordCompensation scope rec)

theorem exitScope (id : String) (enclosing : Bool) : Able (s.exitScope id enclosing) :=
  ((h.note _).of_outline (archiveCompensations_outline _ id)).closeScope id

theorem placeOnFlows (g : IDGenerator) (scope : String) (at_ : Time) (fs : List FlowRef) :
    Able (placeOnFlows g scope at_ fs s) := by
  induction fs generalizing s with
  | nil => exact h
  | cons f fs ih => exact ih (h.place g f.flow.target scope f.identity at_)

theorem fireJoin (g : IDGenerator) (d : ProcessDefinition) (node scope : String) (at_ : Time) (consumed : List Token) :
    Able (fireJoin g d s node scope at_ consumed) := by
  obtain ⟨v, -, he⟩ := closeVisits_shape at_ consumed s
  unfold Wrkflw.fireJoin
  rw [he]
  refine Able.placeOnFlows ?_ g scope at_ _
  exact h.of_named (fun t ht => h.named t (List.mem_of_mem_filter ht)) rfl

theorem tryJoin {g : IDGenerator} {node : Node} {scope : String} {at_ : Time}
    (hjoin : tryJoin g d s node scope at_ = some s') : Able s' := by
  unfold Wrkflw.tryJoin at hjoin
  split at hjoin
  · unfold tryParallelJoin at hjoin
    split at hjoin
    · cases hjoin
    · rw [← Option.some.inj hjoin]
      exact (h.note _).fireJoin g d _ _ at_ _
  · unfold tryInclusiveJoin at hjoin
    dsimp only at hjoin
    split at hjoin
    · cases hjoin
    · split at hjoin
      · cases hjoin
      · rw [← Option.some.inj hjoin]
        exact (h.note _).fireJoin g d _ _ at_ _
  · cases hjoin

theorem retryParked {g : IDGenerator} {top : ProcessDefinition} {at_ : Time} {toks : List Token}
    (hjoin : retryParked g top s at_ toks = some s') : Able s' := by
  induction toks with
  | nil => cases hjoin
  | cons tok toks ih =>
    unfold Wrkflw.retryParked at hjoin
    split at hjoin
    · exact ih hjoin
    · split at hjoin
      · exact ih hjoin
      · split at hjoin
        · exact ih hjoin
        · split at hjoin
          · exact ih hjoin
          · split at hjoin
            · rename_i s1 htry
              rw [← Option.some.inj hjoin]
              exact h.tryJoin htry
            · exact ih hjoin

end Able

section Operations
variable {x : InstanceState} (h : Able x.toControlState)
include h

theorem Able.of_control {y : InstanceState} (hctl : y.toControlState = x.toControlState) : Able y.toControlState := by
  rw [hctl]
  exact h

theorem Able.fireOnce (g : IDGenerator) (name : String) : Able (emitFireOnceAction g x name).state.toControlState := by
  rcases emitFireOnceAction_control g x name with he | he
  · exact h.of_control he
  · rw [he]
    exact h.mint

theorem Able.cancelScopeSubtree (id : String) (at_ : Time) (kind : CloseKind) :
    Able (cancelScopeSubtree x id at_ kind).state.toControlState := by
  obtain ⟨toks, he⟩ := cancelScopeSubtree_control x id at_ kind
  rw [he]
  exact (h.cancelListed at_ kind toks).of_outline (archiveAll_outline _ _)

theorem Able.moveAlongSingleFlow (g : IDGenerator) (d : ProcessDefinition) (tok : Token) (at_ : Time) :
    Able (moveAlongSingleFlow g d x tok at_).toControlState := by
  have hclosed := h.updateOpenVisit tok.id tok.nodeID (fun v => { v with leftAt := some at_ })
  unfold Wrkflw.moveAlongSingleFlow
  dsimp only
  split
  · exact hclosed.setTokenState tok.id .incident
  · exact hclosed.relocate tok _ _ at_

end Operations

/-! ## Ending the instance -/

/-- The report of an end: a completed instance reports its variables, any other the error it ended with, if any. -/
def Reports (st : Status) (vars : Vars) : Option Command → Prop
  | some (.completeInstance result) => st = .completed ∧ result = vars
  | some (.failInstance _) | none => st = .terminated ∨ st = .failed
  | some _ => False

/-- Nothing of the instance is left to wait for. -/
structure Swept (at_ : Time) (x : InstanceState) : Prop where
  endedAt : x.endedAt = some at_
  tasks : ∀ t ∈ x.tasks, t.isOpen = false
  timers : x.timers = []
  armedEvents : x.armedEvents = []
  boundaries : x.boundaries = []
  eventSubprocesses : x.eventTriggeredSubprocesses = []

/-- The result of ending the instance: what it waited for is gone and the end is reported. -/
structure Closes (at_ : Time) (r : StepResult) : Prop where
  swept : Swept at_ r.state
  tokens : r.state.status = .failed ∨ r.state.tokens = []
  ended : r.state.status.isTerminal = true
  report : ∃ terminal cur, r.commands.filter Command.ends = terminal.toList ∧
    Reports r.state.status r.state.vars terminal ∧
    r.state.trace.head? = some (.ended r.state.status (InstanceState.terminalErr terminal) cur)

namespace Closes
variable {at_ : Time} {r : StepResult}

theorem prepend (h : Closes at_ r) (hm : Mute cmds) : Closes at_ (r.prepend cmds) := by
  refine ⟨h.swept, h.tokens, h.ended, ?_⟩
  obtain ⟨terminal, cur, hcmds, hrep⟩ := h.report
  refine ⟨terminal, cur, ?_, hrep⟩
  change (cmds ++ r.commands).filter Command.ends = _
  rw [List.filter_append, hm.reports, List.nil_append, hcmds]

/-- An operation of the control state after the end that only rewrites records. -/
theorem onControl (h : Closes at_ r) {f : ControlState → ControlState} (hf : ∀ s, (f s).outline = s.outline) :
    Closes at_ ⟨r.state.onControl f, r.commands⟩ := by
  have ho := sameOutline (hf r.state.toControlState)
  obtain ⟨terminal, cur, hcmds, hrep, htr⟩ := h.report
  refine ⟨⟨h.swept.endedAt, h.swept.tasks, h.swept.timers, h.swept.armedEvents, h.swept.boundaries,
    h.swept.eventSubprocesses⟩, ?_, ho.status ▸ h.ended, terminal, cur, hcmds, ?_, ?_⟩
  · change (f r.state.toControlState).status = .failed ∨ (f r.state.toControlState).tokens = []
    rw [ho.status, ho.tokens]
    exact h.tokens
  · change Reports (f r.state.toControlState).status r.state.vars terminal
    rw [ho.status]
    exact hrep
  · change (f r.state.toControlState).trace.head? = some (.ended (f r.state.toControlState).status _ cur)
    rw [ho.trace, ho.status]
    exact htr

end Closes

theorem cancelOpenTasks_closed (s : InstanceState) : ∀ t ∈ s.cancelOpenTasks.state.tasks, t.isOpen = false := by
  intro t ht
  obtain ⟨t', -, rfl⟩ := List.mem_map.mp ht
  split
  · rfl
  · rename_i h
    simpa using h

/-- `endInstance` sweeps the waits and reports the end. -/
theorem endInstance_closes (y : InstanceState) {st : Status} {at_ : Time} {terminal : Option Command}
    (hst : st.isTerminal = true) (htok : st = .failed ∨ y.tokens = []) (hrep : Reports st y.vars terminal) :
    Closes at_ (y.endInstance st at_ terminal) := by
  have hctl := y.endInstance_control st at_ terminal
  have hstatus : (y.endInstance st at_ terminal).state.status = st := by
    rw [hctl]
    exact endControl_ended _ _ _
  have hvars : (y.endInstance st at_ terminal).state.vars = y.vars := by
    change (y.retireIncidents .compensationStall y.compensating.activeCmdID).vars = y.vars
    unfold InstanceState.retireIncidents
    split <;> rfl
  refine ⟨⟨rfl, cancelOpenTasks_closed _, rfl, rfl, rfl, rfl⟩, ?_, by rw [hstatus, hst], terminal, y.compensating, ?_, ?_, ?_⟩
  · rw [hstatus, hctl, endControl_tokens]
    exact htok
  · have hends : terminal.toList.filter Command.ends = terminal.toList := by
      rcases terminal with _ | cmd
      · rfl
      · cases cmd <;> first | rfl | exact hrep.elim
    change ((InstanceState.cancelOpenTasks _).commands ++ terminal.toList ++
      (InstanceState.cancelAllScheduledWork _).commands).filter Command.ends = _
    rw [List.filter_append, List.filter_append, hends, (mute_cancelOpenTasks _).reports,
      (mute_cancelAllScheduledWork _).reports, List.nil_append, List.append_nil]
  · rw [hstatus, hvars]
    exact hrep
  · rw [hstatus, hctl]
    rfl

theorem complete_closes {y : InstanceState} (htok : y.tokens = []) (at_ : Time) : Closes at_ (y.complete at_) :=
  endInstance_closes y rfl (Or.inr htok) ⟨rfl, rfl⟩

end Wrkflw
