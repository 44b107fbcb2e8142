import Wrkflw.Machine.Frame

/-!
# Operations on the waits

What the operations on tasks, timers, arms and incidents do to the control state: most of them nothing, some
mint a command id, the cancelling ones cancel tokens or archive scopes.
-/

namespace Wrkflw

open ControlState

variable {r : StepResult}

@[simp] theorem StepResult.prepend_state (cmds : List Command) (r : StepResult) : (r.prepend cmds).state = r.state := rfl

/-- A fallible operation whose result only gets commands put in front. -/
theorem map_prepend_ok {x : EngineResult} {cmds : List Command}
    (h : x.map (·.prepend cmds) = .ok r) : ∃ r', x = .ok r' ∧ r = r'.prepend cmds := by
  cases x with
  | error e => cases h
  | ok r' => exact ⟨r', rfl, (Except.ok.inj h).symm⟩

theorem bind_ok {ε α β : Type} {x : Except ε α} {f : α → Except ε β} {b : β} (h : x >>= f = .ok b) :
    ∃ a, x = .ok a ∧ f a = .ok b := by
  cases x with
  | error e => cases h
  | ok a => exact ⟨a, rfl, h⟩

namespace InstanceState
variable (s : InstanceState)

@[simp] theorem nextCommandID_control (g : IDGenerator) :
    (s.nextCommandID g).1.toControlState = s.toControlState.mintCommand := rfl

@[simp] theorem nextCommandID_id (g : IDGenerator) : (s.nextCommandID g).2 = s.toControlState.nextCmdID g := rfl

@[simp] theorem updateTask_control (id : String) (f : HumanTask → HumanTask) :
    (s.updateTask id f).toControlState = s.toControlState := rfl

@[simp] theorem mergeVars_control (input : Vars) : (s.mergeVars input).toControlState = s.toControlState := rfl

@[simp] theorem raise_control (g : IDGenerator) (inc : String → Incident) :
    (s.raise g inc).toControlState = s.toControlState := rfl

@[simp] theorem removeIncidentsForToken_control (id : String) :
    (s.removeIncidentsForToken id).toControlState = s.toControlState := by
  unfold removeIncidentsForToken
  split <;> rfl

@[simp] theorem retireIncidents_control (kind : IncidentKind) (id : String) :
    (s.retireIncidents kind id).toControlState = s.toControlState := by
  unfold retireIncidents
  split <;> rfl

@[simp] theorem retireCompensationStallIncidents_control (id : String) :
    (s.retireCompensationStallIncidents id).toControlState = s.toControlState := s.retireIncidents_control _ id

@[simp] theorem retireCompensationFailedIncidents_control (id : String) :
    (s.retireCompensationFailedIncidents id).toControlState = s.toControlState := s.retireIncidents_control _ id

@[simp] theorem removeTimer_control (id : String) : (s.removeTimer id).toControlState = s.toControlState := by
  unfold removeTimer
  split <;> rfl

@[simp] theorem cancelTimersWhere_control (key excl : String) (keyOf : TimerRecord → String) :
    (s.cancelTimersWhere key excl keyOf).state.toControlState = s.toControlState := by
  unfold cancelTimersWhere
  split <;> rfl

@[simp] theorem cancelTimersByTaskID_control (id excl : String) :
    (s.cancelTimersByTaskID id excl).state.toControlState = s.toControlState := s.cancelTimersWhere_control _ _ _

@[simp] theorem cancelTimersForToken_control (id excl : String) :
    (s.cancelTimersForToken id excl).state.toControlState = s.toControlState := s.cancelTimersWhere_control _ _ _

@[simp] theorem cancelAllTimers_control : s.cancelAllTimers.state.toControlState = s.toControlState := rfl

@[simp] theorem removeArmedEventsForGateway_control (id : String) :
    (s.removeArmedEventsForGateway id).state.toControlState = s.toControlState := by
  unfold removeArmedEventsForGateway
  split <;> rfl

@[simp] theorem removeBoundaryArmsForHost_control (id : String) :
    (s.removeBoundaryArmsForHost id).state.toControlState = s.toControlState := by
  unfold removeBoundaryArmsForHost
  split <;> rfl

@[simp] theorem removeEventTriggeredSubprocessArmsForScope_control (id : String) :
    (s.removeEventTriggeredSubprocessArmsForScope id).state.toControlState = s.toControlState := rfl

@[simp] theorem cancelAllArmsAndBoundaries_control :
    s.cancelAllArmsAndBoundaries.state.toControlState = s.toControlState := rfl

/-- Ending the instance is `endControl` on its control state. -/
@[simp] theorem endInstance_control (st : Status) (at_ : Time) (terminal : Option Command) :
    (s.endInstance st at_ terminal).state.toControlState = s.toControlState.endControl st (terminalErr terminal) := by
  change ({ s.retireCompensationStallIncidents s.compensating.activeCmdID with endedAt := some at_ }.onControl
    (·.endControl st (terminalErr terminal))).toControlState = _
  simp only [onControl_toControlState]
  rw [retireCompensationStallIncidents_control]

@[simp] theorem complete_control (at_ : Time) :
    (s.complete at_).state.toControlState = s.toControlState.endControl .completed "" :=
  s.endInstance_control .completed at_ (some (.completeInstance s.vars))

end InstanceState

theorem timerByID_some {s : InstanceState} {id : String} {tr : TimerRecord} (h : s.timerByID id = some tr) :
    tr ∈ s.timers ∧ tr.timerID = id ∧ id ≠ "" := by
  unfold InstanceState.timerByID at h
  split at h
  · cases h
  · rename_i hne
    exact ⟨List.mem_of_find?_eq_some h, by simpa using List.find?_some h, by simpa using hne⟩

/-! ## Cancelling -/

theorem emitFireOnceAction_control (g : IDGenerator) (s : InstanceState) (name : String) :
    (emitFireOnceAction g s name).state.toControlState = s.toControlState ∨
      (emitFireOnceAction g s name).state.toControlState = s.toControlState.mintCommand := by
  unfold emitFireOnceAction
  split
  · exact Or.inl rfl
  · exact Or.inr rfl

@[simp] theorem cancelTokenWaits_control (s : InstanceState) (tok : Token) (at_ : Time) (kind : CloseKind) :
    (cancelTokenWaits s tok at_ kind).state.toControlState = s.toControlState.cancelToken tok at_ kind := by
  unfold cancelTokenWaits
  simp only [InstanceState.onControl_toControlState, InstanceState.removeIncidentsForToken_control]
  congr 1
  -- the task and the gateway arms are not part of the control state
  have hgw : ∀ b : Bool, ∀ x : InstanceState, (if b = true then x.removeArmedEventsForGateway tok.id
      else ⟨x, []⟩ : StepResult).state.toControlState = x.toControlState := by
    intro b x
    cases b
    · rfl
    · exact x.removeArmedEventsForGateway_control _
  split
  · split
    · simp only [InstanceState.updateTask_control, hgw, InstanceState.removeBoundaryArmsForHost_control,
        InstanceState.cancelTimersForToken_control, InstanceState.cancelTimersByTaskID_control]
    · simp only [hgw, InstanceState.removeBoundaryArmsForHost_control,
        InstanceState.cancelTimersForToken_control, InstanceState.cancelTimersByTaskID_control]
  · simp only [hgw, InstanceState.removeBoundaryArmsForHost_control,
      InstanceState.cancelTimersForToken_control, InstanceState.cancelTimersByTaskID_control]

@[simp] theorem cancelTokens_control (at_ : Time) (kind : CloseKind) (toks : List Token) (s : InstanceState) :
    (cancelTokens at_ kind toks s).state.toControlState = s.toControlState.cancelListed at_ kind toks := by
  induction toks generalizing s with
  | nil => rfl
  | cons tok toks ih =>
    unfold cancelTokens
    rw [StepResult.prepend_state, ih, cancelTokenWaits_control]
    rfl

@[simp] theorem teardownScopes_control (ids : List String) (s : InstanceState) :
    (teardownScopes ids s).state.toControlState = s.toControlState.archiveAll ids := by
  induction ids generalizing s with
  | nil => rfl
  | cons id ids ih =>
    unfold teardownScopes
    rw [StepResult.prepend_state, ih]
    rfl

theorem cancelScopeSubtree_control (s : InstanceState) (scopeID : String) (at_ : Time) (kind : CloseKind) :
    ∃ toks, (cancelScopeSubtree s scopeID at_ kind).state.toControlState =
      (s.toControlState.cancelListed at_ kind toks).archiveAll (s.toControlState.subtreeIDs scopeID) := by
  refine ⟨s.tokens.filter (fun t => (descendantScopeIDs s.scopes scopeID).contains t.scopeID), ?_⟩
  unfold cancelScopeSubtree
  rw [StepResult.prepend_state, teardownScopes_control, cancelTokens_control]
  rfl

/-! ## Arming -/

theorem forEach_control {α : Type} {f : InstanceState → α → EngineResult}
    (hf : ∀ s a r, f s a = .ok r → r.state.toControlState = s.toControlState) :
    ∀ {l : List α} {s : InstanceState} {r : StepResult}, forEach f l s = .ok r →
      r.state.toControlState = s.toControlState := by
  intro l
  induction l with
  | nil =>
    intro s r h
    rw [← Except.ok.inj h]
  | cons a l ih =>
    intro s r h
    obtain ⟨r1, h1, h⟩ := bind_ok h
    obtain ⟨r2, h2, h⟩ := bind_ok h
    rw [← Except.ok.inj h]
    exact (ih h2).trans (hf s a r1 h1)

theorem armMatch_control (g : IDGenerator) (s : InstanceState) (owner : String) (choice : ArmChoice) :
    (armMatch g s owner choice).1.toControlState = s.toControlState := by
  cases choice <;> rfl

theorem armBoundaries_control {c : StepCtx} {d : ProcessDefinition} {s : InstanceState} {host node : String}
    (h : armBoundaries c d s host node = .ok r) : r.state.toControlState = s.toControlState := by
  refine forEach_control (fun s n r h => ?_) h
  unfold armBoundary at h
  split at h
  · split at h
    · rw [← Except.ok.inj h]
    · obtain ⟨choice, -, h⟩ := bind_ok h
      rw [← Except.ok.inj h]
      exact armMatch_control c.ids s host choice
  · rw [← Except.ok.inj h]

theorem armEventTriggeredSubprocesses_control {c : StepCtx} {d : ProcessDefinition} {s : InstanceState} {scope : String}
    (h : armEventTriggeredSubprocesses c d s scope = .ok r) :
    r.state.toControlState = s.toControlState := by
  refine forEach_control (fun s n r h => ?_) h
  unfold armEventTriggeredSubprocess at h
  split at h
  · rw [← Except.ok.inj h]
  · obtain ⟨choice, -, h⟩ := bind_ok h
    rw [← Except.ok.inj h]
    exact armMatch_control c.ids s "" choice

theorem armWaitReminder_control {c : StepCtx} {s : InstanceState} {tok : Token} {node : Node} {key : String}
    (h : armWaitReminder c s tok node key = .ok r) : r.state.toControlState = s.toControlState := by
  obtain ⟨spec, -, h⟩ := bind_ok h
  split at h
  · rw [← Except.ok.inj h]
  · rw [← Except.ok.inj h]
    rfl

/-! ## Walk timers -/

@[simp] theorem armCompensationStallTimer_control (c : StepCtx) (s : InstanceState) (nodeID : String) :
    (armCompensationStallTimer c s nodeID).state.toControlState = s.toControlState := by
  unfold armCompensationStallTimer
  dsimp only
  split <;> rfl

@[simp] theorem afterDispatch_control (c : StepCtx) (s : InstanceState) (rec : CompensationRecord) (cmdID : String) :
    (afterDispatch c s rec cmdID).state.toControlState = s.toControlState := armCompensationStallTimer_control c s _

@[simp] theorem clearForWalk_control (c : StepCtx) (s : InstanceState) (kind : CloseKind) :
    (clearForWalk c s kind).state.toControlState =
      (s.toControlState.cancelListed c.at_ kind s.tokens).consolidateArchiveIntoRoot := by
  unfold clearForWalk
  simp only [InstanceState.onControl_toControlState, InstanceState.cancelAllArmsAndBoundaries_control,
    InstanceState.cancelAllTimers_control, cancelTokens_control]

theorem rearmRoot_control {c : StepCtx} {plan : FinishPlan} {s : InstanceState}
    (h : rearmRoot c plan s = .ok r) : r.state.toControlState = s.toControlState := by
  unfold rearmRoot at h
  split at h
  · rw [← Except.ok.inj h]
  · obtain ⟨r', h', rfl⟩ := map_prepend_ok h
    exact (armEventTriggeredSubprocesses_control h').trans rfl

end Wrkflw
