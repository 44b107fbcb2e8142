import Wrkflw.Machine.DeskWalks

/-!
# Tokens, events and nodes on a desk

The acts of moving, forking and joining tokens, of error propagation and firing arms (`Engine/Errors`), and of the node
strategies (`Engine/Nodes`), up to the `drive` loop.
-/

namespace Wrkflw

open ControlState

variable {t tok : Token} {td : ProcessDefinition}

section
variable {trg : TriggerBody} {d0 : Desk} {s s' : InstanceState} {r r' : StepResult} {c : StepCtx}
  {drv : DriveLoop} {g : IDGenerator}

/-! ## Active tokens -/

/-- The token is there, under this id, active. -/
structure Running (s : InstanceState) (tok t : Token) : Prop where
  mem : t ∈ s.tokens
  active : t.state = .active
  id : t.id = tok.id
  nodeID : t.nodeID = tok.nodeID

theorem Running.self (hmem : tok ∈ s.tokens) (hactive : tok.state = .active) : Running s tok tok :=
  ⟨hmem, hactive, rfl, rfl⟩

theorem does_step (ht : Running s tok t) {f : ControlState → ControlState} {k : Token → Token}
    (hk : ∀ t : Token, t.Steps (k t))
    (hf : (f s.toControlState).front = { s.toControlState.front with
      tokens := s.tokens.map (fun t => if t.id == tok.id then k t else t) }) :
    Does g trg d0 s ⟨s.onControl f, []⟩ := by
  have hact : Act g trg d0 s.desk (s.desk.update t.id k) [] := .step t k ht.mem ht.active hk
  refine Does.of_act ?_
  rw [onControl_desk, hf, ← ht.id]
  exact hact

theorem does_setState (ht : Running s tok t) {st : TokenState} (hst : st ≠ .incident) :
    Does g trg d0 s ⟨s.onControl (·.setTokenState tok.id st), []⟩ :=
  does_step ht (k := fun t => { t with state := st }) (fun _ => ⟨rfl, rfl, rfl, rfl, rfl, rfl, fun _ => hst⟩) rfl

theorem does_relocate (ht : Running s tok t) (target flow : String) (at_ : Time) :
    Does g trg d0 s ⟨s.onControl (·.relocate tok target flow at_), []⟩ :=
  does_step ht (k := fun t => { t with nodeID := target, enteredAt := at_, arrivalFlow := flow })
    (fun _ => ⟨rfl, rfl, rfl, rfl, rfl, rfl, fun h => by rw [h]; decide⟩) rfl

theorem Running.of_front (ht : Running s tok t) (h : s'.desk = s.desk) : Running s' tok t := by
  have htok : s'.tokens = s.tokens := (congrArg (fun d : Desk => d.tokens) h :)
  exact ⟨htok ▸ ht.mem, ht.active, ht.id, ht.nodeID⟩

theorem does_moveTo (ht : Running s tok t) (target flow : String) (at_ : Time) (kind : CloseKind) :
    Does g trg d0 s ⟨s.onControl (·.moveTokenToTargetAs tok target flow at_ kind), []⟩ := by
  have hclosed : (s.onControl (·.closeVisitAs tok.id tok.nodeID at_ kind)).desk = s.desk :=
    desk_onControl (closeVisitAs_front _ _ _ _)
  set s1 := s.onControl (·.closeVisitAs tok.id tok.nodeID at_ kind) with hs1
  have ht1 : Running s1 tok t := ht.of_front hclosed
  have hmove : Does g trg d0 s1
    ⟨s1.onControl (fun a => (a.setTokenState tok.id .active).relocate tok target flow at_), []⟩ := by
    refine does_step ht1 (k := fun t => { t with state := .active, nodeID := target, enteredAt := at_, arrivalFlow := flow })
      (fun _ => ⟨rfl, rfl, rfl, rfl, rfl, rfl, fun _ => by simp⟩) ?_
    have hfuse := s1.toControlState.updateToken_updateToken tok.id (fun t => { t with state := .active })
      (fun t => { t with nodeID := target, enteredAt := at_, arrivalFlow := flow }) (fun _ => rfl)
    have htok : ((s1.toControlState.setTokenState tok.id .active).relocate tok target flow at_).front =
        ((s1.toControlState.updateToken tok.id (fun t => { t with state := .active })).updateToken tok.id
          (fun t => { t with nodeID := target, enteredAt := at_, arrivalFlow := flow })).front := rfl
    rw [htok, hfuse]
    rfl
  exact Does.after hclosed hmove

theorem does_defect (ht : Running s tok t) (reason : String) (at_ : Time) :
    Does g trg d0 s ⟨recordDefinitionDefect g s tok tok.nodeID reason at_, []⟩ := by
  have hact : Act g trg d0 s.desk _ [] := Act.defect t
    { id := g.newID .incident (s.incidentSeq + 1), kind := .definitionDefect, tokenID := tok.id, nodeID := tok.nodeID,
      scopeID := tok.scopeID, error := reason, attempts := 1, createdAt := at_ } ht.mem ht.active rfl rfl ht.id.symm
    ht.nodeID.symm
  rw [ht.id] at hact
  exact Does.of_act hact

theorem does_moveAlong (ht : Running s tok t) (td : ProcessDefinition) (at_ : Time) :
    Does g trg d0 s ⟨moveAlongSingleFlow g td s tok at_, []⟩ := by
  have hclosed : (s.onControl (·.closeVisit tok.id tok.nodeID at_)).desk = s.desk :=
    desk_onControl (closeVisit_front _ _ _)
  have ht1 := ht.of_front hclosed
  refine Does.after hclosed ?_
  unfold moveAlongSingleFlow
  dsimp only
  split
  · exact does_defect ht1 _ at_
  · exact does_relocate ht1 _ _ at_

theorem does_goOn (ht : Running s tok t) (td : ProcessDefinition) {cmds : List Command}
    (hcmds : ∀ cmd ∈ cmds, cmd.Neutral) : Does c.ids trg d0 s (goOn c td s tok cmds).toStepResult :=
  Acts.trans (does_moveAlong ht td c.at_) (Does.say _ hcmds)

theorem consumeTokenAs_front (a : ControlState) (hne : tok.id ≠ "") (at_ : Time) (kind : CloseKind) :
    (a.consumeTokenAs tok at_ kind).front = { a.front with tokens := a.tokens.filter (fun t => t.id != tok.id) } := by
  obtain ⟨h, -, he⟩ := a.consumeTokenAs_shape tok at_ kind
  rw [he, removeToken_of_ne _ hne]
  rfl

/-- The active token leaves the instance. -/
theorem does_consume (hmem : tok ∈ s.tokens) (hactive : tok.state = .active) (at_ : Time) (kind : CloseKind) :
    Does g trg d0 s ⟨s.onControl (·.consumeTokenAs tok at_ kind), []⟩ := by
  refine Acts.sane_or (fun hs => ?_)
  have hact : Act g trg d0 s.desk { s.desk with tokens := s.tokens.filter (fun t => t.id != tok.id) } [] := by
    refine .drop _ (fun t ht hp => Or.inl ?_)
    have hid : t.id = tok.id := by simpa using hp
    rw [hs.eq_of_id ht hmem hid]
    exact hactive
  refine Does.of_act ?_
  rw [onControl_desk, consumeTokenAs_front _ (hs.named tok hmem)]
  exact hact

theorem does_placeOnFlows (scope : String) (at_ : Time) (fs : List FlowRef) (s : InstanceState) :
    Does g trg d0 s ⟨s.onControl (placeOnFlows g scope at_ fs), []⟩ := by
  induction fs generalizing s with
  | nil => exact Does.refl s
  | cons f fs ih =>
    have hplace : Does g trg d0 s ⟨s.onControl (·.placeTokenInScope g f.flow.target scope f.identity at_), []⟩ :=
      does_place s _ _ _ _
    exact hplace.silently (ih _)

theorem does_fork (hmem : tok ∈ s.tokens) (hactive : tok.state = .active) (scope : String) (at_ : Time)
    (fs : List FlowRef) :
    Does g trg d0 s ⟨s.onControl (fun a => placeOnFlows g scope at_ fs (a.consumeToken tok at_)), []⟩ := by
  have hcons : Does g trg d0 s ⟨s.onControl (·.consumeTokenAs tok at_ .normal), []⟩ := does_consume hmem hactive at_ .normal
  exact hcons.silently (does_placeOnFlows scope at_ fs _)

/-! ## Joins -/

theorem closeVisits_front (at_ : Time) (toks : List Token) (a : ControlState) :
    (toks.foldl (fun a t => a.closeVisit t.id t.nodeID at_) a).front = a.front := by
  induction toks generalizing a with
  | nil => rfl
  | cons t toks ih =>
    rw [List.foldl_cons, ih]
    exact a.closeVisit_front _ _ _

theorem does_fireJoin (td : ProcessDefinition) (nodeID scopeID : String) (at_ : Time) (consumed : List Token)
    {a : ControlState} (ha : a.front = s.toControlState.front) :
    Does g trg d0 s ⟨s.onControl (fun _ => fireJoin g td a nodeID scopeID at_ consumed), []⟩ := by
  have htok : a.tokens = s.tokens := congrArg Front.tokens ha
  have hact : Act g trg d0 s.desk { s.desk with
      tokens := s.tokens.filter (fun t => !(joinedAt t nodeID scopeID && hasToken consumed t)) } [] := by
    refine .drop _ (fun t ht hp => Or.inr ?_)
    simp only [joinedAt, Bool.not_eq_false', Bool.and_eq_true, beq_iff_eq] at hp
    exact hp.1.1.2
  set b : ControlState := { consumed.foldl (fun a t => a.closeVisit t.id t.nodeID at_) a with
    tokens := a.tokens.filter (fun t => !(joinedAt t nodeID scopeID && hasToken consumed t)) } with hb
  have hfront : b.front = { s.toControlState.front with
      tokens := s.tokens.filter (fun t => !(joinedAt t nodeID scopeID && hasToken consumed t)) } := by
    have h1 : b.front = { (consumed.foldl (fun a t => a.closeVisit t.id t.nodeID at_) a).front with
      tokens := a.tokens.filter (fun t => !(joinedAt t nodeID scopeID && hasToken consumed t)) } := rfl
    rw [h1, closeVisits_front, ha, htok]
  have hdrop : Does g trg d0 s ⟨s.onControl (fun _ => b), []⟩ := by
    refine Does.of_act ?_
    rw [onControl_desk, hfront]
    exact hact
  exact hdrop.silently (does_placeOnFlows scopeID at_ (outgoingFlows td nodeID) _)

theorem tryJoin_fires {a ctl : ControlState} {node : Node} {scopeID : String} {at_ : Time}
    (h : tryJoin g td a node scopeID at_ = some ctl) :
    ∃ b consumed, b.front = a.front ∧ ctl = fireJoin g td b node.id scopeID at_ consumed := by
  unfold tryJoin at h
  split at h
  · unfold tryParallelJoin at h
    split at h
    · cases h
    · rw [← Option.some.inj h]
      exact ⟨a.note _, _, rfl, rfl⟩
  · unfold tryInclusiveJoin at h
    dsimp only at h
    split at h
    · cases h
    · split at h
      · cases h
      · rw [← Option.some.inj h]
        exact ⟨a.note _, _, rfl, rfl⟩
  · cases h

theorem does_tryJoin {ctl : ControlState} {node : Node} {scopeID : String} {at_ : Time}
    (h : tryJoin g td s.toControlState node scopeID at_ = some ctl) :
    Does g trg d0 s ⟨s.onControl (fun _ => ctl), []⟩ := by
  obtain ⟨b, consumed, hb, rfl⟩ := tryJoin_fires h
  exact does_fireJoin td _ _ _ _ hb

theorem does_retryParked {top : ProcessDefinition} {ctl : ControlState} {at_ : Time} {toks : List Token}
    (h : retryParked g top s.toControlState at_ toks = some ctl) : Does g trg d0 s ⟨s.onControl (fun _ => ctl), []⟩ := by
  induction toks with
  | nil => cases h
  | cons tok toks ih =>
    unfold retryParked at h
    split at h
    · exact ih h
    · split at h
      · exact ih h
      · split at h
        · exact ih h
        · split at h
          · exact ih h
          · split at h
            · rename_i hjoin
              rw [← Option.some.inj h]
              exact does_tryJoin hjoin
            · exact ih h

theorem does_joinGateway (hmem : tok ∈ s.tokens) (hactive : tok.state = .active) (td : ProcessDefinition)
    (node : Node) : Does c.ids trg d0 s (joinGateway c td s tok node).toStepResult := by
  have hpark : Does c.ids trg d0 s ⟨s.onControl (·.setTokenState tok.id .joining), []⟩ :=
    does_setState (Running.self hmem hactive) (by decide)
  unfold joinGateway
  dsimp only
  split
  · rename_i hjoin
    exact hpark.silently (does_tryJoin hjoin)
  · exact hpark

/-! ## Errors -/

theorem fireOnce_tokens (s : InstanceState) (name : String) :
    (emitFireOnceAction g s name).state.tokens = s.tokens ∧
      (emitFireOnceAction g s name).state.boundaries = s.boundaries := by
  unfold emitFireOnceAction
  split <;> exact ⟨rfl, rfl⟩

theorem does_routeToBoundary (hdrv : DoesDrive c.ids trg d0 drv) {nodeID kind scope : String}
    {e : BoundaryEvent} {consume : InstanceState → StepResult}
    (hconsume : Does c.ids trg d0 (emitFireOnceAction c.ids s e.action).state
      (consume (emitFireOnceAction c.ids s e.action).state))
    (h : routeToBoundary drv c s td nodeID e kind scope consume = .ok r) : Does c.ids trg d0 s r := by
  unfold routeToBoundary at h
  dsimp only at h
  split at h
  · cases h
  · rename_i f _ _
    refine does_thenDrive hdrv ?_ h
    have h12 := (does_fireOnce (g := c.ids) s e.action).trans hconsume
    exact Acts.perm (Acts.trans h12 (does_place _ f.flow.target scope f.identity c.at_)) (by simp [StepResult.prepend])

/-- The failing token of an error, if it has one: a waiting token the trigger is about, with its boundaries
disarmed. -/
structure Failing (d0 : Desk) (trg : TriggerBody) (s : InstanceState) (tok : Token) : Prop where
  mem : tok ∈ s.tokens
  named : Named d0 trg tok
  disarmed : ∀ ba ∈ s.boundaries, ba.hostToken ≠ tok.id
  reports : ReportsFailure trg tok

theorem does_lose (h : Failing d0 trg s tok) (at_ : Time) (kind : CloseKind) :
    Does g trg d0 s ⟨s.onControl (·.consumeTokenAs tok at_ kind), []⟩ := by
  refine Acts.sane_or (fun hs => ?_)
  have hact : Act g trg d0 s.desk (s.desk.remove tok.id) [] := .lose tok h.mem h.named h.reports h.disarmed
  refine Does.of_act ?_
  rw [onControl_desk, consumeTokenAs_front _ (hs.named tok h.mem)]
  exact hact

theorem does_consumeFailing (h : Failing d0 trg s tok) (scope : String) :
    Does c.ids trg d0 s (consumeFailing c scope tok.nodeID tok.id s) := by
  refine Acts.sane_or (fun hs => ?_)
  unfold consumeFailing
  rw [tokenByID_of_sane hs h.mem]
  exact does_lose h c.at_ .boundaryInterrupted

theorem does_deferFailure (s : InstanceState) (err : String) :
    Does c.ids trg d0 s (deferFailureToInFlightCompensationWalk c s err) := by
  have h1 : Does c.ids trg d0 s (cancelTokens c.at_ .errored s.tokens s) := does_cancelAll c.at_ .errored
  have h2 := h1.trans (does_cancelAllTimers (cancelTokens c.at_ .errored s.tokens s).state)
  have h3 := h2.trans (does_cancelAllArms (cancelTokens c.at_ .errored s.tokens s).state.cancelAllTimers.state)
  set x := (cancelTokens c.at_ .errored s.tokens s).state.cancelAllTimers.state.cancelAllArmsAndBoundaries.state with hx
  have haim : Does c.ids trg d0 x ⟨x.onControl (fun s =>
      { s with pendingCancel := true, pendingFinalStatus := .failed, pendingFinalErr := err }.note
        (.deferredFailure err s.compensating)), []⟩ := by
    refine Acts.sane_or (fun hs => ?_)
    refine (Act.aim [x.compensating.finalStatus, .failed] (fun st hst => ?_)).acts
    rcases List.mem_cons.mp hst with rfl | hst
    · exact hs.finals _ List.mem_cons_self
    · rw [List.mem_singleton.mp hst]
      exact Or.inr (Or.inr rfl)
  exact Acts.perm (Acts.trans h3 haim) (by simp [StepResult.prepend, deferFailureToInFlightCompensationWalk])

/-- The incident of a failed action. -/
theorem does_raiseIncident (h : Failing d0 trg s tok)
    (htrg : ∃ err retryable jitter cause, trg = .actionFailed tok.awaitCommand err retryable jitter cause)
    (scope err : String) :
    Does c.ids trg d0 s ⟨raiseActionIncident c s scope tok.nodeID tok.id err, []⟩ := by
  refine Acts.sane_or (fun hs => ?_)
  unfold raiseActionIncident
  rw [tokenByID_of_sane hs h.mem]
  dsimp only
  exact Does.of_act (.fail tok
    { id := c.ids.newID .incident (s.incidentSeq + 1), tokenID := tok.id, nodeID := tok.nodeID, scopeID := scope,
      commandID := tok.awaitCommand, error := err, attempts := tok.retryAttempts + 1, createdAt := c.at_ }
    h.mem h.named htrg h.disarmed rfl rfl rfl rfl)

theorem does_unhandled (hdrv : DoesDrive c.ids trg d0 drv) {scope node failing err : String} {raise_ : Bool}
    (hraise : raise_ = true → ∃ tok, Failing d0 trg s tok ∧ tok.id = failing ∧ tok.nodeID = node ∧
      ∃ err retryable jitter cause, trg = .actionFailed tok.awaitCommand err retryable jitter cause)
    (h : handleUnhandledError drv c s scope node failing err raise_ = .ok r) : Does c.ids trg d0 s r := by
  unfold handleUnhandledError at h
  split at h
  · rename_i hr
    obtain ⟨tok, hfail, rfl, rfl, htrg⟩ := hraise hr
    rw [← Except.ok.inj h]
    exact does_raiseIncident hfail htrg scope err
  · split at h
    · rw [← Except.ok.inj h]
      exact does_deferFailure s err
    · dsimp only at h
      have hharvest : (s.onControl (·.harvestOpenScopeCompensations)).desk = s.desk :=
        desk_onControl (front_of_outline (harvest_outline _))
      refine Does.after hharvest ?_
      split at h
      · have hopen : Does c.ids trg d0 (s.onControl (·.harvestOpenScopeCompensations))
            ⟨(s.onControl (·.harvestOpenScopeCompensations)).onControl (fun s => { s with status := .compensating }), []⟩ :=
          does_reopen rfl
        exact hopen.silently (does_begin hdrv (Or.inr (Or.inr rfl)) h)
      · rw [← Except.ok.inj h]
        exact does_end _ rfl c.at_ (fun cmd hcmd => by cases hcmd; trivial)

/-- The source of an error: nothing, or the failing token. -/
def ErrorSource (d0 : Desk) (trg : TriggerBody) (s : InstanceState) (node failing : String) (raise_ : Bool) : Prop :=
  (node = "" ∧ raise_ = false) ∨ ∃ tok, Failing d0 trg s tok ∧ tok.id = failing ∧ tok.nodeID = node ∧
    ∃ err retryable jitter cause, trg = .actionFailed tok.awaitCommand err retryable jitter cause

theorem does_propagate (hdrv : DoesDrive c.ids trg d0 drv) {scope node failing err : String} {cause : Option String}
    {raise_ : Bool} (hsrc : ErrorSource d0 trg s node failing raise_)
    (h : propagateError drv c s scope node failing err cause raise_ = .ok r) : Does c.ids trg d0 s r := by
  unfold propagateError at h
  dsimp only at h
  obtain ⟨own, hown, h⟩ := bind_ok h
  split at h
  · -- a boundary of the failing activity itself
    rename_i td nodeID e hdirect
    rcases hsrc with ⟨rfl, -⟩ | ⟨tok, hfail, rfl, rfl, -⟩
    · unfold directAttachmentDef at hown
      rw [if_pos (beq_self_eq_true "")] at hown
      rw [← Except.ok.inj hown] at hdirect
      cases hdirect
    · refine does_routeToBoundary hdrv (does_consumeFailing ⟨?_, hfail.named, ?_, hfail.reports⟩ scope) h
      · rw [(fireOnce_tokens s e.action).1]
        exact hfail.mem
      · rw [(fireOnce_tokens s e.action).2]
        exact hfail.disarmed
  · obtain ⟨handler, -, h⟩ := bind_ok h
    split at h
    · exact does_routeToBoundary hdrv (does_consumeErrScope c _ _) h
    · refine does_unhandled hdrv (fun hr => ?_) h
      rcases hsrc with ⟨-, hf⟩ | hsrc
      · rw [hr] at hf
        cases hf
      · exact hsrc

/-! ## Arms that fire -/

theorem does_fireBoundaryArm (hdrv : DoesDrive c.ids trg d0 drv) {ba : BoundaryArm}
    (h : fireBoundaryArm drv c s ba = .ok r) : Does c.ids trg d0 s r := by
  unfold fireBoundaryArm at h
  split at h
  · rename_i hnone
    rw [← Except.ok.inj h]
    refine Acts.sane_or (fun hs => ?_)
    unfold InstanceState.removeBoundaryArmsForHost
    by_cases hhost : ba.hostToken = ""
    · rw [if_pos (by simpa using hhost)]
      exact .nil _
    · rw [if_neg (by simpa using hhost)]
      refine Act.acts ?_
      refine Act.dropDeadHost ba.hostToken (fun t ht hid => ?_)
      have := tokenByID_of_sane hs ht
      rw [hid, hnone] at this
      cases this
  · rename_i host hhost
    have hmem : host ∈ s.tokens := (tokenByID_some _ hhost).1
    obtain ⟨td, -, h⟩ := bind_ok h
    split at h
    · cases h
    · rename_i f _ _
      split at h
      · cases h
      · dsimp only at h
        refine does_thenDrive hdrv ?_ h
        have h1 : Does c.ids trg d0 s (emitFireOnceAction c.ids s ba.action) := does_fireOnce s ba.action
        have h2 : Does c.ids trg d0 s ((if ba.nonInterrupting then ⟨(emitFireOnceAction c.ids s ba.action).state, []⟩
            else cancelTokenWaits (emitFireOnceAction c.ids s ba.action).state host c.at_ .boundaryInterrupted :
              StepResult).prepend (emitFireOnceAction c.ids s ba.action).commands) := by
          refine h1.trans ?_
          split
          · exact Does.refl _
          · refine does_cancelTokenWaits ?_ c.at_ .boundaryInterrupted
            rw [(fireOnce_tokens s ba.action).1]
            exact hmem
        exact Acts.perm (Acts.trans h2 (does_place _ f.flow.target host.scopeID f.identity c.at_))
          (by simp [StepResult.prepend])

theorem does_openScope (s : InstanceState) (node parent : String) :
    Does g trg d0 s ⟨s.onControl (fun a => (a.openScope g node parent).1), []⟩ := by
  have hact : Act g trg d0 s.desk _ [] := Act.openScope node parent
  have hfront : (s.toControlState.openScope g node parent).1.front = { s.toControlState.front with
      scopeSeq := s.scopeSeq + 1
      scopes := s.toControlState.front.scopes ++
        [{ id := g.newID .scope (s.scopeSeq + 1), nodeID := node, parentID := parent }] } := by
    unfold ControlState.openScope ControlState.front ControlState.note
    dsimp only
    rw [List.map_append]
    rfl
  refine Does.of_act ?_
  rw [onControl_desk, hfront]
  exact hact

theorem does_fireEventSub (hdrv : DoesDrive c.ids trg d0 drv) {ea : EventTriggeredSubprocessArm}
    (h : fireEventTriggeredSubprocessArm drv c s ea = .ok r) : Does c.ids trg d0 s r := by
  unfold fireEventTriggeredSubprocessArm at h
  split at h
  · rw [← Except.ok.inj h]
    exact Does.refl s
  · split at h
    · rw [← Except.ok.inj h]
      exact Does.refl s
    · obtain ⟨td, -, h⟩ := bind_ok h
      split at h
      · rw [← Except.ok.inj h]
        exact Does.refl s
      · rename_i start _ _
        dsimp only at h
        refine does_thenDrive hdrv ?_ h
        have h1 : Does c.ids trg d0 s (if ea.nonInterrupting then ⟨s, []⟩ else interruptScope c s ea.enclosingScopeID) := by
          split
          · exact Does.refl s
          · exact does_interruptScope c s _
        generalize (if ea.nonInterrupting then (⟨s, []⟩ : StepResult) else interruptScope c s ea.enclosingScopeID) = r1 at h1
        have h2 : Does c.ids trg d0 r1.state ⟨r1.state.onControl (openEventSubprocess c ea start), []⟩ :=
          (does_openScope r1.state ea.eventSubprocessNode ea.enclosingScopeID).silently (does_place _ _ _ _ _)
        exact Acts.perm (Acts.trans h1 h2) (by simp)

theorem cancels_won {ids : List String} {cmds : List Command} (h : Cancels ids "" cmds) (won : String) :
    Cancels ids won (cmds.filter (fun cmd => cmd != .cancelTimer won)) where
  only := fun cmd hcmd => h.only cmd (List.mem_of_mem_filter hcmd)
  all := fun id hid hne => by
    rcases h.all id hid hne with he | he
    · exact absurd he hne
    · by_cases hw : id = won
      · exact Or.inl hw
      · exact Or.inr (List.mem_filter.mpr ⟨he, by simpa using hw⟩)

/-- The winning token leaves the gateway with its arms. -/
theorem does_win (hmem : tok ∈ s.tokens) (hawait : tok.awaitCommand = "evtgw:" ++ tok.id) (hne : tok.id ≠ "")
    (harmed : ∃ ae ∈ s.armedEvents, ae.gatewayToken = tok.id) (won : String) (td : ProcessDefinition) (catchNode : String) :
    Does c.ids trg d0 s ⟨winningMove c td (s.removeArmedEventsForGateway tok.id).state tok catchNode,
      (s.removeArmedEventsForGateway tok.id).commands.filter (fun cmd => cmd != .cancelTimer won)⟩ := by
  unfold InstanceState.removeArmedEventsForGateway
  rw [if_neg (by simpa using hne)]
  dsimp only
  set x : InstanceState := { s with armedEvents := s.armedEvents.filter (fun a => !(a.gatewayToken == tok.id)) } with hx
  set s1 := x.onControl (·.updateToken tok.id (fun t => { t.clearAwait with state := .active })) with hs1
  have hwin : Does c.ids trg d0 s ⟨s1, (cancelTimers (ownedTimerIDs (·.toTriggerMatch) s.armedEvents
      (fun a => a.gatewayToken == tok.id))).filter (fun cmd => cmd != .cancelTimer won)⟩ :=
    Does.of_act (.win tok _ won _ hmem hawait harmed (fun t => ⟨⟨rfl, rfl, rfl⟩, rfl, rfl, rfl, rfl, rfl⟩)
      (cancels_won (cancels_owned (·.toTriggerMatch) s.armedEvents _) won))
  have hrun : Running s1 tok { tok.clearAwait with state := .active } := by
    refine ⟨List.mem_map.mpr ⟨tok, hmem, ?_⟩, rfl, rfl, rfl⟩
    rw [beq_self_eq_true, if_pos rfl]
  have hmove : Does c.ids trg d0 s1 ⟨winningMove c td x tok catchNode, []⟩ := by
    unfold winningMove
    dsimp only
    rw [← hs1]
    split
    · rename_i f _ _
      split
      · have hclosed : (s1.onControl (·.closeVisit tok.id tok.nodeID c.at_)).desk = s1.desk :=
          desk_onControl (closeVisit_front _ _ _)
        exact Does.after hclosed (does_relocate (hrun.of_front hclosed) f.flow.target f.identity c.at_)
      · exact does_moveAlong hrun td c.at_
    · exact does_moveAlong hrun td c.at_
  exact Acts.perm (Acts.trans hwin hmove) (by simp)

theorem winningMove_removeGateway (td : ProcessDefinition) (tok : Token) (catchNode gw : String) :
    ((winningMove c td s tok catchNode).removeArmedEventsForGateway gw).state =
      winningMove c td (s.removeArmedEventsForGateway gw).state tok catchNode ∧
    ((winningMove c td s tok catchNode).removeArmedEventsForGateway gw).commands =
      (s.removeArmedEventsForGateway gw).commands := by
  unfold winningMove moveAlongSingleFlow recordDefinitionDefect InstanceState.removeArmedEventsForGateway
  by_cases hgw : (gw == "") = true
  · simp only [if_pos hgw, and_self]
  · simp only [if_neg hgw]
    cases outgoingFlows td catchNode with
    | nil =>
      cases outgoingFlows td tok.nodeID with
      | nil => exact ⟨rfl, rfl⟩
      | cons f fs => exact ⟨rfl, rfl⟩
    | cons f fs =>
      dsimp only
      split
      · exact ⟨rfl, rfl⟩
      · cases outgoingFlows td tok.nodeID with
        | nil => exact ⟨rfl, rfl⟩
        | cons f fs => exact ⟨rfl, rfl⟩

theorem does_gatewayWin (hdrv : DoesDrive c.ids trg d0 drv) {ae : ArmedEvent} (hae : ae ∈ s.armedEvents)
    (h : resolveGatewayWin drv c s ae = .ok r) : Does c.ids trg d0 s r := by
  unfold resolveGatewayWin at h
  split at h
  · rename_i hnone
    rw [← Except.ok.inj h]
    refine Acts.sane_or (fun hs => ?_)
    unfold InstanceState.removeArmedEventsForGateway
    by_cases hgw : ae.gatewayToken = ""
    · rw [if_pos (by simpa using hgw)]
      exact .nil _
    · rw [if_neg (by simpa using hgw)]
      refine Act.acts (Act.dropDeadGateway ae.gatewayToken (fun t ht hid hawait => ?_))
      have hfind := tokenByID_of_sane hs ht
      rw [hid] at hfind
      rw [hfind] at hnone
      simp [hawait] at hnone
  · rename_i tok hsome
    obtain ⟨hfind, hawait⟩ := Option.filter_eq_some_iff.mp hsome
    obtain ⟨hmem, hid, hne⟩ := tokenByID_some _ hfind
    obtain ⟨td, -, h⟩ := bind_ok h
    dsimp only at h
    refine does_thenDrive hdrv ?_ h
    obtain ⟨hst, hcmds⟩ := winningMove_removeGateway (c := c) (s := s) td tok ae.catchNode ae.gatewayToken
    rw [hst, hcmds, ← hid]
    exact does_win hmem (by rw [hid]; simpa using hawait) (hid ▸ hne) ⟨ae, hae, hid.symm⟩ ae.timerID td ae.catchNode

end

end Wrkflw
