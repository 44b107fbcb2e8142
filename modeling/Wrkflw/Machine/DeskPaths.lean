import Wrkflw.Machine.Desk
import Wrkflw.Machine.EventPaths

/-!
# What the engine's operations do to a desk

`Does` relates a state to a result: the operation is a sequence of acts. This module has the rules for composing such
sequences, what each control-state operation does to the front of a desk, and the acts of arming, disarming, cancelling,
moving and ending.
-/

namespace Wrkflw

open ControlState

variable {cmds cmds' : List Command} {td : ProcessDefinition} {tok : Token}

variable {g : IDGenerator} {trg : TriggerBody} {d0 d d1 d2 : Desk} {s s' : InstanceState} {r r' : StepResult}

/-! ## Composing -/

theorem Act.acts (h : Act g trg d0 d d1 cmds) : Acts g trg d0 d d1 cmds :=
  .cons h (.nil d1) (by rw [List.append_nil])

theorem Acts.perm (h : Acts g trg d0 d d1 cmds) (hp : cmds.Perm cmds') :
    Acts g trg d0 d d1 cmds' := by
  cases h with
  | nil d =>
    rw [List.nil_perm.mp hp]
    exact .nil d
  | cons h h' hperm => exact .cons h h' (hperm.trans hp)
  | stray h => exact .stray h d1 cmds'

theorem Acts.trans (h : Acts g trg d0 d d1 cmds) (h' : Acts g trg d0 d1 d2 cmds') :
    Acts g trg d0 d d2 (cmds ++ cmds') := by
  induction h with
  | nil d => exact h'
  | cons hact hacts hperm ih =>
    refine .cons hact (ih h') ?_
    rw [← List.append_assoc]
    exact hperm.append_right cmds'
  | stray h => exact .stray h d2 _

theorem Acts.sane_or (h : d.Sane → Acts g trg d0 d d1 cmds) : Acts g trg d0 d d1 cmds := by
  by_cases hd : d.Sane
  · exact h hd
  · exact .stray hd d1 cmds

/-- The operation is a sequence of acts on the desk. -/
def Does (g : IDGenerator) (trg : TriggerBody) (d0 : Desk) (s : InstanceState) (r : StepResult) : Prop :=
  Acts g trg d0 s.desk r.state.desk r.commands

namespace Does

theorem same (h : s'.desk = s.desk) : Does g trg d0 s ⟨s', []⟩ := by
  unfold Does
  rw [h]
  exact .nil s.desk

theorem refl (s : InstanceState) : Does g trg d0 s ⟨s, []⟩ := same rfl

theorem trans (h : Does g trg d0 s r) (h' : Does g trg d0 r.state r') : Does g trg d0 s (r'.prepend r.commands) :=
  Acts.trans h h'

/-- A silent step before. -/
theorem after (h : s'.desk = s.desk) (h' : Does g trg d0 s' r) : Does g trg d0 s r := by
  unfold Does at h' ⊢
  rw [← h]
  exact h'

/-- A silent step afterwards. -/
theorem thenSame (h : Does g trg d0 s r) (hd : s'.desk = r.state.desk) : Does g trg d0 s ⟨s', r.commands⟩ := by
  unfold Does at h ⊢
  rw [hd]
  exact h

theorem of_act (h : Act g trg d0 s.desk s'.desk cmds) : Does g trg d0 s ⟨s', cmds⟩ := h.acts

/-- One act more. -/
theorem thenAct (h : Does g trg d0 s r) (h' : Act g trg d0 r.state.desk s'.desk cmds) :
    Does g trg d0 s ⟨s', r.commands ++ cmds⟩ := Acts.trans h h'.acts

theorem silently (h : Does g trg d0 s ⟨s', []⟩) (h' : Does g trg d0 s' r) : Does g trg d0 s r := Acts.trans h h'

theorem say (s : InstanceState) (h : ∀ cmd ∈ cmds, cmd.Neutral) : Does g trg d0 s ⟨s, cmds⟩ :=
  of_act (.say cmds h)

end Does

/-! ## Fronts -/

namespace ControlState
variable {a b : ControlState}

theorem front_of_outline (h : b.outline = a.outline) : b.front = a.front := by
  have ho := sameOutline h
  have hwalk : b.compensating.activeCmdID = a.compensating.activeCmdID :=
    (congrArg CompensationCursor.activeCmdID ho.compensating :)
  have hfinal : b.compensating.finalStatus = a.compensating.finalStatus :=
    (congrArg CompensationCursor.finalStatus ho.compensating :)
  have hback : b.compensating.retryTimerID = a.compensating.retryTimerID :=
    (congrArg CompensationCursor.retryTimerID ho.compensating :)
  unfold front
  rw [ho.status, ho.tokens, ho.scopes, ho.queue, hwalk, hback, hfinal, ho.pendingFinalStatus, ho.cmdSeq,
    ho.tokenSeq, ho.scopeSeq,
    ho.trace, ho.instanceID]

@[simp] theorem updateOpenVisit_front (tokenID nodeID : String) (f : NodeVisit → NodeVisit) :
    (a.updateOpenVisit tokenID nodeID f).front = a.front := by
  obtain ⟨h, -, he⟩ := a.updateOpenVisit_shape tokenID nodeID f
  rw [he]
  rfl

@[simp] theorem closeVisit_front (tokenID nodeID : String) (at_ : Time) :
    (a.closeVisit tokenID nodeID at_).front = a.front := a.updateOpenVisit_front _ _ _

@[simp] theorem closeVisitAs_front (tokenID nodeID : String) (at_ : Time) (kind : CloseKind) :
    (a.closeVisitAs tokenID nodeID at_ kind).front = a.front := a.updateOpenVisit_front _ _ _

@[simp] theorem setVisitTask_front (tokenID nodeID taskID : String) :
    (a.setVisitTask tokenID nodeID taskID).front = a.front := a.updateOpenVisit_front _ _ _

@[simp] theorem recordCompensation_front (scope : String) (rec : CompensationRecord) :
    (a.recordCompensation scope rec).front = a.front := by
  unfold recordCompensation
  split
  · rfl
  · split
    · rfl
    · have ho := front_of_outline (a.setCompensations_outline scope (· ++ [rec]))
      exact (show ((a.setCompensations scope (· ++ [rec])).note (.recorded rec)).front =
        (a.setCompensations scope (· ++ [rec])).front from rfl).trans ho

end ControlState

/-- A change of the control part that leaves the front alone. -/
theorem desk_onControl {f : ControlState → ControlState} (h : (f s.toControlState).front = s.toControlState.front) :
    (s.onControl f).desk = s.desk := by
  unfold InstanceState.desk
  rw [InstanceState.onControl_toControlState, h]
  rfl

theorem onControl_desk (s : InstanceState) (f : ControlState → ControlState) :
    (s.onControl f).desk = { s.desk with toFront := (f s.toControlState).front } := rfl

/-! ## Scheduling and cancelling timers -/

namespace Schedules

theorem nil (g : IDGenerator) (n : Nat) : Schedules g n n [] [] :=
  ⟨le_rfl, by simp, List.nodup_nil, by simp, by simp, .nil⟩

theorem one (g : IDGenerator) (n : Nat) (owner : String) (spec : TriggerSpec) (kind : TimerKind) :
    Schedules g n (n + 1) [g.newID .timer (n + 1)] [.scheduleTimer (g.newID .timer (n + 1)) owner spec kind] where
  le := Nat.le_succ n
  fresh := fun id hid => ⟨n + 1, Nat.lt_succ_self n, le_rfl, List.mem_singleton.mp hid⟩
  nodup := List.nodup_singleton _
  only := fun cmd hcmd => ⟨_, List.mem_singleton.mpr rfl, owner, spec, kind, List.mem_singleton.mp hcmd⟩
  all := fun id hid => ⟨owner, spec, kind, by rw [List.mem_singleton.mp hid]; exact List.mem_singleton.mpr rfl⟩
  once := .refl _

theorem append {n m k : Nat} {ids ids' : List String} (h : Schedules g n m ids cmds)
    (h' : Schedules g m k ids' cmds') : Schedules g n k (ids ++ ids') (cmds ++ cmds') where
  le := h.le.trans h'.le
  fresh := by
    intro id hid
    rcases List.mem_append.mp hid with hid | hid
    · obtain ⟨j, hj, hjm, he⟩ := h.fresh id hid
      exact ⟨j, hj, hjm.trans h'.le, he⟩
    · obtain ⟨j, hj, hjk, he⟩ := h'.fresh id hid
      exact ⟨j, h.le.trans_lt hj, hjk, he⟩
  nodup := by
    refine List.nodup_append.mpr ⟨h.nodup, h'.nodup, fun a ha b hb hab => ?_⟩
    obtain ⟨j, -, hjm, he⟩ := h.fresh a ha
    obtain ⟨i, hi, -, he'⟩ := h'.fresh b hb
    have := (g.newID_inj _ _ _ _ (he.symm.trans (hab.trans he'))).2
    omega
  only := by
    intro cmd hcmd
    rcases List.mem_append.mp hcmd with hcmd | hcmd
    · obtain ⟨id, hid, rest⟩ := h.only cmd hcmd
      exact ⟨id, List.mem_append_left _ hid, rest⟩
    · obtain ⟨id, hid, rest⟩ := h'.only cmd hcmd
      exact ⟨id, List.mem_append_right _ hid, rest⟩
  all := by
    intro id hid
    rcases List.mem_append.mp hid with hid | hid
    · obtain ⟨owner, spec, kind, hc⟩ := h.all id hid
      exact ⟨owner, spec, kind, List.mem_append_left _ hc⟩
    · obtain ⟨owner, spec, kind, hc⟩ := h'.all id hid
      exact ⟨owner, spec, kind, List.mem_append_right _ hc⟩
  once := by
    rw [List.filterMap_append, List.map_append]
    exact h.once.append h'.once

end Schedules

theorem cancels_all (ids : List String) : Cancels ids "" (cancelTimers ids) where
  only := fun cmd hcmd => by
    obtain ⟨id, hid, rfl⟩ := List.mem_map.mp hcmd
    exact ⟨id, hid, rfl⟩
  all := fun id hid _ => Or.inr (List.mem_map_of_mem hid)

/-- The timers of the dropped arms are cancelled. -/
theorem cancels_owned {α : Type} (trigger : α → TriggerMatch) (arms : List α) (owned : α → Bool) :
    Cancels ((arms.filter owned).map (fun a => (trigger a).timerID)) ""
      (cancelTimers (ownedTimerIDs trigger arms owned)) where
  only := fun cmd hcmd => by
    obtain ⟨id, hid, rfl⟩ := List.mem_map.mp hcmd
    exact ⟨id, List.mem_of_mem_filter hid, rfl⟩
  all := fun id hid hne => by
    refine Or.inr (List.mem_map_of_mem (List.mem_filter.mpr ⟨hid, ?_⟩))
    exact bne_iff_ne.mpr hne

/-! ## Arming -/

/-- The operation appends arms and schedules their timers. -/
def ArmsWith {β : Type} (add : List β → Nat → InstanceState → InstanceState) (P : β → Prop) (timer : β → String)
    (g : IDGenerator) (s : InstanceState) (r : StepResult) : Prop :=
  ∃ arms m, r.state = add arms m s ∧ (∀ a ∈ arms, P a) ∧
    Schedules g s.timerSeq m ((arms.map timer).filter (· != "")) r.commands

/-- Appending twice is appending once. -/
structure Appends {β : Type} (add : List β → Nat → InstanceState → InstanceState) : Prop where
  nil : ∀ s, add [] s.timerSeq s = s
  append : ∀ l l' m m' s, add l' m' (add l m s) = add (l ++ l') m' s
  timerSeq : ∀ l m s, (add l m s).timerSeq = m

theorem ArmsWith.refl {β : Type} {add : List β → Nat → InstanceState → InstanceState} (hadd : Appends add) {P : β → Prop}
    {timer : β → String} (s : InstanceState) : ArmsWith add P timer g s ⟨s, []⟩ :=
  ⟨[], s.timerSeq, (hadd.nil s).symm, by simp, Schedules.nil g s.timerSeq⟩

theorem forEach_arms {α β : Type} {add : List β → Nat → InstanceState → InstanceState} (hadd : Appends add) {P : β → Prop}
    {timer : β → String} {f : InstanceState → α → EngineResult}
    (hf : ∀ s a r, f s a = .ok r → ArmsWith add P timer g s r) :
    ∀ {l : List α} {s : InstanceState} {r : StepResult}, forEach f l s = .ok r → ArmsWith add P timer g s r := by
  intro l
  induction l with
  | nil =>
    intro s r h
    rw [← Except.ok.inj h]
    exact ArmsWith.refl hadd s
  | cons a l ih =>
    intro s r h
    obtain ⟨r1, h1, h⟩ := bind_ok h
    obtain ⟨r2, h2, h⟩ := bind_ok h
    rw [← Except.ok.inj h]
    obtain ⟨arms, m, hst, hP, hsch⟩ := hf s a r1 h1
    obtain ⟨arms', m', hst', hP', hsch'⟩ := ih h2
    refine ⟨arms ++ arms', m', ?_, ?_, ?_⟩
    · rw [StepResult.prepend_state, hst', hst, hadd.append]
    · intro b hb
      rcases List.mem_append.mp hb with hb | hb
      · exact hP b hb
      · exact hP' b hb
    · rw [hst, hadd.timerSeq] at hsch'
      rw [List.map_append, List.filter_append]
      exact hsch.append hsch'

/-- What an arm's match does to the state. -/
theorem armMatch_spec (g : IDGenerator) (s : InstanceState) (owner : String) (choice : ArmChoice) :
    ∃ m, (armMatch g s owner choice).1 = { s with timerSeq := m } ∧
      Schedules g s.timerSeq m ([(armMatch g s owner choice).2.1.timerID].filter (· != ""))
        (armMatch g s owner choice).2.2 := by
  cases choice with
  | timer spec =>
    refine ⟨s.timerSeq + 1, rfl, ?_⟩
    have hne : g.newID .timer (s.timerSeq + 1) ≠ "" := g.newID_ne_empty _ _
    have hfilter : ([g.newID .timer (s.timerSeq + 1)].filter (· != "")) = [g.newID .timer (s.timerSeq + 1)] := by
      simp [hne]
    change Schedules g s.timerSeq _ ([g.newID .timer (s.timerSeq + 1)].filter (· != "")) _
    rw [hfilter]
    exact Schedules.one g s.timerSeq owner spec .intermediate
  | signal name => exact ⟨s.timerSeq, rfl, Schedules.nil g _⟩
  | message name key => exact ⟨s.timerSeq, rfl, Schedules.nil g _⟩
  | nothing => exact ⟨s.timerSeq, rfl, Schedules.nil g _⟩

def addBoundaries (arms : List BoundaryArm) (m : Nat) (s : InstanceState) : InstanceState :=
  { s with boundaries := s.boundaries ++ arms, timerSeq := m }

def addGateways (arms : List ArmedEvent) (m : Nat) (s : InstanceState) : InstanceState :=
  { s with armedEvents := s.armedEvents ++ arms, timerSeq := m }

def addEventSubs (arms : List EventTriggeredSubprocessArm) (m : Nat) (s : InstanceState) : InstanceState :=
  { s with eventTriggeredSubprocesses := s.eventTriggeredSubprocesses ++ arms, timerSeq := m }

theorem appends_boundaries : Appends addBoundaries where
  nil := fun s => by simp [addBoundaries]
  append := fun l l' m m' s => by simp [addBoundaries]
  timerSeq := fun l m s => rfl

theorem appends_gateways : Appends addGateways where
  nil := fun s => by simp [addGateways]
  append := fun l l' m m' s => by simp [addGateways]
  timerSeq := fun l m s => rfl

theorem appends_eventSubs : Appends addEventSubs where
  nil := fun s => by simp [addEventSubs]
  append := fun l l' m m' s => by simp [addEventSubs]
  timerSeq := fun l m s => rfl

theorem armBoundaries_spec {c : StepCtx} {host node : String}
    (h : armBoundaries c td s host node = .ok r) :
    ArmsWith addBoundaries (fun ba => ba.hostToken = host ∧ ba.hostNode = node) (·.timerID) c.ids s r := by
  refine forEach_arms appends_boundaries (fun s n r h => ?_) h
  unfold armBoundary at h
  split at h
  · rename_i e _
    split at h
    · rw [← Except.ok.inj h]
      exact ArmsWith.refl appends_boundaries s
    · obtain ⟨choice, -, h⟩ := bind_ok h
      obtain ⟨m, hst, hsch⟩ := armMatch_spec c.ids s host choice
      rw [← Except.ok.inj h]
      refine ⟨[{ (armMatch c.ids s host choice).2.1 with
        hostToken := host, hostNode := node, boundaryNode := n.id, nonInterrupting := e.nonInterrupting,
        action := e.action }], m, ?_, fun ba hba => ?_, hsch⟩
      · change addBoundaries _ (armMatch c.ids s host choice).1.timerSeq (armMatch c.ids s host choice).1 = _
        rw [hst]
        rfl
      · rw [List.mem_singleton.mp hba]
        exact ⟨rfl, rfl⟩
  · rw [← Except.ok.inj h]
    exact ArmsWith.refl appends_boundaries s

theorem armEventTriggeredSubprocesses_spec {c : StepCtx} {scope : String}
    (h : armEventTriggeredSubprocesses c td s scope = .ok r) :
    ArmsWith addEventSubs (fun ea => ea.enclosingScopeID = scope) (·.timerID) c.ids s r := by
  refine forEach_arms appends_eventSubs (fun s n r h => ?_) h
  unfold armEventTriggeredSubprocess at h
  split at h
  · rw [← Except.ok.inj h]
    exact ArmsWith.refl appends_eventSubs s
  · rename_i start e _
    obtain ⟨choice, -, h⟩ := bind_ok h
    obtain ⟨m, hst, hsch⟩ := armMatch_spec c.ids s "" choice
    rw [← Except.ok.inj h]
    refine ⟨[{ (armMatch c.ids s "" choice).2.1 with
      enclosingScopeID := scope, eventSubprocessNode := n.id, nonInterrupting := e.nonInterrupting }], m, ?_,
      fun ea hea => ?_, hsch⟩
    · change addEventSubs _ (armMatch c.ids s "" choice).1.timerSeq (armMatch c.ids s "" choice).1 = _
      rw [hst]
      rfl
    · rw [List.mem_singleton.mp hea]

theorem armGatewayFlows_spec {c : StepCtx} {node : Node} {flows : List SequenceFlow}
    (h : forEach (armGatewayFlow c td tok node) flows s = .ok r) :
    ArmsWith addGateways (fun ae => ae.gatewayToken = tok.id) (·.timerID) c.ids s r := by
  refine forEach_arms appends_gateways (fun s f r h => ?_) h
  unfold armGatewayFlow at h
  split at h
  · rw [← Except.ok.inj h]
    exact ArmsWith.refl appends_gateways s
  · rename_i target _
    split at h
    · obtain ⟨choice, -, h⟩ := bind_ok h
      obtain ⟨m, hst, hsch⟩ := armMatch_spec c.ids s tok.id choice
      rw [← Except.ok.inj h]
      refine ⟨[{ (armMatch c.ids s tok.id choice).2.1 with
        gatewayToken := tok.id, catchNode := target.id, flow := f.id }], m, ?_, fun ae hae => ?_, hsch⟩
      · change addGateways _ (armMatch c.ids s tok.id choice).1.timerSeq (armMatch c.ids s tok.id choice).1 = _
        rw [hst]
        rfl
      · rw [List.mem_singleton.mp hae]
    · rw [← Except.ok.inj h]
      exact ArmsWith.refl appends_gateways s

/-! ## Disarming -/

theorem does_fireOnce (s : InstanceState) (name : String) : Does g trg d0 s (emitFireOnceAction g s name) := by
  unfold emitFireOnceAction
  split
  · exact Does.refl s
  · exact Does.of_act (.fire name s.vars)

theorem does_place (s : InstanceState) (node scope flow : String) (at_ : Time) :
    Does g trg d0 s ⟨s.onControl (·.placeTokenInScope g node scope flow at_), []⟩ :=
  Does.of_act (.place node scope flow at_)

theorem does_cancelTimersWhere (s : InstanceState) (key excl : String) (keyOf : TimerRecord → String) :
    Does g trg d0 s (s.cancelTimersWhere key excl keyOf) := by
  unfold InstanceState.cancelTimersWhere
  split
  · exact Does.refl s
  · refine Does.of_act (.dropTimers (fun tr => !(keyOf tr == key && tr.timerID != excl)) "" _ (Or.inl rfl) ?_)
    simp only [Bool.not_not]
    exact cancels_all _

theorem does_removeBoundaries (s : InstanceState) (host : String) :
    Does g trg d0 s (s.removeBoundaryArmsForHost host) := by
  unfold InstanceState.removeBoundaryArmsForHost
  split
  · exact Does.refl s
  · refine Does.of_act (.dropBoundaries (fun ba => !(ba.hostToken == host)) _ ?_)
    simp only [Bool.not_not]
    exact cancels_owned (·.toTriggerMatch) s.boundaries (fun ba => ba.hostToken == host)

theorem does_removeEventSubs (s : InstanceState) (scope : String) :
    Does g trg d0 s (s.removeEventTriggeredSubprocessArmsForScope scope) := by
  refine Does.of_act (.dropEventSubs (fun ea => !(ea.enclosingScopeID == scope)) _ ?_)
  simp only [Bool.not_not]
  exact cancels_owned (·.toTriggerMatch) s.eventTriggeredSubprocesses (fun ea => ea.enclosingScopeID == scope)

theorem does_removeGateways (s : InstanceState) (gw : String) : Does g trg d0 s (s.removeArmedEventsForGateway gw) := by
  unfold InstanceState.removeArmedEventsForGateway
  split
  · exact Does.refl s
  · refine Does.of_act (.dropGateways (fun ae => !(ae.gatewayToken == gw)) "" _ ?_)
    simp only [Bool.not_not]
    exact cancels_owned (·.toTriggerMatch) s.armedEvents (fun ae => ae.gatewayToken == gw)

theorem does_cancelAllTimers (s : InstanceState) : Does g trg d0 s s.cancelAllTimers := by
  have h : Act g trg d0 s.desk { s.desk with timers := s.desk.timers.filter (fun _ => false) }
      (cancelTimers (s.timers.map (·.timerID))) := by
    refine .dropTimers (fun _ => false) "" _ (Or.inl rfl) ?_
    simp only [Bool.not_false, List.filter_true]
    exact cancels_all _
  rw [List.filter_false] at h
  exact Does.of_act h

theorem does_cancelAllArms (s : InstanceState) : Does g trg d0 s s.cancelAllArmsAndBoundaries := by
  have hgw : Act g trg d0 s.desk { s.desk with armedEvents := s.desk.armedEvents.filter (fun _ => false) }
      (cancelTimers (ownedTimerIDs (·.toTriggerMatch) s.armedEvents (fun _ => true))) := by
    refine .dropGateways (fun _ => false) "" _ ?_
    exact cancels_owned (·.toTriggerMatch) s.armedEvents (fun _ => true)
  have hba : Act g trg d0 { s.desk with armedEvents := [] }
      { s.desk with armedEvents := [], boundaries := s.desk.boundaries.filter (fun _ => false) }
      (cancelTimers (ownedTimerIDs (·.toTriggerMatch) s.boundaries (fun _ => true))) := by
    refine Act.dropBoundaries (fun _ => false) _ ?_
    exact cancels_owned (·.toTriggerMatch) s.boundaries (fun _ => true)
  rw [List.filter_false] at hgw hba
  exact hgw.acts.trans hba.acts

/-- The host has no boundary left. -/
theorem removeBoundaries_gone (s : InstanceState) {host : String} (hne : host ≠ "") :
    ∀ ba ∈ (s.removeBoundaryArmsForHost host).state.boundaries, ba.hostToken ≠ host := by
  unfold InstanceState.removeBoundaryArmsForHost
  rw [if_neg (by simpa using hne)]
  intro ba hba
  simpa using (List.mem_filter.mp hba).2

theorem removeGateways_gone (s : InstanceState) {gw : String} (hne : gw ≠ "") :
    ∀ ae ∈ (s.removeArmedEventsForGateway gw).state.armedEvents, ae.gatewayToken ≠ gw := by
  unfold InstanceState.removeArmedEventsForGateway
  rw [if_neg (by simpa using hne)]
  intro ae hae
  simpa using (List.mem_filter.mp hae).2

/-! ## Tokens by id -/

theorem Desk.Sane.eq_of_id (h : d.Sane) {t t' : Token} (ht : t ∈ d.tokens) (ht' : t' ∈ d.tokens) (hid : t.id = t'.id) :
    t = t' := List.inj_on_of_nodup_map h.nodup ht ht' hid

theorem tokenByID_of_sane (hs : s.desk.Sane) (hmem : tok ∈ s.tokens) : s.tokenByID tok.id = some tok := by
  unfold ControlState.tokenByID
  rw [if_neg (by simpa using hs.named tok hmem)]
  cases hf : s.tokens.find? (fun t => t.id == tok.id) with
  | none => exact absurd (List.find?_eq_none.mp hf tok hmem) (by simp)
  | some t =>
    have ht := List.mem_of_find?_eq_some hf
    have hid : t.id = tok.id := by simpa using List.find?_some hf
    rw [hs.eq_of_id ht hmem hid]

/-! ## Cancelling -/

/-- The front once the token is cancelled. -/
theorem cancelToken_front (hs : s.desk.Sane) (hmem : tok ∈ s.tokens) (at_ : Time) (kind : CloseKind) :
    (s.toControlState.cancelToken tok at_ kind).front =
      { s.toControlState.front with
        tokens := s.tokens.filter (fun t => t.id != tok.id)
        cuts := if tok.awaitTimer == "" then s.toControlState.front.cuts else tok :: s.toControlState.front.cuts } := by
  unfold ControlState.cancelToken
  rw [tokenByID_of_sane hs hmem]
  obtain ⟨h, -, he⟩ := s.toControlState.consumeTokenAs_shape tok at_ kind
  dsimp only
  rw [he, removeToken_of_ne _ (hs.named tok hmem)]
  by_cases ht : (tok.awaitTimer == "") = true
  · have hcut : Event.cut? (.cancelled tok s.deferredCompensationThrows s.walking) = none := if_pos ht
    rw [if_pos ht]
    unfold ControlState.front ControlState.note
    rw [List.filterMap_cons_none hcut]
    rfl
  · have hcut : Event.cut? (.cancelled tok s.deferredCompensationThrows s.walking) = some tok := if_neg ht
    rw [if_neg ht]
    unfold ControlState.front ControlState.note
    rw [List.filterMap_cons_some hcut]
    rfl

/-- The task part of `cancelTokenWaits`. -/
def closeTask (s : InstanceState) (taskID : String) : StepResult :=
  match s.taskByID taskID with
  | some task =>
    if task.isOpen then ⟨s.updateTask taskID HumanTask.cancel, [.updateTask task.cancel]⟩ else ⟨s, []⟩
  | none => ⟨s, []⟩

theorem closeTask_desk (s : InstanceState) (taskID : String) :
    closeTask s taskID = ⟨{ s with tasks := (s.desk.closedTask taskID).1 }, (s.desk.closedTask taskID).2⟩ := by
  unfold closeTask InstanceState.taskByID Desk.closedTask
  by_cases hne : (taskID == "") = true
  · rw [if_pos hne, if_pos hne]
    rfl
  · rw [if_neg hne, if_neg hne]
    change (match s.tasks.find? _ with | some task => _ | none => _) = _
    cases hf : s.tasks.find? (fun t => t.taskID == taskID) with
    | none =>
      have hf' : s.desk.tasks.find? (fun t => t.taskID == taskID) = none := hf
      simp only [hf']
      rfl
    | some task =>
      have hf' : s.desk.tasks.find? (fun t => t.taskID == taskID) = some task := hf
      simp only [hf']
      split <;> rfl

theorem removeIncidents_eq (s : InstanceState) {id : String} (hne : id ≠ "") :
    s.removeIncidentsForToken id = { s with incidents := s.incidents.filter (fun inc => inc.tokenID != id) } := by
  unfold InstanceState.removeIncidentsForToken
  rw [if_neg (by simpa using hne)]

/-- Everything the token waits on goes, then the token. -/
theorem does_cancelTokenWaits (hmem : tok ∈ s.tokens) (at_ : Time) (kind : CloseKind) :
    Does g trg d0 s (cancelTokenWaits s tok at_ kind) := by
  refine Acts.sane_or (fun hs => ?_)
  have hne := hs.named tok hmem
  unfold cancelTokenWaits
  dsimp only
  have h1 : Does g trg d0 s (s.cancelTimersByTaskID tok.awaitCommand "") := does_cancelTimersWhere s _ _ _
  have h2 := h1.trans (does_cancelTimersWhere (s.cancelTimersByTaskID tok.awaitCommand "").state tok.id "" (·.token))
  set r2 := (s.cancelTimersByTaskID tok.awaitCommand "").state.cancelTimersForToken tok.id "" with hr2
  have h3 := h2.trans (does_removeBoundaries r2.state tok.id)
  set r3 := r2.state.removeBoundaryArmsForHost tok.id with hr3
  -- the gateway's arms
  obtain ⟨r4, hr4, h4, hctl4, hb4, hgw4⟩ : ∃ r4 : StepResult, (if awaitsEventGateway tok.awaitCommand then
      r3.state.removeArmedEventsForGateway tok.id else ⟨r3.state, []⟩) = r4 ∧ Does g trg d0 r3.state r4 ∧
      r4.state.toControlState = r3.state.toControlState ∧ r4.state.boundaries = r3.state.boundaries ∧
      (awaitsEventGateway tok.awaitCommand = true → ∀ ae ∈ r4.state.armedEvents, ae.gatewayToken ≠ tok.id) := by
    by_cases hgw : awaitsEventGateway tok.awaitCommand = true
    · rw [if_pos hgw]
      refine ⟨_, rfl, does_removeGateways r3.state tok.id, r3.state.removeArmedEventsForGateway_control _, ?_,
        fun _ => removeGateways_gone r3.state hne⟩
      unfold InstanceState.removeArmedEventsForGateway
      split <;> rfl
    · rw [if_neg hgw]
      exact ⟨_, rfl, Does.refl _, rfl, rfl, fun h => absurd h hgw⟩
  rw [hr4]
  change Acts g trg d0 s.desk (((closeTask r4.state tok.awaitCommand).state.removeIncidentsForToken tok.id).onControl
    (·.cancelToken tok at_ kind)).desk (_ ++ (closeTask r4.state tok.awaitCommand).commands)
  rw [closeTask_desk]
  have h34 := h3.trans h4
  have hctl : r4.state.toControlState = s.toControlState := by
    rw [hctl4, hr3, InstanceState.removeBoundaryArmsForHost_control, hr2, InstanceState.cancelTimersForToken_control,
      InstanceState.cancelTimersByTaskID_control]
  have hs4 : r4.state.desk.Sane := by
    have htok : r4.state.desk.toFront = s.desk.toFront := congrArg ControlState.front hctl
    exact ⟨by rw [htok]; exact hs.nodup, by rw [htok]; exact hs.named, by rw [htok]; exact hs.finals⟩
  have hmem4 : tok ∈ r4.state.tokens := by rw [hctl]; exact hmem
  have hact : Act g trg d0 r4.state.desk _ _ := Act.cancel tok hmem4
    ⟨fun ba hba => removeBoundaries_gone r2.state hne ba (by rw [← hr3, ← hb4]; exact hba), hgw4⟩
  set x : InstanceState := ({ r4.state with tasks := (r4.state.desk.closedTask tok.awaitCommand).1 }.removeIncidentsForToken
    tok.id).onControl (·.cancelToken tok at_ kind) with hx
  have hdesk : x.desk = { r4.state.desk.remove tok.id with
      tasks := (r4.state.desk.closedTask tok.awaitCommand).1
      incidents := r4.state.desk.incidents.filter (fun inc => inc.tokenID != tok.id)
      cuts := (if tok.awaitTimer == "" then r4.state.desk.cuts else tok :: r4.state.desk.cuts) } := by
    rw [hx, removeIncidents_eq _ hne]
    unfold InstanceState.desk
    simp only [InstanceState.onControl_toControlState]
    rw [cancelToken_front hs4 hmem4 at_ kind]
    rfl
  rw [← hdesk] at hact
  refine Acts.perm (Does.thenAct h34 hact) ?_
  simp only [StepResult.prepend, List.append_assoc]
  exact List.Perm.refl _

theorem cancelTokenWaits_tokens (hs : s.desk.Sane) (hmem : tok ∈ s.tokens) (at_ : Time) (kind : CloseKind) :
    (cancelTokenWaits s tok at_ kind).state.tokens = s.tokens.filter (fun t => t.id != tok.id) := by
  rw [cancelTokenWaits_control]
  exact congrArg Front.tokens (cancelToken_front hs hmem at_ kind)

theorem does_cancelTokens (at_ : Time) (kind : CloseKind) (toks : List Token) (hmem : ∀ t ∈ toks, t ∈ s.tokens)
    (hnodup : s.desk.Sane → (toks.map (·.id)).Nodup) : Does g trg d0 s (cancelTokens at_ kind toks s) := by
  induction toks generalizing s with
  | nil => exact Does.refl s
  | cons tok toks ih =>
    refine Acts.sane_or (fun hs => ?_)
    have htok := hmem tok List.mem_cons_self
    obtain ⟨hfresh, hrest⟩ := List.nodup_cons.mp (hnodup hs)
    refine Does.trans (does_cancelTokenWaits htok at_ kind) (ih (fun t ht => ?_) (fun _ => hrest))
    -- the others are still there
    rw [cancelTokenWaits_tokens hs htok at_ kind]
    refine List.mem_filter.mpr ⟨hmem t (List.mem_cons_of_mem tok ht), bne_iff_ne.mpr (fun he => hfresh ?_)⟩
    exact List.mem_map.mpr ⟨t, ht, he⟩

theorem does_cancelFiltered (at_ : Time) (kind : CloseKind) (q : Token → Bool) :
    Does g trg d0 s (cancelTokens at_ kind (s.tokens.filter q) s) :=
  does_cancelTokens at_ kind _ (fun _ ht => List.mem_of_mem_filter ht)
    (fun hs => (List.filter_sublist.map _).nodup hs.nodup)

theorem does_cancelAll (at_ : Time) (kind : CloseKind) : Does g trg d0 s (cancelTokens at_ kind s.tokens s) :=
  does_cancelTokens at_ kind _ (fun _ ht => ht) (fun hs => hs.nodup)

/-! ## Scopes -/

theorem does_teardownScopes (ids : List String) (s : InstanceState) : Does g trg d0 s (teardownScopes ids s) := by
  induction ids generalizing s with
  | nil => exact Does.refl s
  | cons id ids ih =>
    have hdrop : Does g trg d0 s (s.removeEventTriggeredSubprocessArmsForScope id) := does_removeEventSubs s id
    refine hdrop.trans (Does.after ?_ (ih _))
    exact desk_onControl (front_of_outline (archiveCompensations_outline _ id))

theorem teardownScopes_sub (ids : List String) (s : InstanceState) :
    ∀ ea ∈ (teardownScopes ids s).state.eventTriggeredSubprocesses,
      ea ∈ s.eventTriggeredSubprocesses ∧ ea.enclosingScopeID ∉ ids := by
  induction ids generalizing s with
  | nil => exact fun ea hea => ⟨hea, by simp⟩
  | cons id ids ih =>
    intro ea hea
    obtain ⟨hmem, hid⟩ := ih _ ea hea
    have hkept := List.mem_filter.mp hmem
    refine ⟨hkept.1, fun hc => ?_⟩
    rcases List.mem_cons.mp hc with hc | hc
    · exact absurd hkept.2 (by simp [hc])
    · exact hid hc

theorem does_cancelScopeSubtree (s : InstanceState) (scopeID : String) (at_ : Time) (kind : CloseKind) :
    Does g trg d0 s (cancelScopeSubtree s scopeID at_ kind) :=
  (does_cancelFiltered at_ kind _).trans (does_teardownScopes _ _)

theorem cancelScopeSubtree_scopes (s : InstanceState) (scopeID : String) (at_ : Time) (kind : CloseKind) :
    (cancelScopeSubtree s scopeID at_ kind).state.scopes.map Scope.bare = s.scopes.map Scope.bare := by
  obtain ⟨toks, hctl⟩ := cancelScopeSubtree_control s scopeID at_ kind
  rw [hctl, (sameOutline (archiveAll_outline _ _)).scopes, (cancelListed_scopes _ _ _ _).1]

/-- No event sub-process is armed in the scope or in an open scope nested in it. -/
theorem cancelScopeSubtree_disarmed (s : InstanceState) (scopeID : String) (at_ : Time) (kind : CloseKind) :
    ∀ ea ∈ (cancelScopeSubtree s scopeID at_ kind).state.eventTriggeredSubprocesses,
      ea.enclosingScopeID ≠ scopeID ∧ ∀ sc ∈ s.scopes, sc.id ∈ descendantScopeIDs s.scopes scopeID →
        ea.enclosingScopeID ≠ sc.id := by
  intro ea hea
  obtain ⟨-, hnot⟩ := teardownScopes_sub _ _ ea hea
  refine ⟨fun he => hnot (he ▸ List.mem_cons_self), fun sc hsc hin he => hnot ?_⟩
  by_cases hs : sc.id = scopeID
  · rw [he, hs]
    exact List.mem_cons_self
  · refine List.mem_cons_of_mem _ (List.mem_filter.mpr ⟨?_, ?_⟩)
    · rw [he]
      exact List.mem_map_of_mem hsc
    · rw [he]
      simpa [hs] using hin

/-- The scopes of a desk after some were closed by their ids. -/
theorem filter_bare (scopes : List Scope) (p : String → Bool) :
    (scopes.filter (fun sc => p sc.id)).map Scope.bare = (scopes.map Scope.bare).filter (fun sc => p sc.id) := by
  rw [List.filter_map]
  rfl

theorem closeScope_front (a : ControlState) (id : String) :
    ∃ p : String → Bool, (a.closeScope id).front = { a.front with scopes := a.front.scopes.filter (fun sc => p sc.id) } ∧
      ∀ i, p i = false → i ∈ descendantScopeIDs a.scopes id := by
  unfold ControlState.closeScope
  split
  · refine ⟨fun _ => true, ?_, by simp⟩
    rw [List.filter_true]
  · refine ⟨fun i => !(descendantScopeIDs a.scopes id).contains i, ?_, fun i hi => by simpa using hi⟩
    unfold ControlState.front
    dsimp only
    rw [filter_bare a.scopes (fun i => !(descendantScopeIDs a.scopes id).contains i)]

/-- Scopes of a cancelled subtree are closed. -/
theorem does_closeSubtree {c : StepCtx} {scopeID : String}
    (hr : r = cancelScopeSubtree s scopeID c.at_ .boundaryInterrupted) {f : ControlState → ControlState} {p : String → Bool}
    (hdesk : (r.state.onControl f).desk = { r.state.desk with scopes := r.state.desk.scopes.filter (fun sc => p sc.id) })
    (hp : ∀ i, p i = false → i ∈ descendantScopeIDs r.state.scopes scopeID) :
    Does g trg d0 s ⟨r.state.onControl f, r.commands⟩ := by
  subst hr
  have hdis := cancelScopeSubtree_disarmed s scopeID c.at_ .boundaryInterrupted
  have hbare := cancelScopeSubtree_scopes s scopeID c.at_ .boundaryInterrupted
  set r := cancelScopeSubtree s scopeID c.at_ .boundaryInterrupted with hr
  have hact : Act g trg d0 r.state.desk (r.state.onControl f).desk [] := by
    rw [hdesk]
    refine .closeScopes _ (fun sc hsc hpf ea hea => ?_)
    have hin := hp sc.id hpf
    rw [← descendantScopeIDs_bare, hbare, descendantScopeIDs_bare] at hin
    have hsc' : sc ∈ s.scopes.map Scope.bare := hbare ▸ hsc
    obtain ⟨sc0, hsc0, rfl⟩ := List.mem_map.mp hsc'
    exact (hdis ea hea).2 sc0 hsc0 hin
  have hcancel : Does g trg d0 s r := does_cancelScopeSubtree s scopeID c.at_ .boundaryInterrupted
  have hboth := hcancel.thenAct hact
  rwa [List.append_nil] at hboth

theorem does_consumeErrScope (c : StepCtx) (s : InstanceState) (scopeID : String) :
    Does g trg d0 s (consumeErrScope c scopeID s) := by
  obtain ⟨p, hfront, hp⟩ := closeScope_front
    (cancelScopeSubtree s scopeID c.at_ .boundaryInterrupted).state.toControlState scopeID
  refine does_closeSubtree rfl ?_ hp
  unfold InstanceState.desk
  rw [InstanceState.onControl_toControlState, hfront]
  rfl

theorem does_interruptScope (c : StepCtx) (s : InstanceState) (scopeID : String) :
    Does g trg d0 s (interruptScope c s scopeID) := by
  set r := cancelScopeSubtree s scopeID c.at_ .boundaryInterrupted with hr
  set p : String → Bool := fun i => !(i != scopeID && (descendantScopeIDs r.state.scopes scopeID).contains i) with hp
  refine does_closeSubtree (p := p) hr ?_ (fun i hi => ?_)
  · have hf := filter_bare r.state.scopes p
    unfold InstanceState.desk
    rw [InstanceState.onControl_toControlState]
    unfold ControlState.front ControlState.note ControlState.closeScopeDescendants
    dsimp only
    rw [hf]
    rfl
  · rw [hp] at hi
    simp only [Bool.not_eq_false', Bool.and_eq_true] at hi
    simpa using hi.2

/-- A scope whose event sub-processes are disarmed ends. -/
theorem exitScope_front (a : ControlState) (id : String) (enclosing : Bool) :
    ∃ p : Scope → Bool, (a.exitScope id enclosing).front = { a.front with
      scopes := a.front.scopes.filter p, exits := (id, a.front.scopes) :: a.front.exits } ∧
      ∀ sc ∈ a.front.scopes, p sc = false → sc.id ∈ descendantScopeIDs a.front.scopes id := by
  set b := (a.note (.exited id enclosing a.tokens a.scopes a.compensating)).archiveCompensations id with hb
  have hnote : b.front = { a.front with exits := (id, a.scopes.map Scope.bare) :: a.front.exits } :=
    (front_of_outline (archiveCompensations_outline _ id)).trans rfl
  have hscopes : b.scopes.map Scope.bare = a.scopes.map Scope.bare := congrArg Front.scopes hnote
  obtain ⟨p, hfront, hp⟩ := closeScope_front b id
  refine ⟨fun sc => p sc.id, ?_, fun sc hsc hpf => ?_⟩
  · have hexit : (a.exitScope id enclosing).front = (b.closeScope id).front := rfl
    rw [hexit, hfront, hnote]
    rfl
  · have hin := hp sc.id hpf
    rw [← descendantScopeIDs_bare, hscopes] at hin
    exact hin

theorem does_exitScope (s : InstanceState) (id : String) (enclosing plain : Bool)
    (harm : plain = true → ∀ ea ∈ s.eventTriggeredSubprocesses, ea.enclosingScopeID ≠ id) :
    Does g trg d0 s ⟨s.onControl (·.exitScope id enclosing), []⟩ := by
  obtain ⟨p, hfront, hp⟩ := exitScope_front s.toControlState id enclosing
  have hact : Act g trg d0 s.desk (s.onControl (·.exitScope id enclosing)).desk [] := by
    rw [onControl_desk, hfront]
    exact .exitScope id p plain harm hp
  exact hact.acts

/-! ## Ending -/

theorem endControl_front (a : ControlState) {st : Status} (hst : st.isTerminal = true) (err : String) :
    (a.endControl st err).front = { a.front with
      live := false, scopes := [], walk := "", backoff := false, finals := [.running, a.pendingFinalStatus],
      ends := st :: a.front.ends } := by
  have ho := front_of_outline (harvest_outline { a with status := st })
  have hn : (({ a with status := st }.harvestOpenScopeCompensations).note (.ended st err a.compensating)).front =
      { ({ a with status := st }.harvestOpenScopeCompensations).front with
        ends := st :: ({ a with status := st }.harvestOpenScopeCompensations).front.ends } := rfl
  have hf : (({ a with status := st }.harvestOpenScopeCompensations).note (.ended st err a.compensating)).front =
      { a.front with live := !st.isTerminal, ends := st :: a.front.ends } := by
    rw [hn, ho]
    rfl
  have hpend : ({ a with status := st }.harvestOpenScopeCompensations).pendingFinalStatus = a.pendingFinalStatus :=
    (sameOutline (harvest_outline { a with status := st })).pendingFinalStatus
  have hend : (a.endControl st err).front =
      { (({ a with status := st }.harvestOpenScopeCompensations).note (.ended st err a.compensating)).front with
        scopes := [], walk := "", backoff := false,
        finals := [.running, ({ a with status := st }.harvestOpenScopeCompensations).pendingFinalStatus] } := rfl
  rw [hend, hf, hpend, hst]
  rfl

theorem endIncidents (s : InstanceState) (tokens : List Token) (htokens : s.tokens = tokens) (st : Status) (at_ : Time)
    (terminal : Option Command) :
    (s.endInstance st at_ terminal).state.incidents = s.incidents.filter (s.desk.outlives tokens) := by
  have htok : ((s.retireCompensationStallIncidents s.compensating.activeCmdID).toControlState.endControl st
      (InstanceState.terminalErr terminal)).tokens = tokens := by
    rw [InstanceState.retireCompensationStallIncidents_control, ← htokens]
    exact (sameOutline (harvest_outline { s.toControlState with status := st })).tokens
  have hinc : (s.endInstance st at_ terminal).state.incidents =
      (s.retireCompensationStallIncidents s.compensating.activeCmdID).incidents.filter (fun inc =>
        !(inc.tokenID != "" &&
          (if inc.tokenID == "" then none else tokens.find? (fun t => t.id == inc.tokenID)).isNone)) := by
    rw [← htok]
    rfl
  have horphan : ∀ inc : Incident, (inc.tokenID != "" && (if inc.tokenID == "" then none else
      tokens.find? (fun t => t.id == inc.tokenID)).isNone) =
        (inc.tokenID != "" && !tokens.any (fun t => t.id == inc.tokenID)) := by
    intro inc
    by_cases hid : inc.tokenID = ""
    · rw [hid]
      rfl
    · rw [if_neg (by simpa using hid), ← Option.not_isSome]
      congr 2
      rw [Bool.eq_iff_iff, List.find?_isSome, List.any_eq_true]
  rw [hinc]
  unfold InstanceState.retireCompensationStallIncidents InstanceState.retireIncidents
  by_cases hw : s.compensating.activeCmdID = ""
  · rw [if_pos (by simpa using hw)]
    refine List.filter_congr (fun inc _ => ?_)
    have hwalk : s.desk.walk = "" := hw
    unfold Desk.outlives
    rw [hwalk, horphan inc]
    rfl
  · rw [if_neg (by simpa using hw)]
    dsimp only
    rw [List.filter_filter]
    refine List.filter_congr (fun inc _ => ?_)
    have hwalk : s.desk.walk = s.compensating.activeCmdID := rfl
    have hne : (s.compensating.activeCmdID != "") = true := bne_iff_ne.mpr hw
    unfold Desk.outlives
    rw [hwalk, horphan inc, hne, Bool.true_and, Bool.and_comm]

theorem mem_cancelTimers {id : String} {ids : List String} (h : id ∈ ids) : Command.cancelTimer id ∈ cancelTimers ids :=
  List.mem_map_of_mem h

theorem mem_ownedTimerIDs {α : Type} {trigger : α → TriggerMatch} {arms : List α} {id : String} (hne : id ≠ "")
    (h : id ∈ arms.map (fun a => (trigger a).timerID)) : id ∈ ownedTimerIDs trigger arms (fun _ => true) := by
  unfold ownedTimerIDs
  rw [List.filter_true]
  exact List.mem_filter.mpr ⟨h, by simpa using hne⟩

/-- The instance ends after an operation that at most takes out every token. -/
theorem does_endInstance {f : ControlState → ControlState} {tokens cuts : List Token} {st : Status} {scopes : List Scope}
    {exits : List (String × List Scope)}
    (hf : (f s.toControlState).front = { s.toControlState.front with
      tokens := tokens, cuts := cuts, scopes := scopes, exits := exits })
    (htokens : (tokens = s.tokens ∧ cuts = s.desk.cuts) ∨
      (tokens = [] ∧ s.desk.cuts ⊆ cuts ∧ ∀ t ∈ s.tokens, t.awaitTimer ≠ "" → t ∈ cuts))
    (hst : st.isTerminal = true) (at_ : Time) {terminal : Option Command} (hterm : ∀ cmd ∈ terminal, cmd.Neutral) :
    Does g trg d0 s ((s.onControl f).endInstance st at_ terminal) := by
  set s1 := s.onControl f with hs1
  have htok : s1.tokens = tokens := congrArg Front.tokens hf
  have hwalk : s1.desk.walk = s.desk.walk := (congrArg Front.walk hf :)
  have hpend : s1.pendingFinalStatus = s.pendingFinalStatus := by
    have := congrArg Front.finals hf
    exact (List.cons.inj (List.cons.inj this).2).1
  have hinc := endIncidents s1 tokens htok st at_ terminal
  have hout : s1.desk.outlives tokens = s.desk.outlives tokens := by
    funext inc
    unfold Desk.outlives
    rw [hwalk]
  rw [hout] at hinc
  have hfront : (s1.endInstance st at_ terminal).state.toControlState.front = { s.toControlState.front with
      live := false, tokens := tokens, scopes := [], walk := "", backoff := false, finals := [.running, s.pendingFinalStatus],
      exits := exits, cuts := cuts, ends := st :: s.toControlState.front.ends } := by
    rw [InstanceState.endInstance_control, endControl_front _ hst, hpend, hs1, InstanceState.onControl_toControlState, hf]
  have hact : Act g trg d0 s.desk (s1.endInstance st at_ terminal).state.desk (s1.endInstance st at_ terminal).commands := by
    have hdesk : (s1.endInstance st at_ terminal).state.desk = { s.desk with
        live := false, tokens := tokens, scopes := [], walk := "", backoff := false,
        finals := [.running, s.desk.finals.getLastD .running], timers := [], armedEvents := [], boundaries := [],
        eventSubs := [], exits := exits, cuts := cuts,
        ends := st :: s.desk.ends, tasks := s.desk.tasks.map (fun t => if t.isOpen then t.cancel else t),
        incidents := s.desk.incidents.filter (s.desk.outlives tokens) } := by
      unfold InstanceState.desk
      rw [hfront, hinc]
      have hr : (s1.endInstance st at_ terminal).state.tasks = s.tasks.map (fun t => if t.isOpen then t.cancel else t) ∧
          (s1.endInstance st at_ terminal).state.incidentSeq = s.incidentSeq ∧
          (s1.endInstance st at_ terminal).state.taskSeq = s.taskSeq ∧
          (s1.endInstance st at_ terminal).state.timerSeq = s.timerSeq := by
        unfold InstanceState.endInstance InstanceState.retireCompensationStallIncidents InstanceState.retireIncidents
        split <;> exact ⟨rfl, rfl, rfl, rfl⟩
      rw [hr.1, hr.2.1, hr.2.2.1, hr.2.2.2]
      rfl
    rw [hdesk]
    have hcmds : (s1.endInstance st at_ terminal).commands =
        (s.tasks.filter (·.isOpen)).map (fun t => .updateTask t.cancel) ++ terminal.toList ++
        (cancelTimers (s.timers.map (·.timerID)) ++
          (cancelTimers (ownedTimerIDs (·.toTriggerMatch) s.armedEvents (fun _ => true)) ++
            cancelTimers (ownedTimerIDs (·.toTriggerMatch) s.boundaries (fun _ => true))) ++
          cancelTimers (ownedTimerIDs (·.toTriggerMatch) s.eventTriggeredSubprocesses (fun _ => true))) := by
      unfold InstanceState.endInstance InstanceState.retireCompensationStallIncidents InstanceState.retireIncidents
      split <;> rfl
    refine .finish tokens _ cuts exits st htokens (fun id hne hid => ?_) ⟨terminal.toList, _, hcmds, ?_, fun cmd hcmd => ?_⟩
    · rw [hcmds]
      refine List.mem_append_right _ ?_
      rcases hid with hid | hid | hid | hid
      · exact List.mem_append_left _ (List.mem_append_left _ (mem_cancelTimers hid))
      · exact List.mem_append_left _ (List.mem_append_right _ (List.mem_append_left _
          (mem_cancelTimers (mem_ownedTimerIDs hne hid))))
      · exact List.mem_append_left _ (List.mem_append_right _ (List.mem_append_right _
          (mem_cancelTimers (mem_ownedTimerIDs hne hid))))
      · exact List.mem_append_right _ (mem_cancelTimers (mem_ownedTimerIDs hne hid))
    · intro cmd hcmd
      exact hterm cmd (by simpa using hcmd)
    · simp only [cancelTimers, List.mem_append, List.mem_map] at hcmd
      rcases hcmd with (⟨id, -, rfl⟩ | ⟨id, -, rfl⟩ | ⟨id, -, rfl⟩) | ⟨id, -, rfl⟩ <;> exact ⟨id, rfl⟩
  exact hact.acts

theorem does_end {st : Status} (s : InstanceState) (hst : st.isTerminal = true) (at_ : Time) {terminal : Option Command}
    (hterm : ∀ cmd ∈ terminal, cmd.Neutral) : Does g trg d0 s (s.endInstance st at_ terminal) :=
  have hf : s.toControlState.front = { s.toControlState.front with
      tokens := s.tokens, cuts := s.desk.cuts, scopes := s.desk.scopes, exits := s.desk.exits } := rfl
  have htokens : (s.tokens = s.tokens ∧ s.desk.cuts = s.desk.cuts) ∨
      (s.tokens = [] ∧ s.desk.cuts ⊆ s.desk.cuts ∧ ∀ t ∈ s.tokens, t.awaitTimer ≠ "" → t ∈ s.desk.cuts) := Or.inl ⟨rfl, rfl⟩
  does_endInstance (f := fun a => a) hf htokens hst at_ hterm

theorem does_complete (s : InstanceState) (at_ : Time) : Does g trg d0 s (s.complete at_) :=
  does_end s rfl at_ (fun cmd hcmd => by cases hcmd; trivial)

/-- Every token is taken out at once. -/
theorem cancelAllTokens_front (a : ControlState) (at_ : Time) (kind : CloseKind) :
    ∃ cuts, (a.cancelAllTokens at_ kind).front = { a.front with tokens := [], cuts := cuts } ∧ a.front.cuts ⊆ cuts ∧
      ∀ t ∈ a.tokens, t.awaitTimer ≠ "" → t ∈ cuts := by
  have hfold : ∀ (toks : List Token) (b : ControlState), ∃ cuts, (toks.foldl (fun s tok =>
      (s.closeVisitAs tok.id tok.nodeID at_ kind).note (.cancelled tok s.deferredCompensationThrows s.walking)) b).front =
        { b.front with cuts := cuts } ∧ b.front.cuts ⊆ cuts ∧ ∀ t ∈ toks, t.awaitTimer ≠ "" → t ∈ cuts := by
    intro toks
    induction toks with
    | nil => exact fun b => ⟨b.front.cuts, rfl, fun _ h => h, by simp⟩
    | cons tok toks ih =>
      intro b
      set b1 := (b.closeVisitAs tok.id tok.nodeID at_ kind).note (.cancelled tok b.deferredCompensationThrows b.walking)
      obtain ⟨cuts, hfront, hsub, hall⟩ := ih b1
      have hclosed := b.closeVisitAs_front tok.id tok.nodeID at_ kind
      by_cases ht : tok.awaitTimer = ""
      · have hb1 : b1.front = b.front := by
          have hcut : Event.cut? (.cancelled tok b.deferredCompensationThrows b.walking) = none :=
            if_pos (by simpa using ht)
          have hnote : b1.front = (b.closeVisitAs tok.id tok.nodeID at_ kind).front := by
            unfold b1 ControlState.front ControlState.note
            rw [List.filterMap_cons_none hcut]
            rfl
          rw [hnote, hclosed]
        refine ⟨cuts, by rw [List.foldl_cons, hfront, hb1], fun t h => hsub (hb1 ▸ h), fun t hm hne => ?_⟩
        rcases List.mem_cons.mp hm with rfl | hm
        · exact absurd ht hne
        · exact hall t hm hne
      · have hb1 : b1.front = { b.front with cuts := tok :: b.front.cuts } := by
          have hcut : Event.cut? (.cancelled tok b.deferredCompensationThrows b.walking) = some tok :=
            if_neg (by simpa using ht)
          have hnote : b1.front = { (b.closeVisitAs tok.id tok.nodeID at_ kind).front with
              cuts := tok :: (b.closeVisitAs tok.id tok.nodeID at_ kind).front.cuts } := by
            unfold b1 ControlState.front ControlState.note
            rw [List.filterMap_cons_some hcut]
            rfl
          rw [hnote, hclosed]
        refine ⟨cuts, by rw [List.foldl_cons, hfront, hb1], fun t h => hsub ?_, fun t hm hne => ?_⟩
        · rw [hb1]
          exact List.mem_cons_of_mem tok h
        · rcases List.mem_cons.mp hm with rfl | hm
          · exact hsub (by rw [hb1]; exact List.mem_cons_self)
          · exact hall t hm hne
  obtain ⟨cuts, hfront, hsub, hall⟩ := hfold a.tokens a
  refine ⟨cuts, ?_, hsub, hall⟩
  have hgone : (a.cancelAllTokens at_ kind).front = { (a.tokens.foldl (fun s tok =>
      (s.closeVisitAs tok.id tok.nodeID at_ kind).note (.cancelled tok s.deferredCompensationThrows s.walking)) a).front with
        tokens := [] } := rfl
  rw [hgone, hfront]

end Wrkflw
