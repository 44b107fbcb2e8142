import Wrkflw.Machine.DeskNodes

/-!
# Steps on a desk

The acts of the node strategies, of the `drive` loop and of every trigger handler. `dispatch_does` is the result: whatever
`dispatch` returns, it got there by acts.
-/

namespace Wrkflw

open ControlState

variable {cmds : List Command} {er : EnterResult} {cur : String}

section
variable {trg : TriggerBody} {d0 : Desk} {s s' : InstanceState} {r r' : StepResult} {c : StepCtx}
  {drv : DriveLoop} {g : IDGenerator} {td : ProcessDefinition} {tok : Token} {node : Node}

/-! ## Parking -/

theorem Schedules.perm {n m : Nat} {ids ids' : List String} {cmds' : List Command} (h : Schedules g n m ids cmds)
    (hi : ids.Perm ids') (hc : cmds.Perm cmds') : Schedules g n m ids' cmds' where
  le := h.le
  fresh := fun id hid => h.fresh id (hi.mem_iff.mpr hid)
  nodup := hi.nodup_iff.mp h.nodup
  only := fun cmd hcmd => by
    obtain ⟨id, hid, rest⟩ := h.only cmd (hc.mem_iff.mpr hcmd)
    exact ⟨id, hi.mem_iff.mp hid, rest⟩
  all := fun id hid => by
    obtain ⟨owner, spec, kind, hmem⟩ := h.all id (hi.mem_iff.mpr hid)
    exact ⟨owner, spec, kind, hc.mem_iff.mp hmem⟩
  once := ((hc.filterMap _).symm.trans h.once).trans (hi.map _)

/-- The operation records and schedules timers. -/
def Times (g : IDGenerator) (s : InstanceState) (r : StepResult) (trs : List TimerRecord) : Prop :=
  ∃ m, r.state = { s with timers := s.timers ++ trs, timerSeq := m } ∧
    Schedules g s.timerSeq m (trs.map (·.timerID)) r.commands

theorem Times.refl (s : InstanceState) : Times g s ⟨s, []⟩ [] :=
  ⟨s.timerSeq, by simp, Schedules.nil g s.timerSeq⟩

theorem Times.recorded (s : InstanceState) (tok : Token) (kind : TimerKind) (taskID nodeID : String) (spec : TriggerSpec) :
    ∃ trs, Times g s (scheduleRecorded g s tok kind taskID nodeID spec) trs ∧
      ∀ tr ∈ trs, tr.kind = kind ∧ tr.taskID = taskID ∧ tr.scopeID = tok.scopeID := by
  refine ⟨[_], ⟨s.timerSeq + 1, rfl, Schedules.one g s.timerSeq tok.id spec kind⟩, fun tr htr => ?_⟩
  rw [List.mem_singleton.mp htr]
  exact ⟨rfl, rfl, rfl⟩

/-- A reminder is no deadline. -/
theorem Times.reminder {key : String} (h : armWaitReminder c s tok node key = .ok r) :
    ∃ trs, Times c.ids s r trs ∧ ∀ tr ∈ trs, tr.kind ≠ .deadline := by
  obtain ⟨spec, -, h⟩ := bind_ok h
  split at h
  · rw [← Except.ok.inj h]
    exact ⟨[], Times.refl s, nofun⟩
  · rw [← Except.ok.inj h]
    obtain ⟨trs, ht, hall⟩ := Times.recorded (g := c.ids) s tok .inWait key node.id spec
    refine ⟨trs, ht, fun tr htr hkind => ?_⟩
    rw [(hall tr htr).1] at hkind
    cases hkind

theorem Times.deadline {u : UserTask} {taskID : String} {due : Option Time}
    (h : armDeadline c tok node u taskID s = .ok (r, due)) :
    ∃ trs, Times c.ids s r trs ∧ ∀ tr ∈ trs, tr.taskID = taskID ∧ tr.scopeID = tok.scopeID := by
  obtain ⟨spec, -, h⟩ := bind_ok h
  split at h
  · have he := (Prod.mk.inj (Except.ok.inj h)).1
    rw [← he]
    exact ⟨[], Times.refl s, nofun⟩
  · have he := (Prod.mk.inj (Except.ok.inj h)).1
    rw [← he]
    obtain ⟨trs, ht, hall⟩ := Times.recorded (g := c.ids) s tok .deadline taskID node.id spec
    exact ⟨trs, ht, fun tr htr => (hall tr htr).2⟩

/-- No deadline is among the timers. -/
theorem Deadlines.none {tok : Token} {tasks : List HumanTask} {trs : List TimerRecord} (h : ∀ tr ∈ trs, tr.kind ≠ .deadline) :
    Deadlines tok tasks trs := fun tr htr hkind => absurd hkind (h tr htr)

/-- What `emitActionInvoke` comes to. -/
theorem emitActionInvoke_spec (h : emitActionInvoke c td s tok node = .ok r) :
    ∃ arms m armCmds invoke, r.state = addBoundaries arms m
        ((s.nextCommandID c.ids).1.onControl (·.awaitCommand tok.id (c.ids.newID .command (s.cmdSeq + 1)))) ∧
      (∀ ba ∈ arms, ba.hostToken = tok.id ∧ ba.hostNode = node.id) ∧
      Schedules c.ids s.timerSeq m ((arms.map (·.timerID)).filter (· != "")) armCmds ∧ r.commands = invoke :: armCmds ∧
      invoke.correlationID = c.ids.newID .command (s.cmdSeq + 1) ∧ ∀ id spec, invoke ≠ .awaitHuman id spec := by
  unfold emitActionInvoke at h
  dsimp only at h
  obtain ⟨r1, h1, h⟩ := bind_ok h
  obtain ⟨arms, m, hst, hhost, hsch⟩ := armBoundaries_spec h1
  rw [← Except.ok.inj h]
  exact ⟨arms, m, r1.commands, _, hst, hhost, hsch, rfl, rfl, fun id spec h => by cases h⟩

/-- The update of a token that comes to wait for a command. -/
def expecting (cmdID : String) (t : Token) : Token := { t with state := .waiting, awaitCommand := cmdID }

theorem expecting_expects (cmdID : String) (t : Token) : t.Expects cmdID (expecting cmdID t) :=
  ⟨⟨rfl, rfl, rfl⟩, rfl, rfl, rfl, rfl, rfl⟩

theorem arming_boundaries {f : Token → Token} {arms : List BoundaryArm} {n m : Nat}
    (hhost : ∀ ba ∈ arms, ba.hostToken = tok.id ∧ ba.hostNode = tok.nodeID)
    (hsch : Schedules g n m ((arms.map (·.timerID)).filter (· != "")) cmds) : Arming g tok f arms [] [] n m cmds where
  host := hhost
  gateway := by simp
  alone := Or.inr rfl
  timers := by
    unfold parkedTimerIDs
    simp only [List.map_nil, List.filter_nil, List.append_nil]
    exact hsch

theorem does_emitActionInvoke (hmem : tok ∈ s.tokens) (hactive : tok.state = .active) (hnode : node.id = tok.nodeID)
    (h : emitActionInvoke c td s tok node = .ok r) : Does c.ids trg d0 s r := by
  obtain ⟨arms, m, armCmds, invoke, hst, hhost, hsch, hcmds, hcorr, hkind⟩ := emitActionInvoke_spec h
  have hact : Act c.ids trg d0 s.desk _ _ := Act.park tok _ [] _ _ _ m [invoke] armCmds arms [] [] hmem hactive
    (Wait.command (expecting (c.ids.newID .command (s.cmdSeq + 1))) invoke (expecting_expects _) hcorr hkind)
    (arming_boundaries (hnode ▸ hhost) hsch) nofun
  simp only [List.append_nil] at hact
  unfold Does
  rw [hst, hcmds]
  exact hact.acts

/-- The task a user task opens. -/
def taskFor (c : StepCtx) (s : InstanceState) (node : Node) (u : UserTask) : HumanTask where
  taskID := c.ids.newID .task (s.taskSeq + 1)
  instanceID := s.instanceID
  nodeID := node.id
  eligibility := ⟨u.eligibleRoles, u.eligiblePrivileges, u.eligibleExpr⟩
  createdAt := c.at_
  vars := s.vars

theorem does_userTask {u : UserTask} (hmem : tok ∈ s.tokens) (hactive : tok.state = .active)
    (hnode : node.id = tok.nodeID) (h : userTask c td s tok node u = .ok er) : Does c.ids trg d0 s er.toStepResult := by
  unfold userTask at h
  dsimp only [InstanceState.nextTaskID] at h
  set s2 : InstanceState := ({ s with taskSeq := s.taskSeq + 1 } : InstanceState).onControl
    (·.setVisitTask tok.id node.id (c.ids.newID .task (s.taskSeq + 1))) with hs2
  have hfront : s2.toControlState.front = s.toControlState.front := setVisitTask_front _ _ _
  split at h
  · -- done at once
    rw [← Except.ok.inj h]
    set ht : HumanTask := { taskFor c s node u with state := .completed } with hht
    have hfile : Does c.ids trg d0 s ⟨{ s2 with tasks := s2.tasks ++ [ht] }, []⟩ := by
      have hact : Act c.ids trg d0 s.desk _ [] := Act.filed ht rfl rfl ⟨rfl, rfl, rfl⟩
      refine Does.of_act ?_
      have hdesk : ({ s2 with tasks := s2.tasks ++ [ht] } : InstanceState).desk =
          { s.desk with tasks := s.desk.tasks ++ [ht], taskSeq := s.desk.taskSeq + 1 } := by
        unfold InstanceState.desk
        dsimp only
        rw [hfront]
        rfl
      rw [hdesk]
      exact hact
    have htok : s2.tokens = s.tokens := congrArg Front.tokens hfront
    have hrun : Running { s2 with tasks := s2.tasks ++ [ht] } tok tok := ⟨htok ▸ hmem, hactive, rfl, rfl⟩
    exact hfile.silently (does_goOn hrun td (by simp))
  · obtain ⟨⟨r1, due⟩, h1, h⟩ := bind_ok h
    obtain ⟨r2, h2, h⟩ := bind_ok h
    obtain ⟨r3, h3, h⟩ := bind_ok h
    rw [← Except.ok.inj h]
    obtain ⟨trs1, ⟨m1, hst1, hsch1⟩, hdue⟩ := Times.deadline h1
    obtain ⟨trs2, ⟨m2, hst2, hsch2⟩, hrem⟩ := Times.reminder h2
    obtain ⟨arms, m, hst3, hhost, hsch3⟩ := armBoundaries_spec h3
    set ht : HumanTask := { taskFor c s node u with dueAt := due } with hht
    rw [hst1] at hst2 hsch2
    rw [hst2] at hst3 hsch3
    have hperm : (trs1.map (·.timerID) ++ trs2.map (·.timerID) ++ (arms.map (·.timerID)).filter (· != "")).Perm
        (parkedTimerIDs arms [] (trs1 ++ trs2)) := by
      unfold parkedTimerIDs
      simp only [List.map_nil, List.filter_nil, List.append_nil, List.map_append]
      exact List.perm_append_comm
    have hsch := ((hsch1.append hsch2).append hsch3).perm hperm (List.Perm.refl _)
    have hdeadline : Deadlines tok [ht] (trs1 ++ trs2) := by
      intro tr htr hkind
      rcases List.mem_append.mp htr with htr | htr
      · exact ⟨ht, List.mem_singleton.mpr rfl, hdue tr htr⟩
      · exact absurd hkind (hrem tr htr)
    have hact : Act c.ids trg d0 s.desk _ _ := Act.park tok _ [ht] _ _ _ m _ _ arms [] (trs1 ++ trs2) hmem hactive
      (Wait.task (expecting ht.taskID) ht ⟨u.eligibleRoles, u.eligiblePrivileges, u.eligibleExpr⟩ (expecting_expects _) rfl
        rfl hnode ⟨rfl, rfl, rfl, rfl, rfl⟩)
      ⟨fun ba hba => hnode ▸ hhost ba hba, by simp, Or.inr rfl, hsch⟩ hdeadline
    have hdesk : r3.state.desk = { s.desk.update tok.id (expecting ht.taskID) with
        tasks := s.desk.tasks ++ [ht], boundaries := s.desk.boundaries ++ arms, armedEvents := s.desk.armedEvents ++ [],
        timers := s.desk.timers ++ (trs1 ++ trs2), cmdSeq := s.desk.cmdSeq, taskSeq := s.desk.taskSeq + 1,
        timerSeq := m } := by
      rw [hst3]
      have hupd : (s2.toControlState.awaitCommand tok.id ht.taskID).front = { s2.toControlState.front with
        tokens := s2.tokens.map (fun t => if t.id == tok.id then expecting ht.taskID t else t) } := rfl
      have htok : s2.tokens = s.tokens := congrArg Front.tokens hfront
      rw [hfront, htok] at hupd
      unfold addBoundaries InstanceState.desk
      simp only [InstanceState.onControl_toControlState, List.append_nil, ← List.append_assoc]
      change (⟨(s2.toControlState.awaitCommand tok.id ht.taskID).front, _, _, _, _, _, _, _, _, _⟩ : Desk) = _
      rw [hupd]
      rfl
    have hacts := hact.acts
    rw [← hdesk] at hacts
    refine Acts.perm hacts ?_
    have hmid := List.perm_append_comm_assoc
      [Command.awaitHuman ht.taskID ⟨u.eligibleRoles, u.eligiblePrivileges, u.eligibleExpr⟩]
      (r1.commands ++ r2.commands) r3.commands
    rw [← List.append_assoc (r1.commands ++ r2.commands)] at hmid
    exact hmid

/-- The token that waits for a message. -/
def listening (name key : String) (t : Token) : Token :=
  { t with state := .waiting, awaitMessage := name, awaitMessageKey := key }

theorem does_receiveTask {rt : ReceiveTask} (hmem : tok ∈ s.tokens) (hactive : tok.state = .active)
    (hnode : node.id = tok.nodeID) (h : receiveTask c td s tok node rt = .ok er) :
    Does c.ids trg d0 s er.toStepResult := by
  unfold receiveTask at h
  obtain ⟨key, -, h⟩ := bind_ok h
  obtain ⟨r1, h1, h⟩ := bind_ok h
  obtain ⟨r2, h2, h⟩ := bind_ok h
  rw [← Except.ok.inj h]
  obtain ⟨trs, ⟨m1, hst1, hsch1⟩, hrem⟩ := Times.reminder h1
  obtain ⟨arms, m, hst2, hhost, hsch2⟩ := armBoundaries_spec h2
  rw [hst1] at hst2 hsch2
  have hperm : (trs.map (·.timerID) ++ (arms.map (·.timerID)).filter (· != "")).Perm (parkedTimerIDs arms [] trs) := by
    unfold parkedTimerIDs
    simp only [List.map_nil, List.filter_nil, List.append_nil]
    exact List.perm_append_comm
  have hsch := (hsch1.append hsch2).perm hperm (List.Perm.refl _)
  have hact : Act c.ids trg d0 s.desk _ _ := Act.park tok (listening rt.messageName key) [] _ _ _ m [] _ arms [] trs hmem
    hactive (Wait.message rt.messageName key) ⟨fun ba hba => hnode ▸ hhost ba hba, by simp, Or.inr rfl, hsch⟩ (.none hrem)
  simp only [List.append_nil, List.nil_append] at hact
  change Acts c.ids trg d0 s.desk r2.state.desk (r1.commands ++ r2.commands)
  rw [hst2]
  exact hact.acts

theorem Times.park {f : Token → Token} {tasks : List HumanTask} {nc nt n : Nat} {x : InstanceState}
    {trs : List TimerRecord} (hmem : tok ∈ s.tokens) (hactive : tok.state = .active)
    (hwait : Wait c.ids s.desk tok f tasks nc nt n cmds) (ht : Times c.ids x r trs) (hrem : ∀ tr ∈ trs, tr.kind ≠ .deadline)
    (hx : x.desk = { s.desk.update tok.id f with
      tasks := s.desk.tasks ++ tasks, cmdSeq := nc, taskSeq := nt, timerSeq := n }) :
    Does c.ids trg d0 s (r.prepend cmds) := by
  obtain ⟨m, hst, hsch⟩ := ht
  have hseq : x.timerSeq = n := (congrArg Desk.timerSeq hx :)
  have hact : Act c.ids trg d0 s.desk _ _ := Act.park tok f tasks nc nt n m cmds r.commands [] [] trs hmem hactive hwait
    ⟨by simp, by simp, Or.inl rfl, by
      unfold parkedTimerIDs
      simp only [List.map_nil, List.filter_nil, List.nil_append]
      exact hseq ▸ hsch⟩ (.none hrem)
  simp only [List.append_nil] at hact
  unfold Does
  have hdesk : r.state.desk = { x.desk with timers := x.timers ++ trs, timerSeq := m } := by
    rw [hst]
    rfl
  have htimers : x.timers = s.timers := (congrArg Desk.timers hx :)
  rw [StepResult.prepend_state, hdesk, hx, htimers]
  exact hact.acts

theorem does_catchEvent {e : IntermediateCatchEvent} (hmem : tok ∈ s.tokens)
    (hactive : tok.state = .active) (hnode : node.id = tok.nodeID) (h : intermediateCatchEvent c s tok node e = .ok er) :
    Does c.ids trg d0 s er.toStepResult := by
  unfold intermediateCatchEvent at h
  obtain ⟨spec, -, h⟩ := bind_ok h
  dsimp only at h
  -- every wait may get a reminder
  have hrem : ∀ {x : InstanceState} {cmds : List Command}, ((armWaitReminder c x tok node tok.id).map (fun r' =>
      EnterResult.parked (r'.prepend cmds))) = .ok er → ∃ r1 trs, Times c.ids x r1 trs ∧ (∀ tr ∈ trs, tr.kind ≠ .deadline) ∧
        er.toStepResult = r1.prepend cmds := by
    intro x cmds hx
    cases hr : armWaitReminder c x tok node tok.id with
    | error e =>
      rw [hr] at hx
      cases hx
    | ok r1 =>
      rw [hr] at hx
      obtain ⟨trs, ht, hkinds⟩ := Times.reminder hr
      exact ⟨r1, trs, ht, hkinds, by rw [← Except.ok.inj hx]; rfl⟩
  split at h
  · obtain ⟨r1, trs, ht, hkinds, he⟩ := hrem h
    rw [he]
    refine Times.park hmem hactive (Wait.timer spec) ht hkinds ?_
    simp only [List.append_nil]
    rfl
  · split at h
    · rename_i hname
      obtain ⟨r1, trs, ht, hkinds, he⟩ := hrem h
      rw [he]
      refine Times.park hmem hactive (Wait.signal e.signalName (by simpa using hname)) ht hkinds ?_
      simp only [List.append_nil]
      rfl
    · split at h
      · obtain ⟨key, -, h⟩ := bind_ok h
        obtain ⟨r1, trs, ht, hkinds, he⟩ := hrem h
        rw [he]
        refine Times.park hmem hactive (Wait.message e.messageName key) ht hkinds ?_
        simp only [List.append_nil]
        rfl
      · rw [← Except.ok.inj h, hnode]
        exact does_defect (Running.self hmem hactive) _ c.at_

theorem does_eventGateway (hmem : tok ∈ s.tokens) (hactive : tok.state = .active)
    (h : eventBasedGateway c td s tok node = .ok er) : Does c.ids trg d0 s er.toStepResult := by
  unfold eventBasedGateway at h
  dsimp only at h
  obtain ⟨r1, h1, h⟩ := bind_ok h
  rw [← Except.ok.inj h]
  obtain ⟨gws, m, hst, hgw, hsch⟩ := armGatewayFlows_spec h1
  have hact : Act c.ids trg d0 s.desk _ _ := Act.park tok _ [] _ _ _ m [] r1.commands [] gws [] hmem hactive
    (Wait.gateway (expecting ("evtgw:" ++ tok.id)) (expecting_expects _))
    ⟨by simp, fun ae hae => ⟨hgw ae hae, rfl⟩, Or.inl rfl, by
      unfold parkedTimerIDs
      simp only [List.map_nil, List.filter_nil, List.nil_append, List.append_nil]
      exact hsch⟩ nofun
  simp only [List.append_nil, List.nil_append] at hact
  change Acts c.ids trg d0 s.desk r1.state.desk r1.commands
  rw [hst]
  exact hact.acts

/-- The token waits for a command that goes out now. -/
theorem does_expect {cmd : Command} (hmem : tok ∈ s.tokens) (hactive : tok.state = .active)
    (hcorr : cmd.correlationID = c.ids.newID .command (s.cmdSeq + 1)) (hkind : ∀ id spec, cmd ≠ .awaitHuman id spec) :
    Does c.ids trg d0 s ⟨(s.nextCommandID c.ids).1.onControl (·.awaitCommand tok.id (c.ids.newID .command (s.cmdSeq + 1))),
      [cmd]⟩ := by
  have hact : Act c.ids trg d0 s.desk _ _ := Act.park tok _ [] _ _ _ s.timerSeq [cmd] [] [] [] [] hmem hactive
    (Wait.command (expecting (c.ids.newID .command (s.cmdSeq + 1))) cmd (expecting_expects _) hcorr hkind)
    ⟨by simp, by simp, Or.inl rfl, Schedules.nil _ _⟩ nofun
  simp only [List.append_nil] at hact
  exact hact.acts

/-! ## Scopes -/

theorem does_subProcess {sub : Option ProcessDefinition} (hmem : tok ∈ s.tokens)
    (hactive : tok.state = .active) (hnode : node.id = tok.nodeID) (h : subProcess c s tok node sub = .ok er) :
    Does c.ids trg d0 s er.toStepResult := by
  unfold subProcess at h
  split at h
  · rw [← Except.ok.inj h, hnode]
    exact does_defect (Running.self hmem hactive) _ c.at_
  · split at h
    · cases h
    · split at h
      · cases h
      · rename_i sub _ start _
        dsimp only at h
        obtain ⟨r1, h1, h⟩ := bind_ok h
        rw [← Except.ok.inj h]
        change Acts c.ids trg d0 s.desk r1.state.desk r1.commands
        set s1 := s.onControl (fun a => (a.openScope c.ids node.id tok.scopeID).1) with hs1
        have hopen : Does c.ids trg d0 s ⟨s1, []⟩ := does_openScope s node.id tok.scopeID
        set s2 := s1.onControl (·.placeTokenInScope c.ids start (c.ids.newID .scope (s.scopeSeq + 1)) "" c.at_) with hs2
        have hplace : Does c.ids trg d0 s1 ⟨s2, []⟩ := does_place s1 _ _ _ _
        have hcons : Does c.ids trg d0 s2 ⟨s2.onControl (·.consumeTokenAs tok c.at_ .normal), []⟩ :=
          does_consume (List.mem_append_left _ hmem) hactive c.at_ .normal
        have hto : Does c.ids trg d0 s ⟨s2.onControl (·.consumeTokenAs tok c.at_ .normal), []⟩ :=
          hopen.silently (hplace.silently hcons)
        obtain ⟨arms, m, hst, harm, hsch⟩ := armEventTriggeredSubprocesses_spec h1
        have hscope : (s2.onControl (·.consumeTokenAs tok c.at_ .normal)).desk.HasScope
            (c.ids.newID .scope (s.scopeSeq + 1)) := by
          refine Or.inr ⟨{ id := c.ids.newID .scope (s.scopeSeq + 1), nodeID := node.id, parentID := tok.scopeID }, ?_, rfl⟩
          obtain ⟨v, -, hv⟩ := s2.toControlState.consumeTokenAs_shape tok c.at_ .normal
          obtain ⟨p, hp, -⟩ := s2.toControlState.removeToken_shape tok.id
          change _ ∈ ((s2.toControlState.consumeTokenAs tok c.at_ .normal).scopes).map Scope.bare
          rw [hv, hp]
          refine List.mem_map.mpr ⟨_, List.mem_append_right _ (List.mem_singleton.mpr rfl), rfl⟩
        have harms : Does c.ids trg d0 (s2.onControl (·.consumeTokenAs tok c.at_ .normal)) r1 := by
          have hact : Act c.ids trg d0 _ _ r1.commands := Act.armEventSubs _ arms m r1.commands hscope harm hsch
          unfold Does
          rw [hst]
          exact hact.acts
        exact hto.silently harms

theorem does_exitRootScope (s : InstanceState) : Does c.ids trg d0 s (exitRootScope c s) := by
  unfold exitRootScope
  split
  · exact does_complete s c.at_
  · exact Does.refl s

theorem recordSubProcess_desk (pd : ProcessDefinition) (s : InstanceState) (nodeID scope : String) :
    (recordSubProcessCompensation c pd s nodeID scope).desk = s.desk := by
  unfold recordSubProcessCompensation
  split
  · split
    · split
      · rfl
      · exact desk_onControl (recordCompensation_front _ _)
    · rfl
  · rfl

theorem does_exitRegular {sub parent : String}
    (h : exitRegularSubprocessScope c s cur sub parent = .ok er) : Does c.ids trg d0 s er.toStepResult := by
  unfold exitRegularSubprocessScope at h
  split at h
  · rw [← Except.ok.inj h]
    exact Does.refl s
  · dsimp only at h
    split at h
    · cases h
    · rename_i pd _
      split at h
      · cases h
      · rename_i s3 hres
        rw [← Except.ok.inj h]
        have hdrop : Does c.ids trg d0 s (s.removeEventTriggeredSubprocessArmsForScope cur) := does_removeEventSubs s cur
        have hexit : Does c.ids trg d0 (s.removeEventTriggeredSubprocessArmsForScope cur).state
            ⟨(s.removeEventTriggeredSubprocessArmsForScope cur).state.onControl (·.exitScope cur false), []⟩ := by
          refine does_exitScope _ cur false true (fun _ ea hea => ?_)
          simpa using (List.mem_filter.mp hea).2
        have hplace : Does c.ids trg d0 ((s.removeEventTriggeredSubprocessArmsForScope cur).state.onControl
            (·.exitScope cur false)) ⟨s3, []⟩ := by
          refine Does.after (recordSubProcess_desk (c := c) pd _ sub parent) ?_
          unfold resumeInParentScope at hres
          split at hres
          · cases hres
          · rw [← Option.some.inj hres]
            exact does_place _ _ _ _ _
        have hall := Acts.trans hdrop (hexit.silently hplace)
        rw [List.append_nil] at hall
        exact hall

theorem recordSubProcess_removeEventSubs (pd : ProcessDefinition) (s : InstanceState) (nodeID scope id : String) :
    ((recordSubProcessCompensation c pd s nodeID scope).removeEventTriggeredSubprocessArmsForScope id).state =
      recordSubProcessCompensation c pd (s.removeEventTriggeredSubprocessArmsForScope id).state nodeID scope ∧
    ((recordSubProcessCompensation c pd s nodeID scope).removeEventTriggeredSubprocessArmsForScope id).commands =
      (s.removeEventTriggeredSubprocessArmsForScope id).commands := by
  unfold recordSubProcessCompensation
  split
  · split
    · split <;> exact ⟨rfl, rfl⟩
    · exact ⟨rfl, rfl⟩
  · exact ⟨rfl, rfl⟩

theorem does_exitNested {parent : String}
    (h : exitNestedEventSubprocessScope c s cur parent = .ok er) : Does c.ids trg d0 s er.toStepResult := by
  unfold exitNestedEventSubprocessScope at h
  split at h
  · rw [← Except.ok.inj h]
    exact Does.refl s
  · rename_i enclosing _
    split at h
    · rw [← Except.ok.inj h]
      exact Does.refl s
    · split at h
      · rw [← Except.ok.inj h]
        exact Does.refl s
      · dsimp only at h
        split at h
        · cases h
        · rename_i pd _
          -- the arms of the scope may as well go before it closes
          set x := (s.removeEventTriggeredSubprocessArmsForScope parent).state with hx
          have hdrop : Does c.ids trg d0 s (s.removeEventTriggeredSubprocessArmsForScope parent) :=
            does_removeEventSubs s parent
          have hexit : Does c.ids trg d0 x ⟨x.onControl (·.exitScope parent true), []⟩ := by
            refine does_exitScope _ parent true true (fun _ ea hea => ?_)
            simpa using (List.mem_filter.mp hea).2
          set y := recordSubProcessCompensation c pd (s.onControl (·.exitScope parent true)) enclosing.nodeID
            enclosing.parentID with hy
          have hycmds : (y.removeEventTriggeredSubprocessArmsForScope parent).commands =
              (s.removeEventTriggeredSubprocessArmsForScope parent).commands :=
            (recordSubProcess_removeEventSubs pd _ _ _ parent).2
          have hystate : (y.removeEventTriggeredSubprocessArmsForScope parent).state =
              recordSubProcessCompensation c pd (x.onControl (·.exitScope parent true)) enclosing.nodeID
                enclosing.parentID := (recordSubProcess_removeEventSubs pd _ _ _ parent).1
          have hyfin : Does c.ids trg d0 s (y.removeEventTriggeredSubprocessArmsForScope parent) := by
            have h1 := Acts.trans hdrop hexit
            rw [List.append_nil] at h1
            unfold Does
            rw [hycmds, hystate, recordSubProcess_desk]
            exact h1
          split at h
          · rename_i s3 hres
            rw [← Except.ok.inj h]
            unfold resumeInParentScope at hres
            split at hres
            · cases hres
            · rename_i f _ _
              rw [← Option.some.inj hres]
              have hplace := Acts.trans hyfin (does_place (y.removeEventTriggeredSubprocessArmsForScope parent).state
                f.flow.target enclosing.parentID f.identity c.at_)
              rw [List.append_nil] at hplace
              exact hplace
          · split at h
            · cases h
            · split at h
              · rw [← Except.ok.inj h]
                -- the end of the instance cancels the arms as well
                have hself : y = s.onControl (fun _ => y.toControlState) := by
                  rw [hy]
                  unfold recordSubProcessCompensation
                  split
                  · split
                    · split <;> rfl
                    · rfl
                  · rfl
                have hyfront : ((fun _ => y.toControlState) s.toControlState).front = { s.toControlState.front with
                    tokens := s.tokens, cuts := s.desk.cuts, scopes := y.desk.scopes, exits := y.desk.exits } := by
                  have h1 : y.desk = (s.onControl (·.exitScope parent true)).desk := recordSubProcess_desk pd _ _ _
                  have h2 : y.toControlState.front = (s.toControlState.exitScope parent true).front :=
                    congrArg Desk.toFront h1
                  obtain ⟨p, h3, -⟩ := exitScope_front s.toControlState parent true
                  change y.toControlState.front = { s.toControlState.front with
                    tokens := s.tokens, cuts := s.desk.cuts, scopes := y.toControlState.front.scopes,
                    exits := y.toControlState.front.exits }
                  rw [h2, h3]
                  rfl
                change Acts c.ids trg d0 s.desk (y.complete c.at_).state.desk (y.complete c.at_).commands
                have hterm : ∀ cmd ∈ some (Command.completeInstance y.vars), cmd.Neutral := by
                  intro cmd hcmd
                  cases hcmd
                  trivial
                have hend : Does c.ids trg d0 s ((s.onControl (fun _ => y.toControlState)).endInstance .completed c.at_
                    (some (.completeInstance y.vars))) := does_endInstance hyfront (Or.inl ⟨rfl, rfl⟩) rfl c.at_ hterm
                rw [← hself] at hend
                exact hend
              · rw [← Except.ok.inj h]
                exact hyfin

theorem does_exitEvent {parent : String}
    (h : exitEventSubprocessScope c s cur parent = .ok er) : Does c.ids trg d0 s er.toStepResult := by
  unfold exitEventSubprocessScope at h
  split at h
  · rw [← Except.ok.inj h]
    exact Does.refl s
  · dsimp only at h
    have hexit : Does c.ids trg d0 s ⟨s.onControl (·.exitScope cur false), []⟩ :=
      does_exitScope s cur false false (fun hf => by cases hf)
    split at h
    · rw [← Except.ok.inj h]
      refine hexit.silently ?_
      unfold exitRootEventSubprocessScope
      split
      · exact Does.refl _
      · split
        · exact Does.refl _
        · exact does_exitRootScope _
    · exact hexit.silently (does_exitNested h)

theorem does_exitSub (h : exitSubprocessScope c s cur = .ok er) :
    Does c.ids trg d0 s er.toStepResult := by
  unfold exitSubprocessScope at h
  split at h
  · rw [← Except.ok.inj h]
    exact Does.refl s
  · split at h
    · rw [← Except.ok.inj h]
      exact Does.refl s
    · split at h
      · cases h
      · split at h
        · exact does_exitEvent h
        · exact does_exitRegular h

/-! ## The strategies -/

theorem does_forceTerminate (s : InstanceState) (ev : EndEvent) :
    Does c.ids trg d0 s (forceTerminate c s ev).toStepResult := by
  obtain ⟨cuts, hfront, hsub, hall⟩ :=
    cancelAllTokens_front (s.toControlState.note (.forced ev.outcome s.pendingCancel)) c.at_ .terminated
  have hend : ∀ {st : Status} {cmd : Command}, st.isTerminal = true → cmd.Neutral → Does c.ids trg d0 s
      ((s.onControl (fun s => (s.note (.forced ev.outcome s.pendingCancel)).cancelAllTokens c.at_ .terminated)).endInstance
        st c.at_ (some cmd)) := by
    intro st cmd hst hcmd
    have hf : ((fun s : ControlState => (s.note (.forced ev.outcome s.pendingCancel)).cancelAllTokens c.at_ .terminated)
        s.toControlState).front = { s.toControlState.front with
          tokens := [], cuts := cuts, scopes := s.desk.scopes, exits := s.desk.exits } := hfront
    refine does_endInstance hf (Or.inr ⟨rfl, hsub, hall⟩) hst c.at_ (fun cmd' h => ?_)
    cases h
    exact hcmd
  unfold forceTerminate
  dsimp only
  split
  · exact hend rfl trivial
  · exact hend rfl trivial

theorem does_endEvent (hdrv : DoesDrive c.ids trg d0 drv) {ev : EndEvent} (hmem : tok ∈ s.tokens)
    (hactive : tok.state = .active) (h : endEvent drv c s tok ev = .ok er) : Does c.ids trg d0 s er.toStepResult := by
  unfold endEvent at h
  split at h
  · rw [← Except.ok.inj h]
    exact does_forceTerminate s ev
  · dsimp only at h
    have hcons : Does c.ids trg d0 s ⟨s.onControl (·.consumeTokenAs tok c.at_ .errored), []⟩ :=
      does_consume hmem hactive c.at_ .errored
    split at h
    · cases h
    · rename_i r1 h1
      rw [← Except.ok.inj h]
      exact hcons.silently (does_propagate hdrv (Or.inl ⟨rfl, rfl⟩) h1)
  · dsimp only at h
    have hcons : Does c.ids trg d0 s ⟨s.onControl (·.consumeToken tok c.at_), []⟩ :=
      does_consume hmem hactive c.at_ .normal
    split at h
    · rw [← Except.ok.inj h]
      exact hcons.silently (does_exitRootScope _)
    · exact hcons.silently (does_exitSub h)

section Active
variable (hmem : tok ∈ s.tokens) (hactive : tok.state = .active)
include hmem hactive

theorem does_defer :
    Does c.ids trg d0 s ⟨s.onControl (·.deferCompensationThrow tok.id), []⟩ :=
  Does.of_act (Act.defer tok hmem hactive)

theorem does_passThrow :
    Does c.ids trg d0 s (passThrow c td tok s).toStepResult := by
  set s1 := s.onControl (fun s => s.note (.passed tok.id s.deferredCompensationThrows s.walking)) with hs1
  have hdesk : s1.desk = s.desk := rfl
  exact Does.after hdesk (does_goOn (Running.self (s := s1) hmem hactive) td (by simp))

theorem does_startWalk (records : List CompensationRecord)
    (rec : CompensationRecord) {cursor : CompensationCursor} (hcur : cursor.finalStatus.Aborts) (node flow : String) :
    Does c.ids trg d0 s (startCompensationWalk c s tok records rec cursor node flow) := by
  refine Acts.sane_or (fun hs => ?_)
  have hcons : Does c.ids trg d0 s ⟨s.onControl (·.consumeTokenAs tok c.at_ .normal), []⟩ :=
    does_consume hmem hactive c.at_ .normal
  set s1 := s.onControl (·.consumeTokenAs tok c.at_ .normal) with hs1
  have hne := hs.named tok hmem
  have hfront := consumeTokenAs_front s.toControlState hne c.at_ .normal
  have hopen : Does c.ids trg d0 s1 ⟨s1.onControl (fun a => { a with status := .running }), []⟩ := does_reopen rfl
  set s2 := s1.onControl (fun a => { a with status := .running }) with hs2
  have hfront2 : s2.toControlState.front = { s.toControlState.front with
      live := true, tokens := s.tokens.filter (fun t => t.id != tok.id) } := by
    have hlive : s2.toControlState.front = { s1.toControlState.front with live := true } := rfl
    rw [hlive]
    change { (s.toControlState.consumeTokenAs tok c.at_ .normal).front with live := true } = _
    rw [hfront]
  have hseq : s2.cmdSeq = s.cmdSeq := (congrArg Front.cmdSeq hfront2 :)
  have hpend : s2.pendingFinalStatus = s.pendingFinalStatus := by
    have hfin := congrArg Front.finals hfront2
    exact (List.cons.inj (List.cons.inj hfin).2).1
  -- the dispatch, on the state the token has left
  set cmdID := c.ids.newID .command (s.cmdSeq + 1) with hcmdID
  set cur : CompensationCursor := { cursor with
    startedAt := c.at_, resumeNode := node, resumeFlow := flow, resumeScope := tok.scopeID,
    records := records, nextIndex := (records.length : Int) - 1, activeCmdID := cmdID } with hcurs
  set ctl := (s.nextCommandID c.ids).1.toControlState.throwDispatch tok c.at_ cur rec cmdID with hctl
  have hctlfront : ctl.front = { s2.toControlState.front with
      walk := c.ids.newID .command (s2.cmdSeq + 1), cmdSeq := s2.cmdSeq + 1, backoff := cur.retryTimerID != "",
      tries := (c.ids.newID .command (s2.cmdSeq + 1), false) :: s2.toControlState.front.tries,
      finals := [cursor.finalStatus, s2.pendingFinalStatus] } := by
    have hminted := consumeTokenAs_front (s.nextCommandID c.ids).1.toControlState hne c.at_ .normal
    set x := (s.nextCommandID c.ids).1.toControlState.consumeTokenAs tok c.at_ .normal with hx
    have hxpend : x.pendingFinalStatus = s.pendingFinalStatus := by
      have hfin := congrArg Front.finals hminted
      exact (List.cons.inj (List.cons.inj hfin).2).1
    have hd := dispatch_front { x with status := .compensating } cur cur.nextIndex rec cmdID
    have hxlive : ({ x with status := .compensating } : ControlState).front = { x.front with live := true } := rfl
    rw [hxlive, hminted] at hd
    change ({ x with status := .compensating }.dispatch cur cur.nextIndex rec cmdID).front = _
    rw [hd, hfront2, hseq, hpend]
    rw [← hxpend]
    rfl
  have hdisp : Does c.ids trg d0 s2 (afterDispatch c ((s2.nextCommandID c.ids).1.onControl (fun _ => ctl)) rec
      (c.ids.newID .command (s2.cmdSeq + 1))) :=
        does_dispatched (fun _ => hcur) rec (fun h : false = true => by cases h) hctlfront
  rw [hseq] at hdisp
  exact hcons.silently (hopen.silently hdisp)

theorem does_throwWalk (records : List CompensationRecord)
    {cursor : CompensationCursor} (hcur : cursor.finalStatus.Aborts) (resume : FlowRef) :
    Does c.ids trg d0 s (throwWalk c td tok s records cursor resume).toStepResult := by
  unfold throwWalk
  split
  · exact does_passThrow hmem hactive
  · exact does_startWalk hmem hactive _ _ hcur _ _

theorem does_throwEvent {e : CompensationThrowEvent} :
    Does c.ids trg d0 s (compensationThrowEvent c td s tok node e).toStepResult := by
  unfold compensationThrowEvent
  split
  · exact does_passThrow hmem hactive
  · split
    · exact does_passThrow hmem hactive
    · split
      · dsimp only
        split
        · exact does_passThrow hmem hactive
        · split
          · exact does_defer hmem hactive
          · exact does_throwWalk hmem hactive _ (Or.inl rfl) _
      · split
        · exact does_defer hmem hactive
        · dsimp only
          split
          · have hdesk : (s.onControl (·.consolidateArchiveIntoRoot)).desk = s.desk :=
              desk_onControl (front_of_outline (consolidate_outline _))
            have htok : (s.onControl (·.consolidateArchiveIntoRoot)).tokens = s.tokens :=
              (congrArg (fun d : Desk => d.tokens) hdesk :)
            exact Does.after hdesk (does_throwWalk (htok ▸ hmem) hactive _ (Or.inl rfl) _)
          · exact does_throwWalk hmem hactive _ (Or.inl rfl) _

theorem does_exclusive (h : exclusiveGateway c td s tok node = .ok er) : Does c.ids trg d0 s er.toStepResult := by
  obtain ⟨taken, -, h⟩ := bind_ok h
  rw [← Except.ok.inj h]
  exact does_moveTo (Running.self hmem hactive) _ _ _ _

theorem does_inclusive (h : inclusiveGateway c td s tok node = .ok er) : Does c.ids trg d0 s er.toStepResult := by
  unfold inclusiveGateway at h
  split at h
  · rw [← Except.ok.inj h]
    exact does_joinGateway hmem hactive td node
  · split at h
    · cases h
    · rename_i ctl hfork
      rw [← Except.ok.inj h]
      unfold forkInclusive at hfork
      split at hfork
      · cases hfork
      · split at hfork
        · cases hfork
        · rw [← Except.ok.inj hfork]
          exact does_fork hmem hactive _ _ _
      · rw [← Except.ok.inj hfork]
        exact does_fork hmem hactive _ _ _

end Active

/-- Whatever the kind of the node an active token stands on. -/
theorem does_enter (hdrv : DoesDrive c.ids trg d0 drv) (hmem : tok ∈ s.tokens)
    (hactive : tok.state = .active) (hnode : node.id = tok.nodeID) (h : enter drv c td s tok node = .ok er) :
    Does c.ids trg d0 s er.toStepResult := by
  have hrun := Running.self hmem hactive
  have hinvoke : ∀ {er : EnterResult}, (emitActionInvoke c td s tok node).map EnterResult.parked = .ok er →
      Does c.ids trg d0 s er.toStepResult := by
    intro er h
    cases hr : emitActionInvoke c td s tok node with
    | error e =>
      rw [hr] at h
      cases h
    | ok r1 =>
      rw [hr] at h
      rw [← Except.ok.inj h]
      exact does_emitActionInvoke hmem hactive hnode hr
  unfold enter at h
  split at h
  · rw [← Except.ok.inj h]
    exact does_goOn hrun td (by simp)
  · exact does_endEvent hdrv hmem hactive h
  · exact hinvoke h
  · exact hinvoke h
  · exact does_userTask hmem hactive hnode h
  · exact does_receiveTask hmem hactive hnode h
  · obtain ⟨key, -, h⟩ := bind_ok h
    rw [← Except.ok.inj h]
    refine does_goOn hrun td (fun cmd hcmd => ?_)
    rw [List.mem_singleton.mp hcmd]
    trivial
  · exact does_subProcess hmem hactive hnode h
  · rw [← Except.ok.inj h]
    exact does_expect hmem hactive rfl (fun id spec h => by cases h)
  · exact does_catchEvent hmem hactive hnode h
  · rw [← Except.ok.inj h]
    unfold intermediateThrowEvent
    split
    · refine does_goOn hrun td (fun cmd hcmd => ?_)
      rw [List.mem_singleton.mp hcmd]
      trivial
    · rw [hnode]
      exact does_defect hrun _ c.at_
  · rw [← Except.ok.inj h]
    exact does_setState hrun (by decide)
  · exact does_exclusive hmem hactive h
  · unfold parallelGateway at h
    split at h
    · rw [← Except.ok.inj h]
      exact does_joinGateway hmem hactive td node
    · rw [← Except.ok.inj h]
      exact does_fork hmem hactive _ _ _
  · exact does_inclusive hmem hactive h
  · exact does_eventGateway hmem hactive h
  · rw [← Except.ok.inj h]
    exact does_throwEvent hmem hactive

/-- The loop is a sequence of acts, whatever its fuel. -/
theorem does_drive (fuel : Nat) : DoesDrive c.ids trg d0 (drive c fuel) := by
  induction fuel with
  | zero =>
    intro x r h
    cases h
  | succ n ih =>
    intro x r h
    unfold drive at h
    split at h
    · split at h
      · rename_i ctl hjoin
        have hretry : Does c.ids trg d0 x ⟨x.onControl (fun _ => ctl), []⟩ := does_retryParked hjoin
        exact hretry.silently (ih _ _ h)
      · rw [← Except.ok.inj h]
        exact Does.refl x
    · rename_i tok hact
      have hmem : tok ∈ x.tokens := List.mem_of_find?_eq_some hact
      have hactive : tok.state = .active := by simpa using List.find?_some hact
      split at h
      · cases h
      · rename_i td _
        split at h
        · have hpark : Does c.ids trg d0 x ⟨x.onControl (·.setTokenState tok.id .waiting), []⟩ :=
            does_setState (Running.self hmem hactive) (by decide)
          exact hpark.silently (ih _ _ h)
        · rename_i node hnode
          have hid : node.id = tok.nodeID := by
            unfold ProcessDefinition.node at hnode
            simpa using List.find?_some hnode
          split at h
          · cases h
          · rename_i er hent
            have hdoes : Does c.ids trg d0 x er.toStepResult := does_enter ih hmem hactive hid hent
            split at h
            · rw [← Except.ok.inj h]
              exact hdoes
            · obtain ⟨r1, h1, rfl⟩ := map_prepend_ok h
              exact hdoes.trans (ih _ _ h1)

end

end Wrkflw
