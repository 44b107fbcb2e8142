import Wrkflw.Machine.EventPaths

/-!
# Node strategies are paths of the machine

`Entry` is the state `drive` calls a strategy in. `Enters` says how a strategy ends: the loop goes on from where a
path led, the instance completed with no token left, or the loop is told to stop.
-/

namespace Wrkflw

open ControlState

variable {d top : ProcessDefinition} {s : ControlState} {r : EnterResult} {y : InstanceState} {parentID : String}
  {scopes : List Scope}

variable {c : StepCtx} {trg : TriggerBody} {drv : DriveLoop}

/-- The active token of a live instance stands on a node of its scope's definition. -/
structure Entry (c : StepCtx) (x : InstanceState) (tdef : ProcessDefinition) (tok : Token) (node : Node) : Prop where
  wf : Wf c.ids x.toControlState
  live : x.status.isTerminal = false
  mem : tok ∈ x.tokens
  active : tok.state = .active
  defn : defForScope c.top x.scopes tok.scopeID = .ok tdef
  found : tdef.node tok.nodeID = some node

inductive Enters (c : StepCtx) (trg : TriggerBody) (s : ControlState) (r : EnterResult) : Prop
  | goesOn (path : Moves c.top c.ids trg s r.state.toControlState)
  | ended (m : ControlState) (path : Moves c.top c.ids trg s m) (hend : End trg m r.state.toControlState)
      (htok : r.state.tokens = [])
  | halted (hhalt : r.halt = true) (reaches : Reaches c.top c.ids trg s r.state.toControlState)

theorem Enters.reaches (h : Enters c trg s r) :
    Reaches c.top c.ids trg s r.state.toControlState := by
  cases h with
  | goesOn path => exact Moves.reaches path
  | ended m path hend htok => exact Moves.ends path hend
  | halted _ reaches => exact reaches

/-- A strategy after a path. -/
theorem Enters.after {m : ControlState} (hpath : Moves c.top c.ids trg s m) (h : Enters c trg m r) :
    Enters c trg s r := by
  cases h with
  | goesOn path => exact Enters.goesOn (hpath.trans path)
  | ended m' path hend htok => exact Enters.ended m' (hpath.trans path) hend htok
  | halted hhalt reaches => exact Enters.halted hhalt (Moves.then hpath reaches)

theorem Token.AwaitOK.of_active {t : Token} (h : t.AwaitOK) (ha : t.state = .active) :
    t.awaitCommand = "" ∧ t.awaitSignal = "" ∧ t.awaitMessage = "" := by
  have hq := h.quiet (Or.inl ha)
  simp only [Token.Awaits, not_or, not_not] at hq
  exact hq

theorem updateToken_id (s : ControlState) (id : String) : s.updateToken id (fun t => t) = s := by
  unfold updateToken
  simp

namespace Entry
variable {x : InstanceState} {tdef : ProcessDefinition} {tok : Token} {node : Node} (he : Entry c x tdef tok node)
include he

theorem forward : x.toControlState.Forward := he.wf.forward he.live he.mem

theorem scopeRef : x.toControlState.ScopeRef c.ids tok.scopeID := names_scopeRef he.wf.names he.mem

theorem node_id_eq : node.id = tok.nodeID := node_id he.found

theorem found' : tdef.node node.id = some node := by
  rw [he.node_id_eq]
  exact he.found

theorem history : x.history ≠ [] := he.wf.started.of_token he.mem

/-- The token may leave a node that is neither a converging gateway nor a throw event. -/
theorem free (hkind : (node.kind = .parallelGateway ∨ node.kind = .inclusiveGateway) → (tdef.incoming node.id).length ≤ 1)
    (hthrow : ∀ e, node.spec ≠ .compensationThrowEvent e) : Free c.top x.toControlState tok := by
  refine Or.inr ⟨he.active, tdef, he.defn, ?_, ?_⟩
  · rintro ⟨n, hn, hk, hlen⟩
    obtain rfl := Option.some.inj (he.found.symm.trans hn)
    have := hkind hk
    rw [he.node_id_eq] at this
    omega
  · rintro ⟨n, e, hn, hspec⟩
    obtain rfl := Option.some.inj (he.found.symm.trans hn)
    exact absurd hspec (hthrow e)

/-- The token goes on along its node's first flow. -/
theorem goOn (hfree : Free c.top x.toControlState tok) (hy : y.toControlState = x.toControlState)
    (cmds : List Command) :
    Moves c.top c.ids trg x.toControlState (Wrkflw.goOn c tdef y tok cmds).state.toControlState := by
  refine moves_moveAlongSingleFlow he.wf.names he.mem hfree (fun t => t) (fun _ => rfl) (Resumes.refl he.active) tdef y ?_
    c.at_
  rw [updateToken_id]
  exact hy

/-- The token stops where it is. -/
theorem stop (hfree : Free c.top x.toControlState tok) (f : Token → Token) (hplace : tok.SamePlace (f tok))
    (hstate : (f tok).state = .waiting ∨ (f tok).state = .incident) (hok : tok.AwaitOK → (f tok).AwaitOK) :
    Moves c.top c.ids trg x.toControlState (x.toControlState.updateToken tok.id f) :=
  moves_touch he.wf.names he.mem f ⟨hplace, hstate, hfree, hok⟩

theorem await (hfree : Free c.top x.toControlState tok) (cmdID : String) :
    Moves c.top c.ids trg x.toControlState (x.toControlState.awaitCommand tok.id cmdID) := by
  refine he.stop hfree _ ⟨rfl, rfl, rfl, rfl⟩ (Or.inl rfl) (fun ha => ?_)
  obtain ⟨-, hsig, hmsg⟩ := ha.of_active he.active
  exact ⟨fun h => by simp at h, fun _ => ⟨hsig, hmsg⟩, fun _ => hmsg⟩

/-- The token parks as an incident. -/
theorem defect (hfree : Free c.top x.toControlState tok) (reason : String) :
    Moves c.top c.ids trg x.toControlState
      (recordDefinitionDefect c.ids x tok node.id reason c.at_).toControlState := by
  unfold recordDefinitionDefect
  rw [InstanceState.raise_control]
  refine he.stop hfree _ ⟨rfl, rfl, rfl, rfl⟩ (Or.inr rfl) (fun ha => ?_)
  obtain ⟨-, hsig, hmsg⟩ := ha.of_active he.active
  exact ⟨fun h => by simp at h, fun _ => ⟨hsig, hmsg⟩, fun _ => hmsg⟩

end Entry

/-! ## Tokens that wait -/

section Waiting
variable {x : InstanceState} {tdef : ProcessDefinition} {tok : Token} {node : Node}

/-- A token waits on a new command. -/
theorem Entry.awaitNew (he : Entry c x tdef tok node) (hfree : Free c.top x.toControlState tok) (cmdID : String) :
    Moves c.top c.ids trg x.toControlState (x.toControlState.mintCommand.awaitCommand tok.id cmdID) :=
  (he.await hfree cmdID).trans moves_mint

theorem emitActionInvoke_control {r : StepResult} (h : emitActionInvoke c tdef y tok node = .ok r) :
    r.state.toControlState = y.toControlState.mintCommand.awaitCommand tok.id (y.toControlState.nextCmdID c.ids) := by
  unfold emitActionInvoke at h
  obtain ⟨r', h', h⟩ := bind_ok h
  rw [← Except.ok.inj h]
  exact armBoundaries_control h'

theorem armDeadline_control {u : UserTask} {taskID : String} {p : StepResult × Option Time}
    (h : armDeadline c tok node u taskID y = .ok p) : p.1.state.toControlState = y.toControlState := by
  unfold armDeadline at h
  obtain ⟨spec, -, h⟩ := bind_ok h
  split at h
  · rw [← Except.ok.inj h]
  · rw [← Except.ok.inj h]
    rfl

theorem userTask_enters (he : Entry c x tdef tok node) (hfree : Free c.top x.toControlState tok) {u : UserTask}
    (h : userTask c tdef x tok node u = .ok r) : Enters c trg x.toControlState r := by
  refine Enters.goesOn ?_
  unfold userTask at h
  dsimp only at h
  split at h
  · -- done at once: the visit gets its task and the token goes on
    rw [← Except.ok.inj h]
    set y := (x.nextTaskID c.ids).1.onControl (·.setVisitTask tok.id node.id (x.nextTaskID c.ids).2) with hy
    have hvisit : Moves c.top c.ids trg x.toControlState y.toControlState := moves_updateOpenVisit _ _ _
    obtain ⟨v, hv, hshape⟩ := x.toControlState.updateOpenVisit_shape tok.id node.id
      (fun v => { v with taskID := (x.nextTaskID c.ids).2 })
    have hyc : y.toControlState = { x.toControlState with history := v } := hshape
    have he' : Entry c y tdef tok node := by
      refine ⟨Moves.wf he.wf hvisit, ?_, ?_, he.active, ?_, he.found⟩
      · rw [hyc]
        exact he.live
      · rw [hyc]
        exact he.mem
      · rw [hyc]
        exact he.defn
    have hfree' : Free c.top y.toControlState tok := by
      rw [hyc]
      exact hfree
    exact hvisit.trans (he'.goOn hfree' (by rfl) [])
  · obtain ⟨p, hp, h⟩ := bind_ok h
    obtain ⟨r2, h2, h⟩ := bind_ok h
    obtain ⟨r3, h3, h⟩ := bind_ok h
    rw [← Except.ok.inj h]
    have h1 := armDeadline_control hp
    have hctl : r3.state.toControlState = (x.toControlState.setVisitTask tok.id node.id (x.nextTaskID c.ids).2).awaitCommand
        tok.id (x.nextTaskID c.ids).2 := by
      rw [armBoundaries_control h3, InstanceState.onControl_toControlState, armWaitReminder_control h2, h1]
      rfl
    obtain ⟨v, hv, hshape⟩ := x.toControlState.updateOpenVisit_shape tok.id node.id
      (fun v => { v with taskID := (x.nextTaskID c.ids).2 })
    change Moves c.top c.ids trg x.toControlState r3.state.toControlState
    rw [hctl]
    unfold setVisitTask
    rw [hshape]
    exact (he.await hfree _).trans (moves_history hv.nonempty)

/-- A token stops and waits on a message. -/
theorem Entry.awaitMessage (he : Entry c x tdef tok node) (hfree : Free c.top x.toControlState tok) (name key : String) :
    Moves c.top c.ids trg x.toControlState (x.toControlState.awaitMessage tok.id name key) := by
  refine he.stop hfree _ ⟨rfl, rfl, rfl, rfl⟩ (Or.inl rfl) (fun ha => ?_)
  obtain ⟨hcmd, hsig, -⟩ := ha.of_active he.active
  refine ⟨fun h => by simp at h, fun h => ?_, fun h => absurd hsig h⟩
  rcases h with h | h
  · exact absurd hcmd h
  · cases h

theorem receiveTask_enters (he : Entry c x tdef tok node) (hfree : Free c.top x.toControlState tok) {rt : ReceiveTask}
    (h : receiveTask c tdef x tok node rt = .ok r) : Enters c trg x.toControlState r := by
  refine Enters.goesOn ?_
  obtain ⟨key, -, h⟩ := bind_ok h
  obtain ⟨r1, h1, h⟩ := bind_ok h
  obtain ⟨r2, h2, h⟩ := bind_ok h
  rw [← Except.ok.inj h]
  have hctl : r2.state.toControlState = x.toControlState.awaitMessage tok.id rt.messageName key := by
    rw [armBoundaries_control h2, armWaitReminder_control h1]
    rfl
  change Moves c.top c.ids trg x.toControlState r2.state.toControlState
  rw [hctl]
  exact he.awaitMessage hfree _ _

theorem sendTask_enters (he : Entry c x tdef tok node) (hfree : Free c.top x.toControlState tok) {st : SendTask}
    (h : sendTask c tdef x tok node st = .ok r) : Enters c trg x.toControlState r := by
  obtain ⟨key, -, h⟩ := bind_ok h
  rw [← Except.ok.inj h]
  exact Enters.goesOn (he.goOn hfree rfl _)

/-- The reminder of a waiting token leaves the control state alone. -/
theorem reminded_enters {cmds : List Command} {key : String}
    (h : (armWaitReminder c y tok node key).map (fun r' => EnterResult.parked (r'.prepend cmds)) = .ok r)
    (hy : Moves c.top c.ids trg x.toControlState y.toControlState) : Enters c trg x.toControlState r := by
  cases hr : armWaitReminder c y tok node key with
  | error e =>
    rw [hr] at h
    cases h
  | ok r' =>
    rw [hr] at h
    rw [← Except.ok.inj h]
    refine Enters.goesOn ?_
    have hctl := armWaitReminder_control hr
    change Moves c.top c.ids trg x.toControlState r'.state.toControlState
    rw [hctl]
    exact hy

theorem intermediateCatchEvent_enters (he : Entry c x tdef tok node) (hfree : Free c.top x.toControlState tok)
    {e : IntermediateCatchEvent} (h : intermediateCatchEvent c x tok node e = .ok r) :
    Enters c trg x.toControlState r := by
  obtain ⟨spec, -, h⟩ := bind_ok h
  dsimp only at h
  split at h
  · refine reminded_enters h ?_
    refine he.stop hfree _ ⟨rfl, rfl, rfl, rfl⟩ (Or.inl rfl) (fun ha => ?_)
    obtain ⟨-, hsig, hmsg⟩ := ha.of_active he.active
    exact ⟨fun h => by simp at h, fun _ => ⟨hsig, hmsg⟩, fun _ => hmsg⟩
  · split at h
    · refine reminded_enters h ?_
      refine he.stop hfree _ ⟨rfl, rfl, rfl, rfl⟩ (Or.inl rfl) (fun ha => ?_)
      obtain ⟨hcmd, -, hmsg⟩ := ha.of_active he.active
      refine ⟨fun h => by simp at h, fun h => ?_, fun _ => hmsg⟩
      rcases h with h | h
      · exact absurd hcmd h
      · cases h
    · split at h
      · obtain ⟨key, -, h⟩ := bind_ok h
        exact reminded_enters h (he.awaitMessage hfree _ key)
      · rw [← Except.ok.inj h]
        exact Enters.goesOn (he.defect hfree _)

theorem armGatewayFlow_control {f : SequenceFlow} {r : StepResult}
    (h : armGatewayFlow c tdef tok node y f = .ok r) : r.state.toControlState = y.toControlState := by
  unfold armGatewayFlow at h
  split at h
  · rw [← Except.ok.inj h]
  · split at h
    · obtain ⟨choice, -, h⟩ := bind_ok h
      rw [← Except.ok.inj h]
      exact armMatch_control c.ids y tok.id choice
    · rw [← Except.ok.inj h]

theorem eventBasedGateway_enters (he : Entry c x tdef tok node) (hfree : Free c.top x.toControlState tok)
    (h : eventBasedGateway c tdef x tok node = .ok r) : Enters c trg x.toControlState r := by
  obtain ⟨r1, h1, h⟩ := bind_ok h
  rw [← Except.ok.inj h]
  refine Enters.goesOn ?_
  have hctl := forEach_control (fun y f r h => armGatewayFlow_control h) h1
  change Moves c.top c.ids trg x.toControlState r1.state.toControlState
  rw [hctl]
  exact he.await hfree _

end Waiting

/-! ## Leaving a scope -/

theorem exitScope_keeps (s : ControlState) (scope : String) (enclosing : Bool) :
    Phase.Keeps s (s.exitScope scope enclosing) := by
  unfold exitScope
  have hnote : Phase.Keeps s (s.note (.exited scope enclosing s.tokens s.scopes s.compensating)) :=
    (Phase.Keeps.refl s).thenNote (by trivial)
  exact (hnote.trans (Phase.Keeps.archiveCompensations _ scope)).trans (Phase.Keeps.closeScope _ scope)

/-- What a normal exit leaves alone. -/
theorem exitScope_outline (s : ControlState) (scope : String) (enclosing : Bool) :
    (s.exitScope scope enclosing).tokens = s.tokens ∧ (s.exitScope scope enclosing).scopeSeq = s.scopeSeq ∧
      (s.exitScope scope enclosing).history = s.history := by
  unfold exitScope
  obtain ⟨p, he⟩ := ((s.note (.exited scope enclosing s.tokens s.scopes s.compensating)).archiveCompensations
    scope).closeScope_shape scope
  have ho := sameOutline ((s.note (.exited scope enclosing s.tokens s.scopes
    s.compensating)).archiveCompensations_outline scope)
  rw [he]
  exact ⟨ho.tokens, ho.scopeSeq, ho.history⟩

theorem mem_descendants_self (scopes : List Scope) (id : String) : id ∈ descendantScopeIDs scopes id := by
  unfold descendantScopeIDs
  -- the fold only appends
  have hgrow : ∀ (l : List Scope) (ids : List String), id ∈ ids → id ∈ l.foldl (fun ids sc =>
      if ids.contains sc.id || ids.contains sc.parentID then ids ++ [sc.id] else ids) ids := by
    intro l
    induction l with
    | nil => exact fun ids h => h
    | cons sc l ih =>
      intro ids h
      refine ih _ ?_
      dsimp only
      split
      · exact List.mem_append_left _ h
      · exact h
  exact hgrow scopes [id] List.mem_cons_self

theorem closeScope_closed (s : ControlState) (id : String) : ∀ sc ∈ (s.closeScope id).scopes, sc.id ≠ id := by
  intro sc hsc he
  unfold closeScope at hsc
  split at hsc
  · rename_i hnone
    have := List.find?_eq_none.mp (Option.isNone_iff_eq_none.mp hnone) sc hsc
    simp [he] at this
  · have hf := (List.mem_filter.mp hsc).2
    rw [he, List.contains_iff_mem.mpr (mem_descendants_self _ id)] at hf
    cases hf

/-- The guards of a normal exit, as the code checks them. -/
theorem Clean.exit {scope except : String} {enclosing : Bool} (hne : scope ≠ "")
    (htok : tokensInScope s.tokens scope = 0)
    (hchild : hasChildScopeWithTokens s.tokens s.scopes scope except = false)
    (hexcept : ∀ sc ∈ s.scopes, sc.id ≠ except)
    (hhold : enclosing = false → s.compensationWalkHoldsScope scope = false) :
    Clean c trg s (s.exitScope scope enclosing) := by
  obtain ⟨-, hseq, hhist⟩ := exitScope_outline s scope enclosing
  refine ⟨(Move.exit scope enclosing hne htok (fun sc hsc hpar => ?_) hhold).path,
    exitScope_keeps s scope enclosing, hseq, ?_⟩
  · unfold hasChildScopeWithTokens at hchild
    have hno := List.any_eq_false.mp hchild sc hsc
    simp only [hpar, beq_self_eq_true, bne_iff_ne.mpr (hexcept sc hsc), Bool.and_self, Bool.true_and,
      decide_eq_true_eq] at hno
    omega
  · rw [hhist]
    exact fun h => h

theorem recordCompensation_tokens (s : ControlState) (scope : String) (rec : CompensationRecord) :
    (s.recordCompensation scope rec).tokens = s.tokens := by
  unfold recordCompensation
  split
  · rfl
  · split <;> rfl

theorem Clean.record (scope : String) (rec : CompensationRecord) (hfwd : s.Forward)
    (hhist : s.history ≠ []) : Clean c trg s (s.recordCompensation scope rec) := by
  refine ⟨(Move.record scope rec hfwd hhist).path, Phase.Keeps.recordCompensation s scope rec, ?_, ?_⟩
  · unfold recordCompensation
    split
    · rfl
    · split <;> rfl
  · unfold recordCompensation
    split
    · exact fun h => h
    · split <;> exact fun h => h

theorem Clean.recordSubProcess (hfwd : y.toControlState.Forward) (hhist : y.history ≠ [])
    (d : ProcessDefinition) (nodeID parentID : String) :
    Clean c trg y.toControlState (recordSubProcessCompensation c d y nodeID parentID).toControlState := by
  unfold recordSubProcessCompensation
  split
  · split
    · split
      · exact Clean.refl _
      · exact Clean.record _ _ hfwd hhist
    · exact Clean.refl _
  · exact Clean.refl _

theorem moves_resumeInParentScope {y' : InstanceState} (hfwd : y.toControlState.Forward)
    (hscope : y.toControlState.ScopeRef c.ids parentID) {nodeID : String}
    (h : resumeInParentScope c d y nodeID parentID = some y') :
    Moves c.top c.ids trg y.toControlState y'.toControlState := by
  unfold resumeInParentScope at h
  split at h
  · cases h
  · rw [← Option.some.inj h]
    exact (Move.place _ _ _ _ hfwd hscope).path

/-- The last token of a scope was consumed and the instance goes on. -/
structure Leaving (c : StepCtx) (x : InstanceState) : Prop where
  wf : Wf c.ids x.toControlState
  forward : x.toControlState.Forward
  history : x.history ≠ []

theorem Leaving.after {x : InstanceState} (h : Leaving c x) (hc : Clean c trg x.toControlState y.toControlState) :
    Leaving c y := ⟨Moves.wf h.wf hc.path, hc.forward h.forward, hc.history h.history⟩

theorem endControl_tokens (s : ControlState) (st : Status) (err : String) : (s.endControl st err).tokens = s.tokens := by
  unfold endControl
  exact (sameOutline (archiveAll_outline { s with status := st } (s.scopes.map (·.id)))).tokens

/-- The end of an instance without a token or a walk. -/
theorem Leaving.complete {x : InstanceState} (h : Leaving c x) (hd : x.drained = true)
    (hr : r.state = (x.complete c.at_).state) : Enters c trg x.toControlState r := by
  have htok : x.tokens = [] := by
    unfold drained at hd
    rw [Bool.and_eq_true, List.isEmpty_iff] at hd
    exact hd.1
  have hctl : r.state.toControlState = x.toControlState.endControl .completed "" := by
    rw [hr, InstanceState.complete_control]
  refine Enters.ended x.toControlState Relation.ReflTransGen.refl ?_ ?_
  · rw [hctl]
    exact End.complete h.forward.live hd
  · rw [hctl, endControl_tokens]
    exact htok

section Exit
variable {x : InstanceState} {scopeID : String} (hl : Leaving c x)
include hl

theorem exitRootScope_enters (hr : r.state = (exitRootScope c x).state) :
    Enters c trg x.toControlState r := by
  unfold exitRootScope at hr
  split at hr
  · rename_i hd
    exact hl.complete hd hr
  · refine Enters.goesOn ?_
    rw [hr]

theorem exitRegularSubprocessScope_enters (hne : scopeID ≠ "") (htok : tokensInScope x.tokens scopeID = 0)
    (hhold : x.compensationWalkHoldsScope scopeID = false) {nodeID : String}
    (hparent : x.toControlState.ScopeRef c.ids parentID)
    (h : exitRegularSubprocessScope c x scopeID nodeID parentID = .ok r) : Enters c trg x.toControlState r := by
  unfold exitRegularSubprocessScope at h
  split at h
  · rw [← Except.ok.inj h]
    exact Enters.goesOn Relation.ReflTransGen.refl
  · rename_i hchild
    dsimp only at h
    split at h
    · cases h
    · rename_i parentDef _
      split at h
      · cases h
      · rename_i s3 hres
        rw [← Except.ok.inj h]
        have hexit : Clean c trg x.toControlState (((x.removeEventTriggeredSubprocessArmsForScope scopeID).state.onControl
            (·.exitScope scopeID false)).toControlState) :=
          Clean.exit hne htok (Bool.eq_false_iff.mpr hchild) (fun sc hsc => (hl.wf.names.scopes.minted sc hsc).ne_empty)
            (fun _ => hhold)
        have hl1 := hl.after hexit
        have hrec : Clean c trg _ _ := Clean.recordSubProcess hl1.forward hl1.history parentDef nodeID parentID
        have hclean := hexit.trans hrec
        exact Enters.goesOn (hclean.path.trans
          (moves_resumeInParentScope (hclean.forward hl.forward) (hclean.scopeRef hparent) hres))

theorem exitRootEventSubprocessScope_enters : Enters c trg x.toControlState (exitRootEventSubprocessScope c x scopeID) := by
  unfold exitRootEventSubprocessScope
  split
  · exact Enters.goesOn Relation.ReflTransGen.refl
  · split
    · exact Enters.goesOn Relation.ReflTransGen.refl
    · exact exitRootScope_enters hl rfl

theorem exitNestedEventSubprocessScope_enters (hclosed : ∀ sc ∈ x.scopes, sc.id ≠ scopeID)
    (hne : parentID ≠ "")
    (h : exitNestedEventSubprocessScope c x scopeID parentID = .ok r) :
    Enters c trg x.toControlState r := by
  have hstay : ∀ {y : EnterResult}, y.state = x → Enters c trg x.toControlState y := by
    intro y hy
    refine Enters.goesOn ?_
    rw [hy]
  unfold exitNestedEventSubprocessScope at h
  split at h
  · rw [← Except.ok.inj h]
    exact hstay rfl
  · rename_i enclosing hsc
    have hgrand : x.toControlState.ScopeRef c.ids enclosing.parentID :=
      hl.wf.names.scopes.parents enclosing (List.mem_of_find?_eq_some hsc)
    split at h
    · rw [← Except.ok.inj h]
      exact hstay rfl
    · rename_i htok
      split at h
      · rw [← Except.ok.inj h]
        exact hstay rfl
      · rename_i hchild
        dsimp only at h
        have hexit : Clean c trg x.toControlState (x.onControl (·.exitScope parentID true)).toControlState :=
          Clean.exit hne (Nat.eq_zero_of_not_pos htok) (Bool.eq_false_iff.mpr hchild) hclosed (fun hf => by cases hf)
        have hl1 := hl.after hexit
        split at h
        · cases h
        · rename_i d _
          have hrec : Clean c trg _ _ :=
            Clean.recordSubProcess hl1.forward hl1.history d enclosing.nodeID enclosing.parentID
          have hclean := hexit.trans hrec
          split at h
          · rename_i s3 hres
            rw [← Except.ok.inj h]
            refine Enters.goesOn ?_
            change Moves c.top c.ids trg x.toControlState s3.toControlState
            exact hclean.path.trans
              (moves_resumeInParentScope (hclean.forward hl.forward) (hclean.scopeRef hgrand) hres)
          · split at h
            · cases h
            · split at h
              · rename_i hd
                rw [← Except.ok.inj h]
                exact Enters.after hclean.path ((hl1.after hrec).complete hd rfl)
              · rw [← Except.ok.inj h]
                exact Enters.goesOn hclean.path

theorem exitEventSubprocessScope_enters (hne : scopeID ≠ "") (htok : tokensInScope x.tokens scopeID = 0)
    (hhold : x.compensationWalkHoldsScope scopeID = false)
    (h : exitEventSubprocessScope c x scopeID parentID = .ok r) : Enters c trg x.toControlState r := by
  unfold exitEventSubprocessScope at h
  split at h
  · rw [← Except.ok.inj h]
    exact Enters.goesOn Relation.ReflTransGen.refl
  · rename_i hchild
    dsimp only at h
    have hexit : Clean c trg x.toControlState (x.onControl (·.exitScope scopeID false)).toControlState :=
      Clean.exit hne htok (Bool.eq_false_iff.mpr hchild) (fun sc hsc => (hl.wf.names.scopes.minted sc hsc).ne_empty)
        (fun _ => hhold)
    split at h
    · rw [← Except.ok.inj h]
      exact Enters.after hexit.path (exitRootEventSubprocessScope_enters (hl.after hexit))
    · rename_i hroot
      exact Enters.after hexit.path (exitNestedEventSubprocessScope_enters (hl.after hexit)
        (closeScope_closed _ scopeID) (by simpa using hroot) h)

theorem exitSubprocessScope_enters (hne : scopeID ≠ "") (h : exitSubprocessScope c x scopeID = .ok r) :
    Enters c trg x.toControlState r := by
  unfold exitSubprocessScope at h
  split at h
  · rw [← Except.ok.inj h]
    exact Enters.goesOn Relation.ReflTransGen.refl
  · rename_i htok
    have htok' : tokensInScope x.tokens scopeID = 0 := by simpa using htok
    split at h
    · rw [← Except.ok.inj h]
      exact Enters.goesOn Relation.ReflTransGen.refl
    · rename_i hhold
      have hhold' := Bool.eq_false_iff.mpr hhold
      split at h
      · cases h
      · rename_i scope hsc
        split at h
        · exact exitEventSubprocessScope_enters hl hne htok' hhold' h
        · exact exitRegularSubprocessScope_enters hl hne htok' hhold'
            (hl.wf.names.scopes.parents scope (List.mem_of_find?_eq_some hsc)) h

end Exit

/-! ## End events -/

/-- The visits of a list of tokens are closed and their cancellation is noted. -/
def cancelVisits (at_ : Time) (kind : CloseKind) (toks : List Token) (s : ControlState) : ControlState :=
  toks.foldl (fun s tok =>
    (s.closeVisitAs tok.id tok.nodeID at_ kind).note (.cancelled tok s.deferredCompensationThrows s.walking)) s

theorem cancelVisits_tokens (at_ : Time) (kind : CloseKind) (toks l : List Token) (s : ControlState) :
    cancelVisits at_ kind toks { s with tokens := l } = { cancelVisits at_ kind toks s with tokens := l } := by
  induction toks generalizing s with
  | nil => rfl
  | cons tok toks ih =>
    have hstep : (({ s with tokens := l }).closeVisitAs tok.id tok.nodeID at_ kind).note
        (.cancelled tok s.deferredCompensationThrows s.walking) =
        { (s.closeVisitAs tok.id tok.nodeID at_ kind).note
            (.cancelled tok s.deferredCompensationThrows s.walking) with tokens := l } := by
      unfold closeVisitAs updateOpenVisit
      split <;> rfl
    change cancelVisits at_ kind toks (({ s with tokens := l }).closeVisitAs tok.id tok.nodeID at_ kind |>.note
      (.cancelled tok s.deferredCompensationThrows s.walking)) = _
    rw [hstep, ih]
    rfl

/-- Cancelling the tokens one by one is cancelling them all at once. -/
theorem cancelListed_eq_cancelVisits (at_ : Time) (kind : CloseKind) (toks : List Token) (s : ControlState)
    (htok : s.tokens = toks) (hnodup : (toks.map (·.id)).Nodup) (hne : ∀ t ∈ toks, t.id ≠ "") :
    s.cancelListed at_ kind toks = { cancelVisits at_ kind toks s with tokens := [] } := by
  induction toks generalizing s with
  | nil =>
    change s = { s with tokens := [] }
    cases s
    dsimp only at htok
    rw [htok]
  | cons tok toks ih =>
    obtain ⟨hfresh, hnodup'⟩ := List.nodup_cons.mp hnodup
    have hrest : (tok :: toks).filter (fun t => t.id != tok.id) = toks := by
      rw [List.filter_cons_of_neg (by simp)]
      refine List.filter_eq_self.mpr (fun t ht => ?_)
      rw [bne_iff_ne]
      intro hid
      exact hfresh (List.mem_map.mpr ⟨t, ht, hid⟩)
    have hstep : s.cancelToken tok at_ kind = { (s.closeVisitAs tok.id tok.nodeID at_ kind).note
        (.cancelled tok s.deferredCompensationThrows s.walking) with tokens := toks } := by
      have hid := hne tok List.mem_cons_self
      have hfind : s.tokenByID tok.id = some tok := by
        unfold tokenByID
        rw [if_neg (by simpa using hid), htok, List.find?_cons_of_pos (by simp)]
      obtain ⟨h, -, he⟩ := s.updateOpenVisit_shape tok.id tok.nodeID
        (fun v => { v with leftAt := some at_, closeKind := kind })
      unfold cancelToken consumeTokenAs closeVisitAs
      rw [hfind]
      dsimp only
      rw [he, removeToken_of_ne _ hid]
      dsimp only
      rw [htok, hrest]
      rfl
    change (s.cancelToken tok at_ kind).cancelListed at_ kind toks = _
    rw [ih (s.cancelToken tok at_ kind) (by rw [hstep]) hnodup' (fun t ht => hne t (List.mem_cons_of_mem _ ht)), hstep,
      cancelVisits_tokens]
    rfl

theorem cancelAllTokens_eq {g : IDGenerator} (hn : Names g s) (at_ : Time) (kind : CloseKind) :
    s.cancelAllTokens at_ kind = s.cancelListed at_ kind s.tokens :=
  (cancelListed_eq_cancelVisits at_ kind s.tokens s rfl hn.tokens.nodup (fun _ ht => hn.tokens.ne_empty ht)).symm

section Ends
variable {x : InstanceState} {tdef : ProcessDefinition} {tok : Token} {node : Node}

theorem forceTerminate_enters (he : Entry c x tdef tok node) (ev : EndEvent) :
    Enters c trg x.toControlState (forceTerminate c x ev) := by
  have htok : x.tokens ≠ [] := List.ne_nil_of_mem he.mem
  have hnote : Names c.ids (x.toControlState.note (.forced ev.outcome x.pendingCancel)) :=
    he.wf.names.of_shrinks (Names.Shrinks.note _ _)
  have hall := cancelAllTokens_eq hnote c.at_ .terminated
  unfold forceTerminate
  dsimp only
  cases hout : ev.outcome with
  | abort =>
    refine Enters.halted rfl ⟨x.toControlState, Relation.ReflTransGen.refl, Or.inr ?_⟩
    dsimp only
    rw [InstanceState.endInstance_control, InstanceState.onControl_toControlState, ← hout, hall]
    have hend : End trg x.toControlState _ := End.forced ev.outcome c.at_
      (if ev.terminationReason == "" then "force-terminated" else ev.terminationReason) he.live htok
    rw [hout] at hend ⊢
    exact hend
  | complete =>
    refine Enters.halted rfl ⟨x.toControlState, Relation.ReflTransGen.refl, Or.inr ?_⟩
    dsimp only
    rw [InstanceState.complete_control, InstanceState.onControl_toControlState, ← hout, hall]
    have hend : End trg x.toControlState _ := End.forced ev.outcome c.at_ "" he.live htok
    rw [hout] at hend ⊢
    exact hend

theorem endEvent_enters (hdrv : Drives c trg drv) (he : Entry c x tdef tok node)
    (hfree : Free c.top x.toControlState tok) {ev : EndEvent}
    (h : endEvent drv c x tok ev = .ok r) : Enters c trg x.toControlState r := by
  have hcons : ∀ kind, Clean c trg x.toControlState (x.toControlState.consumeTokenAs tok c.at_ kind) :=
    fun kind => Clean.consume c.at_ kind he.mem hfree
  unfold endEvent at h
  split at h
  · rw [← Except.ok.inj h]
    exact forceTerminate_enters he ev
  · dsimp only at h
    split at h
    · cases h
    · rename_i r' hprop
      rw [← Except.ok.inj h]
      have hclean := hcons .errored
      refine Enters.halted rfl (Moves.then hclean.path ?_)
      exact propagateError_reaches hdrv (Moves.wf he.wf hclean.path) (hclean.forward he.forward) rfl
        (hclean.scopeRef he.scopeRef) (fun hor => hor.elim (fun hne => absurd rfl hne) (fun hf => by cases hf)) hprop
  · have hclean := hcons .normal
    have hl : Leaving c (x.onControl (·.consumeToken tok c.at_)) :=
      ⟨Moves.wf he.wf hclean.path, hclean.forward he.forward, hclean.history he.history⟩
    refine Enters.after hclean.path ?_
    dsimp only at h
    split at h
    · rw [← Except.ok.inj h]
      exact exitRootScope_enters hl rfl
    · rename_i hroot
      exact exitSubprocessScope_enters hl (by simpa using hroot) h

end Ends

/-! ## Opening a scope -/

theorem defForScopeAux_append (more : List Scope) {fuel : Nat} {id : String}
    (h : defForScopeAux top scopes fuel id = .ok d) : defForScopeAux top (scopes ++ more) fuel id = .ok d := by
  induction fuel generalizing id d with
  | zero => cases h
  | succ n ih =>
    unfold defForScopeAux at h ⊢
    split at h
    · rename_i hroot
      rw [if_pos hroot]
      exact h
    · rename_i hroot
      rw [if_neg hroot]
      cases hsc : scopeByID scopes id with
      | none =>
        rw [hsc] at h
        cases h
      | some scope =>
        have hsc' : scopeByID (scopes ++ more) id = some scope := by
          unfold scopeByID at hsc ⊢
          rw [List.find?_append, hsc]
          rfl
        rw [hsc] at h
        rw [hsc']
        dsimp only at h ⊢
        cases hpar : defForScopeAux top scopes n scope.parentID with
        | error e =>
          rw [hpar] at h
          cases h
        | ok parent =>
          rw [hpar] at h
          rw [ih hpar]
          exact h

theorem defForScopeAux_succ {fuel : Nat} {id : String}
    (h : defForScopeAux top scopes fuel id = .ok d) : defForScopeAux top scopes (fuel + 1) id = .ok d := by
  induction fuel generalizing id d with
  | zero => cases h
  | succ n ih =>
    unfold defForScopeAux at h ⊢
    split at h
    · rename_i hroot
      rw [if_pos hroot]
      exact h
    · rename_i hroot
      rw [if_neg hroot]
      cases hsc : scopeByID scopes id with
      | none =>
        rw [hsc] at h
        cases h
      | some scope =>
        rw [hsc] at h
        dsimp only at h ⊢
        cases hpar : defForScopeAux top scopes n scope.parentID with
        | error e =>
          rw [hpar] at h
          cases h
        | ok parent =>
          rw [hpar] at h
          rw [ih hpar]
          exact h

/-- A new scope changes no definition that was there. -/
theorem defForScope_append (sc : Scope) {id : String}
    (h : defForScope top scopes id = .ok d) : defForScope top (scopes ++ [sc]) id = .ok d := by
  unfold defForScope at h ⊢
  rw [List.length_append]
  exact defForScopeAux_succ (defForScopeAux_append [sc] h)

section Forking
variable {x : InstanceState} {tdef : ProcessDefinition} {tok : Token} {node : Node}

theorem subProcess_enters (he : Entry c x tdef tok node) (hfree : Free c.top x.toControlState tok)
    {activity : ActivityFields} {sub : Option ProcessDefinition} (hspec : node.spec = .subProcess activity sub)
    (h : subProcess c x tok node sub = .ok r) : Enters c trg x.toControlState r := by
  refine Enters.goesOn ?_
  unfold subProcess at h
  split at h
  · rw [← Except.ok.inj h]
    exact he.defect hfree _
  · rename_i sub
    split at h
    · cases h
    · split at h
      · cases h
      · rename_i start _
        obtain ⟨r', h', h⟩ := bind_ok h
        rw [← Except.ok.inj h]
        change Moves c.top c.ids trg x.toControlState r'.state.toControlState
        rw [armEventTriggeredSubprocesses_control h', InstanceState.onControl_toControlState]
        set o := x.toControlState.openScope c.ids node.id tok.scopeID with ho
        have hopen : Moves c.top c.ids trg x.toControlState (o.1.placeTokenInScope c.ids start o.2 "" c.at_) :=
          moves_openScope he.forward he.scopeRef (opens_of_def he.wf.names he.defn he.found' hspec) start c.at_
        -- the token is still there and still free to go
        have hmem : tok ∈ (o.1.placeTokenInScope c.ids start o.2 "" c.at_).tokens := List.mem_append_left _ he.mem
        have hfree' : Free c.top (o.1.placeTokenInScope c.ids start o.2 "" c.at_) tok := by
          rcases hfree with haw | ⟨hact, d, hdef, hconv, hthrow⟩
          · exact Or.inl haw
          · refine Or.inr ⟨hact, d, defForScope_append _ hdef, hconv, fun ht => ?_⟩
            exact List.mem_cons_of_mem _ (List.mem_cons_of_mem _ (hthrow ht))
        exact hopen.trans (moves_consume c.at_ .normal hmem hfree')

theorem callActivity_enters (he : Entry c x tdef tok node) (hfree : Free c.top x.toControlState tok) (q : Qualifier) :
    Enters c trg x.toControlState (callActivity c x tok q) := Enters.goesOn (he.awaitNew hfree _)

theorem intermediateThrowEvent_enters (he : Entry c x tdef tok node) (hfree : Free c.top x.toControlState tok)
    (name : String) : Enters c trg x.toControlState (intermediateThrowEvent c tdef x tok node name) := by
  refine Enters.goesOn ?_
  unfold intermediateThrowEvent
  split
  · exact he.goOn hfree rfl _
  · exact he.defect hfree _

/-! ## Gateways -/

theorem exclusiveGateway_enters (he : Entry c x tdef tok node) (hfree : Free c.top x.toControlState tok)
    (h : exclusiveGateway c tdef x tok node = .ok r) : Enters c trg x.toControlState r := by
  obtain ⟨f, -, h⟩ := bind_ok h
  rw [← Except.ok.inj h]
  refine Enters.goesOn ?_
  have hmove : Moves c.top c.ids trg x.toControlState ((x.toControlState.updateToken tok.id (fun t => t)).moveTokenToTargetAs
      tok f.flow.target f.identity c.at_ .normal) :=
    moves_moveTokenToTargetAs he.wf.names he.mem hfree (fun t => t) (fun _ => rfl)
      ⟨⟨rfl, rfl, rfl, rfl⟩, fun ha => ⟨fun _ => ha.quiet (Or.inl he.active), fun hc => ?_, ha.signal⟩⟩ _ _ c.at_ .normal
  · rw [updateToken_id] at hmove
    exact hmove
  · refine ha.command (hc.imp (fun h => h) (fun h => ?_))
    cases h

theorem joinGateway_enters (he : Entry c x tdef tok node)
    (hkind : node.kind = .parallelGateway ∨ node.kind = .inclusiveGateway) (hconv : 1 < (tdef.incoming node.id).length) :
    Enters c trg x.toControlState (joinGateway c tdef x tok node) := by
  refine Enters.goesOn ?_
  have hp : ParkedOn x.toControlState (x.toControlState.setTokenState tok.id .joining) node tok.scopeID :=
    Or.inr ⟨tok, he.mem, he.active, he.node_id_eq.symm, rfl, rfl⟩
  have hjoin : Moves c.top c.ids trg x.toControlState ((tryJoin c.ids tdef (x.toControlState.setTokenState tok.id .joining)
      node tok.scopeID c.at_).getD (x.toControlState.setTokenState tok.id .joining)) :=
    moves_tryJoin hp he.defn he.found' hconv hkind he.forward he.scopeRef c.at_
  unfold joinGateway
  dsimp only
  rw [InstanceState.onControl_toControlState]
  cases htry : tryJoin c.ids tdef (x.toControlState.setTokenState tok.id .joining) node tok.scopeID c.at_ with
  | none =>
    rw [htry] at hjoin
    exact hjoin
  | some ctl =>
    rw [htry] at hjoin
    exact hjoin

theorem Entry.fork (he : Entry c x tdef tok node) (hfree : Free c.top x.toControlState tok) (fs : List FlowRef) :
    Moves c.top c.ids trg x.toControlState
      (placeOnFlows c.ids tok.scopeID c.at_ fs (x.toControlState.consumeToken tok c.at_)) :=
  moves_fork he.wf he.live he.mem hfree c.at_ fs

theorem parallelGateway_enters (he : Entry c x tdef tok node) (hspec : node.spec = .parallelGateway)
    (h : parallelGateway c tdef x tok node = .ok r) : Enters c trg x.toControlState r := by
  have hkind : node.kind = .parallelGateway := by
    unfold NodeOf.kind
    rw [hspec]
  unfold parallelGateway at h
  split at h
  · rename_i hconv
    rw [← Except.ok.inj h]
    exact joinGateway_enters he (Or.inl hkind) hconv
  · rename_i hconv
    rw [← Except.ok.inj h]
    have hfree := he.free (fun _ => not_lt.mp hconv) (fun e hs => by rw [hspec] at hs; cases hs)
    exact Enters.goesOn (he.fork hfree _)

theorem inclusiveGateway_enters (he : Entry c x tdef tok node) (hspec : node.spec = .inclusiveGateway)
    (h : inclusiveGateway c tdef x tok node = .ok r) : Enters c trg x.toControlState r := by
  have hkind : node.kind = .inclusiveGateway := by
    unfold NodeOf.kind
    rw [hspec]
  unfold inclusiveGateway at h
  split at h
  · rename_i hconv
    rw [← Except.ok.inj h]
    exact joinGateway_enters he (Or.inr hkind) hconv
  · rename_i hconv
    have hfree := he.free (fun _ => not_lt.mp hconv) (fun e hs => by rw [hspec] at hs; cases hs)
    split at h
    · cases h
    · rename_i ctl hfork
      rw [← Except.ok.inj h]
      refine Enters.goesOn ?_
      change Moves c.top c.ids trg x.toControlState ctl
      unfold forkInclusive at hfork
      split at hfork
      · cases hfork
      · split at hfork
        · cases hfork
        · rw [← Except.ok.inj hfork]
          exact he.fork hfree _
      · rw [← Except.ok.inj hfork]
        exact he.fork hfree _

end Forking

/-! ## Compensation throws -/

section Throw
variable {x : InstanceState} {tdef : ProcessDefinition} {tok : Token} {node : Node} {e : CompensationThrowEvent}

theorem Entry.atThrow (he : Entry c x tdef tok node) (hspec : node.spec = .compensationThrowEvent e) :
    AtThrow c.top x.toControlState tok := ⟨he.mem, he.active, tdef, he.defn, node, e, he.found, hspec⟩

theorem passThrow_enters (he : Entry c x tdef tok node) (hspec : node.spec = .compensationThrowEvent e) :
    Enters c trg x.toControlState (passThrow c tdef tok x) := by
  set y := x.onControl (fun s => s.note (.passed tok.id s.deferredCompensationThrows s.walking)) with hy
  have hpass : Moves c.top c.ids trg x.toControlState y.toControlState := (Move.pass tok (he.atThrow hspec)).path
  have he' : Entry c y tdef tok node := ⟨Moves.wf he.wf hpass, he.live, he.mem, he.active, he.defn, he.found⟩
  have hfree : Free c.top y.toControlState tok := by
    refine Or.inr ⟨he.active, tdef, he.defn, ?_, fun _ => List.mem_cons_self⟩
    rintro ⟨n, hn, hk, -⟩
    obtain rfl := Option.some.inj (he.found.symm.trans hn)
    unfold NodeOf.kind at hk
    rw [hspec] at hk
    rcases hk with hk | hk <;> cases hk
  exact Enters.goesOn (hpass.trans (he'.goOn hfree rfl []))

/-- Where the records of a throw's walk come from. -/
def ThrowSource (s : ControlState) (tok : Token) (records : List CompensationRecord) (cursor : CompensationCursor) : Prop :=
  (∃ key, key ≠ "" ∧ cursor = { archiveKey := key } ∧ records = s.archivedCompensations.get key) ∨
    (cursor = { scopeID := tok.scopeID, startRecordCount := records.length } ∧
      records = s.compensationRecordsForScope tok.scopeID)

theorem throwWalk_enters (he : Entry c x tdef tok node) (hspec : node.spec = .compensationThrowEvent e)
    (hidle : ¬ x.toControlState.InFlight) {records : List CompensationRecord} {cursor : CompensationCursor}
    (hsrc : ThrowSource x.toControlState tok records cursor) {resume : FlowRef} (hres : resume.flow.target ≠ "") :
    Enters c trg x.toControlState (throwWalk c tdef tok x records cursor resume) := by
  unfold throwWalk
  split
  · exact passThrow_enters he hspec
  · rename_i rec hlast
    refine Enters.goesOn ?_
    change Moves c.top c.ids trg x.toControlState
      (startCompensationWalk c x tok records rec cursor resume.flow.target resume.identity).state.toControlState
    unfold startCompensationWalk
    dsimp only
    rw [afterDispatch_control, InstanceState.onControl_toControlState]
    refine (Move.throwWalk tok c.at_ _ rec (he.atThrow hspec) he.forward hidle ?_).path
    rcases hsrc with ⟨key, hkey, rfl, hrec⟩ | ⟨rfl, hrec⟩
    · exact ⟨hres, rfl, rfl, hlast, rfl, rfl, rfl, rfl, rfl, Or.inl ⟨hkey, rfl, hrec⟩⟩
    · exact ⟨hres, rfl, rfl, hlast, rfl, rfl, rfl, rfl, rfl, Or.inr ⟨rfl, rfl, rfl, hrec⟩⟩

theorem Entry.of_consolidate (he : Entry c x tdef tok node) (hidle : ¬ x.toControlState.InFlight) :
    Moves c.top c.ids trg x.toControlState (x.onControl (·.consolidateArchiveIntoRoot)).toControlState ∧
      Entry c (x.onControl (·.consolidateArchiveIntoRoot)) tdef tok node ∧
      ¬ (x.onControl (·.consolidateArchiveIntoRoot)).toControlState.InFlight := by
  have hpath : Moves c.top c.ids trg x.toControlState x.toControlState.consolidateArchiveIntoRoot :=
    (Move.sweep _ hidle Sweep.consolidate).path
  have ho := sameOutline x.toControlState.consolidate_outline
  have hk := Phase.Keeps.consolidate x.toControlState hidle
  refine ⟨hpath, ⟨Moves.wf he.wf hpath, hk.live he.live, ?_, he.active, ?_, he.found⟩, ?_⟩
  · rw [InstanceState.onControl_toControlState, ho.tokens]
    exact he.mem
  · have hs : x.toControlState.consolidateArchiveIntoRoot.scopes = x.scopes := by
      unfold consolidateArchiveIntoRoot
      split <;> rfl
    rw [InstanceState.onControl_toControlState, hs]
    exact he.defn
  · exact fun hin => hidle (hk.inFlight.mp hin)

theorem compensationThrowEvent_enters (he : Entry c x tdef tok node) (hspec : node.spec = .compensationThrowEvent e) :
    Enters c trg x.toControlState (compensationThrowEvent c tdef x tok node e) := by
  have hdefer : ∀ h : x.compensating.activeCmdID ≠ "",
      Enters c trg x.toControlState (.parked ⟨x.onControl (·.deferCompensationThrow tok.id), []⟩) := fun h =>
    Enters.goesOn (Move.deferThrow tok (he.atThrow hspec) h).path
  unfold compensationThrowEvent
  split
  · exact passThrow_enters he hspec
  · rename_i resume _ _
    split
    · exact passThrow_enters he hspec
    · rename_i hres
      have hres' : resume.flow.target ≠ "" := by simpa using hres
      split
      · rename_i href
        dsimp only
        split
        · exact passThrow_enters he hspec
        · split
          · rename_i hwalk
            exact hdefer (bne_iff_ne.mp hwalk)
          · rename_i hwalk
            have hidle : ¬ x.toControlState.InFlight := fun hin => hwalk (bne_iff_ne.mpr hin)
            exact throwWalk_enters he hspec hidle (Or.inl ⟨e.compensateRef, bne_iff_ne.mp href, rfl, rfl⟩) hres'
      · split
        · rename_i hwalk
          exact hdefer (bne_iff_ne.mp hwalk)
        · rename_i hwalk
          have hidle : ¬ x.toControlState.InFlight := fun hin => hwalk (bne_iff_ne.mpr hin)
          dsimp only
          -- a throw at the root takes the archive in first
          split
          · obtain ⟨hpath, he', hidle'⟩ := he.of_consolidate hidle
            exact Enters.after hpath (throwWalk_enters he' hspec hidle' (Or.inr ⟨rfl, rfl⟩) hres')
          · exact throwWalk_enters he hspec hidle (Or.inr ⟨rfl, rfl⟩) hres'

end Throw

/-! ## The dispatch table and the loop -/

theorem enter_enters (hdrv : Drives c trg drv) {x : InstanceState} {tdef : ProcessDefinition} {tok : Token} {node : Node}
    (he : Entry c x tdef tok node) (h : enter drv c tdef x tok node = .ok r) :
    Enters c trg x.toControlState r := by
  -- a node that is neither a converging gateway nor a throw event lets its token go
  have hfree : (node.spec ≠ .parallelGateway ∧ node.spec ≠ .inclusiveGateway ∧
      ∀ e, node.spec ≠ .compensationThrowEvent e) → Free c.top x.toControlState tok := by
    rintro ⟨hpar, hinc, hthrow⟩
    refine he.free (fun hk => ?_) hthrow
    unfold NodeOf.kind at hk
    cases hs : node.spec <;> rw [hs] at hk <;> simp_all
  unfold enter at h
  cases hspec : node.spec <;> rw [hspec] at h hfree <;> dsimp only at h
  case startEvent ev =>
    rw [← Except.ok.inj h]
    exact Enters.goesOn (he.goOn (hfree (by simp)) rfl [])
  case endEvent ev => exact endEvent_enters hdrv he (hfree (by simp)) h
  case serviceTask | businessRuleTask =>
    cases hemit : emitActionInvoke c tdef x tok node with
    | error e =>
      rw [hemit] at h
      cases h
    | ok r' =>
      rw [hemit] at h
      rw [← Except.ok.inj h]
      refine Enters.goesOn ?_
      have hctl := emitActionInvoke_control hemit
      change Moves c.top c.ids trg x.toControlState r'.state.toControlState
      rw [hctl]
      exact he.awaitNew (hfree (by simp)) _
  case userTask u => exact userTask_enters he (hfree (by simp)) h
  case receiveTask rt => exact receiveTask_enters he (hfree (by simp)) h
  case sendTask st => exact sendTask_enters he (hfree (by simp)) h
  case subProcess a sub => exact subProcess_enters he (hfree (by simp)) hspec h
  case callActivity a q =>
    rw [← Except.ok.inj h]
    exact callActivity_enters he (hfree (by simp)) q
  case intermediateCatchEvent ev => exact intermediateCatchEvent_enters he (hfree (by simp)) h
  case intermediateThrowEvent name =>
    rw [← Except.ok.inj h]
    exact intermediateThrowEvent_enters he (hfree (by simp)) name
  case boundaryEvent ev =>
    rw [← Except.ok.inj h]
    refine Enters.goesOn (he.stop (hfree (by simp)) _ ⟨rfl, rfl, rfl, rfl⟩ (Or.inl rfl) (fun ha => ?_))
    obtain ⟨-, hsig, hmsg⟩ := ha.of_active he.active
    exact ⟨fun h => by simp at h, fun _ => ⟨hsig, hmsg⟩, fun _ => hmsg⟩
  case exclusiveGateway => exact exclusiveGateway_enters he (hfree (by simp)) h
  case parallelGateway => exact parallelGateway_enters he hspec h
  case inclusiveGateway => exact inclusiveGateway_enters he hspec h
  case eventBasedGateway => exact eventBasedGateway_enters he (hfree (by simp)) h
  case compensationThrowEvent e =>
    rw [← Except.ok.inj h]
    exact compensationThrowEvent_enters he hspec

end Wrkflw
