import Wrkflw.Machine.Loop
import Wrkflw.Property.InclusiveJoin
import Wrkflw.Property.ParallelJoin

/-!
# Quiescence

A step in macro mode runs until nothing is left to do: no token is active and no join is ready.

* `Ready` : the firing rule of a converging gateway, on the tokens parked on it;
* `Settled` : no token is active and no gateway that tokens are parked on is ready;
* `settled_loopRule` : what the loop returns is settled, whatever made a join ready on the way;
* `macro_step_settles` : a step in macro mode settles the instance, unless it neither ran the loop nor found the instance
  settled. That takes a step in micro mode before it.
-/

namespace Wrkflw

open ControlState

variable {top : ProcessDefinition}

/-! ## Ready joins -/

/-- The firing rule of a converging gateway. Parallel: the parked tokens cover the incoming flows, one each; a token
without an arrival flow covers any. Inclusive: every token of the scope on the way is parked already, and no sub-process
on the way holds tokens. -/
def Ready (d : ProcessDefinition) (s : ControlState) (node : Node) (scopeID : String) : Prop :=
  match node.kind with
  | .parallelGateway => ∃ cover : FlowRef → Token, Set.InjOn cover {f | f ∈ incomingFlows d node.id} ∧
      ∀ f ∈ incomingFlows d node.id, cover f ∈ s.tokens ∧ joinedAt (cover f) node.id scopeID = true ∧
        ((cover f).arrivalFlow = f.identity ∨ (cover f).arrivalFlow = "")
  | .inclusiveGateway => (∀ t ∈ s.tokens, t.scopeID = scopeID → t.nodeID ∈ nodesThatCanReach d node.id →
      joinedAt t node.id scopeID = true) ∧
      subtreeCanReachJoin s.tokens s.scopes scopeID (nodesThatCanReach d node.id) = false
  | _ => False

/-- No token is active and no gateway that tokens are parked on is ready. -/
structure Settled (top : ProcessDefinition) (s : ControlState) : Prop where
  still : ∀ t ∈ s.tokens, t.state ≠ .active
  joins : ∀ t ∈ s.tokens, t.state = .joining → ∀ tdef node, defForScope top s.scopes t.scopeID = .ok tdef →
    tdef.node t.nodeID = some node → 1 < (tdef.incoming node.id).length → ¬ Ready tdef s node t.scopeID

section Joins
variable {d : ProcessDefinition} {s s' : ControlState} {node : Node} {scopeID : String}

/-- The two passes of the matching find a cover when there is one. -/
theorem matchJoin_complete {tokens : List Token} {nodeID : String} (hids : (tokens.map (·.id)).Nodup)
    {cover : FlowRef → Token} (hinj : Set.InjOn cover {f | f ∈ incomingFlows d nodeID})
    (hcover : ∀ f ∈ incomingFlows d nodeID, cover f ∈ tokens ∧ joinedAt (cover f) nodeID scopeID = true ∧
      ((cover f).arrivalFlow = f.identity ∨ (cover f).arrivalFlow = "")) :
    matchJoinTokensToFlows d tokens nodeID scopeID ≠ none := by
  unfold matchJoinTokensToFlows
  set parked := tokens.filter (fun t => joinedAt t nodeID scopeID) with hparked
  have hpids : (parked.map (·.id)).Nodup := (List.filter_sublist.map _).nodup hids
  have hin : ∀ f ∈ incomingFlows d nodeID, cover f ∈ parked := fun f hf =>
    List.mem_filter.mpr ⟨(hcover f hf).1, (hcover f hf).2.1⟩
  have hnodup := incomingFlows_identity_nodup d nodeID
  have hnone : ∀ t ∈ ([] : List Token), t ∈ parked := by simp
  obtain ⟨hsub, hleft, hgot⟩ := matchPass_left hpids hnodup hnone (by simp)
  set first := matchPass parked FitsFlow (incomingFlows d nodeID) [] with hfirst
  -- the flows left are covered by tokens without an arrival flow, none of which is assigned
  have hblank : first.2.map cover ⊆ parked.filter (fun t => !hasToken first.1 t && t.arrivalFlow == "") := by
    intro t ht
    obtain ⟨f, hf, rfl⟩ := List.mem_map.mp ht
    have hflow := hsub.subset hf
    have hempty : (cover f).arrivalFlow = "" :=
      ((hcover f hflow).2.2).resolve_left (hleft f hf (cover f) (hin f hflow))
    have hfree : hasToken first.1 (cover f) = false := by
      by_contra hne
      rw [Bool.not_eq_false, hasToken_iff] at hne
      obtain ⟨a, ha, hid⟩ := hne
      rcases hgot a ha with hnil | ⟨hp, f', -, he⟩
      · cases hnil
      · have heq : a = cover f := List.inj_on_of_nodup_map hpids hp (hin f hflow) hid
        rw [heq, hempty] at he
        exact f'.identity_ne_empty he.symm
    exact List.mem_filter.mpr ⟨hin f hflow, by simp [hfree, hempty]⟩
  have hflows : first.2.Nodup := hsub.nodup (List.Nodup.of_map _ hnodup)
  have hcovers : (first.2.map cover).Nodup :=
    List.Nodup.map_on (fun f hf f' hf' he => hinj (hsub.subset hf) (hsub.subset hf') he) hflows
  have hcount := (List.Nodup.subperm hcovers hblank).length_le
  rw [List.length_map] at hcount
  have hdone := matchPass_fills hpids (fun t => t.arrivalFlow == "") hcount
  have hpass : first = matchPass parked (fun f t => t.arrivalFlow == f.identity) (incomingFlows d nodeID) [] := rfl
  dsimp only
  rw [← hpass, hdone]
  simp

/-- A join that is not made is not ready. -/
theorem tryJoin_none {g : IDGenerator} {at_ : Time} (hids : (s.tokens.map (·.id)).Nodup)
    (h : tryJoin g d s node scopeID at_ = none) : ¬ Ready d s node scopeID := by
  intro hready
  unfold Ready at hready
  split at hready
  · rename_i hkind
    obtain ⟨cover, hinj, hcover⟩ := hready
    unfold tryJoin at h
    rw [hkind] at h
    change tryParallelJoin g d s node.id scopeID at_ = none at h
    unfold tryParallelJoin at h
    split at h
    · rename_i hnone
      exact matchJoin_complete hids hinj hcover hnone
    · cases h
  · rename_i hkind
    obtain ⟨hall, hsub⟩ := hready
    unfold tryJoin at h
    rw [hkind] at h
    change tryInclusiveJoin g d s node.id scopeID at_ = none at h
    unfold tryInclusiveJoin at h
    dsimp only at h
    rw [if_neg, hsub] at h
    · cases h
    · intro hany
      obtain ⟨t, ht, hp⟩ := List.any_eq_true.mp hany
      simp only [Bool.and_eq_true, Bool.not_eq_true', beq_iff_eq, List.contains_iff_mem] at hp
      rw [hall t ht hp.1.2 hp.2] at hp
      cases hp.1.1
  · exact hready

/-- The sweep over the parked joins makes every join that is ready. -/
theorem retryParked_none {g : IDGenerator} {at_ : Time} (hids : (s.tokens.map (·.id)).Nodup)
    {toks : List Token} (h : retryParked g top s at_ toks = none) : ∀ t ∈ toks, t.state = .joining → ∀ tdef node,
      defForScope top s.scopes t.scopeID = .ok tdef → tdef.node t.nodeID = some node → 1 < (tdef.incoming node.id).length →
      ¬ Ready tdef s node t.scopeID := by
  induction toks with
  | nil => simp
  | cons tok toks ih =>
    intro t ht hjoin tdef node hdef hnode hin
    have hrest : retryParked g top s at_ toks = none := by
      unfold retryParked at h
      split at h
      · exact h
      · split at h
        · exact h
        · split at h
          · exact h
          · split at h
            · exact h
            · split at h
              · cases h
              · exact h
    rcases List.mem_cons.mp ht with rfl | ht
    · unfold retryParked at h
      rw [if_neg (by simp [hjoin]), hdef] at h
      dsimp only at h
      rw [hnode] at h
      dsimp only at h
      rw [if_neg (by omega)] at h
      split at h
      · cases h
      · rename_i hnone
        exact tryJoin_none hids hnone
    · exact ih hrest t ht hjoin tdef node hdef hnode hin

end Joins

/-! ## What the loop returns -/

/-- Live instances are settled. -/
def Settles (top : ProcessDefinition) (r : StepResult) : Prop :=
  r.state.status.isTerminal = false → (r.state.tokens.map (·.id)).Nodup → Settled top r.state.toControlState

theorem settled_of_empty {s : ControlState} (h : s.tokens = []) : Settled top s := by
  refine ⟨fun t ht => ?_, fun t ht => ?_⟩
  · rw [h] at ht
    cases ht
  · rw [h] at ht
    cases ht

/-- The loop of a macro step stops where no token is active and the sweep over the parked joins makes none. -/
theorem settled_loopRule (c : StepCtx) (hmode : c.opt.mode = .macroStep) : LoopRule c (Settles c.top) where
  prepend := fun _ h => h
  rests := by
    intro x _ hact hjoin _ hids
    refine ⟨fun t ht hst => ?_, retryParked_none hids hjoin⟩
    exact List.find?_eq_none.mp hact t ht (by simp [hst])
  stops := by
    intro hmicro
    rw [hmode] at hmicro
    cases hmicro
  empties := fun _ htok _ _ _ => settled_of_empty htok
  closes := by
    intro r hcloses hlive
    rw [hcloses.ended] at hlive
    cases hlive

/-! ## What a handler leaves alone -/

/-- The tokens are where they were, and those that changed came to rest. -/
structure Calmed (s s' : ControlState) : Prop where
  tokens : ∃ h : Token → Token, s'.tokens = s.tokens.map h ∧ ∀ t, h t = t ∨ t.Rests (h t)
  scopes : s'.scopes.map Scope.bare = s.scopes.map Scope.bare

section Calmed
variable {s s' s'' : ControlState}

theorem Calmed.same (ht : s'.tokens = s.tokens) (hs : s'.scopes.map Scope.bare = s.scopes.map Scope.bare) : Calmed s s' :=
  ⟨⟨id, by rw [ht, List.map_id], fun _ => Or.inl rfl⟩, hs⟩

theorem Calmed.update {id : String} {f : Token → Token} (hf : ∀ t : Token, t.Rests (f t))
    (ht : s'.tokens = (s.updateToken id f).tokens) (hs : s'.scopes.map Scope.bare = s.scopes.map Scope.bare) :
    Calmed s s' := by
  refine ⟨⟨fun t => if t.id == id then f t else t, ht, fun t => ?_⟩, hs⟩
  dsimp only
  split
  · exact Or.inr (hf t)
  · exact Or.inl rfl

theorem Token.Rests.trans_or {t t' t'' : Token} (h : t' = t ∨ t.Rests t') (h' : t'' = t' ∨ t'.Rests t'') :
    t'' = t ∨ t.Rests t'' := by
  rcases h' with rfl | h'
  · exact h
  · rcases h with rfl | h
    · exact Or.inr h'
    · refine Or.inr ⟨⟨?_, ?_, ?_, ?_⟩, h'.idle, h'.free⟩
      · exact h'.place.id.trans h.place.id
      · exact h'.place.nodeID.trans h.place.nodeID
      · exact h'.place.scopeID.trans h.place.scopeID
      · exact h'.place.arrivalFlow.trans h.place.arrivalFlow

theorem Calmed.trans (h : Calmed s s') (h' : Calmed s' s'') : Calmed s s'' := by
  obtain ⟨f, hf, hrest⟩ := h.tokens
  obtain ⟨f', hf', hrest'⟩ := h'.tokens
  refine ⟨⟨f' ∘ f, ?_, fun t => Token.Rests.trans_or (hrest t) (hrest' (f t))⟩, h'.scopes.trans h.scopes⟩
  rw [hf', hf, List.map_map]

/-- The tokens a subtree holds are counted by their places. -/
theorem tokensInScopeSubtree_calmed (h : Calmed s s') (id : String) :
    tokensInScopeSubtree s'.tokens s'.scopes id = tokensInScopeSubtree s.tokens s.scopes id := by
  obtain ⟨f, hf, hrest⟩ := h.tokens
  have hscope : ∀ t, (f t).scopeID = t.scopeID := by
    intro t
    rcases hrest t with he | he
    · rw [he]
    · exact he.place.scopeID
  have hdesc : descendantScopeIDs s'.scopes id = descendantScopeIDs s.scopes id := by
    rw [← descendantScopeIDs_bare s'.scopes, h.scopes, descendantScopeIDs_bare]
  unfold tokensInScopeSubtree
  rw [hdesc, hf, List.filter_map, List.length_map]
  congr 2
  funext t
  exact congrArg _ (hscope t)

theorem subtreeCanReachJoin_calmed (h : Calmed s s') (scopeID : String) (canReach : List String) :
    subtreeCanReachJoin s'.tokens s'.scopes scopeID canReach = subtreeCanReachJoin s.tokens s.scopes scopeID canReach := by
  have hbare : ∀ (p : Scope → Bool) (_ : ∀ sc : Scope, p sc.bare = p sc) (l : List Scope),
    l.any p = (l.map Scope.bare).any p := by
    intro p hp l
    rw [List.any_map]
    congr 1
    funext sc
    exact (hp sc).symm
  unfold subtreeCanReachJoin
  simp only [tokensInScopeSubtree_calmed h]
  rw [hbare _ (fun _ => rfl) s'.scopes, h.scopes, ← hbare _ (fun _ => rfl)]

theorem Ready.of_calmed (h : Calmed s s') {d : ProcessDefinition} {node : Node} {scopeID : String}
    (hready : Ready d s' node scopeID) : Ready d s node scopeID := by
  obtain ⟨f, hf, hrest⟩ := h.tokens
  -- a token that is parked was parked before
  have hparked : ∀ t, joinedAt (f t) node.id scopeID = true → f t = t := by
    intro t hj
    refine (hrest t).resolve_right (fun he => he.free ?_)
    unfold joinedAt at hj
    simp only [Bool.and_eq_true, beq_iff_eq] at hj
    exact hj.1.2
  unfold Ready at hready
  split at hready
  · rename_i hkind
    obtain ⟨cover, hinj, hcover⟩ := hready
    unfold Ready
    rw [hkind]
    refine ⟨cover, hinj, fun fl hfl => ?_⟩
    obtain ⟨hmem, hj, harr⟩ := hcover fl hfl
    rw [hf] at hmem
    obtain ⟨t, ht, he⟩ := List.mem_map.mp hmem
    have hsame : cover fl = t := he.symm.trans (hparked t (he ▸ hj))
    refine ⟨?_, hj, harr⟩
    rw [hsame]
    exact ht
  · rename_i hkind
    obtain ⟨hall, hsub⟩ := hready
    unfold Ready
    rw [hkind]
    refine ⟨fun t ht hsc hnode => ?_, (subtreeCanReachJoin_calmed h _ _).symm.trans hsub⟩
    have hplace : (f t).scopeID = t.scopeID ∧ (f t).nodeID = t.nodeID := by
      rcases hrest t with he | he
      · rw [he]
        exact ⟨rfl, rfl⟩
      · exact ⟨he.place.scopeID, he.place.nodeID⟩
    have hj := hall (f t) (hf ▸ List.mem_map_of_mem ht) (hplace.1.trans hsc) (hplace.2 ▸ hnode)
    exact hparked t hj ▸ hj
  · exact hready.elim

/-- A token that comes to rest makes no join ready. -/
theorem Settled.calmed (hs : Settled top s) (h : Calmed s s') : Settled top s' := by
  obtain ⟨f, hf, hrest⟩ := h.tokens
  refine ⟨fun t ht => ?_, fun t ht hjoin tdef node hdef hnode hin hready => ?_⟩
  · rw [hf] at ht
    obtain ⟨t0, ht0, rfl⟩ := List.mem_map.mp ht
    rcases hrest t0 with he | he
    · rw [he]
      exact hs.still t0 ht0
    · exact he.idle
  · rw [hf] at ht
    obtain ⟨t0, ht0, rfl⟩ := List.mem_map.mp ht
    have hsame : f t0 = t0 := (hrest t0).resolve_right (fun he => he.free hjoin)
    rw [hsame] at hjoin hdef hnode hready
    have hdef' : defForScope top s.scopes t0.scopeID = .ok tdef := by
      rw [← defForScope_bare, ← h.scopes, defForScope_bare]
      exact hdef
    exact hs.joins t0 ht0 hjoin tdef node hdef' hnode hin (hready.of_calmed h)

end Calmed

section Handlers
variable {c : StepCtx} {drv : DriveLoop} {x : InstanceState} {r : StepResult}
  (hrule : LoopRule c (Settles c.top)) (hdrv : ∀ {y r}, Able y.toControlState → drv y = .ok r → Settles c.top r)
include hrule hdrv

theorem Fires.settles (h : Fires c drv x r) :
    Settles c.top r ∨ (r.state.status = x.status ∧ Calmed x.toControlState r.state.toControlState) := by
  cases h with
  | still hstatus htok hscopes hmute => exact Or.inr ⟨hstatus, Calmed.same htok hscopes⟩
  | runs h => exact Or.inl (hrule.runs hdrv h)

/-- Once the loop has run, the arms that fire without it leave the instance settled. -/
theorem FiresAll.settles (h : FiresAll c drv x r) :
    Settles c.top r ∨ (r.state.status = x.status ∧ Calmed x.toControlState r.state.toControlState) := by
  induction h with
  | nil x => exact Or.inr ⟨rfl, Calmed.same rfl rfl⟩
  | @cons x r1 r2 hlive h1 h2 ih =>
    rcases ih with hset | ⟨hst2, hcalm2⟩
    · exact Or.inl hset
    · rcases h1.settles hrule hdrv with hset | ⟨hst1, hcalm1⟩
      · refine Or.inl (fun hlive2 hids => ?_)
        obtain ⟨f, hf, hrest⟩ := hcalm2.tokens
        have hsame : r2.state.tokens.map (·.id) = r1.state.tokens.map (·.id) := by
          rw [hf, List.map_map]
          refine List.map_congr_left (fun t _ => ?_)
          rcases hrest t with he | he
          · exact congrArg Token.id he
          · exact he.place.id
        have hids1 : (r1.state.tokens.map (·.id)).Nodup := hsame ▸ hids
        exact (hset (hst2 ▸ hlive2) hids1).calmed hcalm2
      · exact Or.inr ⟨hst2.trans hst1, hcalm1.trans hcalm2⟩

theorem Goes.settles (h : Goes c drv x r) :
    Settles c.top r ∨ (r.state.status = x.status ∧ Calmed x.toControlState r.state.toControlState) := by
  cases h with
  | fires h => exact h.settles hrule hdrv
  | calms id f hf hstatus htok hscopes hmute => exact Or.inr ⟨hstatus, Calmed.update hf htok hscopes⟩

end Handlers

/-! ## Runs -/

section Runs
variable {d : ProcessDefinition} {gen : Option IDGenerator} {inst : String} {calls : List Call} {x : InstanceState}
  {call : Call} {r : StepResult}

/-- A macro step settles the instance or leaves its tokens where they are. -/
theorem step_settles (hx : Steps.Sound gen inst x) (hgen : call.opt.idGenerator = gen) (hmode : call.opt.mode = .macroStep)
    (hstep : step call.fuel d x call.trigger call.opt = .ok r) (hlive : r.state.status.isTerminal = false) :
    Settled d r.state.toControlState ∨
      (r.state.status = x.status ∧ Calmed x.toControlState r.state.toControlState) := by
  have hnames := (hx.step hgen hstep).wf.names
  obtain ⟨r', h', rfl⟩ := step_dispatch hstep
  have hctl := dropStaleTokenCommands_control r'
  have hids : (stepCtx d x call.trigger call.opt).ids = runIDs gen inst := by
    unfold stepCtx StepOptions.ids runIDs
    rw [hgen, hx.instanceID]
  have hwf : Wf (stepCtx d x call.trigger call.opt).ids x.toControlState := hids ▸ hx.wf
  have hpaths : Drives (stepCtx d x call.trigger call.opt) call.trigger.body
      (drive (stepCtx d x call.trigger call.opt) call.fuel) := drive_drives call.fuel
  have hrule := settled_loopRule (stepCtx d x call.trigger call.opt) hmode
  have hloop : ∀ {y r}, Able y.toControlState → drive (stepCtx d x call.trigger call.opt) call.fuel y = .ok r →
      Settles d r := fun hable h => hrule.drive call.fuel hable h
  rw [hctl] at hlive hnames ⊢
  have hsettles : Settles d r' ∨ (r'.state.status = x.status ∧ Calmed x.toControlState r'.state.toControlState) := by
    unfold dispatch at h'
    split at h'
    · rename_i hterm
      split at h'
      · rw [← Except.ok.inj h']
        exact Or.inr ⟨rfl, Calmed.same rfl rfl⟩
      · cases h'
      · rename_i hpolicy
        cases hbody : call.trigger.body with
        | compensateRequested toNode reverseNode resetVars restoreTargetVars =>
          rw [hbody] at h'
          exact (stepCompensateRequested_goes hwf.fit h').settles hrule hloop
        | _ =>
          rw [hbody] at hpolicy
          cases hpolicy
    · rename_i hlive0
      rcases handle_goes hpaths hwf (by simpa using hlive0) h' with hgoes | hall
      · exact hgoes.settles hrule hloop
      · exact hall.settles hrule hloop
  exact hsettles.imp_left (fun hset => hset hlive hnames.tokens.nodup)

/-- In a run of macro steps every live instance is settled. -/
theorem settled_run (hrun : Run d gen inst calls x) (hmodes : ∀ call ∈ calls, call.opt.mode = .macroStep)
    (hlive : x.status.isTerminal = false) : Settled d x.toControlState := by
  induction hrun with
  | refl => exact settled_of_empty rfl
  | @tail calls y hpre call r hgen hstep ih =>
    have hmode := hmodes call (List.mem_append_right _ List.mem_cons_self)
    rcases step_settles (Steps.sound hpre (Run.blank_sound gen inst)) hgen hmode hstep hlive with hset | ⟨hst, hcalm⟩
    · exact hset
    · have hbefore := ih (fun call hc => hmodes call (List.mem_append_left _ hc)) (hst ▸ hlive)
      exact hbefore.calmed hcalm

/-- A step in macro mode that leaves the instance live leaves it settled, unless it found it unsettled and did not run the
loop; in a run of such steps it never does. -/
theorem macro_step_settles (hrun : Run d gen inst calls x) (hgen : call.opt.idGenerator = gen)
    (hmode : call.opt.mode = .macroStep) (hstep : step call.fuel d x call.trigger call.opt = .ok r)
    (hlive : r.state.status.isTerminal = false) :
    (Settled d r.state.toControlState ∨
      (¬ Settled d x.toControlState ∧ Calmed x.toControlState r.state.toControlState)) ∧
      ((∀ call ∈ calls, call.opt.mode = .macroStep) → Settled d r.state.toControlState) := by
  refine ⟨?_, fun hmodes => ?_⟩
  · rcases step_settles hrun.sound hgen hmode hstep hlive with hset | ⟨-, hcalm⟩
    · exact Or.inl hset
    · by_cases hbefore : Settled d x.toControlState
      · exact Or.inl (hbefore.calmed hcalm)
      · exact Or.inr ⟨hbefore, hcalm⟩
  · refine settled_run (Steps.tail hrun call r hgen hstep) (fun c hc => ?_) hlive
    rcases List.mem_append.mp hc with hc | hc
    · exact hmodes c hc
    · rw [List.mem_singleton.mp hc]
      exact hmode

end Runs

/-- A user task and a service task side by side, joined. -/
def joinsTasks : ProcessDefinition where
  id := "joined"
  version := 1
  nodes := [startNode "s", forkNode "g",
    userNode "u", serviceNode "a" "", forkNode "j",
    endNode "e"]
  flows := [flowOf "f1" "s" "g", flowOf "f2" "g" "u", flowOf "f3" "g" "a", flowOf "f4" "u" "j", flowOf "f5" "a" "j",
    flowOf "f6" "j" "e"]

/-- The service task is done: its token is parked on the join, which is not ready. -/
theorem parked_join_settled : ∃ x r calls, Run joinsTasks none "i" calls x ∧
    step 50 joinsTasks x ⟨2, .actionCompleted "i-c1" []⟩ plainOptions = .ok r ∧ r.state.status = .running ∧
    r.state.tokens.any (fun t => t.state == .joining) = true ∧ Settled joinsTasks r.state.toControlState := by
  have hplay : playsThrough joinsTasks [.startInstance [] ""] (.actionCompleted "i-c1" []) []
      (fun _ r _ => r.state.status == .running && r.state.tokens.any (fun t => t.state == .joining)) = true := by decide
  obtain ⟨x, r, y, hrun, hstep, -, hP⟩ := run_of_playsThrough hplay
  rw [Bool.and_eq_true, beq_iff_eq] at hP
  have hlive : r.state.status.isTerminal = false := by
    rw [hP.1]
    rfl
  let call : Call := ⟨50, ⟨2, .actionCompleted "i-c1" []⟩, plainOptions⟩
  have hgen : call.opt.idGenerator = none := rfl
  have hsettles := macro_step_settles hrun hgen rfl hstep hlive
  refine ⟨x, r, _, hrun, hstep, hP.1, hP.2, hsettles.2 (fun call hc => ?_)⟩
  rw [List.mem_singleton.mp hc]
  rfl

/-- A first step in micro mode. -/
def microStart : List Call := [⟨50, ⟨1, .startInstance [] ""⟩, { plainOptions with mode := .microStep }⟩]

/-- The calls lead to a state the trigger's step leaves running, with an active token. -/
def leavesActive (d : ProcessDefinition) (calls : List Call) (trg : Trigger) : Bool :=
  match runCalls d calls { instanceID := "i" } with
  | .error _ => false
  | .ok x =>
    match step 50 d x trg plainOptions with
    | .error _ => false
    | .ok r => r.state.status == .running && r.state.tokens.any (fun t => t.state == .active)

/-- A token the micro step left active is still active after a macro step that only notes the candidates of the task. -/
theorem macro_step_leaves_active : Accepted asciiTables joinsTasks ∧ ∃ x r calls, Run joinsTasks none "i" calls x ∧
    step 50 joinsTasks x ⟨2, .humanCandidatesResolved "i-h1" []⟩ plainOptions = .ok r ∧
    plainOptions.mode = .macroStep ∧ r.state.status = .running ∧ ∃ t ∈ r.state.tokens, t.state = .active := by
  have hplay : leavesActive joinsTasks microStart ⟨2, .humanCandidatesResolved "i-h1" []⟩ = true := by decide
  refine ⟨by decide, ?_⟩
  unfold leavesActive at hplay
  split at hplay
  · cases hplay
  · rename_i x hx
    split at hplay
    · cases hplay
    · rename_i r hr
      simp only [Bool.and_eq_true, beq_iff_eq, List.any_eq_true] at hplay
      have hgen : ∀ call ∈ microStart, call.opt.idGenerator = none := by
        intro call hc
        rw [List.mem_singleton.mp hc]
        rfl
      exact ⟨x, r, _, steps_of_runCalls Steps.refl hgen hx, hr, rfl, hplay.1, hplay.2⟩

end Wrkflw
