import Wrkflw.Machine.WalkPaths

/-!
# Errors and interrupting events are paths of the machine

`propagateError`, the boundary and event sub-process arms and the winning arm of an event-based gateway, seen on
the control state. `Clean` is a path that starts no work.
-/

namespace Wrkflw

open ControlState

variable {x : InstanceState} {r : StepResult} {scopeID : String} {g : IDGenerator} {top : ProcessDefinition}

variable {c : StepCtx} {trg : TriggerBody} {drv : DriveLoop} {s m : ControlState}

/-- A path that keeps the phase and the visits and mints no scope. -/
structure Clean (c : StepCtx) (trg : TriggerBody) (s m : ControlState) : Prop where
  path : Moves c.top c.ids trg s m
  keeps : Phase.Keeps s m
  scopeSeq : m.scopeSeq = s.scopeSeq
  history : s.history ≠ [] → m.history ≠ []

namespace Clean

theorem refl (s : ControlState) : Clean c trg s s := ⟨Relation.ReflTransGen.refl, Phase.Keeps.refl s, rfl, fun h => h⟩

theorem of_eq (h : m = s) : Clean c trg s m := by
  rw [h]
  exact refl s

theorem trans {m' : ControlState} (h : Clean c trg s m) (h' : Clean c trg m m') : Clean c trg s m' :=
  ⟨h.path.trans h'.path, h.keeps.trans h'.keeps, h'.scopeSeq.trans h.scopeSeq, fun hne => h'.history (h.history hne)⟩

theorem forward (h : Clean c trg s m) (hfwd : s.Forward) : m.Forward := h.keeps.forward hfwd

theorem scopeRef (h : Clean c trg s m) {scope : String} (hs : s.ScopeRef c.ids scope) : m.ScopeRef c.ids scope :=
  scopeRef_congr h.scopeSeq hs

theorem mint (s : ControlState) : Clean c trg s s.mintCommand := ⟨moves_mint, keeps_mint s, rfl, fun h => h⟩

theorem fireOnce (x : InstanceState) (name : String) :
    Clean c trg x.toControlState (emitFireOnceAction c.ids x name).state.toControlState := by
  rcases emitFireOnceAction_control c.ids x name with h | h
  · exact of_eq h
  · rw [h]
    exact mint _

theorem consume {tok : Token} (at_ : Time) (kind : CloseKind) (hmem : tok ∈ s.tokens) (hfree : Free c.top s tok) :
    Clean c trg s (s.consumeTokenAs tok at_ kind) := by
  refine ⟨moves_consume at_ kind hmem hfree, keeps_consumeTokenAs s tok at_ kind,
    consumeTokenAs_scopeSeq s tok at_ kind, fun hne => ?_⟩
  obtain ⟨v, hv, he⟩ := s.consumeTokenAs_shape tok at_ kind
  rw [he]
  exact hv.nonempty hne

theorem cancelListed (at_ : Time) (kind : CloseKind) (toks : List Token) (s : ControlState) :
    Clean c trg s (s.cancelListed at_ kind toks) :=
  ⟨moves_cancelListed at_ kind toks, Phase.Keeps.cancelListed at_ kind toks s,
    (Names.Shrinks.cancelListed at_ kind toks s).scopeSeq, Sweeps.history (sweeps_cancelListed at_ kind toks)⟩

/-- Placing a token where the instance may start new work. -/
theorem place (h : Clean c trg s m) (hfwd : s.Forward) {scope : String} (hscope : s.ScopeRef c.ids scope)
    (node flow : String) (at_ : Time) : Moves c.top c.ids trg s (m.placeTokenInScope c.ids node scope flow at_) :=
  h.path.tail (Move.place node scope flow at_ (h.forward hfwd) (h.scopeRef hscope))

end Clean

/-! ## Cancelling a scope -/

theorem cancelToken_scopes (s : ControlState) (tok : Token) (at_ : Time) (kind : CloseKind) :
    (s.cancelToken tok at_ kind).scopes = s.scopes ∧ (s.cancelToken tok at_ kind).compensating = s.compensating := by
  rcases s.cancelToken_shape tok at_ kind with he | ⟨t, -, -, -, v, -, he⟩
  · rw [he]
    exact ⟨rfl, rfl⟩
  · rw [he]
    exact ⟨rfl, rfl⟩

theorem cancelListed_scopes (at_ : Time) (kind : CloseKind) (toks : List Token) (s : ControlState) :
    (s.cancelListed at_ kind toks).scopes = s.scopes ∧
      (s.cancelListed at_ kind toks).compensating = s.compensating := by
  induction toks generalizing s with
  | nil => exact ⟨rfl, rfl⟩
  | cons tok toks ih =>
    obtain ⟨h1, h2⟩ := cancelToken_scopes s tok at_ kind
    obtain ⟨h3, h4⟩ := ih (s.cancelToken tok at_ kind)
    exact ⟨h3.trans h1, h4.trans h2⟩

theorem subtreeIDs_congr {s s' : ControlState} (h : s'.scopes = s.scopes) (scope : String) :
    s'.subtreeIDs scope = s.subtreeIDs scope := by
  unfold subtreeIDs
  rw [h]

theorem archiveAll_history (ids : List String) (s : ControlState) : s.history ≠ [] → (s.archiveAll ids).history ≠ [] :=
  Sweeps.history (sweeps_archiveAll ids)

theorem Clean.errScope (x : InstanceState) (scope : String) :
    Clean c trg x.toControlState (consumeErrScope c scope x).state.toControlState := by
  obtain ⟨toks, he⟩ := cancelScopeSubtree_control x scope c.at_ .boundaryInterrupted
  have hids := subtreeIDs_congr (cancelListed_scopes c.at_ .boundaryInterrupted toks x.toControlState).1 scope
  unfold consumeErrScope
  dsimp only
  rw [InstanceState.onControl_toControlState, he, ← hids]
  refine (Clean.cancelListed c.at_ .boundaryInterrupted toks x.toControlState).trans ?_
  generalize x.toControlState.cancelListed c.at_ .boundaryInterrupted toks = y
  refine ⟨(Move.teardown scope).path, (Phase.Keeps.archiveAll _ y).trans (Phase.Keeps.closeScope _ scope), ?_, ?_⟩
  · exact ((Names.Shrinks.of_outline (y.archiveAll_outline _)).trans (Names.Shrinks.closeScope _ scope)).scopeSeq
  · obtain ⟨p, he⟩ := (y.archiveAll (y.subtreeIDs scope)).closeScope_shape scope
    rw [he]
    exact archiveAll_history (y.subtreeIDs scope) y

theorem Clean.interruptScope (x : InstanceState) (scope : String) :
    Clean c trg x.toControlState (interruptScope c x scope).state.toControlState := by
  obtain ⟨toks, he⟩ := cancelScopeSubtree_control x scope c.at_ .boundaryInterrupted
  obtain ⟨hscopes, hcur⟩ := cancelListed_scopes c.at_ .boundaryInterrupted toks x.toControlState
  have hids := subtreeIDs_congr hscopes scope
  unfold Wrkflw.interruptScope
  dsimp only
  rw [InstanceState.onControl_toControlState, he, ← hids, ← hcur]
  refine (Clean.cancelListed c.at_ .boundaryInterrupted toks x.toControlState).trans ?_
  generalize x.toControlState.cancelListed c.at_ .boundaryInterrupted toks = y
  refine ⟨(Move.interrupt scope).path, ?_, ?_, archiveAll_history (y.subtreeIDs scope) y⟩
  · exact ((Phase.Keeps.archiveAll (y.subtreeIDs scope) y).trans (Phase.Keeps.filterScopes _ _)).thenNote (by trivial)
  · exact (sameOutline (y.archiveAll_outline (y.subtreeIDs scope))).scopeSeq

/-! ## Error propagation -/

/-- A way to take the failing work out before a boundary takes over. -/
def Consumes (c : StepCtx) (trg : TriggerBody) (s : ControlState) (consume : InstanceState → StepResult) : Prop :=
  ∀ y : InstanceState, (y.toControlState = s ∨ y.toControlState = s.mintCommand) →
    Clean c trg y.toControlState (consume y).state.toControlState

theorem routeToBoundary_reaches (hdrv : Drives c trg drv) (hs : Wf c.ids s) (hfwd : s.Forward)
    (hx : x.toControlState = s) {d : ProcessDefinition} {nodeID kind target : String} {e : BoundaryEvent}
    {consume : InstanceState → StepResult} (hcons : Consumes c trg s consume) (hscope : s.ScopeRef c.ids target)
    (h : routeToBoundary drv c x d nodeID e kind target consume = .ok r) :
    Reaches c.top c.ids trg s r.state.toControlState := by
  subst hx
  have hfire : Clean c trg _ _ := Clean.fireOnce x e.action
  have hclean := hfire.trans (hcons _ (emitFireOnceAction_control c.ids x e.action))
  unfold routeToBoundary at h
  dsimp only at h
  split at h
  · cases h
  · refine hdrv.thenDrive hs hfwd.live ?_ h
    exact hclean.place hfwd hscope _ _ _

theorem Asked.failed (s : ControlState) (trg : TriggerBody) (err : String) (kind : CloseKind) (st : Status)
    (hst : st = .terminated ∨ st = .failed) :
    Asked s trg { closeKind := kind, finalStatus := st, finalErr := err } :=
  ⟨Or.inr hst, fun h => absurd rfl h, fun _ => ⟨rfl, rfl⟩⟩

/-- The harvest and the end, or the terminating walk, of an instance without a walk. -/
theorem harvest_reaches (hdrv : Drives c trg drv) (hs : Wf c.ids s) (hidle : ¬ s.InFlight)
    (hx : x.toControlState = s) {o : CompensationOutcome} (hasked : ∀ m : ControlState, Asked m trg o)
    (h : beginCompensation drv c ((x.onControl (·.harvestOpenScopeCompensations)).onControl
      (fun s => { s with status := .compensating })) o = .ok r) :
    Reaches c.top c.ids trg s r.state.toControlState := by
  subst hx
  have hsweep : Sweeps x.toControlState x.toControlState.harvestOpenScopeCompensations := sweeps_archiveAll _
  have hpath : Moves c.top c.ids trg x.toControlState _ := moves_sweeps hidle hsweep
  have hk := Phase.Keeps.sweeps hsweep hidle
  exact Moves.then hpath (begin_reaches hdrv (Moves.wf hs hpath) (fun hin => hidle (hk.inFlight.mp hin)) (hasked _) rfl h)

theorem handleUnhandledError_reaches (hdrv : Drives c trg drv) (hs : Wf c.ids s) (hfwd : s.Forward)
    (hx : x.toControlState = s) {nodeID failing errorCode : String} {raiseIncident : Bool}
    (hfail : raiseIncident = true → ∃ tok ∈ s.tokens, failing = tok.id ∧ tok.awaitCommand ≠ "")
    (h : handleUnhandledError drv c x scopeID nodeID failing errorCode raiseIncident = .ok r) :
    Reaches c.top c.ids trg s r.state.toControlState := by
  subst hx
  unfold handleUnhandledError at h
  split at h
  · rename_i hraise
    obtain ⟨tok, hmem, rfl, hawait⟩ := hfail hraise
    rw [← Except.ok.inj h]
    unfold raiseActionIncident
    dsimp only
    rw [InstanceState.raise_control]
    refine Moves.reaches ?_
    cases hfind : x.tokenByID tok.id with
    | none => exact Relation.ReflTransGen.refl
    | some t =>
      obtain ⟨ht, hid, -⟩ := x.toControlState.tokenByID_some hfind
      obtain rfl := hs.names.tokens.eq_of_id ht hmem hid
      refine moves_touch hs.names hmem _ ⟨⟨rfl, rfl, rfl, rfl⟩, Or.inr rfl, Or.inl (Or.inl hawait), fun ha => ?_⟩
      exact ⟨fun h => by simp at h, fun _ => ha.command (Or.inl hawait), ha.signal⟩
  · split at h
    · rename_i hwalk
      rw [Bool.and_eq_true, beq_iff_eq, bne_iff_ne] at hwalk
      rw [← Except.ok.inj h]
      unfold deferFailureToInFlightCompensationWalk
      simp only [InstanceState.onControl_toControlState, InstanceState.cancelAllArmsAndBoundaries_control,
        InstanceState.cancelAllTimers_control, cancelTokens_control]
      have hclean : Clean c trg _ _ := Clean.cancelListed c.at_ .errored x.tokens x.toControlState
      refine Moves.reaches (hclean.path.tail ?_)
      exact Move.pendFailure errorCode (hclean.keeps.inFlight.mpr hwalk.2) (hclean.forward hfwd)
        (cancelListed_all hs.names c.at_ .errored)
    · rename_i hwalk
      have hidle : ¬ x.InFlight := by
        intro hin
        refine hwalk ?_
        rw [Bool.and_eq_true, beq_iff_eq, bne_iff_ne]
        exact ⟨hs.phase.status.mpr hin, hin⟩
      dsimp only at h
      split at h
      · exact harvest_reaches hdrv hs hidle rfl (fun m => Asked.failed m trg errorCode .errored .failed (Or.inr rfl)) h
      · have hsweep : Sweeps x.toControlState x.toControlState.harvestOpenScopeCompensations := sweeps_archiveAll _
        have hk := Phase.Keeps.sweeps hsweep hidle
        rw [← Except.ok.inj h, InstanceState.endInstance_control]
        exact Moves.ends (moves_sweeps hidle hsweep) (End.idle .failed errorCode (hk.live hfwd.live)
          (fun hin => hidle (hk.inFlight.mp hin)) (Or.inr rfl))

/-- The boundary that takes over sits in the parent of an open scope. -/
theorem findEnclosingBoundary_target {errorCode cause : String} {fuel : Nat}
    {h : EnclosingHandler} (hfind : findEnclosingBoundary c x errorCode cause fuel scopeID = .ok (some h)) :
    ∃ sc ∈ x.scopes, sc.parentID = h.targetScopeID := by
  induction fuel generalizing scopeID with
  | zero => cases hfind
  | succ n ih =>
    unfold findEnclosingBoundary at hfind
    split at hfind
    · cases hfind
    · cases hsc : scopeByID x.scopes scopeID with
      | none =>
        rw [hsc] at hfind
        cases hfind
      | some scope =>
        rw [hsc] at hfind
        dsimp only at hfind
        cases hdef : defForScope c.top x.scopes scope.parentID with
        | error e =>
          rw [hdef] at hfind
          cases hfind
        | ok parentDef =>
          rw [hdef] at hfind
          dsimp only at hfind
          cases hdir : findDirectBoundary c.eval parentDef scope.nodeID errorCode x.vars cause with
          | none =>
            rw [hdir] at hfind
            exact ih hfind
          | some p =>
            rw [hdir] at hfind
            have he := Option.some.inj (Except.ok.inj hfind)
            exact ⟨scope, List.mem_of_find?_eq_some hsc, by rw [← he]⟩

theorem consumes_failing (hs : Wf c.ids s) {tok : Token} (hmem : tok ∈ s.tokens) (hfree : Free c.top s tok)
    (scopeID nodeID : String) : Consumes c trg s (consumeFailing c scopeID nodeID tok.id) := by
  intro y hy
  have htok : y.tokens = s.tokens := by
    rcases hy with h | h
    · rw [h]
    · rw [h]
      rfl
  have hfree' : Free c.top y.toControlState tok := by
    rcases hy with h | h
    · rw [h]
      exact hfree
    · rw [h]
      exact hfree
  have hfind : y.tokenByID tok.id = some tok := by
    unfold tokenByID
    rw [if_neg (by simpa using hs.names.tokens.ne_empty hmem), htok]
    cases hf : s.tokens.find? (fun t => t.id == tok.id) with
    | none =>
      have := List.find?_eq_none.mp hf tok hmem
      simp at this
    | some t =>
      rw [hs.names.tokens.eq_of_id (List.mem_of_find?_eq_some hf) hmem (by simpa using List.find?_some hf)]
  unfold consumeFailing
  dsimp only
  rw [hfind]
  exact Clean.consume c.at_ .boundaryInterrupted (htok ▸ hmem) hfree'

theorem propagateError_reaches (hdrv : Drives c trg drv) (hs : Wf c.ids s) (hfwd : s.Forward)
    (hx : x.toControlState = s) {nodeID failing errorCode : String} {cause : Option String} {raiseIncident : Bool}
    (hscope : s.ScopeRef c.ids scopeID)
    (hfail : nodeID ≠ "" ∨ raiseIncident = true → ∃ tok ∈ s.tokens, failing = tok.id ∧ tok.awaitCommand ≠ "")
    (h : propagateError drv c x scopeID nodeID failing errorCode cause raiseIncident = .ok r) :
    Reaches c.top c.ids trg s r.state.toControlState := by
  unfold propagateError at h
  dsimp only at h
  obtain ⟨ownDef, hown, h⟩ := bind_ok h
  split at h
  · rename_i d boundaryID e hdirect
    have hnode : nodeID ≠ "" := by
      rintro rfl
      rw [← Except.ok.inj hown] at hdirect
      cases hdirect
    obtain ⟨tok, hmem, rfl, hawait⟩ := hfail (Or.inl hnode)
    exact routeToBoundary_reaches hdrv hs hfwd hx
      (consumes_failing hs hmem (Or.inl (Or.inl hawait)) scopeID nodeID) hscope h
  · obtain ⟨handler, hfind, h⟩ := bind_ok h
    split at h
    · rename_i hh
      obtain ⟨sc, hsc, hparent⟩ := findEnclosingBoundary_target hfind
      have hsc' : sc ∈ s.scopes := by
        rw [← hx]
        exact hsc
      exact routeToBoundary_reaches hdrv hs hfwd hx (fun y _ => Clean.errScope y _)
        (hparent ▸ hs.names.scopes.parents sc hsc') h
    · exact handleUnhandledError_reaches hdrv hs hfwd hx (fun hr => hfail (Or.inr hr)) h

/-! ## Arms that fire -/

/-- What the code calls "may start new work" is forward in every well-formed state. -/
theorem forward_of_spawnsNewWork (hs : Wf g s) (h : s.spawnsNewWork = true) : s.Forward := by
  have hflight : s.InFlight ↔ s.status = .compensating := hs.phase.status.symm
  unfold spawnsNewWork at h
  cases hst : s.status with
  | running =>
    have hidle : ¬ s.InFlight := by
      rw [hflight, hst]
      decide
    refine ⟨by rw [hst]; rfl, ?_⟩
    rintro (hroot | hfail)
    · exact hidle hroot.1
    · rcases hs.phase.failing hfail with hterm | hin
      · rw [hst] at hterm
        cases hterm
      · exact hidle hin.1
  | compensating =>
    rw [hst] at h
    have hwalk : s.compensating.walkTerminates s.pendingCancel = false := by simpa using h
    unfold CompensationCursor.walkTerminates CompensationCursor.walkMode at hwalk
    refine ⟨by rw [hst]; rfl, ?_⟩
    rintro (⟨-, hres, hto⟩ | hfail)
    · -- a root walk that ends or restarts the instance terminates
      rw [hres, hto] at hwalk
      by_cases hrev : s.compensating.reverseNode = ""
      · simp [hrev] at hwalk
      · simp [hrev] at hwalk
    · rcases hs.phase.failing hfail with hterm | ⟨-, hto, ⟨hres, hpend⟩ | ⟨hres, hrev⟩⟩
      · rw [hst] at hterm
        cases hterm
      · -- a throw's walk with a failure behind it terminates
        by_cases hkey : s.compensating.archiveKey = ""
        · simp [hres, hkey, hpend] at hwalk
        · simp [hres, hkey, hpend] at hwalk
      · simp [hres, hto, hrev] at hwalk
  | completed | failed | terminated =>
    rw [hst] at h
    cases h

theorem fireBoundaryArm_reaches (hdrv : Drives c trg drv) (hs : Wf c.ids s) (hfwd : s.Forward)
    (hx : x.toControlState = s) {ba : BoundaryArm} (h : fireBoundaryArm drv c x ba = .ok r) :
    Reaches c.top c.ids trg s r.state.toControlState := by
  subst hx
  unfold fireBoundaryArm at h
  split at h
  · rw [← Except.ok.inj h, InstanceState.removeBoundaryArmsForHost_control]
    exact Reaches.refl
  · rename_i hostTok hhost
    obtain ⟨hmem, -, -⟩ := x.toControlState.tokenByID_some hhost
    obtain ⟨tdef, -, h⟩ := bind_ok h
    split at h
    · cases h
    · split at h
      · cases h
      · rename_i f fs _ _
        refine hdrv.thenDrive hs hfwd.live ?_ h
        have hfire : Clean c trg _ _ := Clean.fireOnce x ba.action
        have hclean : Clean c trg x.toControlState (if ba.nonInterrupting = true
            then ⟨(emitFireOnceAction c.ids x ba.action).state, []⟩
            else cancelTokenWaits (emitFireOnceAction c.ids x ba.action).state hostTok c.at_
              .boundaryInterrupted : StepResult).state.toControlState := by
          refine hfire.trans ?_
          split
          · exact Clean.refl _
          · rw [cancelTokenWaits_control]
            exact Clean.cancelListed c.at_ .boundaryInterrupted [hostTok] _
        exact hclean.place hfwd (hs.names.tokens.scopes hostTok hmem) _ _ _

theorem openScope_forward (hfwd : s.Forward) (node parent : String) :
    (s.openScope g node parent).1.Forward :=
  ⟨hfwd.live, fun hsd => hfwd.unsealed (hsd.imp (fun h => h) (failureDeferred_cons (e := .opened _ _ _) trivial))⟩

theorem openScope_ref (g : IDGenerator) (s : ControlState) (node parent : String) :
    (s.openScope g node parent).1.ScopeRef g (s.openScope g node parent).2 :=
  Or.inr ⟨s.scopeSeq + 1, le_rfl, rfl⟩

/-- A scope opens and a token is placed in it. -/
theorem moves_openScope (hfwd : s.Forward) {parent : String}
    (hparent : s.ScopeRef g parent) {node : String} (hopens : Openable top s node parent) (start : String) (at_ : Time) :
    Moves top g trg s ((s.openScope g node parent).1.placeTokenInScope g start (s.openScope g node parent).2 "" at_) :=
  (Move.openScope node parent hfwd hparent hopens).path.tail
    (Move.place _ _ _ _ (openScope_forward hfwd node parent) (openScope_ref g s node parent))

/-- The definition found for the parent has the node as a sub-process. -/
theorem opens_of_def {d : ProcessDefinition} (hn : Names g s) {parent : String}
    (hdef : defForScope top s.scopes parent = .ok d) {node : String} {n : Node} (hnode : d.node node = some n)
    {activity : ActivityFields} {sub : ProcessDefinition} (hspec : n.spec = .subProcess activity (some sub)) :
    Openable top s node parent := by
  refine ⟨?_, d, n, activity, sub, defForScope_defn hn hdef, hnode, hspec⟩
  by_cases hroot : parent = ""
  · exact Or.inl hroot
  · cases hfind : scopeByID s.scopes parent with
    | none =>
      unfold defForScope defForScopeAux at hdef
      rw [if_neg (by simpa using hroot), hfind] at hdef
      cases hdef
    | some sc => exact Or.inr ⟨sc, List.mem_of_find?_eq_some hfind, by simpa using List.find?_some hfind⟩

/-- A scope that is emptied stays open. -/
theorem interruptScope_opens (x : InstanceState) {node : String}
    (h : Openable top x.toControlState node scopeID) :
    Openable top (interruptScope c x scopeID).state.toControlState node scopeID := by
  obtain ⟨toks, hctl⟩ := cancelScopeSubtree_control x scopeID c.at_ .boundaryInterrupted
  have hsh := (Names.Shrinks.cancelListed c.at_ .boundaryInterrupted toks x.toControlState).trans
    (Names.Shrinks.of_outline (archiveAll_outline _ (x.toControlState.subtreeIDs scopeID)))
  have hscopes : (cancelScopeSubtree x scopeID c.at_ .boundaryInterrupted).state.scopes.map Scope.bare =
      x.scopes.map Scope.bare := by
    rw [hctl, (sameOutline (archiveAll_outline _ _)).scopes, (cancelListed_scopes _ _ _ _).1]
  rw [← hctl] at hsh
  obtain ⟨es, htrace, -⟩ := hsh.trace
  refine ⟨h.parentOpen.imp (fun hr => hr) ?_, h.hosts.mono ?_⟩
  · rintro ⟨sc, hsc, hid⟩
    obtain ⟨sc', hsc', hid', -, -⟩ := mem_bare hscopes.symm hsc
    refine ⟨sc', List.mem_filter.mpr ⟨hsc', ?_⟩, hid'.trans hid⟩
    rw [hid', hid]
    simp
  · exact List.subset_cons_of_subset _ (htrace ▸ List.subset_append_right es x.trace)

theorem fireEventTriggeredSubprocessArm_reaches (hdrv : Drives c trg drv) (hs : Wf c.ids s)
    (hx : x.toControlState = s) {ea : EventTriggeredSubprocessArm}
    (h : fireEventTriggeredSubprocessArm drv c x ea = .ok r) : Reaches c.top c.ids trg s r.state.toControlState := by
  subst hx
  have hstay : Reaches c.top c.ids trg x.toControlState x.toControlState := Reaches.refl
  unfold fireEventTriggeredSubprocessArm at h
  split at h
  · rw [← Except.ok.inj h]
    exact hstay
  · rename_i hspawn
    split at h
    · rw [← Except.ok.inj h]
      exact hstay
    · rename_i hopen
      have hfwd := forward_of_spawnsNewWork hs (by simpa using hspawn)
      -- the enclosing scope is the root or an open one
      have hparent : x.toControlState.ScopeRef c.ids ea.enclosingScopeID := by
        by_cases hroot : ea.enclosingScopeID = ""
        · exact Or.inl hroot
        · cases hsc : scopeByID x.scopes ea.enclosingScopeID with
          | none => simp [hroot, hsc] at hopen
          | some sc =>
            have hid : sc.id = ea.enclosingScopeID := by simpa using List.find?_some hsc
            exact Or.inr (hid ▸ hs.names.scopes.minted sc (List.mem_of_find?_eq_some hsc))
      obtain ⟨d, hdef, h⟩ := bind_ok h
      split at h
      · rw [← Except.ok.inj h]
        exact hstay
      · rename_i start e hnested
        obtain ⟨n, hnode, hstart⟩ := Option.bind_eq_some_iff.mp hnested
        obtain ⟨activity, sub, hspec⟩ : ∃ activity sub, n.spec = .subProcess activity (some sub) := by
          unfold eventSubprocessNested at hstart
          split at hstart
          · exact ⟨_, _, by assumption⟩
          · cases hstart
        have hopens := opens_of_def hs.names hdef hnode hspec
        have hclean : Clean c trg x.toControlState (if ea.nonInterrupting = true then ⟨x, []⟩
            else interruptScope c x ea.enclosingScopeID : StepResult).state.toControlState := by
          split
          · exact Clean.refl _
          · exact Clean.interruptScope x ea.enclosingScopeID
        have hopens' : Openable c.top (if ea.nonInterrupting = true then ⟨x, []⟩
            else interruptScope c x ea.enclosingScopeID : StepResult).state.toControlState ea.eventSubprocessNode
            ea.enclosingScopeID := by
          split
          · exact hopens
          · exact interruptScope_opens x hopens
        refine hdrv.thenDrive hs hfwd.live ?_ h
        exact hclean.path.trans (moves_openScope (hclean.forward hfwd) (hclean.scopeRef hparent) hopens' _ _)

/-- A token that waited on a command is made active again. -/
theorem Resumes.answered {tok : Token} (hawait : tok.awaitCommand ≠ "") :
    Resumes tok { tok.clearAwait with state := .active } := by
  refine ⟨⟨rfl, rfl, rfl, rfl⟩, rfl, fun ha => ?_⟩
  obtain ⟨hsig, hmsg⟩ := ha.command (Or.inl hawait)
  refine ⟨fun _ => ?_, fun _ => ⟨hsig, hmsg⟩, fun _ => hmsg⟩
  rintro (h | h | h)
  · exact h rfl
  · exact h hsig
  · exact h hmsg

theorem resolveGatewayWin_reaches (hdrv : Drives c trg drv) (hs : Wf c.ids s) (hlive : s.status.isTerminal = false)
    (hx : x.toControlState = s) {ae : ArmedEvent}
    (h : resolveGatewayWin drv c x ae = .ok r) : Reaches c.top c.ids trg s r.state.toControlState := by
  subst hx
  unfold resolveGatewayWin at h
  split at h
  · rw [← Except.ok.inj h, InstanceState.removeArmedEventsForGateway_control]
    exact Reaches.refl
  · rename_i tok htok
    obtain ⟨hfind, hgw⟩ := Option.filter_eq_some_iff.mp htok
    obtain ⟨hmem, -, -⟩ := x.toControlState.tokenByID_some hfind
    have hawait : tok.awaitCommand ≠ "" := by
      rw [beq_iff_eq.mp hgw]
      intro he
      have := congrArg String.length he
      simp [String.length_append] at this
    obtain ⟨tdef, -, h⟩ := bind_ok h
    refine hdrv.thenDrive hs hlive ?_ h
    dsimp only
    rw [InstanceState.removeArmedEventsForGateway_control]
    have hresume := Resumes.answered hawait
    have hfree : Free c.top x.toControlState tok := Or.inl (Or.inl hawait)
    have halong : Moves c.top c.ids trg x.toControlState (moveAlongSingleFlow c.ids tdef (x.onControl (·.updateToken tok.id
        (fun t => { t.clearAwait with state := .active }))) tok c.at_).toControlState :=
      moves_moveAlongSingleFlow hs.names hmem hfree (fun t => { t.clearAwait with state := .active }) (fun _ => rfl)
        hresume tdef _ rfl c.at_
    unfold winningMove
    dsimp only
    split
    · split
      · rw [InstanceState.onControl_toControlState]
        obtain ⟨v, -, he⟩ :=
          (x.toControlState.updateToken tok.id (fun t => { t.clearAwait with state := .active })).updateOpenVisit_shape
          tok.id tok.nodeID (fun v => { v with leftAt := some c.at_ })
        have hclose : (x.onControl (·.updateToken tok.id (fun t =>
            { t.clearAwait with state := .active }))).toControlState.closeVisit tok.id tok.nodeID c.at_ = _ := he
        rw [hclose]
        exact moves_relocate hs.names hmem hfree (fun t => { t.clearAwait with state := .active }) (fun _ => rfl) hresume
          _ _ c.at_
      · exact halong
    · exact halong

end Wrkflw
