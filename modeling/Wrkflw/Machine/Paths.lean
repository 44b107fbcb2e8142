import Wrkflw.Machine.Wf
import Wrkflw.Machine.Quiet

/-!
# Paths of the machine

The sequences of moves the engine's operations are made of: visits, commands, tokens that stop, go on, fork and
join, and the clearing between two walks. Each is stated from a well-formed state and ends in the state the
operation computes.
-/

namespace Wrkflw

open ControlState

variable {tok : Token} {scopeID : String}

variable {top : ProcessDefinition} {g : IDGenerator} {trg : TriggerBody} {s s' : ControlState}

theorem Move.path (h : Move top g trg s s') : Moves top g trg s s' := Relation.ReflTransGen.single h

/-! ## Bookkeeping -/

theorem moves_history {h : List NodeVisit} (hh : s.history ≠ [] → h ≠ []) :
    Moves top g trg s { s with history := h } := (Move.book h s.cmdSeq hh le_rfl).path

theorem moves_mint : Moves top g trg s s.mintCommand :=
  (Move.book s.history (s.cmdSeq + 1) (fun h => h) (Nat.le_succ _)).path

theorem moves_updateOpenVisit (tokenID nodeID : String) (f : NodeVisit → NodeVisit) :
    Moves top g trg s (s.updateOpenVisit tokenID nodeID f) := by
  obtain ⟨h, hv, he⟩ := s.updateOpenVisit_shape tokenID nodeID f
  rw [he]
  exact moves_history hv.nonempty

theorem moves_fireOnce (x : InstanceState) (name : String) :
    Moves top g trg x.toControlState (emitFireOnceAction g x name).state.toControlState := by
  rcases emitFireOnceAction_control g x name with h | h
  · rw [h]
  · rw [h]
    exact moves_mint

/-! ## Keeping the phase along a path -/

theorem keeps_consumeTokenAs (s : ControlState) (tok : Token) (at_ : Time) (kind : CloseKind) :
    Phase.Keeps s (s.consumeTokenAs tok at_ kind) := by
  obtain ⟨v, -, he⟩ := s.consumeTokenAs_shape tok at_ kind
  rw [he]
  exact (Phase.Keeps.removeToken s tok.id).trans { Phase.Keeps.refl _ with }

theorem keeps_mint (s : ControlState) : Phase.Keeps s s.mintCommand :=
  { Phase.Keeps.refl s with cmdSeq := Nat.le_succ _ }

theorem forward_place (hfwd : s.Forward) (node scope flow : String) (at_ : Time) :
    (s.placeTokenInScope g node scope flow at_).Forward :=
  ⟨hfwd.live, fun hsd => hfwd.unsealed (hsd.imp (fun h => h) (failureDeferred_cons (e := .arrived _ _ _ _) trivial))⟩

/-! ## Tokens -/

theorem moves_consume (at_ : Time) (kind : CloseKind) (hmem : tok ∈ s.tokens) (hfree : Free top s tok) :
    Moves top g trg s (s.consumeTokenAs tok at_ kind) := by
  obtain ⟨v, hv, he⟩ := s.consumeTokenAs_shape tok at_ kind
  rw [he]
  have hh : (s.removeToken tok.id).history = s.history := by
    obtain ⟨p, hp, -⟩ := s.removeToken_shape tok.id
    rw [hp]
  exact (Move.consume tok hmem hfree).path.trans (moves_history (fun h => hv.nonempty (hh ▸ h)))

theorem moves_touch (hn : Names g s) (hmem : tok ∈ s.tokens) (f : Token → Token)
    (hf : Stays top s tok (f tok)) : Moves top g trg s (s.updateToken tok.id f) := by
  refine (Move.touch tok.id f (fun t ht hid => ?_)).path
  rw [hn.tokens.eq_of_id ht hmem hid]
  exact hf

/-- The token was made active again, at its place. -/
structure Resumes (tok tok' : Token) : Prop where
  place : tok.SamePlace tok'
  state : tok'.state = .active
  ok : tok.AwaitOK → tok'.AwaitOK

theorem Resumes.refl (h : tok.state = .active) : Resumes tok tok := ⟨⟨rfl, rfl, rfl, rfl⟩, h, fun h => h⟩

theorem moves_relocate (hn : Names g s) (hmem : tok ∈ s.tokens) (hfree : Free top s tok)
    (f : Token → Token) (hid : ∀ t, (f t).id = t.id) (hf : Resumes tok (f tok)) {h : List NodeVisit} (target flow : String)
    (at_ : Time) :
    Moves top g trg s ({ s.updateToken tok.id f with history := h }.relocate tok target flow at_) := by
  have hleave : Move top g trg s ((s.updateToken tok.id (fun t =>
      { f t with nodeID := target, enteredAt := at_, arrivalFlow := flow })).note
        (.arrived tok.id target tok.scopeID flow)) := by
    refine Move.leave tok.id target tok.scopeID flow _ ⟨tok, hmem, rfl⟩ (fun t ht he => ?_)
    rw [hn.tokens.eq_of_id ht hmem he]
    refine ⟨hf.place.id, rfl, hf.place.scopeID, rfl, rfl, hf.state, hfree, fun ha => ?_⟩
    have hok := hf.ok ha
    exact ⟨hok.quiet, hok.command, hok.signal⟩
  have hfuse := s.updateToken_updateToken tok.id f
    (fun t => { t with nodeID := target, enteredAt := at_, arrivalFlow := flow }) hid
  have he : ({ s.updateToken tok.id f with history := h }.relocate tok target flow at_) =
      { ((s.updateToken tok.id f).updateToken tok.id
          (fun t => { t with nodeID := target, enteredAt := at_, arrivalFlow := flow })).note
            (.arrived tok.id target tok.scopeID flow) with
        history := h ++ [{ nodeID := target, tokenID := tok.id, enteredAt := at_ }] } := rfl
  rw [he, hfuse]
  exact hleave.path.trans (moves_history (fun _ => by simp))

/-- The token parks as an incident, or goes on along its node's first flow. -/
theorem moves_moveAlongSingleFlow (hn : Names g s) (hmem : tok ∈ s.tokens) (hfree : Free top s tok)
    (f : Token → Token) (hid : ∀ t, (f t).id = t.id) (hf : Resumes tok (f tok)) (d : ProcessDefinition)
    (x : InstanceState) (hx : x.toControlState = s.updateToken tok.id f) (at_ : Time) :
    Moves top g trg s (moveAlongSingleFlow g d x tok at_).toControlState := by
  obtain ⟨h, hv, he⟩ := (s.updateToken tok.id f).updateOpenVisit_shape tok.id tok.nodeID
    (fun v => { v with leftAt := some at_ })
  have hclosed : (x.onControl (·.closeVisit tok.id tok.nodeID at_)).toControlState =
      { s.updateToken tok.id f with history := h } := by
    rw [InstanceState.onControl_toControlState, hx]
    exact he
  unfold moveAlongSingleFlow
  dsimp only
  split
  · -- no flow leads on
    unfold recordDefinitionDefect
    rw [InstanceState.raise_control, InstanceState.onControl_toControlState, hclosed]
    have hstop : Moves top g trg s (s.updateToken tok.id (fun t => { f t with state := .incident })) := by
      refine moves_touch hn hmem _ ⟨⟨hf.place.id, hf.place.nodeID, hf.place.scopeID, hf.place.arrivalFlow⟩,
        Or.inr rfl, hfree, fun ha => ?_⟩
      have hok := hf.ok ha
      have hquiet := hok.quiet (Or.inl hf.state)
      simp only [Token.Awaits, not_or, not_not] at hquiet
      exact ⟨fun h => by simp at h, fun _ => ⟨hquiet.2.1, hquiet.2.2⟩, hok.signal⟩
    have hfuse := s.updateToken_updateToken tok.id f (fun t => { t with state := .incident }) hid
    have hh : ({ s.updateToken tok.id f with history := h }).setTokenState tok.id .incident =
        { (s.updateToken tok.id f).updateToken tok.id (fun t => { t with state := .incident }) with history := h } := rfl
    rw [hh, hfuse]
    exact hstop.trans (moves_history (fun hne => hv.nonempty hne))
  · rw [InstanceState.onControl_toControlState, hclosed]
    exact moves_relocate hn hmem hfree f hid hf _ _ at_

/-- The active token is closed and goes on to a target. -/
theorem moves_moveTokenToTargetAs (hn : Names g s) (hmem : tok ∈ s.tokens) (hfree : Free top s tok)
    (f : Token → Token) (hid : ∀ t, (f t).id = t.id)
    (hf : tok.SamePlace (f tok) ∧ (tok.AwaitOK → ({ f tok with state := .active } : Token).AwaitOK))
    (target flow : String) (at_ : Time) (kind : CloseKind) :
    Moves top g trg s ((s.updateToken tok.id f).moveTokenToTargetAs tok target flow at_ kind) := by
  obtain ⟨h, -, he⟩ := (s.updateToken tok.id f).updateOpenVisit_shape tok.id tok.nodeID
    (fun v => { v with leftAt := some at_, closeKind := kind })
  have hfuse := s.updateToken_updateToken tok.id f (fun t => { t with state := .active }) hid
  have hstate : ((s.updateToken tok.id f).closeVisitAs tok.id tok.nodeID at_ kind).setTokenState tok.id .active =
      { s.updateToken tok.id (fun t => { f t with state := .active }) with history := h } := by
    unfold closeVisitAs
    rw [he, ← hfuse]
    rfl
  unfold moveTokenToTargetAs
  rw [hstate]
  exact moves_relocate hn hmem hfree (fun t => { f t with state := .active }) hid
    ⟨⟨hf.1.id, hf.1.nodeID, hf.1.scopeID, hf.1.arrivalFlow⟩, rfl, hf.2⟩ target flow at_

/-! ## Forks -/

theorem moves_placeOnFlows (hfwd : s.Forward) {scope : String} (hscope : s.ScopeRef g scope) (at_ : Time)
    (fs : List FlowRef) : Moves top g trg s (placeOnFlows g scope at_ fs s) := by
  induction fs generalizing s with
  | nil => exact Relation.ReflTransGen.refl
  | cons f fs ih =>
    have hplace : Move top g trg s (s.placeTokenInScope g f.flow.target scope f.identity at_) :=
      Move.place f.flow.target scope f.identity at_ hfwd hscope
    exact hplace.path.trans (ih (forward_place hfwd _ _ _ _) hscope)

theorem names_scopeRef (hn : Names g s) (hmem : tok ∈ s.tokens) : s.ScopeRef g tok.scopeID :=
  hn.tokens.scopes tok hmem

theorem scopeRef_congr {scope : String} (hseq : s'.scopeSeq = s.scopeSeq) (h : s.ScopeRef g scope) :
    s'.ScopeRef g scope := by
  unfold ScopeRef
  rw [hseq]
  exact h

theorem consumeTokenAs_scopeSeq (s : ControlState) (tok : Token) (at_ : Time) (kind : CloseKind) :
    (s.consumeTokenAs tok at_ kind).scopeSeq = s.scopeSeq := by
  obtain ⟨v, -, he⟩ := s.consumeTokenAs_shape tok at_ kind
  obtain ⟨p, hp, -⟩ := s.removeToken_shape tok.id
  rw [he, hp]

theorem moves_fork (hs : Wf g s) (hlive : s.status.isTerminal = false) (hmem : tok ∈ s.tokens)
    (hfree : Free top s tok) (at_ : Time) (fs : List FlowRef) :
    Moves top g trg s (placeOnFlows g tok.scopeID at_ fs (s.consumeToken tok at_)) := by
  have hfwd := (keeps_consumeTokenAs s tok at_ .normal).forward (hs.forward hlive hmem)
  have hscope := scopeRef_congr (consumeTokenAs_scopeSeq s tok at_ .normal) (names_scopeRef hs.names hmem)
  exact (moves_consume at_ .normal hmem hfree).trans (moves_placeOnFlows hfwd hscope at_ fs)

/-! ## Joins -/

theorem node_id {d : ProcessDefinition} {id : String} {n : Node} (h : d.node id = some n) : n.id = id := by
  simpa using List.find?_some h

theorem closeVisits_shape (at_ : Time) (toks : List Token) (s : ControlState) :
    ∃ h, s.Visits h ∧ toks.foldl (fun s t => s.closeVisit t.id t.nodeID at_) s = { s with history := h } := by
  induction toks generalizing s with
  | nil => exact ⟨s.history, rfl, rfl⟩
  | cons t toks ih =>
    obtain ⟨h, hv, he⟩ := s.updateOpenVisit_shape t.id t.nodeID (fun v => { v with leftAt := some at_ })
    obtain ⟨h', hv', he'⟩ := ih (s.closeVisit t.id t.nodeID at_)
    have hlen : (s.closeVisit t.id t.nodeID at_).history.length = s.history.length := by
      unfold closeVisit
      rw [he]
      exact hv
    refine ⟨h', hv'.trans hlen, ?_⟩
    rw [List.foldl_cons, he']
    unfold closeVisit
    rw [he]

/-- The rest of a firing: the visits are closed and every outgoing flow gets a token. -/
theorem moves_fireJoin {x : ControlState} {nodeID : String} {consumed : List Token} (d : ProcessDefinition)
    (hfire : Move top g trg s (x.withoutJoined nodeID scopeID consumed))
    (hfwd : (x.withoutJoined nodeID scopeID consumed).Forward) (hscope : x.ScopeRef g scopeID) (at_ : Time) :
    Moves top g trg s (fireJoin g d x nodeID scopeID at_ consumed) := by
  obtain ⟨h, hv, he⟩ := closeVisits_shape at_ consumed x
  have hkept : ({ consumed.foldl (fun s t => s.closeVisit t.id t.nodeID at_) x with
      tokens := x.tokens.filter (fun t => !(joinedAt t nodeID scopeID && hasToken consumed t)) } : ControlState) =
      { x.withoutJoined nodeID scopeID consumed with history := h } := by
    rw [he]
    rfl
  unfold fireJoin
  dsimp only
  rw [hkept]
  have hbook : Moves top g trg (x.withoutJoined nodeID scopeID consumed)
      { x.withoutJoined nodeID scopeID consumed with history := h } := moves_history (fun hne => hv.nonempty hne)
  have hfwd' : ({ x.withoutJoined nodeID scopeID consumed with history := h }).Forward := ⟨hfwd.live, hfwd.unsealed⟩
  have hscope' : ({ x.withoutJoined nodeID scopeID consumed with history := h }).ScopeRef g scopeID := hscope
  exact (hfire.path.trans hbook).trans (moves_placeOnFlows hfwd' hscope' at_ _)

theorem ParkedOn.keeps {p : ControlState} {node : Node} (h : ParkedOn s p node scopeID) :
    Phase.Keeps s p := Phase.Keeps.parkedOn h

theorem ParkedOn.scopeSeq {p : ControlState} {node : Node} (h : ParkedOn s p node scopeID) :
    p.scopeSeq = s.scopeSeq := by
  rcases h with rfl | ⟨tok, -, -, -, -, rfl⟩ <;> rfl

/-- A join attempt is a park or a firing. -/
theorem moves_tryJoin {p : ControlState} {d : ProcessDefinition} {node : Node}
    (hp : ParkedOn s p node scopeID) (hdef : defForScope top s.scopes scopeID = .ok d) (hnode : d.node node.id = some node)
    (hconv : 1 < (d.incoming node.id).length) (hkind : node.kind = .parallelGateway ∨ node.kind = .inclusiveGateway)
    (hfwd : s.Forward) (hscope : s.ScopeRef g scopeID) (at_ : Time) :
    Moves top g trg s ((tryJoin g d p node scopeID at_).getD p) := by
  have hsite : JoinSite top s d node scopeID node.kind := ⟨hdef, hnode, rfl, hconv⟩
  have hpscope : p.ScopeRef g scopeID := scopeRef_congr hp.scopeSeq hscope
  -- a note and the loss of parked tokens leave the phase alone
  have hfired : ∀ (e : Event) (consumed : List Token), e.DefersNothing →
      ((p.note e).withoutJoined node.id scopeID consumed).Forward := fun e consumed he =>
    ((hp.keeps.thenNote he).trans (Phase.Keeps.filterTokens _ _)).forward hfwd
  cases htry : tryJoin g d p node scopeID at_ with
  | none => exact (Move.park p d node scopeID node.kind at_ hp hsite hkind htry).path
  | some ctl =>
    unfold tryJoin at htry
    rcases hkind with hk | hk
    · rw [hk] at htry hsite
      dsimp only at htry
      unfold tryParallelJoin at htry
      cases hmatch : matchJoinTokensToFlows d p.tokens node.id scopeID with
      | none =>
        rw [hmatch] at htry
        cases htry
      | some consumed =>
        rw [hmatch] at htry
        rw [← Option.some.inj htry]
        exact moves_fireJoin d (Move.fireParallel p d node scopeID consumed hp hsite hmatch) (hfired _ _ trivial) hpscope
          at_
    · rw [hk] at htry hsite
      dsimp only at htry
      unfold tryInclusiveJoin at htry
      dsimp only at htry
      split at htry
      · cases htry
      · rename_i htok
        split at htry
        · cases htry
        · rename_i hsub
          rw [← Option.some.inj htry]
          exact moves_fireJoin d (Move.fireInclusive p d node scopeID _ hp hsite (Bool.eq_false_iff.mpr htok)
            (Bool.eq_false_iff.mpr hsub) rfl) (hfired _ _ trivial) hpscope at_

/-- The sweep over the parked joins fires one of them. -/
theorem moves_retryParked (hs : Wf g s) (hlive : s.status.isTerminal = false) (at_ : Time) {toks : List Token}
    (hsub : toks ⊆ s.tokens) {ctl : ControlState} (h : retryParked g top s at_ toks = some ctl) :
    Moves top g trg s ctl := by
  induction toks with
  | nil => cases h
  | cons tok toks ih =>
    have hmem : tok ∈ s.tokens := hsub List.mem_cons_self
    have hrest : toks ⊆ s.tokens := fun t ht => hsub (List.mem_cons_of_mem _ ht)
    unfold retryParked at h
    split at h
    · exact ih hrest h
    · cases hdef : defForScope top s.scopes tok.scopeID with
      | error e =>
        rw [hdef] at h
        exact ih hrest h
      | ok d =>
        rw [hdef] at h
        dsimp only at h
        cases hnode : d.node tok.nodeID with
        | none =>
          rw [hnode] at h
          exact ih hrest h
        | some node =>
          rw [hnode] at h
          dsimp only at h
          split at h
          · exact ih hrest h
          · rename_i hlen
            cases htry : tryJoin g d s node tok.scopeID at_ with
            | none =>
              rw [htry] at h
              exact ih hrest h
            | some s1 =>
              rw [htry] at h
              have hkind : node.kind = .parallelGateway ∨ node.kind = .inclusiveGateway := by
                by_contra hk
                rw [not_or] at hk
                unfold tryJoin at htry
                split at htry
                · exact hk.1 ‹_›
                · exact hk.2 ‹_›
                · cases htry
              have hnode' : d.node node.id = some node := by
                rw [node_id hnode]
                exact hnode
              have hpath : Moves top g trg s ((tryJoin g d s node tok.scopeID at_).getD s) :=
                moves_tryJoin (Or.inl rfl) hdef hnode' (not_le.mp hlen) hkind (hs.forward hlive hmem)
                  (names_scopeRef hs.names hmem) at_
              rw [htry] at hpath
              exact Option.some.inj h ▸ hpath

/-! ## Clearing -/

theorem moves_cancelListed (at_ : Time) (kind : CloseKind) (toks : List Token) :
    Moves top g trg s (s.cancelListed at_ kind toks) := by
  induction toks generalizing s with
  | nil => exact Relation.ReflTransGen.refl
  | cons tok toks ih => exact (Move.cancel tok at_ kind).path.trans ih

theorem sweeps_cancelListed (at_ : Time) (kind : CloseKind) (toks : List Token) :
    Sweeps s (s.cancelListed at_ kind toks) := by
  induction toks generalizing s with
  | nil => exact Relation.ReflTransGen.refl
  | cons tok toks ih => exact (Relation.ReflTransGen.single (Sweep.cancel tok at_ kind)).trans ih

theorem sweeps_archiveAll (ids : List String) : Sweeps s (s.archiveAll ids) := by
  induction ids generalizing s with
  | nil => exact Relation.ReflTransGen.refl
  | cons id ids ih => exact (Relation.ReflTransGen.single (Sweep.archive id)).trans ih

theorem moves_sweeps (hidle : ¬ s.InFlight) (h : Sweeps s s') : Moves top g trg s s' := by
  induction h with
  | refl => exact Relation.ReflTransGen.refl
  | tail hpre hstep ih =>
    have hidle' := fun hin => hidle ((Phase.Keeps.sweeps hpre hidle).inFlight.mp hin)
    exact ih.tail (Move.sweep _ hidle' hstep)

theorem mem_cancelListed {t : Token} (at_ : Time) (kind : CloseKind) {toks : List Token} (hne : ∀ t ∈ s.tokens, t.id ≠ "")
    (ht : t ∈ (s.cancelListed at_ kind toks).tokens) : t ∈ s.tokens ∧ ∀ tok ∈ toks, tok.id ≠ t.id := by
  induction toks generalizing s with
  | nil => exact ⟨ht, by simp⟩
  | cons tok toks ih =>
    have hsub : ∀ t ∈ (s.cancelToken tok at_ kind).tokens, t ∈ s.tokens ∧ tok.id ≠ t.id := by
      intro t ht
      rcases s.cancelToken_shape tok at_ kind with he | ⟨t', -, -, -, v, -, he⟩
      · rw [he] at ht
        refine ⟨ht, fun hid => ?_⟩
        -- the token is there, so it would have been cancelled
        unfold cancelToken at he
        cases hfind : s.tokenByID tok.id with
        | none =>
          unfold tokenByID at hfind
          rw [if_neg (by simpa using hid ▸ hne t ht)] at hfind
          have := List.find?_eq_none.mp hfind t ht
          simp [hid] at this
        | some t' =>
          rw [hfind] at he
          have hlen := congrArg (fun s : ControlState => s.trace.length) he
          obtain ⟨v, -, hc⟩ := s.consumeTokenAs_shape t' at_ kind
          obtain ⟨p, hp, -⟩ := s.removeToken_shape t'.id
          simp only [hc, hp, ControlState.note, List.length_cons] at hlen
          omega
      · rw [he] at ht
        have hf := List.mem_filter.mp ht
        exact ⟨hf.1, fun hid => by simp [hid] at hf⟩
    obtain ⟨h1, h2⟩ := ih (fun t ht => hne t (hsub t ht).1) ht
    refine ⟨(hsub t h1).1, fun tok' htok' => ?_⟩
    rcases List.mem_cons.mp htok' with rfl | htok'
    · exact (hsub t h1).2
    · exact h2 tok' htok'

theorem cancelListed_all (hn : Names g s) (at_ : Time) (kind : CloseKind) :
    (s.cancelListed at_ kind s.tokens).tokens = [] := by
  refine List.eq_nil_iff_forall_not_mem.mpr (fun t ht => ?_)
  obtain ⟨hmem, hno⟩ := mem_cancelListed at_ kind (fun t ht => hn.tokens.ne_empty ht) ht
  exact hno t hmem rfl

/-- The clearing of `beginCompensation`. -/
theorem sweeps_clear (at_ : Time) (kind : CloseKind) :
    Sweeps s (s.cancelListed at_ kind s.tokens).consolidateArchiveIntoRoot :=
  (sweeps_cancelListed at_ kind s.tokens).tail Sweep.consolidate

theorem cleared_clear (hn : Names g s) (at_ : Time) (kind : CloseKind) :
    Cleared (s.cancelListed at_ kind s.tokens).consolidateArchiveIntoRoot := by
  refine ⟨?_, ?_⟩
  · rw [(sameOutline (consolidate_outline _)).tokens]
    exact cancelListed_all hn at_ kind
  · unfold consolidateArchiveIntoRoot
    split
    · rename_i h
      exact List.isEmpty_iff.mp h
    · rfl

end Wrkflw
