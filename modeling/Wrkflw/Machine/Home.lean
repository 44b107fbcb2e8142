import Wrkflw.Machine.Run

/-!
# The home of a token

A token keeps its scope for its whole life, and the scope is noted at each of its arrivals, so that it can be told where a
token that is gone belonged. `Homed` : every noted arrival of a live token is in the scope the token is in. Every move
keeps it.
-/

namespace Wrkflw

open ControlState

/-- The token that arrives and the scope it arrives in. -/
def Event.arrival? : Event → Option (String × String)
  | .arrived token _ scope _ => some (token, scope)
  | _ => none

def ControlState.arrivals (s : ControlState) : List (String × String) := s.trace.filterMap Event.arrival?

/-- The noted arrivals are those of minted tokens, and a token that is there is in the scope it arrived in. -/
structure Homed (g : IDGenerator) (s : ControlState) : Prop where
  minted : ∀ p ∈ s.arrivals, Minted g .token s.tokenSeq p.1
  home : ∀ p ∈ s.arrivals, ∀ t ∈ s.tokens, t.id = p.1 → t.scopeID = p.2

section
variable {top : ProcessDefinition} {g : IDGenerator} {trg : TriggerBody} {s s' : ControlState}

theorem arrivals_of_outline (h : s'.outline = s.outline) : s'.arrivals = s.arrivals :=
  congrArg (List.filterMap Event.arrival?) (sameOutline h).trace

theorem arrivals_removeToken (s : ControlState) (id : String) : (s.removeToken id).arrivals = s.arrivals := by
  obtain ⟨p, he, -⟩ := s.removeToken_shape id
  rw [he]
  rfl

theorem arrivals_consumeTokenAs (s : ControlState) (tok : Token) (at_ : Time) (kind : CloseKind) :
    (s.consumeTokenAs tok at_ kind).arrivals = s.arrivals := by
  obtain ⟨h, -, he⟩ := s.consumeTokenAs_shape tok at_ kind
  rw [he]
  exact arrivals_removeToken s tok.id

theorem arrivals_cancelToken (s : ControlState) (tok : Token) (at_ : Time) (kind : CloseKind) :
    (s.cancelToken tok at_ kind).arrivals = s.arrivals := by
  rcases s.cancelToken_shape tok at_ kind with he | ⟨t, -, -, -, h, -, he⟩
  · rw [he]
  · rw [he]
    rfl

theorem arrivals_cancelListed (at_ : Time) (kind : CloseKind) (toks : List Token) (s : ControlState) :
    (s.cancelListed at_ kind toks).arrivals = s.arrivals := by
  induction toks generalizing s with
  | nil => rfl
  | cons tok toks ih => exact (ih _).trans (arrivals_cancelToken s tok at_ kind)

theorem arrivals_closeScope (s : ControlState) (id : String) : (s.closeScope id).arrivals = s.arrivals := by
  obtain ⟨p, he⟩ := s.closeScope_shape id
  rw [he]
  rfl

theorem arrivals_sweep (h : Sweep s s') : s'.arrivals = s.arrivals := by
  cases h with
  | archive id => exact arrivals_of_outline (s.archiveCompensations_outline id)
  | cancel tok at_ kind => exact arrivals_cancelToken s tok at_ kind
  | consolidate => exact arrivals_of_outline s.consolidate_outline

theorem arrivals_sweeps (h : Sweeps s s') : s'.arrivals = s.arrivals := by
  induction h with
  | refl => rfl
  | tail _ hstep ih => exact (arrivals_sweep hstep).trans ih

theorem arrivals_dispatch (s : ControlState) (cur : CompensationCursor) (idx : Int) (rec : CompensationRecord)
    (cmdID : String) :
    (s.dispatch cur idx rec cmdID).arrivals = s.arrivals :=
  (arrivals_of_outline (consumeDispatchedRecord_outline { s with compensating := cur } idx) : _)

theorem arrivals_popOneDeferredThrow (s : ControlState) : s.popOneDeferredThrow.arrivals = s.arrivals := by
  unfold popOneDeferredThrow
  split
  · rfl
  · dsimp only
    split <;> rfl

theorem arrivals_endControl (s : ControlState) (st : Status) (err : String) : (s.endControl st err).arrivals = s.arrivals :=
  (arrivals_of_outline (harvest_outline { s with status := st }) : _)

theorem arrivals_cleared (plan : FinishPlan) (s : ControlState) : (applyPlanRecordClearing plan s).arrivals = s.arrivals :=
  arrivals_of_outline (applyPlanRecordClearing_outline plan s)

theorem arrivals_deleted (plan : FinishPlan) (s : ControlState) : (applyDeleteArchive plan s.settled).arrivals = s.arrivals :=
  (arrivals_of_outline (applyDeleteArchive_outline plan s.settled) : _)

theorem arrivals_parkedOn {p : ControlState} {node : Node} {scopeID : String} (h : ParkedOn s p node scopeID) :
    p.arrivals = s.arrivals := by
  rcases h with rfl | ⟨tok, -, -, -, -, rfl⟩
  · rfl
  · rfl

namespace Homed

theorem of_places (h : Homed g s) (htok : ∀ t' ∈ s'.tokens, ∃ t ∈ s.tokens, t.id = t'.id ∧ t.scopeID = t'.scopeID)
    (hseq : s'.tokenSeq = s.tokenSeq) (ha : s'.arrivals = s.arrivals) : Homed g s' := by
  refine ⟨fun p hp => ?_, fun p hp t' ht' hid => ?_⟩
  · rw [hseq]
    exact h.minted p (ha ▸ hp)
  · obtain ⟨t, ht, hsame, hscope⟩ := htok t' ht'
    exact hscope.symm.trans (h.home p (ha ▸ hp) t ht (hsame.trans hid))

theorem of_shrinks (h : Homed g s) (hsh : Names.Shrinks s s') (ha : s'.arrivals = s.arrivals) : Homed g s' := by
  refine h.of_places (fun t' ht' => ?_) hsh.tokenSeq ha
  obtain ⟨t, ht, he⟩ := List.mem_map.mp (hsh.tokens.subset (List.mem_map_of_mem ht'))
  exact ⟨t, ht, (Prod.mk.inj he).1, (Prod.mk.inj he).2⟩

/-- A new token is at home where it is placed. -/
theorem place (h : Homed g s) (hn : TokensOK g s.tokenSeq s.scopeSeq s.tokens) (node scope flow : String) (at_ : Time) :
    Homed g (s.placeTokenInScope g node scope flow at_) := by
  have ha : (s.placeTokenInScope g node scope flow at_).arrivals = (g.newID .token (s.tokenSeq + 1), scope) :: s.arrivals :=
    rfl
  refine ⟨fun p hp => ?_, fun p hp t ht hid => ?_⟩
  · rw [ha] at hp
    rcases List.mem_cons.mp hp with rfl | hp
    · exact minted_self g .token (s.tokenSeq + 1)
    · exact (h.minted p hp).mono (Nat.le_succ _)
  · rw [ha] at hp
    rcases List.mem_append.mp (show t ∈ s.tokens ++ [_] from ht) with ht | ht
    · rcases List.mem_cons.mp hp with rfl | hp
      · exact absurd hid (hn.minted t ht).ne_next
      · exact h.home p hp t ht hid
    · rw [List.mem_singleton.mp ht] at hid ⊢
      rcases List.mem_cons.mp hp with rfl | hp
      · rfl
      · exact absurd hid.symm (h.minted p hp).ne_next

/-- A token that goes on stays in its scope. -/
theorem leave (h : Homed g s) (hn : TokensOK g s.tokenSeq s.scopeSeq s.tokens) {id target scope flow : String}
    {f : Token → Token}
    (hmem : ∃ t ∈ s.tokens, t.id = id) (hf : ∀ t ∈ s.tokens, t.id = id → Leaves top s t (f t) target scope flow) :
    Homed g ((s.updateToken id f).note (.arrived id target scope flow)) := by
  have ha : ((s.updateToken id f).note (.arrived id target scope flow)).arrivals = (id, scope) :: s.arrivals := rfl
  have htok : ∀ t' ∈ (s.updateToken id f).tokens, ∃ t ∈ s.tokens, t.id = t'.id ∧ t.scopeID = t'.scopeID ∧
      (t.id = id → t.scopeID = scope) := by
    intro t' ht'
    obtain ⟨t, ht, rfl⟩ := List.mem_map.mp ht'
    refine ⟨t, ht, ?_⟩
    split
    · rename_i he
      have hl := hf t ht (by simpa using he)
      exact ⟨hl.id.symm, hl.scopeID.symm, fun _ => hl.scope⟩
    · rename_i he
      exact ⟨rfl, rfl, fun hid => absurd hid (by simpa using he)⟩
  refine ⟨fun p hp => ?_, fun p hp t' ht' hid => ?_⟩
  · rw [ha] at hp
    rcases List.mem_cons.mp hp with rfl | hp
    · obtain ⟨t, ht, rfl⟩ := hmem
      exact hn.minted t ht
    · exact h.minted p hp
  · obtain ⟨t, ht, hsame, hscope, hown⟩ := htok t' ht'
    rw [ha] at hp
    rcases List.mem_cons.mp hp with rfl | hp
    · exact hscope.symm.trans (hown (hsame.trans hid))
    · exact hscope.symm.trans (h.home p hp t ht (hsame.trans hid))

theorem resume (h : Homed g s) (hn : TokensOK g s.tokenSeq s.scopeSeq s.tokens) (plan : FinishPlan) (at_ : Time) :
    Homed g (resumeControl g at_ plan s) := by
  have hclear : Names.Shrinks s ({ applyPlanRecordClearing plan s with status := .running }.note
      (.resumed plan.popDeferred s.deferredCompensationThrows)) :=
    Names.Shrinks.thenNote ((Names.Shrinks.of_outline (applyPlanRecordClearing_outline plan s)).thenSame (by rfl))
      (by trivial)
  have h1 := h.of_shrinks hclear (arrivals_cleared plan s)
  have hn1 : TokensOK g _ _ _ := hn.of_places hclear.tokens
  rw [← hclear.tokenSeq, ← hclear.scopeSeq] at hn1
  unfold Wrkflw.resumeControl
  dsimp only
  have h2 : ∀ b : Bool, Homed g (if b then _ else _) := fun b => by
    cases b
    · exact h1.place hn1 plan.resumeAt plan.resumeScope plan.resumeFlow at_
    · exact h1
  split
  · exact (h2 _).of_shrinks (Names.Shrinks.popOneDeferredThrow _) (arrivals_popOneDeferredThrow _)
  · exact h2 _

end Homed

theorem Homed.resumed (h : Homed g s) (hn : Names g s) (cur : CompensationCursor) (at_ : Time) :
    Homed g (resumeControl g at_ (finishPlan s.settled cur) (applyDeleteArchive (finishPlan s.settled cur) s.settled)) := by
  have hdel := Names.Shrinks.deleted s (finishPlan s.settled cur)
  exact (h.of_shrinks hdel (arrivals_deleted _ s)).resume (hn.of_shrinks hdel).tokens _ at_

theorem Homed.throwDispatch (h : Homed g s) (tok : Token) (at_ : Time) (cur : CompensationCursor) (rec : CompensationRecord)
    (cmdID : String) : Homed g (s.throwDispatch tok at_ cur rec cmdID) := by
  have hcons : Homed g (s.consumeToken tok at_) := by
    obtain ⟨v, -, he⟩ := s.consumeTokenAs_shape tok at_ .normal
    have hsh : Names.Shrinks s (s.consumeToken tok at_) := by
      unfold consumeToken
      rw [he]
      exact (Names.Shrinks.removeToken s tok.id).thenSame (by rfl)
    exact h.of_shrinks hsh (arrivals_consumeTokenAs s tok at_ .normal)
  have ho := sameOutline
    (dispatch_outline { s.consumeToken tok at_ with status := .compensating } cur cur.nextIndex rec cmdID)
  refine hcons.of_places (fun t ht => ⟨t, ?_, rfl, rfl⟩) ho.tokenSeq (arrivals_dispatch _ _ _ _ _)
  rw [← show _ = (s.consumeToken tok at_).tokens from ho.tokens]
  exact ht

/-- A move that brings a new name keeps the tokens at home. -/
theorem Move.Grows.homed (hn : Names g s) (h : Homed g s) (hgr : Move.Grows top g trg s s') : Homed g s' := by
  cases hgr with
  | place node scope flow at_ hfwd hscope => exact h.place hn.tokens node scope flow at_
  | openScope node parent hfwd hparent hopens => exact h.of_places (fun t ht => ⟨t, ht, rfl, rfl⟩) rfl rfl
  | deferThrow tok hthrow hflight =>
    have hset := h.of_shrinks (Names.Shrinks.setTokenState s tok.id .waiting) rfl
    exact hset.of_places (fun t ht => ⟨t, ht, rfl, rfl⟩) rfl rfl
  | throwWalk tok at_ cur rec hmem hfwd hres =>
    have hmint : Homed g s.mintCommand := h.of_places (fun t ht => ⟨t, ht, rfl, rfl⟩) rfl rfl
    exact hmint.throwDispatch tok at_ cur rec _
  | resume cur at_ hfin hres hscope => exact h.resumed hn cur at_

/-- Every move keeps the tokens at home. -/
theorem Move.homed (hn : Names g s) (h : Homed g s) (hmove : Move top g trg s s') : Homed g s' := by
  rcases hmove.shrinks_or_grows with hsh | hgr
  · cases hmove with
    | place node scope flow at_ hfwd hscope => exact h.place hn.tokens node scope flow at_
    | leave id target scope flow f hmem hf => exact h.leave hn.tokens hmem hf
    | resume cur at_ hfin hres hpend hscope => exact h.resumed hn cur at_
    | book history n hh hn => exact h.of_shrinks hsh rfl
    | touch id f hf => exact h.of_shrinks hsh rfl
    | pass tok hthrow => exact h.of_shrinks hsh rfl
    | resolve tok f hmem hf => exact h.of_shrinks hsh rfl
    | consume tok hmem hfree => exact h.of_shrinks hsh (arrivals_removeToken s tok.id)
    | cancel tok at_ kind => exact h.of_shrinks hsh (arrivals_cancelToken s tok at_ kind)
    | park p d node scopeID kind at_ hp hsite hkind hnone => exact h.of_shrinks hsh (arrivals_parkedOn hp)
    | fireParallel p d node scopeID consumed hp hsite hmatch =>
      exact h.of_shrinks hsh (Eq.trans (b := p.arrivals) rfl (arrivals_parkedOn hp))
    | fireInclusive p d node scopeID consumed hp hsite htok hsub hcons =>
      exact h.of_shrinks hsh (Eq.trans (b := p.arrivals) rfl (arrivals_parkedOn hp))
    | openScope node parent hfwd hparent hopens => exact h.of_shrinks hsh rfl
    | teardown scope =>
      exact h.of_shrinks hsh ((arrivals_closeScope _ scope).trans (arrivals_of_outline (s.archiveAll_outline _)))
    | interrupt scope =>
      have harch := arrivals_of_outline (s.archiveAll_outline (s.subtreeIDs scope))
      exact h.of_shrinks hsh (Eq.trans (b := (s.archiveAll (s.subtreeIDs scope)).arrivals) rfl harch)
    | exit scope enclosing hne htok hchild hhold =>
      have harch := arrivals_of_outline (ControlState.archiveCompensations_outline
        (s.note (.exited scope enclosing s.tokens s.scopes s.compensating)) scope)
      exact h.of_shrinks hsh ((arrivals_closeScope _ scope).trans (harch.trans rfl))
    | record scope rec hfwd hhist =>
      refine h.of_shrinks hsh ?_
      unfold recordCompensation
      split
      · rfl
      · split <;> rfl
    | sweep s' hidle hsweep => exact h.of_shrinks hsh (arrivals_sweep hsweep)
    | deferThrow tok hthrow hflight => exact h.of_shrinks hsh rfl
    | throwWalk tok at_ cur rec hthrow hfwd hidle hcur =>
      exact h.of_shrinks hsh ((arrivals_dispatch _ _ _ _ _).trans (arrivals_consumeTokenAs s.mintCommand tok at_ .normal))
    | next rec hflight hans hpos hto hrec => exact h.of_shrinks hsh (arrivals_dispatch _ _ _ _ _)
    | again rec attempts hflight hrec htrg => exact h.of_shrinks hsh rfl
    | retryLater timerID attempts hflight => exact h.of_shrinks hsh rfl
    | pendCancel hflight hmode => exact h.of_shrinks hsh rfl
    | pendFailure err hflight hfwd htok => exact h.of_shrinks hsh rfl
    | begin at_ o rec hidle hclear hasked hrec => exact h.of_shrinks hsh rfl
    | pendingWalk cur at_ p rec hfin hcons hpend hsweep hclear hrec =>
      refine h.of_shrinks hsh (Eq.trans (b := p.arrivals) rfl ((arrivals_sweeps hsweep).trans ?_))
      exact (arrivals_cleared _ _).trans (arrivals_deleted _ s)
  · exact hgr.homed hn h

theorem End.homed (h : Homed g s) (hend : End trg s s') : Homed g s' := by
  refine h.of_shrinks hend.shrinks ?_
  cases hend with
  | complete hlive hdrained => exact arrivals_endControl s _ _
  | idle st err hlive hidle hst => exact arrivals_endControl s _ _
  | childFailed err hlive htok => exact arrivals_endControl _ _ _
  | forced outcome at_ err hlive htok =>
    exact (arrivals_endControl _ _ _).trans (arrivals_cancelListed at_ .terminated s.tokens _)
  | terminate cur hfin hmode =>
    have hclear := arrivals_of_outline (s.settled.mapRecords_outline cur.scopeID (fun _ => []))
    exact (arrivals_endControl _ _ _).trans (hclear.trans rfl)
  | abandon hflight hans hmode =>
    have hclear := arrivals_of_outline (s.settled.mapRecords_outline s.compensating.scopeID (fun _ => []))
    refine (arrivals_of_outline (ControlState.mapRecords_outline _ _ _)).trans ((arrivals_endControl _ _ _).trans ?_)
    exact hclear.trans rfl
  | pending cur p hfin hcons hpend hsweep hclear hnone =>
    refine (arrivals_endControl _ _ _).trans ((arrivals_sweeps hsweep).trans ?_)
    exact (arrivals_cleared _ _).trans (arrivals_deleted _ s)

end

/-- In every state of a run the tokens are at home. -/
theorem Run.homed {d : ProcessDefinition} {gen : Option IDGenerator} {inst : String} {calls : List Call} {x : InstanceState}
    (hrun : Run d gen inst calls x) : Homed (runIDs gen inst) x.toControlState :=
  Run.induction (I := Homed (runIDs gen inst)) (P := fun _ => True) (C := fun _ => True) hrun (fun _ _ => trivial)
    (fun _ _ => trivial) ⟨(fun _ h => nomatch h), (fun _ h => nomatch h)⟩ (fun hwf _ _ h hmove => hmove.homed hwf.names h)
    (fun _ _ _ h hend => hend.homed h)

end Wrkflw
