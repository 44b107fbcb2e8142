import Wrkflw.Machine.Home
import Wrkflw.Machine.Subtree

/-!
# The nesting of the open scopes

Every open scope stands in the root or in an open scope, and every scope that was ever opened stands for a sub-process
of the definition its parent executes (`Nested`). So in a run `defForScope` finds the definition of every open scope.
-/

namespace Wrkflw

open ControlState

variable {sc : Scope}

/-- Every open scope has its parent open, and every scope ever opened stands for a sub-process of its parent. -/
structure Nested (top : ProcessDefinition) (s : ControlState) : Prop where
  parents : ∀ sc ∈ s.scopes, sc.parentID = "" ∨ ∃ p ∈ s.scopes, p.id = sc.parentID
  hosted : ∀ {id node parent}, Event.opened id node parent ∈ s.trace → Hosts top s.trace node parent

section
variable {top : ProcessDefinition} {g : IDGenerator} {trg : TriggerBody} {s s' : ControlState}

/-- No scope is nested in itself. -/
theorem not_within_own {scopes : List Scope} (hord : scopes.Pairwise (fun a b => a.parentID ≠ b.id))
    (hown : ∀ sc ∈ scopes, sc.parentID ≠ sc.id) (hsc : sc ∈ scopes) : ¬ Within scopes sc.id sc.parentID := by
  induction scopes using List.reverseRecOn with
  | nil => cases hsc
  | append_singleton scopes last ih =>
    obtain ⟨hord', -, hlast⟩ := List.pairwise_append.mp hord
    have hlast' : ∀ a ∈ scopes, a.parentID ≠ last.id := fun a ha => hlast a ha last List.mem_cons_self
    have hown' : last.parentID ≠ last.id := hown last (List.mem_append_right _ List.mem_cons_self)
    intro hin
    rcases List.mem_append.mp hsc with hold | hnew
    · rcases Within.of_snoc hlast' hown' hin with hin | ⟨he, -⟩
      · exact ih hord' (fun a ha => hown a (List.mem_append_left _ ha)) hold hin
      · exact hlast' sc hold he
    · obtain rfl := List.mem_singleton.mp hnew
      rcases Within.of_snoc hlast' hown' hin with hin | ⟨he, -⟩
      · rcases hin.split with he | ⟨a, ha, hparent, -⟩
        · exact hown' he
        · exact hlast' a ha hparent
      · exact hown' he

theorem Names.not_within_self (hn : Names g s) (hsc : sc ∈ s.scopes) : ¬ Within s.scopes sc.id sc.parentID :=
  not_within_own hn.scopes.ordered hn.scopes.notOwn hsc

/-- A child of a scope in a subtree is in the subtree. -/
theorem Names.child_mem (hn : Names g s) {root : String} {p : Scope} (hsc : sc ∈ s.scopes)
    (hp : p.id ∈ descendantScopeIDs s.scopes root) (hparent : p.id = sc.parentID) :
    sc.id ∈ descendantScopeIDs s.scopes root :=
  (hn.within_iff root sc.id).mpr (Within.child hsc (hparent ▸ (hn.within_iff root p.id).mp hp))

/-- Events were noted since, and none of them opened a scope. -/
def Later (s s' : ControlState) : Prop := ∃ es, s'.trace = es ++ s.trace ∧ ∀ e ∈ es, e.OpensNothing

theorem later_place (s : ControlState) (node scope flow : String) (at_ : Time) :
    Later s (s.placeTokenInScope g node scope flow at_) :=
  ⟨[_], rfl, fun e he => by rw [List.mem_singleton.mp he]; trivial⟩

namespace Nested

theorem hosted_of_later (h : Nested top s) (hl : Later s s') {id node parent : String}
    (ho : Event.opened id node parent ∈ s'.trace) : Hosts top s'.trace node parent := by
  obtain ⟨es, he, hes⟩ := hl
  have hold : Event.opened id node parent ∈ s.trace := by
    rw [he] at ho
    rcases List.mem_append.mp ho with ho | ho
    · exact (hes _ ho).elim
    · exact ho
  exact (h.hosted hold).mono (he ▸ List.subset_append_right es s.trace)

/-- The open scopes are the same, with other records. -/
theorem of_same (h : Nested top s) (hl : Later s s') (hsc : s'.scopes.map Scope.bare = s.scopes.map Scope.bare) :
    Nested top s' := by
  refine ⟨fun sc hmem => ?_, fun ho => h.hosted_of_later hl ho⟩
  obtain ⟨sc0, h0, -, -, hparent⟩ := mem_bare hsc hmem
  rcases h.parents sc0 h0 with hroot | ⟨p, hp, hid⟩
  · exact Or.inl (hparent ▸ hroot)
  · obtain ⟨p', hp', hid', -, -⟩ := mem_bare hsc.symm hp
    exact Or.inr ⟨p', hp', (hid'.trans hid).trans hparent⟩

/-- A whole subtree is closed. -/
theorem of_pruned (h : Nested top s) (hl : Later s s') {p : String → Bool}
    (hsc : s'.scopes = s.scopes.filter (fun sc => p sc.id))
    (hkin : ∀ sc ∈ s.scopes, ∀ a ∈ s.scopes, a.id = sc.parentID → p sc.id = true → p a.id = true) : Nested top s' := by
  refine ⟨fun sc hmem => ?_, fun ho => h.hosted_of_later hl ho⟩
  rw [hsc] at hmem ⊢
  obtain ⟨hmem, hkept⟩ := List.mem_filter.mp hmem
  rcases h.parents sc hmem with hroot | ⟨a, ha, hid⟩
  · exact Or.inl hroot
  · exact Or.inr ⟨a, List.mem_filter.mpr ⟨ha, hkin sc hmem a ha hid hkept⟩, hid⟩

theorem closeScope (hn : Names g s) (h : Nested top s) (id : String) : Nested top (s.closeScope id) := by
  have hsh := Names.Shrinks.closeScope s id
  unfold ControlState.closeScope at hsh ⊢
  split
  · exact h
  · rename_i hopen
    rw [if_neg hopen] at hsh
    refine h.of_pruned (p := fun i => !(descendantScopeIDs s.scopes id).contains i) hsh.trace rfl
      (fun sc hsc a ha hid hkept => ?_)
    simp only [Bool.not_eq_true', ← Bool.not_eq_true, List.contains_iff_mem] at hkept ⊢
    exact fun hin => hkept (hn.child_mem hsc hin hid)

theorem closeScopeDescendants (hn : Names g s) (h : Nested top s) (id : String) :
    Nested top (s.closeScopeDescendants id) := by
  have hsh : Names.Shrinks s (s.closeScopeDescendants id) := Names.Shrinks.filterScopes s _
  refine h.of_pruned (p := fun i => !(i != id && (descendantScopeIDs s.scopes id).contains i)) hsh.trace rfl
    (fun sc hsc a ha hid hkept => ?_)
  simp only [Bool.not_eq_true', ← Bool.not_eq_true, Bool.and_eq_true, bne_iff_ne, List.contains_iff_mem, not_and] at hkept ⊢
  intro hne hin
  refine hkept (fun he => ?_) (hn.child_mem hsc hin hid)
  -- the emptied scope is not inside itself
  refine hn.not_within_self hsc ?_
  rw [he, ← hid]
  exact (hn.within_iff id a.id).mp hin

theorem openScope (h : Nested top s) {node parent : String} (ho : Openable top s node parent) :
    Nested top (s.openScope g node parent).1 := by
  have hsub : s.trace ⊆ (s.openScope g node parent).1.trace := List.subset_cons_self _ _
  refine ⟨fun sc hsc => ?_, fun hopen => ?_⟩
  · rcases List.mem_append.mp hsc with hsc | hsc
    · exact (h.parents sc hsc).imp (fun hr => hr) (fun ⟨p, hp, hid⟩ => ⟨p, List.mem_append_left _ hp, hid⟩)
    · rw [List.mem_singleton.mp hsc]
      exact ho.parentOpen.imp (fun hr => hr) (fun ⟨p, hp, hid⟩ => ⟨p, List.mem_append_left _ hp, hid⟩)
  · rcases List.mem_cons.mp hopen with he | hopen
    · obtain ⟨-, rfl, rfl⟩ := Event.opened.inj he
      exact ho.hosts.mono hsub
    · exact (h.hosted hopen).mono hsub

end Nested

/-! ## Moves -/

theorem kin_sweep (h : Sweep s s') : s'.scopes.map Scope.bare = s.scopes.map Scope.bare := by
  cases h with
  | archive id => exact (sameOutline (s.archiveCompensations_outline id)).scopes
  | cancel tok at_ kind => rw [(cancelToken_scopes s tok at_ kind).1]
  | consolidate => exact (sameOutline s.consolidate_outline).scopes

theorem kin_sweeps (h : Sweeps s s') : s'.scopes.map Scope.bare = s.scopes.map Scope.bare := by
  induction h with
  | refl => rfl
  | tail _ hstep ih => exact (kin_sweep hstep).trans ih

theorem kin_dispatch (s : ControlState) (cur : CompensationCursor) (idx : Int) (rec : CompensationRecord) (cmdID : String) :
    (s.dispatch cur idx rec cmdID).scopes.map Scope.bare = s.scopes.map Scope.bare :=
  ((sameOutline (consumeDispatchedRecord_outline { s with compensating := cur } idx)).scopes : _)

theorem kin_parkedOn {p : ControlState} {node : Node} {scopeID : String} (h : ParkedOn s p node scopeID) :
    p.scopes.map Scope.bare = s.scopes.map Scope.bare := by
  rcases h with rfl | ⟨tok, -, -, -, -, rfl⟩
  · rfl
  · rfl

theorem kin_consumeTokenAs (s : ControlState) (tok : Token) (at_ : Time) (kind : CloseKind) :
    (s.consumeTokenAs tok at_ kind).scopes.map Scope.bare = s.scopes.map Scope.bare := by
  obtain ⟨h, -, he⟩ := s.consumeTokenAs_shape tok at_ kind
  obtain ⟨p, hp, -⟩ := s.removeToken_shape tok.id
  rw [he, hp]

theorem kin_popOneDeferredThrow (s : ControlState) :
    s.popOneDeferredThrow.scopes.map Scope.bare = s.scopes.map Scope.bare := by
  unfold popOneDeferredThrow
  split
  · rfl
  · dsimp only
    split <;> rfl

theorem kin_deleted (plan : FinishPlan) (s : ControlState) :
    (applyDeleteArchive plan s.settled).scopes.map Scope.bare = s.scopes.map Scope.bare :=
  ((sameOutline (applyDeleteArchive_outline plan s.settled)).scopes : _)

theorem kin_cleared (plan : FinishPlan) (s : ControlState) :
    (applyPlanRecordClearing plan s).scopes.map Scope.bare = s.scopes.map Scope.bare :=
  (sameOutline (applyPlanRecordClearing_outline plan s)).scopes

theorem Nested.resumed (h : Nested top s) (plan : FinishPlan) (at_ : Time) : Nested top (resumeControl g at_ plan s) := by
  have hclear : Nested top ({ applyPlanRecordClearing plan s with status := .running }.note
      (.resumed plan.popDeferred s.deferredCompensationThrows)) := by
    have hsh : Names.Shrinks s { applyPlanRecordClearing plan s with status := .running } :=
      (Names.Shrinks.of_outline (applyPlanRecordClearing_outline plan s)).thenSame rfl
    exact h.of_same (hsh.thenNote (by trivial)).trace (kin_cleared plan s)
  unfold resumeControl
  dsimp only
  have hplaced : ∀ b : Bool, Nested top (if b = true then ({ applyPlanRecordClearing plan s with status := .running }.note
      (.resumed plan.popDeferred s.deferredCompensationThrows)) else ({ applyPlanRecordClearing plan s with
        status := .running }.note (.resumed plan.popDeferred s.deferredCompensationThrows)).placeTokenInScope g
          plan.resumeAt plan.resumeScope plan.resumeFlow at_) := by
    intro b
    split
    · exact hclear
    · exact hclear.of_same (later_place _ _ _ _ _) rfl
  split
  · exact (hplaced _).of_same (Names.Shrinks.popOneDeferredThrow _).trace (kin_popOneDeferredThrow _)
  · exact hplaced _

/-- A throw's token is consumed and its walk begins. -/
theorem Nested.throwDispatch (h : Nested top s) (tok : Token) (at_ : Time) (cur : CompensationCursor)
    (rec : CompensationRecord) (cmdID : String) : Nested top (s.mintCommand.throwDispatch tok at_ cur rec cmdID) := by
  refine h.of_same ⟨[.dispatched rec cmdID], ?_, fun e he => by rw [List.mem_singleton.mp he]; trivial⟩
    ((kin_dispatch _ _ _ _ _).trans (kin_consumeTokenAs s.mintCommand tok at_ .normal))
  have hdrop := (sameOutline (consumeDispatchedRecord_outline
    { s.mintCommand.consumeToken tok at_ with status := .compensating, compensating := cur } cur.nextIndex)).trace
  obtain ⟨history, -, he⟩ := s.mintCommand.consumeTokenAs_shape tok at_ .normal
  obtain ⟨p, hp, -⟩ := s.mintCommand.removeToken_shape tok.id
  have hcons : (s.mintCommand.consumeToken tok at_).trace = s.trace := by
    unfold consumeToken
    rw [he, hp]
    rfl
  exact congrArg (Event.dispatched rec cmdID :: ·) (hdrop.trans hcons)

/-- A move that brings a new name keeps the nesting. -/
theorem Move.Grows.nested (h : Nested top s) (hgr : Move.Grows top g trg s s') : Nested top s' := by
  cases hgr with
  | place node scope flow at_ hfwd hscope => exact h.of_same (later_place _ _ _ _ _) rfl
  | openScope node parent hfwd hparent hopens => exact h.openScope hopens
  | deferThrow tok hthrow hflight => exact h.of_same ⟨[], rfl, fun e he => nomatch he⟩ rfl
  | throwWalk tok at_ cur rec hmem hfwd hres => exact h.throwDispatch tok at_ cur rec _
  | resume cur at_ hfin hres hscope =>
    have hdel : Nested top (applyDeleteArchive (finishPlan s.settled cur) s.settled) :=
      h.of_same (Names.Shrinks.deleted s (finishPlan s.settled cur)).trace (kin_deleted _ s)
    exact hdel.resumed _ at_

/-- Every move keeps the nesting. -/
theorem Move.nested (hn : Names g s) (h : Nested top s) (hmove : Move top g trg s s') : Nested top s' := by
  rcases hmove.shrinks_or_grows with hsh | hgr
  · have hsame : s'.scopes.map Scope.bare = s.scopes.map Scope.bare → Nested top s' := h.of_same hsh.trace
    cases hmove with
    | place node scope flow at_ hfwd hscope => exact hsame rfl
    | leave id target scope flow f hmem hf => exact hsame rfl
    | resume cur at_ hfin hres hpend hscope =>
      have hdel : Nested top (applyDeleteArchive (finishPlan s.settled cur) s.settled) :=
        h.of_same (Names.Shrinks.deleted s (finishPlan s.settled cur)).trace (kin_deleted _ s)
      exact hdel.resumed _ at_
    | book history n hh hn => exact hsame rfl
    | touch id f hf => exact hsame rfl
    | pass tok hthrow => exact hsame rfl
    | resolve tok f hmem hf => exact hsame rfl
    | consume tok hmem hfree =>
      obtain ⟨p, he, -⟩ := s.removeToken_shape tok.id
      exact hsame (by rw [he])
    | cancel tok at_ kind => exact hsame (by rw [(cancelToken_scopes s tok at_ kind).1])
    | park p d node scopeID kind at_ hp hsite hkind hnone => exact hsame (kin_parkedOn hp)
    | fireParallel p d node scopeID consumed hp hsite hmatch =>
      exact hsame (Eq.trans (b := p.scopes.map Scope.bare) rfl (kin_parkedOn hp))
    | fireInclusive p d node scopeID consumed hp hsite htok hsub hcons =>
      exact hsame (Eq.trans (b := p.scopes.map Scope.bare) rfl (kin_parkedOn hp))
    | openScope node parent hfwd hparent hopens => exact h.openScope hopens
    | teardown scope =>
      have harch := Names.Shrinks.of_outline (s.archiveAll_outline (s.subtreeIDs scope))
      have h' := h.of_same harch.trace (sameOutline (s.archiveAll_outline _)).scopes
      exact h'.closeScope (hn.of_shrinks harch) scope
    | interrupt scope =>
      have harch := Names.Shrinks.of_outline (s.archiveAll_outline (s.subtreeIDs scope))
      have h' := h.of_same harch.trace (sameOutline (s.archiveAll_outline _)).scopes
      exact (h'.closeScopeDescendants (hn.of_shrinks harch) scope).of_same
        ⟨[_], rfl, fun e he => by rw [List.mem_singleton.mp he]; trivial⟩ rfl
    | exit scope enclosing hne htok hchild hhold =>
      have hnote := Names.Shrinks.note s (.exited scope enclosing s.tokens s.scopes s.compensating) trivial
      have harch := hnote.trans (Names.Shrinks.of_outline (ControlState.archiveCompensations_outline _ scope))
      have h' := h.of_same harch.trace (sameOutline (ControlState.archiveCompensations_outline _ scope)).scopes
      exact h'.closeScope (hn.of_shrinks harch) scope
    | record scope rec hfwd hhist =>
      refine hsame ?_
      unfold recordCompensation
      split
      · rfl
      · split
        · rfl
        · exact updateFirst_bare _ _ _ (fun _ => rfl)
    | sweep s' hidle hsweep => exact hsame (kin_sweep hsweep)
    | deferThrow tok hthrow hflight => exact hsame rfl
    | throwWalk tok at_ cur rec hthrow hfwd hidle hcur => exact h.throwDispatch tok at_ cur rec _
    | next rec hflight hans hpos hto hrec => exact hsame (kin_dispatch _ _ _ _ _)
    | again rec attempts hflight hrec htrg => exact hsame rfl
    | retryLater timerID attempts hflight => exact hsame rfl
    | pendCancel hflight hmode => exact hsame rfl
    | pendFailure err hflight hfwd htok => exact hsame rfl
    | begin at_ o rec hidle hclear hasked hrec => exact hsame rfl
    | pendingWalk cur at_ p rec hfin hcons hpend hsweep hclear hrec =>
      refine hsame (Eq.trans (b := p.scopes.map Scope.bare) rfl ((kin_sweeps hsweep).trans ?_))
      exact (kin_cleared _ _).trans (kin_deleted _ s)
  · exact hgr.nested h

theorem Moves.nested (hs : Wf g s) (h : Nested top s) (hmoves : Moves top g trg s s') : Nested top s' := by
  induction hmoves with
  | refl => exact h
  | tail hpath hstep ih => exact hstep.nested (Moves.wf hs hpath).names ih

/-- No scope is open once the instance has ended. -/
theorem End.nested (h : Nested top s) (hend : End trg s s') : Nested top s' := by
  have hscopes : s'.scopes = [] := by
    cases hend with
    | abandon hflight hans hmode =>
      have ho := (sameOutline (ControlState.mapRecords_outline ((s.settled.clearRecords s.compensating.scopeID).endControl
        (finalStatusOf s.compensating.finalStatus) s.compensating.finalErr) s.compensating.scopeID
        (fun _ => s.retainedRecordPrefix s.compensating.scopeID s.compensating.nextIndex))).scopes
      exact List.map_eq_nil_iff.mp ho
    | complete hlive hdrained => rfl
    | idle st err hlive hidle hst => rfl
    | childFailed err hlive htok => rfl
    | forced outcome at_ err hlive htok => rfl
    | terminate cur hfin hmode => rfl
    | pending cur p hfin hcons hpend hsweep hclear hnone => rfl
  exact ⟨fun sc hsc => absurd (hscopes ▸ hsc) List.not_mem_nil, fun ho => h.hosted_of_later hend.shrinks.trace ho⟩

/-! ## The definition of an open scope -/

theorem Names.scopeByID_of_mem (hn : Names g s) (hsc : sc ∈ s.scopes) : scopeByID s.scopes sc.id = some sc := by
  unfold scopeByID
  cases hfind : s.scopes.find? (fun a => a.id == sc.id) with
  | none => exact absurd (List.find?_eq_none.mp hfind sc hsc) (by simp)
  | some a =>
    have hid : a.id = sc.id := by simpa using List.find?_some hfind
    rw [List.inj_on_of_nodup_map hn.scopes.nodup (List.mem_of_find?_eq_some hfind) hsc hid]

/-- The parent of a scope was opened before it. -/
theorem Nested.parent_take (hn : Names g s) (h : Nested top s) {k : Nat} (hsc : sc ∈ s.scopes.take (k + 1)) :
    sc.parentID = "" ∨ ∃ p ∈ s.scopes.take k, p.id = sc.parentID := by
  rcases h.parents sc (List.mem_of_mem_take hsc) with hroot | ⟨p, hp, hid⟩
  · exact Or.inl hroot
  · refine Or.inr ⟨p, ?_, hid⟩
    obtain ⟨i, hi, rfl⟩ := List.mem_take_iff_getElem.mp hsc
    obtain ⟨j, hj, rfl⟩ := List.getElem_of_mem hp
    have hlt : j < i := by
      rcases Nat.lt_trichotomy j i with hlt | rfl | hgt
      · exact hlt
      · exact absurd hid.symm (hn.scopes.notOwn _ (List.getElem_mem _))
      · exact absurd hid.symm (List.pairwise_iff_getElem.mp hn.scopes.ordered i j _ _ hgt)
    exact List.mem_take_iff_getElem.mpr ⟨j, by omega, rfl⟩

theorem Nested.resolves_take (hn : Names g s) (h : Nested top s) (fuel : Nat) :
    ∀ sc ∈ s.scopes.take fuel, ∃ d, defForScopeAux top s.scopes (fuel + 1) sc.id = .ok d := by
  induction fuel with
  | zero =>
    intro sc hsc
    rw [List.take_zero] at hsc
    cases hsc
  | succ fuel ih =>
    intro sc hsc
    have hmem := List.mem_of_mem_take hsc
    have hne : sc.id ≠ "" := (hn.scopes.minted sc hmem).ne_empty
    obtain ⟨pd, hpd⟩ : ∃ pd, defForScopeAux top s.scopes (fuel + 1) sc.parentID = .ok pd := by
      rcases h.parent_take hn hsc with hroot | ⟨p, hp, hid⟩
      · exact ⟨top, by rw [hroot]; rfl⟩
      · exact hid ▸ ih p hp
    obtain ⟨d, n, activity, sub, hdefn, hnode, hspec⟩ := h.hosted (hn.scopes.noted sc hmem)
    have hd : pd = d := (defForScopeAux_defn hn.scopes.noted hpd).unique hn.opened hdefn
    refine ⟨sub, ?_⟩
    unfold defForScopeAux
    rw [if_neg (by simpa using hne), hn.scopeByID_of_mem hmem]
    simp only [hpd, hd, hnode, hspec]

/-- The definition of an open scope is found. -/
theorem Nested.resolves (hn : Names g s) (h : Nested top s) {id : String} (hopen : id = "" ∨ ∃ sc ∈ s.scopes, sc.id = id) :
    ∃ d, defForScope top s.scopes id = .ok d := by
  rcases hopen with rfl | ⟨sc, hsc, rfl⟩
  · exact ⟨top, rfl⟩
  · exact h.resolves_take hn _ sc (by rw [List.take_length]; exact hsc)

end

/-- In every state of a run the open scopes are nested. -/
theorem Run.nested {d : ProcessDefinition} {gen : Option IDGenerator} {inst : String} {calls : List Call} {x : InstanceState}
    (hrun : Run d gen inst calls x) : Nested d x.toControlState :=
  Run.induction (I := Nested d) (P := fun _ => True) (C := fun _ => True) hrun (fun _ _ => trivial)
    (fun _ _ => trivial) ⟨(fun _ h => nomatch h), (fun h => nomatch h)⟩ (fun hwf _ _ h hmove => hmove.nested hwf.names h)
    (fun _ _ _ h hend => hend.nested h)

end Wrkflw
