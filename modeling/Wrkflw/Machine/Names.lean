import Wrkflw.Machine.Frame

/-!
# Names

Every object of a run has its own id:

* `TokensOK` : the tokens' ids are minted and distinct, their scopes are the root or minted;
* `ScopesOK` : the same for open scopes, a scope never precedes its parent, and each was noted when it
  was opened;
* `OpenedOK` : an opened scope has one node and one parent;
* `Names` : all of it, for a state. Every move keeps it (`Move.names`, `End.names`).
-/

namespace Wrkflw

open ControlState

variable {id : String} {d : ProcessDefinition}

variable {g : IDGenerator}

theorem Minted.mono {kind : IDKind} {n m : Nat} (h : Minted g kind n id) (hnm : n ≤ m) :
    Minted g kind m id := by
  obtain ⟨k, hk, he⟩ := h
  exact ⟨k, hk.trans hnm, he⟩

theorem minted_self (g : IDGenerator) (kind : IDKind) (n : Nat) : Minted g kind n (g.newID kind n) := ⟨n, le_rfl, rfl⟩

theorem Minted.ne_empty {kind : IDKind} {n : Nat} (h : Minted g kind n id) : id ≠ "" := by
  obtain ⟨k, -, rfl⟩ := h
  exact g.newID_ne_empty kind k

/-- The next id of a kind is none of the minted ones. -/
theorem Minted.ne_next {kind : IDKind} {n : Nat} (h : Minted g kind n id) :
    id ≠ g.newID kind (n + 1) := by
  obtain ⟨k, hk, rfl⟩ := h
  intro he
  have := (g.newID_inj _ _ _ _ he).2
  omega

/-- A reference to the root or to a minted scope. -/
def Ref (g : IDGenerator) (n : Nat) (id : String) : Prop := id = "" ∨ Minted g .scope n id

theorem Ref.mono {n m : Nat} (h : Ref g n id) (hnm : n ≤ m) : Ref g m id :=
  h.imp (fun h => h) (fun h => h.mono hnm)

theorem Ref.ne_next {n : Nat} (h : Ref g n id) : id ≠ g.newID .scope (n + 1) := by
  rcases h with rfl | h
  · exact (g.newID_ne_empty _ _).symm
  · exact h.ne_next

/-! ## Tokens -/

/-- What `TokensOK` reads of a token. -/
def Token.place (t : Token) : String × String := (t.id, t.scopeID)

structure TokensOK (g : IDGenerator) (n m : Nat) (tokens : List Token) : Prop where
  minted : ∀ t ∈ tokens, Minted g .token n t.id
  nodup : (tokens.map (·.id)).Nodup
  scopes : ∀ t ∈ tokens, Ref g m t.scopeID

namespace TokensOK
variable {n m : Nat} {tokens tokens' : List Token}

theorem of_places (h : TokensOK g n m tokens) (hsub : (tokens'.map Token.place).Sublist (tokens.map Token.place)) :
    TokensOK g n m tokens' := by
  have hplace : ∀ t' ∈ tokens', ∃ t ∈ tokens, t.id = t'.id ∧ t.scopeID = t'.scopeID := by
    intro t' ht'
    obtain ⟨t, ht, he⟩ := List.mem_map.mp (hsub.subset (List.mem_map_of_mem ht'))
    exact ⟨t, ht, (Prod.mk.inj he).1, (Prod.mk.inj he).2⟩
  refine ⟨fun t' ht' => ?_, ?_, fun t' ht' => ?_⟩
  · obtain ⟨t, ht, hid, -⟩ := hplace t' ht'
    exact hid ▸ h.minted t ht
  · have hids := hsub.map Prod.fst
    simp only [List.map_map] at hids
    exact hids.nodup h.nodup
  · obtain ⟨t, ht, -, hscope⟩ := hplace t' ht'
    exact hscope ▸ h.scopes t ht

theorem append (h : TokensOK g n m tokens) (t : Token) (hid : t.id = g.newID .token (n + 1))
    (hscope : Ref g m t.scopeID) : TokensOK g (n + 1) m (tokens ++ [t]) := by
  refine ⟨fun t' ht' => ?_, ?_, fun t' ht' => ?_⟩
  · rcases List.mem_append.mp ht' with ht' | ht'
    · exact (h.minted t' ht').mono (Nat.le_succ n)
    · rw [List.mem_singleton.mp ht', hid]
      exact minted_self g .token (n + 1)
  · rw [List.map_append, List.nodup_append]
    refine ⟨h.nodup, List.nodup_singleton _, ?_⟩
    intro a ha b hb
    obtain ⟨t', ht', rfl⟩ := List.mem_map.mp ha
    rw [List.map_singleton, List.mem_singleton] at hb
    rw [hb, hid]
    exact (h.minted t' ht').ne_next
  · rcases List.mem_append.mp ht' with ht' | ht'
    · exact h.scopes t' ht'
    · rw [List.mem_singleton.mp ht']
      exact hscope

theorem mono_scopes (h : TokensOK g n m tokens) {m' : Nat} (hm : m ≤ m') : TokensOK g n m' tokens :=
  ⟨h.minted, h.nodup, fun t ht => (h.scopes t ht).mono hm⟩

theorem eq_of_id (h : TokensOK g n m tokens) {t t' : Token} (ht : t ∈ tokens) (ht' : t' ∈ tokens)
    (hid : t.id = t'.id) : t = t' := List.inj_on_of_nodup_map h.nodup ht ht' hid

theorem ne_empty (h : TokensOK g n m tokens) {t : Token} (ht : t ∈ tokens) : t.id ≠ "" := (h.minted t ht).ne_empty

end TokensOK

/-! ## Scopes -/

structure ScopesOK (g : IDGenerator) (n : Nat) (trace : List Event) (scopes : List Scope) : Prop where
  minted : ∀ sc ∈ scopes, Minted g .scope n sc.id
  nodup : (scopes.map (·.id)).Nodup
  parents : ∀ sc ∈ scopes, Ref g n sc.parentID
  ordered : scopes.Pairwise (fun a b => a.parentID ≠ b.id)
  notOwn : ∀ sc ∈ scopes, sc.parentID ≠ sc.id
  noted : ∀ sc ∈ scopes, Event.opened sc.id sc.nodeID sc.parentID ∈ trace

namespace ScopesOK
variable {n : Nat} {trace : List Event} {scopes scopes' : List Scope}

theorem of_sublist (h : ScopesOK g n trace scopes) (hsub : scopes'.Sublist scopes) : ScopesOK g n trace scopes' where
  minted := fun sc hsc => h.minted sc (hsub.subset hsc)
  nodup := (hsub.map _).nodup h.nodup
  parents := fun sc hsc => h.parents sc (hsub.subset hsc)
  ordered := h.ordered.sublist hsub
  notOwn := fun sc hsc => h.notOwn sc (hsub.subset hsc)
  noted := fun sc hsc => h.noted sc (hsub.subset hsc)

theorem of_bare (h : ScopesOK g n trace scopes) (hb : scopes'.map Scope.bare = scopes.map Scope.bare) :
    ScopesOK g n trace scopes' := by
  have hids : scopes'.map (·.id) = scopes.map (·.id) := by
    have h := congrArg (List.map Scope.id) hb
    rw [List.map_map, List.map_map] at h
    exact h
  have hpair : (scopes'.map Scope.bare).Pairwise (fun a b => a.parentID ≠ b.id) := by
    rw [hb, List.pairwise_map]
    exact h.ordered
  refine ⟨fun sc hsc => ?_, hids ▸ h.nodup, fun sc hsc => ?_, List.pairwise_map.mp hpair, fun sc hsc => ?_,
    fun sc hsc => ?_⟩ <;> obtain ⟨sc0, h0, hid, hnode, hparent⟩ := mem_bare hb hsc
  · exact hid ▸ h.minted sc0 h0
  · exact hparent ▸ h.parents sc0 h0
  · exact hid ▸ hparent ▸ h.notOwn sc0 h0
  · exact hid ▸ hnode ▸ hparent ▸ h.noted sc0 h0

theorem mono_trace (h : ScopesOK g n trace scopes) {trace' : List Event} (hsub : trace ⊆ trace') :
    ScopesOK g n trace' scopes :=
  { h with noted := fun sc hsc => hsub (h.noted sc hsc) }

theorem append (h : ScopesOK g n trace scopes) (sc : Scope) (hid : sc.id = g.newID .scope (n + 1))
    (hparent : Ref g n sc.parentID) :
    ScopesOK g (n + 1) (.opened sc.id sc.nodeID sc.parentID :: trace) (scopes ++ [sc]) := by
  have hold : ∀ x ∈ scopes, x.id ≠ sc.id := fun x hx => hid ▸ (h.minted x hx).ne_next
  have hsplit : ∀ {x}, x ∈ scopes ++ [sc] → x ∈ scopes ∨ x = sc := by
    intro x hx
    simpa using hx
  refine ⟨fun x hx => ?_, ?_, fun x hx => ?_, ?_, fun x hx => ?_, fun x hx => ?_⟩
  · rcases hsplit hx with hx | rfl
    · exact (h.minted x hx).mono (Nat.le_succ n)
    · exact hid ▸ minted_self g .scope (n + 1)
  · rw [List.map_append, List.nodup_append]
    refine ⟨h.nodup, List.nodup_singleton _, ?_⟩
    intro a ha b hb
    obtain ⟨x, hx, rfl⟩ := List.mem_map.mp ha
    rw [List.map_singleton, List.mem_singleton] at hb
    exact hb ▸ hold x hx
  · rcases hsplit hx with hx | rfl
    · exact (h.parents x hx).mono (Nat.le_succ n)
    · exact hparent.mono (Nat.le_succ n)
  · rw [List.pairwise_append]
    refine ⟨h.ordered, List.pairwise_singleton _ _, ?_⟩
    intro a ha b hb
    rw [List.mem_singleton.mp hb, hid]
    exact (h.parents a ha).ne_next
  · rcases hsplit hx with hx | rfl
    · exact h.notOwn x hx
    · exact hid ▸ hparent.ne_next
  · rcases hsplit hx with hx | rfl
    · exact List.mem_cons_of_mem _ (h.noted x hx)
    · exact List.mem_cons_self

end ScopesOK

/-- Every opened scope has its own id, and so one node and one parent. -/
structure OpenedOK (g : IDGenerator) (n : Nat) (trace : List Event) : Prop where
  minted : ∀ {id node parent}, Event.opened id node parent ∈ trace → Minted g .scope n id
  unique : ∀ {id node parent node' parent'}, Event.opened id node parent ∈ trace →
    Event.opened id node' parent' ∈ trace → node = node' ∧ parent = parent'

namespace OpenedOK
variable {n : Nat} {trace trace' : List Event}

theorem of_iff (h : OpenedOK g n trace)
    (hiff : ∀ id node parent, Event.opened id node parent ∈ trace' → Event.opened id node parent ∈ trace) :
    OpenedOK g n trace' :=
  ⟨fun ho => h.minted (hiff _ _ _ ho), fun ho ho' => h.unique (hiff _ _ _ ho) (hiff _ _ _ ho')⟩

theorem cons (h : OpenedOK g n trace) (node parent : String) :
    OpenedOK g (n + 1) (.opened (g.newID .scope (n + 1)) node parent :: trace) := by
  have hold : ∀ {nd p}, Event.opened (g.newID .scope (n + 1)) nd p ∉ trace :=
    fun ho => (h.minted ho).ne_next rfl
  refine ⟨fun ho => ?_, fun ho ho' => ?_⟩
  · rcases List.mem_cons.mp ho with he | ho
    · obtain ⟨rfl, -, -⟩ := Event.opened.inj he
      exact minted_self g .scope (n + 1)
    · exact (h.minted ho).mono (Nat.le_succ n)
  · rcases List.mem_cons.mp ho with he | ho <;> rcases List.mem_cons.mp ho' with he' | ho'
    · obtain ⟨-, rfl, rfl⟩ := Event.opened.inj he
      obtain ⟨-, rfl, rfl⟩ := Event.opened.inj he'
      exact ⟨rfl, rfl⟩
    · obtain ⟨rfl, -, -⟩ := Event.opened.inj he
      exact absurd ho' hold
    · obtain ⟨rfl, -, -⟩ := Event.opened.inj he'
      exact absurd ho hold
    · exact h.unique ho ho'

end OpenedOK

/-! ## The state -/

structure Names (g : IDGenerator) (s : ControlState) : Prop where
  tokens : TokensOK g s.tokenSeq s.scopeSeq s.tokens
  queue : ∀ id ∈ s.deferredCompensationThrows, Minted g .token s.tokenSeq id
  scopes : ScopesOK g s.scopeSeq s.trace s.scopes
  opened : OpenedOK g s.scopeSeq s.trace
  resume : Ref g s.scopeSeq s.compensating.resumeScope

theorem names_init (g : IDGenerator) (inst : String) : Names g { instanceID := inst } where
  tokens := ⟨by simp, by simp, by simp⟩
  queue := by simp
  scopes := ⟨by simp, by simp, by simp, by simp, by simp, by simp⟩
  opened := ⟨by simp, by simp⟩
  resume := Or.inl rfl

/-- No scope is opened by the event. -/
def Event.OpensNothing : Event → Prop
  | .opened .. => False
  | _ => True

/-- The names of a state and what could bring new ones. -/
def ControlState.roster (s : ControlState) : List Token × List String × List Scope × Nat × Nat × List Event × String :=
  (s.tokens, s.deferredCompensationThrows, s.scopes.map Scope.bare, s.tokenSeq, s.scopeSeq, s.trace,
    s.compensating.resumeScope)

namespace Names
variable {s s' : ControlState}

/-- What the names of a state are made of: tokens and scopes may go, nothing is renamed and nothing is opened. -/
structure Shrinks (s s' : ControlState) : Prop where
  tokens : (s'.tokens.map Token.place).Sublist (s.tokens.map Token.place)
  queue : s'.deferredCompensationThrows ⊆ s.deferredCompensationThrows
  scopes : (s'.scopes.map Scope.bare).Sublist (s.scopes.map Scope.bare)
  tokenSeq : s'.tokenSeq = s.tokenSeq
  scopeSeq : s'.scopeSeq = s.scopeSeq
  trace : ∃ es, s'.trace = es ++ s.trace ∧ ∀ e ∈ es, e.OpensNothing
  resume : s'.compensating.resumeScope = "" ∨ s'.compensating.resumeScope = s.compensating.resumeScope

theorem Shrinks.refl (s : ControlState) : Shrinks s s where
  tokens := List.Sublist.refl _
  queue := List.Subset.refl _
  scopes := List.Sublist.refl _
  tokenSeq := rfl
  scopeSeq := rfl
  trace := ⟨[], rfl, by simp⟩
  resume := Or.inr rfl

theorem Shrinks.trans {s1 s2 s3 : ControlState} (h1 : Shrinks s1 s2) (h2 : Shrinks s2 s3) : Shrinks s1 s3 where
  tokens := h2.tokens.trans h1.tokens
  queue := List.Subset.trans h2.queue h1.queue
  scopes := h2.scopes.trans h1.scopes
  tokenSeq := h2.tokenSeq.trans h1.tokenSeq
  scopeSeq := h2.scopeSeq.trans h1.scopeSeq
  trace := by
    obtain ⟨es, he, hes⟩ := h1.trace
    obtain ⟨es', he', hes'⟩ := h2.trace
    refine ⟨es' ++ es, by rw [he', he, List.append_assoc], fun e hmem => ?_⟩
    rcases List.mem_append.mp hmem with hmem | hmem
    · exact hes' e hmem
    · exact hes e hmem
  resume := by
    rcases h2.resume with h | h
    · exact Or.inl h
    · rw [h]
      exact h1.resume

theorem of_shrinks (h : Names g s) (hs : Shrinks s s') : Names g s' := by
  obtain ⟨es, he, hes⟩ := hs.trace
  have hsub : s.trace ⊆ s'.trace := by
    rw [he]
    exact List.subset_append_right _ _
  have hopened : ∀ id node parent, Event.opened id node parent ∈ s'.trace → Event.opened id node parent ∈ s.trace := by
    intro id node parent ho
    rw [he] at ho
    rcases List.mem_append.mp ho with ho | ho
    · exact absurd (hes _ ho) (by simp [Event.OpensNothing])
    · exact ho
  have hbare : ScopesOK g s.scopeSeq s.trace (s.scopes.map Scope.bare) :=
    h.scopes.of_bare (by rw [List.map_map]; rfl)
  refine ⟨?_, ?_, ?_, ?_, ?_⟩
  · rw [hs.tokenSeq, hs.scopeSeq]
    exact h.tokens.of_places hs.tokens
  · rw [hs.tokenSeq]
    exact fun id hid => h.queue id (hs.queue hid)
  · rw [hs.scopeSeq]
    exact ((hbare.of_sublist hs.scopes).mono_trace hsub).of_bare (by rw [List.map_map]; rfl)
  · rw [hs.scopeSeq]
    exact h.opened.of_iff hopened
  · rw [hs.scopeSeq]
    rcases hs.resume with hr | hr
    · exact Or.inl hr
    · rw [hr]
      exact h.resume

/-! ## Operations -/

namespace Shrinks

/-- Everything the names are made of is the same. -/
theorem same (ht : s'.tokens = s.tokens) (hq : s'.deferredCompensationThrows = s.deferredCompensationThrows)
    (hsc : s'.scopes.map Scope.bare = s.scopes.map Scope.bare) (hn : s'.tokenSeq = s.tokenSeq)
    (hm : s'.scopeSeq = s.scopeSeq) (htr : s'.trace = s.trace)
    (hr : s'.compensating.resumeScope = s.compensating.resumeScope) : Shrinks s s' where
  tokens := ht ▸ List.Sublist.refl _
  queue := hq ▸ List.Subset.refl _
  scopes := hsc ▸ List.Sublist.refl _
  tokenSeq := hn
  scopeSeq := hm
  trace := ⟨[], htr, by simp⟩
  resume := Or.inr hr

theorem of_outline (h : s'.outline = s.outline) : Shrinks s s' := by
  have ho := sameOutline h
  exact same ho.tokens ho.queue ho.scopes ho.tokenSeq ho.scopeSeq ho.trace
    (congrArg CompensationCursor.resumeScope ho.compensating :)

theorem note (s : ControlState) (e : Event) (he : e.OpensNothing := by trivial) : Shrinks s (s.note e) :=
  { refl s with trace := ⟨[e], rfl, by simpa using he⟩ }

theorem thenNote {s1 : ControlState} (h : Shrinks s s1) {e : Event} (he : e.OpensNothing) : Shrinks s (s1.note e) :=
  h.trans (note s1 e he)

theorem thenSame {s1 : ControlState} (h : Shrinks s s1) (he : s'.roster = s1.roster) : Shrinks s s' := by
  obtain ⟨ht, hq, hsc, hn, hm, htr, hr⟩ := by simpa only [ControlState.roster, Prod.mk.injEq] using he
  exact h.trans (same ht hq hsc hn hm htr hr)

theorem filterTokens (s : ControlState) (p : Token → Bool) : Shrinks s { s with tokens := s.tokens.filter p } :=
  { refl s with tokens := List.filter_sublist.map _ }

theorem filterScopes (s : ControlState) (p : Scope → Bool) : Shrinks s { s with scopes := s.scopes.filter p } :=
  { refl s with scopes := List.filter_sublist.map _ }

theorem updateToken (s : ControlState) (id : String) (f : Token → Token)
    (hf : ∀ t ∈ s.tokens, t.id = id → (f t).id = t.id ∧ (f t).scopeID = t.scopeID) : Shrinks s (s.updateToken id f) := by
  have hplaces : (s.updateToken id f).tokens.map Token.place = s.tokens.map Token.place := by
    unfold ControlState.updateToken
    dsimp only
    rw [List.map_map]
    refine List.map_congr_left (fun t ht => ?_)
    simp only [Function.comp_apply]
    split
    · rename_i he
      obtain ⟨hid, hscope⟩ := hf t ht (by simpa using he)
      simp only [Token.place, hid, hscope]
    · rfl
  exact { refl s with tokens := hplaces ▸ List.Sublist.refl _ }

theorem setTokenState (s : ControlState) (id : String) (st : TokenState) : Shrinks s (s.setTokenState id st) :=
  updateToken s id _ (fun _ _ _ => ⟨rfl, rfl⟩)

theorem removeToken (s : ControlState) (id : String) : Shrinks s (s.removeToken id) := by
  obtain ⟨p, he, -⟩ := s.removeToken_shape id
  exact he ▸ filterTokens s p

theorem cancelToken (s : ControlState) (tok : Token) (at_ : Time) (kind : CloseKind) :
    Shrinks s (s.cancelToken tok at_ kind) := by
  rcases s.cancelToken_shape tok at_ kind with he | ⟨t, -, -, -, h, -, he⟩
  · rw [he]
    exact refl s
  · rw [he]
    have hfilter : Shrinks s { s with history := h, tokens := s.tokens.filter (fun t => t.id != tok.id) } :=
      { refl s with tokens := List.filter_sublist.map _ }
    exact hfilter.thenNote (by trivial)

theorem cancelListed (at_ : Time) (kind : CloseKind) (toks : List Token) (s : ControlState) :
    Shrinks s (s.cancelListed at_ kind toks) := by
  induction toks generalizing s with
  | nil => exact refl s
  | cons tok toks ih => exact (cancelToken s tok at_ kind).trans (ih _)

theorem closeScope (s : ControlState) (id : String) : Shrinks s (s.closeScope id) := by
  obtain ⟨p, he⟩ := s.closeScope_shape id
  exact he ▸ filterScopes s p

theorem sweep (h : Sweep s s') : Shrinks s s' := by
  cases h with
  | archive id => exact of_outline (s.archiveCompensations_outline id)
  | cancel tok at_ kind => exact cancelToken s tok at_ kind
  | consolidate => exact of_outline s.consolidate_outline

theorem sweeps (h : Sweeps s s') : Shrinks s s' := by
  induction h with
  | refl => exact refl s
  | tail _ hstep ih => exact ih.trans (sweep hstep)

theorem settled (s : ControlState) : Shrinks s s.settled := { refl s with resume := Or.inl rfl }

theorem setCursor (s : ControlState) (cur : CompensationCursor)
    (hr : cur.resumeScope = "" ∨ cur.resumeScope = s.compensating.resumeScope) :
    Shrinks s { s with compensating := cur } := { refl s with resume := hr }

theorem dispatch (s : ControlState) (cur : CompensationCursor) (idx : Int) (rec : CompensationRecord) (cmdID : String)
    (hr : cur.resumeScope = "" ∨ cur.resumeScope = s.compensating.resumeScope) :
    Shrinks s (s.dispatch cur idx rec cmdID) := by
  have hcur := setCursor s cur hr
  have hdrop := of_outline (consumeDispatchedRecord_outline { s with compensating := cur } idx)
  have hrecent : Shrinks s (({ s with compensating := cur }.consumeDispatchedRecord idx).recordCompensationDispatch cmdID) :=
    (hcur.trans hdrop).thenSame (by rfl)
  exact hrecent.thenNote (by trivial)

theorem beginWalk (g : IDGenerator) (s : ControlState) (o : CompensationOutcome) (at_ : Time) (rec : CompensationRecord) :
    Shrinks s (s.beginWalk g o at_ rec) :=
  { refl s with
    resume := Or.inl rfl
    trace := ⟨[.dispatched rec (s.nextCmdID g)], rfl, fun e he => by rw [List.mem_singleton.mp he]; trivial⟩ }

theorem endControl (s : ControlState) (st : Status) (err : String) : Shrinks s (s.endControl st err) := by
  have hst : Shrinks s { s with status := st } := (refl s).thenSame (by rfl)
  have hharvest := hst.trans (of_outline (harvest_outline { s with status := st }))
  have hnote := hharvest.thenNote (by trivial) (e := .ended st err s.compensating)
  exact { hnote with scopes := List.nil_sublist _, resume := Or.inl rfl }

theorem takePending (plan : FinishPlan) (s : ControlState) : Shrinks s (takePending plan s) := by
  have hflags : Shrinks s { s with pendingCancel := false, pendingFinalStatus := .running, pendingFinalErr := "" } :=
    (refl s).thenSame (by rfl)
  exact (hflags.trans (of_outline (applyPlanRecordClearing_outline plan _))).thenSame (by rfl)

theorem popOneDeferredThrow (s : ControlState) : Shrinks s s.popOneDeferredThrow := by
  unfold ControlState.popOneDeferredThrow
  split
  · exact refl s
  · rename_i tok rest hq
    have hrest : Shrinks s { s with deferredCompensationThrows := rest } :=
      { refl s with queue := hq ▸ List.subset_cons_self tok rest }
    dsimp only
    split
    · exact (hrest.trans (setTokenState _ _ _)).thenNote (by trivial)
    · exact hrest

theorem parkedOn {p : ControlState} {node : Node} {scopeID : String} (h : ParkedOn s p node scopeID) : Shrinks s p := by
  rcases h with rfl | ⟨tok, -, -, -, -, rfl⟩
  · exact refl p
  · exact setTokenState s _ _

end Shrinks

theorem placeTokenInScope (h : Names g s) (node scope flow : String) (at_ : Time) (hscope : Ref g s.scopeSeq scope) :
    Names g (s.placeTokenInScope g node scope flow at_) where
  tokens := h.tokens.append _ rfl hscope
  queue := fun id hid => (h.queue id hid).mono (Nat.le_succ _)
  scopes := h.scopes.mono_trace (List.subset_cons_self _ _)
  opened := h.opened.of_iff (fun id nd parent ho => by
    rcases List.mem_cons.mp ho with he | ho
    · cases he
    · exact ho)
  resume := h.resume

theorem openScope (h : Names g s) (node parent : String) (hparent : Ref g s.scopeSeq parent) :
    Names g (s.openScope g node parent).1 where
  tokens := h.tokens.mono_scopes (Nat.le_succ _)
  queue := h.queue
  scopes := h.scopes.append { id := g.newID .scope (s.scopeSeq + 1), nodeID := node, parentID := parent } rfl hparent
  opened := h.opened.cons node parent
  resume := h.resume.mono (Nat.le_succ _)

theorem deferCompensationThrow (h : Names g s) {tok : Token} (hmem : tok ∈ s.tokens) :
    Names g (s.deferCompensationThrow tok.id) := by
  have hset := h.of_shrinks (Shrinks.setTokenState s tok.id .waiting)
  refine { hset with queue := fun id hid => ?_ }
  rcases List.mem_append.mp hid with hid | hid
  · exact h.queue id hid
  · rw [List.mem_singleton.mp hid]
    exact h.tokens.minted tok hmem

theorem throwDispatch (h : Names g s) {tok : Token} (hmem : tok ∈ s.tokens) (at_ : Time) {cur : CompensationCursor}
    (rec : CompensationRecord) (cmdID : String) (hres : cur.resumeScope = tok.scopeID) :
    Names g (s.throwDispatch tok at_ cur rec cmdID) := by
  obtain ⟨v, -, he⟩ := s.consumeTokenAs_shape tok at_ .normal
  have hcons : Shrinks s (s.consumeTokenAs tok at_ .normal) := by
    rw [he]
    exact (Shrinks.removeToken s tok.id).thenSame (by rfl)
  have hm : (s.consumeTokenAs tok at_ .normal).scopeSeq = s.scopeSeq := hcons.scopeSeq
  have hbase : Names g { s.consumeTokenAs tok at_ .normal with status := .compensating, compensating := cur } := by
    refine { h.of_shrinks hcons with resume := ?_ }
    rw [hres, hm]
    exact h.tokens.scopes tok hmem
  exact hbase.of_shrinks (Shrinks.dispatch _ cur cur.nextIndex rec cmdID (Or.inr rfl))

theorem resumeControl (h : Names g s) (at_ : Time) (plan : FinishPlan) (hscope : Ref g s.scopeSeq plan.resumeScope) :
    Names g (resumeControl g at_ plan s) := by
  have hclear : Shrinks s ({ applyPlanRecordClearing plan s with status := .running }.note
      (.resumed plan.popDeferred s.deferredCompensationThrows)) :=
    Shrinks.thenNote ((Shrinks.of_outline (applyPlanRecordClearing_outline plan s)).thenSame (by rfl)) (by trivial)
  have h1 := h.of_shrinks hclear
  unfold Wrkflw.resumeControl
  dsimp only
  -- the token is placed unless its scope is gone, then one deferred throw is popped
  have h2 : ∀ b : Bool, Names g (if b then _ else _) := fun b => by
    cases b
    · exact h1.placeTokenInScope plan.resumeAt plan.resumeScope plan.resumeFlow at_ (hclear.scopeSeq ▸ hscope)
    · exact h1
  split
  · exact (h2 _).of_shrinks (Shrinks.popOneDeferredThrow _)
  · exact h2 _

end Names

/-! ## Moves -/

theorem finishPlan_resumeScope (s : ControlState) (cur : CompensationCursor) :
    (finishPlan s cur).resumeScope = "" ∨ (finishPlan s cur).resumeScope = cur.resumeScope := by
  unfold finishPlan
  cases cur.walkMode
  · exact Or.inl rfl
  · exact Or.inr rfl
  · exact Or.inr rfl
  · exact Or.inl rfl
  · exact Or.inl rfl

section Moves
variable {top : ProcessDefinition} {trg : TriggerBody} {s s' : ControlState}

open Names

/-- The state a finished walk's plan is applied to. -/
theorem Names.Shrinks.deleted (s : ControlState) (plan : FinishPlan) :
    Shrinks s (applyDeleteArchive plan s.settled) :=
  (Shrinks.settled s).trans (Shrinks.of_outline (applyDeleteArchive_outline plan _))

/-- A move that brings a new name, or a new place for an old one. -/
inductive Move.Grows (top : ProcessDefinition) (g : IDGenerator) (trg : TriggerBody) (s : ControlState) : ControlState → Prop
  | place (node scope flow : String) (at_ : Time) (hfwd : s.Forward) (hscope : s.ScopeRef g scope) :
      Grows top g trg s (s.placeTokenInScope g node scope flow at_)
  | openScope (node parent : String) (hfwd : s.Forward) (hparent : s.ScopeRef g parent)
      (hopens : Openable top s node parent) :
      Grows top g trg s (s.openScope g node parent).1
  | deferThrow (tok : Token) (hthrow : AtThrow top s tok) (hflight : s.InFlight) :
      Grows top g trg s (s.deferCompensationThrow tok.id)
  | throwWalk (tok : Token) (at_ : Time) (cur : CompensationCursor) (rec : CompensationRecord) (hmem : tok ∈ s.tokens)
      (hfwd : s.Forward) (hres : cur.resumeScope = tok.scopeID) :
      Grows top g trg s (s.mintCommand.throwDispatch tok at_ cur rec (s.nextCmdID g))
  | resume (cur : CompensationCursor) (at_ : Time) (hfin : Finishing trg s cur)
      (hres : (finishPlan s.settled cur).resume = true) (hscope : s.ScopeRef g cur.resumeScope) :
      Grows top g trg s (resumeControl g at_ (finishPlan s.settled cur)
        (applyDeleteArchive (finishPlan s.settled cur) s.settled))

theorem Move.shrinks_or_grows (hmove : Move top g trg s s') : Shrinks s s' ∨ Move.Grows top g trg s s' := by
  cases hmove with
  | book h n hh hn => exact Or.inl ((Shrinks.refl s).thenSame (by rfl))
  | place node scope flow at_ hfwd hscope => exact Or.inr (.place node scope flow at_ hfwd hscope)
  | touch id f hf =>
    refine Or.inl (Shrinks.updateToken s id f (fun t ht hid => ?_))
    exact ⟨(hf t ht hid).place.id, (hf t ht hid).place.scopeID⟩
  | leave id target scope flow f hmem hf =>
    have hupd := Shrinks.updateToken s id f (fun t ht hid => ⟨(hf t ht hid).id, (hf t ht hid).scopeID⟩)
    exact Or.inl (hupd.thenNote (by trivial))
  | pass tok hthrow => exact Or.inl ((Shrinks.refl s).thenNote (by trivial))
  | resolve tok f hmem hf =>
    have hnote : Shrinks s (s.note (.resolved tok s.deferredCompensationThrows)) := (Shrinks.refl s).thenNote (by trivial)
    exact Or.inl (hnote.trans (Shrinks.updateToken _ tok.id f (fun t _ _ => ⟨(hf t).1.id, (hf t).1.scopeID⟩)))
  | consume tok hmem hfree => exact Or.inl (Shrinks.removeToken s tok.id)
  | cancel tok at_ kind => exact Or.inl (Shrinks.cancelToken s tok at_ kind)
  | park p d node scopeID kind at_ hp hsite hkind hnone => exact Or.inl (Shrinks.parkedOn hp)
  | fireParallel p d node scopeID consumed hp hsite hmatch =>
    have hnote := (Shrinks.parkedOn hp).thenNote (by trivial) (e := .parallelFired scopeID node.id consumed)
    exact Or.inl (hnote.trans (Shrinks.filterTokens _ _))
  | fireInclusive p d node scopeID consumed hp hsite htok hsub hcons =>
    have hnote := (Shrinks.parkedOn hp).thenNote (by trivial)
      (e := .inclusiveFired scopeID node.id consumed p.tokens p.scopes p.compensating)
    exact Or.inl (hnote.trans (Shrinks.filterTokens _ _))
  | openScope node parent hfwd hparent hopens => exact Or.inr (.openScope node parent hfwd hparent hopens)
  | teardown scope =>
    exact Or.inl ((Shrinks.of_outline (s.archiveAll_outline _)).trans (Shrinks.closeScope _ scope))
  | interrupt scope =>
    have harch := Shrinks.of_outline (s.archiveAll_outline (s.subtreeIDs scope))
    exact Or.inl ((harch.trans (Shrinks.filterScopes _ _)).thenNote (by trivial))
  | exit scope enclosing hne htok hchild hhold =>
    have hnote := (Shrinks.refl s).thenNote (by trivial) (e := .exited scope enclosing s.tokens s.scopes s.compensating)
    have harch := hnote.trans (Shrinks.of_outline (ControlState.archiveCompensations_outline _ scope))
    exact Or.inl (harch.trans (Shrinks.closeScope _ scope))
  | record scope rec hfwd hhist =>
    refine Or.inl ?_
    unfold ControlState.recordCompensation
    split
    · exact Shrinks.thenNote ((Shrinks.refl s).thenSame (by rfl)) (by trivial)
    · split
      · exact Shrinks.refl s
      · exact (Shrinks.of_outline (s.setCompensations_outline _ _)).thenNote (by trivial)
  | sweep s' hidle hsweep => exact Or.inl (Shrinks.sweep hsweep)
  | deferThrow tok hthrow hflight => exact Or.inr (.deferThrow tok hthrow hflight)
  | throwWalk tok at_ cur rec hthrow hfwd hidle hcur =>
    exact Or.inr (.throwWalk tok at_ cur rec hthrow.mem hfwd hcur.resumeScope)
  | next rec hflight hans hpos hto hrec =>
    have hmint : Shrinks s s.mintCommand := (Shrinks.refl s).thenSame (by rfl)
    exact Or.inl (hmint.trans (Shrinks.dispatch _ _ _ _ _ (Or.inr rfl)))
  | again rec attempts hflight hrec htrg => exact Or.inl (Shrinks.thenNote ((Shrinks.refl s).thenSame (by rfl)) (by trivial))
  | retryLater timerID attempts hflight => exact Or.inl (Shrinks.setCursor s _ (Or.inr rfl))
  | pendCancel hflight hmode => exact Or.inl (Shrinks.thenNote ((Shrinks.refl s).thenSame (by rfl)) (by trivial))
  | pendFailure err hflight hfwd htok => exact Or.inl (Shrinks.thenNote ((Shrinks.refl s).thenSame (by rfl)) (by trivial))
  | begin at_ o rec hidle hclear hasked hrec => exact Or.inl (Shrinks.beginWalk g s o at_ rec)
  | resume cur at_ hfin hres hpend hscope => exact Or.inr (.resume cur at_ hfin hres hscope)
  | pendingWalk cur at_ p rec hfin hcons hpend hsweep hclear hrec =>
    have htake := (Shrinks.deleted s (finishPlan s.settled cur)).trans
      (Shrinks.takePending (finishPlan s.settled cur) _)
    exact Or.inl ((htake.trans (Shrinks.sweeps hsweep)).trans (Shrinks.beginWalk g p _ at_ rec))

theorem Move.names (hs : Names g s) (hmove : Move top g trg s s') : Names g s' := by
  rcases hmove.shrinks_or_grows with hsh | hgr
  · exact hs.of_shrinks hsh
  · cases hgr with
    | place node scope flow at_ hfwd hscope => exact hs.placeTokenInScope node scope flow at_ hscope
    | openScope node parent hfwd hparent hopens => exact hs.openScope node parent hparent
    | deferThrow tok hthrow hflight => exact hs.deferCompensationThrow hthrow.mem
    | throwWalk tok at_ cur rec hmem hfwd hres =>
      have hmint : Names g s.mintCommand := hs.of_shrinks ((Shrinks.refl s).thenSame (by rfl))
      exact hmint.throwDispatch hmem at_ rec _ hres
    | resume cur at_ hfin hres hscope =>
      have hdel := Shrinks.deleted s (finishPlan s.settled cur)
      refine (hs.of_shrinks hdel).resumeControl at_ _ ?_
      rw [hdel.scopeSeq]
      rcases finishPlan_resumeScope s.settled cur with h | h
      · exact Or.inl h
      · rw [h]
        exact hscope

/-- A way to end only takes away. -/
theorem End.shrinks (hend : End trg s s') : Shrinks s s' := by
  cases hend with
  | complete hlive hdrained => exact Shrinks.endControl s _ _
  | idle st err hlive hidle hst => exact Shrinks.endControl s _ _
  | childFailed err hlive htok => exact (Shrinks.note s _ (by trivial)).trans (Shrinks.endControl _ _ _)
  | forced outcome at_ err hlive htok =>
    have hnote := Shrinks.note s (.forced outcome s.pendingCancel) trivial
    exact (hnote.trans (Shrinks.cancelListed at_ .terminated s.tokens _)).trans (Shrinks.endControl _ _ _)
  | terminate cur hfin hmode =>
    have hclear := (Shrinks.settled s).trans (Shrinks.of_outline (s.settled.mapRecords_outline cur.scopeID (fun _ => [])))
    exact hclear.trans (Shrinks.endControl _ _ _)
  | abandon hflight hans hmode =>
    have hclear := (Shrinks.settled s).trans
      (Shrinks.of_outline (s.settled.mapRecords_outline s.compensating.scopeID (fun _ => [])))
    exact (hclear.trans (Shrinks.endControl _ _ _)).trans (Shrinks.of_outline (ControlState.mapRecords_outline _ _ _))
  | pending cur p hfin hcons hpend hsweep hclear hnone =>
    have htake := (Shrinks.deleted s (finishPlan s.settled cur)).trans
      (Shrinks.takePending (finishPlan s.settled cur) _)
    exact (htake.trans (Shrinks.sweeps hsweep)).trans (Shrinks.endControl _ _ _)

theorem End.names (hs : Names g s) (hend : End trg s s') : Names g s' := hs.of_shrinks hend.shrinks

end Moves

/-! ## The definition of a scope -/

section ScopeDefn
variable {top : ProcessDefinition} {g : IDGenerator} {trace trace' : List Event}

theorem ScopeDefn.mono {scope : String} (h : ScopeDefn top trace scope d) (hsub : trace ⊆ trace') :
    ScopeDefn top trace' scope d := by
  induction h with
  | root => exact .root
  | nested hopen _ hnode hspec ih => exact .nested (hsub hopen) ih hnode hspec

theorem Hosts.mono {node parent : String} (h : Hosts top trace node parent) (hsub : trace ⊆ trace') :
    Hosts top trace' node parent := by
  obtain ⟨d, n, activity, sub, hdefn, hnode, hspec⟩ := h
  exact ⟨d, n, activity, sub, hdefn.mono hsub, hnode, hspec⟩

theorem ScopeDefn.unique {n : Nat} (ho : OpenedOK g n trace) {scope : String} {d' : ProcessDefinition}
    (h : ScopeDefn top trace scope d) (h' : ScopeDefn top trace scope d') : d = d' := by
  induction h generalizing d' with
  | root =>
    cases h' with
    | root => rfl
    | nested hopen _ _ _ => exact absurd rfl (ho.minted hopen).ne_empty
  | @nested scope node parent d sub nd act hopen hparent hnode hspec ih =>
    cases h' with
    | root => exact absurd rfl (ho.minted hopen).ne_empty
    | nested hopen' hparent' hnode' hspec' =>
      obtain ⟨rfl, rfl⟩ := ho.unique hopen hopen'
      rw [ih hparent', hnode'] at hnode
      rw [Option.some.inj hnode, hspec] at hspec'
      injection hspec' with _ hsub
      exact Option.some.inj hsub

theorem defForScopeAux_defn {scopes : List Scope}
    (hnoted : ∀ sc ∈ scopes, Event.opened sc.id sc.nodeID sc.parentID ∈ trace) :
    ∀ {fuel : Nat} {scope : String} {d : ProcessDefinition}, defForScopeAux top scopes fuel scope = .ok d →
      ScopeDefn top trace scope d := by
  intro fuel
  induction fuel with
  | zero =>
    intro scope d h
    cases h
  | succ fuel ih =>
    intro scope d h
    unfold defForScopeAux at h
    split at h
    · rename_i hroot
      rw [← Except.ok.inj h, beq_iff_eq.mp hroot]
      exact .root
    · split at h
      · cases h
      · rename_i sc hfind
        have hmem := List.mem_of_find?_eq_some hfind
        have hid : sc.id = scope := by simpa using List.find?_some hfind
        split at h
        · cases h
        · rename_i parentDef hparent
          split at h
          · cases h
          · rename_i node hnode
            split at h
            · rename_i act sub hspec
              rw [← Except.ok.inj h, ← hid]
              exact .nested (hnoted sc hmem) (ih hparent) hnode hspec
            · cases h

theorem defForScope_defn {s : ControlState} (hn : Names g s) {scope : String}
    (h : defForScope top s.scopes scope = .ok d) : ScopeDefn top s.trace scope d :=
  defForScopeAux_defn hn.scopes.noted h

end ScopeDefn

end Wrkflw
