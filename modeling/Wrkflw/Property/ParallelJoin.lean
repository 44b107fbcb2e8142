import Wrkflw.Machine.Run
import Wrkflw.Definition.Validate

/-!
# The balance of a parallel join

Every token that crosses a flow into a converging parallel gateway is used by one firing, stands at the join or was
cancelled there.

* `matchJoin_some`, `matchJoin_none` : a join fires with one parked token for each incoming flow, as soon as there is one;
* `JoinBalance` : the balance, kept by every move; `parallel_join_balanced` : it holds in every state of a run in which
  only failed tokens are resolved.
-/

namespace Wrkflw

open ControlState

variable {assigned consumed : List Token} {t : Token} {fs : List FlowRef}

/-! ## Flow identities -/

theorem FlowRef.identity_ne_empty (r : FlowRef) : r.identity ≠ "" := by
  intro h
  have hlen := congrArg String.length h
  unfold FlowRef.identity at hlen
  rw [String.length_append, String.length_append] at hlen
  simp at hlen

theorem flowRefs_index_nodup (d : ProcessDefinition) : ((flowRefs d).map (·.index)).Nodup := by
  unfold flowRefs
  rw [List.map_map]
  have he : (FlowRef.index ∘ fun p : SequenceFlow × Nat => (⟨p.2, p.1⟩ : FlowRef)) = Prod.snd := rfl
  rw [he, List.zipIdx_map_snd]
  exact List.nodup_range'

/-- The flows into a node have identities of their own. -/
theorem incomingFlows_identity_nodup (d : ProcessDefinition) (node : String) :
    ((incomingFlows d node).map (·.identity)).Nodup := by
  have hidx : ((incomingFlows d node).map (·.index)).Nodup :=
    (List.filter_sublist.map _).nodup (flowRefs_index_nodup d)
  refine List.Nodup.map_on (fun r hr r' hr' he => ?_) (List.Nodup.of_map _ hidx)
  exact List.inj_on_of_nodup_map hidx hr hr' (Library.numbered_inj he).1

theorem incomingFlows_length (d : ProcessDefinition) (node : String) :
    (incomingFlows d node).length = (d.incoming node).length := by
  have hflows : (flowRefs d).map (·.flow) = d.flows := by
    unfold flowRefs
    rw [List.map_map]
    exact List.zipIdx_map_fst 0 d.flows
  have hfilter := List.filter_map (f := FlowRef.flow) (p := fun f => f.target == node) (l := flowRefs d)
  rw [hflows] at hfilter
  unfold ProcessDefinition.incoming incomingFlows
  rw [hfilter, List.length_map]
  rfl

/-! ## Matching -/

section Matching
variable {parked : List Token}

/-- One parked token for each flow: the first pass takes it. -/
def FitsFlow (f : FlowRef) (t : Token) : Bool := t.arrivalFlow == f.identity

theorem hasToken_iff {l : List Token} : hasToken l t = true ↔ ∃ a ∈ l, a.id = t.id := by
  unfold hasToken
  rw [List.any_eq_true]
  constructor
  · rintro ⟨a, ha, he⟩
    exact ⟨a, ha, by simpa using he⟩
  · rintro ⟨a, ha, he⟩
    exact ⟨a, ha, by simpa using he⟩

/-- What a pass that satisfies every flow has assigned. -/
theorem matchPass_done {fits : FlowRef → Token → Bool}
    (h : (matchPass parked fits fs assigned).2 = []) : ∃ l, (matchPass parked fits fs assigned).1 = assigned ++ l ∧
      List.Forall₂ (fun f t => fits f t = true) fs l ∧ (∀ t ∈ l, t ∈ parked) ∧
      ((assigned.map (·.id)).Nodup → ((assigned ++ l).map (·.id)).Nodup) := by
  induction fs generalizing assigned with
  | nil =>
    refine ⟨[], ?_, .nil, by simp, fun hn => by simpa using hn⟩
    rw [List.append_nil]
    rfl
  | cons f fs ih =>
    unfold matchPass at h ⊢
    split at h
    · rename_i t hfind
      have hprop := List.find?_some hfind
      rw [Bool.and_eq_true, Bool.not_eq_true'] at hprop
      obtain ⟨l, hl, hfits, hmem, hnodup⟩ := ih h
      refine ⟨t :: l, ?_, .cons hprop.2 hfits, fun a ha => ?_, fun hn => ?_⟩
      · rw [hl, List.append_assoc, List.singleton_append]
      · rcases List.mem_cons.mp ha with rfl | ha
        · exact List.mem_of_find?_eq_some hfind
        · exact hmem a ha
      · have hone : ((assigned ++ [t]).map (·.id)).Nodup := by
          rw [List.map_append, List.nodup_append]
          refine ⟨hn, List.nodup_singleton _, fun a ha b hb => ?_⟩
          rw [List.map_singleton, List.mem_singleton] at hb
          obtain ⟨t', ht', rfl⟩ := List.mem_map.mp ha
          intro he
          have hyes := hasToken_iff.mpr ⟨t', ht', he.trans hb⟩
          rw [hprop.1] at hyes
          cases hyes
        have hall := hnodup hone
        rw [List.append_assoc, List.singleton_append] at hall
        exact hall
    · cases h

/-- What the first pass leaves: no parked token came by a flow that is still unsatisfied, and what it assigned came by one
of the flows. -/
theorem matchPass_left (hids : (parked.map (·.id)).Nodup)
    (hnodup : (fs.map (·.identity)).Nodup) (hsub : ∀ t ∈ assigned, t ∈ parked)
    (hfree : ∀ t ∈ assigned, ∀ f ∈ fs, t.arrivalFlow ≠ f.identity) :
    (matchPass parked FitsFlow fs assigned).2.Sublist fs ∧
      (∀ f ∈ (matchPass parked FitsFlow fs assigned).2, ∀ t ∈ parked, t.arrivalFlow ≠ f.identity) ∧
      ∀ t ∈ (matchPass parked FitsFlow fs assigned).1, t ∈ assigned ∨
      (t ∈ parked ∧ ∃ f ∈ fs, t.arrivalFlow = f.identity) := by
  induction fs generalizing assigned with
  | nil => exact ⟨.slnil, by simp [matchPass], fun t ht => Or.inl ht⟩
  | cons f fs ih =>
    rw [List.map_cons, List.nodup_cons] at hnodup
    have hrest : ∀ t ∈ assigned, ∀ f' ∈ fs, t.arrivalFlow ≠ f'.identity := fun t ht f' hf' =>
      hfree t ht f' (List.mem_cons_of_mem _ hf')
    unfold matchPass
    cases hfind : parked.find? (fun t => !hasToken assigned t && FitsFlow f t) with
    | some t =>
      have hprop := List.find?_some hfind
      rw [Bool.and_eq_true] at hprop
      have hmem := List.mem_of_find?_eq_some hfind
      have hflow : t.arrivalFlow = f.identity := by simpa [FitsFlow] using hprop.2
      have hsub' : ∀ a ∈ assigned ++ [t], a ∈ parked := by
        intro a ha
        rcases List.mem_append.mp ha with ha | ha
        · exact hsub a ha
        · rw [List.mem_singleton.mp ha]
          exact hmem
      have hfree' : ∀ a ∈ assigned ++ [t], ∀ f' ∈ fs, a.arrivalFlow ≠ f'.identity := by
        intro a ha f' hf'
        rcases List.mem_append.mp ha with ha | ha
        · exact hrest a ha f' hf'
        · rw [List.mem_singleton.mp ha, hflow]
          intro he
          exact hnodup.1 (he ▸ List.mem_map_of_mem hf')
      obtain ⟨hsl, hleft, hgot⟩ := ih hnodup.2 hsub' hfree'
      refine ⟨hsl.cons _, hleft, fun a ha => ?_⟩
      rcases hgot a ha with ha | ⟨hp, f', hf', he⟩
      · rcases List.mem_append.mp ha with ha | ha
        · exact Or.inl ha
        · rw [List.mem_singleton.mp ha]
          exact Or.inr ⟨hmem, f, List.mem_cons_self, hflow⟩
      · exact Or.inr ⟨hp, f', List.mem_cons_of_mem _ hf', he⟩
    | none =>
      obtain ⟨hsl, hleft, hgot⟩ := ih hnodup.2 hsub hrest
      refine ⟨hsl.cons_cons _, fun f' hf' t ht hflow => ?_, fun a ha => ?_⟩
      · rcases List.mem_cons.mp hf' with rfl | hf'
        · -- the token is not taken: what is assigned came by other flows
          have htaken : hasToken assigned t = false := by
            by_contra hne
            rw [Bool.not_eq_false, hasToken_iff] at hne
            obtain ⟨a, ha, he⟩ := hne
            have heq : a = t := List.inj_on_of_nodup_map hids (hsub a ha) ht he
            exact hfree a ha f' List.mem_cons_self (heq ▸ hflow)
          exact List.find?_eq_none.mp hfind t ht (by simp [htaken, FitsFlow, hflow])
        · exact hleft f' hf' t ht hflow
      · rcases hgot a ha with ha | ⟨hp, f', hf', he⟩
        · exact Or.inl ha
        · exact Or.inr ⟨hp, f', List.mem_cons_of_mem _ hf', he⟩

/-- With a token for each flow the first pass satisfies every flow. -/
theorem matchPass_all (hids : (parked.map (·.id)).Nodup) (hnodup : (fs.map (·.identity)).Nodup)
    (hall : ∀ f ∈ fs, ∃ t ∈ parked, t.arrivalFlow = f.identity) : (matchPass parked FitsFlow fs []).2 = [] := by
  have hnone : ∀ t ∈ ([] : List Token), t ∈ parked := by simp
  obtain ⟨hsub, hleft, -⟩ := matchPass_left hids hnodup hnone (by simp)
  refine List.eq_nil_iff_forall_not_mem.mpr (fun f hf => ?_)
  obtain ⟨t, ht, hflow⟩ := hall f (hsub.subset hf)
  exact hleft f hf t ht hflow

/-- The second pass satisfies every flow left when there are tokens enough for any flow. -/
theorem matchPass_fills (hids : (parked.map (·.id)).Nodup) (fits : Token → Bool)
    (hcount : fs.length ≤ (parked.filter (fun t => !hasToken assigned t && fits t)).length) :
    (matchPass parked (fun _ t => fits t) fs assigned).2 = [] := by
  induction fs generalizing assigned with
  | nil => rfl
  | cons f fs ih =>
    have hsome : (parked.find? (fun t => !hasToken assigned t && fits t)).isSome = true := by
      rw [List.find?_isSome]
      obtain ⟨t, ht⟩ := List.exists_mem_of_length_pos (lt_of_lt_of_le (Nat.succ_pos _) hcount)
      exact ⟨t, List.mem_filter.mp ht⟩
    obtain ⟨t, hfind⟩ := Option.isSome_iff_exists.mp hsome
    have hmem := List.mem_of_find?_eq_some hfind
    unfold matchPass
    rw [hfind]
    refine ih ?_
    -- taking the token leaves all the others
    have hfree : parked.filter (fun a => !hasToken assigned a && fits a) ⊆
        t :: parked.filter (fun a => !hasToken (assigned ++ [t]) a && fits a) := by
      intro a ha
      obtain ⟨hp, hprop⟩ := List.mem_filter.mp ha
      rw [Bool.and_eq_true, Bool.not_eq_true'] at hprop
      by_cases he : t.id = a.id
      · exact List.mem_cons.mpr (Or.inl (List.inj_on_of_nodup_map hids hmem hp he).symm)
      · refine List.mem_cons_of_mem _ (List.mem_filter.mpr ⟨hp, ?_⟩)
        have hnot : hasToken (assigned ++ [t]) a = false := by
          by_contra hne
          rw [Bool.not_eq_false, hasToken_iff] at hne
          obtain ⟨b, hb, hid⟩ := hne
          rcases List.mem_append.mp hb with hb | hb
          · have hyes := hasToken_iff.mpr ⟨b, hb, hid⟩
            rw [hprop.1] at hyes
            cases hyes
          · exact he (List.mem_singleton.mp hb ▸ hid)
        simp [hnot, hprop.2]
    have hparked : parked.Nodup := List.Nodup.of_map _ hids
    have hle := (List.Nodup.subperm (hparked.filter _) hfree).length_le
    simp only [List.length_cons] at hle hcount
    omega

/-- No parked token lacks an arrival flow: the second pass finds nothing. -/
theorem matchPass_blank (hnone : ∀ t ∈ parked, t.arrivalFlow ≠ "") (fs : List FlowRef) (assigned : List Token) :
    matchPass parked (fun _ t => t.arrivalFlow == "") fs assigned = (assigned, fs) := by
  induction fs with
  | nil => rfl
  | cons f fs ih =>
    unfold matchPass
    have hfind : parked.find? (fun t => !hasToken assigned t && t.arrivalFlow == "") = none := by
      rw [List.find?_eq_none]
      intro t ht hb
      rw [Bool.and_eq_true, beq_iff_eq] at hb
      exact hnone t ht hb.2
    rw [hfind]
    dsimp only
    rw [ih]

end Matching

/-- The tokens are parked on the join, one for each flow into it. -/
structure OnePerFlow (d : ProcessDefinition) (node scope : String) (consumed : List Token) : Prop where
  flows : consumed.map (·.arrivalFlow) = (incomingFlows d node).map (·.identity)
  parked : ∀ t ∈ consumed, joinedAt t node scope = true
  ids : (consumed.map (·.id)).Nodup

section Matching
variable {d : ProcessDefinition} {tokens : List Token} {node scope : String}

theorem fits_flows {l : List Token} (h : List.Forall₂ (fun f t => FitsFlow f t = true) fs l) :
    l.map (·.arrivalFlow) = fs.map (·.identity) := by
  induction h with
  | nil => rfl
  | cons hfit _ ih =>
    rw [List.map_cons, List.map_cons, ih]
    unfold FitsFlow at hfit
    rw [beq_iff_eq.mp hfit]

theorem matchJoin_some
    (hflow : ∀ t ∈ tokens, joinedAt t node scope = true → t.arrivalFlow ≠ "")
    (h : matchJoinTokensToFlows d tokens node scope = some consumed) :
    OnePerFlow d node scope consumed ∧ ∀ t ∈ consumed, t ∈ tokens := by
  unfold matchJoinTokensToFlows at h
  set parked := tokens.filter (fun t => joinedAt t node scope) with hparked
  have hnone : ∀ t ∈ parked, t.arrivalFlow ≠ "" := by
    intro t ht
    obtain ⟨hmem, hjoin⟩ := List.mem_filter.mp ht
    exact hflow t hmem hjoin
  dsimp only at h
  rw [matchPass_blank hnone] at h
  split at h
  · rename_i hdone
    have hdone' : (matchPass parked FitsFlow (incomingFlows d node) []).2 = [] := List.isEmpty_iff.mp hdone
    obtain ⟨l, hl, hfits, hmem, hnodup⟩ := matchPass_done hdone'
    have hc : consumed = l := (Option.some.inj h).symm.trans hl
    subst hc
    refine ⟨⟨fits_flows hfits, fun t ht => ?_, by simpa using hnodup (by simp)⟩, fun t ht => ?_⟩
    · exact (List.mem_filter.mp (hmem t ht)).2
    · exact List.mem_of_mem_filter (hmem t ht)
  · cases h

theorem matchJoin_none (hids : (tokens.map (·.id)).Nodup) (h : matchJoinTokensToFlows d tokens node scope = none) :
    ∃ r ∈ incomingFlows d node, ∀ t ∈ tokens, joinedAt t node scope = true → t.arrivalFlow ≠ r.identity := by
  by_contra hno
  push Not at hno
  unfold matchJoinTokensToFlows at h
  set parked := tokens.filter (fun t => joinedAt t node scope) with hparked
  have hall : ∀ f ∈ incomingFlows d node, ∃ t ∈ parked, t.arrivalFlow = f.identity := by
    intro f hf
    obtain ⟨t, ht, hjoin, hflow⟩ := hno f hf
    exact ⟨t, List.mem_filter.mpr ⟨ht, hjoin⟩, hflow⟩
  have hdone : (matchPass parked FitsFlow (incomingFlows d node) []).2 = [] :=
    matchPass_all ((List.filter_sublist.map _).nodup hids) (incomingFlows_identity_nodup d node) hall
  dsimp only at h
  have hfirst : (matchPass parked (fun f t => t.arrivalFlow == f.identity) (incomingFlows d node) []).2 = [] := hdone
  rw [hfirst] at h
  cases h

end Matching

/-! ## The balance -/

/-- A token crosses the flow into the node, in the scope. -/
def Event.crosses (node scope flow : String) : Event → Bool
  | .arrived _ n sc fl => n == node && sc == scope && fl == flow
  | _ => false

/-- The parallel join at the node fires, in the scope. -/
def Event.firesAt (node scope : String) : Event → Bool
  | .parallelFired sc n _ => n == node && sc == scope
  | _ => false

/-- A token that crossed the flow stands at the node. -/
def Token.crossed (node scope flow : String) (t : Token) : Bool :=
  t.nodeID == node && t.scopeID == scope && t.arrivalFlow == flow

/-- A token that crossed the flow is cancelled at the node. -/
def Event.withdraws (node scope flow : String) : Event → Bool
  | .cancelled t _ _ => t.crossed node scope flow
  | _ => false

/-- The join of a scope, in a run with this trace: every token that reached it crossed a flow into it, and only failed
tokens were resolved. -/
structure JoinRun (top : ProcessDefinition) (g : IDGenerator) (trace : List Event) (d : ProcessDefinition)
    (node scope : String) : Prop where
  defn : ScopeDefn top trace scope d
  gateway : ∃ n, d.node node = some n ∧ n.kind = .parallelGateway
  converging : 1 < (d.incoming node).length
  opened : ∃ n, OpenedOK g n trace
  reached : ∀ tok flow, Event.arrived tok node scope flow ∈ trace → ∃ r ∈ incomingFlows d node, flow = r.identity
  resolved : ∀ tok queue, Event.resolved tok queue ∈ trace → tok.state = .incident

/-- A flow into the join has no parked token. -/
def Short (d : ProcessDefinition) (node scope : String) (tokens : List Token) : Prop :=
  ∃ r ∈ incomingFlows d node, ∀ t ∈ tokens, joinedAt t node scope = true → t.arrivalFlow ≠ r.identity

/-- What came to the join and what became of it. -/
structure JoinLedger (d : ProcessDefinition) (node scope : String) (s : ControlState) : Prop where
  /-- A token that crossed a flow was used by a firing, is at the join or was cancelled there. -/
  balance : ∀ r ∈ incomingFlows d node, s.trace.countP (Event.crosses node scope r.identity) =
    s.trace.countP (Event.firesAt node scope) + s.tokens.countP (Token.crossed node scope r.identity) +
      s.trace.countP (Event.withdraws node scope r.identity)
  /-- A firing takes one parked token for each flow. -/
  fired : ∀ consumed, Event.parallelFired scope node consumed ∈ s.trace → OnePerFlow d node scope consumed
  /-- The tokens at the join are parked or about to be. -/
  held : ∀ t ∈ s.tokens, t.nodeID = node → t.scopeID = scope → (t.state = .active ∨ t.state = .joining) ∧
    ∃ r ∈ incomingFlows d node, t.arrivalFlow = r.identity

/-- The balance of the join, which is never left with a parked token for each flow. -/
structure JoinBalance (d : ProcessDefinition) (node scope : String) (s : ControlState) : Prop
    extends JoinLedger d node scope s where
  short : Short d node scope s.tokens

/-- What the tokens wait for, with the queue of the throws. -/
structure WaitsOK (s : ControlState) : Prop where
  ok : ∀ t ∈ s.tokens, t.AwaitOK
  queued : ∀ t ∈ s.tokens, t.id ∈ s.deferredCompensationThrows → t.state = .waiting ∧ ¬ t.Awaits
  nodup : s.deferredCompensationThrows.Nodup

section Tokens
variable {l : List Token} {t0 : Token}

theorem filter_id_eq (hids : (l.map (·.id)).Nodup) (hmem : t0 ∈ l) : l.filter (fun t => t.id == t0.id) = [t0] := by
  have hnodup : (l.filter (fun t => t.id == t0.id)).Nodup := (List.Nodup.of_map _ hids).filter _
  refine List.perm_singleton.mp ((List.perm_ext_iff_of_nodup hnodup (List.nodup_singleton t0)).mpr (fun t => ?_))
  rw [List.mem_filter, List.mem_singleton]
  constructor
  · rintro ⟨ht, he⟩
    exact List.inj_on_of_nodup_map hids ht hmem (by simpa using he)
  · rintro rfl
    exact ⟨hmem, by simp⟩

/-- One token less. -/
theorem countP_remove (hids : (l.map (·.id)).Nodup) (hmem : t0 ∈ l) (P : Token → Bool) :
    l.countP P = (l.filter (fun t => t.id != t0.id)).countP P + (if P t0 then 1 else 0) := by
  have hsplit := List.countP_eq_countP_filter_add l P (fun t => t.id != t0.id)
  have hrest : l.filter (fun t => !(t.id != t0.id)) = [t0] := by
    have hb : (fun t : Token => !(t.id != t0.id)) = fun t => t.id == t0.id := by
      funext t
      rw [bne, Bool.not_not]
    rw [hb]
    exact filter_id_eq hids hmem
  rw [hrest, List.countP_singleton] at hsplit
  exact hsplit

/-- One token changed. -/
theorem countP_update (hids : (l.map (·.id)).Nodup) (hmem : t0 ∈ l) (f : Token → Token) (P : Token → Bool) :
    (l.map (fun t => if t.id == t0.id then f t else t)).countP P + (if P t0 then 1 else 0) =
      l.countP P + (if P (f t0) then 1 else 0) := by
  induction l with
  | nil => cases hmem
  | cons a l ih =>
    rw [List.map_cons, List.nodup_cons] at hids
    rw [List.map_cons, List.countP_cons, List.countP_cons]
    by_cases he : a.id = t0.id
    · -- the changed token is the first: the others are as they were
      have ha : a = t0 := by
        rcases List.mem_cons.mp hmem with h | h
        · exact h.symm
        · exact absurd (he ▸ List.mem_map_of_mem h) hids.1
      have hrest : l.map (fun t => if t.id == t0.id then f t else t) = l := by
        refine (List.map_congr_left (fun t ht => ?_)).trans (List.map_id l)
        rw [if_neg]
        · rfl
        · intro h
          have hid : t.id = t0.id := by simpa using h
          exact hids.1 (he.trans hid.symm ▸ List.mem_map_of_mem ht)
      have hhead : (if a.id == t0.id then f a else a) = f t0 := by
        rw [if_pos (by simpa using he), ha]
      rw [hrest, hhead, ha]
      omega
    · have hmem' : t0 ∈ l := by
        rcases List.mem_cons.mp hmem with h | h
        · exact absurd (h ▸ rfl) he
        · exact h
      have hhead : (if a.id == t0.id then f a else a) = a := if_neg (by simpa using he)
      rw [hhead]
      have hrest := ih hids.2 hmem'
      omega

end Tokens

/-! ## Moves -/

section Moves
variable {top d : ProcessDefinition} {g : IDGenerator} {trg : TriggerBody} {node scope : String} {T : List Event}
  {s s' : ControlState}

theorem WaitsOK.step (h : WaitsOK s) (htok : ∀ t ∈ s'.tokens, t ∈ s.tokens ∨
      (t.AwaitOK ∧ t.id ∉ s'.deferredCompensationThrows))
    (hq : s'.deferredCompensationThrows ⊆ s.deferredCompensationThrows) (hn : s'.deferredCompensationThrows.Nodup) :
    WaitsOK s' where
  ok := fun t ht => (htok t ht).elim (h.ok t) (·.1)
  queued := fun t ht hid => (htok t ht).elim (fun ht' => h.queued t ht' (hq hid)) (fun hno => absurd hid hno.2)
  nodup := hn

/-- The tokens parked on the join were there before, and what came to the join, was used or was cancelled there is
noted. -/
theorem JoinBalance.step (h : JoinBalance d node scope s)
    (htok : ∀ t ∈ s'.tokens, t ∈ s.tokens ∨ (t.state ≠ .joining ∧ (t.nodeID = node → t.scopeID = scope →
      t.state = .active ∧ ∃ r ∈ incomingFlows d node, t.arrivalFlow = r.identity)))
    (hfired : ∀ consumed, Event.parallelFired scope node consumed ∈ s'.trace →
      Event.parallelFired scope node consumed ∈ s.trace)
    (hbal : ∀ flow, s'.trace.countP (Event.crosses node scope flow) + (s.trace.countP (Event.firesAt node scope) +
        s.tokens.countP (Token.crossed node scope flow) + s.trace.countP (Event.withdraws node scope flow)) =
      s.trace.countP (Event.crosses node scope flow) + (s'.trace.countP (Event.firesAt node scope) +
        s'.tokens.countP (Token.crossed node scope flow) + s'.trace.countP (Event.withdraws node scope flow))) :
    JoinBalance d node scope s' where
  balance := fun r hr => by
    have hold := h.balance r hr
    have hnew := hbal r.identity
    omega
  fired := fun consumed hc => h.fired consumed (hfired consumed hc)
  held := fun t ht hnode hscope => by
    rcases htok t ht with ht | ht
    · exact h.held t ht hnode hscope
    · exact ⟨Or.inl (ht.2 hnode hscope).1, (ht.2 hnode hscope).2⟩
  short := by
    obtain ⟨r, hr, hno⟩ := h.short
    refine ⟨r, hr, fun t ht hjoin => ?_⟩
    rcases htok t ht with ht | ht
    · exact hno t ht hjoin
    · unfold joinedAt at hjoin
      simp only [Bool.and_eq_true, beq_iff_eq] at hjoin
      exact absurd hjoin.1.2 ht.1

/-- What is kept along the run. -/
structure Tally (d : ProcessDefinition) (node scope : String) (s : ControlState) : Prop where
  waits : WaitsOK s
  join : JoinBalance d node scope s

/-- The event is not about the tokens. -/
def Event.Idle : Event → Prop
  | .arrived .. | .parallelFired .. | .cancelled .. => False
  | _ => True

theorem Event.Idle.counts {es : List Event} (h : ∀ e ∈ es, e.Idle) (node scope flow : String) :
    es.countP (Event.crosses node scope flow) = 0 ∧ es.countP (Event.firesAt node scope) = 0 ∧
      es.countP (Event.withdraws node scope flow) = 0 := by
  refine ⟨?_, ?_, ?_⟩ <;> refine List.countP_eq_zero.mpr (fun e he => ?_) <;> have hidle := h e he <;> cases e <;>
    first | exact Bool.false_ne_true | exact absurd hidle id

/-- Nothing happens to the tokens. -/
structure Rests (s s' : ControlState) : Prop where
  tokens : s'.tokens = s.tokens
  queue : s'.deferredCompensationThrows = s.deferredCompensationThrows
  trace : ∃ es, s'.trace = es ++ s.trace ∧ ∀ e ∈ es, e.Idle

namespace Rests

theorem same (ht : s'.tokens = s.tokens) (hq : s'.deferredCompensationThrows = s.deferredCompensationThrows)
    (htr : s'.trace = s.trace) : Rests s s' := ⟨ht, hq, [], htr, by simp⟩

theorem refl (s : ControlState) : Rests s s := same rfl rfl rfl

theorem trans {s1 : ControlState} (h : Rests s s1) (h' : Rests s1 s') : Rests s s' := by
  obtain ⟨es, he, hes⟩ := h.trace
  obtain ⟨es', he', hes'⟩ := h'.trace
  refine ⟨h'.tokens.trans h.tokens, h'.queue.trans h.queue, es' ++ es, by rw [he', he, List.append_assoc], fun e hmem => ?_⟩
  rcases List.mem_append.mp hmem with hmem | hmem
  · exact hes' e hmem
  · exact hes e hmem

theorem note {s1 : ControlState} (h : Rests s s1) {e : Event} (he : e.Idle) : Rests s (s1.note e) := by
  refine h.trans ⟨rfl, rfl, [e], rfl, fun e' hmem => ?_⟩
  rw [List.mem_singleton.mp hmem]
  exact he

theorem of_outline (h : s'.outline = s.outline) : Rests s s' :=
  same (sameOutline h).tokens (sameOutline h).queue (sameOutline h).trace

theorem closeScope (s : ControlState) (id : String) : Rests s (s.closeScope id) := by
  obtain ⟨p, he⟩ := s.closeScope_shape id
  rw [he]
  exact same rfl rfl rfl

theorem dispatch (s : ControlState) (cur : CompensationCursor) (idx : Int) (rec : CompensationRecord) (cmdID : String) :
    Rests s (s.dispatch cur idx rec cmdID) := by
  have ho := sameOutline (dispatch_outline s cur idx rec cmdID)
  refine ⟨ho.tokens, ho.queue, [.dispatched rec cmdID], ho.trace, fun e he => ?_⟩
  rw [List.mem_singleton.mp he]
  trivial

theorem beginWalk (g : IDGenerator) (s : ControlState) (o : CompensationOutcome) (at_ : Time) (rec : CompensationRecord) :
    Rests s (s.beginWalk g o at_ rec) := by
  refine ⟨rfl, rfl, [.dispatched rec (s.nextCmdID g)], rfl, fun e he => ?_⟩
  rw [List.mem_singleton.mp he]
  trivial

theorem endControl (s : ControlState) (st : Status) (err : String) : Rests s (s.endControl st err) := by
  have hst : Rests s { s with status := st } := same rfl rfl rfl
  have hharvest := hst.trans (of_outline (harvest_outline { s with status := st }))
  exact (hharvest.note (e := .ended st err s.compensating) trivial).trans (same rfl rfl rfl)

theorem deleted (s : ControlState) (plan : FinishPlan) : Rests s (applyDeleteArchive plan s.settled) := by
  have hsettled : Rests s s.settled := same rfl rfl rfl
  exact hsettled.trans (of_outline (applyDeleteArchive_outline plan _))

theorem takePending (plan : FinishPlan) (s : ControlState) : Rests s (takePending plan s) := by
  have hflags : Rests s { s with pendingCancel := false, pendingFinalStatus := .running, pendingFinalErr := "" } :=
    same rfl rfl rfl
  exact (hflags.trans (of_outline (applyPlanRecordClearing_outline plan _))).trans (same rfl rfl rfl)

end Rests

theorem Tally.rests (h : Tally d node scope s) (hr : Rests s s') : Tally d node scope s' := by
  obtain ⟨es, he, hes⟩ := hr.trace
  refine ⟨h.waits.step (fun t ht => Or.inl (hr.tokens ▸ ht)) (hr.queue ▸ List.Subset.refl _) (hr.queue ▸ h.waits.nodup),
    h.join.step (fun t ht => Or.inl (hr.tokens ▸ ht)) (fun consumed hc => ?_) (fun flow => ?_)⟩
  · rw [he, List.mem_append] at hc
    exact hc.elim (fun hc => absurd (hes _ hc) id) id
  · obtain ⟨h1, h2, h3⟩ := Event.Idle.counts hes node scope flow
    rw [he, hr.tokens, List.countP_append, List.countP_append, List.countP_append, h1, h2, h3]
    omega

/-! ### Who may leave -/

theorem Token.AwaitOK.of_lone (h : ¬ t.Awaits) : t.AwaitOK := by
  unfold Token.Awaits at h
  push Not at h
  exact ⟨fun _ hno => hno.elim (absurd h.1) (fun hno => hno.elim (absurd h.2.1) (absurd h.2.2)), fun _ => h.2,
    fun hne => absurd h.2.1 hne⟩

/-- The scope's definition is the one the join is in. -/
theorem JoinRun.defn_eq (hrun : JoinRun top g T d node scope) (hn : Names g s) (hT : s.trace ⊆ T) {d' : ProcessDefinition}
    (h : defForScope top s.scopes scope = .ok d') : d' = d := by
  obtain ⟨n, ho⟩ := hrun.opened
  exact ScopeDefn.unique ho ((defForScope_defn hn h).mono hT) hrun.defn

theorem JoinRun.converges (hrun : JoinRun top g T d node scope) : Converging d node := by
  obtain ⟨n, hn, hkind⟩ := hrun.gateway
  exact ⟨n, hn, Or.inl hkind, hrun.converging⟩

/-- A token at the join waits for nothing. -/
theorem Tally.silent (h : Tally d node scope s) (ht : t ∈ s.tokens) (hnode : t.nodeID = node)
    (hscope : t.scopeID = scope) : ¬ t.Awaits := (h.waits.ok t ht).quiet (h.join.held t ht hnode hscope).1

/-- A token that may leave its node is not at the join. -/
theorem JoinRun.not_free (hrun : JoinRun top g T d node scope) (hn : Names g s) (hT : s.trace ⊆ T)
    (h : Tally d node scope s) (ht : t ∈ s.tokens) (hfree : Free top s t) :
    ¬ (t.nodeID = node ∧ t.scopeID = scope) := by
  rintro ⟨hnode, hscope⟩
  rcases hfree with hawaits | ⟨-, d', hdef, hconv, -⟩
  · exact h.silent ht hnode hscope hawaits
  · rw [hscope] at hdef
    rw [hrun.defn_eq hn hT hdef, hnode] at hconv
    exact hconv hrun.converges

theorem WaitsOK.not_queued (h : WaitsOK s) (ht : t ∈ s.tokens) (hfree : t.Awaits ∨ t.state ≠ .waiting) :
    t.id ∉ s.deferredCompensationThrows := by
  intro hid
  obtain ⟨hst, hno⟩ := h.queued t ht hid
  exact hfree.elim hno (absurd hst)

theorem Free.cases (h : Free top s t) : t.Awaits ∨ t.state ≠ .waiting := by
  rcases h with h | ⟨h, -⟩
  · exact Or.inl h
  · refine Or.inr ?_
    rw [h]
    simp

/-- A token on a compensation throw is not at the join. -/
theorem JoinRun.not_throw (hrun : JoinRun top g T d node scope) (hn : Names g s) (hT : s.trace ⊆ T) {tok : Token}
    (hthrow : AtThrow top s tok) : ¬ (tok.nodeID = node ∧ tok.scopeID = scope) := by
  rintro ⟨hnode, hscope⟩
  obtain ⟨d', hdef, n, e, hfind, hspec⟩ := hthrow.node
  rw [hscope] at hdef
  rw [hrun.defn_eq hn hT hdef, hnode] at hfind
  obtain ⟨n', hfind', hkind⟩ := hrun.gateway
  rw [hfind] at hfind'
  rw [← Option.some.inj hfind'] at hkind
  unfold NodeOf.kind at hkind
  rw [hspec] at hkind
  cases hkind

/-! ### Tokens come and go -/

theorem Tally.place (hrun : JoinRun top g T d node scope) (hn : Names g s) (h : Tally d node scope s)
    (n sc flow : String) (at_ : Time) (hT : (s.placeTokenInScope g n sc flow at_).trace ⊆ T) :
    Tally d node scope (s.placeTokenInScope g n sc flow at_) := by
  set t : Token :=
    { id := g.newID .token (s.tokenSeq + 1), nodeID := n, scopeID := sc, enteredAt := at_, arrivalFlow := flow } with ht
  have htok : (s.placeTokenInScope g n sc flow at_).tokens = s.tokens ++ [t] := rfl
  have htr : (s.placeTokenInScope g n sc flow at_).trace = .arrived t.id n sc flow :: s.trace := rfl
  have hmem : ∀ t' ∈ (s.placeTokenInScope g n sc flow at_).tokens, t' ∈ s.tokens ∨ t' = t := by
    intro t' ht'
    rw [htok] at ht'
    simpa using ht'
  refine ⟨h.waits.step (fun t' ht' => (hmem t' ht').imp_right (fun he => ?_)) (List.Subset.refl _) h.waits.nodup,
    h.join.step (fun t' ht' => (hmem t' ht').imp_right (fun he => ?_)) (fun consumed hc => ?_) (fun fl => ?_)⟩
  · rw [he]
    exact ⟨Token.AwaitOK.of_lone (by simp [Token.Awaits, ht]), fun hid => (hn.queue _ hid).ne_next rfl⟩
  · rw [he]
    refine ⟨by simp [ht], fun hnode hscope => ⟨rfl, ?_⟩⟩
    have harr : Event.arrived t.id node scope flow ∈ T := by
      refine hT ?_
      rw [htr, ← hnode, ← hscope]
      exact List.mem_cons_self
    exact hrun.reached _ _ harr
  · rw [htr] at hc
    rcases List.mem_cons.mp hc with he | hc
    · cases he
    · exact hc
  · have hcross : Event.crosses node scope fl (.arrived t.id n sc flow) = Token.crossed node scope fl t := rfl
    rw [htok, htr, List.countP_cons, List.countP_cons_of_neg Bool.false_ne_true,
      List.countP_cons_of_neg Bool.false_ne_true, List.countP_append, List.countP_singleton, hcross]
    omega

/-- One token changed its wait, its place or both; it was not at the join. -/
theorem Tally.change (hn : Names g s) (h : Tally d node scope s) {t0 : Token} (hmem : t0 ∈ s.tokens) {f : Token → Token}
    (hid : (f t0).id = t0.id) (hq : t0.id ∉ s.deferredCompensationThrows) (hok : (f t0).AwaitOK)
    (hout : ¬ (t0.nodeID = node ∧ t0.scopeID = scope)) (hjoin : (f t0).state ≠ .joining)
    (hin : (f t0).nodeID = node → (f t0).scopeID = scope →
      (f t0).state = .active ∧ ∃ r ∈ incomingFlows d node, (f t0).arrivalFlow = r.identity)
    (htok : s'.tokens = s.tokens.map (fun t => if t.id == t0.id then f t else t))
    (hqueue : s'.deferredCompensationThrows = s.deferredCompensationThrows)
    (htr : (s'.trace = s.trace ∧ ¬ ((f t0).nodeID = node ∧ (f t0).scopeID = scope)) ∨
      s'.trace = .arrived t0.id (f t0).nodeID (f t0).scopeID (f t0).arrivalFlow :: s.trace) : Tally d node scope s' := by
  have hids := hn.tokens.nodup
  have hall : ∀ t ∈ s'.tokens, t ∈ s.tokens ∨ t = f t0 := by
    intro t ht
    rw [htok] at ht
    obtain ⟨t', ht', rfl⟩ := List.mem_map.mp ht
    by_cases he : t'.id = t0.id
    · rw [List.inj_on_of_nodup_map hids ht' hmem he, if_pos (by simp)]
      exact Or.inr rfl
    · rw [if_neg (by simpa using he)]
      exact Or.inl ht'
  have hgone : ∀ flow, Token.crossed node scope flow t0 = false := by
    intro flow
    unfold Token.crossed
    by_contra hne
    simp only [Bool.not_eq_false, Bool.and_eq_true, beq_iff_eq] at hne
    exact hout hne.1
  refine ⟨h.waits.step (fun t ht => (hall t ht).imp_right (fun he => ?_)) (hqueue ▸ List.Subset.refl _)
      (hqueue ▸ h.waits.nodup), h.join.step (fun t ht => (hall t ht).imp_right (fun he => ?_)) (fun consumed hc => ?_)
      (fun flow => ?_)⟩
  · rw [he, hqueue, hid]
    exact ⟨hok, hq⟩
  · rw [he]
    exact ⟨hjoin, hin⟩
  · rcases htr with ⟨htr, -⟩ | htr
    · exact htr ▸ hc
    · rw [htr] at hc
      rcases List.mem_cons.mp hc with he | hc
      · cases he
      · exact hc
  · have hcount := countP_update hids hmem f (Token.crossed node scope flow)
    rw [hgone flow, if_neg Bool.false_ne_true, Nat.add_zero, ← htok] at hcount
    rcases htr with ⟨htr, hno⟩ | htr
    · have hnot : Token.crossed node scope flow (f t0) = false := by
        unfold Token.crossed
        by_contra hne
        simp only [Bool.not_eq_false, Bool.and_eq_true, beq_iff_eq] at hne
        exact hno hne.1
      rw [hnot, if_neg Bool.false_ne_true] at hcount
      rw [htr, hcount]
      omega
    · have hcross : Event.crosses node scope flow (.arrived t0.id (f t0).nodeID (f t0).scopeID (f t0).arrivalFlow) =
          Token.crossed node scope flow (f t0) := rfl
      rw [htr, List.countP_cons, List.countP_cons_of_neg Bool.false_ne_true,
        List.countP_cons_of_neg Bool.false_ne_true, hcross, hcount]
      omega

/-- A token goes that was not at the join, or is cancelled. -/
theorem Tally.remove (hn : Names g s) (h : Tally d node scope s) {t0 : Token} (hmem : t0 ∈ s.tokens)
    (htok : s'.tokens = s.tokens.filter (fun t => t.id != t0.id))
    (hqueue : s'.deferredCompensationThrows = s.deferredCompensationThrows)
    (htr : (s'.trace = s.trace ∧ ¬ (t0.nodeID = node ∧ t0.scopeID = scope)) ∨
      ∃ queue walking, s'.trace = .cancelled t0 queue walking :: s.trace) : Tally d node scope s' := by
  have hall : ∀ t ∈ s'.tokens, t ∈ s.tokens := by
    intro t ht
    rw [htok] at ht
    exact List.mem_of_mem_filter ht
  refine ⟨h.waits.step (fun t ht => Or.inl (hall t ht)) (hqueue ▸ List.Subset.refl _) (hqueue ▸ h.waits.nodup),
    h.join.step (fun t ht => Or.inl (hall t ht)) (fun consumed hc => ?_) (fun flow => ?_)⟩
  · rcases htr with ⟨htr, -⟩ | ⟨queue, walking, htr⟩
    · exact htr ▸ hc
    · rw [htr] at hc
      rcases List.mem_cons.mp hc with he | hc
      · cases he
      · exact hc
  · have hcount := countP_remove hn.tokens.nodup hmem (Token.crossed node scope flow)
    rw [← htok] at hcount
    rcases htr with ⟨htr, hno⟩ | ⟨queue, walking, htr⟩
    · have hnot : Token.crossed node scope flow t0 = false := by
        unfold Token.crossed
        by_contra hne
        simp only [Bool.not_eq_false, Bool.and_eq_true, beq_iff_eq] at hne
        exact hno hne.1
      rw [hnot, if_neg Bool.false_ne_true] at hcount
      rw [htr, hcount]
      omega
    · have hwith : Event.withdraws node scope flow (.cancelled t0 queue walking) = Token.crossed node scope flow t0 := rfl
      rw [htr, List.countP_cons_of_neg Bool.false_ne_true, List.countP_cons_of_neg Bool.false_ne_true, List.countP_cons,
        hwith, hcount]
      omega

theorem Tally.cancelToken (hn : Names g s) (h : Tally d node scope s) (tok : Token) (at_ : Time) (kind : CloseKind) :
    Tally d node scope (s.cancelToken tok at_ kind) := by
  rcases s.cancelToken_shape tok at_ kind with he | ⟨t, ht, hid, -, hist, -, he⟩
  · rw [he]
    exact h
  · rw [he]
    refine h.remove hn ht ?_ rfl (Or.inr ⟨_, _, rfl⟩)
    rw [hid]

theorem Tally.sweeps (hn : Names g s) (h : Tally d node scope s) (hsweep : Sweeps s s') : Tally d node scope s' := by
  induction hsweep with
  | refl => exact h
  | tail hpre hstep ih =>
    have hmid := hn.of_shrinks (Names.Shrinks.sweeps hpre)
    cases hstep with
    | archive id => exact ih.rests (Rests.of_outline (ControlState.archiveCompensations_outline _ id))
    | cancel tok at_ kind => exact ih.cancelToken hmid tok at_ kind
    | consolidate => exact ih.rests (Rests.of_outline (ControlState.consolidate_outline _))

/-- A throw's token waits for its turn. -/
theorem Tally.defer (hrun : JoinRun top g T d node scope) (hn : Names g s) (hT : s.trace ⊆ T) (h : Tally d node scope s)
    {tok : Token} (hthrow : AtThrow top s tok) : Tally d node scope (s.deferCompensationThrow tok.id) := by
  have hout := hrun.not_throw hn hT hthrow
  have hlone : ¬ tok.Awaits := (h.waits.ok tok hthrow.mem).quiet (Or.inl hthrow.active)
  have hq : tok.id ∉ s.deferredCompensationThrows := by
    refine h.waits.not_queued hthrow.mem (Or.inr ?_)
    rw [hthrow.active]
    simp
  have hset : Tally d node scope (s.setTokenState tok.id .waiting) :=
    h.change hn hthrow.mem (f := fun t => { t with state := .waiting }) rfl hq (Token.AwaitOK.of_lone hlone) hout (by simp)
      (fun hnode hscope => absurd ⟨hnode, hscope⟩ hout) rfl rfl (Or.inl ⟨rfl, hout⟩)
  refine ⟨⟨hset.waits.ok, fun t ht hid => ?_, ?_⟩, hset.join.step (fun t ht => Or.inl ht) (fun _ hc => hc) (fun _ => rfl)⟩
  · rcases List.mem_append.mp hid with hid | hid
    · exact hset.waits.queued t ht hid
    · obtain ⟨t', ht', rfl⟩ := List.mem_map.mp ht
      by_cases he : t'.id = tok.id
      · rw [if_pos (by simpa using he), List.inj_on_of_nodup_map hn.tokens.nodup ht' hthrow.mem he]
        exact ⟨rfl, hlone⟩
      · rw [if_neg (by simpa using he)] at hid ⊢
        exact absurd (List.mem_singleton.mp hid) he
  · change (s.deferredCompensationThrows ++ [tok.id]).Nodup
    rw [List.nodup_append]
    refine ⟨h.waits.nodup, List.nodup_singleton _, fun a ha b hb hab => ?_⟩
    rw [List.mem_singleton.mp hb] at hab
    exact hq (hab ▸ ha)

/-- The next queued throw is taken up again. -/
theorem Tally.pop (hn : Names g s) (h : Tally d node scope s) : Tally d node scope s.popOneDeferredThrow := by
  unfold ControlState.popOneDeferredThrow
  split
  · exact h
  · rename_i id rest hq
    have hnodup : (id :: rest).Nodup := hq ▸ h.waits.nodup
    have hrest : Tally d node scope { s with deferredCompensationThrows := rest } :=
      ⟨h.waits.step (fun t ht => Or.inl ht) (hq ▸ List.subset_cons_self id rest) (List.nodup_cons.mp hnodup).2,
        h.join.step (fun t ht => Or.inl ht) (fun _ hc => hc) (fun _ => rfl)⟩
    dsimp only
    split
    · rename_i t hfind
      obtain ⟨hmem, hid, -⟩ := tokenByID_some _ hfind
      have hmem' : t ∈ s.tokens := hmem
      have hwait := h.waits.queued t hmem' (by rw [hq, hid]; exact List.mem_cons_self)
      have hout : ¬ (t.nodeID = node ∧ t.scopeID = scope) := by
        rintro ⟨hnode, hscope⟩
        have hst := (h.join.held t hmem' hnode hscope).1
        rw [hwait.1] at hst
        rcases hst with hst | hst <;> cases hst
      have hn' : Names g { s with deferredCompensationThrows := rest } :=
        ⟨hn.tokens, fun i hi => hn.queue i (hq ▸ List.mem_cons_of_mem id hi), hn.scopes, hn.opened, hn.resume⟩
      have hset : Tally d node scope
        (({ s with deferredCompensationThrows := rest } : ControlState).setTokenState t.id .active) :=
        hrest.change hn' hmem (f := fun t => { t with state := .active }) rfl
          (fun hin => (List.nodup_cons.mp hnodup).1 (hid ▸ hin)) (Token.AwaitOK.of_lone hwait.2) hout (by simp)
          (fun hnode hscope => absurd ⟨hnode, hscope⟩ hout) rfl rfl (Or.inl ⟨rfl, hout⟩)
      exact hset.rests ((Rests.refl _).note trivial)
    · exact hrest

/-! ### The joins -/

/-- An active token parks on a join. -/
theorem Tally.parkedOn (hn : Names g s) (h : Tally d node scope s) {p : ControlState} {n : Node} {sc : String}
    (hp : ParkedOn s p n sc) : WaitsOK p ∧ JoinLedger d node scope p := by
  rcases hp with rfl | ⟨tok, hmem, hactive, hnode, hscope, rfl⟩
  · exact ⟨h.waits, h.join.toJoinLedger⟩
  · have hlone : ¬ tok.Awaits := (h.waits.ok tok hmem).quiet (Or.inl hactive)
    have hq : tok.id ∉ s.deferredCompensationThrows := by
      refine h.waits.not_queued hmem (Or.inr ?_)
      rw [hactive]
      simp
    have hall : ∀ t ∈ (s.setTokenState tok.id .joining).tokens, t ∈ s.tokens ∨ t = { tok with state := .joining } := by
      intro t ht
      obtain ⟨t', ht', rfl⟩ := List.mem_map.mp ht
      by_cases he : t'.id = tok.id
      · rw [List.inj_on_of_nodup_map hn.tokens.nodup ht' hmem he, if_pos (by simp)]
        exact Or.inr rfl
      · rw [if_neg (by simpa using he)]
        exact Or.inl ht'
    refine ⟨h.waits.step (fun t ht => (hall t ht).imp_right (fun he => ?_)) (List.Subset.refl _) h.waits.nodup,
      ⟨fun r hr => ?_, h.join.fired, fun t ht hnode' hscope' => ?_⟩⟩
    · rw [he]
      exact ⟨Token.AwaitOK.of_lone hlone, hq⟩
    · have hcount := countP_update hn.tokens.nodup hmem (fun t => { t with state := .joining })
        (Token.crossed node scope r.identity)
      have hsame : Token.crossed node scope r.identity { tok with state := .joining } =
          Token.crossed node scope r.identity tok := rfl
      rw [hsame] at hcount
      have hold := h.join.balance r hr
      change s.trace.countP _ = s.trace.countP _ + (s.tokens.map (fun t => if t.id == tok.id then
        { t with state := .joining } else t)).countP _ + s.trace.countP _
      omega
    · rcases hall t ht with ht | rfl
      · exact h.join.held t ht hnode' hscope'
      · exact ⟨Or.inr rfl, (h.join.held tok hmem hnode' hscope').2⟩

/-- A token that parks on another join leaves this one short. -/
theorem Short.parkedOn (h : Short d node scope s.tokens) {p : ControlState} {n : Node} {sc : String}
    (hp : ParkedOn s p n sc) (hne : ¬ (n.id = node ∧ sc = scope)) (hids : (s.tokens.map (·.id)).Nodup) :
    Short d node scope p.tokens := by
  obtain ⟨r, hr, hno⟩ := h
  refine ⟨r, hr, fun t ht hjoin => ?_⟩
  rcases hp with rfl | ⟨tok, hmem, hactive, hnode, hscope, rfl⟩
  · exact hno t ht hjoin
  · obtain ⟨t', ht', rfl⟩ := List.mem_map.mp ht
    by_cases he : t'.id = tok.id
    · rw [List.inj_on_of_nodup_map hids ht' hmem he, if_pos (by simp)] at hjoin
      obtain ⟨hjn, -, hjs⟩ := joinedAt_iff.mp hjoin
      exact absurd ⟨hnode.symm.trans hjn, hscope.symm.trans hjs⟩ hne
    · rw [if_neg (by simpa using he)] at hjoin ⊢
      exact hno t' ht' hjoin

/-- Another join fires. -/
theorem Tally.firesElsewhere {p : ControlState} (h : Tally d node scope p) {n sc : String} {e : Event}
    (hne : ¬ (n = node ∧ sc = scope)) (hcross : ∀ flow, e.crosses node scope flow = false)
    (hfire : ∀ l, e ≠ .parallelFired scope node l) (hfires : e.firesAt node scope = false)
    (hwith : ∀ flow, e.withdraws node scope flow = false) : Tally d node scope ((p.note e).withoutJoined n sc consumed) := by
  have hall : ∀ t ∈ ((p.note e).withoutJoined n sc consumed).tokens, t ∈ p.tokens := fun t ht => List.mem_of_mem_filter ht
  refine ⟨h.waits.step (fun t ht => Or.inl (hall t ht)) (List.Subset.refl _) h.waits.nodup,
    h.join.step (fun t ht => Or.inl (hall t ht)) (fun l hl => ?_) (fun flow => ?_)⟩
  · rcases List.mem_cons.mp hl with he | hl
    · exact absurd he.symm (hfire l)
    · exact hl
  · have htok : (p.tokens.filter (fun t => !(joinedAt t n sc && hasToken consumed t))).countP
        (Token.crossed node scope flow) = p.tokens.countP (Token.crossed node scope flow) := by
      rw [List.countP_filter]
      refine List.countP_congr (fun t _ => ?_)
      constructor
      · intro hb
        rw [Bool.and_eq_true] at hb
        exact hb.1
      · intro hb
        rw [Bool.and_eq_true]
        refine ⟨hb, ?_⟩
        rw [Bool.not_eq_true', Bool.and_eq_false_iff]
        refine Or.inl ?_
        by_contra hj
        rw [Bool.not_eq_false, joinedAt_iff] at hj
        unfold Token.crossed at hb
        simp only [Bool.and_eq_true, beq_iff_eq] at hb
        exact hne ⟨hj.1.symm.trans hb.1.1, hj.2.2.symm.trans hb.1.2⟩
    change (e :: p.trace).countP _ + _ = _ + ((e :: p.trace).countP _ +
      (p.tokens.filter (fun t => !(joinedAt t n sc && hasToken consumed t))).countP _ + (e :: p.trace).countP _)
    rw [htok, List.countP_cons_of_neg (by rw [hcross]; simp), List.countP_cons_of_neg (by rw [hfires]; simp),
      List.countP_cons_of_neg (by rw [hwith]; simp)]

/-- The one token a firing takes for a flow. -/
theorem OnePerFlow.count {tokens : List Token} (h : OnePerFlow d node scope consumed)
    (hids : (tokens.map (·.id)).Nodup) (hsub : ∀ t ∈ consumed, t ∈ tokens) {r : FlowRef} (hr : r ∈ incomingFlows d node) :
    ∃ c ∈ consumed, c.arrivalFlow = r.identity ∧
      (tokens.filter (fun t => joinedAt t node scope && hasToken consumed t)).filter
        (Token.crossed node scope r.identity) = [c] := by
  have hflow : r.identity ∈ consumed.map (·.arrivalFlow) := h.flows ▸ List.mem_map_of_mem hr
  obtain ⟨c, hc, hcf⟩ := List.mem_map.mp hflow
  have hone : (consumed.map (·.arrivalFlow)).Nodup := h.flows ▸ incomingFlows_identity_nodup d node
  refine ⟨c, hc, hcf, ?_⟩
  have hnodup : ((tokens.filter (fun t => joinedAt t node scope && hasToken consumed t)).filter
      (Token.crossed node scope r.identity)).Nodup := ((List.Nodup.of_map _ hids).filter _).filter _
  refine List.perm_singleton.mp ((List.perm_ext_iff_of_nodup hnodup (List.nodup_singleton c)).mpr (fun t => ?_))
  rw [List.mem_filter, List.mem_filter, List.mem_singleton, Bool.and_eq_true]
  constructor
  · rintro ⟨⟨ht, -, htaken⟩, hcross⟩
    obtain ⟨a, ha, hid⟩ := hasToken_iff.mp htaken
    have hat : a = t := List.inj_on_of_nodup_map hids (hsub a ha) ht hid
    subst hat
    unfold Token.crossed at hcross
    simp only [Bool.and_eq_true, beq_iff_eq] at hcross
    exact List.inj_on_of_nodup_map hone ha hc (hcross.2.trans hcf.symm)
  · rintro rfl
    have hj := h.parked t hc
    obtain ⟨hjn, -, hjs⟩ := joinedAt_iff.mp hj
    refine ⟨⟨hsub t hc, hj, hasToken_iff.mpr ⟨t, hc, rfl⟩⟩, ?_⟩
    unfold Token.crossed
    simp [hjn, hjs, hcf]

/-- The join fires: one parked token for each flow leaves. -/
theorem Tally.fires (hn : Names g s) (h : Tally d node scope s) {p : ControlState} {n : Node}
    (hp : ParkedOn s p n scope) (hmatch : matchJoinTokensToFlows d p.tokens node scope = some consumed) :
    Tally d node scope ((p.note (.parallelFired scope node consumed)).withoutJoined node scope consumed) := by
  obtain ⟨hwaits, hledger⟩ := h.parkedOn hn hp
  have hids : (p.tokens.map (·.id)).Nodup := (hn.of_shrinks (Names.Shrinks.parkedOn hp)).tokens.nodup
  have hflow : ∀ t ∈ p.tokens, joinedAt t node scope = true → t.arrivalFlow ≠ "" := by
    intro t ht hj
    obtain ⟨hjn, -, hjs⟩ := joinedAt_iff.mp hj
    obtain ⟨-, r, -, he⟩ := hledger.held t ht hjn hjs
    exact he ▸ r.identity_ne_empty
  obtain ⟨hone, hsub⟩ := matchJoin_some hflow hmatch
  have hall : ∀ t ∈ ((p.note (.parallelFired scope node consumed)).withoutJoined node scope consumed).tokens, t ∈ p.tokens :=
    fun t ht => List.mem_of_mem_filter ht
  refine ⟨hwaits.step (fun t ht => Or.inl (hall t ht)) (List.Subset.refl _) hwaits.nodup,
    ⟨⟨fun r hr => ?_, fun l hl => ?_, fun t ht => hledger.held t (hall t ht)⟩, ?_⟩⟩
  · obtain ⟨c, -, -, hc⟩ := hone.count hids hsub hr
    have hsplit := List.countP_eq_countP_filter_add p.tokens (Token.crossed node scope r.identity)
      (fun t => joinedAt t node scope && hasToken consumed t)
    rw [List.countP_eq_length_filter (l := p.tokens.filter (fun t => joinedAt t node scope && hasToken consumed t)), hc,
      List.length_singleton] at hsplit
    have hold := hledger.balance r hr
    have hfire : Event.firesAt node scope (.parallelFired scope node consumed) = true := by simp [Event.firesAt]
    change (Event.parallelFired scope node consumed :: p.trace).countP _ =
      (Event.parallelFired scope node consumed :: p.trace).countP _ +
      (p.tokens.filter (fun t => !(joinedAt t node scope && hasToken consumed t))).countP _ +
      (Event.parallelFired scope node consumed :: p.trace).countP _
    rw [List.countP_cons_of_neg Bool.false_ne_true, List.countP_cons_of_pos hfire,
      List.countP_cons_of_neg Bool.false_ne_true]
    omega
  · rcases List.mem_cons.mp hl with he | hl
    · injection he with _ _ he
      exact he ▸ hone
    · exact hledger.fired l hl
  · -- the flow that was short before is short again: the firing took the token that had just parked
    obtain ⟨r, hr, hno⟩ := h.join.short
    refine ⟨r, hr, fun t ht hj hflow' => ?_⟩
    obtain ⟨c, hc, hcf, -⟩ := hone.count hids hsub hr
    obtain ⟨htp, hkeep⟩ := List.mem_filter.mp ht
    have hsame : t = c := by
      rcases hp with rfl | ⟨tok, hmem, hactive, hnode, hscope, rfl⟩
      · exact absurd hflow' (hno t htp hj)
      · have hnew : ∀ a ∈ (s.setTokenState tok.id .joining).tokens, joinedAt a node scope = true →
            a.arrivalFlow = r.identity → a = { tok with state := .joining } := by
          intro a ha haj haf
          obtain ⟨a', ha', rfl⟩ := List.mem_map.mp ha
          by_cases he : a'.id = tok.id
          · rw [List.inj_on_of_nodup_map hn.tokens.nodup ha' hmem he, if_pos (by simp)]
          · rw [if_neg (by simpa using he)] at haj haf
            exact absurd haf (hno a' ha' haj)
        rw [hnew t htp hj hflow', hnew c (hsub c hc) (hone.parked c hc) hcf]
    rw [Bool.not_eq_true', Bool.and_eq_false_iff] at hkeep
    rcases hkeep with hkeep | hkeep
    · rw [hj] at hkeep
      cases hkeep
    · rw [hsame, hasToken_iff.mpr ⟨c, hc, rfl⟩] at hkeep
      cases hkeep

/-- The join of the move is this one, and so a parallel one. -/
theorem JoinRun.site_kind (hrun : JoinRun top g T d node scope) (hn : Names g s) (hT : s.trace ⊆ T) {d' : ProcessDefinition}
    {n : Node} {sc : String} {kind : NodeKind} (hsite : JoinSite top s d' n sc kind) (he : n.id = node ∧ sc = scope) :
    d' = d ∧ kind = .parallelGateway := by
  obtain ⟨hid, rfl⟩ := he
  have hd := hrun.defn_eq hn hT hsite.defn
  refine ⟨hd, ?_⟩
  obtain ⟨n', hfind', hkind⟩ := hrun.gateway
  have hfind := hsite.found
  rw [hd, hid, hfind'] at hfind
  rw [← hsite.kind_eq, ← Option.some.inj hfind]
  exact hkind

/-- A flow leads into the join. -/
theorem JoinRun.has_flow (hrun : JoinRun top g T d node scope) : ∃ r, r ∈ incomingFlows d node := by
  have hlen := hrun.converging
  rw [← incomingFlows_length] at hlen
  exact List.exists_mem_of_length_pos (by omega)

/-- A walk that is over leaves the tokens. -/
theorem Rests.resumed (plan : FinishPlan) (s : ControlState) :
    Rests s ({ applyPlanRecordClearing plan s with status := .running }.note
        (.resumed plan.popDeferred s.deferredCompensationThrows)) ∧
      Names.Shrinks s ({ applyPlanRecordClearing plan s with status := .running }.note
        (.resumed plan.popDeferred s.deferredCompensationThrows)) := by
  have ho := sameOutline (applyPlanRecordClearing_outline plan s)
  have hclear : Rests s { applyPlanRecordClearing plan s with status := .running } :=
    Rests.same ho.tokens ho.queue ho.trace
  have hshrink := Names.Shrinks.of_outline (applyPlanRecordClearing_outline plan s)
  exact ⟨hclear.note trivial, (hshrink.thenSame (by rfl)).thenNote (by trivial)⟩

/-- The walk is over and the instance goes on. -/
theorem Tally.resume (hrun : JoinRun top g T d node scope) (hn : Names g s) (h : Tally d node scope s) (at_ : Time)
    (plan : FinishPlan) (hscope : Ref g s.scopeSeq plan.resumeScope) (hT : (resumeControl g at_ plan s).trace ⊆ T) :
    Tally d node scope (resumeControl g at_ plan s) := by
  obtain ⟨hrest, hshrink⟩ := Rests.resumed plan s
  have hn1 := hn.of_shrinks hshrink
  have h1 := h.rests hrest
  have hseq := hshrink.scopeSeq
  unfold resumeControl at hT ⊢
  dsimp only at hT ⊢
  set s1 := { applyPlanRecordClearing plan s with status := .running }.note
    (.resumed plan.popDeferred s.deferredCompensationThrows) with hs1
  set s2 := if resumeDropped plan s1 then s1
    else s1.placeTokenInScope g plan.resumeAt plan.resumeScope plan.resumeFlow at_ with hs2
  have hT2 : s2.trace ⊆ T := by
    split at hT
    · have hpop : Logs true top g s2 s2.popOneDeferredThrow := Logs.popOneDeferredThrow s2
      exact List.Subset.trans hpop.subset hT
    · exact hT
  have hboth : Names g s2 ∧ Tally d node scope s2 := by
    rw [hs2] at hT2 ⊢
    split at hT2
    · rename_i hdrop
      rw [if_pos hdrop]
      exact ⟨hn1, h1⟩
    · rename_i hkeep
      rw [if_neg hkeep]
      exact ⟨hn1.placeTokenInScope _ _ _ _ (hseq ▸ hscope), h1.place hrun hn1 _ _ _ _ hT2⟩
  split
  · exact hboth.2.pop hboth.1
  · exact hboth.2

/-- Every move keeps the tally. -/
theorem Move.tally (hrun : JoinRun top g T d node scope) (hs : Wf g s) (hT' : s'.trace ⊆ T) (h : Tally d node scope s)
    (hmove : Move top g trg s s') : Tally d node scope s' := by
  have hn := hs.names
  have hlogs : Logs true top g s s' := hmove.logs hs
  have hT : s.trace ⊆ T := List.Subset.trans hlogs.subset hT'
  cases hmove with
  | book h' n hh hn' => exact h.rests (Rests.same rfl rfl rfl)
  | place n sc flow at_ hfwd hscope => exact h.place hrun hn n sc flow at_ hT'
  | touch id f hf =>
    by_cases hex : ∃ t ∈ s.tokens, t.id = id
    · obtain ⟨t0, hmem, rfl⟩ := hex
      have hstays := hf t0 hmem rfl
      have hout := hrun.not_free hn hT h hmem hstays.free
      have hout' : ¬ ((f t0).nodeID = node ∧ (f t0).scopeID = scope) := by
        rw [hstays.place.nodeID, hstays.place.scopeID]
        exact hout
      refine h.change hn hmem hstays.place.id (h.waits.not_queued hmem hstays.free.cases)
        (hstays.ok (h.waits.ok t0 hmem)) hout
        (fun hst => ?_) (fun hnode hscope => absurd ⟨hnode, hscope⟩ hout') rfl rfl (Or.inl ⟨rfl, hout'⟩)
      rcases hstays.state with he | he <;> rw [he] at hst <;> cases hst
    · have htok : (s.updateToken id f).tokens = s.tokens := by
        refine (List.map_congr_left (fun t ht => ?_)).trans (List.map_id _)
        rw [if_neg]
        · rfl
        · intro he
          exact hex ⟨t, ht, by simpa using he⟩
      exact h.rests (Rests.same htok rfl rfl)
  | leave id target sc flow f hmem hf =>
    obtain ⟨t0, hmem, rfl⟩ := hmem
    have hleaves := hf t0 hmem rfl
    have htr : ((s.updateToken t0.id f).note (.arrived t0.id target sc flow)).trace =
        .arrived t0.id (f t0).nodeID (f t0).scopeID (f t0).arrivalFlow :: s.trace := by
      rw [hleaves.nodeID, hleaves.scopeID, hleaves.scope, hleaves.arrivalFlow]
      rfl
    refine h.change hn hmem hleaves.id (h.waits.not_queued hmem hleaves.free.cases) (hleaves.ok (h.waits.ok t0 hmem))
      (hrun.not_free hn hT h hmem hleaves.free) (by rw [hleaves.state]; simp)
        (fun hnode hscope => ⟨hleaves.state, ?_⟩) rfl rfl
      (Or.inr htr)
    have harr : Event.arrived t0.id node scope (f t0).arrivalFlow ∈ T := by
      refine hT' ?_
      rw [htr, hnode, hscope]
      exact List.mem_cons_self
    exact hrun.reached _ _ harr
  | pass tok hthrow => exact h.rests ((Rests.refl s).note trivial)
  | resolve tok f hmem hf =>
    have hincident : tok.state = .incident := hrun.resolved tok _ (hT' List.mem_cons_self)
    have hnote : Rests s (s.note (.resolved tok s.deferredCompensationThrows)) := (Rests.refl s).note trivial
    have hn' : Names g (s.note (.resolved tok s.deferredCompensationThrows)) :=
      hn.of_shrinks (Names.Shrinks.note s _ (by trivial))
    have hout : ¬ (tok.nodeID = node ∧ tok.scopeID = scope) := by
      rintro ⟨hnode, hscope⟩
      have hst := (h.join.held tok hmem hnode hscope).1
      rw [hincident] at hst
      rcases hst with hst | hst <;> cases hst
    have hout' : ¬ ((f tok).nodeID = node ∧ (f tok).scopeID = scope) := by
      rw [(hf tok).1.nodeID, (hf tok).1.scopeID]
      exact hout
    refine (h.rests hnote).change hn' hmem (hf tok).1.id (h.waits.not_queued hmem (Or.inr (by rw [hincident]; simp)))
      ((hf tok).2.2 hincident (h.waits.ok tok hmem)) hout (by rw [(hf tok).2.1]; simp)
      (fun hnode hscope => absurd ⟨hnode, hscope⟩ hout') rfl rfl (Or.inl ⟨rfl, hout'⟩)
  | consume tok hmem hfree =>
    have he := s.removeToken_of_ne (hn.tokens.ne_empty hmem)
    rw [he]
    exact h.remove hn hmem rfl rfl (Or.inl ⟨rfl, hrun.not_free hn hT h hmem hfree⟩)
  | cancel tok at_ kind => exact h.cancelToken hn tok at_ kind
  | park p d' n sc kind at_ hp hsite hkind hnone =>
    obtain ⟨hwaits, hledger⟩ := h.parkedOn hn hp
    refine ⟨hwaits, hledger, ?_⟩
    by_cases he : n.id = node ∧ sc = scope
    · obtain ⟨rfl, hpar⟩ := hrun.site_kind hn hT hsite he
      obtain ⟨rfl, rfl⟩ := he
      refine matchJoin_none (hn.of_shrinks (Names.Shrinks.parkedOn hp)).tokens.nodup ?_
      unfold tryJoin at hnone
      rw [hsite.kind_eq, hpar] at hnone
      dsimp only at hnone
      unfold tryParallelJoin at hnone
      split at hnone
      · assumption
      · cases hnone
    · exact h.join.short.parkedOn hp he hn.tokens.nodup
  | fireParallel p d' n sc consumed hp hsite hmatch =>
    by_cases he : n.id = node ∧ sc = scope
    · obtain ⟨rfl, -⟩ := hrun.site_kind hn hT hsite he
      obtain ⟨rfl, rfl⟩ := he
      exact h.fires hn hp hmatch
    · obtain ⟨hwaits, hledger⟩ := h.parkedOn hn hp
      have hp' : Tally d node scope p := ⟨hwaits, hledger, h.join.short.parkedOn hp he hn.tokens.nodup⟩
      refine hp'.firesElsewhere he (fun _ => rfl) (fun l hl => ?_) ?_ (fun _ => rfl)
      · injection hl with hsc hnode
        exact he ⟨hnode, hsc⟩
      · by_contra hb
        simp only [Event.firesAt, Bool.not_eq_false, Bool.and_eq_true, beq_iff_eq] at hb
        exact he hb
  | fireInclusive p d' n sc consumed hp hsite htok hsub hcons =>
    by_cases he : n.id = node ∧ sc = scope
    · obtain ⟨-, hpar⟩ := hrun.site_kind hn hT hsite he
      cases hpar
    · obtain ⟨hwaits, hledger⟩ := h.parkedOn hn hp
      have hp' : Tally d node scope p := ⟨hwaits, hledger, h.join.short.parkedOn hp he hn.tokens.nodup⟩
      exact hp'.firesElsewhere he (fun _ => rfl) (fun l hl => by cases hl) rfl (fun _ => rfl)
  | openScope n parent hfwd hparent hopens =>
    refine h.rests ⟨rfl, rfl, [_], rfl, fun e he => ?_⟩
    rw [List.mem_singleton.mp he]
    trivial
  | teardown sc => exact h.rests ((Rests.of_outline (s.archiveAll_outline _)).trans (Rests.closeScope _ sc))
  | interrupt sc =>
    have harch : Rests s (s.archiveAll (s.subtreeIDs sc)) := Rests.of_outline (s.archiveAll_outline _)
    exact h.rests ((harch.trans (Rests.same (by rfl) (by rfl) (by rfl))).note (by trivial))
  | exit sc enclosing hne htok hchild hhold =>
    have hnote : Rests s (s.note (.exited sc enclosing s.tokens s.scopes s.compensating)) := (Rests.refl s).note trivial
    have harch := hnote.trans (Rests.of_outline (ControlState.archiveCompensations_outline _ sc))
    exact h.rests (harch.trans (Rests.closeScope _ sc))
  | record sc rec hfwd hhist =>
    refine h.rests ?_
    unfold ControlState.recordCompensation
    split
    · exact Rests.note (Rests.same (by rfl) (by rfl) (by rfl)) (by trivial)
    · split
      · exact Rests.refl s
      · exact Rests.note (Rests.of_outline (s.setCompensations_outline _ _)) trivial
  | sweep s' hidle hsweep => exact h.sweeps hn (Relation.ReflTransGen.single hsweep)
  | deferThrow tok hthrow hflight => exact h.defer hrun hn hT hthrow
  | throwWalk tok at_ cur rec hthrow hfwd hidle hcur =>
    obtain ⟨v, -, he⟩ := s.mintCommand.consumeTokenAs_shape tok at_ .normal
    have hgone : Tally d node scope { s.mintCommand.consumeToken tok at_ with status := .compensating } := by
      unfold ControlState.consumeToken
      rw [he, s.mintCommand.removeToken_of_ne (hn.tokens.ne_empty hthrow.mem)]
      exact h.remove hn hthrow.mem rfl rfl (Or.inl ⟨rfl, hrun.not_throw hn hT hthrow⟩)
    exact hgone.rests (Rests.dispatch _ cur cur.nextIndex rec _)
  | next rec hflight hans hpos hto hrec =>
    have hmint : Rests s s.mintCommand := Rests.same rfl rfl rfl
    exact h.rests (hmint.trans (Rests.dispatch s.mintCommand _ _ _ _))
  | again rec attempts hflight hrec htrg => exact h.rests (Rests.note (Rests.same (by rfl) (by rfl) (by rfl)) (by trivial))
  | retryLater timerID attempts hflight => exact h.rests (Rests.same rfl rfl rfl)
  | pendCancel hflight hmode => exact h.rests (Rests.note (Rests.same (by rfl) (by rfl) (by rfl)) (by trivial))
  | pendFailure err hflight hfwd htok => exact h.rests (Rests.note (Rests.same (by rfl) (by rfl) (by rfl)) (by trivial))
  | begin at_ o rec hidle hclear hasked hrec => exact h.rests (Rests.beginWalk g s o at_ rec)
  | resume cur at_ hfin hres hpend hscope =>
    have hdel := Names.Shrinks.deleted s (finishPlan s.settled cur)
    refine Tally.resume hrun (hn.of_shrinks hdel) (h.rests (Rests.deleted s (finishPlan s.settled cur))) at_ _ ?_ hT'
    rw [hdel.scopeSeq]
    rcases finishPlan_resumeScope s.settled cur with h' | h'
    · exact Or.inl h'
    · rw [h']
      exact hscope
  | pendingWalk cur at_ p rec hfin hcons hpend hsweep hclear hrec =>
    have htake := (Names.Shrinks.deleted s (finishPlan s.settled cur)).trans
      (Names.Shrinks.takePending (finishPlan s.settled cur) _)
    have hrest := (Rests.deleted s (finishPlan s.settled cur)).trans (Rests.takePending (finishPlan s.settled cur) _)
    exact ((h.rests hrest).sweeps (hn.of_shrinks htake) hsweep).rests (Rests.beginWalk g p _ at_ rec)

/-- An instance ends as it stands, or after its tokens were swept away. -/
theorem End.swept (hend : End trg s s') : ∃ m p, Rests s m ∧ Names.Shrinks s m ∧ Sweeps m p ∧ Rests p s' := by
  have hstands : Rests s s' → ∃ m p, Rests s m ∧ Names.Shrinks s m ∧ Sweeps m p ∧ Rests p s' :=
    fun h => ⟨s, s, Rests.refl s, Names.Shrinks.refl s, Relation.ReflTransGen.refl, h⟩
  have hclear : ∀ id, Rests s (s.settled.clearRecords id) := by
    intro id
    have hsettled : Rests s s.settled := Rests.same rfl rfl rfl
    exact hsettled.trans (Rests.of_outline (s.settled.mapRecords_outline id (fun _ => [])))
  cases hend with
  | complete hlive hdrained => exact hstands (Rests.endControl s _ _)
  | idle st err hlive hidle hst => exact hstands (Rests.endControl s _ _)
  | childFailed err hlive htok =>
    have hnote : Rests s (s.note (.childFailed err s.compensating)) := (Rests.refl s).note trivial
    exact hstands (hnote.trans (Rests.endControl _ _ _))
  | forced outcome at_ err hlive htok =>
    have hnote : Rests s (s.note (.forced outcome s.pendingCancel)) := (Rests.refl s).note trivial
    exact ⟨_, _, hnote, Names.Shrinks.note s _ trivial, sweeps_cancelListed at_ .terminated s.tokens, Rests.endControl _ _ _⟩
  | terminate cur hfin hmode => exact hstands ((hclear cur.scopeID).trans (Rests.endControl _ _ _))
  | abandon hflight hans hmode =>
    exact hstands (((hclear s.compensating.scopeID).trans (Rests.endControl _ _ _)).trans
      (Rests.of_outline (ControlState.mapRecords_outline _ _ _)))
  | pending cur p hfin hcons hpend hsweep hclear hnone =>
    have htake := (Names.Shrinks.deleted s (finishPlan s.settled cur)).trans
      (Names.Shrinks.takePending (finishPlan s.settled cur) _)
    have hrest := (Rests.deleted s (finishPlan s.settled cur)).trans (Rests.takePending (finishPlan s.settled cur) _)
    exact ⟨_, p, hrest, htake, hsweep, Rests.endControl _ _ _⟩

theorem End.tally (hs : Wf g s) (h : Tally d node scope s) (hend : End trg s s') : Tally d node scope s' := by
  obtain ⟨m, p, hm, hshrinks, hsweep, hp⟩ := hend.swept
  exact ((h.rests hm).sweeps (hs.names.of_shrinks hshrinks) hsweep).rests hp

end Moves

/-! ## Runs -/

section Runs
variable {p d : ProcessDefinition} {gen : Option IDGenerator} {inst : String} {calls : List Call} {x : InstanceState}
  {node scope : String}

theorem JoinRun.start {top : ProcessDefinition} {g : IDGenerator} {T : List Event} (h : JoinRun top g T d node scope)
    (inst : String) : Tally d node scope { instanceID := inst } where
  waits := ⟨by simp, by simp, List.nodup_nil⟩
  join := by
    refine ⟨⟨fun r hr => rfl, by simp, by simp⟩, ?_⟩
    obtain ⟨r, hr⟩ := h.has_flow
    exact ⟨r, hr, by simp⟩

/-- In a run in which only failed tokens are resolved, a converging parallel gateway that tokens reach along its own flows
only fires no more often than any of these flows was crossed, takes one parked token for each flow whenever it fires,
keeps or sees cancelled every token it did not use, and is never left with a parked token for each flow. -/
theorem parallel_join_balanced (hrun : Run p gen inst calls x) (hdefn : ScopeDefn p x.trace scope d)
    (hgateway : ∃ n, d.node node = some n ∧ n.kind = .parallelGateway) (hconv : 1 < (d.incoming node).length)
    (hreached : ∀ tok flow, Event.arrived tok node scope flow ∈ x.trace → ∃ r ∈ incomingFlows d node, flow = r.identity)
    (hresolved : ∀ tok queue, Event.resolved tok queue ∈ x.trace → tok.state = .incident) :
    JoinBalance d node scope x.toControlState ∧ ∀ r ∈ incomingFlows d node,
      x.trace.countP (Event.firesAt node scope) ≤ x.trace.countP (Event.crosses node scope r.identity) := by
  have hjoin : JoinRun p (runIDs gen inst) x.trace d node scope :=
    ⟨hdefn, hgateway, hconv, ⟨_, hrun.sound.wf.names.opened⟩, hreached, hresolved⟩
  have htally : Tally d node scope x.toControlState := by
    refine Run.induction (I := Tally d node scope) (P := fun _ => True) (C := (· ∈ x.trace)) hrun (fun _ _ => trivial)
      (fun e he => he) (hjoin.start inst) ?_ ?_
    · intro trg s s' hs _ hsub h hmove
      exact hmove.tally hjoin hs hsub h
    · intro trg s s' hs _ _ h hend
      exact hend.tally hs h
  refine ⟨htally.join, fun r hr => ?_⟩
  have hbalance := htally.join.balance r hr
  omega

end Runs

/-! ## A join behind a task that is tried once -/

/-- Two branches, one over a task that is tried once, meet again. -/
def triedBeside : ProcessDefinition where
  id := "beside"
  version := 1
  nodes := [startNode "s", forkNode "g",
    { id := "a", spec := .serviceTask { retryPolicy := some { maxAttempts := 1 } } "charge" }, serviceNode "b" "",
    forkNode "j",
    endNode "e"]
  flows := [flowOf "f1" "s" "g", flowOf "f2" "g" "a", flowOf "f3" "g" "b", flowOf "f4" "a" "j", flowOf "f5" "b" "j",
    flowOf "f6" "j" "e"]

/-- An arrival at the node came along one of its flows. -/
def Event.entersBy (d : ProcessDefinition) (node scope : String) : Event → Bool
  | .arrived _ n sc flow => !(n == node && sc == scope) || (incomingFlows d node).any (fun r => flow == r.identity)
  | _ => true

/-- A token that is resolved had failed. -/
def Event.resolvesFailed : Event → Bool
  | .resolved tok _ => tok.state == .incident
  | _ => true

theorem reached_of_entersBy {d : ProcessDefinition} {node scope : String} {trace : List Event}
    (h : trace.all (Event.entersBy d node scope) = true) (tok flow : String)
    (harr : Event.arrived tok node scope flow ∈ trace) : ∃ r ∈ incomingFlows d node, flow = r.identity := by
  have he := List.all_eq_true.mp h _ harr
  simp only [Event.entersBy, beq_self_eq_true, Bool.and_self, Bool.not_true, Bool.false_or, List.any_eq_true,
    beq_iff_eq] at he
  exact he

theorem resolved_of_resolvesFailed {trace : List Event} (h : trace.all Event.resolvesFailed = true) (tok : Token)
    (queue : List String) (hres : Event.resolved tok queue ∈ trace) : tok.state = .incident := by
  have he := List.all_eq_true.mp h _ hres
  simpa [Event.resolvesFailed] using he

/-- Both branches are done: the join fired once, with one token of each. -/
theorem branches_join_balanced : ∃ x, Run triedBeside none "i" (callsFrom 1 [.startInstance [] "", .actionCompleted "i-c1" [],
      .actionCompleted "i-c2" []]) x ∧ x.trace.countP (Event.firesAt "j" "") = 1 ∧
    JoinBalance triedBeside "j" "" x.toControlState ∧ ∀ r ∈ incomingFlows triedBeside "j",
      x.trace.countP (Event.firesAt "j" "") ≤ x.trace.countP (Event.crosses "j" "" r.identity) := by
  have hplay : playsTo triedBeside [.startInstance [] "", .actionCompleted "i-c1" [], .actionCompleted "i-c2" []]
      (fun x => x.trace.countP (Event.firesAt "j" "") == 1 && x.trace.all (Event.entersBy triedBeside "j" "") &&
        x.trace.all Event.resolvesFailed) = true := by decide
  obtain ⟨x, hx, hP⟩ := run_of_playsTo hplay
  rw [Bool.and_eq_true, Bool.and_eq_true, beq_iff_eq] at hP
  obtain ⟨⟨hone, henters⟩, hfailed⟩ := hP
  exact ⟨x, hx, hone, parallel_join_balanced hx .root ⟨forkNode "j", rfl, rfl⟩ (by decide)
    (reached_of_entersBy henters) (resolved_of_resolvesFailed hfailed)⟩

/-- A late reply takes the failed token to the join, its incident is resolved there, and the answer to the new command
takes the token past the join, which has not fired. -/
theorem resolved_token_passes_join : Accepted asciiTables triedBeside ∧ ∃ x calls, Run triedBeside none "i" calls x ∧
    (∀ tok flow, Event.arrived tok "j" "" flow ∈ x.trace → ∃ r ∈ incomingFlows triedBeside "j", flow = r.identity) ∧
    ∃ r ∈ incomingFlows triedBeside "j", x.trace.countP (Event.crosses "j" "" r.identity) = 1 ∧
      x.trace.countP (Event.firesAt "j" "") = 0 ∧ x.tokens.countP (Token.crossed "j" "" r.identity) = 0 ∧
      x.trace.countP (Event.withdraws "j" "" r.identity) = 0 := by
  have hplay : playsTo triedBeside [.startInstance [] "", .actionFailed "i-c1" "down" true 0 none, .actionCompleted "i-c1" [],
      .resolveIncident "i-inc1" 1, .actionCompleted "i-c3" []]
      (fun x => x.trace.all (Event.entersBy triedBeside "j" "") && (incomingFlows triedBeside "j").any (fun r =>
        x.trace.countP (Event.crosses "j" "" r.identity) == 1 && x.trace.countP (Event.firesAt "j" "") == 0 &&
        x.tokens.countP (Token.crossed "j" "" r.identity) == 0 &&
        x.trace.countP (Event.withdraws "j" "" r.identity) == 0)) = true := by decide
  refine ⟨by decide, ?_⟩
  obtain ⟨x, hx, hP⟩ := run_of_playsTo hplay
  rw [Bool.and_eq_true, List.any_eq_true] at hP
  obtain ⟨henters, r, hr, hcounts⟩ := hP
  simp only [Bool.and_eq_true, beq_iff_eq] at hcounts
  obtain ⟨⟨⟨hcross, hfires⟩, hheld⟩, hwith⟩ := hcounts
  exact ⟨x, _, hx, reached_of_entersBy henters, r, hr, hcross, hfires, hheld, hwith⟩

end Wrkflw
