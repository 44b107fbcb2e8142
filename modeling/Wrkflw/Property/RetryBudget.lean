import Wrkflw.Machine.Budget
import Wrkflw.Property.Commands
import Wrkflw.Property.Retries

/-!
# The retry budget of a visit

The retry counters are kept on the token and count the attempts at its current node. A token that goes on after a
success takes them along, so the next activity begins with a budget that is partly used and a clock that is running
(`next_activity_short_of_attempts`). In a run in which no such token is moved on (`SparesBudgets`) a token that
arrives has none (`StepsOn`), and the attempts of a visit (`Visit`) are within the policy's and the operator's
(`budget_per_visit`).

* `Desk.Rests` : a token that no act is about stays as it is;
* `StepsOn` : what a trigger that does not move a waiting token on makes of it;
* `Visit` : the attempts of a visit, counted along a run.
-/

namespace Wrkflw

open ControlState

variable {err : String}

variable {g : IDGenerator} {trg : TriggerBody} {d0 d d' : Desk} {cmds : List Command} {u t t' tok : Token}

/-! ## Tokens no act is about -/

/-- The token waits under an id that was minted, and under nothing else. -/
structure Token.OnID (g : IDGenerator) (t : Token) : Prop where
  state : t.state ≠ .active
  minted : ∃ kind k, t.awaitCommand = g.newID kind k
  silent : t.awaitSignal = "" ∧ t.awaitMessage = ""

theorem Token.OnID.ne_empty (h : t.OnID g) : t.awaitCommand ≠ "" := by
  obtain ⟨kind, k, he⟩ := h.minted
  rw [he]
  exact g.newID_ne_empty kind k

/-- The token of this id, if there is one, is this very token. -/
structure Desk.Rests (g : IDGenerator) (u : Token) (d : Desk) : Prop where
  same : ∀ t ∈ d.tokens, t.id = u.id → t = u
  queue : u.id ∉ d.queue
  minted : Minted g .token d.tokenSeq u.id

/-- Another token changes. -/
theorem Desk.Rests.update (h : d.Rests g u) (hids : d.Ids g) (hmem : tok ∈ d.tokens) {f : Token → Token}
    (hid : (f tok).id = tok.id) (hne : tok ≠ u) : ∀ t ∈ (d.update tok.id f).tokens, t.id = u.id → t = u := by
  intro t ht hu
  rcases (hids.mem_update hmem).mp ht with rfl | ⟨ht, -⟩
  · exact absurd (h.same tok hmem (hid.symm.trans hu)) hne
  · exact h.same t ht hu

/-- **A token that waits under an id is touched by no act but a reply to it** and the resolution of its incident. -/
theorem Act.rests (hop : g.Opaque) (hu : u.OnID g) (hnamed : ¬ Named d0 trg u) (hres : ∀ id n, trg ≠ .resolveIncident id n)
    (hids : d.Ids g) (h : d.Rests g u) (hact : Act g trg d0 d d' cmds) : d'.Rests g u := by
  have hactive : ∀ {tok : Token}, tok.state = .active → tok ≠ u := fun ha he => hu.state (he ▸ ha)
  have hother : ∀ {tok : Token}, Named d0 trg tok → tok ≠ u := fun hn he => hnamed (he ▸ hn)
  have hsub : ∀ {tokens : List Token}, tokens ⊆ d.tokens → ∀ t ∈ tokens, t.id = u.id → t = u :=
    fun hs t ht => h.same t (hs ht)
  cases hact with
  | place node scope flow at_ =>
    refine ⟨fun t ht hid => ?_, h.queue, h.minted.mono (Nat.le_succ _)⟩
    rcases List.mem_append.mp ht with ht | ht
    · exact h.same t ht hid
    · rw [List.mem_singleton.mp ht] at hid
      exact absurd hid.symm h.minted.ne_next
  | step tok f hmem ha hf => exact ⟨h.update hids hmem (hf tok).id (hactive ha), h.queue, h.minted⟩
  | drop p hp => exact ⟨hsub (List.filter_subset_self _), h.queue, h.minted⟩
  | defer tok hmem ha =>
    refine ⟨h.update (f := fun t => { t with state := .waiting }) hids hmem rfl (hactive ha), ?_, h.minted⟩
    intro hq
    rcases List.mem_append.mp hq with hq | hq
    · exact h.queue hq
    · exact hactive ha (h.same tok hmem (List.mem_singleton.mp hq).symm)
  | pop id rest hq =>
    have hne : id ≠ u.id := fun he => h.queue (by rw [hq, he]; exact List.mem_cons_self)
    refine ⟨fun t ht hid => ?_, fun hin => h.queue (by rw [hq]; exact List.mem_cons_of_mem _ hin), h.minted⟩
    obtain ⟨t0, ht0, rfl⟩ := List.mem_map.mp ht
    by_cases hid0 : t0.id = id
    · rw [if_pos (by simpa using hid0)] at hid
      exact absurd (hid0.symm.trans hid) hne
    · rw [if_neg (by simpa using hid0)] at hid ⊢
      exact h.same t0 ht0 hid
  | park tok f tasks nc nt n m cmds armCmds arms gws trs hmem ha hwait harm =>
    exact ⟨h.update hids hmem (hwait.same tok).id (hactive ha), h.queue, h.minted⟩
  | defect tok inc hmem ha hid hkind htok hnode =>
    exact ⟨h.update (f := fun t => { t with state := .incident }) hids hmem rfl (hactive ha), h.queue, h.minted⟩
  | answer tok f hmem hn hf harms hnone => exact ⟨h.update hids hmem (hf tok).id (hother hn), h.queue, h.minted⟩
  | finishTask tok f task close hmem hn hf harms htask hopen hclose =>
    exact ⟨h.update hids hmem (hf tok).id (hother hn), h.queue, h.minted⟩
  | hear tok f hmem hf hid harms =>
    refine ⟨h.update hids hmem (hid tok) ?_, h.queue, h.minted⟩
    rintro rfl
    rcases hf.heard with ⟨hne, -, -⟩ | ⟨hne, -, -⟩
    · exact hne hu.silent.1
    · exact hne hu.silent.2
  | win tok f won cmds hmem hawait harmed hf hcmds =>
    refine ⟨h.update hids hmem (hf tok).id ?_, h.queue, h.minted⟩
    rintro rfl
    obtain ⟨kind, k, he⟩ := hu.minted
    obtain ⟨m, -, hm⟩ := hids.minted tok hmem
    exact hop kind k m (he.symm.trans (hm ▸ hawait))
  | rewait tok f tr spec hmem hn htrg hf harms htr => exact ⟨h.update hids hmem (hf tok).id (hother hn), h.queue, h.minted⟩
  | fail tok inc hmem hn htrg harms hid hkind htok hnode =>
    exact ⟨h.update (f := fun t => { t with state := .incident }) hids hmem rfl (hother hn), h.queue, h.minted⟩
  | reinvoke tok f cmd arms m armCmds hmem hn htrg hf hcmd hkind harm =>
    exact ⟨h.update hids hmem (hf tok).id (hother hn), h.queue, h.minted⟩
  | resolve inc tok f cmd arms m armCmds n hd htrg hinc hkind hmem htok hf hcmd hhuman harm =>
    exact absurd htrg (hres _ _)
  | lose tok hmem hn htrg harms => exact ⟨hsub (List.filter_subset_self _), h.queue, h.minted⟩
  | cancel tok hmem harms => exact ⟨hsub (List.filter_subset_self _), h.queue, h.minted⟩
  | finish tokens cmds cuts exits st htokens hcancel hcmds =>
    refine ⟨hsub ?_, h.queue, h.minted⟩
    rcases htokens with ⟨rfl, -⟩ | ⟨rfl, -⟩
    · exact List.Subset.refl _
    · exact List.nil_subset _
  | _ => exact ⟨h.same, h.queue, h.minted⟩

/-- The same of a whole operation. -/
theorem Acts.rests (hop : g.Opaque) (hu : u.OnID g) (hnamed : ¬ Named d0 trg u) (hres : ∀ id n, trg ≠ .resolveIncident id n)
    (h : Acts g trg d0 d d' cmds) (hids : d.Ids g) (hrest : d.Rests g u) : d'.Rests g u :=
  (h.induct (fun hids hr hact => hact.rests hop hu hnamed hres hids hr) hids hrest).2

/-! ## What becomes of a waiting token -/

/-- The trigger is the retry timer the token waits for. -/
def RetryFires (x : InstanceState) (t : Token) : TriggerBody → Prop
  | .timerFired id => id = t.awaitCommand ∧ (x.timerByID id).any (fun tr => tr.kind == .retry) = true
  | _ => False

/-- The trigger answers what the token waits for, and the token goes on: it is no report of a failure and no retry. -/
def MovesOn (x : InstanceState) (body : TriggerBody) (t : Token) : Prop :=
  t.awaitCommand ≠ "" ∧ Replies x.desk t body ∧ body.reportsFailure = false ∧ ¬ RetryFires x t body

instance (x : InstanceState) (t : Token) (body : TriggerBody) : Decidable (RetryFires x t body) :=
  match body with
  | .timerFired id => inferInstanceAs (Decidable (id = t.awaitCommand ∧ _ = true))
  | .startInstance .. | .actionCompleted .. | .actionFailed .. | .humanCompleted .. | .humanCandidatesResolved ..
  | .humanClaimed .. | .humanReassigned .. | .signalReceived .. | .messageReceived .. | .subInstanceCompleted ..
  | .subInstanceFailed .. | .compensateRequested .. | .cancelRequested | .resolveIncident .. | .resolveCompensationStall .. =>
    inferInstanceAs (Decidable False)

instance (x : InstanceState) (body : TriggerBody) (t : Token) : Decidable (MovesOn x body t) :=
  inferInstanceAs (Decidable (_ ∧ _ ∧ _ ∧ _))

/-- The failure is the last one and the node has a recovery flow. -/
def Recovers (c : StepCtx) (x : InstanceState) (t : Token) : TriggerBody → Prop
  | .actionFailed id err retryable _ _ => id = t.awaitCommand ∧ ∃ tdef eff, defForScope c.top x.scopes t.scopeID = .ok tdef ∧
      effectiveRetryPolicy c.opt (tdef.node t.nodeID) = some eff ∧ retryExhausted c eff t err retryable = true ∧
      ((tdef.node t.nodeID).map (·.recoveryFlowOf)).getD "" ≠ ""
  | _ => False

/-- The token stands where the other stood: it has not been routed since. -/
structure Token.Stood (t t' : Token) : Prop where
  id : t'.id = t.id
  nodeID : t'.nodeID = t.nodeID
  scopeID : t'.scopeID = t.scopeID
  enteredAt : t'.enteredAt = t.enteredAt
  arrivalFlow : t'.arrivalFlow = t.arrivalFlow

/-- The count of the attempts once the operator has granted more. -/
def TriggerBody.regrants : TriggerBody → Int → Int
  | .resolveIncident _ n, attempts => max 0 (attempts - n)
  | _, attempts => attempts

/-- What a trigger that does not move the token on makes of it: it stays as it is, its action failed and is retried or
not, the node's recovery flow takes it with a fresh budget, or its action is invoked again. -/
inductive StepsOn (c : StepCtx) (x : InstanceState) (body : TriggerBody) (t : Token) : Token → Prop
  | still : StepsOn c x body t t
  | retried {tdef : ProcessDefinition} {eff : RetryPolicy} {err : String} {retryable : Bool} {jitter : Rat}
      {cause : Option String} (since : Time) (hawait : t.awaitCommand ≠ "")
      (hbody : body = .actionFailed t.awaitCommand err retryable jitter cause)
      (hdef : defForScope c.top x.scopes t.scopeID = .ok tdef)
      (heff : effectiveRetryPolicy c.opt (tdef.node t.nodeID) = some eff)
      (hleft : retryExhausted c eff t err retryable = false) :
      StepsOn c x body t { t with
        retryAttempts := t.retryAttempts + 1, retryStartedAt := since, state := .waiting,
        awaitCommand := c.ids.newID .timer (x.timerSeq + 1) }
  | failed (hbody : body.reportsFailure = true) : StepsOn c x body t { t with state := .incident }
  | recovered {t' : Token} (hrec : Recovers c x t body) (ht : t'.Unspent) : StepsOn c x body t t'
  | invoked (h : Reinvokes x t body) :
      StepsOn c x body t { t with
        retryAttempts := body.regrants t.retryAttempts, state := .waiting,
        awaitCommand := c.ids.newID .command (x.cmdSeq + 1) }

theorem StepsOn.stood {c : StepCtx} {x : InstanceState} {body : TriggerBody} (h : StepsOn c x body t t')
    (hused : ¬ t'.Unspent) : t.Stood t' := by
  cases h with
  | recovered hrec ht => exact absurd ht hused
  | _ => exact ⟨rfl, rfl, rfl, rfl, rfl⟩

section Steps
variable {c : StepCtx} {x : InstanceState} {r : StepResult} {fuel : Nat}

/-- An operation that is about no token leaves it alone. -/
theorem Does.rests (hop : g.Opaque) (ht : t.OnID g) (h : Does g .cancelRequested d0 x r) (hids : x.desk.Ids g)
    (hrest : x.desk.Rests g t) : r.state.desk.Rests g t := by
  have hnamed : ¬ Named d0 .cancelRequested t := by
    rintro ⟨-, -, hr⟩
    cases hr
  have hres : ∀ id n, TriggerBody.cancelRequested ≠ .resolveIncident id n := by
    rintro _ _ ⟨⟩
  exact Acts.rests hop ht hnamed hres h hids hrest

theorem Does.ids (h : Does g trg d0 x r) (hids : x.desk.Ids g) : r.state.desk.Ids g :=
  (Acts.induct (fun _ _ _ => trivial) h hids trivial).1

/-- The failing token of an error is lost with the scope it was in, or stays, or has an incident. -/
theorem propagate_rests (hop : c.ids.Opaque) (ht : t.OnID c.ids) (hids : x.desk.Ids c.ids) (hrest : x.desk.Rests c.ids t)
    (hmem : t ∈ x.tokens) {scope : String} {cause : Option String} {raise_ : Bool}
    (h : propagateError (drive c fuel) c x scope t.nodeID t.id err cause raise_ = .ok r) :
    r.state.desk.Rests c.ids t ∨ r.state.tokens = (x.toControlState.setTokenState t.id .incident).tokens := by
  have hdrv : DoesDrive c.ids .cancelRequested x.desk (drive c fuel) := does_drive fuel
  unfold propagateError at h
  dsimp only at h
  obtain ⟨own, -, h⟩ := bind_ok h
  split at h
  · -- a boundary of the activity itself: the token is consumed before the loop runs
    rename_i td nodeID e _
    left
    unfold routeToBoundary at h
    dsimp only at h
    split at h
    · cases h
    · rename_i f _ _
      set y := (emitFireOnceAction c.ids x e.action).state with hy
      have hfire : Does c.ids .cancelRequested x.desk x (emitFireOnceAction c.ids x e.action) := does_fireOnce x e.action
      have hyids : y.desk.Ids c.ids := hfire.ids hids
      have hyrest : y.desk.Rests c.ids t := hfire.rests hop ht hids hrest
      obtain ⟨z, hz, hzids, hzrest⟩ : ∃ z, (consumeFailing c scope t.nodeID t.id y).state = z ∧ z.desk.Ids c.ids ∧
          z.desk.Rests c.ids t := by
        unfold consumeFailing
        dsimp only
        split
        · rename_i t1 _
          refine ⟨_, rfl, ?_⟩
          rw [onControl_desk]
          by_cases hempty : t1.id = ""
          · have hsame : (y.toControlState.consumeTokenAs t1 c.at_ .boundaryInterrupted).front = y.toControlState.front := by
              unfold consumeTokenAs removeToken
              rw [if_pos (by simpa using hempty)]
              exact closeVisitAs_front _ _ _ _
            rw [hsame]
            exact ⟨hyids, hyrest⟩
          · rw [consumeTokenAs_front _ hempty]
            exact ⟨hyids.filter _, fun t ht => hyrest.same t (List.mem_of_mem_filter ht), hyrest.queue, hyrest.minted⟩
        · exact ⟨_, rfl, hyids, hyrest⟩
      rw [hz] at h
      obtain ⟨r1, h1, rfl⟩ := map_prepend_ok h
      have hplace : Does c.ids .cancelRequested x.desk z
          ⟨z.onControl (·.placeTokenInScope c.ids f.flow.target scope f.identity c.at_), []⟩ := does_place z _ _ _ _
      rw [StepResult.prepend_state]
      exact (hplace.silently (hdrv _ _ h1)).rests hop ht hzids hzrest
  · obtain ⟨handler, -, h⟩ := bind_ok h
    split at h
    · exact Or.inl ((does_routeToBoundary hdrv (does_consumeErrScope c _ _) h).rests hop ht hids hrest)
    · cases raise_ with
      | false =>
        have hraise : ∀ {P : Prop}, false = true → P := by
          rintro P ⟨⟩
        exact Or.inl ((does_unhandled hdrv hraise h).rests hop ht hids hrest)
      | true =>
        right
        unfold handleUnhandledError at h
        rw [if_pos rfl] at h
        rw [← Except.ok.inj h]
        unfold raiseActionIncident
        rw [tokenByID_of_sane hids.sane hmem]
        dsimp only
        rw [InstanceState.raise_control]
        rfl

/-- The token that was changed by its id. -/
theorem eq_of_updated {s : ControlState} {f : Token → Token} (hnodup : ∀ t1 ∈ s.tokens, t1.id = t.id → t1 = t)
    (ht' : t' ∈ (s.updateToken t.id f).tokens) (hid : t'.id = t.id) : t' = f t := by
  obtain ⟨t1, ht1, rfl⟩ := List.mem_map.mp ht'
  by_cases he : t1.id = t.id
  · rw [if_pos (by simpa using he), hnodup t1 ht1 he]
  · rw [if_neg (by simpa using he)] at hid
    exact absurd hid he

/-- A token of another id is not. -/
theorem eq_of_not_updated {s : ControlState} {f : Token → Token} {other : String}
    (hnodup : ∀ t1 ∈ s.tokens, t1.id = t.id → t1 = t) (hf : ∀ t : Token, (f t).id = t.id) (hne : t.id ≠ other)
    (ht' : t' ∈ (s.updateToken other f).tokens) (hid : t'.id = t.id) : t' = t := by
  obtain ⟨t1, ht1, rfl⟩ := List.mem_map.mp ht'
  by_cases he : t1.id = other
  · rw [if_pos (by simpa using he), hf] at hid
    exact absurd (hid.symm.trans he) hne
  · rw [if_neg (by simpa using he)] at hid ⊢
    exact hnodup t1 ht1 hid

/-- The token takes the recovery flow with a fresh budget. -/
theorem recovery_unspent {tdef : ProcessDefinition} {nodeID flow : String}
    (h : takeRecoveryFlow (drive c fuel) c x tdef t nodeID flow err cmds = .ok r) (ht' : t' ∈ r.state.tokens)
    (hid : t'.id = t.id) : t'.Unspent := by
  unfold takeRecoveryFlow at h
  dsimp only at h
  split at h
  · cases h
  · split at h
    · cases h
    · obtain ⟨r1, h1, rfl⟩ := map_prepend_ok h
      rcases carriesOn_drive fuel _ r1 h1 t' ht' with hun | ⟨t1, ht1, hc⟩
      · exact hun
      · -- before the loop every token of the id has its counters at zero
        rcases (carries_moveTokenToTarget _ _ _ _ _) t1 ht1 with hun | ⟨t2, ht2, hc2⟩
        · exact ⟨hc.retryAttempts.trans hun.1, hc.retryStartedAt.trans hun.2⟩
        · obtain ⟨t3, -, rfl⟩ := List.mem_map.mp ht2
          have hid3 : t3.id = t.id := by
            have hsame := hc2.id.symm.trans (hc.id.symm.trans hid)
            by_cases he : t3.id = t.id
            · exact he
            · rw [if_neg (by simpa using he)] at hsame
              exact hsame
          rw [if_pos (by simpa using hid3)] at hc2
          exact ⟨hc.retryAttempts.trans hc2.retryAttempts, hc.retryStartedAt.trans hc2.retryStartedAt⟩

/-- A report of failure. -/
theorem failure_steps (hop : c.ids.Opaque) (hids : x.desk.Ids c.ids) (ht : t.OnID c.ids) (hmem : t ∈ x.tokens)
    (hrest : x.desk.Rests c.ids t) {retryable : Bool} {jitter : Rat} {cause : Option String}
    (h : handleActionFailed (drive c fuel) c x t.awaitCommand err retryable jitter cause = .ok r) (ht' : t' ∈ r.state.tokens)
    (hid : t'.id = t.id) : StepsOn c x (.actionFailed t.awaitCommand err retryable jitter cause) t t' := by
  have hstill : ∀ {r : StepResult}, r.state.desk.Rests c.ids t → t' ∈ r.state.tokens →
      StepsOn c x (.actionFailed t.awaitCommand err retryable jitter cause) t t' := by
    intro r hr ht'
    rw [hr.same t' ht' hid]
    exact .still
  have hother : ∀ tok, x.tokenAwaiting t.awaitCommand = some tok → tok ≠ t → r.state.desk.Rests c.ids t := by
    intro tok htok hne
    obtain ⟨-, hcmd, hnempty⟩ := tokenAwaiting_some htok
    have hdoes : Does c.ids (.actionFailed t.awaitCommand err retryable jitter cause) { x.desk with tokens := [tok] } x r :=
      does_failure (does_drive fuel) (fun tok' htok' => by
        cases htok.symm.trans htok'
        exact named_of List.mem_cons_self hcmd hnempty (hcmd ▸ Replies.failed err retryable jitter cause)) rfl rfl rfl rfl
        (hcmd ▸ hnempty) h
    refine Acts.rests hop ht (fun hn => ?_) (by rintro _ _ ⟨⟩) hdoes hids hrest
    exact hne (List.mem_singleton.mp hn.mem).symm
  unfold handleActionFailed at h
  split at h
  · -- the failure is the walk's: no token is named
    rename_i hactive
    simp only [Bool.and_eq_true, beq_iff_eq] at hactive
    have hfails : WalkFails { x.desk with tokens := [] } (.actionFailed t.awaitCommand err retryable jitter cause) :=
      ⟨err, retryable, jitter, cause, by rw [← hactive.2]; rfl⟩
    have hdoes : Does c.ids (.actionFailed t.awaitCommand err retryable jitter cause) { x.desk with tokens := [] } x r :=
      does_compensationFailed (does_drive fuel) rfl rfl rfl hactive.2.symm ht.ne_empty hfails h
    refine hstill (Acts.rests hop ht (fun hn => ?_) (by rintro _ _ ⟨⟩) hdoes hids hrest) ht'
    exact List.not_mem_nil hn.mem
  · split at h
    · cases h
      exact hstill hrest ht'
    · split at h
      · cases h
      · rename_i tok htok
        by_cases hne : tok = t
        swap
        · exact hstill (hother tok htok hne) ht'
        · subst hne
          set y := (x.removeBoundaryArmsForHost tok.id).state with hy
          have hctl : y.toControlState = x.toControlState := x.removeBoundaryArmsForHost_control tok.id
          have hdrop : Does c.ids .cancelRequested x.desk x (x.removeBoundaryArmsForHost tok.id) :=
            does_removeBoundaries x tok.id
          have hyids : y.desk.Ids c.ids := hdrop.ids hids
          have hyrest : y.desk.Rests c.ids tok := hdrop.rests hop ht hids hrest
          have hymem : tok ∈ y.tokens := by
            rw [hctl]
            exact hmem
          have hpropagate : ∀ {raise_ : Bool} {r2 : StepResult},
              propagateError (drive c fuel) c y tok.scopeID tok.nodeID tok.id err cause raise_ = .ok r2 →
              t' ∈ r2.state.tokens →
              StepsOn c x (.actionFailed tok.awaitCommand err retryable jitter cause) tok t' := by
            intro raise_ r2 h2 ht2
            rcases propagate_rests hop ht hyids hyrest hymem h2 with hr | hr
            · exact hstill hr ht2
            · rw [hr] at ht2
              rw [eq_of_updated (f := fun t => { t with state := .incident }) hyrest.same ht2 hid]
              exact .failed rfl
          obtain ⟨tdef, hdef, h⟩ := bind_ok h
          rw [hctl] at hdef
          dsimp only at h
          split at h
          · obtain ⟨r2, h2, rfl⟩ := map_prepend_ok h
            exact hpropagate h2 ht'
          · rename_i eff heff
            split at h
            · rename_i hleft
              cases h
              have hseq : y.timerSeq = x.timerSeq := by
                rw [hy]
                unfold InstanceState.removeBoundaryArmsForHost
                split <;> rfl
              have heq := eq_of_updated (s := y.toControlState) (f := fun t => { t with
                retryAttempts := t.retryAttempts + 1
                retryStartedAt := if isZeroTime t.retryStartedAt then c.at_ else t.retryStartedAt
                state := .waiting
                awaitCommand := c.ids.newID .timer (y.timerSeq + 1) }) hyrest.same ht' hid
              rw [heq, hseq]
              exact .retried _ ht.ne_empty rfl hdef heff (by simpa using hleft)
            · rename_i hleft
              split at h
              · rename_i hflow
                exact .recovered ⟨rfl, tdef, eff, hdef, heff, by simpa using hleft, by simpa using hflow⟩
                  (recovery_unspent h ht' hid)
              · obtain ⟨r2, h2, rfl⟩ := map_prepend_ok h
                exact hpropagate h2 ht'

/-- The action of the token is invoked again, or another token's. -/
theorem reinvoke_steps {y : InstanceState} (hinv : Reinvokes x tok trg) (hone : ∀ t1 ∈ x.tokens, t1.id = t.id → t1 = t)
    (hseq : y.cmdSeq = x.cmdSeq) (hy : y.tokens = (x.toControlState.updateToken tok.id (fun t =>
      { t with retryAttempts := trg.regrants t.retryAttempts, state := .active })).tokens ∨
      (y.tokens = x.tokens ∧ ∀ n, trg.regrants n = n))
    (h : reinvokeServiceAction c y tok = .ok r) (ht' : t' ∈ r.state.tokens) (hid : t'.id = t.id)
    (hsame : tok.id = t.id → tok = t) : StepsOn c x trg t t' := by
  have hawait : ∀ t : Token, (fun t : Token => { t with state := .waiting, awaitCommand := y.nextCmdID c.ids }) t =
      { t with state := .waiting, awaitCommand := c.ids.newID .command (x.cmdSeq + 1) } := by
    intro t
    unfold ControlState.nextCmdID
    rw [hseq]
  rw [reinvoke_control h] at ht'
  obtain ⟨t1, ht1, he1⟩ : ∃ t1 ∈ y.tokens, t' = if t1.id == tok.id then
      { t1 with state := .waiting, awaitCommand := c.ids.newID .command (x.cmdSeq + 1) } else t1 := by
    obtain ⟨t1, ht1, rfl⟩ := List.mem_map.mp ht'
    refine ⟨t1, ht1, ?_⟩
    split
    · exact hawait t1
    · rfl
  have hid1 : t1.id = t.id := by
    rw [he1] at hid
    split at hid <;> exact hid
  rcases hy with hy | ⟨hy, hkeep⟩
  · rw [hy] at ht1
    by_cases htok : tok.id = t.id
    · obtain rfl := hsame htok
      rw [eq_of_updated hone ht1 hid1] at he1
      rw [he1, if_pos (by simp)]
      exact .invoked hinv
    · rw [eq_of_not_updated (f := fun t => { t with retryAttempts := trg.regrants t.retryAttempts, state := .active })
        hone (fun _ => rfl) (fun he => htok he.symm) ht1 hid1] at he1
      rw [he1, if_neg (by simpa using fun he => htok he.symm)]
      exact .still
  · rw [hy] at ht1
    rw [hone t1 ht1 hid1] at he1
    by_cases htok : tok.id = t.id
    · obtain rfl := hsame htok
      rw [he1, if_pos (by simp)]
      have hinvoked := StepsOn.invoked (c := c) hinv
      rw [hkeep] at hinvoked
      exact hinvoked
    · rw [he1, if_neg (by simpa using fun he => htok he.symm)]
      exact .still

/-- The retry timer of the token. -/
theorem retry_steps (hop : c.ids.Opaque) (hids : x.desk.Ids c.ids) (ht : t.OnID c.ids) (hmem : t ∈ x.tokens)
    (hrest : x.desk.Rests c.ids t) (hretry : (x.timerByID t.awaitCommand).any (fun tr => tr.kind == .retry) = true)
    (h : handleTimerFired (drive c fuel) c x t.awaitCommand = .ok r) (ht' : t' ∈ r.state.tokens) (hid : t'.id = t.id) :
    StepsOn c x (.timerFired t.awaitCommand) t t' := by
  have hstill : ∀ {r : StepResult}, r.state.desk.Rests c.ids t → t' ∈ r.state.tokens →
      StepsOn c x (.timerFired t.awaitCommand) t t' := by
    intro r hr ht'
    rw [hr.same t' ht' hid]
    exact .still
  have hsame : ∀ {y : InstanceState}, y.tokens = x.tokens → t' ∈ y.tokens →
    StepsOn c x (.timerFired t.awaitCommand) t t' := by
    intro y hy ht'
    rw [hy] at ht'
    rw [hrest.same t' ht' hid]
    exact .still
  obtain ⟨tr, htr, hkind⟩ : ∃ tr, x.timerByID t.awaitCommand = some tr ∧ tr.kind = .retry := by
    cases htr : x.timerByID t.awaitCommand with
    | none =>
      rw [htr] at hretry
      cases hretry
    | some tr =>
      rw [htr] at hretry
      exact ⟨tr, rfl, by simpa using hretry⟩
  have htrid : tr.timerID = t.awaitCommand := by
    unfold InstanceState.timerByID at htr
    split at htr
    · cases htr
    · simpa using List.find?_some htr
  unfold handleTimerFired at h
  split at h
  · rename_i res hcascade
    have hdoes : Does c.ids .cancelRequested x.desk x r :=
      does_cascade (does_drive fuel) rfl (fun ae hae => armByTimer_mem hae) (hcascade.trans (congrArg some h))
    exact hstill (hdoes.rests hop ht hids hrest) ht'
  · rename_i hcascade
    rw [htr] at h
    dsimp only at h
    split at h
    · cases h
      exact hsame (by rw [InstanceState.removeTimer_control]) ht'
    · rename_i hdying
      have hspawns : x.spawnsNewWork = true := by
        rw [hkind] at hdying
        simpa [TimerKind.firesOnDyingInstance] using hdying
      obtain ⟨hgw, hba, hsub⟩ : armByTimer (·.toTriggerMatch) x.armedEvents t.awaitCommand = none ∧
          armByTimer (·.toTriggerMatch) x.boundaries t.awaitCommand = none ∧
          armByTimer (·.toTriggerMatch) x.eventTriggeredSubprocesses t.awaitCommand = none := by
        unfold dispatchArmCascade at hcascade
        rw [hspawns] at hcascade
        rw [if_neg (by simp)] at hcascade
        split at hcascade
        · cases hcascade
        · cases hcascade
        · cases hcascade
        · rename_i h1 h2 h3
          exact ⟨h1, h2, h3⟩
      rw [hkind] at h
      dsimp only at h
      unfold handleRetryFired at h
      split at h
      · cases h
        exact hsame rfl ht'
      · rename_i tok htok
        obtain ⟨hmemtok, -, -⟩ := tokenAwaiting_some htok
        have hinvoke : reinvokeServiceAction c (x.removeTimer tr.timerID) tok = .ok r := by
          cases hres : reinvokeServiceAction c (x.removeTimer tr.timerID) tok with
          | error e =>
            rw [hres] at h
            cases h
          | ok r' =>
            rw [hres] at h
            exact h
        have hagain : Reinvokes x tok (.timerFired t.awaitCommand) := ⟨⟨tr, htr, hkind, htok⟩, hspawns, hgw, hba, hsub⟩
        refine reinvoke_steps (y := x.removeTimer tr.timerID) hagain
          hrest.same ?_ (Or.inr ⟨?_, fun _ => rfl⟩) hinvoke ht' hid (fun he => hids.eq_of_id hmemtok hmem he)
        · rw [InstanceState.removeTimer_control]
        · rw [InstanceState.removeTimer_control]

/-- The resolution of an incident, the token's or another's. -/
theorem resolve_steps (hids : x.desk.Ids c.ids) (hmem : t ∈ x.tokens) {incidentID : String} {n : Int}
    (h : handleResolveIncident c x incidentID n = .ok r) (ht' : t' ∈ r.state.tokens) (hid : t'.id = t.id) :
    StepsOn c x (.resolveIncident incidentID n) t t' := by
  have hone : ∀ t1 ∈ x.tokens, t1.id = t.id → t1 = t := fun t1 ht1 he => hids.eq_of_id ht1 hmem he
  have hsame : ∀ {y : InstanceState}, y.tokens = x.tokens → t' ∈ y.tokens →
    StepsOn c x (.resolveIncident incidentID n) t t' := by
    intro y hy ht'
    rw [hy] at ht'
    rw [hone t' ht' hid]
    exact .still
  unfold handleResolveIncident at h
  split at h
  · cases h
    exact hsame rfl ht'
  · rename_i inc hinc
    split at h
    · cases h
    · rename_i hkind
      dsimp only at h
      split at h
      · cases h
        exact hsame rfl ht'
      · rename_i tok htok
        have htok' : x.tokenByID inc.tokenID = some tok := htok
        have hmemtok : tok ∈ x.tokens := (tokenByID_some x.toControlState htok').1
        have hagain : Reinvokes x tok (.resolveIncident incidentID n) := ⟨inc, hinc, by simpa using hkind, htok'⟩
        refine reinvoke_steps hagain hone ?_ (Or.inl ?_) h ht' hid
          (fun he => hids.eq_of_id hmemtok hmem he)
        · rfl
        · rfl

/-- The resolution of an incident brings no token. -/
theorem resolve_ids {incidentID : String} {n : Int} (h : handleResolveIncident c x incidentID n = .ok r)
    (ht' : t' ∈ r.state.tokens) : ∃ t ∈ x.tokens, t.id = t'.id := by
  unfold handleResolveIncident at h
  split at h
  · cases h
    exact ⟨t', ht', rfl⟩
  · split at h
    · cases h
    · dsimp only at h
      split at h
      · cases h
        exact ⟨t', ht', rfl⟩
      · rename_i tok _
        rw [reinvoke_control h] at ht'
        obtain ⟨t1, ht1, rfl⟩ := List.mem_map.mp ht'
        obtain ⟨t2, ht2, rfl⟩ := List.mem_map.mp ht1
        refine ⟨t2, ht2, ?_⟩
        by_cases he : t2.id = tok.id
        · simp [he]
        · simp [he]

/-- **A trigger that does not move a waiting token on** leaves it where it stands, or its recovery flow takes it. -/
theorem handle_steps (hop : c.ids.Opaque) (hids : x.desk.Ids c.ids) (ht : t.OnID c.ids) (hmem : t ∈ x.tokens)
    (hqueue : t.id ∉ x.desk.queue) {body : TriggerBody} (hkey : validateTriggerKey body = .ok ())
    (hflight : x.status = .compensating → x.InFlight) (hstays : ¬ MovesOn x body t)
    (h : handle (drive c fuel) c x body = .ok r) (ht' : t' ∈ r.state.tokens) (hid : t'.id = t.id) :
    StepsOn c x body t t' := by
  have hrest : x.desk.Rests c.ids t := ⟨fun t1 ht1 he => hids.eq_of_id ht1 hmem he, hqueue, hids.minted t hmem⟩
  -- a trigger that is no answer to the token
  have hquiet : (∀ id n, body ≠ .resolveIncident id n) → ¬ Replies x.desk t body → StepsOn c x body t t' := by
    intro hres hnone
    have hdoes : Does c.ids body x.desk x r := handle_does (does_drive fuel) hkey hflight h
    rw [(Acts.rests hop ht (fun hn => hnone hn.replies) hres hdoes hids hrest).same t' ht' hid]
    exact .still
  by_cases hreplies : Replies x.desk t body
  · by_cases hfails : body.reportsFailure = true
    · cases hreplies with
      | failed err retryable jitter cause => exact failure_steps hop hids ht hmem hrest h ht' hid
      | _ => cases hfails
    · by_cases hretry : RetryFires x t body
      · cases hreplies with
        | timer => exact retry_steps hop hids ht hmem hrest hretry.2 h ht' hid
        | deadline tr htr htask =>
          obtain ⟨he, hkind⟩ := hretry
          rw [he] at h hkind ⊢
          exact retry_steps hop hids ht hmem hrest hkind h ht' hid
        | _ => cases hretry
      · exact absurd ⟨ht.ne_empty, hreplies, by simpa using hfails, hretry⟩ hstays
  · by_cases hres : ∃ id n, body = .resolveIncident id n
    · obtain ⟨id, n, rfl⟩ := hres
      exact resolve_steps hids hmem h ht' hid
    · exact hquiet (fun id n he => hres ⟨id, n, he⟩) hreplies

end Steps

/-! ## Runs -/

/-- The trigger moves on no token whose counters are used, and an incident is resolved only while its token stands failed. -/
def SparesBudgets (x : InstanceState) (body : TriggerBody) : Prop :=
  ResolvesFailed x.desk body ∧ ∀ t ∈ x.tokens, t.Unspent ∨ ¬ MovesOn x body t

instance (x : InstanceState) (body : TriggerBody) : Decidable (SparesBudgets x body) := inferInstanceAs (Decidable (_ ∧ _))

/-- A token with used counters waits under an id. -/
structure Kept (g : IDGenerator) (x : InstanceState) : Prop where
  ids : x.desk.Ids g
  shapes : x.desk.Shapes
  spent : ∀ t ∈ x.tokens, t.Unspent ∨ t.OnID g

section Runs
variable {c : StepCtx} {x : InstanceState} {r : StepResult} {fuel : Nat} {body : TriggerBody}

/-- A token that does not move on and has used counters waits under an id. -/
theorem StepsOn.onID (h : StepsOn c x body t t') (hk : Kept c.ids x) (hmem : t ∈ x.tokens)
    (hres : ResolvesFailed x.desk body) :
    t'.Unspent ∨ t'.OnID c.ids := by
  have hshaped := hk.shapes.shaped t hmem
  cases h with
  | still => exact hk.spent t hmem
  | retried since hawait hbody hdef heff hleft => exact Or.inr ⟨nofun, ⟨_, _, rfl⟩, hshaped.silent hawait⟩
  | failed hbody =>
    rcases hk.spent t hmem with hun | hon
    · exact Or.inl hun
    · exact Or.inr ⟨nofun, hon.minted, hon.silent⟩
  | recovered hrec ht => exact Or.inl ht
  | invoked hinv =>
    refine Or.inr ⟨nofun, ⟨_, _, rfl⟩, ?_⟩
    change t.awaitSignal = "" ∧ t.awaitMessage = ""
    unfold Reinvokes at hinv
    split at hinv
    · obtain ⟨⟨tr, -, -, htok⟩, -⟩ := hinv
      obtain ⟨-, hcmd, hne⟩ := tokenAwaiting_some htok
      exact hshaped.silent (hcmd ▸ hne)
    · rename_i id n
      obtain ⟨inc, hinc, hkind, htok⟩ := hinv
      have hid : inc.id = id := by simpa using List.find?_some hinc
      have hstate : t.state = .incident := hres inc (List.mem_of_find?_eq_some hinc) hkind ⟨n, by rw [hid]⟩ t hmem
        (tokenByID_some x.toControlState htok).2.1
      constructor
      · by_contra hs
        rw [(hshaped.signal hs).1] at hstate
        cases hstate
      · by_contra hm
        rw [(hshaped.message hm).1] at hstate
        cases hstate
    · exact hinv.elim

/-- **A token that a trigger leaves behind with used counters stands where it stood.** -/
theorem handle_arrivals (hop : c.ids.Opaque) (hk : Kept c.ids x) (hspares : SparesBudgets x body)
    (hkey : validateTriggerKey body = .ok ()) (hflight : x.status = .compensating → x.InFlight)
    (h : handle (drive c fuel) c x body = .ok r) :
    ∀ t' ∈ r.state.tokens, t'.Unspent ∨ ∃ t ∈ x.tokens, t.id = t'.id ∧ StepsOn c x body t t' := by
  intro t' ht'
  have hspent : ∀ t ∈ x.tokens, t.id = t'.id → ¬ t.Unspent → StepsOn c x body t t' := by
    intro t hmem hid hused
    have hon := (hk.spent t hmem).resolve_left hused
    exact handle_steps hop hk.ids hon hmem (hk.shapes.not_queued_of_await hmem hon.ne_empty) hkey hflight
      ((hspares.2 t hmem).resolve_left hused) h ht' hid.symm
  have hcarried : Carries r.state.tokens x.tokens → t'.Unspent ∨ ∃ t ∈ x.tokens, t.id = t'.id ∧ StepsOn c x body t t' := by
    intro hc
    rcases hc t' ht' with hun | ⟨t, hmem, hc⟩
    · exact Or.inl hun
    · by_cases hun : t.Unspent
      · exact Or.inl ⟨hc.retryAttempts.trans hun.1, hc.retryStartedAt.trans hun.2⟩
      · exact Or.inr ⟨t, hmem, hc.id.symm, hspent t hmem hc.id.symm hun⟩
  by_cases hfail : ∃ id err retryable jitter cause, body = .actionFailed id err retryable jitter cause
  · obtain ⟨id, err, retryable, jitter, cause, rfl⟩ := hfail
    rcases actionFailed_carries (carriesOn_drive fuel) h with hc | ⟨tok, tdef, eff, htok, hdef, heff, hleft, htokens⟩
    · exact hcarried hc
    · obtain ⟨hmem, hcmd, hne⟩ := tokenAwaiting_some htok
      have hone : ∀ t1 ∈ x.tokens, t1.id = tok.id → t1 = tok := fun t1 ht1 he => hk.ids.eq_of_id ht1 hmem he
      rw [htokens] at ht'
      obtain ⟨t1, ht1, he1⟩ := List.mem_map.mp ht'
      by_cases hid : t1.id = tok.id
      · -- the failed token waits for its retry timer
        rw [if_pos (by simpa using hid), hone t1 ht1 hid] at he1
        rw [← he1, ← hcmd]
        exact Or.inr ⟨tok, hmem, rfl, .retried _ (hcmd ▸ hne) rfl hdef heff hleft⟩
      · rw [if_neg (by simpa using hid)] at he1
        rw [← he1]
        exact Or.inr ⟨t1, ht1, rfl, .still⟩
  · by_cases hres : ∃ id n, body = .resolveIncident id n
    · obtain ⟨id, n, rfl⟩ := hres
      obtain ⟨t, hmem, hid⟩ := resolve_ids h ht'
      exact Or.inr ⟨t, hmem, hid, resolve_steps hk.ids hmem h ht' hid.symm⟩
    · exact hcarried (carried_handle (carriesOn_drive fuel) (fun _ _ _ _ _ he => hfail ⟨_, _, _, _, _, he⟩)
        (fun _ _ he => hres ⟨_, _, he⟩) r h)

theorem stepped_tokens {p : ProcessDefinition} {trg : Trigger} {opt : StepOptions} (h : step fuel p x trg opt = .ok r) :
    validateTriggerKey trg.body = .ok () ∧ ((r.state.tokens = x.tokens) ∨ ∃ r0,
      handle (drive (stepCtx p x trg opt) fuel) (stepCtx p x trg opt) x trg.body = .ok r0 ∧
      r.state.tokens = r0.state.tokens) := by
  unfold step at h
  obtain ⟨u, hkey, h⟩ := bind_ok h
  obtain ⟨-, -, h⟩ := bind_ok h
  dsimp only at h
  obtain ⟨r0, h0, h⟩ := bind_ok h
  have htokens : r.state.tokens = r0.state.tokens := by
    rw [← Except.ok.inj h, dropStaleTokenCommands_control]
  refine ⟨hkey, ?_⟩
  unfold dispatch at h0
  split at h0
  · split at h0
    · cases h0
      exact Or.inl htokens
    · cases h0
    · exact Or.inr ⟨r0, h0, htokens⟩
  · exact Or.inr ⟨r0, h0, htokens⟩

variable {p : ProcessDefinition} {gen : Option IDGenerator} {inst : String} {calls : List Call} {call : Call}

theorem ctx_ids (hrun : Run p gen inst calls x) (hgen : call.opt.idGenerator = gen) :
    (stepCtx p x call.trigger call.opt).ids = runIDs gen inst := by
  change call.opt.ids x.instanceID = runIDs gen inst
  unfold StepOptions.ids runIDs
  rw [hgen, hrun.sound.instanceID]

theorem step_arrivals (hop : (runIDs gen inst).Opaque) (hrun : Run p gen inst calls x) (hk : Kept (runIDs gen inst) x)
    (hgen : call.opt.idGenerator = gen) (hspares : SparesBudgets x call.trigger.body)
    (hstep : step call.fuel p x call.trigger call.opt = .ok r) :
    ∀ t' ∈ r.state.tokens, t'.Unspent ∨ ∃ t ∈ x.tokens, t.id = t'.id ∧
      StepsOn (stepCtx p x call.trigger call.opt) x call.trigger.body t t' := by
  rw [← ctx_ids hrun hgen] at hop hk
  obtain ⟨hkey, htokens | ⟨r0, h0, htokens⟩⟩ := stepped_tokens hstep
  · rw [htokens]
    exact fun t' ht' => Or.inr ⟨t', ht', rfl, .still⟩
  · rw [htokens]
    exact handle_arrivals hop hk hspares hkey hrun.sound.wf.phase.status.mp h0

theorem Heeds.before {P : InstanceState → TriggerBody → Prop} (h : Heeds P p gen inst (calls ++ [call])) :
    Heeds P p gen inst calls := fun before call' after x he hx =>
  h before call' (after ++ [call]) x (by rw [he, List.append_assoc, List.cons_append]) hx

/-- In a run that spares them, the tokens with used counters wait under an id. -/
theorem run_kept (hop : (runIDs gen inst).Opaque) (hrun : Run p gen inst calls x)
    (hheeds : Heeds SparesBudgets p gen inst calls) :
    Kept (runIDs gen inst) x := by
  have hblank : ({ instanceID := inst } : InstanceState).desk.Shapes :=
    ⟨by simp [InstanceState.desk, ControlState.front], by simp [InstanceState.desk, ControlState.front],
      by simp [InstanceState.desk, ControlState.front]⟩
  have hdesk : ∀ {calls : List Call} {x : InstanceState}, Run p gen inst calls x → Heeds SparesBudgets p gen inst calls →
      x.desk.Ids (runIDs gen inst) ∧ x.desk.Shapes := fun hrun hheeds =>
    Heeds.desk_induction hblank (fun hP _ _ hids h hact => hact.shapes hids h hP.1)
      (fun h => ⟨h.shaped, h.queued, h.queue⟩) hrun hheeds
  unfold Run at hrun
  induction hrun with
  | refl => exact ⟨(hdesk .refl hheeds).1, (hdesk .refl hheeds).2, fun t ht => by cases ht⟩
  | @tail calls y hpre call r hgen hstep ih =>
    have hpre' : Run p gen inst calls y := hpre
    have hk := ih hheeds.before
    have hspares := hheeds calls call [] y rfl hpre'
    obtain ⟨hids, hshapes⟩ := hdesk (Steps.tail hpre call r hgen hstep) hheeds
    refine ⟨hids, hshapes, fun t' ht' => ?_⟩
    rcases step_arrivals hop hpre' hk hgen hspares hstep t' ht' with hun | ⟨t, hmem, -, hsteps⟩
    · exact Or.inl hun
    · have hctx := ctx_ids hpre' hgen
      rw [← hctx] at hk ⊢
      exact hsteps.onID hk hmem hspares.1

/-! ## The attempts of a visit -/

/-- The command invokes an action under this id. -/
def Command.invokes (id : String) : Command → Bool
  | .invokeAction commandID _ _ fireAndForget => !fireAndForget && commandID == id
  | _ => false

def invocations (cmds : List Command) (id : String) : Nat := (cmds.filter (Command.invokes id)).length

/-- What the operator grants the token: the attempt that the resolution of its incident makes, and those it adds. -/
def TriggerBody.grants (x : InstanceState) (t : Token) : TriggerBody → Int
  | .resolveIncident id n =>
    if (x.incidents.find? (fun inc => inc.id == id)).any (fun inc => inc.kind == .action && inc.tokenID == t.id) then
      1 + max n 0
    else 0
  | _ => 0

/-- The visit goes on: nothing moves the token on, and a failure is judged by a policy of at most this many attempts. -/
structure Lingers (p : ProcessDefinition) (limit : Int) (x : InstanceState) (call : Call) (t : Token) : Prop where
  stays : ¬ MovesOn x call.trigger.body t
  unrecovered : ¬ Recovers (stepCtx p x call.trigger call.opt) x t call.trigger.body
  within : call.trigger.body.reportsFailure = true → ∀ tdef eff, defForScope p x.scopes t.scopeID = .ok tdef →
    effectiveRetryPolicy call.opt (tdef.node t.nodeID) = some eff → 0 < eff.maxAttempts ∧ eff.maxAttempts ≤ limit

/-- The token's visit of an activity, from the first invocation of its action on, with the invocations so far and what the
operator has granted. -/
inductive Visit (p : ProcessDefinition) (gen : Option IDGenerator) (inst : String) (limit : Int) :
    List Call → InstanceState → Token → Nat → Int → Prop
  | arrives {calls : List Call} {x : InstanceState} {call : Call} {r : StepResult} {t : Token} (hrun : Run p gen inst calls x)
      (hgen : call.opt.idGenerator = gen) (hstep : step call.fuel p x call.trigger call.opt = .ok r)
      (hmem : t ∈ r.state.tokens) (hawait : t.awaitCommand ≠ "") (hinvoked : invocations r.commands t.awaitCommand ≠ 0)
      (hnew : ∀ t0 ∈ x.tokens, t0.id = t.id → ¬ Reinvokes x t0 call.trigger.body) :
      Visit p gen inst limit (calls ++ [call]) r.state t (invocations r.commands t.awaitCommand) 0
  | goes {calls : List Call} {x : InstanceState} {call : Call} {r : StepResult} {t t' : Token} {n : Nat} {granted : Int}
      (h : Visit p gen inst limit calls x t n granted) (hgen : call.opt.idGenerator = gen)
      (hstep : step call.fuel p x call.trigger call.opt = .ok r) (hgo : Lingers p limit x call t) (hmem : t' ∈ r.state.tokens)
      (hid : t'.id = t.id) :
      Visit p gen inst limit (calls ++ [call]) r.state t' (n + invocations r.commands t'.awaitCommand)
        (granted + call.trigger.body.grants x t)

theorem invocations_le_count (cmds : List Command) {id : String} (hne : id ≠ "") :
    invocations cmds id ≤ (answerIDs cmds).count id := by
  rw [← count_answerIDs cmds hne]
  unfold invocations
  rw [← List.countP_eq_length_filter, ← List.countP_eq_length_filter]
  refine List.countP_mono_left (fun cmd _ h => ?_)
  cases cmd with
  | invokeAction commandID name input fireAndForget =>
    unfold Command.invokes at h
    rw [Bool.and_eq_true, Bool.not_eq_true'] at h
    unfold Command.correlationID
    rw [h.1]
    exact h.2
  | _ => cases h

/-- The ids a step invokes actions under are minted in it, each for one invocation. -/
theorem step_invocations (hop : (runIDs gen inst).Opaque) (hrun : Run p gen inst calls x) (hgen : call.opt.idGenerator = gen)
    (hstep : step call.fuel p x call.trigger call.opt = .ok r) {id : String} (hne : id ≠ "") :
    invocations r.commands id ≤ 1 ∧ (invocations r.commands id ≠ 0 → MintedSince (runIDs gen inst) x id) := by
  obtain ⟨r0, rfl, -, hbilled⟩ := step_billed hop hrun hgen hstep
  have hle := invocations_le_count (dropStaleTokenCommands r0).commands hne
  rw [dropStaleTokenCommands_answers] at hle
  refine ⟨hle.trans (List.nodup_iff_count_le_one.mp (hbilled.nodup.filter _) id), fun hsome => ?_⟩
  have hin : id ∈ (answerIDs r0.commands).filter (liveAwaiters r0.state.toControlState).contains :=
    List.count_pos_iff.mp (by omega)
  rcases hbilled.fresh id (List.mem_of_mem_filter hin) with ⟨k, hk, -, he⟩ | ⟨k, hk, -, he⟩
  · exact Or.inl ⟨k, hk, he⟩
  · exact Or.inr ⟨k, hk, he⟩

/-- Every timer has a timer's id. -/
theorem Act.timed (h : ∀ tr ∈ d.timers, ∃ k, tr.timerID = g.newID .timer k) (hact : Act g trg d0 d d' cmds) :
    ∀ tr ∈ d'.timers, ∃ k, tr.timerID = g.newID .timer k := by
  have hnew : ∀ {trs : List TimerRecord}, (∀ tr ∈ trs, ∃ k, tr.timerID = g.newID .timer k) →
      ∀ tr ∈ d.timers ++ trs, ∃ k, tr.timerID = g.newID .timer k := by
    intro trs htrs tr htr
    rcases List.mem_append.mp htr with htr | htr
    · exact h tr htr
    · exact htrs tr htr
  cases hact with
  | park tok f tasks nc nt n m cmds armCmds arms gws trs hmem ha hwait harm =>
    refine hnew (fun tr htr => ?_)
    obtain ⟨k, -, -, he⟩ := harm.timers.fresh tr.timerID (List.mem_append_right _ (List.mem_map_of_mem htr))
    exact ⟨k, he⟩
  | rewait tok f tr spec hmem hn htrg hf harms htr =>
    refine hnew (fun tr' htr' => ?_)
    rw [List.mem_singleton.mp htr']
    exact ⟨_, htr⟩
  | schedule tr spec hid =>
    refine hnew (fun tr' htr' => ?_)
    rw [List.mem_singleton.mp htr']
    exact ⟨_, hid⟩
  | dropTimers p fired cmds hfired hcmds => exact fun tr htr => h tr (List.mem_of_mem_filter htr)
  | finish tokens cmds cuts exits st htokens hcancel hcmds => exact nofun
  | _ => exact h

theorem run_timed (hrun : Run p gen inst calls x) : ∀ tr ∈ x.timers, ∃ k, tr.timerID = (runIDs gen inst).newID .timer k :=
  (Heeds.desk_induction (P := fun _ _ => True)
    (I := fun d => ∀ tr ∈ d.timers, ∃ k, tr.timerID = (runIDs gen inst).newID .timer k)
    nofun (fun _ _ _ _ h hact => hact.timed h) (fun h => h) hrun (fun _ _ _ _ _ _ => trivial)).2

/-- No action is invoked under an id that a token already waited under, nor under a timer's. -/
theorem no_invocation (hop : (runIDs gen inst).Opaque) (hrun : Run p gen inst calls x) (hgen : call.opt.idGenerator = gen)
    (hstep : step call.fuel p x call.trigger call.opt = .ok r) {id : String} (hne : id ≠ "")
    (hid : (∃ t ∈ x.tokens, t.awaitCommand = id) ∨ ∃ k, id = (runIDs gen inst).newID .timer k) :
    invocations r.commands id = 0 := by
  by_contra hsome
  have hbounded := (run_bounded hop hrun).2
  rcases (step_invocations hop hrun hgen hstep hne).2 hsome with ⟨k, hk, he⟩ | ⟨k, hk, he⟩
  · rcases hid with ⟨t, ht, hawait⟩ | ⟨m, hm⟩
    · exact absurd (hbounded.command t ht k (hawait.trans he)) (by
        change ¬ k ≤ x.cmdSeq
        omega)
    · cases ((runIDs gen inst).newID_inj _ _ _ _ (hm.symm.trans he)).1
  · rcases hid with ⟨t, ht, hawait⟩ | ⟨m, hm⟩
    · exact absurd (hbounded.task t ht k (hawait.trans he)) (by
        change ¬ k ≤ x.taskSeq
        omega)
    · cases ((runIDs gen inst).newID_inj _ _ _ _ (hm.symm.trans he)).1

theorem grants_nonneg (x : InstanceState) (t : Token) (body : TriggerBody) : 0 ≤ body.grants x t := by
  unfold TriggerBody.grants
  split
  · split
    · omega
    · exact le_rfl
  · exact le_rfl

/-- A failure that is not the last one leaves an attempt. -/
theorem retry_left {c : StepCtx} {eff : RetryPolicy} {retryable : Bool}
    (h : retryExhausted c eff t err retryable = false) (hpos : 0 < eff.maxAttempts) :
    t.retryAttempts + 1 < eff.maxAttempts := by
  unfold retryExhausted at h
  simp only [Bool.or_eq_false_iff, Bool.and_eq_false_iff, bne_eq_false_iff_eq, decide_eq_false_iff_not] at h
  omega

/-- What becomes of a waiting token in a step that does not move it on. -/
theorem step_steps (hop : (runIDs gen inst).Opaque) (hrun : Run p gen inst calls x) (hk : Kept (runIDs gen inst) x)
    (hgen : call.opt.idGenerator = gen) (ht : t.OnID (runIDs gen inst)) (hmem : t ∈ x.tokens)
    (hstays : ¬ MovesOn x call.trigger.body t) (hstep : step call.fuel p x call.trigger call.opt = .ok r)
    (ht' : t' ∈ r.state.tokens) (hid : t'.id = t.id) :
    StepsOn (stepCtx p x call.trigger call.opt) x call.trigger.body t t' := by
  rw [← ctx_ids hrun hgen] at hop hk ht
  obtain ⟨hkey, htokens | ⟨r0, h0, htokens⟩⟩ := stepped_tokens hstep
  · rw [htokens] at ht'
    rw [hk.ids.eq_of_id ht' hmem hid]
    exact .still
  · rw [htokens] at ht'
    exact handle_steps hop hk.ids ht hmem (hk.shapes.not_queued_of_await hmem ht.ne_empty) hkey hrun.sound.wf.phase.status.mp
      hstays h0 ht' hid

/-- The account of a visit: the invocations are covered by the count of the attempts and what was granted, with one left
over while a retry timer runs. -/
structure Visit.Account (g : IDGenerator) (limit : Int) (x : InstanceState) (t : Token) (n : Nat) (granted : Int) : Prop where
  mem : t ∈ x.tokens
  onID : t.OnID g
  attempts : 0 ≤ t.retryAttempts
  nonneg : 0 ≤ granted
  covered : (n : Int) ≤ min t.retryAttempts (limit - 1) + 1 + granted
  owed : (∃ k, t.awaitCommand = g.newID .timer k) → (n : Int) ≤ min t.retryAttempts (limit - 1) + granted

/-- The first invocation of a visit. -/
theorem arrival_account (hop : (runIDs gen inst).Opaque) {limit : Int} (hlimit : 0 < limit) (hrun : Run p gen inst calls x)
    (hheeds : Heeds SparesBudgets p gen inst (calls ++ [call])) (hgen : call.opt.idGenerator = gen)
    (hstep : step call.fuel p x call.trigger call.opt = .ok r) (hmem : t ∈ r.state.tokens) (hawait : t.awaitCommand ≠ "")
    (hinvoked : invocations r.commands t.awaitCommand ≠ 0)
    (hnew : ∀ t0 ∈ x.tokens, t0.id = t.id → ¬ Reinvokes x t0 call.trigger.body) :
    Visit.Account (runIDs gen inst) limit r.state t (invocations r.commands t.awaitCommand) 0 := by
  have hk := run_kept hop hrun hheeds.before
  have hk' := run_kept hop (Steps.tail hrun call r hgen hstep) hheeds
  obtain ⟨hle, hminted⟩ := step_invocations hop hrun hgen hstep hawait
  have hshaped := hk'.shapes.shaped t hmem
  have hfresh : ∀ t0 ∈ x.tokens, t0.awaitCommand ≠ t.awaitCommand := fun t0 ht0 he =>
    hinvoked (no_invocation hop hrun hgen hstep hawait (Or.inl ⟨t0, ht0, he⟩))
  have htimer : ∀ k, t.awaitCommand ≠ (runIDs gen inst).newID .timer k := fun k he =>
    hinvoked (no_invocation hop hrun hgen hstep hawait (Or.inr ⟨k, he⟩))
  -- the token did not stand there before
  have hun : t.Unspent := by
    rcases step_arrivals hop hrun hk hgen (hheeds calls call [] x rfl hrun) hstep t hmem with hun | ⟨t0, ht0, hid, hsteps⟩
    · exact hun
    · cases hsteps with
      | still => exact absurd rfl (hfresh t ht0)
      | retried since hawait' hbody hdef heff hleft =>
        rw [ctx_ids hrun hgen] at htimer
        exact absurd rfl (htimer _)
      | failed hbody => exact absurd rfl (hfresh t0 ht0)
      | recovered hrec ht => exact ht
      | invoked hinv => exact absurd hinv (hnew t0 ht0 hid)
  refine ⟨hmem, ⟨fun hactive => hawait (hshaped.active (Or.inl hactive)).awaitCommand, ?_, hshaped.silent hawait⟩, hun.1.ge,
    le_rfl, ?_, fun ⟨k, hk⟩ => absurd hk (htimer k)⟩
  · rcases hminted hinvoked with ⟨k, -, he⟩ | ⟨k, -, he⟩
    · exact ⟨_, _, he⟩
    · exact ⟨_, _, he⟩
  · rw [hun.1]
    omega

/-- A step of a visit keeps its account. -/
theorem Visit.Account.goes (hop : (runIDs gen inst).Opaque) {limit : Int} {n : Nat} {granted : Int}
    (ha : Visit.Account (runIDs gen inst) limit x t n granted) (hrun : Run p gen inst calls x)
    (hheeds : Heeds SparesBudgets p gen inst calls) (hgen : call.opt.idGenerator = gen)
    (hstep : step call.fuel p x call.trigger call.opt = .ok r) (hgo : Lingers p limit x call t) (hmem : t' ∈ r.state.tokens)
    (hid : t'.id = t.id) : Visit.Account (runIDs gen inst) limit r.state t' (n + invocations r.commands t'.awaitCommand)
      (granted + call.trigger.body.grants x t) := by
  have hk := run_kept hop hrun hheeds
  have hids := ctx_ids hrun hgen
  have hgrants := grants_nonneg x t call.trigger.body
  obtain ⟨hnonneg, hcovered, howed⟩ := And.intro ha.nonneg (And.intro ha.covered ha.owed)
  have hold : invocations r.commands t.awaitCommand = 0 :=
    no_invocation hop hrun hgen hstep ha.onID.ne_empty (Or.inl ⟨t, ha.mem, rfl⟩)
  have hsteps := step_steps hop hrun hk hgen ha.onID ha.mem hgo.stays hstep hmem hid
  cases hsteps with
  | still =>
    rw [hold]
    refine ⟨hmem, ha.onID, ha.attempts, by omega, by push_cast; omega, fun htimer => ?_⟩
    have := howed htimer
    push_cast
    omega
  | retried since hawait hbody hdef heff hleft =>
    -- the attempt that is counted is paid for by the next invocation
    obtain ⟨hpos, hlimit⟩ := hgo.within (by rw [hbody]; rfl) _ _ hdef heff
    have hlt := retry_left hleft hpos
    have hattempts := ha.attempts
    have hnone : invocations r.commands ((stepCtx p x call.trigger call.opt).ids.newID .timer (x.timerSeq + 1)) = 0 :=
      no_invocation hop hrun hgen hstep (IDGenerator.newID_ne_empty _ _ _) (Or.inr ⟨_, by rw [hids]⟩)
    refine ⟨hmem, ⟨nofun, ⟨.timer, _, by rw [hids]⟩, ha.onID.silent⟩, ?_, ?_, ?_, fun _ => ?_⟩
    · change 0 ≤ t.retryAttempts + 1
      omega
    · omega
    · rw [hnone]
      change _ ≤ min (t.retryAttempts + 1) (limit - 1) + 1 + _
      push_cast
      omega
    · rw [hnone]
      change _ ≤ min (t.retryAttempts + 1) (limit - 1) + _
      push_cast
      omega
  | failed hbody =>
    change Visit.Account _ _ _ _ (n + invocations r.commands t.awaitCommand) _
    rw [hold]
    refine ⟨hmem, ⟨nofun, ha.onID.minted, ha.onID.silent⟩, ha.attempts, by omega, ?_, fun htimer => ?_⟩
    · change _ ≤ min t.retryAttempts (limit - 1) + 1 + _
      push_cast
      omega
    · have := howed htimer
      change _ ≤ min t.retryAttempts (limit - 1) + _
      push_cast
      omega
  | recovered hrec ht => exact absurd hrec hgo.unrecovered
  | invoked hinv =>
    have hone : invocations r.commands ((stepCtx p x call.trigger call.opt).ids.newID .command (x.cmdSeq + 1)) ≤ 1 :=
      (step_invocations hop hrun hgen hstep (IDGenerator.newID_ne_empty _ _ _)).1
    have hattempts := ha.attempts
    obtain ⟨hleft, hpaid⟩ : 0 ≤ call.trigger.body.regrants t.retryAttempts ∧ (n : Int) + 1 ≤
        min (call.trigger.body.regrants t.retryAttempts) (limit - 1) + 1 + (granted + call.trigger.body.grants x t) := by
      cases hbody : call.trigger.body with
      | timerFired id =>
        rw [hbody] at hinv
        obtain ⟨⟨tr, htr, -, htok⟩, -⟩ := hinv
        obtain ⟨k, hk⟩ := run_timed hrun tr (timerByID_some htr).1
        have := howed ⟨k, (tokenAwaiting_some htok).2.1.trans hk⟩
        refine ⟨hattempts, ?_⟩
        change _ ≤ min t.retryAttempts (limit - 1) + 1 + (granted + 0)
        omega
      | resolveIncident id more =>
        rw [hbody] at hinv
        obtain ⟨inc, hinc, hkind, htok⟩ := hinv
        have hgranted : (TriggerBody.resolveIncident id more).grants x t = 1 + max more 0 := by
          unfold TriggerBody.grants
          dsimp only
          rw [hinc]
          refine if_pos ?_
          simp [hkind, (tokenByID_some x.toControlState htok).2.1]
        rw [hgranted]
        change 0 ≤ max 0 (t.retryAttempts - more) ∧ _ ≤ min (max 0 (t.retryAttempts - more)) (limit - 1) + 1 + _
        omega
      | _ =>
        rw [hbody] at hinv
        exact hinv.elim
    refine ⟨hmem, ⟨nofun, ⟨_, _, by rw [hids]⟩, ha.onID.silent⟩, hleft, by omega, ?_, fun ⟨k, hk⟩ => ?_⟩
    · push_cast
      omega
    · rw [hids] at hk
      cases ((runIDs gen inst).newID_inj _ _ _ _ hk).1

/-- **The attempts of a visit are within the policy's and the operator's.** -/
theorem Visit.account (hop : (runIDs gen inst).Opaque) {limit : Int} (hlimit : 0 < limit) {n : Nat} {granted : Int}
    (h : Visit p gen inst limit calls x t n granted) (hheeds : Heeds SparesBudgets p gen inst calls) :
    Run p gen inst calls x ∧ Visit.Account (runIDs gen inst) limit x t n granted := by
  induction h with
  | arrives hrun hgen hstep hmem hawait hinvoked hnew =>
    exact ⟨Steps.tail hrun _ _ hgen hstep, arrival_account hop hlimit hrun hheeds hgen hstep hmem hawait hinvoked hnew⟩
  | goes h hgen hstep hgo hmem hid ih =>
    obtain ⟨hrun, ha⟩ := ih hheeds.before
    exact ⟨Steps.tail hrun _ _ hgen hstep, ha.goes hop hrun hheeds.before hgen hstep hgo hmem hid⟩

/-- The first failure of a token whose counters are not used is the last one only if its policy says so. -/
theorem unspent_retried (c : StepCtx) {eff : RetryPolicy} (ht : t.Unspent) (hmax : 1 < eff.maxAttempts) (err : String) :
    retryExhausted c eff t err true = eff.isNonRetryable err := by
  have hcount : decide (eff.maxAttempts ≤ t.retryAttempts + 1) = false := by
    rw [ht.1]
    simpa using hmax
  unfold retryExhausted
  rw [hcount, ht.2]
  simp [isZeroTime]

/-- **The retry budget belongs to one visit** in every run that moves on no token whose counters are used: a token that has
them stands where it stood, so one that arrives has none and its first failure is judged by its own policy, and the
invocations of a visit are within the attempts of the policy and those the operator granted. -/
theorem budget_per_visit (hop : (runIDs gen inst).Opaque) (hheeds : Heeds SparesBudgets p gen inst calls) :
    (∀ before call after x r, calls = before ++ call :: after → Run p gen inst before x → call.opt.idGenerator = gen →
      step call.fuel p x call.trigger call.opt = .ok r → ∀ t' ∈ r.state.tokens,
        (t'.Unspent ∧ ∀ c eff err, 1 < eff.maxAttempts → retryExhausted c eff t' err true = eff.isNonRetryable err) ∨
        ∃ t ∈ x.tokens, t.Stood t' ∧ StepsOn (stepCtx p x call.trigger call.opt) x call.trigger.body t t') ∧
    ∀ limit x t n granted, 0 < limit → Visit p gen inst limit calls x t n granted → (n : Int) ≤ limit + granted := by
  constructor
  · intro before call after x r he hrun hgen hstep t' ht'
    have hbefore : Heeds SparesBudgets p gen inst before := fun before' call' after' x' he' hx =>
      hheeds before' call' (after' ++ call :: after) x' (by rw [he, he', List.append_assoc, List.cons_append]) hx
    by_cases hun : t'.Unspent
    · exact Or.inl ⟨hun, fun c eff err hmax => unspent_retried c hun hmax err⟩
    · have hspares := hheeds before call after x he hrun
      obtain ⟨t, hmem, -, hsteps⟩ :=
        (step_arrivals hop hrun (run_kept hop hrun hbefore) hgen hspares hstep t' ht').resolve_left hun
      exact Or.inr ⟨t, hmem, hsteps.stood hun, hsteps⟩
  · intro limit x t n granted hlimit hvisit
    have hcovered := (hvisit.account hop hlimit hheeds).2.covered
    omega

end Runs

/-! ## Two activities in turn -/

/-- Two tasks, the first tried three times and the second twice. -/
def triedInTurn : ProcessDefinition :=
  rowOf "turns" [
    { id := "a", spec := .serviceTask { retryPolicy := some { maxAttempts := 3 } } "charge" },
    { id := "b", spec := .serviceTask { retryPolicy := some { maxAttempts := 2 } } "ship" }]

/-- **The second task arrives with the attempt of the first**: its first failure is its last one, with an incident, although
its policy allows two attempts. -/
theorem next_activity_short_of_attempts : Accepted asciiTables triedInTurn ∧ ∃ x r y t, Run triedInTurn none "i" (callsFrom 1
      [.startInstance [] "", .actionFailed "i-c1" "down" true 0 none, .timerFired "i-tm1"]) x ∧
    step 50 triedInTurn x ⟨4, .actionCompleted "i-c2" []⟩ plainOptions = .ok r ∧ t ∈ r.state.tokens ∧ t.nodeID = "b" ∧
    (¬ ∃ t0 ∈ x.tokens, t0.Stood t) ∧ t.retryAttempts = 1 ∧ t.retryStartedAt ≠ 0 ∧
    Steps triedInTurn none r.state (callsFrom 5 [.actionFailed "i-c3" "down" true 0 none]) y ∧ y.incidents.length = 1 := by
  have hplay : playsThrough triedInTurn [.startInstance [] "", .actionFailed "i-c1" "down" true 0 none, .timerFired "i-tm1"]
      (.actionCompleted "i-c2" []) [.actionFailed "i-c3" "down" true 0 none] (fun x r y =>
        (r.state.tokens.any (fun t => t.nodeID == "b" && t.retryAttempts == 1 && t.retryStartedAt != 0) &&
          x.tokens.all (fun t => t.nodeID == "a")) && y.incidents.length == 1) = true := by decide
  refine ⟨by decide, ?_⟩
  obtain ⟨x, r, y, hrun, hstep, hafter, hP⟩ := run_of_playsThrough hplay
  rw [Bool.and_eq_true, Bool.and_eq_true, beq_iff_eq] at hP
  obtain ⟨⟨hany, hall⟩, hinc⟩ := hP
  obtain ⟨t, ht, htok⟩ := List.any_eq_true.mp hany
  simp only [Bool.and_eq_true, beq_iff_eq, bne_iff_ne] at htok
  obtain ⟨⟨hnode, hattempts⟩, hsince⟩ := htok
  refine ⟨x, r, y, t, hrun, hstep, ht, hnode, ?_, hattempts, hsince, hafter, hinc⟩
  rintro ⟨t0, ht0, hstood⟩
  have ha : t0.nodeID = "a" := by simpa using List.all_eq_true.mp hall t0 ht0
  rw [hstood.nodeID, ha] at hnode
  exact absurd hnode (by decide)

/-- The token of the first task is invoked, waits for its retry timer and is invoked again. -/
def triedAgain (r1 r2 r3 : StepResult) : Bool :=
  match r1.state.tokens, r2.state.tokens, r3.state.tokens with
  | [t1], [t2], [t3] =>
    (t1.awaitCommand != "" && t1.scopeID == "" && t1.nodeID == "a" && t2.id == t1.id && t3.id == t2.id) &&
      (decide (MovesOn r1.state (.actionFailed "i-c1" "down" true 0 none) t1) ||
        decide (MovesOn r2.state (.timerFired "i-tm1") t2)) == false &&
      (invocations r1.commands t1.awaitCommand == 1 && invocations r2.commands t2.awaitCommand == 0 &&
        invocations r3.commands t3.awaitCommand == 1)
  | _, _, _ => false

/-- The token on the first task is judged by the policy of the task, which has no recovery flow. -/
theorem first_task_policy {x : InstanceState} {t : Token} {tdef : ProcessDefinition} (hscope : t.scopeID = "")
    (hnode : t.nodeID = "a") (hdef : defForScope triedInTurn x.scopes t.scopeID = .ok tdef) :
    effectiveRetryPolicy plainOptions (tdef.node t.nodeID) = some { maxAttempts := 3 : RetryPolicy }.normalize ∧
      ((tdef.node t.nodeID).map (·.recoveryFlowOf)).getD "" = "" := by
  have htdef : tdef = triedInTurn := by
    rw [hscope] at hdef
    exact (Except.ok.inj hdef).symm
  rw [htdef, hnode]
  exact ⟨rfl, rfl⟩

/-- The results of the three steps. -/
def threeSteps (P : StepResult → StepResult → StepResult → Bool) : Bool :=
  match step 50 triedInTurn { instanceID := "i" } ⟨1, .startInstance [] ""⟩ plainOptions with
  | .error _ => false
  | .ok r1 =>
    match step 50 triedInTurn r1.state ⟨2, .actionFailed "i-c1" "down" true 0 none⟩ plainOptions with
    | .error _ => false
    | .ok r2 =>
      match step 50 triedInTurn r2.state ⟨3, .timerFired "i-tm1"⟩ plainOptions with
      | .error _ => false
      | .ok r3 => P r1 r2 r3

/-- The first task fails once and is invoked again: two of its three attempts. -/
theorem retried_visit_within_budget : ∃ x t, Heeds SparesBudgets triedInTurn none "i" (callsFrom 1 [.startInstance [] "",
      .actionFailed "i-c1" "down" true 0 none, .timerFired "i-tm1"]) ∧
    Visit triedInTurn none "i" 3 (callsFrom 1 [.startInstance [] "", .actionFailed "i-c1" "down" true 0 none,
      .timerFired "i-tm1"]) x t 2 0 ∧ ((2 : Nat) : Int) ≤ 3 + 0 := by
  have hheeds : Heeds SparesBudgets triedInTurn none "i" (callsFrom 1 [.startInstance [] "",
      .actionFailed "i-c1" "down" true 0 none, .timerFired "i-tm1"]) := heeds_of_heedsFrom (by decide)
  have hop : (runIDs none "i").Opaque := counterIDs_opaque "i"
  have hplay : threeSteps triedAgain = true := by decide
  unfold threeSteps at hplay
  split at hplay
  · cases hplay
  · rename_i r1 h1
    split at hplay
    · cases hplay
    · rename_i r2 h2
      split at hplay
      · cases hplay
      · rename_i r3 h3
        unfold triedAgain at hplay
        split at hplay
        · rename_i t1 t2 t3 ht1 ht2 ht3
          simp only [Bool.and_eq_true, beq_iff_eq, bne_iff_ne, Bool.or_eq_false_iff, decide_eq_false_iff_not] at hplay
          obtain ⟨⟨⟨⟨⟨⟨hawait, hscope⟩, hnode⟩, hid2⟩, hid3⟩, hstays1, hstays2⟩, ⟨hone, hnone⟩, htwo⟩ := hplay
          have hfirst : Visit triedInTurn none "i" 3 (callsFrom 1 [.startInstance [] ""]) r1.state t1 1 0 := by
            have hv : Visit triedInTurn none "i" 3 (callsFrom 1 [.startInstance [] ""]) r1.state t1
                (invocations r1.commands t1.awaitCommand) 0 :=
              .arrives Steps.refl rfl h1 (by rw [ht1]; exact List.mem_cons_self) hawait (by omega) nofun
            rw [hone] at hv
            exact hv
          have hsecond : Visit triedInTurn none "i" 3 (callsFrom 1 [.startInstance [] "",
              .actionFailed "i-c1" "down" true 0 none]) r2.state t2 (1 + invocations r2.commands t2.awaitCommand) 0 :=
            hfirst.goes rfl h2 ⟨hstays1, fun ⟨_, tdef, eff, hdef, _, _, hflow⟩ =>
              hflow (first_task_policy hscope hnode hdef).2,
              fun _ tdef eff hdef heff => by
                rw [(first_task_policy hscope hnode hdef).1] at heff
                rw [← Option.some.inj heff]
                decide⟩ (by rw [ht2]; exact List.mem_cons_self) hid2
          have hthird : Visit triedInTurn none "i" 3 (callsFrom 1 [.startInstance [] "",
              .actionFailed "i-c1" "down" true 0 none, .timerFired "i-tm1"]) r3.state t3
              (1 + invocations r2.commands t2.awaitCommand + invocations r3.commands t3.awaitCommand) 0 :=
            hsecond.goes rfl h3 ⟨hstays2, id, nofun⟩ (by rw [ht3]; exact List.mem_cons_self) hid3
          rw [hnone, htwo] at hthird
          exact ⟨_, _, hheeds, hthird, (budget_per_visit hop hheeds).2 3 _ _ 2 0 (by decide) hthird⟩
        · cases hplay

end Wrkflw
