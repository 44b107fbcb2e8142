import Wrkflw.Machine.DeskTriggers
import Wrkflw.Machine.Run

/-!
# Desks along runs

* `Desk.Ids` : the tokens of a desk and its queue have minted ids, each token its own; every act keeps it, so no run
  meets the stray desks of the machine;
* `Desk.Shapes` : what a token waits for goes with the state it is in;
* `Acts.induct` : what every act keeps, every operation keeps;
* `Heeds` : every trigger of a run meets a condition on the state it finds; `Heeds.desk_induction` : what every step
  keeps under the condition holds at the end of the run.
-/

namespace Wrkflw

open ControlState

variable {f : Token → Token} {tasks : List HumanTask} {t' : Token} {p : ProcessDefinition} {gen : Option IDGenerator}

variable {g : IDGenerator} {trg : TriggerBody} {d0 d d' : Desk} {cmds : List Command} {tok t : Token}

/-! ## Updates -/

theorem update_ids (hf : ∀ t, (f t).id = t.id) (id : String) :
    (d.update id f).tokens.map (·.id) = d.tokens.map (·.id) := by
  unfold Desk.update
  rw [List.map_map]
  refine List.map_congr_left (fun t _ => ?_)
  simp only [Function.comp_apply]
  split
  · exact hf t
  · rfl

/-- The tokens of a desk whose one token was updated. -/
theorem mem_update (hnodup : (d.tokens.map (·.id)).Nodup) (hmem : tok ∈ d.tokens) (f : Token → Token) :
    t ∈ (d.update tok.id f).tokens ↔ t = f tok ∨ (t ∈ d.tokens ∧ t.id ≠ tok.id) := by
  unfold Desk.update
  rw [List.mem_map]
  constructor
  · rintro ⟨t', ht', he⟩
    by_cases hid : t'.id = tok.id
    · rw [if_pos (by simpa using hid)] at he
      rw [List.inj_on_of_nodup_map hnodup ht' hmem hid] at he
      exact Or.inl he.symm
    · rw [if_neg (by simpa using hid)] at he
      exact Or.inr ⟨he ▸ ht', he ▸ hid⟩
  · rintro (rfl | ⟨ht, hid⟩)
    · exact ⟨tok, hmem, if_pos (by simp)⟩
    · exact ⟨t, ht, if_neg (by simpa using hid)⟩

theorem Wait.same {nc nt n : Nat} {cmds : List Command}
    (h : Wait g d tok f tasks nc nt n cmds) (t : Token) : t.Same (f t) := by
  cases h with
  | command f cmd hf hcmd hkind => exact (hf t).toSame
  | task f ht spec hf hid hopen hnode => exact (hf t).toSame
  | timer spec => exact ⟨rfl, rfl, rfl⟩
  | signal name hname => exact ⟨rfl, rfl, rfl⟩
  | message name key => exact ⟨rfl, rfl, rfl⟩
  | gateway f hf => exact (hf t).toSame

/-! ## Ids -/

structure Desk.Ids (g : IDGenerator) (d : Desk) : Prop where
  minted : ∀ t ∈ d.tokens, Minted g .token d.tokenSeq t.id
  nodup : (d.tokens.map (·.id)).Nodup
  finals : ∀ st ∈ d.finals, st.Aborts
  queue : ∀ id ∈ d.queue, Minted g .token d.tokenSeq id

theorem Desk.Ids.sane (h : d.Ids g) : d.Sane := ⟨h.nodup, fun t ht => (h.minted t ht).ne_empty, h.finals⟩

theorem Desk.Ids.eq_of_id (h : d.Ids g) {t : Token} (ht : t ∈ d.tokens) (ht' : t' ∈ d.tokens) (hid : t.id = t'.id) :
    t = t' := h.sane.eq_of_id ht ht' hid

theorem Desk.Ids.mem_update (h : d.Ids g) (hmem : tok ∈ d.tokens) :
    t ∈ (d.update tok.id f).tokens ↔ t = f tok ∨ (t ∈ d.tokens ∧ t.id ≠ tok.id) :=
  Wrkflw.mem_update h.nodup hmem f

/-- The tokens come from other ones, with their ids. -/
theorem Desk.Ids.of_ids (h : d.Ids g) (hids : (d'.tokens.map (·.id)).Sublist (d.tokens.map (·.id)))
    (hseq : d'.tokenSeq = d.tokenSeq) (hfin : ∀ st ∈ d'.finals, st.Aborts)
    (hqueue : ∀ id ∈ d'.queue, Minted g .token d.tokenSeq id) : d'.Ids g where
  minted := fun t ht => by
    obtain ⟨t', ht', he⟩ := List.mem_map.mp (hids.subset (List.mem_map_of_mem ht))
    rw [hseq, ← he]
    exact h.minted t' ht'
  nodup := hids.nodup h.nodup
  finals := hfin
  queue := fun id hid => hseq ▸ hqueue id hid

theorem Desk.Ids.update (h : d.Ids g) (hf : ∀ t, (f t).id = t.id) (id : String) :
    (d.update id f).Ids g :=
  h.of_ids (by rw [update_ids hf]) rfl h.finals h.queue

theorem Desk.Ids.filter (h : d.Ids g) (p : Token → Bool) : ({ d with tokens := d.tokens.filter p } : Desk).Ids g :=
  h.of_ids ((List.filter_sublist).map _) rfl h.finals h.queue

/-- Every act keeps the ids. -/
theorem Act.ids (h : d.Ids g) (hact : Act g trg d0 d d' cmds) : d'.Ids g := by
  cases hact with
  | place node scope flow at_ =>
    refine ⟨fun t ht => ?_, ?_, h.finals, fun id hid => (h.queue id hid).mono (Nat.le_succ _)⟩
    · rcases List.mem_append.mp ht with ht | ht
      · exact (h.minted t ht).mono (Nat.le_succ _)
      · rw [List.mem_singleton.mp ht]
        exact minted_self g .token (d.tokenSeq + 1)
    · rw [List.map_append, List.nodup_append]
      refine ⟨h.nodup, List.nodup_singleton _, fun id hid id' hid' => ?_⟩
      obtain ⟨t, ht, rfl⟩ := List.mem_map.mp hid
      rw [List.mem_singleton.mp hid']
      exact (h.minted t ht).ne_next
  | step tok f hmem hactive hf => exact h.update (fun t => (hf t).id) tok.id
  | drop p hp => exact h.filter p
  | defer tok hmem hactive =>
    have hupd := h.update (f := fun t => { t with state := .waiting }) (fun _ => rfl) tok.id
    refine ⟨hupd.minted, hupd.nodup, h.finals, fun id hid => ?_⟩
    rcases List.mem_append.mp hid with hid | hid
    · exact h.queue id hid
    · rw [List.mem_singleton.mp hid]
      exact h.minted tok hmem
  | pop id rest hq =>
    have hupd := h.update (f := fun t => { t with state := .active }) (fun _ => rfl) id
    exact ⟨hupd.minted, hupd.nodup, h.finals, fun i hi => h.queue i (hq ▸ List.mem_cons_of_mem _ hi)⟩
  | park tok f tasks nc nt n m cmds armCmds arms gws trs hmem hactive hwait harm =>
    have hupd := h.update (fun t => (hwait.same t).id) tok.id
    exact ⟨hupd.minted, hupd.nodup, h.finals, h.queue⟩
  | defect tok inc hmem hactive hid hkind htok hnode =>
    have hupd := h.update (f := fun t => { t with state := .incident }) (fun _ => rfl) tok.id
    exact ⟨hupd.minted, hupd.nodup, h.finals, h.queue⟩
  | answer tok f hmem hnamed hf harms hnone => exact h.update (fun t => (hf t).id) tok.id
  | finishTask tok f task close hmem hnamed hf harms htask hopen hclose =>
    have hupd := h.update (fun t => (hf t).id) tok.id
    exact ⟨hupd.minted, hupd.nodup, h.finals, h.queue⟩
  | hear tok f hmem hf hid harms => exact h.update hid tok.id
  | win tok f won cmds hmem hawait harmed hf hcmds =>
    have hupd := h.update (fun t => (hf t).id) tok.id
    exact ⟨hupd.minted, hupd.nodup, h.finals, h.queue⟩
  | rewait tok f tr spec hmem hnamed htrg hf harms htr =>
    have hupd := h.update (fun t => (hf t).id) tok.id
    exact ⟨hupd.minted, hupd.nodup, h.finals, h.queue⟩
  | fail tok inc hmem hnamed htrg harms hid hkind htok hnode =>
    have hupd := h.update (f := fun t => { t with state := .incident }) (fun _ => rfl) tok.id
    exact ⟨hupd.minted, hupd.nodup, h.finals, h.queue⟩
  | reinvoke tok f cmd arms m armCmds hmem hnamed htrg hf hcmd hkind harm =>
    have hupd := h.update (fun t => (hf t).id) tok.id
    exact ⟨hupd.minted, hupd.nodup, h.finals, h.queue⟩
  | resolve inc tok f cmd arms m armCmds n hd htrg hinc hkind hmem htok hf hcmd hhuman harm =>
    have hupd := h.update (fun t => (hf t).id) tok.id
    exact ⟨hupd.minted, hupd.nodup, h.finals, h.queue⟩
  | lose tok hmem hnamed htrg harms => exact h.filter _
  | cancel tok hmem harms =>
    have hfil := h.filter (fun t => t.id != tok.id)
    exact ⟨hfil.minted, hfil.nodup, h.finals, h.queue⟩
  | finish tokens cmds cuts exits st htokens hcancel hcmds =>
    have hfin : ∀ st ∈ [Status.running, d.finals.getLastD .running], st.Aborts := by
      intro st hst
      rcases List.mem_cons.mp hst with rfl | hst
      · exact Or.inl rfl
      · rw [List.mem_singleton.mp hst]
        cases hl : d.finals.getLast? with
        | none =>
          rw [List.getLast?_eq_none_iff] at hl
          rw [hl]
          exact Or.inl rfl
        | some st' =>
          have hmem : st' ∈ d.finals := List.mem_of_getLast? hl
          rw [List.getLastD_eq_getLast?, hl]
          exact h.finals st' hmem
    rcases htokens with ⟨rfl, -⟩ | ⟨rfl, -, -⟩
    · exact ⟨h.minted, h.nodup, hfin, h.queue⟩
    · exact ⟨by simp, by simp, hfin, h.queue⟩
  | aim finals hfin => exact ⟨h.minted, h.nodup, hfin, h.queue⟩
  | _ => exact ⟨h.minted, h.nodup, h.finals, h.queue⟩

/-- What every act keeps, every operation keeps. -/
theorem Acts.induct {I : Desk → Prop} (hact : ∀ {d d' cmds}, d.Ids g → I d → Act g trg d0 d d' cmds → I d')
    (h : Acts g trg d0 d d' cmds) (hids : d.Ids g) (hI : I d) : d'.Ids g ∧ I d' := by
  induction h with
  | nil d => exact ⟨hids, hI⟩
  | cons h h' hperm ih => exact ih (h.ids hids) (hact hids hI h)
  | stray h d' cmds => exact absurd hids.sane h

/-! ## Shapes -/

theorem evtgw_ne_empty (id : String) : "evtgw:" ++ id ≠ "" := by
  intro h
  have hlen := congrArg String.length h
  rw [String.length_append] at hlen
  simp at hlen


/-- The token waits for nothing. -/
structure Token.Lone (t : Token) : Prop where
  awaitCommand : t.awaitCommand = ""
  awaitSignal : t.awaitSignal = ""
  awaitMessage : t.awaitMessage = ""
  awaitTimer : t.awaitTimer = ""

/-- What the token waits for goes with its state. -/
structure Token.Shaped (t : Token) : Prop where
  active : t.state = .active ∨ t.state = .joining → t.Lone
  signal : t.awaitSignal ≠ "" → t.state = .waiting ∧ t.awaitCommand = "" ∧ t.awaitMessage = "" ∧ t.awaitTimer = ""
  message : t.awaitMessage ≠ "" → t.state = .waiting ∧ t.awaitCommand = "" ∧ t.awaitSignal = "" ∧ t.awaitTimer = ""

theorem Token.Lone.shaped (h : t.Lone) : t.Shaped :=
  ⟨fun _ => h, fun hs => absurd h.awaitSignal hs, fun hm => absurd h.awaitMessage hm⟩

/-- The token has its awaits as before and is not made active. -/
theorem Token.Lone.of_eq (h : t.Lone) (hc : t'.awaitCommand = t.awaitCommand)
    (hs : t'.awaitSignal = t.awaitSignal) (hm : t'.awaitMessage = t.awaitMessage) (ht : t'.awaitTimer = t.awaitTimer) :
    t'.Lone := ⟨hc.trans h.awaitCommand, hs.trans h.awaitSignal, hm.trans h.awaitMessage, ht.trans h.awaitTimer⟩

/-- A token that waits for a command waits for no signal and no message. -/
theorem Token.Shaped.silent (h : t.Shaped) (hc : t.awaitCommand ≠ "") : t.awaitSignal = "" ∧ t.awaitMessage = "" := by
  constructor
  · by_contra hs
    exact hc (h.signal hs).2.1
  · by_contra hm
    exact hc (h.message hm).2.1

theorem Token.Clears.lone (h : t.Clears t') (hs : t.awaitSignal = "" ∧ t.awaitMessage = "") : t'.Lone :=
  ⟨h.awaitCommand, h.awaitSignal.trans hs.1, h.awaitMessage.trans hs.2, h.awaitTimer⟩

theorem Token.Expects.shaped {cmdID : String} (h : t.Expects cmdID t')
    (hs : t.awaitSignal = "" ∧ t.awaitMessage = "") : t'.Shaped where
  active := by
    intro hst
    rw [h.state] at hst
    rcases hst with hst | hst <;> cases hst
  signal := fun hne => absurd (h.awaitSignal.trans hs.1) hne
  message := fun hne => absurd (h.awaitMessage.trans hs.2) hne

theorem Token.Hears.lone (h : t.Hears t') (hs : t.Shaped) : t'.Lone := by
  rcases h.heard with ⟨hne, hsig, hmsg⟩ | ⟨hne, hmsg, hsig⟩
  · obtain ⟨-, hc, hm, ht⟩ := hs.signal hne
    exact ⟨h.awaitCommand.trans hc, hsig, hmsg.trans hm, h.awaitTimer.trans ht⟩
  · obtain ⟨-, hc, hsg, ht⟩ := hs.message hne
    exact ⟨h.awaitCommand.trans hc, hsig.trans hsg, hmsg, h.awaitTimer.trans ht⟩

theorem Wait.shaped {nc nt n : Nat} {cmds : List Command}
    (h : Wait g d tok f tasks nc nt n cmds) (hl : tok.Lone) : (f tok).Shaped := by
  have hs : tok.awaitSignal = "" ∧ tok.awaitMessage = "" := ⟨hl.awaitSignal, hl.awaitMessage⟩
  cases h with
  | command f cmd hf hcmd hkind => exact (hf tok).shaped hs
  | task f ht spec hf hid hopen hnode => exact (hf tok).shaped hs
  | timer spec => exact ⟨fun hst => by simp at hst, fun hne => absurd hs.1 hne, fun hne => absurd hs.2 hne⟩
  | signal name hname =>
    exact ⟨fun hst => by simp at hst, fun _ => ⟨rfl, hl.awaitCommand, hl.awaitMessage, hl.awaitTimer⟩,
      fun hne => absurd hs.2 hne⟩
  | message name key =>
    exact ⟨fun hst => by simp at hst, fun hne => absurd hs.1 hne,
      fun _ => ⟨rfl, hl.awaitCommand, hl.awaitSignal, hl.awaitTimer⟩⟩
  | gateway f hf => exact (hf tok).shaped hs

theorem Wait.waiting {nc nt n : Nat} {cmds : List Command}
    (h : Wait g d tok f tasks nc nt n cmds) (t : Token) : (f t).state = .waiting := by
  cases h with
  | command f cmd hf hcmd hkind => exact (hf t).state
  | task f ht spec hf hid hopen hnode => exact (hf t).state
  | timer spec => rfl
  | signal name hname => rfl
  | message name key => rfl
  | gateway f hf => exact (hf t).state

/-- Every token of the desk is shaped, and the queued ones wait for nothing but their turn. -/
structure Desk.Shapes (d : Desk) : Prop where
  shaped : ∀ t ∈ d.tokens, t.Shaped
  queued : ∀ t ∈ d.tokens, t.id ∈ d.queue → t.state = .waiting ∧ t.Lone
  queue : d.queue.Nodup

/-- Resolving reaches failed tokens only. -/
def ResolvesFailed (d0 : Desk) (trg : TriggerBody) : Prop :=
  ∀ inc ∈ d0.incidents, inc.kind = .action → (∃ n, trg = .resolveIncident inc.id n) →
    ∀ tok ∈ d0.tokens, tok.id = inc.tokenID → tok.state = .incident

instance (trg : TriggerBody) (id : String) : Decidable (∃ n, trg = .resolveIncident id n) :=
  match trg with
  | .resolveIncident id' n =>
    if h : id' = id then .isTrue ⟨n, h ▸ rfl⟩
    else .isFalse (by
      rintro ⟨m, hm⟩
      cases hm
      exact h rfl)
  | .startInstance .. | .humanCandidatesResolved .. | .humanClaimed .. | .humanReassigned .. | .signalReceived ..
  | .messageReceived .. | .compensateRequested .. | .cancelRequested | .resolveCompensationStall .. | .actionCompleted ..
  | .actionFailed .. | .subInstanceCompleted .. | .subInstanceFailed .. | .humanCompleted .. | .timerFired .. =>
    .isFalse (by
      rintro ⟨m, hm⟩
      cases hm)

instance (d0 : Desk) (trg : TriggerBody) : Decidable (ResolvesFailed d0 trg) :=
  inferInstanceAs (Decidable (∀ inc ∈ d0.incidents, inc.kind = .action → (∃ n, trg = .resolveIncident inc.id n) →
    ∀ tok ∈ d0.tokens, tok.id = inc.tokenID → tok.state = .incident))

theorem Desk.Shapes.of_sub (h : d.Shapes) (hsub : d'.tokens ⊆ d.tokens) (hq : d'.queue = d.queue) : d'.Shapes where
  shaped := fun t ht => h.shaped t (hsub ht)
  queued := fun t ht hid => h.queued t (hsub ht) (hq ▸ hid)
  queue := hq ▸ h.queue

/-- The one token that changed is not queued. -/
theorem Desk.Shapes.update (h : d.Shapes) (hids : d.Ids g) (hmem : tok ∈ d.tokens)
    (hid : (f tok).id = tok.id) (hf : (f tok).Shaped) (hq : tok.id ∉ d.queue) : (d.update tok.id f).Shapes where
  shaped := fun t ht => by
    rcases (hids.mem_update hmem).mp ht with rfl | ⟨ht, -⟩
    · exact hf
    · exact h.shaped t ht
  queued := fun t ht hid' => by
    rcases (hids.mem_update hmem).mp ht with rfl | ⟨ht, -⟩
    · rw [hid] at hid'
      exact absurd hid' hq
    · exact h.queued t ht hid'
  queue := h.queue

theorem Desk.Shapes.not_queued (h : d.Shapes) (hmem : tok ∈ d.tokens) (hq : ¬ (tok.state = .waiting ∧ tok.Lone)) :
    tok.id ∉ d.queue := fun hid => hq (h.queued tok hmem hid)

theorem Desk.Shapes.not_queued_of_active (h : d.Shapes) (hmem : tok ∈ d.tokens) (hactive : tok.state = .active) :
    tok.id ∉ d.queue := by
  refine h.not_queued hmem (fun hw => ?_)
  rw [hactive] at hw
  cases hw.1

theorem Desk.Shapes.not_queued_of_await (h : d.Shapes) (hmem : tok ∈ d.tokens) (hne : tok.awaitCommand ≠ "") :
    tok.id ∉ d.queue := h.not_queued hmem (fun hw => hne hw.2.awaitCommand)

/-- Every act keeps the shapes. -/
theorem Act.shapes (hids : d.Ids g) (h : d.Shapes) (hres : ResolvesFailed d0 trg) (hact : Act g trg d0 d d' cmds) :
    d'.Shapes := by
  -- a token an answer frees
  have hfree : ∀ {tok : Token} {f : Token → Token}, tok ∈ d.tokens → tok.awaitCommand ≠ "" → (∀ t : Token, t.Clears (f t)) →
      (d.update tok.id f).Shapes := by
    intro tok f hmem hne hf
    exact h.update hids hmem (hf tok).id ((hf tok).lone ((h.shaped tok hmem).silent hne)).shaped
      (h.not_queued_of_await hmem hne)
  -- a token that comes to wait for another command
  have hwaits : ∀ {tok : Token} {f : Token → Token} {cmdID : String}, tok ∈ d.tokens → tok.awaitCommand ≠ "" →
      (∀ t : Token, t.Expects cmdID (f t)) → (d.update tok.id f).Shapes := by
    intro tok f cmdID hmem hne hf
    exact h.update hids hmem (hf tok).id ((hf tok).shaped ((h.shaped tok hmem).silent hne)) (h.not_queued_of_await hmem hne)
  -- a token that fails
  have hfails : ∀ {tok : Token}, tok ∈ d.tokens → tok.id ∉ d.queue → tok.awaitSignal = "" ∧ tok.awaitMessage = "" →
      (d.update tok.id (fun t => { t with state := .incident })).Shapes := by
    intro tok hmem hq hs
    refine h.update (f := fun t => { t with state := .incident }) hids hmem rfl ⟨?_, ?_, ?_⟩ hq
    · rintro (hst | hst) <;> cases hst
    · exact fun hne => absurd hs.1 hne
    · exact fun hne => absurd hs.2 hne
  cases hact with
  | place node scope flow at_ =>
    refine ⟨fun t ht => ?_, fun t ht hid => ?_, h.queue⟩
    · rcases List.mem_append.mp ht with ht | ht
      · exact h.shaped t ht
      · rw [List.mem_singleton.mp ht]
        exact Token.Lone.shaped ⟨rfl, rfl, rfl, rfl⟩
    · rcases List.mem_append.mp ht with ht | ht
      · exact h.queued t ht hid
      · rw [List.mem_singleton.mp ht] at hid
        exact absurd rfl (hids.queue _ hid).ne_next
  | step tok f hmem hactive hf =>
    have hl := (h.shaped tok hmem).active (Or.inl hactive)
    have hs := hf tok
    exact h.update hids hmem hs.id (hl.of_eq hs.awaitCommand hs.awaitSignal hs.awaitMessage hs.awaitTimer).shaped
      (h.not_queued_of_active hmem hactive)
  | drop p hp => exact h.of_sub (List.filter_subset_self _) rfl
  | defer tok hmem hactive =>
    have hl := (h.shaped tok hmem).active (Or.inl hactive)
    have hq := h.not_queued_of_active hmem hactive
    have hl' : ({ tok with state := .waiting } : Token).Lone := hl.of_eq rfl rfl rfl rfl
    refine ⟨fun t ht => ?_, fun t ht hid => ?_, ?_⟩
    · rcases (hids.mem_update hmem).mp ht with rfl | ⟨ht, -⟩
      · exact hl'.shaped
      · exact h.shaped t ht
    · rcases (hids.mem_update hmem).mp ht with rfl | ⟨ht, hne⟩
      · exact ⟨rfl, hl'⟩
      · rcases List.mem_append.mp hid with hid | hid
        · exact h.queued t ht hid
        · exact absurd (List.mem_singleton.mp hid) hne
    · rw [List.nodup_append]
      refine ⟨h.queue, List.nodup_singleton _, fun id hid id' hid' => ?_⟩
      rw [List.mem_singleton.mp hid']
      exact fun he => hq (he ▸ hid)
  | pop id rest hq =>
    have hnodup := hq ▸ h.queue
    have hrest : ∀ {i}, i ∈ rest → i ∈ d.queue := fun hi => hq ▸ List.mem_cons_of_mem _ hi
    refine ⟨fun t ht => ?_, fun t ht hid => ?_, (List.nodup_cons.mp hnodup).2⟩
    · obtain ⟨t', ht', he⟩ := List.mem_map.mp ht
      by_cases hid : t'.id = id
      · rw [if_pos (by simpa using hid)] at he
        have hl := (h.queued t' ht' (hq ▸ hid ▸ List.mem_cons_self)).2
        have hl' : ({ t' with state := .active } : Token).Lone := hl.of_eq rfl rfl rfl rfl
        rw [← he]
        exact hl'.shaped
      · rw [if_neg (by simpa using hid)] at he
        rw [← he]
        exact h.shaped t' ht'
    · obtain ⟨t', ht', he⟩ := List.mem_map.mp ht
      by_cases hid' : t'.id = id
      · rw [if_pos (by simpa using hid')] at he
        rw [← he] at hid
        exact absurd (hid' ▸ hid) (List.nodup_cons.mp hnodup).1
      · rw [if_neg (by simpa using hid')] at he
        rw [← he] at hid ⊢
        exact h.queued t' ht' (hrest hid)
  | park tok f tasks nc nt n m cmds armCmds arms gws trs hmem hactive hwait harm =>
    have hl := (h.shaped tok hmem).active (Or.inl hactive)
    have hupd := h.update hids hmem (hwait.same tok).id (hwait.shaped hl) (h.not_queued_of_active hmem hactive)
    exact ⟨hupd.shaped, hupd.queued, h.queue⟩
  | defect tok inc hmem hactive hid hkind htok hnode =>
    have hl := (h.shaped tok hmem).active (Or.inl hactive)
    have hupd := hfails hmem (h.not_queued_of_active hmem hactive) ⟨hl.awaitSignal, hl.awaitMessage⟩
    exact ⟨hupd.shaped, hupd.queued, h.queue⟩
  | answer tok f hmem hnamed hf harms hnone => exact hfree hmem hnamed.await hf
  | finishTask tok f task close hmem hnamed hf harms htask hopen hclose =>
    have hupd := hfree hmem hnamed.await hf
    exact ⟨hupd.shaped, hupd.queued, h.queue⟩
  | hear tok f hmem hf hid harms =>
    refine h.update hids hmem (hid tok) (hf.lone (h.shaped tok hmem)).shaped (h.not_queued hmem (fun hw => ?_))
    rcases hf.heard with ⟨hne, -⟩ | ⟨hne, -⟩
    · exact hne hw.2.awaitSignal
    · exact hne hw.2.awaitMessage
  | win tok f won cmds hmem hawait harmed hf hcmds =>
    have hne : tok.awaitCommand ≠ "" := by
      rw [hawait]
      exact evtgw_ne_empty tok.id
    have hupd := hfree hmem hne hf
    exact ⟨hupd.shaped, hupd.queued, h.queue⟩
  | rewait tok f tr spec hmem hnamed htrg hf harms htr =>
    have hupd := hwaits hmem hnamed.await hf
    exact ⟨hupd.shaped, hupd.queued, h.queue⟩
  | fail tok inc hmem hnamed htrg harms hid hkind htok hnode =>
    have hupd := hfails hmem (h.not_queued_of_await hmem hnamed.await) ((h.shaped tok hmem).silent hnamed.await)
    exact ⟨hupd.shaped, hupd.queued, h.queue⟩
  | reinvoke tok f cmd arms m armCmds hmem hnamed htrg hf hcmd hkind harm =>
    have hupd := hwaits hmem hnamed.await hf
    exact ⟨hupd.shaped, hupd.queued, h.queue⟩
  | resolve inc tok f cmd arms m armCmds n hd htrg hinc hkind hmem htok hf hcmd hhuman harm =>
    subst hd
    have hstate := hres inc (List.mem_of_find?_eq_some hinc) hkind ⟨n, htrg⟩ tok hmem htok.symm
    have hs : tok.awaitSignal = "" ∧ tok.awaitMessage = "" := by
      constructor
      · by_contra hne
        have := ((h.shaped tok hmem).signal hne).1
        rw [hstate] at this
        cases this
      · by_contra hne
        have := ((h.shaped tok hmem).message hne).1
        rw [hstate] at this
        cases this
    have hupd := h.update hids hmem (hf tok).id ((hf tok).shaped hs) (h.not_queued hmem (fun hw => by
      rw [hstate] at hw
      cases hw.1))
    exact ⟨hupd.shaped, hupd.queued, h.queue⟩
  | lose tok hmem hnamed htrg harms => exact h.of_sub (List.filter_subset_self _) rfl
  | cancel tok hmem harms => exact h.of_sub (List.filter_subset_self _) rfl
  | finish tokens cmds cuts exits st htokens hcancel hcmds =>
    rcases htokens with ⟨rfl, -⟩ | ⟨rfl, -, -⟩
    · exact h.of_sub (List.Subset.refl _) rfl
    · exact h.of_sub (List.nil_subset _) rfl
  | _ => exact h.of_sub (List.Subset.refl _) rfl

/-! ## Steps -/

/-- What the filter of stale commands does to a desk: some open tasks are cancelled. -/
theorem dropStaleCommands_desk (live : List String) (cmds : List Command) (s : InstanceState) :
    ∃ tasks, (dropStaleCommands live cmds s).state.desk = { s.desk with tasks := tasks } := by
  induction cmds generalizing s with
  | nil => exact ⟨s.tasks, rfl⟩
  | cons cmd cmds ih =>
    obtain ⟨tasks, ht⟩ := ih (dropStaleCommand live s cmd).state
    have hone : ∃ ts, (dropStaleCommand live s cmd).state.desk = { s.desk with tasks := ts } := by
      unfold dropStaleCommand
      split
      · exact ⟨s.tasks, rfl⟩
      · split
        · split
          · split
            · exact ⟨_, rfl⟩
            · exact ⟨s.tasks, rfl⟩
          · exact ⟨s.tasks, rfl⟩
        · exact ⟨s.tasks, rfl⟩
    obtain ⟨ts, hts⟩ := hone
    refine ⟨tasks, ?_⟩
    change (dropStaleCommands live cmds (dropStaleCommand live s cmd).state).state.desk = _
    rw [ht, hts]

theorem dropStaleTokenCommands_desk (r : StepResult) :
    ∃ tasks, (dropStaleTokenCommands r).state.desk = { r.state.desk with tasks := tasks } := by
  unfold dropStaleTokenCommands
  split
  · exact ⟨r.state.tasks, rfl⟩
  · exact dropStaleCommands_desk _ _ _

/-- A step is a sequence of acts, then the filter of stale commands. -/
theorem step_does {fuel : Nat} {s : InstanceState} {trg : Trigger} {opt : StepOptions}
    {r : StepResult} (hflight : s.status = .compensating → s.InFlight) (h : step fuel p s trg opt = .ok r) :
    ∃ r0, Does (opt.ids s.instanceID) trg.body s.desk s r0 ∧ r = dropStaleTokenCommands r0 := by
  unfold step at h
  obtain ⟨u, hkey, h⟩ := bind_ok h
  obtain ⟨-, -, h⟩ := bind_ok h
  dsimp only at h
  obtain ⟨r0, h0, h⟩ := bind_ok h
  exact ⟨r0, dispatch_does hkey hflight h0, (Except.ok.inj h).symm⟩

/-! ## Runs -/

/-- Every trigger of the calls meets the condition in the state it finds. -/
def Heeds (P : InstanceState → TriggerBody → Prop) (p : ProcessDefinition) (gen : Option IDGenerator) (inst : String)
    (calls : List Call) : Prop :=
  ∀ before call after x, calls = before ++ call :: after → Run p gen inst before x → P x call.trigger.body

theorem blank_ids (g : IDGenerator) (inst : String) : ({ instanceID := inst } : InstanceState).desk.Ids g where
  minted := by simp [InstanceState.desk, ControlState.front]
  nodup := by simp [InstanceState.desk, ControlState.front]
  finals := by
    intro st hst
    rcases List.mem_cons.mp hst with rfl | hst
    · exact Or.inl rfl
    · rw [List.mem_singleton.mp hst]
      exact Or.inl rfl
  queue := by simp [InstanceState.desk, ControlState.front]

/-- What every act keeps under the condition, and the filter of stale commands keeps, holds of every state of a run that
heeds the condition. -/
theorem Heeds.desk_induction {P : InstanceState → TriggerBody → Prop} {I : Desk → Prop}
    {inst : String} {calls : List Call} {x : InstanceState}
    (hinit : I ({ instanceID := inst } : InstanceState).desk)
    (hact : ∀ {s : InstanceState} {trg d d' cmds}, P s trg → s.desk.Ids (runIDs gen inst) → I s.desk →
      d.Ids (runIDs gen inst) → I d → Act (runIDs gen inst) trg s.desk d d' cmds → I d')
    (htasks : ∀ {d : Desk} {tasks}, I d → I { d with tasks := tasks })
    (hrun : Run p gen inst calls x) (hheeds : Heeds P p gen inst calls) : x.desk.Ids (runIDs gen inst) ∧ I x.desk := by
  unfold Run at hrun
  induction hrun with
  | refl => exact ⟨blank_ids _ inst, hinit⟩
  | @tail calls y hpre call r hgen hstep ih =>
    have hpre' : Run p gen inst calls y := hpre
    obtain ⟨hids, hI⟩ := ih (fun before call' after x' he hx => hheeds before call' (after ++ [call]) x'
      (by rw [he, List.append_assoc, List.cons_append]) hx)
    have hP := hheeds calls call [] y rfl hpre'
    obtain ⟨r0, hdoes, rfl⟩ := step_does hpre'.sound.wf.phase.status.mp hstep
    have hgens : call.opt.ids y.instanceID = runIDs gen inst := by
      unfold StepOptions.ids runIDs
      rw [hgen, hpre'.sound.instanceID]
    rw [hgens] at hdoes
    obtain ⟨hids0, hI0⟩ := Acts.induct (fun hids' h ha => hact hP hids hI hids' h ha) hdoes hids hI
    obtain ⟨tasks, hdesk⟩ := dropStaleTokenCommands_desk r0
    rw [hdesk]
    exact ⟨⟨hids0.minted, hids0.nodup, hids0.finals, hids0.queue⟩, htasks hI0⟩

/-! ## Runs on fixed calls -/

instance (d0 : Desk) (tok : Token) (trg : TriggerBody) : Decidable (Replies d0 tok trg) :=
  match trg with
  | .actionCompleted id output =>
    if h : id = tok.awaitCommand then .isTrue (h ▸ .completed output) else .isFalse (fun hr => by cases hr; exact h rfl)
  | .actionFailed id err retryable jitter cause =>
    if h : id = tok.awaitCommand then .isTrue (h ▸ .failed err retryable jitter cause)
    else .isFalse (fun hr => by cases hr; exact h rfl)
  | .subInstanceCompleted id output =>
    if h : id = tok.awaitCommand then .isTrue (h ▸ .childCompleted output) else .isFalse (fun hr => by cases hr; exact h rfl)
  | .subInstanceFailed id err =>
    if h : id = tok.awaitCommand then .isTrue (h ▸ .childFailed err) else .isFalse (fun hr => by cases hr; exact h rfl)
  | .humanCompleted id outcome note output actor =>
    if h : id = tok.awaitCommand then .isTrue (h ▸ .human outcome note output actor)
    else .isFalse (fun hr => by cases hr; exact h rfl)
  | .timerFired id =>
    if h : id = tok.awaitCommand then .isTrue (h ▸ .timer)
    else if h' : ∃ tr ∈ d0.timers, tr.taskID = tok.awaitCommand ∧ tr.timerID = id then
      .isTrue (by
        obtain ⟨tr, htr, htask, rfl⟩ := h'
        exact .deadline tr htr htask)
    else .isFalse (fun hr => by
      cases hr with
      | timer => exact h rfl
      | deadline tr htr htask => exact h' ⟨tr, htr, htask, rfl⟩)
  | .startInstance .. | .humanCandidatesResolved .. | .humanClaimed .. | .humanReassigned .. | .signalReceived ..
  | .messageReceived .. | .compensateRequested .. | .cancelRequested | .resolveIncident .. | .resolveCompensationStall .. =>
    .isFalse (fun hr => by cases hr)

/-- The calls, with the condition checked before each. -/
def heedsFrom (P : InstanceState → TriggerBody → Bool) (p : ProcessDefinition) : List Call → InstanceState → Bool
  | [], _ => true
  | call :: calls, x => P x call.trigger.body &&
    match step call.fuel p x call.trigger call.opt with
    | .ok r => heedsFrom P p calls r.state
    | .error _ => true

theorem heedsFrom_steps {P : InstanceState → TriggerBody → Bool}
    {x y : InstanceState} {before after : List Call} (hsteps : Steps p gen x before y)
    (h : heedsFrom P p (before ++ after) x = true) : heedsFrom P p after y = true := by
  induction hsteps generalizing after with
  | refl => exact h
  | tail hpre call r hgen hstep ih =>
    rw [List.append_assoc, List.singleton_append] at h
    have hmid := ih h
    unfold heedsFrom at hmid
    rw [hstep, Bool.and_eq_true] at hmid
    exact hmid.2

theorem heeds_of_heedsFrom {P : InstanceState → TriggerBody → Prop} [∀ s trg, Decidable (P s trg)]
    {inst : String} {calls : List Call}
    (h : heedsFrom (fun s trg => decide (P s trg)) p calls { instanceID := inst } = true) : Heeds P p gen inst calls := by
  intro before call after x he hrun
  rw [he] at h
  have hmid := heedsFrom_steps hrun h
  unfold heedsFrom at hmid
  rw [Bool.and_eq_true, decide_eq_true_eq] at hmid
  exact hmid.1

end Wrkflw
