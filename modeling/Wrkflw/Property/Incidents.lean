import Wrkflw.Definition.Validate
import Wrkflw.Machine.DeskRun

/-!
# Incidents and tokens

An action incident stands for a failed token and a failed token for one incident (`IncidentsAgree`). A run keeps this as
long as no reply reaches a token that has failed (`OnTime`): `incidents_agree`. The failed token keeps the id of its
command, so a late reply moves it on and leaves the incident behind: `late_reply_keeps_incident`.
-/

namespace Wrkflw

open ControlState

/-- The incident is about work that stopped. -/
def Incident.blocks (inc : Incident) : Bool := inc.kind == .action || inc.kind == .definitionDefect

/-- Open action incidents and tokens in the incident state are about each other. -/
structure IncidentsAgree (s : InstanceState) : Prop where
  named : ∀ inc ∈ s.incidents, inc.kind = .action →
    ∃ t ∈ s.tokens, t.id = inc.tokenID ∧ t.state = .incident ∧ t.nodeID = inc.nodeID
  one : ∀ t ∈ s.tokens, (s.incidents.filter (fun inc => inc.kind == .action && inc.tokenID == t.id)).length ≤ 1
  blocked : ∀ t ∈ s.tokens, t.state = .incident →
    (s.incidents.filter (fun inc => inc.blocks && inc.tokenID == t.id)).length = 1

/-- The trigger reports that an action failed. -/
def TriggerBody.reportsFailure : TriggerBody → Bool
  | .actionFailed .. => true
  | _ => false

/-- No reply is about a token that has failed, and no failure is reported of the wait of an event-based gateway. -/
def OnTime (d0 : Desk) (trg : TriggerBody) : Prop :=
  ∀ tok ∈ d0.tokens, tok.awaitCommand ≠ "" → Replies d0 tok trg → tok.state ≠ .incident ∧
    (trg.reportsFailure = true → tok.awaitCommand ≠ "evtgw:" ++ tok.id)

instance (d0 : Desk) (trg : TriggerBody) : Decidable (OnTime d0 trg) := inferInstanceAs (Decidable (∀ _ ∈ _, _))

/-! ## The invariant -/

variable {g : IDGenerator} {trg : TriggerBody} {d0 d d' : Desk} {cmds : List Command} {tok t : Token} {inc : Incident}

structure Desk.Blocks (g : IDGenerator) (d : Desk) : Prop where
  minted : ∀ inc ∈ d.incidents, Minted g .incident d.incidentSeq inc.id
  nodup : (d.incidents.map (·.id)).Nodup
  named : ∀ inc ∈ d.incidents, inc.blocks = true →
    ∃ t ∈ d.tokens, t.id = inc.tokenID ∧ t.state = .incident ∧ t.nodeID = inc.nodeID
  blocked : ∀ t ∈ d.tokens, t.state = .incident →
    (d.incidents.filter (fun inc => inc.blocks && inc.tokenID == t.id)).length = 1
  gateway : ∀ t ∈ d.tokens, t.state = .incident → t.awaitCommand ≠ "evtgw:" ++ t.id

theorem not_blocks (h : inc.kind ≠ .action ∧ inc.kind ≠ .definitionDefect) : inc.blocks = false := by
  unfold Incident.blocks
  rw [Bool.or_eq_false_iff, beq_eq_false_iff_ne, beq_eq_false_iff_ne]
  exact h

/-- Where every id is its own, erasing the first of an id erases it. -/
theorem eraseP_eq_filter {incs : List Incident} (h : (incs.map (·.id)).Nodup) (id : String) :
    incs.eraseP (fun i => i.id == id) = incs.filter (fun i => i.id != id) := by
  induction incs with
  | nil => rfl
  | cons i incs ih =>
    rw [List.map_cons, List.nodup_cons] at h
    by_cases hid : i.id = id
    · rw [List.eraseP_cons_of_pos (by simpa using hid), List.filter_cons_of_neg (by simpa using hid)]
      refine (List.filter_eq_self.mpr (fun j hj => ?_)).symm
      rw [bne_iff_ne]
      rintro he
      exact h.1 (hid.trans he.symm ▸ List.mem_map_of_mem hj)
    · rw [List.eraseP_cons_of_neg (by simpa using hid), List.filter_cons_of_pos (by simpa using hid), ih h.2]

namespace Desk.Blocks

/-- An incident that blocks names no token that goes on. -/
theorem unnamed (h : d.Blocks g) (hids : d.Ids g) (hmem : tok ∈ d.tokens) (hst : tok.state ≠ .incident)
    (hinc : inc ∈ d.incidents) (hb : inc.blocks = true) : inc.tokenID ≠ tok.id := by
  intro he
  obtain ⟨t, ht, hid, hstate, -⟩ := h.named inc hinc hb
  exact hst (hids.eq_of_id ht hmem (hid.trans he) ▸ hstate)

/-- A token that has not failed changes, and has not failed afterwards. -/
theorem update (h : d.Blocks g) (hids : d.Ids g) (hmem : tok ∈ d.tokens) {f : Token → Token} (hst : tok.state ≠ .incident)
    (hf : (f tok).state ≠ .incident) : (d.update tok.id f).Blocks g where
  minted := h.minted
  nodup := h.nodup
  named := fun inc hinc hb => by
    obtain ⟨t, ht, hid, hstate, hnode⟩ := h.named inc hinc hb
    refine ⟨t, (hids.mem_update hmem).mpr (Or.inr ⟨ht, fun he => ?_⟩), hid, hstate, hnode⟩
    exact hst (hids.eq_of_id ht hmem he ▸ hstate)
  blocked := fun t ht hstate => by
    rcases (hids.mem_update hmem).mp ht with rfl | ⟨ht, -⟩
    · exact absurd hstate hf
    · exact h.blocked t ht hstate
  gateway := fun t ht hstate => by
    rcases (hids.mem_update hmem).mp ht with rfl | ⟨ht, -⟩
    · exact absurd hstate hf
    · exact h.gateway t ht hstate

theorem raised (h : d.Blocks g) (hid : inc.id = g.newID .incident (d.incidentSeq + 1)) :
    (∀ i ∈ d.incidents ++ [inc], Minted g .incident (d.incidentSeq + 1) i.id) ∧
      ((d.incidents ++ [inc]).map (·.id)).Nodup := by
  refine ⟨fun i hi => ?_, ?_⟩
  · rcases List.mem_append.mp hi with hi | hi
    · exact (h.minted i hi).mono (Nat.le_succ _)
    · rw [List.mem_singleton.mp hi, hid]
      exact minted_self g .incident (d.incidentSeq + 1)
  · rw [List.map_append, List.nodup_append]
    refine ⟨h.nodup, List.nodup_singleton _, fun id hid1 id' hid2 => ?_⟩
    obtain ⟨i, hi, rfl⟩ := List.mem_map.mp hid1
    rw [List.mem_singleton.mp hid2]
    change i.id ≠ inc.id
    rw [hid]
    exact (h.minted i hi).ne_next

/-- A token fails, with an incident of its own. -/
theorem fails (h : d.Blocks g) (hids : d.Ids g) (hmem : tok ∈ d.tokens) (hst : tok.state ≠ .incident)
    (hid : inc.id = g.newID .incident (d.incidentSeq + 1)) (hb : inc.blocks = true) (htok : inc.tokenID = tok.id)
    (hnode : inc.nodeID = tok.nodeID) (hgw : tok.awaitCommand ≠ "evtgw:" ++ tok.id) :
    ({ d.update tok.id (fun t => { t with state := .incident }) with
      incidents := d.incidents ++ [inc], incidentSeq := d.incidentSeq + 1 } : Desk).Blocks g := by
  have hself : ({ tok with state := .incident } : Token) ∈
    (d.update tok.id (fun t => { t with state := .incident })).tokens :=
    (hids.mem_update hmem).mpr (Or.inl rfl)
  have hnone : d.incidents.filter (fun i => i.blocks && i.tokenID == tok.id) = [] := by
    refine List.filter_eq_nil_iff.mpr (fun i hi => ?_)
    rw [Bool.and_eq_true, beq_iff_eq]
    rintro ⟨hb', he⟩
    exact h.unnamed hids hmem hst hi hb' he
  refine ⟨(h.raised hid).1, (h.raised hid).2, fun i hi hb' => ?_, fun t ht hstate => ?_, fun t ht hstate => ?_⟩
  · rcases List.mem_append.mp hi with hi | hi
    · obtain ⟨t, ht, hid', hstate, hnode'⟩ := h.named i hi hb'
      refine ⟨t, (hids.mem_update hmem).mpr (Or.inr ⟨ht, fun he => ?_⟩), hid', hstate, hnode'⟩
      exact hst (hids.eq_of_id ht hmem he ▸ hstate)
    · rw [List.mem_singleton.mp hi]
      exact ⟨_, hself, htok.symm, rfl, hnode.symm⟩
  · change ((d.incidents ++ [inc]).filter (fun i => i.blocks && i.tokenID == t.id)).length = 1
    rw [List.filter_append]
    rcases (hids.mem_update hmem).mp ht with rfl | ⟨ht, hne⟩
    · change (d.incidents.filter (fun i => i.blocks && i.tokenID == tok.id) ++
        [inc].filter (fun i => i.blocks && i.tokenID == tok.id)).length = 1
      rw [hnone, List.filter_cons_of_pos (by rw [hb, htok]; simp)]
      rfl
    · rw [List.filter_cons_of_neg (by rw [hb, htok]; simpa using fun he => hne he.symm), List.filter_nil, List.append_nil]
      exact h.blocked t ht hstate
  · rcases (hids.mem_update hmem).mp ht with rfl | ⟨ht, -⟩
    · exact hgw
    · exact h.gateway t ht hstate

/-- Tokens that have not failed go. -/
theorem drop (h : d.Blocks g) {p : Token → Bool} (hp : ∀ t ∈ d.tokens, p t = false → t.state ≠ .incident) :
    ({ d with tokens := d.tokens.filter p } : Desk).Blocks g where
  minted := h.minted
  nodup := h.nodup
  named := fun inc hinc hb => by
    obtain ⟨t, ht, hid, hstate, hnode⟩ := h.named inc hinc hb
    refine ⟨t, List.mem_filter.mpr ⟨ht, ?_⟩, hid, hstate, hnode⟩
    by_contra hpt
    exact hp t ht (by simpa using hpt) hstate
  blocked := fun t ht hstate => h.blocked t (List.mem_of_mem_filter ht) hstate
  gateway := fun t ht hstate => h.gateway t (List.mem_of_mem_filter ht) hstate

/-- Incidents that block nothing come and go. -/
theorem shed (h : d.Blocks g) {p : Incident → Bool} (hp : ∀ inc ∈ d.incidents, p inc = false → inc.blocks = false) :
    ({ d with incidents := d.incidents.filter p } : Desk).Blocks g where
  minted := fun inc hinc => h.minted inc (List.mem_of_mem_filter hinc)
  nodup := (List.filter_sublist.map _).nodup h.nodup
  named := fun inc hinc hb => h.named inc (List.mem_of_mem_filter hinc) hb
  blocked := fun t ht hstate => by
    rw [List.filter_filter]
    rw [← h.blocked t ht hstate]
    congr 1
    refine List.filter_congr (fun inc hinc => ?_)
    cases hpi : p inc with
    | true => rw [Bool.and_true]
    | false => rw [hp inc hinc hpi, Bool.and_false, Bool.false_and]
  gateway := h.gateway

/-- A failed token is named by one incident only. -/
theorem only (h : d.Blocks g) (hmem : tok ∈ d.tokens) (hst : tok.state = .incident) {inc' : Incident}
    (hinc : inc ∈ d.incidents) (hb : inc.blocks = true) (he : inc.tokenID = tok.id) (hinc' : inc' ∈ d.incidents)
    (hb' : inc'.blocks = true) (he' : inc'.tokenID = tok.id) : inc' = inc := by
  obtain ⟨a, ha⟩ := List.length_eq_one_iff.mp (h.blocked tok hmem hst)
  have hin : inc ∈ d.incidents.filter (fun i => i.blocks && i.tokenID == tok.id) :=
    List.mem_filter.mpr ⟨hinc, by rw [hb, he]; simp⟩
  have hin' : inc' ∈ d.incidents.filter (fun i => i.blocks && i.tokenID == tok.id) :=
    List.mem_filter.mpr ⟨hinc', by rw [hb', he']; simp⟩
  rw [ha] at hin hin'
  exact (List.mem_singleton.mp hin').trans (List.mem_singleton.mp hin).symm

/-- The failed token of an action incident is invoked again. -/
theorem resolved (h : d.Blocks g) (hids : d.Ids g) (hmem : tok ∈ d.tokens) {f : Token → Token}
    (hinc : inc ∈ d.incidents) (hb : inc.blocks = true) (he : inc.tokenID = tok.id) (hf : (f tok).state ≠ .incident) :
    ({ d.update tok.id f with incidents := d.incidents.eraseP (fun i => i.id == inc.id) } : Desk).Blocks g := by
  obtain ⟨t0, ht0, hid0, hst0, -⟩ := h.named inc hinc hb
  have hst : tok.state = .incident := hids.eq_of_id ht0 hmem (hid0.trans he) ▸ hst0
  rw [eraseP_eq_filter h.nodup]
  refine ⟨fun i hi => h.minted i (List.mem_of_mem_filter hi), (List.filter_sublist.map _).nodup h.nodup,
    fun i hi hb' => ?_, fun t ht hstate => ?_, fun t ht hstate => ?_⟩
  · obtain ⟨hi, hne⟩ := List.mem_filter.mp hi
    rw [bne_iff_ne] at hne
    obtain ⟨t, ht, hid, hstate, hnode⟩ := h.named i hi hb'
    refine ⟨t, (hids.mem_update hmem).mpr (Or.inr ⟨ht, fun hid' => hne ?_⟩), hid, hstate, hnode⟩
    rw [h.only hmem hst hinc hb he hi hb' (hid.symm.trans hid')]
  · rcases (hids.mem_update hmem).mp ht with rfl | ⟨ht, hne⟩
    · exact absurd hstate hf
    · rw [List.filter_filter, ← h.blocked t ht hstate]
      congr 1
      refine List.filter_congr (fun i hi => ?_)
      by_cases hid : i.id = inc.id
      · have hi' : i = inc := List.inj_on_of_nodup_map h.nodup hi hinc hid
        have hno : (inc.tokenID == t.id) = false := by
          rw [beq_eq_false_iff_ne, he]
          exact fun he' => hne he'.symm
        rw [hi', hno, Bool.and_false, Bool.false_and]
      · rw [bne_iff_ne.mpr hid, Bool.and_true]
  · rcases (hids.mem_update hmem).mp ht with rfl | ⟨ht, -⟩
    · exact absurd hstate hf
    · exact h.gateway t ht hstate

/-- A cancelled token takes its incidents with it. -/
theorem cancelled (h : d.Blocks g) (tok : Token) : ({ d.remove tok.id with
      incidents := d.incidents.filter (fun inc => inc.tokenID != tok.id) } : Desk).Blocks g where
  minted := fun inc hinc => h.minted inc (List.mem_of_mem_filter hinc)
  nodup := (List.filter_sublist.map _).nodup h.nodup
  named := fun inc hinc hb => by
    obtain ⟨hinc, hne⟩ := List.mem_filter.mp hinc
    obtain ⟨t, ht, hid, hstate, hnode⟩ := h.named inc hinc hb
    exact ⟨t, List.mem_filter.mpr ⟨ht, by rw [hid]; exact hne⟩, hid, hstate, hnode⟩
  blocked := fun t ht hstate => by
    obtain ⟨ht, hne⟩ := List.mem_filter.mp ht
    rw [bne_iff_ne] at hne
    rw [List.filter_filter, ← h.blocked t ht hstate]
    congr 1
    refine List.filter_congr (fun i _ => ?_)
    by_cases hid : i.tokenID = t.id
    · rw [hid, bne_iff_ne.mpr hne, Bool.and_true]
    · rw [beq_eq_false_iff_ne.mpr hid, Bool.and_false, Bool.false_and]
  gateway := fun t ht hstate => h.gateway t (List.mem_of_mem_filter ht) hstate

/-- What is left of an instance that ended. -/
theorem ended (h : d.Blocks g) (hids : d.Ids g) {tokens : List Token} (htokens : tokens = d.tokens ∨ tokens = []) :
    ({ d with tokens := tokens, incidents := d.incidents.filter (d.outlives tokens) } : Desk).Blocks g := by
  refine ⟨fun i hi => h.minted i (List.mem_of_mem_filter hi), (List.filter_sublist.map _).nodup h.nodup,
    fun i hi hb => ?_, fun t ht hstate => ?_, fun t ht hstate => ?_⟩
  · obtain ⟨hi, hout⟩ := List.mem_filter.mp hi
    obtain ⟨t, ht, hid, hstate, hnode⟩ := h.named i hi hb
    rcases htokens with rfl | rfl
    · exact ⟨t, ht, hid, hstate, hnode⟩
    · -- an incident outlives the instance with its token only
      have hne : i.tokenID ≠ "" := hid ▸ (hids.minted t ht).ne_empty
      unfold Desk.outlives at hout
      simp [hne] at hout
  · rcases htokens with rfl | rfl
    · rw [List.filter_filter, ← h.blocked t ht hstate]
      congr 1
      refine List.filter_congr (fun i hi => ?_)
      cases hb : i.blocks && i.tokenID == t.id with
      | false => rfl
      | true =>
        rw [Bool.and_eq_true, beq_iff_eq] at hb
        have hkind : (i.kind == .compensationStall) = false := by
          have hbl := hb.1
          unfold Incident.blocks at hbl
          rw [Bool.or_eq_true, beq_iff_eq, beq_iff_eq] at hbl
          rcases hbl with hk | hk <;> rw [hk] <;> rfl
        have hany : d.tokens.any (fun t => t.id == i.tokenID) = true :=
          List.any_eq_true.mpr ⟨t, ht, by rw [hb.2]; simp⟩
        unfold Desk.outlives
        rw [hkind, hany]
        simp
    · cases ht
  · rcases htokens with rfl | rfl
    · exact h.gateway t ht hstate
    · cases ht

end Desk.Blocks

theorem OnTime.named (h : OnTime d0 trg) (hn : Named d0 trg tok) : tok.state ≠ .incident :=
  (h tok hn.mem hn.await hn.replies).1

theorem Desk.Blocks.resolvesFailed (h : d.Blocks g) (hids : d.Ids g) (trg : TriggerBody) : ResolvesFailed d trg := by
  intro inc hinc hkind _ tok hmem hid
  obtain ⟨t, ht, hid', hstate, -⟩ := h.named inc hinc (by unfold Incident.blocks; rw [hkind]; rfl)
  exact hids.eq_of_id ht hmem (hid'.trans hid.symm) ▸ hstate

theorem Desk.Blocks.congr (h : d.Blocks g) (ht : d'.tokens = d.tokens) (hi : d'.incidents = d.incidents)
    (hn : d'.incidentSeq = d.incidentSeq) : d'.Blocks g := by
  obtain ⟨h1, h2, h3, h4, h5⟩ := h
  refine ⟨?_, ?_, ?_, ?_, ?_⟩
  · rw [hi, hn]; exact h1
  · rw [hi]; exact h2
  · rw [hi, ht]; exact h3
  · rw [hi, ht]; exact h4
  · rw [ht]; exact h5

/-- Every act of a punctual step keeps incidents and tokens in agreement. -/
theorem Act.blocks (hids : d.Ids g) (hshape : d.Shapes) (h : d.Blocks g) (hon : OnTime d0 trg)
    (hact : Act g trg d0 d d' cmds) : d'.Blocks g := by
  have hactive : ∀ {t : Token}, t.state = .active → t.state ≠ .incident := fun ht => by rw [ht]; decide
  have hwaiting : ∀ {t : Token}, t.state = .waiting → t.state ≠ .incident := fun ht => by rw [ht]; decide
  cases hact with
  | place node scope flow at_ =>
    refine ⟨h.minted, h.nodup, fun inc hinc hb => ?_, fun t ht hstate => ?_, fun t ht hstate => ?_⟩
    · obtain ⟨t, ht, hrest⟩ := h.named inc hinc hb
      exact ⟨t, List.mem_append_left _ ht, hrest⟩
    · rcases List.mem_append.mp ht with ht | ht
      · exact h.blocked t ht hstate
      · rw [List.mem_singleton.mp ht] at hstate
        cases hstate
    · rcases List.mem_append.mp ht with ht | ht
      · exact h.gateway t ht hstate
      · rw [List.mem_singleton.mp ht] at hstate
        cases hstate
  | step tok f hmem hact hf => exact h.update hids hmem (hactive hact) ((hf tok).state hact)
  | drop p hp =>
    refine h.drop (fun t ht hpt => ?_)
    rcases hp t ht hpt with hst | hst <;> rw [hst] <;> decide
  | defer tok hmem hact =>
    exact (h.update (f := fun t => { t with state := .waiting }) hids hmem (hactive hact) (hwaiting rfl)).congr rfl rfl rfl
  | pop id rest hq =>
    by_cases hex : ∃ tok ∈ d.tokens, tok.id = id
    · obtain ⟨tok, hmem, rfl⟩ := hex
      have hst := (hshape.queued tok hmem (hq ▸ List.mem_cons_self)).1
      exact (h.update (f := fun t => { t with state := .active }) hids hmem (hwaiting hst) (hactive rfl)).congr rfl rfl rfl
    · refine h.congr ?_ rfl rfl
      refine (List.map_congr_left (fun t ht => ?_)).trans (List.map_id _)
      exact if_neg (by simpa using fun he => hex ⟨t, ht, he⟩)
  | park tok f tasks nc nt n m cmds armCmds arms gws trs hmem hact hwait harm =>
    exact (h.update hids hmem (hactive hact) (hwaiting (hwait.waiting tok))).congr rfl rfl rfl
  | defect tok inc hmem hact hid hkind htok hnode =>
    have hl := (hshape.shaped tok hmem).active (Or.inl hact)
    refine h.fails hids hmem (hactive hact) hid (by unfold Incident.blocks; rw [hkind]; rfl) htok hnode ?_
    rw [hl.awaitCommand]
    exact (evtgw_ne_empty tok.id).symm
  | answer tok f hmem hnamed hf harms hnone => exact h.update hids hmem (hon.named hnamed) (hactive (hf tok).state)
  | finishTask tok f task close hmem hnamed hf harms htask hopen hclose =>
    exact (h.update hids hmem (hon.named hnamed) (hactive (hf tok).state)).congr rfl rfl rfl
  | hear tok f hmem hf hid harms =>
    refine h.update hids hmem ?_ (hactive hf.state)
    rcases hf.heard with ⟨hne, -⟩ | ⟨hne, -⟩
    · exact hwaiting ((hshape.shaped tok hmem).signal hne).1
    · exact hwaiting ((hshape.shaped tok hmem).message hne).1
  | win tok f won cmds hmem hawait harmed hf hcmds =>
    exact (h.update hids hmem (fun hst => h.gateway tok hmem hst hawait) (hactive (hf tok).state)).congr rfl rfl rfl
  | rewait tok f tr spec hmem hnamed htrg hf harms htr =>
    exact (h.update hids hmem (hon.named hnamed) (hwaiting (hf tok).state)).congr rfl rfl rfl
  | fail tok inc hmem hnamed htrg harms hid hkind htok hnode =>
    obtain ⟨err, retryable, jitter, cause, he⟩ := htrg
    exact h.fails hids hmem (hon.named hnamed) hid (by unfold Incident.blocks; rw [hkind]; rfl) htok hnode
      ((hon tok hnamed.mem hnamed.await hnamed.replies).2 (by rw [he]; rfl))
  | reinvoke tok f cmd arms m armCmds hmem hnamed htrg hf hcmd hkind harm =>
    exact (h.update hids hmem (hon.named hnamed) (hwaiting (hf tok).state)).congr rfl rfl rfl
  | resolve inc tok f cmd arms m armCmds n hd htrg hinc hkind hmem htok hf hcmd hhuman harm =>
    exact (h.resolved hids hmem (List.mem_of_find?_eq_some hinc) (by unfold Incident.blocks; rw [hkind]; rfl) htok
      (hwaiting (hf tok).state)).congr rfl rfl rfl
  | resolveGone inc hinc hkind hgone =>
    have hmem := List.mem_of_find?_eq_some hinc
    rw [eraseP_eq_filter h.nodup]
    refine h.shed (fun i hi hp => ?_)
    have hid : i.id = inc.id := by simpa using hp
    rw [List.inj_on_of_nodup_map h.nodup hi hmem hid]
    by_contra hb
    obtain ⟨t, ht, hid', -, -⟩ := h.named inc hmem (by simpa using hb)
    exact hgone t ht hid'
  | lose tok hmem hnamed htrg harms =>
    refine h.drop (p := fun t => t.id != tok.id) (fun t ht hpt => ?_)
    have hid : t.id = tok.id := by simpa using hpt
    rw [hids.eq_of_id ht hmem hid]
    exact hon.named hnamed
  | cancel tok hmem harms => exact (h.cancelled tok).congr rfl rfl rfl
  | report inc hid htok hkind hfailed =>
    have hb := not_blocks hkind
    refine ⟨(h.raised hid).1, (h.raised hid).2, fun i hi hbi => ?_, fun t ht hstate => ?_, h.gateway⟩
    · rcases List.mem_append.mp hi with hi | hi
      · exact h.named i hi hbi
      · rw [List.mem_singleton.mp hi, hb] at hbi
        cases hbi
    · change ((d.incidents ++ [inc]).filter (fun i => i.blocks && i.tokenID == t.id)).length = 1
      rw [List.filter_append, List.filter_cons_of_neg (by rw [hb]; simp), List.filter_nil, List.append_nil]
      exact h.blocked t ht hstate
  | retire p hp hfailed => exact h.shed (fun inc _ hpi => not_blocks (hp inc hpi))
  | finish tokens cmds cuts exits st htokens hcancel hcmds =>
    exact (h.ended hids (htokens.imp (fun h => h.1) (fun h => h.1))).congr rfl rfl rfl
  | _ => exact h.congr rfl rfl rfl

/-! ## Runs -/

variable {p : ProcessDefinition} {gen : Option IDGenerator} {inst : String} {calls : List Call} {x : InstanceState}

theorem IncidentsAgree.of_blocks {s : InstanceState} (hids : s.desk.Ids g) (h : s.desk.Blocks g) : IncidentsAgree s where
  named := fun inc hinc hkind => h.named inc hinc (by unfold Incident.blocks; rw [hkind]; rfl)
  one := fun t ht => by
    have hsub : (s.incidents.filter (fun inc => inc.kind == .action && inc.tokenID == t.id)).length ≤
        (s.incidents.filter (fun inc => inc.blocks && inc.tokenID == t.id)).length := by
      refine (List.monotone_filter_right _ (fun inc hinc => ?_)).length_le
      rw [Bool.and_eq_true] at hinc ⊢
      refine ⟨?_, hinc.2⟩
      unfold Incident.blocks
      rw [hinc.1, Bool.true_or]
    by_cases hst : t.state = .incident
    · exact hsub.trans (h.blocked t ht hst).le
    · have hnone : s.incidents.filter (fun inc => inc.blocks && inc.tokenID == t.id) = [] := by
        refine List.filter_eq_nil_iff.mpr (fun inc hinc => ?_)
        rw [Bool.and_eq_true, beq_iff_eq]
        rintro ⟨hb, he⟩
        exact h.unnamed hids ht hst hinc hb he
      rw [hnone] at hsub
      exact hsub.trans (Nat.zero_le 1)
  blocked := h.blocked

/-- In a run whose replies are on time, incidents and tokens agree. -/
theorem incidents_agree (hrun : Run p gen inst calls x) (htime : Heeds (fun s => OnTime s.desk) p gen inst calls) :
    IncidentsAgree x := by
  have hblank : ({ instanceID := inst } : InstanceState).desk.Shapes ∧
      ({ instanceID := inst } : InstanceState).desk.Blocks (runIDs gen inst) :=
    ⟨⟨by simp [InstanceState.desk, ControlState.front], by simp [InstanceState.desk, ControlState.front],
      by simp [InstanceState.desk, ControlState.front]⟩, ⟨by simp [InstanceState.desk], by simp [InstanceState.desk],
      by simp [InstanceState.desk], by simp [InstanceState.desk, ControlState.front],
      by simp [InstanceState.desk, ControlState.front]⟩⟩
  have hall := Heeds.desk_induction (P := fun s => OnTime s.desk) (I := fun d => d.Shapes ∧ d.Blocks (runIDs gen inst)) hblank
    (fun htime hids0 h0 hids h hact => ⟨hact.shapes hids h.1 (h0.2.resolvesFailed hids0 _), hact.blocks hids h.1 h.2 htime⟩)
    (fun h => ⟨⟨h.1.shaped, h.1.queued, h.1.queue⟩, h.2.congr rfl rfl rfl⟩) hrun htime
  exact IncidentsAgree.of_blocks hall.1 hall.2.2

/-- A task that is tried once, and another one. -/
def triedOnce : ProcessDefinition :=
  rowOf "once" [
    { id := "a", spec := .serviceTask { retryPolicy := some { maxAttempts := 1 } } "charge" }, serviceNode "b" ""]

/-- The failed task has one incident, and resolving it invokes the task again. -/
theorem failed_task_agrees : ∃ x y, Run triedOnce none "i" (callsFrom 1 [.startInstance [] "",
      .actionFailed "i-c1" "down" true 0 none]) x ∧ x.incidents.length = 1 ∧ IncidentsAgree x ∧
    Run triedOnce none "i" (callsFrom 1 [.startInstance [] "", .actionFailed "i-c1" "down" true 0 none,
      .resolveIncident "i-inc1" 1]) y ∧ y.incidents.length = 0 ∧ IncidentsAgree y := by
  have hplay : playsTo triedOnce [.startInstance [] "", .actionFailed "i-c1" "down" true 0 none]
      (fun x => x.incidents.length == 1) = true := by decide
  have hplay' : playsTo triedOnce [.startInstance [] "", .actionFailed "i-c1" "down" true 0 none, .resolveIncident "i-inc1" 1]
      (fun x => x.incidents.length == 0) = true := by decide
  obtain ⟨x, hx, hlen⟩ := run_of_playsTo hplay
  obtain ⟨y, hy, hlen'⟩ := run_of_playsTo hplay'
  exact ⟨x, y, hx, by simpa using hlen, incidents_agree hx (heeds_of_heedsFrom (by decide)), hy, by simpa using hlen',
    incidents_agree hy (heeds_of_heedsFrom (by decide))⟩

/-- A late completion moves the failed token on, and its incident stays. -/
theorem late_reply_keeps_incident : Accepted asciiTables triedOnce ∧ ∃ x calls, Run triedOnce none "i" calls x ∧
    ¬ IncidentsAgree x := by
  have hplay : playsTo triedOnce [.startInstance [] "", .actionFailed "i-c1" "down" true 0 none, .actionCompleted "i-c1" []]
      (fun x => x.incidents.any (·.kind == .action) && x.tokens.all (·.state != .incident)) = true := by decide
  refine ⟨by decide, ?_⟩
  obtain ⟨x, hx, hP⟩ := run_of_playsTo hplay
  refine ⟨x, _, hx, fun hagree => ?_⟩
  rw [Bool.and_eq_true] at hP
  obtain ⟨inc, hinc, hkind⟩ := List.any_eq_true.mp hP.1
  obtain ⟨t, ht, -, hstate, -⟩ := hagree.named inc hinc (by simpa using hkind)
  have hne := List.all_eq_true.mp hP.2 t ht
  rw [hstate] at hne
  cases hne

end Wrkflw
