import Wrkflw.Property.Commands
import Wrkflw.Property.History

/-!
# Where tokens come from

A token remembers the flow it came by, under the position of the flow in the definition of its scope. The ledger of visits
carries it through every move; only a deadline looks its flow up in the scope of a timer instead of the token's own.

* `Act.homes` : a token stays in its scope;
* `Desk.Due` : a deadline is that of a task for which only a token of the deadline's scope waits, in every state of a run
  (`run_due`);
* `token_came_by_flow` : in every state of a run, a token came by one flow into the node it stands on.
-/

namespace Wrkflw

open ControlState

variable {g : IDGenerator} {trg : TriggerBody} {d0 d d' : Desk} {cmds : List Command} {tok t : Token} {tr : TimerRecord}

/-! ## Scopes of tokens -/

/-- A token was there before, in its scope, or is placed now. -/
theorem Act.homes (hids : d.Ids g) (hact : Act g trg d0 d d' cmds) (hmem : t ∈ d'.tokens) :
    (∃ t0 ∈ d.tokens, t0.id = t.id ∧ t0.scopeID = t.scopeID) ∨ t.id = g.newID .token (d.tokenSeq + 1) := by
  have hsame : ∀ {d1 : Desk}, d1.tokens ⊆ d.tokens → t ∈ d1.tokens → ∃ t0 ∈ d.tokens, t0.id = t.id ∧ t0.scopeID = t.scopeID :=
    fun hsub ht => ⟨t, hsub ht, rfl, rfl⟩
  have hupdate : ∀ {tok : Token} {f : Token → Token}, tok ∈ d.tokens → (f tok).id = tok.id → (f tok).scopeID = tok.scopeID →
      t ∈ (d.update tok.id f).tokens → ∃ t0 ∈ d.tokens, t0.id = t.id ∧ t0.scopeID = t.scopeID := by
    intro tok f htok hid hscope ht
    rcases (hids.mem_update htok).mp ht with rfl | ⟨ht, -⟩
    · exact ⟨tok, htok, hid.symm, hscope.symm⟩
    · exact ⟨t, ht, rfl, rfl⟩
  cases hact with
  | place node scope flow at_ =>
    rcases List.mem_append.mp hmem with ht | ht
    · exact Or.inl ⟨t, ht, rfl, rfl⟩
    · rw [List.mem_singleton.mp ht]
      exact Or.inr rfl
  | step tok f htok hactive hf => exact Or.inl (hupdate htok (hf tok).id (hf tok).scopeID hmem)
  | drop p hp => exact Or.inl (hsame (List.filter_subset_self _) hmem)
  | defer tok htok hactive => exact Or.inl (hupdate (f := fun t => { t with state := .waiting }) htok rfl rfl hmem)
  | pop id rest hq =>
    obtain ⟨t0, ht0, he⟩ := List.mem_map.mp hmem
    refine Or.inl ⟨t0, ht0, ?_, ?_⟩
    · rw [← he]
      split <;> rfl
    · rw [← he]
      split <;> rfl
  | park tok f tasks nc nt n m cmds armCmds arms gws trs htok hactive hwait harm =>
    cases hwait with
    | command f cmd hf hcmd hkind => exact Or.inl (hupdate htok (hf tok).id (hf tok).scopeID hmem)
    | task f ht spec hf hid hopen hnode => exact Or.inl (hupdate htok (hf tok).id (hf tok).scopeID hmem)
    | timer spec => exact Or.inl (hupdate htok rfl rfl hmem)
    | signal name hname => exact Or.inl (hupdate htok rfl rfl hmem)
    | message name key => exact Or.inl (hupdate htok rfl rfl hmem)
    | gateway f hf => exact Or.inl (hupdate htok (hf tok).id (hf tok).scopeID hmem)
  | defect tok inc htok hactive hid hkind _ hnode =>
    exact Or.inl (hupdate (f := fun t => { t with state := .incident }) htok rfl rfl hmem)
  | answer tok f htok hnamed hf harms hnone => exact Or.inl (hupdate htok (hf tok).id (hf tok).scopeID hmem)
  | finishTask tok f task close htok hnamed hf harms htask hopen hclose =>
    exact Or.inl (hupdate htok (hf tok).id (hf tok).scopeID hmem)
  | hear tok f htok hf hid harms => exact Or.inl (hupdate htok hf.id hf.scopeID hmem)
  | win tok f won cmds htok hawait harmed hf hcmds => exact Or.inl (hupdate htok (hf tok).id (hf tok).scopeID hmem)
  | rewait tok f tr spec htok hnamed htrg hf harms htr => exact Or.inl (hupdate htok (hf tok).id (hf tok).scopeID hmem)
  | fail tok inc htok hnamed htrg harms hid hkind _ hnode =>
    exact Or.inl (hupdate (f := fun t => { t with state := .incident }) htok rfl rfl hmem)
  | reinvoke tok f cmd arms m armCmds htok hnamed htrg hf hcmd hkind harm =>
    exact Or.inl (hupdate htok (hf tok).id (hf tok).scopeID hmem)
  | resolve inc tok f cmd arms m armCmds n hd htrg hinc hkind htok _ hf hcmd hhuman harm =>
    exact Or.inl (hupdate htok (hf tok).id (hf tok).scopeID hmem)
  | lose tok htok hnamed htrg harms => exact Or.inl (hsame (List.filter_subset_self _) hmem)
  | cancel tok htok harms => exact Or.inl (hsame (List.filter_subset_self _) hmem)
  | finish tokens cmds cuts exits st htokens hcancel hcmds =>
    rcases htokens with ⟨rfl, -⟩ | ⟨rfl, -, -⟩
    · exact Or.inl ⟨t, hmem, rfl, rfl⟩
    · cases hmem
  | _ => exact Or.inl ⟨t, hmem, rfl, rfl⟩

/-! ## Deadlines -/

/-- A deadline was there before, or is that of the task opened now, for a token of its scope. -/
theorem Act.deadline (hact : Act g trg d0 d d' cmds) (htr : tr ∈ d'.timers) (hkind : tr.kind = .deadline) :
    tr ∈ d.timers ∨ ∃ tok ∈ d.tokens, ∃ f : Token → Token, tr.taskID = g.newID .task (d.taskSeq + 1) ∧
      tr.scopeID = tok.scopeID ∧
      d'.taskSeq = d.taskSeq + 1 ∧ d'.tokens = (d.update tok.id f).tokens ∧ (f tok).scopeID = tok.scopeID := by
  cases hact with
  | park tok f tasks nc nt n m cmds armCmds arms gws trs htok hactive hwait harm hdue =>
    rcases List.mem_append.mp htr with htr | htr
    · exact Or.inl htr
    · obtain ⟨ht, hht, htask, hscope⟩ := hdue tr htr hkind
      cases hwait with
      | task f ht' spec hf hid hopen hnode =>
        rw [List.mem_singleton.mp hht, hid] at htask
        exact Or.inr ⟨tok, htok, f, htask, hscope, rfl, rfl, (hf tok).scopeID⟩
      | _ => cases hht
  | rewait tok f tr' spec htok hnamed htrg hf harms hid hno =>
    rcases List.mem_append.mp htr with htr | htr
    · exact Or.inl htr
    · rw [List.mem_singleton.mp htr] at hkind
      exact absurd hkind hno
  | schedule tr' spec hid hno =>
    rcases List.mem_append.mp htr with htr | htr
    · exact Or.inl htr
    · rw [List.mem_singleton.mp htr] at hkind
      exact absurd hkind hno
  | dropTimers p fired cmds hfired hcmds => exact Or.inl (List.mem_of_mem_filter htr)
  | finish tokens cmds cuts exits st htokens hcancel hcmds => cases htr
  | _ => exact Or.inl htr

/-- A deadline is that of a task that was opened, and only a token of its scope waits for the task. -/
structure Desk.Due (g : IDGenerator) (d : Desk) : Prop where
  minted : ∀ tr ∈ d.timers, tr.kind = .deadline → Minted g .task d.taskSeq tr.taskID
  scope : ∀ tr ∈ d.timers, tr.kind = .deadline → ∀ t ∈ d.tokens, t.awaitCommand = tr.taskID → t.scopeID = tr.scopeID

theorem Act.due (hop : g.Opaque) (hids : d.Ids g) (hb : d.Bounded g) (h : d.Due g) (hact : Act g trg d0 d d' cmds) :
    d'.Due g := by
  constructor
  · intro tr htr hkind
    rcases hact.deadline htr hkind with htr | ⟨tok, -, f, htask, -, hseq, -, -⟩
    · exact (h.minted tr htr hkind).mono (hact.taskSeq_le hop hids)
    · rw [htask, hseq]
      exact minted_self g .task (d.taskSeq + 1)
  · intro tr htr hkind t ht hawait
    rcases hact.deadline htr hkind with htr | ⟨tok, htok, f, htask, hscope, -, htokens, hf⟩
    · -- who waits for an old task waited for it before, in the same scope
      obtain ⟨k, hk, hid⟩ := h.minted tr htr hkind
      have hold : ∃ t0 ∈ d.tokens, t0.id = t.id ∧ t0.awaitCommand = t.awaitCommand := by
        rcases hact.bills hop hids with hplain | ⟨tokenID, id, hen⟩ | ⟨id, hw⟩
        · rcases hplain.tokens t ht with hold | hun
          · exact hold
          · exact absurd (hawait.trans hid) (hun k).2
        · rcases hen.tokens t ht with ⟨-, hnext⟩ | hold
          · rcases hen.next.next with ⟨-, -, hcmd⟩ | ⟨-, -, hcmd⟩
            · have := g.newID_inj _ _ _ _ ((hid.symm.trans hawait.symm).trans (hnext.trans hcmd))
              exact absurd this.1 (by decide)
            · have := g.newID_inj _ _ _ _ ((hid.symm.trans hawait.symm).trans (hnext.trans hcmd))
              omega
          · exact hold
        · rw [hw.tokens] at ht
          exact ⟨t, ht, rfl, rfl⟩
      obtain ⟨t0, ht0, hid0, hawait0⟩ := hold
      rcases hact.homes hids ht with ⟨t1, ht1, hid1, hscope1⟩ | hnew
      · obtain rfl := hids.eq_of_id ht0 ht1 (hid0.trans hid1.symm)
        rw [← hscope1]
        exact h.scope tr htr hkind t0 ht0 (hawait0.trans hawait)
      · exact absurd (hid0.trans hnew) (hids.minted t0 ht0).ne_next
    · rw [htokens] at ht
      rcases (hids.mem_update htok).mp ht with rfl | ⟨ht, -⟩
      · exact hf.trans hscope.symm
      · have := hb.task t ht _ (hawait.trans htask)
        omega

/-! ## Runs -/

variable {p : ProcessDefinition} {gen : Option IDGenerator} {inst : String} {calls : List Call} {x : InstanceState}

theorem run_due (hop : (runIDs gen inst).Opaque) (hrun : Run p gen inst calls x) : x.desk.Due (runIDs gen inst) := by
  have hblank : ({ instanceID := inst } : InstanceState).desk.Bounded (runIDs gen inst) ∧
      ({ instanceID := inst } : InstanceState).desk.Due (runIDs gen inst) :=
    ⟨(run_bounded (p := p) hop .refl).2, nofun, nofun⟩
  refine (Heeds.desk_induction (P := fun _ _ => True) (I := fun d => d.Bounded (runIDs gen inst) ∧ d.Due (runIDs gen inst))
    hblank ?_ ?_ hrun (fun _ _ _ _ _ _ => trivial)).2.2
  · intro s trg d d' cmds _ _ _ hids h hact
    exact ⟨((Billed.start h.1).act hop hids hact).bounded, hact.due hop hids h.1 h.2⟩
  · exact fun h => ⟨⟨h.1.command, h.1.task, h.1.walk, h.1.walkTask⟩, h.2.minted, h.2.scope⟩

/-- Different positions give different identities, whatever the flows are named. -/
theorem FlowRef.eq_of_identity {d : ProcessDefinition} {r r' : FlowRef} (h : r ∈ flowRefs d) (h' : r' ∈ flowRefs d)
    (he : r.identity = r'.identity) : r = r' := by
  obtain ⟨a, ha, rfl⟩ := List.mem_map.mp h
  obtain ⟨b, hb, rfl⟩ := List.mem_map.mp h'
  have hindex : a.2 = b.2 := (Library.numbered_inj he).1
  have hflow := (List.mem_zipIdx_iff_getElem?.mp ha).symm.trans
    ((congrArg _ hindex).trans (List.mem_zipIdx_iff_getElem?.mp hb))
  rw [hindex, Option.some.inj hflow]

/-- In every state of a run, a token that came by a flow has the identity of one flow of its scope's definition, which
leads to the node it stands on. -/
theorem token_came_by_flow (hop : (runIDs gen inst).Opaque) (hrun : Run p gen inst calls x) (ht : t ∈ x.tokens)
    (hflow : t.arrivalFlow ≠ "") :
    ∃ d, ScopeDefn p x.trace t.scopeID d ∧ (∀ d', defForScope p x.scopes t.scopeID = .ok d' → d' = d) ∧
      ∃ r ∈ flowRefs d, r.identity = t.arrivalFlow ∧ r.flow.target = t.nodeID ∧
        ∀ r' ∈ flowRefs d, r'.identity = t.arrivalFlow → r' = r := by
  have hbooked : Booked ((runIDs gen inst).Opaque) p gen inst calls x :=
    Booked.run (fun hrun hop => (run_due hop hrun).scope) hrun
  obtain ⟨⟨c, htop, -, hled⟩, -⟩ := hbooked
  rcases hled.routed hop t ht with hno | ⟨d, hd, r, hr, hid⟩
  · exact absurd hno hflow
  · rw [htop] at hd
    obtain ⟨hmem, htarget⟩ := List.mem_filter.mp hr
    have hnames := hrun.sound.wf.names
    refine ⟨d, hd, fun d' hd' => ?_, r, hmem, hid.symm, by simpa using htarget, fun r' hr' hid' => ?_⟩
    · exact ScopeDefn.unique hnames.opened (defForScope_defn hnames hd') hd
    · exact FlowRef.eq_of_identity hr' hmem (hid'.trans hid)

/-- A fork with two flows without a name to one service task. -/
def forksTwice : ProcessDefinition where
  id := "forks"
  version := 1
  nodes := [startNode "s", forkNode "g", serviceNode "a" "",
    endNode "e"]
  flows := [flowOf "f1" "s" "g", flowOf "" "g" "a", flowOf "" "g" "a", flowOf "f2" "a" "e"]

/-- The two tokens at the task came by the second and the third flow, each by one of them. -/
theorem forked_tokens_came_apart : ∃ x calls, Run forksTwice none "i" calls x ∧
    x.tokens.map (fun t => (t.nodeID, t.arrivalFlow)) = [("a", "1:"), ("a", "2:")] ∧
    ∀ t ∈ x.tokens, ∃ d, ScopeDefn forksTwice x.trace t.scopeID d ∧
      (∀ d', defForScope forksTwice x.scopes t.scopeID = .ok d' → d' = d) ∧
      ∃ r ∈ flowRefs d, r.identity = t.arrivalFlow ∧ r.flow.target = t.nodeID ∧
        ∀ r' ∈ flowRefs d, r'.identity = t.arrivalFlow → r' = r := by
  have hplay : playsTo forksTwice [.startInstance [] ""] (fun x =>
      x.tokens.map (fun t => (t.nodeID, t.arrivalFlow)) == [("a", "1:"), ("a", "2:")]) = true := by decide
  obtain ⟨x, hrun, hP⟩ := run_of_playsTo hplay
  have htokens := beq_iff_eq.mp hP
  have hop : (runIDs none "i").Opaque := counterIDs_opaque "i"
  refine ⟨x, _, hrun, htokens, fun t ht => token_came_by_flow hop hrun ht ?_⟩
  have hmem : (t.nodeID, t.arrivalFlow) ∈ x.tokens.map (fun t => (t.nodeID, t.arrivalFlow)) := List.mem_map.mpr ⟨t, ht, rfl⟩
  rw [htokens] at hmem
  rcases List.mem_cons.mp hmem with he | hmem
  · rw [(Prod.mk.inj he).2]
    decide
  · rw [(Prod.mk.inj (List.mem_singleton.mp hmem)).2]
    decide

end Wrkflw
