import Wrkflw.Property.Incidents

/-!
# Commands and their awaiters

Every command of a step that waits for an answer has its own id, minted in the step, and one token or the walk's cursor
waits for it. `Act.bills` says which acts mint an id and for whom; `Billed` is the account of a step, and
`commands_awaited` the result for steps that leave the instance live. An instance that fails at once keeps its tokens and
sends nothing: `failed_instance_keeps_waits`.
-/

namespace Wrkflw

open ControlState

variable {id : String} {s : InstanceState}

/-- The tokens and the cursor that wait for the id. -/
def awaiters (s : InstanceState) (id : String) : Nat :=
  (s.tokens.filter (fun t => t.awaitCommand == id)).length + (if s.compensating.activeCmdID == id then 1 else 0)

/-- The id of a command or a task that was minted after the state. -/
def MintedSince (g : IDGenerator) (s : InstanceState) (id : String) : Prop :=
  (∃ k, s.cmdSeq < k ∧ id = g.newID .command k) ∨ ∃ k, s.taskSeq < k ∧ id = g.newID .task k

/-- No id of the generator is the sentinel an event-based gateway's token waits under. -/
def IDGenerator.Opaque (g : IDGenerator) : Prop := ∀ kind n m, g.newID kind n ≠ "evtgw:" ++ g.newID .token m

/-- The ids of the commands that wait for an answer. -/
def answerIDs (cmds : List Command) : List String := (cmds.map Command.correlationID).filter (· != "")

variable {g : IDGenerator} {trg : TriggerBody} {d0 d d' : Desk} {cmds cmds' : List Command} {tok t : Token}

theorem answerIDs_append (cmds cmds' : List Command) : answerIDs (cmds ++ cmds') = answerIDs cmds ++ answerIDs cmds' := by
  unfold answerIDs
  rw [List.map_append, List.filter_append]

theorem answerIDs_perm (h : cmds.Perm cmds') : (answerIDs cmds).Perm (answerIDs cmds') := (h.map _).filter _

theorem answerIDs_nil (h : ∀ cmd ∈ cmds, cmd.correlationID = "") : answerIDs cmds = [] := by
  unfold answerIDs
  refine List.filter_eq_nil_iff.mpr (fun id hid => ?_)
  obtain ⟨cmd, hcmd, rfl⟩ := List.mem_map.mp hid
  simpa using h cmd hcmd

theorem answerIDs_cons {cmd : Command} (hne : cmd.correlationID ≠ "") (h : ∀ c ∈ cmds, c.correlationID = "") :
    answerIDs (cmd :: cmds) = [cmd.correlationID] := by
  have hrest := answerIDs_nil h
  unfold answerIDs at hrest ⊢
  rw [List.map_cons, List.filter_cons_of_pos (by simpa using hne), hrest]

theorem Command.Neutral.unanswered {cmd : Command} (h : cmd.Neutral) : cmd.correlationID = "" := by
  cases cmd with
  | invokeAction commandID name input fireAndForget => cases h
  | startSubInstance commandID defRef input => cases h
  | awaitHuman taskID spec => cases h
  | _ => rfl

theorem Schedules.unanswered {n m : Nat} {ids : List String} (h : Schedules g n m ids cmds) :
    ∀ cmd ∈ cmds, cmd.correlationID = "" := by
  intro cmd hcmd
  obtain ⟨id, -, owner, spec, kind, rfl⟩ := h.only cmd hcmd
  rfl

theorem Cancels.unanswered {ids : List String} {except : String} (h : Cancels ids except cmds) :
    ∀ cmd ∈ cmds, cmd.correlationID = "" := by
  intro cmd hcmd
  obtain ⟨id, -, rfl⟩ := h.only cmd hcmd
  rfl

theorem closedTask_unanswered (d : Desk) (taskID : String) : ∀ cmd ∈ (d.closedTask taskID).2, cmd.correlationID = "" := by
  intro cmd hcmd
  unfold Desk.closedTask at hcmd
  split at hcmd
  · cases hcmd
  · split at hcmd
    · split at hcmd
      · rw [List.mem_singleton.mp hcmd]
        rfl
      · cases hcmd
    · cases hcmd

/-! ## What an act mints -/

/-- The id is neither a command's nor a task's. -/
def Unanswered (g : IDGenerator) (id : String) : Prop := ∀ k, id ≠ g.newID .command k ∧ id ≠ g.newID .task k

theorem unanswered_empty (g : IDGenerator) : Unanswered g "" := fun k =>
  ⟨(g.newID_ne_empty _ k).symm, (g.newID_ne_empty _ k).symm⟩

theorem unanswered_timer (g : IDGenerator) (n : Nat) : Unanswered g (g.newID .timer n) := by
  intro k
  constructor
  · intro h
    cases (g.newID_inj _ _ _ _ h).1
  · intro h
    cases (g.newID_inj _ _ _ _ h).1

theorem unanswered_gateway (hop : g.Opaque) {n : Nat} (hid : Minted g .token n id) :
    Unanswered g ("evtgw:" ++ id) := by
  obtain ⟨m, -, rfl⟩ := hid
  exact fun k => ⟨fun h => hop .command k m h.symm, fun h => hop .task k m h.symm⟩

/-- No id is minted: who waits, waited before, or waits for no command and no task. -/
structure Plain (g : IDGenerator) (d d' : Desk) (cmds : List Command) : Prop where
  cmdSeq : d.cmdSeq ≤ d'.cmdSeq
  taskSeq : d.taskSeq ≤ d'.taskSeq
  answers : answerIDs cmds = []
  tokens : ∀ t' ∈ d'.tokens, (∃ t ∈ d.tokens, t.id = t'.id ∧ t.awaitCommand = t'.awaitCommand) ∨
    Unanswered g t'.awaitCommand
  walk : d'.walk = d.walk ∨ d'.walk = ""

/-- The next command's or task's id. -/
structure NextID (g : IDGenerator) (d d' : Desk) (id : String) : Prop where
  next : (d'.cmdSeq = d.cmdSeq + 1 ∧ d'.taskSeq = d.taskSeq ∧ id = g.newID .command (d.cmdSeq + 1)) ∨
    (d'.cmdSeq = d.cmdSeq ∧ d'.taskSeq = d.taskSeq + 1 ∧ id = g.newID .task (d.taskSeq + 1))

/-- The next id goes out with a command, and one token waits for it. -/
structure Enlists (g : IDGenerator) (d d' : Desk) (cmds : List Command) (tokenID id : String) : Prop where
  next : NextID g d d' id
  answers : answerIDs cmds = [id]
  tokens : ∀ t' ∈ d'.tokens, (t'.id = tokenID ∧ t'.awaitCommand = id) ∨
    ∃ t ∈ d.tokens, t.id = t'.id ∧ t.awaitCommand = t'.awaitCommand
  walk : d'.walk = d.walk

/-- The next id goes out with a command, and the walk waits for it. -/
structure Walks (g : IDGenerator) (d d' : Desk) (cmds : List Command) (id : String) : Prop where
  next : NextID g d d' id
  command : ∃ k, id = g.newID .command k
  answers : answerIDs cmds = [id]
  tokens : d'.tokens = d.tokens
  walk : d'.walk = id

theorem Plain.same (hseq : d.cmdSeq ≤ d'.cmdSeq) (htask : d.taskSeq ≤ d'.taskSeq) (ht : d'.tokens ⊆ d.tokens)
    (hw : d'.walk = d.walk ∨ d'.walk = "") (hc : ∀ cmd ∈ cmds, cmd.correlationID = "") : Plain g d d' cmds :=
  ⟨hseq, htask, answerIDs_nil hc, fun t ht' => Or.inl ⟨t, ht ht', rfl, rfl⟩, hw⟩

/-- One token's wait changes. -/
theorem Plain.update (hids : d.Ids g) (hmem : tok ∈ d.tokens) {f : Token → Token} (hid : (f tok).id = tok.id)
    (hf : (f tok).awaitCommand = tok.awaitCommand ∨ Unanswered g (f tok).awaitCommand)
    (htok : d'.tokens = (d.update tok.id f).tokens) (hseq : d.cmdSeq ≤ d'.cmdSeq) (htask : d.taskSeq ≤ d'.taskSeq)
    (hw : d'.walk = d.walk) (hc : ∀ cmd ∈ cmds, cmd.correlationID = "") : Plain g d d' cmds where
  cmdSeq := hseq
  taskSeq := htask
  answers := answerIDs_nil hc
  tokens := fun t' ht' => by
    rw [htok] at ht'
    rcases (hids.mem_update hmem).mp ht' with rfl | ⟨ht', -⟩
    · rcases hf with he | he
      · exact Or.inl ⟨tok, hmem, hid.symm, he.symm⟩
      · exact Or.inr he
    · exact Or.inl ⟨t', ht', rfl, rfl⟩
  walk := Or.inl hw

theorem Enlists.update (hids : d.Ids g) (hmem : tok ∈ d.tokens) {f : Token → Token}
    (hf : (f tok).id = tok.id ∧ (f tok).awaitCommand = id) (htok : d'.tokens = (d.update tok.id f).tokens)
    (hnext : NextID g d d' id) (hw : d'.walk = d.walk) (hc : answerIDs cmds = [id]) : Enlists g d d' cmds tok.id id where
  next := hnext
  answers := hc
  tokens := fun t' ht' => by
    rw [htok] at ht'
    rcases (hids.mem_update hmem).mp ht' with rfl | ⟨ht', -⟩
    · exact Or.inl hf
    · exact Or.inr ⟨t', ht', rfl, rfl⟩
  walk := hw

theorem Wait.bills (hop : g.Opaque) (hids : d.Ids g) (hmem : tok ∈ d.tokens) {f : Token → Token} {tasks : List HumanTask}
    {nc nt n : Nat} {armCmds : List Command} (h : Wait g d tok f tasks nc nt n cmds)
    (harm : ∀ cmd ∈ armCmds, cmd.correlationID = "")
    (htok : d'.tokens = (d.update tok.id f).tokens) (hnc : d'.cmdSeq = nc) (hnt : d'.taskSeq = nt) (hw : d'.walk = d.walk) :
    Plain g d d' (cmds ++ armCmds) ∨ (∃ tokenID id, Enlists g d d' (cmds ++ armCmds) tokenID id) ∨
      ∃ id, Walks g d d' (cmds ++ armCmds) id := by
  have hquiet : ∀ {cs : List Command}, (∀ cmd ∈ cs, cmd.correlationID = "") →
      ∀ cmd ∈ cs ++ armCmds, cmd.correlationID = "" := by
    intro cs hcs cmd hcmd
    rcases List.mem_append.mp hcmd with hcmd | hcmd
    · exact hcs cmd hcmd
    · exact harm cmd hcmd
  have hplain : ∀ {cs : List Command}, d.cmdSeq = nc → d.taskSeq = nt → (f tok).id = tok.id →
      ((f tok).awaitCommand = tok.awaitCommand ∨ Unanswered g (f tok).awaitCommand) →
      (∀ cmd ∈ cs, cmd.correlationID = "") → Plain g d d' (cs ++ armCmds) := fun h1 h2 hid hf hcs =>
    Plain.update hids hmem hid hf htok (by rw [hnc, h1]) (by rw [hnt, h2]) hw (hquiet hcs)
  cases h with
  | command f cmd hf hcmd hkind =>
    refine Or.inr (Or.inl ⟨tok.id, g.newID .command (d.cmdSeq + 1), Enlists.update hids hmem
      ⟨(hf tok).id, (hf tok).awaitCommand⟩ htok ⟨Or.inl ⟨hnc, hnt, rfl⟩⟩ hw ?_⟩)
    rw [← hcmd]
    exact answerIDs_cons (by rw [hcmd]; exact g.newID_ne_empty _ _) harm
  | task f ht spec hf hid hopen hnode =>
    refine Or.inr (Or.inl ⟨tok.id, ht.taskID, Enlists.update hids hmem ⟨(hf tok).id, (hf tok).awaitCommand⟩ htok
      ⟨Or.inr ⟨hnc, hnt, hid⟩⟩ hw ?_⟩)
    have hne : (Command.awaitHuman ht.taskID spec).correlationID ≠ "" := by
      change ht.taskID ≠ ""
      rw [hid]
      exact g.newID_ne_empty _ _
    exact answerIDs_cons hne harm
  | timer spec =>
    refine Or.inl (hplain rfl rfl rfl (Or.inr (unanswered_timer g _)) (fun cmd hcmd => ?_))
    rw [List.mem_singleton.mp hcmd]
    rfl
  | signal name hname => exact Or.inl (hplain rfl rfl rfl (Or.inl rfl) (by simp))
  | message name key => exact Or.inl (hplain rfl rfl rfl (Or.inl rfl) (by simp))
  | gateway f hf =>
    refine Or.inl (hplain rfl rfl (hf tok).id (Or.inr ?_) (by simp))
    rw [(hf tok).awaitCommand]
    exact unanswered_gateway hop (hids.minted tok hmem)

/-- Every act mints nothing, or the next id for one token, or the next id for the walk. -/
theorem Act.bills (hop : g.Opaque) (hids : d.Ids g) (hact : Act g trg d0 d d' cmds) :
    Plain g d d' cmds ∨ (∃ tokenID id, Enlists g d d' cmds tokenID id) ∨ ∃ id, Walks g d d' cmds id := by
  have hfree : ∀ {tok : Token} {f : Token → Token} {d' : Desk} {cs : List Command}, tok ∈ d.tokens →
      (∀ t : Token, t.Clears (f t)) → d'.tokens = (d.update tok.id f).tokens → d'.cmdSeq = d.cmdSeq →
      d'.taskSeq = d.taskSeq → d'.walk = d.walk → (∀ cmd ∈ cs, cmd.correlationID = "") → Plain g d d' cs := by
    intro tok f d' cs hmem hf htok hc ht hw hcs
    refine Plain.update hids hmem (hf tok).id (Or.inr ?_) htok hc.ge ht.ge hw hcs
    rw [(hf tok).awaitCommand]
    exact unanswered_empty g
  have hkeep : ∀ {tok : Token} {f : Token → Token} {d' : Desk} {cs : List Command}, tok ∈ d.tokens →
      (f tok).id = tok.id → (f tok).awaitCommand = tok.awaitCommand → d'.tokens = (d.update tok.id f).tokens →
      d'.cmdSeq = d.cmdSeq → d'.taskSeq = d.taskSeq → d'.walk = d.walk → (∀ cmd ∈ cs, cmd.correlationID = "") →
      Plain g d d' cs := fun hmem hid hf htok hc ht hw hcs =>
    Plain.update hids hmem hid (Or.inl hf) htok hc.ge ht.ge hw hcs
  have hsame : ∀ {d' : Desk} {cs : List Command}, d'.cmdSeq = d.cmdSeq → d.taskSeq ≤ d'.taskSeq → d'.tokens ⊆ d.tokens →
      (d'.walk = d.walk ∨ d'.walk = "") → (∀ cmd ∈ cs, cmd.correlationID = "") → Plain g d d' cs :=
    fun hc ht htok hw hcs => Plain.same hc.ge ht htok hw hcs
  have hinvoke : ∀ {tok : Token} {f : Token → Token} {d' : Desk} {cmd : Command} {cs : List Command}, tok ∈ d.tokens →
      (∀ t : Token, t.Expects (g.newID .command (d.cmdSeq + 1)) (f t)) →
      cmd.correlationID = g.newID .command (d.cmdSeq + 1) → d'.tokens = (d.update tok.id f).tokens →
      d'.cmdSeq = d.cmdSeq + 1 → d'.taskSeq = d.taskSeq → d'.walk = d.walk → (∀ c ∈ cs, c.correlationID = "") →
      Enlists g d d' (cmd :: cs) tok.id (g.newID .command (d.cmdSeq + 1)) := by
    intro tok f d' cmd cs hmem hf hcmd htok hc ht hw hcs
    refine Enlists.update hids hmem ⟨(hf tok).id, (hf tok).awaitCommand⟩ htok ⟨Or.inl ⟨hc, ht, rfl⟩⟩ hw ?_
    rw [← hcmd]
    exact answerIDs_cons (by rw [hcmd]; exact g.newID_ne_empty _ _) hcs
  have hnone : ∀ cmd ∈ ([] : List Command), cmd.correlationID = "" := by simp
  have hone : ∀ {c : Command}, c.correlationID = "" → ∀ cmd ∈ [c], cmd.correlationID = "" := by
    intro c hc cmd hcmd
    rw [List.mem_singleton.mp hcmd]
    exact hc
  cases hact with
  | fire name input => exact Or.inl (Plain.same (Nat.le_succ _) le_rfl (List.Subset.refl _) (Or.inl rfl) (hone rfl))
  | say cmds hcmds => exact Or.inl (hsame rfl le_rfl (List.Subset.refl _) (Or.inl rfl) (fun c hc => (hcmds c hc).unanswered))
  | place node scope flow at_ =>
    refine Or.inl ⟨le_rfl, le_rfl, rfl, fun t' ht' => ?_, Or.inl rfl⟩
    rcases List.mem_append.mp ht' with ht' | ht'
    · exact Or.inl ⟨t', ht', rfl, rfl⟩
    · rw [List.mem_singleton.mp ht']
      exact Or.inr (unanswered_empty g)
  | step tok f hmem hactive hf =>
    exact Or.inl (hkeep hmem (hf tok).id (hf tok).awaitCommand rfl rfl rfl rfl hnone)
  | drop p hp => exact Or.inl (hsame rfl le_rfl (List.filter_subset_self _) (Or.inl rfl) hnone)
  | defer tok hmem hactive =>
    exact Or.inl (hkeep (f := fun t => { t with state := .waiting }) hmem rfl rfl rfl rfl rfl rfl hnone)
  | pop id rest hq =>
    refine Or.inl ⟨le_rfl, le_rfl, rfl, fun t' ht' => ?_, Or.inl rfl⟩
    obtain ⟨t, ht, he⟩ := List.mem_map.mp ht'
    refine Or.inl ⟨t, ht, ?_, ?_⟩
    · rw [← he]
      split <;> rfl
    · rw [← he]
      split <;> rfl
  | park tok f tasks nc nt n m cmds armCmds arms gws trs hmem hactive hwait harm =>
    exact hwait.bills hop hids hmem harm.timers.unanswered rfl rfl rfl rfl
  | defect tok inc hmem hactive hid hkind htok hnode =>
    exact Or.inl (hkeep (f := fun t => { t with state := .incident }) hmem rfl rfl rfl rfl rfl rfl hnone)
  | answer tok f hmem hnamed hf harms hnotask => exact Or.inl (hfree hmem hf rfl rfl rfl rfl hnone)
  | finishTask tok f task close hmem hnamed hf harms htask hopen hclose =>
    exact Or.inl (hfree hmem hf rfl rfl rfl rfl (hone rfl))
  | hear tok f hmem hf hid harms => exact Or.inl (hkeep hmem (hid tok) hf.awaitCommand rfl rfl rfl rfl hnone)
  | win tok f won cmds hmem hawait harmed hf hcmds => exact Or.inl (hfree hmem hf rfl rfl rfl rfl hcmds.unanswered)
  | rewait tok f tr spec hmem hnamed htrg hf harms htr =>
    refine Or.inl (Plain.update hids hmem (hf tok).id (Or.inr ?_) rfl le_rfl le_rfl rfl (hone rfl))
    rw [(hf tok).awaitCommand]
    exact unanswered_timer g _
  | fail tok inc hmem hnamed htrg harms hid hkind htok hnode =>
    exact Or.inl (hkeep (f := fun t => { t with state := .incident }) hmem rfl rfl rfl rfl rfl rfl hnone)
  | reinvoke tok f cmd arms m armCmds hmem hnamed htrg hf hcmd hkind harm =>
    exact Or.inr (Or.inl ⟨_, _, hinvoke hmem hf hcmd rfl rfl rfl rfl harm.timers.unanswered⟩)
  | resolve inc tok f cmd arms m armCmds n hd htrg hinc hkind hmem htok hf hcmd hhuman harm =>
    exact Or.inr (Or.inl ⟨_, _, hinvoke hmem hf hcmd rfl rfl rfl rfl harm.timers.unanswered⟩)
  | lose tok hmem hnamed htrg harms => exact Or.inl (hsame rfl le_rfl (List.filter_subset_self _) (Or.inl rfl) hnone)
  | cancel tok hmem harms =>
    exact Or.inl (hsame rfl le_rfl (List.filter_subset_self _) (Or.inl rfl) (closedTask_unanswered d tok.awaitCommand))
  | filed ht hid hclosed => exact Or.inl (hsame rfl (Nat.le_succ _) (List.Subset.refl _) (Or.inl rfl) hnone)
  | armEventSubs scope arms m cmds hscope harm htimers =>
    exact Or.inl (hsame rfl le_rfl (List.Subset.refl _) (Or.inl rfl) htimers.unanswered)
  | dropEventSubs p cmds hcmds => exact Or.inl (hsame rfl le_rfl (List.Subset.refl _) (Or.inl rfl) hcmds.unanswered)
  | dropBoundaries p cmds hcmds => exact Or.inl (hsame rfl le_rfl (List.Subset.refl _) (Or.inl rfl) hcmds.unanswered)
  | dropGateways p won cmds hcmds => exact Or.inl (hsame rfl le_rfl (List.Subset.refl _) (Or.inl rfl) hcmds.unanswered)
  | dropTimers p fired cmds hfired hcmds =>
    exact Or.inl (hsame rfl le_rfl (List.Subset.refl _) (Or.inl rfl) hcmds.unanswered)
  | schedule tr spec hid => exact Or.inl (hsame rfl le_rfl (List.Subset.refl _) (Or.inl rfl) (hone rfl))
  | editTask taskID task f htask hopen hf =>
    exact Or.inl (hsame rfl le_rfl (List.Subset.refl _) (Or.inl rfl) (hone rfl))
  | walkCommand cmd again backoff hcmd hhuman hagain =>
    refine Or.inr (Or.inr ⟨_, ⟨Or.inl ⟨rfl, rfl, rfl⟩⟩, ⟨_, rfl⟩, ?_, rfl, rfl⟩)
    rw [← hcmd]
    exact answerIDs_cons (by rw [hcmd]; exact g.newID_ne_empty _ _) hnone
  | settle => exact Or.inl (hsame rfl le_rfl (List.Subset.refl _) (Or.inr rfl) hnone)
  | backOff => exact Or.inl (hsame rfl le_rfl (List.Subset.refl _) (Or.inl rfl) hnone)
  | finish tokens cmds cuts exits st htokens hcancel hcmds =>
    obtain ⟨terminal, timers, rfl, hterm, htimers⟩ := hcmds
    refine Or.inl (hsame rfl le_rfl ?_ (Or.inr rfl) (fun cmd hcmd => ?_))
    · rcases htokens with ⟨rfl, -⟩ | ⟨rfl, -, -⟩
      · exact List.Subset.refl _
      · exact List.nil_subset _
    · rcases List.mem_append.mp hcmd with hcmd | hcmd
      · rcases List.mem_append.mp hcmd with hcmd | hcmd
        · obtain ⟨task, -, rfl⟩ := List.mem_map.mp hcmd
          rfl
        · exact (hterm cmd hcmd).unanswered
      · obtain ⟨id, rfl⟩ := htimers cmd hcmd
        rfl
  | _ => exact Or.inl (hsame rfl le_rfl (List.Subset.refl _) (Or.inl rfl) hnone)

theorem Act.taskSeq_le (hop : g.Opaque) (hids : d.Ids g) (hact : Act g trg d0 d d' cmds) : d.taskSeq ≤ d'.taskSeq := by
  have hnext : ∀ {id}, NextID g d d' id → d.taskSeq ≤ d'.taskSeq := by
    intro id hid
    rcases hid.next with ⟨-, h, -⟩ | ⟨-, h, -⟩ <;> omega
  rcases hact.bills hop hids with hp | ⟨tokenID, id, he⟩ | ⟨id, hw⟩
  · exact hp.taskSeq
  · exact hnext he.next
  · exact hnext hw.next

/-! ## The account of a step -/

/-- Nobody waits for an id that was not minted yet. -/
structure Desk.Bounded (g : IDGenerator) (d : Desk) : Prop where
  command : ∀ t ∈ d.tokens, ∀ k, t.awaitCommand = g.newID .command k → k ≤ d.cmdSeq
  task : ∀ t ∈ d.tokens, ∀ k, t.awaitCommand = g.newID .task k → k ≤ d.taskSeq
  walk : ∀ k, d.walk = g.newID .command k → k ≤ d.cmdSeq
  walkTask : ∀ k, d.walk ≠ g.newID .task k

/-- The id was minted between the desks. -/
def Fresh (g : IDGenerator) (d0 d : Desk) (id : String) : Prop :=
  (∃ k, d0.cmdSeq < k ∧ k ≤ d.cmdSeq ∧ id = g.newID .command k) ∨
    ∃ k, d0.taskSeq < k ∧ k ≤ d.taskSeq ∧ id = g.newID .task k

/-- The commands so far and who waits for them. -/
structure Billed (g : IDGenerator) (d0 d : Desk) (cmds : List Command) : Prop where
  bounded : d.Bounded g
  cmdSeq : d0.cmdSeq ≤ d.cmdSeq
  taskSeq : d0.taskSeq ≤ d.taskSeq
  fresh : ∀ id ∈ answerIDs cmds, Fresh g d0 d id
  nodup : (answerIDs cmds).Nodup
  token : ∀ t ∈ d.tokens, Fresh g d0 d t.awaitCommand → t.awaitCommand ∈ answerIDs cmds
  cursor : Fresh g d0 d d.walk → d.walk ∈ answerIDs cmds
  one : ∀ t ∈ d.tokens, ∀ t' ∈ d.tokens, Fresh g d0 d t.awaitCommand → t'.awaitCommand = t.awaitCommand → t'.id = t.id
  other : ∀ t ∈ d.tokens, Fresh g d0 d t.awaitCommand → d.walk ≠ t.awaitCommand

theorem Fresh.mono {d1 : Desk} (h : Fresh g d0 d id) (hc : d.cmdSeq ≤ d1.cmdSeq) (ht : d.taskSeq ≤ d1.taskSeq) :
    Fresh g d0 d1 id := by
  rcases h with ⟨k, hk, hle, he⟩ | ⟨k, hk, hle, he⟩
  · exact Or.inl ⟨k, hk, hle.trans hc, he⟩
  · exact Or.inr ⟨k, hk, hle.trans ht, he⟩

theorem Unanswered.not_fresh (h : Unanswered g id) : ¬ Fresh g d0 d id := by
  rintro (⟨k, -, -, he⟩ | ⟨k, -, -, he⟩)
  · exact (h k).1 he
  · exact (h k).2 he

/-- What a bounded waiter waits for was minted by now. -/
theorem Fresh.of_bounded {d1 : Desk} (hc : ∀ k, id = g.newID .command k → k ≤ d.cmdSeq)
    (ht : ∀ k, id = g.newID .task k → k ≤ d.taskSeq) (h : Fresh g d0 d1 id) : Fresh g d0 d id := by
  rcases h with ⟨k, hk, -, he⟩ | ⟨k, hk, -, he⟩
  · exact Or.inl ⟨k, hk, hc k he, he⟩
  · exact Or.inr ⟨k, hk, ht k he, he⟩

theorem NextID.unbounded (h : NextID g d d' id) :
    ¬ ((∀ k, id = g.newID .command k → k ≤ d.cmdSeq) ∧ ∀ k, id = g.newID .task k → k ≤ d.taskSeq) := by
  rintro ⟨hc, ht⟩
  rcases h.next with ⟨-, -, he⟩ | ⟨-, -, he⟩
  · have := hc _ he
    omega
  · have := ht _ he
    omega

theorem NextID.le (h : NextID g d d' id) : d.cmdSeq ≤ d'.cmdSeq ∧ d.taskSeq ≤ d'.taskSeq := by
  rcases h.next with ⟨h1, h2, -⟩ | ⟨h1, h2, -⟩
  · exact ⟨h1 ▸ Nat.le_succ _, h2.ge⟩
  · exact ⟨h1.ge, h2 ▸ Nat.le_succ _⟩

theorem NextID.fresh (h : NextID g d d' id) (hc : d0.cmdSeq ≤ d.cmdSeq) (ht : d0.taskSeq ≤ d.taskSeq) :
    Fresh g d0 d' id := by
  rcases h.next with ⟨h1, -, he⟩ | ⟨-, h2, he⟩
  · exact Or.inl ⟨_, Nat.lt_succ_of_le hc, h1.ge, he⟩
  · exact Or.inr ⟨_, Nat.lt_succ_of_le ht, h2.ge, he⟩

theorem NextID.bounded (h : NextID g d d' id) :
    (∀ k, id = g.newID .command k → k ≤ d'.cmdSeq) ∧ ∀ k, id = g.newID .task k → k ≤ d'.taskSeq := by
  rcases h.next with ⟨h1, -, rfl⟩ | ⟨-, h2, rfl⟩
  · refine ⟨fun k hk => ?_, fun k hk => ?_⟩
    · rw [h1, (g.newID_inj _ _ _ _ hk).2]
    · cases (g.newID_inj _ _ _ _ hk).1
  · refine ⟨fun k hk => ?_, fun k hk => ?_⟩
    · cases (g.newID_inj _ _ _ _ hk).1
    · rw [h2, (g.newID_inj _ _ _ _ hk).2]

theorem Billed.plain (h : Billed g d0 d cmds) (hp : Plain g d d' cmds') : Billed g d0 d' (cmds ++ cmds') := by
  have hans : answerIDs (cmds ++ cmds') = answerIDs cmds := by rw [answerIDs_append, hp.answers, List.append_nil]
  -- a fresh waiter waited before
  have hold : ∀ t' ∈ d'.tokens, Fresh g d0 d' t'.awaitCommand → ∃ t ∈ d.tokens, t.id = t'.id ∧
      t.awaitCommand = t'.awaitCommand ∧ Fresh g d0 d t'.awaitCommand := by
    intro t' ht' hf
    rcases hp.tokens t' ht' with ⟨t, ht, hid, he⟩ | hun
    · exact ⟨t, ht, hid, he, Fresh.of_bounded (he ▸ h.bounded.command t ht) (he ▸ h.bounded.task t ht) hf⟩
    · exact absurd hf hun.not_fresh
  refine ⟨⟨fun t' ht' k hk => ?_, fun t' ht' k hk => ?_, fun k hk => ?_, fun k hk => ?_⟩, h.cmdSeq.trans hp.cmdSeq,
    h.taskSeq.trans hp.taskSeq, fun id hid => ?_, ?_, fun t' ht' hf => ?_, fun hf => ?_, fun t' ht' t'' ht'' hf he => ?_,
    fun t' ht' hf he => ?_⟩
  · rcases hp.tokens t' ht' with ⟨t, ht, -, he⟩ | hun
    · exact (h.bounded.command t ht k (he.trans hk)).trans hp.cmdSeq
    · exact absurd hk (hun k).1
  · rcases hp.tokens t' ht' with ⟨t, ht, -, he⟩ | hun
    · exact (h.bounded.task t ht k (he.trans hk)).trans hp.taskSeq
    · exact absurd hk (hun k).2
  · rcases hp.walk with hw | hw
    · exact (h.bounded.walk k (hw ▸ hk)).trans hp.cmdSeq
    · exact absurd (hw.symm.trans hk).symm (g.newID_ne_empty _ k)
  · rcases hp.walk with hw | hw
    · exact h.bounded.walkTask k (hw ▸ hk)
    · exact g.newID_ne_empty _ k (hw.symm.trans hk).symm
  · rw [hans] at hid
    exact (h.fresh id hid).mono hp.cmdSeq hp.taskSeq
  · rw [hans]
    exact h.nodup
  · obtain ⟨t, ht, -, he, hf'⟩ := hold t' ht' hf
    rw [hans, ← he]
    exact h.token t ht (he ▸ hf')
  · rw [hans]
    rcases hp.walk with hw | hw
    · rw [hw] at hf ⊢
      exact h.cursor (Fresh.of_bounded h.bounded.walk (fun k hk => absurd hk (h.bounded.walkTask k)) hf)
    · rw [hw] at hf
      exact absurd hf (unanswered_empty g).not_fresh
  · obtain ⟨t, ht, hid, hte, hf'⟩ := hold t' ht' hf
    obtain ⟨u, hu, hid', hue, -⟩ := hold t'' ht'' (he ▸ hf)
    rw [← hid, ← hid']
    exact h.one t ht u hu (hte ▸ hf') (hue.trans (he.trans hte.symm))
  · obtain ⟨t, ht, -, hte, hf'⟩ := hold t' ht' hf
    rcases hp.walk with hw | hw
    · exact h.other t ht (hte ▸ hf') (hw.symm.trans (he.trans hte.symm))
    · rw [hw] at he
      rw [← he] at hf
      exact absurd hf (unanswered_empty g).not_fresh

/-- The next id is none of those that went out. -/
theorem Billed.next (h : Billed g d0 d cmds) (hnext : NextID g d d' id) (hans : answerIDs cmds' = [id]) :
    (∀ i ∈ answerIDs (cmds ++ cmds'), Fresh g d0 d' i) ∧ (answerIDs (cmds ++ cmds')).Nodup := by
  rw [answerIDs_append, hans]
  constructor
  · intro i hi
    rcases List.mem_append.mp hi with hi | hi
    · exact (h.fresh i hi).mono hnext.le.1 hnext.le.2
    · rw [List.mem_singleton.mp hi]
      exact hnext.fresh h.cmdSeq h.taskSeq
  · rw [List.nodup_append]
    refine ⟨h.nodup, List.nodup_singleton _, fun i hi j hj he => hnext.unbounded ?_⟩
    have hid : i = id := he.trans (List.mem_singleton.mp hj)
    rcases h.fresh i hi with ⟨k, -, hle, hk⟩ | ⟨k, -, hle, hk⟩
    · rw [← hid, hk]
      refine ⟨fun k' hk' => ?_, fun k' hk' => ?_⟩
      · rw [← (g.newID_inj _ _ _ _ hk').2]
        exact hle
      · cases (g.newID_inj _ _ _ _ hk').1
    · rw [← hid, hk]
      refine ⟨fun k' hk' => ?_, fun k' hk' => ?_⟩
      · cases (g.newID_inj _ _ _ _ hk').1
      · rw [← (g.newID_inj _ _ _ _ hk').2]
        exact hle

theorem Billed.enlists (h : Billed g d0 d cmds) {tokenID : String} (he : Enlists g d d' cmds' tokenID id) :
    Billed g d0 d' (cmds ++ cmds') := by
  obtain ⟨hfresh, hnodup⟩ := h.next he.next he.answers
  have hin : ∀ {i}, i ∈ answerIDs cmds → i ∈ answerIDs (cmds ++ cmds') := fun hi => by
    rw [answerIDs_append]
    exact List.mem_append_left _ hi
  have hid : id ∈ answerIDs (cmds ++ cmds') := by
    rw [answerIDs_append, he.answers]
    exact List.mem_append_right _ (List.mem_singleton.mpr rfl)
  -- a waiter of before is bounded, so it does not wait for the new id
  have hold : ∀ t ∈ d.tokens, t.awaitCommand ≠ id := fun t ht hti =>
    he.next.unbounded (hti ▸ ⟨h.bounded.command t ht, h.bounded.task t ht⟩)
  have hwalk : d.walk ≠ id := fun hwi =>
    he.next.unbounded (hwi ▸ ⟨h.bounded.walk, fun k hk => absurd hk (h.bounded.walkTask k)⟩)
  have hfr : ∀ t ∈ d.tokens, Fresh g d0 d' t.awaitCommand → Fresh g d0 d t.awaitCommand := fun t ht hf =>
    Fresh.of_bounded (h.bounded.command t ht) (h.bounded.task t ht) hf
  refine ⟨⟨fun t' ht' k hk => ?_, fun t' ht' k hk => ?_, fun k hk => ?_, fun k hk => ?_⟩, h.cmdSeq.trans he.next.le.1,
    h.taskSeq.trans he.next.le.2, hfresh, hnodup, fun t' ht' hf => ?_, fun hf => ?_, fun t' ht' t'' ht'' hf heq => ?_,
    fun t' ht' hf heq => ?_⟩
  · rcases he.tokens t' ht' with ⟨-, hti⟩ | ⟨t, ht, -, hte⟩
    · exact he.next.bounded.1 k (hti.symm.trans hk)
    · exact (h.bounded.command t ht k (hte.trans hk)).trans he.next.le.1
  · rcases he.tokens t' ht' with ⟨-, hti⟩ | ⟨t, ht, -, hte⟩
    · exact he.next.bounded.2 k (hti.symm.trans hk)
    · exact (h.bounded.task t ht k (hte.trans hk)).trans he.next.le.2
  · exact (h.bounded.walk k (he.walk ▸ hk)).trans he.next.le.1
  · exact h.bounded.walkTask k (he.walk ▸ hk)
  · rcases he.tokens t' ht' with ⟨-, hti⟩ | ⟨t, ht, -, hte⟩
    · rw [hti]
      exact hid
    · rw [← hte]
      exact hin (h.token t ht (hfr t ht (hte ▸ hf)))
  · rw [he.walk] at hf ⊢
    exact hin (h.cursor (Fresh.of_bounded h.bounded.walk (fun k hk => absurd hk (h.bounded.walkTask k)) hf))
  · rcases he.tokens t' ht' with ⟨hid', hti⟩ | ⟨t, ht, hid', hte⟩
    · rcases he.tokens t'' ht'' with ⟨hid'', -⟩ | ⟨u, hu, -, hue⟩
      · rw [hid', hid'']
      · exact absurd (hue.trans (heq.trans hti)) (hold u hu)
    · rcases he.tokens t'' ht'' with ⟨-, hti⟩ | ⟨u, hu, hid'', hue⟩
      · exact absurd (hte.trans (heq.symm.trans hti)) (hold t ht)
      · rw [← hid', ← hid'']
        exact h.one t ht u hu (hfr t ht (hte ▸ hf)) (hue.trans (heq.trans hte.symm))
  · rw [he.walk] at heq
    rcases he.tokens t' ht' with ⟨-, hti⟩ | ⟨t, ht, -, hte⟩
    · exact hwalk (heq.trans hti)
    · exact h.other t ht (hfr t ht (hte ▸ hf)) (heq.trans hte.symm)

theorem Billed.walks (h : Billed g d0 d cmds) (hw : Walks g d d' cmds' id) : Billed g d0 d' (cmds ++ cmds') := by
  obtain ⟨hfresh, hnodup⟩ := h.next hw.next hw.answers
  have hfr : ∀ t ∈ d.tokens, Fresh g d0 d' t.awaitCommand → Fresh g d0 d t.awaitCommand := fun t ht hf =>
    Fresh.of_bounded (h.bounded.command t ht) (h.bounded.task t ht) hf
  refine ⟨⟨fun t ht k hk => ?_, fun t ht k hk => ?_, fun k hk => ?_, fun k hk => ?_⟩, h.cmdSeq.trans hw.next.le.1,
    h.taskSeq.trans hw.next.le.2, hfresh, hnodup, fun t ht hf => ?_, fun _ => ?_, fun t ht t' ht' hf he => ?_,
    fun t ht hf he => ?_⟩
  · rw [hw.tokens] at ht
    exact (h.bounded.command t ht k hk).trans hw.next.le.1
  · rw [hw.tokens] at ht
    exact (h.bounded.task t ht k hk).trans hw.next.le.2
  · exact hw.next.bounded.1 k (hw.walk.symm.trans hk)
  · obtain ⟨n, hn⟩ := hw.command
    rw [hw.walk, hn] at hk
    cases (g.newID_inj _ _ _ _ hk).1
  · rw [hw.tokens] at ht
    rw [answerIDs_append]
    exact List.mem_append_left _ (h.token t ht (hfr t ht hf))
  · rw [hw.walk, answerIDs_append, hw.answers]
    exact List.mem_append_right _ (List.mem_singleton.mpr rfl)
  · rw [hw.tokens] at ht ht'
    exact h.one t ht t' ht' (hfr t ht hf) he
  · rw [hw.tokens] at ht
    rw [hw.walk] at he
    exact hw.next.unbounded (he ▸ ⟨h.bounded.command t ht, h.bounded.task t ht⟩)

theorem Billed.act (hop : g.Opaque) (hids : d.Ids g) (h : Billed g d0 d cmds) {d1 : Desk}
    (hact : Act g trg d1 d d' cmds') :
    Billed g d0 d' (cmds ++ cmds') := by
  rcases hact.bills hop hids with hp | ⟨tokenID, id, he⟩ | ⟨id, hw⟩
  · exact h.plain hp
  · exact h.enlists he
  · exact h.walks hw

theorem Billed.perm (h : Billed g d0 d cmds) (hp : cmds.Perm cmds') : Billed g d0 d cmds' where
  bounded := h.bounded
  cmdSeq := h.cmdSeq
  taskSeq := h.taskSeq
  fresh := fun id hid => h.fresh id ((answerIDs_perm hp).mem_iff.mpr hid)
  nodup := (answerIDs_perm hp).nodup_iff.mp h.nodup
  token := fun t ht hf => (answerIDs_perm hp).mem_iff.mp (h.token t ht hf)
  cursor := fun hf => (answerIDs_perm hp).mem_iff.mp (h.cursor hf)
  one := h.one
  other := h.other

/-- The account of a whole operation. -/
theorem Billed.acts (hop : g.Opaque) (hacts : Acts g trg d0 d d' cmds') (hids : d.Ids g) (h : Billed g d0 d cmds) :
    Billed g d0 d' (cmds ++ cmds') := by
  induction hacts generalizing cmds with
  | nil d => rwa [List.append_nil]
  | cons hact hrest hperm ih =>
    have hone := h.act hop hids hact
    have hall := ih (hact.ids hids) hone
    rw [List.append_assoc] at hall
    exact hall.perm (hperm.append_left _)
  | stray hs d' cs => exact absurd hids.sane hs

theorem Billed.start (h : d.Bounded g) : Billed g d d [] := by
  have hno : ∀ {id}, ¬ Fresh g d d id := by
    rintro id (⟨k, hk, hle, -⟩ | ⟨k, hk, hle, -⟩) <;> omega
  exact ⟨h, le_rfl, le_rfl, by simp [answerIDs], by simp [answerIDs], fun t _ hf => absurd hf hno, fun hf => absurd hf hno,
    fun t _ t' _ hf => absurd hf hno, fun t _ hf => absurd hf hno⟩

/-! ## The filter -/

theorem dropStaleCommand_commands (live : List String) (s : InstanceState) (cmd : Command) :
    answerIDs (dropStaleCommand live s cmd).commands =
      if cmd.correlationID == "" || live.contains cmd.correlationID then answerIDs [cmd] else [] := by
  unfold dropStaleCommand
  split
  · rfl
  · split
    · split
      · split
        · rfl
        · rfl
      · rfl
    · rfl

/-- The filter keeps the commands somebody live waits for. -/
theorem dropStaleCommands_answers (live : List String) (cmds : List Command) (s : InstanceState) :
    answerIDs (dropStaleCommands live cmds s).commands = (answerIDs cmds).filter live.contains := by
  induction cmds generalizing s with
  | nil => rfl
  | cons cmd cmds ih =>
    change answerIDs ((dropStaleCommand live s cmd).commands ++
      (dropStaleCommands live cmds (dropStaleCommand live s cmd).state).commands) = (answerIDs ([cmd] ++ cmds)).filter _
    rw [answerIDs_append, answerIDs_append, ih, dropStaleCommand_commands, List.filter_append]
    congr 1
    unfold answerIDs
    rw [List.map_singleton]
    by_cases hempty : cmd.correlationID = ""
    · simp [hempty]
    · by_cases hlive : live.contains cmd.correlationID = true
      · rw [if_pos (by rw [hlive, Bool.or_true]), List.filter_cons_of_pos (by simpa using hempty)]
        rw [List.filter_nil, List.filter_cons_of_pos hlive, List.filter_nil]
      · rw [if_neg (by simpa [hempty] using hlive), List.filter_cons_of_pos (by simpa using hempty)]
        rw [List.filter_nil, List.filter_cons_of_neg hlive, List.filter_nil]

theorem answerIDs_of_unfilterable (h : cmds.any filterableCommand = false) : answerIDs cmds = [] := by
  refine answerIDs_nil (fun cmd hcmd => ?_)
  have hno := List.any_eq_false.mp h cmd hcmd
  unfold filterableCommand at hno
  simpa using hno

theorem dropStaleTokenCommands_answers (r : StepResult) :
    answerIDs (dropStaleTokenCommands r).commands =
      (answerIDs r.commands).filter (liveAwaiters r.state.toControlState).contains := by
  unfold dropStaleTokenCommands
  split
  · rename_i hnone
    rw [answerIDs_of_unfilterable (by simpa using hnone)]
    rfl
  · exact dropStaleCommands_answers _ _ _

/-! ## Runs -/

variable {p : ProcessDefinition} {gen : Option IDGenerator} {inst : String} {calls : List Call} {x : InstanceState}

theorem blank_bounded (g : IDGenerator) (inst : String) : ({ instanceID := inst } : InstanceState).desk.Bounded g :=
  ⟨by simp [InstanceState.desk, ControlState.front], by simp [InstanceState.desk, ControlState.front],
    fun k hk => absurd hk.symm (g.newID_ne_empty _ k), fun k hk => g.newID_ne_empty _ k hk.symm⟩

theorem run_bounded (hop : (runIDs gen inst).Opaque) (hrun : Run p gen inst calls x) :
    x.desk.Ids (runIDs gen inst) ∧ x.desk.Bounded (runIDs gen inst) := by
  refine Heeds.desk_induction (P := fun _ _ => True) (blank_bounded _ inst) ?_ ?_ hrun (fun _ _ _ _ _ _ => trivial)
  · intro s trg d d' cmds _ _ _ hids h hact
    exact ((Billed.start h).act hop hids hact).bounded
  · exact fun h => ⟨h.command, h.task, h.walk, h.walkTask⟩

/-- The account of a step of a run. -/
theorem step_billed (hop : (runIDs gen inst).Opaque) (hrun : Run p gen inst calls x) {call : Call}
    (hgen : call.opt.idGenerator = gen) {r : StepResult} (hstep : step call.fuel p x call.trigger call.opt = .ok r) :
    ∃ r0, r = dropStaleTokenCommands r0 ∧ r0.state.desk.Ids (runIDs gen inst) ∧
      Billed (runIDs gen inst) x.desk r0.state.desk r0.commands := by
  obtain ⟨hids, hbounded⟩ := run_bounded hop hrun
  obtain ⟨r0, hdoes, hr⟩ := step_does hrun.sound.wf.phase.status.mp hstep
  have hgens : call.opt.ids x.instanceID = runIDs gen inst := by
    unfold StepOptions.ids runIDs
    rw [hgen, hrun.sound.instanceID]
  rw [hgens] at hdoes
  refine ⟨r0, hr, (hdoes.induct (fun hids _ hact => trivial) hids trivial).1, ?_⟩
  exact (Billed.start hbounded).acts hop hdoes hids

/-- What the filter leaves of the tokens and the cursor is all of them. -/
theorem dropStaleTokenCommands_awaiters (r : StepResult) (id : String) :
    awaiters (dropStaleTokenCommands r).state id = awaiters r.state id := by
  obtain ⟨tasks, hdesk⟩ := dropStaleTokenCommands_desk r
  have htokens : (dropStaleTokenCommands r).state.tokens = r.state.tokens := congrArg (fun d : Desk => d.tokens) hdesk
  have hwalk : (dropStaleTokenCommands r).state.compensating.activeCmdID = r.state.compensating.activeCmdID :=
    congrArg (fun d : Desk => d.walk) hdesk
  unfold awaiters
  rw [htokens, hwalk]

theorem dropStaleTokenCommands_live (r : StepResult) :
    (dropStaleTokenCommands r).state.status.isTerminal = r.state.status.isTerminal := by
  obtain ⟨tasks, hdesk⟩ := dropStaleTokenCommands_desk r
  have hlive : (!(dropStaleTokenCommands r).state.status.isTerminal) = !r.state.status.isTerminal :=
    congrArg (fun d : Desk => d.live) hdesk
  simpa using hlive

theorem mem_liveAwaiters (hlive : s.status.isTerminal = false) (hne : id ≠ "") :
    id ∈ liveAwaiters s.toControlState ↔ (∃ t ∈ s.tokens, t.awaitCommand = id) ∨ s.compensating.activeCmdID = id := by
  unfold liveAwaiters
  rw [if_neg (by simp [hlive]), List.mem_append, List.mem_filter, List.mem_map]
  constructor
  · rintro (⟨⟨t, ht, rfl⟩, -⟩ | hid)
    · exact Or.inl ⟨t, ht, rfl⟩
    · split at hid
      · exact Or.inr (List.mem_singleton.mp hid).symm
      · cases hid
  · rintro (⟨t, ht, rfl⟩ | rfl)
    · exact Or.inl ⟨⟨t, ht, rfl⟩, by simpa using hne⟩
    · rw [if_pos (by simpa using hne)]
      exact Or.inr (List.mem_singleton.mpr rfl)

theorem awaited_of_awaiters (h : awaiters s id ≠ 0) :
    (∃ t ∈ s.tokens, t.awaitCommand = id) ∨ s.compensating.activeCmdID = id := by
  by_contra hno
  rw [not_or] at hno
  refine h ?_
  unfold awaiters
  rw [if_neg (by simpa using hno.2), List.filter_eq_nil_iff.mpr (fun t ht he => hno.1 ⟨t, ht, by simpa using he⟩)]
  rfl

/-- One waiter for each id minted since. -/
theorem Billed.awaiters_eq_one (h : Billed g d0 s.desk cmds) (hids : s.desk.Ids g)
    (hfresh : Fresh g d0 s.desk id) (hw : (∃ t ∈ s.tokens, t.awaitCommand = id) ∨ s.compensating.activeCmdID = id) :
    awaiters s id = 1 := by
  unfold awaiters
  by_cases hwalk : s.compensating.activeCmdID = id
  · have hnone : s.tokens.filter (fun t => t.awaitCommand == id) = [] := by
      refine List.filter_eq_nil_iff.mpr (fun t ht he => ?_)
      have heq : t.awaitCommand = id := by simpa using he
      exact h.other t ht (heq ▸ hfresh) (hwalk.trans heq.symm)
    rw [hnone, if_pos (by simpa using hwalk)]
    rfl
  · rcases hw with ⟨t, ht, rfl⟩ | hw
    · have hone : (s.tokens.filter (fun t' => t'.awaitCommand == t.awaitCommand)) = [t] := by
        have hnodup : (s.tokens.filter (fun t' => t'.awaitCommand == t.awaitCommand)).Nodup :=
          (List.Nodup.of_map _ hids.nodup).filter _
        have hall : ∀ t' ∈ s.tokens.filter (fun t' => t'.awaitCommand == t.awaitCommand), t' = t := by
          intro t' ht'
          obtain ⟨hmem, he⟩ := List.mem_filter.mp ht'
          exact hids.eq_of_id hmem ht (h.one t ht t' hmem hfresh (by simpa using he))
        have hmem : t ∈ s.tokens.filter (fun t' => t'.awaitCommand == t.awaitCommand) :=
          List.mem_filter.mpr ⟨ht, by simp⟩
        exact List.perm_singleton.mp ((List.perm_ext_iff_of_nodup hnodup (List.nodup_singleton t)).mpr (fun t' =>
          ⟨fun h' => List.mem_singleton.mpr (hall t' h'), fun h' => List.mem_singleton.mp h' ▸ hmem⟩))
      rw [hone, if_neg (by simpa using hwalk)]
      rfl
    · exact absurd hw hwalk

theorem count_answerIDs (cmds : List Command) (hne : id ≠ "") :
    (cmds.filter (fun cmd => cmd.correlationID == id)).length = (answerIDs cmds).count id := by
  unfold answerIDs
  rw [List.count_filter (by simpa using hne), List.count_eq_countP, List.countP_map, List.countP_eq_length_filter]
  rfl

theorem MintedSince.ne_empty (h : MintedSince g s id) : id ≠ "" := by
  rcases h with ⟨k, -, rfl⟩ | ⟨k, -, rfl⟩
  · exact g.newID_ne_empty _ k
  · exact g.newID_ne_empty _ k

/-- The id a waiter waits for is no later one. -/
theorem MintedSince.fresh {x : InstanceState} (h : MintedSince g x id) (hb : s.desk.Bounded g)
    (hw : (∃ t ∈ s.tokens, t.awaitCommand = id) ∨ s.compensating.activeCmdID = id) : Fresh g x.desk s.desk id := by
  rcases hw with ⟨t, ht, rfl⟩ | rfl
  · rcases h with ⟨k, hk, he⟩ | ⟨k, hk, he⟩
    · exact Or.inl ⟨k, hk, hb.command t ht k he, he⟩
    · exact Or.inr ⟨k, hk, hb.task t ht k he, he⟩
  · rcases h with ⟨k, hk, he⟩ | ⟨k, -, he⟩
    · exact Or.inl ⟨k, hk, hb.walk k he, he⟩
    · exact absurd he (hb.walkTask k)

/-- The commands of the step and those who wait for them. -/
structure CommandsAwaited (g : IDGenerator) (x : InstanceState) (r : StepResult) : Prop where
  /-- A terminal instance sends no command that waits for an answer. -/
  ended : r.state.status.isTerminal = true → ∀ cmd ∈ r.commands, cmd.correlationID = ""
  /-- One token or the cursor waits for a command. -/
  command : ∀ cmd ∈ r.commands, cmd.correlationID ≠ "" → awaiters r.state cmd.correlationID = 1
  /-- One command goes out for a new wait of a live instance. -/
  wait : r.state.status.isTerminal = false → ∀ id, MintedSince g x id → awaiters r.state id ≠ 0 →
    (r.commands.filter (fun cmd => cmd.correlationID == id)).length = 1

/-- Every command of a step that waits for an answer has one waiter, and every wait a step begins in an instance it leaves
live has one command. -/
theorem commands_awaited (hop : (runIDs gen inst).Opaque) (hrun : Run p gen inst calls x) (call : Call)
    (hgen : call.opt.idGenerator = gen) {r : StepResult} (hstep : step call.fuel p x call.trigger call.opt = .ok r) :
    CommandsAwaited (runIDs gen inst) x r := by
  obtain ⟨r0, rfl, hids, hbilled⟩ := step_billed hop hrun hgen hstep
  have hanswers := dropStaleTokenCommands_answers r0
  have hmem : ∀ cmd ∈ (dropStaleTokenCommands r0).commands, cmd.correlationID ≠ "" →
      cmd.correlationID ∈ answerIDs r0.commands ∧ cmd.correlationID ∈ liveAwaiters r0.state.toControlState := by
    intro cmd hcmd hne
    have hin : cmd.correlationID ∈ answerIDs (dropStaleTokenCommands r0).commands :=
      List.mem_filter.mpr ⟨List.mem_map_of_mem hcmd, by simpa using hne⟩
    rw [hanswers] at hin
    obtain ⟨hin, hlive⟩ := List.mem_filter.mp hin
    exact ⟨hin, by simpa using hlive⟩
  have hended : r0.state.status.isTerminal = true → liveAwaiters r0.state.toControlState = [] := fun hterm => if_pos hterm
  refine ⟨fun hterm cmd hcmd => ?_, fun cmd hcmd hne => ?_, fun hlive id hminted hawait => ?_⟩
  · rw [dropStaleTokenCommands_live] at hterm
    by_contra hne
    have hlive := (hmem cmd hcmd hne).2
    rw [hended hterm] at hlive
    cases hlive
  · obtain ⟨hin, hlive⟩ := hmem cmd hcmd hne
    rw [dropStaleTokenCommands_awaiters]
    cases hterm : r0.state.status.isTerminal with
    | true =>
      rw [hended hterm] at hlive
      cases hlive
    | false => exact hbilled.awaiters_eq_one hids (hbilled.fresh _ hin) ((mem_liveAwaiters hterm hne).mp hlive)
  · rw [dropStaleTokenCommands_live] at hlive
    rw [dropStaleTokenCommands_awaiters] at hawait
    have hw := awaited_of_awaiters hawait
    have hne := hminted.ne_empty
    have hin : id ∈ answerIDs r0.commands := by
      have hfresh := hminted.fresh hbilled.bounded hw
      rcases hw with ⟨t, ht, rfl⟩ | rfl
      · exact hbilled.token t ht hfresh
      · exact hbilled.cursor hfresh
    have hlive' : id ∈ liveAwaiters r0.state.toControlState := (mem_liveAwaiters hlive hne).mpr hw
    rw [count_answerIDs _ hne, hanswers]
    exact List.count_eq_one_of_mem (hbilled.nodup.filter _) (List.mem_filter.mpr ⟨hin, by simpa using hlive'⟩)

/-! ## The built-in ids -/

/-- Text that ends in a tag and a number is read in one way. -/
theorem numbered_tail_inj {a b : List Char} {c e : Char} {m n : Nat} (hc : c.isDigit = false) (he : e.isDigit = false)
    (h : a ++ c :: Nat.toDigits 10 m = b ++ e :: Nat.toDigits 10 n) : a = b ∧ c = e ∧ m = n := by
  rcases List.append_eq_append_iff.mp h with ⟨l, rfl, hl⟩ | ⟨l, rfl, hl⟩
  · cases l with
    | nil =>
      obtain ⟨hce, hmn⟩ := List.cons.inj hl
      exact ⟨(List.append_nil a).symm, hce, Library.toDigits_inj hmn⟩
    | cons c' l =>
      have hin : e ∈ Nat.toDigits 10 m := by
        rw [(List.cons.inj hl).2]
        exact List.mem_append_right _ List.mem_cons_self
      rw [Library.isDigit_of_mem hin] at he
      cases he
  · cases l with
    | nil =>
      obtain ⟨hce, hmn⟩ := List.cons.inj hl
      exact ⟨List.append_nil b, hce.symm, (Library.toDigits_inj hmn).symm⟩
    | cons c' l =>
      have hin : c ∈ Nat.toDigits 10 n := by
        rw [(List.cons.inj hl).2]
        exact List.mem_append_right _ List.mem_cons_self
      rw [Library.isDigit_of_mem hin] at hc
      cases hc

theorem tag_last (k : IDKind) : ∃ l c, k.tag.toList = l ++ [c] ∧ c.isDigit = false ∧ (c = 't' → l = []) := by
  cases k with
  | token => exact ⟨[], 't', rfl, rfl, fun _ => rfl⟩
  | task => exact ⟨[], 'h', rfl, rfl, fun _ => rfl⟩
  | command => exact ⟨[], 'c', rfl, rfl, fun _ => rfl⟩
  | timer => exact ⟨['t'], 'm', rfl, rfl, fun h => absurd h (by decide)⟩
  | incident => exact ⟨['i', 'n'], 'c', rfl, rfl, fun h => absurd h (by decide)⟩
  | scope => exact ⟨[], 's', rfl, rfl, fun _ => rfl⟩

/-- The sentinel is longer than the built-in id with its number. -/
theorem counterIDs_opaque (inst : String) : (counterIDs inst).Opaque := by
  intro kind n m h
  obtain ⟨l, c, htag, hc, hl⟩ := tag_last kind
  have hlist : (inst.toList ++ ['-'] ++ l) ++ c :: Nat.toDigits 10 n =
      ("evtgw:".toList ++ inst.toList ++ ['-']) ++ 't' :: Nat.toDigits 10 m := by
    have hchars := congrArg String.toList h
    simp only [counterIDs, counterID, String.toList_append, Library.toList_toString, htag] at hchars
    simpa [IDKind.tag] using hchars
  obtain ⟨hpre, hce, -⟩ := numbered_tail_inj hc (by decide) hlist
  rw [hl hce] at hpre
  have hlen := congrArg List.length hpre
  simp at hlen

/-- The completed task's token goes on to the next task: one command goes out and the token waits for it. -/
theorem next_task_awaited : ∃ x r, Run triedOnce none "i" (callsFrom 1 [.startInstance [] ""]) x ∧
    step 50 triedOnce x ⟨2, .actionCompleted "i-c1" []⟩ plainOptions = .ok r ∧ CommandsAwaited (counterIDs "i") x r ∧
    awaiters r.state "i-c2" = 1 := by
  have hplay : playsThrough triedOnce [.startInstance [] ""] (.actionCompleted "i-c1" []) []
      (fun _ r _ => awaiters r.state "i-c2" == 1) = true := by decide
  obtain ⟨x, r, y, hrun, hstep, -, hP⟩ := run_of_playsThrough hplay
  have hop : (runIDs none "i").Opaque := counterIDs_opaque "i"
  exact ⟨x, r, hrun, hstep, commands_awaited hop hrun ⟨50, _, plainOptions⟩ rfl hstep, by simpa using hP⟩

/-- A task beside an error end event that nothing catches. -/
def failsBeside : ProcessDefinition where
  id := "beside"
  version := 1
  nodes := [startNode "s", forkNode "g", serviceNode "a" "",
    { id := "x", spec := .endEvent { behavior := .error, errorCode := "E" } },
    endNode "e"]
  flows := [flowOf "f1" "s" "g", flowOf "f2" "g" "a", flowOf "f3" "g" "x", flowOf "f4" "a" "e"]

/-- The instance fails in its first step: the token on the task keeps its wait and the command is not sent. -/
theorem failed_instance_keeps_waits : Accepted asciiTables failsBeside ∧ ∃ x r, Run failsBeside none "i" [] x ∧
    step 50 failsBeside x ⟨1, .startInstance [] ""⟩ plainOptions = .ok r ∧ r.state.status = .failed ∧
    MintedSince (counterIDs "i") x "i-c1" ∧ awaiters r.state "i-c1" = 1 ∧
    r.commands.filter (fun cmd => cmd.correlationID == "i-c1") = [] := by
  have hplay : playsThrough failsBeside [] (.startInstance [] "") []
      (fun x r _ => x.cmdSeq == 0 && r.state.status == .failed && awaiters r.state "i-c1" == 1 &&
        (r.commands.filter (fun cmd => cmd.correlationID == "i-c1")).isEmpty) = true := by decide
  obtain ⟨x, r, y, hrun, hstep, -, hP⟩ := run_of_playsThrough hplay
  simp only [Bool.and_eq_true, beq_iff_eq, List.isEmpty_iff] at hP
  obtain ⟨⟨⟨hzero, hfailed⟩, hone⟩, hnone⟩ := hP
  exact ⟨by decide, x, r, hrun, hstep, hfailed, Or.inl ⟨1, by omega, by decide⟩, hone, hnone⟩

end Wrkflw
