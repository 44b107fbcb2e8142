import Wrkflw.Machine.DeskRun
import Wrkflw.Machine.Faults

/-!
# What tokens wait for, along runs

A token that waits for a command waits for one that was minted for it, and no other token waits for that command.

* `Await`, `Act.awaiting` : where what a token waits for comes from, over one act;
* `Desk.Awaits` : the commands tokens wait for are minted, each for one token;
* `Desk.Spent` : a command was minted, and no token waits for it; no act gives it a token again;
* `InstanceState.Settled` : the instance no longer awaits the command: it has ended, or the command is spent. Every step keeps
  it (`step_later`), and a step that takes a child's end brings it about (`step_childEnd`).

No command may be named like the wait of an event gateway, which the engine makes from the token's id.
-/

namespace Wrkflw

open ControlState

variable {f : Token → Token} {tasks : List HumanTask} {cmd : Command} {x : InstanceState}

variable {g : IDGenerator} {trg : TriggerBody} {d0 d d' : Desk} {cmds : List Command} {tok t : Token} {cmdID fresh : String}
  {n : Nat}

/-! ## One act -/

/-- The ids of commands are no waits of event gateways. -/
def IDGenerator.ClearOfGateways (g : IDGenerator) : Prop := ∀ n m, g.newID .command n ≠ "evtgw:" ++ g.newID .token m

/-- Before the digits at its end, the id of a command has another letter than that of a token. -/
theorem counterIDs_clear (inst : String) : (counterIDs inst).ClearOfGateways := by
  intro n m h
  have hdigits : ∀ n, ∀ a ∈ (Nat.toDigits 10 n).reverse, a.isDigit = true := fun n a ha =>
    Nat.isDigit_of_mem_toDigits (by decide) (by decide) (List.mem_reverse.mp ha)
  have hl := congrArg (fun s => (s.toList.reverse.dropWhile Char.isDigit).head?) h
  simp only [counterIDs, counterID, String.toList_append, Library.toList_toString, List.reverse_append] at hl
  rw [List.dropWhile_append_of_pos (hdigits n), List.append_assoc, List.dropWhile_append_of_pos (hdigits m)] at hl
  simp [IDKind.tag] at hl

/-- What a token waits for after an act: what it waited for before, no command at all, or the command that was minted
just now, for the one token of this id. -/
inductive Await (g : IDGenerator) (d : Desk) (seq : Nat) (fresh : String) (t : Token) : Prop
  | old (t0 : Token) (hmem : t0 ∈ d.tokens) (hid : t0.id = t.id) (hawait : t0.awaitCommand = t.awaitCommand)
  | other (h : ∀ n, t.awaitCommand ≠ g.newID .command n)
  | minted (hid : t.id = fresh) (h : t.awaitCommand = g.newID .command (d.cmdSeq + 1)) (hseq : d.cmdSeq + 1 ≤ seq)

theorem Await.cleared (h : t.awaitCommand = "") : Await g d n fresh t :=
  .other (fun n he => g.newID_ne_empty .command n (he.symm.trans h))

theorem Await.of_kind {k : IDKind} {m : Nat} (h : t.awaitCommand = g.newID k m) (hk : k ≠ .command) : Await g d n fresh t :=
  .other (fun _ he => hk (g.newID_inj _ _ _ _ (h.symm.trans he)).1)

/-- Where the waits of a desk come from. -/
structure Awaiting (g : IDGenerator) (d d' : Desk) : Prop where
  seq : d.cmdSeq ≤ d'.cmdSeq
  source : ∃ fresh, ∀ t ∈ d'.tokens, Await g d d'.cmdSeq fresh t

theorem Awaiting.of_subset (hseq : d.cmdSeq ≤ d'.cmdSeq) (h : ∀ t ∈ d'.tokens, t ∈ d.tokens) : Awaiting g d d' :=
  ⟨hseq, "", fun t ht => .old t (h t ht) rfl rfl⟩

/-- An update that keeps what tokens wait for. -/
theorem Awaiting.of_keep {id : String} (hseq : d.cmdSeq ≤ d'.cmdSeq)
    (htokens : d'.tokens = (d.update id f).tokens) (hf : ∀ t, (f t).id = t.id ∧ (f t).awaitCommand = t.awaitCommand) :
    Awaiting g d d' := by
  refine ⟨hseq, "", fun t ht => ?_⟩
  rw [htokens] at ht
  obtain ⟨t0, ht0, rfl⟩ := List.mem_map.mp ht
  refine .old t0 ht0 ?_ ?_
  · split
    · exact (hf t0).1.symm
    · rfl
  · split
    · exact (hf t0).2.symm
    · rfl

/-- An update of one token. -/
theorem Awaiting.of_update (hids : d.Ids g) (hmem : tok ∈ d.tokens) (hseq : d.cmdSeq ≤ d'.cmdSeq)
    (htokens : d'.tokens = (d.update tok.id f).tokens) (hf : Await g d d'.cmdSeq tok.id (f tok)) : Awaiting g d d' := by
  refine ⟨hseq, tok.id, fun t ht => ?_⟩
  rw [htokens] at ht
  obtain rfl | ⟨ht, -⟩ := hids.mem_update hmem |>.mp ht
  · exact hf
  · exact .old t ht rfl rfl

theorem Token.Expects.minted {t' : Token} (h : t.Expects (g.newID .command (d.cmdSeq + 1)) t') (hseq : d.cmdSeq + 1 ≤ n) :
    Await g d n t.id t' := .minted h.id h.awaitCommand hseq

theorem Wait.awaiting {nc nt n : Nat} (hclear : g.ClearOfGateways) (hids : d.Ids g)
    (hmem : tok ∈ d.tokens) (h : Wait g d tok f tasks nc nt n cmds) : d.cmdSeq ≤ nc ∧ Await g d nc tok.id (f tok) := by
  cases h with
  | command f cmd hf hcmd hkind => exact ⟨Nat.le_succ _, (hf tok).minted le_rfl⟩
  | task f ht spec hf hid hopen hnode =>
    exact ⟨le_rfl, .of_kind ((hf tok).awaitCommand.trans hid) (by decide)⟩
  | timer spec => exact ⟨le_rfl, .of_kind (k := .timer) rfl (by decide)⟩
  | signal name hname => exact ⟨le_rfl, .old tok hmem rfl rfl⟩
  | message name key => exact ⟨le_rfl, .old tok hmem rfl rfl⟩
  | gateway f hf =>
    refine ⟨le_rfl, .other (fun n he => ?_)⟩
    obtain ⟨k, -, hk⟩ := hids.minted tok hmem
    have hwait := (hf tok).awaitCommand
    rw [he, hk] at hwait
    exact hclear n k hwait

/-- Every act: a token comes to wait for a command only as it is minted. -/
theorem Act.awaiting (hclear : g.ClearOfGateways) (hids : d.Ids g) (hact : Act g trg d0 d d' cmds) : Awaiting g d d' := by
  cases hact with
  | fire name input => exact .of_subset (Nat.le_succ _) (fun t ht => ht)
  | place node scope flow at_ =>
    refine ⟨le_rfl, "", fun t ht => ?_⟩
    obtain ht | ht := List.mem_append.mp ht
    · exact .old t ht rfl rfl
    · rw [List.mem_singleton.mp ht]
      exact .cleared rfl
  | step tok f hmem hactive hf => exact .of_keep le_rfl rfl (fun t => ⟨(hf t).id, (hf t).awaitCommand⟩)
  | drop p hp => exact .of_subset le_rfl (fun t ht => List.mem_of_mem_filter ht)
  | defer tok hmem hactive => exact .of_keep (f := fun t => { t with state := .waiting }) le_rfl rfl (fun _ => ⟨rfl, rfl⟩)
  | pop id rest hq => exact .of_keep (f := fun t => { t with state := .active }) le_rfl rfl (fun _ => ⟨rfl, rfl⟩)
  | park tok f tasks nc nt n m cmds armCmds arms gws trs hmem hactive hwait harm =>
    obtain ⟨hseq, hawait⟩ := hwait.awaiting hclear hids hmem
    exact .of_update hids hmem hseq rfl hawait
  | defect tok inc hmem hactive hid hkind htok hnode =>
    exact .of_keep (f := fun t => { t with state := .incident }) le_rfl rfl (fun _ => ⟨rfl, rfl⟩)
  | answer tok f hmem hnamed hf harms hnone => exact .of_update hids hmem le_rfl rfl (.cleared (hf tok).awaitCommand)
  | finishTask tok f task close hmem hnamed hf harms htask hopen hclose =>
    exact .of_update hids hmem le_rfl rfl (.cleared (hf tok).awaitCommand)
  | hear tok f hmem hf hid harms =>
    exact .of_update hids hmem le_rfl rfl (.old tok hmem hf.id.symm hf.awaitCommand.symm)
  | win tok f won cmds hmem hawait harmed hf hcmds =>
    exact .of_update hids hmem le_rfl rfl (.cleared (hf tok).awaitCommand)
  | rewait tok f tr spec hmem hnamed htrg hf harms htr =>
    exact .of_update hids hmem le_rfl rfl (.of_kind (hf tok).awaitCommand (by decide))
  | fail tok inc hmem hnamed htrg harms hid hkind htok hnode =>
    exact .of_keep (f := fun t => { t with state := .incident }) le_rfl rfl (fun _ => ⟨rfl, rfl⟩)
  | reinvoke tok f cmd arms m armCmds hmem hnamed htrg hf hcmd hkind harm =>
    exact .of_update hids hmem (Nat.le_succ _) rfl ((hf tok).minted le_rfl)
  | resolve inc tok f cmd arms m armCmds n hd htrg hinc hkind hmem htok hf hcmd hhuman harm =>
    exact .of_update hids hmem (Nat.le_succ _) rfl ((hf tok).minted le_rfl)
  | lose tok hmem hnamed htrg harms => exact .of_subset le_rfl (fun t ht => List.mem_of_mem_filter ht)
  | cancel tok hmem harms => exact .of_subset le_rfl (fun t ht => List.mem_of_mem_filter ht)
  | walkCommand cmd again backoff hcmd hhuman hagain => exact .of_subset (Nat.le_succ _) (fun t ht => ht)
  | finish tokens cmds cuts exits st htokens hcancel hcmds =>
    obtain ⟨rfl, -⟩ | ⟨rfl, -, -⟩ := htokens
    · exact .of_subset le_rfl (fun t ht => ht)
    · exact .of_subset le_rfl nofun
  | _ => exact .of_subset le_rfl (fun t ht => ht)

/-! ## Commands -/

/-- The command starts a child under this id. -/
def Command.Starts (cmdID : String) (cmd : Command) : Prop := ∃ ref input, cmd = .startSubInstance cmdID ref input

theorem Command.Starts.not_neutral (h : cmd.Starts cmdID) : ¬ cmd.Neutral := by
  obtain ⟨ref, input, rfl⟩ := h
  exact id

theorem Command.Starts.correlationID (h : cmd.Starts cmdID) : cmd.correlationID = cmdID := by
  obtain ⟨ref, input, rfl⟩ := h
  rfl

theorem Schedules.starts_none {m : Nat} {ids : List String} (h : Schedules g n m ids cmds) (hmem : cmd ∈ cmds) :
    ¬ cmd.Starts cmdID := by
  rintro ⟨ref, input, rfl⟩
  obtain ⟨id, -, owner, spec, kind, he⟩ := h.only _ hmem
  cases he

theorem Cancels.starts_none {ids : List String} {except : String} (h : Cancels ids except cmds)
    (hmem : cmd ∈ cmds) : ¬ cmd.Starts cmdID := by
  rintro ⟨ref, input, rfl⟩
  obtain ⟨id, -, he⟩ := h.only _ hmem
  cases he

theorem minted_of_starts (h : cmd.Starts cmdID) (hcmd : cmd.correlationID = g.newID .command n) :
    Minted g .command n cmdID := ⟨n, le_rfl, h.correlationID.symm.trans hcmd⟩

theorem Wait.starts_minted {nc nt n : Nat}
    (h : Wait g d tok f tasks nc nt n cmds) (hmem : cmd ∈ cmds) (hstarts : cmd.Starts cmdID) :
    Minted g .command nc cmdID := by
  cases h with
  | command f cmd' hf hcmd hkind =>
    rw [List.mem_singleton.mp hmem] at hstarts
    exact minted_of_starts hstarts hcmd
  | task f ht spec hf hid hopen hnode =>
    rw [List.mem_singleton.mp hmem] at hstarts
    obtain ⟨ref, input, he⟩ := hstarts
    cases he
  | timer spec =>
    rw [List.mem_singleton.mp hmem] at hstarts
    obtain ⟨ref, input, he⟩ := hstarts
    cases he
  | signal name hname => cases hmem
  | message name key => cases hmem
  | gateway f hf => cases hmem

/-- A child is started under a minted command. -/
theorem Act.starts_minted (hact : Act g trg d0 d d' cmds) (hmem : cmd ∈ cmds) (hstarts : cmd.Starts cmdID) :
    Minted g .command d'.cmdSeq cmdID := by
  have hone : ∀ {a : Command}, cmd ∈ [a] → (∀ ref input, a ≠ .startSubInstance cmdID ref input) → False := by
    intro a ha hne
    rw [List.mem_singleton.mp ha] at hstarts
    obtain ⟨ref, input, he⟩ := hstarts
    exact hne ref input he
  cases hact with
  | fire name input => exact (hone hmem nofun).elim
  | say cmds hcmds => exact absurd (hcmds cmd hmem) hstarts.not_neutral
  | park tok f tasks nc nt n m cmds armCmds arms gws trs _ hactive hwait harm =>
    obtain hmem | hmem := List.mem_append.mp hmem
    · exact hwait.starts_minted hmem hstarts
    · exact absurd hstarts (harm.timers.starts_none hmem)
  | finishTask tok f task close _ hnamed hf harms htask hopen hclose => exact (hone hmem nofun).elim
  | win tok f won cmds _ hawait harmed hf hcmds => exact absurd hstarts (hcmds.starts_none hmem)
  | rewait tok f tr spec _ hnamed htrg hf harms htr => exact (hone hmem nofun).elim
  | reinvoke tok f cmd' arms m armCmds _ hnamed htrg hf hcmd hkind harm =>
    obtain rfl | hmem := List.mem_cons.mp hmem
    · exact minted_of_starts hstarts hcmd
    · exact absurd hstarts (harm.timers.starts_none hmem)
  | resolve inc tok f cmd' arms m armCmds n hd htrg hinc hkind _ htok hf hcmd hhuman harm =>
    obtain rfl | hmem := List.mem_cons.mp hmem
    · exact minted_of_starts hstarts hcmd
    · exact absurd hstarts (harm.timers.starts_none hmem)
  | cancel tok _ harms =>
    unfold Desk.closedTask at hmem
    split at hmem
    · cases hmem
    · split at hmem
      · split at hmem
        · exact (hone hmem nofun).elim
        · cases hmem
      · cases hmem
  | armEventSubs scope arms m cmds hscope harm htimers => exact absurd hstarts (htimers.starts_none hmem)
  | dropEventSubs p cmds hcmds => exact absurd hstarts (hcmds.starts_none hmem)
  | dropBoundaries p cmds hcmds => exact absurd hstarts (hcmds.starts_none hmem)
  | dropGateways p won cmds hcmds => exact absurd hstarts (hcmds.starts_none hmem)
  | dropTimers p fired cmds hfired hcmds => exact absurd hstarts (hcmds.starts_none hmem)
  | schedule tr spec hid => exact (hone hmem nofun).elim
  | editTask taskID task f htask hopen hf htrg => exact (hone hmem nofun).elim
  | walkCommand cmd' again backoff hcmd hhuman hagain =>
    rw [List.mem_singleton.mp hmem] at hstarts
    exact minted_of_starts hstarts hcmd
  | finish tokens cmds cuts exits st htokens hcancel hcmds =>
    obtain ⟨terminal, timers, rfl, hterminal, htimers⟩ := hcmds
    obtain hmem | hmem := List.mem_append.mp hmem
    · obtain hmem | hmem := List.mem_append.mp hmem
      · obtain ⟨task, -, rfl⟩ := List.mem_map.mp hmem
        obtain ⟨ref, input, he⟩ := hstarts
        cases he
      · exact absurd (hterminal cmd hmem) hstarts.not_neutral
    · obtain ⟨id, rfl⟩ := htimers cmd hmem
      obtain ⟨ref, input, he⟩ := hstarts
      cases he
  | _ => cases hmem

theorem Acts.seq (hclear : g.ClearOfGateways) (h : Acts g trg d0 d d' cmds) (hids : d.Ids g) : d.cmdSeq ≤ d'.cmdSeq := by
  induction h with
  | nil d => exact le_rfl
  | cons h h' hperm ih => exact (h.awaiting hclear hids).seq.trans (ih (h.ids hids))
  | stray h d' cmds => exact absurd hids.sane h

theorem Acts.starts_minted (hclear : g.ClearOfGateways) (h : Acts g trg d0 d d' cmds) (hids : d.Ids g)
    (hmem : cmd ∈ cmds) (hstarts : cmd.Starts cmdID) : Minted g .command d'.cmdSeq cmdID := by
  induction h with
  | nil d => cases hmem
  | cons h h' hperm ih =>
    obtain hmem | hmem := List.mem_append.mp (hperm.mem_iff.mpr hmem)
    · exact (h.starts_minted hmem hstarts).mono (h'.seq hclear (h.ids hids))
    · exact ih (h.ids hids) hmem
  | stray h d' cmds => exact absurd hids.sane h

/-! ## Desks -/

/-- The commands tokens wait for are minted, each for one token. -/
structure Desk.Awaits (g : IDGenerator) (d : Desk) : Prop where
  minted : ∀ t ∈ d.tokens, ∀ n, t.awaitCommand = g.newID .command n → n ≤ d.cmdSeq
  unique : ∀ t ∈ d.tokens, ∀ t' ∈ d.tokens, ∀ n, t.awaitCommand = g.newID .command n →
    t'.awaitCommand = g.newID .command n → t.id = t'.id

theorem Awaiting.awaits (hd : d.Awaits g) (h : Awaiting g d d') : d'.Awaits g := by
  obtain ⟨hseq, fresh, hfrom⟩ := h
  -- a command that was minted before is waited for by the token that waited for it before
  have hold : ∀ t ∈ d'.tokens, ∀ n, t.awaitCommand = g.newID .command n → n ≤ d.cmdSeq →
      ∃ t0 ∈ d.tokens, t0.id = t.id ∧ t0.awaitCommand = g.newID .command n := by
    intro t ht n hn hle
    cases hfrom t ht with
    | old t0 hmem hid hawait => exact ⟨t0, hmem, hid, hawait.trans hn⟩
    | other h => exact absurd hn (h n)
    | minted hid h _ =>
      have := (g.newID_inj _ _ _ _ (hn.symm.trans h)).2
      omega
  have hnew : ∀ t ∈ d'.tokens, ∀ n, t.awaitCommand = g.newID .command n → ¬ n ≤ d.cmdSeq →
      t.id = fresh ∧ n ≤ d'.cmdSeq := by
    intro t ht n hn hgt
    cases hfrom t ht with
    | old t0 hmem hid hawait => exact absurd (hd.minted t0 hmem n (hawait.trans hn)) hgt
    | other h => exact absurd hn (h n)
    | minted hid h hle =>
      have := (g.newID_inj _ _ _ _ (hn.symm.trans h)).2
      exact ⟨hid, by omega⟩
  constructor
  · intro t ht n hn
    by_cases hle : n ≤ d.cmdSeq
    · exact hle.trans hseq
    · exact (hnew t ht n hn hle).2
  · intro t ht t' ht' n hn hn'
    by_cases hle : n ≤ d.cmdSeq
    · obtain ⟨t0, hmem, hid, hawait⟩ := hold t ht n hn hle
      obtain ⟨t1, hmem', hid', hawait'⟩ := hold t' ht' n hn' hle
      rw [← hid, ← hid']
      exact hd.unique t0 hmem t1 hmem' n hawait hawait'
    · rw [(hnew t ht n hn hle).1, (hnew t' ht' n hn' hle).1]

/-- The command was minted, and no token waits for it. -/
structure Desk.Spent (g : IDGenerator) (cmdID : String) (d : Desk) : Prop where
  minted : Minted g .command d.cmdSeq cmdID
  unawaited : ∀ t ∈ d.tokens, t.awaitCommand ≠ cmdID

theorem Awaiting.spent (hd : d.Spent g cmdID) (h : Awaiting g d d') : d'.Spent g cmdID := by
  obtain ⟨hseq, fresh, hfrom⟩ := h
  refine ⟨hd.minted.mono hseq, fun t ht he => ?_⟩
  obtain ⟨k, hk, rfl⟩ := hd.minted
  cases hfrom t ht with
  | old t0 hmem hid hawait => exact hd.unawaited t0 hmem (hawait.trans he)
  | other h => exact h k he
  | minted hid h _ =>
    have := (g.newID_inj _ _ _ _ (he.symm.trans h)).2
    omega

/-! ## Steps -/

/-- The instance no longer awaits the command: it has ended, or no token waits for it. -/
structure InstanceState.Settled (g : IDGenerator) (cmdID : String) (x : InstanceState) : Prop where
  minted : Minted g .command x.cmdSeq cmdID
  closed : x.status.isTerminal = true ∨ ∀ t ∈ x.tokens, t.awaitCommand ≠ cmdID

theorem InstanceState.settled_of_spent (h : x.desk.Spent g cmdID) : x.Settled g cmdID :=
  ⟨h.minted, .inr h.unawaited⟩

theorem Acts.awaits (hclear : g.ClearOfGateways) (h : Acts g trg d0 d d' cmds) (hids : d.Ids g) (hd : d.Awaits g) :
    d'.Ids g ∧ d'.Awaits g :=
  Acts.induct (I := Desk.Awaits g) (fun hids hd hact => (hact.awaiting hclear hids).awaits hd) h hids hd

theorem Acts.spent (hclear : g.ClearOfGateways) (h : Acts g trg d0 d d' cmds) (hids : d.Ids g) (hd : d.Spent g cmdID) :
    d'.Spent g cmdID :=
  (Acts.induct (I := Desk.Spent g cmdID) (fun hids hd hact => (hact.awaiting hclear hids).spent hd) h hids hd).2

/-- A command a live token waits for, gone with its token's wait. -/
theorem Desk.Awaits.spent (hd : d.Awaits g) (hmem : tok ∈ d.tokens) (htok : tok.awaitCommand = g.newID .command n)
    (hseq : d.cmdSeq ≤ d'.cmdSeq)
    (htokens : ∀ t ∈ d'.tokens, t.awaitCommand ≠ g.newID .command n ∨ (t ∈ d.tokens ∧ t.id ≠ tok.id)) :
    d'.Spent g (g.newID .command n) := by
  refine ⟨⟨n, (hd.minted tok hmem n htok).trans hseq, rfl⟩, fun t ht he => ?_⟩
  obtain hne | ⟨hold, hid⟩ := htokens t ht
  · exact hne he
  · exact hid (hd.unique t hold tok hmem n he htok)

section Handlers
variable {c : StepCtx} {s : InstanceState} {r : StepResult} {drv : DriveLoop}

/-- A child's output frees the token that waits for it, and the command is spent. -/
theorem childCompleted_spent (hclear : c.ids.ClearOfGateways) (hids : s.desk.Ids c.ids) (hs : s.desk.Awaits c.ids)
    {output : Vars} (hdrv : DoesDrive c.ids trg s.desk drv)
    (h : handleSubInstanceCompleted drv c s (c.ids.newID .command n) output = .ok r) :
    r.state.desk.Spent c.ids (c.ids.newID .command n) := by
  unfold handleSubInstanceCompleted at h
  split at h
  · cases h
  · rename_i tok htok
    obtain ⟨hmem, hcmd, hne⟩ := tokenAwaiting_some htok
    dsimp only at h
    obtain ⟨td, -, h⟩ := bind_ok h
    unfold resumeAndDrive at h
    rw [clear_activate] at h
    set x := (s.mergeVars output).onControl (·.updateToken tok.id freed) with hx
    have hrest : Does c.ids trg s.desk x r :=
      does_thenMove hdrv (Does.refl x) (running_update (x := s.mergeVars output) hmem (freed_clears tok).toSame rfl) h
    have hxids : x.desk.Ids c.ids := hids.update (f := freed) (fun _ => rfl) tok.id
    refine Acts.spent hclear hrest hxids (hs.spent hmem hcmd le_rfl (fun t ht => ?_))
    obtain rfl | hold := (hids.mem_update (f := freed) hmem).mp ht
    · exact .inl (fun he => c.ids.newID_ne_empty .command n he.symm)
    · exact .inr hold

/-- A child's failure consumes the token that waits for it, or ends the instance. -/
theorem childFailed_settled (hclear : c.ids.ClearOfGateways) (hids : s.desk.Ids c.ids) (hs : s.desk.Awaits c.ids)
    {err : String} (hdrv : DoesDrive c.ids (.subInstanceFailed (c.ids.newID .command n) err) s.desk drv)
    (h : handleSubInstanceFailed drv c s (c.ids.newID .command n) err = .ok r) :
    r.state.Settled c.ids (c.ids.newID .command n) := by
  have hseq : s.cmdSeq ≤ r.state.cmdSeq := Acts.seq hclear (does_childFailed hdrv h) hids
  unfold handleSubInstanceFailed at h
  split at h
  · cases h
  · rename_i tok htok
    obtain ⟨hmem, hcmd, hne⟩ := tokenAwaiting_some htok
    obtain ⟨td, -, h⟩ := bind_ok h
    split at h
    · rename_i nodeID e _
      unfold routeToBoundary at h
      dsimp only at h
      split at h
      · cases h
      · rename_i f _ _
        obtain ⟨r1, h1, rfl⟩ := map_prepend_ok h
        set y := (emitFireOnceAction c.ids s e.action).state with hy
        set x := (consumeCallActivity c tok y).state with hx
        have hlose : Does c.ids (.subInstanceFailed (c.ids.newID .command n) err) s.desk s
            ((consumeCallActivity c tok y).prepend (emitFireOnceAction c.ids s e.action).commands) :=
          (does_fireOnce s e.action).trans (does_consumeCallActivity hids.sane hmem hcmd hne)
        obtain ⟨hxids, -⟩ := Acts.awaits hclear hlose hids hs
        have hrest : Does c.ids (.subInstanceFailed (c.ids.newID .command n) err) s.desk x r1 :=
          (does_place x f.flow.target tok.scopeID f.identity c.at_).silently (hdrv _ _ h1)
        refine InstanceState.settled_of_spent
          (Acts.spent hclear hrest hxids (hs.spent hmem hcmd (Acts.seq hclear hlose hids) ?_))
        have htokens : x.desk.tokens = s.tokens.filter (fun t => t.id != tok.id) := by
          rw [hx]
          unfold consumeCallActivity
          dsimp only
          rw [onControl_desk, consumeTokenAs_front _ (hids.sane.named tok hmem)]
          change (y.removeBoundaryArmsForHost tok.id).state.toControlState.tokens.filter _ = _
          rw [InstanceState.removeBoundaryArmsForHost_control, hy, (fireOnce_tokens s e.action).1]
        intro t ht
        rw [htokens] at ht
        obtain ⟨hold, hid⟩ := List.mem_filter.mp ht
        exact .inr ⟨hold, by simpa using hid⟩
    · rw [← Except.ok.inj h] at hseq ⊢
      refine ⟨⟨n, (hs.minted tok hmem n hcmd).trans hseq, rfl⟩, .inl ?_⟩
      rw [InstanceState.endInstance_control, endControl_ended]
      rfl

end Handlers

/-! ## Instances -/

/-- What the tokens of an instance wait for was minted for them. -/
structure InstanceState.Waits (g : IDGenerator) (x : InstanceState) : Prop where
  ids : x.desk.Ids g
  awaits : x.desk.Awaits g

theorem InstanceState.Waits.of_tasks {x' : InstanceState} (hx : x.Waits g)
    (h : x'.desk = { x.desk with tasks := tasks }) : x'.Waits g := by
  constructor
  · rw [h]
    exact ⟨hx.ids.minted, hx.ids.nodup, hx.ids.finals, hx.ids.queue⟩
  · rw [h]
    exact ⟨hx.awaits.minted, hx.awaits.unique⟩

theorem blank_waits (g : IDGenerator) (inst : String) : ({ instanceID := inst } : InstanceState).Waits g :=
  ⟨blank_ids g inst, ⟨fun _ ht => absurd ht List.not_mem_nil, fun _ ht => absurd ht List.not_mem_nil⟩⟩

theorem InstanceState.Settled.of_tasks {x' : InstanceState} (hx : x.Settled g cmdID)
    (h : x'.desk = { x.desk with tasks := tasks }) (hstatus : x'.status = x.status) : x'.Settled g cmdID := by
  have hseq : x'.cmdSeq = x.cmdSeq := congrArg (fun d : Desk => d.cmdSeq) h
  have htokens : x'.tokens = x.tokens := congrArg (fun d : Desk => d.tokens) h
  refine ⟨hseq ▸ hx.minted, ?_⟩
  rw [hstatus, htokens]
  exact hx.closed

/-- The state comes later: no command that was minted is forgotten, and what was settled stays so. -/
structure InstanceState.Later (g : IDGenerator) (x x' : InstanceState) : Prop where
  seq : x.cmdSeq ≤ x'.cmdSeq
  settled : ∀ cmdID, x.Settled g cmdID → x'.Settled g cmdID

theorem InstanceState.Later.refl (g : IDGenerator) (x : InstanceState) : x.Later g x := ⟨le_rfl, fun _ h => h⟩

theorem InstanceState.Later.trans {x' x'' : InstanceState} (h : x.Later g x') (h' : x'.Later g x'') : x.Later g x'' :=
  ⟨h.seq.trans h'.seq, fun id hs => h'.settled id (h.settled id hs)⟩

section Ended
variable {c : StepCtx} {s : InstanceState} {r : StepResult} {fuel : Nat} {trg : TriggerBody}

/-- A walk that begins in an ended instance begins without tokens. -/
theorem compensate_spent (hclear : c.ids.ClearOfGateways) (hids : s.desk.Ids c.ids) (hs : s.desk.Awaits c.ids)
    (hmint : Minted c.ids .command s.cmdSeq cmdID) (hend : s.status.isTerminal = true) {toNode reverseNode : String}
    {reset restore : Bool} (h : stepCompensateRequested (drive c fuel) c s toNode reverseNode reset restore = .ok r) :
    r.state.desk.Spent c.ids cmdID := by
  unfold stepCompensateRequested at h
  split at h
  · cases h
  · split at h
    · cases h
    · split at h
      · rename_i hwalk
        have hcomp : s.status = .compensating := by
          rw [Bool.and_eq_true] at hwalk
          exact beq_iff_eq.mp hwalk.1
        rw [hcomp] at hend
        cases hend
      · split at h
        · cases h
        · dsimp only at h
          set x := (if (toNode == "" && reverseNode == "") = true then
            (s.onControl (fun s => { s with status := .compensating })).onControl (·.harvestOpenScopeCompensations)
            else s.onControl (fun s => { s with status := .compensating })) with hx
          have hopen : Does c.ids (.compensateRequested toNode reverseNode reset restore) s.desk s ⟨x, []⟩ := by
            have hre : Does c.ids (.compensateRequested toNode reverseNode reset restore) s.desk s
              ⟨s.onControl (fun s => { s with status := .compensating }), []⟩ := does_reopen rfl
            refine hre.thenSame ?_
            rw [hx]
            split
            · exact desk_onControl (front_of_outline (harvest_outline _))
            · rfl
          have hfinish : ∀ s' n r', stepCompensationFinish (drive c fuel) c s' n = .ok r' →
              Does c.ids (.compensateRequested toNode reverseNode reset restore) s.desk s' r' :=
            fun _ _ _ h => does_finish (does_drive fuel) h
          obtain ⟨r0, hdoes, rfl⟩ := does_beginCleared hfinish (Or.inl rfl) h
          set kind : CloseKind := if (reverseNode != "" || toNode != "" || restore) = true then .reversed else .compensated
          have hcleared : Does c.ids (.compensateRequested toNode reverseNode reset restore) s.desk s
            (clearForWalk c x kind) := hopen.silently (does_clearForWalk x kind)
          obtain ⟨hxids, -⟩ := Acts.awaits hclear hopen hids hs
          obtain ⟨hids', -⟩ := Acts.awaits hclear hcleared hids hs
          have hnone : (clearForWalk c x kind).state.tokens = [] := by
            rw [clearForWalk_control, (sameOutline (consolidate_outline _)).tokens]
            refine List.eq_nil_iff_forall_not_mem.mpr (fun t ht => ?_)
            obtain ⟨hmem, hno⟩ := mem_cancelListed c.at_ kind (fun t ht => (hxids.minted t ht).ne_empty) ht
            exact hno t hmem rfl
          refine Acts.spent hclear hdoes hids' ⟨hmint.mono (Acts.seq hclear hcleared hids), fun t ht => ?_⟩
          change t ∈ (clearForWalk c x kind).state.tokens at ht
          rw [hnone] at ht
          cases ht

/-- What is settled in an ended instance stays so. -/
theorem dispatch_settled (hclear : c.ids.ClearOfGateways) (hs : s.Waits c.ids) (hset : s.Settled c.ids cmdID)
    (hend : s.status.isTerminal = true) (h : dispatch (drive c fuel) c s trg = .ok r) : r.state.Settled c.ids cmdID := by
  unfold dispatch at h
  rw [if_pos hend] at h
  split at h
  · rw [← Except.ok.inj h]
    exact hset
  · cases h
  · rename_i hpolicy
    cases trg with
    | compensateRequested toNode reverseNode reset restore =>
      exact InstanceState.settled_of_spent (compensate_spent hclear hs.ids hs.awaits hset.minted hend h)
    | _ => cases hpolicy

/-- A child's end, told to a live instance: a token waited for it, and does no longer. -/
theorem childEnd_settles (hclear : c.ids.ClearOfGateways) (hs : s.Waits c.ids)
    (htrg : trg.childCommand = some (c.ids.newID .command n)) (h : handle (drive c fuel) c s trg = .ok r) :
    (∃ tok ∈ s.tokens, tok.awaitCommand = c.ids.newID .command n) ∧ r.state.Settled c.ids (c.ids.newID .command n) := by
  cases trg with
  | subInstanceCompleted id output =>
    cases htrg
    have hdrv : DoesDrive c.ids (.subInstanceCompleted (c.ids.newID .command n) output) s.desk (drive c fuel) :=
      does_drive fuel
    refine ⟨?_, InstanceState.settled_of_spent (childCompleted_spent hclear hs.ids hs.awaits hdrv h)⟩
    change handleSubInstanceCompleted _ _ _ _ _ = _ at h
    unfold handleSubInstanceCompleted at h
    split at h
    · cases h
    · rename_i tok htok
      exact ⟨tok, (tokenAwaiting_some htok).1, (tokenAwaiting_some htok).2.1⟩
  | subInstanceFailed id err =>
    cases htrg
    refine ⟨?_, childFailed_settled hclear hs.ids hs.awaits (does_drive fuel) h⟩
    change handleSubInstanceFailed _ _ _ _ _ = _ at h
    unfold handleSubInstanceFailed at h
    split at h
    · cases h
    · rename_i tok htok
      exact ⟨tok, (tokenAwaiting_some htok).1, (tokenAwaiting_some htok).2.1⟩
  | _ => cases htrg

end Ended

/-! ## Steps -/

/-- The child's end of an ended instance is ignored; the key names its command. -/
theorem childCommand_spec {trg : TriggerBody} (h : trg.childCommand = some cmdID) :
    trg.terminalPolicy = .rejectSilently ∧ validateReassignTarget trg = .ok () ∧
      (∀ e, validateTriggerKey trg = .error e → e.kind ≠ .tokenNotFound) ∧
        (validateTriggerKey trg = .ok () → cmdID ≠ "") := by
  have hkeyed : ∀ {trg : TriggerBody} {field id : String}, trg.validatedKey = some (field, id) →
      (∀ e, validateTriggerKey trg = .error e → e.kind ≠ .tokenNotFound) ∧
        (validateTriggerKey trg = .ok () → id ≠ "") := by
    intro trg field id hkey
    unfold validateTriggerKey
    rw [hkey]
    dsimp only
    split
    · refine ⟨fun e he => ?_, nofun⟩
      cases he
      exact nofun
    · rename_i hid
      exact ⟨nofun, fun _ he => hid (beq_iff_eq.mpr he)⟩
  cases trg with
  | subInstanceCompleted id output =>
    cases h
    exact ⟨rfl, rfl, hkeyed rfl⟩
  | subInstanceFailed id err =>
    cases h
    exact ⟨rfl, rfl, hkeyed rfl⟩
  | _ => cases h

theorem dropStaleCommands_starts (live : List String) (cmds : List Command) (s : InstanceState)
    (hmem : cmd ∈ (dropStaleCommands live cmds s).commands) (hstarts : cmd.Starts cmdID) : cmd ∈ cmds := by
  induction cmds generalizing s with
  | nil => cases hmem
  | cons a cmds ih =>
    obtain hmem | hmem := List.mem_append.mp hmem
    · unfold dropStaleCommand at hmem
      split at hmem
      · exact List.mem_cons.mpr (.inl (List.mem_singleton.mp hmem))
      · split at hmem
        · split at hmem
          · split at hmem
            · rw [List.mem_singleton.mp hmem] at hstarts
              obtain ⟨ref, input, he⟩ := hstarts
              cases he
            · cases hmem
          · cases hmem
        · cases hmem
    · exact List.mem_cons_of_mem _ (ih _ hmem)

theorem dropStaleTokenCommands_starts (r : StepResult) (hmem : cmd ∈ (dropStaleTokenCommands r).commands)
    (hstarts : cmd.Starts cmdID) : cmd ∈ r.commands := by
  unfold dropStaleTokenCommands at hmem
  split at hmem
  · exact hmem
  · exact dropStaleCommands_starts _ _ _ hmem hstarts

section Steps
variable {fuel : Nat} {p : ProcessDefinition} {s : InstanceState} {tr : Trigger} {opt : StepOptions} {r : StepResult}

theorem settled_dropStale {r0 : StepResult} (h : r0.state.Settled g cmdID) :
    (dropStaleTokenCommands r0).state.Settled g cmdID := by
  obtain ⟨tasks, hdesk⟩ := dropStaleTokenCommands_desk r0
  exact h.of_tasks hdesk (congrArg ControlState.status (dropStaleTokenCommands_control r0))

variable (hclear : (opt.ids s.instanceID).ClearOfGateways) (hflight : s.status = .compensating → s.InFlight)
  (hs : s.Waits (opt.ids s.instanceID))
include hclear hs

include hflight in
/-- Tokens wait for what was minted for them, after every step. -/
theorem step_waits (h : step fuel p s tr opt = .ok r) : r.state.Waits (opt.ids s.instanceID) := by
  obtain ⟨r0, hdoes, rfl⟩ := step_does hflight h
  obtain ⟨tasks, hdesk⟩ := dropStaleTokenCommands_desk r0
  obtain ⟨hids, hawaits⟩ := Acts.awaits hclear hdoes hs.ids hs.awaits
  exact InstanceState.Waits.of_tasks ⟨hids, hawaits⟩ hdesk

include hflight in
/-- A step starts children under minted commands. -/
theorem step_starts (h : step fuel p s tr opt = .ok r) (hmem : cmd ∈ r.commands) (hstarts : cmd.Starts cmdID) :
    Minted (opt.ids s.instanceID) .command r.state.cmdSeq cmdID := by
  obtain ⟨r0, hdoes, rfl⟩ := step_does hflight h
  obtain ⟨tasks, hdesk⟩ := dropStaleTokenCommands_desk r0
  have hseq : (dropStaleTokenCommands r0).state.cmdSeq = r0.state.cmdSeq := congrArg (fun d : Desk => d.cmdSeq) hdesk
  rw [hseq]
  exact Acts.starts_minted hclear hdoes hs.ids (dropStaleTokenCommands_starts r0 hmem hstarts) hstarts

include hflight in
/-- A step leads to a later state. -/
theorem step_later (h : step fuel p s tr opt = .ok r) : s.Later (opt.ids s.instanceID) r.state := by
  obtain ⟨r0, hdoes, hr⟩ := step_does hflight h
  refine ⟨?_, fun cmdID hset => ?_⟩
  · rw [hr]
    obtain ⟨tasks, hdesk⟩ := dropStaleTokenCommands_desk r0
    have hseq : (dropStaleTokenCommands r0).state.cmdSeq = r0.state.cmdSeq := congrArg (fun d : Desk => d.cmdSeq) hdesk
    rw [hseq]
    exact Acts.seq hclear hdoes hs.ids
  · obtain hend | hnone := hset.closed
    · obtain ⟨r1, hd, rfl⟩ := step_dispatch h
      exact settled_dropStale (dispatch_settled hclear hs hset hend hd)
    · rw [hr]
      exact settled_dropStale (InstanceState.settled_of_spent (Acts.spent hclear hdoes hs.ids ⟨hset.minted, hnone⟩))

/-- A step that takes a child's end, in a live instance. -/
theorem step_childEnd (hlive : s.status.isTerminal = false)
    (htrg : tr.body.childCommand = some ((opt.ids s.instanceID).newID .command n)) (h : step fuel p s tr opt = .ok r) :
    (∃ tok ∈ s.tokens, tok.awaitCommand = (opt.ids s.instanceID).newID .command n) ∧
      r.state.Settled (opt.ids s.instanceID) ((opt.ids s.instanceID).newID .command n) := by
  obtain ⟨r0, hd, rfl⟩ := step_dispatch h
  unfold dispatch at hd
  rw [hlive, if_neg Bool.false_ne_true] at hd
  obtain ⟨htok, hset⟩ := childEnd_settles (c := stepCtx p s tr opt) hclear hs htrg hd
  exact ⟨htok, settled_dropStale hset⟩

omit hclear hs in
/-- A step that refuses a child's end for want of a token. -/
theorem step_lacks {e : EngineError} (htrg : tr.body.childCommand = some cmdID)
    (h : step fuel p s tr opt = .error e) (hkind : e.kind = .tokenNotFound) : ∀ t ∈ s.tokens, t.awaitCommand ≠ cmdID := by
  obtain ⟨hpolicy, hre, hkey, hne⟩ := childCommand_spec htrg
  unfold step at h
  cases hk : validateTriggerKey tr.body with
  | error e' =>
    rw [hk] at h
    cases h
    exact absurd hkind (hkey e hk)
  | ok u =>
    rw [hk, hre] at h
    cases hd : dispatch (drive (stepCtx p s tr opt) fuel) (stepCtx p s tr opt) s tr.body with
    | ok r0 =>
      change (dispatch (drive (stepCtx p s tr opt) fuel) (stepCtx p s tr opt) s tr.body >>= _) = _ at h
      rw [hd] at h
      cases h
    | error e0 =>
      change (dispatch (drive (stepCtx p s tr opt) fuel) (stepCtx p s tr opt) s tr.body >>= _) = _ at h
      rw [hd] at h
      cases h
      unfold dispatch at hd
      split at hd
      · rw [hpolicy] at hd
        cases hd
      · have hnone := childEnd_lacks htrg hd hkind
        unfold ControlState.tokenAwaiting at hnone
        rw [if_neg (by simpa using hne hk)] at hnone
        intro t ht he
        have := List.find?_eq_none.mp hnone t ht
        rw [he, beq_self_eq_true] at this
        exact this rfl

end Steps

end Wrkflw
