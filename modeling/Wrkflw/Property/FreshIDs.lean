import Wrkflw.Property.Mirror

/-!
# Ids never collide

Every id is the next number of its kind, and the numbers only grow.

* `Desk.held`, `Command.named?` : the ids a desk has and the ids a command brings into the world;
* `Since` : the id was minted between two desks;
* `Mints` : what is named and what is added was minted on the way, once: of an act (`Act.mints`), an operation
  (`Acts.mints`), a step (`step_mints`) and a run (`Issues.mints`);
* `ids_never_collide` : no id of a run is given twice, and one waits for an id at most.
-/

namespace Wrkflw

open ControlState

variable {timers : List String}

/-! ## Counters -/

/-- The number of the last id of the kind. -/
def Desk.seq (d : Desk) : IDKind → Nat
  | .token => d.tokenSeq
  | .task => d.taskSeq
  | .command => d.cmdSeq
  | .timer => d.timerSeq
  | .incident => d.incidentSeq
  | .scope => d.scopeSeq

/-- The ids of the kind. -/
def Desk.held (d : Desk) : IDKind → List String
  | .token => d.tokens.map (·.id)
  | .task => d.tasks.map (·.taskID)
  | .command => []
  | .timer => d.timers.map (·.timerID)
  | .incident => d.incidents.map (·.id)
  | .scope => d.scopes.map (·.id)

/-- The id was minted between the desks. -/
def Since (g : IDGenerator) (d d' : Desk) (k : IDKind) (id : String) : Prop :=
  ∃ n, d.seq k < n ∧ n ≤ d'.seq k ∧ id = g.newID k n

/-- Each of the ids was minted between the desks, once. -/
structure Coined (g : IDGenerator) (d d' : Desk) (ids : List (IDKind × String)) : Prop where
  since : ∀ k id, (k, id) ∈ ids → Since g d d' k id
  nodup : ids.Nodup

/-- What the desk has of the kind it had before, or it was minted since. -/
def Grown (g : IDGenerator) (d d' : Desk) (k : IDKind) : Prop :=
  ∃ ids, (∀ id ∈ ids, Since g d d' k id) ∧ ids.Nodup ∧ (d'.held k).Subperm (d.held k ++ ids)

variable {g : IDGenerator} {trg : TriggerBody} {d0 d d1 d' : Desk} {cmds cmds' : List Command} {k : IDKind} {id : String}
  {ids ids' : List (IDKind × String)}

theorem Since.widen (h : Since g d d' k id) (hle : d0.seq k ≤ d.seq k) (hle' : d'.seq k ≤ d1.seq k) : Since g d0 d1 k id := by
  obtain ⟨n, hlt, hn, he⟩ := h
  exact ⟨n, hle.trans_lt hlt, hn.trans hle', he⟩

/-- What was minted earlier is not minted later. -/
theorem Since.apart {id' : String} (h : Since g d d1 k id) (h' : Since g d1 d' k id') : id ≠ id' := by
  obtain ⟨n, -, hn, rfl⟩ := h
  obtain ⟨m, hm, -, rfl⟩ := h'
  intro he
  have := (g.newID_inj _ _ _ _ he).2
  omega

theorem Since.next (hseq : d'.seq k = d.seq k + 1) (hid : id = g.newID k (d.seq k + 1)) : Since g d d' k id :=
  ⟨d.seq k + 1, Nat.lt_succ_self _, hseq.ge, hid⟩

theorem Coined.nil : Coined g d d' [] := ⟨nofun, List.nodup_nil⟩

theorem Coined.one (h : Since g d d' k id) : Coined g d d' [(k, id)] := by
  refine ⟨fun k' id' hin => ?_, List.nodup_singleton _⟩
  obtain ⟨rfl, rfl⟩ := Prod.mk.inj (List.mem_singleton.mp hin)
  exact h

/-- Earlier names and later ones. -/
theorem Coined.append (h : Coined g d d1 ids) (h' : Coined g d1 d' ids') (hle : ∀ k, d.seq k ≤ d1.seq k)
    (hle' : ∀ k, d1.seq k ≤ d'.seq k) :
    Coined g d d' (ids ++ ids') := by
  refine ⟨fun k id hin => ?_, List.nodup_append.mpr ⟨h.nodup, h'.nodup, ?_⟩⟩
  · rcases List.mem_append.mp hin with hin | hin
    · exact (h.since k id hin).widen le_rfl (hle' k)
    · exact (h'.since k id hin).widen (hle k) le_rfl
  · rintro ⟨k, id⟩ hin ⟨k', id'⟩ hin' he
    obtain ⟨rfl, rfl⟩ := Prod.mk.inj he
    exact (h.since k id hin).apart (h'.since k id hin') rfl

theorem Coined.perm (h : Coined g d d' ids) (hp : ids.Perm ids') : Coined g d d' ids' :=
  ⟨fun k id hin => h.since k id (hp.mem_iff.mpr hin), hp.nodup_iff.mp h.nodup⟩

theorem Grown.of_sublist (h : (d'.held k).Sublist (d.held k)) : Grown g d d' k :=
  ⟨[], nofun, List.nodup_nil, by rw [List.append_nil]; exact h.subperm⟩

theorem Grown.next (hseq : d'.seq k = d.seq k + 1) (h : d'.held k = d.held k ++ [g.newID k (d.seq k + 1)]) :
    Grown g d d' k := by
  refine ⟨[g.newID k (d.seq k + 1)], fun id hid => .next hseq (List.mem_singleton.mp hid), List.nodup_singleton _, ?_⟩
  rw [h]

theorem Grown.trans (h : Grown g d d1 k) (h' : Grown g d1 d' k) (hle : d.seq k ≤ d1.seq k) (hle' : d1.seq k ≤ d'.seq k) :
    Grown g d d' k := by
  obtain ⟨new, hnew, hnodup, hsub⟩ := h
  obtain ⟨new', hnew', hnodup', hsub'⟩ := h'
  refine ⟨new ++ new', fun id hid => ?_, List.nodup_append.mpr ⟨hnodup, hnodup', ?_⟩, ?_⟩
  · rcases List.mem_append.mp hid with hid | hid
    · exact (hnew id hid).widen le_rfl hle'
    · exact (hnew' id hid).widen hle le_rfl
  · intro a ha b hb
    exact (hnew a ha).apart (hnew' b hb)
  · rw [← List.append_assoc]
    exact hsub'.trans ((List.subperm_append_right new').mpr hsub)

/-- Different ids stay different. -/
theorem Grown.nodup (h : Grown g d d' k) (hnodup : (d.held k).Nodup) (hold : ∀ id ∈ d.held k, Minted g k (d.seq k) id) :
    (d'.held k).Nodup := by
  obtain ⟨new, hnew, hnodup', l, hperm, hsub⟩ := h
  refine hperm.nodup_iff.mp (hsub.nodup (List.nodup_append.mpr ⟨hnodup, hnodup', fun a ha b hb he => ?_⟩))
  obtain ⟨n, hn, rfl⟩ := hold a ha
  obtain ⟨m, hm, -, hb⟩ := hnew b hb
  have := (g.newID_inj _ _ _ _ (he.trans hb)).2
  omega

theorem Grown.minted (h : Grown g d d' k) (hle : d.seq k ≤ d'.seq k) (hold : ∀ id ∈ d.held k, Minted g k (d.seq k) id) :
    ∀ id ∈ d'.held k, Minted g k (d'.seq k) id := by
  obtain ⟨new, hnew, -, hsub⟩ := h
  intro id hid
  rcases List.mem_append.mp (hsub.subset hid) with hid | hid
  · exact (hold id hid).mono hle
  · obtain ⟨n, -, hn, he⟩ := hnew id hid
    exact ⟨n, hn, he⟩

/-- An id minted before is had only by who had it. -/
theorem Grown.held (h : Grown g d d' k) (hid : id ∈ d'.held k) (hold : Minted g k (d.seq k) id) : id ∈ d.held k := by
  obtain ⟨new, hnew, -, hsub⟩ := h
  rcases List.mem_append.mp (hsub.subset hid) with hin | hin
  · exact hin
  · obtain ⟨n, hn, rfl⟩ := hold
    obtain ⟨m, hm, -, he⟩ := hnew _ hin
    have := (g.newID_inj _ _ _ _ he).2
    omega

/-! ## Names of commands -/

theorem named_none (h : ∀ cmd ∈ cmds, cmd.named? = none) :
    cmds.filterMap Command.named? = [] := List.filterMap_eq_nil_iff.mpr h

theorem Command.Neutral.named {cmd : Command} (h : cmd.Neutral) : cmd.named? = none := by
  cases cmd <;> first | rfl | cases h

/-- A command that waits for an answer other than a task's. -/
theorem named_of_answered {cmd : Command} {n : Nat} (h : cmd.correlationID = g.newID .command n)
    (hhuman : ∀ id spec, cmd ≠ .awaitHuman id spec) : cmd.named? = some (.command, g.newID .command n) := by
  have hne := g.newID_ne_empty .command n
  rw [← h] at hne ⊢
  cases cmd with
  | invokeAction commandID name input fireAndForget =>
    cases fireAndForget with
    | false => rfl
    | true => exact absurd rfl hne
  | startSubInstance commandID defRef input => rfl
  | awaitHuman taskID spec => exact absurd rfl (hhuman taskID spec)
  | _ => exact absurd rfl hne

theorem Cancels.named {except : String} (h : Cancels timers except cmds) : cmds.filterMap Command.named? = [] := by
  refine named_none (fun cmd hcmd => ?_)
  obtain ⟨id, -, rfl⟩ := h.only cmd hcmd
  rfl

theorem Schedules.named_nodup {n m : Nat} (h : Schedules g n m timers cmds) :
    (cmds.filterMap Command.named?).Nodup :=
  h.once.nodup_iff.mpr (h.nodup.map (fun _ _ he => (Prod.mk.inj he).2))

theorem Schedules.named {n m : Nat} (h : Schedules g n m timers cmds) (hn : d.seq .timer ≤ n)
    (hm : m ≤ d'.seq .timer) : Coined g d d' (cmds.filterMap Command.named?) := by
  refine ⟨fun k id hin => ?_, h.named_nodup⟩
  obtain ⟨id', hid', he⟩ := List.mem_map.mp (h.once.mem_iff.mp hin)
  obtain ⟨rfl, rfl⟩ := Prod.mk.inj he
  obtain ⟨j, hj, hjm, hid⟩ := h.fresh id' hid'
  exact ⟨j, hn.trans_lt hj, hjm.trans hm, hid⟩

theorem closedTask_named (d : Desk) (taskID : String) : (d.closedTask taskID).2.filterMap Command.named? = [] := by
  unfold Desk.closedTask
  split
  · rfl
  · split
    · split <;> rfl
    · rfl

/-! ## Acts -/

theorem Act.le (hact : Act g trg d0 d d' cmds) (k : IDKind) : d.seq k ≤ d'.seq k := by
  cases hact with
  | park tok f tasks nc nt n m cmds armCmds arms gws trs hmem hactive hwait harm =>
    have hle := harm.timers.le
    cases hwait <;> cases k <;> simp only [Desk.seq, Desk.update] <;> omega
  | reinvoke tok f cmd arms m armCmds hmem hnamed htrg hf hcmd hkind harm =>
    have hle := harm.timers.le
    cases k <;> simp only [Desk.seq, Desk.update] <;> omega
  | resolve inc tok f cmd arms m armCmds n hd htrg hinc hkind hmem htok hf hcmd hhuman harm =>
    have hle := harm.timers.le
    cases k <;> simp only [Desk.seq, Desk.update] <;> omega
  | armEventSubs scope arms m cmds hscope harm htimers =>
    have hle := htimers.le
    cases k <;> simp only [Desk.seq] <;> omega
  | _ => cases k <;> simp [Desk.seq, Desk.update, Desk.remove]

/-- What an act names was minted by it, once. -/
theorem Act.coined (hact : Act g trg d0 d d' cmds) : Coined g d d' (cmds.filterMap Command.named?) := by
  -- a command and the timers behind it
  have hinvoke : ∀ {cmd : Command} {armCmds : List Command} {timers : List String} {m : Nat} {d' : Desk},
      cmd.named? = some (.command, g.newID .command (d.cmdSeq + 1)) → Schedules g d.timerSeq m timers armCmds →
      d'.seq .command = d.cmdSeq + 1 → d'.seq .timer = m → Coined g d d' ((cmd :: armCmds).filterMap Command.named?) := by
    intro cmd armCmds timers m d' hcmd hsch hseq htimer
    have htimers : Coined g d d' (armCmds.filterMap Command.named?) := hsch.named le_rfl htimer.ge
    rw [List.filterMap_cons_some hcmd]
    refine ⟨fun k id hin => ?_, List.nodup_cons.mpr ⟨fun hin => ?_, htimers.nodup⟩⟩
    · rcases List.mem_cons.mp hin with he | hin
      · obtain ⟨rfl, rfl⟩ := Prod.mk.inj he
        exact .next hseq rfl
      · exact htimers.since k id hin
    · obtain ⟨id, -, he⟩ := List.mem_map.mp (hsch.once.mem_iff.mp hin)
      cases (Prod.mk.inj he).1
  cases hact with
  | fire name input => exact .one (.next rfl rfl)
  | say cmds hcmds =>
    rw [named_none (fun cmd hcmd => (hcmds cmd hcmd).named)]
    exact .nil
  | park tok f tasks nc nt n m cmds armCmds arms gws trs hmem hactive hwait harm =>
    have hle := harm.timers.le
    cases hwait with
    | command f cmd hf hcmd hkind => exact hinvoke (named_of_answered hcmd hkind) harm.timers rfl rfl
    | task f ht spec hf hid hopen hnode =>
      have htimers : ∀ {d' : Desk}, d'.seq .timer = m → Coined g d d' (armCmds.filterMap Command.named?) :=
        fun hseq => harm.timers.named le_rfl hseq.ge
      refine ⟨fun k id hin => ?_, List.nodup_cons.mpr ⟨fun hin => ?_, harm.timers.named_nodup⟩⟩
      · rcases List.mem_cons.mp hin with he | hin
        · obtain ⟨rfl, rfl⟩ := Prod.mk.inj he
          exact .next rfl hid
        · exact (htimers rfl).since k id hin
      · obtain ⟨id, -, he⟩ := List.mem_map.mp (harm.timers.once.mem_iff.mp hin)
        cases (Prod.mk.inj he).1
    | timer spec =>
      have hfirst : Coined g d { d with timerSeq := d.timerSeq + 1 } [(.timer, g.newID .timer (d.timerSeq + 1))] :=
        .one (.next rfl rfl)
      have hrest : ∀ {d' : Desk}, d'.seq .timer = m →
          Coined g { d with timerSeq := d.timerSeq + 1 } d' (armCmds.filterMap Command.named?) :=
        fun hseq => harm.timers.named le_rfl hseq.ge
      refine hfirst.append (hrest rfl) (fun k => ?_) (fun k => ?_)
      · cases k <;> simp [Desk.seq]
      · cases k <;> simp [Desk.seq, Desk.update]
        omega
    | signal name hname => exact harm.timers.named le_rfl le_rfl
    | message name key => exact harm.timers.named le_rfl le_rfl
    | gateway f hf => exact harm.timers.named le_rfl le_rfl
  | win tok f won cmds hmem hawait harmed hf hcmds =>
    rw [hcmds.named]
    exact .nil
  | rewait tok f tr spec hmem hnamed htrg hf harms htr => exact .one (.next rfl htr)
  | reinvoke tok f cmd arms m armCmds hmem hnamed htrg hf hcmd hkind harm =>
    exact hinvoke (named_of_answered hcmd hkind) harm.timers rfl rfl
  | resolve inc tok f cmd arms m armCmds n hd htrg hinc hkind hmem htok hf hcmd hhuman harm =>
    exact hinvoke (named_of_answered hcmd hhuman) harm.timers rfl rfl
  | cancel tok hmem harms =>
    rw [closedTask_named]
    exact .nil
  | armEventSubs scope arms m cmds hscope harm htimers => exact htimers.named le_rfl le_rfl
  | dropEventSubs p cmds hcmds =>
    rw [hcmds.named]
    exact .nil
  | dropBoundaries p cmds hcmds =>
    rw [hcmds.named]
    exact .nil
  | dropGateways p won cmds hcmds =>
    rw [hcmds.named]
    exact .nil
  | dropTimers p fired cmds hfired hcmds =>
    rw [hcmds.named]
    exact .nil
  | schedule tr spec hid => exact .one (.next rfl hid)
  | walkCommand cmd again backoff hcmd hhuman hagain =>
    rw [List.filterMap_cons_some (named_of_answered hcmd hhuman)]
    exact .one (.next rfl rfl)
  | finish tokens cmds cuts exits st htokens hcancel hcmds =>
    obtain ⟨terminal, timers, rfl, hterm, htimers⟩ := hcmds
    rw [named_none (fun cmd hcmd => ?_)]
    · exact .nil
    · rcases List.mem_append.mp hcmd with hcmd | hcmd
      · rcases List.mem_append.mp hcmd with hcmd | hcmd
        · obtain ⟨task, -, rfl⟩ := List.mem_map.mp hcmd
          rfl
        · exact (hterm cmd hcmd).named
      · obtain ⟨id, rfl⟩ := htimers cmd hcmd
        rfl
  | _ => exact .nil

theorem Act.tokens_grown (hact : Act g trg d0 d d' cmds) : Grown g d d' .token := by
  have hsame : ∀ {d' : Desk} {f : Token → Token} {tokenID : String}, d'.tokens = (d.update tokenID f).tokens →
      (∀ t, (f t).id = t.id) → Grown g d d' .token := by
    intro d' f tokenID htokens hf
    refine .of_sublist ?_
    change (d'.tokens.map (·.id)).Sublist (d.tokens.map (·.id))
    rw [htokens, update_ids hf]
  cases hact with
  | place node scope flow at_ => exact .next rfl (by simp [Desk.held, Desk.seq])
  | step tok f hmem hactive hf => exact hsame rfl (fun t => (hf t).id)
  | drop p hp => exact .of_sublist (List.filter_sublist.map _)
  | defer tok hmem hactive => exact hsame (f := fun t => { t with state := .waiting }) rfl (fun _ => rfl)
  | pop id rest hq => exact hsame (f := fun t => { t with state := .active }) rfl (fun _ => rfl)
  | park tok f tasks nc nt n m cmds armCmds arms gws trs hmem hactive hwait harm =>
    cases hwait with
    | command f cmd hf hcmd hkind => exact hsame rfl (fun t => (hf t).id)
    | task f ht spec hf hid hopen hnode => exact hsame rfl (fun t => (hf t).id)
    | timer spec => exact hsame rfl (fun _ => rfl)
    | signal name hname => exact hsame rfl (fun _ => rfl)
    | message name key => exact hsame rfl (fun _ => rfl)
    | gateway f hf => exact hsame rfl (fun t => (hf t).id)
  | defect tok inc hmem hactive hid hkind htok hnode =>
    exact hsame (f := fun t => { t with state := .incident }) rfl (fun _ => rfl)
  | answer tok f hmem hnamed hf harms hnone => exact hsame rfl (fun t => (hf t).id)
  | finishTask tok f task close hmem hnamed hf harms htask hopen hclose => exact hsame rfl (fun t => (hf t).id)
  | hear tok f hmem hf hid harms => exact hsame rfl hid
  | win tok f won cmds hmem hawait harmed hf hcmds => exact hsame rfl (fun t => (hf t).id)
  | rewait tok f tr spec hmem hnamed htrg hf harms htr => exact hsame rfl (fun t => (hf t).id)
  | fail tok inc hmem hnamed htrg harms hid hkind htok hnode =>
    exact hsame (f := fun t => { t with state := .incident }) rfl (fun _ => rfl)
  | reinvoke tok f cmd arms m armCmds hmem hnamed htrg hf hcmd hkind harm => exact hsame rfl (fun t => (hf t).id)
  | resolve inc tok f cmd arms m armCmds n hd htrg hinc hkind hmem htok hf hcmd hhuman harm =>
      exact hsame rfl (fun t => (hf t).id)
  | lose tok hmem hnamed htrg harms => exact .of_sublist (List.filter_sublist.map _)
  | cancel tok hmem harms => exact .of_sublist (List.filter_sublist.map _)
  | finish tokens cmds cuts exits st htokens hcancel hcmds =>
    rcases htokens with ⟨rfl, -⟩ | ⟨rfl, -, -⟩
    · exact .of_sublist (List.Sublist.refl _)
    · exact .of_sublist (List.nil_sublist _)
  | _ => exact .of_sublist (List.Sublist.refl _)

theorem Act.scopes_grown (hact : Act g trg d0 d d' cmds) : Grown g d d' .scope := by
  cases hact with
  | openScope node parent => exact .next rfl (by simp [Desk.held, Desk.seq])
  | closeScopes p hp => exact .of_sublist (List.filter_sublist.map _)
  | exitScope id p plain hid hp => exact .of_sublist (List.filter_sublist.map _)
  | finish tokens cmds cuts exits st htokens hcancel hcmds => exact .of_sublist (List.nil_sublist _)
  | _ => exact .of_sublist (List.Sublist.refl _)

theorem Act.incidents_grown (hact : Act g trg d0 d d' cmds) : Grown g d d' .incident := by
  cases hact with
  | defect tok inc hmem hactive hid hkind htok hnode => exact .next rfl (by simp [Desk.held, Desk.seq, hid])
  | fail tok inc hmem hnamed htrg harms hid hkind htok hnode => exact .next rfl (by simp [Desk.held, Desk.seq, hid])
  | report inc hid htok hkind hfailed => exact .next rfl (by simp [Desk.held, Desk.seq, hid])
  | resolve inc tok f cmd arms m armCmds n hd htrg hinc hkind hmem htok hf hcmd hhuman harm =>
    exact .of_sublist (List.eraseP_sublist.map _)
  | resolveGone inc hinc hkind hgone => exact .of_sublist (List.eraseP_sublist.map _)
  | cancel tok hmem harms => exact .of_sublist (List.filter_sublist.map _)
  | retire p hp hfailed => exact .of_sublist (List.filter_sublist.map _)
  | finish tokens cmds cuts exits st htokens hcancel hcmds => exact .of_sublist (List.filter_sublist.map _)
  | _ => exact .of_sublist (List.Sublist.refl _)

theorem Act.timers_grown (hact : Act g trg d0 d d' cmds) : Grown g d d' .timer := by
  cases hact with
  | park tok f tasks nc nt n m cmds armCmds arms gws trs hmem hactive hwait harm =>
    have hn : d.timerSeq ≤ n := by cases hwait <;> omega
    have htrs : (trs.map (·.timerID)).Sublist (parkedTimerIDs arms gws trs) := List.sublist_append_right _ _
    refine ⟨trs.map (·.timerID), fun id hid => ?_, htrs.nodup harm.timers.nodup, ?_⟩
    · obtain ⟨j, hj, hjm, he⟩ := harm.timers.fresh id (htrs.subset hid)
      exact ⟨j, hn.trans_lt hj, hjm, he⟩
    · change ((d.timers ++ trs).map (·.timerID)).Subperm (d.timers.map (·.timerID) ++ trs.map (·.timerID))
      rw [List.map_append]
  | rewait tok f tr spec hmem hnamed htrg hf harms htr => exact .next rfl (by simp [Desk.held, Desk.seq, htr])
  | schedule tr spec hid => exact .next rfl (by simp [Desk.held, Desk.seq, hid])
  | dropTimers p fired cmds hfired hcmds => exact .of_sublist (List.filter_sublist.map _)
  | finish tokens cmds cuts exits st htokens hcancel hcmds => exact .of_sublist (List.nil_sublist _)
  | _ => exact .of_sublist (List.Sublist.refl _)

theorem Act.tasks_grown (hids : d.Ids g) (hbooked : d.Booked g) (hact : Act g trg d0 d d' cmds) : Grown g d d' .task := by
  have hsame : ∀ {d' : Desk} {f : HumanTask → HumanTask}, d'.tasks = d.tasks.map f →
    (∀ t ∈ d.tasks, (f t).taskID = t.taskID) →
      Grown g d d' .task := by
    intro d' f htasks hf
    refine .of_sublist ?_
    change (d'.tasks.map (·.taskID)).Sublist (d.tasks.map (·.taskID))
    have hmap : (d.tasks.map f).map (·.taskID) = d.tasks.map (·.taskID) := by
      rw [List.map_map]
      exact List.map_congr_left hf
    rw [htasks, hmap]
  have hnext : ∀ {d' : Desk} {ht : HumanTask}, ht.taskID = g.newID .task (d.taskSeq + 1) → d'.tasks = d.tasks ++ [ht] →
      d'.taskSeq = d.taskSeq + 1 → Grown g d d' .task := by
    intro d' ht hid htasks hseq
    refine .next hseq ?_
    change d'.tasks.map (·.taskID) = d.tasks.map (·.taskID) ++ [g.newID .task (d.taskSeq + 1)]
    rw [htasks, List.map_append, List.map_singleton, hid]
  cases hact.deed hids hbooked with
  | keep cmds htasks hcmds hends => exact hsame (f := id) (by rw [htasks, List.map_id]) (fun _ _ => rfl)
  | post ht spec rest hid hopen hnew htasks hseq hrest hends => exact hnext hid htasks hseq
  | file ht hid hclosed hdone htasks hseq htok hends => exact hnext hid htasks hseq
  | edit task f hmem hopen hf htrg htasks hends =>
    refine hsame htasks (fun t ht => ?_)
    split
    · rename_i he
      rw [List.inj_on_of_nodup_map hbooked.nodup ht hmem (beq_iff_eq.mp he)]
      exact hf.2
    · rfl
  | close id task close hclose hmem hid hopen htasks hends hgone =>
    refine hsame htasks (fun t ht => ?_)
    split
    · exact (hclose t).2
    · rfl
  | finish rest htasks hrest hends =>
    refine hsame htasks (fun t ht => ?_)
    split <;> rfl

/-- What an act adds was minted by it. -/
theorem Act.grown (hids : d.Ids g) (hbooked : d.Booked g) (hact : Act g trg d0 d d' cmds) (k : IDKind) : Grown g d d' k := by
  cases k with
  | token => exact hact.tokens_grown
  | task => exact hact.tasks_grown hids hbooked
  | command => exact .of_sublist (List.nil_sublist _)
  | timer => exact hact.timers_grown
  | incident => exact hact.incidents_grown
  | scope => exact hact.scopes_grown

/-! ## Operations -/

/-- What an operation names and adds, it minted. -/
structure Mints (g : IDGenerator) (d d' : Desk) (cmds : List Command) : Prop where
  le : ∀ k, d.seq k ≤ d'.seq k
  named : Coined g d d' (cmds.filterMap Command.named?)
  grown : ∀ k, Grown g d d' k

theorem Mints.nil : Mints g d d [] := ⟨fun _ => le_rfl, .nil, fun _ => .of_sublist (List.Sublist.refl _)⟩

theorem Mints.append (h : Mints g d d1 cmds) (h' : Mints g d1 d' cmds') : Mints g d d' (cmds ++ cmds') where
  le := fun k => (h.le k).trans (h'.le k)
  named := by
    rw [List.filterMap_append]
    exact h.named.append h'.named h.le h'.le
  grown := fun k => (h.grown k).trans (h'.grown k) (h.le k) (h'.le k)

theorem Mints.perm (h : Mints g d d' cmds) (hp : cmds.Perm cmds') : Mints g d d' cmds' :=
  ⟨h.le, h.named.perm (hp.filterMap _), h.grown⟩

theorem Act.mints (hids : d.Ids g) (hbooked : d.Booked g) (hact : Act g trg d0 d d' cmds) : Mints g d d' cmds :=
  ⟨hact.le, hact.coined, hact.grown hids hbooked⟩

theorem Acts.mints (hop : g.Opaque) (hacts : Acts g trg d0 d d' cmds) (hids : d.Ids g) (hb : d.Bounded g)
    (hbooked : d.Booked g) :
    Mints g d d' cmds := by
  induction hacts with
  | nil d => exact .nil
  | cons hact hrest hperm ih =>
    have hall := ih (hact.ids hids) ((Billed.start hb).act hop hids hact).bounded (hact.booked hop hids hb hbooked)
    exact ((hact.mints hids hbooked).append hall).perm hperm
  | stray hs d' cs => exact absurd hids.sane hs

/-! ## The filter -/

theorem dropStaleCommand_named (live : List String) (s : InstanceState) (cmd : Command) :
    ((dropStaleCommand live s cmd).commands.filterMap Command.named?).Sublist ([cmd].filterMap Command.named?) := by
  unfold dropStaleCommand
  split
  · exact List.Sublist.refl _
  · split
    · split
      · split <;> exact List.nil_sublist _
      · exact List.nil_sublist _
    · exact List.nil_sublist _

/-- The filter names nothing of its own. -/
theorem dropStaleCommands_named (live : List String) (cmds : List Command) (s : InstanceState) :
    ((dropStaleCommands live cmds s).commands.filterMap Command.named?).Sublist (cmds.filterMap Command.named?) := by
  induction cmds generalizing s with
  | nil => exact List.Sublist.refl _
  | cons cmd cmds ih =>
    change (((dropStaleCommand live s cmd).commands ++
      (dropStaleCommands live cmds (dropStaleCommand live s cmd).state).commands).filterMap Command.named?).Sublist
        (([cmd] ++ cmds).filterMap Command.named?)
    rw [List.filterMap_append, List.filterMap_append]
    exact (dropStaleCommand_named live s cmd).append (ih _)

theorem Mints.filtered {x : InstanceState} {r : StepResult} (h : Mints g x.desk r.state.desk r.commands) :
    Mints g x.desk (dropStaleTokenCommands r).state.desk (dropStaleTokenCommands r).commands := by
  obtain ⟨tasks, hdesk⟩ := dropStaleTokenCommands_desk r
  have hseq : (dropStaleTokenCommands r).state.desk.seq = r.state.desk.seq := by
    rw [hdesk]
    rfl
  have htasks : (dropStaleTokenCommands r).state.desk.held .task = r.state.desk.held .task := by
    rw [dropStaleTokenCommands_eq]
    exact (dropStaleCommands_ids _ _ _).1
  have hheld : (dropStaleTokenCommands r).state.desk.held = r.state.desk.held := by
    funext k
    by_cases htask : k = .task
    · rw [htask, htasks]
    · rw [hdesk]
      cases k <;> first | rfl | exact absurd rfl htask
  have hsince : Since g x.desk (dropStaleTokenCommands r).state.desk = Since g x.desk r.state.desk := by
    unfold Since
    rw [hseq]
  refine ⟨fun k => hseq ▸ h.le k, ⟨?_, ?_⟩, fun k => ?_⟩
  · rw [hsince, dropStaleTokenCommands_eq]
    exact fun k id hin => h.named.since k id ((dropStaleCommands_named _ _ _).subset hin)
  · rw [dropStaleTokenCommands_eq]
    exact (dropStaleCommands_named _ _ _).nodup h.named.nodup
  · unfold Grown
    rw [hsince, hheld]
    exact h.grown k

/-! ## Runs -/

/-- The commands go out on the way to the state. -/
inductive Issues (p : ProcessDefinition) (gen : Option IDGenerator) (x : InstanceState) : List Command → InstanceState → Prop
  | refl : Issues p gen x [] x
  | tail {cmds : List Command} {y : InstanceState} (h : Issues p gen x cmds y) (call : Call) (r : StepResult)
      (hgen : call.opt.idGenerator = gen) (hstep : step call.fuel p y call.trigger call.opt = .ok r) :
      Issues p gen x (cmds ++ r.commands) r.state

variable {p : ProcessDefinition} {gen : Option IDGenerator} {inst : String} {x y z : InstanceState}

theorem step_mints (hop : (runIDs gen inst).Opaque) (hx : Steady gen inst x) {call : Call} (hgen : call.opt.idGenerator = gen)
    {r : StepResult} (hstep : step call.fuel p x call.trigger call.opt = .ok r) :
    Mints (runIDs gen inst) x.desk r.state.desk r.commands := by
  have hgens : call.opt.ids x.instanceID = runIDs gen inst := by
    unfold StepOptions.ids runIDs
    rw [hgen, hx.sound.instanceID]
  obtain ⟨r0, hdoes, rfl⟩ := step_does hx.sound.wf.phase.status.mp hstep
  rw [hgens] at hdoes
  exact (Acts.mints hop hdoes hx.ids hx.bounded hx.booked).filtered

/-- Whatever goes on, every id is minted once. -/
theorem Issues.mints (hop : (runIDs gen inst).Opaque) (h : Issues p gen x cmds y) (hx : Steady gen inst x) :
    Steady gen inst y ∧ Mints (runIDs gen inst) x.desk y.desk cmds := by
  induction h with
  | refl => exact ⟨hx, .nil⟩
  | tail h call r hgen hstep ih =>
    obtain ⟨hy, hmints⟩ := ih
    exact ⟨(step_tells hop hy hgen hstep).1, hmints.append (step_mints hop hy hgen hstep)⟩

theorem Issues.steps (h : Issues p gen x cmds y) : ∃ calls, Steps p gen x calls y := by
  induction h with
  | refl => exact ⟨[], .refl⟩
  | tail h call r hgen hstep ih =>
    obtain ⟨calls, hsteps⟩ := ih
    exact ⟨calls ++ [call], hsteps.tail call r hgen hstep⟩

theorem Issues.trans (h : Issues p gen x cmds y) (h' : Issues p gen y cmds' z) : Issues p gen x (cmds ++ cmds') z := by
  induction h' with
  | refl => rwa [List.append_nil]
  | tail h' call r hgen hstep ih =>
    rw [← List.append_assoc]
    exact ih.tail call r hgen hstep

theorem Steps.issues {calls : List Call} (h : Steps p gen x calls y) : ∃ cmds, Issues p gen x cmds y := by
  induction h with
  | refl => exact ⟨[], .refl⟩
  | tail h call r hgen hstep ih =>
    obtain ⟨cmds, hissues⟩ := ih
    exact ⟨cmds ++ r.commands, hissues.tail call r hgen hstep⟩

/-- The number of the last id of the kind. -/
def InstanceState.seq (s : InstanceState) : IDKind → Nat
  | .token => s.tokenSeq
  | .task => s.taskSeq
  | .command => s.cmdSeq
  | .timer => s.timerSeq
  | .incident => s.incidentSeq
  | .scope => s.scopeSeq

/-- The ids of the kind. A command is not kept: it goes out. -/
def InstanceState.held (s : InstanceState) : IDKind → List String
  | .token => s.tokens.map (·.id)
  | .task => s.tasks.map (·.taskID)
  | .command => []
  | .timer => s.timers.map (·.timerID)
  | .incident => s.incidents.map (·.id)
  | .scope => s.scopes.map (·.id)

theorem desk_seq (s : InstanceState) (k : IDKind) : s.desk.seq k = s.seq k := by cases k <;> rfl

theorem desk_held (s : InstanceState) (k : IDKind) : s.desk.held k = s.held k := by
  cases k with
  | scope =>
    change (s.scopes.map Scope.bare).map (·.id) = _
    rw [List.map_map]
    rfl
  | _ => rfl

/-- What a run from the blank instance leaves behind is its own. -/
theorem Mints.blank (h : Mints g ({ instanceID := inst } : InstanceState).desk x.desk cmds) (k : IDKind) :
    (x.held k).Nodup ∧ ∀ id ∈ x.held k, Minted g k (x.seq k) id := by
  have hnone : ({ instanceID := inst } : InstanceState).desk.held k = [] := by cases k <;> rfl
  have hold : ∀ id ∈ ({ instanceID := inst } : InstanceState).desk.held k,
      Minted g k (({ instanceID := inst } : InstanceState).desk.seq k) id := by
    rw [hnone]
    exact fun id hid => by cases hid
  rw [← desk_held, ← desk_seq]
  refine ⟨(h.grown k).nodup ?_ hold, (h.grown k).minted (h.le k) hold⟩
  rw [hnone]
  exact List.nodup_nil

/-- The account of everything a run began to wait for. -/
theorem run_billed {calls : List Call} (hop : (runIDs gen inst).Opaque) (hrun : Run p gen inst calls x) :
    x.desk.Ids (runIDs gen inst) ∧
      ∃ cmds, Billed (runIDs gen inst) ({ instanceID := inst } : InstanceState).desk x.desk cmds := by
  refine Heeds.desk_induction (P := fun _ _ => True)
    (I := fun d => ∃ cmds, Billed (runIDs gen inst) ({ instanceID := inst } : InstanceState).desk d cmds)
    ⟨[], .start (blank_bounded _ inst)⟩ ?_ ?_ hrun (fun _ _ _ _ _ _ => trivial)
  · rintro s trg d d' cmds' - - - hids ⟨cmds, h⟩ hact
    exact ⟨cmds ++ cmds', h.act hop hids hact⟩
  · rintro d tasks ⟨cmds, h⟩
    exact ⟨cmds, ⟨⟨h.bounded.command, h.bounded.task, h.bounded.walk, h.bounded.walkTask⟩, h.cmdSeq,
      h.taskSeq, h.fresh, h.nodup,
      h.token, h.cursor, h.one, h.other⟩⟩

/-- The id of a command or a task of the instance. -/
def AnswerID (g : IDGenerator) (id : String) : Prop := ∃ n, 0 < n ∧ (id = g.newID .command n ∨ id = g.newID .task n)

theorem AnswerID.since (h : AnswerID g id) (inst : String) : MintedSince g { instanceID := inst } id := by
  obtain ⟨n, hn, hid | hid⟩ := h
  · exact Or.inl ⟨n, hn, hid⟩
  · exact Or.inr ⟨n, hn, hid⟩

/-- One waits for an id at most. -/
theorem awaiters_le_one {calls : List Call} (hop : (runIDs gen inst).Opaque) (hrun : Run p gen inst calls x)
    (hid : AnswerID (runIDs gen inst) id) : awaiters x id ≤ 1 := by
  obtain ⟨hids, cmds, hbilled⟩ := run_billed hop hrun
  by_cases hzero : awaiters x id = 0
  · rw [hzero]
    exact Nat.zero_le 1
  · have hw := awaited_of_awaiters hzero
    exact (hbilled.awaiters_eq_one hids ((hid.since inst).fresh hbilled.bounded hw) hw).le

/-- The token that waits for the id is the one that is found by it. -/
theorem tokenAwaiting_eq {t : Token} (hone : awaiters x t.awaitCommand ≤ 1) (hne : t.awaitCommand ≠ "") (ht : t ∈ x.tokens) :
    x.toControlState.tokenAwaiting t.awaitCommand = some t ∧ x.compensating.activeCmdID ≠ t.awaitCommand := by
  unfold awaiters at hone
  have hmem : t ∈ x.tokens.filter (fun t' => t'.awaitCommand == t.awaitCommand) := List.mem_filter.mpr ⟨ht, by simp⟩
  have hpos := List.length_pos_of_mem hmem
  constructor
  · have hlen : (x.tokens.filter (fun t' => t'.awaitCommand == t.awaitCommand)).length = 1 := by omega
    obtain ⟨t', he⟩ := List.length_eq_one_iff.mp hlen
    rw [he, List.mem_singleton] at hmem
    unfold ControlState.tokenAwaiting
    rw [if_neg (by simpa using hne), ← List.head?_filter, he, hmem]
    rfl
  · intro he
    rw [if_pos (by simpa using he)] at hone
    omega

/-- The ids of a run that comes by two states to a third, the last commands on the last way. -/
structure NoCollision (g : IDGenerator) (cmds last : List Command) (y z x : InstanceState) : Prop where
  /-- No two commands bring the same id of a kind into the world. -/
  named : ((cmds ++ last).filterMap Command.named?).Nodup
  /-- No two things of a kind share an id. -/
  held : ∀ k, (x.held k).Nodup
  /-- Who has an id at two times has it all the time between. -/
  kept : ∀ k, ∀ id ∈ y.held k, id ∈ x.held k → id ∈ z.held k
  /-- A number given out is not given again, were it to what was there and gone within one step. -/
  spent : ∀ k, ∀ n ≤ z.seq k, g.newID k n ∉ z.held k → g.newID k n ∉ x.held k
  /-- Nor does a later command bring it. -/
  fresh : ∀ k, ∀ n ≤ z.seq k, (k, g.newID k n) ∉ last.filterMap Command.named?
  /-- One waits for an id at most. -/
  awaited : ∀ id, AnswerID g id → awaiters x id ≤ 1
  /-- The token that waits for an id is the one that is found by it. -/
  found : ∀ t ∈ x.tokens, AnswerID g t.awaitCommand →
    x.toControlState.tokenAwaiting t.awaitCommand = some t ∧ x.compensating.activeCmdID ≠ t.awaitCommand

/-- With the built-in ids no id of a run is given twice, and one waits for an id at most. -/
theorem ids_never_collide {cmds cmds' last : List Command} (hy : Issues p none { instanceID := inst } cmds y)
    (hz : Issues p none y cmds' z) (hx : Issues p none z last x) :
    NoCollision (counterIDs inst) (cmds ++ cmds') last y z x := by
  have hop : (runIDs none inst).Opaque := counterIDs_opaque inst
  obtain ⟨hsy, hmy⟩ := hy.mints hop (blank_steady none inst)
  obtain ⟨hsz, hmz⟩ := hz.mints hop hsy
  obtain ⟨-, hmx⟩ := hx.mints hop hsz
  have hall := (hmy.append hmz).append hmx
  obtain ⟨calls, hrun⟩ := ((hy.trans hz).trans hx).steps
  have hspent : ∀ k id, Minted (counterIDs inst) k (z.seq k) id → id ∈ x.held k → id ∈ z.held k := by
    intro k id hid hin
    rw [← desk_held] at hin ⊢
    exact (hmx.grown k).held hin (by rwa [desk_seq])
  have hone : ∀ id, AnswerID (counterIDs inst) id → awaiters x id ≤ 1 := fun id hid => awaiters_le_one hop hrun hid
  refine ⟨hall.named.nodup, fun k => (hall.blank k).1, fun k id hid hin => ?_, fun k n hn hgone hin =>
    ?_, fun k n hn hin => ?_,
    hone, fun t ht hid => tokenAwaiting_eq (hone _ hid) (hid.since inst).ne_empty ht⟩
  · have hle := hmz.le k
    rw [desk_seq, desk_seq] at hle
    exact hspent k id (((hmy.blank k).2 id hid).mono hle) hin
  · exact hgone (hspent k _ ⟨n, hn, rfl⟩ hin)
  · obtain ⟨m, hm, -, he⟩ := hmx.named.since k _ hin
    rw [desk_seq] at hm
    have := ((counterIDs inst).newID_inj _ _ _ _ he).2
    omega

/-- A token waits, goes on and is gone: neither it nor its command comes again. -/
theorem completed_ids_stay_apart : ∃ y z x cmds last, Issues triedOnce none { instanceID := "i" } cmds z ∧
    Issues triedOnce none z last x ∧ (y.seq .command, z.seq .command, x.seq .command) = (1, 2, 2) ∧
    y.held .token = ["i-t1"] ∧ x.held .token = [] ∧ NoCollision (counterIDs "i") cmds last y z x := by
  have hplay : playsThrough triedOnce [.startInstance [] ""] (.actionCompleted "i-c1" []) [.actionCompleted "i-c2" []]
      (fun y r x => (y.seq .command, r.state.seq .command, x.seq .command) == (1, 2, 2) &&
        y.held .token == ["i-t1"] && x.held .token == []) = true := by decide
  obtain ⟨y, r, x, hrun, hstep, hlater, hP⟩ := run_of_playsThrough hplay
  simp only [Bool.and_eq_true, beq_iff_eq] at hP
  obtain ⟨cmds, hy⟩ := Steps.issues hrun
  obtain ⟨last, hx⟩ := hlater.issues
  have hz : Issues triedOnce none y ([] ++ r.commands) r.state := Issues.refl.tail ⟨50, _, plainOptions⟩ r rfl hstep
  exact ⟨y, r.state, x, _, last, hy.trans hz, hx, hP.1.1, hP.1.2, hP.2, ids_never_collide hy hz hx⟩

end Wrkflw
