import Wrkflw.Property.Mirror
import Wrkflw.Runtime.Views
import Wrkflw.Library.Runs

/-!
# The views follow the last committed state

Where no call commits while another has work of an earlier commit left, the task store, the signal bus, the table of
message waiters and the activated timers show the last committed state as soon as no work is left. Where calls
overtake each other, the work of an older commit is done after that of a newer one, and stays.

* `prepare_tells` : a step of the driver says of the tasks what it does to them, with their candidates;
* `Progress` : the views, with the work of the last commit that is left; `Progress.start`, `Progress.does`;
* `ViewedInstance.Advances` : what a transition of a call can be; `ViewedInstance.Lined` : what holds along a run in order;
* the result for runs, and a record that stays behind where calls overtake each other.
-/

namespace Wrkflw

open ControlState

variable {gen : Option IDGenerator} {inst : String}

/-! ## What the driver commits -/

section Prepare
variable {driver : ProcessDriver gen} {fuel : Nat} {d : ProcessDefinition} {s s' : InstanceState}
  {t : Trigger} {r : StepResult}
  {outcome : Option CallOutcome} {cmds : List Command} {ht : HumanTask}

theorem mem_updateFirst_task {q : HumanTask → Bool} {f : HumanTask → HumanTask} {tasks : List HumanTask}
    (h : ht ∈ updateFirst q f tasks) : ht ∈ tasks ∨ ∃ ht0 ∈ tasks, q ht0 = true ∧ ht = f ht0 := by
  induction tasks with
  | nil => cases h
  | cons a l ih =>
    change ht ∈ (if q a then f a :: l else a :: updateFirst q f l) at h
    split at h
    · rename_i hq
      rcases List.mem_cons.mp h with rfl | h
      · exact Or.inr ⟨a, List.mem_cons_self, hq, rfl⟩
      · exact Or.inl (List.mem_cons_of_mem _ h)
    · rcases List.mem_cons.mp h with rfl | h
      · exact Or.inl List.mem_cons_self
      · rcases ih h with hin | ⟨ht0, hin, hq, he⟩
        · exact Or.inl (List.mem_cons_of_mem _ hin)
        · exact Or.inr ⟨ht0, List.mem_cons_of_mem _ hin, hq, he⟩

/-- Only the tasks that are asked for get candidates. -/
theorem resolveHumanCandidates_tasks (h : driver.resolveHumanCandidates s cmds = .ok s') :
    s'.tasks.map (·.taskID) = s.tasks.map (·.taskID) ∧ ∀ ht' ∈ s'.tasks, ∃ ht ∈ s.tasks, ∃ candidates,
      ht' = { ht with candidates := candidates } ∧ (ht' = ht ∨ ∃ spec, Command.awaitHuman ht.taskID spec ∈ cmds) := by
  induction cmds generalizing s with
  | nil =>
    cases h
    exact ⟨rfl, fun ht' hht' => ⟨ht', hht', ht'.candidates, rfl, Or.inl rfl⟩⟩
  | cons cmd cmds ih =>
    have hskip : driver.resolveHumanCandidates s cmds = .ok s' → s'.tasks.map (·.taskID) = s.tasks.map (·.taskID) ∧
        ∀ ht' ∈ s'.tasks, ∃ ht ∈ s.tasks, ∃ candidates, ht' = { ht with candidates := candidates } ∧
          (ht' = ht ∨ ∃ spec, Command.awaitHuman ht.taskID spec ∈ cmd :: cmds) := by
      intro hrest
      obtain ⟨hids, hall⟩ := ih hrest
      refine ⟨hids, fun ht' hht' => ?_⟩
      obtain ⟨ht, hht, candidates, he, hwhy⟩ := hall ht' hht'
      refine ⟨ht, hht, candidates, he, hwhy.imp_right (fun ⟨spec, hin⟩ => ⟨spec, List.mem_cons_of_mem _ hin⟩)⟩
    unfold ProcessDriver.resolveHumanCandidates at h
    split at h
    · rename_i heq
      cases heq
    · rename_i taskID eligibility cmds' heq
      cases heq
      split at h
      · cases h
      · split at h
        · cases h
        · rename_i actors hactors
          split at h
          · cases h
          · obtain ⟨hids, hall⟩ := ih h
            have hsame : (s.updateTask taskID (fun t => { t with candidates := actors })).tasks.map (·.taskID) =
                s.tasks.map (·.taskID) :=
                  updateFirst_ids (f := fun t => { t with candidates := actors }) (fun _ => rfl) s.tasks
            refine ⟨hids.trans hsame, fun ht' hht' => ?_⟩
            obtain ⟨ht, hht, candidates, he, hwhy⟩ := hall ht' hht'
            rcases mem_updateFirst_task hht with hin | ⟨ht0, hin, hq, rfl⟩
            · exact ⟨ht, hin, candidates, he, hwhy.imp_right (fun ⟨spec, hm⟩ => ⟨spec, List.mem_cons_of_mem _ hm⟩)⟩
            · have hid : ht0.taskID = taskID := by simpa using hq
              refine ⟨ht0, hin, candidates, he, Or.inr ⟨eligibility, ?_⟩⟩
              rw [hid]
              exact List.mem_cons_self
    · rename_i heq
      cases heq
      exact hskip h

/-- The task was opened, and is still as it was but for its candidates. -/
theorem Told.asked {old : List HumanTask} {said : List Command} {spec : AuthzSpec} (h : Told old inst ht said)
    (hin : Command.awaitHuman ht.taskID spec ∈ said) (candidates : List Actor) :
    Told old inst { ht with candidates := candidates } said := by
  cases h with
  | same h => cases hin
  | filed h hnew => cases hin
  | updated => exact absurd (List.mem_singleton.mp hin) (by simp)
  | posted spec' h hnew =>
    have hsame : Told old inst { ht with candidates := candidates }
        [.awaitHuman ({ ht with candidates := candidates } : HumanTask).taskID spec'] :=
      .posted spec' ⟨h.state, h.claim, h.completion, h.eligibility, h.instanceID⟩ hnew
    exact hsame

/-- What the driver commits says of the tasks what it does to them. -/
theorem prepare_tells (hop : (runIDs gen inst).Opaque) (hs : Steady gen inst s)
    (h : driver.prepare fuel d s t = some (.ok (r, outcome))) : Steady gen inst r.state ∧ Tells s r := by
  have hsound := prepare_sound hs.sound h
  obtain ⟨r0, hstep, hres, hcmds, -⟩ := prepare_resolves h
  have hgen : (⟨fuel, t, driver.stepOptions d s t⟩ : Call).opt.idGenerator = gen := rfl
  obtain ⟨hsteady, htells⟩ := step_tells hop hs hgen hstep
  obtain ⟨⟨tasks, hstate⟩, -⟩ := resolveHumanCandidates_ok hres
  obtain ⟨hids, hall⟩ := resolveHumanCandidates_tasks hres
  have hdesk : r.state.desk = { r0.state.desk with tasks := tasks } := by
    rw [hstate]
    rfl
  have hback : ∀ {id : String}, (∃ ht ∈ r0.state.tasks, ht.taskID = id) → ∃ ht ∈ r.state.tasks, ht.taskID = id := by
    rintro id ⟨ht, hht, rfl⟩
    have hin : ht.taskID ∈ r.state.tasks.map (·.taskID) := hids.symm ▸ List.mem_map_of_mem hht
    exact List.mem_map.mp hin
  refine ⟨⟨hsound, ?_, ?_, ?_⟩, fun ht' hht' => ?_, fun o ho => hback (htells.kept o ho), fun cmd hcmd id hreg => ?_⟩
  · rw [hdesk]
    exact ⟨hsteady.ids.minted, hsteady.ids.nodup, hsteady.ids.finals, hsteady.ids.queue⟩
  · rw [hdesk]
    exact ⟨hsteady.bounded.command, hsteady.bounded.task, hsteady.bounded.walk, hsteady.bounded.walkTask⟩
  · have htasks : r.state.desk.tasks.map (·.taskID) = r0.state.desk.tasks.map (·.taskID) := hids
    have hseq : r.state.desk.taskSeq = r0.state.desk.taskSeq := by rw [hdesk]
    have htok : r.state.desk.tokens = r0.state.desk.tokens := by rw [hdesk]
    refine ⟨fun ht hht => ?_, htasks ▸ hsteady.booked.nodup, htok ▸ hsteady.booked.one⟩
    have hin : ht.taskID ∈ r0.state.desk.tasks.map (·.taskID) := htasks ▸ List.mem_map_of_mem hht
    obtain ⟨ht0, hmem0, he⟩ := List.mem_map.mp hin
    rw [hseq, ← he]
    exact hsteady.booked.minted ht0 hmem0
  · obtain ⟨ht, hht, candidates, he, hwhy⟩ := hall ht' hht'
    have htold := htells.told ht hht
    rw [hcmds]
    rcases hwhy with rfl | ⟨spec, hin⟩
    · exact htold
    · rw [he]
      exact htold.asked (awaitHuman_mem_about hin) candidates
  · rw [hcmds] at hcmd
    exact hback (htells.only cmd hcmd id hreg)

end Prepare

/-! ## The views and the work that is left -/

/-- What the work that is left says of the tasks. -/
def PostCommit.command? : PostCommit → Option Command
  | .perform cmd => some cmd
  | _ => none

def PostCommit.timer? : PostCommit → Option (String × Bool)
  | .activate timerID => some (timerID, true)
  | .deactivate timerID => some (timerID, false)
  | _ => none

def setTimers (on : String → Bool) (todo : List PostCommit) : String → Bool :=
  (todo.filterMap PostCommit.timer?).foldl (fun on x => Function.update on x.1 x.2) on

/-- The record of the task is the task. An immediate manual task gets no record. -/
def Recorded (records : String → Option HumanTask) (ht : HumanTask) : Prop :=
  records ht.taskID = some ht ∨ records ht.taskID = none ∧ ht.Immediate

/-- The record is right, or it is about to be. -/
inductive Due (records : String → Option HumanTask) (instanceID : String) (ht : HumanTask) : List Command → Prop
  | right (h : Recorded records ht) : Due records instanceID ht []
  | update : Due records instanceID ht [.updateTask ht]
  | post (spec : AuthzSpec) (h : ht.Posted spec instanceID) : Due records instanceID ht [.awaitHuman ht.taskID spec]

/-- The views will show the state when the work is done. -/
structure Progress (v : Views) (s : InstanceState) (rows : String → Option Bool) (todo : List PostCommit) : Prop where
  record : ∀ ht ∈ s.tasks, Due v.tasks s.instanceID ht (about ht.taskID (todo.filterMap PostCommit.command?))
  only : ∀ id ht, v.tasks id = some ht → ∃ ht' ∈ s.tasks, ht'.taskID = id
  named : ∀ cmd ∈ todo.filterMap PostCommit.command?, ∀ id, cmd.regards id = true → ∃ ht ∈ s.tasks, ht.taskID = id
  signals : PostCommit.syncSignalBus ∈ todo ∨ ∀ name, v.signals name = (!s.status.isTerminal && s.signalWaiters.contains name)
  messages : PostCommit.syncMsgWaiters ∈ todo ∨ ∀ k, v.messages k = if s.awaits k then some s.instanceID else none
  own : ∀ k id, v.messages k = some id → id = s.instanceID
  timers : ∀ id, setTimers v.timers todo id = (rows id).isSome

section Progress
variable {g : IDGenerator} {v : Views} {s : InstanceState} {rows : String → Option Bool}
  {todo : List PostCommit} {r : StepResult} {now : Time}

theorem ofTimer_regards {cmd : Command} (h : cmd.ofTimer = true) (id : String) : cmd.regards id = false := by
  cases cmd with
  | scheduleTimer _ _ _ _ => rfl
  | cancelTimer _ => rfl
  | _ => cases h

theorem postCommit_commands (arms : List (String × Bool)) (cancels : List String) (cmds : List Command) :
    (postCommit arms cancels cmds).filterMap PostCommit.command? = cmds.filter (fun cmd => !cmd.ofTimer) := by
  have hnone : ∀ l : List PostCommit, (∀ item ∈ l, item.command? = none) → l.filterMap PostCommit.command? = [] :=
    fun l hl => List.filterMap_eq_nil_iff.mpr hl
  unfold postCommit
  rw [List.filterMap_append, hnone, List.nil_append, List.filterMap_map]
  · exact List.filterMap_some
  · intro item hitem
    rcases List.mem_append.mp hitem with hitem | hitem
    · rcases List.mem_append.mp hitem with hitem | hitem
      · obtain ⟨arm, -, rfl⟩ := List.mem_map.mp hitem
        rfl
      · obtain ⟨id, -, rfl⟩ := List.mem_map.mp hitem
        rfl
    · rcases List.mem_cons.mp hitem with rfl | hitem
      · rfl
      · rw [List.mem_singleton.mp hitem]
        rfl

/-- The commands of timers say nothing of tasks. -/
theorem about_postCommit (arms : List (String × Bool)) (cancels : List String) (cmds : List Command) (id : String) :
    about id ((postCommit arms cancels cmds).filterMap PostCommit.command?) = about id cmds := by
  rw [postCommit_commands]
  unfold about
  rw [List.filter_filter]
  refine List.filter_congr (fun cmd _ => ?_)
  cases htimer : cmd.ofTimer with
  | true => rw [ofTimer_regards htimer id]; rfl
  | false => simp

theorem foldl_update_isSome (writes : List (String × Option Bool)) {on : String → Bool} (h : ∀ id, on id = (rows id).isSome)
    (id : String) :
    writes.foldl (fun (on : String → Bool) x => Function.update on x.1 x.2.isSome) on id =
      (writes.foldl (fun (rows : String → Option Bool) x => Function.update rows x.1 x.2) rows id).isSome := by
  induction writes generalizing on rows with
  | nil => exact h id
  | cons x writes ih =>
    refine ih (fun id => ?_)
    dsimp only
    by_cases he : id = x.1
    · subst he
      simp
    · rw [Function.update_of_ne he, Function.update_of_ne he]
      exact h id

theorem postCommit_timers (arms : List (String × Bool)) (cancels : List String) (cmds : List Command) :
    (postCommit arms cancels cmds).filterMap PostCommit.timer? =
      arms.map (fun arm => (arm.1, true)) ++ cancels.map (fun id => (id, false)) := by
  have harms : arms.filterMap (PostCommit.timer? ∘ fun arm => PostCommit.activate arm.1) = arms.map
    (fun arm => (arm.1, true)) :=
    congrFun List.filterMap_eq_map arms
  have hcancels : cancels.filterMap (PostCommit.timer? ∘ PostCommit.deactivate) = cancels.map (fun id => (id, false)) :=
    congrFun List.filterMap_eq_map cancels
  have hcmds : (cmds.filter (fun cmd => !cmd.ofTimer)).filterMap (PostCommit.timer? ∘ PostCommit.perform) = [] :=
    List.filterMap_eq_nil_iff.mpr (fun _ _ => rfl)
  unfold postCommit
  rw [List.filterMap_append, List.filterMap_append, List.filterMap_append, List.filterMap_map, List.filterMap_map,
    List.filterMap_map, harms, hcancels, hcmds, List.append_nil]
  exact List.append_nil _

/-- The activated timers come to be those that have a row. -/
theorem setTimers_postCommit (arms : List (String × Bool)) (cancels : List String) (cmds : List Command) {on : String → Bool}
    (h : ∀ id, on id = (rows id).isSome) (id : String) :
    setTimers on (postCommit arms cancels cmds) id = (saveTimers rows arms cancels id).isSome := by
  have hwrites := foldl_update_isSome (arms.map (fun arm => (arm.1, some arm.2)) ++ cancels.map (fun id => (id, none))) h id
  rw [List.foldl_append, List.foldl_append, List.foldl_map, List.foldl_map, List.foldl_map, List.foldl_map] at hwrites
  unfold setTimers saveTimers
  rw [postCommit_timers, List.foldl_append, List.foldl_map, List.foldl_map]
  exact hwrites

/-- A commit leaves the work that shows it. -/
theorem Progress.start (h : Progress v s rows []) (htells : Tells s r) (hinst : r.state.instanceID = s.instanceID)
    (arms : List (String × Bool)) (cancels : List String) :
    Progress v r.state (saveTimers rows arms cancels) (postCommit arms cancels r.commands) where
  record := by
    intro ht hht
    rw [about_postCommit, hinst]
    have htold := htells.told ht hht
    generalize about ht.taskID r.commands = said at htold ⊢
    cases htold with
    | same hold =>
      cases h.record ht hold with
      | right hright => exact .right hright
    | filed hdone hnew =>
      refine .right (Or.inr ⟨?_, hdone⟩)
      cases hrec : v.tasks ht.taskID with
      | none => rfl
      | some o =>
        obtain ⟨o', ho', he⟩ := h.only _ o hrec
        exact absurd he (hnew o' ho')
    | updated => exact .update
    | posted spec hposted hnew => exact .post spec hposted
  only := by
    intro id ht hrec
    obtain ⟨o, ho, rfl⟩ := h.only id ht hrec
    exact htells.kept o ho
  named := by
    intro cmd hcmd id hreg
    rw [postCommit_commands] at hcmd
    exact htells.only cmd (List.mem_filter.mp hcmd).1 id hreg
  signals := Or.inl (by simp [postCommit])
  messages := Or.inl (by simp [postCommit])
  own := fun k id hk => (h.own k id hk).trans hinst.symm
  timers := setTimers_postCommit arms cancels r.commands h.timers

/-- The record that is written for a new task is the task. -/
theorem awaitRecord_posted (hnodup : (s.tasks.map (·.taskID)).Nodup) {ht : HumanTask} (hht : ht ∈ s.tasks)
    (hid : ht.taskID ≠ "")
    {spec : AuthzSpec} (h : ht.Posted spec s.instanceID) : awaitRecord now s ht.taskID spec = ht := by
  have hfind : s.taskByID ht.taskID = some ht := by
    unfold InstanceState.taskByID
    rw [if_neg (by simpa using hid)]
    cases hf : s.tasks.find? (fun t => t.taskID == ht.taskID) with
    | none => exact absurd (List.find?_eq_none.mp hf ht hht) (by simp)
    | some t =>
      have he : t.taskID = ht.taskID := by simpa using List.find?_some hf
      rw [List.inj_on_of_nodup_map hnodup (List.mem_of_find?_eq_some hf) hht he]
  unfold awaitRecord
  rw [hfind]
  obtain ⟨hstate, hclaim, hcompletion, helig, hinst⟩ := h
  cases ht
  subst hstate hclaim hcompletion helig hinst
  rfl

/-- A command that is performed writes the record it says, and no other. -/
theorem Progress.record_perform {cmd : Command} (h : Progress v s rows (.perform cmd :: todo))
    (hnodup : (s.tasks.map (·.taskID)).Nodup) {ht : HumanTask} (hht : ht ∈ s.tasks) (hid : ht.taskID ≠ "") :
    Due (v.does now s (.perform cmd)).tasks s.instanceID ht (about ht.taskID (todo.filterMap PostCommit.command?)) := by
  have hdue : Due v.tasks s.instanceID ht (about ht.taskID (cmd :: todo.filterMap PostCommit.command?)) := h.record ht hht
  unfold about at hdue ⊢
  rw [List.filter_cons] at hdue
  generalize (todo.filterMap PostCommit.command?).filter (Command.regards ht.taskID) = rest at hdue ⊢
  cases hreg : cmd.regards ht.taskID with
  | false =>
    -- the record of this task is not touched
    have hsame : (v.does now s (.perform cmd)).tasks ht.taskID = v.tasks ht.taskID := by
      cases cmd with
      | awaitHuman taskID spec =>
        have hne : taskID ≠ ht.taskID := by simpa [Command.regards] using hreg
        exact Function.update_of_ne hne.symm _ _
      | updateTask task =>
        have hne : task.taskID ≠ ht.taskID := by simpa [Command.regards] using hreg
        exact Function.update_of_ne hne.symm _ _
      | _ => rfl
    rw [hreg, if_neg (by simp)] at hdue
    cases hdue with
    | right hright =>
      refine .right ?_
      unfold Recorded at hright ⊢
      rw [hsame]
      exact hright
    | update => exact .update
    | post spec hposted => exact .post spec hposted
  | true =>
    rw [if_pos hreg] at hdue
    cases hdue with
    | update => exact .right (Or.inl (Function.update_self ..))
    | post spec hposted =>
      refine .right (Or.inl ?_)
      exact (Function.update_self ..).trans (congrArg some (awaitRecord_posted hnodup hht hid hposted))

/-- A piece of the work brings the views on. -/
theorem Progress.does {item : PostCommit} (h : Progress v s rows (item :: todo)) (hb : s.desk.Booked g) :
    Progress (v.does now s item) s rows todo := by
  have hlater : ∀ {a : PostCommit}, a ∈ item :: todo → a ≠ item → a ∈ todo :=
    fun ha hne => (List.mem_cons.mp ha).resolve_left hne
  cases item with
  | activate timerID =>
    exact ⟨h.record, h.only, h.named, h.signals.imp_left (fun hin => hlater hin (by simp)),
      h.messages.imp_left (fun hin => hlater hin (by simp)), h.own, h.timers⟩
  | deactivate timerID =>
    exact ⟨h.record, h.only, h.named, h.signals.imp_left (fun hin => hlater hin (by simp)),
      h.messages.imp_left (fun hin => hlater hin (by simp)), h.own, h.timers⟩
  | syncSignalBus =>
    exact ⟨h.record, h.only, h.named, Or.inr (fun _ => rfl), h.messages.imp_left (fun hin => hlater hin (by simp)), h.own,
      h.timers⟩
  | syncMsgWaiters =>
    have hsynced : ∀ k, (v.does now s .syncMsgWaiters).messages k = if s.awaits k then some s.instanceID else none := by
      intro k
      refine (syncMsgWaiters_eq v.messages s k).trans ?_
      split
      · rfl
      · cases hk : v.messages k with
        | none => simp
        | some id =>
          rw [h.own k id hk]
          simp
    refine ⟨h.record, h.only, h.named, h.signals.imp_left (fun hin => hlater hin (by simp)),
      Or.inr hsynced, fun k id hk => ?_,
      h.timers⟩
    rw [hsynced] at hk
    split at hk
    · exact (Option.some.inj hk).symm
    · cases hk
  | perform cmd =>
    have hnamed : ∀ id, cmd.regards id = true → ∃ ht ∈ s.tasks, ht.taskID = id := h.named cmd List.mem_cons_self
    have honly : ∀ id ht, (v.does now s (.perform cmd)).tasks id = some ht → ∃ ht' ∈ s.tasks, ht'.taskID = id := by
      intro id ht hrec
      by_cases hreg : cmd.regards id = true
      · exact hnamed id hreg
      · refine h.only id ht ?_
        cases cmd with
        | awaitHuman taskID spec =>
          have hne : taskID ≠ id := by simpa [Command.regards] using hreg
          exact (Function.update_of_ne hne.symm _ _).symm.trans hrec
        | updateTask task =>
          have hne : task.taskID ≠ id := by simpa [Command.regards] using hreg
          exact (Function.update_of_ne hne.symm _ _).symm.trans hrec
        | _ => exact hrec
    have hrest : (v.does now s (.perform cmd)).signals = v.signals ∧ (v.does now s (.perform cmd)).messages = v.messages ∧
        (v.does now s (.perform cmd)).timers = v.timers := by
      cases cmd <;> exact ⟨rfl, rfl, rfl⟩
    obtain ⟨hsignals, hmessages, htimers⟩ := hrest
    refine ⟨fun ht hht => h.record_perform hb.nodup hht (hb.minted ht hht).ne_empty, honly,
      fun c hc => h.named c (List.mem_cons_of_mem _ hc), ?_, ?_, ?_, ?_⟩
    · rw [hsignals]
      exact h.signals.imp_left (fun hin => hlater hin (by simp))
    · rw [hmessages]
      exact h.messages.imp_left (fun hin => hlater hin (by simp))
    · rw [hmessages]
      exact h.own
    · rw [htimers]
      exact h.timers

end Progress

/-! ## One transition -/

/-- The work a call has left. -/
def ApplyStage.owed : ApplyStage → List PostCommit
  | .postCommit _ _ _ todo => todo
  | _ => []

/-- The state a call goes by, and its version. -/
def ApplyStage.held : ApplyStage → Option (InstanceState × Option Nat)
  | .iterate st token _ => some (st, token)
  | .postCommit st token _ _ => some (st, token)
  | _ => none

namespace ViewedInstance

/-- The next transition of the call commits. -/
def commits (y : ViewedInstance gen) (c : ApplyCall gen) (w : Tick) : Bool :=
  match c.stage with
  | .iterate st token (t :: _) =>
    decide (token = y.version) && !w.fails && (match c.driver.prepare w.fuel c.definition st t with
      | some (.ok _) => true
      | _ => false)
  | _ => false

/-- No piece of work fails, nor does a timer write without taking its commit back, and no call commits while one has work
left. -/
def inOrder (y : ViewedInstance gen) : ViewChoice gen → Bool
  | .advance i w =>
    match y.calls[i]? with
    | some c => (c.stage.owed.isEmpty || !w.fails) && (!w.fails || w.kept.isNone) &&
      (!y.commits c w || y.calls.all (fun c => c.stage.owed.isEmpty))
    | none => true
  | _ => true

/-- The views show the last committed state. -/
structure Follows (y : ViewedInstance gen) : Prop where
  record : ∀ ht ∈ y.state.tasks, Recorded y.views.tasks ht
  only : ∀ id ht, y.views.tasks id = some ht → ht ∈ y.state.tasks ∧ ht.taskID = id
  signals : ∀ name, y.views.signals name = (!y.state.status.isTerminal && y.state.signalWaiters.contains name)
  messages : ∀ k, y.views.messages k = if y.state.awaits k then some y.instanceID else none
  timers : ∀ id, y.views.timers id = (y.timerRows id).isSome

variable {y z : ViewedInstance gen} {c c' : ApplyCall gen} {w : Tick}

/-- What a transition of a call can be. -/
inductive Advances (y : ViewedInstance gen) (c : ApplyCall gen) (w : Tick) : ViewedInstance gen → ApplyCall gen → Prop
  | idle (c' : ApplyCall gen) (howed : c.stage.owed = []) (howed' : c'.stage.owed = [])
      (hheld : ∀ st token, c'.stage.held = some (st, token) →
        c.stage.held = some (st, token) ∨ ∃ version, y.stored = some (st, version) ∧
        token = some version) : Advances y c w y c'
  | commit (c' : ApplyCall gen) (st : InstanceState) (t : Trigger) (r : StepResult) (outcome : Option CallOutcome)
      (arms : List (String × Bool)) (cancels : List String) (hcommits : y.commits c w = true)
      (hprepare : c.driver.prepare w.fuel c.definition st t = some (.ok (r, outcome)))
      (hheld : c.stage.held = some (st, y.version)) (hheld' : c'.stage.held = some (r.state, some (y.version.getD 0 + 1)))
      (howed' : c'.stage.owed = postCommit arms cancels r.commands) :
      Advances y c w
        { y with stored := some (r.state, y.version.getD 0 + 1), timerRows := saveTimers y.timerRows arms cancels } c'
  | work (c' : ApplyCall gen) (st : InstanceState) (token : Option Nat) (item : PostCommit) (todo : List PostCommit)
      (hheld : c.stage.held = some (st, token)) (hheld' : c'.stage.held = some (st, token))
        (howed : c.stage.owed = item :: todo)
      (howed' : c'.stage.owed = todo) : Advances y c w { y with views := y.views.does w.now st item } c'

theorem loses_owed (c : ApplyCall gen) : c.loses.stage.owed = [] ∧ c.loses.stage.held = none := by
  unfold ApplyCall.loses
  split
  · exact ⟨rfl, rfl⟩
  · exact ⟨rfl, rfl⟩

theorem iterate_advances {st : InstanceState} {token : Option Nat} {t : Trigger} {queue : List Trigger}
    (hstage : c.stage = .iterate st token (t :: queue)) (hkept : w.fails = false ∨ w.kept = none)
    (h : y.iterate c w st token t queue = some (z, c')) : Advances y c w z c' := by
  have howed : c.stage.owed = [] := by
    rw [hstage]
    rfl
  unfold iterate at h
  split at h
  · cases h
  · cases h
    exact .idle _ howed rfl (fun st token hheld => by cases hheld)
  · rename_i r outcome hprepare
    split at h
    · cases h
      obtain ⟨hnone, hheld⟩ := loses_owed c
      exact .idle _ howed hnone (fun st token hsome => by rw [hheld] at hsome; cases hsome)
    · rename_i htoken
      obtain rfl : token = y.version := not_not.mp htoken
      split at h
      · rename_i hfails
        rw [hkept.resolve_left (by rw [hfails]; exact Bool.noConfusion)] at h
        cases h
        exact .idle _ howed rfl (fun st token hheld => by cases hheld)
      · rename_i hfails
        cases h
        refine .commit _ st t r outcome _ _ ?_ hprepare ?_ rfl rfl
        · unfold commits
          rw [hstage]
          simp [hfails, hprepare]
        · rw [hstage]
          rfl

theorem work_advances {st : InstanceState} {token : Option Nat} {queue : List Trigger} {item : PostCommit}
    {todo : List PostCommit} (hstage : c.stage = .postCommit st token queue (item :: todo)) (hfails : w.fails = false) :
    Advances y c w (y.work c w st token queue item todo).1 (y.work c w st token queue item todo).2 := by
  have hheld : c.stage.held = some (st, token) := by
    rw [hstage]
    rfl
  have howed : c.stage.owed = item :: todo := by
    rw [hstage]
    rfl
  unfold work
  rw [hfails]
  cases item <;> exact .work _ st token _ todo hheld rfl howed rfl

theorem advance_advances (hfails : c.stage.owed = [] ∨ w.fails = false) (hkept : w.fails = false ∨ w.kept = none)
    (h : y.advance c w = some (z, c')) : Advances y c w z c' := by
  unfold advance at h
  split at h
  · rename_i hstage
    have howed : c.stage.owed = [] := by
      rw [hstage]
      rfl
    split at h
    · cases h
      exact .idle _ howed rfl (fun st token hheld => by cases hheld)
    · rename_i st version hstored
      cases h
      refine .idle _ howed rfl (fun st token hheld => Or.inr ⟨version, ?_⟩)
      cases hheld
      exact ⟨hstored, rfl⟩
  · rename_i hstage
    cases h
    refine .idle _ ?_ rfl (fun st token hheld => by cases hheld)
    rw [hstage]
    rfl
  · rename_i hstage
    exact iterate_advances hstage hkept h
  · rename_i st token queue hstage
    cases h
    refine .idle _ ?_ rfl (fun st token hheld => Or.inl ?_)
    · rw [hstage]
      rfl
    · rw [hstage]
      exact hheld
  · rename_i st token queue item todo hstage
    have hok : w.fails = false := by
      refine hfails.resolve_left ?_
      rw [hstage]
      exact List.cons_ne_nil _ _
    have hadv := work_advances (y := y) hstage hok
    rw [Option.some.inj h] at hadv
    exact hadv
  · cases h

/-! ## Runs -/

/-- What holds along a run in order. A call goes by a state of its version, and at most one has work left, that of the last
commit. -/
structure Lined (inst : String) (y : ViewedInstance gen) : Prop where
  instanceID : y.instanceID = inst
  steady : Steady gen inst y.state
  held : ∀ c ∈ y.calls, ∀ st token, c.stage.held = some (st, token) →
    Steady gen inst st ∧ token.getD 0 ≤ y.version.getD 0 ∧ (token = y.version → st = y.state)
  current : ∀ c ∈ y.calls, c.stage.owed ≠ [] → ∀ st token, c.stage.held = some (st, token) → token = y.version
  single : y.calls.countP (fun c => !c.stage.owed.isEmpty) ≤ 1
  progress : Progress y.views y.state y.timerRows (y.calls.flatMap (fun c => c.stage.owed))

/-- A call that comes in owes nothing. -/
theorem Lined.comes {inst : String} (h : Lined inst y) (howed : c.stage.owed = [])
    (hheld : ∀ st token, c.stage.held = some (st, token) → st = { instanceID := inst } ∧ token = none) :
    Lined inst { y with calls := y.calls ++ [c] } where
  instanceID := h.instanceID
  steady := h.steady
  held := by
    intro c0 hc0 st token hst
    rcases List.mem_append.mp hc0 with hin | hin
    · exact h.held c0 hin st token hst
    · rw [List.mem_singleton.mp hin] at hst
      obtain ⟨rfl, rfl⟩ := hheld st token hst
      refine ⟨blank_steady gen inst, Nat.zero_le _, fun hversion => ?_⟩
      change none = y.stored.map (·.2) at hversion
      have hnone : y.stored = none := Option.map_eq_none_iff.mp hversion.symm
      change _ = (y.stored.map (·.1)).getD { instanceID := y.instanceID }
      rw [hnone, h.instanceID]
      rfl
  current := by
    intro c0 hc0 howes
    rcases List.mem_append.mp hc0 with hin | hin
    · exact h.current c0 hin howes
    · rw [List.mem_singleton.mp hin] at howes
      exact absurd howed howes
  single := by
    rw [List.countP_append, List.countP_singleton, howed]
    exact h.single
  progress := by
    have hsame : (y.calls ++ [c]).flatMap (fun c => c.stage.owed) = y.calls.flatMap (fun c => c.stage.owed) := by
      rw [List.flatMap_append, List.flatMap_singleton, howed, List.append_nil]
    change Progress y.views y.state y.timerRows ((y.calls ++ [c]).flatMap (fun c => c.stage.owed))
    rw [hsame]
    exact h.progress

section Advance
variable {inst : String} {before after : List (ApplyCall gen)}

theorem flatMap_owed_nil {calls : List (ApplyCall gen)} (h : ∀ c ∈ calls, c.stage.owed = []) :
    calls.flatMap (fun c => c.stage.owed) = [] := List.flatMap_eq_nil_iff.mpr h

/-- Where one call has work left, no other has. -/
theorem Lined.others (h : Lined inst y) (hcalls : y.calls = before ++ c :: after) (howes : c.stage.owed ≠ []) :
    (∀ c0 ∈ before, c0.stage.owed = []) ∧ ∀ c0 ∈ after, c0.stage.owed = [] := by
  have hsingle := h.single
  rw [hcalls, List.countP_append, List.countP_cons, if_pos (by simpa using howes)] at hsingle
  have hbefore : before.countP (fun c => !c.stage.owed.isEmpty) = 0 := by omega
  have hafter : after.countP (fun c => !c.stage.owed.isEmpty) = 0 := by omega
  constructor
  · intro c0 hc0
    simpa using List.countP_eq_zero.mp hbefore c0 hc0
  · intro c0 hc0
    simpa using List.countP_eq_zero.mp hafter c0 hc0

theorem countP_owed_one (hbefore : ∀ c0 ∈ before, c0.stage.owed = []) (hafter : ∀ c0 ∈ after, c0.stage.owed = []) :
    (before ++ c' :: after).countP (fun c => !c.stage.owed.isEmpty) ≤ 1 := by
  have hzero : ∀ {l : List (ApplyCall gen)}, (∀ c0 ∈ l, c0.stage.owed = []) → l.countP (fun c => !c.stage.owed.isEmpty) = 0 :=
    fun hl => List.countP_eq_zero.mpr (fun c0 hc0 => by rw [hl c0 hc0]; simp)
  rw [List.countP_append, List.countP_cons, hzero hbefore, hzero hafter]
  split <;> omega

theorem flatMap_owed_one (hbefore : ∀ c0 ∈ before, c0.stage.owed = []) (hafter : ∀ c0 ∈ after, c0.stage.owed = []) :
    (before ++ c' :: after).flatMap (fun c => c.stage.owed) = c'.stage.owed := by
  rw [List.flatMap_append, List.flatMap_cons, flatMap_owed_nil hbefore, flatMap_owed_nil hafter,
    List.nil_append, List.append_nil]

theorem Lined.advances (hop : (runIDs gen inst).Opaque) (h : Lined inst y) (hcalls : y.calls = before ++ c :: after)
    (hadv : Advances y c w z c') (hord : y.commits c w = true → ∀ c0 ∈ y.calls, c0.stage.owed = []) :
    Lined inst { z with calls := before ++ c' :: after } := by
  have hc : c ∈ y.calls := hcalls ▸ List.mem_append_right _ List.mem_cons_self
  have hmem : ∀ {c0 : ApplyCall gen}, c0 ∈ before ++ c' :: after → c0 = c' ∨ c0 ∈ y.calls := by
    intro c0 hc0
    rw [hcalls]
    rcases List.mem_append.mp hc0 with hin | hin
    · exact Or.inr (List.mem_append_left _ hin)
    · rcases List.mem_cons.mp hin with rfl | hin
      · exact Or.inl rfl
      · exact Or.inr (List.mem_append_right _ (List.mem_cons_of_mem _ hin))
  cases hadv with
  | idle c' howed howed' hheld =>
    refine ⟨h.instanceID, h.steady, fun c0 hc0 st token hst => ?_, fun c0 hc0 howes => ?_, ?_, ?_⟩
    · rcases hmem hc0 with rfl | hin
      · rcases hheld st token hst with hold | ⟨version, hstored, rfl⟩
        · exact h.held c hc st token hold
        · have hstate : st = y.state := by
            unfold state
            rw [hstored]
            rfl
          have hversion : some version = y.version := by
            unfold ViewedInstance.version
            rw [hstored]
            rfl
          rw [hversion, hstate]
          exact ⟨h.steady, le_rfl, fun _ => rfl⟩
      · exact h.held c0 hin st token hst
    · rcases hmem hc0 with rfl | hin
      · exact absurd howed' howes
      · exact h.current c0 hin howes
    · have hsingle := h.single
      rw [hcalls, List.countP_append, List.countP_cons, howed] at hsingle
      change (before ++ c' :: after).countP (fun c => !c.stage.owed.isEmpty) ≤ 1
      rw [List.countP_append, List.countP_cons, howed']
      exact hsingle
    · have hprogress := h.progress
      rw [hcalls, List.flatMap_append, List.flatMap_cons, howed] at hprogress
      change Progress y.views y.state y.timerRows ((before ++ c' :: after).flatMap (fun c => c.stage.owed))
      rw [List.flatMap_append, List.flatMap_cons, howed']
      exact hprogress
  | commit c' st t r outcome arms cancels hcommits hprepare hheld hheld' howed' =>
    have hnone := hord hcommits
    have hbefore : ∀ c0 ∈ before, c0.stage.owed = [] := fun c0 hc0 => hnone c0 (hcalls ▸ List.mem_append_left _ hc0)
    have hafter : ∀ c0 ∈ after, c0.stage.owed = [] :=
      fun c0 hc0 => hnone c0 (hcalls ▸ List.mem_append_right _ (List.mem_cons_of_mem _ hc0))
    obtain ⟨hst, -, hsame⟩ := h.held c hc st y.version hheld
    obtain rfl := hsame rfl
    obtain ⟨hsteady, htells⟩ := prepare_tells hop hst hprepare
    refine ⟨h.instanceID, hsteady, fun c0 hc0 st token hst' => ?_, fun c0 hc0 howes st token hst' => ?_,
      countP_owed_one hbefore hafter, ?_⟩
    · rcases hmem hc0 with rfl | hin
      · rw [hheld'] at hst'
        cases hst'
        exact ⟨hsteady, le_rfl, fun _ => rfl⟩
      · obtain ⟨hold, hle, -⟩ := h.held c0 hin st token hst'
        refine ⟨hold, hle.trans (Nat.le_succ _), fun hversion => ?_⟩
        change token = some (y.version.getD 0 + 1) at hversion
        rw [hversion] at hle
        exact absurd hle (Nat.not_succ_le_self _)
    · rcases hmem hc0 with rfl | hin
      · rw [hheld'] at hst'
        cases hst'
        rfl
      · exact absurd (hnone c0 hin) howes
    · have hprogress := h.progress
      rw [flatMap_owed_nil hnone] at hprogress
      change Progress y.views r.state (saveTimers y.timerRows arms cancels)
        ((before ++ c' :: after).flatMap (fun c => c.stage.owed))
      rw [flatMap_owed_one hbefore hafter, howed']
      exact hprogress.start htells (hsteady.sound.instanceID.trans hst.sound.instanceID.symm) arms cancels
  | work c' st token item todo hheld hheld' howed howed' =>
    have howes : c.stage.owed ≠ [] := by
      rw [howed]
      exact List.cons_ne_nil _ _
    obtain ⟨hbefore, hafter⟩ := h.others hcalls howes
    obtain rfl := h.current c hc howes st token hheld
    obtain ⟨hst, hle, hsame⟩ := h.held c hc st y.version hheld
    obtain rfl := hsame rfl
    refine ⟨h.instanceID, h.steady, fun c0 hc0 st token hst' => ?_, fun c0 hc0 howes' st token hst' => ?_,
      countP_owed_one hbefore hafter, ?_⟩
    · rcases hmem hc0 with rfl | hin
      · rw [hheld'] at hst'
        cases hst'
        exact ⟨hst, hle, fun _ => rfl⟩
      · exact h.held c0 hin st token hst'
    · rcases hmem hc0 with rfl | hin
      · rw [hheld'] at hst'
        cases hst'
        rfl
      · exact h.current c0 hin howes' st token hst'
    · have hprogress := h.progress
      rw [hcalls, flatMap_owed_one hbefore hafter, howed] at hprogress
      change Progress (y.views.does w.now y.state item) y.state y.timerRows
        ((before ++ c' :: after).flatMap (fun c => c.stage.owed))
      rw [flatMap_owed_one hbefore hafter, howed']
      exact hprogress.does h.steady.booked

/-- Every transition in order keeps the views and the work that is left in step with the state. -/
theorem Lined.next (hop : (runIDs gen inst).Opaque) {choice : ViewChoice gen} (h : Lined inst y)
    (hord : y.inOrder choice = true) (hnext : y.next choice = some z) : Lined inst z := by
  cases choice with
  | create driver d trg =>
    cases hnext
    refine h.comes rfl (fun st token hheld => ?_)
    cases hheld
    rw [h.instanceID]
    exact ⟨rfl, rfl⟩
  | apply driver d trg retrying =>
    cases hnext
    exact h.comes rfl (fun st token hheld => by cases hheld)
  | advance i w =>
    obtain ⟨c, hc, hnext⟩ := Option.bind_eq_some_iff.mp hnext
    obtain ⟨⟨z', c'⟩, hadv, hnext⟩ := Option.bind_eq_some_iff.mp hnext
    cases hnext
    unfold inOrder at hord
    dsimp only at hord
    rw [hc] at hord
    simp only [Bool.and_eq_true, Bool.or_eq_true, Bool.not_eq_true', List.isEmpty_iff, List.all_eq_true,
      Option.isNone_iff_eq_none] at hord
    obtain ⟨⟨hfails, hkept⟩, hord⟩ := hord
    obtain ⟨hlt, rfl⟩ := List.getElem?_eq_some_iff.mp hc
    have hsplit : y.calls = y.calls.take i ++ y.calls[i] :: y.calls.drop (i + 1) := by
      rw [List.getElem_cons_drop, List.take_append_drop]
    rw [List.set_eq_take_append_cons_drop, if_pos hlt]
    refine h.advances hop hsplit (advance_advances hfails hkept hadv) (fun hcommits c0 hc0 => ?_)
    rcases hord with hno | hall
    · rw [hcommits] at hno
      cases hno
    · exact hall c0 hc0

end Advance

/-- Where no work is left, the views show the state. -/
theorem Lined.follows {inst : String} (h : Lined inst y) (hdone : ∀ c ∈ y.calls, c.stage.owed = []) : y.Follows := by
  have hprogress := h.progress
  rw [flatMap_owed_nil hdone] at hprogress
  have hrecord : ∀ ht ∈ y.state.tasks, Recorded y.views.tasks ht := by
    intro ht hht
    cases hprogress.record ht hht with
    | right hright => exact hright
  refine ⟨hrecord, fun id ht hrec => ?_, ?_, ?_, hprogress.timers⟩
  · obtain ⟨ht', hht', rfl⟩ := hprogress.only id ht hrec
    rcases hrecord ht' hht' with hsome | ⟨hnone, -⟩
    · rw [hrec] at hsome
      cases hsome
      exact ⟨hht', rfl⟩
    · rw [hrec] at hnone
      cases hnone
  · exact hprogress.signals.resolve_left (by simp)
  · have hmessages := hprogress.messages.resolve_left (by simp)
    rw [h.steady.sound.instanceID, ← h.instanceID] at hmessages
    exact hmessages

end ViewedInstance

def ApplyStage.succeeded : ApplyStage → Bool
  | .done ok => ok
  | _ => false

def ViewChoice.fails : ViewChoice gen → Bool
  | .advance _ w => w.fails
  | _ => false

end Wrkflw
