import Wrkflw.Property.Tasks

/-!
# The commands of a step mirror its tasks

What a step says of a task, by `AwaitHuman` and `UpdateTask`, is what it did to it: nothing of a task that is as it
was, the task itself of one it changed, and that it awaits somebody of one it opened. An immediate manual task is done
without a word.

* `Desk.Booked` is kept by every act, in any order of triggers (`Act.booked`);
* `Announces` : what was said of each task so far; kept by every act of a trigger that is no mere edit (`Announces.act`);
* `step_tells` : the result for steps, after the filter of stale commands.
-/

namespace Wrkflw

open ControlState

variable {s x : InstanceState} {r : StepResult}

variable {g : IDGenerator} {trg : TriggerBody} {d0 d d' : Desk} {cmds cmds' : List Command} {tok t : Token} {ht : HumanTask}

/-! ## The tasks have ids of their own -/

/-- The tasks are changed under their ids. -/
theorem Desk.Booked.minted_map (h : d.Booked g) (hseq : d.taskSeq ≤ d'.taskSeq) {e : HumanTask → HumanTask}
    (he : ∀ ht ∈ d.tasks, (e ht).taskID = ht.taskID) (htasks : d'.tasks = d.tasks.map e) :
    (∀ ht ∈ d'.tasks, Minted g .task d'.taskSeq ht.taskID) ∧ (d'.tasks.map (·.taskID)).Nodup := by
  rw [htasks]
  constructor
  · intro ht hmem
    obtain ⟨ht0, hmem0, rfl⟩ := List.mem_map.mp hmem
    rw [he ht0 hmem0]
    exact (h.minted ht0 hmem0).mono hseq
  · have hids : (d.tasks.map e).map (·.taskID) = d.tasks.map (·.taskID) := by
      rw [List.map_map]
      exact List.map_congr_left he
    rw [hids]
    exact h.nodup

/-- No two tokens come to wait for one task. -/
theorem Act.one (hop : g.Opaque) (hids : d.Ids g) (hb : d.Bounded g) (h : d.Booked g) (hact : Act g trg d0 d d' cmds) :
    ∀ t ∈ d'.tokens, ∀ t' ∈ d'.tokens, ∀ k, t.awaitCommand = g.newID .task k → t'.awaitCommand = t.awaitCommand →
      t'.id = t.id := by
  intro t hmem t' hmem' k hk he
  have hold : ∀ {u u' : Token}, u ∈ d.tokens → u' ∈ d.tokens → u.id = t.id → u'.id = t'.id → u.awaitCommand = t.awaitCommand →
      u'.awaitCommand = t'.awaitCommand → t'.id = t.id := by
    intro u u' hu hu' hid hid' hawait hawait'
    rw [← hid, ← hid']
    exact h.one u hu u' hu' k (hawait.trans hk) (hawait'.trans (he.trans hawait.symm))
  rcases hact.bills hop hids with hp | ⟨tokenID, id, hen⟩ | ⟨id, hw⟩
  · rcases hp.tokens t hmem with ⟨u, hu, hid, hawait⟩ | hun
    · rcases hp.tokens t' hmem' with ⟨u', hu', hid', hawait'⟩ | hun
      · exact hold hu hu' hid hid' hawait hawait'
      · exact absurd (he.trans hk) (hun k).2
    · exact absurd hk (hun k).2
  · -- the next id is nobody's yet
    have hnew : ∀ {u : Token}, u ∈ d.tokens → u.awaitCommand = id → (∃ j, id = g.newID .task j) → False := by
      rintro u hu hawait ⟨j, hj⟩
      rcases hen.next.next with ⟨-, -, hid⟩ | ⟨-, -, hid⟩
      · cases (g.newID_inj _ _ _ _ (hid.symm.trans hj)).1
      · have hle := hb.task u hu _ (hawait.trans hid)
        omega
    rcases hen.tokens t hmem with ⟨hid, hawait⟩ | ⟨u, hu, hid, hawait⟩
    · rcases hen.tokens t' hmem' with ⟨hid', -⟩ | ⟨u', hu', hid', hawait'⟩
      · exact hid'.trans hid.symm
      · exact (hnew hu' (hawait'.trans (he.trans hawait)) ⟨k, hawait.symm.trans hk⟩).elim
    · rcases hen.tokens t' hmem' with ⟨hid', hawait'⟩ | ⟨u', hu', hid', hawait'⟩
      · exact (hnew hu (hawait.trans (he.symm.trans hawait')) ⟨k, hawait'.symm.trans (he.trans hk)⟩).elim
      · exact hold hu hu' hid hid' hawait hawait'
  · rw [hw.tokens] at hmem hmem'
    exact h.one t hmem t' hmem' k hk he

theorem Act.booked (hop : g.Opaque) (hids : d.Ids g) (hb : d.Bounded g) (h : d.Booked g) (hact : Act g trg d0 d d' cmds) :
    d'.Booked g := by
  have hseq := hact.taskSeq_le hop hids
  have htasks : (∀ ht ∈ d'.tasks, Minted g .task d'.taskSeq ht.taskID) ∧ (d'.tasks.map (·.taskID)).Nodup := by
    cases hact.deed hids h with
    | keep cmds htasks hcmds hends => exact h.minted_map hseq (fun _ _ => rfl) (htasks.trans (List.map_id _).symm)
    | post ht spec rest hid hopen hnew htasks hseq' hrest hends =>
      rw [htasks, hseq']
      exact h.minted_append hid
    | file ht hid hclosed hdone htasks hseq' htok hends =>
      rw [htasks, hseq']
      exact h.minted_append hid
    | edit task f hmem hopen hf htrg htasks hends =>
      refine h.minted_map hseq (fun ht hht => ?_) htasks
      by_cases hsame : ht.taskID = task.taskID
      · obtain rfl := List.inj_on_of_nodup_map h.nodup hht hmem hsame
        rw [if_pos (by simp)]
        exact hf.2
      · rw [if_neg (by simpa using hsame)]
    | close id task close hclose hmem hid hopen htasks hends hgone =>
      refine h.minted_map hseq (fun ht _ => ?_) htasks
      split
      · exact (hclose ht).2
      · rfl
    | finish rest htasks hrest hends =>
      refine h.minted_map hseq (fun ht _ => ?_) htasks
      split <;> rfl
  exact ⟨htasks.1, htasks.2, hact.one hop hids hb h⟩

theorem Act.instanceID (hact : Act g trg d0 d d' cmds) : d'.instanceID = d.instanceID := by
  cases hact <;> rfl

/-! ## What is said of a task -/

theorem about_update (ht : HumanTask) (id : String) :
    about id [.updateTask ht] = if ht.taskID = id then [.updateTask ht] else [] := by
  unfold about
  rw [List.filter_cons]
  by_cases he : ht.taskID = id
  · rw [if_pos he, if_pos (by simpa [Command.regards] using he)]
    rfl
  · rw [if_neg he, if_neg (by simpa [Command.regards] using he)]
    rfl

/-- What an instance that ends says of a task: that it is cancelled, if it was open. -/
theorem about_cancelled {tasks : List HumanTask} (h : (tasks.map (·.taskID)).Nodup) (hmem : ht ∈ tasks) :
    about ht.taskID ((tasks.filter (·.isOpen)).map (fun t => .updateTask t.cancel)) =
      if ht.isOpen then [.updateTask ht.cancel] else [] := by
  have hother : ∀ {l : List HumanTask}, ht.taskID ∉ l.map (·.taskID) →
      about ht.taskID ((l.filter (·.isOpen)).map (fun t => .updateTask t.cancel)) = [] := by
    intro l hl
    refine List.filter_eq_nil_iff.mpr (fun cmd hcmd => ?_)
    obtain ⟨u, hu, rfl⟩ := List.mem_map.mp hcmd
    have hne : u.taskID ≠ ht.taskID := fun he => hl (he ▸ List.mem_map_of_mem (List.mem_filter.mp hu).1)
    simpa [Command.regards, HumanTask.cancel] using hne
  induction tasks with
  | nil => cases hmem
  | cons a l ih =>
    rw [List.map_cons, List.nodup_cons] at h
    have hcons : ((a :: l).filter (·.isOpen)).map (fun t => Command.updateTask t.cancel) =
        (if a.isOpen then [.updateTask a.cancel] else []) ++ (l.filter (·.isOpen)).map (fun t => .updateTask t.cancel) := by
      rw [List.filter_cons]
      split <;> rfl
    rw [hcons, about_append]
    rcases List.mem_cons.mp hmem with rfl | hin
    · rw [hother h.1, List.append_nil]
      split
      · rw [about_update, if_pos (show ht.cancel.taskID = ht.taskID from rfl)]
      · rfl
    · have hne : a.taskID ≠ ht.taskID := fun he => h.1 (he ▸ List.mem_map_of_mem hin)
      rw [ih h.2 hin]
      split
      · rw [about_update, if_neg (show ¬ a.cancel.taskID = ht.taskID from hne)]
        rfl
      · rfl

/-- The task is new: nothing of its id was there. -/
def HumanTask.NewTo (ht : HumanTask) (old : List HumanTask) : Prop := ∀ o ∈ old, o.taskID ≠ ht.taskID

/-- What a step says of a task, given the tasks before it and the instance. -/
inductive Telling (old : List HumanTask) (instanceID : String) (ht : HumanTask) : List Command → Prop
  | same (h : ht ∈ old) : Telling old instanceID ht []
  | filed (h : ht.Immediate) (hnew : ht.NewTo old) : Telling old instanceID ht []
  | closed (h : ht.isOpen = false) : Telling old instanceID ht [.updateTask ht]
  | posted (spec : AuthzSpec) (h : ht.Posted spec instanceID) (hnew : ht.NewTo old) :
      Telling old instanceID ht [.awaitHuman ht.taskID spec]
  | passed (spec : AuthzSpec) (cmds : List Command) (h : ht.isOpen = false) (hnew : ht.NewTo old)
      (hcmds : cmds.Perm [.awaitHuman ht.taskID spec, .updateTask ht]) : Telling old instanceID ht cmds

variable {old : List HumanTask} {inst : String}

theorem Telling.perm (h : Telling old inst ht cmds) (hp : cmds.Perm cmds') : Telling old inst ht cmds' := by
  cases h with
  | same h =>
    rw [List.nil_perm.mp hp]
    exact .same h
  | filed h hnew =>
    rw [List.nil_perm.mp hp]
    exact .filed h hnew
  | closed h =>
    rw [← List.singleton_perm.mp hp]
    exact .closed h
  | posted spec h hnew =>
    rw [← List.singleton_perm.mp hp]
    exact .posted spec h hnew
  | passed spec _ h hnew hcmds => exact .passed spec _ h hnew (hp.symm.trans hcmds)

theorem HumanTask.Immediate.closed (h : ht.Immediate) : ht.isOpen = false := by
  unfold HumanTask.isOpen
  rw [h.state]
  rfl

/-- An open task is closed, and that is said. -/
theorem Telling.close (h : Telling old inst ht cmds) (hopen : ht.isOpen = true) {ht' : HumanTask}
    (hclosed : ht'.isOpen = false) (hid : ht'.taskID = ht.taskID) : Telling old inst ht' (cmds ++ [.updateTask ht']) := by
  have hopen' : ht.isOpen ≠ false := by
    rw [hopen]
    decide
  cases h with
  | same h => exact .closed hclosed
  | filed h hnew => exact absurd h.closed hopen'
  | closed h => exact absurd h hopen'
  | posted spec h hnew =>
    refine .passed spec _ hclosed (fun o ho => hid ▸ hnew o ho) ?_
    rw [hid]
    exact List.Perm.refl _
  | passed spec _ h hnew hcmds => exact absurd h hopen'

/-- What was said so far of the tasks, and of nothing else. -/
structure Announces (d0 d : Desk) (cmds : List Command) : Prop where
  told : ∀ ht ∈ d.tasks, Telling d0.tasks d0.instanceID ht (about ht.taskID cmds)
  kept : ∀ o ∈ d0.tasks, ∃ ht ∈ d.tasks, ht.taskID = o.taskID
  only : ∀ cmd ∈ cmds, ∀ id, cmd.regards id = true → ∃ ht ∈ d.tasks, ht.taskID = id
  instanceID : d.instanceID = d0.instanceID

theorem Announces.start (d : Desk) : Announces d d [] where
  told := fun _ hht => .same hht
  kept := fun o ho => ⟨o, ho, rfl⟩
  only := fun _ hcmd => absurd hcmd (by simp)
  instanceID := rfl

theorem Announces.perm (h : Announces d0 d cmds) (hp : cmds.Perm cmds') : Announces d0 d cmds' where
  told := fun ht hht => (h.told ht hht).perm (hp.filter _)
  kept := h.kept
  only := fun cmd hcmd => h.only cmd (hp.mem_iff.mpr hcmd)
  instanceID := h.instanceID

/-- The tasks are changed under their ids, and what is said of each is as it has to be. -/
theorem Announces.edit (h : Announces d0 d cmds) {e : HumanTask → HumanTask} (hid : ∀ ht ∈ d.tasks, (e ht).taskID = ht.taskID)
    (htasks : d'.tasks = d.tasks.map e) (hinst : d'.instanceID = d.instanceID)
    (htold : ∀ ht ∈ d.tasks, Telling d0.tasks d0.instanceID (e ht) (about ht.taskID cmds ++ about ht.taskID cmds'))
    (honly : ∀ cmd ∈ cmds', ∀ id, cmd.regards id = true → ∃ ht ∈ d.tasks, ht.taskID = id) :
    Announces d0 d' (cmds ++ cmds') where
  told := by
    rw [htasks]
    intro ht hht
    obtain ⟨ht0, hmem, rfl⟩ := List.mem_map.mp hht
    rw [hid ht0 hmem, about_append]
    exact htold ht0 hmem
  kept := by
    rw [htasks]
    intro o ho
    obtain ⟨ht, hht, he⟩ := h.kept o ho
    exact ⟨e ht, List.mem_map_of_mem hht, (hid ht hht).trans he⟩
  only := by
    rw [htasks]
    intro cmd hcmd id hreg
    have hin : ∃ ht ∈ d.tasks, ht.taskID = id := by
      rcases List.mem_append.mp hcmd with hcmd | hcmd
      · exact h.only cmd hcmd id hreg
      · exact honly cmd hcmd id hreg
    obtain ⟨ht, hht, he⟩ := hin
    exact ⟨e ht, List.mem_map_of_mem hht, (hid ht hht).trans he⟩
  instanceID := hinst.trans h.instanceID

/-- A task joins the others under the next id, with all that was ever said of it. -/
theorem Announces.add (h : Announces d0 d cmds) (hp : d.Booked g) (hid : ht.taskID = g.newID .task (d.taskSeq + 1))
    (htasks : d'.tasks = d.tasks ++ [ht]) (hinst : d'.instanceID = d.instanceID)
    (htold : ht.NewTo d0.tasks → Telling d0.tasks d0.instanceID ht (about ht.taskID cmds'))
    (hothers : ∀ cmd ∈ cmds', ∀ id, cmd.regards id = true → id = ht.taskID) : Announces d0 d' (cmds ++ cmds') := by
  have hnew : ∀ ht' ∈ d.tasks, ht'.taskID ≠ ht.taskID := by
    intro ht' hmem
    rw [hid]
    exact (hp.minted ht' hmem).ne_next
  have hunsaid : about ht.taskID cmds = [] := by
    refine List.filter_eq_nil_iff.mpr (fun cmd hcmd hreg => ?_)
    obtain ⟨ht', hmem, he⟩ := h.only cmd hcmd _ hreg
    exact hnew ht' hmem he
  refine ⟨?_, ?_, ?_, hinst.trans h.instanceID⟩
  · rw [htasks]
    intro ht' hht'
    rw [about_append]
    rcases List.mem_append.mp hht' with hht' | hht'
    · have hnone : about ht'.taskID cmds' = [] :=
        List.filter_eq_nil_iff.mpr (fun cmd hcmd hreg => hnew ht' hht' (hothers cmd hcmd _ hreg))
      rw [hnone, List.append_nil]
      exact h.told ht' hht'
    · rw [List.mem_singleton.mp hht', hunsaid, List.nil_append]
      refine htold (fun o ho he => ?_)
      obtain ⟨ht', hmem, he'⟩ := h.kept o ho
      exact hnew ht' hmem (he'.trans he)
  · rw [htasks]
    intro o ho
    obtain ⟨ht', hmem, he⟩ := h.kept o ho
    exact ⟨ht', List.mem_append_left _ hmem, he⟩
  · rw [htasks]
    intro cmd hcmd id hreg
    rcases List.mem_append.mp hcmd with hcmd | hcmd
    · obtain ⟨ht', hmem, he⟩ := h.only cmd hcmd id hreg
      exact ⟨ht', List.mem_append_left _ hmem, he⟩
    · exact ⟨ht, List.mem_append_right _ (List.mem_singleton.mpr rfl), (hothers cmd hcmd id hreg).symm⟩

/-- One act, with what it says. -/
theorem Announces.act (h : Announces d0 d cmds) (hids : d.Ids g) (hp : d.Booked g) (hedits : trg.edits = false) {d1 : Desk}
    (hact : Act g trg d1 d d' cmds') : Announces d0 d' (cmds ++ cmds') := by
  have hinst := hact.instanceID
  cases hact.deed hids hp with
  | keep cmds' htasks hcmds hends =>
    refine h.edit (e := fun t => t) (fun _ _ => rfl) (htasks.trans (List.map_id _).symm) hinst (fun ht hht => ?_)
      (fun cmd hcmd id hreg => ?_)
    · rw [hcmds.about, List.append_nil]
      exact h.told ht hht
    · rw [hcmds cmd hcmd id] at hreg
      cases hreg
  | post ht spec rest hid hopen hnew htasks hseq hrest hends =>
    refine h.add hp hid htasks hinst (fun hfresh => ?_) (fun cmd hcmd id hreg => ?_)
    · have hsaid : about ht.taskID (.awaitHuman ht.taskID spec :: rest) = [.awaitHuman ht.taskID spec] := by
        change about ht.taskID ([.awaitHuman ht.taskID spec] ++ rest) = _
        rw [about_append, hrest.about, List.append_nil]
        exact List.filter_cons_of_pos (by simp [Command.regards])
      rw [hsaid]
      exact .posted spec (h.instanceID ▸ hnew) hfresh
    · rcases List.mem_cons.mp hcmd with rfl | hcmd
      · exact (by simpa [Command.regards] using hreg : ht.taskID = id).symm
      · rw [hrest cmd hcmd id] at hreg
        cases hreg
  | file ht hid hclosed hdone htasks hseq htok hends =>
    exact h.add hp hid htasks hinst (fun hfresh => .filed hdone hfresh) (fun cmd hcmd => absurd hcmd (by simp))
  | edit task f hmem hopen hf htrg htasks hends =>
    rw [hedits] at htrg
    cases htrg
  | close id task close hclose hmem hid hopen htasks hends hgone =>
    subst hid
    have hone : ∀ cmd ∈ [Command.updateTask (close task)], ∀ id, cmd.regards id = true → id = task.taskID := by
      intro cmd hcmd id hreg
      rw [List.mem_singleton.mp hcmd] at hreg
      exact (by simpa [Command.regards, (hclose task).2] using hreg : task.taskID = id).symm
    refine h.edit (fun ht _ => ?_) htasks hinst (fun ht hht => ?_)
      (fun cmd hcmd id hreg => ⟨task, hmem, (hone cmd hcmd id hreg).symm⟩)
    · split
      · exact (hclose ht).2
      · rfl
    · rw [about_update, (hclose task).2]
      by_cases hsame : ht.taskID = task.taskID
      · obtain rfl := List.inj_on_of_nodup_map hp.nodup hht hmem hsame
        rw [if_pos rfl, if_pos (by simp)]
        exact (h.told ht hht).close hopen (hclose ht).1 (hclose ht).2
      · rw [if_neg (Ne.symm hsame), if_neg (by simpa using hsame), List.append_nil]
        exact h.told ht hht
  | finish rest htasks hrest hends =>
    refine h.edit (fun ht _ => ?_) htasks hinst (fun ht hht => ?_) (fun cmd hcmd id hreg => ?_)
    · split <;> rfl
    · rw [about_append, hrest.about, List.append_nil, about_cancelled hp.nodup hht]
      by_cases hopen : ht.isOpen = true
      · rw [if_pos hopen, if_pos hopen]
        exact (h.told ht hht).close hopen (cancel_closed ht) rfl
      · rw [if_neg hopen, if_neg hopen, List.append_nil]
        exact h.told ht hht
    · rcases List.mem_append.mp hcmd with hcmd | hcmd
      · obtain ⟨u, hu, rfl⟩ := List.mem_map.mp hcmd
        exact ⟨u, (List.mem_filter.mp hu).1, by simpa [Command.regards, HumanTask.cancel] using hreg⟩
      · rw [hrest cmd hcmd id] at hreg
        cases hreg

theorem Desk.Bounded.next_unawaited (h : d.Bounded g) : ∀ t ∈ d.tokens, t.awaitCommand ≠ g.newID .task (d.taskSeq + 1) := by
  intro t hmem he
  have hle := h.task t hmem _ he
  omega

/-- What a whole operation says, and who waits for the tasks it opened and closed. -/
theorem Acts.announces {q : String → Prop} (hop : g.Opaque) {d1 : Desk} (hacts : Acts g trg d1 d d' cmds') (hids : d.Ids g)
    (hb : d.Bounded g) (hp : d.Booked g) (hm : trg.edits = false → Announces d0 d cmds) (hq : d0.Quick q d) :
    d'.Booked g ∧ (trg.edits = false → Announces d0 d' (cmds ++ cmds')) ∧ d0.Quick q d' := by
  induction hacts generalizing cmds with
  | nil d =>
    rw [List.append_nil]
    exact ⟨hp, hm, hq⟩
  | cons hact hrest hperm ih =>
    obtain ⟨hp', hm', hq'⟩ := ih (hact.ids hids) ((Billed.start hb).act hop hids hact).bounded (hact.booked hop hids hb hp)
      (fun hedits => (hm hedits).act hids hp hedits hact) (hq.act hop hids hp hb.next_unawaited hact)
    rw [List.append_assoc] at hm'
    exact ⟨hp', fun hedits => (hm' hedits).perm (hperm.append_left _), hq'⟩
  | stray hs d' cs => exact absurd hids.sane hs

/-! ## The filter of stale commands -/

/-- What a step says of a task in the end. -/
inductive Told (old : List HumanTask) (instanceID : String) (ht : HumanTask) : List Command → Prop
  | same (h : ht ∈ old) : Told old instanceID ht []
  | filed (h : ht.Immediate) (hnew : ht.NewTo old) : Told old instanceID ht []
  | updated : Told old instanceID ht [.updateTask ht]
  | posted (spec : AuthzSpec) (h : ht.Posted spec instanceID) (hnew : ht.NewTo old) :
      Told old instanceID ht [.awaitHuman ht.taskID spec]

/-- A list with one task of an id, and that task cancelled. -/
theorem filter_updateFirst_same {id : String} {tasks : List HumanTask} (h : tasks.filter (fun t => t.taskID == id) = [ht]) :
    (updateFirst (fun t => t.taskID == id) HumanTask.cancel tasks).filter (fun t => t.taskID == id) = [ht.cancel] := by
  induction tasks with
  | nil => cases h
  | cons a l ih =>
    change (if a.taskID == id then a.cancel :: l else a :: updateFirst _ _ l).filter _ = _
    by_cases he : a.taskID = id
    · have hyes : (a.taskID == id) = true := by simpa using he
      have hyes' : (a.cancel.taskID == id) = true := hyes
      rw [List.filter_cons, if_pos hyes] at h
      obtain ⟨rfl, hrest⟩ := List.cons.inj h
      rw [if_pos hyes, List.filter_cons, if_pos hyes', hrest]
    · have hno : ¬ (a.taskID == id) = true := by simpa using he
      rw [List.filter_cons, if_neg hno] at h
      rw [if_neg hno, List.filter_cons, if_neg hno]
      exact ih h

theorem dropStaleCommands_append (live : List String) (cmds cmds' : List Command) (s : InstanceState) :
    dropStaleCommands live (cmds ++ cmds') s =
      (dropStaleCommands live cmds' (dropStaleCommands live cmds s).state).prepend
        (dropStaleCommands live cmds s).commands := by
  induction cmds generalizing s with
  | nil => rfl
  | cons cmd cmds ih =>
    change (dropStaleCommands live (cmds ++ cmds') (dropStaleCommand live s cmd).state).prepend _ = _
    rw [ih]
    unfold StepResult.prepend
    dsimp only
    rw [← List.append_assoc]
    rfl

/-- A command that asks for the task is among those about it. -/
theorem awaitHuman_mem_about {id : String} {spec : AuthzSpec} (h : Command.awaitHuman id spec ∈ cmds) :
    Command.awaitHuman id spec ∈ about id cmds :=
  List.mem_filter.mpr ⟨h, by simp [Command.regards]⟩

/-- Where a step asks for a task, it opened it, and it either left it open or closed it again. -/
theorem Telling.asked {spec : AuthzSpec} {pre post : List Command}
    (h : Telling old inst ht (pre ++ .awaitHuman ht.taskID spec :: post)) : ht.NewTo old ∧
    ((ht.Posted spec inst ∧ pre ++ post = []) ∨ (ht.isOpen = false ∧ pre ++ post = [.updateTask ht])) := by
  generalize hsaid : pre ++ .awaitHuman ht.taskID spec :: post = said at h
  have hmem : Command.awaitHuman ht.taskID spec ∈ said := by
    rw [← hsaid]
    exact List.mem_append_right _ List.mem_cons_self
  have hperm : (.awaitHuman ht.taskID spec :: (pre ++ post)).Perm said := hsaid ▸ List.perm_middle.symm
  cases h with
  | same h => cases hmem
  | filed h hnew => cases hmem
  | closed h => exact absurd (List.mem_singleton.mp hmem) (by simp)
  | posted spec' h hnew =>
    have he : spec = spec' := by simpa using List.mem_singleton.mp hmem
    subst he
    refine ⟨hnew, Or.inl ⟨h, ?_⟩⟩
    have hone := List.perm_singleton.mp hperm
    exact (List.cons.inj hone).2
  | passed spec' _ h hnew hcmds =>
    refine ⟨hnew, Or.inr ⟨h, ?_⟩⟩
    have he : spec = spec' := by simpa using hcmds.mem_iff.mp hmem
    subst he
    exact List.perm_singleton.mp ((hperm.trans hcmds).cons_inv)

/-- What is left of a task and of what is said of it. -/
theorem dropStaleCommands_told {live : List String} (hone : s.tasks.filter (fun t => t.taskID == ht.taskID) = [ht])
    (hne : ht.taskID ≠ "") (h : Telling old inst ht (about ht.taskID cmds))
    (hgone : ht.isOpen = false → ht.NewTo old → ht.taskID ∉ live) :
    ∃ ht', (dropStaleCommands live cmds s).state.tasks.filter (fun t => t.taskID == ht.taskID) = [ht'] ∧
      ht'.taskID = ht.taskID ∧
      Told old inst ht' (about ht.taskID (dropStaleCommands live cmds s).commands) := by
  by_cases hasked : ∃ spec, Command.awaitHuman ht.taskID spec ∈ cmds
  · obtain ⟨spec, hin⟩ := hasked
    obtain ⟨pre, post, rfl⟩ := List.append_of_mem hin
    rw [about_append] at h
    have hsplit : about ht.taskID (.awaitHuman ht.taskID spec :: post) = .awaitHuman ht.taskID spec :: about ht.taskID post :=
      List.filter_cons_of_pos (by simp [Command.regards])
    rw [hsplit] at h
    obtain ⟨hnew, hcases⟩ := h.asked
    -- the other commands do not ask for it
    have hnone : ∀ cs, about ht.taskID cs ⊆ about ht.taskID pre ++ about ht.taskID post → ∀ cmd ∈ cs, ∀ spec',
        cmd ≠ .awaitHuman ht.taskID spec' := by
      rintro cs hcs cmd hcmd spec' rfl
      have hbad := hcs (awaitHuman_mem_about hcmd)
      rcases hcases with ⟨-, he⟩ | ⟨-, he⟩
      · rw [he] at hbad
        cases hbad
      · rw [he] at hbad
        exact absurd (List.mem_singleton.mp hbad) (by simp)
    obtain ⟨htasks1, hsaid1⟩ := dropStaleCommands_spares live ht.taskID pre s (hnone pre (List.subset_append_left _ _))
    set s1 := (dropStaleCommands live pre s).state
    have hone1 : s1.tasks.filter (fun t => t.taskID == ht.taskID) = [ht] := htasks1.trans hone
    obtain ⟨htasks3, hsaid3⟩ := dropStaleCommands_spares live ht.taskID post
      (dropStaleCommand live s1 (.awaitHuman ht.taskID spec)).state (hnone post (List.subset_append_right _ _))
    have hwhole : dropStaleCommands live (pre ++ .awaitHuman ht.taskID spec :: post) s =
        ((dropStaleCommands live post (dropStaleCommand live s1 (.awaitHuman ht.taskID spec)).state).prepend
          (dropStaleCommand live s1 (.awaitHuman ht.taskID spec)).commands).prepend (dropStaleCommands live pre s).commands :=
      dropStaleCommands_append live pre _ s
    have hcommands : about ht.taskID (dropStaleCommands live (pre ++ .awaitHuman ht.taskID spec :: post) s).commands =
        about ht.taskID pre ++ (about ht.taskID (dropStaleCommand live s1 (.awaitHuman ht.taskID spec)).commands ++
          about ht.taskID post) := by
      rw [hwhole]
      change about _ (_ ++ (_ ++ _)) = _
      rw [about_append, about_append, hsaid1, hsaid3]
    have hstate : (dropStaleCommands live (pre ++ .awaitHuman ht.taskID spec :: post) s).state.tasks.filter
        (fun t => t.taskID == ht.taskID) =
        (dropStaleCommand live s1 (.awaitHuman ht.taskID spec)).state.tasks.filter (fun t => t.taskID == ht.taskID) := by
      rw [hwhole]
      exact htasks3
    rw [hcommands, hstate]
    have hfind : s1.taskByID ht.taskID = some ht := by
      unfold InstanceState.taskByID
      rw [if_neg (by simpa using hne), ← List.head?_filter, hone1]
      rfl
    unfold dropStaleCommand
    by_cases hlive : ht.taskID ∈ live
    · -- somebody waits for the task, which is open then
      rw [if_pos (by simp [Command.correlationID, hlive])]
      rcases hcases with ⟨hposted, he⟩ | ⟨hclosed, -⟩
      · obtain ⟨hpre, hpost⟩ := List.append_eq_nil_iff.mp he
        refine ⟨ht, hone1, rfl, ?_⟩
        rw [hpre, hpost]
        change Told old inst ht ([] ++ (about ht.taskID [.awaitHuman ht.taskID spec] ++ []))
        have hself : about ht.taskID [.awaitHuman ht.taskID spec] = [.awaitHuman ht.taskID spec] :=
          List.filter_cons_of_pos (by simp [Command.regards])
        rw [hself]
        exact .posted spec hposted hnew
      · exact absurd hlive (hgone hclosed hnew)
    · rw [if_neg (by simp [Command.correlationID, hne, hlive])]
      dsimp only
      rw [hfind]
      dsimp only
      rcases hcases with ⟨hposted, he⟩ | ⟨hclosed, he⟩
      · obtain ⟨hpre, hpost⟩ := List.append_eq_nil_iff.mp he
        have hopen : ht.isOpen = true := by
          unfold HumanTask.isOpen
          rw [hposted.state]
          rfl
        rw [if_pos hopen, hpre, hpost]
        refine ⟨ht.cancel, filter_updateFirst_same hone1, rfl, ?_⟩
        change Told old inst ht.cancel ([] ++ (about ht.taskID [.updateTask ht.cancel] ++ []))
        rw [about_update, if_pos (show ht.cancel.taskID = ht.taskID from rfl)]
        exact .updated
      · rw [if_neg (by rw [hclosed]; simp)]
        refine ⟨ht, hone1, rfl, ?_⟩
        change Told old inst ht (about ht.taskID pre ++ ([] ++ about ht.taskID post))
        rw [List.nil_append, he]
        exact .updated
  · have hspare : ∀ cmd ∈ cmds, ∀ spec, cmd ≠ .awaitHuman ht.taskID spec := by
      rintro cmd hcmd spec rfl
      exact hasked ⟨spec, hcmd⟩
    obtain ⟨htasks, hsaid⟩ := dropStaleCommands_spares live ht.taskID cmds s hspare
    refine ⟨ht, htasks.trans hone, rfl, ?_⟩
    rw [hsaid]
    generalize hcmds : about ht.taskID cmds = said at h
    have hno : ∀ spec, Command.awaitHuman ht.taskID spec ∉ said := by
      intro spec hin
      rw [← hcmds] at hin
      exact hasked ⟨spec, (List.mem_filter.mp hin).1⟩
    cases h with
    | same h => exact .same h
    | filed h hnew => exact .filed h hnew
    | closed h => exact .updated
    | posted spec h hnew => exact absurd (List.mem_singleton.mpr rfl) (hno spec)
    | passed spec _ h hnew hperm => exact absurd (hperm.mem_iff.mpr List.mem_cons_self) (hno spec)

theorem updateFirst_ids {id : String} {f : HumanTask → HumanTask} (hf : ∀ t, (f t).taskID = t.taskID)
    (tasks : List HumanTask) :
    (updateFirst (fun t => t.taskID == id) f tasks).map (·.taskID) = tasks.map (·.taskID) := by
  induction tasks with
  | nil => rfl
  | cons a l ih =>
    change (if a.taskID == id then f a :: l else a :: updateFirst _ f l).map (·.taskID) = _
    split
    · rw [List.map_cons, List.map_cons, hf]
    · rw [List.map_cons, List.map_cons, ih]

/-- The filter keeps the ids, and says nothing of a task that is not there. -/
theorem dropStaleCommands_ids (live : List String) (cmds : List Command) (s : InstanceState) :
    (dropStaleCommands live cmds s).state.tasks.map (·.taskID) = s.tasks.map (·.taskID) ∧
      ∀ cmd ∈ (dropStaleCommands live cmds s).commands, cmd ∈ cmds ∨ ∀ id, cmd.regards id = true →
      id ∈ s.tasks.map (·.taskID) := by
  induction cmds generalizing s with
  | nil => exact ⟨rfl, fun cmd hcmd => by cases hcmd⟩
  | cons cmd cmds ih =>
    have hone : (dropStaleCommand live s cmd).state.tasks.map (·.taskID) = s.tasks.map (·.taskID) ∧
        ∀ c ∈ (dropStaleCommand live s cmd).commands, c = cmd ∨ ∀ id, c.regards id = true → id ∈ s.tasks.map (·.taskID) := by
      unfold dropStaleCommand
      split
      · exact ⟨rfl, fun c hc => Or.inl (List.mem_singleton.mp hc)⟩
      · split
        · split
          · rename_i task htask
            have hin := List.mem_of_find?_eq_some (taskByID_some htask).2
            split
            · refine ⟨updateFirst_ids (f := HumanTask.cancel) (fun _ => rfl) s.tasks, fun c hc => Or.inr (fun id hreg => ?_)⟩
              rw [List.mem_singleton.mp hc] at hreg
              have he : task.taskID = id := by simpa [Command.regards, HumanTask.cancel] using hreg
              exact he ▸ List.mem_map_of_mem hin
            · exact ⟨rfl, fun c hc => by cases hc⟩
          · exact ⟨rfl, fun c hc => by cases hc⟩
        · exact ⟨rfl, fun c hc => by cases hc⟩
    obtain ⟨hids, honly⟩ := ih (dropStaleCommand live s cmd).state
    refine ⟨hids.trans hone.1, fun c hc => ?_⟩
    rcases List.mem_append.mp hc with hc | hc
    · rcases hone.2 c hc with rfl | hreg
      · exact Or.inl List.mem_cons_self
      · exact Or.inr hreg
    · rcases honly c hc with hin | hreg
      · exact Or.inl (List.mem_cons_of_mem _ hin)
      · rw [hone.1] at hreg
        exact Or.inr hreg

/-- Where no command waits for an answer the filter does nothing. -/
theorem dropStaleCommands_plain (live : List String) {cmds : List Command} (h : ∀ cmd ∈ cmds, cmd.correlationID = "")
    (s : InstanceState) : dropStaleCommands live cmds s = ⟨s, cmds⟩ := by
  induction cmds with
  | nil => rfl
  | cons cmd cmds ih =>
    have hkept : dropStaleCommand live s cmd = ⟨s, [cmd]⟩ := by
      unfold dropStaleCommand
      rw [if_pos (by simp [h cmd List.mem_cons_self])]
    change (dropStaleCommands live cmds (dropStaleCommand live s cmd).state).prepend
      (dropStaleCommand live s cmd).commands = _
    rw [hkept, ih (fun c hc => h c (List.mem_cons_of_mem _ hc))]
    rfl

theorem dropStaleTokenCommands_eq (r : StepResult) :
    dropStaleTokenCommands r = dropStaleCommands (liveAwaiters r.state.toControlState) r.commands r.state := by
  unfold dropStaleTokenCommands
  split
  · rename_i hnone
    have hplain : ∀ cmd ∈ r.commands, cmd.correlationID = "" := by
      intro cmd hcmd
      by_contra hne
      rw [Bool.not_eq_true', List.any_eq_false] at hnone
      exact hnone cmd hcmd (by simpa [filterableCommand] using hne)
    exact (dropStaleCommands_plain _ hplain r.state).symm
  · rfl

/-! ## Steps -/

/-- What a step says of the tasks. -/
structure Tells (x : InstanceState) (r : StepResult) : Prop where
  told : ∀ ht ∈ r.state.tasks, Told x.tasks x.instanceID ht (about ht.taskID r.commands)
  kept : ∀ o ∈ x.tasks, ∃ ht ∈ r.state.tasks, ht.taskID = o.taskID
  only : ∀ cmd ∈ r.commands, ∀ id, cmd.regards id = true → ∃ ht ∈ r.state.tasks, ht.taskID = id

/-- The filter after what was announced. -/
theorem Announces.filtered (h : Announces x.desk r.state.desk r.commands)
    (hp : r.state.desk.Booked g) (hgone : ∀ ht ∈ r.state.tasks, ht.isOpen = false → ht.NewTo x.tasks →
      ht.taskID ∉ liveAwaiters r.state.toControlState) : Tells x (dropStaleTokenCommands r) := by
  rw [dropStaleTokenCommands_eq]
  obtain ⟨hids, honly⟩ := dropStaleCommands_ids (liveAwaiters r.state.toControlState) r.commands r.state
  set r' := dropStaleCommands (liveAwaiters r.state.toControlState) r.commands r.state
  have hone : ∀ ht ∈ r.state.tasks, ∃ ht', r'.state.tasks.filter (fun t => t.taskID == ht.taskID) = [ht'] ∧
      ht'.taskID = ht.taskID ∧ Told x.tasks x.instanceID ht' (about ht.taskID r'.commands) := by
    intro ht hht
    have hlist : r.state.tasks.filter (fun t => t.taskID == ht.taskID) = [ht] :=
      filter_eq_singleton (List.Nodup.of_map _ hp.nodup) hht (fun b hb => by
        constructor
        · intro he
          exact List.inj_on_of_nodup_map hp.nodup hb hht (by simpa using he)
        · rintro rfl
          simp)
    exact dropStaleCommands_told hlist (hp.minted ht hht).ne_empty (h.told ht hht) (hgone ht hht)
  have hmem : ∀ {ht' : HumanTask}, ht' ∈ r'.state.tasks → ∃ ht ∈ r.state.tasks, ht.taskID = ht'.taskID := by
    intro ht' hht'
    have hin : ht'.taskID ∈ r.state.tasks.map (·.taskID) := hids ▸ List.mem_map_of_mem hht'
    exact List.mem_map.mp hin
  have hback : ∀ {id : String}, (∃ ht ∈ r.state.tasks, ht.taskID = id) → ∃ ht ∈ r'.state.tasks, ht.taskID = id := by
    rintro id ⟨ht, hht, rfl⟩
    have hin : ht.taskID ∈ r'.state.tasks.map (·.taskID) := hids.symm ▸ List.mem_map_of_mem hht
    exact List.mem_map.mp hin
  refine ⟨fun ht' hht' => ?_, fun o ho => hback (h.kept o ho), fun cmd hcmd id hreg => ?_⟩
  · obtain ⟨ht, hht, he⟩ := hmem hht'
    obtain ⟨ht'', hfilter, -, htold⟩ := hone ht hht
    have hsame : ht' = ht'' := by
      have hin : ht' ∈ r'.state.tasks.filter (fun t => t.taskID == ht.taskID) :=
        List.mem_filter.mpr ⟨hht', by simpa using he.symm⟩
      rw [hfilter] at hin
      exact List.mem_singleton.mp hin
    rw [← he, hsame]
    exact htold
  · rcases honly cmd hcmd with hin | hreg'
    · exact hback (h.only cmd hin id hreg)
    · exact hback (List.mem_map.mp (hreg' id hreg))

/-- A trigger that edits a task does so, or does nothing. -/
theorem withOpenTask_cases {taskID : String} {closed : EngineResult} {f : HumanTask → HumanTask}
    (hclosed : ∀ r, closed = .ok r → r = ⟨s, []⟩) (h : withOpenTask s taskID closed f = .ok r) :
    r = ⟨s, []⟩ ∨ ∃ task, s.tasks.find? (fun t => t.taskID == taskID) = some task ∧
      r = ⟨s.updateTask taskID f, [.updateTask (f task)]⟩ := by
  unfold withOpenTask at h
  split at h
  · cases h
  · rename_i task htask
    split at h
    · exact Or.inl (hclosed r h)
    · exact Or.inr ⟨task, (taskByID_some htask).2, (Except.ok.inj h).symm⟩

theorem handle_edits {drv : DriveLoop} {c : StepCtx}
    (hedits : trg.edits = true) (h : handle drv c s trg = .ok r) :
    r = ⟨s, []⟩ ∨ ∃ taskID f task, (∀ t : HumanTask, (f t).taskID = t.taskID) ∧
      s.tasks.find? (fun t => t.taskID == taskID) = some task ∧ r = ⟨s.updateTask taskID f, [.updateTask (f task)]⟩ := by
  have hcases : ∀ {taskID : String} {closed : EngineResult} {f : HumanTask → HumanTask},
    (∀ t : HumanTask, (f t).taskID = t.taskID) →
      (∀ r, closed = .ok r → r = ⟨s, []⟩) → withOpenTask s taskID closed f = .ok r →
      r = ⟨s, []⟩ ∨ ∃ taskID f task, (∀ t : HumanTask, (f t).taskID = t.taskID) ∧
        s.tasks.find? (fun t => t.taskID == taskID) = some task ∧ r = ⟨s.updateTask taskID f, [.updateTask (f task)]⟩ := by
    intro taskID closed f hf hclosed hr
    rcases withOpenTask_cases hclosed hr with hsame | ⟨task, hfind, he⟩
    · exact Or.inl hsame
    · exact Or.inr ⟨taskID, f, task, hf, hfind, he⟩
  cases trg with
  | humanCandidatesResolved taskID candidates =>
    refine hcases ?_ ?_ h
    · exact fun _ => rfl
    · exact fun r hr => (Except.ok.inj hr).symm
  | humanClaimed taskID actor =>
    refine hcases ?_ ?_ h
    · exact fun _ => rfl
    · exact fun r hr => nomatch hr
  | humanReassigned taskID reassignedFrom reassignedTo by_ =>
    refine hcases ?_ ?_ h
    · exact fun _ => rfl
    · exact fun r hr => nomatch hr
  | _ => cases hedits

theorem dispatch_edits {drv : DriveLoop} {c : StepCtx}
    (hedits : trg.edits = true) (h : dispatch drv c s trg = .ok r) :
    r = ⟨s, []⟩ ∨ ∃ taskID f task, (∀ t : HumanTask, (f t).taskID = t.taskID) ∧
      s.tasks.find? (fun t => t.taskID == taskID) = some task ∧ r = ⟨s.updateTask taskID f, [.updateTask (f task)]⟩ := by
  unfold dispatch at h
  split at h
  · split at h
    · exact Or.inl (Except.ok.inj h).symm
    · cases h
    · exact handle_edits hedits h
  · exact handle_edits hedits h

/-- What an edit says. -/
theorem tells_edit (hp : x.desk.Booked g) {taskID : String} {f : HumanTask → HumanTask} {task : HumanTask}
    (hf : ∀ t : HumanTask, (f t).taskID = t.taskID) (hfind : x.tasks.find? (fun t => t.taskID == taskID) = some task) :
    Tells x ⟨x.updateTask taskID f, [.updateTask (f task)]⟩ := by
  have hid : task.taskID = taskID := by simpa using List.find?_some hfind
  have hin := List.mem_of_find?_eq_some hfind
  have htasks : (x.updateTask taskID f).tasks = x.tasks.map (fun t => if t.taskID == taskID then f t else t) :=
    updateFirst_eq_map hp.nodup _ _
  have hids : ∀ ht : HumanTask, (if ht.taskID == taskID then f ht else ht).taskID = ht.taskID := by
    intro ht
    split
    · exact hf ht
    · rfl
  refine ⟨fun ht hht => ?_, fun o ho => ?_, fun cmd hcmd id hreg => ?_⟩
  · rw [htasks] at hht
    obtain ⟨ht0, hmem0, rfl⟩ := List.mem_map.mp hht
    rw [hids ht0, about_update, hf task]
    by_cases hsame : ht0.taskID = taskID
    · obtain rfl := List.inj_on_of_nodup_map hp.nodup hmem0 hin (hsame.trans hid.symm)
      rw [if_pos rfl, if_pos (by simpa using hsame)]
      exact .updated
    · rw [if_neg (by simpa using hsame), if_neg (fun he => hsame (he.symm.trans hid))]
      exact .same hmem0
  · rw [htasks]
    exact ⟨_, List.mem_map_of_mem ho, hids o⟩
  · rw [List.mem_singleton.mp hcmd] at hreg
    have he : (f task).taskID = id := by simpa [Command.regards] using hreg
    rw [htasks]
    exact ⟨_, List.mem_map_of_mem hin, (hids task).trans ((hf task).symm.trans he)⟩

/-- A step is what its handler does, then the filter of stale commands. -/
theorem step_dispatched {fuel : Nat} {p : ProcessDefinition} {trg : Trigger} {opt : StepOptions}
    (h : step fuel p s trg opt = .ok r) :
    ∃ drv c r0, dispatch drv c s trg.body = .ok r0 ∧ r = dropStaleTokenCommands r0 := by
  unfold step at h
  obtain ⟨u, -, h⟩ := bind_ok h
  obtain ⟨-, -, h⟩ := bind_ok h
  dsimp only at h
  obtain ⟨r0, h0, h⟩ := bind_ok h
  exact ⟨_, _, r0, h0, (Except.ok.inj h).symm⟩

/-- A step that edits a task says what it does. -/
theorem step_tells_edit {fuel : Nat} {p : ProcessDefinition} {trg : Trigger} {opt : StepOptions}
    (hp : x.desk.Booked g) (hedits : trg.body.edits = true) (h : step fuel p x trg opt = .ok r) : Tells x r := by
  obtain ⟨drv, c, r0, h0, rfl⟩ := step_dispatched h
  have hplain : ∀ r' : StepResult, (∀ cmd ∈ r'.commands, cmd.correlationID = "") → dropStaleTokenCommands r' = r' := by
    intro r' hcmds
    rw [dropStaleTokenCommands_eq]
    exact dropStaleCommands_plain _ hcmds r'.state
  rcases dispatch_edits hedits h0 with rfl | ⟨taskID, f, task, hf, hfind, rfl⟩
  · rw [hplain _ (fun cmd hcmd => by cases hcmd)]
    exact ⟨fun ht hht => .same hht, fun o ho => ⟨o, ho, rfl⟩, fun cmd hcmd => by cases hcmd⟩
  · rw [hplain _ (fun cmd hcmd => by rw [List.mem_singleton.mp hcmd]; rfl)]
    exact tells_edit hp hf hfind

variable {p : ProcessDefinition} {gen : Option IDGenerator}

/-- What the next step needs of a state to say what it does. -/
structure Steady (gen : Option IDGenerator) (inst : String) (x : InstanceState) : Prop where
  sound : Steps.Sound gen inst x
  ids : x.desk.Ids (runIDs gen inst)
  bounded : x.desk.Bounded (runIDs gen inst)
  booked : x.desk.Booked (runIDs gen inst)

theorem blank_steady (gen : Option IDGenerator) (inst : String) : Steady gen inst { instanceID := inst } where
  sound := Run.blank_sound gen inst
  ids := blank_ids _ inst
  bounded := blank_bounded _ inst
  booked := (blank_tended _ inst).paired.booked

/-- Every step says of the tasks what it does to them. -/
theorem step_tells (hop : (runIDs gen inst).Opaque) (hx : Steady gen inst x) {call : Call}
    (hgen : call.opt.idGenerator = gen) (hstep : step call.fuel p x call.trigger call.opt = .ok r) :
    Steady gen inst r.state ∧ Tells x r := by
  have hsound := hx.sound
  have hreach := hsound.reaches hgen hstep
  have hgens : call.opt.ids x.instanceID = runIDs gen inst := by
    unfold StepOptions.ids runIDs
    rw [hgen, hsound.instanceID]
  obtain ⟨r0, hdoes, rfl⟩ := step_does hsound.wf.phase.status.mp hstep
  rw [hgens] at hdoes
  obtain ⟨tasks, hdesk⟩ := dropStaleTokenCommands_desk r0
  have hends : (dropStaleTokenCommands r0).state.trace.filterMap Event.end? = r0.state.desk.ends :=
    congrArg (fun d : Desk => d.ends) hdesk
  have htokens : (dropStaleTokenCommands r0).state.tokens = r0.state.tokens := congrArg (fun d : Desk => d.tokens) hdesk
  have hlive' := dropStaleTokenCommands_live r0
  have hbilled := (Billed.start hx.bounded).acts hop hdoes hx.ids
  let q : String → Prop := fun id => ∀ o ∈ x.tasks, o.taskID ≠ id
  have hq0 : x.desk.Quick q x.desk := ⟨le_rfl, fun _ ht hht hq => absurd rfl (hq ht hht)⟩
  have hstart : call.trigger.body.edits = false → Announces x.desk x.desk [] := fun _ => Announces.start x.desk
  obtain ⟨hp0, hannounced, hquick⟩ := Acts.announces hop hdoes hx.ids hx.bounded hx.booked hstart hq0
  have hone : Steps p gen x [call] (dropStaleTokenCommands r0).state := by
    have hsteps : Steps p gen x ([] ++ [call]) (dropStaleTokenCommands r0).state := Steps.tail .refl call _ hgen hstep
    exact hsteps
  have htells : Tells x (dropStaleTokenCommands r0) := by
    cases hedits : call.trigger.body.edits with
    | true => exact step_tells_edit hx.booked hedits hstep
    | false =>
      refine (hannounced hedits).filtered hp0 (fun ht hht hclosed hnew hin => ?_)
      have hne := (hp0.minted ht hht).ne_empty
      cases hterm : r0.state.status.isTerminal with
      | true =>
        unfold liveAwaiters at hin
        rw [if_pos hterm] at hin
        cases hin
      | false =>
        rcases (mem_liveAwaiters hterm hne).mp hin with ⟨t, hmem, hawait⟩ | hwalk
        · cases hxterm : x.status.isTerminal with
          | true =>
            rw [← htokens, revived_tokens hsound hxterm hone (hlive'.trans hterm)] at hmem
            cases hmem
          | false =>
            rcases hreach.ends hsound.wf hxterm with ⟨-, hsame⟩ | ⟨hended, -⟩
            · have hlen : r0.state.desk.ends.length = x.desk.ends.length := congrArg List.length (hends.symm.trans hsame)
              exact hquick.tokens hlen ht hht hnew hclosed t hmem hawait
            · rw [hlive', hterm] at hended
              cases hended
        · obtain ⟨k, -, hk⟩ := hp0.minted ht hht
          exact hbilled.bounded.walkTask k (hwalk.trans hk)
  have hids0 : r0.state.desk.Ids (runIDs gen inst) :=
    (hdoes.induct (I := fun _ => True) (fun _ _ _ => trivial) hx.ids trivial).1
  have hsame : (dropStaleTokenCommands r0).state.tasks.map (·.taskID) = r0.state.tasks.map (·.taskID) := by
    rw [dropStaleTokenCommands_eq]
    exact (dropStaleCommands_ids _ _ _).1
  refine ⟨⟨hone.sound hsound, ?_, ?_, ?_⟩, htells⟩
  · rw [hdesk]
    exact ⟨hids0.minted, hids0.nodup, hids0.finals, hids0.queue⟩
  · rw [hdesk]
    exact ⟨hbilled.bounded.command, hbilled.bounded.task, hbilled.bounded.walk, hbilled.bounded.walkTask⟩
  · have hseq : (dropStaleTokenCommands r0).state.taskSeq = r0.state.taskSeq := congrArg (fun d : Desk => d.taskSeq) hdesk
    refine ⟨fun ht hht => ?_, ?_, ?_⟩
    · have hin : ht.taskID ∈ r0.state.tasks.map (·.taskID) := hsame ▸ List.mem_map_of_mem hht
      obtain ⟨ht0, hmem0, he⟩ := List.mem_map.mp hin
      change Minted _ _ (dropStaleTokenCommands r0).state.taskSeq _
      rw [hseq, ← he]
      exact hp0.minted ht0 hmem0
    · change ((dropStaleTokenCommands r0).state.tasks.map (·.taskID)).Nodup
      rw [hsame]
      exact hp0.nodup
    · change ∀ t ∈ (dropStaleTokenCommands r0).state.tokens, ∀ t' ∈ (dropStaleTokenCommands r0).state.tokens, _
      rw [htokens]
      exact hp0.one

end Wrkflw
