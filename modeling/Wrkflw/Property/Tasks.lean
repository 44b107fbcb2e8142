import Wrkflw.Property.Terminal

/-!
# Tasks and the tokens that wait for them

Every open task has one token, parked on the task's node, and every token of a live instance that waits for a task has
that task open; a step that takes the token away, or ends the instance, closes the task and says so once.

* `Desk.Paired` : the invariant, kept by every act (`Act.paired`) under `TaskOrderly`;
* `Desk.Follows` : a task through a step, with the commands that closed it;
* `tasks_paired` : the result for runs.
-/

namespace Wrkflw

open ControlState

variable {id : String} {cmd : Command} {r : StepResult}

/-- The id a reply to a command, a child instance or a timer is about. -/
def TriggerBody.repliedID : TriggerBody → Option String
  | .actionCompleted id _ | .subInstanceCompleted id _ | .subInstanceFailed id _ | .timerFired id => some id
  | .actionFailed id _ _ _ _ => some id
  | _ => none

/-- Resolving reaches failed tokens only, and no reply to a command, a child instance or a timer names a task. -/
structure TaskOrderly (d0 : Desk) (trg : TriggerBody) : Prop where
  resolves : ResolvesFailed d0 trg
  replies : ∀ ht ∈ d0.tasks, trg.repliedID ≠ some ht.taskID

/-- The command says that the task is completed or cancelled. -/
def Command.closes (taskID : String) : Command → Bool
  | .updateTask task => task.taskID == taskID && !task.isOpen
  | _ => false

/-- The open tasks and the tokens that wait for tasks. -/
structure TasksPaired (g : IDGenerator) (x : InstanceState) : Prop where
  /-- An open task has one token, parked on its node. -/
  task : ∀ ht ∈ x.tasks, ht.isOpen = true → ∃ t, x.tokens.filter (fun t => t.awaitCommand == ht.taskID) = [t] ∧
    t.state = .waiting ∧ t.nodeID = ht.nodeID
  /-- A token that waits for a task of a live instance has one, and it is open. -/
  token : x.status.isTerminal = false → ∀ t ∈ x.tokens, (∃ k, t.awaitCommand = g.newID .task k) →
    ∃ ht, x.tasks.filter (fun ht => ht.taskID == t.awaitCommand) = [ht] ∧ ht.isOpen = true

/-- An open task through a step: it stays open and nothing is said, or it is closed and that is said once. It is closed
when its token is gone or the instance ended. -/
structure TaskFollowed (x : InstanceState) (ht : HumanTask) (r : StepResult) : Prop where
  once : ((∃ ht' ∈ r.state.tasks, ht'.taskID = ht.taskID ∧ ht'.isOpen = true) ∧
    r.commands.countP (Command.closes ht.taskID) = 0) ∨
    ((∃ ht' ∈ r.state.tasks, ht'.taskID = ht.taskID) ∧ (∀ ht' ∈ r.state.tasks, ht'.taskID = ht.taskID → ht'.isOpen = false) ∧
      r.commands.countP (Command.closes ht.taskID) = 1)
  gone : (∀ t ∈ r.state.tokens, t.awaitCommand = ht.taskID → t.state ≠ .waiting) ∨
      (x.status.isTerminal = false ∧ r.state.status.isTerminal = true) →
    r.commands.countP (Command.closes ht.taskID) = 1

variable {g : IDGenerator} {trg : TriggerBody} {d0 d d' : Desk} {cmds cmds' : List Command} {tok t : Token} {ht : HumanTask}

/-! ## The invariant -/

/-- The id is no task's. -/
def NoTask (g : IDGenerator) (id : String) : Prop := ∀ k, id ≠ g.newID .task k

structure Desk.Paired (g : IDGenerator) (d : Desk) : Prop where
  minted : ∀ ht ∈ d.tasks, Minted g .task d.taskSeq ht.taskID
  nodup : (d.tasks.map (·.taskID)).Nodup
  held : ∀ ht ∈ d.tasks, ht.isOpen = true →
    ∃ t ∈ d.tokens, t.awaitCommand = ht.taskID ∧ t.state = .waiting ∧ t.nodeID = ht.nodeID
  filed : ∀ t ∈ d.tokens, ∀ k, t.awaitCommand = g.newID .task k → ∃ ht ∈ d.tasks, ht.taskID = t.awaitCommand
  one : ∀ t ∈ d.tokens, ∀ t' ∈ d.tokens, ∀ k, t.awaitCommand = g.newID .task k → t'.awaitCommand = t.awaitCommand →
    t'.id = t.id

/-- Every task has its own id, and no two tokens wait for one task. -/
structure Desk.Booked (g : IDGenerator) (d : Desk) : Prop where
  minted : ∀ ht ∈ d.tasks, Minted g .task d.taskSeq ht.taskID
  nodup : (d.tasks.map (·.taskID)).Nodup
  one : ∀ t ∈ d.tokens, ∀ t' ∈ d.tokens, ∀ k, t.awaitCommand = g.newID .task k → t'.awaitCommand = t.awaitCommand →
    t'.id = t.id

theorem Desk.Paired.booked {g : IDGenerator} {d : Desk} (h : d.Paired g) : d.Booked g := ⟨h.minted, h.nodup, h.one⟩

/-- The token holds no open task. -/
def Desk.Untasked (d : Desk) (tok : Token) : Prop := ∀ ht ∈ d.tasks, ht.isOpen = true → tok.awaitCommand ≠ ht.taskID

theorem NoTask.empty (g : IDGenerator) : NoTask g "" := fun k h => g.newID_ne_empty .task k h.symm

theorem NoTask.other (g : IDGenerator) {kind : IDKind} (hkind : kind ≠ .task) (n : Nat) : NoTask g (g.newID kind n) :=
  fun _ h => hkind (g.newID_inj _ _ _ _ h).1

theorem Token.Lone.noTask (h : t.Lone) : NoTask g t.awaitCommand := by
  rw [h.awaitCommand]
  exact NoTask.empty g

/-- A task under the next id joins the others. -/
theorem Desk.Booked.minted_append (h : d.Booked g) (hid : ht.taskID = g.newID .task (d.taskSeq + 1)) :
    (∀ ht' ∈ d.tasks ++ [ht], Minted g .task (d.taskSeq + 1) ht'.taskID) ∧ ((d.tasks ++ [ht]).map (·.taskID)).Nodup := by
  constructor
  · intro ht' hmem
    rcases List.mem_append.mp hmem with hmem | hmem
    · exact (h.minted ht' hmem).mono (Nat.le_succ _)
    · rw [List.mem_singleton.mp hmem, hid]
      exact minted_self g .task (d.taskSeq + 1)
  · rw [List.map_append, List.nodup_append]
    refine ⟨h.nodup, List.nodup_singleton _, fun a ha b hb => ?_⟩
    obtain ⟨ht', hmem, rfl⟩ := List.mem_map.mp ha
    rw [List.mem_singleton.mp hb]
    change ht'.taskID ≠ ht.taskID
    rw [hid]
    exact (h.minted ht' hmem).ne_next

namespace Desk.Paired

theorem untasked (h : d.Paired g) (hno : NoTask g tok.awaitCommand) : d.Untasked tok := by
  intro ht hmem _ he
  obtain ⟨k, -, hk⟩ := h.minted ht hmem
  exact hno k (he.trans hk)

/-- Only a waiting token holds an open task. -/
theorem untasked_of_state (h : d.Paired g) (hids : d.Ids g) (hmem : tok ∈ d.tokens) (hst : tok.state ≠ .waiting) :
    d.Untasked tok := by
  intro ht hht hopen he
  obtain ⟨t, hmem', hawait, hwait, -⟩ := h.held ht hht hopen
  obtain ⟨k, -, hk⟩ := h.minted ht hht
  have hid := h.one t hmem' tok hmem k (hawait.trans hk) (he.trans hawait.symm)
  rw [hids.eq_of_id hmem hmem' hid] at hst
  exact hst hwait

theorem congr (h : d.Paired g) (htok : d'.tokens = d.tokens) (htasks : d'.tasks = d.tasks) (hseq : d'.taskSeq = d.taskSeq) :
    d'.Paired g where
  minted := by
    rw [htasks, hseq]
    exact h.minted
  nodup := by
    rw [htasks]
    exact h.nodup
  held := by
    rw [htasks, htok]
    exact h.held
  filed := by
    rw [htasks, htok]
    exact h.filed
  one := by
    rw [htok]
    exact h.one

/-- The tokens change, but not those of open tasks. -/
theorem tokens (h : d.Paired g) (htasks : d'.tasks = d.tasks) (hseq : d'.taskSeq = d.taskSeq)
    (hfrom : ∀ t' ∈ d'.tokens, (∃ t ∈ d.tokens, t.id = t'.id ∧ t.awaitCommand = t'.awaitCommand) ∨ NoTask g t'.awaitCommand)
    (hkeep : ∀ t ∈ d.tokens, t ∈ d'.tokens ∨ d.Untasked t) : d'.Paired g where
  minted := by
    rw [htasks, hseq]
    exact h.minted
  nodup := by
    rw [htasks]
    exact h.nodup
  held := by
    rw [htasks]
    intro ht hmem hopen
    obtain ⟨t, hmem', hawait, hwait, hnode⟩ := h.held ht hmem hopen
    rcases hkeep t hmem' with hin | hun
    · exact ⟨t, hin, hawait, hwait, hnode⟩
    · exact absurd hawait (hun ht hmem hopen)
  filed := by
    rw [htasks]
    intro t' hmem' k hk
    rcases hfrom t' hmem' with ⟨t, hmem, -, hawait⟩ | hno
    · obtain ⟨ht, hht, he⟩ := h.filed t hmem k (hawait.trans hk)
      exact ⟨ht, hht, he.trans hawait⟩
    · exact absurd hk (hno k)
  one := by
    intro t' hmem' u' humem' k hk he
    rcases hfrom t' hmem' with ⟨t, hmem, hid, hawait⟩ | hno
    · rcases hfrom u' humem' with ⟨u, humem, huid, huawait⟩ | hno
      · rw [← hid, ← huid]
        exact h.one t hmem u humem k (hawait.trans hk) (huawait.trans (he.trans hawait.symm))
      · exact absurd (he.trans hk) (hno k)
    · exact absurd hk (hno k)

/-- A token that holds no open task comes to wait for something else than a task. -/
theorem update (h : d.Paired g) (hids : d.Ids g) (hmem : tok ∈ d.tokens) {f : Token → Token} (hun : d.Untasked tok)
    (hf : NoTask g (f tok).awaitCommand) (htok : d'.tokens = (d.update tok.id f).tokens) (htasks : d'.tasks = d.tasks)
    (hseq : d'.taskSeq = d.taskSeq) : d'.Paired g := by
  refine h.tokens htasks hseq (fun t' hmem' => ?_) (fun t hmem' => ?_)
  · rw [htok] at hmem'
    rcases (hids.mem_update hmem).mp hmem' with rfl | ⟨hin, -⟩
    · exact Or.inr hf
    · exact Or.inl ⟨t', hin, rfl, rfl⟩
  · by_cases hid : t.id = tok.id
    · rw [hids.eq_of_id hmem' hmem hid]
      exact Or.inr hun
    · rw [htok]
      exact Or.inl ((hids.mem_update hmem).mpr (Or.inr ⟨hmem', hid⟩))

/-- Tokens that hold no open task go. -/
theorem filter (h : d.Paired g) (p : Token → Bool) (hp : ∀ t ∈ d.tokens, p t = false → d.Untasked t)
    (htok : d'.tokens = d.tokens.filter p) (htasks : d'.tasks = d.tasks) (hseq : d'.taskSeq = d.taskSeq) : d'.Paired g := by
  refine h.tokens htasks hseq (fun t' hmem' => ?_) (fun t hmem => ?_)
  · rw [htok] at hmem'
    exact Or.inl ⟨t', List.mem_of_mem_filter hmem', rfl, rfl⟩
  · cases hpt : p t with
    | false => exact Or.inr (hp t hmem hpt)
    | true =>
      rw [htok]
      exact Or.inl (List.mem_filter.mpr ⟨hmem, hpt⟩)

/-- Tasks are edited or closed under their ids. -/
theorem edit (h : d.Paired g) (e : HumanTask → HumanTask) (hid : ∀ ht ∈ d.tasks, (e ht).taskID = ht.taskID)
    (he : ∀ ht ∈ d.tasks, (e ht).isOpen = true → ht.isOpen = true ∧ (e ht).nodeID = ht.nodeID)
    (htok : d'.tokens = d.tokens) (htasks : d'.tasks = d.tasks.map e) (hseq : d'.taskSeq = d.taskSeq) : d'.Paired g where
  minted := by
    rw [htasks, hseq]
    intro ht hmem
    obtain ⟨ht0, hmem0, rfl⟩ := List.mem_map.mp hmem
    rw [hid ht0 hmem0]
    exact h.minted ht0 hmem0
  nodup := by
    have hids : (d.tasks.map e).map (·.taskID) = d.tasks.map (·.taskID) := by
      rw [List.map_map]
      exact List.map_congr_left hid
    rw [htasks, hids]
    exact h.nodup
  held := by
    rw [htasks, htok]
    intro ht hmem hopen
    obtain ⟨ht0, hmem0, rfl⟩ := List.mem_map.mp hmem
    obtain ⟨hopen0, hnode⟩ := he ht0 hmem0 hopen
    rw [hid ht0 hmem0, hnode]
    exact h.held ht0 hmem0 hopen0
  filed := by
    rw [htasks, htok]
    intro t hmem k hk
    obtain ⟨ht, hht, heq⟩ := h.filed t hmem k hk
    exact ⟨e ht, List.mem_map_of_mem hht, (hid ht hht).trans heq⟩
  one := by
    rw [htok]
    exact h.one

/-- No token waits for the next task. -/
theorem next_unawaited (h : d.Paired g) (hmem : t ∈ d.tokens) : t.awaitCommand ≠ g.newID .task (d.taskSeq + 1) := by
  intro he
  obtain ⟨ht, hht, hid⟩ := h.filed t hmem _ he
  exact (h.minted ht hht).ne_next (hid.trans he)

/-- A task that is closed at once. -/
theorem append_closed (h : d.Paired g) (hid : ht.taskID = g.newID .task (d.taskSeq + 1)) (hclosed : ht.isOpen = false)
    (htok : d'.tokens = d.tokens) (htasks : d'.tasks = d.tasks ++ [ht]) (hseq : d'.taskSeq = d.taskSeq + 1) :
    d'.Paired g where
  minted := by
    rw [htasks, hseq]
    exact (h.booked.minted_append hid).1
  nodup := by
    rw [htasks]
    exact (h.booked.minted_append hid).2
  held := by
    rw [htasks, htok]
    intro ht' hmem hopen
    rcases List.mem_append.mp hmem with hmem | hmem
    · exact h.held ht' hmem hopen
    · rw [List.mem_singleton.mp hmem, hclosed] at hopen
      cases hopen
  filed := by
    rw [htasks, htok]
    intro t hmem k hk
    obtain ⟨ht', hht, he⟩ := h.filed t hmem k hk
    exact ⟨ht', List.mem_append_left _ hht, he⟩
  one := by
    rw [htok]
    exact h.one

/-- A token that holds no open task parks on a new one. -/
theorem park (h : d.Paired g) (hids : d.Ids g) (hmem : tok ∈ d.tokens) {f : Token → Token} (hun : d.Untasked tok)
    (hid : ht.taskID = g.newID .task (d.taskSeq + 1)) (hnode : ht.nodeID = tok.nodeID) (hf : tok.Expects ht.taskID (f tok))
    (htok : d'.tokens = (d.update tok.id f).tokens) (htasks : d'.tasks = d.tasks ++ [ht])
    (hseq : d'.taskSeq = d.taskSeq + 1) : d'.Paired g where
  minted := by
    rw [htasks, hseq]
    exact (h.booked.minted_append hid).1
  nodup := by
    rw [htasks]
    exact (h.booked.minted_append hid).2
  held := by
    rw [htasks, htok]
    intro ht' hht' hopen
    rcases List.mem_append.mp hht' with hht' | hht'
    · obtain ⟨t, hmem', hawait, hwait, hnode'⟩ := h.held ht' hht' hopen
      refine ⟨t, (hids.mem_update hmem).mpr (Or.inr ⟨hmem', fun he => ?_⟩), hawait, hwait, hnode'⟩
      rw [hids.eq_of_id hmem' hmem he] at hawait
      exact hun ht' hht' hopen hawait
    · rw [List.mem_singleton.mp hht']
      exact ⟨f tok, (hids.mem_update hmem).mpr (Or.inl rfl), hf.awaitCommand, hf.state, hf.nodeID.trans hnode.symm⟩
  filed := by
    rw [htasks, htok]
    intro t hmem' k hk
    rcases (hids.mem_update hmem).mp hmem' with rfl | ⟨hin, -⟩
    · exact ⟨ht, List.mem_append_right _ (List.mem_singleton.mpr rfl), hf.awaitCommand.symm⟩
    · obtain ⟨ht', hht, he⟩ := h.filed t hin k hk
      exact ⟨ht', List.mem_append_left _ hht, he⟩
  one := by
    rw [htok]
    intro t hmem' u humem k hk he
    rcases (hids.mem_update hmem).mp hmem' with rfl | ⟨hin, -⟩
    · rcases (hids.mem_update hmem).mp humem with rfl | ⟨huin, -⟩
      · rfl
      · exact absurd (he.trans (hf.awaitCommand.trans hid)) (h.next_unawaited huin)
    · rcases (hids.mem_update hmem).mp humem with rfl | ⟨huin, -⟩
      · exact absurd (he.symm.trans (hf.awaitCommand.trans hid)) (h.next_unawaited hin)
      · exact h.one t hin u huin k hk he

/-- No reply to a command, a child instance or a timer is about a token that waits for a task. -/
theorem replied (h0 : d0.Paired g) (hord : TaskOrderly d0 trg) (hnamed : Named d0 trg tok)
    (hid : trg.repliedID = some tok.awaitCommand) : NoTask g tok.awaitCommand := by
  intro k hk
  obtain ⟨ht, hht, he⟩ := h0.filed tok hnamed.mem k hk
  exact hord.replies ht hht (hid.trans (congrArg some he.symm))

theorem reported (h0 : d0.Paired g) (hord : TaskOrderly d0 trg) (hnamed : Named d0 trg tok) (hrep : ReportsFailure trg tok) :
    NoTask g tok.awaitCommand := by
  refine h0.replied hord hnamed ?_
  rcases hrep with ⟨err, retryable, jitter, cause, rfl⟩ | ⟨err, rfl⟩ <;> rfl

end Desk.Paired

/-- Where every task has its own id, changing the first of an id changes it. -/
theorem updateFirst_eq_map {tasks : List HumanTask} (h : (tasks.map (·.taskID)).Nodup) (id : String)
    (f : HumanTask → HumanTask) :
    updateFirst (fun t => t.taskID == id) f tasks = tasks.map (fun t => if t.taskID == id then f t else t) := by
  induction tasks with
  | nil => rfl
  | cons a l ih =>
    rw [List.map_cons, List.nodup_cons] at h
    change (if a.taskID == id then f a :: l else a :: updateFirst _ f l) = _
    rw [List.map_cons]
    by_cases he : a.taskID = id
    · have hrest : l.map (fun t => if t.taskID == id then f t else t) = l := by
        refine (List.map_congr_left (fun t ht => ?_)).trans (List.map_id l)
        refine if_neg (fun hid => h.1 ?_)
        rw [he, ← beq_iff_eq.mp hid]
        exact List.mem_map_of_mem ht
      rw [if_pos (by simpa using he), if_pos (by simpa using he), hrest]
    · rw [if_neg (by simpa using he), if_neg (by simpa using he), ih h.2]

/-- One task is changed under its id. -/
theorem Desk.Paired.updateFirst (h : d.Paired g) (id : String) (f : HumanTask → HumanTask)
    (hid : ∀ ht ∈ d.tasks, ht.taskID = id → (f ht).taskID = ht.taskID)
    (hf : ∀ ht ∈ d.tasks, ht.taskID = id → (f ht).isOpen = true → ht.isOpen = true ∧ (f ht).nodeID = ht.nodeID)
    (htok : d'.tokens = d.tokens) (htasks : d'.tasks = Wrkflw.updateFirst (fun t => t.taskID == id) f d.tasks)
    (hseq : d'.taskSeq = d.taskSeq) : d'.Paired g := by
  refine h.edit (fun t => if t.taskID == id then f t else t) (fun ht hmem => ?_) (fun ht hmem hopen => ?_) htok
    (htasks.trans (updateFirst_eq_map h.nodup id f)) hseq
  · by_cases he : ht.taskID = id
    · rw [if_pos (by simpa using he)]
      exact hid ht hmem he
    · rw [if_neg (by simpa using he)]
  · by_cases he : ht.taskID = id
    · rw [if_pos (by simpa using he)] at hopen ⊢
      exact hf ht hmem he hopen
    · rw [if_neg (by simpa using he)] at hopen ⊢
      exact ⟨hopen, rfl⟩

/-- The closed tasks of a desk and the command. -/
theorem closedTask_cases (d : Desk) (taskID : String) :
    (d.closedTask taskID = (d.tasks, []) ∧ ∀ task, d.tasks.find? (fun t => t.taskID == taskID) = some task →
      taskID ≠ "" → task.isOpen = false) ∨
    ∃ task, d.tasks.find? (fun t => t.taskID == taskID) = some task ∧ task.isOpen = true ∧
      d.closedTask taskID =
      (updateFirst (fun t => t.taskID == taskID) HumanTask.cancel d.tasks, [.updateTask task.cancel]) := by
  unfold Desk.closedTask
  by_cases hempty : taskID = ""
  · rw [if_pos (by simpa using hempty)]
    exact Or.inl ⟨rfl, fun _ _ hne => absurd hempty hne⟩
  · rw [if_neg (by simpa using hempty)]
    cases hfind : d.tasks.find? (fun t => t.taskID == taskID) with
    | none => exact Or.inl ⟨rfl, fun _ he => by cases he⟩
    | some task =>
      cases hopen : task.isOpen with
      | false =>
        refine Or.inl ⟨?_, fun task' he _ => ?_⟩
        · simp [hopen]
        · rw [← Option.some.inj he]
          exact hopen
      | true => exact Or.inr ⟨task, rfl, hopen, by simp [hopen]⟩

theorem cancel_closed (ht : HumanTask) : ht.cancel.isOpen = false := rfl

/-- The task found under an id is the only one. -/
theorem Desk.Booked.found (h : d.Booked g) {task : HumanTask}
    (hfind : d.tasks.find? (fun t => t.taskID == id) = some task) (hmem : ht ∈ d.tasks) (hid : ht.taskID = id) :
    ht = task := by
  refine List.inj_on_of_nodup_map h.nodup hmem (List.mem_of_find?_eq_some hfind) ?_
  have hfound : task.taskID = id := by simpa using List.find?_some hfind
  exact hid.trans hfound.symm

/-- Once its task is closed the token holds no open one. -/
theorem untasked_closed {tasks : List HumanTask} {close : HumanTask → HumanTask} (h : (tasks.map (·.taskID)).Nodup)
    (hclose : ∀ t, (close t).isOpen = false ∧ (close t).taskID = t.taskID) (hd : d.tasks =
      updateFirst (fun t => t.taskID == id) close tasks) (hid : tok.awaitCommand = id) : d.Untasked tok := by
  intro ht hmem hopen he
  rw [hd, updateFirst_eq_map h] at hmem
  obtain ⟨ht0, hmem0, rfl⟩ := List.mem_map.mp hmem
  by_cases heq : ht0.taskID = id
  · rw [if_pos (by simpa using heq), (hclose ht0).1] at hopen
    cases hopen
  · rw [if_neg (by simpa using heq)] at he
    exact heq (he.symm.trans hid)

/-- Every act keeps the pairing. -/
theorem Act.paired (hop : g.Opaque) (hids : d.Ids g) (hsh : d.Shapes) (h : d.Paired g) (h0 : d0.Paired g)
    (hord : TaskOrderly d0 trg) (hact : Act g trg d0 d d' cmds) : d'.Paired g := by
  -- an active token waits for nothing
  have hlone : ∀ {tok : Token}, tok ∈ d.tokens → tok.state = .active → NoTask g tok.awaitCommand := fun hmem hst =>
    ((hsh.shaped _ hmem).active (Or.inl hst)).noTask
  -- a token that waits for no task is freed
  have hfree : ∀ {tok : Token} {f : Token → Token} {d' : Desk}, tok ∈ d.tokens → NoTask g tok.awaitCommand →
      (∀ t : Token, t.Clears (f t)) → d'.tokens = (d.update tok.id f).tokens → d'.tasks = d.tasks →
      d'.taskSeq = d.taskSeq → d'.Paired g := by
    intro tok f d' hmem hno hf htok htasks hseq
    refine h.update hids hmem (h.untasked hno) ?_ htok htasks hseq
    rw [(hf tok).awaitCommand]
    exact NoTask.empty g
  cases hact with
  | place node scope flow at_ =>
    refine h.tokens rfl rfl (fun t' hmem' => ?_) (fun t hmem => Or.inl (List.mem_append_left _ hmem))
    rcases List.mem_append.mp hmem' with hmem' | hmem'
    · exact Or.inl ⟨t', hmem', rfl, rfl⟩
    · rw [List.mem_singleton.mp hmem']
      exact Or.inr (NoTask.empty g)
  | step tok f hmem hactive hf =>
    refine h.update hids hmem (h.untasked (hlone hmem hactive)) ?_ rfl rfl rfl
    rw [(hf tok).awaitCommand]
    exact hlone hmem hactive
  | drop p hp =>
    refine h.filter p (fun t hmem hpt => h.untasked ?_) rfl rfl rfl
    exact ((hsh.shaped t hmem).active (hp t hmem hpt)).noTask
  | defer tok hmem hactive =>
    have hno := hlone hmem hactive
    exact h.update (f := fun t => { t with state := .waiting }) hids hmem (h.untasked hno) hno rfl rfl rfl
  | pop id rest hq =>
    by_cases hin : ∃ tok ∈ d.tokens, tok.id = id
    · obtain ⟨tok, hmem, rfl⟩ := hin
      have hno : NoTask g tok.awaitCommand := (hsh.queued tok hmem (hq ▸ List.mem_cons_self)).2.noTask
      exact h.update (f := fun t => { t with state := .active }) hids hmem (h.untasked hno) hno rfl rfl rfl
    · refine h.congr ?_ rfl rfl
      refine (List.map_congr_left (fun t hmem => ?_)).trans (List.map_id _)
      exact if_neg (fun he => hin ⟨t, hmem, by simpa using he⟩)
  | park tok f tasks nc nt n m cmds armCmds arms gws trs hmem hactive hwait harm =>
    have hno := hlone hmem hactive
    have hun := h.untasked hno
    cases hwait with
    | command f cmd hf hcmd hkind =>
      refine h.update hids hmem hun ?_ rfl (List.append_nil _) rfl
      rw [(hf tok).awaitCommand]
      exact NoTask.other g (by decide) _
    | task f ht spec hf hid hopen hnode => exact h.park hids hmem hun hid hnode (hf tok) rfl rfl rfl
    | timer spec => exact h.update hids hmem hun (NoTask.other g (by decide) _) rfl (List.append_nil _) rfl
    | signal name hname => exact h.update hids hmem hun hno rfl (List.append_nil _) rfl
    | message name key => exact h.update hids hmem hun hno rfl (List.append_nil _) rfl
    | gateway f hf =>
      refine h.update hids hmem hun ?_ rfl (List.append_nil _) rfl
      rw [(hf tok).awaitCommand]
      exact fun k => (unanswered_gateway hop (hids.minted tok hmem) k).2
  | defect tok inc hmem hactive hid hkind htok hnode =>
    have hno := hlone hmem hactive
    exact h.update (f := fun t => { t with state := .incident }) hids hmem (h.untasked hno) hno rfl rfl rfl
  | filed ht hid hclosed => exact h.append_closed hid hclosed rfl rfl rfl
  | answer tok f hmem hnamed hf harms hnone =>
    have hnotask : TendsTask trg tok → NoTask g tok.awaitCommand := by
      intro htends k hk
      obtain ⟨ht, hht, he⟩ := h.filed tok hmem k hk
      exact hnone htends ht hht he
    refine hfree hmem ?_ hf rfl rfl rfl
    cases hnamed.replies with
    | completed output => exact h0.replied hord hnamed rfl
    | failed err retryable jitter cause => exact h0.replied hord hnamed rfl
    | childCompleted output => exact h0.replied hord hnamed rfl
    | childFailed err => exact h0.replied hord hnamed rfl
    | human outcome note output actor => exact hnotask (Or.inl ⟨outcome, note, output, actor, rfl⟩)
    | timer => exact h0.replied hord hnamed rfl
    | deadline tr htr htask =>
      by_cases he : tr.timerID = tok.awaitCommand
      · exact h0.replied hord hnamed (congrArg some he)
      · exact hnotask (Or.inr ⟨tr.timerID, rfl, he⟩)
  | finishTask tok f task close hmem hnamed hf harms htask hopen hclose =>
    set d1 : Desk := { d with tasks := updateFirst (fun t => t.taskID == tok.awaitCommand) close d.tasks } with hd1
    have hpaired : d1.Paired g := h.updateFirst tok.awaitCommand close (fun ht _ _ => (hclose ht).2)
      (fun ht _ _ ho => absurd ho (by rw [(hclose ht).1]; simp)) rfl rfl rfl
    have hids1 : d1.Ids g := ⟨hids.minted, hids.nodup, hids.finals, hids.queue⟩
    refine hpaired.update hids1 hmem (untasked_closed h.nodup hclose rfl rfl) ?_ rfl rfl rfl
    rw [(hf tok).awaitCommand]
    exact NoTask.empty g
  | hear tok f hmem hf hid harms =>
    have hno : tok.awaitCommand = "" := by
      rcases hf.heard with ⟨hne, -⟩ | ⟨hne, -⟩
      · exact ((hsh.shaped tok hmem).signal hne).2.1
      · exact ((hsh.shaped tok hmem).message hne).2.1
    have hno' : NoTask g tok.awaitCommand := hno ▸ NoTask.empty g
    refine h.update hids hmem (h.untasked hno') ?_ rfl rfl rfl
    rw [hf.awaitCommand]
    exact hno'
  | win tok f won cmds hmem hawait harmed hf hcmds =>
    have hno : NoTask g tok.awaitCommand := by
      rw [hawait]
      exact fun k => (unanswered_gateway hop (hids.minted tok hmem) k).2
    exact hfree hmem hno hf rfl rfl rfl
  | rewait tok f tr spec hmem hnamed htrg hf harms htr =>
    obtain ⟨err, retryable, jitter, cause, htrg⟩ := htrg
    have hno : NoTask g tok.awaitCommand := h0.replied hord hnamed (by rw [htrg]; rfl)
    refine h.update hids hmem (h.untasked hno) ?_ rfl rfl rfl
    rw [(hf tok).awaitCommand]
    exact NoTask.other g (by decide) _
  | fail tok inc hmem hnamed htrg harms hid hkind htok hnode =>
    obtain ⟨err, retryable, jitter, cause, htrg⟩ := htrg
    have hno : NoTask g tok.awaitCommand := h0.replied hord hnamed (by rw [htrg]; rfl)
    exact h.update (f := fun t => { t with state := .incident }) hids hmem (h.untasked hno) hno rfl rfl rfl
  | reinvoke tok f cmd arms m armCmds hmem hnamed htrg hf hcmd hkind harm =>
    have hno : NoTask g tok.awaitCommand := h0.replied hord hnamed (by rw [htrg]; rfl)
    refine h.update hids hmem (h.untasked hno) ?_ rfl rfl rfl
    rw [(hf tok).awaitCommand]
    exact NoTask.other g (by decide) _
  | resolve inc tok f cmd arms m armCmds n hd htrg hinc hkind hmem htok hf hcmd hhuman harm =>
    subst hd
    have hstate := hord.resolves inc (List.mem_of_find?_eq_some hinc) hkind ⟨n, htrg⟩ tok hmem htok.symm
    refine h.update hids hmem (h.untasked_of_state hids hmem (by rw [hstate]; decide)) ?_ rfl rfl rfl
    rw [(hf tok).awaitCommand]
    exact NoTask.other g (by decide) _
  | lose tok hmem hnamed htrg harms =>
    refine h.filter (fun t => t.id != tok.id) (fun t hmem' hpt => ?_) rfl rfl rfl
    rw [hids.eq_of_id hmem' hmem (by simpa using hpt)]
    exact h.untasked (h0.reported hord hnamed htrg)
  | cancel tok hmem harms =>
    rcases closedTask_cases d tok.awaitCommand with ⟨he, hclosed⟩ | ⟨task, hfind, hopen, he⟩
    · refine h.filter (fun t => t.id != tok.id) (fun t hmem' hpt => ?_) rfl (by rw [he]) rfl
      rw [hids.eq_of_id hmem' hmem (by simpa using hpt)]
      intro ht hht hopen hawait
      have hne : tok.awaitCommand ≠ "" := by
        rw [hawait]
        exact (h.minted ht hht).ne_empty
      cases hfind : d.tasks.find? (fun t => t.taskID == tok.awaitCommand) with
      | none => exact absurd hawait.symm (by simpa using List.find?_eq_none.mp hfind ht hht)
      | some task =>
        have hsame := h.booked.found hfind hht hawait.symm
        rw [hsame, hclosed task hfind hne] at hopen
        cases hopen
    · set d1 : Desk := { d with tasks := updateFirst (fun t => t.taskID == tok.awaitCommand) HumanTask.cancel d.tasks }
        with hd1
      have hpaired : d1.Paired g := h.updateFirst tok.awaitCommand HumanTask.cancel (fun _ _ _ => rfl)
        (fun ht _ _ ho => absurd ho (by rw [cancel_closed]; simp)) rfl rfl rfl
      refine hpaired.filter (fun t => t.id != tok.id) (fun t hmem' hpt => ?_) rfl (by rw [he]) rfl
      rw [hids.eq_of_id hmem' hmem (by simpa using hpt)]
      exact untasked_closed h.nodup (fun t => ⟨cancel_closed t, rfl⟩) rfl rfl
  | editTask taskID task f htask hopen hf =>
    refine h.updateFirst taskID f (fun ht hmem he => ?_) (fun ht hmem he ho => ?_) rfl rfl rfl
    · rw [h.booked.found htask hmem he]
      exact (hf task hopen).2.1
    · rw [h.booked.found htask hmem he]
      exact ⟨hopen, (hf task hopen).2.2⟩
  | finish tokens cmds cuts exits st htokens hcancel hcmds =>
    set d1 : Desk := { d with tasks := d.tasks.map (fun t => if t.isOpen then t.cancel else t) } with hd1
    have hallclosed : ∀ ht ∈ d.tasks, (if ht.isOpen then ht.cancel else ht).isOpen = false := by
      intro ht _
      split
      · exact cancel_closed ht
      · simpa using ‹¬ ht.isOpen = true›
    have hpaired : d1.Paired g := h.edit (fun t => if t.isOpen then t.cancel else t) (fun ht _ => by split <;> rfl)
      (fun ht hmem ho => by rw [hallclosed ht hmem] at ho; cases ho) rfl rfl rfl
    rcases htokens with ⟨rfl, -⟩ | ⟨rfl, -, -⟩
    · exact hpaired.congr rfl rfl rfl
    · refine hpaired.filter (fun _ => false) (fun t _ _ => ?_) (by simp) rfl rfl
      intro ht hht hopen
      obtain ⟨ht0, hmem0, rfl⟩ := List.mem_map.mp hht
      rw [hallclosed ht0 hmem0] at hopen
      cases hopen
  | _ => exact h.congr rfl rfl rfl

/-! ## What an act does to the tasks -/

/-- The command is about the task. -/
def Command.regards (id : String) : Command → Bool
  | .updateTask task => task.taskID == id
  | .awaitHuman taskID _ => taskID == id
  | _ => false

/-- The commands are about no task. -/
def Taskless (cmds : List Command) : Prop := ∀ cmd ∈ cmds, ∀ id, cmd.regards id = false

theorem Taskless.nil : Taskless [] := fun cmd hcmd => absurd hcmd (by simp)

theorem Taskless.append (h : Taskless cmds) (h' : Taskless cmds') : Taskless (cmds ++ cmds') := by
  intro cmd hcmd
  rcases List.mem_append.mp hcmd with hcmd | hcmd
  · exact h cmd hcmd
  · exact h' cmd hcmd

theorem Taskless.cons (h : ∀ id, cmd.regards id = false) (h' : Taskless cmds) : Taskless (cmd :: cmds) := by
  intro c hc
  rcases List.mem_cons.mp hc with rfl | hc
  · exact h
  · exact h' c hc

theorem Command.closes_of_regards (h : cmd.regards id = false) : cmd.closes id = false := by
  cases cmd with
  | updateTask task =>
    change (task.taskID == id) = false at h
    change (task.taskID == id && _) = false
    rw [h]
    rfl
  | _ => rfl

theorem Taskless.countP (h : Taskless cmds) (id : String) : cmds.countP (Command.closes id) = 0 :=
  List.countP_eq_zero.mpr (fun cmd hcmd => by simp [Command.closes_of_regards (h cmd hcmd id)])

/-- The commands about the task, in their order. -/
def about (id : String) (cmds : List Command) : List Command := cmds.filter (Command.regards id)

theorem about_append (id : String) (cmds cmds' : List Command) : about id (cmds ++ cmds') = about id cmds ++ about id cmds' :=
  List.filter_append ..

theorem Taskless.about (h : Taskless cmds) (id : String) : about id cmds = [] :=
  List.filter_eq_nil_iff.mpr (fun cmd hcmd => by rw [h cmd hcmd id]; simp)

/-- What closes a task is about it. -/
theorem countP_about (id : String) (cmds : List Command) :
    (about id cmds).countP (Command.closes id) = cmds.countP (Command.closes id) := by
  unfold about
  rw [List.countP_filter]
  refine List.countP_congr (fun cmd _ => ?_)
  cases hreg : cmd.regards id with
  | true => simp
  | false => simp [Command.closes_of_regards hreg]

theorem Command.Neutral.regards (h : cmd.Neutral) (id : String) : cmd.regards id = false := by
  cases cmd with
  | updateTask task => cases h
  | awaitHuman taskID spec => cases h
  | _ => rfl

/-- A command that waits for another answer than a task's is about none. -/
theorem Command.regards_of_answered (h : cmd.correlationID ≠ "") (hhuman : ∀ id spec, cmd ≠ .awaitHuman id spec)
    (id : String) : cmd.regards id = false := by
  cases cmd with
  | updateTask task => exact absurd rfl h
  | awaitHuman taskID spec => exact absurd rfl (hhuman taskID spec)
  | _ => rfl

theorem Schedules.taskless {n m : Nat} {ids : List String} (h : Schedules g n m ids cmds) : Taskless cmds := by
  intro cmd hcmd
  obtain ⟨id, -, owner, spec, kind, rfl⟩ := h.only cmd hcmd
  exact fun _ => rfl

theorem Cancels.taskless {ids : List String} {except : String} (h : Cancels ids except cmds) : Taskless cmds := by
  intro cmd hcmd
  obtain ⟨id, -, rfl⟩ := h.only cmd hcmd
  exact fun _ => rfl

/-- What an act does to the tasks, and what it says of them. -/
inductive Deed (g : IDGenerator) (trg : TriggerBody) (d d' : Desk) : List Command → Prop
  | keep (cmds : List Command) (htasks : d'.tasks = d.tasks) (hcmds : Taskless cmds) (hends : d'.ends = d.ends) :
      Deed g trg d d' cmds
  | post (ht : HumanTask) (spec : AuthzSpec) (rest : List Command) (hid : ht.taskID = g.newID .task (d.taskSeq + 1))
      (hopen : ht.isOpen = true) (hnew : ht.Posted spec d.instanceID) (htasks : d'.tasks = d.tasks ++ [ht])
      (hseq : d'.taskSeq = d.taskSeq + 1) (hrest : Taskless rest) (hends : d'.ends = d.ends) :
      Deed g trg d d' (.awaitHuman ht.taskID spec :: rest)
  | file (ht : HumanTask) (hid : ht.taskID = g.newID .task (d.taskSeq + 1)) (hclosed : ht.isOpen = false)
      (hdone : ht.Immediate)
      (htasks : d'.tasks = d.tasks ++ [ht]) (hseq : d'.taskSeq = d.taskSeq + 1) (htok : d'.tokens = d.tokens)
      (hends : d'.ends = d.ends) : Deed g trg d d' []
  | edit (task : HumanTask) (f : HumanTask → HumanTask) (hmem : task ∈ d.tasks) (hopen : task.isOpen = true)
      (hf : (f task).isOpen = true ∧ (f task).taskID = task.taskID) (htrg : trg.edits = true)
      (htasks : d'.tasks = d.tasks.map (fun t => if t.taskID == task.taskID then f t else t)) (hends : d'.ends = d.ends) :
      Deed g trg d d' [.updateTask (f task)]
  | close (id : String) (task : HumanTask) (close : HumanTask → HumanTask)
      (hclose : ∀ t, (close t).isOpen = false ∧ (close t).taskID = t.taskID) (hmem : task ∈ d.tasks) (hid : task.taskID = id)
      (hopen : task.isOpen = true) (htasks : d'.tasks = d.tasks.map (fun t => if t.taskID == id then close t else t))
      (hends : d'.ends = d.ends) (hgone : ∀ t ∈ d'.tokens, t.awaitCommand ≠ id) : Deed g trg d d' [.updateTask (close task)]
  | finish (rest : List Command) (htasks : d'.tasks = d.tasks.map (fun t => if t.isOpen then t.cancel else t))
      (hrest : Taskless rest) (hends : d'.ends.length = d.ends.length + 1) :
      Deed g trg d d' ((d.tasks.filter (·.isOpen)).map (fun t => .updateTask t.cancel) ++ rest)

theorem Act.deed (hids : d.Ids g) (h : d.Booked g) (hact : Act g trg d0 d d' cmds) : Deed g trg d d' cmds := by
  -- nobody else waits for what a token waited for
  have hgone : ∀ {tok t : Token} {task : HumanTask}, tok ∈ d.tokens → task ∈ d.tasks → task.taskID = tok.awaitCommand →
      t ∈ d.tokens → t.id ≠ tok.id → t.awaitCommand ≠ tok.awaitCommand := by
    intro tok t task hmem htask hid hmem' hne he
    obtain ⟨k, -, hk⟩ := h.minted task htask
    exact hne (h.one tok hmem t hmem' k (hid.symm.trans hk) he)
  have hinvoke : ∀ {cmd : Command} {id : String} {cs : List Command} (k : IDKind) (n : Nat), id = g.newID k n →
      cmd.correlationID = id → (∀ id spec, cmd ≠ .awaitHuman id spec) → Taskless cs → Taskless (cmd :: cs) := by
    intro cmd id cs k n hid hcmd hhuman hcs
    refine Taskless.cons (Command.regards_of_answered ?_ hhuman) hcs
    rw [hcmd, hid]
    exact g.newID_ne_empty k n
  cases hact with
  | fire name input => exact .keep _ rfl (Taskless.cons (fun _ => rfl) Taskless.nil) rfl
  | say cmds hcmds => exact .keep _ rfl (fun cmd hcmd => (hcmds cmd hcmd).regards) rfl
  | park tok f tasks nc nt n m cmds armCmds arms gws trs hmem hactive hwait harm =>
    have harms := harm.timers.taskless
    cases hwait with
    | command f cmd hf hcmd hkind => exact .keep _ (List.append_nil _) (hinvoke _ _ rfl hcmd hkind harms) rfl
    | task f ht spec hf hid hopen hnode hnew => exact .post ht spec _ hid hopen hnew rfl rfl harms rfl
    | timer spec => exact .keep _ (List.append_nil _) (Taskless.cons (fun _ => rfl) harms) rfl
    | signal name hname => exact .keep _ (List.append_nil _) harms rfl
    | message name key => exact .keep _ (List.append_nil _) harms rfl
    | gateway f hf => exact .keep _ (List.append_nil _) harms rfl
  | filed ht hid hclosed hdone => exact .file ht hid hclosed hdone rfl rfl rfl rfl
  | finishTask tok f task close hmem hnamed hf harms htask hopen hclose =>
    have hfound : task.taskID = tok.awaitCommand := by simpa using List.find?_some htask
    have hin := List.mem_of_find?_eq_some htask
    refine .close tok.awaitCommand task close hclose hin hfound hopen (updateFirst_eq_map h.nodup _ _) rfl (fun t hmem' => ?_)
    rcases (hids.mem_update hmem).mp hmem' with rfl | ⟨hold, hne⟩
    · rw [(hf tok).awaitCommand]
      exact hnamed.await.symm
    · exact hgone hmem hin hfound hold hne
  | win tok f won cmds hmem hawait harmed hf hcmds => exact .keep _ rfl hcmds.taskless rfl
  | rewait tok f tr spec hmem hnamed htrg hf harms htr => exact .keep _ rfl (Taskless.cons (fun _ => rfl) Taskless.nil) rfl
  | reinvoke tok f cmd arms m armCmds hmem hnamed htrg hf hcmd hkind harm =>
    exact .keep _ rfl (hinvoke _ _ rfl hcmd hkind harm.timers.taskless) rfl
  | resolve inc tok f cmd arms m armCmds n hd htrg hinc hkind hmem htok hf hcmd hhuman harm =>
    exact .keep _ rfl (hinvoke _ _ rfl hcmd hhuman harm.timers.taskless) rfl
  | cancel tok hmem harms =>
    rcases closedTask_cases d tok.awaitCommand with ⟨he, -⟩ | ⟨task, hfind, hopen, he⟩
    · rw [he]
      exact .keep _ rfl Taskless.nil rfl
    · rw [he]
      have hfound : task.taskID = tok.awaitCommand := by simpa using List.find?_some hfind
      have hin := List.mem_of_find?_eq_some hfind
      refine .close tok.awaitCommand task HumanTask.cancel (fun t => ⟨cancel_closed t, rfl⟩) hin hfound hopen
        (updateFirst_eq_map h.nodup _ _) rfl (fun t hmem' => ?_)
      obtain ⟨hold, hne⟩ := List.mem_filter.mp hmem'
      exact hgone hmem hin hfound hold (by simpa using hne)
  | armEventSubs scope arms m cmds hscope harm htimers => exact .keep _ rfl htimers.taskless rfl
  | dropEventSubs p cmds hcmds => exact .keep _ rfl hcmds.taskless rfl
  | dropBoundaries p cmds hcmds => exact .keep _ rfl hcmds.taskless rfl
  | dropGateways p won cmds hcmds => exact .keep _ rfl hcmds.taskless rfl
  | dropTimers p fired cmds hfired hcmds => exact .keep _ rfl hcmds.taskless rfl
  | schedule tr spec hid => exact .keep _ rfl (Taskless.cons (fun _ => rfl) Taskless.nil) rfl
  | editTask taskID task f htask hopen hf htrg =>
    have hfound : task.taskID = taskID := by simpa using List.find?_some htask
    subst hfound
    exact .edit task f (List.mem_of_find?_eq_some htask) hopen ⟨(hf task hopen).1, (hf task hopen).2.1⟩ htrg
      (updateFirst_eq_map h.nodup _ _) rfl
  | walkCommand cmd again backoff hcmd hhuman hagain => exact .keep _ rfl (hinvoke _ _ rfl hcmd hhuman Taskless.nil) rfl
  | finish tokens cmds cuts exits st htokens hcancel hcmds =>
    obtain ⟨terminal, timers, rfl, hterm, htimers⟩ := hcmds
    rw [List.append_assoc]
    refine .finish (terminal ++ timers) rfl
      (Taskless.append (fun cmd hcmd => (hterm cmd hcmd).regards) (fun cmd hcmd => ?_)) rfl
    obtain ⟨id, rfl⟩ := htimers cmd hcmd
    exact fun _ => rfl
  | _ => exact .keep _ rfl Taskless.nil rfl

/-! ## A task through a step -/

/-- The task is open and nothing was said, while the instance has not ended; or it is closed and that was said once. -/
def Desk.Follows (d0 d : Desk) (id : String) (n : Nat) : Prop :=
  (d.ends.length = d0.ends.length ∧ (∃ ht ∈ d.tasks, ht.taskID = id ∧ ht.isOpen = true) ∧ n = 0) ∨
    ((∃ ht ∈ d.tasks, ht.taskID = id) ∧ (∀ ht ∈ d.tasks, ht.taskID = id → ht.isOpen = false) ∧ n = 1)

theorem Desk.Follows.mem {n : Nat} (h : d0.Follows d id n) : ∃ ht ∈ d.tasks, ht.taskID = id := by
  rcases h with ⟨-, ⟨ht, hmem, hid, -⟩, -⟩ | ⟨hmem, -⟩
  · exact ⟨ht, hmem, hid⟩
  · exact hmem

/-- The tasks are changed under their ids, and the one that is followed is as open as before. -/
theorem Desk.Follows.edit {n : Nat} (h : d0.Follows d id n) (e : HumanTask → HumanTask)
    (hid : ∀ ht ∈ d.tasks, (e ht).taskID = ht.taskID)
    (he : ∀ ht ∈ d.tasks, ht.taskID = id → (e ht).isOpen = ht.isOpen) (htasks : d'.tasks = d.tasks.map e)
    (hends : d'.ends = d.ends) : d0.Follows d' id n := by
  rcases h with ⟨hlen, ⟨ht, hmem, hht, hopen⟩, hn⟩ | ⟨⟨ht, hmem, hht⟩, hclosed, hn⟩
  · refine Or.inl ⟨by rw [hends, hlen], ⟨e ht, ?_, (hid ht hmem).trans hht, (he ht hmem hht).trans hopen⟩, hn⟩
    rw [htasks]
    exact List.mem_map_of_mem hmem
  · refine Or.inr ⟨⟨e ht, ?_, (hid ht hmem).trans hht⟩, fun ht' hmem' hht' => ?_, hn⟩
    · rw [htasks]
      exact List.mem_map_of_mem hmem
    · rw [htasks] at hmem'
      obtain ⟨ht0, hmem0, rfl⟩ := List.mem_map.mp hmem'
      have hht0 := (hid ht0 hmem0).symm.trans hht'
      rw [he ht0 hmem0 hht0]
      exact hclosed ht0 hmem0 hht0

/-- The commands that close the tasks of an instance that ends. -/
theorem countP_cancelled {tasks : List HumanTask} (h : (tasks.map (·.taskID)).Nodup) (id : String) :
    ((tasks.filter (·.isOpen)).map (fun t => Command.updateTask t.cancel)).countP (Command.closes id) =
      if id ∈ (tasks.filter (·.isOpen)).map (·.taskID) then 1 else 0 := by
  have hcount : ((tasks.filter (·.isOpen)).map (fun t => Command.updateTask t.cancel)).countP (Command.closes id) =
      ((tasks.filter (·.isOpen)).map (·.taskID)).count id := by
    rw [List.count_eq_countP, List.countP_map, List.countP_map]
    refine List.countP_congr (fun t _ => ?_)
    simp [Command.closes, HumanTask.cancel, HumanTask.isOpen]
  have hnodup : ((tasks.filter (·.isOpen)).map (·.taskID)).Nodup := ((List.filter_sublist).map _).nodup h
  rw [hcount]
  split
  · exact List.count_eq_one_of_mem hnodup ‹_›
  · exact List.count_eq_zero_of_not_mem ‹_›

/-- Another task joins. -/
theorem Desk.Follows.add {n : Nat} (h : d0.Follows d id n) (hp : d.Booked g)
    (hid : ht.taskID = g.newID .task (d.taskSeq + 1)) (htasks : d'.tasks = d.tasks ++ [ht]) (hends : d'.ends = d.ends) :
    d0.Follows d' id n := by
  have hne : ht.taskID ≠ id := by
    obtain ⟨ht', hmem, rfl⟩ := h.mem
    rw [hid]
    exact (hp.minted ht' hmem).ne_next.symm
  rcases h with ⟨hlen, ⟨ht', hmem, hht, hopen⟩, hn⟩ | ⟨⟨ht', hmem, hht⟩, hclosed, hn⟩
  · exact Or.inl ⟨by rw [hends, hlen], ⟨ht', htasks ▸ List.mem_append_left _ hmem, hht, hopen⟩, hn⟩
  · refine Or.inr ⟨⟨ht', htasks ▸ List.mem_append_left _ hmem, hht⟩, fun u hu hid' => ?_, hn⟩
    rw [htasks] at hu
    rcases List.mem_append.mp hu with hu | hu
    · exact hclosed u hu hid'
    · rw [List.mem_singleton.mp hu] at hid'
      exact absurd hid' hne

/-- One act, with what it says of the task. -/
theorem Desk.Follows.act {n : Nat} (h : d0.Follows d id n) (hp : d.Booked g) (hdeed : Deed g trg d d' cmds) :
    d0.Follows d' id (n + cmds.countP (Command.closes id)) := by
  cases hdeed with
  | keep cmds htasks hcmds hends =>
    rw [hcmds.countP]
    exact h.edit (fun t => t) (fun _ _ => rfl) (fun _ _ _ => rfl) (htasks.trans (List.map_id _).symm) hends
  | post ht spec rest hid hopen hnew htasks hseq hrest hends =>
    rw [List.countP_cons_of_neg (by simp [Command.closes]), hrest.countP]
    exact h.add hp hid htasks hends
  | file ht hid hclosed hdone htasks hseq htok hends => exact h.add hp hid htasks hends
  | edit task f hmem hopen hf htrg htasks hends =>
    have hcount : [Command.updateTask (f task)].countP (Command.closes id) = 0 := by simp [Command.closes, hf.1]
    rw [hcount]
    have he : ∀ ht ∈ d.tasks, (if ht.taskID == task.taskID then f ht else ht).taskID = ht.taskID ∧
        (if ht.taskID == task.taskID then f ht else ht).isOpen = ht.isOpen := by
      intro ht hht
      by_cases hsame : ht.taskID = task.taskID
      · obtain rfl := List.inj_on_of_nodup_map hp.nodup hht hmem hsame
        rw [if_pos (by simp), hf.1, hopen]
        exact ⟨hf.2, rfl⟩
      · rw [if_neg (by simpa using hsame)]
        exact ⟨rfl, rfl⟩
    exact h.edit _ (fun ht hht => (he ht hht).1) (fun ht hht _ => (he ht hht).2) htasks hends
  | close id' task close hclose hmem hid hopen htasks hends hgone =>
    have hids : ∀ ht ∈ d.tasks, (if ht.taskID == id' then close ht else ht).taskID = ht.taskID := by
      intro ht _
      split
      · exact (hclose ht).2
      · rfl
    by_cases he : id' = id
    · -- the task that is followed was open, and is closed now
      have hcount : [Command.updateTask (close task)].countP (Command.closes id) = 1 := by
        simp [Command.closes, (hclose task).1, (hclose task).2, hid, he]
      rcases h with ⟨-, -, hn⟩ | ⟨-, hclosed, -⟩
      · rw [hcount, hn]
        refine Or.inr ⟨⟨close task, ?_, (hclose task).2.trans (hid.trans he)⟩, fun ht hht hht' => ?_, rfl⟩
        · rw [htasks]
          refine List.mem_map.mpr ⟨task, hmem, ?_⟩
          rw [if_pos (by simpa using hid)]
        · rw [htasks] at hht
          obtain ⟨ht0, hmem0, rfl⟩ := List.mem_map.mp hht
          rw [hids ht0 hmem0] at hht'
          rw [if_pos (by simpa using hht'.trans he.symm)]
          exact (hclose ht0).1
      · rw [hclosed task hmem (hid.trans he)] at hopen
        cases hopen
    · have hcount : [Command.updateTask (close task)].countP (Command.closes id) = 0 := by
        simp [Command.closes, (hclose task).2, hid, he]
      rw [hcount]
      refine h.edit (fun t => if t.taskID == id' then close t else t) hids (fun ht _ hht => ?_) htasks hends
      rw [if_neg (by simpa using fun heq => he (heq.symm.trans hht))]
  | finish rest htasks hrest hends =>
    have hclosed : ∀ ht ∈ d'.tasks, ht.isOpen = false := by
      intro ht hht
      rw [htasks] at hht
      obtain ⟨ht0, -, rfl⟩ := List.mem_map.mp hht
      split
      · exact cancel_closed ht0
      · simpa using ‹¬ ht0.isOpen = true›
    have hmem' : ∃ ht ∈ d'.tasks, ht.taskID = id := by
      obtain ⟨ht, hmem, hid⟩ := h.mem
      refine ⟨_, htasks ▸ List.mem_map_of_mem hmem, ?_⟩
      split
      · exact hid
      · exact hid
    rw [List.countP_append, hrest.countP, countP_cancelled hp.nodup]
    refine Or.inr ⟨hmem', fun ht hht _ => hclosed ht hht, ?_⟩
    rcases h with ⟨-, ⟨ht, hmem, hid, hopen⟩, hn⟩ | ⟨-, hclosed0, hn⟩
    · rw [if_pos (List.mem_map.mpr ⟨ht, List.mem_filter.mpr ⟨hmem, hopen⟩, hid⟩), hn]
    · rw [if_neg, hn]
      intro hin
      obtain ⟨ht, hht, hid⟩ := List.mem_map.mp hin
      obtain ⟨hmem, hopen⟩ := List.mem_filter.mp hht
      rw [hclosed0 ht hmem hid] at hopen
      cases hopen

/-- Until the instance ends, no token waits for a closed task, of those the ids of which are in question. -/
structure Desk.Quick (q : String → Prop) (d0 d : Desk) : Prop where
  ends : d0.ends.length ≤ d.ends.length
  tokens : d.ends.length = d0.ends.length → ∀ ht ∈ d.tasks, q ht.taskID → ht.isOpen = false →
    ∀ t ∈ d.tokens, t.awaitCommand ≠ ht.taskID

/-- Who waits for a task after an act waited for it before, or waits for the next one. -/
theorem Act.awaits (hop : g.Opaque) (hids : d.Ids g) (hact : Act g trg d0 d d' cmds) (hmem : t ∈ d'.tokens) :
    NoTask g t.awaitCommand ∨ (∃ t0 ∈ d.tokens, t0.awaitCommand = t.awaitCommand) ∨
      t.awaitCommand = g.newID .task (d.taskSeq + 1) := by
  rcases hact.bills hop hids with hplain | ⟨tokenID, id, hen⟩ | ⟨id, hw⟩
  · rcases hplain.tokens t hmem with ⟨t0, hmem0, -, he⟩ | hun
    · exact Or.inr (Or.inl ⟨t0, hmem0, he⟩)
    · exact Or.inl (fun k => (hun k).2)
  · rcases hen.tokens t hmem with ⟨-, he⟩ | ⟨t0, hmem0, -, he⟩
    · rw [he]
      rcases hen.next.next with ⟨-, -, hid⟩ | ⟨-, -, hid⟩
      · rw [hid]
        exact Or.inl (NoTask.other g (by decide) _)
      · exact Or.inr (Or.inr hid)
    · exact Or.inr (Or.inl ⟨t0, hmem0, he⟩)
  · rw [hw.tokens] at hmem
    exact Or.inr (Or.inl ⟨t, hmem, rfl⟩)

theorem Desk.Quick.act {q : String → Prop} (hop : g.Opaque) (hids : d.Ids g) (hp : d.Booked g)
    (hnext : ∀ t ∈ d.tokens, t.awaitCommand ≠ g.newID .task (d.taskSeq + 1)) (h : d0.Quick q d) {d1 : Desk}
    (hact : Act g trg d1 d d' cmds) : d0.Quick q d' := by
  -- the waiters of an old task's id are old ones
  have hold : ∀ {t : Token} {ht : HumanTask}, t ∈ d'.tokens → ht ∈ d.tasks → t.awaitCommand = ht.taskID →
      ∃ t0 ∈ d.tokens, t0.awaitCommand = ht.taskID := by
    intro t ht hmem hht he
    rcases hact.awaits hop hids hmem with hno | ⟨t0, hmem0, heq⟩ | heq
    · obtain ⟨k, -, hk⟩ := hp.minted ht hht
      exact absurd (he.trans hk) (hno k)
    · exact ⟨t0, hmem0, heq.trans he⟩
    · exact absurd (he.symm.trans heq) (hp.minted ht hht).ne_next
  have hkeep : ∀ {ht : HumanTask}, d'.ends = d.ends → d'.ends.length = d0.ends.length → ht ∈ d.tasks → q ht.taskID →
      ht.isOpen = false → ∀ t ∈ d'.tokens, t.awaitCommand ≠ ht.taskID := by
    intro ht hends hlen hht hq hclosed t hmem he
    obtain ⟨t0, hmem0, he0⟩ := hold hmem hht he
    exact h.tokens (hends ▸ hlen) ht hht hq hclosed t0 hmem0 he0
  cases hact.deed hids hp with
  | keep cmds htasks hcmds hends =>
    refine ⟨hends ▸ h.ends, fun hlen ht hht hq hclosed => ?_⟩
    rw [htasks] at hht
    exact hkeep hends hlen hht hq hclosed
  | post ht spec rest hid hopen hnew htasks hseq hrest hends =>
    refine ⟨hends ▸ h.ends, fun hlen ht' hht' hq hclosed => ?_⟩
    rw [htasks] at hht'
    rcases List.mem_append.mp hht' with hht' | hht'
    · exact hkeep hends hlen hht' hq hclosed
    · rw [List.mem_singleton.mp hht', hopen] at hclosed
      cases hclosed
  | file ht hid hclosed hdone htasks hseq htok hends =>
    refine ⟨hends ▸ h.ends, fun hlen ht' hht' hq hclosed' => ?_⟩
    rw [htasks] at hht'
    rcases List.mem_append.mp hht' with hht' | hht'
    · exact hkeep hends hlen hht' hq hclosed'
    · rw [List.mem_singleton.mp hht', htok]
      exact fun t hmem he => hnext t hmem (he.trans hid)
  | edit task f hmem hopen hf htrg htasks hends =>
    refine ⟨hends ▸ h.ends, fun hlen ht hht hq hclosed => ?_⟩
    rw [htasks] at hht
    obtain ⟨ht0, hmem0, rfl⟩ := List.mem_map.mp hht
    by_cases he : ht0.taskID = task.taskID
    · obtain rfl := List.inj_on_of_nodup_map hp.nodup hmem0 hmem he
      rw [if_pos (by simp), hf.1] at hclosed
      cases hclosed
    · rw [if_neg (by simpa using he)] at hclosed hq ⊢
      exact hkeep hends hlen hmem0 hq hclosed
  | close id task close hclose hmem hid hopen htasks hends hgone =>
    refine ⟨hends ▸ h.ends, fun hlen ht hht hq hclosed => ?_⟩
    rw [htasks] at hht
    obtain ⟨ht0, hmem0, rfl⟩ := List.mem_map.mp hht
    by_cases he : ht0.taskID = id
    · rw [if_pos (by simpa using he), (hclose ht0).2, he]
      exact hgone
    · rw [if_neg (by simpa using he)] at hclosed hq ⊢
      exact hkeep hends hlen hmem0 hq hclosed
  | finish rest htasks hrest hends =>
    have hle := h.ends
    exact ⟨by omega, fun hlen => by omega⟩

/-- What the tasks of a whole operation come to. -/
theorem Acts.tasks (hop : g.Opaque) (hord : TaskOrderly d0 trg) (h0 : d0.Paired g) (hacts : Acts g trg d0 d d' cmds)
    (hids : d.Ids g) (hsh : d.Shapes) (hp : d.Paired g) :
    d'.Ids g ∧ d'.Shapes ∧ d'.Paired g ∧ (d0.Quick (fun _ => True) d → d0.Quick (fun _ => True) d') ∧
      ∀ id n, d0.Follows d id n → d0.Follows d' id (n + cmds.countP (Command.closes id)) := by
  induction hacts with
  | nil d => exact ⟨hids, hsh, hp, fun h => h, fun id n h => h⟩
  | cons hact hrest hperm ih =>
    obtain ⟨hids', hsh', hp', hquick, hfollows⟩ := ih (hact.ids hids) (hact.shapes hids hsh hord.resolves)
      (hact.paired hop hids hsh hp h0 hord)
    refine ⟨hids', hsh', hp', fun h => hquick (h.act hop hids hp.booked (fun _ => hp.next_unawaited) hact), fun id n h => ?_⟩
    rw [← hperm.countP_eq, List.countP_append, ← Nat.add_assoc]
    exact hfollows id _ (h.act hp.booked (hact.deed hids hp.booked))
  | stray hs d' cs => exact absurd hids.sane hs

/-! ## The filter of stale commands -/

/-- Cancelling another task leaves the tasks of an id. -/
theorem filter_updateFirst {taskID : String} (hne : taskID ≠ id) (tasks : List HumanTask) :
    (updateFirst (fun t => t.taskID == taskID) HumanTask.cancel tasks).filter (fun t => t.taskID == id) =
      tasks.filter (fun t => t.taskID == id) := by
  induction tasks with
  | nil => rfl
  | cons a l ih =>
    change (if a.taskID == taskID then a.cancel :: l else a :: updateFirst _ _ l).filter _ = _
    by_cases he : a.taskID = taskID
    · have hno : ¬ (a.taskID == id) = true := by simpa [he] using hne
      have hno' : ¬ (a.cancel.taskID == id) = true := hno
      rw [if_pos (by simpa using he), List.filter_cons, if_neg hno', List.filter_cons, if_neg hno]
    · rw [if_neg (by simpa using he), List.filter_cons, List.filter_cons, ih]

/-- Only a command of its own makes the filter touch a task. -/
theorem dropStaleCommands_spares (live : List String) (id : String) (cmds : List Command) (s : InstanceState)
    (hcmds : ∀ cmd ∈ cmds, ∀ spec, cmd ≠ .awaitHuman id spec) :
    (dropStaleCommands live cmds s).state.tasks.filter (fun t => t.taskID == id) = s.tasks.filter (fun t => t.taskID == id) ∧
      about id (dropStaleCommands live cmds s).commands = about id cmds := by
  induction cmds generalizing s with
  | nil => exact ⟨rfl, rfl⟩
  | cons cmd cmds ih =>
    obtain ⟨htasks, hsaid⟩ := ih (dropStaleCommand live s cmd).state (fun c hc => hcmds c (List.mem_cons_of_mem _ hc))
    have hone : (dropStaleCommand live s cmd).state.tasks.filter (fun t => t.taskID == id) =
        s.tasks.filter (fun t => t.taskID == id) ∧
        about id (dropStaleCommand live s cmd).commands = about id [cmd] := by
      unfold dropStaleCommand
      by_cases hstale : (cmd.correlationID == "" || live.contains cmd.correlationID) = true
      · rw [if_pos hstale]
        exact ⟨rfl, rfl⟩
      · rw [if_neg hstale]
        have hquiet : cmd.regards id = false := by
          cases cmd with
          | updateTask task => exact absurd (by simp [Command.correlationID]) hstale
          | awaitHuman taskID spec =>
            have hne : taskID ≠ id := fun he => hcmds _ List.mem_cons_self spec (he ▸ rfl)
            simpa [Command.regards] using hne
          | _ => rfl
        have hnone : about id [cmd] = [] := List.filter_eq_nil_iff.mpr (fun c hc => by
          rw [List.mem_singleton.mp hc, hquiet]
          simp)
        rw [hnone]
        cases cmd with
        | awaitHuman taskID spec =>
          have hne : taskID ≠ id := fun he => hcmds _ List.mem_cons_self spec (he ▸ rfl)
          dsimp only
          split
          · rename_i task htask
            have hfound : task.taskID = taskID := by simpa using List.find?_some (taskByID_some htask).2
            split
            · refine ⟨filter_updateFirst hne s.tasks, List.filter_eq_nil_iff.mpr (fun c hc => ?_)⟩
              rw [List.mem_singleton.mp hc]
              simpa [Command.regards, HumanTask.cancel, hfound] using hne
            · exact ⟨rfl, rfl⟩
          · exact ⟨rfl, rfl⟩
        | _ => exact ⟨rfl, rfl⟩
    constructor
    · exact htasks.trans hone.1
    · change about id ((dropStaleCommand live s cmd).commands ++ _) = about id ([cmd] ++ cmds)
      rw [about_append, about_append, hone.2, hsaid]

/-- The filter keeps the pairing. -/
theorem dropStaleCommands_paired (live : List String) (cmds : List Command) {s : InstanceState} (h : s.desk.Paired g) :
    (dropStaleCommands live cmds s).state.desk.Paired g := by
  induction cmds generalizing s with
  | nil => exact h
  | cons cmd cmds ih =>
    refine ih (s := (dropStaleCommand live s cmd).state) ?_
    unfold dropStaleCommand
    split
    · exact h
    · split
      · split
        · split
          · exact h.updateFirst _ HumanTask.cancel (fun _ _ _ => rfl)
              (fun ht _ _ ho => absurd ho (by rw [cancel_closed]; simp))
              rfl rfl rfl
          · exact h
        · exact h
      · exact h

theorem dropStaleTokenCommands_paired (h : r.state.desk.Paired g) :
    (dropStaleTokenCommands r).state.desk.Paired g := by
  unfold dropStaleTokenCommands
  split
  · exact h
  · exact dropStaleCommands_paired _ _ h

/-- The filter leaves the tasks whose tokens are there. -/
theorem dropStaleCommands_tasks (live : List String) (cmds : List Command) (s : InstanceState)
    (h : ∀ ht ∈ s.tasks, ht.isOpen = true → ht.taskID ∈ live) : (dropStaleCommands live cmds s).state.tasks = s.tasks := by
  induction cmds generalizing s with
  | nil => rfl
  | cons cmd cmds ih =>
    have hone : (dropStaleCommand live s cmd).state.tasks = s.tasks := by
      unfold dropStaleCommand
      by_cases hstale : (cmd.correlationID == "" || live.contains cmd.correlationID) = true
      · rw [if_pos hstale]
      · rw [if_neg hstale]
        cases cmd with
        | awaitHuman taskID spec =>
          dsimp only
          split
          · rename_i task htask
            have hfind := (taskByID_some htask).2
            have hfound : task.taskID = taskID := by simpa using List.find?_some hfind
            split
            · rename_i hopen
              have hin := h task (List.mem_of_find?_eq_some hfind) hopen
              rw [hfound] at hin
              exact absurd (by simp [Command.correlationID, hin]) hstale
            · rfl
          · rfl
        | _ => rfl
    exact (ih (dropStaleCommand live s cmd).state (by rw [hone]; exact h)).trans hone

/-- In a live instance the filter leaves every task. -/
theorem dropStaleTokenCommands_tasks (h : r.state.desk.Paired g) (hlive : r.state.status.isTerminal = false) :
    (dropStaleTokenCommands r).state.tasks = r.state.tasks := by
  unfold dropStaleTokenCommands
  split
  · rfl
  · refine dropStaleCommands_tasks _ _ _ (fun ht hht hopen => ?_)
    obtain ⟨t, hmem, hawait, -, -⟩ := h.held ht hht hopen
    exact (mem_liveAwaiters hlive (h.minted ht hht).ne_empty).mpr (Or.inl ⟨t, hmem, hawait⟩)

theorem dropStaleTokenCommands_spares (h : id ∉ answerIDs r.commands) (hne : id ≠ "") :
    (dropStaleTokenCommands r).state.tasks.filter (fun t => t.taskID == id) =
      r.state.tasks.filter (fun t => t.taskID == id) ∧
      about id (dropStaleTokenCommands r).commands = about id r.commands := by
  unfold dropStaleTokenCommands
  split
  · exact ⟨rfl, rfl⟩
  · refine dropStaleCommands_spares _ id _ _ (fun cmd hcmd spec he => h ?_)
    refine List.mem_filter.mpr ⟨List.mem_map.mpr ⟨cmd, hcmd, ?_⟩, by simpa using hne⟩
    rw [he]
    rfl

/-- A list without repetition where one element alone is picked. -/
theorem filter_eq_singleton {α : Type} {l : List α} {a : α} {q : α → Bool} (hl : l.Nodup) (ha : a ∈ l)
    (hq : ∀ b ∈ l, q b = true ↔ b = a) : l.filter q = [a] := by
  refine List.perm_singleton.mp ((List.perm_ext_iff_of_nodup (hl.filter _) (List.nodup_singleton a)).mpr (fun b => ?_))
  rw [List.mem_filter, List.mem_singleton]
  constructor
  · rintro ⟨hb, hqb⟩
    exact (hq b hb).mp hqb
  · rintro rfl
    exact ⟨ha, (hq b ha).mpr rfl⟩

/-! ## Runs -/

variable {p : ProcessDefinition} {gen : Option IDGenerator} {inst : String} {calls : List Call} {x : InstanceState}

/-- The tasks of a state of a run. -/
structure Tended (g : IDGenerator) (x : InstanceState) : Prop where
  ids : x.desk.Ids g
  shapes : x.desk.Shapes
  paired : x.desk.Paired g
  quick : x.status.isTerminal = false → ∀ ht ∈ x.tasks, ht.isOpen = false → ∀ t ∈ x.tokens, t.awaitCommand ≠ ht.taskID

theorem blank_tended (g : IDGenerator) (inst : String) : Tended g { instanceID := inst } where
  ids := blank_ids g inst
  shapes := ⟨by simp [InstanceState.desk, ControlState.front], by simp [InstanceState.desk, ControlState.front],
    by simp [InstanceState.desk, ControlState.front]⟩
  paired := ⟨by simp [InstanceState.desk], by simp [InstanceState.desk], by simp [InstanceState.desk],
    by simp [InstanceState.desk, ControlState.front], by simp [InstanceState.desk, ControlState.front]⟩
  quick := by simp

/-- What a step does to the tasks: the pairing at its end, and every task that was open through it. -/
theorem step_tended (hop : (runIDs gen inst).Opaque) (hrun : Run p gen inst calls x) (h : Tended (runIDs gen inst) x)
    {call : Call} (hord : TaskOrderly x.desk call.trigger.body) (hgen : call.opt.idGenerator = gen)
    (hstep : step call.fuel p x call.trigger call.opt = .ok r) :
    Tended (runIDs gen inst) r.state ∧ ∀ ht ∈ x.tasks, ht.isOpen = true → TaskFollowed x ht r := by
  have hreach := hrun.sound.reaches hgen hstep
  have hx := hrun.sound
  have hgens : call.opt.ids x.instanceID = runIDs gen inst := by
    unfold StepOptions.ids runIDs
    rw [hgen, hx.instanceID]
  obtain ⟨-, hbounded⟩ := run_bounded hop hrun
  obtain ⟨r0, hdoes, rfl⟩ := step_does hx.wf.phase.status.mp hstep
  rw [hgens] at hdoes
  have hbilled := (Billed.start hbounded).acts hop hdoes h.ids
  rw [List.nil_append] at hbilled
  obtain ⟨hids, hsh, hp, hquick, hfollows⟩ := Acts.tasks hop hord h.paired hdoes h.ids h.shapes h.paired
  obtain ⟨tasks, hdesk⟩ := dropStaleTokenCommands_desk r0
  have htokens : (dropStaleTokenCommands r0).state.tokens = r0.state.tokens := congrArg (fun d : Desk => d.tokens) hdesk
  have hends : (dropStaleTokenCommands r0).state.trace.filterMap Event.end? = r0.state.desk.ends :=
    congrArg (fun d : Desk => d.ends) hdesk
  have hp' := dropStaleTokenCommands_paired hp
  have hlive' := dropStaleTokenCommands_live r0
  refine ⟨⟨?_, ?_, hp', fun hlive => ?_⟩, fun ht hht hopen => ?_⟩
  · rw [hdesk]
    exact ⟨hids.minted, hids.nodup, hids.finals, hids.queue⟩
  · rw [hdesk]
    exact ⟨hsh.shaped, hsh.queued, hsh.queue⟩
  · cases hterm : x.status.isTerminal with
    | true =>
      have hone : Steps p gen x [call] (dropStaleTokenCommands r0).state := by
        have hsteps : Steps p gen x ([] ++ [call]) (dropStaleTokenCommands r0).state := Steps.tail .refl call _ hgen hstep
        exact hsteps
      intro ht _ _ t hmem
      rw [revived_tokens hx hterm hone hlive] at hmem
      cases hmem
    | false =>
      rcases hreach.ends hx.wf hterm with ⟨-, hsame⟩ | ⟨hended, -⟩
      · have hlen : r0.state.desk.ends.length = x.desk.ends.length := congrArg List.length (hends.symm.trans hsame)
        have hq := hquick ⟨le_rfl, fun _ ht hht _ => h.quick hterm ht hht⟩
        rw [dropStaleTokenCommands_tasks hp (hlive'.symm.trans hlive), htokens]
        exact fun ht hht => hq.tokens hlen ht hht trivial
      · rw [hended] at hlive
        cases hlive
  · have hne : ht.taskID ≠ "" := (h.paired.minted ht hht).ne_empty
    have hold : ht.taskID ∉ answerIDs r0.commands := by
      intro hin
      obtain ⟨k, hk, he⟩ := h.paired.minted ht hht
      rcases hbilled.fresh _ hin with ⟨k', hk', -, he'⟩ | ⟨k', hk', -, he'⟩
      · cases (runIDs gen inst).newID_inj _ _ _ _ (he.symm.trans he') |>.1
      · have hkk := ((runIDs gen inst).newID_inj _ _ _ _ (he.symm.trans he')).2
        have hseq : x.desk.taskSeq = x.taskSeq := rfl
        omega
    obtain ⟨htasks, hsaid⟩ := dropStaleTokenCommands_spares hold hne
    have hcount : (dropStaleTokenCommands r0).commands.countP (Command.closes ht.taskID) =
        r0.commands.countP (Command.closes ht.taskID) := by rw [← countP_about, hsaid, countP_about]
    have hmem : ∀ ht' : HumanTask, ht'.taskID = ht.taskID →
        (ht' ∈ (dropStaleTokenCommands r0).state.tasks ↔ ht' ∈ r0.state.tasks) := by
      intro ht' hid
      have hiff : ht' ∈ (dropStaleTokenCommands r0).state.tasks.filter (fun t => t.taskID == ht.taskID) ↔
          ht' ∈ r0.state.tasks.filter (fun t => t.taskID == ht.taskID) := by rw [htasks]
      simpa [List.mem_filter, hid] using hiff
    have hfol := hfollows ht.taskID 0 (Or.inl ⟨rfl, ⟨ht, hht, rfl, hopen⟩, rfl⟩)
    rw [Nat.zero_add, ← hcount] at hfol
    refine ⟨?_, fun hgone => ?_⟩
    · rcases hfol with ⟨-, ⟨ht', hht', hid, hopen'⟩, hn⟩ | ⟨⟨ht', hht', hid⟩, hclosed, hn⟩
      · exact Or.inl ⟨⟨ht', (hmem ht' hid).mpr hht', hid, hopen'⟩, hn⟩
      · exact Or.inr ⟨⟨ht', (hmem ht' hid).mpr hht', hid⟩, fun u hu hid' => hclosed u ((hmem u hid').mp hu) hid', hn⟩
    · rcases hfol with ⟨hlen, ⟨ht', hht', hid, hopen'⟩, -⟩ | ⟨-, -, hn⟩
      · exfalso
        rcases hgone with hgone | ⟨hlive, hterm⟩
        · obtain ⟨t, hmem', hawait, hwait, -⟩ := hp'.held ht' ((hmem ht' hid).mpr hht') hopen'
          exact hgone t hmem' (hawait.trans hid) hwait
        · rcases hreach.ends hx.wf hlive with ⟨hrunning, -⟩ | ⟨-, hgrown⟩
          · rw [hrunning] at hterm
            cases hterm
          · rw [hends] at hgrown
            have hlen' : x.desk.ends.length = (x.trace.filterMap Event.end?).length := rfl
            omega
      · exact hn

/-- Open tasks and the tokens that wait for them are paired in every state of a run whose triggers are orderly, and every
step closes a task that loses its token, once. -/
theorem tasks_paired (hop : (runIDs gen inst).Opaque) (hrun : Run p gen inst calls x)
    (hord : Heeds (fun s => TaskOrderly s.desk) p gen inst calls) : TasksPaired (runIDs gen inst) x ∧
      ∀ call : Call, call.opt.idGenerator = gen → TaskOrderly x.desk call.trigger.body → ∀ r,
        step call.fuel p x call.trigger call.opt = .ok r → ∀ ht ∈ x.tasks, ht.isOpen = true → TaskFollowed x ht r := by
  have htended : Tended (runIDs gen inst) x := by
    unfold Run at hrun
    induction hrun with
    | refl => exact blank_tended _ inst
    | @tail calls y hpre call r hgen hstep ih =>
      have hbefore := ih (fun before call' after x' he hx => hord before call' (after ++ [call]) x'
        (by rw [he, List.append_assoc, List.cons_append]) hx)
      exact (step_tended hop hpre hbefore (hord calls call [] y rfl hpre) hgen hstep).1
  refine ⟨⟨fun ht hht hopen => ?_, fun hlive t hmem hk => ?_⟩, fun call hgen hcall r hstep =>
    (step_tended hop hrun htended hcall hgen hstep).2⟩
  · obtain ⟨t, hmem, hawait, hwait, hnode⟩ := htended.paired.held ht hht hopen
    obtain ⟨k, -, hk⟩ := htended.paired.minted ht hht
    refine ⟨t, filter_eq_singleton (List.Nodup.of_map _ htended.ids.nodup) hmem (fun t' hmem' => ?_), hwait, hnode⟩
    rw [beq_iff_eq]
    constructor
    · intro he
      exact htended.ids.eq_of_id hmem' hmem (htended.paired.one t hmem t' hmem' k (hawait.trans hk) (he.trans hawait.symm))
    · rintro rfl
      exact hawait
  · obtain ⟨k, hk⟩ := hk
    obtain ⟨ht, hht, hid⟩ := htended.paired.filed t hmem k hk
    refine ⟨ht, filter_eq_singleton (List.Nodup.of_map _ htended.paired.nodup) hht (fun ht' hht' => ?_), ?_⟩
    · rw [beq_iff_eq]
      constructor
      · intro he
        exact List.inj_on_of_nodup_map htended.paired.nodup hht' hht (he.trans hid.symm)
      · rintro rfl
        exact hid
    · by_contra hclosed
      exact htended.quick hlive ht hht (by simpa using hclosed) t hmem hid.symm

/-! ## Fixed runs -/

instance (d0 : Desk) (trg : TriggerBody) : Decidable (TaskOrderly d0 trg) :=
  decidable_of_iff (ResolvesFailed d0 trg ∧ ∀ ht ∈ d0.tasks, trg.repliedID ≠ some ht.taskID)
    ⟨fun h => ⟨h.1, h.2⟩, fun h => ⟨h.resolves, h.replies⟩⟩

/-- A user task beside a service task. -/
def approvesBeside : ProcessDefinition where
  id := "approval"
  version := 1
  nodes := [startNode "s", forkNode "g",
    userNode "u", serviceNode "a" "", endNode "e"]
  flows := [flowOf "f1" "s" "g", flowOf "f2" "g" "u", flowOf "f3" "g" "a", flowOf "f4" "u" "e", flowOf "f5" "a" "e"]

/-- The task is open with its token; completing it closes it, with one command. -/
theorem approval_paired : ∃ x r,
    Run approvesBeside none "i" (callsFrom 1 [.startInstance [] "", .actionCompleted "i-c1" []]) x ∧
    step 50 approvesBeside x ⟨3, .humanCompleted "i-h1" "" "" [] { id := "ann" }⟩ plainOptions = .ok r ∧
    (x.tasks.filter (·.isOpen)).length = 1 ∧ TasksPaired (counterIDs "i") x ∧
    (∀ ht ∈ x.tasks, ht.isOpen = true → TaskFollowed x ht r) ∧ r.commands.countP (Command.closes "i-h1") = 1 := by
  have hplay : playsThrough approvesBeside [.startInstance [] "", .actionCompleted "i-c1" []]
      (.humanCompleted "i-h1" "" "" [] { id := "ann" }) []
      (fun x r _ => (x.tasks.filter (·.isOpen)).length == 1 &&
        decide (TaskOrderly x.desk (.humanCompleted "i-h1" "" "" [] { id := "ann" })) &&
          r.commands.countP (Command.closes "i-h1") == 1) = true := by decide
  obtain ⟨x, r, y, hrun, hstep, -, hP⟩ := run_of_playsThrough hplay
  simp only [Bool.and_eq_true, beq_iff_eq, decide_eq_true_eq] at hP
  obtain ⟨⟨hone, hcall⟩, hcount⟩ := hP
  have hop : (runIDs none "i").Opaque := counterIDs_opaque "i"
  obtain ⟨hpaired, hsteps⟩ := tasks_paired hop hrun (heeds_of_heedsFrom (by decide))
  exact ⟨x, r, hrun, hstep, hone, hpaired, hsteps ⟨50, _, plainOptions⟩ rfl hcall r hstep, hcount⟩

/-- A user task beside an error end event that nothing catches. -/
def failsBesideApproval : ProcessDefinition where
  id := "stopped"
  version := 1
  nodes := [startNode "s", forkNode "g", userNode "u",
    { id := "x", spec := .endEvent { behavior := .error, errorCode := "E" } }, endNode "e"]
  flows := [flowOf "f1" "s" "g", flowOf "f2" "g" "u", flowOf "f3" "g" "x", flowOf "f4" "u" "e"]

/-- The instance failed: its task is cancelled and the token that waits for it is still there. -/
theorem failed_instance_keeps_token : Accepted asciiTables failsBesideApproval ∧
    ∃ x calls, Run failsBesideApproval none "i" calls x ∧ x.status = .failed ∧
    (∃ t ∈ x.tokens, t.state = .waiting ∧ t.nodeID = "u" ∧ t.awaitCommand = (counterIDs "i").newID .task 1) ∧
    x.tasks.filter (fun ht => ht.taskID == (counterIDs "i").newID .task 1 && ht.isOpen) = [] := by
  have hplay : playsTo failsBesideApproval [.startInstance [] ""]
      (fun x => x.status == .failed && x.tokens.any (fun t => t.state == .waiting && t.nodeID == "u" &&
        t.awaitCommand == (counterIDs "i").newID .task 1) &&
        (x.tasks.filter (fun ht => ht.taskID == (counterIDs "i").newID .task 1 && ht.isOpen)).isEmpty) = true := by decide
  refine ⟨by decide, ?_⟩
  obtain ⟨x, hx, hP⟩ := run_of_playsTo hplay
  simp only [Bool.and_eq_true, beq_iff_eq, List.isEmpty_iff, List.any_eq_true] at hP
  obtain ⟨⟨hfailed, t, hmem, ⟨hwait, hnode⟩, hawait⟩, hnone⟩ := hP
  exact ⟨x, _, hx, hfailed, ⟨t, hmem, hwait, hnode, hawait⟩, hnone⟩

end Wrkflw
