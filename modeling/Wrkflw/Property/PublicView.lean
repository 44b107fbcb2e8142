import Wrkflw.Runtime.PublicView

/-!
# Disclosure categories and what they let through

Two states that agree on the structural fields and on the fields of the disclosed categories have the same public
projection, unless notes are disclosed without actors: the time and the outcome of a completion then go out with its
note. A projection leaves the state it projects as it was.

* `ExportedState.read` : a state with its completions read from a memory;
* `publicState_reads` : the projection, read from the memory it leaves, is a function of the state as it is read;
* `Agree` : the two states agree on what the set discloses.
-/

namespace Wrkflw

variable {d : DisclosureSet}

/-! ## Memory -/

/-- A task with the completion its pointer leads to. -/
def ExportedTask.read (m : List Completion) (t : ExportedTask Nat) : ExportedTask Completion where
  taskID := t.taskID
  instanceID := t.instanceID
  nodeID := t.nodeID
  eligibility := t.eligibility
  candidates := t.candidates
  state := t.state
  claim := t.claim
  completion := t.completion.bind (fun p => m[p]?)
  createdAt := t.createdAt
  dueAt := t.dueAt
  vars := t.vars

def ExportedState.read (m : List Completion) (st : ExportedState Nat) : ExportedState Completion :=
  { st with tasks := st.tasks.map (ExportedTask.read m) }

/-- The pointers of the task lead somewhere. -/
def ExportedTask.InMemory (m : List Completion) (t : ExportedTask Nat) : Prop := ∀ p ∈ t.completion, p < m.length

def ExportedState.InMemory (m : List Completion) (st : ExportedState Nat) : Prop := ∀ t ∈ st.tasks, t.InMemory m

variable {m m' : List Completion} {t : ExportedTask Nat} {tasks : List (ExportedTask Nat)} {st : ExportedState Nat}

/-- New completions change nothing that was there. -/
theorem ExportedTask.InMemory.read_append (h : t.InMemory m) (more : List Completion) : t.read (m ++ more) = t.read m := by
  unfold ExportedTask.read
  cases hc : t.completion with
  | none => rfl
  | some p =>
    have hp : p < m.length := h p hc
    dsimp only [Option.bind_some]
    rw [List.getElem?_append_left hp]

theorem ExportedTask.InMemory.append (h : t.InMemory m) (more : List Completion) : t.InMemory (m ++ more) := by
  intro p hp
  rw [List.length_append]
  exact Nat.lt_add_right _ (h p hp)

/-- What of a task is disclosed, on values. -/
def disclosedTask (d : DisclosureSet) (t : ExportedTask Completion) : ExportedTask Completion :=
  projectTaskFields d (if d.has .actors || d.has .notes then t.completion.map (blankedCompletion d) else none) t

/-- What of a state is disclosed, on values. -/
def disclosedState (d : DisclosureSet) (st : ExportedState Completion) : ExportedState Completion :=
  projectFields d st (st.tasks.map (disclosedTask d))

theorem projectTask_reads (h : t.InMemory m) : ∃ more, (projectTask d m t).1 = m ++ more ∧
    (projectTask d m t).2.InMemory (m ++ more) ∧ (projectTask d m t).2.read (m ++ more) = disclosedTask d (t.read m) := by
  unfold projectTask disclosedTask
  split
  · unfold projectCompletion
    cases hc : t.completion with
    | none =>
      refine ⟨[], (List.append_nil m).symm, fun p hp => (by cases hp), ?_⟩
      unfold ExportedTask.read
      rw [hc]
      rfl
    | some p =>
      have hp : p < m.length := h p hc
      have hget : m[p]? = some m[p] := List.getElem?_eq_getElem hp
      dsimp only [Option.bind_some]
      rw [hget]
      refine ⟨[blankedCompletion d m[p]], rfl, fun q hq => ?_, ?_⟩
      · cases hq
        rw [List.length_append]
        exact Nat.lt_succ_self _
      · have hread : (m ++ [blankedCompletion d m[p]])[m.length]? = some (blankedCompletion d m[p]) :=
          List.getElem?_concat_length
        unfold ExportedTask.read projectTaskFields
        rw [hc]
        dsimp only [Option.bind_some]
        rw [hread, hget]
        rfl
  · refine ⟨[], (List.append_nil m).symm, fun p hp => (by cases hp), ?_⟩
    unfold ExportedTask.read projectTaskFields
    rfl

theorem projectTasks_reads (h : ∀ t ∈ tasks, t.InMemory m) : ∃ more, (projectTasks d m tasks).1 = m ++ more ∧
    (∀ t ∈ (projectTasks d m tasks).2, t.InMemory (m ++ more)) ∧
    (projectTasks d m tasks).2.map (ExportedTask.read (m ++ more)) = (tasks.map (ExportedTask.read m)).map
    (disclosedTask d) := by
  induction tasks generalizing m with
  | nil => exact ⟨[], (List.append_nil m).symm, fun t ht => (by cases ht), rfl⟩
  | cons t tasks ih =>
    obtain ⟨more, hmem, hin, hread⟩ := projectTask_reads (d := d) (h t List.mem_cons_self)
    have hlater : ∀ u ∈ tasks, u.InMemory (m ++ more) := fun u hu => (h u (List.mem_cons_of_mem _ hu)).append more
    obtain ⟨more', hmem', hin', hread'⟩ := ih hlater
    unfold projectTasks
    dsimp only
    rw [hmem, hmem']
    refine ⟨more ++ more', List.append_assoc .., fun u hu => ?_, ?_⟩
    · rw [← List.append_assoc]
      rcases List.mem_cons.mp hu with rfl | hu
      · exact hin.append more'
      · exact hin' u hu
    · rw [← List.append_assoc, List.map_cons, hin.read_append more', hread, hread']
      have hsame : tasks.map (ExportedTask.read (m ++ more)) = tasks.map (ExportedTask.read m) :=
        List.map_congr_left (fun u hu => (h u (List.mem_cons_of_mem _ hu)).read_append more)
      rw [hsame]
      rfl

/-- The projection as it is read, and the state it was made of, which is as before. -/
theorem publicState_reads (h : st.InMemory m) :
    (publicState d m st).2.read (publicState d m st).1 = disclosedState d (st.read m) ∧
    st.read (publicState d m st).1 = st.read m := by
  obtain ⟨more, hmem, -, hread⟩ := projectTasks_reads (d := d) h
  unfold publicState
  dsimp only
  rw [hmem]
  constructor
  · unfold ExportedState.read disclosedState
    dsimp only
    rw [← hread]
    rfl
  · unfold ExportedState.read
    rw [List.map_congr_left (fun t ht => (h t ht).read_append more)]

/-! ## Agreement -/

/-- The tokens agree on what the set discloses of them. -/
structure AgreeToken (d : DisclosureSet) (t u : ExportedToken) : Prop where
  id : t.id = u.id
  nodeID : t.nodeID = u.nodeID
  scopeID : t.scopeID = u.scopeID
  state : t.state = u.state
  enteredAt : t.enteredAt = u.enteredAt
  retryAttempts : t.retryAttempts = u.retryAttempts
  retryStartedAt : t.retryStartedAt = u.retryStartedAt
  arrivalFlow : t.arrivalFlow = u.arrivalFlow
  payload : d.has .vars = true → t.payload = u.payload

/-- Who completed the task, when, and with what outcome. -/
def ExportedTask.completed (t : ExportedTask Completion) : Option (Actor × Time × String) :=
  t.completion.map (fun c => (c.actor, c.timestamp, c.outcome))

/-- When the task was completed, and with what outcome. -/
def ExportedTask.closing (t : ExportedTask Completion) : Option (Time × String) :=
  t.completion.map (fun c => (c.timestamp, c.outcome))

def ExportedTask.note (t : ExportedTask Completion) : Option String := t.completion.map (·.note)

/-- The tasks agree on what the set discloses of them. -/
structure AgreeTask (d : DisclosureSet) (t u : ExportedTask Completion) : Prop where
  taskID : t.taskID = u.taskID
  instanceID : t.instanceID = u.instanceID
  nodeID : t.nodeID = u.nodeID
  state : t.state = u.state
  createdAt : t.createdAt = u.createdAt
  dueAt : t.dueAt = u.dueAt
  vars : d.has .vars = true → t.vars = u.vars
  eligibility : d.has .policy = true → t.eligibility = u.eligibility
  candidates : d.has .actors = true → t.candidates = u.candidates
  claim : d.has .actors = true → t.claim = u.claim
  completed : d.has .actors = true → t.completed = u.completed
  note : d.has .notes = true → t.note = u.note

structure AgreeIncident (d : DisclosureSet) (i j : Incident) : Prop where
  fields : { i with error := "" } = { j with error := "" }
  error : d.has .vars = true → i.error = j.error

/-- The states agree on the structural fields and on those of the categories in the set. -/
structure Agree (d : DisclosureSet) (a b : ExportedState Completion) : Prop where
  instanceID : a.instanceID = b.instanceID
  defID : a.defID = b.defID
  defVersion : a.defVersion = b.defVersion
  status : a.status = b.status
  startedAt : a.startedAt = b.startedAt
  endedAt : a.endedAt = b.endedAt
  pendingCancel : a.pendingCancel = b.pendingCancel
  pendingFinalStatus : a.pendingFinalStatus = b.pendingFinalStatus
  history : a.history = b.history
  tokens : List.Forall₂ (AgreeToken d) a.tokens b.tokens
  tasks : List.Forall₂ (AgreeTask d) a.tasks b.tasks
  vars : d.has .vars = true → a.vars = b.vars
  startVariables : d.has .vars = true → a.startVariables = b.startVariables
  rootCompensations : d.has .vars = true → a.rootCompensations = b.rootCompensations
  scopes : d.has .vars = true → a.scopes = b.scopes
  archivedCompensations : d.has .vars = true → a.archivedCompensations = b.archivedCompensations
  cursor : d.has .operations = true →
    { a.compensating with records := [], finalErr := "" } = { b.compensating with records := [], finalErr := "" }
  records : d.has .vars = true → a.compensating.records = b.compensating.records
  finalErr : d.has .vars = true → a.compensating.finalErr = b.compensating.finalErr
  incidents : d.has .operations = true → List.Forall₂ (AgreeIncident d) a.incidents b.incidents

theorem map_eq_of_forall₂ {α β γ : Type} {R : α → β → Prop} {f : α → γ} {f' : β → γ} {l : List α} {l' : List β}
    (h : List.Forall₂ R l l') (hf : ∀ a b, R a b → f a = f' b) : l.map f = l'.map f' := by
  induction h with
  | nil => rfl
  | cons hab _ ih => rw [List.map_cons, List.map_cons, hf _ _ hab, ih]

theorem ite_congr_of {α : Type} {c : Bool} {a b e : α} (h : c = true → a = b) :
    (if c then a else e) = if c then b else e := by
  cases c with
  | true => exact h rfl
  | false => rfl

theorem AgreeToken.project {t u : ExportedToken} (h : AgreeToken d t u) : projectToken d t = projectToken d u := by
  unfold projectToken
  rw [h.id, h.nodeID, h.scopeID, h.state, h.enteredAt, h.retryAttempts, h.retryStartedAt, h.arrivalFlow,
    ite_congr_of h.payload]

theorem AgreeIncident.project {i j : Incident} (h : AgreeIncident d i j) : projectIncident d i = projectIncident d j := by
  unfold projectIncident
  cases hd : d.has .vars with
  | true =>
    have hfields := h.fields
    have herror := h.error hd
    cases i
    cases j
    simp only [Incident.mk.injEq] at hfields ⊢
    simp_all
  | false => exact h.fields

theorem Agree.project_cursor {a b : ExportedState Completion} (h : Agree d a b) (hop : d.has .operations = true) :
    projectCursor d a.compensating = projectCursor d b.compensating := by
  have hcursor := h.cursor hop
  unfold projectCursor
  cases hd : d.has .vars with
  | true =>
    have hrecords := h.records hd
    have herr := h.finalErr hd
    generalize a.compensating = ca at *
    generalize b.compensating = cb at *
    cases ca
    cases cb
    simp only [CompensationCursor.mk.injEq] at hcursor ⊢
    simp_all
  | false => exact hcursor

/-! ## Completions -/

/-- Where actors are disclosed or notes are not, a disclosed completion has nothing but what the two tasks agree on. -/
theorem AgreeTask.completion {t u : ExportedTask Completion} (h : AgreeTask d t u)
    (hclosing : d.has .notes = true → d.has .actors = false → t.closing = u.closing) :
    (if d.has .actors || d.has .notes then t.completion.map (blankedCompletion d) else none) =
      if d.has .actors || d.has .notes then u.completion.map (blankedCompletion d) else none := by
  have hcompleted := h.completed
  have hnote := h.note
  unfold ExportedTask.completed at hcompleted
  unfold ExportedTask.note at hnote
  unfold ExportedTask.closing at hclosing
  unfold blankedCompletion
  cases ha : d.has .actors <;> cases hn : d.has .notes <;> rw [ha] at hcompleted hclosing <;> rw [hn] at hnote hclosing
  · rfl
  · have hsame := hclosing rfl rfl
    have hsame' := hnote rfl
    cases ht : t.completion <;> cases hu : u.completion <;> rw [ht, hu] at hsame hsame' <;> simp_all
  · have hsame := hcompleted rfl
    cases ht : t.completion <;> cases hu : u.completion <;> rw [ht, hu] at hsame <;> simp_all
  · have hsame := hcompleted rfl
    have hsame' := hnote rfl
    cases ht : t.completion with
    | none =>
      cases hu : u.completion with
      | none => rfl
      | some y =>
        rw [ht, hu] at hsame
        cases hsame
    | some x =>
      cases hu : u.completion with
      | none =>
        rw [ht, hu] at hsame
        cases hsame
      | some y =>
        rw [ht, hu] at hsame hsame'
        cases x
        cases y
        simp_all

theorem AgreeTask.project {t u : ExportedTask Completion} (h : AgreeTask d t u)
    (hclosing : d.has .notes = true → d.has .actors = false → t.closing = u.closing) :
    disclosedTask d t = disclosedTask d u := by
  unfold disclosedTask
  rw [h.completion hclosing]
  unfold projectTaskFields
  rw [h.taskID, h.instanceID, h.nodeID, h.state, h.createdAt, h.dueAt, ite_congr_of h.vars, ite_congr_of h.eligibility,
    ite_congr_of h.candidates, ite_congr_of h.claim]

/-- With notes, and without actors, a disclosed completion shows its time and its outcome. -/
theorem disclosedTask_closing (hn : d.has .notes = true) (t : ExportedTask Completion) :
    (disclosedTask d t).closing = t.closing := by
  unfold disclosedTask projectTaskFields ExportedTask.closing blankedCompletion
  dsimp only
  rw [hn, Bool.or_true, if_pos rfl]
  cases t.completion with
  | none => rfl
  | some c =>
    dsimp only [Option.map_some]
    split <;> rfl

/-! ## The result -/

/-- The states agree on the completions of their tasks too, in what goes out with a note. -/
def SameClosings (d : DisclosureSet) (a b : ExportedState Completion) : Prop :=
  d.has .notes = true → d.has .actors = false → a.tasks.map (·.closing) = b.tasks.map (·.closing)

theorem disclosedState_eq_iff {a b : ExportedState Completion} (h : Agree d a b) :
    disclosedState d a = disclosedState d b ↔ SameClosings d a b := by
  constructor
  · intro hsame hn _
    have htasks : a.tasks.map (disclosedTask d) = b.tasks.map (disclosedTask d) :=
      congrArg (fun s : ExportedState Completion => s.tasks) hsame
    have hclosings := congrArg (List.map (·.closing)) htasks
    rw [List.map_map, List.map_map] at hclosings
    have hread : (ExportedTask.closing ∘ disclosedTask d) = ExportedTask.closing :=
      funext (fun t => disclosedTask_closing hn t)
    rw [hread] at hclosings
    exact hclosings
  · intro hclosings
    have htasks : a.tasks.map (disclosedTask d) = b.tasks.map (disclosedTask d) := by
      by_cases hboth : d.has .notes = true ∧ d.has .actors = false
      · have hpairs := hclosings hboth.1 hboth.2
        have hagree := h.tasks
        generalize a.tasks = l at *
        generalize b.tasks = l' at *
        induction hagree with
        | nil => rfl
        | cons hab _ ih =>
          obtain ⟨hhead, htail⟩ := List.cons.inj hpairs
          rw [List.map_cons, List.map_cons, hab.project (fun _ _ => hhead), ih htail]
      · exact map_eq_of_forall₂ h.tasks (fun t u htu => htu.project (fun hn ha => absurd ⟨hn, ha⟩ hboth))
    have htokens : projectTokens d a.tokens = projectTokens d b.tokens :=
      map_eq_of_forall₂ h.tokens (fun t u htu => htu.project)
    have hcursor := ite_congr_of (e := {}) h.project_cursor
    have hincidents := ite_congr_of (e := []) (fun hop => map_eq_of_forall₂ (h.incidents hop) (fun i j hij => hij.project))
    unfold disclosedState projectFields projectIncidents
    rw [htasks, htokens, hcursor, hincidents, h.instanceID, h.defID, h.defVersion, h.status, h.startedAt, h.endedAt,
      h.pendingCancel, h.pendingFinalStatus, h.history, ite_congr_of h.vars, ite_congr_of h.startVariables,
      ite_congr_of h.rootCompensations, ite_congr_of h.scopes, ite_congr_of h.archivedCompensations]

/-- The projections of two states that agree on what is disclosed are the same, as they are read, if and only if what goes
out with the notes is; and a projection leaves its state as it was. -/
theorem disclosure_does_not_leak_iff {m m' : List Completion} {a b : ExportedState Nat} (ha : a.InMemory m)
    (hb : b.InMemory m') (h : Agree d (a.read m) (b.read m')) :
    ((publicState d m a).2.read (publicState d m a).1 = (publicState d m' b).2.read (publicState d m' b).1 ↔
      SameClosings d (a.read m) (b.read m')) ∧ a.read (publicState d m a).1 = a.read m := by
  obtain ⟨hreads, hsame⟩ := publicState_reads (d := d) ha
  obtain ⟨hreads', -⟩ := publicState_reads (d := d) hb
  rw [hreads, hreads']
  exact ⟨disclosedState_eq_iff h, hsame⟩

/-- A completed task, whose completion is the first of the memory. -/
def completedTask : ExportedTask Nat :=
  { taskID := "t1", instanceID := "i", nodeID := "u", state := .completed, completion := some 0,
    createdAt := 1, dueAt := none }

def completedState (vars : Vars) : ExportedState Nat := { instanceID := "i", tasks := [completedTask], vars := vars }

theorem completedState_inMemory (vars : Vars) (c : Completion) : (completedState vars).InMemory [c] := by
  intro t ht p hp
  rw [List.mem_singleton.mp ht] at hp
  cases hp
  exact Nat.zero_lt_one

/-- What a mount that discloses the set renders of the state. -/
def renders (d : DisclosureSet) (c : Completion) (vars : Vars) : ExportedState Completion :=
  (publicState d [c] (completedState vars)).2.read (publicState d [c] (completedState vars)).1

/-- Notes and actors together let no variable through. -/
theorem notes_and_actors_disclosed : renders [.notes, .actors] ⟨{ id := "ann" }, 5, "yes", "fine"⟩ [("ssn", .str "111")] =
    renders [.notes, .actors] ⟨{ id := "ann" }, 5, "yes", "fine"⟩ [] := by
  have htask : ∀ t : ExportedTask Completion, AgreeTask [.notes, .actors] t t :=
    fun t => ⟨rfl, rfl, rfl, rfl, rfl, rfl, fun _ => rfl, fun _ => rfl, fun _ => rfl, fun _ => rfl,
      fun _ => rfl, fun _ => rfl⟩
  have hagree : Agree [.notes, .actors]
      ((completedState [("ssn", .str "111")]).read [⟨{ id := "ann" }, 5, "yes", "fine"⟩])
      ((completedState []).read [⟨{ id := "ann" }, 5, "yes", "fine"⟩]) :=
    ⟨rfl, rfl, rfl, rfl, rfl, rfl, rfl, rfl, rfl, .nil, .cons (htask _) .nil, fun h => absurd h (by decide),
      fun _ => rfl, fun _ => rfl, fun _ => rfl, fun _ => rfl, fun _ => rfl, fun _ => rfl, fun _ => rfl, fun _ => .nil⟩
  exact (disclosure_does_not_leak_iff (completedState_inMemory _ _) (completedState_inMemory _ _) hagree).1.mpr
    (fun _ ha => absurd ha (by decide))

/-- Two states that differ in who completed a task, when and with what outcome have the same note, and notes alone tell
them apart. -/
theorem notes_leak_outcome :
    Agree [.notes] ((completedState []).read [⟨{ id := "ann" }, 5, "yes", "fine"⟩])
      ((completedState []).read [⟨{ id := "bob" }, 6, "no", "fine"⟩]) ∧
    renders [.notes] ⟨{ id := "ann" }, 5, "yes", "fine"⟩ [] ≠ renders [.notes] ⟨{ id := "bob" }, 6, "no", "fine"⟩ [] := by
  refine ⟨⟨rfl, rfl, rfl, rfl, rfl, rfl, rfl, rfl, rfl, .nil,
      .cons ⟨rfl, rfl, rfl, rfl, rfl, rfl, fun _ => rfl, fun _ => rfl, fun _ => rfl, fun _ => rfl,
        fun h => absurd h (by decide), fun _ => rfl⟩ .nil,
      fun _ => rfl, fun _ => rfl, fun _ => rfl, fun _ => rfl, fun _ => rfl, fun _ => rfl, fun _ => rfl, fun _ => rfl,
      fun _ => .nil⟩, fun hsame => ?_⟩
  have hclosings := congrArg (fun s : ExportedState Completion => s.tasks.map (·.closing)) hsame
  exact absurd hclosings (by decide)

end Wrkflw
