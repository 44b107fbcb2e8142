import Wrkflw.Machine.Quiet
import Wrkflw.Store.HumanTasks

/-!
# The SQL task store against the in-memory one

Both are driven by the same calls. The SQL store keeps of an actor who claimed or completed a task the id, the roles and the
attributes, but not the privileges; on a dialect that keeps timestamps as text it reads back the years 0 to 9999 only.

* `MemTaskStore.run`, `HumanTaskStore.run` : the answers of a sequence of calls;
* `scanTask_taskRow` : which tasks a row gives back;
* `task_stores_agree_iff` : the tasks over which no sequence of calls tells the two stores apart.
-/

namespace Wrkflw

open Library

inductive TaskCall where
  | upsert (t : HumanTask)
  | get (taskID : String)
  | assignedTo (actorID : String)
  | claimableBy (actor : Actor)

inductive TaskAnswer where
  | done (r : Except String Unit)
  | task (r : Except String HumanTask)
  | tasks (r : Except String (List HumanTask))

/-- A failed write leaves the store as it was. -/
def written {σ : Type} (s : σ) : Except String σ → TaskAnswer × σ
  | .ok s' => (.done (.ok ()), s')
  | .error err => (.done (.error err), s)

def MemTaskStore.answer (m : MemTaskStore) : TaskCall → TaskAnswer × MemTaskStore
  | .upsert t => written m (m.upsert t)
  | .get taskID => (.task (m.get taskID), m)
  | .assignedTo actorID => (.tasks (m.assignedTo actorID), m)
  | .claimableBy actor => (.tasks (m.claimableBy actor), m)

def HumanTaskStore.answer (asText : Bool) (rows : HumanTaskStore) : TaskCall → TaskAnswer × HumanTaskStore
  | .upsert t => written rows (rows.upsert asText t)
  | .get taskID => (.task (rows.get taskID), rows)
  | .assignedTo actorID => (.tasks (rows.assignedTo actorID), rows)
  | .claimableBy actor => (.tasks (rows.claimableBy actor), rows)

def MemTaskStore.run (m : MemTaskStore) : List TaskCall → List TaskAnswer
  | [] => []
  | call :: calls => (m.answer call).1 :: MemTaskStore.run (m.answer call).2 calls

def HumanTaskStore.run (asText : Bool) (rows : HumanTaskStore) : List TaskCall → List TaskAnswer
  | [] => []
  | call :: calls => (rows.answer asText call).1 :: HumanTaskStore.run asText (rows.answer asText call).2 calls

/-! ## Tasks -/

/-- `humantask.Validate` accepts the task, its maps are JSON ones, and its audit records have their times. -/
structure HumanTask.Storable (t : HumanTask) : Prop where
  valid : t.validate = none
  vars : t.vars.IsJSON
  candidates : ∀ a ∈ t.candidates, a.attributes.IsJSON
  claim : ∀ c, t.claim = some c → c.1.attributes.IsJSON ∧ isZeroTime c.2 = false
  completion : ∀ c, t.completion = some c → c.actor.attributes.IsJSON ∧ isZeroTime c.timestamp = false

/-- The dialect reads the instant back. -/
def Readable (asText : Bool) (t : Time) : Prop := asText = true → writableTime t = true

/-- Nobody on the task's audit has privileges, and its times are read back. -/
structure HumanTask.Plain (asText : Bool) (t : HumanTask) : Prop where
  claimant : ∀ c, t.claim = some c → c.1.privileges = [] ∧ Readable asText c.2
  completer : ∀ c, t.completion = some c → c.actor.privileges = [] ∧ Readable asText c.timestamp
  created : Readable asText t.createdAt
  due : ∀ d, t.dueAt = some d → Readable asText d

def claimBind (asText : Bool) : Option (Actor × Time) → ClaimBind
  | none => {}
  | some (actor, at_) => { claimedAt := some (timeArg asText at_), claimActor := some (htMarshalActorRemainder actor) }

def completionBind (asText : Bool) : Option Completion → CompletionBind
  | none => {}
  | some c => { completedBy := some c.actor.id, completedAt := some (timeArg asText c.timestamp), outcome := some c.outcome,
                note := some c.note, completionActor := some (htMarshalActorRemainder c.actor) }

/-- The row a stored task is written to. -/
def taskRow (asText : Bool) (t : HumanTask) : HumanTaskRow :=
  taskBinds asText t (claimBind asText t.claim) (completionBind asText t.completion)

variable {asText : Bool} {t : HumanTask}

theorem upsert_storable (h : t.Storable) (rows : HumanTaskStore) :
    rows.upsert asText t = .ok (putBy (·.taskID) (taskRow asText t) rows) := by
  have hclaim : htClaimBinds asText t.claim = .ok (claimBind asText t.claim) := by
    cases hc : t.claim with
    | none => rfl
    | some c =>
      obtain ⟨actor, at_⟩ := c
      have hset := (h.claim _ hc).2
      simp only [htClaimBinds, hset, claimBind, Bool.false_eq_true, if_false]
  have hcompletion : htCompletionBinds asText t.completion = .ok (completionBind asText t.completion) := by
    cases hc : t.completion with
    | none => rfl
    | some c =>
      have hset := (h.completion _ hc).2
      simp only [htCompletionBinds, hset, completionBind, Bool.false_eq_true, if_false]
  unfold HumanTaskStore.upsert
  rw [h.valid]
  dsimp only
  rw [hclaim]
  dsimp only
  rw [hcompletion]
  rfl

/-! ## Reading a row -/

theorem read_timeArg (asText : Bool) (t : Time) : (∃ err, (timeArg asText t).read = .error err ∧ ¬ Readable asText t) ∨
    ((timeArg asText t).read = .ok t ∧ Readable asText t) := by
  unfold timeArg Readable
  cases asText with
  | false => exact Or.inr ⟨rfl, fun h => by cases h⟩
  | true =>
    by_cases hw : writableTime t = true
    · exact Or.inr ⟨if_pos hw, fun _ => hw⟩
    · exact Or.inl ⟨_, if_neg hw, fun h => hw (h rfl)⟩

theorem readCreated_timeArg (t : Time) : readCreated (timeArg asText t) = .ok t ↔ Readable asText t := by
  unfold readCreated
  rcases read_timeArg asText t with ⟨err, he, hn⟩ | ⟨he, hy⟩
  · simp [he, hn]
  · simp [he, hy]

theorem readDue_timeArg (due : Option Time) :
    readDue (due.map (timeArg asText)) = .ok due ↔ ∀ d, due = some d → Readable asText d := by
  cases due with
  | none => simp [readDue]
  | some d =>
    rw [Option.map_some]
    unfold readDue
    rcases read_timeArg asText d with ⟨err, he, hn⟩ | ⟨he, hy⟩
    · simp [he, hn]
    · simp [he, hy]

theorem remainder_round_trip {a : Actor} (h : a.attributes.IsJSON) :
    readRemainder (htMarshalActorRemainder a) = some ⟨a.roles, a.attributes⟩ := by
  have hkeys : (remainderFields.map Prod.fst).Nodup := by decide
  have hfound : ∀ (i : Nat) {k : String} {f : ActorRemainder → Option (Json Value)}, remainderFields[i]? = some (k, f) →
      (encodeRecord remainderFields ⟨a.roles, a.attributes⟩).lookup k = f ⟨a.roles, a.attributes⟩ :=
    fun i _ _ hi => lookup_encodeRecord hkeys (List.mem_of_getElem? hi) _
  unfold readRemainder htMarshalActorRemainder
  dsimp only
  rw [hfound 0 rfl, hfound 1 rfl, readStrings_stringsField, readVars_varsField h]
  rfl

/-- The actor comes back without privileges. -/
theorem htDecodeActor_remainder {a : Actor} (h : a.attributes.IsJSON) :
    htDecodeActor a.id (some (htMarshalActorRemainder a)) = .ok { a with privileges := [] } := by
  unfold htDecodeActor
  dsimp only
  rw [remainder_round_trip h]

theorem actor_without_privileges {a : Actor} : { a with privileges := [] } = a ↔ a.privileges = [] := by
  constructor
  · intro h
    rw [← h]
  · intro h
    rw [← h]

theorem spec_round_trip (a : AuthzSpec) : readSpec (specJSON a) = some a := by
  have hkeys : (specFields.map Prod.fst).Nodup := by decide
  have hfound : ∀ (i : Nat) {k : String} {f : AuthzSpec → Option (Json Value)}, specFields[i]? = some (k, f) →
      (encodeRecord specFields a).lookup k = f a := fun i _ _ hi => lookup_encodeRecord hkeys (List.mem_of_getElem? hi) a
  have hstrings : ∀ l : List String, readStrings (some (.arr (l.map .str))) = some l := by
    intro l
    change (l.map Json.str).mapM Json.text? = some l
    rw [List.mapM_map, mapM_some (f := Json.text? ∘ Json.str) (h := fun b => b) (fun _ _ => rfl), List.map_id']
  have htext : readOr "" Json.text? (some (.str a.attributeExpr) : Option (Json Value)) = some a.attributeExpr := rfl
  unfold readSpec specJSON
  dsimp only
  rw [hfound 0 rfl, hfound 1 rfl, hfound 2 rfl, hstrings, hstrings, htext]
  rfl

theorem candidates_round_trip {l : List Actor} (h : ∀ a ∈ l, a.attributes.IsJSON) :
    Json.list? readActor (.arr (l.map actorJSON)) = some l := by
  change (l.map actorJSON).mapM readActor = some l
  rw [List.mapM_map, mapM_some (f := readActor ∘ actorJSON) (h := fun b => b) (fun a ha => actor_round_trip (h a ha)),
    List.map_id']

theorem vars_round_trip {m : Vars} (h : m.IsJSON) :
    Json.map? readValue (.obj (m.map (fun e => (e.1, valueJSON e.2)))) = some m := by
  change (m.map (fun e => (e.1, valueJSON e.2))).mapM (fun e => (readValue e.2).map (fun v => (e.1, v))) = some m
  rw [List.mapM_map, mapM_some (h := fun e => e), List.map_id']
  intro e he
  rw [Function.comp_apply, valueJSON, readValue, Value.decoded_of_isJSON (h e he)]
  rfl

theorem parse_toText (s : TaskState) : htParseTaskState s.toText = s := by cases s <;> decide

/-- A claim comes back whole exactly when its actor had no privileges and its time is read back. -/
theorem scanClaim_taskRow (h : t.Storable) : scanClaim (taskRow asText t) = (t.claim, []) ↔
    ∀ c, t.claim = some c → c.1.privileges = [] ∧ Readable asText c.2 := by
  cases hc : t.claim with
  | none => simp [scanClaim, taskRow, taskBinds, hc, claimBind, htAuditTime, AuditDecodeError.ofOption]
  | some c =>
    obtain ⟨actor, at_⟩ := c
    have hdec := htDecodeActor_remainder (h.claim _ hc).1
    simp only at hdec
    have hrow : scanClaim (taskRow asText t) =
        (some ({ actor with privileges := [] }, (htAuditTime (some (timeArg asText at_))).1),
          AuditDecodeError.ofOption t.taskID "claimed_at" (htAuditTime (some (timeArg asText at_))).2.2) := by
      unfold scanClaim
      rcases read_timeArg asText at_ with ⟨err, he, -⟩ | ⟨he, -⟩ <;>
      simp [taskRow, taskBinds, hc, claimBind, htClaimantID, htAuditTime, he, scanActor, hdec]
    rw [hrow]
    rcases read_timeArg asText at_ with ⟨err, he, hn⟩ | ⟨he, hy⟩
    · simp [htAuditTime, he, AuditDecodeError.ofOption, hn]
    · simp [htAuditTime, he, AuditDecodeError.ofOption, hy, actor_without_privileges]

theorem scanCompletion_taskRow (h : t.Storable) : scanCompletion (taskRow asText t) = (t.completion, []) ↔
    ∀ c, t.completion = some c → c.actor.privileges = [] ∧ Readable asText c.timestamp := by
  cases hc : t.completion with
  | none => simp [scanCompletion, taskRow, taskBinds, hc, completionBind, htAuditTime, AuditDecodeError.ofOption]
  | some c =>
    obtain ⟨actor, at_, outcome, note⟩ := c
    have hdec := htDecodeActor_remainder (h.completion _ hc).1
    simp only at hdec
    have hrow : scanCompletion (taskRow asText t) =
        (some ⟨{ actor with privileges := [] }, (htAuditTime (some (timeArg asText at_))).1, outcome, note⟩,
          AuditDecodeError.ofOption t.taskID "completed_at" (htAuditTime (some (timeArg asText at_))).2.2) := by
      unfold scanCompletion
      rcases read_timeArg asText at_ with ⟨err, he, -⟩ | ⟨he, -⟩ <;>
      simp [taskRow, taskBinds, hc, completionBind, htAuditTime, he, scanActor, hdec]
    rw [hrow]
    rcases read_timeArg asText at_ with ⟨err, he, hn⟩ | ⟨he, hy⟩
    · simp [htAuditTime, he, AuditDecodeError.ofOption, hn]
    · simp [htAuditTime, he, AuditDecodeError.ofOption, hy, actor_without_privileges]

/-- A row gives its task back whole exactly when the task is plain. -/
theorem scanTask_taskRow (h : t.Storable) : scanTask (taskRow asText t) = .ok (t, []) ↔ t.Plain asText := by
  have hspec : readColumn "eligibility" readSpec (taskRow asText t).eligibility = .ok t.eligibility := by
    change readColumn "eligibility" readSpec (specJSON t.eligibility) = _
    rw [readColumn, spec_round_trip]
  have hcand : readColumn "candidates" (Json.list? readActor) (taskRow asText t).candidates = .ok t.candidates := by
    change readColumn "candidates" (Json.list? readActor) (.arr (t.candidates.map actorJSON)) = _
    rw [readColumn, candidates_round_trip h.candidates]
  have hvars : readColumn "vars" (Json.map? readValue) (taskRow asText t).vars = .ok t.vars := by
    change readColumn "vars" (Json.map? readValue) (.obj (t.vars.map (fun e => (e.1, valueJSON e.2)))) = _
    rw [readColumn, vars_round_trip h.vars]
  have hcreated : (taskRow asText t).createdAt = timeArg asText t.createdAt := rfl
  have hdue : (taskRow asText t).dueAt = t.dueAt.map (timeArg asText) := rfl
  have hstate : htParseTaskState (taskRow asText t).state = t.state := parse_toText t.state
  unfold scanTask
  rw [hspec, hcand, hvars, hcreated, hdue, hstate]
  constructor
  · intro hscan
    obtain ⟨createdAt, hc, hscan⟩ := bind_ok hscan
    obtain ⟨dueAt, hd, hscan⟩ := bind_ok hscan
    have he := Prod.mk.inj (Except.ok.inj hscan)
    have herrs := List.append_eq_nil_iff.mp he.2
    have hclaim : scanClaim (taskRow asText t) = (t.claim, []) :=
      Prod.ext (congrArg HumanTask.claim he.1) herrs.1
    have hcompletion : scanCompletion (taskRow asText t) = (t.completion, []) :=
      Prod.ext (congrArg HumanTask.completion he.1) herrs.2
    have hcr : createdAt = t.createdAt := congrArg HumanTask.createdAt he.1
    have hdu : dueAt = t.dueAt := congrArg HumanTask.dueAt he.1
    rw [hcr] at hc
    rw [hdu] at hd
    exact ⟨(scanClaim_taskRow h).mp hclaim, (scanCompletion_taskRow h).mp hcompletion, (readCreated_timeArg _).mp hc,
      (readDue_timeArg _).mp hd⟩
  · intro hp
    rw [(readCreated_timeArg t.createdAt).mpr hp.created, (readDue_timeArg t.dueAt).mpr hp.due,
      (scanClaim_taskRow h).mpr hp.claimant, (scanCompletion_taskRow h).mpr hp.completer]
    rfl

/-! ## The two stores in step -/

/-- The table holds the rows of the tasks in memory, each of which it gives back. -/
structure InStep (asText : Bool) (rows : HumanTaskStore) (m : MemTaskStore) : Prop where
  rows_eq : rows = m.map (taskRow asText)
  nodup : (m.map (·.taskID)).Nodup
  storable : ∀ t ∈ m, t.Storable
  plain : ∀ t ∈ m, t.Plain asText

theorem scanAll_rows {op : String} {ts : List HumanTask} (hst : ∀ t ∈ ts, t.Storable) (hpl : ∀ t ∈ ts, t.Plain asText) :
    HumanTaskStore.scanAll op (ts.map (taskRow asText)) = .ok ts := by
  induction ts with
  | nil => rfl
  | cons t ts ih =>
    have hscan := (scanTask_taskRow (hst t List.mem_cons_self)).mpr (hpl t List.mem_cons_self)
    have hrest := ih (fun t' ht' => hst t' (List.mem_cons_of_mem _ ht')) (fun t' ht' => hpl t' (List.mem_cons_of_mem _ ht'))
    rw [List.map_cons]
    unfold HumanTaskStore.scanAll
    rw [hscan]
    dsimp only
    rw [hrest]

namespace InStep

variable {rows : HumanTaskStore} {m : MemTaskStore}

theorem query (h : InStep asText rows m) (op : String) (sel : HumanTaskRow → Bool) :
    rows.query op sel = .ok (orderBy (·.taskID) (m.filter (fun t => sel (taskRow asText t)))) := by
  have hsel : rows.filter sel = (m.filter (fun t => sel (taskRow asText t))).map (taskRow asText) := by
    rw [h.rows_eq, List.filter_map]
    rfl
  have hin : ∀ t ∈ orderBy (·.taskID) (m.filter (fun t => sel (taskRow asText t))), t ∈ m :=
    fun t ht => List.mem_of_mem_filter (List.mem_mergeSort.mp ht)
  have horder : orderBy (·.taskID) ((m.filter (fun t => sel (taskRow asText t))).map (taskRow asText)) =
      (orderBy (·.taskID) (m.filter (fun t => sel (taskRow asText t)))).map (taskRow asText) :=
    (map_orderBy (fun _ => rfl) _).symm
  unfold HumanTaskStore.query
  rw [hsel, horder]
  exact scanAll_rows (fun t ht => h.storable t (hin t ht)) (fun t ht => h.plain t (hin t ht))

theorem get (h : InStep asText rows m) (taskID : String) : rows.get taskID = m.get taskID := by
  have hfind : rows.find? (fun row => row.taskID == taskID) =
      (m.find? (fun t => t.taskID == taskID)).map (taskRow asText) := by
    rw [h.rows_eq, List.find?_map]
    rfl
  unfold HumanTaskStore.get MemTaskStore.get
  rw [hfind]
  cases hm : m.find? (fun t => t.taskID == taskID) with
  | none => rfl
  | some t =>
    have ht := List.mem_of_find?_eq_some hm
    rw [Option.map_some]
    dsimp only
    rw [(scanTask_taskRow (h.storable t ht)).mpr (h.plain t ht)]

/-- The column names the claimant, and nobody for a task without a claim. -/
theorem assignedTo (h : InStep asText rows m) (actorID : String) : rows.assignedTo actorID = m.assignedTo actorID := by
  unfold HumanTaskStore.assignedTo MemTaskStore.assignedTo
  by_cases hid : actorID = ""
  · rw [if_pos hid, if_pos hid]
  · have hsel : ∀ t : HumanTask, ((taskRow asText t).claimedBy == actorID) = t.claim.any (fun c => c.1.id == actorID) := by
      intro t
      change (htClaimantID t == actorID) = _
      unfold htClaimantID
      cases t.claim with
      | none => exact beq_eq_false_iff_ne.mpr (fun he => hid he.symm)
      | some c => rfl
    rw [if_neg hid, if_neg hid, h.query]
    simp only [hsel]

theorem claimableBy (h : InStep asText rows m) (actor : Actor) : rows.claimableBy actor = m.claimableBy actor := by
  have hsel : ∀ t : HumanTask, ((taskRow asText t).state == TaskState.unclaimed.toText) = (t.state == .unclaimed) := by
    intro t
    change (t.state.toText == TaskState.unclaimed.toText) = _
    cases t.state <;> decide
  have hnodup : ((m.filter (fun t => t.state == .unclaimed)).map (·.taskID)).Nodup :=
    h.nodup.sublist (List.Sublist.map _ List.filter_sublist)
  unfold HumanTaskStore.claimableBy MemTaskStore.claimableBy
  rw [h.query]
  simp only [hsel]
  rw [filter_orderBy hnodup, List.filter_filter]
  simp only [Bool.and_comm]

theorem upsert (h : InStep asText rows m) {t : HumanTask} (hst : t.Storable) (hpl : t.Plain asText) :
    InStep asText (putBy (·.taskID) (taskRow asText t) rows) (putBy (·.taskID) t m) := by
  refine ⟨?_, nodup_putBy h.nodup t, fun t' ht' => ?_, fun t' ht' => ?_⟩
  · rw [h.rows_eq]
    exact (map_putBy (fun _ => rfl) t m).symm
  · rcases mem_putBy ht' with rfl | ht'
    · exact hst
    · exact h.storable t' ht'
  · rcases mem_putBy ht' with rfl | ht'
    · exact hpl
    · exact h.plain t' ht'

/-- One call is answered alike, and leaves the stores in step. -/
theorem answer (h : InStep asText rows m) {call : TaskCall} (hst : ∀ t, call = .upsert t → t.Storable ∧ t.Plain asText) :
    (rows.answer asText call).1 = (m.answer call).1 ∧ InStep asText (rows.answer asText call).2 (m.answer call).2 := by
  cases call with
  | upsert t =>
    obtain ⟨hs, hp⟩ := hst t rfl
    have hsql := @upsert_storable asText _ hs rows
    have hmem : m.upsert t = .ok (putBy (·.taskID) t m) := by
      unfold MemTaskStore.upsert
      rw [hs.valid]
    unfold HumanTaskStore.answer MemTaskStore.answer
    dsimp only
    rw [hsql, hmem]
    exact ⟨rfl, h.upsert hs hp⟩
  | get taskID => exact ⟨congrArg TaskAnswer.task (h.get taskID), h⟩
  | assignedTo actorID => exact ⟨congrArg TaskAnswer.tasks (h.assignedTo actorID), h⟩
  | claimableBy actor => exact ⟨congrArg TaskAnswer.tasks (h.claimableBy actor), h⟩

theorem run (h : InStep asText rows m) {calls : List TaskCall}
    (hst : ∀ t, TaskCall.upsert t ∈ calls → t.Storable ∧ t.Plain asText) : rows.run asText calls = m.run calls := by
  induction calls generalizing rows m with
  | nil => rfl
  | cons call calls ih =>
    have hcall : ∀ t, call = .upsert t → t.Storable ∧ t.Plain asText := fun t ht => hst t (ht ▸ List.mem_cons_self)
    obtain ⟨hanswer, hnext⟩ := h.answer hcall
    have hrest := ih hnext (fun t ht => hst t (List.mem_cons_of_mem _ ht))
    unfold HumanTaskStore.run MemTaskStore.run
    rw [hanswer, hrest]

end InStep

/-- A task that is read as it was written is a plain one. -/
theorem plain_of_read (hst : t.Storable)
    (hrun : HumanTaskStore.run asText [] [.upsert t, .get t.taskID] = MemTaskStore.run [] [.upsert t, .get t.taskID]) :
    t.Plain asText := by
  have hsql : HumanTaskStore.answer asText [] (.upsert t) = (.done (.ok ()), [taskRow asText t]) := by
    unfold HumanTaskStore.answer
    dsimp only
    rw [upsert_storable hst]
    rfl
  have hmem : MemTaskStore.answer [] (.upsert t) = (.done (.ok ()), [t]) := by
    unfold MemTaskStore.answer MemTaskStore.upsert
    dsimp only
    rw [hst.valid]
    rfl
  simp only [HumanTaskStore.run, MemTaskStore.run, hsql, hmem] at hrun
  have hget : HumanTaskStore.get [taskRow asText t] t.taskID = MemTaskStore.get [t] t.taskID :=
    TaskAnswer.task.inj (List.cons.inj (List.cons.inj hrun).2).1
  have hfound : MemTaskStore.get [t] t.taskID = .ok t := by simp [MemTaskStore.get]
  have hrow : (taskRow asText t).taskID = t.taskID := rfl
  rw [hfound] at hget
  simp only [HumanTaskStore.get, List.find?_cons, hrow, beq_self_eq_true] at hget
  refine (scanTask_taskRow hst).mp ?_
  split at hget
  · cases hget
  · rename_i t' hscan
    rw [hscan, Except.ok.inj hget]
  · cases hget

/-- Every sequence of calls that writes tasks of this kind only is answered alike. -/
def TaskStoresAgree (asText : Bool) (kind : HumanTask → Prop) : Prop :=
  ∀ calls, (∀ t, TaskCall.upsert t ∈ calls → kind t) → HumanTaskStore.run asText [] calls = MemTaskStore.run [] calls

/-- The stores cannot be told apart exactly over plain tasks. -/
theorem task_stores_agree_iff (asText : Bool) {kind : HumanTask → Prop} (hkind : ∀ t, kind t → t.Storable) :
    TaskStoresAgree asText kind ↔ ∀ t, kind t → t.Plain asText := by
  constructor
  · intro hagree t ht
    refine plain_of_read (hkind t ht) (hagree _ (fun t' ht' => ?_))
    have he : t' = t := by simpa using ht'
    exact he ▸ ht
  · intro hplain calls hcalls
    have hempty : InStep asText [] [] := ⟨rfl, List.nodup_nil, by simp, by simp⟩
    exact hempty.run (fun t ht => ⟨hkind t (hcalls t ht), hplain t (hcalls t ht)⟩)

/-- A task alice has claimed. -/
def alicesTask (privileges : List String) : HumanTask :=
  { taskID := "t1", instanceID := "i1", nodeID := "approve", eligibility := ⟨["manager"], ["invoice approve"], ""⟩,
    state := .claimed, claim := some ({ id := "alice", roles := ["manager"], privileges := privileges }, 1),
    createdAt := 1, vars := [("amount", .str "12")] }

theorem alicesTask_storable (privileges : List String) : (alicesTask privileges).Storable := by
  refine ⟨rfl, ?_, ?_, ?_, ?_⟩
  · simp [Vars.IsJSON, alicesTask, Value.isJSON]
  · simp [alicesTask]
  · rintro c hc
    obtain rfl := Option.some.inj hc
    exact ⟨by simp [Vars.IsJSON], rfl⟩
  · simp [alicesTask]

theorem roles_only_agree : TaskStoresAgree true (fun t => t = alicesTask []) := by
  have hkind : ∀ t, t = alicesTask [] → t.Storable := fun t ht => ht ▸ alicesTask_storable []
  refine (task_stores_agree_iff true hkind).mpr ?_
  rintro t rfl
  refine ⟨?_, ?_, fun _ => by decide, ?_⟩
  · rintro c hc
    obtain rfl := Option.some.inj hc
    exact ⟨rfl, fun _ => by decide⟩
  · simp [alicesTask]
  · simp [alicesTask]

/-- The claimant's privileges are gone when the task is read back. -/
theorem privileges_lost : ∃ t, t.Storable ∧ HumanTaskStore.run false [] [.upsert t, .get t.taskID] ≠
    MemTaskStore.run [] [.upsert t, .get t.taskID] := by
  refine ⟨alicesTask ["invoice approve"], alicesTask_storable _, fun hrun => ?_⟩
  have hplain := plain_of_read (alicesTask_storable _) hrun
  have hnone := (hplain.claimant _ rfl).1
  cases hnone

end Wrkflw
